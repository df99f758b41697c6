/-
# Condition packs (`threading_stuff.c`)

A `ThreadConditionPack` is a flag with a mutex and a condition variable around
it.  Seen from the threads that use it, `wait_with_pack` blocks until the flag is
set and clears it, and `signal_with_pack` sets it; both are one atomic step here.
The server's `wait_listener`, `wait_for_sender`, `wait_until_calc_reads` and
`wait_for_calculator` are the same wait written out, its `signal_listener`,
`signal_calculated`, `signal_listener_ready` and `signal_sender_ready` the same
signal.
-/
import Mathlib.Tactic.TypeStar

/-- `wait_with_pack`: enabled when `cond_to_verify` is set, and clears it. -/
def waitWithPack (condToVerify : Bool) : Option Bool := if condToVerify then some false else none

/-- `signal_with_pack`: sets `cond_to_verify`. -/
def signalWithPack (_condToVerify : Bool) : Bool := true

/-- A wait that goes through found the flag set and leaves it cleared. -/
@[simp] theorem map_waitWithPack_eq_some {σ : Type*} {flag : Bool} {f : Bool → σ} {s : σ} :
    (waitWithPack flag).map f = some s ↔ flag = true ∧ f false = s := by
  cases flag <;> simp [waitWithPack]

/-- A wait blocks exactly when the flag is down. -/
@[simp] theorem waitWithPack_eq_none {flag : Bool} : waitWithPack flag = none ↔ flag = false := by
  cases flag <;> simp [waitWithPack]
