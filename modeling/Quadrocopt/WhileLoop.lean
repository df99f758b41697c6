/-
# Loops that test before each round

The loop `while (cond s) s = body s`, with a bound on the number of tests.  The body is told
how many rounds went before it, so that what the rounds read from outside may differ.

A loop returns exactly when the test fails after some number of rounds, and then returns
the state after the first such number (`loop_eq_some_iff`).  Whatever holds at first and is
kept by each round holds after every number of rounds (`after_induction`).
-/
import Mathlib.Order.Basic
import Mathlib.Tactic.Linarith

namespace WhileLoop

variable {σ : Type*}

/-- `while (cond s) s = body n s` from round `n` on, with at most `fuel` tests. -/
def loop (cond : σ → Bool) (body : ℕ → σ → σ) : ℕ → ℕ → σ → Option σ
  | 0, _, _ => none
  | fuel + 1, n, s => if cond s then loop cond body fuel (n + 1) (body n s) else some s

/-- The state after `k` rounds, from round `n` on, whatever the tests say. -/
def after (body : ℕ → σ → σ) (n : ℕ) (s : σ) : ℕ → σ
  | 0 => s
  | k + 1 => body (n + k) (after body n s k)

variable {cond : σ → Bool} {body : ℕ → σ → σ}

/-- The first round taken out in front. -/
theorem after_succ' (n : ℕ) (s : σ) (k : ℕ) :
    after body n s (k + 1) = after body (n + 1) (body n s) k := by
  induction k with
  | zero => rfl
  | succ k ih =>
    rw [after, ih, after]
    congr 1
    omega

/-- The rule of invariants. -/
theorem after_induction {P : ℕ → σ → Prop} {s : σ} (h0 : P 0 s)
    (hstep : ∀ k s, P k s → P (k + 1) (body k s)) (k : ℕ) : P k (after body 0 s k) := by
  induction k with
  | zero => exact h0
  | succ k ih =>
    rw [after, Nat.zero_add]
    exact hstep k _ ih

/-- **When a loop returns.**  It returns the state after the first number of rounds at
which the test fails. -/
theorem loop_eq_some_iff (fuel n : ℕ) (s s' : σ) :
    loop cond body fuel n s = some s'
      ↔ ∃ k < fuel, (∀ j < k, cond (after body n s j) = true)
        ∧ cond (after body n s k) = false ∧ after body n s k = s' := by
  induction fuel generalizing n s with
  | zero => simp [loop]
  | succ fuel ih =>
    rw [loop]
    by_cases hc : cond s = true
    · rw [if_pos hc, ih]
      constructor
      · rintro ⟨k, hk, hlt, hend, hs'⟩
        refine ⟨k + 1, by omega, ?_, ?_, ?_⟩
        · rintro (_ | j) hj
          · exact hc
          · rw [after_succ']
            exact hlt j (by omega)
        · rwa [after_succ']
        · rwa [after_succ']
      · rintro ⟨k, hk, hlt, hend, hs'⟩
        obtain _ | k := k
        · rw [after, hc] at hend
          cases hend
        · rw [after_succ'] at hend hs'
          refine ⟨k, by omega, fun j hj => ?_, hend, hs'⟩
          rw [← after_succ']
          exact hlt (j + 1) (by omega)
    · rw [if_neg hc]
      constructor
      · intro h
        cases h
        exact ⟨0, by omega, by omega, by rwa [after, ← Bool.not_eq_true], rfl⟩
      · rintro ⟨k, -, hlt, -, hs'⟩
        obtain _ | k := k
        · rw [← hs', after]
        · exact absurd (hlt 0 (by omega)) hc

/-- The test fails for the first time after `k` rounds. -/
theorem loop_eq_some {s : σ} {n k fuel : ℕ} (hlt : ∀ j < k, cond (after body n s j) = true)
    (hend : cond (after body n s k) = false) (hfuel : k < fuel) :
    loop cond body fuel n s = some (after body n s k) :=
  (loop_eq_some_iff fuel n s _).mpr ⟨k, hfuel, hlt, hend, rfl⟩

/-- The test never fails. -/
theorem loop_eq_none {s : σ} {n : ℕ} (h : ∀ k, cond (after body n s k) = true) (fuel : ℕ) :
    loop cond body fuel n s = none := by
  rw [Option.eq_none_iff_forall_ne_some]
  rintro s' hs'
  obtain ⟨k, -, -, hend, -⟩ := (loop_eq_some_iff fuel n s s').mp hs'
  rw [h k] at hend
  cases hend

/-- The bound does not matter for what is returned. -/
theorem loop_inj {s s₁ s₂ : σ} {n fuel₁ fuel₂ : ℕ} (h₁ : loop cond body fuel₁ n s = some s₁)
    (h₂ : loop cond body fuel₂ n s = some s₂) : s₁ = s₂ := by
  obtain ⟨k₁, -, hlt₁, hend₁, rfl⟩ := (loop_eq_some_iff _ _ _ _).mp h₁
  obtain ⟨k₂, -, hlt₂, hend₂, rfl⟩ := (loop_eq_some_iff _ _ _ _).mp h₂
  rcases lt_trichotomy k₁ k₂ with h | rfl | h
  · rw [hlt₂ k₁ h] at hend₁
    cases hend₁
  · rfl
  · rw [hlt₁ k₂ h] at hend₂
    cases hend₂

end WhileLoop
