/-
# Threads that lock, and what a stop leaves behind

Threads run straight code, with mutexes, flags with a condition variable, and loops; a
thread may be sent a stop, and ends wherever it is when it handles it.  Every instruction
is one atomic step, the release, the waking up and the re-acquisition inside a condition wait
included.  A thread that handles its stop asleep in a condition wait takes the mutex of the wait
again before it ends, since the clean-up of the wait is run; one that is awake and waits for the
mutex ends without it.

Whether a thread holds a mutex can be read off the code it has left: it does exactly when
the mutex is unlocked there before it is locked (`heldAt`).  As long as all locked sections
are bracketed in the code (`Balanced`), the owner of a mutex is the thread whose code says
so, in every reachable state (`Inv`).  A stopped thread keeps what it held, so a lock is
stranded exactly when a stop was handled inside a locked section
(`noStrandedLock_iff`).

The module names nothing of the program: its threads, mutexes, flags and other operations
are parameters.
-/
import Mathlib.Logic.Function.Basic
import Mathlib.Tactic.Cases
import Quadrocopt.Transition

namespace LockProgram

open Transition

/-- The instructions of the threads `τ`, over mutexes `μ`, flags `φ` and operations `ω` that
touch neither. -/
inductive Instr (τ μ φ ω : Type*) where
  | lock (m : μ)
  | unlock (m : μ)
  /-- `while (!f) cond_wait(m)`. -/
  | waitWhileDown (f : φ) (m : μ)
  /-- The middle of a `cond_wait(m)`: the mutex is released, and the thread sleeps. -/
  | sleep (m : μ)
  /-- The end of a `cond_wait(m)`: awake, the thread takes the mutex again. -/
  | relock (m : μ)
  | clear (f : φ)
  | set (f : φ)
  | act (o : ω)
  | kill (t : τ)
  | join (t : τ)
  /-- Back to the head of the loop. -/
  | again

variable {τ μ φ ω : Type*}

/-- What each thread runs first, and the body of its loop. -/
structure Program (τ μ φ ω : Type*) where
  code : τ → List (Instr τ μ φ ω)
  body : τ → List (Instr τ μ φ ω)

/-- The owners of the mutexes, the flags, the code each thread has left, the stops sent and
the stops handled. -/
structure State (τ μ φ ω : Type*) where
  owner : μ → Option τ
  flag : φ → Bool
  code : τ → List (Instr τ μ φ ω)
  pending : τ → Bool
  stopped : τ → Bool

/-- Nothing is locked and nobody is stopped. -/
def init (prog : Program τ μ φ ω) (flag : φ → Bool) : State τ μ φ ω where
  owner := fun _ => none
  flag := flag
  code := prog.code
  pending := fun _ => false
  stopped := fun _ => false

/-- The thread has ended: it was stopped, or has returned. -/
def Ended (s : State τ μ φ ω) (t : τ) : Prop := s.stopped t = true ∨ s.code t = []

/-- No thread that has ended owns a mutex. -/
def NoStrandedLock (s : State τ μ φ ω) : Prop := ∀ t m, Ended s t → s.owner m ≠ some t

/-- Who moves: a thread takes its next instruction, or handles the stop it was sent. -/
inductive Action (τ : Type*) where
  | thread (t : τ)
  | handle (t : τ)
  deriving DecidableEq

/-! ## The steps -/

section Steps

variable [DecidableEq τ] [DecidableEq μ] [DecidableEq φ] (prog : Program τ μ φ ω)

/-- The next instruction of a thread. -/
def stepThread (t : τ) (s : State τ μ φ ω) : Option (State τ μ φ ω) :=
  if s.stopped t then none
  else match s.code t with
    | [] => none
    | .lock m :: rest =>
        if s.owner m = none then
          some { s with
            owner := Function.update s.owner m (some t)
            code := Function.update s.code t rest }
        else none
    | .relock m :: rest =>
        if s.owner m = none then
          some { s with
            owner := Function.update s.owner m (some t)
            code := Function.update s.code t rest }
        else none
    | .unlock m :: rest =>
        some { s with
          owner := Function.update s.owner m none
          code := Function.update s.code t rest }
    | .waitWhileDown f m :: rest =>
        -- the mutex is released, and taken again when the thread is awake; then the flag is
        -- looked at again
        if s.flag f then some { s with code := Function.update s.code t rest }
        else some { s with
          code := Function.update s.code t (.unlock m :: .sleep m :: .waitWhileDown f m :: rest) }
    | .sleep m :: rest =>
        -- it may be woken at any time
        some { s with code := Function.update s.code t (.relock m :: rest) }
    | .clear f :: rest =>
        some { s with
          flag := Function.update s.flag f false
          code := Function.update s.code t rest }
    | .set f :: rest =>
        some { s with
          flag := Function.update s.flag f true
          code := Function.update s.code t rest }
    | .act _ :: rest => some { s with code := Function.update s.code t rest }
    | .kill t' :: rest =>
        some { s with
          pending := Function.update s.pending t' true
          code := Function.update s.code t rest }
    | .join t' :: rest =>
        if s.stopped t' ∨ (s.code t').isEmpty then
          some { s with code := Function.update s.code t rest }
        else none
    | .again :: _ => some { s with code := Function.update s.code t (prog.body t) }

/-- The thread handles the stop it was sent, and ends. -/
def stepHandle (t : τ) (s : State τ μ φ ω) : Option (State τ μ φ ω) :=
  if s.pending t ∧ ¬ s.stopped t then
    match s.code t with
    | [] => none
    | .sleep m :: rest =>
        -- asleep in a condition wait, it does not end before it has the mutex back
        if s.owner m = none then
          some { s with
            owner := Function.update s.owner m (some t)
            code := Function.update s.code t rest
            stopped := Function.update s.stopped t true }
        else none
    | _ => some { s with stopped := Function.update s.stopped t true }
  else none

/-- One step. -/
def step (s : State τ μ φ ω) : Action τ → Option (State τ μ φ ω)
  | .thread t => stepThread prog t s
  | .handle t => stepHandle t s

end Steps

/-! ## Locked sections -/

section Sections

variable [DecidableEq μ]

/-- A thread with this code left holds the mutex: it is going to unlock it before it locks
it. -/
def heldAt (m : μ) : List (Instr τ μ φ ω) → Bool
  | [] => false
  | .lock m' :: rest => if m' = m then false else heldAt m rest
  | .sleep m' :: rest => if m' = m then false else heldAt m rest
  | .relock m' :: rest => if m' = m then false else heldAt m rest
  | .unlock m' :: rest => if m' = m then true else heldAt m rest
  | .again :: _ => false
  | _ :: rest => heldAt m rest

/-- The code is left outside of all locked sections. -/
def Outside (code : List (Instr τ μ φ ω)) : Prop := ∀ m, heldAt m code = false

/-- The thread is asleep in a condition wait. -/
def Asleep (code : List (Instr τ μ φ ω)) : Prop := ∃ m rest, code = .sleep m :: rest

/-- A lock is followed by its unlock, an unlock is not followed by another, and a condition
wait is inside the section of its mutex. -/
def Bracketed : List (Instr τ μ φ ω) → Prop
  | [] => True
  | .lock m :: rest => heldAt m rest = true ∧ Bracketed rest
  | .sleep m :: rest => heldAt m rest = true ∧ Bracketed rest
  | .relock m :: rest => heldAt m rest = true ∧ Bracketed rest
  | .unlock m :: rest => heldAt m rest = false ∧ Bracketed rest
  | .waitWhileDown _ m :: rest => heldAt m rest = true ∧ Bracketed rest
  | _ :: rest => Bracketed rest

/-- A piece of code that starts and ends outside of all sections. -/
structure Balanced (code : List (Instr τ μ φ ω)) : Prop where
  outside : Outside code
  bracketed : Bracketed code

theorem Bracketed.tail {i : Instr τ μ φ ω} {rest : List (Instr τ μ φ ω)}
    (h : Bracketed (i :: rest)) : Bracketed rest := by
  cases i <;> first | exact h.2 | exact h

/-- What follows outside of all sections does not matter. -/
theorem heldAt_append {xs ys : List (Instr τ μ φ ω)} (hys : Outside ys) (m : μ) :
    heldAt m (xs ++ ys) = heldAt m xs := by
  induction xs with
  | nil => exact hys m
  | cons i xs ih => cases i <;> simp [heldAt, ih]

theorem Bracketed.append {xs ys : List (Instr τ μ φ ω)} (hxs : Bracketed xs)
    (hys : Balanced ys) : Bracketed (xs ++ ys) := by
  induction xs with
  | nil => exact hys.bracketed
  | cons i xs ih =>
      have htail := ih hxs.tail
      cases i <;> simp_all [Bracketed, heldAt_append hys.outside]

theorem Balanced.nil : Balanced ([] : List (Instr τ μ φ ω)) := ⟨fun _ => rfl, trivial⟩

theorem Balanced.again : Balanced ([.again] : List (Instr τ μ φ ω)) :=
  ⟨fun _ => rfl, trivial⟩

/-- An instruction that has nothing to do with a mutex, nor goes back. -/
def Instr.plain : Instr τ μ φ ω → Bool
  | .lock _ => false
  | .unlock _ => false
  | .waitWhileDown _ _ => false
  | .sleep _ => false
  | .relock _ => false
  | .clear _ => true
  | .set _ => true
  | .act _ => true
  | .kill _ => true
  | .join _ => true
  | .again => false

theorem Balanced.of_plain {xs : List (Instr τ μ φ ω)} (h : xs.all Instr.plain = true) :
    Balanced xs := by
  induction xs with
  | nil => exact Balanced.nil
  | cons i xs ih =>
      obtain ⟨hi, hxs⟩ := Bool.and_eq_true_iff.mp h
      obtain ⟨houtside, hbracketed⟩ := ih hxs
      cases i <;> first | exact ⟨houtside, hbracketed⟩ | cases hi

/-- An instruction that may stand between the lock and the unlock of `m`. -/
def Instr.inside (m : μ) : Instr τ μ φ ω → Bool
  | .waitWhileDown _ m' => m' = m
  | i => i.plain

/-- A locked section. -/
theorem Balanced.locked {m : μ} {xs : List (Instr τ μ φ ω)}
    (h : xs.all (Instr.inside m) = true) : Balanced (.lock m :: (xs ++ [.unlock m])) := by
  have hsection : (∀ m', heldAt m' (xs ++ [.unlock m]) = decide (m = m'))
      ∧ Bracketed (xs ++ [.unlock m]) := by
    induction xs with
    | nil => exact ⟨fun m' => by simp [heldAt], by simp [Bracketed, heldAt]⟩
    | cons i xs ih =>
        obtain ⟨hi, hxs⟩ := Bool.and_eq_true_iff.mp h
        obtain ⟨hheld, hbracketed⟩ := ih hxs
        cases i with
        | waitWhileDown f m' =>
            obtain rfl := of_decide_eq_true hi
            exact ⟨hheld, (hheld m').trans (decide_eq_true rfl), hbracketed⟩
        | _ => first | exact ⟨hheld, hbracketed⟩ | cases hi
  obtain ⟨hheld, hbracketed⟩ := hsection
  constructor
  · intro m'
    by_cases hm : m = m'
    · simp [heldAt, hm]
    · simp [heldAt, hm, hheld]
  · exact ⟨(hheld m).trans (decide_eq_true rfl), hbracketed⟩

/-- Balanced pieces may be put together. -/
theorem Balanced.append {xs ys : List (Instr τ μ φ ω)} (hxs : Balanced xs) (hys : Balanced ys) :
    Balanced (xs ++ ys) where
  outside := fun m => (heldAt_append hys.outside m).trans (hxs.outside m)
  bracketed := hxs.bracketed.append hys

theorem Balanced.flatten {xss : List (List (Instr τ μ φ ω))} (h : ∀ xs ∈ xss, Balanced xs) :
    Balanced xss.flatten := by
  induction xss with
  | nil => exact Balanced.nil
  | cons xs xss ih =>
      rw [List.flatten_cons]
      exact (h xs List.mem_cons_self).append (ih fun ys hys => h ys (List.mem_cons_of_mem _ hys))

/-- An instruction that neither locks nor unlocks nor goes back. -/
def Instr.neutral : Instr τ μ φ ω → Bool
  | .lock _ => false
  | .sleep _ => false
  | .relock _ => false
  | .unlock _ => false
  | .again => false
  | _ => true

theorem heldAt_cons_of_neutral {i : Instr τ μ φ ω} (hi : i.neutral = true)
    (rest : List (Instr τ μ φ ω)) (m : μ) : heldAt m (i :: rest) = heldAt m rest := by
  cases i <;> first | rfl | cases hi

end Sections

/-! ## The owner is who the code says -/

section Invariant

variable [DecidableEq μ]

/-- **The invariant.**  All that is left to run is bracketed, and a thread owns a mutex
exactly when the code it has left says so. -/
structure Inv (s : State τ μ φ ω) : Prop where
  bracketed : ∀ t, Bracketed (s.code t)
  owner_iff : ∀ t m, s.owner m = some t ↔ heldAt m (s.code t) = true

theorem inv_init {prog : Program τ μ φ ω} (hcode : ∀ t, Balanced (prog.code t)) (flag : φ → Bool) :
    Inv (init prog flag) where
  bracketed := fun t => (hcode t).bracketed
  owner_iff := by
    intro t m
    show none = some t ↔ heldAt m (prog.code t) = true
    rw [(hcode t).outside m]
    simp

/-- A mutex that is owned is not the one that was free. -/
theorem owner_update_of_free {owner : μ → Option τ} {t t' : τ} {m m' : μ}
    (howns : owner m = some t) (hfree : owner m' = none) :
    Function.update owner m' (some t') m = some t := by
  have hm : m ≠ m' := by
    rintro rfl
    rw [hfree] at howns
    cases howns
  rw [Function.update_of_ne hm, howns]

/-- A thread that has returned owns nothing. -/
theorem Inv.not_owner_of_returned {s : State τ μ φ ω} (hi : Inv s) {t : τ} (ht : s.code t = []) (m : μ) :
    s.owner m ≠ some t := by
  intro howns
  rw [hi.owner_iff, ht] at howns
  cases howns

end Invariant

/-! ## What one step can do -/

section Moves

variable [DecidableEq τ] [DecidableEq μ] {prog : Program τ μ φ ω}

/-- The steps by what they do to the mutexes and to the code that is left. -/
inductive Move (prog : Program τ μ φ ω) (s : State τ μ φ ω) : Action τ → State τ μ φ ω → Prop
  | lock {s' : State τ μ φ ω} (t : τ) (m : μ) (rest : List (Instr τ μ φ ω))
      (hrunning : s.stopped t = false)
      (hpc : s.code t = .lock m :: rest ∨ s.code t = .relock m :: rest)
      (hfree : s.owner m = none) (howner : s'.owner = Function.update s.owner m (some t))
      (hcode : s'.code = Function.update s.code t rest) (hstopped : s'.stopped = s.stopped) :
      Move prog s (.thread t) s'
  | unlock {s' : State τ μ φ ω} (t : τ) (m : μ) (rest : List (Instr τ μ φ ω))
      (hrunning : s.stopped t = false) (hpc : s.code t = .unlock m :: rest)
      (howner : s'.owner = Function.update s.owner m none)
      (hcode : s'.code = Function.update s.code t rest) (hstopped : s'.stopped = s.stopped) :
      Move prog s (.thread t) s'
  | advance {s' : State τ μ φ ω} (t : τ) (i : Instr τ μ φ ω) (rest : List (Instr τ μ φ ω))
      (hrunning : s.stopped t = false) (hpc : s.code t = i :: rest) (hi : i.neutral = true)
      (howner : s'.owner = s.owner) (hcode : s'.code = Function.update s.code t rest)
      (hstopped : s'.stopped = s.stopped) : Move prog s (.thread t) s'
  | wait {s' : State τ μ φ ω} (t : τ) (f : φ) (m : μ) (rest : List (Instr τ μ φ ω))
      (hrunning : s.stopped t = false) (hpc : s.code t = .waitWhileDown f m :: rest)
      (howner : s'.owner = s.owner)
      (hcode : s'.code
        = Function.update s.code t (.unlock m :: .sleep m :: .waitWhileDown f m :: rest))
      (hstopped : s'.stopped = s.stopped) : Move prog s (.thread t) s'
  | wake {s' : State τ μ φ ω} (t : τ) (m : μ) (rest : List (Instr τ μ φ ω))
      (hrunning : s.stopped t = false) (hpc : s.code t = .sleep m :: rest)
      (howner : s'.owner = s.owner)
      (hcode : s'.code = Function.update s.code t (.relock m :: rest))
      (hstopped : s'.stopped = s.stopped) : Move prog s (.thread t) s'
  | again {s' : State τ μ φ ω} (t : τ) (rest : List (Instr τ μ φ ω))
      (hrunning : s.stopped t = false) (hpc : s.code t = .again :: rest)
      (howner : s'.owner = s.owner) (hcode : s'.code = Function.update s.code t (prog.body t))
      (hstopped : s'.stopped = s.stopped) : Move prog s (.thread t) s'
  | handle {s' : State τ μ φ ω} (t : τ) (hawake : ¬ Asleep (s.code t))
      (howner : s'.owner = s.owner) (hcode : s'.code = s.code)
      (hstopped : s'.stopped = Function.update s.stopped t true) : Move prog s (.handle t) s'
  | handleAsleep {s' : State τ μ φ ω} (t : τ) (m : μ) (rest : List (Instr τ μ φ ω))
      (hrunning : s.stopped t = false) (hpc : s.code t = .sleep m :: rest)
      (hfree : s.owner m = none) (howner : s'.owner = Function.update s.owner m (some t))
      (hcode : s'.code = Function.update s.code t rest)
      (hstopped : s'.stopped = Function.update s.stopped t true) : Move prog s (.handle t) s'

/-- A thread that moves on to bracketed code leaves all code bracketed. -/
theorem bracketed_update {code : τ → List (Instr τ μ φ ω)} (h : ∀ t, Bracketed (code t)) {t : τ}
    {rest : List (Instr τ μ φ ω)} (hrest : Bracketed rest) :
    ∀ t', Bracketed (Function.update code t rest t') := by
  intro t'
  by_cases ht : t' = t
  · subst ht
    rw [Function.update_self]
    exact hrest
  · rw [Function.update_of_ne ht]
    exact h t'

/-- A thread moves on to other code, and all that it holds stays as it was. -/
theorem Inv.of_code {s s' : State τ μ φ ω} (hi : Inv s) {t : τ} {rest : List (Instr τ μ φ ω)}
    (hrest : Bracketed rest) (hheld : ∀ m, heldAt m rest = heldAt m (s.code t))
    (howner : s'.owner = s.owner) (hcode : s'.code = Function.update s.code t rest) : Inv s' := by
  constructor
  · rw [hcode]
    exact bracketed_update hi.bracketed hrest
  · intro t' m
    rw [howner, hcode, hi.owner_iff t' m]
    by_cases ht : t' = t
    · subst ht
      rw [Function.update_self, hheld]
    · rw [Function.update_of_ne ht]

/-- A thread moves on, and one mutex changes hands: it was nobody else's and becomes nobody
else's, and whether it is the thread's is as the rest of the code says. -/
theorem Inv.of_owner {s s' : State τ μ φ ω} (hi : Inv s) {t : τ} {m : μ} {o : Option τ}
    {rest : List (Instr τ μ φ ω)} (hrest : Bracketed rest)
    (hself : o = some t ↔ heldAt m rest = true)
    (hothers : ∀ t', t' ≠ t → s.owner m ≠ some t' ∧ o ≠ some t')
    (hheld : ∀ m', m' ≠ m → heldAt m' rest = heldAt m' (s.code t))
    (howner : s'.owner = Function.update s.owner m o)
    (hcode : s'.code = Function.update s.code t rest) : Inv s' := by
  constructor
  · rw [hcode]
    exact bracketed_update hi.bracketed hrest
  · intro t' m'
    rw [howner, hcode]
    by_cases ht : t' = t
    · subst ht
      by_cases hm : m' = m
      · subst hm
        rw [Function.update_self, Function.update_self]
        exact hself
      · rw [Function.update_self, Function.update_of_ne hm, hheld m' hm]
        exact hi.owner_iff t' m'
    · rw [Function.update_of_ne ht, ← hi.owner_iff t' m']
      by_cases hm : m' = m
      · subst hm
        rw [Function.update_self]
        exact iff_of_false (hothers t' ht).2 (hothers t' ht).1
      · rw [Function.update_of_ne hm]

/-- A thread takes a free mutex and moves on. -/
theorem Inv.of_take {s s' : State τ μ φ ω} (hi : Inv s) {t : τ} {m : μ}
    {rest : List (Instr τ μ φ ω)}
    (hpc : s.code t = .lock m :: rest ∨ s.code t = .relock m :: rest
      ∨ s.code t = .sleep m :: rest) (hfree : s.owner m = none)
    (howner : s'.owner = Function.update s.owner m (some t))
    (hcode : s'.code = Function.update s.code t rest) : Inv s' := by
  have hb : heldAt m rest = true ∧ Bracketed rest := by
    have hb := hi.bracketed t
    rcases hpc with hpc | hpc | hpc <;> rw [hpc] at hb <;> exact hb
  refine hi.of_owner hb.2 ?_ ?_ ?_ howner hcode
  · exact iff_of_true rfl hb.1
  · intro t' ht
    rw [hfree]
    simp [Ne.symm ht]
  · intro m' hm'
    rcases hpc with hpc | hpc | hpc <;> rw [hpc] <;> simp [heldAt, Ne.symm hm']

/-- **Step lemma.** -/
theorem inv_move (hbody : ∀ t, Balanced (prog.body t)) {s s' : State τ μ φ ω} {a : Action τ}
    (hi : Inv s) (hm : Move prog s a s') : Inv s' := by
  cases hm with
  | lock t m rest hrunning hpc hfree howner hcode hstopped =>
      exact hi.of_take (hpc.imp_right .inl) hfree howner hcode
  | unlock t m rest hrunning hpc howner hcode hstopped =>
      have hb := hi.bracketed t
      rw [hpc] at hb
      have howns : s.owner m = some t := by
        rw [hi.owner_iff, hpc]
        simp [heldAt]
      refine hi.of_owner hb.2 ?_ ?_ ?_ howner hcode
      · rw [hb.1]
        simp
      · intro t' ht
        rw [howns]
        simp [Ne.symm ht]
      · intro m' hm'
        rw [hpc]
        simp [heldAt, Ne.symm hm']
  | advance t i rest hrunning hpc hneutral howner hcode hstopped =>
      have hb := hi.bracketed t
      rw [hpc] at hb
      refine hi.of_code hb.tail ?_ howner hcode
      intro m
      rw [hpc, heldAt_cons_of_neutral hneutral]
  | wait t f m rest hrunning hpc howner hcode hstopped =>
      -- released and taken again, the mutex is held at the wait as it was before
      have hb := hi.bracketed t
      rw [hpc] at hb
      refine hi.of_code ?_ ?_ howner hcode
      · exact ⟨by simp [heldAt], ⟨hb.1, hb⟩⟩
      · intro m'
        rw [hpc]
        by_cases hm' : m = m'
        · subst hm'
          simp [heldAt, hb.1]
        · simp [heldAt, hm']
  | wake t m rest hrunning hpc howner hcode hstopped =>
      have hb : Bracketed (.relock m :: rest) := by
        have hb := hi.bracketed t
        rwa [hpc] at hb
      refine hi.of_code hb ?_ howner hcode
      intro m'
      rw [hpc]
      rfl
  | again t rest hrunning hpc howner hcode hstopped =>
      refine hi.of_code (hbody t).bracketed ?_ howner hcode
      intro m
      rw [hpc, (hbody t).outside m]
      rfl
  | handle t hawake howner hcode hstopped =>
      exact ⟨fun t => hcode ▸ hi.bracketed t, fun t m => by rw [howner, hcode, hi.owner_iff]⟩
  | handleAsleep t m rest hrunning hpc hfree howner hcode hstopped =>
      exact hi.of_take (.inr (.inr hpc)) hfree howner hcode

/-! ## What a stop leaves behind -/

/-- A thread that takes an instruction was running, moves on, and stops nobody. -/
theorem Move.of_thread {s s' : State τ μ φ ω} {t : τ} (hm : Move prog s (.thread t) s') :
    s.stopped t = false ∧ s'.stopped = s.stopped
      ∧ ∃ rest, s'.code = Function.update s.code t rest := by
  cases hm with
  | lock _ m rest hrunning hpc hfree howner hcode hstopped =>
      exact ⟨hrunning, hstopped, rest, hcode⟩
  | unlock _ m rest hrunning hpc howner hcode hstopped => exact ⟨hrunning, hstopped, rest, hcode⟩
  | advance _ i rest hrunning hpc hneutral howner hcode hstopped =>
      exact ⟨hrunning, hstopped, rest, hcode⟩
  | wait _ f m rest hrunning hpc howner hcode hstopped => exact ⟨hrunning, hstopped, _, hcode⟩
  | wake _ m rest hrunning hpc howner hcode hstopped => exact ⟨hrunning, hstopped, _, hcode⟩
  | again _ rest hrunning hpc howner hcode hstopped => exact ⟨hrunning, hstopped, _, hcode⟩

/-- What a thread owns, nobody else takes from it. -/
theorem Move.owner_of_ne {s s' : State τ μ φ ω} {a : Action τ} (hi : Inv s)
    (hm : Move prog s a s') {t : τ} (ha : a ≠ .thread t) {m : μ} (howns : s.owner m = some t) :
    s'.owner m = some t := by
  cases hm with
  | lock t' m' rest hrunning hpc hfree howner hcode hstopped =>
      rw [howner, owner_update_of_free howns hfree]
  | unlock t' m' rest hrunning hpc howner hcode hstopped =>
      have howns' : s.owner m' = some t' := by
        rw [hi.owner_iff, hpc]
        simp [heldAt]
      have hm : m ≠ m' := by
        rintro rfl
        rw [howns'] at howns
        exact ha (congrArg Action.thread (Option.some.inj howns))
      rw [howner, Function.update_of_ne hm, howns]
  | advance t' i rest hrunning hpc hneutral howner hcode hstopped => rw [howner, howns]
  | wait t' f m' rest hrunning hpc howner hcode hstopped => rw [howner, howns]
  | wake t' m' rest hrunning hpc howner hcode hstopped => rw [howner, howns]
  | again t' rest hrunning hpc howner hcode hstopped => rw [howner, howns]
  | handle t' hawake howner hcode hstopped => rw [howner, howns]
  | handleAsleep t' m' rest hrunning hpc hfree howner hcode hstopped =>
      rw [howner, owner_update_of_free howns hfree]

/-- A stopped thread keeps its code and all that it owns. -/
theorem Move.stopped_frame {s s' : State τ μ φ ω} {a : Action τ} (hi : Inv s)
    (hm : Move prog s a s') {t : τ} (ht : s.stopped t = true) :
    s'.stopped t = true ∧ s'.code t = s.code t
      ∧ ∀ m, s.owner m = some t → s'.owner m = some t := by
  cases a with
  | thread t' =>
      obtain ⟨hrunning, hstopped, rest, hcode⟩ := hm.of_thread
      -- the moving thread is another one, since it is running
      have hne : t ≠ t' := by
        rintro rfl
        rw [hrunning] at ht
        cases ht
      rw [hstopped, hcode, Function.update_of_ne hne]
      refine ⟨ht, rfl, fun m => hm.owner_of_ne hi ?_⟩
      rintro ⟨⟩
      exact hne rfl
  | handle t' =>
      have howner : ∀ m, s.owner m = some t → s'.owner m = some t := by
        intro m
        exact hm.owner_of_ne hi nofun
      cases hm with
      | handle _ hawake _ hcode hstopped =>
          refine ⟨?_, congrFun hcode t, howner⟩
          rw [hstopped]
          by_cases h : t = t'
          · rw [h, Function.update_self]
          · rw [Function.update_of_ne h, ht]
      | handleAsleep _ m rest hrunning hpc hfree _ hcode hstopped =>
          have hne : t ≠ t' := by
            rintro rfl
            rw [hrunning] at ht
            cases ht
          rw [hstopped, hcode, Function.update_of_ne hne, Function.update_of_ne hne]
          exact ⟨ht, rfl, howner⟩

/-- Only the handling of a stop stops a thread. -/
theorem Move.stopped_of_stopped {s s' : State τ μ φ ω} {a : Action τ} (hm : Move prog s a s')
    {t : τ} (ht : s'.stopped t = true) : s.stopped t = true ∨ a = .handle t := by
  cases a with
  | thread t' =>
      rw [hm.of_thread.2.1] at ht
      exact .inl ht
  | handle t' =>
      have hstopped : s'.stopped = Function.update s.stopped t' true := by
        cases hm with
        | handle _ hawake howner hcode hstopped => exact hstopped
        | handleAsleep _ m rest hrunning hpc hfree howner hcode hstopped => exact hstopped
      rw [hstopped] at ht
      by_cases h : t = t'
      · exact .inr (by rw [h])
      · rw [Function.update_of_ne h] at ht
        exact .inl ht

/-- A stranded lock stays stranded. -/
theorem noStrandedLock_of_move {s s' : State τ μ φ ω} {a : Action τ} (hi : Inv s)
    (hm : Move prog s a s') (h : NoStrandedLock s') : NoStrandedLock s := by
  rintro t m (hstopped | hreturned) howns
  · obtain ⟨hstopped', -, hkeeps⟩ := hm.stopped_frame hi hstopped
    exact h t m (.inl hstopped') (hkeeps m howns)
  · exact hi.not_owner_of_returned hreturned m howns

end Moves

/-! ## Runs -/

section Runs

variable [DecidableEq τ] [DecidableEq μ] [DecidableEq φ] {prog : Program τ μ φ ω}

/-- **Inversion of the step function.** -/
theorem step_move {s s' : State τ μ φ ω} {a : Action τ} (h : step prog s a = some s') :
    Move prog s a s' := by
  cases a with
  | thread t =>
      simp only [step, stepThread, Option.ite_none_left_eq_some, Bool.not_eq_true] at h
      obtain ⟨hrunning, h⟩ := h
      split at h
      · cases h
      · next m rest hpc =>
        obtain ⟨hfree, h⟩ := Option.ite_none_right_eq_some.mp h
        obtain rfl := Option.some.inj h
        exact .lock t m rest hrunning (.inl hpc) hfree rfl rfl rfl
      · next m rest hpc =>
        obtain ⟨hfree, h⟩ := Option.ite_none_right_eq_some.mp h
        obtain rfl := Option.some.inj h
        exact .lock t m rest hrunning (.inr hpc) hfree rfl rfl rfl
      · next m rest hpc =>
        obtain rfl := Option.some.inj h
        exact .unlock t m rest hrunning hpc rfl rfl rfl
      · next f m rest hpc =>
        split at h
        · obtain rfl := Option.some.inj h
          exact .advance t _ rest hrunning hpc rfl rfl rfl rfl
        · obtain rfl := Option.some.inj h
          exact .wait t f m rest hrunning hpc rfl rfl rfl
      · next m rest hpc =>
        obtain rfl := Option.some.inj h
        exact .wake t m rest hrunning hpc rfl rfl rfl
      · next f rest hpc =>
        obtain rfl := Option.some.inj h
        exact .advance t _ rest hrunning hpc rfl rfl rfl rfl
      · next f rest hpc =>
        obtain rfl := Option.some.inj h
        exact .advance t _ rest hrunning hpc rfl rfl rfl rfl
      · next o rest hpc =>
        obtain rfl := Option.some.inj h
        exact .advance t _ rest hrunning hpc rfl rfl rfl rfl
      · next t' rest hpc =>
        obtain rfl := Option.some.inj h
        exact .advance t _ rest hrunning hpc rfl rfl rfl rfl
      · next t' rest hpc =>
        obtain ⟨-, h⟩ := Option.ite_none_right_eq_some.mp h
        obtain rfl := Option.some.inj h
        exact .advance t _ rest hrunning hpc rfl rfl rfl rfl
      · next rest hpc =>
        obtain rfl := Option.some.inj h
        exact .again t rest hrunning hpc rfl rfl rfl
  | handle t =>
      simp only [step, stepHandle, Option.ite_none_right_eq_some, Bool.not_eq_true] at h
      obtain ⟨⟨-, hrunning⟩, h⟩ := h
      split at h
      · cases h
      · next m rest hpc =>
        obtain ⟨hfree, h⟩ := Option.ite_none_right_eq_some.mp h
        obtain rfl := Option.some.inj h
        exact .handleAsleep t m rest hrunning hpc hfree rfl rfl rfl
      · next hawake =>
        obtain rfl := Option.some.inj h
        exact .handle t (fun ⟨m, rest, hpc⟩ => hawake m rest hpc) rfl rfl rfl

variable {P : State τ μ φ ω → Action τ → Prop} {flag : φ → Bool} {as : List (Action τ)}
  {s : State τ μ φ ω}

/-- **Run lemma.** -/
theorem inv_run (hcode : ∀ t, Balanced (prog.code t)) (hbody : ∀ t, Balanced (prog.body t))
    (h : Run (step prog) P (init prog flag) as s) : Inv s := by
  apply h.invariant (inv_init hcode flag)
  intro s a s' hi _ hstep
  exact inv_move hbody hi (step_move hstep)

/-- The discipline under which a stop is only handled outside of all locked sections; a thread
asleep in a condition wait is inside one. -/
def StopOutside (s : State τ μ φ ω) (a : Action τ) : Prop :=
  ∀ t, a = .handle t → Outside (s.code t) ∧ ¬ Asleep (s.code t)

/-- With every stop handled outside of the locked sections, the code that stopped threads
have left is outside of them. -/
theorem outside_of_stopped (hcode : ∀ t, Balanced (prog.code t))
    (hbody : ∀ t, Balanced (prog.body t))
    (h : Run (step prog) StopOutside (init prog flag) as s) :
    ∀ t, s.stopped t = true → Outside (s.code t) := by
  induction h with
  | nil =>
      intro t ht
      cases ht
  | snoc hrun hP hstep ih =>
      intro t ht
      have hi := inv_run hcode hbody hrun
      have hm := step_move hstep
      rcases hm.stopped_of_stopped ht with hold | rfl
      · rw [(hm.stopped_frame hi hold).2.1]
        exact ih t hold
      · obtain ⟨houtside, hawake⟩ := hP t rfl
        cases hm with
        | handle _ _ howner hcode' hstopped =>
            rw [hcode']
            exact houtside
        | handleAsleep _ m rest hrunning hpc hfree howner hcode' hstopped =>
            exact absurd ⟨m, rest, hpc⟩ hawake

/-- **When a stop strands a lock.**  In the state at the end of a run no thread that has
ended owns a mutex if and only if every stop of the run was handled outside of the locked
sections of its thread. -/
theorem noStrandedLock_iff (hcode : ∀ t, Balanced (prog.code t))
    (hbody : ∀ t, Balanced (prog.body t)) (h : Run (step prog) Any (init prog flag) as s) :
    NoStrandedLock s ↔ Run (step prog) StopOutside (init prog flag) as s := by
  constructor
  · intro hno
    induction h with
    | nil => exact Run.nil
    | snoc hrun _ hstep ih =>
        have hi := inv_run hcode hbody hrun
        have hm := step_move hstep
        refine Run.snoc (ih (noStrandedLock_of_move hi hm hno)) ?_ hstep
        rintro t rfl
        cases hm with
        | handle _ hawake howner hcode' hstopped =>
            refine ⟨fun m => ?_, hawake⟩
            -- what the stopped thread held at its stop, it would still own
            by_contra hheld
            rw [Bool.not_eq_false, ← hi.owner_iff, ← howner] at hheld
            refine hno t m (.inl ?_) hheld
            rw [hstopped, Function.update_self]
        | handleAsleep _ m rest hrunning hpc hfree howner hcode' hstopped =>
            -- the mutex of the wait is its own once it has ended
            refine absurd ?_ (hno t m (.inl ?_))
            · rw [howner, Function.update_self]
            · rw [hstopped, Function.update_self]
  · rintro hrun t m (hstopped | hreturned) howns
    · have hi := inv_run hcode hbody hrun
      rw [hi.owner_iff, outside_of_stopped hcode hbody hrun t hstopped m] at howns
      cases howns
    · exact (inv_run hcode hbody hrun).not_owner_of_returned hreturned m howns

end Runs

end LockProgram
