/-
# Threads that wait and signal through their code

A program of threads is often given with each wait and each signal as one step.  The code
behind a call is longer: it locks the mutex of the condition pack, looks at the flag, sleeps
and is woken, assigns the flag and unlocks (`BinarySemaphore.lean`); and between two
operations a thread locks other mutexes, prints, and unlocks them.  This module puts that
code in the place of the calls.  The machine with calls of one step is a parameter
(`Program.step`), with the calls its threads are at and what stands before each operation.

Two facts connect the machines.  Every run of the threads' code is, seen with the flags of
the packs, a run of the machine with calls of one step (`view_run`): a call takes effect
where it assigns the flag.  And the code stops nowhere else: when no thread can take a step
any more, then no thread of the machine can either (`standstill`).  The second needs that no
wake-up is lost, that locked sections do not nest, and that an operation inside a section can
be made.

The module names nothing of the program.
-/
import Quadrocopt.BinarySemaphore

namespace Threads

open Transition
open ThreadConditionPack (Call Place)

variable {τ φ μ σ α : Type*}

/-- What stands between two operations of a thread: locks and unlocks of a mutex, and what
touches nothing that is shared. -/
inductive Instr (μ : Type*) where
  | lock (m : μ)
  | unlock (m : μ)
  | act (text : String)

/-- The same code over other names of the mutexes. -/
def Instr.map {ν : Type*} (f : μ → ν) : Instr μ → Instr ν
  | .lock m => .lock (f m)
  | .unlock m => .unlock (f m)
  | .act text => .act text

/-- A machine whose threads `τ` wait and signal on the condition packs `φ` in one step.  The
flags of the packs are part of its state; `withFlags` puts others in their place. -/
structure Program (τ φ μ σ α : Type*) where
  step : σ → α → Option σ
  /-- The thread that acts, if it is one. -/
  actor : α → Option τ
  withFlags : (φ → Bool) → σ → σ
  /-- The call that a thread makes next, if it makes one. -/
  call : σ → τ → Option (φ × Call)
  /-- The action by which the machine makes the call in one step. -/
  callAct : τ → α
  /-- The call of a thread but for the flag. -/
  advance : σ → τ → σ
  /-- What stands at the head of a thread's code. -/
  start : τ → List (Instr μ)
  /-- What stands before the operation that a thread has come to. -/
  before : σ → τ → List (Instr μ)

/-- The packs, the pack that each thread is in a call on, the owners of the other mutexes,
what each thread has left before its next operation, and the state of the machine, the flags
of which are not used. -/
structure State (τ φ μ σ : Type*) where
  packs : φ → ThreadConditionPack.State τ
  inCall : τ → Option φ
  owner : μ → Option τ
  pending : τ → List (Instr μ)
  vars : σ

/-- The flags of the packs. -/
def State.flags (s : State τ φ μ σ) : φ → Bool := fun p => (s.packs p).condToVerify

/-- The machine's state with the flags of the packs. -/
def Program.view (prog : Program τ φ μ σ α) (s : State τ φ μ σ) : σ :=
  prog.withFlags s.flags s.vars

/-- All threads are at the head of their code. -/
def init (prog : Program τ φ μ σ α) (flags : φ → Bool) (vars : σ) : State τ φ μ σ where
  packs := fun p => ThreadConditionPack.init (flags p)
  inCall := fun _ => none
  owner := fun _ => none
  pending := prog.start
  vars := vars

/-- What happens next: a thread takes its next step towards or inside a call, a thread in
`pthread_cond_signal` wakes some sleepers, a sleeper wakes up by itself, or an operation of
the machine that is not a call. -/
inductive Action (τ φ α : Type*) where
  | thread (t : τ)
  | condSignal (t : τ) (ts : List τ)
  | spurious (p : φ) (t : τ)
  | op (a : α)

/-! ## The steps -/

/-- The places where a call assigns the flag. -/
def assigns : Place → Bool
  | .setFalse | .setTrue => true
  | _ => false

section Steps

variable [DecidableEq τ] [DecidableEq φ] [DecidableEq μ] (prog : Program τ φ μ σ α)

/-- The next step of a thread in a call on `p`. -/
def stepInCall (t : τ) (p : φ) (s : State τ φ μ σ) : Option (State τ φ μ σ) :=
  (ThreadConditionPack.step (s.packs p) (.next t)).map fun pack =>
    if assigns ((s.packs p).place t) then
      { s with
        packs := Function.update s.packs p pack
        pending := Function.update s.pending t (prog.before (prog.advance s.vars t) t)
        vars := prog.advance s.vars t }
    else
      { s with
        packs := Function.update s.packs p pack
        inCall := Function.update s.inCall t (if pack.place t = .idle then none else some p) }

/-- The next instruction before an operation. -/
def stepInstr (t : τ) (i : Instr μ) (rest : List (Instr μ)) (s : State τ φ μ σ) :
    Option (State τ φ μ σ) :=
  match i with
  | .lock m =>
      if s.owner m = none then
        some { s with
          owner := Function.update s.owner m (some t)
          pending := Function.update s.pending t rest }
      else none
  | .unlock m =>
      some { s with
        owner := Function.update s.owner m none
        pending := Function.update s.pending t rest }
  | .act _ => some { s with pending := Function.update s.pending t rest }

/-- A thread enters the call it is at. -/
def stepEnter (t : τ) (s : State τ φ μ σ) : Option (State τ φ μ σ) :=
  (prog.call s.vars t).bind fun pc =>
    (ThreadConditionPack.step (s.packs pc.1) (.call t pc.2)).map fun pack =>
      { s with
        packs := Function.update s.packs pc.1 pack
        inCall := Function.update s.inCall t (some pc.1) }

/-- The next step of a thread that is not an operation. -/
def stepThread (t : τ) (s : State τ φ μ σ) : Option (State τ φ μ σ) :=
  match s.inCall t, s.pending t with
  | some p, _ => stepInCall prog t p s
  | none, i :: rest => stepInstr t i rest s
  | none, [] => stepEnter prog t s

/-- A thread may make an operation: it is in no call and at none, and has nothing left
before it. -/
def atOp (s : State τ φ μ σ) (t : τ) : Bool :=
  (s.inCall t).isNone && (s.pending t).isEmpty && (prog.call s.vars t).isNone

/-- An operation of the machine; the thread that makes it then has the next one before it. -/
def stepOp (a : α) (s : State τ φ μ σ) : Option (State τ φ μ σ) :=
  if (prog.actor a).all (atOp prog s) then
    (prog.step s.vars a).map fun vars =>
      { s with
        pending := (prog.actor a).elim s.pending fun t =>
          Function.update s.pending t (prog.before vars t)
        vars := vars }
  else none

/-- One step. -/
def step (s : State τ φ μ σ) : Action τ φ α → Option (State τ φ μ σ)
  | .thread t => stepThread prog t s
  | .condSignal t ts =>
      (s.inCall t).bind fun p =>
        (ThreadConditionPack.step (s.packs p) (.condSignal t ts)).map fun pack =>
          { s with packs := Function.update s.packs p pack }
  | .spurious p t =>
      (ThreadConditionPack.step (s.packs p) (.spurious t)).map fun pack =>
        { s with packs := Function.update s.packs p pack }
  | .op a => stepOp prog a s

/-! ## What a step does -/

/-- The steps, by what they do. -/
inductive Move (s : State τ φ μ σ) : Action τ φ α → State τ φ μ σ → Prop
  | assign {t : τ} {p : φ} {pack : ThreadConditionPack.State τ} (hin : s.inCall t = some p)
      (hplace : assigns ((s.packs p).place t) = true)
      (hpack : ThreadConditionPack.step (s.packs p) (.next t) = some pack) :
      Move s (.thread t)
        { s with
          packs := Function.update s.packs p pack
          pending := Function.update s.pending t (prog.before (prog.advance s.vars t) t)
          vars := prog.advance s.vars t }
  | inside {t : τ} {p : φ} {pack : ThreadConditionPack.State τ} (hin : s.inCall t = some p)
      (hplace : assigns ((s.packs p).place t) = false)
      (hpack : ThreadConditionPack.step (s.packs p) (.next t) = some pack) :
      Move s (.thread t)
        { s with
          packs := Function.update s.packs p pack
          inCall := Function.update s.inCall t (if pack.place t = .idle then none else some p) }
  | lock {t : τ} {m : μ} {rest : List (Instr μ)} (hin : s.inCall t = none)
      (hpending : s.pending t = .lock m :: rest) (hfree : s.owner m = none) :
      Move s (.thread t)
        { s with
          owner := Function.update s.owner m (some t)
          pending := Function.update s.pending t rest }
  | unlock {t : τ} {m : μ} {rest : List (Instr μ)} (hin : s.inCall t = none)
      (hpending : s.pending t = .unlock m :: rest) :
      Move s (.thread t)
        { s with
          owner := Function.update s.owner m none
          pending := Function.update s.pending t rest }
  | act {t : τ} {text : String} {rest : List (Instr μ)} (hin : s.inCall t = none)
      (hpending : s.pending t = .act text :: rest) :
      Move s (.thread t) { s with pending := Function.update s.pending t rest }
  | enter {t : τ} {p : φ} {c : Call} {pack : ThreadConditionPack.State τ}
      (hin : s.inCall t = none) (hpending : s.pending t = [])
      (hcall : prog.call s.vars t = some (p, c))
      (hpack : ThreadConditionPack.step (s.packs p) (.call t c) = some pack) :
      Move s (.thread t)
        { s with
          packs := Function.update s.packs p pack
          inCall := Function.update s.inCall t (some p) }
  | condSignal {t : τ} {ts : List τ} {p : φ} {pack : ThreadConditionPack.State τ}
      (hin : s.inCall t = some p)
      (hpack : ThreadConditionPack.step (s.packs p) (.condSignal t ts) = some pack) :
      Move s (.condSignal t ts) { s with packs := Function.update s.packs p pack }
  | spurious {t : τ} {p : φ} {pack : ThreadConditionPack.State τ}
      (hpack : ThreadConditionPack.step (s.packs p) (.spurious t) = some pack) :
      Move s (.spurious p t) { s with packs := Function.update s.packs p pack }
  | opOf {a : α} {t : τ} {vars : σ} (hactor : prog.actor a = some t) (hat : atOp prog s t = true)
      (hstep : prog.step s.vars a = some vars) :
      Move s (.op a)
        { s with
          pending := Function.update s.pending t (prog.before vars t)
          vars := vars }
  | env {a : α} {vars : σ} (hactor : prog.actor a = none)
      (hstep : prog.step s.vars a = some vars) :
      Move s (.op a) { s with vars := vars }

variable {prog} {s s' : State τ φ μ σ} {a : Action τ φ α} {t : τ}

omit [DecidableEq τ] [DecidableEq φ] [DecidableEq μ] in
theorem atOp_iff : atOp prog s t = true ↔
    s.inCall t = none ∧ s.pending t = [] ∧ prog.call s.vars t = none := by
  simp [atOp, and_assoc]

theorem Move.of_stepThread (h : stepThread prog t s = some s') : Move prog s (.thread t) s' := by
  unfold stepThread at h
  split at h
  · next p hin =>
    obtain ⟨pack, hpack, rfl⟩ := Option.map_eq_some_iff.mp h
    by_cases hplace : assigns ((s.packs p).place t) = true
    · rw [if_pos hplace]
      exact Move.assign hin hplace hpack
    · rw [if_neg hplace]
      exact Move.inside hin (Bool.eq_false_iff.mpr hplace) hpack
  · next i rest hin hpending =>
    cases i with
    | lock m =>
        obtain ⟨hfree, h⟩ := Option.ite_none_right_eq_some.mp h
        obtain rfl := Option.some.inj h
        exact Move.lock hin hpending hfree
    | unlock m =>
        obtain rfl := Option.some.inj h
        exact Move.unlock hin hpending
    | act text =>
        obtain rfl := Option.some.inj h
        exact Move.act hin hpending
  · next hin hpending =>
    obtain ⟨⟨p, c⟩, hcall, h⟩ := Option.bind_eq_some_iff.mp h
    obtain ⟨pack, hpack, rfl⟩ := Option.map_eq_some_iff.mp h
    exact Move.enter hin hpending hcall hpack

/-- **Inversion of the step function.** -/
theorem Move.of_step (h : step prog s a = some s') : Move prog s a s' := by
  cases a with
  | thread t => exact Move.of_stepThread h
  | condSignal t ts =>
      obtain ⟨p, hin, h⟩ := Option.bind_eq_some_iff.mp h
      obtain ⟨pack, hpack, rfl⟩ := Option.map_eq_some_iff.mp h
      exact Move.condSignal hin hpack
  | spurious p t =>
      obtain ⟨pack, hpack, rfl⟩ := Option.map_eq_some_iff.mp h
      exact Move.spurious hpack
  | op a =>
      obtain ⟨hat, h⟩ := Option.ite_none_right_eq_some.mp h
      obtain ⟨vars, hstep, rfl⟩ := Option.map_eq_some_iff.mp h
      cases hactor : prog.actor a with
      | none => exact Move.env hactor hstep
      | some t =>
          rw [hactor] at hat
          exact Move.opOf hactor hat hstep

/-! ## Each pack by itself -/

theorem Move.pack (h : Move prog s a s') (p : φ) :
    s'.packs p = s.packs p ∨ ∃ b, ThreadConditionPack.step (s.packs p) b = some (s'.packs p) := by
  cases h with
  | @assign t q pack _ _ hpack | @inside t q pack _ _ hpack | @condSignal t ts q pack _ hpack
  | @spurious t q pack hpack | @enter t q c pack _ _ _ hpack =>
      rcases eq_or_ne p q with rfl | hne
      · exact .inr ⟨_, by simpa using hpack⟩
      · exact .inl (Function.update_of_ne hne _ _)
  | _ => exact .inl rfl

variable {flags : φ → Bool} {v₀ : σ} {as : List (Action τ φ α)}
  {P : State τ φ μ σ → Action τ φ α → Prop}

/-- Seen from one pack, a run of the threads is a run of the calls on it. -/
theorem pack_run (h : Run (step prog) P (init prog flags v₀) as s) (p : φ) :
    ∃ bs, Run ThreadConditionPack.step Any (ThreadConditionPack.init (flags p)) bs
      (s.packs p) := by
  refine h.project (fun s => s.packs p) (fun as s a s' _ _ hstep => ?_)
  exact ((Move.of_step hstep).pack p).imp_right fun ⟨b, hb⟩ => ⟨b, trivial, hb⟩

end Steps

/-! ## The places of a call

A thread in a call is making it until it has assigned the flag, and only returns after
that. -/

section Places

/-- The call that a thread at this place has still to make. -/
def making : Place → Option Call
  | .waitLock | .isCondFalse | .condWait | .asleep | .woken | .setFalse => some .wait
  | .signalLock | .setTrue => some .signal
  | .idle | .waitUnlock | .condSignal | .signalUnlock => none

/-- The flag that a call leaves. -/
def flagAfter : Call → Bool
  | .wait => false
  | .signal => true

variable [DecidableEq τ] {q q' : ThreadConditionPack.State τ} {t u : τ} {ts : List τ}

theorem place_next_of_ne (h : ThreadConditionPack.step q (.next t) = some q') (hu : u ≠ t) :
    q'.place u = q.place u := by
  simp only [ThreadConditionPack.step, ThreadConditionPack.stepNext] at h
  split at h <;>
    simp only [reduceCtorEq, Option.some.injEq, ThreadConditionPack.State.lock_eq_some] at h
  all_goals first | obtain rfl := h | obtain ⟨-, rfl⟩ := h
  all_goals simp [hu]

/-- The step that assigns the flag makes the call, and does not return yet. -/
theorem next_of_assigns (h : ThreadConditionPack.step q (.next t) = some q')
    (hplace : assigns (q.place t) = true) :
    (∃ c, making (q.place t) = some c ∧ q'.condToVerify = flagAfter c) ∧
      making (q'.place t) = none ∧ q'.place t ≠ .idle := by
  simp only [ThreadConditionPack.step, ThreadConditionPack.stepNext] at h
  cases hl : q.place t <;> rw [hl] at hplace <;> cases hplace
  all_goals
    rw [hl] at h
    obtain rfl := Option.some.inj h
  · exact ⟨⟨.wait, rfl, rfl⟩, by simp [making], by simp⟩
  · exact ⟨⟨.signal, rfl, rfl⟩, by simp [making], by simp⟩

/-- Every other step leaves the flag alone, and the call to be made where it was. -/
theorem next_of_not_assigns (h : ThreadConditionPack.step q (.next t) = some q')
    (hplace : assigns (q.place t) = false) :
    q'.condToVerify = q.condToVerify ∧ making (q'.place t) = making (q.place t) := by
  simp only [ThreadConditionPack.step, ThreadConditionPack.stepNext] at h
  cases hl : q.place t <;> rw [hl] at hplace <;> simp only [hl] at h
  case idle | asleep | condSignal => cases h
  case setFalse | setTrue => cases hplace
  case waitLock | woken | signalLock =>
      obtain ⟨-, rfl⟩ := ThreadConditionPack.State.lock_eq_some.mp h
      simp [ThreadConditionPack.State.goto, making]
  case isCondFalse =>
      obtain rfl := Option.some.inj h
      simp only [ThreadConditionPack.State.place_goto, if_true]
      split_ifs <;> exact ⟨rfl, rfl⟩
  case condWait | waitUnlock | signalUnlock =>
      obtain rfl := Option.some.inj h
      exact ⟨rfl, by simp [making]⟩

/-- A thread that is woken is still in its call, with the same call to make. -/
theorem place_wake (hq : ThreadConditionPack.Queued q) (hts : ts ⊆ q.sleepers) :
    making ((q.wake ts).place u) = making (q.place u) ∧
      ((q.wake ts).place u = .idle ↔ q.place u = .idle) := by
  rw [ThreadConditionPack.State.place_wake]
  split_ifs with hmem
  · rw [(hq u).mpr (hts hmem)]
    exact ⟨rfl, by simp⟩
  · exact ⟨rfl, Iff.rfl⟩

theorem place_condSignal (hq : ThreadConditionPack.Queued q)
    (h : ThreadConditionPack.step q (.condSignal t ts) = some q') :
    q'.condToVerify = q.condToVerify ∧ making (q'.place u) = making (q.place u) ∧
      (q'.place u = .idle ↔ q.place u = .idle) := by
  obtain ⟨⟨hl, hts, -⟩, h⟩ := Option.ite_none_right_eq_some.mp h
  obtain rfl := Option.some.inj h
  refine ⟨rfl, ?_⟩
  rw [ThreadConditionPack.State.place_goto]
  split_ifs with hut
  · rw [hut, hl]
    exact ⟨rfl, by simp⟩
  · exact place_wake hq hts

theorem place_spurious (hq : ThreadConditionPack.Queued q)
    (h : ThreadConditionPack.step q (.spurious t) = some q') :
    q'.condToVerify = q.condToVerify ∧ making (q'.place u) = making (q.place u) ∧
      (q'.place u = .idle ↔ q.place u = .idle) := by
  obtain ⟨hmem, h⟩ := Option.ite_none_right_eq_some.mp h
  obtain rfl := Option.some.inj h
  exact ⟨rfl, place_wake hq (by simpa using hmem)⟩

/-- A thread that enters a call has it to make. -/
theorem place_call {c : Call} (h : ThreadConditionPack.step q (.call t c) = some q') :
    q'.condToVerify = q.condToVerify ∧ making (q'.place t) = some c ∧ q'.place t ≠ .idle ∧
      ∀ u, u ≠ t → q'.place u = q.place u := by
  cases c <;>
  · obtain ⟨-, h⟩ := Option.ite_none_right_eq_some.mp h
    obtain rfl := Option.some.inj h
    refine ⟨rfl, ?_, ?_, fun u hu => ?_⟩
    · simp [making]
    · simp
    · simp [hu]

omit [DecidableEq τ] in
/-- The assignment of a wait. -/
theorem eq_setFalse {l : Place} (hplace : assigns l = true) (hmaking : making l = some .wait) :
    l = .setFalse := by
  cases l <;> simp_all [assigns, making]

omit [DecidableEq τ] in
theorem ne_idle_of_making {l : Place} {c : Call} (h : making l = some c) : l ≠ .idle := by
  rintro rfl
  cases h

end Places

/-! ## The threads in their calls -/

section Calls

variable [DecidableEq τ] [DecidableEq φ] [DecidableEq μ] {prog : Program τ φ μ σ α}
  {s s' : State τ φ μ σ} {a : Action τ φ α} {t : τ} {flags : φ → Bool} {v₀ : σ}
  {as : List (Action τ φ α)} {P : State τ φ μ σ → Action τ φ α → Prop}

/-- The call that a thread is at is changed by that thread only. -/
structure Frames (prog : Program τ φ μ σ α) : Prop where
  advance : ∀ v t u, u ≠ t → prog.call (prog.advance v t) u = prog.call v u
  step : ∀ v a v' u, prog.step v a = some v' → prog.actor a ≠ some u →
    prog.call v' u = prog.call v u

/-- A thread is in a call on the pack in whose code it is, and one that has still to make a
call is at that call. -/
structure Calls (prog : Program τ φ μ σ α) (s : State τ φ μ σ) : Prop where
  inCall_iff : ∀ t p, s.inCall t = some p ↔ (s.packs p).place t ≠ .idle
  atCall : ∀ t p c, making ((s.packs p).place t) = some c →
    prog.call s.vars t = some (p, c) ∧ s.pending t = []

omit [DecidableEq τ] [DecidableEq φ] [DecidableEq μ] in
/-- A thread that is in no call has none to make. -/
theorem Calls.making_eq_none (h : Calls prog s) (hin : s.inCall t = none) (p : φ) :
    making ((s.packs p).place t) = none := by
  by_contra hmaking
  obtain ⟨c, hc⟩ := Option.ne_none_iff_exists'.mp hmaking
  have := (h.inCall_iff t p).mpr (ne_idle_of_making hc)
  rw [hin] at this
  cases this

omit [DecidableEq τ] [DecidableEq μ] in
/-- A step that changes one pack, and there neither what a thread has to make nor who is in
a call. -/
theorem Calls.update (h : Calls prog s) {p : φ} {pack : ThreadConditionPack.State τ}
    (hplaces : ∀ u, making (pack.place u) = making ((s.packs p).place u) ∧
      (pack.place u = .idle ↔ (s.packs p).place u = .idle)) :
    Calls prog { s with packs := Function.update s.packs p pack } where
  inCall_iff u q := by
    rw [h.inCall_iff u q]
    rcases eq_or_ne q p with rfl | hne
    · simp only [Function.update_self, ne_eq, (hplaces u).2]
    · simp only [Function.update_of_ne hne]
  atCall u q c hmaking := by
    refine h.atCall u q c ?_
    rcases eq_or_ne q p with rfl | hne
    · simpa only [Function.update_self, (hplaces u).1] using hmaking
    · simpa only [Function.update_of_ne hne] using hmaking

omit [DecidableEq φ] [DecidableEq μ] in
/-- What a thread outside of all calls does before its next operation. -/
theorem Calls.instr (h : Calls prog s) (hin : s.inCall t = none) (owner : μ → Option τ)
    (rest : List (Instr μ)) :
    Calls prog { s with owner := owner, pending := Function.update s.pending t rest } where
  inCall_iff := h.inCall_iff
  atCall u q c hmaking := by
    have hut : u ≠ t := by
      rintro rfl
      rw [h.making_eq_none hin q] at hmaking
      cases hmaking
    simpa only [Function.update_of_ne hut] using h.atCall u q c hmaking

omit [DecidableEq τ] [DecidableEq μ] in
/-- A step of one thread in its call on one pack. -/
theorem Calls.place (h : Calls prog s) {p : φ} {pack : ThreadConditionPack.State τ}
    (hpacks : s'.packs = Function.update s.packs p pack)
    (hother : ∀ u, u ≠ t → pack.place u = (s.packs p).place u ∧ s'.inCall u = s.inCall u ∧
      s'.pending u = s.pending u ∧ prog.call s'.vars u = prog.call s.vars u)
    (hidle : ∀ q, q ≠ p → (s.packs q).place t = .idle)
    (hin : s'.inCall t = if pack.place t = .idle then none else some p)
    (hat : ∀ c, making (pack.place t) = some c →
      prog.call s'.vars t = some (p, c) ∧ s'.pending t = []) :
    Calls prog s' where
  inCall_iff u q := by
    rcases eq_or_ne u t with rfl | hut
    · rw [hin, hpacks]
      rcases eq_or_ne q p with rfl | hne
      · rw [Function.update_self]
        split_ifs with hplace <;> simp [hplace]
      · rw [Function.update_of_ne hne, hidle q hne]
        split_ifs <;> simp [Ne.symm hne]
    · rw [(hother u hut).2.1, h.inCall_iff u q, hpacks]
      rcases eq_or_ne q p with rfl | hne
      · rw [Function.update_self, (hother u hut).1]
      · rw [Function.update_of_ne hne]
  atCall u q c hmaking := by
    rw [hpacks] at hmaking
    rcases eq_or_ne u t with rfl | hut
    · rcases eq_or_ne q p with rfl | hne
      · rw [Function.update_self] at hmaking
        exact hat c hmaking
      · rw [Function.update_of_ne hne, hidle q hne] at hmaking
        cases hmaking
    · obtain ⟨hplace, -, hpending, hcall⟩ := hother u hut
      rw [hpending, hcall]
      refine h.atCall u q c ?_
      rcases eq_or_ne q p with rfl | hne
      · rwa [Function.update_self, hplace] at hmaking
      · rwa [Function.update_of_ne hne] at hmaking

omit [DecidableEq τ] [DecidableEq φ] [DecidableEq μ] in
theorem Calls.idle (h : Calls prog s) (hin : s.inCall t = none) (p : φ) :
    (s.packs p).place t = .idle := by
  by_contra hplace
  have := (h.inCall_iff t p).mpr hplace
  rw [hin] at this
  cases this

omit [DecidableEq τ] [DecidableEq φ] [DecidableEq μ] in
/-- A thread is in the code of at most one pack. -/
theorem Calls.idle_of_ne (h : Calls prog s) {p q : φ} (hin : ∀ r, s.inCall t = some r → r = p)
    (hne : q ≠ p) : (s.packs q).place t = .idle := by
  by_contra hplace
  exact hne (hin q ((h.inCall_iff t q).mpr hplace))

theorem Calls.move (hf : Frames prog) (h : Calls prog s)
    (hpacks : ∀ p, ThreadConditionPack.Inv (s.packs p)) (hmove : Move prog s a s') :
    Calls prog s' := by
  cases hmove with
  | @assign t p pack hin hplace hpack =>
      obtain ⟨-, hmade, hidle⟩ := next_of_assigns hpack hplace
      refine h.place (t := t) rfl (fun u hut => ⟨place_next_of_ne hpack hut, rfl,
        Function.update_of_ne hut _ _, hf.advance _ _ _ hut⟩) (fun q => h.idle_of_ne ?_) ?_ ?_
      · simp [hin]
      · rw [if_neg hidle, hin]
      · simp [hmade]
  | @inside t p pack hin hplace hpack =>
      obtain ⟨-, hmade⟩ := next_of_not_assigns hpack hplace
      refine h.place (t := t) rfl (fun u hut => ⟨place_next_of_ne hpack hut,
        Function.update_of_ne hut _ _, rfl, rfl⟩) (fun q => h.idle_of_ne ?_) ?_ ?_
      · simp [hin]
      · exact Function.update_self ..
      · intro c hc
        exact h.atCall t p c (hmade ▸ hc)
  | lock hin _ _ => exact h.instr hin _ _
  | unlock hin _ => exact h.instr hin _ _
  | act hin _ => exact h.instr hin _ _
  | @enter t p c pack hin hpending hcall hpack =>
      obtain ⟨-, hmade, hidle, hother⟩ := place_call hpack
      refine h.place (t := t) rfl (fun u hut => ⟨hother u hut,
        Function.update_of_ne hut _ _, rfl, rfl⟩) (fun q => h.idle_of_ne ?_) ?_ ?_
      · simp [hin]
      · rw [if_neg hidle]
        exact Function.update_self ..
      · intro c' hc'
        obtain rfl := Option.some.inj (hmade.symm.trans hc')
        exact ⟨hcall, hpending⟩
  | @condSignal t ts p pack _ hpack =>
      exact h.update fun u => (place_condSignal (hpacks p).queued hpack).2
  | @spurious t p pack hpack =>
      exact h.update fun u => (place_spurious (hpacks p).queued hpack).2
  | @opOf a t vars hactor hat hstep =>
      obtain ⟨hin, -, -⟩ := atOp_iff.mp hat
      refine ⟨h.inCall_iff, fun u q c hmaking => ?_⟩
      have hut : u ≠ t := by
        rintro rfl
        rw [h.making_eq_none hin q] at hmaking
        cases hmaking
      have hne : prog.actor a ≠ some u := by
        rw [hactor]
        exact fun heq => hut (Option.some.inj heq).symm
      simpa only [Function.update_of_ne hut, hf.step _ _ _ u hstep hne]
        using h.atCall u q c hmaking
  | @env a vars hactor hstep =>
      refine ⟨h.inCall_iff, fun u q c hmaking => ?_⟩
      rw [hf.step _ _ _ u hstep (by simp [hactor])]
      exact h.atCall u q c hmaking

omit [DecidableEq τ] [DecidableEq φ] [DecidableEq μ] in
theorem calls_init : Calls prog (init prog flags v₀) where
  inCall_iff := by simp [init, ThreadConditionPack.init]
  atCall := by simp [init, ThreadConditionPack.init, making]

theorem pack_inv (h : Run (step prog) P (init prog flags v₀) as s) (p : φ) :
    ThreadConditionPack.Inv (s.packs p) := by
  obtain ⟨bs, hbs⟩ := pack_run h p
  exact ThreadConditionPack.Inv.of_run hbs

theorem calls_run (hf : Frames prog) (h : Run (step prog) P (init prog flags v₀) as s) :
    Calls prog s := by
  induction h with
  | nil => exact calls_init
  | snoc hrun _ hstep ih => exact ih.move hf (pack_inv hrun) (Move.of_step hstep)

end Calls

/-! ## The code refines the calls of one step -/

section View

variable [DecidableEq τ] [DecidableEq φ] [DecidableEq μ] {prog : Program τ φ μ σ α}
  {s s' : State τ φ μ σ} {a : Action τ φ α} {t : τ} {flags : φ → Bool} {v₀ : σ}
  {as : List (Action τ φ α)} {P : State τ φ μ σ → Action τ φ α → Prop}

/-- The calls of the machine are those that `call` names, up to `advance`: a wait is enabled
by its flag.  A thread at a call can do nothing else, and no other operation looks at the
flags. -/
structure OneStep (prog : Program τ φ μ σ α) : Prop where
  call : ∀ v t p c f, prog.call v t = some (p, c) →
    prog.step (prog.withFlags f v) (prog.callAct t) =
      if c = .wait ∧ f p = false then none
      else some (prog.withFlags (Function.update f p (flagAfter c)) (prog.advance v t))
  only : ∀ v t pc a f, prog.call v t = some pc → prog.actor a = some t → a ≠ prog.callAct t →
    prog.step (prog.withFlags f v) a = none
  op : ∀ v a f, (∀ t, prog.actor a = some t → prog.call v t = none) →
    prog.step (prog.withFlags f v) a = (prog.step v a).map (prog.withFlags f)

omit [DecidableEq τ] [DecidableEq μ] in
/-- The flags after a step on one pack. -/
theorem flags_update (s : State τ φ μ σ) (p : φ) (pack : ThreadConditionPack.State τ) :
    (fun q => (Function.update s.packs p pack q).condToVerify) =
      Function.update s.flags p pack.condToVerify := by
  funext q
  rcases eq_or_ne q p with rfl | hne
  · simp
  · simp [Function.update_of_ne hne, State.flags]

omit [DecidableEq τ] [DecidableEq μ] in
/-- A step on one pack that leaves its flag alone is not seen. -/
theorem view_update {p : φ} {pack : ThreadConditionPack.State τ}
    (hpacks : s'.packs = Function.update s.packs p pack) (hvars : s'.vars = s.vars)
    (hflag : pack.condToVerify = (s.packs p).condToVerify) : prog.view s' = prog.view s := by
  have hflags : s'.flags = s.flags :=
    calc s'.flags
        = fun q => (Function.update s.packs p pack q).condToVerify := by rw [← hpacks]; rfl
      _ = Function.update s.flags p (s.flags p) := by rw [flags_update, hflag]; rfl
      _ = s.flags := Function.update_eq_self p s.flags
  rw [Program.view, Program.view, hflags, hvars]

/-- The operations of a run that are not calls. -/
def ops (as : List (Action τ φ α)) : List α :=
  as.filterMap fun
    | .op b => some b
    | _ => none

omit [DecidableEq τ] [DecidableEq φ] [DecidableEq μ] in
theorem ops_append (as bs : List (Action τ φ α)) : ops (as ++ bs) = ops as ++ ops bs :=
  List.filterMap_append

/-- A step of the code is one of the machine, or is not seen. -/
theorem view_move (ho : OneStep prog) (h : Calls prog s)
    (hpacks : ∀ p, ThreadConditionPack.Inv (s.packs p)) (hmove : Move prog s a s') :
    (ops [a] = [] ∧ prog.view s' = prog.view s) ∨
      (∃ t, ops [a] = [] ∧ prog.step (prog.view s) (prog.callAct t) = some (prog.view s')) ∨
      ∃ b, a = .op b ∧ prog.step (prog.view s) b = some (prog.view s') := by
  cases hmove with
  | @assign t p pack hin hplace hpack =>
      obtain ⟨⟨c, hmaking, hflag⟩, -, -⟩ := next_of_assigns hpack hplace
      obtain ⟨hcall, -⟩ := h.atCall t p c hmaking
      refine .inr (.inl ⟨t, rfl, ?_⟩)
      change _ = some (prog.withFlags
        (fun q => (Function.update s.packs p pack q).condToVerify) (prog.advance s.vars t))
      rw [flags_update, hflag]
      refine (ho.call s.vars t p c s.flags hcall).trans (if_neg ?_)
      rintro ⟨rfl, hdown⟩
      -- it has found the flag up, and nobody else could assign it since
      have hup := (hpacks p).known t true (by rw [eq_setFalse hplace hmaking]; rfl)
      cases hup.symm.trans hdown
  | @inside t p pack hin hplace hpack =>
      exact .inl ⟨rfl, view_update rfl rfl (next_of_not_assigns hpack hplace).1⟩
  | @enter t p c pack hin hpending hcall hpack =>
      exact .inl ⟨rfl, view_update rfl rfl (place_call hpack).1⟩
  | @condSignal t ts p pack hin hpack =>
      exact .inl ⟨rfl, view_update rfl rfl (place_condSignal (u := t) (hpacks p).queued hpack).1⟩
  | @spurious t p pack hpack =>
      exact .inl ⟨rfl, view_update rfl rfl (place_spurious (u := t) (hpacks p).queued hpack).1⟩
  | @opOf b t vars hactor hat hstep =>
      refine .inr (.inr ⟨b, rfl, (ho.op _ _ _ fun u hu => ?_).trans (by rw [hstep]; rfl)⟩)
      obtain rfl := Option.some.inj (hactor.symm.trans hu)
      exact (atOp_iff.mp hat).2.2
  | @env b vars hactor hstep =>
      refine .inr (.inr ⟨b, rfl, (ho.op _ _ _ fun u hu => ?_).trans (by rw [hstep]; rfl)⟩)
      rw [hactor] at hu
      cases hu
  | _ => exact .inl ⟨rfl, rfl⟩

/-- **The code refines the calls of one step.**  The run of the machine has the operations of
the code, in their order: whatever `g` reads off the actions that are not calls is the same. -/
theorem view_run (hf : Frames prog) (ho : OneStep prog) {Q : σ → α → Prop}
    (hcall : ∀ v t, Q v (prog.callAct t)) (hop : ∀ s b, P s (.op b) → Q (prog.view s) b)
    (h : Run (step prog) P (init prog flags v₀) as s) :
    ∃ bs, Run prog.step Q (prog.withFlags flags v₀) bs (prog.view s) ∧
      ∀ (β : Type) (g : α → Option β), (∀ t, g (prog.callAct t) = none) →
        bs.filterMap g = (ops as).filterMap g := by
  induction h with
  | nil => exact ⟨[], Run.nil, fun _ _ _ => rfl⟩
  | @snoc as s a s' hrun hP hstep ih =>
      obtain ⟨bs, hbs, hops⟩ := ih
      have hmove := Move.of_step hstep
      rcases view_move ho (calls_run hf hrun) (pack_inv hrun) hmove with
        ⟨ha, heq⟩ | ⟨t, ha, ht⟩ | ⟨b, rfl, hb⟩
      · rw [heq]
        refine ⟨bs, hbs, fun β g hg => ?_⟩
        rw [ops_append, ha, List.append_nil]
        exact hops β g hg
      · refine ⟨bs ++ [prog.callAct t], hbs.snoc (hcall _ t) ht, fun β g hg => ?_⟩
        rw [ops_append, ha, List.append_nil, List.filterMap_append, hops β g hg]
        simp [hg t]
      · refine ⟨bs ++ [b], hbs.snoc (hop s b hP) hb, fun β g hg => ?_⟩
        rw [ops_append, List.filterMap_append, List.filterMap_append, hops β g hg]
        rfl

end View

/-! ## The other mutexes -/

section Sections

/-- The code takes a thread that holds `h` to where it holds `h'`.  It never holds two
mutexes, and unlocks what it holds. -/
def Takes : Option μ → List (Instr μ) → Option μ → Prop
  | h, [], h' => h = h'
  | h, .lock m :: rest, h' => h = none ∧ Takes (some m) rest h'
  | h, .unlock m :: rest, h' => h = some m ∧ Takes none rest h'
  | h, .act _ :: rest, h' => Takes h rest h'

/-- Other names of the mutexes change nothing. -/
theorem Takes.map {ν : Type*} {f : μ → ν} {code : List (Instr μ)} {h h' : Option μ}
    (hcode : Takes h code h') : Takes (h.map f) (code.map (Instr.map f)) (h'.map f) := by
  induction code generalizing h with
  | nil => exact congrArg (Option.map f) hcode
  | cons i rest ih =>
      cases i with
      | lock m =>
          obtain ⟨rfl, hrest⟩ := hcode
          exact ⟨rfl, ih hrest⟩
      | unlock m =>
          obtain ⟨rfl, hrest⟩ := hcode
          exact ⟨rfl, ih hrest⟩
      | act text => exact ih (h := h) hcode

variable [DecidableEq τ] [DecidableEq φ] [DecidableEq μ] {prog : Program τ φ μ σ α}
  {inside : σ → τ → Option μ} {s s' : State τ φ μ σ} {a : Action τ φ α} {t : τ}
  {flags : φ → Bool} {v₀ : σ} {as : List (Action τ φ α)}
  {P : State τ φ μ σ → Action τ φ α → Prop}

/-- The locked sections of the code, by the mutex that a thread holds when it comes to its
operation: calls are made outside of all sections. -/
structure Sections (prog : Program τ φ μ σ α) (inside : σ → τ → Option μ) : Prop where
  call : ∀ v t pc, prog.call v t = some pc → inside v t = none
  advance : ∀ v t pc, prog.call v t = some pc →
    Takes none (prog.before (prog.advance v t) t) (inside (prog.advance v t) t)
  step : ∀ v a v' t, prog.step v a = some v' → prog.actor a = some t → prog.call v t = none →
    Takes (inside v t) (prog.before v' t) (inside v' t)
  advance_frame : ∀ v t u, u ≠ t → inside (prog.advance v t) u = inside v u
  step_frame : ∀ v a v' u, prog.step v a = some v' → prog.actor a ≠ some u →
    inside v' u = inside v u

/-- Each thread holds at most one mutex, and its code takes it from there to its next
operation. -/
def Locks (inside : σ → τ → Option μ) (s : State τ φ μ σ) : Prop :=
  ∀ t, ∃ h, (∀ m, s.owner m = some t ↔ h = some m) ∧ Takes h (s.pending t) (inside s.vars t)

omit [DecidableEq φ] [DecidableEq μ] in
/-- A thread locks or unlocks, or does neither. -/
theorem Locks.instr (h : Locks inside s) {owner : μ → Option τ} {rest : List (Instr μ)}
    (held : Option μ) (ht : ∀ m, owner m = some t ↔ held = some m)
    (htakes : Takes held rest (inside s.vars t))
    (hother : ∀ u, u ≠ t → ∀ m, owner m = some u ↔ s.owner m = some u) :
    Locks inside { s with owner := owner, pending := Function.update s.pending t rest } := by
  intro u
  rcases eq_or_ne u t with rfl | hut
  · exact ⟨held, ht, by simpa only [Function.update_self] using htakes⟩
  · obtain ⟨held', hheld, htakes'⟩ := h u
    refine ⟨held', fun m => (hother u hut m).trans (hheld m), ?_⟩
    simpa only [Function.update_of_ne hut] using htakes'

theorem Locks.move (hs : Sections prog inside) (h : Locks inside s) (hc : Calls prog s)
    (hmove : Move prog s a s') : Locks inside s' := by
  cases hmove with
  | @assign t p pack hin hplace hpack =>
      obtain ⟨⟨c, hmaking, -⟩, -, -⟩ := next_of_assigns hpack hplace
      obtain ⟨hcall, hpending⟩ := hc.atCall t p c hmaking
      intro u
      obtain ⟨held, hheld, htakes⟩ := h u
      refine ⟨held, hheld, ?_⟩
      rcases eq_or_ne u t with rfl | hut
      · -- at the call it held nothing
        rw [hpending] at htakes
        obtain rfl : held = none := (htakes : held = _).trans (hs.call _ _ _ hcall)
        simpa only [Function.update_self] using hs.advance _ _ _ hcall
      · simpa only [Function.update_of_ne hut, hs.advance_frame _ _ _ hut] using htakes
  | @lock t m rest hin hpending hfree =>
      obtain ⟨held, hheld, htakes⟩ := h t
      rw [hpending] at htakes
      obtain ⟨rfl, htakes⟩ := htakes
      refine h.instr (some m) (fun m' => ?_) htakes (fun u hut m' => ?_)
      · rcases eq_or_ne m' m with rfl | hne
        · simp
        · simpa [Function.update_of_ne hne, Ne.symm hne] using hheld m'
      · rcases eq_or_ne m' m with rfl | hne
        · simp [hfree, Ne.symm hut]
        · simp [Function.update_of_ne hne]
  | @unlock t m rest hin hpending =>
      obtain ⟨held, hheld, htakes⟩ := h t
      rw [hpending] at htakes
      obtain ⟨rfl, htakes⟩ := htakes
      refine h.instr none (fun m' => ?_) htakes (fun u hut m' => ?_)
      · rcases eq_or_ne m' m with rfl | hne
        · simp
        · simpa [Function.update_of_ne hne, Ne.symm hne] using hheld m'
      · rcases eq_or_ne m' m with rfl | hne
        · simp [(hheld m').mpr rfl, Ne.symm hut]
        · simp [Function.update_of_ne hne]
  | @act t text rest hin hpending =>
      obtain ⟨held, hheld, htakes⟩ := h t
      rw [hpending] at htakes
      exact h.instr held hheld htakes (fun _ _ _ => Iff.rfl)
  | @opOf a t vars hactor hat hstep =>
      obtain ⟨-, hpending, hcall⟩ := atOp_iff.mp hat
      intro u
      obtain ⟨held, hheld, htakes⟩ := h u
      refine ⟨held, hheld, ?_⟩
      rcases eq_or_ne u t with rfl | hut
      · rw [hpending] at htakes
        obtain rfl : held = _ := htakes
        simpa only [Function.update_self] using hs.step _ _ _ _ hstep hactor hcall
      · have hne : prog.actor a ≠ some u := by
          rw [hactor]
          exact fun heq => hut (Option.some.inj heq).symm
        simpa only [Function.update_of_ne hut, hs.step_frame _ _ _ u hstep hne] using htakes
  | @env a vars hactor hstep =>
      intro u
      obtain ⟨held, hheld, htakes⟩ := h u
      refine ⟨held, hheld, ?_⟩
      rw [hs.step_frame _ _ _ u hstep (by simp [hactor])]
      exact htakes
  | _ => exact h

theorem locks_run (hf : Frames prog) (hs : Sections prog inside)
    (hstart : ∀ t, Takes none (prog.start t) (inside v₀ t))
    (h : Run (step prog) P (init prog flags v₀) as s) : Locks inside s := by
  induction h with
  | nil => exact fun t => ⟨none, by simp [init], hstart t⟩
  | snoc hrun _ hstep ih => exact ih.move hs (calls_run hf hrun) (Move.of_step hstep)

omit [DecidableEq τ] [DecidableEq φ] [DecidableEq μ] in
/-- A thread that has come to an operation inside a section owns the mutex of the section. -/
theorem Locks.owner (h : Locks inside s) {m : μ} (hpending : s.pending t = [])
    (hinside : inside s.vars t = some m) : s.owner m = some t := by
  obtain ⟨held, hheld, htakes⟩ := h t
  rw [hpending] at htakes
  exact (hheld m).mpr ((htakes : held = _).trans hinside)

/-- Two threads have come to operations on the same shared object, and one of them writes it.
`access` gives the object of the operation that a thread comes to, and whether it is
written. -/
def Race {ξ : Type*} (prog : Program τ φ μ σ α) (access : σ → τ → Option (ξ × Bool))
    (s : State τ φ μ σ) (x : ξ) : Prop :=
  ∃ t u, t ≠ u ∧ atOp prog s t = true ∧ atOp prog s u = true ∧
    access s.vars t = some (x, true) ∧ ∃ w, access s.vars u = some (x, w)

omit [DecidableEq τ] [DecidableEq φ] [DecidableEq μ] in
/-- Two threads do not come to operations inside sections of one mutex. -/
theorem Locks.eq_of_inside (h : Locks inside s) {u : τ} {m : μ} (ht : atOp prog s t = true)
    (hu : atOp prog s u = true) (hinside : inside s.vars t = some m)
    (hinside' : inside s.vars u = some m) : t = u := by
  have hown := h.owner (atOp_iff.mp ht).2.1 hinside
  have hown' := h.owner (atOp_iff.mp hu).2.1 hinside'
  exact Option.some.inj (hown.symm.trans hown')

end Sections

/-! ## Where the threads stop -/

section Progress

variable [DecidableEq τ] [DecidableEq φ] [DecidableEq μ] {prog : Program τ φ μ σ α}
  {inside : σ → τ → Option μ} {internal : α → Prop} {s : State τ φ μ σ} {t : τ} {p : φ}
  {flags : φ → Bool} {v₀ : σ} {as : List (Action τ φ α)}
  {P : State τ φ μ σ → Action τ φ α → Prop}

/-- No thread can go on, up to sleepers that wake up by themselves. -/
structure Standstill (prog : Program τ φ μ σ α) (internal : α → Prop) (s : State τ φ μ σ) :
    Prop where
  thread : ∀ t, step prog s (.thread t) = none
  condSignal : ∀ t ts, step prog s (.condSignal t ts) = none
  op : ∀ a, internal a → step prog s (.op a) = none

omit [DecidableEq φ] [DecidableEq μ] in
/-- A thread between lock and unlock can go on. -/
theorem next_of_critical {q : ThreadConditionPack.State τ}
    (hcritical : (q.place t).critical = true)
    (hnext : ThreadConditionPack.step q (.next t) = none) :
    ThreadConditionPack.step q (.condSignal t q.sleepers) ≠ none := by
  simp only [ThreadConditionPack.step, ThreadConditionPack.stepNext] at hnext
  cases hl : q.place t <;> rw [hl] at hcritical <;> simp only [hl, reduceCtorEq] at hnext <;>
    first
      | exact absurd hcritical (by decide)
      | simp [ThreadConditionPack.step, ThreadConditionPack.stepCondSignal, hl]

theorem Standstill.next (hs : Standstill prog internal s) (hin : s.inCall t = some p) :
    ThreadConditionPack.step (s.packs p) (.next t) = none := by
  have h := hs.thread t
  simpa only [step, stepThread, hin, stepInCall, Option.map_eq_none_iff] using h

theorem Standstill.not_critical (hs : Standstill prog internal s) (hc : Calls prog s) (u : τ)
    (p : φ) : ((s.packs p).place u).critical = false := by
  by_contra hcritical
  rw [Bool.not_eq_false] at hcritical
  have hin : s.inCall u = some p := by
    rw [hc.inCall_iff]
    intro hidle
    rw [hidle] at hcritical
    cases hcritical
  have h := hs.condSignal u (s.packs p).sleepers
  simp only [step, hin, Option.bind_some, Option.map_eq_none_iff] at h
  exact next_of_critical hcritical (hs.next hin) h

/-- At a standstill, a thread in a call sleeps. -/
theorem Standstill.asleep (hs : Standstill prog internal s) (hc : Calls prog s)
    (hpack : ThreadConditionPack.Inv (s.packs p)) (hin : s.inCall t = some p) :
    (s.packs p).place t = .asleep := by
  have hcritical := hs.not_critical hc
  -- nobody holds the mutex of the pack
  have hfree : (s.packs p).mutexToUse = none := by
    by_contra hheld
    obtain ⟨u, hu⟩ := Option.ne_none_iff_exists'.mp hheld
    rw [← hpack.held u, hcritical u p] at hu
    cases hu
  have hnext := hs.next hin
  have hidle := (hc.inCall_iff t p).mp hin
  have hout := hcritical t p
  simp only [ThreadConditionPack.step, ThreadConditionPack.stepNext] at hnext
  cases hl : (s.packs p).place t <;> rw [hl] at hidle hout <;>
    simp only [hl, ThreadConditionPack.State.lock, hfree, if_true, reduceCtorEq] at hnext <;>
    first | rfl | exact absurd rfl hidle | cases hout

/-- A thread that sleeps at a standstill waits for a flag that is down. -/
theorem Standstill.flag (hs : Standstill prog internal s) (hc : Calls prog s)
    (hpack : ThreadConditionPack.Inv (s.packs p)) (hwake : ThreadConditionPack.WakeUp (s.packs p))
    (hasleep : (s.packs p).place t = .asleep) : s.flags p = false := by
  by_contra hflag
  rcases hwake (Bool.not_eq_false _ ▸ hflag) with hnil | ⟨u, hu⟩
  · have hmem := (hpack.queued t).mp hasleep
    rw [hnil] at hmem
    cases hmem
  · -- whoever is alert would sleep too
    have hin : s.inCall u = some p := by
      rw [hc.inCall_iff]
      intro hidle
      rw [hidle] at hu
      cases hu
    rw [hs.asleep hc hpack hin] at hu
    cases hu

theorem Standstill.call_eq_none (hs : Standstill prog internal s) (hc : Calls prog s)
    (hin : s.inCall t = none) (hpending : s.pending t = []) : prog.call s.vars t = none := by
  by_contra hcall
  obtain ⟨⟨p, c⟩, hpc⟩ := Option.ne_none_iff_exists'.mp hcall
  have hidle : (s.packs p).place t = .idle := hc.idle hin p
  have h := hs.thread t
  simp only [step, stepThread, hin, hpending, stepEnter, hpc, Option.bind_some,
    Option.map_eq_none_iff] at h
  cases c <;> simp [ThreadConditionPack.step, hidle] at h

/-- At a standstill, a thread outside of all calls has come to its operation: whoever holds
the mutex it would wait for can go on. -/
theorem Standstill.pending_eq_nil (hs : Standstill prog internal s) (hc : Calls prog s)
    (hpacks : ∀ p, ThreadConditionPack.Inv (s.packs p)) (hsec : Sections prog inside)
    (hlocks : Locks inside s)
    (hop : ∀ u m, inside s.vars u = some m → ∃ a, internal a ∧ prog.actor a = some u ∧
      prog.call s.vars u = none ∧ prog.step s.vars a ≠ none)
    (hin : s.inCall t = none) : s.pending t = [] := by
  have hthread := hs.thread
  simp only [step, stepThread] at hthread
  cases hpending : s.pending t with
  | nil => rfl
  | cons i rest =>
      have ht := hthread t
      rw [hin, hpending] at ht
      cases i with
      | unlock m => cases ht
      | act text => cases ht
      | lock m =>
          have hbusy : s.owner m ≠ none := fun hfree => by simp [stepInstr, hfree] at ht
          obtain ⟨u, hu⟩ := Option.ne_none_iff_exists'.mp hbusy
          obtain ⟨held, hheld, htakes⟩ := hlocks u
          obtain rfl := (hheld m).mp hu
          exfalso
          cases hinu : s.inCall u with
          | some q =>
              -- it is at a call, so outside of all sections
              have hmaking : making ((s.packs q).place u) = some .wait := by
                rw [hs.asleep hc (hpacks q) hinu]
                rfl
              obtain ⟨hcall, hnil⟩ := hc.atCall u q _ hmaking
              rw [hnil] at htakes
              have := (htakes : some m = _).trans (hsec.call _ _ _ hcall)
              cases this
          | none =>
              have hthreadu := hthread u
              cases hpendingu : s.pending u with
              | cons i rest =>
                  rw [hinu, hpendingu] at hthreadu
                  cases i with
                  | lock m' =>
                      rw [hpendingu] at htakes
                      cases htakes.1
                  | unlock m' => cases hthreadu
                  | act text => cases hthreadu
              | nil =>
                  rw [hpendingu] at htakes
                  obtain ⟨a, ha, hactor, hcall, hstep⟩ := hop u m (htakes : some m = _).symm
                  have hnone := hs.op a ha
                  simp only [step, stepOp, hactor, Option.all_some,
                    atOp_iff.mpr ⟨hinu, hpendingu, hcall⟩, if_true, Option.map_eq_none_iff] at hnone
                  exact hstep hnone

/-- **The code stops nowhere else.**  When no thread can go on in its code, no thread of the
machine with calls of one step can take a step. -/
theorem standstill (hf : Frames prog) (ho : OneStep prog) (hsec : Sections prog inside)
    (hstart : ∀ t, Takes none (prog.start t) (inside v₀ t))
    (h : Run (step prog) P (init prog flags v₀) as s) (hs : Standstill prog internal s)
    (hop : ∀ u m, inside s.vars u = some m → ∃ a, internal a ∧ prog.actor a = some u ∧
      prog.call s.vars u = none ∧ prog.step s.vars a ≠ none) :
    ∀ a, internal a → prog.step (prog.view s) a = none := by
  have hc := calls_run hf h
  have hpacks := pack_inv h
  have hlocks := locks_run hf hsec hstart h
  intro a ha
  have hnone := hs.op a ha
  simp only [step, stepOp] at hnone
  cases hactor : prog.actor a with
  | none =>
      simp only [hactor, Option.all_none, if_true, Option.map_eq_none_iff] at hnone
      rw [Program.view, ho.op _ _ _ (by simp [hactor]), hnone]
      rfl
  | some t =>
      cases hin : s.inCall t with
      | some p =>
          -- it sleeps in a wait, and the flag is down
          obtain ⟨bs, hbs⟩ := pack_run h p
          have hasleep := hs.asleep hc (hpacks p) hin
          have hflag := hs.flag hc (hpacks p) (ThreadConditionPack.WakeUp.of_run hbs) hasleep
          have hmaking : making ((s.packs p).place t) = some .wait := by
            rw [hasleep]
            rfl
          obtain ⟨hcall, -⟩ := hc.atCall t p _ hmaking
          by_cases hact : a = prog.callAct t
          · rw [hact]
            exact (ho.call _ _ _ _ _ hcall).trans (if_pos ⟨rfl, hflag⟩)
          · exact ho.only _ _ _ _ _ hcall hactor hact
      | none =>
          have hpending := hs.pending_eq_nil hc hpacks hsec hlocks hop hin
          have hcall := hs.call_eq_none hc hin hpending
          simp only [hactor, Option.all_some, atOp_iff.mpr ⟨hin, hpending, hcall⟩, if_true,
            Option.map_eq_none_iff] at hnone
          have hnot : ∀ u, prog.actor a = some u → prog.call s.vars u = none := by
            intro u hu
            obtain rfl := Option.some.inj (hactor.symm.trans hu)
            exact hcall
          rw [Program.view, ho.op _ _ _ hnot, hnone]
          rfl

end Progress

end Threads
