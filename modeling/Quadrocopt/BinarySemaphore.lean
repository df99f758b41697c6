/-
# A condition pack as a binary semaphore

`ConditionPack.lean` takes a wait and a signal on a pack as one step each.  Here the two
are the code of `threading_stuff.c`, run by any number of threads on one pack: every lock,
unlock, test, assignment, `pthread_cond_wait` and `pthread_cond_signal` is a step of its
own, a sleeping thread may wake up for no reason, and between its wake-up and its next lock
other threads may come first.  The server's `wait_listener`, `signal_listener` and their
likes are the same two bodies written out.

The threads' code refines the pack of one-step calls (`refines`): a wait takes effect
where it clears the flag, a signal where it sets it.  What the one-step pack guarantees,
that no setting is consumed twice, is therefore kept by the code.  What it cannot say is
that nobody sleeps through a setting.  That is the invariant `WakeUp`: while the flag is
set and somebody sleeps, some thread has been woken, is about to look at the flag, or is
about to wake somebody.
-/
import Mathlib.Logic.Function.Basic
import Mathlib.Tactic.Cases
import Mathlib.Tactic.SplitIfs
import Quadrocopt.ConditionPack
import Quadrocopt.Transition

namespace ThreadConditionPack

open Transition

variable {τ : Type*}

/-! ## The pack of one-step calls -/

/-- The two operations on a pack. -/
inductive Call where
  | wait
  | signal
  deriving DecidableEq, Repr

/-- A flag and its history: how often it was set after its initial value, which is setting
0, and which setting each wait consumed, the last wait first. -/
structure Pack (τ : Type*) where
  condToVerify : Bool
  settings : ℕ
  consumed : List (ℕ × τ)

/-- `initialize_thread_cond_pack`. -/
def Pack.init (flag : Bool) : Pack τ where
  condToVerify := flag
  settings := 0
  consumed := []

/-- A call as one step. -/
def Pack.step (p : Pack τ) : τ × Call → Option (Pack τ)
  | (t, .wait) => (waitWithPack p.condToVerify).map fun flag =>
      { p with condToVerify := flag, consumed := (p.settings, t) :: p.consumed }
  | (_, .signal) => some
      { p with condToVerify := signalWithPack p.condToVerify, settings := p.settings + 1 }

/-- The settings that were consumed. -/
def Pack.consumedSettings (p : Pack τ) : List ℕ := p.consumed.map Prod.fst

/-- The books of a pack whose flag was `flag` at first. -/
structure Pack.Balanced (flag : Bool) (p : Pack τ) : Prop where
  consumed_le : p.consumed.length + p.condToVerify.toNat ≤ flag.toNat + p.settings
  le_settings : ∀ k ∈ p.consumedSettings, k ≤ p.settings
  unconsumed : p.condToVerify = true → p.settings ∉ p.consumedSettings
  nodup : p.consumedSettings.Nodup

/-- A pack that nobody has called yet is balanced. -/
theorem Pack.balanced_init (flag : Bool) : Pack.Balanced flag (Pack.init flag : Pack τ) where
  consumed_le := by simp [Pack.init]
  le_settings := by simp [Pack.init, Pack.consumedSettings]
  unconsumed := by simp [Pack.init, Pack.consumedSettings]
  nodup := by simp [Pack.init, Pack.consumedSettings]

/-- Every call keeps the books: a wait books the setting it consumes, which was not booked before. -/
theorem Pack.Balanced.step {flag : Bool} {p p' : Pack τ} {c : τ × Call}
    (hp : p.Balanced flag) (h : p.step c = some p') : p'.Balanced flag := by
  obtain ⟨t, c⟩ := c
  cases c with
  | wait =>
      obtain ⟨hflag, rfl⟩ := map_waitWithPack_eq_some.mp h
      constructor
      · have hle := hp.consumed_le
        rw [hflag, Bool.toNat_true] at hle
        simpa using hle
      · simpa [Pack.consumedSettings] using hp.le_settings
      · simp
      · exact List.nodup_cons.mpr ⟨hp.unconsumed hflag, hp.nodup⟩
  | signal =>
      obtain rfl := Option.some.inj h
      constructor
      · have hle := hp.consumed_le
        simp only [signalWithPack, Bool.toNat_true]
        omega
      · intro k hk
        exact Nat.le_succ_of_le (hp.le_settings k hk)
      · intro _ hmem
        exact absurd (hp.le_settings _ hmem) (Nat.not_succ_le_self _)
      · exact hp.nodup

/-- So the books are balanced after every run. -/
theorem Pack.balanced_of_run {flag : Bool} {calls : List (τ × Call)} {p : Pack τ}
    (h : Run Pack.step Any (Pack.init flag) calls p) : p.Balanced flag :=
  h.invariant (Pack.balanced_init flag) (fun _ _ _ hp _ hstep => hp.step hstep)

/-! ## The code of the two calls -/

/-- Where a thread is in `wait_with_pack` or `signal_with_pack`. -/
inductive Place where
  /-- In neither. -/
  | idle
  | waitLock
  | isCondFalse
  | condWait
  /-- In `pthread_cond_wait`, not woken. -/
  | asleep
  /-- In `pthread_cond_wait`, woken, about to take the mutex again. -/
  | woken
  | setFalse
  | waitUnlock
  | signalLock
  | setTrue
  | condSignal
  | signalUnlock
  deriving DecidableEq, Repr

/-- The pack with its mutex and its condition variable, the place of each thread, and how
many calls of each kind have returned. -/
structure State (τ : Type*) extends Pack τ where
  mutexToUse : Option τ
  sleepers : List τ
  place : τ → Place
  waits : ℕ
  signals : ℕ

def init (flag : Bool) : State τ where
  toPack := Pack.init flag
  mutexToUse := none
  sleepers := []
  place := fun _ => .idle
  waits := 0
  signals := 0

/-- What happens next: a thread makes a call, a thread takes its next step, a thread in
`pthread_cond_signal` wakes some sleepers, or a sleeper wakes up by itself. -/
inductive Action (τ : Type*) where
  | call (t : τ) (c : Call)
  | next (t : τ)
  | condSignal (t : τ) (ts : List τ)
  | spurious (t : τ)
  deriving DecidableEq, Repr

section Steps

variable [DecidableEq τ]

/-- Thread `t` goes on to `l`. -/
def State.goto (s : State τ) (t : τ) (l : Place) : State τ :=
  { s with place := Function.update s.place t l }

/-- `pthread_mutex_lock`, then on to `l`. -/
def State.lock (s : State τ) (t : τ) (l : Place) : Option (State τ) :=
  if s.mutexToUse = none then some ({ s with mutexToUse := some t }.goto t l) else none

/-- `pthread_mutex_unlock`, then on to `l`. -/
def State.unlock (s : State τ) (t : τ) (l : Place) : State τ :=
  { s with mutexToUse := none }.goto t l

/-- The sleepers `ts` are woken. -/
def State.wake (s : State τ) (ts : List τ) : State τ :=
  { s with
    sleepers := s.sleepers.filter (· ∉ ts)
    place := fun u => if u ∈ ts then .woken else s.place u }

/-- The next step of a thread, other than `pthread_cond_signal`. -/
def stepNext (t : τ) (s : State τ) : Option (State τ) :=
  match s.place t with
  | .idle => none
  | .waitLock => s.lock t .isCondFalse
  | .isCondFalse => some (s.goto t (if s.condToVerify then .setFalse else .condWait))
  | .condWait => some ({ s with sleepers := t :: s.sleepers }.unlock t .asleep)
  | .asleep => none
  | .woken => s.lock t .isCondFalse
  | .setFalse => some ({ s with
      condToVerify := false
      consumed := (s.settings, t) :: s.consumed }.goto t .waitUnlock)
  | .waitUnlock => some ({ s with waits := s.waits + 1 }.unlock t .idle)
  | .signalLock => s.lock t .setTrue
  | .setTrue => some ({ s with
      condToVerify := true
      settings := s.settings + 1 }.goto t .condSignal)
  | .condSignal => none
  | .signalUnlock => some ({ s with signals := s.signals + 1 }.unlock t .idle)

/-- `pthread_cond_signal` wakes some of the sleepers, at least one if there is one. -/
def stepCondSignal (t : τ) (ts : List τ) (s : State τ) : Option (State τ) :=
  if s.place t = .condSignal ∧ ts ⊆ s.sleepers ∧ (ts = [] → s.sleepers = []) then
    some ((s.wake ts).goto t .signalUnlock)
  else none

/-- One step. -/
def step (s : State τ) : Action τ → Option (State τ)
  | .call t .wait => if s.place t = .idle then some (s.goto t .waitLock) else none
  | .call t .signal => if s.place t = .idle then some (s.goto t .signalLock) else none
  | .next t => stepNext t s
  | .condSignal t ts => stepCondSignal t ts s
  | .spurious t => if t ∈ s.sleepers then some (s.wake [t]) else none

/-! ## What a step does -/

/-- The places a thread goes on to without touching the pack. -/
inductive Turn (flag : Bool) : Place → Place → Prop
  | wait : Turn flag .idle .waitLock
  | signal : Turn flag .idle .signalLock
  | leaveLoop : flag = true → Turn flag .isCondFalse .setFalse
  | stayInLoop : flag = false → Turn flag .isCondFalse .condWait

/-- The places where a thread waits for the mutex, and where it goes on. -/
inductive Entry : Place → Place → Prop
  | wait : Entry .waitLock .isCondFalse
  | woken : Entry .woken .isCondFalse
  | signal : Entry .signalLock .setTrue

/-- The steps, by what they do to the pack. -/
inductive Move (s : State τ) : State τ → Prop
  | turn {t : τ} {l l' : Place} : s.place t = l → Turn s.condToVerify l l' →
      Move s (s.goto t l')
  | lock {t : τ} {l l' : Place} : s.place t = l → Entry l l' → s.mutexToUse = none →
      Move s ({ s with mutexToUse := some t }.goto t l')
  | sleep {t : τ} : s.place t = .condWait →
      Move s ({ s with sleepers := t :: s.sleepers }.unlock t .asleep)
  | spurious {t : τ} : t ∈ s.sleepers → Move s (s.wake [t])
  | setFalse {t : τ} : s.place t = .setFalse →
      Move s ({ s with
        condToVerify := false
        consumed := (s.settings, t) :: s.consumed }.goto t .waitUnlock)
  | waited {t : τ} : s.place t = .waitUnlock →
      Move s ({ s with waits := s.waits + 1 }.unlock t .idle)
  | setTrue {t : τ} : s.place t = .setTrue →
      Move s ({ s with
        condToVerify := true
        settings := s.settings + 1 }.goto t .condSignal)
  | condSignal {t : τ} {ts : List τ} : s.place t = .condSignal → ts ⊆ s.sleepers →
      (ts = [] → s.sleepers = []) → Move s ((s.wake ts).goto t .signalUnlock)
  | signaled {t : τ} : s.place t = .signalUnlock →
      Move s ({ s with signals := s.signals + 1 }.unlock t .idle)

variable {s s' : State τ} {t : τ} {l : Place}

/-- A lock is taken when the mutex is free. -/
theorem State.lock_eq_some :
    s.lock t l = some s' ↔
      s.mutexToUse = none ∧ { s with mutexToUse := some t }.goto t l = s' := by
  simp [State.lock]

/-- What a thread does next is one of the moves. -/
theorem Move.of_stepNext (h : stepNext t s = some s') : Move s s' := by
  unfold stepNext at h
  cases hl : s.place t <;> simp only [hl, reduceCtorEq, Option.some.injEq] at h
  case waitLock =>
      obtain ⟨hfree, rfl⟩ := State.lock_eq_some.mp h
      exact Move.lock hl Entry.wait hfree
  case isCondFalse =>
      obtain rfl := h
      refine Move.turn hl ?_
      split_ifs with hflag
      · exact Turn.leaveLoop hflag
      · exact Turn.stayInLoop (Bool.eq_false_iff.mpr hflag)
  case condWait => exact h ▸ Move.sleep hl
  case woken =>
      obtain ⟨hfree, rfl⟩ := State.lock_eq_some.mp h
      exact Move.lock hl Entry.woken hfree
  case setFalse => exact h ▸ Move.setFalse hl
  case waitUnlock => exact h ▸ Move.waited hl
  case signalLock =>
      obtain ⟨hfree, rfl⟩ := State.lock_eq_some.mp h
      exact Move.lock hl Entry.signal hfree
  case setTrue => exact h ▸ Move.setTrue hl
  case signalUnlock => exact h ▸ Move.signaled hl

/-- Every step is a move, the spurious wake-up too. -/
theorem Move.of_step {a : Action τ} (h : step s a = some s') : Move s s' := by
  cases a with
  | call t c =>
      cases c with
      | wait =>
          obtain ⟨hl, h⟩ := Option.ite_none_right_eq_some.mp h
          obtain rfl := Option.some.inj h
          exact Move.turn hl Turn.wait
      | signal =>
          obtain ⟨hl, h⟩ := Option.ite_none_right_eq_some.mp h
          obtain rfl := Option.some.inj h
          exact Move.turn hl Turn.signal
  | next t => exact Move.of_stepNext h
  | condSignal t ts =>
      obtain ⟨⟨hl, hts, hsome⟩, h⟩ := Option.ite_none_right_eq_some.mp h
      obtain rfl := Option.some.inj h
      exact Move.condSignal hl hts hsome
  | spurious t =>
      obtain ⟨hmem, h⟩ := Option.ite_none_right_eq_some.mp h
      obtain rfl := Option.some.inj h
      exact Move.spurious hmem

/-! ## The threads' places -/

@[simp] theorem State.place_goto (s : State τ) (t u : τ) (l : Place) :
    (s.goto t l).place u = if u = t then l else s.place u := by
  simp [State.goto, Function.update_apply]

@[simp] theorem State.mutexToUse_goto (s : State τ) (t : τ) (l : Place) :
    (s.goto t l).mutexToUse = s.mutexToUse := rfl

@[simp] theorem State.sleepers_goto (s : State τ) (t : τ) (l : Place) :
    (s.goto t l).sleepers = s.sleepers := rfl

@[simp] theorem State.place_unlock (s : State τ) (t u : τ) (l : Place) :
    (s.unlock t l).place u = if u = t then l else s.place u :=
  State.place_goto _ t u l

@[simp] theorem State.mutexToUse_unlock (s : State τ) (t : τ) (l : Place) :
    (s.unlock t l).mutexToUse = none := rfl

@[simp] theorem State.sleepers_unlock (s : State τ) (t : τ) (l : Place) :
    (s.unlock t l).sleepers = s.sleepers := rfl

/-- Those who are woken wait for the mutex, the others stay where they are. -/
theorem State.place_wake (s : State τ) (ts : List τ) (u : τ) :
    (s.wake ts).place u = if u ∈ ts then .woken else s.place u := rfl

/-- A thread that was not woken is where it was. -/
theorem State.place_of_wake {ts : List τ} (h : (s.wake ts).place t = l) (hl : l ≠ .woken) :
    s.place t = l := by
  rw [State.place_wake] at h
  split_ifs at h
  · exact absurd h.symm hl
  · exact h

@[simp] theorem State.mem_sleepers_wake (s : State τ) (ts : List τ) (u : τ) :
    u ∈ (s.wake ts).sleepers ↔ u ∈ s.sleepers ∧ u ∉ ts := by
  simp [State.wake]

/-- A thread at one of the places `P` is still at one of them, if `t` does not leave them. -/
theorem State.exists_place_goto (P : Place → Bool) (h : ∃ u, P (s.place u) = true)
    (hl : P (s.place t) = true → P l = true) : ∃ u, P ((s.goto t l).place u) = true := by
  obtain ⟨u, hu⟩ := h
  refine ⟨u, ?_⟩
  rw [State.place_goto]
  split_ifs with hut
  · exact hl (hut ▸ hu)
  · exact hu

/-- Nobody leaves the places `P` by being woken, if sleeping is not one of them. -/
theorem State.exists_place_wake (P : Place → Bool) {ts : List τ}
    (h : ∃ u, P (s.place u) = true) (hts : ∀ u ∈ ts, s.place u = .asleep)
    (hP : P .asleep = false) : ∃ u, P ((s.wake ts).place u) = true := by
  obtain ⟨u, hu⟩ := h
  have hmem : u ∉ ts := fun hmem => by simp [hts u hmem, hP] at hu
  refine ⟨u, ?_⟩
  rw [State.place_wake, if_neg hmem]
  exact hu

/-! ## The mutex -/

/-- Between its lock and its unlock, a thread is at one of these. -/
def Place.critical : Place → Bool
  | .isCondFalse | .condWait | .setFalse | .waitUnlock => true
  | .setTrue | .condSignal | .signalUnlock => true
  | _ => false

/-- The thread between lock and unlock is the one that holds the mutex. -/
def Held (s : State τ) : Prop := ∀ t, (s.place t).critical = true ↔ s.mutexToUse = some t

omit [DecidableEq τ] in
/-- No two threads are in the locked section. -/
theorem Held.eq (h : Held s) {u : τ} (ht : (s.place t).critical = true)
    (hu : (s.place u).critical = true) : u = t :=
  Option.some.inj (((h u).mp hu).symm.trans ((h t).mp ht))

theorem Held.goto (h : Held s) (hl : l.critical = (s.place t).critical) :
    Held (s.goto t l) := by
  intro u
  rw [State.place_goto, State.mutexToUse_goto]
  split_ifs with hut
  · rw [hl, hut]
    exact h t
  · exact h u

/-- Who takes the free mutex is the one in the locked section. -/
theorem Held.lock (h : Held s) (hfree : s.mutexToUse = none) (hl : l.critical = true) :
    Held ({ s with mutexToUse := some t }.goto t l) := by
  intro u
  rw [State.place_goto, State.mutexToUse_goto]
  split_ifs with hut
  · simp [hl, hut]
  · rw [h u, hfree]
    simp [Ne.symm hut]

/-- Who gives it back was the only one there. -/
theorem Held.unlock (h : Held s) (ht : (s.place t).critical = true)
    (hl : l.critical = false) : Held (s.unlock t l) := by
  intro u
  rw [State.place_unlock, State.mutexToUse_unlock]
  split_ifs with hut
  · simp [hl]
  · rw [h u, (h t).mp ht]
    simp [Ne.symm hut]

/-- Sleepers and woken threads are both outside. -/
theorem Held.wake {ts : List τ} (h : Held s) (hts : ∀ u ∈ ts, s.place u = .asleep) :
    Held (s.wake ts) := by
  intro u
  rw [State.place_wake]
  split_ifs with hmem
  · have hu := h u
    rw [hts u hmem] at hu
    exact hu
  · exact h u

/-! ## The sleepers -/

/-- The sleepers are the threads in `pthread_cond_wait` that were not woken. -/
def Queued (s : State τ) : Prop := ∀ t, s.place t = .asleep ↔ t ∈ s.sleepers

theorem Queued.goto (h : Queued s) (ht : s.place t ≠ .asleep) (hl : l ≠ .asleep) :
    Queued (s.goto t l) := by
  intro u
  rw [State.place_goto, State.sleepers_goto]
  split_ifs with hut
  · rw [hut, ← h t]
    simp [hl, ht]
  · exact h u

/-- Who goes to sleep enters the queue. -/
theorem Queued.sleep (h : Queued s) :
    Queued ({ s with sleepers := t :: s.sleepers }.unlock t .asleep) := by
  intro u
  rw [State.place_unlock, State.sleepers_unlock]
  split_ifs with hut
  · simp [hut]
  · rw [h u]
    simp [hut]

/-- Who is woken leaves it. -/
theorem Queued.wake (h : Queued s) (ts : List τ) : Queued (s.wake ts) := by
  intro u
  rw [State.place_wake, State.mem_sleepers_wake]
  split_ifs with hmem
  · simp [hmem]
  · simp [hmem, h u]

/-! ## The flag inside the locked section -/

/-- What a thread at this place has found out about the flag, or made of it. -/
def Place.knows : Place → Option Bool
  | .condWait => some false
  | .setFalse => some true
  | .waitUnlock => some false
  | .condSignal => some true
  | .signalUnlock => some true
  | _ => none

/-- Only in the locked section does a thread know the flag. -/
theorem Place.critical_of_knows {b : Bool} (h : l.knows = some b) : l.critical = true := by
  cases l <;> simp_all [Place.knows, Place.critical]

/-- The flag is as the threads know it. -/
def Known (s : State τ) : Prop := ∀ t b, (s.place t).knows = some b → s.condToVerify = b

/-- A step that leaves the flag alone may only learn what it is. -/
theorem Known.goto (h : Known s) (hl : ∀ b, l.knows = some b → s.condToVerify = b) :
    Known (s.goto t l) := by
  intro u b hb
  rw [State.place_goto] at hb
  split_ifs at hb with hut
  · exact hl b hb
  · exact h u b hb

/-- Only the thread that holds the mutex knows the flag, so that it may assign it. -/
theorem Known.assign (h : Held s) {p : Pack τ} (ht : (s.place t).critical = true)
    (hl : ∀ b, l.knows = some b → p.condToVerify = b) :
    Known ({ s with toPack := p }.goto t l) := by
  intro u b hb
  rw [State.place_goto] at hb
  split_ifs at hb with hut
  · exact hl b hb
  · exact absurd (h.eq ht (Place.critical_of_knows hb)) hut

theorem Known.wake (h : Known s) (ts : List τ) : Known (s.wake ts) := by
  intro u b hb
  rw [State.place_wake] at hb
  split_ifs at hb with hmem
  · simp [Place.knows] at hb
  · exact h u b hb

/-! ## The invariant of the locked sections -/

/-- Mutex, sleepers and flag agree with the places of the threads. -/
structure Inv (s : State τ) : Prop where
  held : Held s
  queued : Queued s
  known : Known s

omit [DecidableEq τ] in
/-- At first the mutex is free, nobody sleeps and nobody knows the flag. -/
theorem inv_init (flag : Bool) : Inv (init flag : State τ) where
  held := by intro t; simp [init, Place.critical]
  queued := by intro t; simp [init]
  known := by intro t b; simp [init, Place.knows]

omit [DecidableEq τ] in
/-- Whoever is chosen from the queue is asleep. -/
theorem Inv.sleeping (h : Inv s) {ts : List τ} (hts : ts ⊆ s.sleepers) :
    ∀ u ∈ ts, s.place u = .asleep :=
  fun u hu => (h.queued u).mpr (hts hu)

/-- Every step keeps the invariant. -/
theorem Inv.move (h : Inv s) (hmove : Move s s') : Inv s' := by
  cases hmove with
  | @turn t l l' hplace hturn =>
      refine ⟨h.held.goto ?_, h.queued.goto ?_ ?_, h.known.goto ?_⟩
      all_goals cases hturn <;> simp_all [Place.critical, Place.knows]
  | @lock t l l' hplace hentry hfree =>
      refine ⟨h.held.lock hfree ?_, Queued.goto h.queued ?_ ?_, Known.goto h.known ?_⟩
      all_goals cases hentry <;> simp_all [Place.critical, Place.knows]
  | @sleep t hplace =>
      refine ⟨Held.unlock h.held ?_ rfl, h.queued.sleep, Known.goto h.known ?_⟩
      · simp [hplace, Place.critical]
      · simp [Place.knows]
  | @spurious t hmem =>
      have hts : ∀ u ∈ [t], s.place u = .asleep := by simpa [h.queued t] using hmem
      exact ⟨h.held.wake hts, h.queued.wake [t], h.known.wake [t]⟩
  | @setFalse t hplace =>
      refine ⟨Held.goto h.held ?_, Queued.goto h.queued ?_ ?_, Known.assign h.held ?_ ?_⟩
      all_goals simp [hplace, Place.critical, Place.knows]
  | @waited t hplace =>
      refine ⟨Held.unlock h.held ?_ rfl, Queued.goto h.queued ?_ ?_, Known.goto h.known ?_⟩
      all_goals simp [hplace, Place.critical, Place.knows]
  | @setTrue t hplace =>
      refine ⟨Held.goto h.held ?_, Queued.goto h.queued ?_ ?_, Known.assign h.held ?_ ?_⟩
      all_goals simp [hplace, Place.critical, Place.knows]
  | @condSignal t ts hplace hts hsome =>
      have hasleep := h.sleeping hts
      have hmem : t ∉ ts := fun ht => by simpa [hplace] using hasleep t ht
      have hplace' : (s.wake ts).place t = .condSignal := by
        rw [State.place_wake, if_neg hmem, hplace]
      have hflag := h.known t true (by rw [hplace]; rfl)
      refine ⟨(h.held.wake hasleep).goto ?_, (h.queued.wake ts).goto ?_ ?_,
        (h.known.wake ts).goto ?_⟩
      · simp [hplace', Place.critical]
      · simp [hplace']
      · simp
      · intro b hb
        exact hflag.trans (Option.some.inj hb)
  | @signaled t hplace =>
      refine ⟨Held.unlock h.held ?_ rfl, Queued.goto h.queued ?_ ?_, Known.goto h.known ?_⟩
      all_goals simp [hplace, Place.critical, Place.knows]

/-- The invariant holds after every run. -/
theorem Inv.of_run {flag : Bool} {as : List (Action τ)} (h : Run step Any (init flag) as s) :
    Inv s :=
  h.invariant (inv_init flag) (fun _ _ _ hs _ hstep => hs.move (Move.of_step hstep))

/-- What holds at first and is kept by every step from a state with the invariant holds after
every run. -/
theorem of_run_of_move {J : State τ → Prop} {flag : Bool} {as : List (Action τ)}
    (h : Run step Any (init flag) as s) (h₀ : J (init flag))
    (hJ : ∀ s s', J s → Inv s → Move s s' → J s') : J s := by
  have hboth : Inv s ∧ J s := by
    refine h.invariant (I := fun s => Inv s ∧ J s) ⟨inv_init flag, h₀⟩ ?_
    rintro s a s' ⟨hs, hJs⟩ - hstep
    have hmove := Move.of_step hstep
    exact ⟨hs.move hmove, hJ s s' hJs hs hmove⟩
  exact hboth.2

/-! ## The code refines the pack of one-step calls -/

/-- A step leaves the pack alone, or makes one call on it. -/
theorem Inv.pack_move (h : Inv s) (hmove : Move s s') :
    s'.toPack = s.toPack ∨ ∃ c, s.toPack.step c = some s'.toPack := by
  cases hmove with
  | @setFalse t hplace =>
      have hflag : s.condToVerify = true := h.known t true (by rw [hplace]; rfl)
      exact Or.inr ⟨(t, .wait), map_waitWithPack_eq_some.mpr ⟨hflag, rfl⟩⟩
  | @setTrue t _ => exact Or.inr ⟨(t, .signal), rfl⟩
  | _ => exact Or.inl rfl

/-- In any interleaving of the threads the pack goes through a run of one-step calls. -/
theorem refines {flag : Bool} {as : List (Action τ)} (h : Run step Any (init flag) as s) :
    ∃ calls, Run Pack.step Any (Pack.init flag) calls s.toPack := by
  refine h.project State.toPack (fun as s a s' hrun _ hstep => ?_)
  rcases (Inv.of_run hrun).pack_move (Move.of_step hstep) with heq | ⟨c, hc⟩
  · exact Or.inl heq
  · exact Or.inr ⟨c, trivial, hc⟩

/-! ## The calls that have returned -/

/-- In `signal_with_pack`, after the flag was set. -/
def Place.signalling : Place → Bool
  | .condSignal | .signalUnlock => true
  | _ => false

/-- A thread that is signalling has raised the flag itself. -/
theorem Place.knows_of_signalling (h : l.signalling = true) : l.knows = some true := by
  cases l <;> simp_all [Place.signalling, Place.knows]

theorem Place.critical_of_signalling (h : l.signalling = true) : l.critical = true :=
  Place.critical_of_knows (Place.knows_of_signalling h)

/-- A wait that has returned has consumed a setting, and a setting that was made belongs to
a signal that has returned, or to the one that holds the mutex. -/
structure Counted (s : State τ) : Prop where
  waits_le : s.waits ≤ s.consumed.length
  waits_lt : ∀ t, s.place t = .waitUnlock → s.waits < s.consumed.length
  settings_le : s.settings ≤ s.signals + 1
  settings_le_or : s.settings ≤ s.signals ∨ ∃ t, (s.place t).signalling = true

omit [DecidableEq τ] in
theorem counted_init (flag : Bool) : Counted (init flag : State τ) where
  waits_le := Nat.zero_le _
  waits_lt := by simp [init]
  settings_le := Nat.zero_le _
  settings_le_or := Or.inl (Nat.zero_le _)

omit [DecidableEq τ] in
/-- A step that leaves the pack and the numbers of returns alone keeps the count, if no
thread comes to the unlock of its wait and a signal goes on. -/
theorem Counted.frame (h : Counted s) (hpack : s'.toPack = s.toPack)
    (hwaits : s'.waits = s.waits) (hsignals : s'.signals = s.signals)
    (hunlock : ∀ u, s'.place u = .waitUnlock → s.place u = .waitUnlock)
    (hsignal : (∃ u, (s.place u).signalling = true) →
      ∃ u, (s'.place u).signalling = true) : Counted s' := by
  constructor
  · rw [hpack, hwaits]
    exact h.waits_le
  · intro u hu
    rw [hpack, hwaits]
    exact h.waits_lt u (hunlock u hu)
  · rw [hpack, hsignals]
    exact h.settings_le
  · rw [hpack, hsignals]
    exact h.settings_le_or.imp_right hsignal

theorem Turn.signalling_eq {flag : Bool} {l' : Place} (h : Turn flag l l') :
    l.signalling = false := by
  cases h <;> rfl

theorem Turn.ne_waitUnlock {flag : Bool} {l' : Place} (h : Turn flag l l') :
    l' ≠ .waitUnlock := by
  cases h <;> decide

theorem Entry.signalling_eq {l' : Place} (h : Entry l l') : l.signalling = false := by
  cases h <;> rfl

theorem Entry.ne_waitUnlock {l' : Place} (h : Entry l l') : l' ≠ .waitUnlock := by
  cases h <;> decide

/-- The step of a thread that is not signalling leaves the signals of the others. -/
theorem State.signalling_goto (ht : s.place t = l) (hl : l.signalling = false) (l' : Place)
    (h : ∃ u, (s.place u).signalling = true) :
    ∃ u, ((s.goto t l').place u).signalling = true :=
  State.exists_place_goto Place.signalling h (fun hsig => by rw [ht, hl] at hsig; cases hsig)

/-- Where `t` does not go to the unlock of its wait, nobody comes there. -/
theorem State.waitUnlock_goto (hl : l ≠ .waitUnlock) (u : τ)
    (h : (s.goto t l).place u = .waitUnlock) : s.place u = .waitUnlock := by
  rw [State.place_goto] at h
  split_ifs at h with hut
  · exact absurd h hl
  · exact h

/-- Every step keeps the count.  The cases with an argument are the clearing of the flag, where a
setting is consumed before the wait returns, and the raising, which is counted when the signal
returns. -/
theorem Counted.move (h : Counted s) (hinv : Inv s) (hmove : Move s s') : Counted s' := by
  cases hmove with
  | @turn t l l' hplace hturn =>
      exact h.frame rfl rfl rfl (State.waitUnlock_goto hturn.ne_waitUnlock)
        (State.signalling_goto hplace hturn.signalling_eq l')
  | @lock t l l' hplace hentry hfree =>
      exact h.frame rfl rfl rfl (State.waitUnlock_goto hentry.ne_waitUnlock)
        (State.signalling_goto (s := s) hplace hentry.signalling_eq l')
  | @sleep t hplace =>
      exact h.frame rfl rfl rfl (State.waitUnlock_goto (by decide))
        (State.signalling_goto (s := s) hplace rfl .asleep)
  | @spurious t hmem =>
      have hts : ∀ u ∈ [t], s.place u = .asleep := by simpa [hinv.queued t] using hmem
      refine h.frame rfl rfl rfl (fun u hu => ?_)
        (fun hsig => State.exists_place_wake Place.signalling hsig hts rfl)
      exact State.place_of_wake hu (by decide)
  | @setFalse t hplace =>
      constructor
      · exact Nat.le_succ_of_le h.waits_le
      · intro _ _
        exact Nat.lt_succ_of_le h.waits_le
      · exact h.settings_le
      · exact h.settings_le_or.imp_right (State.signalling_goto (s := s) hplace rfl .waitUnlock)
  | @waited t hplace =>
      constructor
      · exact h.waits_lt t hplace
      · intro u hu
        rw [State.place_unlock] at hu
        split_ifs at hu with hut
        have ht : (s.place t).critical = true := by rw [hplace]; rfl
        have hu' : (s.place u).critical = true := by rw [hu]; rfl
        exact absurd (hinv.held.eq ht hu') hut
      · exact h.settings_le
      · exact h.settings_le_or.imp_right (State.signalling_goto (s := s) hplace rfl .idle)
  | @setTrue t hplace =>
      -- the signal whose setting is not yet counted would hold the mutex too
      have hle : s.settings ≤ s.signals := by
        refine h.settings_le_or.resolve_right ?_
        rintro ⟨u, hu⟩
        obtain rfl := hinv.held.eq (t := t) (by rw [hplace]; rfl) (Place.critical_of_signalling hu)
        rw [hplace] at hu
        cases hu
      constructor
      · exact h.waits_le
      · exact fun u hu => h.waits_lt u (State.waitUnlock_goto (s := s) (by decide) u hu)
      · exact Nat.succ_le_succ hle
      · refine Or.inr ⟨t, ?_⟩
        rw [State.place_goto, if_pos rfl]
        rfl
  | @condSignal t ts hplace hts hsome =>
      refine h.frame rfl rfl rfl (fun u hu => ?_) (fun _ => ⟨t, ?_⟩)
      · have hu := State.waitUnlock_goto (by decide) u hu
        exact State.place_of_wake hu (by decide)
      · rw [State.place_goto, if_pos rfl]
        rfl
  | @signaled t hplace =>
      constructor
      · exact h.waits_le
      · exact fun u hu => h.waits_lt u (State.waitUnlock_goto (s := s) (by decide) u hu)
      · exact Nat.le_succ_of_le h.settings_le
      · exact Or.inl h.settings_le

/-- The count holds after every run. -/
theorem Counted.of_run {flag : Bool} {as : List (Action τ)}
    (h : Run step Any (init flag) as s) : Counted s :=
  of_run_of_move h (counted_init flag) (fun _ _ hs hinv hmove => hs.move hinv hmove)

/-- No more waits have returned than the flag was raised at first, and then by signals that
have returned. -/
theorem waits_le_of_run {flag : Bool} {as : List (Action τ)}
    (h : Run step Any (init flag) as s) : s.waits ≤ flag.toNat + s.signals := by
  obtain ⟨calls, hcalls⟩ := refines h
  have hconsumed := (Pack.balanced_of_run hcalls).consumed_le
  have hcount := Counted.of_run h
  have hwaits := hcount.waits_le
  rcases hcount.settings_le_or with hle | ⟨t, ht⟩
  · omega
  · -- a setting is not counted yet: it has not been consumed either
    have hflag := (Inv.of_run h).known t true (Place.knows_of_signalling ht)
    have hle := hcount.settings_le
    rw [hflag, Bool.toNat_true] at hconsumed
    omega

/-! ## Nobody sleeps through a setting -/

/-- The thread was woken, is about to look at the flag and clear it, or is about to wake
somebody. -/
def Place.alert : Place → Bool
  | .woken | .isCondFalse | .setFalse | .condSignal => true
  | _ => false

/-- While the flag is set and somebody sleeps, somebody is alert. -/
def WakeUp (s : State τ) : Prop :=
  s.condToVerify = true → s.sleepers = [] ∨ ∃ t, (s.place t).alert = true

/-- A thread that goes on leaves nobody asleep, if it stays alert. -/
theorem WakeUp.goto (h : WakeUp s)
    (hl : s.condToVerify = true → (s.place t).alert = true → l.alert = true) :
    WakeUp (s.goto t l) := fun hflag =>
  (h hflag).imp_right fun halert => State.exists_place_goto Place.alert halert (hl hflag)

/-- Every step keeps it: who goes to sleep has found the flag down, who raises the flag is alert
until it has woken somebody, and who clears it leaves nothing to be woken for. -/
theorem WakeUp.move (h : WakeUp s) (hinv : Inv s) (hmove : Move s s') : WakeUp s' := by
  cases hmove with
  | @turn t l l' hplace hturn =>
      refine h.goto (fun hflag => ?_)
      rw [hplace]
      cases hturn with
      | stayInLoop hdown => cases hdown.symm.trans hflag
      | _ => decide
  | @lock t l l' hplace hentry hfree =>
      refine WakeUp.goto h (fun _ => ?_)
      simp only [hplace]
      cases hentry <;> decide
  | @sleep t hplace =>
      -- it found the flag down, and still holds the mutex
      intro hflag
      have hdown := hinv.known t false (by rw [hplace]; rfl)
      cases hdown.symm.trans hflag
  | @spurious t hmem =>
      intro _
      refine Or.inr ⟨t, ?_⟩
      rw [State.place_wake, if_pos (List.mem_singleton_self t)]
      rfl
  | @setFalse t hplace =>
      intro hflag
      cases hflag
  | @waited t hplace =>
      refine WakeUp.goto h (fun _ => ?_)
      simp only [hplace]
      decide
  | @setTrue t hplace =>
      intro _
      refine Or.inr ⟨t, ?_⟩
      rw [State.place_goto, if_pos rfl]
      rfl
  | @condSignal t ts hplace hts hsome =>
      intro _
      by_cases hnil : ts = []
      · refine Or.inl ?_
        simp [State.wake, hsome hnil]
      · -- one of those it wakes is now about to lock
        obtain ⟨u, hu⟩ := List.exists_mem_of_ne_nil ts hnil
        have hne : u ≠ t := by
          rintro rfl
          simpa [hplace] using hinv.sleeping hts u hu
        refine Or.inr ⟨u, ?_⟩
        rw [State.place_goto, if_neg hne, State.place_wake, if_pos hu]
        rfl
  | @signaled t hplace =>
      refine WakeUp.goto h (fun _ => ?_)
      simp only [hplace]
      decide

/-- It holds after every run. -/
theorem WakeUp.of_run {flag : Bool} {as : List (Action τ)}
    (h : Run step Any (init flag) as s) : WakeUp s :=
  of_run_of_move h (fun _ => Or.inl rfl) (fun _ _ hs hinv hmove => hs.move hinv hmove)

omit [DecidableEq τ] in
/-- With the mutex free, the alert ones are those who were woken. -/
theorem WakeUp.woken (h : WakeUp s) (hinv : Inv s) (hflag : s.condToVerify = true)
    (hfree : s.mutexToUse = none) (hsleeps : ∃ t, s.place t = .asleep) :
    ∃ t, s.place t = .woken := by
  obtain ⟨t, ht⟩ := hsleeps
  rcases h hflag with hnil | ⟨u, hu⟩
  · have hmem := (hinv.queued t).mp ht
    rw [hnil] at hmem
    cases hmem
  · have hout : (s.place u).critical = false := by
      rw [Bool.eq_false_iff, Ne, hinv.held u, hfree]
      exact nofun
    refine ⟨u, ?_⟩
    cases hplace : s.place u <;> simp_all [Place.alert, Place.critical]

/-! ## The binary semaphore -/

/-- A pack whose flag was `flag` at first is a binary semaphore without lost wake-ups. -/
structure IsSemaphore (flag : Bool) (s : State τ) : Prop where
  /-- The waits that have returned, and the signals that have. -/
  waits_le : s.waits ≤ flag.toNat + s.signals
  /-- No setting is consumed by two waits. -/
  nodup : (s.consumed.map Prod.fst).Nodup
  /-- Flag set and mutex free: not all that wait in `pthread_cond_wait` sleep. -/
  woken : s.condToVerify = true → s.mutexToUse = none →
    ¬ ((∃ t, s.place t = .asleep) ∧ ∀ t, s.place t ≠ .woken)

/-- **Any number of threads, in any interleaving.** -/
theorem isSemaphore {flag : Bool} {as : List (Action τ)} (h : Run step Any (init flag) as s) :
    IsSemaphore flag s where
  waits_le := waits_le_of_run h
  nodup := by
    obtain ⟨calls, hcalls⟩ := refines h
    exact (Pack.balanced_of_run hcalls).nodup
  woken := by
    rintro hflag hfree ⟨hsleeps, hnone⟩
    obtain ⟨t, ht⟩ := (WakeUp.of_run h).woken (Inv.of_run h) hflag hfree hsleeps
    exact hnone t ht

/-- Two waiters sleep and one of them is woken: it has not locked the mutex again yet, and
the flag is still set. -/
theorem isSemaphore_one_woken :
    ∃ s : State ℕ, (s.condToVerify, s.mutexToUse, s.place 0, s.place 1, s.signals) =
        (true, none, .woken, .asleep, 1) ∧ IsSemaphore false s := by
  obtain ⟨s, h, hobs⟩ := Run.of_observed
    (by decide +kernel :
      (run step (init false)
        [.call 0 .wait, .next 0, .next 0, .next 0, .call 1 .wait, .next 1, .next 1, .next 1,
          .call 2 .signal, .next 2, .next 2, .condSignal 2 [0], .next 2]).map
        (fun s : State ℕ => (s.condToVerify, s.mutexToUse, s.place 0, s.place 1, s.signals)) =
      some (true, none, .woken, .asleep, 1))
  exact ⟨s, hobs, isSemaphore h⟩

end Steps

end ThreadConditionPack
