/-
# Blocks that a record owns

A record has a pointer and a length in each of its places; blocks are allocated for the
places, released, and read.  A block is a number, given out once, and the live blocks are a
set, so that to release a block that is not live, or to read one, has no result.

Whether the places own their blocks is a matter of two habits of the operations: whether an
addition releases the block that it replaces, and whether a cleaning forgets the block that
it releases.  A place is unused, filled or emptied, an addition and a cleaning lead from one
to another or go wrong, and the record is sound over a run exactly where nothing goes wrong
in any place (`sound_iff`).
-/
import Mathlib.Data.Finset.Basic
import Mathlib.Data.List.Chain
import Mathlib.Data.List.Nodup

namespace OwnedBlocks

variable {κ : Type*} [DecidableEq κ]

/-! ## Memory -/

/-- The fields of the record and the memory behind them; `stored` are the blocks that were
allocated for its places. -/
structure Owner (κ : Type*) where
  ptr : κ → Option ℕ
  len : κ → ℕ
  live : Finset ℕ
  allocated : ℕ
  stored : List ℕ

/-- The record with every pointer NULL. -/
def start : Owner κ := ⟨fun _ => none, fun _ => 0, ∅, 0, []⟩

/-- A fresh block. -/
def malloc (s : Owner κ) : ℕ × Owner κ :=
  (s.allocated,
    { s with live := insert s.allocated s.live, allocated := s.allocated + 1 })

/-- NULL is released without effect; a block must be live. -/
def free (p : Option ℕ) (s : Owner κ) : Option (Owner κ) :=
  match p with
  | none => some s
  | some b => if b ∈ s.live then some { s with live := s.live.erase b } else none

/-- A copy of `n` floats in a fresh block, kept in a place. -/
def store (k : κ) (n : ℕ) (s : Owner κ) : Owner κ :=
  let (b, s) := malloc s
  { s with
    ptr := Function.update s.ptr k (some b)
    len := Function.update s.len k n
    stored := s.stored ++ [b] }

/-- The same, after the block of the place is released. -/
def replace (k : κ) (n : ℕ) (s : Owner κ) : Option (Owner κ) :=
  (free (s.ptr k) s).map (store k n)

/-- Where a place stands: with NULL, with a live block, or with a block that is released. -/
inductive Phase where
  | unused
  | filled
  | emptied
  deriving DecidableEq

/-- The phase of a place. -/
def phase (s : Owner κ) (k : κ) : Phase :=
  match s.ptr k with
  | none => .unused
  | some b => if b ∈ s.live then .filled else .emptied

/-- A copy of the floats of a place, in a fresh block that is the caller's. -/
def read (k : κ) (s : Owner κ) : Option (Owner κ) :=
  if 0 < s.len k ∧ phase s k ≠ .filled then none else some (malloc s).2

/-- The block of a place is released, its length is set to `0`, and its pointer is set to
NULL or kept. -/
def clear (setsNull : Bool) (k : κ) (s : Owner κ) : Option (Owner κ) :=
  (free (s.ptr k) s).map fun s =>
    { s with
      ptr := if setsNull then Function.update s.ptr k none else s.ptr
      len := Function.update s.len k 0 }

/-- The block of a place is released, and nothing else. -/
def release (k : κ) (s : Owner κ) : Option (Owner κ) := free (s.ptr k) s

/-- An action on one place after the other. -/
def forPlaces (act : κ → Owner κ → Option (Owner κ)) : List κ → Owner κ → Option (Owner κ)
  | [], s => some s
  | k :: places, s => (act k s).bind (forPlaces act places)

/-! ## Runs -/

/-- The operations of a record. -/
structure Operations (κ : Type*) where
  add : κ → ℕ → Owner κ → Option (Owner κ)
  get : κ → Owner κ → Option (Owner κ)
  clean : Owner κ → Option (Owner κ)
  free : Owner κ → Option (Owner κ)

/-- A call of one of them, but for the last. -/
inductive Op (κ : Type*) where
  | add (k : κ) (n : ℕ)
  | get (k : κ)
  | clean

/-- The operation that is called. -/
def Operations.perform (F : Operations κ) : Op κ → Owner κ → Option (Owner κ)
  | .add k n => F.add k n
  | .get k => F.get k
  | .clean => F.clean

/-- Every block that was stored is live and referred to, or released already. -/
def Accounted (s : Owner κ) : Prop :=
  ∀ b ∈ s.stored, (b ∈ s.live ∧ ∃ k, s.ptr k = some b) ∨ b ∉ s.live

/-- Over a run, which ends with the release of the record, no operation goes wrong, the
blocks are accounted for in every state, and in the end none is live. -/
def Operations.Sound (F : Operations κ) (s : Owner κ) : List (Op κ) → Prop
  | [] => Accounted s ∧ ∃ s', F.free s = some s' ∧ ∀ b ∈ s'.stored, b ∉ s'.live
  | op :: ops => Accounted s ∧ ∃ s', F.perform op s = some s' ∧ F.Sound s' ops

/-! ## What happens in one place -/

/-- What an addition makes of a place, if it does not go wrong. -/
def Phase.added (freesOld : Bool) : Phase → Option Phase
  | .unused => some .filled
  | .filled => if freesOld then some .filled else none
  | .emptied => if freesOld then none else some .filled

/-- What a cleaning makes of a place, if it does not go wrong. -/
def Phase.cleaned (setsNull : Bool) : Phase → Option Phase
  | .unused => some .unused
  | .filled => some (if setsNull then .unused else .emptied)
  | .emptied => none

/-- The two operations that a place can see. -/
inductive Letter where
  | add
  | clean
  deriving DecidableEq

/-- What one place sees of a run. -/
def word (k : κ) : List (Op κ) → List Letter
  | [] => []
  | .add k' _ :: ops => if k' = k then .add :: word k ops else word k ops
  | .get _ :: ops => word k ops
  | .clean :: ops => .clean :: word k ops

/-- Nothing goes wrong in a place, not even in the end. -/
def Phase.Good (freesOld setsNull : Bool) : Phase → List Letter → Prop
  | φ, [] => φ ≠ .emptied
  | φ, .add :: w => ∃ φ', φ.added freesOld = some φ' ∧ φ'.Good freesOld setsNull w
  | φ, .clean :: w => ∃ φ', φ.cleaned setsNull = some φ' ∧ φ'.Good freesOld setsNull w

/-! ## The invariant -/

/-- The places own their blocks: each block that was stored is one of those given out, each
pointer is to a stored block, no live block is in two places, and the live ones of those
stored are all in a place. -/
structure Owned (s : Owner κ) : Prop where
  stored_lt : ∀ b ∈ s.stored, b < s.allocated
  ptr_stored : ∀ k b, s.ptr k = some b → b ∈ s.stored
  separate : ∀ k j b, s.ptr k = some b → s.ptr j = some b → b ∈ s.live → k = j
  referenced : ∀ b ∈ s.stored, b ∈ s.live → ∃ k, s.ptr k = some b

/-- A length that is not `0` is that of a live block. -/
def Readable (s : Owner κ) : Prop := ∀ k, 0 < s.len k → phase s k = .filled

variable {s : Owner κ} {k : κ}

omit [DecidableEq κ] in
theorem phase_eq_unused_iff : phase s k = .unused ↔ s.ptr k = none := by
  unfold phase
  split
  · simp [*]
  · rename_i b hb
    by_cases hlive : b ∈ s.live
    · simp [hb, hlive]
    · simp [hb, hlive]

omit [DecidableEq κ] in
theorem phase_eq_filled_iff : phase s k = .filled ↔ ∃ b, s.ptr k = some b ∧ b ∈ s.live := by
  unfold phase
  split
  · simp [*]
  · rename_i b hb
    by_cases hlive : b ∈ s.live
    · simp [hb, hlive]
    · simp [hb, hlive]

omit [DecidableEq κ] in
theorem phase_eq_emptied_iff : phase s k = .emptied ↔ ∃ b, s.ptr k = some b ∧ b ∉ s.live := by
  unfold phase
  split
  · simp [*]
  · rename_i b hb
    by_cases hlive : b ∈ s.live
    · simp [hb, hlive]
    · simp [hb, hlive]

omit [DecidableEq κ] in
theorem Owned.accounted (h : Owned s) : Accounted s := by
  intro b hb
  by_cases hlive : b ∈ s.live
  · exact .inl ⟨hlive, h.referenced b hb hlive⟩
  · exact .inr hlive

omit [DecidableEq κ] in
theorem owned_start : Owned (start : Owner κ) := by
  refine ⟨?_, ?_, ?_, ?_⟩
  · rintro b ⟨⟩
  · rintro k b ⟨⟩
  · rintro k j b ⟨⟩
  · rintro b ⟨⟩

/-! ### Releasing the block of a place -/

/-- What a release by itself makes of a place. -/
def Phase.freed : Phase → Phase
  | .unused => .unused
  | .filled => .emptied
  | .emptied => .emptied

theorem Phase.freed_ne_filled (φ : Phase) : φ.freed ≠ .filled := by
  cases φ with
  | unused => rintro ⟨⟩
  | filled => rintro ⟨⟩
  | emptied => rintro ⟨⟩

omit [DecidableEq κ] in
/-- A block that is released already cannot be released. -/
theorem free_of_emptied (h : phase s k = .emptied) : free (s.ptr k) s = none := by
  obtain ⟨b, hb, hlive⟩ := phase_eq_emptied_iff.mp h
  rw [hb]
  exact if_neg hlive

omit [DecidableEq κ] in
/-- What releasing the block of a place does to the places. -/
theorem Owned.free (h : Owned s) (hk : phase s k ≠ .emptied) :
    ∃ s', OwnedBlocks.free (s.ptr k) s = some s' ∧ Owned s' ∧ s'.ptr = s.ptr ∧ s'.len = s.len
      ∧ phase s' k = (phase s k).freed ∧ ∀ j, j ≠ k → phase s' j = phase s j := by
  cases hptr : s.ptr k with
  | none =>
    refine ⟨s, rfl, h, rfl, rfl, ?_, fun _ _ => rfl⟩
    rw [phase_eq_unused_iff.mpr hptr]
    rfl
  | some b =>
    have hlive : b ∈ s.live := by
      by_contra hdead
      exact hk (phase_eq_emptied_iff.mpr ⟨b, hptr, hdead⟩)
    refine ⟨{ s with live := s.live.erase b }, if_pos hlive, ?_, rfl, rfl, ?_, ?_⟩
    · refine ⟨h.stored_lt, h.ptr_stored, ?_, ?_⟩
      · exact fun i j c hi hj hc => h.separate i j c hi hj (Finset.mem_of_mem_erase hc)
      · exact fun c hc hlive' => h.referenced c hc (Finset.mem_of_mem_erase hlive')
    · rw [phase_eq_filled_iff.mpr ⟨b, hptr, hlive⟩]
      exact phase_eq_emptied_iff.mpr ⟨b, hptr, Finset.notMem_erase b s.live⟩
    · intro j hj
      unfold phase
      show (match s.ptr j with | none => _ | some c => _) = _
      cases hj' : s.ptr j with
      | none => rfl
      | some c =>
        have hne : c ∈ s.live → c ≠ b := by
          rintro hc rfl
          exact hj (h.separate j k c hj' hptr hc)
        by_cases hc : c ∈ s.live
        · simp [hc, hne hc]
        · simp [hc]

/-! ### Adding and getting -/

omit [DecidableEq κ] in
/-- A block that the caller gets does not disturb the places. -/
theorem Owned.malloc (h : Owned s) :
    Owned (OwnedBlocks.malloc s).2 ∧ ∀ j, phase (OwnedBlocks.malloc s).2 j = phase s j := by
  have hlive : ∀ b < s.allocated, (b ∈ (OwnedBlocks.malloc s).2.live ↔ b ∈ s.live) := by
    intro b hb
    show b ∈ insert s.allocated s.live ↔ _
    rw [Finset.mem_insert]
    exact or_iff_right (Nat.ne_of_lt hb)
  refine ⟨⟨?_, h.ptr_stored, ?_, ?_⟩, ?_⟩
  · exact fun b hb => (h.stored_lt b hb).trans (Nat.lt_succ_self _)
  · intro i j b hi hj hb
    exact h.separate i j b hi hj ((hlive b (h.stored_lt b (h.ptr_stored i b hi))).mp hb)
  · intro b hb hb'
    exact h.referenced b hb ((hlive b (h.stored_lt b hb)).mp hb')
  · intro j
    unfold phase
    show (match s.ptr j with | none => _ | some c => _) = _
    cases hj : s.ptr j with
    | none => rfl
    | some c => simp [hlive c (h.stored_lt c (h.ptr_stored j c hj))]

theorem ptr_store (k : κ) (n : ℕ) (s : Owner κ) :
    (store k n s).ptr = Function.update s.ptr k (some s.allocated) := rfl

/-- The new block is in the place it is stored in; the other places keep theirs. -/
theorem ptr_store_eq_some_iff {n : ℕ} {j : κ} {b : ℕ} :
    (store k n s).ptr j = some b
      ↔ (j = k ∧ b = s.allocated) ∨ (j ≠ k ∧ s.ptr j = some b) := by
  rw [ptr_store]
  by_cases hj : j = k
  · rw [hj, Function.update_self, Option.some_inj]
    simp [eq_comm]
  · rw [Function.update_of_ne hj]
    simp [hj]

theorem stored_store (k : κ) (n : ℕ) (s : Owner κ) :
    (store k n s).stored = s.stored ++ [s.allocated] := rfl

theorem len_store (k : κ) (n : ℕ) (s : Owner κ) :
    (store k n s).len = Function.update s.len k n := rfl

theorem live_store (k : κ) (n : ℕ) (s : Owner κ) :
    (store k n s).live = insert s.allocated s.live := rfl

/-- The place that is stored in is filled. -/
theorem phase_store_self (k : κ) (n : ℕ) (s : Owner κ) : phase (store k n s) k = .filled := by
  rw [phase_eq_filled_iff, ptr_store, Function.update_self, live_store]
  exact ⟨s.allocated, rfl, Finset.mem_insert_self _ _⟩

/-- The other places do not change. -/
theorem Owned.phase_store_of_ne (h : Owned s) (n : ℕ) {j : κ} (hj : j ≠ k) :
    phase (store k n s) j = phase s j := by
  rw [← h.malloc.2 j]
  unfold phase
  rw [ptr_store, Function.update_of_ne hj]
  rfl

omit [DecidableEq κ] in
/-- No place has the block that is allocated next. -/
theorem Owned.ptr_ne_allocated (h : Owned s) {j : κ} {b : ℕ} (hj : s.ptr j = some b) :
    b ≠ s.allocated :=
  (h.stored_lt b (h.ptr_stored j b hj)).ne

/-- Storing in a place with no live block. -/
theorem Owned.store (h : Owned s) (hk : phase s k ≠ .filled) (n : ℕ) :
    Owned (OwnedBlocks.store k n s) := by
  have hold : ∀ b ∈ s.stored, b ∈ insert s.allocated s.live → b ∈ s.live := by
    intro b hb hlive
    exact (Finset.mem_insert.mp hlive).resolve_left (h.stored_lt b hb).ne
  have hstored : ∀ b, b ∈ (OwnedBlocks.store k n s).stored ↔ b ∈ s.stored ∨ b = s.allocated := by
    intro b
    rw [stored_store, List.mem_append, List.mem_singleton]
  refine ⟨?_, ?_, ?_, ?_⟩
  · intro b hb
    rcases (hstored b).mp hb with hb | rfl
    · exact (h.stored_lt b hb).trans (Nat.lt_succ_self _)
    · exact Nat.lt_succ_self _
  · intro j b hj
    rw [hstored]
    rcases ptr_store_eq_some_iff.mp hj with ⟨-, hb⟩ | ⟨-, hj⟩
    · exact Or.inr hb
    · exact Or.inl (h.ptr_stored j b hj)
  · intro i j b hi hj hb
    rcases ptr_store_eq_some_iff.mp hi with ⟨hik, hb'⟩ | ⟨-, hi⟩
    · rcases ptr_store_eq_some_iff.mp hj with ⟨hjk, -⟩ | ⟨-, hj⟩
      · rw [hik, hjk]
      · exact absurd hb' (h.ptr_ne_allocated hj)
    · rcases ptr_store_eq_some_iff.mp hj with ⟨-, hb'⟩ | ⟨-, hj⟩
      · exact absurd hb' (h.ptr_ne_allocated hi)
      · exact h.separate i j b hi hj (hold b (h.ptr_stored i b hi) hb)
  · intro b hb hlive
    rcases (hstored b).mp hb with hb' | hb'
    · obtain ⟨j, hj⟩ := h.referenced b hb' (hold b hb' hlive)
      have hjk : j ≠ k := by
        rintro rfl
        exact hk (phase_eq_filled_iff.mpr ⟨b, hj, hold b hb' hlive⟩)
      exact ⟨j, ptr_store_eq_some_iff.mpr (Or.inr ⟨hjk, hj⟩)⟩
    · exact ⟨k, ptr_store_eq_some_iff.mpr (Or.inl ⟨rfl, hb'⟩)⟩

theorem Owned.readable_store (h : Owned s)
    (hread : ∀ j, j ≠ k → 0 < s.len j → phase s j = .filled) (n : ℕ) :
    Readable (OwnedBlocks.store k n s) := by
  intro j hj
  by_cases hjk : j = k
  · rw [hjk]
    exact phase_store_self k n s
  · rw [h.phase_store_of_ne n hjk]
    rw [len_store, Function.update_of_ne hjk] at hj
    exact hread j hjk hj

/-- Storing in a place with a live block loses that block. -/
theorem Owned.not_accounted_store (h : Owned s) (hk : phase s k = .filled) (n : ℕ) :
    ¬Accounted (OwnedBlocks.store k n s) := by
  obtain ⟨b, hb, hlive⟩ := phase_eq_filled_iff.mp hk
  intro haccounted
  obtain ⟨-, j, hj⟩ | hdead := haccounted b (List.mem_append_left _ (h.ptr_stored k b hb))
  · rcases ptr_store_eq_some_iff.mp hj with ⟨-, hb'⟩ | ⟨hjk, hj⟩
    · exact h.ptr_ne_allocated hb hb'
    · exact hjk (h.separate j k b hj hb hlive)
  · exact hdead (Finset.mem_insert_of_mem hlive)

/-! ### One place after the other -/

/-- An action on a place that goes wrong where the block of the place is released already,
and else keeps an invariant and leaves the other places as they are. -/
structure ActsOn (I : Owner κ → Prop) (act : κ → Owner κ → Option (Owner κ))
    (next : Phase → Phase) : Prop where
  fails : ∀ s k, I s → phase s k = .emptied → act k s = none
  works : ∀ s k, I s → phase s k ≠ .emptied → ∃ s', act k s = some s' ∧ I s'
    ∧ phase s' k = next (phase s k) ∧ ∀ j, j ≠ k → phase s' j = phase s j

variable {I : Owner κ → Prop} {act : κ → Owner κ → Option (Owner κ)} {next : Phase → Phase}

omit [DecidableEq κ] in
/-- The same for all places in turn, where it works. -/
theorem ActsOn.forPlaces (h : ActsOn I act next) {places : List κ} (hnodup : places.Nodup)
    (hI : I s) (hplaces : ∀ k ∈ places, phase s k ≠ .emptied) :
    ∃ s', OwnedBlocks.forPlaces act places s = some s' ∧ I s'
      ∧ (∀ k ∈ places, phase s' k = next (phase s k))
      ∧ ∀ k, k ∉ places → phase s' k = phase s k := by
  induction places generalizing s with
  | nil => exact ⟨s, rfl, hI, by simp, fun _ _ => rfl⟩
  | cons k places ih =>
    rw [List.nodup_cons] at hnodup
    rw [List.forall_mem_cons] at hplaces
    obtain ⟨s₁, hact, hI₁, hk, hothers⟩ := h.works s k hI hplaces.1
    have hne : ∀ j ∈ places, j ≠ k := by
      rintro j hj rfl
      exact hnodup.1 hj
    obtain ⟨s', hrest, hI', hin, hout⟩ := ih hnodup.2 hI₁ fun j hj => by
      rw [hothers j (hne j hj)]
      exact hplaces.2 j hj
    refine ⟨s', ?_, hI', ?_, ?_⟩
    · rw [OwnedBlocks.forPlaces, hact]
      exact hrest
    · rw [List.forall_mem_cons, hout k hnodup.1]
      refine ⟨hk, fun j hj => ?_⟩
      rw [hin j hj, hothers j (hne j hj)]
    · intro j hj
      rw [List.mem_cons, not_or] at hj
      rw [hout j hj.2, hothers j hj.1]

omit [DecidableEq κ] in
/-- And where it fails. -/
theorem ActsOn.forPlaces_eq_none (h : ActsOn I act next) {places : List κ}
    (hnodup : places.Nodup) (hI : I s) {k : κ} (hk : k ∈ places) (hphase : phase s k = .emptied) :
    OwnedBlocks.forPlaces act places s = none := by
  induction places generalizing s with
  | nil => cases hk
  | cons j places ih =>
    rw [List.nodup_cons] at hnodup
    by_cases hj : phase s j = .emptied
    · rw [OwnedBlocks.forPlaces, h.fails s j hI hj]
      rfl
    · have hjk : k ≠ j := by
        rintro rfl
        exact hj hphase
      obtain ⟨s₁, hact, hI₁, -, hothers⟩ := h.works s j hI hj
      rw [OwnedBlocks.forPlaces, hact]
      exact ih hnodup.2 hI₁ ((List.mem_cons.mp hk).resolve_left hjk) ((hothers k hjk).trans hphase)

omit [DecidableEq κ] in
/-- A release, by itself. -/
theorem actsOn_release : ActsOn (Owned : Owner κ → Prop) release Phase.freed := by
  refine ⟨fun s k _ hk => free_of_emptied hk, fun s k hI hk => ?_⟩
  obtain ⟨s', hfree, howned, -, -, hphase, hothers⟩ := hI.free hk
  exact ⟨s', hfree, howned, hphase, hothers⟩

/-- The pointer of a place with no live block may be set to NULL. -/
theorem Owned.setNull (h : Owned s) (hk : phase s k ≠ .filled) :
    Owned { s with ptr := Function.update s.ptr k none } := by
  have hptr : ∀ {j b}, Function.update s.ptr k none j = some b → s.ptr j = some b := by
    intro j b hj
    by_cases hjk : j = k
    · rw [hjk, Function.update_self] at hj
      cases hj
    · rwa [Function.update_of_ne hjk] at hj
  refine ⟨h.stored_lt, ?_, ?_, ?_⟩
  · exact fun j b hj => h.ptr_stored j b (hptr hj)
  · exact fun i j b hi hj hb => h.separate i j b (hptr hi) (hptr hj) hb
  · intro b hb hlive
    obtain ⟨j, hj⟩ := h.referenced b hb hlive
    have hjk : j ≠ k := by
      intro hjk
      rw [hjk] at hj
      exact hk (phase_eq_filled_iff.mpr ⟨b, hj, hlive⟩)
    exact ⟨j, (Function.update_of_ne hjk ..).trans hj⟩

/-- What a cleaning makes of a place, whatever it was. -/
def Phase.cleared (setsNull : Bool) (φ : Phase) : Phase :=
  if setsNull then .unused else φ.freed

/-- A cleaning. -/
theorem actsOn_clear (setsNull : Bool) :
    ActsOn (fun s : Owner κ => Owned s ∧ Readable s) (clear setsNull)
      (Phase.cleared setsNull) := by
  constructor
  · intro s k _ hk
    rw [clear, free_of_emptied hk]
    rfl
  · rintro s k ⟨howned, hread⟩ hk
    obtain ⟨s', hfree, howned', hptr, hlen, hphase, hothers⟩ := howned.free hk
    have hunfilled : phase s' k ≠ .filled := hphase ▸ (phase s k).freed_ne_filled
    have hread' : ∀ j, 0 < Function.update s'.len k 0 j → j ≠ k ∧ phase s' j = .filled := by
      intro j hj
      by_cases hjk : j = k
      · rw [hjk, Function.update_self] at hj
        exact absurd hj (Nat.lt_irrefl 0)
      · rw [Function.update_of_ne hjk, hlen] at hj
        exact ⟨hjk, (hothers j hjk).trans (hread j hj)⟩
    cases setsNull with
    | false =>
      refine ⟨{ s' with len := Function.update s'.len k 0 }, congrArg (Option.map _) hfree,
        ⟨⟨howned'.stored_lt, howned'.ptr_stored, howned'.separate, howned'.referenced⟩, ?_⟩,
        hphase, hothers⟩
      exact fun j hj => (hread' j hj).2
    | true =>
      have hothers' : ∀ j, j ≠ k → phase { s' with
          ptr := Function.update s'.ptr k none, len := Function.update s'.len k 0 } j
            = phase s' j := by
        intro j hj
        unfold phase
        simp only [Function.update_of_ne hj]
      have hnull := howned'.setNull hunfilled
      refine ⟨{ s' with ptr := Function.update s'.ptr k none, len := Function.update s'.len k 0 },
        congrArg (Option.map _) hfree,
        ⟨⟨hnull.stored_lt, hnull.ptr_stored, hnull.separate, hnull.referenced⟩, ?_⟩, ?_, ?_⟩
      · intro j hj
        obtain ⟨hjk, hfilled⟩ := hread' j hj
        exact (hothers' j hjk).trans hfilled
      · exact phase_eq_unused_iff.mpr (Function.update_self ..)
      · exact fun j hj => (hothers' j hj).trans (hothers j hj)

/-! ## Whole runs -/

/-- The operations of a record with these places and these two habits; its last release may
be a cleaning. -/
structure Operations.Follows (F : Operations κ) (freesOld setsNull : Bool) (places : List κ) :
    Prop where
  nodup : places.Nodup
  all : ∀ k, k ∈ places
  add : ∀ k n s, F.add k n s = if freesOld then replace k n s else some (store k n s)
  get : ∀ k s, F.get k s = read k s
  clean : ∀ s, F.clean s = OwnedBlocks.forPlaces (clear setsNull) places s
  free : (∀ s, F.free s = OwnedBlocks.forPlaces release places s)
    ∨ ∀ s, F.free s = OwnedBlocks.forPlaces (clear setsNull) places s

theorem Phase.cleared_ne_filled (setsNull : Bool) (φ : Phase) :
    φ.cleared setsNull ≠ .filled := by
  cases setsNull with
  | false => exact φ.freed_ne_filled
  | true => rintro ⟨⟩

/-- A cleaning goes wrong in an emptied place only. -/
theorem Phase.cleaned_eq_some_iff (setsNull : Bool) (φ φ' : Phase) :
    φ.cleaned setsNull = some φ' ↔ φ ≠ .emptied ∧ φ.cleared setsNull = φ' := by
  cases φ <;> cases setsNull <;> simp [cleaned, cleared, freed]

omit [DecidableEq κ] in
/-- The last release, where no place is emptied. -/
theorem ActsOn.last_iff (h : ActsOn I act next) (hI : ∀ s, I s → Owned s)
    (hnext : ∀ φ, next φ ≠ .filled) {places : List κ} (hnodup : places.Nodup)
    (hall : ∀ k, k ∈ places) (hs : I s) :
    (∃ s', OwnedBlocks.forPlaces act places s = some s' ∧ ∀ b ∈ s'.stored, b ∉ s'.live)
      ↔ ∀ k, phase s k ≠ .emptied := by
  constructor
  · rintro ⟨s', hs', -⟩ k hk
    rw [h.forPlaces_eq_none hnodup hs (hall k) hk] at hs'
    cases hs'
  · intro hphase
    obtain ⟨s', hs', hI', hphase', -⟩ := h.forPlaces hnodup hs fun k _ => hphase k
    refine ⟨s', hs', fun b hb hlive => ?_⟩
    obtain ⟨k, hk⟩ := (hI s' hI').referenced b hb hlive
    have hfilled := phase_eq_filled_iff.mpr ⟨b, hk, hlive⟩
    exact hnext _ ((hphase' k (hall k)).symm.trans hfilled)

section Runs

variable {F : Operations κ} {freesOld setsNull : Bool} {places : List κ}
  (hF : F.Follows freesOld setsNull places)

include hF

/-- An addition that goes right. -/
theorem Operations.Follows.add_spec (howned : Owned s) (hread : Readable s) {φ : Phase}
    (hφ : (phase s k).added freesOld = some φ) (n : ℕ) :
    ∃ s', F.add k n s = some s' ∧ Owned s' ∧ Readable s' ∧ phase s' k = φ
      ∧ ∀ j, j ≠ k → phase s' j = phase s j := by
  have hfilled : φ = .filled := by
    cases hk : phase s k <;> cases freesOld <;> simp [hk, Phase.added] at hφ <;> exact hφ.symm
  rw [hF.add, hfilled]
  cases freesOld with
  | false =>
    have hk : phase s k ≠ .filled := by
      intro hk
      rw [hk] at hφ
      cases hφ
    exact ⟨store k n s, rfl, howned.store hk n, howned.readable_store (fun j _ => hread j) n,
      phase_store_self k n s, fun j hj => howned.phase_store_of_ne n hj⟩
  | true =>
    have hk : phase s k ≠ .emptied := by
      intro hk
      rw [hk] at hφ
      cases hφ
    obtain ⟨s₁, hfree, howned₁, -, hlen, hphase, hothers⟩ := howned.free hk
    have hk₁ : phase s₁ k ≠ .filled := hphase ▸ (phase s k).freed_ne_filled
    have hread₁ : ∀ j, j ≠ k → 0 < s₁.len j → phase s₁ j = .filled := by
      intro j hj hpos
      rw [hlen] at hpos
      rw [hothers j hj]
      exact hread j hpos
    exact ⟨store k n s₁, congrArg (Option.map _) hfree, howned₁.store hk₁ n,
      howned₁.readable_store hread₁ n, phase_store_self k n s₁,
      fun j hj => (howned₁.phase_store_of_ne n hj).trans (hothers j hj)⟩

/-- An addition that goes wrong: it has no result, or it loses a block. -/
theorem Operations.Follows.add_wrong (howned : Owned s)
    (hφ : (phase s k).added freesOld = none) (n : ℕ) {s' : Owner κ} (hs' : F.add k n s = some s') :
    ¬Accounted s' := by
  rw [hF.add] at hs'
  cases hk : phase s k with
  | unused =>
    rw [hk] at hφ
    cases hφ
  | filled =>
    cases freesOld with
    | false =>
      cases hs'
      exact howned.not_accounted_store hk n
    | true =>
      rw [hk] at hφ
      cases hφ
  | emptied =>
    cases freesOld with
    | false =>
      rw [hk] at hφ
      cases hφ
    | true =>
      rw [if_pos rfl, replace, free_of_emptied hk] at hs'
      cases hs'

theorem Operations.Follows.get_spec (howned : Owned s) (hread : Readable s) (k : κ) :
    ∃ s', F.get k s = some s' ∧ Owned s' ∧ Readable s' ∧ ∀ j, phase s' j = phase s j := by
  obtain ⟨howned', hphase⟩ := howned.malloc
  refine ⟨(malloc s).2, ?_, howned', fun j hj => (hphase j).trans (hread j hj), hphase⟩
  rw [hF.get, read, if_neg]
  rintro ⟨hpos, hunfilled⟩
  exact hunfilled (hread k hpos)

/-- A cleaning that goes right. -/
theorem Operations.Follows.clean_spec (howned : Owned s) (hread : Readable s)
    (hall : ∀ j, phase s j ≠ .emptied) :
    ∃ s', F.clean s = some s' ∧ Owned s' ∧ Readable s'
      ∧ ∀ j, phase s' j = (phase s j).cleared setsNull := by
  obtain ⟨s', hs', ⟨howned', hread'⟩, hphase, -⟩ :=
    (actsOn_clear setsNull).forPlaces hF.nodup ⟨howned, hread⟩ fun j _ => hall j
  exact ⟨s', (hF.clean s).trans hs', howned', hread', fun j => hphase j (hF.all j)⟩

/-- A cleaning that goes wrong releases a block twice. -/
theorem Operations.Follows.clean_wrong (howned : Owned s) (hread : Readable s)
    (hk : phase s k = .emptied) : F.clean s = none :=
  (hF.clean s).trans
    ((actsOn_clear setsNull).forPlaces_eq_none hF.nodup ⟨howned, hread⟩ (hF.all k) hk)

/-- The last release goes right where no place is emptied. -/
theorem Operations.Follows.last_iff (howned : Owned s) (hread : Readable s) :
    (∃ s', F.free s = some s' ∧ ∀ b ∈ s'.stored, b ∉ s'.live) ↔ ∀ k, phase s k ≠ .emptied := by
  obtain hfree | hfree := hF.free
  · rw [hfree]
    exact actsOn_release.last_iff (fun _ h => h) Phase.freed_ne_filled hF.nodup hF.all howned
  · rw [hfree]
    exact (actsOn_clear setsNull).last_iff (fun _ h => h.1) (Phase.cleared_ne_filled setsNull)
      hF.nodup hF.all ⟨howned, hread⟩

omit [DecidableEq κ] hF in
/-- The blocks are accounted for from the first state on. -/
theorem Operations.Sound.accounted {ops : List (Op κ)} (h : F.Sound s ops) : Accounted s := by
  cases ops with
  | nil => exact h.1
  | cons op ops => exact h.1

omit hF in
/-- What the places see of an addition that goes right. -/
theorem forall_good_add_iff {s s' : Owner κ} {φ : Phase} {n : ℕ} {ops : List (Op κ)}
    (hφ : (phase s k).added freesOld = some φ) (hk : phase s' k = φ)
    (hothers : ∀ j, j ≠ k → phase s' j = phase s j) :
    (∀ j, (phase s j).Good freesOld setsNull (word j (.add k n :: ops)))
      ↔ ∀ j, (phase s' j).Good freesOld setsNull (word j ops) := by
  refine forall_congr' fun j => ?_
  by_cases hj : j = k
  · rw [hj, hk, word, if_pos rfl, Phase.Good, hφ]
    simp
  · rw [hothers j hj, word, if_neg (Ne.symm hj)]

omit hF in
/-- What a place sees of a cleaning. -/
theorem good_clean_iff (j : κ) (ops : List (Op κ)) :
    (phase s j).Good freesOld setsNull (word j (.clean :: ops))
      ↔ phase s j ≠ .emptied
        ∧ ((phase s j).cleared setsNull).Good freesOld setsNull (word j ops) := by
  simp [word, Phase.Good, Phase.cleaned_eq_some_iff]

/-- **Soundness, place by place.**  From a state in which the places own their blocks, a run
is sound exactly where nothing goes wrong in what each place sees of it. -/
theorem Operations.Follows.sound_iff (howned : Owned s) (hread : Readable s)
    (ops : List (Op κ)) :
    F.Sound s ops ↔ ∀ k, (phase s k).Good freesOld setsNull (word k ops) := by
  induction ops generalizing s with
  | nil =>
    rw [Operations.Sound, and_iff_right howned.accounted]
    exact hF.last_iff howned hread
  | cons op ops ih =>
    rw [Operations.Sound, and_iff_right howned.accounted]
    cases op with
    | add k n =>
      constructor
      · rintro ⟨s', hs', hsound⟩
        cases hφ : (phase s k).added freesOld with
        | none => exact absurd hsound.accounted (hF.add_wrong howned hφ n hs')
        | some φ =>
          obtain ⟨s'', hs'', howned', hread', hk, hothers⟩ := hF.add_spec howned hread hφ n
          obtain rfl : s'' = s' := Option.some_inj.mp (hs''.symm.trans hs')
          exact (forall_good_add_iff hφ hk hothers).mpr ((ih howned' hread').mp hsound)
      · intro hgood
        obtain ⟨φ, hφ, -⟩ : ∃ φ, (phase s k).added freesOld = some φ ∧ _ := by
          have hk := hgood k
          rwa [word, if_pos rfl] at hk
        obtain ⟨s', hs', howned', hread', hk, hothers⟩ := hF.add_spec howned hread hφ n
        exact ⟨s', hs',
          (ih howned' hread').mpr ((forall_good_add_iff hφ hk hothers).mp hgood)⟩
    | get k =>
      obtain ⟨s', hs', howned', hread', hphase⟩ := hF.get_spec howned hread k
      have hperform : F.perform (.get k) s = some s' := hs'
      simp only [hperform, Option.some_inj, exists_eq_left', ih howned' hread', hphase]
      rfl
    | clean =>
      rw [forall_congr' fun j => good_clean_iff j ops]
      constructor
      · rintro ⟨s', hs', hsound⟩
        have hall : ∀ j, phase s j ≠ .emptied := by
          intro j hj
          cases (hF.clean_wrong howned hread hj).symm.trans hs'
        obtain ⟨s'', hs'', howned', hread', hphase⟩ := hF.clean_spec howned hread hall
        obtain rfl : s'' = s' := Option.some_inj.mp (hs''.symm.trans hs')
        intro j
        rw [← hphase j]
        exact ⟨hall j, (ih howned' hread').mp hsound j⟩
      · intro hgood
        obtain ⟨s', hs', howned', hread', hphase⟩ :=
          hF.clean_spec howned hread fun j => (hgood j).1
        refine ⟨s', hs', (ih howned' hread').mpr fun j => ?_⟩
        rw [hphase j]
        exact (hgood j).2

end Runs

/-! ## The habits -/

omit [DecidableEq κ] in
theorem readable_start : Readable (start : Owner κ) := by
  intro k hk
  exact absurd hk (Nat.lt_irrefl 0)

/-- Who releases what is replaced and forgets what is released is always sound. -/
theorem good_of_freesOld_of_setsNull {φ : Phase} (hφ : φ ≠ .emptied) (w : List Letter) :
    φ.Good true true w := by
  induction w generalizing φ with
  | nil => exact hφ
  | cons letter w ih =>
    cases letter with
    | add =>
      refine ⟨.filled, ?_, ih (by rintro ⟨⟩)⟩
      cases φ with
      | unused => rfl
      | filled => rfl
      | emptied => exact absurd rfl hφ
    | clean =>
      refine ⟨.unused, ?_, ih (by rintro ⟨⟩)⟩
      cases φ with
      | unused => rfl
      | filled => rfl
      | emptied => exact absurd rfl hφ

/-- A cleaning between any two additions. -/
def CleanedBetween (w : List Letter) : Prop :=
  w.IsChain fun x y => x = .clean ∨ y = .clean

/-- From the first addition on, additions and cleanings in turn. -/
def InTurn (w : List Letter) : Prop :=
  (w.dropWhile (· = .clean)).IsChain (· ≠ ·)

/-- Who only forgets what is released is sound where a cleaning is between any two
additions. -/
theorem good_of_setsNull_iff (w : List Letter) :
    (Phase.unused.Good false true w ↔ CleanedBetween w)
      ∧ (Phase.filled.Good false true w ↔ CleanedBetween (.add :: w)) := by
  unfold CleanedBetween
  induction w with
  | nil => simp [Phase.Good]
  | cons letter w ih =>
    cases letter with
    | add => simp [Phase.Good, Phase.added, ih.2]
    | clean => simp [Phase.Good, Phase.cleaned, ih.1, List.isChain_cons]

/-- A place that is not unused sees additions and cleanings in turn from where it is. -/
theorem good_of_neither_iff_isChain (w : List Letter) :
    (Phase.filled.Good false false w ↔ (Letter.add :: (w ++ [.clean])).IsChain (· ≠ ·))
      ∧ (Phase.emptied.Good false false w
        ↔ (Letter.clean :: (w ++ [.clean])).IsChain (· ≠ ·)) := by
  induction w with
  | nil => simp [Phase.Good]
  | cons letter w ih =>
    cases letter with
    | add => simp [Phase.Good, Phase.added, ih.1]
    | clean => simp [Phase.Good, Phase.cleaned, ih.2]

/-- Who does neither is sound where, the last release counted as a cleaning, additions and
cleanings come in turn. -/
theorem good_of_neither_iff (w : List Letter) :
    Phase.unused.Good false false w ↔ InTurn (w ++ [.clean]) := by
  unfold InTurn
  induction w with
  | nil => simp [Phase.Good]
  | cons letter w ih =>
    cases letter with
    | add => simp [Phase.Good, Phase.added, (good_of_neither_iff_isChain w).1]
    | clean => simp [Phase.Good, Phase.cleaned, ih]

end OwnedBlocks
