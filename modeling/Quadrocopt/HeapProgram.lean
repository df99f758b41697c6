/-
# Programs on a heap

A heap gives out blocks, each with an address of its own that is never given out again, and a
block has some content until it is released.  A program reads and changes blocks; what the
language leaves undefined has no result: a use of a block that is not live, of an index out of
its range, of a cell that was never written.

Programs are run to equations: a program that ends leaves the heap that it found with some
blocks put on top (`push`), released (`drop`) or overwritten (`put`), and some addresses used
up (`skip`).  The equations between these, tagged for `simp`, are what the proofs about single
programs need.

A long run, in which several owners take turns, is described by a table instead: which places
hold which blocks (`Holds`).  Each change of the heap is a change of one entry of the table.

The module names nothing of the program.
-/
import Mathlib.Data.Finset.Card
import Mathlib.Data.List.TakeDrop
import Mathlib.Data.Set.Basic
import Mathlib.Logic.Function.Basic

namespace HeapProgram

/-- A pointer to a block, or NULL. -/
abbrev Ptr := Option ℕ

/-- The blocks given out so far and the contents of the live ones. -/
@[ext] structure Heap (β : Type*) where
  block : ℕ → Option β
  next : ℕ
  fresh : ∀ p, next ≤ p → block p = none

variable {α β κ : Type*}

namespace Heap

/-! ## Changes of a heap -/

/-- Nothing has been given out. -/
def empty : Heap β := ⟨fun _ => none, 0, fun _ _ => rfl⟩

/-- A new block. -/
def push (h : Heap β) (b : β) : Heap β where
  block := Function.update h.block h.next (some b)
  next := h.next + 1
  fresh p hp := by
    rw [Function.update_of_ne (by omega)]
    exact h.fresh p (by omega)

/-- A live block is overwritten. -/
def put (h : Heap β) (p : ℕ) (b : β) : Heap β where
  block := Function.update h.block p ((h.block p).map fun _ => b)
  next := h.next
  fresh q hq := by
    by_cases hqp : q = p
    · subst hqp
      rw [Function.update_self, h.fresh q hq]
      rfl
    · rw [Function.update_of_ne hqp]
      exact h.fresh q hq

/-- A block is released. -/
def drop (h : Heap β) (p : ℕ) : Heap β where
  block := Function.update h.block p none
  next := h.next
  fresh q hq := by
    by_cases hqp : q = p
    · subst hqp
      exact Function.update_self ..
    · rw [Function.update_of_ne hqp]
      exact h.fresh q hq

/-- Addresses were used up, and no more is left of the blocks. -/
def skip (h : Heap β) (n : ℕ) : Heap β where
  block := h.block
  next := h.next + n
  fresh p hp := h.fresh p (by omega)

variable (h : Heap β) (b c : β) (p q m n : ℕ)

@[simp] theorem next_push : (h.push b).next = h.next + 1 := rfl

@[simp] theorem next_put : (h.put p b).next = h.next := rfl

@[simp] theorem next_drop : (h.drop p).next = h.next := rfl

@[simp] theorem next_skip : (h.skip n).next = h.next + n := rfl

/-- A new block is at the address that is returned. -/
@[simp] theorem block_push_self : (h.push b).block h.next = some b := Function.update_self ..

variable {h b c p q m n}

/-- A live block has been given out. -/
theorem lt_next (hp : h.block p = some b) : p < h.next := by
  by_contra hle
  rw [h.fresh p (by omega)] at hp
  cases hp

theorem block_push_of_ne (hp : p ≠ h.next) : (h.push b).block p = h.block p :=
  Function.update_of_ne hp ..

/-- A write changes a block that is live. -/
theorem block_put : (h.put p c).block p = (h.block p).map fun _ => c := Function.update_self ..

theorem block_put_self (hp : h.block p = some b) : (h.put p c).block p = some c := by
  rw [block_put, hp]
  rfl

theorem block_put_of_ne (hq : q ≠ p) : (h.put p b).block q = h.block q :=
  Function.update_of_ne hq ..

/-- A release leaves the other blocks. -/
theorem block_drop_of_ne (hq : q ≠ p) : (h.drop p).block q = h.block q :=
  Function.update_of_ne hq ..

@[simp] theorem block_skip : (h.skip n).block p = h.block p := rfl

/-- Live blocks stay live when a block is given out. -/
theorem block_push (hp : h.block p = some b) : (h.push c).block p = some b := by
  rw [block_push_of_ne (lt_next hp).ne, hp]

@[simp] theorem skip_zero : h.skip 0 = h := rfl

@[simp] theorem skip_skip : (h.skip m).skip n = h.skip (m + n) := by
  ext
  · rfl
  · exact Nat.add_assoc _ _ _

/-- What is given out and released again leaves its address behind. -/
@[simp] theorem drop_push : (h.push b).drop h.next = h.skip 1 := by
  ext1
  · exact (Function.update_idem ..).trans
      (Function.update_eq_self_iff.mpr (h.fresh h.next le_rfl).symm)
  · rfl

@[simp] theorem put_push : (h.push b).put h.next c = h.push c := by
  ext1
  · show Function.update (h.push b).block h.next (((h.push b).block h.next).map fun _ => c) = _
    rw [block_push_self]
    exact Function.update_idem ..
  · rfl

/-- A new block and the release of another may change places. -/
theorem drop_push_of_ne (hp : p ≠ h.next) : (h.push b).drop p = (h.drop p).push b := by
  ext1
  · exact Function.update_comm hp.symm _ _ _
  · rfl

theorem put_push_of_ne (hp : p ≠ h.next) : (h.push b).put p c = (h.put p c).push b := by
  ext1
  · show Function.update (h.push b).block p (((h.push b).block p).map fun _ => c) = _
    rw [block_push_of_ne hp]
    exact Function.update_comm hp.symm _ _ _
  · rfl

/-- A block is overwritten with what it holds. -/
theorem put_self (hp : h.block p = some b) : h.put p b = h := by
  ext1
  · show Function.update h.block p ((h.block p).map fun _ => b) = _
    rw [hp, Option.map_some, ← hp, Function.update_eq_self]
  · rfl

@[simp] theorem put_skip : (h.skip n).put p c = (h.put p c).skip n := rfl

@[simp] theorem drop_skip : (h.skip n).drop p = (h.drop p).skip n := rfl

@[simp] theorem drop_put : (h.put p b).drop p = h.drop p := by
  ext1
  · exact Function.update_idem ..
  · rfl

@[simp] theorem put_put : (h.put p b).put p c = h.put p c := by
  ext1
  · show Function.update (h.put p b).block p (((h.put p b).block p).map fun _ => c) = _
    rw [block_put, Option.map_map]
    exact Function.update_idem ..
  · rfl

/-! ### The live blocks -/

/-- The addresses of the live blocks. -/
def live (h : Heap β) : Finset ℕ := (Finset.range h.next).filter fun p => (h.block p).isSome

/-- A live block is one that has not been released. -/
theorem mem_live : p ∈ h.live ↔ (h.block p).isSome := by
  rw [live, Finset.mem_filter, Finset.mem_range, and_iff_right_iff_imp]
  intro hp
  obtain ⟨b, hb⟩ := Option.isSome_iff_exists.mp hp
  exact lt_next hb

/-- How many blocks are live. -/
def count (h : Heap β) : ℕ := h.live.card

@[simp] theorem count_empty : (empty : Heap β).count = 0 := rfl

/-- A new block is one more. -/
@[simp] theorem count_push : (h.push b).count = h.count + 1 := by
  have hlive : (h.push b).live = insert h.next h.live := by
    ext p
    rw [Finset.mem_insert, mem_live, mem_live]
    by_cases hp : p = h.next
    · subst hp
      simp
    · simp [block_push_of_ne hp, hp]
  rw [count, hlive, Finset.card_insert_of_notMem, count]
  rw [mem_live, h.fresh h.next le_rfl]
  simp

@[simp] theorem count_put : (h.put p b).count = h.count := by
  refine congrArg Finset.card ?_
  ext q
  rw [mem_live, mem_live]
  by_cases hq : q = p
  · subst hq
    rw [block_put, Option.isSome_map]
  · rw [block_put_of_ne hq]

@[simp] theorem count_skip : (h.skip n).count = h.count := by
  refine congrArg Finset.card ?_
  ext q
  rw [mem_live, mem_live, block_skip]

/-- The release of a live block makes it one less. -/
theorem count_drop (hp : h.block p = some b) : (h.drop p).count + 1 = h.count := by
  have hlive : (h.drop p).live = h.live.erase p := by
    ext q
    rw [Finset.mem_erase, mem_live, mem_live]
    by_cases hq : q = p
    · subst hq
      simp [drop]
    · simp [block_drop_of_ne hq, hq]
  rw [count, hlive]
  exact Finset.card_erase_add_one (mem_live.mpr (by simp [hp]))

end Heap

/-! ## Programs -/

section Programs

variable {α β γ : Type}

/-- A program on a heap. -/
abbrev Prog (β α : Type) := StateT (Heap β) Option α

/-- What the language leaves undefined. -/
def undefined : Prog β α := fun _ => none

/-- A fresh block with the given content. -/
def malloc (b : β) : Prog β Ptr := fun h => some (some h.next, h.push b)

/-- A live block is released; NULL is released without effect. -/
def free : Ptr → Prog β Unit
  | none => pure ()
  | some p => fun h => if (h.block p).isSome then some ((), h.drop p) else none

/-- The content of a live block. -/
def read : Ptr → Prog β β
  | none => undefined
  | some p => fun h => (h.block p).map (·, h)

/-- A live block gets a new content. -/
def write : Ptr → β → Prog β Unit
  | none, _ => undefined
  | some p, b => fun h => if (h.block p).isSome then some ((), h.put p b) else none

/-- `for (i = 0; i < n; i++)`. -/
def forRange : ℕ → (ℕ → Prog β Unit) → Prog β Unit
  | 0, _ => pure ()
  | n + 1, body => do
      forRange n body
      body n

variable {h h' : Heap β} {b c : β} {p n : ℕ} {a : α}

/-- What comes next goes on with the result and the heap of what comes first. -/
theorem bind_run {x : Prog β α} (hx : x h = some (a, h')) (f : α → Prog β γ) :
    (x >>= f) h = f a h' := by
  show (x h).bind _ = _
  rw [hx]
  rfl

theorem malloc_run : malloc b h = some (some h.next, h.push b) := rfl

/-- A live block may be released. -/
theorem free_run (hp : h.block p = some b) : free (some p) h = some ((), h.drop p) := by
  show (if (h.block p).isSome then _ else _) = _
  rw [hp]
  rfl

/-- A live block may be read. -/
theorem read_run (hp : h.block p = some b) : read (some p) h = some (b, h) := by
  show (h.block p).map _ = _
  rw [hp]
  rfl

/-- A live block may be overwritten. -/
theorem write_run (hp : h.block p = some b) : write (some p) c h = some ((), h.put p c) := by
  show (if (h.block p).isSome then _ else _) = _
  rw [hp]
  rfl

/-- A loop whose rounds lead from one heap of a sequence to the next. -/
theorem forRange_run {body : ℕ → Prog β Unit} (I : ℕ → Heap β) {n : ℕ}
    (hbody : ∀ i < n, body i (I i) = some ((), I (i + 1))) :
    forRange n body (I 0) = some ((), I n) := by
  induction n with
  | zero => rfl
  | succ n ih =>
      rw [forRange, bind_run (ih fun i hi => hbody i (by omega))]
      exact hbody n (Nat.lt_succ_self n)

end Programs

/-! ## Arrays -/

/-- The blocks that are arrays of `α`; a cell that was never written is `none`. -/
structure ArrayType (β α : Type) where
  array : List (Option α) → β
  view : β → Option (List (Option α))
  view_array : ∀ cells, view (array cells) = some cells

section Arrays

variable {α β : Type} (A : ArrayType β α)

namespace ArrayType

/-- An array of `n` cells. -/
def malloc (n : ℕ) : Prog β Ptr := HeapProgram.malloc (A.array (List.replicate n none))

/-- The cells of an array. -/
def cells (p : Ptr) : Prog β (List (Option α)) := do
  let b ← read p
  match A.view b with
  | some cs => pure cs
  | none => undefined

/-- `p[i]`, which must have been written. -/
def load (p : Ptr) (i : ℕ) : Prog β α := do
  let cs ← A.cells p
  match cs[i]? with
  | some (some a) => pure a
  | _ => undefined

/-- `p[i] = a`. -/
def store (p : Ptr) (i : ℕ) (a : α) : Prog β Unit := do
  let cs ← A.cells p
  if i < cs.length then write p (A.array (cs.set i (some a))) else undefined

/-- `memcpy` of `n` cells; to copy nothing is to do nothing. -/
def memcpy (dst : Ptr) (i : ℕ) (src : Ptr) (j n : ℕ) : Prog β Unit :=
  if n = 0 then pure ()
  else do
    let ds ← A.cells dst
    let ss ← A.cells src
    if i + n ≤ ds.length ∧ j + n ≤ ss.length then
      write dst (A.array (ds.take i ++ (ss.drop j).take n ++ ds.drop (i + n)))
    else undefined

end ArrayType

/-- The cells of an array of `n`, of which the first have been written one after the other. -/
def written (done : List α) (n : ℕ) : List (Option α) :=
  done.map some ++ List.replicate (n - done.length) none

variable {A} {h : Heap β} {cs ds : List (Option α)} {done xs : List α} {p q i j n m : ℕ} {a : α}

/-- When all places are written, nothing else is left. -/
theorem written_full (hn : done.length = n) : written done n = done.map some := by
  rw [written, hn, Nat.sub_self, List.replicate_zero, List.append_nil]

@[simp] theorem length_written (hn : done.length ≤ n) : (written done n).length = n := by
  rw [written, List.length_append, List.length_map, List.length_replicate]
  omega

/-- The next cell is written. -/
theorem set_written (hn : done.length < n) :
    (written done n).set done.length (some a) = written (done ++ [a]) n := by
  obtain ⟨k, hk⟩ : ∃ k, n - done.length = k + 1 := ⟨n - done.length - 1, by omega⟩
  have hk' : n - (done ++ [a]).length = k := by
    rw [List.length_append, List.length_singleton]
    omega
  rw [written, written, hk, hk', List.replicate_succ, List.map_append, List.append_assoc]
  have hset := List.set_append_right (s := done.map some) (t := none :: List.replicate k none)
    done.length (some a) (by rw [List.length_map])
  rw [hset, List.length_map, Nat.sub_self]
  rfl

/-- The next cells are written at once. -/
theorem copy_written :
    (written done n).take done.length ++ xs.map some
      ++ (written done n).drop (done.length + xs.length) = written (done ++ xs) n := by
  have htake : (written done n).take done.length = done.map some := by
    rw [written]
    exact List.take_left' (List.length_map _)
  have hdrop : (written done n).drop (done.length + xs.length)
      = List.replicate (n - (done ++ xs).length) none := by
    rw [written, List.drop_append, List.drop_eq_nil_of_le (by simp), List.length_map,
      Nat.add_sub_cancel_left, List.drop_replicate, List.nil_append, List.length_append,
      Nat.sub_sub]
  rw [htake, hdrop, written, List.map_append]

namespace ArrayType

theorem malloc_run : A.malloc n h = some (some h.next, h.push (A.array (written [] n))) := rfl

theorem cells_run (hp : h.block p = some (A.array cs)) : A.cells (some p) h = some (cs, h) := by
  rw [cells, bind_run (read_run hp), A.view_array]
  rfl

/-- A cell may be read that was written. -/
theorem load_run (hp : h.block p = some (A.array cs)) (hi : cs[i]? = some (some a)) :
    A.load (some p) i h = some (a, h) := by
  rw [load, bind_run (cells_run hp), hi]
  rfl

/-- A cell may be written that is inside. -/
theorem store_run (hp : h.block p = some (A.array cs)) (hi : i < cs.length) :
    A.store (some p) i a h = some ((), h.put p (A.array (cs.set i (some a)))) := by
  rw [store, bind_run (cells_run hp), if_pos hi]
  exact write_run hp

theorem memcpy_run (hp : h.block p = some (A.array ds)) (hq : h.block q = some (A.array cs))
    (hi : i + n ≤ ds.length) (hj : j + n ≤ cs.length) :
    A.memcpy (some p) i (some q) j n h
      = some ((), h.put p (A.array (ds.take i ++ (cs.drop j).take n ++ ds.drop (i + n)))) := by
  rw [memcpy]
  split
  · next hn =>
    subst hn
    rw [List.take_zero, List.append_nil, Nat.add_zero, List.take_append_drop, Heap.put_self hp]
    rfl
  · rw [bind_run (cells_run hp), bind_run (cells_run hq), if_pos ⟨hi, hj⟩]
    exact write_run hp

/-- The cells of an array are filled from where they were filled before. -/
theorem memcpy_written (hp : h.block p = some (A.array (written done n)))
    (hq : h.block q = some (A.array cs)) (hn : done.length + xs.length ≤ n)
    (hcs : (cs.drop j).take xs.length = xs.map some) :
    A.memcpy (some p) done.length (some q) j xs.length h
      = some ((), h.put p (A.array (written (done ++ xs) n))) := by
  have hlength := congrArg List.length hcs
  rw [List.length_take, List.length_drop, List.length_map] at hlength
  have hdone : (written done n).length = n := length_written (by omega)
  by_cases hxs : xs.length = 0
  · obtain rfl := List.eq_nil_of_length_eq_zero hxs
    rw [List.append_nil, Heap.put_self hp]
    rfl
  · rw [memcpy_run hp hq (by omega) (by omega), hcs, copy_written]

/-- A loop that writes the cells of a fresh array one after the other. -/
theorem fill_run (f : ℕ → α) :
    forRange n (fun i => A.store (some h.next) i (f i)) (h.push (A.array (written [] n)))
      = some ((), h.push (A.array (((List.range n).map f).map some))) := by
  have hround (i : ℕ) (hi : i < n) :
      A.store (some h.next) i (f i) (h.push (A.array (written ((List.range i).map f) n)))
        = some ((), h.push (A.array (written ((List.range (i + 1)).map f) n))) := by
    have hlength : ((List.range i).map f).length = i := by simp
    have hset := set_written (a := f i) (hlength.symm ▸ hi : ((List.range i).map f).length < n)
    rw [hlength] at hset
    rw [store_run (Heap.block_push_self ..) (by rw [length_written (by omega)]; exact hi),
      Heap.put_push, List.range_succ, List.map_append, hset]
    rfl
  have hfull := written_full (show ((List.range n).map f).length = n by simp)
  rw [← hfull]
  exact forRange_run (fun i => h.push (A.array (written ((List.range i).map f) n))) hround

/-- A whole array is copied into a fresh one. -/
theorem memcpy_fresh (hp : h.block p = some (A.array (written [] n)))
    (hq : h.block q = some (A.array cs)) (hcs : (cs.drop j).take n = xs.map some)
    (hn : xs.length = n) :
    A.memcpy (some p) 0 (some q) j n h = some ((), h.put p (A.array (xs.map some))) := by
  subst hn
  have hrun := memcpy_written hp hq (by simp) hcs
  rwa [List.nil_append, written_full rfl] at hrun

end ArrayType

end Arrays

/-! ## Who holds which block -/

section Tables

variable {κ : Type*} [DecidableEq κ]

/-- The places of a table hold live blocks with the content that the table says, and no block is
in two places, but where both are shared. -/
structure Holds (h : Heap β) (shared : Set κ) (T : κ → Option (ℕ × β)) : Prop where
  found : ∀ k p b, T k = some (p, b) → h.block p = some b
  apart : ∀ k k' p b b', T k = some (p, b) → T k' = some (p, b') →
    k = k' ∨ k ∈ shared ∧ k' ∈ shared

variable {h : Heap β} {shared : Set κ} {T : κ → Option (ℕ × β)} {k k' : κ} {p : ℕ} {b c : β}

namespace Holds

omit [DecidableEq κ] in
theorem lt_next (H : Holds h shared T) (hk : T k = some (p, b)) : p < h.next :=
  Heap.lt_next (H.found k p b hk)

/-- A place that does not hold anything. -/
theorem forget (H : Holds h shared T) (k : κ) : Holds h shared (Function.update T k none) := by
  have hold : ∀ j q d, Function.update T k none j = some (q, d) → T j = some (q, d) := by
    intro j q d hj
    by_cases hjk : j = k
    · subst hjk
      rw [Function.update_self] at hj
      cases hj
    · rwa [Function.update_of_ne hjk] at hj
  exact ⟨fun j q d hj => H.found j q d (hold j q d hj),
    fun j j' q d d' hj hj' => H.apart j j' q d d' (hold j q d hj) (hold j' q d' hj')⟩

omit [DecidableEq κ] in
/-- A new block that no place gets. -/
theorem push_lost (H : Holds h shared T) (b : β) : Holds (h.push b) shared T :=
  ⟨fun j q d hj => Heap.block_push (H.found j q d hj), H.apart⟩

omit [DecidableEq κ] in
theorem skip (H : Holds h shared T) (n : ℕ) : Holds (h.skip n) shared T := ⟨H.found, H.apart⟩

/-- One place gets a block that no other place has, and keeps the others. -/
theorem update (H : Holds h shared T) {h' : Heap β}
    (hold : ∀ j q d, j ≠ k → T j = some (q, d) → h'.block q = some d)
    (hnew : h'.block p = some b) (hp : ∀ j d, j ≠ k → T j ≠ some (p, d)) :
    Holds h' shared (Function.update T k (some (p, b))) := by
  constructor
  · intro j q d hj
    by_cases hjk : j = k
    · subst hjk
      rw [Function.update_self] at hj
      cases hj
      exact hnew
    · rw [Function.update_of_ne hjk] at hj
      exact hold j q d hjk hj
  · intro j j' q d d' hj hj'
    by_cases hjk : j = k
    · by_cases hjk' : j' = k
      · exact .inl (hjk.trans hjk'.symm)
      · subst hjk
        rw [Function.update_self] at hj
        cases hj
        rw [Function.update_of_ne hjk'] at hj'
        exact absurd hj' (hp j' d' hjk')
    · rw [Function.update_of_ne hjk] at hj
      by_cases hjk' : j' = k
      · subst hjk'
        rw [Function.update_self] at hj'
        cases hj'
        exact absurd hj (hp j d hjk)
      · rw [Function.update_of_ne hjk'] at hj'
        exact H.apart j j' q d d' hj hj'

/-- A new block is put in a place. -/
theorem push (H : Holds h shared T) (k : κ) (b : β) :
    Holds (h.push b) shared (Function.update T k (some (h.next, b))) :=
  H.update (fun j q d _ hj => Heap.block_push (H.found j q d hj)) (Heap.block_push_self h b)
    fun _ _ _ hj => absurd (H.lt_next hj) (Nat.lt_irrefl _)

/-- The block of a place is overwritten. -/
theorem put (H : Holds h shared T) (hk : T k = some (p, b)) (hshared : k ∉ shared) (c : β) :
    Holds (h.put p c) shared (Function.update T k (some (p, c))) := by
  have hp : ∀ j d, j ≠ k → T j ≠ some (p, d) := by
    intro j d hjk hj
    rcases H.apart j k p d b hj hk with rfl | ⟨-, hk'⟩
    · exact hjk rfl
    · exact hshared hk'
  refine H.update (fun j q d hjk hj => ?_) (Heap.block_put_self (H.found k p b hk)) hp
  rw [Heap.block_put_of_ne]
  · exact H.found j q d hj
  · rintro rfl
    exact hp j d hjk hj

/-- The block of a place is released. -/
theorem drop (H : Holds h shared T) (hk : T k = some (p, b)) (hshared : k ∉ shared) :
    Holds (h.drop p) shared (Function.update T k none) := by
  refine ⟨fun j q d hj => ?_, (H.forget k).apart⟩
  have hj' : T j = some (q, d) ∧ j ≠ k := by
    by_cases hjk : j = k
    · subst hjk
      rw [Function.update_self] at hj
      cases hj
    · rw [Function.update_of_ne hjk] at hj
      exact ⟨hj, hjk⟩
  rw [Heap.block_drop_of_ne]
  · exact H.found j q d hj'.1
  · rintro rfl
    rcases H.apart j k q d b hj'.1 hk with rfl | ⟨-, hk'⟩
    · exact hj'.2 rfl
    · exact hshared hk'

/-- A block is shared by another place. -/
theorem share (H : Holds h shared T) (hk : k ∈ shared) (hk' : k' ∈ shared) :
    Holds h shared (Function.update T k (T k')) := by
  have hold : ∀ j q d, Function.update T k (T k') j = some (q, d) →
      T j = some (q, d) ∧ j ≠ k ∨ T k' = some (q, d) ∧ j = k := by
    intro j q d hj
    by_cases hjk : j = k
    · subst hjk
      rw [Function.update_self] at hj
      exact .inr ⟨hj, rfl⟩
    · rw [Function.update_of_ne hjk] at hj
      exact .inl ⟨hj, hjk⟩
  constructor
  · intro j q d hj
    rcases hold j q d hj with ⟨hj, -⟩ | ⟨hj, -⟩
    · exact H.found j q d hj
    · exact H.found k' q d hj
  · intro j j' q d d' hj hj'
    rcases hold j q d hj with ⟨hq, -⟩ | ⟨hq, hjk⟩
    · rcases hold j' q d' hj' with ⟨hq', -⟩ | ⟨hq', hjk'⟩
      · exact H.apart j j' q d d' hq hq'
      · rcases H.apart j k' q d d' hq hq' with hj | ⟨hj, -⟩
        · exact .inr ⟨hj ▸ hk', hjk' ▸ hk⟩
        · exact .inr ⟨hj, hjk' ▸ hk⟩
    · rcases hold j' q d' hj' with ⟨hq', -⟩ | ⟨hq', hjk'⟩
      · rcases H.apart j' k' q d' d hq' hq with hj | ⟨hj, -⟩
        · exact .inr ⟨hjk ▸ hk, hj ▸ hk'⟩
        · exact .inr ⟨hjk ▸ hk, hj⟩
      · exact .inl (hjk.trans hjk'.symm)

end Holds

end Tables

end HeapProgram
