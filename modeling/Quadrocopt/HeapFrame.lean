/-
# Blocks on top of a heap

What a sequential program has given out since it was called, as a list on top of the heap that
it found: the block with number `i` is at the address `h.next + i`, and is gone once it is
released (`Heap.on`).  Below, nothing changes; where all blocks of the list are gone, the program
has left some addresses behind and nothing else (`on_replicate_none`).

Each operation of a program is an operation on the list, so a call is run by computing with
lists.  The cells of an array are told by a function of the index (`cellsOf`).  A loop over
programs is run by its rounds (`whileLoop_run`).

The module names nothing of the program.
-/
import Quadrocopt.HeapProgram
import Quadrocopt.WhileLoop

namespace HeapProgram

namespace Heap

variable {β : Type*}

/-- The heap with blocks on top of it, of which some are gone. -/
def on (h : Heap β) (bs : List (Option β)) : Heap β where
  block p := if p < h.next then h.block p else bs[p - h.next]?.join
  next := h.next + bs.length
  fresh p hp := by
    rw [if_neg (by omega), List.getElem?_eq_none (by omega)]
    rfl

variable {h : Heap β} {bs : List (Option β)} {b c : β} {i n p : ℕ}

/-- What was there is still there. -/
theorem block_on_of_lt (hp : p < h.next) : (h.on bs).block p = h.block p := if_pos hp

/-- The blocks on top stand in their order. -/
theorem block_on_add : (h.on bs).block (h.next + i) = bs[i]?.join := by
  show (if _ then _ else _) = _
  rw [if_neg (by omega), Nat.add_sub_cancel_left]

theorem block_on (hi : bs[i]? = some (some b)) : (h.on bs).block (h.next + i) = some b := by
  rw [block_on_add, hi]
  rfl

@[simp] theorem on_nil : h.on [] = h := by
  ext1
  · funext p
    show (if p < h.next then h.block p else none) = h.block p
    split
    · rfl
    · exact (h.fresh p (by omega)).symm
  · rfl

/-- A new block comes on top. -/
theorem push_on : (h.on bs).push b = h.on (bs ++ [some b]) := by
  ext1
  · funext p
    by_cases hp : p = h.next + bs.length
    · subst hp
      rw [block_on_add, List.getElem?_concat_length]
      exact block_push_self (h.on bs) b
    · rw [block_push_of_ne hp]
      show (if _ then _ else _) = if _ then _ else _
      split
      · rfl
      · by_cases hlt : p - h.next < bs.length
        · rw [List.getElem?_append_left hlt]
        · rw [List.getElem?_eq_none (by omega), List.getElem?_eq_none]
          rw [List.length_append, List.length_singleton]
          omega
  · show h.next + bs.length + 1 = h.next + (bs ++ [some b]).length
    rw [List.length_append, List.length_singleton, Nat.add_assoc]

/-- Below the blocks and at the other numbers nothing has changed. -/
theorem block_on_set_of_ne {o : Option β} (hp : p ≠ h.next + i) :
    (h.on (bs.set i o)).block p = (h.on bs).block p := by
  show (if _ then _ else _) = if _ then _ else _
  split
  · rfl
  · rw [List.getElem?_set_ne (by omega)]

/-- A block on top is overwritten where it stands. -/
theorem put_on (hi : bs[i]? = some (some b)) :
    (h.on bs).put (h.next + i) c = h.on (bs.set i (some c)) := by
  obtain ⟨hlt, -⟩ := List.getElem?_eq_some_iff.mp hi
  ext1
  · funext p
    by_cases hp : p = h.next + i
    · subst hp
      rw [block_put_self (block_on hi), block_on (List.getElem?_set_self hlt)]
    · rw [block_put_of_ne hp, block_on_set_of_ne hp]
  · exact congrArg (h.next + ·) List.length_set.symm

/-- A block on top that is released leaves its place. -/
theorem drop_on (hi : bs[i]? = some (some b)) :
    (h.on bs).drop (h.next + i) = h.on (bs.set i none) := by
  obtain ⟨hlt, -⟩ := List.getElem?_eq_some_iff.mp hi
  ext1
  · funext p
    by_cases hp : p = h.next + i
    · subst hp
      rw [block_on_add, List.getElem?_set_self hlt]
      exact Function.update_self ..
    · rw [block_drop_of_ne hp, block_on_set_of_ne hp]
  · exact congrArg (h.next + ·) List.length_set.symm

/-- Where all the blocks are gone, their addresses are left. -/
theorem on_replicate_none : h.on (List.replicate n none) = h.skip n := by
  ext1
  · funext p
    show (if _ then _ else _) = h.block p
    split
    · rfl
    · rw [h.fresh p (by omega), List.getElem?_replicate]
      split <;> rfl
  · exact congrArg (h.next + ·) List.length_replicate

/-- An address that was used up is that of a block that is gone. -/
theorem skip_on : (h.on bs).skip n = h.on (bs ++ List.replicate n none) := by
  ext1
  · funext p
    show (if _ then _ else _) = if _ then _ else _
    split
    · rfl
    · by_cases hlt : p - h.next < bs.length
      · rw [List.getElem?_append_left hlt]
      · rw [List.getElem?_eq_none (by omega), List.getElem?_append_right (by omega),
          List.getElem?_replicate]
        split <;> rfl
  · show h.next + bs.length + n = h.next + (bs ++ List.replicate n none).length
    rw [List.length_append, List.length_replicate, Nat.add_assoc]

/-- The live blocks are those that were there and those on top that are not gone. -/
theorem count_on : (h.on bs).count = h.count + bs.countP Option.isSome := by
  induction bs using List.reverseRecOn with
  | nil => rw [on_nil, List.countP_nil, Nat.add_zero]
  | append_singleton bs o ih =>
      rw [List.countP_append, ← Nat.add_assoc, ← ih]
      cases o with
      | none => exact (congrArg count (skip_on (n := 1)).symm).trans count_skip
      | some b => exact (congrArg count push_on.symm).trans count_push

/-- The block on top is overwritten. -/
theorem set_concat {o o' : Option β} : (bs ++ [o]).set bs.length o' = bs ++ [o'] := by
  rw [List.set_append_right _ _ le_rfl, Nat.sub_self]
  rfl

end Heap

/-! ## Programs on a frame -/

section Programs

variable {α β γ : Type} {A : ArrayType β α} {h : Heap β} {bs : List (Option β)} {b : β}
  {f : ℕ → Option α} {a : α} {i k n : ℕ}

/-- What comes next goes on with the blocks in whatever form they are wanted. -/
theorem bind_on {x : Prog β α} {bs' : List (Option β)} (bs'' : List (Option β))
    (hx : x (h.on bs) = some (a, h.on bs')) (hbs : bs' = bs'') (rest : α → Prog β γ) :
    (x >>= rest) (h.on bs) = rest a (h.on bs'') := by
  rw [← hbs]
  exact bind_run hx rest

theorem malloc_on :
    malloc b (h.on bs) = some (some (h.next + bs.length), h.on (bs ++ [some b])) := by
  rw [← Heap.push_on]
  exact malloc_run

theorem free_on (hk : bs[k]? = some (some b)) :
    free (some (h.next + k)) (h.on bs) = some ((), h.on (bs.set k none)) := by
  rw [← Heap.drop_on hk]
  exact free_run (Heap.block_on hk)

/-- A loop whose rounds lead from one list of blocks to the next. -/
theorem forRange_on {body : ℕ → Prog β Unit} (rounds : ℕ → List (Option β))
    (hround : ∀ i < n, body i (h.on (rounds i)) = some ((), h.on (rounds (i + 1)))) :
    forRange n body (h.on (rounds 0)) = some ((), h.on (rounds n)) :=
  forRange_run (fun i => h.on (rounds i)) hround

/-- The cells of an array of `n`, by their indices. -/
def cellsOf (n : ℕ) (f : ℕ → Option α) : List (Option α) := (List.range n).map f

theorem length_cellsOf : (cellsOf n f).length = n := by
  rw [cellsOf, List.length_map, List.length_range]

theorem getElem?_cellsOf (hi : i < n) : (cellsOf n f)[i]? = some (f i) := by
  rw [cellsOf, List.getElem?_map, List.getElem?_range hi]
  rfl

/-- A cell is written at its index. -/
theorem set_cellsOf {o : Option α} : (cellsOf n f).set i o = cellsOf n (Function.update f i o) := by
  apply List.ext_getElem
  · rw [List.length_set, length_cellsOf, length_cellsOf]
  · intro j hj _
    rw [List.length_set, length_cellsOf] at hj
    rw [List.getElem_set]
    simp only [cellsOf, List.getElem_map, List.getElem_range]
    split
    · next hij =>
      subst hij
      exact (Function.update_self i o f).symm
    · next hij => exact (Function.update_of_ne (Ne.symm hij) o f).symm

/-- Only the cells below `n` matter. -/
theorem cellsOf_congr {g : ℕ → Option α} (hfg : ∀ i < n, f i = g i) : cellsOf n f = cellsOf n g :=
  List.map_congr_left fun i hi => hfg i (List.mem_range.mp hi)

namespace ArrayType

theorem malloc_on : A.malloc n (h.on bs) = some (some (h.next + bs.length),
    h.on (bs ++ [some (A.array (cellsOf n fun _ => none))])) := by
  have hcells : cellsOf n (fun _ => none) = List.replicate n (none : Option α) := by
    rw [cellsOf, List.map_const', List.length_range]
  rw [hcells]
  exact HeapProgram.malloc_on

/-- A cell that was written is read. -/
theorem load_on (hk : bs[k]? = some (some (A.array (cellsOf n f)))) (hi : i < n)
    (ha : f i = some a) : A.load (some (h.next + k)) i (h.on bs) = some (a, h.on bs) :=
  load_run (Heap.block_on hk) ((getElem?_cellsOf hi).trans (congrArg some ha))

/-- A cell of a block on top is written. -/
theorem store_on (hk : bs[k]? = some (some (A.array (cellsOf n f)))) (hi : i < n) :
    A.store (some (h.next + k)) i a (h.on bs)
      = some ((), h.on (bs.set k (some (A.array (cellsOf n (Function.update f i (some a))))))) := by
  rw [store_run (Heap.block_on hk) (by rwa [length_cellsOf]), set_cellsOf, Heap.put_on hk]

end ArrayType

/-! ### Loops that test before each round -/

section Loops

open WhileLoop

variable {σ τ : Type}

/-- `while (cond s) s = body n s` from round `n` on, with at most `fuel` tests; there is no
result where these do not suffice. -/
def whileLoop (cond : σ → Bool) (body : ℕ → σ → Prog β σ) : ℕ → ℕ → σ → Prog β (Option σ)
  | 0, _, _ => pure none
  | fuel + 1, n, s =>
      if cond s then do whileLoop cond body fuel (n + 1) (← body n s) else pure (some s)

/-- **Loops by their rounds.**  Where each round does on a heap what the round of a loop without
a heap does, the loop goes as that loop, and leaves the heap of the last of its rounds. -/
theorem whileLoop_run (cond : σ → Bool) {body : ℕ → σ → Prog β σ} {step : ℕ → τ → τ} (abs : τ → σ)
    (I : τ → Heap β) (hbody : ∀ n t, body n (abs t) (I t) = some (abs (step n t), I (step n t)))
    (fuel n : ℕ) (t : τ) :
    ∃ k ≤ fuel, whileLoop cond body fuel n (abs t) (I t)
        = some ((loop (cond ∘ abs) step fuel n t).map abs, I (after step n t k))
      ∧ (∀ t' ∈ loop (cond ∘ abs) step fuel n t, t' = after step n t k)
      ∧ (loop (cond ∘ abs) step fuel n t = none → k = fuel) := by
  induction fuel generalizing n t with
  | zero => exact ⟨0, le_rfl, rfl, (by rintro _ ⟨⟩), fun _ => rfl⟩
  | succ fuel ih =>
      by_cases hc : cond (abs t) = true
      · have hc' : (cond ∘ abs) t = true := hc
        obtain ⟨k, hk, hrun, hlast, hall⟩ := ih (n + 1) (step n t)
        refine ⟨k + 1, by omega, ?_, ?_, ?_⟩
        · rw [whileLoop, if_pos hc, bind_run (hbody n t), hrun, loop, if_pos hc', after_succ']
        · rwa [loop, if_pos hc', after_succ']
        · rw [loop, if_pos hc']
          exact fun hnone => congrArg (· + 1) (hall hnone)
      · have hc' : ¬(cond ∘ abs) t = true := hc
        refine ⟨0, by omega, ?_, ?_, ?_⟩
        · rw [whileLoop, if_neg hc, loop, if_neg hc']
          rfl
        · rw [loop, if_neg hc']
          rintro t' ⟨⟩
          rfl
        · rw [loop, if_neg hc']
          rintro ⟨⟩

end Loops

end Programs

end HeapProgram
