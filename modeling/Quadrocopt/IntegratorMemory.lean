/-
# The vectors of the integrator (`get_next_step` and `nrutil.c`, with their blocks)

`get_next_step` works on six vectors of Numerical Recipes, indexed from `1`, and on the payload
and the result of each call of `get_u`; two of the vectors are filled twice, and one is added to
while another is filled from it.

Here the step is a program on a heap.  It reads no cell that was not written, does not leave its
vectors, and releases all that it has allocated; what it computes is `get_next_step` of
`Integrator.lean`, whatever the blocks hold at first (`getNextStep_run`).

So `do_client_calculations` runs as in `IntegrationLoop.lean`, however far it comes
(`calculations_memory`).  All that it leaves behind are the records that `print_calc_data`
builds for the printer: no pointer to them is kept, and none is released (`calculations_leak`).
-/
import Quadrocopt.HeapFrame
import Quadrocopt.IntegrationLoop

namespace IntegratorMemory

open HeapProgram hiding written
open ClientCalculate (NVAR CalculatorData Commands NextStep Blocks)

variable {K : Type}

/-! ## Vectors -/

/-- What a block holds here. -/
abbrev Cells (K : Type) := List (Option K)

/-- Arrays of numbers. -/
def numbers : ArrayType (Cells K) K where
  array cells := cells
  view cells := some cells
  view_array _ := rfl

/-- `vector(1, n)`: with `NR_END` the pointer that is returned is that of the block, which has a
cell in front of those to be used. -/
def vector (n : ℕ) : Prog (Cells K) Ptr := numbers.malloc (n + 1)

/-- `free_vector(v, 1, n)`. -/
def freeVector (v : Ptr) : Prog (Cells K) Unit := free v

/-- `for (i = 1; i <= n; i++)`. -/
def forFromOne (n : ℕ) (body : ℕ → Prog (Cells K) Unit) : Prog (Cells K) Unit :=
  forRange n fun i => body (i + 1)

/-- `p[i] = a; p[i + 1] = b; …`, one assignment after the other. -/
def assign (p : Ptr) : ℕ → List K → Prog (Cells K) Unit
  | _, [] => pure ()
  | i, a :: as => do
      numbers.store p i a
      assign p (i + 1) as

/-! ## The code -/

section Code

/-- The assignments to `y` at the start of `get_next_step`. -/
def loadState (d : CalculatorData K) (y : Ptr) : Prog (Cells K) Unit :=
  assign y 1 [d.Vx, d.VdotX, d.Vy, d.VdotY, d.Vz, d.VdotZ, d.Vtheta, d.VdotTheta, d.Vphi,
    d.VdotPhi, d.Vpsy, d.VdotPsy]

/-- `get_payload_from_calc_data`. -/
def getPayloadFromCalcData (d : CalculatorData K) : Prog (Cells K) Ptr := do
  let payload ← numbers.malloc 13
  assign payload 0 [d.Vx, d.VdotX, d.Vy, d.VdotY, d.Vz, d.VdotZ, d.Vtheta, d.VdotTheta, d.Vphi,
    d.VdotPhi, d.Vpsy, d.VdotPsy, d.currTime]
  return payload

/-- `normalize_vector`. -/
def normalizeVector (vec : Ptr) (len : ℕ) (curTime : K) : Prog (Cells K) Ptr := do
  let newVec ← numbers.malloc (len + 1)
  forRange len fun i => do
    let a ← numbers.load vec (i + 1)
    numbers.store newVec i a
  numbers.store newVec len curTime
  return newVec

/-- `set_calc_data`. -/
def setCalcData (d : CalculatorData K) (y : Ptr) : Prog (Cells K) (CalculatorData K) := do
  let Vx ← numbers.load y 1
  let VdotX ← numbers.load y 2
  let Vy ← numbers.load y 3
  let VdotY ← numbers.load y 4
  let Vz ← numbers.load y 5
  let VdotZ ← numbers.load y 6
  let Vtheta ← numbers.load y 7
  let VdotTheta ← numbers.load y 8
  let Vphi ← numbers.load y 9
  let VdotPhi ← numbers.load y 10
  let Vpsy ← numbers.load y 11
  let VdotPsy ← numbers.load y 12
  return { d with Vx, VdotX, Vy, VdotY, Vz, VdotZ, Vtheta, VdotTheta, Vphi, VdotPhi, Vpsy, VdotPsy }

/-- The first `n` cells of a block, one after the other. -/
def loadAll (p : Ptr) : (n : ℕ) → Prog (Cells K) (Fin n → K)
  | 0 => return Fin.elim0
  | n + 1 => do
      let as ← loadAll p n
      let a ← numbers.load p n
      return Fin.snoc (α := fun _ => K) as a

/-- `get_u`, by what it does to its argument and its result, with the function `getU` in place of
the exchange with the server; its other blocks are those of the threads. -/
def callGetU (getU : List.Vector K 13 → Fin 4 → K) (payload : Ptr) :
    Prog (Cells K) (List.Vector K 13 × Ptr) := do
  let asked := List.Vector.ofFn (← loadAll payload 13)
  let u ← numbers.malloc 4
  assign u 0 (List.ofFn (getU asked))
  return (asked, u)

/-- `set_u`. -/
def setU (uArr : Ptr) : Prog (Cells K) (Commands K) := do
  let U1 ← numbers.load uArr 0
  let U2 ← numbers.load uArr 1
  let U3 ← numbers.load uArr 2
  let U4 ← numbers.load uArr 3
  return { U1, U2, U3, U4 }

variable [Field K]

open ClientCalculate (m g Ix Iy Iz)

/-- `derivs`. -/
def derivs (X dXdt u : Ptr) : Prog (Cells K) (Commands K) := do
  let dotX ← numbers.load X 2
  let dotY ← numbers.load X 4
  let dotZ ← numbers.load X 6
  let theta ← numbers.load X 7
  let dotTheta ← numbers.load X 8
  let phi ← numbers.load X 9
  let dotPhi ← numbers.load X 10
  let dotPsy ← numbers.load X 12
  let U ← setU u
  let ddotX := theta * U.U1 / m
  let ddotY := -phi * U.U1 / m
  let ddotZ := U.U1 / m - g
  let ddotTheta := U.U2 / Ix
  let ddotPhi := U.U3 / Iy
  let ddotPsy := U.U4 / Iz
  assign dXdt 1 [dotX, ddotX, dotY, ddotY, dotZ, ddotZ, dotTheta, ddotTheta, dotPhi, ddotPhi,
    dotPsy, ddotPsy]
  return U

/-- The lines around each call of `get_u`: the payload is released behind the call, and the
result behind `derivs`. -/
def derivsUnderGetU (getU : List.Vector K 13 → Fin 4 → K) (payload X dXdt : Ptr) :
    Prog (Cells K) (List.Vector K 13 × Commands K) := do
  let (asked, u) ← callGetU getU payload
  free payload
  let U ← derivs X dXdt u
  free u
  return (asked, U)

/-- `get_next_step`. -/
def getNextStep (getU : List.Vector K 13 → Fin 4 → K) (calcData : CalculatorData K) :
    Prog (Cells K) (NextStep K) := do
  let y ← vector NVAR
  let yout ← vector NVAR
  let dydx ← vector NVAR
  loadState calcData y
  let ti := calcData.currTime
  let step := calcData.step
  let payload ← getPayloadFromCalcData calcData
  let (asked₁, _) ← derivsUnderGetU getU payload y dydx
  let x := ti
  let h := step
  let dym ← vector NVAR
  let dyt ← vector NVAR
  let yt ← vector NVAR
  let hh := h * (1 / (2 : ℕ))
  let h6 := h / (6 : ℕ)
  let xh := x + hh
  forFromOne NVAR fun i => do
    numbers.store yt i ((← numbers.load y i) + hh * (← numbers.load dydx i))
  let nVec ← normalizeVector yt NVAR xh
  let (asked₂, _) ← derivsUnderGetU getU nVec yt dyt
  forFromOne NVAR fun i => do
    numbers.store yt i ((← numbers.load y i) + hh * (← numbers.load dyt i))
  let nVec ← normalizeVector yt NVAR xh
  let (asked₃, _) ← derivsUnderGetU getU nVec yt dym
  forFromOne NVAR fun i => do
    numbers.store yt i ((← numbers.load y i) + h * (← numbers.load dym i))
    numbers.store dym i ((← numbers.load dym i) + (← numbers.load dyt i))
  let nVec ← normalizeVector yt NVAR (x + h)
  let (asked₄, U) ← derivsUnderGetU getU nVec yt dyt
  forFromOne NVAR fun i => do
    numbers.store yout i ((← numbers.load y i) + h6 * ((← numbers.load dydx i)
      + (← numbers.load dyt i) + (2 : ℕ) * (← numbers.load dym i)))
  let calcData ← setCalcData calcData yout
  freeVector yt
  freeVector dyt
  freeVector dym
  freeVector yout
  freeVector y
  freeVector dydx
  return { calcData, U, asked := [asked₁, asked₂, asked₃, asked₄] }

/-- `get_calc_data_for_printer`. -/
def getCalcDataForPrinter (calcData : CalculatorData K) : Prog (Cells K) Ptr := do
  let payload ← numbers.malloc 5
  assign payload 0 [calcData.currTime, calcData.Vx, calcData.Vy, calcData.Vz, calcData.Vpsy]
  return payload

/-- `print_calc_data`, by what it does to the heap. -/
def printCalcData (calcData : CalculatorData K) : Prog (Cells K) Unit := do
  -- the printer is not told where the payload is, and nobody releases it
  let _payload ← getCalcDataForPrinter calcData
  return ()

/-- The test of `do_client_calculations`. -/
def inInterval (calcData : CalculatorData ℚ) : Bool := calcData.currTime ≤ calcData.timeEnd

/-- The body of `do_client_calculations`. -/
def calculationsBody (getU : ℕ → List.Vector ℚ 13 → Fin 4 → ℚ) (n : ℕ)
    (calcData : CalculatorData ℚ) : Prog (Cells ℚ) (CalculatorData ℚ) := do
  let next ← getNextStep (getU n) calcData
  let calcData := next.calcData
  let calcData := { calcData with currTime := calcData.currTime + calcData.step }
  printCalcData calcData
  return calcData

/-- `do_client_calculations`, with a bound on the number of tests. -/
def doClientCalculations (getU : ℕ → List.Vector ℚ 13 → Fin 4 → ℚ) (fuel : ℕ)
    (calcData : CalculatorData ℚ) : Prog (Cells ℚ) (Option (CalculatorData ℚ)) :=
  whileLoop inInterval (calculationsBody getU) fuel 0 calcData

end Code

/-! ## What the functions leave -/

section Specs

variable {h : Heap (Cells K)} {bs : List (Option (Cells K))} {f : ℕ → Option K} {i j k l n : ℕ}

/-- A block of `n` cells. -/
abbrev block (n : ℕ) (f : ℕ → Option K) : Cells K := numbers.array (cellsOf n f)

/-- A vector of which the entries to be used have been written. -/
def filled (y : ℕ → K) : Cells K :=
  block (NVAR + 1) (written NVAR (fun i => some (y i)) fun _ => none)

/-- An array of which all cells have been written. -/
def full {n : ℕ} (xs : List.Vector K n) : Cells K := block n fun i => xs.toList[i]?

/-- The cells after some assignments. -/
def assigned : ℕ → List K → (ℕ → Option K) → ℕ → Option K
  | _, [], f => f
  | i, a :: as, f => assigned (i + 1) as (Function.update f i (some a))

theorem set_same {α : Type} {xs : List α} {x : α} (hk : xs[k]? = some x) : xs.set k x = xs := by
  obtain ⟨hlt, rfl⟩ := List.getElem?_eq_some_iff.mp hk
  exact List.set_getElem_self hlt

/-- A fresh vector. -/
theorem vector_on (hn : bs.length = k) : vector n (h.on bs)
    = some (some (h.next + k), h.on (bs ++ [some (block (K := K) (n + 1) fun _ => none)])) := by
  rw [← hn]
  exact ArrayType.malloc_on

theorem assign_on {as : List K} (hk : bs[k]? = some (some (block n f))) (hn : i + as.length ≤ n) :
    assign (some (h.next + k)) i as (h.on bs)
      = some ((), h.on (bs.set k (some (block n (assigned i as f))))) := by
  induction as generalizing i f bs with
  | nil =>
      rw [assigned, set_same hk]
      rfl
  | cons a as ih =>
      rw [List.length_cons] at hn
      obtain ⟨hlt, -⟩ := List.getElem?_eq_some_iff.mp hk
      rw [assign, bind_run (ArrayType.store_on hk (by omega)),
        ih (List.getElem?_set_self hlt) (by omega), List.set_set, assigned]

theorem loadAll_on {N : ℕ} {g : Fin n → K} (hk : bs[k]? = some (some (block N f))) (hn : n ≤ N)
    (hg : ∀ i : Fin n, f i = some (g i)) :
    loadAll (some (h.next + k)) n (h.on bs) = some (g, h.on bs) := by
  induction n with
  | zero =>
      obtain rfl : g = Fin.elim0 := Subsingleton.elim _ _
      rfl
  | succ n ih =>
      have hlast : f n = some (g (Fin.last n)) := hg (Fin.last n)
      rw [loadAll, bind_run (ih (by omega) fun i => hg i.castSucc),
        bind_run (ArrayType.load_on hk (by omega) hlast)]
      exact congrArg some (congrArg (·, h.on bs) (Fin.snoc_init_self g))

/-- A vector that has been written over its entries is as if it had been fresh. -/
theorem block_written (hf : f 0 = none) (y : ℕ → K) :
    block (NVAR + 1) (written NVAR (fun i => some (y i)) f) = filled y := by
  refine congrArg numbers.array (cellsOf_congr fun i hi => ?_)
  unfold written
  split
  · rfl
  · obtain rfl : i = 0 := by omega
    exact hf

theorem filled_congr {y z : ℕ → K} (hyz : ∀ i, 1 ≤ i → i ≤ NVAR → y i = z i) :
    filled y = filled z := by
  refine congrArg numbers.array (cellsOf_congr fun i _ => ?_)
  unfold written
  split
  · next hi => exact congrArg some (hyz i hi.1 hi.2)
  · rfl

/-- Only the entries count. -/
theorem filled_written (y a : ℕ → K) : filled (written NVAR y a) = filled y :=
  filled_congr fun _ h₁ hN => if_pos ⟨h₁, hN⟩

/-- A loop that writes one entry of a vector in each round. -/
theorem forFromOne_on {body : ℕ → Prog (Cells K) Unit} {g : ℕ → Option K}
    (hk : bs[k]? = some (some (block n f)))
    (hbody : ∀ i f, 1 ≤ i → i ≤ l → body i (h.on (bs.set k (some (block n f))))
      = some ((), h.on (bs.set k (some (block n (Function.update f i (g i))))))) :
    forFromOne l body (h.on bs) = some ((), h.on (bs.set k (some (block n (written l g f))))) := by
  -- after `i` rounds the first `i` entries are written
  let rounds (i : ℕ) : List (Option (Cells K)) := bs.set k (some (block n (written i g f)))
  have hstart : rounds 0 = bs := by
    show bs.set k (some (block n (written 0 g f))) = bs
    rw [written_zero, set_same hk]
  have hround : ∀ i < l, body (i + 1) (h.on (rounds i)) = some ((), h.on (rounds (i + 1))) := by
    intro i hi
    rw [hbody (i + 1) _ (by omega) (by omega), update_written]
  have hrun := forRange_on rounds hround
  rwa [hstart] at hrun

/-! ### Payloads -/

theorem assigned_apply (as : List K) :
    assigned i as f j = if i ≤ j ∧ j < i + as.length then as[j - i]? else f j := by
  induction as generalizing i f with
  | nil =>
      rw [assigned, List.length_nil, if_neg (by omega)]
  | cons a as ih =>
      rw [assigned, ih, List.length_cons]
      rcases Nat.lt_trichotomy j i with hlt | rfl | hlt
      · rw [if_neg (by omega), if_neg (by omega), Function.update_of_ne (by omega)]
      · rw [if_neg (by omega), if_pos (by omega), Function.update_self, Nat.sub_self,
          List.getElem?_cons_zero]
      · obtain ⟨d, rfl⟩ := Nat.exists_eq_add_of_lt hlt
        rw [show i + d + 1 - i = d + 1 by omega, show i + d + 1 - (i + 1) = d by omega,
          List.getElem?_cons_succ, Function.update_of_ne (by omega)]
        exact if_congr (by omega) rfl rfl

/-- The cells of a fresh array are assigned to in their order. -/
theorem assign_fresh (bs : List (Option (Cells K))) (xs : List.Vector K n) :
    assign (some (h.next + bs.length)) 0 xs.toList (h.on (bs ++ [some (block n fun _ => none)]))
      = some ((), h.on (bs ++ [some (full xs)])) := by
  rw [assign_on List.getElem?_concat_length (by simp), Heap.set_concat]
  have hcells : block n (assigned 0 xs.toList fun _ => none) = full xs := by
    refine congrArg numbers.array (cellsOf_congr fun i hi => ?_)
    rw [assigned_apply, if_pos (by simpa using hi), Nat.sub_zero]
  rw [hcells]

theorem getPayloadFromCalcData_on (d : CalculatorData K) :
    getPayloadFromCalcData d (h.on bs) = some (some (h.next + bs.length),
      h.on (bs ++ [some (full (ClientCalculate.getPayloadFromCalcData d))])) := by
  have hassign := assign_fresh (h := h) bs (ClientCalculate.getPayloadFromCalcData d)
  rw [getPayloadFromCalcData, bind_run ArrayType.malloc_on]
  exact (bind_run hassign _).trans rfl

/-- An entry that has been written. -/
theorem written_some {y : ℕ → K} (hi : 1 ≤ i) (hn : i ≤ n) :
    written n (fun i => some (y i)) f i = some (y i) := by
  rw [written, if_pos ⟨hi, hn⟩]

theorem load_filled {y : ℕ → K} (hk : bs[k]? = some (some (filled y))) (hi : 1 ≤ i)
    (hn : i ≤ NVAR) : numbers.load (some (h.next + k)) i (h.on bs) = some (y i, h.on bs) :=
  ArrayType.load_on hk (by omega) (written_some hi hn)

theorem load_full {xs : List.Vector K n} {a : K} (hk : bs[k]? = some (some (full xs)))
    (ha : xs.toList[i]? = some a) :
    numbers.load (some (h.next + k)) i (h.on bs) = some (a, h.on bs) := by
  obtain ⟨hi, -⟩ := List.getElem?_eq_some_iff.mp ha
  exact ArrayType.load_on hk (by simpa using hi) ha

theorem normalizeVector_on {y : ℕ → K} (hk : bs[k]? = some (some (filled y))) (t : K) :
    normalizeVector (some (h.next + k)) NVAR t (h.on bs) = some (some (h.next + bs.length),
      h.on (bs ++ [some (full (ClientCalculate.normalizeVector y NVAR t))])) := by
  -- after `i` rounds the first `i` cells are written
  let copied (i j : ℕ) : Option K := if j < i then some (y (j + 1)) else none
  have hcopied (i : ℕ) : Function.update (copied i) i (some (y (i + 1))) = copied (i + 1) := by
    funext j
    by_cases hj : j = i
    · subst hj
      rw [Function.update_self]
      exact (if_pos (Nat.lt_succ_self j)).symm
    · rw [Function.update_of_ne hj]
      exact if_congr (by omega) rfl rfl
  have hfull : block (NVAR + 1) (Function.update (copied NVAR) NVAR (some t))
      = full (ClientCalculate.normalizeVector y NVAR t) := by
    refine congrArg numbers.array (cellsOf_congr fun i hi => ?_)
    rw [ClientCalculate.normalizeVector, List.Vector.toList_ofFn, List.getElem?_ofFn, dif_pos hi]
    by_cases hlast : i = NVAR
    · subst hlast
      rw [Function.update_self]
      rfl
    · have hlt : i < NVAR := by omega
      rw [Function.update_of_ne hlast]
      exact (if_pos hlt).trans (congrArg some (if_pos hlt).symm)
  let rounds (i : ℕ) : List (Option (Cells K)) := bs ++ [some (block (NVAR + 1) (copied i))]
  have hround : ∀ i < NVAR, (do
      let a ← numbers.load (some (h.next + k)) (i + 1)
      numbers.store (some (h.next + bs.length)) i a) (h.on (rounds i))
        = some ((), h.on (rounds (i + 1))) := by
    intro i hi
    have hk' : (rounds i)[k]? = some (some (filled y)) := by
      obtain ⟨hlt, -⟩ := List.getElem?_eq_some_iff.mp hk
      rw [List.getElem?_append_left hlt, hk]
    rw [bind_run (load_filled hk' (by omega) (by omega)),
      ArrayType.store_on List.getElem?_concat_length (by omega), Heap.set_concat, hcopied]
  rw [normalizeVector, bind_run ArrayType.malloc_on]
  refine (bind_run (forRange_on rounds hround) _).trans ?_
  refine (bind_run (ArrayType.store_on (n := NVAR + 1) List.getElem?_concat_length
    (Nat.lt_succ_self _)) _).trans ?_
  rw [Heap.set_concat]
  exact congrArg (fun b => some (some (h.next + bs.length), h.on (bs ++ [some b]))) hfull

theorem callGetU_on {getU : List.Vector K 13 → Fin 4 → K} {xs : List.Vector K 13}
    (hk : bs[k]? = some (some (full xs))) :
    callGetU getU (some (h.next + k)) (h.on bs) = some ((xs, some (h.next + bs.length)),
      h.on (bs ++ [some (full (List.Vector.ofFn (getU xs)))])) := by
  have hget (i : Fin 13) : xs.toList[(i : ℕ)]? = some (xs.get i) := by
    rw [List.getElem?_eq_getElem (by simp), List.Vector.get_eq_get_toList]
    rfl
  have hload := loadAll_on (h := h) (g := xs.get) hk le_rfl hget
  have hassign := assign_fresh (h := h) bs (List.Vector.ofFn (getU xs))
  rw [callGetU, bind_run hload, List.Vector.ofFn_get]
  refine (bind_run ArrayType.malloc_on _).trans ?_
  exact (bind_run hassign _).trans rfl

theorem setU_on {u : Fin 4 → K} (hk : bs[k]? = some (some (full (List.Vector.ofFn u)))) :
    setU (some (h.next + k)) (h.on bs) = some (ClientCalculate.setU u, h.on bs) := by
  rw [setU, bind_run (load_full hk (i := 0) rfl), bind_run (load_full hk (i := 1) rfl),
    bind_run (load_full hk (i := 2) rfl), bind_run (load_full hk (i := 3) rfl)]
  rfl

/-! ### The plant and the loops -/

/-- A vector whose entries have been assigned to in their order. -/
theorem block_assigned {as : List K} {y : ℕ → K} (hf : f 0 = none) (hlength : as.length = NVAR)
    (has : ∀ i < NVAR, as[i]? = some (y (i + 1))) :
    block (NVAR + 1) (assigned 1 as f) = filled y := by
  refine congrArg numbers.array (cellsOf_congr fun i hi => ?_)
  rw [assigned_apply, hlength]
  obtain _ | i := i
  · rw [if_neg (by omega), hf]
    rfl
  · rw [if_pos (by omega), Nat.add_sub_cancel, has i (by omega)]
    exact (written_some (by omega) (by omega)).symm

theorem loadState_on (hk : bs[k]? = some (some (block (NVAR + 1) f))) (hf : f 0 = none)
    (d : CalculatorData K) (y : ℕ → K) :
    loadState d (some (h.next + k)) (h.on bs)
      = some ((), h.on (bs.set k (some (filled (ClientCalculate.loadState d y))))) := by
  rw [loadState, assign_on hk (by simp), block_assigned hf rfl]
  intro i hi
  interval_cases i <;> rfl

theorem setCalcData_on {y : ℕ → K} (hy : bs[k]? = some (some (filled y))) (d : CalculatorData K) :
    setCalcData d (some (h.next + k)) (h.on bs)
      = some (ClientCalculate.setCalcData d y, h.on bs) := by
  have hload (i : ℕ) (hi : 1 ≤ i ∧ i ≤ NVAR) := load_filled (h := h) hy hi.1 hi.2
  rw [setCalcData, bind_run (hload 1 (by decide)), bind_run (hload 2 (by decide)),
    bind_run (hload 3 (by decide)), bind_run (hload 4 (by decide)), bind_run (hload 5 (by decide)),
    bind_run (hload 6 (by decide)), bind_run (hload 7 (by decide)), bind_run (hload 8 (by decide)),
    bind_run (hload 9 (by decide)), bind_run (hload 10 (by decide)),
    bind_run (hload 11 (by decide)), bind_run (hload 12 (by decide))]
  rfl

section Plant

variable [Field K]

/-- `derivs` fills the vector of the derivatives, whatever it holds. -/
theorem derivs_on {X : ℕ → K} {u : Fin 4 → K} (hX : bs[i]? = some (some (filled X)))
    (hd : bs[k]? = some (some (block (NVAR + 1) f))) (hf : f 0 = none)
    (hu : bs[j]? = some (some (full (List.Vector.ofFn u)))) (t : K) (dXdt : ℕ → K) :
    derivs (some (h.next + i)) (some (h.next + k)) (some (h.next + j)) (h.on bs)
      = some (ClientCalculate.setU u,
        h.on (bs.set k (some (filled (ClientCalculate.derivsBlock t X dXdt u).dXdt)))) := by
  have hload (a : ℕ) (ha : 1 ≤ a ∧ a ≤ NVAR) := load_filled (h := h) hX ha.1 ha.2
  rw [derivs, bind_run (hload 2 (by decide)), bind_run (hload 4 (by decide)),
    bind_run (hload 6 (by decide)), bind_run (hload 7 (by decide)), bind_run (hload 8 (by decide)),
    bind_run (hload 9 (by decide)), bind_run (hload 10 (by decide)),
    bind_run (hload 12 (by decide)), bind_run (setU_on hu)]
  refine (bind_run (assign_on hd (by simp)) _).trans ?_
  rw [block_assigned hf rfl (y := (ClientCalculate.derivsBlock t X dXdt u).dXdt)]
  · rfl
  · intro a ha
    interval_cases a <;> rfl

theorem derivsUnderGetU_on {getU : List.Vector K 13 → Fin 4 → K} {xs : List.Vector K 13} {X : ℕ → K}
    (hp : bs[l]? = some (some (full xs))) (hX : bs[i]? = some (some (filled X)))
    (hd : bs[k]? = some (some (block (NVAR + 1) f))) (hf : f 0 = none) (hil : i ≠ l) (hkl : k ≠ l)
    (t : K) (dXdt : ℕ → K) :
    derivsUnderGetU getU (some (h.next + l)) (some (h.next + i)) (some (h.next + k)) (h.on bs)
      = some ((xs, ClientCalculate.setU (getU xs)),
        h.on ((bs.set l none).set k
          (some (filled (ClientCalculate.derivsBlock t X dXdt (getU xs)).dXdt)) ++ [none])) := by
  have hlt {o : Option (Cells K)} {a : ℕ} {b : Cells K} (ha : bs[a]? = some (some b)) :
      (bs ++ [o])[a]? = some (some b) := by
    obtain ⟨hlt, -⟩ := List.getElem?_eq_some_iff.mp ha
    rw [List.getElem?_append_left hlt, ha]
  obtain ⟨hl, -⟩ := List.getElem?_eq_some_iff.mp hp
  obtain ⟨hk, -⟩ := List.getElem?_eq_some_iff.mp hd
  -- the blocks once the payload is released, below the block of the result
  let below := bs.set l none
  have hlength : bs.length = below.length := List.length_set.symm
  have hbelow {a : ℕ} {b : Cells K} (hal : a ≠ l) (ha : bs[a]? = some (some b)) :
      (below ++ [some (full (List.Vector.ofFn (getU xs)))])[a]? = some (some b) := by
    obtain ⟨hlt, -⟩ := List.getElem?_eq_some_iff.mp ha
    rw [List.getElem?_append_left (hlength ▸ hlt), List.getElem?_set_ne hal.symm, ha]
  rw [derivsUnderGetU, bind_run (callGetU_on hp)]
  refine (bind_run (free_on (hlt hp)) _).trans ?_
  rw [List.set_append_left _ _ hl, hlength]
  refine (bind_run (derivs_on (hbelow hil hX) (hbelow hkl hd) hf List.getElem?_concat_length t dXdt)
    _).trans ?_
  rw [List.set_append_left _ _ (hlength ▸ hk)]
  have htop : below.length = (below.set k (some (filled
      (ClientCalculate.derivsBlock t X dXdt (getU xs)).dXdt))).length := List.length_set.symm
  rw [htop]
  refine (bind_run (free_on List.getElem?_concat_length) _).trans ?_
  rw [Heap.set_concat]
  rfl

/-- The loop that extrapolates the state along a derivative. -/
theorem extrapolate_on {y dx : ℕ → K} (hy : bs[i]? = some (some (filled y)))
    (hdx : bs[j]? = some (some (filled dx))) (hk : bs[k]? = some (some (block (NVAR + 1) f)))
    (hf : f 0 = none) (hik : i ≠ k) (hjk : j ≠ k) (c : K) (a : ℕ → K) :
    forFromOne NVAR (fun i' => do
        numbers.store (some (h.next + k)) i'
          ((← numbers.load (some (h.next + i)) i') + c * (← numbers.load (some (h.next + j)) i')))
      (h.on bs) = some ((), h.on (bs.set k (some (filled
        (forLoop NVAR (fun i yt => Function.update yt i (y i + c * dx i)) a))))) := by
  rw [forLoop_update NVAR (fun i => y i + c * dx i), filled_written, ← block_written hf]
  refine forFromOne_on hk fun a f' ha haN => ?_
  have hk' : (bs.set k (some (block (NVAR + 1) f')))[k]? = some (some (block (NVAR + 1) f')) :=
    List.getElem?_set_self (List.getElem?_eq_some_iff.mp hk).1
  rw [bind_run (load_filled ((List.getElem?_set_ne hik.symm).trans hy) ha haN),
    bind_run (load_filled ((List.getElem?_set_ne hjk.symm).trans hdx) ha haN),
    ArrayType.store_on hk' (by omega), List.set_set]

/-- The loop that extrapolates along the third derivative and adds the second to it. -/
theorem extrapolateAdd_on {y dm dt : ℕ → K} (hy : bs[i]? = some (some (filled y)))
    (hdt : bs[j]? = some (some (filled dt))) (hdm : bs[l]? = some (some (filled dm)))
    (hk : bs[k]? = some (some (block (NVAR + 1) f))) (hf : f 0 = none) (hik : i ≠ k) (hjk : j ≠ k)
    (hlk : l ≠ k) (hil : i ≠ l) (hjl : j ≠ l) (c : K) (a : ℕ → K) :
    let ytDym := forLoop NVAR (fun i (p : (ℕ → K) × (ℕ → K)) =>
      (Function.update p.1 i (y i + c * p.2 i), Function.update p.2 i (p.2 i + dt i))) (a, dm)
    forFromOne NVAR (fun i' => do
        numbers.store (some (h.next + k)) i'
          ((← numbers.load (some (h.next + i)) i') + c * (← numbers.load (some (h.next + l)) i'))
        numbers.store (some (h.next + l)) i'
          ((← numbers.load (some (h.next + l)) i') + (← numbers.load (some (h.next + j)) i')))
      (h.on bs) = some ((), h.on ((bs.set k (some (filled ytDym.1))).set l
        (some (filled ytDym.2)))) := by
  intro ytDym
  have hytDym : ytDym = _ :=
    forLoop_update_pair NVAR (fun i di => y i + c * di) (fun i di => di + dt i) a dm
  rw [hytDym, filled_written, filled_written]
  -- the blocks with some content of the two vectors
  let pair (u v : ℕ → Option K) : List (Option (Cells K)) :=
    (bs.set k (some (block (NVAR + 1) u))).set l (some (block (NVAR + 1) v))
  have hkbs := (List.getElem?_eq_some_iff.mp hk).1
  have hlbs := (List.getElem?_eq_some_iff.mp hdm).1
  have hother (u v : ℕ → Option K) {x : ℕ} {z : ℕ → K} (hxk : x ≠ k) (hxl : x ≠ l)
      (hz : bs[x]? = some (some (filled z))) : (pair u v)[x]? = some (some (filled z)) := by
    rw [List.getElem?_set_ne hxl.symm, List.getElem?_set_ne hxk.symm, hz]
  have hyt (u v : ℕ → Option K) : (pair u v)[k]? = some (some (block (NVAR + 1) u)) := by
    rw [List.getElem?_set_ne hlk, List.getElem?_set_self hkbs]
  have hdym (u v : ℕ → Option K) : (pair u v)[l]? = some (some (block (NVAR + 1) v)) :=
    List.getElem?_set_self (by rwa [List.length_set])
  have hset (u u' v : ℕ → Option K) :
      (pair u v).set k (some (block (NVAR + 1) u')) = pair u' v := by
    rw [List.set_comm _ _ hlk, List.set_set]
  have hset' (u v v' : ℕ → Option K) :
      (pair u v).set l (some (block (NVAR + 1) v')) = pair u v' := List.set_set ..
  -- after `a` rounds the first `a` entries of both are written
  let yt (a : ℕ) : ℕ → Option K := written a (fun a => some (y a + c * dm a)) f
  let dym (a : ℕ) : ℕ → Option K :=
    written a (fun a => some (dm a + dt a)) (written NVAR (fun a => some (dm a)) fun _ => none)
  let rounds (a : ℕ) : List (Option (Cells K)) := pair (yt a) (dym a)
  have hround : ∀ a < NVAR, (do
      numbers.store (some (h.next + k)) (a + 1)
        ((← numbers.load (some (h.next + i)) (a + 1))
          + c * (← numbers.load (some (h.next + l)) (a + 1)))
      numbers.store (some (h.next + l)) (a + 1)
        ((← numbers.load (some (h.next + l)) (a + 1))
          + (← numbers.load (some (h.next + j)) (a + 1)))) (h.on (rounds a))
        = some ((), h.on (rounds (a + 1))) := by
    intro a ha
    have hentry : dym a (a + 1) = some (dm (a + 1)) :=
      (written_apply_succ ..).trans (written_some (by omega) (by omega))
    have hnext : Function.update (yt a) (a + 1) (some (y (a + 1) + c * dm (a + 1))) = yt (a + 1) :=
      update_written a (fun a => some (y a + c * dm a)) f
    have hnext' : Function.update (dym a) (a + 1) (some (dm (a + 1) + dt (a + 1))) = dym (a + 1) :=
      update_written a (fun a => some (dm a + dt a)) _
    rw [bind_run (load_filled (hother _ _ hik hil hy) (by omega) (by omega)),
      bind_run (ArrayType.load_on (hdym _ _) (by omega) hentry),
      bind_run (ArrayType.store_on (hyt _ _) (by omega)), hset, hnext,
      bind_run (ArrayType.load_on (hdym _ _) (by omega) hentry),
      bind_run (load_filled (hother _ _ hjk hjl hdt) (by omega) (by omega)),
      ArrayType.store_on (hdym _ _) (by omega), hset', hnext']
  have hstart : rounds 0 = bs := by
    show (bs.set k (some (block _ (written 0 _ f)))).set l (some (block _ (written 0 _ _))) = bs
    rw [written_zero, written_zero, set_same hk]
    exact set_same hdm
  have hyt' : block (NVAR + 1) (yt NVAR) = filled fun a => y a + c * dm a := block_written hf _
  have hdym' : block (NVAR + 1) (dym NVAR) = filled fun a => dm a + dt a := block_written rfl _
  have hrun := forRange_on rounds hround
  rw [hstart] at hrun
  rw [← hyt', ← hdym']
  exact hrun

/-- The loop that combines the derivatives. -/
theorem combine_on {y k₁ k₄ k₂₃ : ℕ → K} {o p q r : ℕ} (hy : bs[o]? = some (some (filled y)))
    (h₁ : bs[p]? = some (some (filled k₁))) (h₄ : bs[q]? = some (some (filled k₄)))
    (h₂₃ : bs[r]? = some (some (filled k₂₃))) (hk : bs[k]? = some (some (block (NVAR + 1) f)))
    (hf : f 0 = none) (hok : o ≠ k) (hpk : p ≠ k) (hqk : q ≠ k) (hrk : r ≠ k) (c : K) (a : ℕ → K) :
    forFromOne NVAR (fun i' => do
        numbers.store (some (h.next + k)) i' ((← numbers.load (some (h.next + o)) i')
          + c * ((← numbers.load (some (h.next + p)) i') + (← numbers.load (some (h.next + q)) i')
            + (2 : ℕ) * (← numbers.load (some (h.next + r)) i'))))
      (h.on bs) = some ((), h.on (bs.set k (some (filled (forLoop NVAR (fun i yout =>
        Function.update yout i (y i + c * (k₁ i + k₄ i + (2 : ℕ) * k₂₃ i))) a))))) := by
  rw [forLoop_update NVAR (fun i => y i + c * (k₁ i + k₄ i + (2 : ℕ) * k₂₃ i)), filled_written,
    ← block_written hf]
  refine forFromOne_on hk fun a f' ha haN => ?_
  have hk' : (bs.set k (some (block (NVAR + 1) f')))[k]? = some (some (block (NVAR + 1) f')) :=
    List.getElem?_set_self (List.getElem?_eq_some_iff.mp hk).1
  let now : List (Option (Cells K)) := bs.set k (some (block (NVAR + 1) f'))
  have hload {i : ℕ} {z : ℕ → K} (hik : i ≠ k) (hz : bs[i]? = some (some (filled z))) :
      numbers.load (some (h.next + i)) a (h.on now) = some (z a, h.on now) :=
    load_filled ((List.getElem?_set_ne hik.symm).trans hz) ha haN
  rw [bind_run (hload hok hy), bind_run (hload hpk h₁), bind_run (hload hqk h₄),
    bind_run (hload hrk h₂₃), ArrayType.store_on hk' (by omega), List.set_set]

/-- `get_next_step` line by line: after each line, the blocks it has allocated so far. -/
theorem getNextStep_on (getU : List.Vector K 13 → Fin 4 → K) (blocks : Blocks K)
    (d : CalculatorData K) : getNextStep getU d (h.on [])
      = some (ClientCalculate.getNextStep getU blocks d, h.on (List.replicate 14 none)) := by
  unfold ClientCalculate.getNextStep
  extract_lets y ti step payload u₁ asked₁ dydx x h' hh h6 xh yt₁ nVec₁ u₂ asked₂ dyt₁ yt₂ nVec₂ u₃
    asked₃ dym₁ ytDym yt₃ dym₂ nVec₃ u₄ asked₄ derivs₄ dyt₂ yout
  let fresh : Option (Cells K) := some (block (NVAR + 1) fun _ => none)
  let held (y : ℕ → K) : Option (Cells K) := some (filled y)
  -- `y`, `yout` and `dydx` are the blocks 0 to 2, `dym`, `dyt` and `yt` 5 to 7; between and behind
  -- them stand the payload and the result of each call of `get_u`
  rw [getNextStep]
  refine (bind_on [fresh] (vector_on (k := 0) rfl) rfl _).trans ?_
  refine (bind_on [fresh, fresh] (vector_on (k := 1) rfl) rfl _).trans ?_
  refine (bind_on [fresh, fresh, fresh] (vector_on (k := 2) rfl) rfl _).trans ?_
  refine (bind_on [held y, fresh, fresh] (loadState_on (k := 0) rfl rfl d blocks.y) rfl _).trans ?_
  -- the first stage, at the state itself
  refine (bind_run (getPayloadFromCalcData_on d) _).trans ?_
  refine (bind_on [held y, fresh, held dydx, none, none]
    (derivsUnderGetU_on (i := 0) (k := 2) (l := 3) rfl rfl rfl rfl (by decide) (by decide)
      ti blocks.dydx) rfl _).trans ?_
  refine (bind_run (vector_on (k := 5) rfl) _).trans ?_
  refine (bind_run (vector_on (k := 6) rfl) _).trans ?_
  refine (bind_on [held y, fresh, held dydx, none, none, fresh, fresh, fresh]
    (vector_on (k := 7) rfl) rfl _).trans ?_
  -- the second stage
  refine (bind_on [held y, fresh, held dydx, none, none, fresh, fresh, held yt₁]
    (extrapolate_on (i := 0) (j := 2) (k := 7) rfl rfl rfl rfl (by decide) (by decide) hh blocks.yt)
    rfl _).trans ?_
  refine (bind_run (normalizeVector_on (k := 7) rfl xh) _).trans ?_
  refine (bind_on [held y, fresh, held dydx, none, none, fresh, held dyt₁, held yt₁, none, none]
    (derivsUnderGetU_on (i := 7) (k := 6) (l := 8) rfl rfl rfl rfl (by decide) (by decide)
      xh blocks.dyt) rfl _).trans ?_
  -- the third stage
  refine (bind_on [held y, fresh, held dydx, none, none, fresh, held dyt₁, held yt₂, none, none]
    (extrapolate_on (i := 0) (j := 6) (k := 7) rfl rfl rfl rfl (by decide) (by decide) hh yt₁)
    rfl _).trans ?_
  refine (bind_run (normalizeVector_on (k := 7) rfl xh) _).trans ?_
  refine (bind_on [held y, fresh, held dydx, none, none, held dym₁, held dyt₁, held yt₂, none, none,
      none, none]
    (derivsUnderGetU_on (i := 7) (k := 5) (l := 10) rfl rfl rfl rfl (by decide) (by decide)
      xh blocks.dym) rfl _).trans ?_
  -- the fourth stage, with the sum of the two in the middle
  refine (bind_on [held y, fresh, held dydx, none, none, held dym₂, held dyt₁, held yt₃, none, none,
      none, none]
    (extrapolateAdd_on (i := 0) (j := 6) (l := 5) (k := 7) rfl rfl rfl rfl rfl (by decide)
      (by decide) (by decide) (by decide) (by decide) h' yt₂) rfl _).trans ?_
  refine (bind_run (normalizeVector_on (k := 7) rfl (x + h')) _).trans ?_
  refine (bind_on [held y, fresh, held dydx, none, none, held dym₂, held dyt₂, held yt₃, none, none,
      none, none, none, none]
    (derivsUnderGetU_on (i := 7) (k := 6) (l := 12) rfl rfl rfl rfl (by decide) (by decide)
      (x + h') dyt₁) rfl _).trans ?_
  refine (bind_on [held y, held yout, held dydx, none, none, held dym₂, held dyt₂, held yt₃, none,
      none, none, none, none, none]
    (combine_on (k := 1) (o := 0) (p := 2) (q := 6) (r := 5) rfl rfl rfl rfl rfl rfl (by decide)
      (by decide) (by decide) (by decide) h6 blocks.yout) rfl _).trans ?_
  refine (bind_run (setCalcData_on (k := 1) rfl d) _).trans ?_
  -- all vectors are released
  refine (bind_on [held y, held yout, held dydx, none, none, held dym₂, held dyt₂, none, none,
      none, none, none, none, none] (free_on (k := 7) rfl) rfl _).trans ?_
  refine (bind_on [held y, held yout, held dydx, none, none, held dym₂, none, none, none,
      none, none, none, none, none] (free_on (k := 6) rfl) rfl _).trans ?_
  refine (bind_on [held y, held yout, held dydx, none, none, none, none, none, none,
      none, none, none, none, none] (free_on (k := 5) rfl) rfl _).trans ?_
  refine (bind_on [held y, none, held dydx, none, none, none, none, none, none,
      none, none, none, none, none] (free_on (k := 1) rfl) rfl _).trans ?_
  refine (bind_on [none, none, held dydx, none, none, none, none, none, none,
      none, none, none, none, none] (free_on (k := 0) rfl) rfl _).trans ?_
  refine (bind_on (List.replicate 14 none) (free_on (k := 2) rfl) rfl _).trans ?_
  rfl

/-- **The step on the heap.**  `get_next_step` does not touch what it finds, and leaves nothing
behind but used addresses; the result does not depend on what its vectors hold at first. -/
theorem getNextStep_run (getU : List.Vector K 13 → Fin 4 → K) (blocks : Blocks K)
    (d : CalculatorData K) :
    getNextStep getU d h = some (ClientCalculate.getNextStep getU blocks d, h.skip 14) := by
  have hrun := getNextStep_on (h := h) getU blocks d
  rwa [Heap.on_nil, Heap.on_replicate_none] at hrun

end Plant

/-! ### The loop over the interval -/

section Calculations

open ClientCalculate (Calculations NSTEP initializeCalcData)
open WhileLoop

variable (getU : ℕ → List.Vector ℚ 13 → Fin 4 → ℚ) (blocks : ℕ → Blocks ℚ)
  (d : CalculatorData ℚ) (h : Heap (Cells ℚ))

/-- What a round leaves: the used addresses of `get_next_step`, and the record for the printer. -/
def leftByRound (record : List.Vector ℚ 5) : List (Option (Cells ℚ)) :=
  List.replicate 14 none ++ [some (full record)]

/-- What the rounds leave. -/
def leftByRounds (s : Calculations) : List (Option (Cells ℚ)) := s.records.flatMap leftByRound

/-- Of each round one block is left. -/
theorem count_leftByRounds (s : Calculations) :
    (leftByRounds s).countP Option.isSome = s.records.length := by
  rw [leftByRounds]
  induction s.records with
  | nil => rfl
  | cons record records ih =>
      rw [List.flatMap_cons, List.countP_append, ih, List.length_cons, Nat.add_comm]
      rfl

theorem printCalcData_on {bs : List (Option (Cells ℚ))} :
    printCalcData d (h.on bs)
      = some ((), h.on (bs ++ [some (full (ClientCalculate.getCalcDataForPrinter d))])) := by
  have hassign := assign_fresh (h := h) bs (ClientCalculate.getCalcDataForPrinter d)
  rw [printCalcData, getCalcDataForPrinter, bind_assoc, bind_run ArrayType.malloc_on, bind_assoc]
  exact (bind_run hassign _).trans rfl

theorem calculationsBody_run (n : ℕ) (s : Calculations) :
    calculationsBody getU n s.calcData (h.on (leftByRounds s))
      = some ((ClientCalculate.calculationsBody getU blocks n s).calcData,
          h.on (leftByRounds (ClientCalculate.calculationsBody getU blocks n s))) := by
  have hleft : leftByRounds (ClientCalculate.calculationsBody getU blocks n s)
      = leftByRounds s ++ List.replicate 14 none
        ++ [some (full (ClientCalculate.getCalcDataForPrinter
          (ClientCalculate.calculationsBody getU blocks n s).calcData))] := by
    show (s.records ++ [_]).flatMap leftByRound = _
    rw [List.flatMap_append, List.flatMap_singleton, leftByRound, ← List.append_assoc]
    rfl
  rw [calculationsBody, bind_run (getNextStep_run (getU n) (blocks n) s.calcData), Heap.skip_on,
    bind_run (printCalcData_on _ h), hleft]
  rfl

/-- The loop on the heap goes as the loop without. -/
theorem doClientCalculations_run (fuel : ℕ) :
    ∃ k ≤ fuel, ∃ s, s = after (ClientCalculate.calculationsBody getU blocks) 0 ⟨d, [], []⟩ k
      ∧ doClientCalculations getU fuel d h
        = some ((ClientCalculate.doClientCalculations getU blocks fuel d).map Calculations.calcData,
            h.on (leftByRounds s))
      ∧ (∀ s' ∈ ClientCalculate.doClientCalculations getU blocks fuel d, s' = s)
      ∧ (ClientCalculate.doClientCalculations getU blocks fuel d = none → k = fuel) := by
  obtain ⟨k, hk, hrun, hlast, hall⟩ := whileLoop_run inInterval Calculations.calcData
    (fun s => h.on (leftByRounds s)) (calculationsBody_run getU blocks h) fuel 0 ⟨d, [], []⟩
  have hstart : h.on (leftByRounds ⟨d, [], []⟩) = h := Heap.on_nil
  rw [hstart] at hrun
  exact ⟨k, hk, _, rfl, hrun, hlast, hall⟩

/-- **The memory of the integration.**  However many rounds `k` the loop comes to, all that it is
given or those to its end, it does what the language defines, with the results of the loop without
a heap, and does not touch what it finds; the record of each round is left in a block of its own,
and nothing else is. -/
theorem calculations_memory (fuel : ℕ) :
    ∃ k ≤ fuel, ∃ s, s = after (ClientCalculate.calculationsBody getU blocks) 0 ⟨d, [], []⟩ k
      ∧ let h' := h.on (leftByRounds s)
        doClientCalculations getU fuel d h
          = some ((ClientCalculate.doClientCalculations getU blocks fuel d).map
            Calculations.calcData, h')
        ∧ (∀ p < h.next, h'.block p = h.block p)
        ∧ h'.count = h.count + s.records.length
        ∧ s.records.length = k
        ∧ (∀ s' ∈ ClientCalculate.doClientCalculations getU blocks fuel d, s' = s)
        ∧ (ClientCalculate.doClientCalculations getU blocks fuel d = none → k = fuel) := by
  obtain ⟨k, hk, s, hs, hrun, hlast, hall⟩ := doClientCalculations_run getU blocks d h fuel
  have htimes := (ClientCalculate.stepped_after getU blocks d k).times
  have hlength : s.records.length = k := by
    rw [← hs] at htimes
    simpa using congrArg List.length htimes
  refine ⟨k, hk, s, hs, hrun, fun p hp => Heap.block_on_of_lt hp, ?_, hlength, hlast, hall⟩
  rw [Heap.count_on, count_leftByRounds]

/-- In a proper interval `NSTEP + 1` blocks are left. -/
theorem calculations_leak {timeStart timeEnd : ℚ} (hproper : timeStart < timeEnd) :
    ∃ d' h', doClientCalculations getU (NSTEP + 2) (initializeCalcData timeStart timeEnd) h
        = some (some d', h') ∧ h'.count = h.count + (NSTEP + 1) := by
  -- what the vectors hold at first does not matter
  let blocks := ClientCalculate.zeroed
  obtain ⟨s, hs, hstepped⟩ := ClientCalculate.doClientCalculations_eq getU blocks hproper
  obtain ⟨k, -, s', -, hrun, hlast, -⟩ :=
    doClientCalculations_run getU blocks (initializeCalcData timeStart timeEnd) h (NSTEP + 2)
  obtain rfl : s = s' := hlast s hs
  have hlength : s.records.length = NSTEP + 1 := by
    simpa using congrArg List.length hstepped.times
  refine ⟨s.calcData, h.on (leftByRounds s), ?_, ?_⟩
  · rw [hrun, hs]
    rfl
  · rw [Heap.count_on, count_leftByRounds, hlength]

end Calculations

end Specs

end IntegratorMemory
