/-
# The calculator's data (`calculate_structs.c` of the client)

`CalculatorData` holds the time and the twelve variables of the state by name.  They are
laid out three times: as the block `y` that `get_next_step` integrates, as the payload of
`get_payload_from_calc_data`, and, for the inner stages, as the payload that
`normalize_vector` makes of a block.

A block of `vector(1, NVAR)` is indexed from `1`; a payload is an array, indexed from `0`,
with the time behind the state.  That the three agree is stated against one list of the
state variables in their order (`state`) and the array that puts a time behind it
(`withTime`).

The numbers are of any type: 32-bit patterns where the data goes over the network, the
elements of a field where it is integrated.
-/
import Mathlib.Data.Vector.Basic
import Mathlib.Data.Fin.Tuple.Basic
import Mathlib.Data.Fin.VecNotation
import Mathlib.Data.Fintype.Basic
import Mathlib.Tactic.FinCases

namespace ClientCalculate

variable {K : Type*}

/-- `NVAR` of `constants.h`. -/
abbrev NVAR : ℕ := 12

/-- `struct _CalculatorData`. -/
@[ext] structure CalculatorData (K : Type*) where
  timeStart : K
  timeEnd : K
  step : K
  currTime : K
  Vx : K
  VdotX : K
  Vy : K
  VdotY : K
  Vz : K
  VdotZ : K
  Vtheta : K
  VdotTheta : K
  Vphi : K
  VdotPhi : K
  Vpsy : K
  VdotPsy : K
  deriving DecidableEq

/-- What `vector(1, NVAR)` returns: the entries `1` to `NVAR` are those of the block, the
others are not to be used. -/
abbrev Block (K : Type*) := ℕ → K

/-! ## The layouts -/

/-- The assignments with which `get_next_step` fills its block `y`. -/
def loadState (d : CalculatorData K) (y : Block K) : Block K
  | 1 => d.Vx
  | 2 => d.VdotX
  | 3 => d.Vy
  | 4 => d.VdotY
  | 5 => d.Vz
  | 6 => d.VdotZ
  | 7 => d.Vtheta
  | 8 => d.VdotTheta
  | 9 => d.Vphi
  | 10 => d.VdotPhi
  | 11 => d.Vpsy
  | 12 => d.VdotPsy
  | i => y i

/-- `set_calc_data`. -/
def setCalcData (d : CalculatorData K) (y : Block K) : CalculatorData K :=
  { d with
    Vx := y 1
    VdotX := y 2
    Vy := y 3
    VdotY := y 4
    Vz := y 5
    VdotZ := y 6
    Vtheta := y 7
    VdotTheta := y 8
    Vphi := y 9
    VdotPhi := y 10
    Vpsy := y 11
    VdotPsy := y 12 }

/-- `get_payload_from_calc_data`. -/
def getPayloadFromCalcData (d : CalculatorData K) : List.Vector K 13 :=
  ⟨[d.Vx, d.VdotX, d.Vy, d.VdotY, d.Vz, d.VdotZ, d.Vtheta, d.VdotTheta, d.Vphi, d.VdotPhi,
    d.Vpsy, d.VdotPsy, d.currTime], rfl⟩

/-- `get_first_batch_from_calc_data`. -/
def getFirstBatchFromCalcData (d : CalculatorData K) : List K :=
  [d.Vx, d.VdotX, d.Vy, d.VdotY, d.Vz, d.VdotZ]

/-- `get_second_batch_from_calc_data`. -/
def getSecondBatchFromCalcData (d : CalculatorData K) : List K :=
  [d.Vtheta, d.VdotTheta, d.Vphi, d.VdotPhi, d.Vpsy, d.VdotPsy, d.currTime]

/-- `normalize_vector`: the entries `1` to `len` of the block, then the time. -/
def normalizeVector (vec : Block K) (len : ℕ) (curTime : K) : List.Vector K (len + 1) :=
  List.Vector.ofFn fun i => if (i : ℕ) < len then vec (i + 1) else curTime

/-! ## The state in its order -/

/-- The state variables, in the order of every layout. -/
def CalculatorData.state (d : CalculatorData K) : Fin 12 → K :=
  ![d.Vx, d.VdotX, d.Vy, d.VdotY, d.Vz, d.VdotZ, d.Vtheta, d.VdotTheta, d.Vphi, d.VdotPhi,
    d.Vpsy, d.VdotPsy]

/-- The entries of a block, counted from `0`. -/
def Block.entries (y : Block K) : Fin 12 → K := fun i => y (i + 1)

/-- A state with a time behind it. -/
def withTime (Y : Fin 12 → K) (t : K) : List.Vector K 13 := List.Vector.ofFn (Fin.snoc Y t)

/-- The block that is integrated holds the state. -/
theorem entries_loadState (d : CalculatorData K) (y : Block K) :
    Block.entries (loadState d y) = d.state := by
  funext i
  fin_cases i <;> rfl

/-- What is stored back is the block. -/
theorem state_setCalcData (d : CalculatorData K) (y : Block K) :
    (setCalcData d y).state = Block.entries y := by
  funext i
  fin_cases i <;> rfl

/-- `normalize_vector` puts the time behind the entries of the block. -/
theorem normalizeVector_eq (y : Block K) (t : K) :
    normalizeVector y NVAR t = withTime (Block.entries y) t := by
  apply congrArg List.Vector.ofFn
  funext i
  induction i using Fin.lastCases with
  | last => rw [Fin.snoc_last, if_neg (by simp)]
  | cast i =>
      rw [Fin.snoc_castSucc]
      exact if_pos i.isLt

/-- `get_payload_from_calc_data` puts the current time behind the state. -/
theorem getPayloadFromCalcData_eq (d : CalculatorData K) :
    getPayloadFromCalcData d = withTime d.state d.currTime := rfl

/-- **One payload.**  The two builders agree on the block that was loaded and its time. -/
theorem normalizeVector_loadState (d : CalculatorData K) (y : Block K) :
    normalizeVector (loadState d y) NVAR d.currTime = getPayloadFromCalcData d := by
  rw [normalizeVector_eq, entries_loadState, getPayloadFromCalcData_eq]

end ClientCalculate
