/-
# The integrator (`get_next_step` of the client)

One iteration of `do_client_calculations` integrates the closed loop over one step.  The
source keeps the stages in the blocks `yt`, `dydx`, `dyt` and `dym`, reuses two of them,
and passes each command through the globals that `set_u` writes; the exchange with the
server, `get_u`, is a parameter here, and the payloads it is called with are kept.

Whatever the blocks hold at first, the step is the classical fourth-order Runge-Kutta step
of the plant under the commands that `get_u` returns, and `get_u` is called at its four
stages, in their order (`getNextStep_eq_rungeKutta`).
-/
import Mathlib
import Quadrocopt.CalculatorData
import Quadrocopt.ControlLaw
import Quadrocopt.RungeKutta

namespace ClientCalculate

variable {K : Type*} [Field K]

/-! ## The plant, as it is called -/

/-- What `derivs` leaves behind: the globals and the block that it fills. -/
structure Derivs (K : Type*) where
  U : Commands K
  dXdt : Block K

/-- `derivs`, on blocks that are indexed from `1`. -/
def derivsBlock (_t : K) (X dXdt : Block K) (u : Fin 4 → K) : Derivs K :=
  let dotX := X 2
  let dotY := X 4
  let dotZ := X 6
  let theta := X 7
  let dotTheta := X 8
  let phi := X 9
  let dotPhi := X 10
  let dotPsy := X 12
  let U := setU u
  let ddotX := theta * U.U1 / m
  let ddotY := -phi * U.U1 / m
  let ddotZ := U.U1 / m - g
  let ddotTheta := U.U2 / Ix
  let ddotPhi := U.U3 / Iy
  let ddotPsy := U.U4 / Iz
  { U
    dXdt := fun
      | 1 => dotX
      | 2 => ddotX
      | 3 => dotY
      | 4 => ddotY
      | 5 => dotZ
      | 6 => ddotZ
      | 7 => dotTheta
      | 8 => ddotTheta
      | 9 => dotPhi
      | 10 => ddotPhi
      | 11 => dotPsy
      | 12 => ddotPsy
      | i => dXdt i }

/-- The entries of the block are the derivatives of the entries of the state. -/
theorem entries_derivsBlock (t : K) (X dXdt : Block K) (u : Fin 4 → K) :
    Block.entries (derivsBlock t X dXdt u).dXdt = derivs t X.entries u := by
  funext i
  fin_cases i <;> rfl

/-! ## One step -/

/-- The blocks that `get_next_step` allocates, with whatever they hold. -/
structure Blocks (K : Type*) where
  y : Block K
  yout : Block K
  dydx : Block K
  dym : Block K
  dyt : Block K
  yt : Block K

/-- What `get_next_step` leaves behind: the calculator's data, the globals, and the payloads
with which it has called `get_u`. -/
structure NextStep (K : Type*) where
  calcData : CalculatorData K
  U : Commands K
  asked : List (List.Vector K 13)

/-- `get_next_step`, with the function `getU` in place of the exchange with the server. -/
def getNextStep (getU : List.Vector K 13 → Fin 4 → K) (blocks : Blocks K)
    (calcData : CalculatorData K) : NextStep K :=
  let y := loadState calcData blocks.y
  let ti := calcData.currTime
  let step := calcData.step
  let payload := getPayloadFromCalcData calcData
  let u := getU payload
  let asked := [payload]
  let dydx := (derivsBlock ti y blocks.dydx u).dXdt
  let x := ti
  let h := step
  let hh := h * (1 / (2 : ℕ))
  let h6 := h / (6 : ℕ)
  let xh := x + hh
  let yt := forLoop NVAR (fun i yt => Function.update yt i (y i + hh * dydx i)) blocks.yt
  let nVec := normalizeVector yt NVAR xh
  let u := getU nVec
  let asked := asked ++ [nVec]
  let dyt := (derivsBlock xh yt blocks.dyt u).dXdt
  let yt := forLoop NVAR (fun i yt => Function.update yt i (y i + hh * dyt i)) yt
  let nVec := normalizeVector yt NVAR xh
  let u := getU nVec
  let asked := asked ++ [nVec]
  let dym := (derivsBlock xh yt blocks.dym u).dXdt
  -- from here on `dym` holds the sum of the two stages in the middle
  let ytDym := forLoop NVAR (fun i (p : Block K × Block K) =>
    (Function.update p.1 i (y i + h * p.2 i), Function.update p.2 i (p.2 i + dyt i))) (yt, dym)
  let yt := ytDym.1
  let dym := ytDym.2
  let nVec := normalizeVector yt NVAR (x + h)
  let u := getU nVec
  let asked := asked ++ [nVec]
  let derivs := derivsBlock (x + h) yt dyt u
  let dyt := derivs.dXdt
  let yout := forLoop NVAR
    (fun i yout => Function.update yout i (y i + h6 * (dydx i + dyt i + (2 : ℕ) * dym i))) blocks.yout
  { calcData := setCalcData calcData yout, U := derivs.U, asked }

/-! ## The blocks, by their entries -/

omit [Field K] in
/-- The entries of a block that a loop has written. -/
theorem entries_written (f a : Block K) :
    Block.entries (written NVAR f a) = Block.entries f := by
  funext i
  have hi : (i : ℕ) + 1 ≤ NVAR := i.isLt
  rw [Block.entries, written, if_pos ⟨Nat.le_add_left 1 i, hi⟩]
  rfl

/-- The loop that extrapolates the state along a derivative. -/
theorem entries_extrapolate (y k a : Block K) (c : K) :
    Block.entries (forLoop NVAR (fun i yt => Function.update yt i (y i + c * k i)) a)
      = Block.entries y + c • Block.entries k := by
  rw [forLoop_update NVAR (fun i => y i + c * k i), entries_written]
  rfl

/-- The loop that extrapolates along the third derivative and adds the second to it. -/
theorem entries_extrapolate_add (y k l a : Block K) (c : K) :
    let p := forLoop NVAR (fun i (p : Block K × Block K) =>
      (Function.update p.1 i (y i + c * p.2 i), Function.update p.2 i (p.2 i + l i))) (a, k)
    Block.entries p.1 = Block.entries y + c • Block.entries k
      ∧ Block.entries p.2 = Block.entries k + Block.entries l := by
  intro p
  have hp : p = _ :=
    forLoop_update_pair NVAR (fun i ki => y i + c * ki) (fun i ki => ki + l i) a k
  rw [hp]
  constructor
  · rw [entries_written]
    rfl
  · rw [entries_written]
    rfl

/-- The loop that combines the derivatives, with a weight for the stages in the middle. -/
theorem entries_combine (y k₁ k₄ k₂₃ a : Block K) (c : K) (n : ℕ) :
    Block.entries (forLoop NVAR
        (fun i yout => Function.update yout i (y i + c * (k₁ i + k₄ i + n * k₂₃ i))) a)
      = Block.entries y
        + c • (Block.entries k₁ + Block.entries k₄ + n • Block.entries k₂₃) := by
  rw [forLoop_update NVAR (fun i => y i + c * (k₁ i + k₄ i + n * k₂₃ i)), entries_written]
  funext i
  show y (i + 1) + c * (k₁ (i + 1) + k₄ (i + 1) + n * k₂₃ (i + 1))
    = y (i + 1) + c * (k₁ (i + 1) + k₄ (i + 1) + n • k₂₃ (i + 1))
  rw [nsmul_eq_mul]

/-- The closed loop: the plant at the time `s` and the state `Y`, under the command that
`get_u` returns for them. -/
def underCommands (getU : List.Vector K 13 → Fin 4 → K) (s : K) (Y : Fin 12 → K) : Fin 12 → K :=
  derivs s Y (getU (withTime Y s))

/-- One stage: the command is that for the state and the time of the stage. -/
theorem entries_stage (getU : List.Vector K 13 → Fin 4 → K) (s : K) (X dXdt : Block K) :
    Block.entries (derivsBlock s X dXdt (getU (normalizeVector X NVAR s))).dXdt
      = underCommands getU s X.entries := by
  rw [entries_derivsBlock, normalizeVector_eq]
  rfl

open RungeKutta in
/-- **One step of the integrator is one Runge-Kutta step.**  For every function in place of
`get_u`, every state, time and step, and whatever the blocks hold at first: `get_next_step`
calls `get_u` at the four stages, in their order; the state it leaves is that of the
classical fourth-order step of the closed loop; and the other fields are unchanged. -/
theorem getNextStep_eq_rungeKutta (getU : List.Vector K 13 → Fin 4 → K) (blocks : Blocks K)
    (d : CalculatorData K) :
    let f := underCommands getU
    let t := d.currTime
    let h := d.step
    let Y := d.state
    (getNextStep getU blocks d).asked
        = [withTime Y t,
          withTime (Y + (h / 2) • k1 f t h Y) (t + h / 2),
          withTime (Y + (h / 2) • k2 f t h Y) (t + h / 2),
          withTime (Y + h • k3 f t h Y) (t + h)]
      ∧ (getNextStep getU blocks d).calcData.state = RungeKutta.step f t h Y
      ∧ (getNextStep getU blocks d).calcData.timeStart = d.timeStart
      ∧ (getNextStep getU blocks d).calcData.timeEnd = d.timeEnd
      ∧ (getNextStep getU blocks d).calcData.step = d.step
      ∧ (getNextStep getU blocks d).calcData.currTime = d.currTime := by
  intro f t h Y
  unfold getNextStep
  extract_lets y payload u₁ asked₁ dydx x h' hh h6 xh yt₁ nVec₁ u₂ asked₂ dyt₁ yt₂ nVec₂ u₃
    asked₃ dym₁ ytDym yt₃ dym₂ nVec₃ u₄ asked₄ derivs₄ dyt₂ yout
  have hhalf : hh = h / 2 := by
    show h * (1 / (2 : ℕ)) = h / 2
    rw [Nat.cast_ofNat, mul_one_div]
  have hsixth : h6 = h / 6 := by
    show h / (6 : ℕ) = h / 6
    rw [Nat.cast_ofNat]
  have hmiddle : xh = t + h / 2 := congrArg (t + ·) hhalf
  have hy : Block.entries y = Y := entries_loadState d blocks.y
  -- the four stages, one after the other
  have hpayload : payload = withTime Y t := getPayloadFromCalcData_eq d
  have hdydx : Block.entries dydx = k1 f t h Y := by
    show Block.entries (derivsBlock t y blocks.dydx (getU payload)).dXdt = _
    rw [entries_derivsBlock, hy, hpayload]
    rfl
  have hyt₁ : Block.entries yt₁ = Y + (h / 2) • k1 f t h Y :=
    calc Block.entries yt₁ = Block.entries y + hh • Block.entries dydx :=
          entries_extrapolate y dydx blocks.yt hh
      _ = Y + (h / 2) • k1 f t h Y := by rw [hy, hdydx, hhalf]
  have hdyt₁ : Block.entries dyt₁ = k2 f t h Y :=
    calc Block.entries dyt₁ = underCommands getU xh (Block.entries yt₁) :=
          entries_stage getU xh yt₁ blocks.dyt
      _ = k2 f t h Y := by rw [hyt₁, hmiddle, k2_eq]
  have hyt₂ : Block.entries yt₂ = Y + (h / 2) • k2 f t h Y :=
    calc Block.entries yt₂ = Block.entries y + hh • Block.entries dyt₁ :=
          entries_extrapolate y dyt₁ yt₁ hh
      _ = Y + (h / 2) • k2 f t h Y := by rw [hy, hdyt₁, hhalf]
  have hdym₁ : Block.entries dym₁ = k3 f t h Y :=
    calc Block.entries dym₁ = underCommands getU xh (Block.entries yt₂) :=
          entries_stage getU xh yt₂ blocks.dym
      _ = k3 f t h Y := by rw [hyt₂, hmiddle, k3_eq]
  obtain ⟨hsum, hsum'⟩ := entries_extrapolate_add y dym₁ dyt₁ yt₂ h
  have hyt₃ : Block.entries yt₃ = Y + h • k3 f t h Y :=
    calc Block.entries yt₃ = Block.entries y + h • Block.entries dym₁ := hsum
      _ = Y + h • k3 f t h Y := by rw [hy, hdym₁]
  have hdym₂ : Block.entries dym₂ = k3 f t h Y + k2 f t h Y :=
    calc Block.entries dym₂ = Block.entries dym₁ + Block.entries dyt₁ := hsum'
      _ = k3 f t h Y + k2 f t h Y := by rw [hdym₁, hdyt₁]
  have hdyt₂ : Block.entries dyt₂ = k4 f t h Y :=
    calc Block.entries dyt₂ = underCommands getU (t + h) (Block.entries yt₃) :=
          entries_stage getU (t + h) yt₃ dyt₁
      _ = k4 f t h Y := by
          rw [hyt₃]
          rfl
  have hyout : Block.entries yout = RungeKutta.step f t h Y :=
    calc Block.entries yout = Block.entries y + h6 • (Block.entries dydx
            + Block.entries dyt₂ + 2 • Block.entries dym₂) :=
          entries_combine y dydx dyt₂ dym₂ blocks.yout h6 2
      _ = RungeKutta.step f t h Y := by rw [hy, hdydx, hdyt₂, hdym₂, hsixth, step_eq]
  refine ⟨?_, ?_, rfl, rfl, rfl, rfl⟩
  · show [payload, nVec₁, nVec₂, nVec₃] = _
    have hnVec₁ : nVec₁ = withTime (Block.entries yt₁) xh := normalizeVector_eq yt₁ xh
    have hnVec₂ : nVec₂ = withTime (Block.entries yt₂) xh := normalizeVector_eq yt₂ xh
    have hnVec₃ : nVec₃ = withTime (Block.entries yt₃) (t + h) := normalizeVector_eq yt₃ (t + h)
    rw [hpayload, hnVec₁, hnVec₂, hnVec₃, hyt₁, hyt₂, hyt₃, hmiddle]
  · show (setCalcData d yout).state = _
    rw [state_setCalcData, hyout]

end ClientCalculate
