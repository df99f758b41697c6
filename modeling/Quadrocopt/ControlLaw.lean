/-
# The control law and the plant (`calculate.c` of both programs)

The client integrates the model of the quadrocopter, `derivs`; the server computes the
four commands from the state and the reference, `server_calculations`.  Both are taken
over exact field arithmetic, each with its own copy of the physical constants.

The control law is a feedback linearisation: with its commands the height and the yaw
obey `V3` and `V4`, and the fourth derivatives of the two horizontal coordinates along
the plant are `V1` and `V2` (`feedback_linearisation`).  The only division by
something other than a constant is by `g + V3`, the vertical thrust per unit of mass.

The reference generator, `tanRh`, is the same file in both programs; it is written over
an algebra, so that it may be run on polynomials.

Vectors that the source indexes from `1` are indexed from `0` here.
-/
import Mathlib.Algebra.Algebra.Defs
import Mathlib.Algebra.CharZero.Defs
import Mathlib.Algebra.Field.Rat
import Mathlib.Data.Fin.VecNotation
import Mathlib.Tactic.FieldSimp
import Mathlib.Tactic.LinearCombination
import Mathlib.Tactic.NormNum

/-! ## The plant -/

namespace ClientCalculate

variable {K : Type*} [Field K]

/-- The mass. -/
def m : K := 53 / 100

/-- The gravity. -/
def g : K := 981 / 100

/-- The inertia around the first axis. -/
def Ix : K := 623 / 100000

/-- The inertia around the second axis. -/
def Iy : K := 623 / 100000

/-- The inertia around the third axis. -/
def Iz : K := 12 / 1000

/-- `derivs`: the derivative of the twelve state variables under the command `u`. -/
def derivs (_t : K) (X : Fin 12 → K) (u : Fin 4 → K) : Fin 12 → K :=
  let dotX := X 1
  let dotY := X 3
  let dotZ := X 5
  let theta := X 6
  let dotTheta := X 7
  let phi := X 8
  let dotPhi := X 9
  let dotPsy := X 11
  let ddotX := theta * u 0 / m
  let ddotY := -phi * u 0 / m
  let ddotZ := u 0 / m - g
  let ddotTheta := u 1 / Ix
  let ddotPhi := u 2 / Iy
  let ddotPsy := u 3 / Iz
  ![dotX, ddotX, dotY, ddotY, dotZ, ddotZ,
    dotTheta, ddotTheta, dotPhi, ddotPhi, dotPsy, ddotPsy]

/-- The globals `U1` to `U4`. -/
structure Commands (K : Type*) where
  U1 : K
  U2 : K
  U3 : K
  U4 : K

/-- `set_u`. -/
def setU {K : Type*} (uArr : Fin 4 → K) : Commands K := ⟨uArr 0, uArr 1, uArr 2, uArr 3⟩

end ClientCalculate

/-! ## The names -/

/-- The thirteen quantities, under the names that both programs use. -/
structure Names (K : Type*) where
  x : K
  dotX : K
  y : K
  dotY : K
  z : K
  dotZ : K
  theta : K
  dotTheta : K
  phi : K
  dotPhi : K
  psy : K
  dotPsy : K
  t : K

/-! ## The control law -/

namespace ServerCalculate

/-- The reference and its first four derivatives, as `tanRh` returns them. -/
structure RefTraj (K : Type*) where
  ref : K
  dotref : K
  ddotref : K
  d3dotref : K
  d4dotref : K

/-! ### The reference generator -/

section Generator

variable {K A : Type*} [Field K] [CommRing A] [Algebra K A]

/-- The body of `tanRh`, from the value of `phi` on. -/
def tanRhAt (st lowVal highVal : K) (phi : A) : RefTraj A :=
  let aR := algebraMap K A ((highVal - lowVal) / 2)
  let st := algebraMap K A st
  let phi2_1 := 1 - phi * phi
  let st2 := st * st
  let res1 := aR * (1 + phi) + algebraMap K A lowVal
  let dres := aR * st * phi2_1
  let ddres := 2 * aR * st2 * phi * phi2_1
  let st2 := st2 * st
  let dddres := -2 * aR * st2 * phi2_1 * (1 - 3 * phi * phi)
  let st2 := st2 * st
  let ddddres := 8 * aR * st2 * phi * (3 * phi ^ 4 - 5 * phi * phi + 2)
  { ref := res1, dotref := dres, ddotref := ddres, d3dotref := dddres, d4dotref := ddddres }

/-- `tanRh` of `nrutil.c`, for a given function in place of `tanh`. -/
def tanRh (tanh : K → K) (t st lowVal highVal tRaise : K) : RefTraj K :=
  tanRhAt st lowVal highVal (tanh (st * (t - tRaise)))

end Generator

/-! ### The commands -/

/-- The quantities that `server_calculations` computes on its way. -/
structure Locals (K : Type*) where
  V3 : K
  U1 : K
  dotV3 : K
  dotU1 : K
  ddotV3 : K
  ddotX : K
  d3dotX : K
  V1 : K
  U2 : K
  ddotY : K
  d3dotY : K
  V2 : K
  U3 : K
  V4 : K
  U4 : K

variable {K : Type*} [Field K]

/-- The mass. -/
def m : K := 53 / 100

/-- The gravity. -/
def g : K := 981 / 100

/-- The inertia around the first axis. -/
def Ix : K := 623 / 100000

/-- The inertia around the second axis. -/
def Iy : K := 623 / 100000

/-- The inertia around the third axis. -/
def Iz : K := 12 / 1000

/-- The low end of the reference trajectory. -/
def LowVal : K := 0

/-- The high end of the reference trajectory. -/
def HighVal : K := 10

/-- The steepness of the reference trajectory. -/
def sigma : K := 1

/-- The middle of the rise of the reference trajectory. -/
def TRaise : K := 5

/-- The gains of the horizontal coordinates. -/
def L0 : K := 810000

@[inherit_doc L0] def L1 : K := 108000

@[inherit_doc L0] def L2 : K := 5400

@[inherit_doc L0] def L3 : K := 120

/-- The gains of the height. -/
def L0z : K := 30

@[inherit_doc L0z] def L1z : K := 30

/-- The gains of the yaw. -/
def L0psy : K := 125

@[inherit_doc L0psy] def L1psy : K := 125

/-- The body of `server_calculations`, from the parameters received and the reference. -/
def locals (refTrajSt : RefTraj K) (params : Fin 13 → K) : Locals K :=
  let x := params 0
  let dotX := params 1
  let y := params 2
  let dotY := params 3
  let z := params 4
  let dotZ := params 5
  let theta := params 6
  let dotTheta := params 7
  let phi := params 8
  let dotPhi := params 9
  let psy := params 10
  let dotPsy := params 11
  let ref := refTrajSt.ref
  let dotref := refTrajSt.dotref
  let ddotref := refTrajSt.ddotref
  let d3dotref := refTrajSt.d3dotref
  let d4dotref := refTrajSt.d4dotref
  -- `U1`
  let ez := z - ref
  let dotEz := dotZ - dotref
  let V3 := ddotref - L0z * ez - L1z * dotEz
  let U1 := m * (g + V3)
  let dotV3 := d3dotref - L0z * dotEz - L1z * (-g + U1 / m - ddotref)
  let dotU1 := m * dotV3
  let ddotV3 := d4dotref - L0z * (-g + U1 / m - ddotref) - L1z * (dotU1 / m - d3dotref)
  -- `U2`
  let ddotX := (theta * U1) / m
  let d3dotX := (dotTheta * U1 + theta * dotU1) / m
  let ex := x - ref
  let dotEx := dotX - dotref
  let ddotEx := ddotX - ddotref
  let d3dotEx := d3dotX - d3dotref
  let V1 := d4dotref - L0 * ex - L1 * dotEx - L2 * ddotEx - L3 * d3dotEx
  let U2 := (Ix / (g + V3)) * (V1 - 2 * dotTheta * dotV3 - theta * ddotV3)
  -- `U3`
  let ddotY := -(phi * U1) / m
  let d3dotY := -(dotPhi * U1 + phi * dotU1) / m
  let ey := y - ref
  let dotEy := dotY - dotref
  let ddotEy := ddotY - ddotref
  let d3dotEy := d3dotY - d3dotref
  let V2 := d4dotref - L0 * ey - L1 * dotEy - L2 * ddotEy - L3 * d3dotEy
  let U3 := -(Iy / (g + V3)) * (V2 + 2 * dotPhi * dotV3 + phi * ddotV3)
  -- `U4`
  let epsy := psy - ref
  let dotEpsy := dotPsy - dotref
  let V4 := ddotref - L0psy * epsy - L1psy * dotEpsy
  let U4 := Iz * V4
  { V3, U1, dotV3, dotU1, ddotV3, ddotX, d3dotX, V1, U2, ddotY, d3dotY, V2, U3, V4, U4 }

/-- The names that `server_calculations` gives to its parameters. -/
def names {K : Type*} (params : Fin 13 → K) : Names K where
  x := params 0
  dotX := params 1
  y := params 2
  dotY := params 3
  z := params 4
  dotZ := params 5
  theta := params 6
  dotTheta := params 7
  phi := params 8
  dotPhi := params 9
  psy := params 10
  dotPsy := params 11
  t := params 12

/-- The four commands. -/
def Locals.res (v : Locals K) : Fin 4 → K := ![v.U1, v.U2, v.U3, v.U4]

/-- `server_calculations`, with the reference generator `tanRh` as a parameter. -/
def serverCalculations (tanRh : K → K → K → K → K → RefTraj K) (params : Fin 13 → K) :
    Fin 4 → K :=
  (locals (tanRh (params 12) sigma LowVal HighVal TRaise) params).res

/-! ### The divisions -/

/-- A division, with no value where the divisor is zero. -/
def safeDiv [DecidableEq K] (a b : K) : Option K := if b = 0 then none else some (a / b)

/-- The body of `server_calculations` once more, with every division checked. -/
def checkedLocals [DecidableEq K] (refTrajSt : RefTraj K) (params : Fin 13 → K) :
    Option (Locals K) := do
  let x := params 0
  let dotX := params 1
  let y := params 2
  let dotY := params 3
  let z := params 4
  let dotZ := params 5
  let theta := params 6
  let dotTheta := params 7
  let phi := params 8
  let dotPhi := params 9
  let psy := params 10
  let dotPsy := params 11
  let ref := refTrajSt.ref
  let dotref := refTrajSt.dotref
  let ddotref := refTrajSt.ddotref
  let d3dotref := refTrajSt.d3dotref
  let d4dotref := refTrajSt.d4dotref
  -- `U1`
  let ez := z - ref
  let dotEz := dotZ - dotref
  let V3 := ddotref - L0z * ez - L1z * dotEz
  let U1 := m * (g + V3)
  let dotV3 := d3dotref - L0z * dotEz - L1z * (-g + (← safeDiv U1 m) - ddotref)
  let dotU1 := m * dotV3
  let ddotV3 := d4dotref - L0z * (-g + (← safeDiv U1 m) - ddotref)
    - L1z * ((← safeDiv dotU1 m) - d3dotref)
  -- `U2`
  let ddotX ← safeDiv (theta * U1) m
  let d3dotX ← safeDiv (dotTheta * U1 + theta * dotU1) m
  let ex := x - ref
  let dotEx := dotX - dotref
  let ddotEx := ddotX - ddotref
  let d3dotEx := d3dotX - d3dotref
  let V1 := d4dotref - L0 * ex - L1 * dotEx - L2 * ddotEx - L3 * d3dotEx
  let U2 := (← safeDiv Ix (g + V3)) * (V1 - 2 * dotTheta * dotV3 - theta * ddotV3)
  -- `U3`
  let ddotY ← safeDiv (-(phi * U1)) m
  let d3dotY ← safeDiv (-(dotPhi * U1 + phi * dotU1)) m
  let ey := y - ref
  let dotEy := dotY - dotref
  let ddotEy := ddotY - ddotref
  let d3dotEy := d3dotY - d3dotref
  let V2 := d4dotref - L0 * ey - L1 * dotEy - L2 * ddotEy - L3 * d3dotEy
  let U3 := -(← safeDiv Iy (g + V3)) * (V2 + 2 * dotPhi * dotV3 + phi * ddotV3)
  -- `U4`
  let epsy := psy - ref
  let dotEpsy := dotPsy - dotref
  let V4 := ddotref - L0psy * epsy - L1psy * dotEpsy
  let U4 := Iz * V4
  return { V3, U1, dotV3, dotU1, ddotV3, ddotX, d3dotX, V1, U2, ddotY, d3dotY, V2, U3, V4, U4 }

/-- `server_calculations` with every division checked. -/
def checkedCalculations [DecidableEq K] (tanRh : K → K → K → K → K → RefTraj K)
    (params : Fin 13 → K) : Option (Fin 4 → K) :=
  (checkedLocals (tanRh (params 12) sigma LowVal HighVal TRaise) params).map Locals.res

end ServerCalculate

/-! ## The control law against the plant -/

namespace ControlLaw

open ServerCalculate

variable {K : Type*} [Field K]

/-- The state of the plant in the parameters sent to the server: all but the time. -/
def plantState (params : Fin 13 → K) : Fin 12 → K := fun i => params i.castSucc

/-- What the client's `derivs` returns for the state in the parameters and the commands
that the server computes for them, with given values in place of `tanRh`'s results. -/
def closedLoop (refTrajSt : RefTraj K) (params : Fin 13 → K) : Fin 12 → K :=
  ClientCalculate.derivs (params 12) (plantState params)
    (serverCalculations (fun _ _ _ _ _ => refTrajSt) params)

variable (refTrajSt : RefTraj K) (params : Fin 13 → K)

/-! ### What the two programs compute in the same way -/

theorem ddotX_eq : (locals refTrajSt params).ddotX = closedLoop refTrajSt params 1 := rfl

theorem ddotY_eq : (locals refTrajSt params).ddotY = closedLoop refTrajSt params 3 := by
  show -(params 8 * (locals refTrajSt params).U1) / m
    = -(params 8) * (locals refTrajSt params).U1 / m
  rw [neg_mul]

theorem U2_eq : (locals refTrajSt params).U2
    = Ix / (g + (locals refTrajSt params).V3) * ((locals refTrajSt params).V1
      - 2 * params 7 * (locals refTrajSt params).dotV3
      - params 6 * (locals refTrajSt params).ddotV3) := rfl

theorem U3_eq : (locals refTrajSt params).U3
    = -(Iy / (g + (locals refTrajSt params).V3)) * ((locals refTrajSt params).V2
      + 2 * params 9 * (locals refTrajSt params).dotV3
      + params 8 * (locals refTrajSt params).ddotV3) := rfl

/-! ### What the plant makes of the commands -/

section CharZero

variable [CharZero K]

theorem m_ne_zero : (m : K) ≠ 0 := by norm_num [m]

theorem Ix_ne_zero : (Ix : K) ≠ 0 := by norm_num [Ix]

theorem Iy_ne_zero : (Iy : K) ≠ 0 := by norm_num [Iy]

theorem Iz_ne_zero : (Iz : K) ≠ 0 := by norm_num [Iz]

/-- The thrust per unit of mass. -/
theorem U1_div_m : (locals refTrajSt params).U1 / m = g + (locals refTrajSt params).V3 :=
  mul_div_cancel_left₀ _ m_ne_zero

/-- The two programs agree on the mass and on the inertias, so the client divides by what
the server multiplied by. -/
theorem ddotZ_eq : closedLoop refTrajSt params 5 = (locals refTrajSt params).V3 := by
  show (locals refTrajSt params).U1 / m - g = _
  rw [U1_div_m]
  exact add_sub_cancel_left _ _

theorem ddotPsy_eq : closedLoop refTrajSt params 11 = (locals refTrajSt params).V4 := by
  show (Iz * (locals refTrajSt params).V4) / Iz = _
  exact mul_div_cancel_left₀ _ Iz_ne_zero

/-- The server's vertical acceleration is the plant's. -/
theorem neg_g_add_eq :
    -g + (locals refTrajSt params).U1 / m = closedLoop refTrajSt params 5 := by
  rw [U1_div_m, ddotZ_eq]
  exact neg_add_cancel_left _ _

theorem dotV3_eq :
    (locals refTrajSt params).dotV3
      = refTrajSt.d3dotref - L0z * (params 5 - refTrajSt.dotref)
        - L1z * (closedLoop refTrajSt params 5 - refTrajSt.ddotref) := by
  rw [← neg_g_add_eq]
  rfl

theorem ddotV3_eq :
    (locals refTrajSt params).ddotV3
      = refTrajSt.d4dotref - L0z * (closedLoop refTrajSt params 5 - refTrajSt.ddotref)
        - L1z * ((locals refTrajSt params).dotV3 - refTrajSt.d3dotref) := by
  have hdotU1 : (locals refTrajSt params).dotU1 / m = (locals refTrajSt params).dotV3 :=
    mul_div_cancel_left₀ _ m_ne_zero
  rw [← neg_g_add_eq, ← hdotU1]
  rfl

/-- The pitch acceleration, times the thrust per unit of mass. -/
theorem ddotTheta_mul (hV3 : g + (locals refTrajSt params).V3 ≠ 0) :
    closedLoop refTrajSt params 7 * (g + (locals refTrajSt params).V3)
      = (locals refTrajSt params).V1 - 2 * params 7 * (locals refTrajSt params).dotV3
        - params 6 * (locals refTrajSt params).ddotV3 := by
  show (locals refTrajSt params).U2 / Ix * _ = _
  have hIx : (Ix : K) ≠ 0 := Ix_ne_zero
  rw [U2_eq]
  field_simp

/-- The roll acceleration, times the thrust per unit of mass. -/
theorem ddotPhi_mul (hV3 : g + (locals refTrajSt params).V3 ≠ 0) :
    closedLoop refTrajSt params 9 * (g + (locals refTrajSt params).V3)
      = -((locals refTrajSt params).V2 + 2 * params 9 * (locals refTrajSt params).dotV3
        + params 8 * (locals refTrajSt params).ddotV3) := by
  show (locals refTrajSt params).U3 / Iy * _ = _
  have hIy : (Iy : K) ≠ 0 := Iy_ne_zero
  rw [U3_eq]
  field_simp

/-- **Feedback linearisation.**  Whatever the state and the reference, as long as
`g + V3` is not zero: under the commands of the server the plant's height and yaw obey
`V3` and `V4`, the server's horizontal accelerations are the plant's, `dotV3` and
`ddotV3` are the derivatives of `V3` along the plant, and the fourth derivatives of the
horizontal coordinates, those of `theta * (g + V3)` and `-(phi * (g + V3))` taken
twice, are `V1` and `V2`. -/
theorem feedback_linearisation (hV3 : g + (locals refTrajSt params).V3 ≠ 0) :
    closedLoop refTrajSt params 5 = (locals refTrajSt params).V3
      ∧ closedLoop refTrajSt params 11 = (locals refTrajSt params).V4
      ∧ (locals refTrajSt params).ddotX = closedLoop refTrajSt params 1
      ∧ (locals refTrajSt params).ddotY = closedLoop refTrajSt params 3
      ∧ (locals refTrajSt params).dotV3
          = refTrajSt.d3dotref - L0z * (params 5 - refTrajSt.dotref)
            - L1z * (closedLoop refTrajSt params 5 - refTrajSt.ddotref)
      ∧ (locals refTrajSt params).ddotV3
          = refTrajSt.d4dotref - L0z * (closedLoop refTrajSt params 5 - refTrajSt.ddotref)
            - L1z * ((locals refTrajSt params).dotV3 - refTrajSt.d3dotref)
      ∧ closedLoop refTrajSt params 7 * (g + (locals refTrajSt params).V3)
          + 2 * params 7 * (locals refTrajSt params).dotV3
          + params 6 * (locals refTrajSt params).ddotV3 = (locals refTrajSt params).V1
      ∧ -(closedLoop refTrajSt params 9 * (g + (locals refTrajSt params).V3)
          + 2 * params 9 * (locals refTrajSt params).dotV3
          + params 8 * (locals refTrajSt params).ddotV3) = (locals refTrajSt params).V2 := by
  refine ⟨ddotZ_eq _ _, ddotPsy_eq _ _, ddotX_eq _ _, ddotY_eq _ _, dotV3_eq _ _,
    ddotV3_eq _ _, ?_, ?_⟩
  · linear_combination ddotTheta_mul refTrajSt params hV3
  · linear_combination -ddotPhi_mul refTrajSt params hV3

/-! ### Where the commands are defined -/

section Divisions

variable [DecidableEq K]

omit [CharZero K] in
theorem safeDiv_of_ne {a b : K} (h : b ≠ 0) : safeDiv a b = some (a / b) := if_neg h

omit [CharZero K] in
theorem safeDiv_zero (a : K) : safeDiv a 0 = none := if_pos rfl

/-- The checked evaluation fails at the thrust, and nowhere else. -/
theorem checkedLocals_eq : checkedLocals refTrajSt params
    = if g + (locals refTrajSt params).V3 = 0 then none else some (locals refTrajSt params) := by
  have hm : (m : K) ≠ 0 := m_ne_zero
  unfold checkedLocals
  simp only [safeDiv_of_ne hm, Option.pure_def, Option.bind_eq_bind, Option.bind_some]
  by_cases hthrust : g + (locals refTrajSt params).V3 = 0
  · rw [if_pos hthrust]
    have hU2 := safeDiv_zero (Ix : K)
    rw [← hthrust] at hU2
    exact congrArg (Option.bind · _) hU2
  · rw [if_neg hthrust]
    refine (congrArg (Option.bind · _) (safeDiv_of_ne (a := Ix) hthrust)).trans ?_
    exact congrArg (Option.bind · _) (safeDiv_of_ne (a := Iy) hthrust)

/-- Where they are defined, the commands are those of `server_calculations`. -/
theorem checkedCalculations_eq (tanRh : K → K → K → K → K → RefTraj K) :
    checkedCalculations tanRh params
      = if g + (locals (tanRh (params 12) sigma LowVal HighVal TRaise) params).V3 = 0 then none
        else some (serverCalculations tanRh params) := by
  rw [checkedCalculations, checkedLocals_eq]
  split
  · rfl
  · rfl

/-- The divisors of `server_calculations` are not zero, and its commands have values. -/
structure CommandsDefined (tanRh : K → K → K → K → K → RefTraj K) (params : Fin 13 → K) :
    Prop where
  m_ne_zero : (m : K) ≠ 0
  thrust_ne_zero : g + (locals (tanRh (params 12) sigma LowVal HighVal TRaise) params).V3 ≠ 0
  commands : checkedCalculations tanRh params = some (serverCalculations tanRh params)

/-- **Where the commands are defined.**  Off one hyperplane of the height and the vertical
speed, for any reference and whatever the other parameters are. -/
theorem commandsDefined_iff (tanRh : K → K → K → K → K → RefTraj K) :
    let refTrajSt := tanRh (params 12) sigma LowVal HighVal TRaise
    CommandsDefined tanRh params
      ↔ L0z * (params 4 - refTrajSt.ref) + L1z * (params 5 - refTrajSt.dotref)
          - refTrajSt.ddotref ≠ g := by
  intro refTrajSt
  have hV3 : g + (locals refTrajSt params).V3
      = g - (L0z * (params 4 - refTrajSt.ref) + L1z * (params 5 - refTrajSt.dotref)
          - refTrajSt.ddotref) := by
    show g + (refTrajSt.ddotref - L0z * (params 4 - refTrajSt.ref)
      - L1z * (params 5 - refTrajSt.dotref)) = _
    linear_combination
  have hthrust : g + (locals refTrajSt params).V3 ≠ 0
      ↔ L0z * (params 4 - refTrajSt.ref) + L1z * (params 5 - refTrajSt.dotref)
          - refTrajSt.ddotref ≠ g := by
    rw [hV3, sub_ne_zero, ne_comm]
  constructor
  · rintro ⟨-, hne, -⟩
    exact hthrust.mp hne
  · intro hne
    refine ⟨m_ne_zero, hthrust.mpr hne, ?_⟩
    rw [checkedCalculations_eq, if_neg (hthrust.mpr hne)]

end Divisions

end CharZero

/-! ### Inputs -/

/-- A state off the reference in every coordinate, in the middle of the rise. -/
def midwayParams : Fin 13 → ℚ :=
  ![1, -2, 3, 1 / 2, 4, 3, 1 / 8, -1 / 4, 1 / 16, 1 / 2, -1, 2, TRaise]

/-- The reference of that time. -/
def midwayRef : RefTraj ℚ := ⟨5, 5, 0, -10, 0⟩

/-- The argument of `tanh` is `0` there. -/
theorem tanRh_midway : tanRh id (midwayParams 12) sigma LowVal HighVal TRaise = midwayRef := by
  show tanRh id TRaise sigma LowVal HighVal TRaise = ⟨5, 5, 0, -10, 0⟩
  norm_num [tanRh, tanRhAt, sigma, LowVal, HighVal, TRaise]

theorem midway_V3 : (locals midwayRef midwayParams).V3 = 90 := by
  show 0 - L0z * (4 - 5) - L1z * (3 - 5) = (90 : ℚ)
  norm_num [L0z, L1z]

/-- There the commands are defined. -/
theorem commandsDefined_midway : CommandsDefined (tanRh id) midwayParams :=
  (commandsDefined_iff midwayParams (tanRh id)).mpr (by
    rw [tanRh_midway]
    show L0z * (4 - 5) + L1z * (3 - 5) - 0 ≠ (g : ℚ)
    norm_num [L0z, L1z, g])

/-- Where the thrust vanishes the code divides by zero. -/
theorem not_commandsDefined {tanRh : ℚ → ℚ → ℚ → ℚ → ℚ → RefTraj ℚ} {params : Fin 13 → ℚ}
    (hthrust : g + (locals (tanRh (params 12) sigma LowVal HighVal TRaise) params).V3 = 0) :
    checkedCalculations tanRh params = none ∧ ¬CommandsDefined tanRh params := by
  refine ⟨?_, fun h => h.thrust_ne_zero hthrust⟩
  rw [checkedCalculations_eq, if_pos hthrust]

/-- The code divides by zero at the origin, where the reference is `0.327` below it; and with its
own reference in the middle of the rise, at the speed of the reference and `0.327` above it. -/
theorem commandsDefined_fails_at :
    (let tanRh : ℚ → ℚ → ℚ → ℚ → ℚ → RefTraj ℚ := fun _ _ _ _ _ => ⟨-327 / 1000, 0, 0, 0, 0⟩
      let params : Fin 13 → ℚ := fun _ => 0
      checkedCalculations tanRh params = none ∧ ¬CommandsDefined tanRh params)
      ∧ let params : Fin 13 → ℚ := ![0, 0, 0, 0, 5 + 327 / 1000, 5, 0, 0, 0, 0, 0, 0, TRaise]
        checkedCalculations (tanRh id) params = none ∧ ¬CommandsDefined (tanRh id) params := by
  constructor
  · apply not_commandsDefined
    norm_num [locals, L0z, L1z, g]
  · intro params
    apply not_commandsDefined
    have hz : params 4 = 5 + 327 / 1000 := rfl
    have hdotZ : params 5 = 5 := rfl
    have ht : params 12 = TRaise := rfl
    norm_num [locals, hz, hdotZ, ht, tanRh, tanRhAt, sigma, LowVal, HighVal, TRaise, L0z, L1z, g]

/-- All of it midway. -/
theorem feedback_linearisation_midway :
    let v := locals midwayRef midwayParams
    let dXdt := closedLoop midwayRef midwayParams
    g + v.V3 ≠ 0 ∧ dXdt 5 = v.V3 ∧ dXdt 11 = v.V4 ∧ v.ddotX = dXdt 1 ∧ v.ddotY = dXdt 3
      ∧ v.dotV3 = -10 - L0z * (3 - 5) - L1z * (dXdt 5 - 0)
      ∧ v.ddotV3 = 0 - L0z * (dXdt 5 - 0) - L1z * (v.dotV3 - -10)
      ∧ dXdt 7 * (g + v.V3) + 2 * (-1 / 4) * v.dotV3 + 1 / 8 * v.ddotV3 = v.V1
      ∧ -(dXdt 9 * (g + v.V3) + 2 * (1 / 2) * v.dotV3 + 1 / 16 * v.ddotV3) = v.V2 := by
  intro v dXdt
  have hV3 : g + v.V3 ≠ 0 := by
    rw [midway_V3]
    norm_num [g]
  exact ⟨hV3, feedback_linearisation midwayRef midwayParams hV3⟩

end ControlLaw
