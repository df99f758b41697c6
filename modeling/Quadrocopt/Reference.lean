/-
# The reference generator (`tanRh` of `nrutil.c`)

`tanRh` returns the reference trajectory and what are meant to be its first four time
derivatives, as polynomials in `phi = tanh(st * (t - tRaise))`.  The file is the same in
the client and in the server.

The time derivative of `phi` is `st * (1 - phi ^ 2)`; extended to polynomials in `phi` by
linearity and the product rule it is the derivation `timeDerivative`, and it is the time
derivative of their values along any such `phi` (`hasDerivAt_eval`).

The first derivative and the last two are right; the second has the wrong sign, so that
neither it is the derivative of the first nor the third one the derivative of it
(`tanRhAt_derivatives_iff`).
-/
import Mathlib
import Quadrocopt.ControlLaw

namespace ServerCalculate

open Polynomial

variable {K : Type*} [Field K]

/-! ## The generator on polynomials -/

/-- The results as polynomials in `phi`. -/
noncomputable def tanRhPoly (st lowVal highVal : K) : RefTraj K[X] := tanRhAt st lowVal highVal X

/-- The results under a function. -/
def RefTraj.map {A B : Type*} (f : A → B) (r : RefTraj A) : RefTraj B where
  ref := f r.ref
  dotref := f r.dotref
  ddotref := f r.ddotref
  d3dotref := f r.d3dotref
  d4dotref := f r.d4dotref

/-- The results are the values of the polynomials at `phi`. -/
theorem map_eval_tanRhPoly (st lowVal highVal phi : K) :
    (tanRhPoly st lowVal highVal).map (eval phi) = tanRhAt st lowVal highVal phi := by
  unfold RefTraj.map
  congr 1 <;> simp [tanRhPoly, tanRhAt]

/-! ## The time derivative -/

/-- The time derivative of a polynomial in `phi`: linear, with the product rule, and
`st * (1 - phi ^ 2)` at `phi`. -/
noncomputable def timeDerivative (st : K) : Derivation K K[X] K[X] :=
  mkDerivation K (C st * (1 - X ^ 2))

theorem timeDerivative_apply (st : K) (p : K[X]) :
    timeDerivative st p = derivative p * (C st * (1 - X ^ 2)) := rfl

/-- **What the derivation means.**  Along a function with the time derivative of `phi`, the
values of a polynomial have the values of its `timeDerivative` as their derivative. -/
theorem hasDerivAt_eval {phi : ℝ → ℝ} {st t : ℝ} (p : ℝ[X])
    (h : HasDerivAt phi (st * (1 - phi t ^ 2)) t) :
    HasDerivAt (fun t => p.eval (phi t)) ((timeDerivative st p).eval (phi t)) t := by
  have heval : (timeDerivative st p).eval (phi t)
      = (derivative p).eval (phi t) * (st * (1 - phi t ^ 2)) := by
    simp [timeDerivative_apply]
  rw [heval]
  exact HasDerivAt.comp t (p.hasDerivAt (phi t)) h

/-! ## The four derivatives -/

section Derivatives

variable (st lowVal highVal : K)

theorem timeDerivative_ref :
    timeDerivative st (tanRhPoly st lowVal highVal).ref
      = (tanRhPoly st lowVal highVal).dotref := by
  simp only [timeDerivative_apply, tanRhPoly, tanRhAt, algebraMap_eq, derivative_add,
    derivative_mul, derivative_C, derivative_X, derivative_one]
  ring

/-- The second derivative has the wrong sign. -/
theorem timeDerivative_dotref :
    timeDerivative st (tanRhPoly st lowVal highVal).dotref
      = -(tanRhPoly st lowVal highVal).ddotref := by
  simp only [timeDerivative_apply, tanRhPoly, tanRhAt, algebraMap_eq, derivative_sub,
    derivative_mul, derivative_C, derivative_X, derivative_one]
  ring

theorem timeDerivative_ddotref :
    timeDerivative st (tanRhPoly st lowVal highVal).ddotref
      = -(tanRhPoly st lowVal highVal).d3dotref := by
  simp only [timeDerivative_apply, tanRhPoly, tanRhAt, algebraMap_eq, derivative_sub,
    derivative_mul, derivative_C, derivative_X, derivative_one, derivative_ofNat]
  ring

theorem timeDerivative_d3dotref :
    timeDerivative st (tanRhPoly st lowVal highVal).d3dotref
      = (tanRhPoly st lowVal highVal).d4dotref := by
  simp only [timeDerivative_apply, tanRhPoly, tanRhAt, algebraMap_eq, derivative_sub,
    derivative_mul, derivative_neg, derivative_C, derivative_X, derivative_one, derivative_ofNat]
  ring

/-- Each result is the time derivative of the one before it. -/
def Derivatives (st : K) (r : RefTraj K[X]) : Prop :=
  r.dotref = timeDerivative st r.ref
    ∧ r.ddotref = timeDerivative st r.dotref
    ∧ r.d3dotref = timeDerivative st r.ddotref
    ∧ r.d4dotref = timeDerivative st r.d3dotref

section CharZero

variable [CharZero K]

theorem two_mul_half : (2 : K[X]) * C ((highVal - lowVal) / 2) = C (highVal - lowVal) := by
  rw [← map_ofNat C 2, ← C_mul, mul_div_cancel₀ _ two_ne_zero]

/-- The second derivative, with its constants in front. -/
theorem ddotref_eq :
    (tanRhPoly st lowVal highVal).ddotref
      = C ((highVal - lowVal) * st ^ 2) * (X * (1 - X ^ 2)) := by
  simp only [tanRhPoly, tanRhAt, algebraMap_eq, C_mul, C_pow]
  linear_combination (C st ^ 2 * (X * (1 - X ^ 2))) * two_mul_half lowVal highVal

/-- The third derivative, with the same constants in front. -/
theorem d3dotref_eq :
    (tanRhPoly st lowVal highVal).d3dotref
      = C ((highVal - lowVal) * st ^ 2) * (C (-st) * ((1 - X ^ 2) * (1 - 3 * X ^ 2))) := by
  simp only [tanRhPoly, tanRhAt, algebraMap_eq, C_mul, C_pow, C_neg]
  linear_combination (-(C st ^ 3) * ((1 - X ^ 2) * (1 - 3 * X ^ 2)))
    * two_mul_half lowVal highVal

/-- The second derivative vanishes only with its constants. -/
theorem ddotref_eq_zero_iff :
    (tanRhPoly st lowVal highVal).ddotref = 0 ↔ (highVal - lowVal) * st ^ 2 = 0 := by
  have hshape : (X * (1 - X ^ 2) : K[X]) ≠ 0 := by
    intro hzero
    have hvalue := congrArg (eval 2) hzero
    norm_num at hvalue
  rw [ddotref_eq, mul_eq_zero, C_eq_zero]
  exact or_iff_left hshape

/-- **When the four results are the derivatives.**  For every value of the parameters, each
of the four results is the time derivative of the one before it if and only if the reference
is constant: the two ends agree, or the steepness is zero. -/
theorem tanRh_derivatives_iff :
    Derivatives st (tanRhPoly st lowVal highVal) ↔ highVal = lowVal ∨ st = 0 := by
  have hconstant : highVal = lowVal ∨ st = 0 ↔ (highVal - lowVal) * st ^ 2 = 0 := by
    rw [mul_eq_zero, sub_eq_zero, pow_eq_zero_iff two_ne_zero]
  rw [hconstant]
  constructor
  · rintro ⟨-, hddot, -, -⟩
    -- a polynomial that is its own negative is zero
    rw [timeDerivative_dotref] at hddot
    exact (ddotref_eq_zero_iff st lowVal highVal).mp (self_eq_neg.mp hddot)
  · intro hzero
    have hddot := (ddotref_eq_zero_iff st lowVal highVal).mpr hzero
    have hd3dot : (tanRhPoly st lowVal highVal).d3dotref = 0 := by
      rw [d3dotref_eq, hzero, C_0, zero_mul]
    refine ⟨(timeDerivative_ref st lowVal highVal).symm, ?_, ?_,
      (timeDerivative_d3dotref st lowVal highVal).symm⟩
    · rw [timeDerivative_dotref, hddot, neg_zero]
    · rw [timeDerivative_ddotref, hd3dot, neg_zero]

end CharZero

/-- A reference that stays at its low end has these derivatives, all zero. -/
theorem tanRh_derivatives_constant :
    Derivatives (1 : ℚ) (tanRhPoly 1 0 0) ∧ (tanRhPoly (1 : ℚ) 0 0).ddotref = 0 := by
  constructor
  · exact (tanRh_derivatives_iff 1 0 0).mpr (.inl rfl)
  · rw [ddotref_eq_zero_iff]
    norm_num

/-- With the server's own parameters the second derivative has the wrong sign, and is not
zero. -/
theorem tanRh_wrong_sign :
    timeDerivative (sigma : ℚ) (tanRhPoly sigma LowVal HighVal).dotref
        = -(tanRhPoly sigma LowVal HighVal).ddotref
      ∧ ¬ Derivatives (sigma : ℚ) (tanRhPoly sigma LowVal HighVal) := by
  have hsign := timeDerivative_dotref (sigma : ℚ) LowVal HighVal
  refine ⟨hsign, ?_⟩
  rintro ⟨-, hddot, -, -⟩
  rw [hsign] at hddot
  have hzero := (ddotref_eq_zero_iff (sigma : ℚ) LowVal HighVal).mp (self_eq_neg.mp hddot)
  norm_num [sigma, LowVal, HighVal] at hzero

end Derivatives

/-! ## The generator over the reals -/

/-- `phi` has the time derivative that the polynomials are differentiated with. -/
theorem hasDerivAt_tanh (st tRaise t : ℝ) :
    HasDerivAt (fun t => Real.tanh (st * (t - tRaise)))
      (st * (1 - Real.tanh (st * (t - tRaise)) ^ 2)) t := by
  have hinner : HasDerivAt (fun t => st * (t - tRaise)) st t := by
    simpa using ((hasDerivAt_id t).sub_const tRaise).const_mul st
  have hcosh : Real.cosh (st * (t - tRaise)) ≠ 0 := (Real.cosh_pos _).ne'
  have hquot := (hinner.sinh).div (hinner.cosh) hcosh
  simp only [Real.tanh_eq_sinh_div_cosh]
  refine hquot.congr_deriv ?_
  field_simp

/-- **The generator in time.**  Over the reals, along `t`: the second result is the derivative
of the first, the third and the fourth are the derivatives of those before them with the sign
reversed, and the fifth is the derivative of the fourth. -/
theorem hasDerivAt_tanRh (st lowVal highVal tRaise t : ℝ) :
    let r := fun t => tanRh Real.tanh t st lowVal highVal tRaise
    HasDerivAt (fun t => (r t).ref) (r t).dotref t
      ∧ HasDerivAt (fun t => (r t).dotref) (-(r t).ddotref) t
      ∧ HasDerivAt (fun t => (r t).ddotref) (-(r t).d3dotref) t
      ∧ HasDerivAt (fun t => (r t).d3dotref) (r t).d4dotref t := by
  intro r
  have hphi := hasDerivAt_tanh st tRaise t
  have hr : r = fun t =>
      (tanRhPoly st lowVal highVal).map (eval (Real.tanh (st * (t - tRaise)))) := by
    funext t
    exact (map_eval_tanRhPoly _ _ _ _).symm
  rw [hr]
  refine ⟨?_, ?_, ?_, ?_⟩
  · have h := hasDerivAt_eval (tanRhPoly st lowVal highVal).ref hphi
    rwa [timeDerivative_ref] at h
  · have h := hasDerivAt_eval (tanRhPoly st lowVal highVal).dotref hphi
    rwa [timeDerivative_dotref, eval_neg] at h
  · have h := hasDerivAt_eval (tanRhPoly st lowVal highVal).ddotref hphi
    rwa [timeDerivative_ddotref, eval_neg] at h
  · have h := hasDerivAt_eval (tanRhPoly st lowVal highVal).d3dotref hphi
    rwa [timeDerivative_d3dotref] at h

end ServerCalculate
