/-
# The loop over the interval (`do_client_calculations` and `calc_ref` of the client)

`initialize_calc_data` divides the interval by `NSTEP`; `do_client_calculations` steps
through it and builds a record for the printer after each step; `calc_ref` steps through the
same interval and samples the reference before each step.  Both test the time with `<=`.
The times are taken over exact rational arithmetic.

For a proper interval either loop ends after `NSTEP + 1` rounds, so the last step starts at
the end of the interval and the time runs one step over it (`doClientCalculations_eq`); for an
interval of length `0` neither ends (`doClientCalculations_eq_none`).  The record of a round
is one step later than the sample of that round (`records_one_step_later`).
-/
import Mathlib
import Quadrocopt.Integrator
import Quadrocopt.WhileLoop

namespace ClientCalculate

open WhileLoop

/-- `NSTEP` of `constants.h`. -/
abbrev NSTEP : ℕ := 10

/-- `initialize_calc_data`. -/
def initializeCalcData (timeStart timeEnd : ℚ) : CalculatorData ℚ where
  timeStart := timeStart
  timeEnd := timeEnd
  currTime := timeStart
  step := (timeEnd - timeStart) / (NSTEP : ℕ)
  Vx := 0
  VdotX := 0
  Vy := 0
  VdotY := 0
  Vz := 0
  VdotZ := 0
  Vtheta := 0
  VdotTheta := 0
  Vphi := 0
  VdotPhi := 0
  Vpsy := 0
  VdotPsy := 0

/-! ## The two loops -/

/-- `get_calc_data_for_printer`. -/
def getCalcDataForPrinter (d : CalculatorData ℚ) : List.Vector ℚ 5 :=
  ⟨[d.currTime, d.Vx, d.Vy, d.Vz, d.Vpsy], rfl⟩

/-- The state of the loop of `do_client_calculations`: the calculator's data, the times at
which `get_next_step` was called, and the records that `print_calc_data` has built. -/
structure Calculations where
  calcData : CalculatorData ℚ
  started : List ℚ
  records : List (List.Vector ℚ 5)

/-- The test of `do_client_calculations`. -/
def inInterval (s : Calculations) : Bool := s.calcData.currTime ≤ s.calcData.timeEnd

/-- The body of `do_client_calculations`.  The answers of the server and what the blocks of
`get_next_step` hold at first may differ from round to round. -/
def calculationsBody (getU : ℕ → List.Vector ℚ 13 → Fin 4 → ℚ) (blocks : ℕ → Blocks ℚ) (n : ℕ)
    (s : Calculations) : Calculations :=
  let calcData := (getNextStep (getU n) (blocks n) s.calcData).calcData
  let calcData := { calcData with currTime := calcData.currTime + calcData.step }
  { calcData
    started := s.started ++ [s.calcData.currTime]
    records := s.records ++ [getCalcDataForPrinter calcData] }

/-- `do_client_calculations`, with a bound on the number of tests. -/
def doClientCalculations (getU : ℕ → List.Vector ℚ 13 → Fin 4 → ℚ) (blocks : ℕ → Blocks ℚ)
    (fuel : ℕ) (calcData : CalculatorData ℚ) : Option Calculations :=
  loop inInterval (calculationsBody getU blocks) fuel 0 ⟨calcData, [], []⟩

/-- The low end of the reference trajectory. -/
def LowVal : ℚ := 0

/-- The high end of the reference trajectory. -/
def HighVal : ℚ := 10

/-- The steepness of the reference trajectory. -/
def sigma : ℚ := 1

/-- The middle of the rise of the reference trajectory. -/
def TRaise : ℚ := 5

/-- The state of the loop of `calc_ref`: the time, the times at which `tanRh` was called, and
the values written to the file. -/
structure RefSamples where
  t : ℚ
  sampled : List ℚ
  written : List ℚ

/-- The test of `calc_ref`. -/
def upTo (tend : ℚ) (s : RefSamples) : Bool := s.t ≤ tend

/-- The body of `calc_ref`, for a given function in place of `tanh`. -/
def calcRefBody (tanh : ℚ → ℚ) (step : ℚ) (s : RefSamples) : RefSamples :=
  let refTrajSt := ServerCalculate.tanRh tanh s.t sigma LowVal HighVal TRaise
  { t := s.t + step
    sampled := s.sampled ++ [s.t]
    written := s.written ++ [refTrajSt.ref] }

/-- `calc_ref`, with a bound on the number of tests. -/
def calcRef (tanh : ℚ → ℚ) (fuel : ℕ) (tinit tend step : ℚ) : Option RefSamples :=
  loop (upTo tend) (fun _ => calcRefBody tanh step) fuel 0 ⟨tinit, [], []⟩

/-- `calculate_ref`. -/
def calculateRef (tanh : ℚ → ℚ) (fuel : ℕ) (calcData : CalculatorData ℚ) : Option RefSamples :=
  calcRef tanh fuel calcData.timeStart calcData.timeEnd calcData.step

/-! ## The times of the rounds -/

/-- The time before round `k`. -/
def timeAt (d : CalculatorData ℚ) (k : ℕ) : ℚ := d.currTime + k * d.step

theorem timeAt_zero (d : CalculatorData ℚ) : timeAt d 0 = d.currTime := by simp [timeAt]

theorem timeAt_succ (d : CalculatorData ℚ) (k : ℕ) : timeAt d (k + 1) = timeAt d k + d.step := by
  rw [timeAt, timeAt, Nat.cast_succ]
  ring

/-- The last of the `NSTEP` steps ends where the interval ends. -/
theorem timeAt_NSTEP (timeStart timeEnd : ℚ) :
    timeAt (initializeCalcData timeStart timeEnd) NSTEP = timeEnd := by
  show timeStart + (NSTEP : ℕ) * ((timeEnd - timeStart) / (NSTEP : ℕ)) = timeEnd
  rw [mul_div_cancel₀ _ (by norm_num)]
  ring

theorem step_pos {timeStart timeEnd : ℚ} (h : timeStart < timeEnd) :
    0 < (initializeCalcData timeStart timeEnd).step :=
  div_pos (sub_pos.mpr h) (by norm_num)

/-- In a proper interval the time is in the interval before the rounds `0` to `NSTEP`. -/
theorem timeAt_le_iff {timeStart timeEnd : ℚ} (h : timeStart < timeEnd) (k : ℕ) :
    timeAt (initializeCalcData timeStart timeEnd) k ≤ timeEnd ↔ k ≤ NSTEP := by
  have hstep := step_pos h
  calc timeAt (initializeCalcData timeStart timeEnd) k ≤ timeEnd
      ↔ timeAt (initializeCalcData timeStart timeEnd) k
          ≤ timeAt (initializeCalcData timeStart timeEnd) NSTEP := by rw [timeAt_NSTEP]
    _ ↔ (k : ℚ) ≤ (NSTEP : ℕ) := by
        rw [timeAt, timeAt, add_le_add_iff_left, mul_le_mul_iff_left₀ hstep]
    _ ↔ k ≤ NSTEP := Nat.cast_le

/-- In an interval of length `0` the time stands still. -/
theorem timeAt_self (time : ℚ) (k : ℕ) : timeAt (initializeCalcData time time) k = time := by
  show time + k * ((time - time) / (NSTEP : ℕ)) = time
  rw [sub_self, zero_div, mul_zero, add_zero]

/-! ## What the rounds leave behind -/

section Rounds

variable (getU : ℕ → List.Vector ℚ 13 → Fin 4 → ℚ) (blocks : ℕ → Blocks ℚ)
  (d : CalculatorData ℚ) (tanh : ℚ → ℚ)

/-- What `k` rounds of `do_client_calculations` do to the times. -/
structure Stepped (k : ℕ) (s : Calculations) : Prop where
  timeEnd : s.calcData.timeEnd = d.timeEnd
  step : s.calcData.step = d.step
  currTime : s.calcData.currTime = timeAt d k
  started : s.started = (List.range k).map (timeAt d)
  times : s.records.map List.Vector.head = (List.range k).map fun i => timeAt d (i + 1)

/-- `get_next_step` does not touch the times. -/
theorem Stepped.calculationsBody (k : ℕ) (s : Calculations) (h : Stepped d k s) :
    Stepped d (k + 1) (calculationsBody getU blocks k s) := by
  have htimeEnd : (getNextStep (getU k) (blocks k) s.calcData).calcData.timeEnd
      = s.calcData.timeEnd := rfl
  have hstep : (getNextStep (getU k) (blocks k) s.calcData).calcData.step
      = s.calcData.step := rfl
  have hcurrTime : (getNextStep (getU k) (blocks k) s.calcData).calcData.currTime
      = s.calcData.currTime := rfl
  have hnow : (ClientCalculate.calculationsBody getU blocks k s).calcData.currTime
      = timeAt d (k + 1) := by
    show (getNextStep (getU k) (blocks k) s.calcData).calcData.currTime
      + (getNextStep (getU k) (blocks k) s.calcData).calcData.step = _
    rw [hcurrTime, hstep, h.currTime, h.step, timeAt_succ]
  refine ⟨?_, ?_, hnow, ?_, ?_⟩
  · exact htimeEnd.trans h.timeEnd
  · exact hstep.trans h.step
  · show s.started ++ [s.calcData.currTime] = _
    rw [h.started, h.currTime, List.range_succ, List.map_append]
    rfl
  · show (s.records ++ [getCalcDataForPrinter _]).map List.Vector.head = _
    rw [List.map_append, h.times, List.range_succ, List.map_append]
    exact congrArg (_ ++ [·]) hnow

theorem stepped_after (k : ℕ) :
    Stepped d k (after (ClientCalculate.calculationsBody getU blocks) 0 ⟨d, [], []⟩ k) :=
  after_induction ⟨rfl, rfl, (timeAt_zero d).symm, rfl, rfl⟩
    (Stepped.calculationsBody getU blocks d) k

theorem inInterval_after (k : ℕ) :
    inInterval (after (ClientCalculate.calculationsBody getU blocks) 0 ⟨d, [], []⟩ k)
      = decide (timeAt d k ≤ d.timeEnd) := by
  have h := stepped_after getU blocks d k
  rw [inInterval, h.currTime, h.timeEnd]

/-- What `k` rounds of `calc_ref` leave behind, from the start of the interval. -/
theorem calcRef_after (k : ℕ) :
    after (fun _ => calcRefBody tanh d.step) 0 ⟨d.currTime, [], []⟩ k
      = ⟨timeAt d k, (List.range k).map (timeAt d), (List.range k).map fun i =>
          (ServerCalculate.tanRh tanh (timeAt d i) sigma LowVal HighVal TRaise).ref⟩ := by
  induction k with
  | zero =>
    rw [timeAt_zero]
    rfl
  | succ k ih =>
    rw [after, ih, calcRefBody, timeAt_succ, List.range_succ, List.map_append, List.map_append]
    rfl

end Rounds

/-! ## Whole loops -/

section Whole

variable (getU : ℕ → List.Vector ℚ 13 → Fin 4 → ℚ) (blocks : ℕ → Blocks ℚ) (tanh : ℚ → ℚ)
  {timeStart timeEnd : ℚ}

/-- **The integration of a proper interval.**  The loop ends after `NSTEP + 1` rounds. -/
theorem doClientCalculations_eq (h : timeStart < timeEnd) :
    ∃ s, doClientCalculations getU blocks (NSTEP + 2) (initializeCalcData timeStart timeEnd)
        = some s
      ∧ Stepped (initializeCalcData timeStart timeEnd) (NSTEP + 1) s := by
  refine ⟨_, loop_eq_some (k := NSTEP + 1) ?_ ?_ (Nat.lt_succ_self _), stepped_after ..⟩
  · intro j hj
    rw [inInterval_after, decide_eq_true_iff]
    exact (timeAt_le_iff h j).mpr (Nat.le_of_lt_succ hj)
  · rw [inInterval_after, decide_eq_false_iff_not]
    intro hle
    exact absurd ((timeAt_le_iff h _).mp hle) (Nat.not_succ_le_self NSTEP)

/-- **An interval of length `0`.**  The loop does not end. -/
theorem doClientCalculations_eq_none (time : ℚ) (fuel : ℕ) :
    doClientCalculations getU blocks fuel (initializeCalcData time time) = none := by
  refine loop_eq_none (fun k => ?_) fuel
  rw [inInterval_after, decide_eq_true_iff, timeAt_self]
  exact le_refl time

/-- **The reference of a proper interval.**  The loop ends after `NSTEP + 1` rounds. -/
theorem calculateRef_eq (h : timeStart < timeEnd) :
    ∃ r, calculateRef tanh (NSTEP + 2) (initializeCalcData timeStart timeEnd) = some r
      ∧ r.sampled = (List.range (NSTEP + 1)).map (timeAt (initializeCalcData timeStart timeEnd)) := by
  have hafter := calcRef_after (initializeCalcData timeStart timeEnd) tanh
  refine ⟨_, loop_eq_some (k := NSTEP + 1) ?_ ?_ (Nat.lt_succ_self _), ?_⟩
  · intro j hj
    refine (congrArg (upTo timeEnd) (hafter j)).trans (decide_eq_true ?_)
    exact (timeAt_le_iff h j).mpr (Nat.le_of_lt_succ hj)
  · refine (congrArg (upTo timeEnd) (hafter _)).trans (decide_eq_false ?_)
    intro hle
    exact absurd ((timeAt_le_iff h _).mp hle) (Nat.not_succ_le_self NSTEP)
  · exact congrArg RefSamples.sampled (hafter _)

/-! ### The steps against the interval -/

/-- What the loop of `do_client_calculations` is meant to do: it ends, no step starts at or
after the end of the interval, and in a proper interval there are `NSTEP` steps, the last of
which ends where the interval ends. -/
def CoversInterval (timeStart timeEnd : ℚ) : Prop :=
  ∃ fuel s, doClientCalculations getU blocks fuel (initializeCalcData timeStart timeEnd) = some s
    ∧ (∀ t ∈ s.started, t < timeEnd)
    ∧ (timeStart < timeEnd → s.started.length = NSTEP ∧ s.calcData.currTime = timeEnd)

/-- In a proper interval one step too many is made. -/
theorem not_coversInterval_of_lt (h : timeStart < timeEnd) :
    ¬CoversInterval getU blocks timeStart timeEnd := by
  rintro ⟨fuel, s, hs, -, hproper⟩
  obtain ⟨s', hs', hstepped⟩ := doClientCalculations_eq getU blocks h
  obtain rfl : s = s' := loop_inj hs hs'
  have hlength : s.started.length = NSTEP + 1 := by
    rw [hstepped.started, List.length_map, List.length_range]
  exact absurd (hlength.symm.trans (hproper h).1) (Nat.succ_ne_self NSTEP)

/-- **The interval is never covered exactly.**  Whatever the server answers: a proper
interval takes one step too many, and an interval of length `0` takes steps for ever. -/
theorem not_coversInterval (h : timeStart ≤ timeEnd) :
    ¬CoversInterval getU blocks timeStart timeEnd := by
  obtain hlt | rfl := h.lt_or_eq
  · exact not_coversInterval_of_lt getU blocks hlt
  · rintro ⟨fuel, s, hs, -⟩
    rw [doClientCalculations_eq_none] at hs
    cases hs

/-! ### The records against the reference -/

/-- As many records as samples of the reference, and each of the time of its sample. -/
def LinedUp (timeStart timeEnd : ℚ) : Prop :=
  let d := initializeCalcData timeStart timeEnd
  ∃ fuel r s, calculateRef tanh fuel d = some r ∧ doClientCalculations getU blocks fuel d = some s
    ∧ r.sampled.length = s.records.length
    ∧ s.records.map List.Vector.head = r.sampled

/-- **The records are one step later.**  There are as many records as samples of the
reference; the record of each round has the time of the sample of that round, and one step
more: it is taken, with the state it describes, after the time is advanced. -/
theorem records_one_step_later (h : timeStart < timeEnd) :
    ∃ fuel r s, calculateRef tanh fuel (initializeCalcData timeStart timeEnd) = some r
      ∧ doClientCalculations getU blocks fuel (initializeCalcData timeStart timeEnd) = some s
      ∧ r.sampled.length = s.records.length
      ∧ s.records.map List.Vector.head
        = r.sampled.map (· + (initializeCalcData timeStart timeEnd).step) := by
  obtain ⟨s, hs, hstepped⟩ := doClientCalculations_eq getU blocks h
  obtain ⟨r, hr, hsampled⟩ := calculateRef_eq tanh h
  have htimes : s.records.map List.Vector.head
      = r.sampled.map (· + (initializeCalcData timeStart timeEnd).step) := by
    rw [hstepped.times, hsampled, List.map_map]
    exact List.map_congr_left fun i _ => timeAt_succ _ i
  have hlength := congrArg List.length htimes
  rw [List.length_map, List.length_map] at hlength
  exact ⟨NSTEP + 2, r, s, hr, hs, hlength.symm, htimes⟩

end Whole

/-! ### The interval of the program -/

section Program

/-- A server that answers `0`. -/
def noThrust (_n : ℕ) (_payload : List.Vector ℚ 13) (_i : Fin 4) : ℚ := 0

/-- Blocks that hold `0`. -/
def zeroed (_n : ℕ) : Blocks ℚ := ⟨0, 0, 0, 0, 0, 0⟩

/-- The interval that the client integrates over is not covered exactly. -/
theorem not_coversInterval_program :
    ¬CoversInterval noThrust zeroed 0 (1 / 10) :=
  not_coversInterval noThrust zeroed (by norm_num)

/-- In it the last step starts at its end, and the time runs one step over it. -/
theorem program_steps_over :
    (∃ s, doClientCalculations noThrust zeroed (NSTEP + 2) (initializeCalcData 0 (1 / 10))
        = some s
      ∧ 1 / 10 ∈ s.started ∧ s.started.length = NSTEP + 1 ∧ s.calcData.currTime = 11 / 100)
    ∧ ¬CoversInterval noThrust zeroed 0 (1 / 10) := by
  have hproper : (0 : ℚ) < 1 / 10 := by norm_num
  refine ⟨?_, not_coversInterval_of_lt _ _ hproper⟩
  obtain ⟨s, hs, hstepped⟩ := doClientCalculations_eq noThrust zeroed hproper
  refine ⟨s, hs, ?_, ?_, ?_⟩
  · rw [hstepped.started, List.mem_map]
    exact ⟨NSTEP, List.mem_range.mpr (Nat.lt_succ_self _), timeAt_NSTEP 0 (1 / 10)⟩
  · rw [hstepped.started, List.length_map, List.length_range]
  · rw [hstepped.currTime, timeAt_succ, timeAt_NSTEP]
    norm_num [initializeCalcData]

/-- In it the first record is one step later than the first sample. -/
theorem not_linedUp_program : ¬LinedUp noThrust zeroed (fun _ => 0) 0 (1 / 10) := by
  rintro ⟨fuel, r, s, hr, hs, -, hlinedUp⟩
  have hproper : (0 : ℚ) < 1 / 10 := by norm_num
  obtain ⟨s', hs', hstepped⟩ := doClientCalculations_eq noThrust zeroed hproper
  obtain ⟨r', hr', hsampled⟩ := calculateRef_eq (fun _ => 0) hproper
  obtain rfl : s = s' := loop_inj hs hs'
  obtain rfl : r = r' := loop_inj hr hr'
  rw [hstepped.times, hsampled] at hlinedUp
  have hfirst := congrArg List.head? hlinedUp
  rw [List.range_succ_eq_map, List.map_cons, List.map_cons, List.head?_cons, List.head?_cons,
    Option.some_inj, timeAt_succ, add_eq_left] at hfirst
  exact absurd hfirst (step_pos hproper).ne'

/-- The records of the client are one step later than its samples. -/
theorem records_one_step_later_program :
    ∃ fuel r s, calculateRef (fun _ => 0) fuel (initializeCalcData 0 (1 / 10)) = some r
      ∧ doClientCalculations noThrust zeroed fuel (initializeCalcData 0 (1 / 10)) = some s
      ∧ r.sampled.length = s.records.length
      ∧ s.records.map List.Vector.head
        = r.sampled.map (· + (initializeCalcData 0 (1 / 10)).step) :=
  records_one_step_later noThrust zeroed (fun _ => 0) (by norm_num)

end Program

end ClientCalculate
