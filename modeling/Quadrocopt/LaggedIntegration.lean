/-
# What the whole system integrates

`get_next_step` is a program that asks: it calls `get_u` at its four stages and goes on with
what is returned (`askGetNextStep`).  With an answer to each question of its own it is the
function of `Integrator.lean` (`answered_askGetNextStep`).

In the whole system the answers come one question late.  So the plant is integrated under the
law at the stage before: each of the four stages of a step has a command of its own, the first
one that for the last stage of the step before (`lagged_askGetNextStep`), and the payloads of the
calls of `get_u` are the stages of that integration and no others
(`MainThread.asked_prefix_stages`).

The numbers are those of a field.  What goes over the network is related to them by two
functions, of which it is only assumed that the first one takes `0` to `0`; they may round.
-/
import Mathlib
import Quadrocopt.Asking
import Quadrocopt.IntegrationLoop
import Quadrocopt.MainThread

namespace ClientCalculate

open Asking

variable {K : Type*} [Field K]

/-! ## The step, as a program that asks -/

/-- `get_next_step`, with a question for each call of `get_u`. -/
def askGetNextStep (blocks : Blocks K) (calcData : CalculatorData K) :
    Program (List.Vector K 13) (Fin 4 → K) (NextStep K) :=
  let y := loadState calcData blocks.y
  let ti := calcData.currTime
  let step := calcData.step
  let payload := getPayloadFromCalcData calcData
  .ask payload fun u₁ =>
  let dydx := (derivsBlock ti y blocks.dydx u₁).dXdt
  let x := ti
  let h := step
  let hh := h * (1 / (2 : ℕ))
  let h6 := h / (6 : ℕ)
  let xh := x + hh
  let yt₁ := forLoop NVAR (fun i yt => Function.update yt i (y i + hh * dydx i)) blocks.yt
  let nVec₁ := normalizeVector yt₁ NVAR xh
  .ask nVec₁ fun u₂ =>
  let dyt₁ := (derivsBlock xh yt₁ blocks.dyt u₂).dXdt
  let yt₂ := forLoop NVAR (fun i yt => Function.update yt i (y i + hh * dyt₁ i)) yt₁
  let nVec₂ := normalizeVector yt₂ NVAR xh
  .ask nVec₂ fun u₃ =>
  let dym₁ := (derivsBlock xh yt₂ blocks.dym u₃).dXdt
  let ytDym := forLoop NVAR (fun i (p : Block K × Block K) =>
    (Function.update p.1 i (y i + h * p.2 i), Function.update p.2 i (p.2 i + dyt₁ i))) (yt₂, dym₁)
  let yt₃ := ytDym.1
  let dym₂ := ytDym.2
  let nVec₃ := normalizeVector yt₃ NVAR (x + h)
  .ask nVec₃ fun u₄ =>
  let derivs := derivsBlock (x + h) yt₃ dyt₁ u₄
  let dyt₂ := derivs.dXdt
  let yout := forLoop NVAR
    (fun i yout => Function.update yout i (y i + h6 * (dydx i + dyt₂ i + (2 : ℕ) * dym₂ i)))
    blocks.yout
  .done { calcData := setCalcData calcData yout, U := derivs.U,
          asked := [payload, nVec₁, nVec₂, nVec₃] }

/-- With an answer to each question of its own, it is `get_next_step`. -/
theorem answered_askGetNextStep (getU : List.Vector K 13 → Fin 4 → K) (blocks : Blocks K)
    (calcData : CalculatorData K) :
    (askGetNextStep blocks calcData).answered getU = getNextStep getU blocks calcData := rfl

/-- The plant under a given command. -/
def under (u : Fin 4 → K) (s : K) (Y : Fin 12 → K) : Fin 12 → K := derivs s Y u

/-- One stage, under whatever command it gets. -/
theorem entries_under (s : K) (X dXdt : Block K) (u : Fin 4 → K) :
    Block.entries (derivsBlock s X dXdt u).dXdt = under u s X.entries :=
  entries_derivsBlock s X dXdt u

section Lagged

variable (law : List.Vector K 13 → Fin 4 → K)

/-- The payloads of the four stages of a step from the state `Y` at the time `t`, when each
stage gets the command for the payload before, the first one that for `last`. -/
def lagged₁ (Y : Fin 12 → K) (t : K) : List.Vector K 13 := withTime Y t

@[inherit_doc lagged₁]
def lagged₂ (Y : Fin 12 → K) (t h : K) (last : List.Vector K 13) : List.Vector K 13 :=
  withTime (RungeKutta.state₂ (under (law last)) t h Y) (t + h / (2 : ℕ))

@[inherit_doc lagged₁]
def lagged₃ (Y : Fin 12 → K) (t h : K) (last : List.Vector K 13) : List.Vector K 13 :=
  withTime (RungeKutta.state₃ (under (law last)) (under (law (lagged₁ Y t))) t h Y)
    (t + h / (2 : ℕ))

@[inherit_doc lagged₁]
def lagged₄ (Y : Fin 12 → K) (t h : K) (last : List.Vector K 13) : List.Vector K 13 :=
  withTime (RungeKutta.state₄ (under (law last)) (under (law (lagged₁ Y t)))
    (under (law (lagged₂ law Y t h last))) t h Y) (t + h)

/-- The state after that step. -/
def laggedStep (Y : Fin 12 → K) (t h : K) (last : List.Vector K 13) : Fin 12 → K :=
  RungeKutta.staged (under (law last)) (under (law (lagged₁ Y t)))
    (under (law (lagged₂ law Y t h last))) (under (law (lagged₃ law Y t h last))) t h Y

/-- **A step whose commands come one call late.**  Whatever the blocks hold at first,
`get_next_step` asks at the four stages of the Runge-Kutta step in which each stage has the
command for the payload before, and leaves the state of that step. -/
theorem lagged_askGetNextStep (blocks : Blocks K) (d : CalculatorData K)
    (last : List.Vector K 13) :
    ((askGetNextStep blocks d).lagged law last).1
        = [lagged₁ d.state d.currTime, lagged₂ law d.state d.currTime d.step last,
          lagged₃ law d.state d.currTime d.step last, lagged₄ law d.state d.currTime d.step last]
      ∧ ((askGetNextStep blocks d).lagged law last).2.calcData.state
        = laggedStep law d.state d.currTime d.step last
      ∧ ((askGetNextStep blocks d).lagged law last).2.calcData.currTime = d.currTime
      ∧ ((askGetNextStep blocks d).lagged law last).2.calcData.step = d.step := by
  have hhalf (a : K) : a * (1 / (2 : ℕ)) = a / (2 : ℕ) := mul_one_div a _
  have hsum := fun (y k l a : Block K) (c : K) => (entries_extrapolate_add y k l a c).1
  have hsum' := fun (y k l a : Block K) (c : K) => (entries_extrapolate_add y k l a c).2
  refine ⟨?_, ?_, rfl, rfl⟩
  · simp only [askGetNextStep, Program.lagged, getPayloadFromCalcData_eq, normalizeVector_eq,
      entries_extrapolate, entries_under, entries_loadState, hsum, hhalf]
    rfl
  · show (setCalcData d _).state = _
    rw [state_setCalcData]
    refine (entries_combine _ _ _ _ _ _ 2).trans ?_
    simp only [getPayloadFromCalcData_eq, normalizeVector_eq,
      entries_extrapolate, entries_under, entries_loadState, hsum, hsum', hhalf]
    exact (RungeKutta.staged_eq _ _ _ _ _ _ _).symm

/-- Where the command does not depend on the payload, its being late makes no difference: the
step is that of the scheme. -/
theorem laggedStep_of_const {u : Fin 4 → K} (hlaw : ∀ p, law p = u) (Y : Fin 12 → K) (t h : K)
    (last : List.Vector K 13) :
    laggedStep law Y t h last = RungeKutta.step (under u) t h Y := by
  simp only [laggedStep, hlaw]
  exact RungeKutta.staged_self (under u) t h Y

/-- The payloads of the stages of that many steps. -/
def laggedStages (h : K) : ℕ → (Fin 12 → K) → K → List.Vector K 13 → List (List.Vector K 13)
  | 0, _, _, _ => []
  | n + 1, Y, t, last =>
      [lagged₁ Y t, lagged₂ law Y t h last, lagged₃ law Y t h last, lagged₄ law Y t h last]
        ++ laggedStages h n (laggedStep law Y t h last) (t + h) (lagged₄ law Y t h last)

theorem length_laggedStages (h : K) (n : ℕ) (Y : Fin 12 → K) (t : K) (last : List.Vector K 13) :
    (laggedStages law h n Y t last).length = 4 * n := by
  induction n generalizing Y t last with
  | zero => rfl
  | succ n ih =>
      rw [laggedStages, List.length_append, ih, Nat.mul_succ, Nat.add_comm]
      rfl

end Lagged

/-! ## The loop -/

/-- `do_client_calculations`, of that many rounds, with a question for each call of `get_u`.
What is printed is left out. -/
def askCalculations (blocks : ℕ → Blocks K) :
    ℕ → CalculatorData K → Program (List.Vector K 13) (Fin 4 → K) (CalculatorData K)
  | 0, d => .done d
  | n + 1, d => (askGetNextStep (blocks n) d).bind fun r =>
      askCalculations blocks n
        { r.calcData with currTime := r.calcData.currTime + r.calcData.step }

/-- The loop asks at the stages of its steps. -/
theorem lagged_askCalculations (law : List.Vector K 13 → Fin 4 → K) (blocks : ℕ → Blocks K)
    (n : ℕ) (d : CalculatorData K) (last : List.Vector K 13) :
    ((askCalculations blocks n d).lagged law last).1
      = laggedStages law d.step n d.state d.currTime last := by
  induction n generalizing d last with
  | zero => rfl
  | succ n ih =>
      obtain ⟨hasked, hstate, htime, hstep⟩ := lagged_askGetNextStep law (blocks n) d last
      rw [askCalculations, Program.lagged_bind, ih, hasked, laggedStages, ← hstate]
      simp only [htime, hstep]
      rfl

end ClientCalculate

namespace MainThread

open Transition Asking ClientCalculate
open Server (ListenerType)

/-! ## The main thread runs a program that asks -/

section Programs

variable {α : Type*} {serverCalculations : List CFloat → List.Vector CFloat 4}

/-- The payload of the next call of `get_u`, when the main thread runs the program `p`. -/
def nextQuestion (p : Program Client.Payload (List CFloat) α) (returned : List (List CFloat)) :
    Client.Payload :=
  ((p.after returned).question?).getD Client.initialPayload

/-- It asks what it would ask if it were answered late. -/
theorem laggedPayloads_eq_take (p : Program Client.Payload (List CFloat) α) {n : ℕ}
    (hn : n ≤ (p.lagged (commandFor serverCalculations) Client.initialPayload).1.length) :
    laggedPayloads serverCalculations (nextQuestion p) n
      = (p.lagged (commandFor serverCalculations) Client.initialPayload).1.take n := by
  induction n with
  | zero => rfl
  | succ n ih =>
      have hcommands : commands serverCalculations
          ((p.lagged (commandFor serverCalculations) Client.initialPayload).1.take n) n
          = Program.lateAnswers (commandFor serverCalculations)
            (p.lagged (commandFor serverCalculations) Client.initialPayload).1
            Client.initialPayload n := by
        refine congrArg (List.map _) ?_
        cases n with
        | zero => rfl
        | succ n => rw [List.take_succ_cons, List.take_succ_cons, List.take_take,
            Nat.min_eq_left (Nat.le_succ n)]
      rw [laggedPayloads, ih (Nat.le_of_succ_le hn), hcommands, nextQuestion,
        Program.question_after_lagged, List.getElem?_eq_getElem hn, Option.getD_some,
        List.take_append_getElem]

end Programs

/-! ## The requests of the whole system -/

section Numbers

variable {K : Type*} [Field K] (toFloat : K → CFloat) (ofFloat : CFloat → K)

/-- A payload as it is sent. -/
def encode (p : List.Vector K 13) : Client.Payload := p.map toFloat

/-- A command as it is returned. -/
def decode (command : List CFloat) (i : Fin 4) : K := ofFloat (command.getD i 0)

/-- The law of the server, between the numbers of the client. -/
def lawOf (serverCalculations : List CFloat → List.Vector CFloat 4) (p : List.Vector K 13) :
    Fin 4 → K :=
  decode ofFloat (commandFor serverCalculations (encode toFloat p))

/-- What the main thread computes. -/
def calculations (blocks : ℕ → Blocks K) (iterations : ℕ) (d : CalculatorData K) :
    Program Client.Payload (List CFloat) (CalculatorData K) :=
  (askCalculations blocks iterations d).translate (encode toFloat) (decode ofFloat)

variable {toFloat ofFloat} {serverCalculations : List CFloat → List.Vector CFloat 4}
  {floatArrToString : List CFloat → String} {clientBuf : Buf} {serverBuf : ListenerType → Buf}
  {blocks : ℕ → Blocks K} {d : CalculatorData K} {iterations : ℕ} {as : List Action} {s : State}

theorem encode_zero (hzero : toFloat 0 = 0) :
    encode toFloat (List.Vector.replicate 13 0) = Client.initialPayload := by
  apply List.Vector.eq
  show (List.replicate 13 0).map toFloat = List.replicate 13 0
  rw [List.map_replicate, hzero]

variable (ofFloat serverCalculations blocks d iterations) in
/-- With the answers of the server, one question late, it asks at the stages of its steps. -/
theorem lagged_calculations (hzero : toFloat 0 = 0) :
    ((calculations toFloat ofFloat blocks iterations d).lagged (commandFor serverCalculations)
        Client.initialPayload).1
      = (laggedStages (lawOf toFloat ofFloat serverCalculations) d.step iterations d.state
        d.currTime (List.Vector.replicate 13 0)).map (encode toFloat) := by
  rw [← encode_zero hzero, calculations, Program.lagged_translate, lagged_askCalculations]
  rfl

/-- **The calls are made at the stages of a late integration.**  In every run of the whole system in
which the client integrates `d`, over a network that drops nothing and keeps the order on each
socket, and in which no result is overwritten: `get_u` is called at the stages of the
Runge-Kutta steps from the initial state on, in their order, where each stage gets the command
for the stage before, the first one that for the zero batches; and these are the commands that
the calls return. -/
theorem asked_prefix_stages (hzero : toFloat 0 = 0)
    (h : Run (step serverCalculations floatArrToString
        (nextQuestion (calculations toFloat ofFloat blocks iterations d))) InOrderNoOverwrite
      (init clientBuf serverBuf iterations) as s) :
    asked s <+: (laggedStages (lawOf toFloat ofFloat serverCalculations) d.step iterations d.state
        d.currTime (List.Vector.replicate 13 0)).map (encode toFloat)
      ∧ s.exchange.client.returned <+: (List.Vector.replicate 13 0
          :: laggedStages (lawOf toFloat ofFloat serverCalculations) d.step iterations d.state
            d.currTime (List.Vector.replicate 13 0)).map
        (fun p => commandFor serverCalculations (encode toFloat p)) := by
  have hlagged := lagged_calculations ofFloat serverCalculations blocks d iterations hzero
  have hle : (asked s).length ≤ 4 * iterations :=
    (asked_le h).trans (Nat.mul_le_mul_left _ (Nat.min_le_left _ _))
  have hstages : asked s <+: (laggedStages (lawOf toFloat ofFloat serverCalculations) d.step
      iterations d.state d.currTime (List.Vector.replicate 13 0)).map (encode toFloat) := by
    rw [← hlagged, asked_eq_laggedPayloads h, laggedPayloads_eq_take]
    · exact List.take_prefix _ _
    · rw [hlagged, List.length_map, length_laggedStages]
      exact hle
  refine ⟨hstages, ?_⟩
  have hmap := ((List.take_prefix s.exchange.client.returned.length _).trans
    ((List.prefix_cons_inj Client.initialPayload).mpr hstages)).map (commandFor serverCalculations)
  rw [returned_eq_commands h, commands, List.map_cons, encode_zero hzero]
  rwa [List.map_cons, List.map_map] at hmap

end Numbers

/-! ### The run to the end, in single precision -/

/-- The number that a finite pattern stands for. -/
def floatValue (f : CFloat) : ℚ :=
  let sign : ℚ := if f.msb then -1 else 1
  let exponent := f.toNat / 2 ^ 23 % 256
  let fraction : ℕ := f.toNat % 2 ^ 23
  if exponent = 0 then sign * fraction / 2 ^ 149
  else sign * (2 ^ 23 + fraction) * 2 ^ exponent / 2 ^ 150

/-- The nearest pattern to a number of normal size. -/
def nearestFloat (q : ℚ) : CFloat :=
  let sign := if q < 0 then 2 ^ 31 else 0
  let exponent := Int.log 2 |q|
  let mantissa := round (|q| * (2 : ℚ) ^ (23 - exponent))
  if q = 0 then 0 else BitVec.ofInt 32 (sign + (exponent + 126) * 2 ^ 23 + mantissa)

/-- What the client computes in two rounds of its loop. -/
def twoRounds : Program Client.Payload (List CFloat) (CalculatorData ℚ) :=
  calculations nearestFloat floatValue zeroed 2 (initializeCalcData 0 (1 / 10))

/-- A law whose first command is the time that it is asked at. -/
def timeFirst (received : List CFloat) : List.Vector CFloat 4 :=
  ⟨[received.getD 12 0, received.getD 0 0, received.getD 1 0, received.getD 2 0], rfl⟩

/-- The eight calls of the two rounds are made at the eight stages of two steps.  Each call but
the first one returns the time of the call before. -/
theorem asked_prefix_stages_whole :
    ∃ s, Run (step timeFirst (fun _ => "") (nextQuestion twoRounds)) InOrderNoOverwrite
        (init (fun _ => 0) (fun _ _ => 0) 2) wholeSchedule s
      ∧ (asked s = (laggedStages (lawOf nearestFloat floatValue timeFirst)
            (initializeCalcData 0 (1 / 10)).step 2 (initializeCalcData 0 (1 / 10)).state 0
            (List.Vector.replicate 13 0)).map (encode nearestFloat)
        ∧ s.exchange.client.returned <+: (List.Vector.replicate 13 0
            :: laggedStages (lawOf nearestFloat floatValue timeFirst)
              (initializeCalcData 0 (1 / 10)).step 2 (initializeCalcData 0 (1 / 10)).state 0
              (List.Vector.replicate 13 0)).map
          (fun p => commandFor timeFirst (encode nearestFloat p)))
      ∧ (asked s).map (fun p => p.toList.getD 12 0)
        = [0, 1 / 200, 1 / 200, 1 / 100, 1 / 100, 3 / 200, 3 / 200, 1 / 50].map nearestFloat
      ∧ s.exchange.client.returned.map (fun u => u.getD 0 0)
        = [0, 0, 1 / 200, 1 / 200, 1 / 100, 1 / 100, 3 / 200, 3 / 200].map nearestFloat := by
  obtain ⟨s, hrun, hobs⟩ := Option.map_eq_some_iff.mp (by decide +kernel :
    (run (guarded (step timeFirst (fun _ => "") (nextQuestion twoRounds)) InOrderNoOverwrite)
      (init (fun _ => 0) (fun _ _ => 0) 2) wholeSchedule).map (fun s =>
        ((asked s).map (fun p => p.toList.getD 12 0),
          s.exchange.client.returned.map fun u => u.getD 0 0))
    = some ([0, 1 / 200, 1 / 200, 1 / 100, 1 / 100, 3 / 200, 3 / 200, 1 / 50].map nearestFloat,
      [0, 0, 1 / 200, 1 / 200, 1 / 100, 1 / 100, 3 / 200, 3 / 200].map nearestFloat))
  obtain ⟨htimes, hreturned⟩ := Prod.mk.inj hobs
  have h := Run.of_guarded hrun
  obtain ⟨hstages, hcommands⟩ := asked_prefix_stages (by rfl) h
  refine ⟨s, h, ⟨hstages.eq_of_length ?_, hcommands⟩, htimes, hreturned⟩
  have hlength : (asked s).length = 8 := by
    have := congrArg List.length htimes
    rwa [List.length_map] at this
  rw [hlength, List.length_map, length_laggedStages]

end MainThread
