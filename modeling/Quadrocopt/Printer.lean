/-
# The calculator and the printer of the client

After each integration step the calculator hands a record to the printer
(`print_calc_data` of `main.c`): it waits for `printer_from_signal`, which starts
raised, points the printer's stock at the output parameters, and raises
`printer_to_signal`.  The printer (`run_printer.c`) creates the output files and then
prints messages for as long as `print` succeeds.

`print` starts by fetching a message, and `fetch_msg` has none to give.  So the
printer ends after its first round, neither flag was touched, and nobody ever raises
`printer_from_signal` again: the number of waits still ahead of the calculator and the
flag account for each other (`remaining_add_one`), and the second wait blocks for good
(`never_blocked_iff`).

The loop of `do_client_calculations` is taken with the number of its iterations, an
integration step as a single step.
-/
import Quadrocopt.ByteWords
import Quadrocopt.ConditionPack
import Quadrocopt.Transition

namespace Printer

open Transition

/-! ## What is printed -/

/-- `enum _OutputStream`. -/
inductive OutputStream where
  | stdout
  | stderr
  | fout
  deriving DecidableEq, Repr

/-- `enum _ParametersPayloadType`. -/
inductive ParametersPayloadType where
  | string
  | floatArr
  deriving DecidableEq, Repr

/-- `struct _PrinterParameters`. -/
structure PrinterParameters where
  outStream : OutputStream
  payloadType : ParametersPayloadType
  filePath : Option String
  openMode : Option String

/-- What a message pointer points at: a string, or a `FloatArray` with its length
field. -/
inductive Message where
  | string (str : String)
  | floatArr (arr : List CFloat) (arrLen : ℕ)

/-- `struct _PrinterStock`. -/
structure PrinterStock where
  params : Option PrinterParameters
  messageQueue : Option (List Message)

/-- `initialize_printer_stock`. -/
def initializePrinterStock : PrinterStock := ⟨none, none⟩

/-- `create_printer_params_collection`. -/
def resultsParams : PrinterParameters := ⟨.fout, .floatArr, some "results.txt", some "a+"⟩

/-- A line written to a stream or to a file. -/
structure Output where
  outStream : OutputStream
  filePath : Option String
  openMode : Option String
  text : String

/-- `fetch_msg`. -/
def fetchMsg (_stock : PrinterStock) : Option Message := none

section Print

/- `float_arr_to_string`, on the first floats of an array. -/
variable (floatArrToString : List CFloat → String)

/-- The text of a message, read at the type the parameters announce. -/
def messageText : ParametersPayloadType → Message → Option String
  | .string, .string str => some str
  | .floatArr, .floatArr arr arrLen => some (floatArrToString (arr.take (arrLen / 4)))
  | _, _ => none

/-- `print`: its status and what it writes. -/
def print (stock : PrinterStock) : Option (ℤ × List Output) :=
  match fetchMsg stock with
  | none => some (-1, [])
  | some msg =>
      stock.params.bind fun params =>
        (messageText floatArrToString params.payloadType msg).map fun text =>
          (0, [⟨params.outStream, params.filePath, params.openMode, text⟩])

/-! ## The two threads -/

/-- The calculator in the loop of `do_client_calculations`, with the number of iterations
that follow the current one, or that are still to be made at the head of the loop. -/
inductive CalculatorPc where
  | loop (iterations : ℕ)
  | getNextStep (iterations : ℕ)
  | waitPrinter (iterations : ℕ)
  | setParams (iterations : ℕ)
  | signalPrinter (iterations : ℕ)

/-- The printer: at one of the operations of `run_printer`, or past its loop. -/
inductive PrinterPc where
  | createOutputFiles
  | print
  | ended
  deriving DecidableEq, Repr

/-- The flags and the stock shared by the two threads, their program counters, and what
was printed. -/
structure State where
  printerToSignal : Bool
  printerFromSignal : Bool
  stock : PrinterStock
  calculator : CalculatorPc
  printer : PrinterPc
  printed : List Output

/-- The state in which the loops start, with the flags of `initialize_condition_packs`. -/
def init (iterations : ℕ) : State where
  printerToSignal := false
  printerFromSignal := true
  stock := initializePrinterStock
  calculator := .loop iterations
  printer := .createOutputFiles
  printed := []

/-- Who moves. -/
inductive Action where
  | calculator
  | printer
  deriving DecidableEq, Repr

/-- The next step of the calculator. -/
def stepCalculator (s : State) : Option State :=
  match s.calculator with
  | .loop 0 => none
  | .loop (n + 1) => some { s with calculator := .getNextStep n }
  | .getNextStep n => some { s with calculator := .waitPrinter n }
  | .waitPrinter n =>
      (waitWithPack s.printerFromSignal).map fun flag =>
        { s with printerFromSignal := flag, calculator := .setParams n }
  | .setParams n =>
      some { s with
        stock := { s.stock with params := some resultsParams }
        calculator := .signalPrinter n }
  | .signalPrinter n =>
      some { s with
        printerToSignal := signalWithPack s.printerToSignal
        calculator := .loop n }

/-- The next step of the printer. -/
def stepPrinter (s : State) : Option State :=
  match s.printer with
  | .createOutputFiles => some { s with printer := .print }
  | .print =>
      -- `if (-1 == print_status) break`
      (print floatArrToString s.stock).map fun r =>
        { s with
          printer := if r.1 = -1 then .ended else .print
          printed := s.printed ++ r.2 }
  | .ended => none

/-- One step of the two threads. -/
def step (s : State) : Action → Option State
  | .calculator => stepCalculator s
  | .printer => stepPrinter floatArrToString s

/-! ## What one step can do -/

/-- The steps, one constructor for each operation.  A print never succeeds. -/
inductive Move (s : State) : Action → State → Prop
  | loop (n : ℕ) (hpc : s.calculator = .loop (n + 1)) :
      Move s .calculator { s with calculator := .getNextStep n }
  | getNextStep (n : ℕ) (hpc : s.calculator = .getNextStep n) :
      Move s .calculator { s with calculator := .waitPrinter n }
  | waitPrinter (n : ℕ) (hpc : s.calculator = .waitPrinter n)
      (hflag : s.printerFromSignal = true) :
      Move s .calculator { s with printerFromSignal := false, calculator := .setParams n }
  | setParams (n : ℕ) (hpc : s.calculator = .setParams n) :
      Move s .calculator
        { s with
          stock := { s.stock with params := some resultsParams }
          calculator := .signalPrinter n }
  | signalPrinter (n : ℕ) (hpc : s.calculator = .signalPrinter n) :
      Move s .calculator { s with printerToSignal := true, calculator := .loop n }
  | createOutputFiles (hpc : s.printer = .createOutputFiles) :
      Move s .printer { s with printer := .print }
  | print (hpc : s.printer = .print) : Move s .printer { s with printer := .ended }

variable {floatArrToString}

/-- **Inversion of the step function.** -/
theorem step_move {s s' : State} {a : Action} (h : step floatArrToString s a = some s') :
    Move s a s' := by
  cases a with
  | calculator =>
      simp only [step, stepCalculator] at h
      split at h
      · cases h
      · next n hpc =>
        obtain rfl := Option.some.inj h
        exact Move.loop n hpc
      · next n hpc =>
        obtain rfl := Option.some.inj h
        exact Move.getNextStep n hpc
      · next n hpc =>
        obtain ⟨hflag, rfl⟩ := map_waitWithPack_eq_some.mp h
        exact Move.waitPrinter n hpc hflag
      · next n hpc =>
        obtain rfl := Option.some.inj h
        exact Move.setParams n hpc
      · next n hpc =>
        obtain rfl := Option.some.inj h
        exact Move.signalPrinter n hpc
  | printer =>
      simp only [step, stepPrinter] at h
      split at h
      · next hpc =>
        obtain rfl := Option.some.inj h
        exact Move.createOutputFiles hpc
      · next hpc =>
        simp only [Printer.print, fetchMsg, Option.map_some, Option.some.injEq, if_true,
          List.append_nil] at h
        obtain rfl := h
        exact Move.print hpc
      · cases h

/-! ## Nobody raises the flag -/

/-- The waits still ahead of the calculator. -/
@[simp] def CalculatorPc.remaining : CalculatorPc → ℕ
  | .loop n => n
  | .getNextStep n => n + 1
  | .waitPrinter n => n + 1
  | .setParams n => n
  | .signalPrinter n => n

/-- **The flag is spent on the first wait.**  In every reachable state, the waits still
ahead and the flag account for the iterations. -/
theorem remaining_add_one {P : State → Action → Prop} {iterations : ℕ} {as : List Action}
    {s : State} (h : Run (step floatArrToString) P (init iterations) as s) :
    s.calculator.remaining + 1 = iterations + s.printerFromSignal.toNat := by
  induction h with
  | nil => rfl
  | snoc _ _ hstep ih =>
      cases step_move hstep with
      | loop n hpc => simpa [hpc] using ih
      | getNextStep n hpc => simpa [hpc] using ih
      | waitPrinter n hpc hflag => simpa [hpc, hflag] using ih
      | setParams n hpc => simpa [hpc] using ih
      | signalPrinter n hpc => simpa [hpc] using ih
      | createOutputFiles hpc => exact ih
      | print hpc => exact ih

/-- No step raises the flag, the printer's least of all. -/
theorem printerFromSignal_run {P : State → Action → Prop} {s₀ : State} {as : List Action}
    {s : State} (h : Run (step floatArrToString) P s₀ as s)
    (h₀ : s₀.printerFromSignal = false) : s.printerFromSignal = false := by
  apply h.invariant (I := fun s => s.printerFromSignal = false) h₀
  intro s a s' hf _ hstep
  cases step_move hstep with
  | waitPrinter n hpc hflag => rfl
  | _ => exact hf

/-- Nothing is ever printed. -/
theorem printed_eq_nil {P : State → Action → Prop} {iterations : ℕ} {as : List Action}
    {s : State} (h : Run (step floatArrToString) P (init iterations) as s) : s.printed = [] := by
  apply h.invariant (I := fun s => s.printed = []) rfl
  intro s a s' hnil _ hstep
  cases step_move hstep <;> exact hnil

/-! ## The calculator at the printer's flag -/

variable (floatArrToString) in
/-- The calculator is not blocked for good by the printer: at the wait of
`print_calc_data` one of the two threads can move, and the flag is raised already or
the printer can still go on until it is. -/
def NotBlockedByPrinter (s : State) : Prop :=
  ∀ n, s.calculator = .waitPrinter n →
    (∃ a, (step floatArrToString s a).isSome)
      ∧ ∃ as s', (∀ a ∈ as, a = .printer) ∧ run (step floatArrToString) s as = some s'
          ∧ s'.printerFromSignal = true

/-- With the flag raised the calculator is not blocked. -/
theorem notBlocked_of_flag {s : State} (hflag : s.printerFromSignal = true) :
    NotBlockedByPrinter floatArrToString s := by
  intro n hpc
  constructor
  · refine ⟨.calculator, ?_⟩
    simp [step, stepCalculator, hpc, hflag, waitWithPack]
  · exact ⟨[], s, by simp, rfl, hflag⟩

/-- With the flag down the calculator is blocked at its wait, whatever the printer does. -/
theorem blocked_of_not_flag {s : State} {n : ℕ} (hpc : s.calculator = .waitPrinter n)
    (hflag : s.printerFromSignal = false) : ¬ NotBlockedByPrinter floatArrToString s := by
  intro hnot
  obtain ⟨-, as, s', -, hrun, hflag'⟩ := hnot n hpc
  have hdown := printerFromSignal_run (Run.of_run (P := Any) hrun (fun _ _ _ => trivial)) hflag
  rw [hdown] at hflag'
  cases hflag'

/-- The schedule that leads to the second wait, the printer's two steps first. -/
def toSecondWait : List Action := List.replicate 2 .printer ++ List.replicate 7 .calculator

variable (floatArrToString) in
/-- Two iterations or more lead to the second wait, the flag down and the printer past
its loop. -/
theorem second_wait (iterations : ℕ) :
    ∃ s, Run (step floatArrToString) Any (init (iterations + 2)) toSecondWait s
      ∧ s.calculator = .waitPrinter iterations ∧ s.printerFromSignal = false
      ∧ s.printer = .ended :=
  ⟨_, Run.of_run rfl (fun _ _ _ => trivial), rfl, rfl, rfl⟩

/-- **The printer blocks the calculator from the second iteration on.**  For every number
of iterations, the calculator is not blocked for good in any reachable state if and
only if there is at most one iteration. -/
theorem never_blocked_iff (iterations : ℕ) :
    (∀ as s, Run (step floatArrToString) Any (init iterations) as s →
      NotBlockedByPrinter floatArrToString s) ↔ iterations ≤ 1 := by
  constructor
  · -- the second wait finds the flag down, and nobody raises it
    intro hall
    by_contra hmany
    obtain ⟨k, rfl⟩ : ∃ k, iterations = k + 2 := ⟨iterations - 2, by omega⟩
    obtain ⟨s, hrun, hpc, hflag, -⟩ := second_wait floatArrToString k
    exact blocked_of_not_flag hpc hflag (hall _ s hrun)
  · -- the only wait is still ahead, so the flag was not spent
    intro hone as s hrun n hpc
    have hlaw := remaining_add_one hrun
    rw [hpc, CalculatorPc.remaining] at hlaw
    have hflag : s.printerFromSignal = true := by
      cases hf : s.printerFromSignal with
      | true => rfl
      | false =>
          rw [hf, Bool.toNat_false] at hlaw
          omega
    exact notBlocked_of_flag hflag n hpc

/-- Two iterations wedge: the calculator is at its second wait, the printer has ended, and
neither can move. -/
theorem second_iteration_wedges :
    ∃ as s, Run (step fun _ => "") Any (init 2) as s ∧ s.calculator = .waitPrinter 0
      ∧ (∀ a, step (fun _ => "") s a = none) ∧ ¬ NotBlockedByPrinter (fun _ => "") s := by
  obtain ⟨s, hrun, hpc, hflag, hended⟩ := second_wait (fun _ => "") 0
  refine ⟨_, s, hrun, hpc, ?_, blocked_of_not_flag hpc hflag⟩
  intro a
  cases a with
  | calculator => simp [step, stepCalculator, hpc, hflag]
  | printer => simp [step, stepPrinter, hended]

end Print

end Printer
