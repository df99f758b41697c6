/-
# Printing a float array (`run_printer.c` and `utils.c` of the client)

`initialize_float_array` keeps the number of floats with their copy.  `print` takes that
number for one of bytes: it divides it by the size of a float, and hands
`float_arr_to_string` the first quarter of the array.  And it gets that far only with a
message, which `fetch_msg` never has.

So no array is printed whole, either way (`not_writesWhole`).
-/
import Quadrocopt.FloatStrings
import Quadrocopt.Printer

namespace Printer

open FloatStrings

/-- `initialize_float_array`. -/
def initializeFloatArray (arr : List CFloat) (arrLen : ℕ) : Message :=
  .floatArr (arr.take arrLen) arrLen

/-- The string that `float_arr_to_string` returns. -/
def floatArrText (fmt : CFloat → List Char) (fs : List CFloat) : String :=
  match (floatArrToString fmt fs).bind cString with
  | none => ""
  | some text => String.ofList text

/-- `print` from the check of the message on. -/
def printMessage (floatArrToString : List CFloat → String) (stock : PrinterStock)
    (msg : Message) : Option (ℤ × List Output) :=
  stock.params.bind fun params =>
    (messageText floatArrToString params.payloadType msg).map fun text =>
      (0, [⟨params.outStream, params.filePath, params.openMode, text⟩])

/-- `print` looks for a message first. -/
theorem print_eq (floatArrToString : List CFloat → String) (stock : PrinterStock) :
    print floatArrToString stock
      = match fetchMsg stock with
        | none => some (-1, [])
        | some msg => printMessage floatArrToString stock msg := rfl

/-- What is written is one line, with the texts of all the floats and single spaces in
between. -/
def WritesWhole (fmt : CFloat → List Char) (fs : List CFloat)
    (result : Option (ℤ × List Output)) : Prop :=
  ∃ status out, result = some (status, [out]) ∧ out.text = String.ofList (joined fmt fs)

variable {fmt : CFloat → List Char} {fs : List CFloat}

theorem floatArrText_eq (h : ∀ f ∈ fs, Printable (fmt f)) :
    floatArrText fmt fs = String.ofList (joined fmt fs) := by
  by_cases hne : fs = []
  · rw [hne]
    rfl
  · obtain ⟨hblock, -, htext⟩ := floatArrToString_eq hne h
    rw [floatArrText, hblock, Option.bind_some, htext]

/-- **What is printed of an array.**  The texts of the first quarter of its floats. -/
theorem printMessage_initializeFloatArray (h : ∀ f ∈ fs, Printable (fmt f))
    (params : PrinterParameters) (hpayload : params.payloadType = .floatArr)
    (queue : Option (List Message)) :
    printMessage (floatArrText fmt) ⟨some params, queue⟩ (initializeFloatArray fs fs.length)
      = some (0, [⟨params.outStream, params.filePath, params.openMode,
          String.ofList (joined fmt (fs.take (fs.length / 4)))⟩]) := by
  have htake : ∀ f ∈ fs.take (fs.length / 4), Printable (fmt f) := fun f hf =>
    h f (List.mem_of_mem_take hf)
  rw [printMessage, Option.bind_some, hpayload, initializeFloatArray, List.take_length,
    messageText, Option.map_some, floatArrText_eq htake]

/-- **No array is printed whole.**  With whatever formatting and for every array with a
float in it: `print` writes nothing, and with the message at hand it writes less. -/
theorem not_writesWhole (h : ∀ f ∈ fs, Printable (fmt f)) (hne : fs ≠ [])
    (params : PrinterParameters) (hpayload : params.payloadType = .floatArr)
    (queue : Option (List Message)) :
    ¬WritesWhole fmt fs (print (floatArrText fmt) ⟨some params, queue⟩)
      ∧ ¬WritesWhole fmt fs (printMessage (floatArrText fmt) ⟨some params, queue⟩
        (initializeFloatArray fs fs.length)) := by
  constructor
  · rintro ⟨status, out, hresult, -⟩
    have hnone : fetchMsg ⟨some params, queue⟩ = none := rfl
    rw [print_eq, hnone] at hresult
    cases hresult
  · rintro ⟨status, out, hresult, htext⟩
    rw [printMessage_initializeFloatArray h params hpayload queue, Option.some_inj,
      Prod.mk.injEq] at hresult
    obtain ⟨-, hout⟩ := hresult
    rw [← List.head_eq_of_cons_eq hout] at htext
    have hpos := List.length_pos_iff.mpr hne
    exact joined_take_ne h (Nat.div_lt_self hpos (by decide)) (String.ofList_injective htext)

/-- A format of one digit. -/
def digit (f : CFloat) : List Char := if f = 0 then ['0'] else ['1']

theorem printable_digit (f : CFloat) : Printable (digit f) := by
  unfold digit
  split
  · exact ⟨by decide, by decide, by decide, by decide⟩
  · exact ⟨by decide, by decide, by decide, by decide⟩

theorem not_writesWhole_one :
    ¬WritesWhole digit [0] (print (floatArrText digit) ⟨some resultsParams, none⟩)
      ∧ ¬WritesWhole digit [0] (printMessage (floatArrText digit) ⟨some resultsParams, none⟩
        (initializeFloatArray [0] 1)) :=
  not_writesWhole (fun f _ => printable_digit f) (by decide) resultsParams rfl none

/-- Of four floats the first is printed, once there is a message to print. -/
theorem first_of_four :
    let stock : PrinterStock := ⟨some resultsParams, none⟩
    let fs : List CFloat := [0, 1, 1, 1]
    print (floatArrText digit) stock = some (-1, [])
      ∧ printMessage (floatArrText digit) stock (initializeFloatArray fs 4)
        = some (0, [⟨.fout, some "results.txt", some "a+", "0"⟩])
      ∧ ¬WritesWhole digit fs (print (floatArrText digit) stock)
      ∧ ¬WritesWhole digit fs (printMessage (floatArrText digit) stock
        (initializeFloatArray fs 4)) := by
  intro stock fs
  have hall : ∀ f ∈ fs, Printable (digit f) := fun f _ => printable_digit f
  have hfirst : joined digit (fs.take (fs.length / 4)) = ['0'] := by decide
  have hprint := printMessage_initializeFloatArray hall resultsParams rfl none
  rw [hfirst] at hprint
  refine ⟨rfl, hprint, ?_, ?_⟩
  · rintro ⟨status, out, hresult, -⟩
    cases hresult
  · rintro ⟨status, out, hresult, htext⟩
    have hout := hprint.symm.trans hresult
    cases hout
    have hchars := String.ofList_injective (htext : String.ofList ['0'] = _)
    exact absurd hchars (by decide)

end Printer
