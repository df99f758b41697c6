/-
# Words as four chars (`io_stuff.c`)

The byte codec both programs share: `uint_to_bytes_arr` and `bytes_arr_to_uint`
write and read a 32-bit word as four chars, least significant first, and
`float_to_char_arr` / `char_arr_to_float` apply them to the bit pattern of a
float.  The two copies of `io_stuff.c` (client and server) are the same file.

A `char` is signed, so `ca[i]` is promoted to `int` by sign extension before it
is shifted; the mask applied after the shift removes the spill-over.  Floats are
their 32-bit patterns throughout.

The two round trips, `bytesArrToUint_uintToBytesArr` and
`uintToBytesArr_bytesArrToUint`, are read off from the bits: bit `r` of char `q`
is bit `8 * q + r` of the word.
-/
import Mathlib.Data.List.GetD
import Mathlib.Tactic.IntervalCases
import Mathlib.Order.Defs.LinearOrder

/-- A C `char`: eight bits, read as signed where it is promoted. -/
abbrev CChar := BitVec 8

/-- A C `unsigned int`. -/
abbrev CUInt := BitVec 32

/-- A C `float`, as its bit pattern. -/
abbrev CFloat := BitVec 32

/-! ## The codec -/

/-- `uint_to_bytes_arr`: the `i`-th char is `(int_repr >> (8 * i)) & 0xFF`. -/
def uintToBytesArr (intRepr : CUInt) : List CChar :=
  (List.range 4).map fun i => ((intRepr >>> (8 * i)) &&& 0xff#32).setWidth 8

/-- `bytes_arr_to_uint`: the loop that ors the four shifted and masked chars. -/
def bytesArrToUint (ca : List CChar) : CUInt :=
  (List.range 4).foldl
    (fun result i =>
      result ||| (((ca.getD i 0).signExtend 32 <<< (8 * i)) &&& (0xff#32 <<< (8 * i)))) 0

/-- `float_to_char_arr`: the bit pattern of the float as a word. -/
def floatToCharArr (f : CFloat) : List CChar := uintToBytesArr f

/-- `char_arr_to_float`. -/
def charArrToFloat (ca : List CChar) : CFloat := bytesArrToUint ca

@[simp] theorem length_uintToBytesArr (w : CUInt) : (uintToBytesArr w).length = 4 := by
  simp [uintToBytesArr]

@[simp] theorem length_floatToCharArr (f : CFloat) : (floatToCharArr f).length = 4 :=
  length_uintToBytesArr f

/-! ## The bits of the codec -/

/-- The mask `0xff` keeps the low eight bits. -/
theorem getLsbD_mask (j : ℕ) : (0xff#32).getLsbD j = decide (j < 8) := by
  have hw : (0xff#32) = BitVec.setWidth 32 (BitVec.allOnes 8) := rfl
  rw [hw, BitVec.getLsbD_setWidth, BitVec.getLsbD_allOnes]
  by_cases h : j < 8
  · simp [h, show j < 32 by omega]
  · simp [h]

/-- One round of `bytes_arr_to_uint` contributes its char at offset `8 * i` and
nothing elsewhere, whatever the sign of the char. -/
theorem getLsbD_shifted_char (b : CChar) {i q r : ℕ} (hq : q < 4) (hr : r < 8) :
    ((b.signExtend 32 <<< (8 * i)) &&& (0xff#32 <<< (8 * i))).getLsbD (8 * q + r)
      = (decide (i = q) && b.getLsbD r) := by
  have hj : 8 * q + r < 32 := by omega
  simp only [BitVec.getLsbD_and, BitVec.getLsbD_shiftLeft, getLsbD_mask,
    BitVec.getLsbD_signExtend, hj, decide_true, Bool.true_and]
  rcases lt_trichotomy i q with h | rfl | h
  · have hge : ¬ (8 * q + r - 8 * i < 8) := by omega
    simp [hge, h.ne]
  · have hsub : 8 * i + r - 8 * i = r := by omega
    simp [hsub, hr, show r < 32 by omega]
  · have hlt : 8 * q + r < 8 * i := by omega
    simp [hlt, h.ne']

/-- Bit `8 * q + r` of the word is bit `r` of char `q`. -/
theorem getLsbD_bytesArrToUint (ca : List CChar) {q r : ℕ} (hq : q < 4) (hr : r < 8) :
    (bytesArrToUint ca).getLsbD (8 * q + r) = (ca.getD q 0).getLsbD r := by
  simp only [bytesArrToUint, List.range_succ, List.range_zero, List.nil_append,
    List.foldl_append, List.foldl_cons, List.foldl_nil, BitVec.getLsbD_or,
    getLsbD_shifted_char _ hq hr]
  interval_cases q <;> simp

/-- Bit `r` of char `q` is bit `8 * q + r` of the word. -/
theorem getLsbD_uintToBytesArr (w : CUInt) {q r : ℕ} (hq : q < 4) (hr : r < 8) :
    ((uintToBytesArr w).getD q 0).getLsbD r = w.getLsbD (8 * q + r) := by
  have hget : (uintToBytesArr w).getD q 0 = ((w >>> (8 * q)) &&& 0xff#32).setWidth 8 := by
    rw [uintToBytesArr, List.getD_eq_getElem _ _ (by simpa using hq)]
    simp
  rw [hget, BitVec.getLsbD_setWidth, BitVec.getLsbD_and, getLsbD_mask,
    BitVec.getLsbD_ushiftRight]
  simp [hr]

/-- A word whose last char is `0xff` is large. -/
theorem le_bytesArrToUint {ca : List CChar} (h : ca.getD 3 0 = 0xff) :
    2 ^ 31 ≤ (bytesArrToUint ca).toNat := by
  have hbit := getLsbD_bytesArrToUint ca (q := 3) (r := 7) (by decide) (by decide)
  rw [h] at hbit
  exact Nat.ge_two_pow_of_testBit hbit

/-! ## The round trips -/

/-- Reading back a written word gives the word. -/
theorem bytesArrToUint_uintToBytesArr (w : CUInt) : bytesArrToUint (uintToBytesArr w) = w := by
  apply BitVec.eq_of_getLsbD_eq
  intro j hj
  have hq : j / 8 < 4 := by omega
  have hr : j % 8 < 8 := Nat.mod_lt _ (by decide)
  rw [← Nat.div_add_mod j 8, getLsbD_bytesArrToUint _ hq hr, getLsbD_uintToBytesArr _ hq hr]

/-- Writing back a word read from four chars gives the chars. -/
theorem uintToBytesArr_bytesArrToUint (ca : List CChar) (h : ca.length = 4) :
    uintToBytesArr (bytesArrToUint ca) = ca := by
  apply List.ext_getElem
  · rw [length_uintToBytesArr, h]
  · intro q hq hq'
    have hq4 : q < 4 := by simpa using hq
    have hbyte : (uintToBytesArr (bytesArrToUint ca)).getD q 0 = ca.getD q 0 := by
      apply BitVec.eq_of_getLsbD_eq
      intro r hr
      rw [getLsbD_uintToBytesArr _ hq4 hr, getLsbD_bytesArrToUint _ hq4 hr]
    rwa [List.getD_eq_getElem _ _ hq, List.getD_eq_getElem _ _ hq'] at hbyte

/-- Reading back a written float gives the float. -/
theorem charArrToFloat_floatToCharArr (f : CFloat) : charArrToFloat (floatToCharArr f) = f :=
  bytesArrToUint_uintToBytesArr f
