/-
# Packets in memory (`network_interactions.c` and `io_stuff.c`, with their blocks)

The functions that build, send, receive and read packets, as programs on a heap: every
`malloc`, `free`, `memcpy` and access through a pointer is there, and what C leaves undefined
has no result.  Client and server hold the same code for this part.

Each function is run to an equation.  It does not go wrong; what it returns is what the function
of `Packet.lean` returns; and the blocks that it leaves are told: of its own blocks
`fill_packet` leaves the two of the packet, `float_pack_to_bytes` and `get_floats` leave one,
and `bytes_to_pack` leaves three, since `populate_pack_of_floats` does not release the block in
which it takes the length.
-/
import Quadrocopt.HeapProgram
import Quadrocopt.ReceiveBuffer

namespace OnHeap

open HeapProgram

/-! ## The blocks -/

/-- What a block of the programs holds. -/
inductive Block where
  | chars (cells : List (Option CChar))
  | floats (cells : List (Option CFloat))
  | packet (type : Option PacketType) (length : Option CUInt) (buf : Option Ptr)

/-- Arrays of `char`. -/
def chars : ArrayType Block CChar where
  array := .chars
  view
    | .chars cells => some cells
    | _ => none
  view_array _ := rfl

/-- Arrays of `float`. -/
def floats : ArrayType Block CFloat where
  array := .floats
  view
    | .floats cells => some cells
    | _ => none
  view_array _ := rfl

/-- A value that must have been written. -/
def known {α : Type} : Option α → Prog Block α
  | some a => pure a
  | none => undefined

/-- The fields of a `struct _Packet`. -/
def packetFields (pack : Ptr) : Prog Block (Option PacketType × Option CUInt × Option Ptr) := do
  match ← read pack with
  | .packet t n b => pure (t, n, b)
  | _ => undefined

/-- `pack->type`. -/
def getType (pack : Ptr) : Prog Block PacketType := do known (← packetFields pack).1

/-- `pack->length`. -/
def getLength (pack : Ptr) : Prog Block CUInt := do known (← packetFields pack).2.1

/-- `pack->buf`. -/
def getBuf (pack : Ptr) : Prog Block Ptr := do known (← packetFields pack).2.2

/-- `pack->type = t`. -/
def setType (pack : Ptr) (t : PacketType) : Prog Block Unit := do
  let fields ← packetFields pack
  write pack (.packet (some t) fields.2.1 fields.2.2)

/-- `pack->length = n`. -/
def setLength (pack : Ptr) (n : CUInt) : Prog Block Unit := do
  let fields ← packetFields pack
  write pack (.packet fields.1 (some n) fields.2.2)

/-- `pack->buf = b`. -/
def setBuf (pack : Ptr) (b : Ptr) : Prog Block Unit := do
  let fields ← packetFields pack
  write pack (.packet fields.1 fields.2.1 (some b))

/-! ## Words -/

/-- `uint_to_bytes_arr`. -/
protected def uintToBytesArr (intRepr : CUInt) : Prog Block Ptr := do
  let result ← chars.malloc 4
  forRange 4 fun i =>
    chars.store result i (((intRepr >>> (8 * i)) &&& 0xff#32).setWidth 8)
  return result

/-- The chars that `bytes_arr_to_uint` reads, in the order of its rounds. -/
def fourChars (ca : Ptr) : Prog Block (List CChar) := do
  let c₀ ← chars.load ca 0
  let c₁ ← chars.load ca 1
  let c₂ ← chars.load ca 2
  let c₃ ← chars.load ca 3
  return [c₀, c₁, c₂, c₃]

/-- `bytes_arr_to_uint`. -/
protected def bytesArrToUint (ca : Ptr) : Prog Block CUInt := do
  let cs ← fourChars ca
  return bytesArrToUint cs

/-- `float_to_char_arr`. -/
protected def floatToCharArr (f : CFloat) : Prog Block Ptr := OnHeap.uintToBytesArr f

/-- `char_arr_to_float`. -/
protected def charArrToFloat (ca : Ptr) : Prog Block CFloat := OnHeap.bytesArrToUint ca

/-- `pack_type_to_bytes`. -/
protected def packTypeToBytes (t : PacketType) : Prog Block Ptr := OnHeap.uintToBytesArr t.toUInt

/-- `char_arr_to_pack_type`, and the `switch` behind it, which ends the process for a type that
is none. -/
protected def charArrToPackType (ca : Ptr) : Prog Block PacketType := do
  let cs ← fourChars ca
  known (charArrToPackType cs)

/-! ## Building and sending -/

/-- `fill_packet`. -/
protected def fillPacket (buf : Ptr) (len : ℕ) : Prog Block Ptr := do
  let pack ← malloc (.packet none none none)
  setLength pack (BitVec.ofNat 32 (len * 4))
  setBuf pack (← chars.malloc (4 * len))
  forRange len fun i => do
    let currentFloat ← floats.load buf i
    let floatRepr ← OnHeap.floatToCharArr currentFloat
    chars.memcpy (← getBuf pack) (4 * i) floatRepr 0 4
    free floatRepr
  return pack

/-- `gen_packet_from_floats`. -/
protected def genPacketFromFloats (buf : Ptr) (len : ℕ) : Prog Block Ptr := do
  let pack ← OnHeap.fillPacket buf len
  setType pack .packOfFloats
  return pack

/-- `float_pack_to_bytes`. -/
def floatPackToBytes (pack : Ptr) : Prog Block Ptr := do
  let buf ← chars.malloc (8 + (← getLength pack).toNat)
  let t ← OnHeap.packTypeToBytes (← getType pack)
  chars.memcpy buf 0 t 0 4
  let len ← OnHeap.uintToBytesArr (← getLength pack)
  chars.memcpy buf 4 len 0 4
  chars.memcpy buf 8 (← getBuf pack) 0 (← getLength pack).toNat
  free t
  free len
  return buf

/-- `pack_to_bytes`: both types go through `float_pack_to_bytes`. -/
protected def packToBytes (pack : Ptr) : Prog Block Ptr := do
  match ← getType pack with
  | .packOfFloats => floatPackToBytes pack
  | .initPack => floatPackToBytes pack

/-- `get_pack_bytes_size`. -/
protected def getPackBytesSize (pack : Ptr) : Prog Block ℕ := do
  return (8 + (← getLength pack).toNat) % 2 ^ 32

/-- The datagram that `sendto` makes of the first `size` chars of a block. -/
def sendto (bytes : Ptr) (size : ℕ) : Prog Block Datagram := do
  let cells ← chars.cells bytes
  if size ≤ cells.length then known ((cells.take size).mapM id) else undefined

/-- `free_pack`. -/
def freePack (pack : Ptr) : Prog Block Unit := do
  free (← getBuf pack)
  free pack

/-! ## Receiving and reading -/

/-- `recvfrom` writes the datagram at the front of the buffer. -/
protected def recvfrom (buf : Ptr) (d : Datagram) : Prog Block Unit := do
  let cells ← chars.cells buf
  write buf (.chars ((d.take cells.length).map some ++ cells.drop d.length))

/-- `populate_pack_of_floats`. -/
protected def populatePackOfFloats (ca pack : Ptr) : Prog Block Unit := do
  let len ← chars.malloc 4
  chars.memcpy len 0 ca 4 4
  let pLen ← OnHeap.bytesArrToUint len
  setLength pack pLen
  setBuf pack (← chars.malloc pLen.toNat)
  chars.memcpy (← getBuf pack) 0 ca 8 pLen.toNat

/-- `bytes_to_pack`. -/
protected def bytesToPack (ca : Ptr) : Prog Block Ptr := do
  let tArr ← chars.malloc 4
  chars.memcpy tArr 0 ca 0 4
  let t ← OnHeap.charArrToPackType tArr
  free tArr
  let pack ← malloc (.packet none none none)
  setType pack t
  OnHeap.populatePackOfFloats ca pack
  return pack

/-- `get_slice`. -/
protected def getSlice (buf : Ptr) (start fin : ℕ) : Prog Block Ptr := do
  let slice ← chars.malloc (fin - start)
  chars.memcpy slice 0 buf start (fin - start)
  return slice

/-- `get_floats`. -/
protected def getFloats (pack : Ptr) : Prog Block Ptr := do
  let floatsCount := (← getLength pack).toNat / 4
  let result ← floats.malloc floatsCount
  forRange floatsCount fun i => do
    let slice ← OnHeap.getSlice (← getBuf pack) (4 * i) (4 * i + 4)
    floats.store result i (← OnHeap.charArrToFloat slice)
    free slice
  return result

/-- `get_floats_count`. -/
protected def getFloatsCount (pack : Ptr) : Prog Block ℕ := do
  match ← getType pack with
  | .packOfFloats => return (← getLength pack).toNat / 4
  | .initPack => return 2 ^ 64 - 1

/-- `copy_arr_of_floats`. -/
protected def copyArrOfFloats (arr : Ptr) (arrSize : ℕ) : Prog Block Ptr := do
  let copy ← floats.malloc arrSize
  floats.memcpy copy 0 arr 0 arrSize
  return copy

/-! ## What the functions do: words -/

section Words

variable {h : Heap Block} {p : ℕ}

/-- A block of chars. -/
abbrev charsOf (cs : List CChar) : Block := chars.array (cs.map some)

/-- A block of floats. -/
abbrev floatsBlock (fs : List CFloat) : Block := floats.array (fs.map some)

/-- A word is written into a new block of four bytes. -/
theorem uintToBytesArr_run (w : CUInt) :
    OnHeap.uintToBytesArr w h = some (some h.next, h.push (charsOf (uintToBytesArr w))) := by
  rw [OnHeap.uintToBytesArr, bind_run chars.malloc_run, bind_run (chars.fill_run _)]
  rfl

theorem floatToCharArr_run (f : CFloat) :
    OnHeap.floatToCharArr f h = some (some h.next, h.push (charsOf (floatToCharArr f))) :=
  uintToBytesArr_run f

theorem packTypeToBytes_run (t : PacketType) :
    OnHeap.packTypeToBytes t h = some (some h.next, h.push (charsOf (packTypeToBytes t))) :=
  uintToBytesArr_run t.toUInt

theorem fourChars_run {cs : List CChar} (hp : h.block p = some (charsOf cs))
    (hcs : cs.length = 4) : fourChars (some p) h = some (cs, h) := by
  match cs, hcs with
  | [c₀, c₁, c₂, c₃], _ =>
    rw [fourChars, bind_run (chars.load_run hp rfl), bind_run (chars.load_run hp rfl),
      bind_run (chars.load_run hp rfl), bind_run (chars.load_run hp rfl)]
    rfl

/-- Four bytes are read as a word. -/
theorem bytesArrToUint_run {cs : List CChar} (hp : h.block p = some (charsOf cs))
    (hcs : cs.length = 4) : OnHeap.bytesArrToUint (some p) h = some (bytesArrToUint cs, h) := by
  rw [OnHeap.bytesArrToUint, bind_run (fourChars_run hp hcs)]
  rfl

theorem charArrToFloat_run {cs : List CChar} (hp : h.block p = some (charsOf cs))
    (hcs : cs.length = 4) : OnHeap.charArrToFloat (some p) h = some (charArrToFloat cs, h) :=
  bytesArrToUint_run hp hcs

theorem charArrToPackType_run {cs : List CChar} {t : PacketType}
    (hp : h.block p = some (charsOf cs)) (hcs : cs.length = 4)
    (ht : charArrToPackType cs = some t) :
    OnHeap.charArrToPackType (some p) h = some (t, h) := by
  rw [OnHeap.charArrToPackType, bind_run (fourChars_run hp hcs), ht]
  rfl

end Words

/-! ## The fields of a packet -/

section Fields

variable {h : Heap Block} {p : ℕ} {t : Option PacketType} {n : Option CUInt} {b : Option Ptr}

theorem packetFields_run (hp : h.block p = some (.packet t n b)) :
    packetFields (some p) h = some ((t, n, b), h) := by
  rw [packetFields, bind_run (read_run hp)]
  rfl

theorem getType_run {t : PacketType} (hp : h.block p = some (.packet (some t) n b)) :
    getType (some p) h = some (t, h) := by
  rw [getType, bind_run (packetFields_run hp)]
  rfl

theorem getLength_run {n : CUInt} (hp : h.block p = some (.packet t (some n) b)) :
    getLength (some p) h = some (n, h) := by
  rw [getLength, bind_run (packetFields_run hp)]
  rfl

theorem getBuf_run {b : Ptr} (hp : h.block p = some (.packet t n (some b))) :
    getBuf (some p) h = some (b, h) := by
  rw [getBuf, bind_run (packetFields_run hp)]
  rfl

theorem setType_run (hp : h.block p = some (.packet t n b)) (t' : PacketType) :
    setType (some p) t' h = some ((), h.put p (.packet (some t') n b)) := by
  rw [setType, bind_run (packetFields_run hp)]
  exact write_run hp

theorem setLength_run (hp : h.block p = some (.packet t n b)) (n' : CUInt) :
    setLength (some p) n' h = some ((), h.put p (.packet t (some n') b)) := by
  rw [setLength, bind_run (packetFields_run hp)]
  exact write_run hp

theorem setBuf_run (hp : h.block p = some (.packet t n b)) (b' : Ptr) :
    setBuf (some p) b' h = some ((), h.put p (.packet t n (some b'))) := by
  rw [setBuf, bind_run (packetFields_run hp)]
  exact write_run hp

end Fields

/-! ## Packets that are built -/

section Building

variable {h : Heap Block} {p q : ℕ}

/-- The block of a packet whose payload is at `q`. -/
def packetBlock (pack : Packet) (q : ℕ) : Block :=
  .packet (some pack.type) (some pack.length) (some (some q))

/-- A pointer to floats; NULL points to no floats at all. -/
def FloatsAt (h : Heap Block) (buf : Ptr) (fs : List CFloat) : Prop :=
  match buf with
  | none => fs = []
  | some p => h.block p = some (floatsBlock fs)

/-- What `fill_packet` leaves after `i` rounds. -/
def filling (h : Heap Block) (fs : List CFloat) (i : ℕ) : Heap Block :=
  ((h.push (.packet none (some (BitVec.ofNat 32 (fs.length * 4))) (some (some (h.next + 1))))).push
    (chars.array (written ((fs.take i).flatMap floatToCharArr) (4 * fs.length)))).skip i

/-- The `i`-th float. -/
theorem load_floatsAt {buf : Ptr} {fs : List CFloat} (hbuf : FloatsAt h buf fs) {i : ℕ}
    (hi : i < fs.length) : floats.load buf i h = some (fs[i], h) := by
  cases buf with
  | none =>
      subst hbuf
      exact absurd hi (Nat.not_lt_zero i)
  | some p => exact floats.load_run hbuf (by simp [hi])

/-- One round of `fill_packet`. -/
theorem filling_succ {buf : Ptr} {fs : List CFloat} (hbuf : FloatsAt h buf fs) {i : ℕ}
    (hi : i < fs.length) :
    (do let currentFloat ← floats.load buf i
        let floatRepr ← OnHeap.floatToCharArr currentFloat
        chars.memcpy (← getBuf (some h.next)) (4 * i) floatRepr 0 4
        free floatRepr : Prog Block Unit) (filling h fs i) = some ((), filling h fs (i + 1)) := by
  have hbuf' : FloatsAt (filling h fs i) buf fs := by
    cases buf with
    | none => exact hbuf
    | some p => exact Heap.block_push (Heap.block_push hbuf)
  have hlength : ((fs.take i).flatMap floatToCharArr).length = 4 * i := by
    rw [length_flatMap_floatToCharArr, List.length_take, Nat.min_eq_left hi.le]
  have hroom : ((fs.take i).flatMap floatToCharArr).length + (floatToCharArr fs[i]).length
      ≤ 4 * fs.length := by
    rw [hlength, length_floatToCharArr]
    omega
  have hpack : ((filling h fs i).push (charsOf (floatToCharArr fs[i]))).block h.next
      = some (.packet none _ (some (some (h.next + 1)))) :=
    Heap.block_push (Heap.block_push (Heap.block_push_self ..))
  have hblock : ((filling h fs i).push (charsOf (floatToCharArr fs[i]))).block (h.next + 1)
      = some (chars.array (written ((fs.take i).flatMap floatToCharArr) (4 * fs.length))) :=
    Heap.block_push (Heap.block_push_self (h.push _) _)
  have hcopy := chars.memcpy_written (j := 0) hblock (Heap.block_push_self ..) hroom (by simp)
  rw [length_floatToCharArr, hlength] at hcopy
  rw [bind_run (load_floatsAt hbuf' hi), bind_run (floatToCharArr_run _), bind_run (getBuf_run hpack),
    bind_run hcopy, Heap.put_push_of_ne (by simp [filling]; omega)]
  -- the round writes the next four chars, and its own block is released again
  have hnext : filling h fs (i + 1) = ((filling h fs i).put (h.next + 1) (chars.array
      (written ((fs.take i).flatMap floatToCharArr ++ floatToCharArr fs[i]) (4 * fs.length)))).skip 1 := by
    rw [filling, filling, Heap.put_skip, Heap.skip_skip, List.take_succ_eq_append_getElem hi,
      List.flatMap_append, List.flatMap_singleton]
    exact congrArg (Heap.skip · (i + 1)) (Heap.put_push ..).symm
  rw [hnext, ← Heap.drop_push]
  exact free_run (Heap.block_push_self ..)

/-- The payload is written float by float. -/
theorem fillPacket_run {buf : Ptr} {fs : List CFloat} (hbuf : FloatsAt h buf fs) :
    OnHeap.fillPacket buf fs.length h = some (some h.next, filling h fs fs.length) := by
  have hpack : ((h.push (.packet none (some (BitVec.ofNat 32 (fs.length * 4))) none)).push
      (chars.array (written [] (4 * fs.length)))).block h.next = some _ :=
    Heap.block_push (Heap.block_push_self ..)
  rw [OnHeap.fillPacket, bind_run malloc_run, bind_run (setLength_run (Heap.block_push_self ..) _),
    Heap.put_push, bind_run chars.malloc_run, bind_run (setBuf_run hpack _),
    Heap.put_push_of_ne (by simp), Heap.put_push, bind_run]
  · rfl
  · exact forRange_run (filling h fs) fun i hi => filling_succ hbuf hi

/-- A heap with a packet on top. -/
def pushPacket (h : Heap Block) (pack : Packet) : Heap Block :=
  (h.push (packetBlock pack (h.next + 1))).push (charsOf pack.buf)

/-- A packet and its payload. -/
structure PacketAt (h : Heap Block) (p q : ℕ) (pack : Packet) : Prop where
  packet : h.block p = some (packetBlock pack q)
  payload : h.block q = some (charsOf pack.buf)

theorem PacketAt.push {pack : Packet} (hp : PacketAt h p q pack) (b : Block) :
    PacketAt (h.push b) p q pack :=
  ⟨Heap.block_push hp.packet, Heap.block_push hp.payload⟩

theorem PacketAt.skip {pack : Packet} (hp : PacketAt h p q pack) (n : ℕ) :
    PacketAt (h.skip n) p q pack := ⟨hp.packet, hp.payload⟩

/-- A new packet and its payload are the two blocks on top. -/
theorem packetAt_pushPacket (h : Heap Block) (pack : Packet) :
    PacketAt (pushPacket h pack) h.next (h.next + 1) pack :=
  ⟨Heap.block_push (Heap.block_push_self ..), Heap.block_push_self (h.push _) _⟩

/-- **Building.**  `gen_packet_from_floats` leaves the packet and its payload. -/
theorem genPacketFromFloats_run {buf : Ptr} {fs : List CFloat} (hbuf : FloatsAt h buf fs) :
    OnHeap.genPacketFromFloats buf fs.length h
      = some (some h.next, (pushPacket h (genPacketFromFloats fs)).skip fs.length) := by
  have hfilled : written ((fs.take fs.length).flatMap floatToCharArr) (4 * fs.length)
      = (filledBuf fs).map some := by
    rw [List.take_length, written_full (length_flatMap_floatToCharArr fs), filledBuf_eq]
  have hpack : (filling h fs fs.length).block h.next = some _ :=
    Heap.block_push (Heap.block_push_self ..)
  rw [OnHeap.genPacketFromFloats, bind_run (fillPacket_run hbuf), bind_run (setType_run hpack _),
    filling, Heap.put_skip, Heap.put_push_of_ne (by simp), Heap.put_push, hfilled]
  rfl

/-- The heap of `float_pack_to_bytes` when it has written a number of bytes, with its block for
the type on top. -/
def encoding (h : Heap Block) (pack : Packet) (done : List CChar) : Heap Block :=
  (h.push (chars.array (written done (8 + pack.length.toNat)))).push (charsOf (packTypeToBytes pack.type))

theorem packetAt_encoding {pack : Packet} (hp : PacketAt h p q pack) (done : List CChar) :
    PacketAt (encoding h pack done) p q pack := (hp.push _).push _

theorem block_encoding (h : Heap Block) (pack : Packet) (done : List CChar) :
    (encoding h pack done).block h.next
      = some (chars.array (written done (8 + pack.length.toNat))) :=
  Heap.block_push (Heap.block_push_self ..)

theorem put_encoding (h : Heap Block) (pack : Packet) (done done' : List CChar) :
    (encoding h pack done).put h.next (chars.array (written done' (8 + pack.length.toNat)))
      = encoding h pack done' := by
  rw [encoding, Heap.put_push_of_ne (by simp), Heap.put_push, encoding]

/-- The copy of the type. -/
theorem encoding_type (h : Heap Block) (pack : Packet) :
    chars.memcpy (some h.next) 0 (some (h.next + 1)) 0 4 (encoding h pack [])
      = some ((), encoding h pack (packTypeToBytes pack.type)) := by
  have htype : (packTypeToBytes pack.type).length = 4 := length_uintToBytesArr _
  have hroom : ([] : List CChar).length + (packTypeToBytes pack.type).length
      ≤ 8 + pack.length.toNat := by
    rw [List.length_nil, htype]
    omega
  have hcopy := chars.memcpy_written (j := 0) (block_encoding h pack [])
    (Heap.block_push_self ..) hroom (by simp)
  rw [htype, put_encoding] at hcopy
  exact hcopy

/-- The other copies, with the block for the length on top. -/
theorem encoding_copy {pack : Packet} {done xs : List CChar} {i n r : ℕ} {L : Block}
    {cells : List (Option CChar)} (hi : done.length = i) (hn : xs.length = n)
    (hr : ((encoding h pack done).push L).block r = some (chars.array cells))
    (hroom : i + n ≤ 8 + pack.length.toNat) (hcells : cells.take n = xs.map some) :
    chars.memcpy (some h.next) i (some r) 0 n ((encoding h pack done).push L)
      = some ((), (encoding h pack (done ++ xs)).push L) := by
  subst hi hn
  rw [chars.memcpy_written (j := 0) (Heap.block_push (block_encoding h pack done)) hr hroom hcells,
    Heap.put_push_of_ne (by simp [encoding]; omega), put_encoding]

/-- The block for the type is released. -/
theorem encoding_freeType (h : Heap Block) (pack : Packet) :
    free (some (h.next + 1)) ((encoding h pack (packToBytes pack)).push
        (charsOf (uintToBytesArr pack.length)))
      = some ((), ((h.push (charsOf (packToBytes pack))).skip 1).push
        (charsOf (uintToBytesArr pack.length))) := by
  have hblock : ((encoding h pack (packToBytes pack)).push
      (charsOf (uintToBytesArr pack.length))).block (h.next + 1) = some _ :=
    Heap.block_push (Heap.block_push_self (h.push _) _)
  have hdrop : (encoding h pack (packToBytes pack)).drop (h.next + 1)
      = (h.push (charsOf (packToBytes pack))).skip 1 := by
    rw [encoding, written_full (length_packToBytes pack)]
    exact Heap.drop_push
  rw [free_run hblock, Heap.drop_push_of_ne (by simp [encoding]), hdrop]

/-- **Encoding.**  `pack_to_bytes` leaves the bytes of the packet. -/
theorem packToBytes_run {pack : Packet} (hp : PacketAt h p q pack) :
    OnHeap.packToBytes (some p) h
      = some (some h.next, (h.push (charsOf (packToBytes pack))).skip 2) := by
  have hbranch : OnHeap.packToBytes (some p) h = floatPackToBytes (some p) h := by
    rw [OnHeap.packToBytes, bind_run (getType_run hp.packet)]
    cases pack.type <;> rfl
  have htype : (packTypeToBytes pack.type).length = 4 := length_uintToBytesArr _
  have hlen : (uintToBytesArr pack.length).length = 4 := length_uintToBytesArr _
  have hheader : (packTypeToBytes pack.type ++ uintToBytesArr pack.length).length = 8 := by
    rw [List.length_append, htype, hlen]
  have hpayload : (pack.buf.take pack.length.toNat).length = pack.length.toNat :=
    List.length_take_of_le pack.length_le
  have hat (done : List CChar) := packetAt_encoding hp done
  rw [hbranch, floatPackToBytes]
  refine (bind_run (getLength_run hp.packet) _).trans ?_
  refine (bind_run chars.malloc_run _).trans ?_
  refine (bind_run (getType_run (hp.push _).packet) _).trans ?_
  refine (bind_run (packTypeToBytes_run _) _).trans ?_
  refine (bind_run (encoding_type h pack) _).trans ?_
  refine (bind_run (getLength_run (hat _).packet) _).trans ?_
  refine (bind_run (uintToBytesArr_run _) _).trans ?_
  refine (bind_run (encoding_copy htype hlen (Heap.block_push_self ..) (by omega) (by simp [hlen]))
    _).trans ?_
  refine (bind_run (getBuf_run ((hat _).push _).packet) _).trans ?_
  refine (bind_run (getLength_run ((hat _).push _).packet) _).trans ?_
  refine (bind_run (encoding_copy hheader hpayload ((hat _).push _).payload (by omega)
    (List.map_take.symm)) _).trans ?_
  refine (bind_run (encoding_freeType h pack) _).trans ?_
  refine (bind_run (free_run (Heap.block_push_self ((h.push (charsOf (packToBytes pack))).skip 1)
    _)) _).trans ?_
  rw [Heap.drop_push, Heap.skip_skip]
  rfl

/-- The number of bytes is read off the length of the packet. -/
theorem getPackBytesSize_run {pack : Packet} (hp : PacketAt h p q pack) :
    OnHeap.getPackBytesSize (some p) h = some (getPackBytesSize pack, h) := by
  rw [OnHeap.getPackBytesSize, bind_run (getLength_run hp.packet)]
  rfl

theorem mapM_id_map_some {α : Type} (l : List α) : (l.map some).mapM id = some l := by
  induction l with
  | nil => rfl
  | cons a l ih =>
      rw [List.map_cons, List.mapM_cons, ih]
      rfl

/-- What is sent is the front of the block. -/
theorem sendto_run {bytes : List CChar} {size : ℕ} (hp : h.block p = some (charsOf bytes))
    (hsize : size ≤ bytes.length) : sendto (some p) size h = some (bytes.take size, h) := by
  rw [sendto, bind_run (chars.cells_run hp), if_pos (by rwa [List.length_map]), ← List.map_take,
    mapM_id_map_some]
  rfl

/-- **Releasing.** -/
theorem freePack_run {pack : Packet} (hp : PacketAt h p q pack) :
    freePack (some p) h = some ((), (h.drop q).drop p) := by
  have hpq : p ≠ q := by
    rintro rfl
    have := hp.packet.symm.trans hp.payload
    cases this
  rw [freePack, bind_run (getBuf_run hp.packet), bind_run (free_run hp.payload)]
  exact free_run ((Heap.block_drop_of_ne hpq).trans hp.packet)

end Building

/-! ## Packets that are received -/

section Receiving

variable {h : Heap Block} {p q ca : ℕ}

/-- A buffer whose first chars are those of a datagram. -/
def BufferAt (h : Heap Block) (ca : ℕ) (d : Datagram) : Prop :=
  ∃ rest, h.block ca = some (chars.array (d.map some ++ rest))

/-- The slices of a buffer that lie in the datagram. -/
theorem slice_buffer {d : Datagram} {rest : List (Option CChar)} {j n : ℕ} (hn : j + n ≤ d.length) :
    ((d.map some ++ rest).drop j).take n = ((d.drop j).take n).map some := by
  rw [List.drop_append_of_le_length (by simp; omega), List.take_append_of_le_length (by simp; omega),
    List.map_take, List.map_drop]

/-- After a receive the buffer starts with the datagram. -/
theorem recvfrom_run {d : Datagram} {cells : List (Option CChar)}
    (hca : h.block ca = some (chars.array cells)) (hd : d.length ≤ cells.length) :
    OnHeap.recvfrom (some ca) d h
      = some ((), h.put ca (chars.array (d.map some ++ cells.drop d.length))) := by
  rw [OnHeap.recvfrom]
  refine (bind_run (chars.cells_run hca) _).trans ?_
  rw [List.take_of_length_le hd]
  exact write_run hca

/-- A part of the buffer is copied into a fresh block. -/
theorem copy_buffer {d : Datagram} (hca : BufferAt h ca d) {j n : ℕ} (hn : j + n ≤ d.length) :
    chars.memcpy (some h.next) 0 (some ca) j n (h.push (chars.array (written [] n)))
      = some ((), h.push (charsOf ((d.drop j).take n))) := by
  obtain ⟨rest, hblock⟩ := hca
  rw [chars.memcpy_fresh (Heap.block_push_self ..) (Heap.block_push hblock) (slice_buffer hn)
    (by simp; omega), Heap.put_push]

theorem BufferAt.push {d : Datagram} (hca : BufferAt h ca d) (b : Block) :
    BufferAt (h.push b) ca d := by
  obtain ⟨rest, hblock⟩ := hca
  exact ⟨rest, Heap.block_push hblock⟩

/-- `populate_pack_of_floats`, on a packet that has its type: it leaves the block with the
length. -/
theorem populatePackOfFloats_run {d : Datagram} {t : PacketType} (hca : BufferAt h ca d)
    (hheader : 8 ≤ d.length) (hpayload : 8 + (lengthWord d).toNat ≤ d.length) :
    OnHeap.populatePackOfFloats (some ca) (some h.next) (h.push (.packet (some t) none none))
      = some ((), ((h.push (.packet (some t) (some (lengthWord d)) (some (some (h.next + 2))))).push
          (charsOf ((d.drop 4).take 4))).push
        (charsOf ((d.drop 8).take (lengthWord d).toNat))) := by
  have hlen : ((d.drop 4).take 4).length = 4 := by simp; omega
  have hpack (n : Option CUInt) (b : Option Ptr) (c : Block) :
      ((h.push (.packet (some t) n b)).push c).block h.next = some (.packet (some t) n b) :=
    Heap.block_push (Heap.block_push_self ..)
  rw [OnHeap.populatePackOfFloats]
  refine (bind_run chars.malloc_run _).trans ?_
  refine (bind_run (copy_buffer (hca.push _) (by omega)) _).trans ?_
  refine (bind_run (bytesArrToUint_run (Heap.block_push_self ..) hlen) _).trans ?_
  refine (bind_run (setLength_run (hpack _ _ _) _) _).trans ?_
  rw [Heap.put_push_of_ne (by simp), Heap.put_push]
  refine (bind_run chars.malloc_run _).trans ?_
  refine (bind_run (setBuf_run (Heap.block_push (hpack _ _ _)) _) _).trans ?_
  rw [Heap.put_push_of_ne (by simp; omega), Heap.put_push_of_ne (by simp), Heap.put_push]
  refine (bind_run (getBuf_run (Heap.block_push (hpack _ _ _))) _).trans ?_
  exact copy_buffer ((hca.push (.packet (some t) (some (lengthWord d)) (some (some (h.next + 2))))).push
    (charsOf ((d.drop 4).take 4))) hpayload

/-- What `bytes_to_pack` leaves: the packet, the block with the length, and the payload. -/
def received (h : Heap Block) (pack : Packet) (len : List CChar) : Heap Block :=
  (((h.skip 1).push (packetBlock pack (h.next + 3))).push (charsOf len)).push (charsOf pack.buf)

/-- **Decoding.**  From a buffer that starts with a self-contained datagram, `bytes_to_pack`
makes the packet of that datagram. -/
theorem bytesToPack_run {d : Datagram} {pack : Packet} (hca : BufferAt h ca d)
    (hs : SelfContained d) (hpack : bytesToPack d.get = .ok pack) :
    OnHeap.bytesToPack (some ca) h
      = some (some (h.next + 1), received h pack ((d.drop 4).take 4)) := by
  obtain ⟨pack', hpack', htype, hlen, hbuf⟩ := bytesToPack_of_startsWith (startsWith_get d) hs
  obtain rfl : pack = pack' := Except.ok.inj (hpack.symm.trans hpack')
  have hheader := hs.header
  have hfour : (typeWord d).length = 4 := by simp [typeWord]; omega
  rw [OnHeap.bytesToPack]
  refine (bind_run chars.malloc_run _).trans ?_
  refine (bind_run (copy_buffer hca (by omega)) _).trans ?_
  refine (bind_run (charArrToPackType_run (Heap.block_push_self ..) hfour htype) _).trans ?_
  refine (bind_run (free_run (Heap.block_push_self ..)) _).trans ?_
  rw [Heap.drop_push]
  refine (bind_run malloc_run _).trans ?_
  refine (bind_run (setType_run (Heap.block_push_self ..) _) _).trans ?_
  rw [Heap.put_push]
  refine (bind_run (populatePackOfFloats_run (h := h.skip 1) hca hheader hs.payload) _).trans ?_
  rw [received, hbuf, packetBlock, hlen]
  rfl

end Receiving

/-! ## Packets that are read -/

section Reading

variable {h : Heap Block} {p q : ℕ} {pack : Packet}

/-- A slice is copied into a new block. -/
theorem getSlice_run {buf : List CChar} {start fin : ℕ} (hq : h.block q = some (charsOf buf))
    (hle : start ≤ fin) (hfin : fin ≤ buf.length) :
    OnHeap.getSlice (some q) start fin h
      = some (some h.next, h.push (charsOf (getSlice buf start fin))) := by
  have hcells : ((buf.map some).drop start).take (fin - start) = (getSlice buf start fin).map some := by
    rw [getSlice, List.map_take, List.map_drop]
  have hlength : (getSlice buf start fin).length = fin - start := by
    rw [getSlice, List.length_take, List.length_drop]
    omega
  rw [OnHeap.getSlice]
  refine (bind_run chars.malloc_run _).trans ?_
  refine (bind_run (chars.memcpy_fresh (Heap.block_push_self ..) (Heap.block_push hq) hcells
    hlength) _).trans ?_
  rw [Heap.put_push]
  rfl

/-- The float that `get_floats` reads in round `i`. -/
def floatAt (pack : Packet) (i : ℕ) : CFloat :=
  charArrToFloat (getSlice pack.buf (4 * i) (4 * i + 4))

/-- The floats are read one slice at a time. -/
theorem getFloatsLoop_eq_map (buf : List CChar) (offset n : ℕ) :
    getFloatsLoop buf offset n = (List.range n).map fun i =>
      charArrToFloat (getSlice buf (offset + 4 * i) (offset + 4 * i + 4)) := by
  induction n generalizing offset with
  | zero => rfl
  | succ n ih =>
      rw [getFloatsLoop, ih, List.range_succ_eq_map, List.map_cons, List.map_map]
      refine congrArg (_ :: ·) (List.map_congr_left fun i _ => ?_)
      have hoffset : offset + 4 + 4 * i = offset + 4 * (i + 1) := by omega
      rw [Function.comp_apply, hoffset]

/-- The floats of a packet, round by round. -/
theorem getFloats_eq_map (pack : Packet) :
    getFloats pack = (List.range (pack.length.toNat / 4)).map (floatAt pack) := by
  rw [getFloats, getFloatsLoop_eq_map]
  simp only [Nat.zero_add]
  rfl

/-- The heap of `get_floats` after `i` rounds. -/
def reading (h : Heap Block) (pack : Packet) (i : ℕ) : Heap Block :=
  (h.push (floats.array (written ((List.range i).map (floatAt pack)) (pack.length.toNat / 4)))).skip i

/-- One round of `get_floats`. -/
theorem reading_succ (hp : PacketAt h p q pack) {i : ℕ} (hi : i < pack.length.toNat / 4) :
    (do let slice ← OnHeap.getSlice (← getBuf (some p)) (4 * i) (4 * i + 4)
        floats.store (some h.next) i (← OnHeap.charArrToFloat slice)
        free slice : Prog Block Unit) (reading h pack i) = some ((), reading h pack (i + 1)) := by
  have hle := pack.length_le
  have hat : PacketAt (reading h pack i) p q pack := (hp.push _).skip i
  have hslice : (getSlice pack.buf (4 * i) (4 * i + 4)).length = 4 := by
    rw [getSlice, List.length_take, List.length_drop]
    omega
  have hresult : ((reading h pack i).push (charsOf (getSlice pack.buf (4 * i) (4 * i + 4)))).block
      h.next = some _ := Heap.block_push (Heap.block_push_self ..)
  have hlength : ((List.range i).map (floatAt pack)).length = i := by simp
  refine (bind_run (getBuf_run hat.packet) _).trans ?_
  refine (bind_run (getSlice_run hat.payload (by omega) (by omega)) _).trans ?_
  refine (bind_run (charArrToFloat_run (Heap.block_push_self ..) hslice) _).trans ?_
  refine (bind_run (floats.store_run hresult (by rw [length_written (by omega)]; exact hi)) _).trans ?_
  have hset := set_written (a := floatAt pack i) (hlength.symm ▸ hi :
    ((List.range i).map (floatAt pack)).length < pack.length.toNat / 4)
  rw [hlength] at hset
  -- the round writes the next float, and its own block is released again
  have hnext : reading h pack (i + 1) = ((reading h pack i).put h.next (floats.array
      ((written ((List.range i).map (floatAt pack)) (pack.length.toNat / 4)).set i
        (some (floatAt pack i))))).skip 1 := by
    rw [reading, reading, Heap.put_skip, Heap.skip_skip, Heap.put_push, hset, List.range_succ,
      List.map_append]
    rfl
  rw [hnext, ← Heap.drop_push, Heap.put_push_of_ne (by simp [reading]; omega)]
  exact free_run (Heap.block_push_self ..)

/-- **Reading.**  `get_floats` leaves the floats of the packet. -/
theorem getFloats_run (hp : PacketAt h p q pack) :
    OnHeap.getFloats (some p) h = some (some h.next,
      (h.push (floatsBlock (getFloats pack))).skip (pack.length.toNat / 4)) := by
  rw [OnHeap.getFloats]
  refine (bind_run (getLength_run hp.packet) _).trans ?_
  refine (bind_run floats.malloc_run _).trans ?_
  refine (bind_run (forRange_run (reading h pack) fun i hi => reading_succ hp hi) _).trans ?_
  rw [reading, written_full (by simp), ← getFloats_eq_map]
  rfl

theorem getFloatsCount_run (hp : PacketAt h p q pack) :
    OnHeap.getFloatsCount (some p) h = some (getFloatsCount pack, h) := by
  rw [OnHeap.getFloatsCount, bind_run (getType_run hp.packet)]
  cases htype : pack.type with
  | packOfFloats =>
      rw [getFloatsCount, if_neg (by simp [htype])]
      exact bind_run (getLength_run hp.packet) _
  | initPack =>
      rw [getFloatsCount, if_pos (by simp [htype])]
      rfl

/-- `copy_arr_of_floats` leaves a copy. -/
theorem copyArrOfFloats_run {arr : Ptr} {fs : List CFloat} {n : ℕ} (harr : FloatsAt h arr fs)
    (hn : n ≤ fs.length) :
    OnHeap.copyArrOfFloats arr n h = some (some h.next, h.push (floatsBlock (fs.take n))) := by
  rw [OnHeap.copyArrOfFloats]
  refine (bind_run floats.malloc_run _).trans ?_
  cases arr with
  | none =>
      obtain rfl : fs = [] := harr
      obtain rfl : n = 0 := Nat.le_zero.mp hn
      rfl
  | some p =>
      refine (bind_run (floats.memcpy_fresh (Heap.block_push_self ..) (Heap.block_push harr)
        (List.map_take.symm) (List.length_take_of_le hn)) _).trans ?_
      rw [Heap.put_push]
      rfl

/-- What is loaded one by one. -/
theorem loads_run {fs : List CFloat} (hp : h.block p = some (floatsBlock fs)) {l : List ℕ}
    (hl : ∀ i ∈ l, i < fs.length) :
    (l.mapM fun i => floats.load (some p) i) h = some (l.map fun i => fs.getD i 0, h) := by
  induction l with
  | nil => rfl
  | cons i l ih =>
      have hi := hl i List.mem_cons_self
      have hload : floats.load (some p) i h = some (fs.getD i 0, h) :=
        floats.load_run hp (by simp [hi])
      rw [List.mapM_cons]
      refine (bind_run hload _).trans ?_
      refine (bind_run (ih fun j hj => hl j (List.mem_cons_of_mem i hj)) _).trans ?_
      rfl

theorem map_getD_range {fs : List CFloat} {n : ℕ} (hfs : fs.length = n) :
    (List.range n).map (fun i => fs.getD i 0) = fs :=
  List.ext_getElem (by simp [hfs]) fun i _ hi => by simp [hi]

/-- All floats of a block are loaded. -/
theorem loadAll_run {fs : List CFloat} {n : ℕ} (hp : h.block p = some (floatsBlock fs))
    (hfs : fs.length = n) :
    ((List.range n).mapM fun i => floats.load (some p) i) h = some (fs, h) := by
  rw [loads_run hp fun i hi => by rw [hfs]; exact List.mem_range.mp hi, map_getD_range hfs]

/-- A fresh block is filled with floats. -/
theorem fillFloats_run {fs : List CFloat} {n : ℕ} (hfs : fs.length = n) :
    forRange n (fun i => floats.store (some h.next) i (fs.getD i 0))
        (h.push (floats.array (written [] n))) = some ((), h.push (floatsBlock fs)) := by
  rw [floats.fill_run, map_getD_range hfs]

end Reading

end OnHeap
