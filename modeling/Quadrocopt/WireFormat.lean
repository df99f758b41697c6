/-
# The wire format

The byte strings of the wire are exactly those that encode a packet: a type word, a
length word, and as many bytes as the length word says.  Encoder and decoder are the
same code in the client and in the server, so each theorem holds with either program
at either end.

* `word_codec`: `uint_to_bytes_arr` and `bytes_arr_to_uint` are inverse to each other, and
  the chars of a word are its digits in base 256, whatever their sign.
* `wire_format`: `pack_to_bytes` and `bytes_to_pack` are inverse to each other between
  the packets whose buffer has exactly `length` bytes and these byte strings, for both
  types of packet and for every length; any other type word takes the exit branch.
* `sizeAnnounced_iff`: the sizes of a filled packet agree below `2 ^ 30 - 2` floats, where
  the header and the payload fit the 32 bits in which `get_pack_bytes_size` adds them.
* `payload_round_trip`: a list of floats that goes through `gen_packet_from_floats` (or
  `gen_init_pack`), the wire and `get_floats` is unchanged, bit for bit.

The words of a header are described as numbers here, written in base 256 with the least
significant char first (`leWord`).
-/
import Quadrocopt.ReceiveBuffer
import Mathlib.Algebra.BigOperators.Fin
import Mathlib.Data.Nat.Digits.Defs

/-! ## The words of a header as numbers -/

/-- The number that the chars write in base 256, least significant first. -/
def leWord (ca : List CChar) : ℕ := Nat.ofDigits 256 (ca.map BitVec.toNat)

/-- The `i`-th char of a word is its `i`-th digit in base 256. -/
theorem toNat_uintToBytesArr_char (w : CUInt) (i : ℕ) :
    (((w >>> (8 * i)) &&& 0xff#32).setWidth 8).toNat = w.toNat / 2 ^ (8 * i) % 256 := by
  have hmask : ∀ n : ℕ, n &&& 255 = n % 256 := fun n => Nat.and_two_pow_sub_one_eq_mod n 8
  rw [BitVec.toNat_setWidth, BitVec.toNat_and, BitVec.toNat_ushiftRight,
    Nat.shiftRight_eq_div_pow]
  show (_ &&& 255) % 2 ^ 8 = _
  rw [hmask]
  exact Nat.mod_mod _ _

/-- `uint_to_bytes_arr` writes the word in base 256. -/
theorem leWord_uintToBytesArr (w : CUInt) : leWord (uintToBytesArr w) = w.toNat := by
  have hw := w.isLt
  simp only [leWord, uintToBytesArr, List.range_succ, List.range_zero, List.nil_append,
    List.map_cons, List.map_nil, List.cons_append, toNat_uintToBytesArr_char,
    Nat.ofDigits_cons, Nat.ofDigits_nil]
  omega

/-- `bytes_arr_to_uint` reads the word that four chars write in base 256. -/
theorem toNat_bytesArrToUint {ca : List CChar} (h : ca.length = 4) :
    (bytesArrToUint ca).toNat = leWord ca := by
  rw [← leWord_uintToBytesArr, uintToBytesArr_bytesArrToUint ca h]

/-- A signed char, taken modulo 256, is the unsigned one. -/
theorem toInt_emod (c : CChar) : c.toInt % 256 = c.toNat := by
  have hc := c.isLt
  rw [BitVec.toInt_eq_toNat_cond]
  split
  · omega
  · omega

/-- Four chars as a sum of digits. -/
theorem leWord_ofFn (c : Fin 4 → CChar) :
    leWord (List.ofFn c) = ∑ i, (c i).toNat * 256 ^ (i : ℕ) := by
  have hdigits : leWord (List.ofFn c)
      = (c 0).toNat + 256 * ((c 1).toNat + 256 * ((c 2).toNat + 256 * (c 3).toNat)) := by
    simp [leWord, List.ofFn_succ, Nat.ofDigits_cons]
  rw [hdigits, Fin.sum_univ_four]
  show _ = (c 0).toNat * 256 ^ 0 + (c 1).toNat * 256 ^ 1 + (c 2).toNat * 256 ^ 2
    + (c 3).toNat * 256 ^ 3
  omega

/-- **The word codec.**  Writing and reading a word are inverse to each other, on all words
and on all chars, negative ones included; the word that is read has the chars, modulo 256,
as its digits; and so do the patterns of floats. -/
theorem word_codec :
    (∀ w : CUInt, bytesArrToUint (uintToBytesArr w) = w)
      ∧ (∀ c : Fin 4 → CChar,
          uintToBytesArr (bytesArrToUint (List.ofFn c)) = List.ofFn c
            ∧ ((bytesArrToUint (List.ofFn c)).toNat : ℤ)
              = ∑ i, (c i).toInt % 256 * 256 ^ (i : ℕ))
      ∧ (∀ f : CFloat, charArrToFloat (floatToCharArr f) = f)
      ∧ ∀ c : Fin 4 → CChar, floatToCharArr (charArrToFloat (List.ofFn c)) = List.ofFn c := by
  have hread : ∀ c : Fin 4 → CChar, uintToBytesArr (bytesArrToUint (List.ofFn c)) = List.ofFn c :=
    fun c => uintToBytesArr_bytesArrToUint _ (List.length_ofFn)
  refine ⟨bytesArrToUint_uintToBytesArr, ?_, charArrToFloat_floatToCharArr, hread⟩
  intro c
  refine ⟨hread c, ?_⟩
  rw [toNat_bytesArrToUint List.length_ofFn, leWord_ofFn, Nat.cast_sum]
  refine Finset.sum_congr rfl fun i _ => ?_
  rw [toInt_emod, Nat.cast_mul, Nat.cast_pow]
  rfl

/-- The enumerators are the words zero and one. -/
theorem charArrToPackType_of_leWord {ca : List CChar} (h : ca.length = 4) :
    charArrToPackType ca
      = if leWord ca = 0 then some .packOfFloats
        else if leWord ca = 1 then some .initPack else none := by
  have hzero : bytesArrToUint ca = 0 ↔ leWord ca = 0 := by
    rw [← toNat_bytesArrToUint h, BitVec.toNat_eq]
    rfl
  have hone : bytesArrToUint ca = 1 ↔ leWord ca = 1 := by
    rw [← toNat_bytesArrToUint h, BitVec.toNat_eq]
    rfl
  unfold charArrToPackType
  simp only [hzero, hone]

/-- The words zero and one decode to a type. -/
theorem exists_type_of_leWord {ca : List CChar} (h : ca.length = 4)
    (hknown : leWord ca = 0 ∨ leWord ca = 1) : ∃ t, charArrToPackType ca = some t := by
  rw [charArrToPackType_of_leWord h]
  rcases hknown with hzero | hone
  · exact ⟨_, if_pos hzero⟩
  · exact ⟨_, by rw [if_neg (by omega), if_pos hone]⟩

/-- Four chars that decode to a type are the chars of that type. -/
theorem packTypeToBytes_of_charArrToPackType {ca : List CChar} {t : PacketType}
    (h : ca.length = 4) (ht : charArrToPackType ca = some t) : packTypeToBytes t = ca := by
  rw [← uintToBytesArr_bytesArrToUint ca h, packTypeToBytes]
  congr 1
  unfold charArrToPackType at ht
  split at ht
  · next hzero =>
    obtain rfl := Option.some.inj ht
    exact hzero.symm
  · split at ht
    · next hone =>
      obtain rfl := Option.some.inj ht
      exact hone.symm
    · cases ht

/-! ## Encoding, then decoding -/

theorem length_packTypeToBytes (t : PacketType) : (packTypeToBytes t).length = 4 :=
  length_uintToBytesArr _

theorem typeWord_packToBytes (p : Packet) : typeWord (packToBytes p) = packTypeToBytes p.type := by
  rw [typeWord, packToBytes, List.append_assoc]
  exact List.take_left' (length_packTypeToBytes p.type)

theorem lengthWord_packToBytes (p : Packet) : lengthWord (packToBytes p) = p.length := by
  rw [lengthWord, packToBytes, List.append_assoc,
    List.drop_left' (length_packTypeToBytes p.type), List.take_left' (length_uintToBytesArr _),
    bytesArrToUint_uintToBytesArr]

theorem drop_packToBytes (p : Packet) : (packToBytes p).drop 8 = p.buf.take p.length.toNat := by
  apply List.drop_left'
  rw [List.length_append, length_packTypeToBytes, length_uintToBytesArr]

/-- The buffer holds `length` bytes and no more. -/
def Packet.Exact (p : Packet) : Prop := p.buf.length = p.length.toNat

/-- **Decoding an encoded packet**, from memory that starts with its encoding. -/
theorem bytesToPack_packToBytes {size : ℕ} {ca : Fin size → CChar} {p : Packet}
    (hp : p.Exact) (hd : StartsWith ca (packToBytes p)) : bytesToPack ca = .ok p := by
  have hlen := length_packToBytes p
  obtain ⟨pack, hpack, htype, hlength, hbuf⟩ := bytesToPack_of_header hd
    (by rw [typeWord_packToBytes, charArrToPackType_packTypeToBytes]) (by omega)
    (by rw [lengthWord_packToBytes, hlen])
  rw [lengthWord_packToBytes] at hlength hbuf
  rw [drop_packToBytes, List.take_take, Nat.min_self, List.take_of_length_le hp.le] at hbuf
  rw [hpack, Packet.ext htype hlength hbuf]

/-! ## Decoding, then encoding -/

/-- The byte strings of the wire: a complete header, one of the two types, and as many
bytes after the header as the length word says. -/
structure OnWire (b : List CChar) : Prop where
  header : 8 ≤ b.length
  type_known : leWord (b.take 4) = 0 ∨ leWord (b.take 4) = 1
  payload : leWord ((b.drop 4).take 4) = b.length - 8

theorem length_take_four {b : List CChar} (h : 4 ≤ b.length) : (b.take 4).length = 4 := by
  rw [List.length_take]
  omega

theorem OnWire.toNat_lengthWord {b : List CChar} (h : OnWire b) :
    (lengthWord b).toNat = b.length - 8 := by
  have hheader := h.header
  rw [lengthWord, toNat_bytesArrToUint, h.payload]
  apply length_take_four
  rw [List.length_drop]
  omega

theorem OnWire.exists_type {b : List CChar} (h : OnWire b) :
    ∃ t, charArrToPackType (typeWord b) = some t := by
  have hheader := h.header
  exact exists_type_of_leWord (length_take_four (by omega)) h.type_known

/-- What is encoded is on the wire. -/
theorem onWire_packToBytes (p : Packet) : OnWire (packToBytes p) := by
  have hlen := length_packToBytes p
  refine ⟨by omega, ?_, ?_⟩
  · show leWord (typeWord (packToBytes p)) = 0 ∨ leWord (typeWord (packToBytes p)) = 1
    rw [typeWord_packToBytes, packTypeToBytes, leWord_uintToBytesArr]
    cases p.type
    · exact .inl rfl
    · exact .inr rfl
  · have hword := lengthWord_packToBytes p
    rw [← toNat_bytesArrToUint (length_take_four (by rw [List.length_drop]; omega))]
    show (lengthWord (packToBytes p)).toNat = _
    rw [hword]
    omega

/-- **Encoding a decoded packet.** -/
theorem OnWire.exists_packet {b : List CChar} (h : OnWire b) :
    ∃ p : Packet, p.Exact ∧ bytesToPack b.get = .ok p ∧ packToBytes p = b := by
  obtain ⟨t, ht⟩ := h.exists_type
  have hheader := h.header
  have hword := h.toNat_lengthWord
  obtain ⟨p, hp, htype, hlength, hbuf⟩ :=
    bytesToPack_of_header (startsWith_get b) ht hheader (by omega)
  have hall : p.buf = b.drop 8 := by
    rw [hbuf]
    apply List.take_of_length_le
    rw [List.length_drop]
    omega
  have hexact : p.Exact := by
    rw [Packet.Exact, hall, hlength, List.length_drop, hword]
  refine ⟨p, hexact, hp, ?_⟩
  -- the three parts of `b`, in the order in which `float_pack_to_bytes` copies them
  have hlen : uintToBytesArr (lengthWord b) = (b.drop 4).take 4 := by
    apply uintToBytesArr_bytesArrToUint
    apply length_take_four
    rw [List.length_drop]
    omega
  have htail : (b.drop 4).drop 4 = b.drop 8 := List.drop_drop
  rw [packToBytes, htype, hlength, List.take_of_length_le (by rw [hall, List.length_drop, hword]),
    packTypeToBytes_of_charArrToPackType (length_take_four (by omega)) ht, hlen, hall, ← htail,
    List.append_assoc, List.take_append_drop, List.take_append_drop]

/-! ## The two ends of the wire -/

/-- **Other type words.**  A type word that is neither zero nor one takes the exit branch,
whatever follows it. -/
theorem bytesToPack_eq_exit {size : ℕ} {ca : Fin size → CChar} {b : List CChar}
    (hd : StartsWith ca b) (hfour : 4 ≤ b.length) (hzero : leWord (b.take 4) ≠ 0)
    (hone : leWord (b.take 4) ≠ 1) : bytesToPack ca = .error .exit := by
  obtain ⟨tArr, htArr, htArr'⟩ := readBytes_of_startsWith hd 0 4 (by omega)
  have htype : charArrToPackType tArr.toList = none := by
    rw [htArr', List.drop_zero, charArrToPackType_of_leWord (length_take_four hfour),
      if_neg hzero, if_neg hone]
  simp only [bytesToPack, htArr, bind, Except.bind, htype]
  rfl

/-- **The wire format is a bijection.**  For every packet with exactly `length` bytes in
its buffer, the encoding is on the wire and decodes to the packet; every byte string on
the wire decodes to such a packet, whose encoding it is; and for every other type word no
packet is produced. -/
theorem wire_format :
    (∀ p : Packet, p.Exact →
        OnWire (packToBytes p) ∧ bytesToPack (packToBytes p).get = .ok p)
      ∧ (∀ b : List CChar, OnWire b →
        ∃ p : Packet, p.Exact ∧ bytesToPack b.get = .ok p ∧ packToBytes p = b)
      ∧ ∀ b : List CChar, 4 ≤ b.length → leWord (b.take 4) ≠ 0 → leWord (b.take 4) ≠ 1 →
        bytesToPack b.get = .error .exit := by
  refine ⟨?_, ?_, ?_⟩
  · intro p hp
    exact ⟨onWire_packToBytes p, bytesToPack_packToBytes hp (startsWith_get _)⟩
  · intro b hb
    exact hb.exists_packet
  · intro b hfour hzero hone
    exact bytesToPack_eq_exit (startsWith_get b) hfour hzero hone

/-- A packet of two bytes. -/
def twoBytes : Packet := ⟨.initPack, 2, [0x7f, 0xff], by decide⟩

/-- It is encoded in ten bytes and comes back. -/
theorem wire_format_two_bytes :
    packToBytes twoBytes = [1, 0, 0, 0, 2, 0, 0, 0, 0x7f, 0xff]
      ∧ bytesToPack (packToBytes twoBytes).get = .ok twoBytes
      ∧ bytesToPack ([2, 0, 0, 0] : List CChar).get = .error .exit :=
  ⟨by decide, (wire_format.1 twoBytes rfl).2, wire_format.2.2 [2, 0, 0, 0] (by decide)
    (by decide) (by decide)⟩

/-! ## Floats on the wire -/

/-- The length word of a filled packet. -/
theorem toNat_length_fillPacket (t : PacketType) (fs : List CFloat) :
    (fillPacket t fs).length.toNat = 4 * fs.length % 2 ^ 32 := by
  show (BitVec.ofNat 32 (fs.length * 4)).toNat = _
  rw [BitVec.toNat_ofNat, mul_comm]

/-- What `fill_packet` builds has exactly `length` bytes, as long as the length word does
not overflow. -/
theorem exact_fillPacket (t : PacketType) {fs : List CFloat} (h : 4 * fs.length < 2 ^ 32) :
    (fillPacket t fs).Exact := by
  have hbuf : (fillPacket t fs).buf.length = 4 * fs.length := by
    show (filledBuf fs).length = _
    rw [filledBuf_eq, length_flatMap_floatToCharArr]
  rw [Packet.Exact, hbuf, toNat_length_fillPacket, Nat.mod_eq_of_lt h]

/-- `get_floats` finds in a packet the floats it was filled with. -/
theorem getFloats_fillPacket (t : PacketType) {fs : List CFloat} (h : 4 * fs.length < 2 ^ 32) :
    getFloats (fillPacket t fs) = fs := by
  have hcount : (fillPacket t fs).length.toNat / 4 = fs.length := by
    rw [toNat_length_fillPacket, Nat.mod_eq_of_lt h]
    omega
  rw [getFloats, hcount]
  show getFloatsLoop (filledBuf fs) 0 fs.length = fs
  rw [filledBuf_eq]
  exact getFloatsLoop_flatMap fs []

/-- The bytes that are sent for a packet are all of its encoding, as long as the size word
does not overflow. -/
theorem take_getPackBytesSize {p : Packet} (h : 8 + p.length.toNat < 2 ^ 32) :
    (packToBytes p).take (getPackBytesSize p) = packToBytes p := by
  apply List.take_of_length_le
  rw [length_packToBytes, getPackBytesSize, Nat.mod_eq_of_lt h]

/-- What is sent for a filled packet decodes to that packet. -/
theorem bytesToPack_fillPacket {size : ℕ} {ca : Fin size → CChar} (t : PacketType)
    {fs : List CFloat} (h : 8 + 4 * fs.length < 2 ^ 32)
    (hd : StartsWith ca ((packToBytes (fillPacket t fs)).take
      (getPackBytesSize (fillPacket t fs)))) :
    bytesToPack ca = .ok (fillPacket t fs) := by
  have hlength : (fillPacket t fs).length.toNat = 4 * fs.length := by
    rw [toNat_length_fillPacket]
    omega
  rw [take_getPackBytesSize (by rw [hlength]; exact h)] at hd
  exact bytesToPack_packToBytes (exact_fillPacket t (by omega)) hd

/-- **Payload round trip.**  For every list of floats that fits the size word, in memory
that starts with the bytes sent for it, `bytes_to_pack` and `get_floats` return the list;
`get_floats_count` is its length for a `PACK_OF_FLOATS`, and an `INIT_PACK` stays one. -/
theorem payload_round_trip {size : ℕ} {ca : Fin size → CChar} (fs : List CFloat)
    (h : 8 + 4 * fs.length < 2 ^ 32) :
    (StartsWith ca ((packToBytes (genPacketFromFloats fs)).take
        (getPackBytesSize (genPacketFromFloats fs))) →
      ∃ pack, bytesToPack ca = .ok pack ∧ pack.type = .packOfFloats ∧ getFloats pack = fs
        ∧ getFloatsCount pack = fs.length)
      ∧ (StartsWith ca ((packToBytes (genInitPack fs)).take
        (getPackBytesSize (genInitPack fs))) →
      ∃ pack, bytesToPack ca = .ok pack ∧ pack.type = .initPack ∧ getFloats pack = fs) := by
  have hfloats : ∀ t, getFloats (fillPacket t fs) = fs := fun t =>
    getFloats_fillPacket t (by omega)
  constructor
  · intro hd
    refine ⟨_, bytesToPack_fillPacket .packOfFloats h hd, rfl, hfloats _, ?_⟩
    have hlen := congrArg List.length (hfloats .packOfFloats)
    rw [getFloats, length_getFloatsLoop] at hlen
    rw [getFloatsCount, if_neg (by simp [fillPacket]), hlen]
  · intro hd
    exact ⟨_, bytesToPack_fillPacket .initPack h hd, rfl, hfloats _⟩

/-- A NaN and a negative zero survive. -/
theorem payload_round_trip_nan :
    ∃ pack, bytesToPack ((packToBytes (genPacketFromFloats [0x7fc00000, 0x80000000])).take
        (getPackBytesSize (genPacketFromFloats [0x7fc00000, 0x80000000]))).get = .ok pack
      ∧ getFloats pack = [0x7fc00000, 0x80000000] := by
  obtain ⟨pack, hpack, -, hfloats, -⟩ :=
    (payload_round_trip [0x7fc00000, 0x80000000] (by decide)).1 (startsWith_get _)
  exact ⟨pack, hpack, hfloats⟩

/-! ## The sizes of a filled packet -/

/-- The length word of the packet for `len` floats, the bytes that `float_pack_to_bytes` writes
for it and the size that `get_pack_bytes_size` gives to `sendto` agree. -/
structure SizeAnnounced (p : Packet) (len : ℕ) : Prop where
  length : p.length.toNat = 4 * len
  written : (packToBytes p).length = 8 + 4 * len
  size : getPackBytesSize p = 8 + 4 * len

/-- **The announced size.**  It is the size of the encoding exactly where that size fits an
`unsigned int`, in which `get_pack_bytes_size` computes it. -/
theorem sizeAnnounced_iff (t : PacketType) (fs : List CFloat) :
    SizeAnnounced (fillPacket t fs) fs.length ↔ fs.length < 2 ^ 30 - 2 := by
  have hlength := toNat_length_fillPacket t fs
  constructor
  · rintro ⟨-, -, hsize⟩
    have hlt : getPackBytesSize (fillPacket t fs) < 2 ^ 32 := Nat.mod_lt _ (by decide)
    omega
  · intro hlt
    have hexact : (fillPacket t fs).length.toNat = 4 * fs.length := by omega
    refine ⟨hexact, ?_, ?_⟩
    · rw [length_packToBytes, hexact]
    · rw [getPackBytesSize, hexact]
      omega

/-- For `2 ^ 30 - 2` floats, `2 ^ 32` bytes are written and `sendto` is given the size `0`. -/
theorem not_sizeAnnounced_replicate :
    let fs : List CFloat := List.replicate (2 ^ 30 - 2) 0
    (packToBytes (genPacketFromFloats fs)).length = 2 ^ 32
      ∧ getPackBytesSize (genPacketFromFloats fs) = 0
      ∧ ¬SizeAnnounced (genPacketFromFloats fs) fs.length := by
  intro fs
  have hlen : fs.length = 2 ^ 30 - 2 := List.length_replicate
  have hlength : (genPacketFromFloats fs).length.toNat = 2 ^ 32 - 8 := by
    rw [genPacketFromFloats, toNat_length_fillPacket, hlen]
    omega
  have hsize : getPackBytesSize (genPacketFromFloats fs) = 0 := by
    rw [getPackBytesSize, hlength]
    omega
  refine ⟨?_, hsize, ?_⟩
  · rw [length_packToBytes, hlength]
    omega
  · rintro ⟨-, -, hannounced⟩
    rw [hsize, hlen] at hannounced
    omega
