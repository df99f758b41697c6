/-
# The receive buffer and what a datagram means

A listener allocates one buffer of `MAXBUF` bytes and hands it to every
`recvfrom`.  A datagram of `n` bytes overwrites the first `n` bytes and leaves
the rest as it was; the byte count that `recvfrom` returns is ignored, so
`bytes_to_pack` reads the buffer and not the datagram.

What is decoded is nevertheless a function of the datagram as soon as the
datagram holds every byte that `bytes_to_pack` reads (`SelfContained`): then the
buffer, whatever it held before, decodes to `bytesToPack d.get`
(`bytesToPack_recvfrom`).  A `WellFormed` datagram is a self-contained
`PACK_OF_FLOATS` without trailing bytes; the datagrams the programs send are of
this kind (`wellFormed_datagramOf`), and carry the floats they were built from
(`floatsOf_datagramOf`).
-/
import Quadrocopt.Packet

/-- `MAXBUF` of `constants.h`. -/
def MAXBUF : ℕ := 1024 * 1024

/-- The receive buffer of a listener. -/
abbrev Buf := Fin MAXBUF → CChar

/-- A successful `recvfrom` of the datagram `d`; what exceeds `MAXBUF` is cut off. -/
def recvfrom (buf : Buf) (d : Datagram) : Buf := fun i => if h : i < d.length then d[i] else buf i

/-! ## Reading bytes that are known -/

/-- The memory at `ca` starts with the bytes `d`. -/
def StartsWith {size : ℕ} (ca : Fin size → CChar) (d : Datagram) : Prop :=
  ∃ h : d.length ≤ size, ∀ i : Fin d.length, ca (i.castLE h) = d.get i

/-- A byte string starts with itself. -/
theorem startsWith_get (d : Datagram) : StartsWith d.get d := ⟨le_rfl, fun _ => rfl⟩

/-- After a receive the buffer starts with the datagram. -/
theorem startsWith_recvfrom (buf : Buf) (d : Datagram) (h : d.length ≤ MAXBUF) :
    StartsWith (recvfrom buf d) d := by
  refine ⟨h, ?_⟩
  intro i
  have hi : (i.castLE h : ℕ) < d.length := i.isLt
  simp only [recvfrom, dif_pos hi]
  rfl

/-- A read inside the known bytes returns the corresponding slice of them. -/
theorem readBytes_of_startsWith {size : ℕ} {ca : Fin size → CChar} {d : Datagram}
    (hd : StartsWith ca d) (start n : ℕ) (h : start + n ≤ d.length) :
    ∃ v, readBytes ca start n = .ok v ∧ v.toList = (d.drop start).take n := by
  obtain ⟨hsize, hbytes⟩ := hd
  refine ⟨_, dif_pos (h.trans hsize), ?_⟩
  rw [List.Vector.toList_ofFn]
  apply List.ext_getElem
  · rw [List.length_ofFn, List.length_take, List.length_drop]
    omega
  · intro i hi hi'
    rw [List.length_ofFn] at hi
    rw [List.getElem_ofFn, List.getElem_take, List.getElem_drop]
    exact hbytes ⟨start + i, by omega⟩

/-- A read that succeeds stays inside the memory and returns the bytes that are there. -/
theorem readBytes_eq_ok {size : ℕ} {ca : Fin size → CChar} {start n : ℕ} {v : List.Vector CChar n}
    (h : readBytes ca start n = .ok v) :
    ∃ hle : start + n ≤ size, ∀ (i : ℕ) (hi : i < n),
      v.toList.getD i 0 = ca ⟨start + i, by omega⟩ := by
  unfold readBytes at h
  split at h
  · next hle =>
    refine ⟨hle, ?_⟩
    intro i hi
    obtain rfl := Except.ok.inj h
    rw [List.Vector.toList_ofFn, List.getD_eq_getElem _ _ (by rw [List.length_ofFn]; exact hi),
      List.getElem_ofFn]
  · cases h

/-- **Inversion of the decoder.**  What a successful decoding has read. -/
theorem bytesToPack_eq_ok {size : ℕ} {ca : Fin size → CChar} {pack : Packet}
    (h : bytesToPack ca = .ok pack) :
    ∃ tArr len buf, readBytes ca 0 4 = .ok tArr ∧ readBytes ca 4 4 = .ok len
      ∧ readBytes ca 8 pack.length.toNat = .ok buf
      ∧ charArrToPackType tArr.toList = some pack.type
      ∧ pack.length = bytesArrToUint len.toList ∧ pack.buf = buf.toList := by
  simp only [bytesToPack, populatePackOfFloats, bind, Except.bind, pure, Except.pure] at h
  split at h
  · cases h
  · next tArr htArr =>
    split at h
    · next t ht =>
      split at h
      · cases h
      · next len hlen =>
        split at h
        · cases h
        · next buf hbuf =>
          obtain rfl := Except.ok.inj h
          exact ⟨tArr, len, buf, htArr, hlen, hbuf, ht, rfl, rfl⟩
    · cases h

/-! ## Self-contained datagrams -/

/-- The type word of a datagram. -/
def typeWord (d : Datagram) : List CChar := d.take 4

/-- The length word of a datagram. -/
def lengthWord (d : Datagram) : CUInt := bytesArrToUint ((d.drop 4).take 4)

/-- The datagram holds a known type word, a length word, and all the payload bytes
the length word announces. -/
structure SelfContained (d : Datagram) : Prop where
  length_le : d.length ≤ MAXBUF
  header : 8 ≤ d.length
  type_known : (charArrToPackType (typeWord d)).isSome
  payload : 8 + (lengthWord d).toNat ≤ d.length

/-- What `bytes_to_pack` returns on memory that starts with a complete header and all the
payload bytes that it announces. -/
theorem bytesToPack_of_header {size : ℕ} {ca : Fin size → CChar} {d : Datagram}
    (hd : StartsWith ca d) {t : PacketType} (ht : charArrToPackType (typeWord d) = some t)
    (hheader : 8 ≤ d.length) (hpayload : 8 + (lengthWord d).toNat ≤ d.length) :
    ∃ pack, bytesToPack ca = .ok pack ∧ pack.type = t ∧ pack.length = lengthWord d
      ∧ pack.buf = (d.drop 8).take (lengthWord d).toNat := by
  obtain ⟨tArr, htArr, htArr'⟩ := readBytes_of_startsWith hd 0 4 (by omega)
  obtain ⟨len, hlen, hlen'⟩ := readBytes_of_startsWith hd 4 4 (by omega)
  have hword : bytesArrToUint len.toList = lengthWord d := by rw [hlen', lengthWord]
  obtain ⟨buf, hbuf, hbuf'⟩ := readBytes_of_startsWith hd 8
    (bytesArrToUint len.toList).toNat (by rw [hword]; exact hpayload)
  have htype : charArrToPackType tArr.toList = some t := by
    rw [htArr', List.drop_zero]
    exact ht
  refine ⟨⟨t, bytesArrToUint len.toList, buf.toList, by rw [List.Vector.toList_length]⟩,
    ?_, rfl, hword, hbuf'.trans (by rw [hword])⟩
  simp only [bytesToPack, htArr, bind, Except.bind, htype, populatePackOfFloats, hlen, hbuf,
    pure, Except.pure]

/-- What `bytes_to_pack` returns on memory that starts with a self-contained datagram. -/
theorem bytesToPack_of_startsWith {size : ℕ} {ca : Fin size → CChar} {d : Datagram}
    (hd : StartsWith ca d) (hs : SelfContained d) :
    ∃ pack, bytesToPack ca = .ok pack ∧ charArrToPackType (typeWord d) = some pack.type
      ∧ pack.length = lengthWord d ∧ pack.buf = (d.drop 8).take (lengthWord d).toNat := by
  obtain ⟨t, ht⟩ := Option.isSome_iff_exists.mp hs.type_known
  obtain ⟨pack, hpack, htype, hlen, hbuf⟩ :=
    bytesToPack_of_header hd ht hs.header hs.payload
  exact ⟨pack, hpack, by rw [ht, htype], hlen, hbuf⟩

/-- **No trace of earlier traffic.**  A self-contained datagram decodes the same
from the reused buffer as on its own. -/
theorem bytesToPack_recvfrom (buf : Buf) {d : Datagram} (hs : SelfContained d) :
    bytesToPack (recvfrom buf d) = bytesToPack d.get := by
  obtain ⟨p, hp, htype, hlen, hbuf⟩ :=
    bytesToPack_of_startsWith (startsWith_recvfrom buf d hs.length_le) hs
  obtain ⟨p', hp', htype', hlen', hbuf'⟩ := bytesToPack_of_startsWith (startsWith_get d) hs
  have heq : p = p' := by
    apply Packet.ext
    · exact Option.some.inj (htype.symm.trans htype')
    · rw [hlen, hlen']
    · rw [hbuf, hbuf']
  rw [hp, hp', heq]

/-! ## Well-formed datagrams -/

/-- A well-formed `PACK_OF_FLOATS` datagram: its length word counts the bytes after
the header. -/
structure WellFormed (d : Datagram) : Prop where
  length_le : d.length ≤ MAXBUF
  header : 8 ≤ d.length
  type_eq : charArrToPackType (typeWord d) = some .packOfFloats
  payload : 8 + (lengthWord d).toNat = d.length

/-- The floats a well-formed datagram carries. -/
def floatsOf (d : Datagram) : List CFloat := getFloatsLoop (d.drop 8) 0 ((d.length - 8) / 4)

theorem WellFormed.selfContained {d : Datagram} (h : WellFormed d) : SelfContained d where
  length_le := h.length_le
  header := h.header
  type_known := by rw [h.type_eq]; rfl
  payload := h.payload.le

/-- The number of floats of a datagram. -/
theorem length_floatsOf (d : Datagram) : (floatsOf d).length = (d.length - 8) / 4 :=
  length_getFloatsLoop _ _ _

/-- **Receiving a well-formed datagram.**  The packet decoded from the buffer is a
`PACK_OF_FLOATS` whose floats are those of the datagram and are as many as
`get_floats_count` says. -/
theorem WellFormed.bytesToPack_recvfrom {d : Datagram} (h : WellFormed d) (buf : Buf) :
    ∃ pack, bytesToPack (recvfrom buf d) = .ok pack ∧ pack.type = .packOfFloats
      ∧ getFloats pack = floatsOf d ∧ getFloatsCount pack = (floatsOf d).length := by
  obtain ⟨pack, hpack, htype, hlen, hbuf⟩ :=
    bytesToPack_of_startsWith (startsWith_recvfrom buf d h.length_le) h.selfContained
  have hfloats : pack.type = .packOfFloats :=
    (Option.some.inj (h.type_eq.symm.trans htype)).symm
  have hpay := h.payload
  have hcount : pack.length.toNat = d.length - 8 := by
    rw [hlen]
    omega
  have hall : (d.drop 8).take (lengthWord d).toNat = d.drop 8 := by
    apply List.take_of_length_le
    rw [List.length_drop]
    omega
  refine ⟨pack, hpack, hfloats, ?_, ?_⟩
  · rw [getFloats, floatsOf, hbuf, hall, hcount]
  · rw [getFloatsCount, if_neg (by rw [hfloats]; simp), hcount, length_floatsOf]

/-! ## The datagrams the programs send -/

/-- The bytes of a transmitted batch. -/
theorem datagramOf_eq (fs : List CFloat) (h : 8 + 4 * fs.length < 2 ^ 32) :
    datagramOf fs = packTypeToBytes .packOfFloats
      ++ (uintToBytesArr (BitVec.ofNat 32 (fs.length * 4)) ++ fs.flatMap floatToCharArr) := by
  have hlen : (genPacketFromFloats fs).length.toNat = 4 * fs.length := by
    show (BitVec.ofNat 32 (fs.length * 4)).toNat = _
    rw [BitVec.toNat_ofNat]
    omega
  have hsize : getPackBytesSize (genPacketFromFloats fs)
      = (packToBytes (genPacketFromFloats fs)).length := by
    rw [length_packToBytes, getPackBytesSize, hlen]
    omega
  rw [datagramOf, hsize, List.take_length, packToBytes, hlen, List.append_assoc]
  show _ ++ (_ ++ (filledBuf fs).take _) = _
  rw [filledBuf_eq, List.take_of_length_le (length_flatMap_floatToCharArr fs).le]
  rfl

theorem length_datagramOf (fs : List CFloat) (h : 8 + 4 * fs.length < 2 ^ 32) :
    (datagramOf fs).length = 8 + 4 * fs.length := by
  rw [datagramOf_eq fs h, List.length_append, List.length_append, packTypeToBytes,
    length_uintToBytesArr, length_uintToBytesArr, length_flatMap_floatToCharArr]
  omega

/-- The payload of a transmitted batch starts after the two header words. -/
theorem drop_datagramOf (fs : List CFloat) (h : 8 + 4 * fs.length < 2 ^ 32) :
    (datagramOf fs).drop 8 = fs.flatMap floatToCharArr := by
  rw [datagramOf_eq fs h, ← List.append_assoc]
  exact List.drop_left' (by simp [packTypeToBytes])

/-- A batch that fits the receive buffer is transmitted as a well-formed datagram. -/
theorem wellFormed_datagramOf (fs : List CFloat) (h : 8 + 4 * fs.length ≤ MAXBUF) :
    WellFormed (datagramOf fs) := by
  have h32 : 8 + 4 * fs.length < 2 ^ 32 := lt_of_le_of_lt h (by decide)
  have hlen := length_datagramOf fs h32
  refine ⟨by omega, by omega, ?_, ?_⟩
  · rw [typeWord, datagramOf_eq fs h32, List.take_left' (by simp [packTypeToBytes])]
    exact charArrToPackType_packTypeToBytes _
  · rw [lengthWord, datagramOf_eq fs h32, List.drop_left' (by simp [packTypeToBytes]),
      List.take_left' (length_uintToBytesArr _), bytesArrToUint_uintToBytesArr,
      BitVec.toNat_ofNat, ← datagramOf_eq fs h32, hlen]
    omega

/-- **Payload round trip.**  A transmitted batch carries the floats it was built from. -/
theorem floatsOf_datagramOf (fs : List CFloat) (h : 8 + 4 * fs.length < 2 ^ 32) :
    floatsOf (datagramOf fs) = fs := by
  have hcount : ((datagramOf fs).length - 8) / 4 = fs.length := by
    rw [length_datagramOf fs h]
    omega
  rw [floatsOf, drop_datagramOf fs h, hcount]
  exact getFloatsLoop_flatMap fs []
