/-
# What the decoder accepts

`bytes_to_pack` accepts two types of packet and believes every length word; what happens
to an accepted packet is decided in three other places.

* `getFloats` takes any packet, `getFloatsCount` recognises one type only.  What is stored
  is what was decoded exactly for that type (`storedAsDecoded_iff`): for an `INIT_PACK` the
  count is `-1` cast to `size_t`, and it is used as the size of the array to copy.
* The reads of `bytes_to_pack` stay inside the receive buffer exactly as long as the length
  word, where it is used at all, does not exceed the room after the header
  (`staysInside_iff`).  The slices of `get_floats` always lie inside the payload that was
  allocated for them (`readFloats_payload`).
-/
import Quadrocopt.Stock
import Quadrocopt.WireFormat

/-! ## The header of an accepted packet -/

/-- Memory starts with the list of all its bytes. -/
theorem startsWith_ofFn {size : ℕ} (ca : Fin size → CChar) : StartsWith ca (List.ofFn ca) := by
  refine ⟨(List.length_ofFn).le, ?_⟩
  intro i
  rw [List.get_eq_getElem, List.getElem_ofFn]
  rfl

/-- The type of a decoded packet is that of the type word. -/
theorem type_of_bytesToPack {size : ℕ} {ca : Fin size → CChar} {d : Datagram} {pack : Packet}
    (hd : StartsWith ca d) (hfour : 4 ≤ d.length) (h : bytesToPack ca = .ok pack) :
    charArrToPackType (typeWord d) = some pack.type := by
  obtain ⟨tArr, len, buf, htArr, -, -, htype, -, -⟩ := bytesToPack_eq_ok h
  obtain ⟨v, hv, hbytes⟩ := readBytes_of_startsWith hd 0 4 (by omega)
  obtain rfl : tArr = v := Except.ok.inj (htArr.symm.trans hv)
  rw [hbytes, List.drop_zero] at htype
  exact htype

/-- The length of a decoded packet is the length word in memory. -/
theorem length_of_decoded {size : ℕ} {ca : Fin size → CChar} {pack : Packet}
    (h : bytesToPack ca = .ok pack) : pack.length = lengthWord (List.ofFn ca) := by
  obtain ⟨tArr, len, buf, -, hlen, -, -, hlength, -⟩ := bytesToPack_eq_ok h
  obtain ⟨hsize, -⟩ := readBytes_eq_ok hlen
  have hofFn : (List.ofFn ca).length = size := List.length_ofFn
  obtain ⟨w, hw, hbytes⟩ := readBytes_of_startsWith (startsWith_ofFn ca) 4 4 (by omega)
  obtain rfl : len = w := Except.ok.inj (hlen.symm.trans hw)
  rw [hlength, hbytes, lengthWord]

/-- A byte string that is accepted has a complete header. -/
theorem length_of_bytesToPack {d : Datagram} {pack : Packet} (h : bytesToPack d.get = .ok pack) :
    8 ≤ d.length := by
  obtain ⟨tArr, len, buf, -, hlen, -⟩ := bytesToPack_eq_ok h
  obtain ⟨hle, -⟩ := readBytes_eq_ok hlen
  omega

/-- A decoded packet is a `PACK_OF_FLOATS` if and only if the type word is zero. -/
theorem type_eq_packOfFloats_iff {d : Datagram} {pack : Packet}
    (h : bytesToPack d.get = .ok pack) :
    pack.type = .packOfFloats ↔ leWord (typeWord d) = 0 := by
  have hheader := length_of_bytesToPack h
  have htype := type_of_bytesToPack (startsWith_get d) (by omega) h
  rw [typeWord, charArrToPackType_of_leWord (length_take_four (by omega))] at htype
  rw [typeWord]
  constructor
  · intro hfloats
    by_contra hzero
    rw [if_neg hzero, hfloats] at htype
    split at htype
    · cases htype
    · cases htype
  · intro hzero
    rw [if_pos hzero] at htype
    exact (Option.some.inj htype).symm

/-! ## Storing an accepted packet -/

/-- `store_batch` of the client and of either listener of the server leaves the decoded
floats in the stock, with their number next to them, and `get_floats_count` is that
number. -/
structure StoredAsDecoded (pack : Packet) : Prop where
  client : ∀ bs, ∃ bs', Client.storeBatch pack bs = some bs'
    ∧ bs'.batch.floats = getFloats pack ∧ bs'.batch.len = (getFloats pack).length
  server : ∀ l bs, ∃ bs', Server.storeBatch pack l bs = some bs'
    ∧ (bs'.half l).floats = getFloats pack ∧ (bs'.half l).len = (getFloats pack).length
  count : getFloatsCount pack = (getFloats pack).length

theorem length_getFloats (pack : Packet) : (getFloats pack).length = pack.length.toNat / 4 :=
  length_getFloatsLoop _ _ _

/-- The count is right for a `PACK_OF_FLOATS` and for nothing else: no packet has `2 ^ 64 - 1`
floats. -/
theorem getFloatsCount_eq_iff (pack : Packet) :
    getFloatsCount pack = (getFloats pack).length ↔ pack.type = .packOfFloats := by
  rw [length_getFloats, getFloatsCount]
  constructor
  · intro hcount
    by_contra htype
    rw [if_pos htype] at hcount
    have hlen := pack.length.isLt
    omega
  · intro htype
    rw [if_neg (by simp [htype])]

/-- Copying as many floats as there are succeeds. -/
theorem copyArrOfFloats_length (arr : List CFloat) :
    copyArrOfFloats arr arr.length = some ⟨arr, arr.length, rfl⟩ := by
  rw [copyArrOfFloats, dif_pos le_rfl]
  congr 1
  apply SizedBuf.ext
  · exact List.take_length
  · rfl

/-- A packet whose count is right is stored as it was decoded. -/
theorem storedAsDecoded_of_count {pack : Packet}
    (h : getFloatsCount pack = (getFloats pack).length) : StoredAsDecoded pack := by
  refine ⟨?_, ?_, h⟩
  · intro bs
    refine ⟨⟨⟨getFloats pack, (getFloats pack).length, rfl⟩⟩, ?_, rfl, rfl⟩
    rw [Client.storeBatch, Client.addToBatchStock, h, copyArrOfFloats_length]
    rfl
  · intro l bs
    cases l with
    | first =>
        refine ⟨{ bs with firstBatch := ⟨getFloats pack, _, rfl⟩ }, ?_, rfl, rfl⟩
        rw [Server.storeBatch, Server.addFirstStockToBatch, h, copyArrOfFloats_length]
        rfl
    | second =>
        refine ⟨{ bs with secondBatch := ⟨getFloats pack, _, rfl⟩ }, ?_, rfl, rfl⟩
        rw [Server.storeBatch, Server.addSecondStockToBatch, h, copyArrOfFloats_length]
        rfl

/-- **What is stored is what was decoded**, of an accepted byte string, if and only if its
type word is zero. -/
theorem storedAsDecoded_iff (d : Datagram) (pack : Packet) (h : bytesToPack d.get = .ok pack) :
    StoredAsDecoded pack ↔ leWord (typeWord d) = 0 := by
  rw [← type_eq_packOfFloats_iff h]
  constructor
  · intro hstored
    exact (getFloatsCount_eq_iff pack).mp hstored.count
  · intro htype
    exact storedAsDecoded_of_count ((getFloatsCount_eq_iff pack).mpr htype)

/-- One float in a `PACK_OF_FLOATS` is stored. -/
theorem storedAsDecoded_one_float :
    StoredAsDecoded ⟨.packOfFloats, 4, [1, 0, 0, 0], by decide⟩ :=
  (storedAsDecoded_iff [0, 0, 0, 0, 4, 0, 0, 0, 1, 0, 0, 0] _ rfl).mpr (by decide)

/-- An `INIT_PACK` is accepted, and `get_floats` finds one float in it, but the size handed
to the copy is `2 ^ 64 - 1`. -/
theorem initPack_not_stored :
    ∃ pack, bytesToPack ([1, 0, 0, 0, 4, 0, 0, 0, 1, 0, 0, 0] : Datagram).get = .ok pack
      ∧ getFloats pack = [1] ∧ getFloatsCount pack = 2 ^ 64 - 1
      ∧ Client.storeBatch pack Client.initializeBatchStock = none
      ∧ (∀ l, Server.storeBatch pack l Server.initializeBatchStock = none)
      ∧ ¬ StoredAsDecoded pack := by
  refine ⟨⟨.initPack, 4, [1, 0, 0, 0], by decide⟩, rfl, by decide, rfl, rfl, ?_, ?_⟩
  · intro l
    cases l <;> rfl
  · intro hstored
    have hcount := hstored.count
    rw [getFloatsCount_eq_iff] at hcount
    cases hcount

/-! ## Reading inside the buffers -/

/-- The loop of `get_floats` with every slice read where it lies in memory. -/
def readFloats {size : ℕ} (ca : Fin size → CChar) (offset : ℕ) : ℕ → Except Stop (List CFloat)
  | 0 => .ok []
  | n + 1 => do
      let slice ← readBytes ca offset 4
      let rest ← readFloats ca (offset + 4) n
      return charArrToFloat slice.toList :: rest

/-- As long as the floats fit the memory, the loop reads inside it and finds the floats. -/
theorem readFloats_eq_ok (buf : List CChar) (offset n : ℕ) (h : offset + 4 * n ≤ buf.length) :
    readFloats buf.get offset n = .ok (getFloatsLoop buf offset n) := by
  induction n generalizing offset with
  | zero => rfl
  | succ n ih =>
      obtain ⟨slice, hslice, hbytes⟩ :=
        readBytes_of_startsWith (startsWith_get buf) offset 4 (by omega)
      have hrest := ih (offset + 4) (by omega)
      have hfloat : getSlice buf offset (offset + 4) = slice.toList := by
        rw [hbytes, getSlice, Nat.add_sub_cancel_left]
      rw [readFloats, hslice, hrest, getFloatsLoop, hfloat]
      rfl

/-- **`get_floats` stays inside the payload**: the slices it reads lie in `pack->buf`, of
every packet. -/
theorem readFloats_payload (pack : Packet) :
    readFloats pack.buf.get 0 (pack.length.toNat / 4) = .ok (getFloats pack) := by
  apply readFloats_eq_ok
  have hlen := pack.length_le
  omega

/-- The reads of one round stay inside: those of `bytes_to_pack` inside the receive buffer,
and those of `get_floats` inside the payload allocated by the decoder. -/
structure StaysInside (buf : Buf) : Prop where
  decode : bytesToPack buf ≠ .error .outOfBounds
  floats : ∀ pack, bytesToPack buf = .ok pack →
    readFloats pack.buf.get 0 (pack.length.toNat / 4) ≠ .error .outOfBounds

/-- The header is read, and the copy of the payload is the first read that fails. -/
theorem bytesToPack_eq_outOfBounds {size : ℕ} {ca : Fin size → CChar} {b : List CChar}
    (hd : StartsWith ca b) (hheader : 8 ≤ b.length) {t : PacketType}
    (ht : charArrToPackType (typeWord b) = some t) (hlarge : size < 8 + (lengthWord b).toNat) :
    bytesToPack ca = .error .outOfBounds := by
  obtain ⟨tArr, htArr, htArr'⟩ := readBytes_of_startsWith hd 0 4 (by omega)
  obtain ⟨len, hlen, hlen'⟩ := readBytes_of_startsWith hd 4 4 (by omega)
  have hword : bytesArrToUint len.toList = lengthWord b := by rw [hlen', lengthWord]
  have hbuf : readBytes ca 8 (bytesArrToUint len.toList).toNat = .error .outOfBounds := by
    rw [readBytes, dif_neg (by rw [hword]; exact Nat.not_le.mpr hlarge)]
  have htype : charArrToPackType tArr.toList = some t := by
    rw [htArr', List.drop_zero]
    exact ht
  simp only [bytesToPack, htArr, bind, Except.bind, htype, populatePackOfFloats, hlen, hbuf]

/-- **Where the decoder reads past its memory.**  With a complete header, exactly when the
type is known and the length word exceeds what follows the header. -/
theorem bytesToPack_eq_outOfBounds_iff {size : ℕ} (ca : Fin size → CChar) (h : 8 ≤ size) :
    bytesToPack ca = .error .outOfBounds ↔
      (leWord (typeWord (List.ofFn ca)) = 0 ∨ leWord (typeWord (List.ofFn ca)) = 1)
        ∧ size < 8 + (lengthWord (List.ofFn ca)).toNat := by
  have hd := startsWith_ofFn ca
  have hlength : (List.ofFn ca).length = size := List.length_ofFn
  have hfour : (typeWord (List.ofFn ca)).length = 4 := length_take_four (by omega)
  by_cases hknown : leWord (typeWord (List.ofFn ca)) = 0 ∨ leWord (typeWord (List.ofFn ca)) = 1
  · obtain ⟨t, ht⟩ := exists_type_of_leWord hfour hknown
    by_cases hfits : 8 + (lengthWord (List.ofFn ca)).toNat ≤ size
    · obtain ⟨pack, hpack, -⟩ := bytesToPack_of_header hd ht (by omega) (by omega)
      rw [hpack]
      constructor
      · intro herror
        cases herror
      · rintro ⟨-, hlarge⟩
        omega
    · have hlarge := Nat.lt_of_not_le hfits
      exact iff_of_true (bytesToPack_eq_outOfBounds hd (by omega) ht hlarge) ⟨hknown, hlarge⟩
  · have hexit : bytesToPack ca = .error .exit :=
      bytesToPack_eq_exit hd (by omega) (fun hzero => hknown (.inl hzero))
        (fun hone => hknown (.inr hone))
    rw [hexit]
    constructor
    · intro herror
      cases herror
    · rintro ⟨hknown', -⟩
      exact absurd hknown' hknown

/-- **Decoding stays inside the receive buffer** if and only if the type word is unknown, so
that nothing more is read, or the length word leaves room for the header. -/
theorem staysInside_iff (buf : Buf) :
    StaysInside buf ↔
      (leWord (typeWord (List.ofFn buf)) = 0 ∨ leWord (typeWord (List.ofFn buf)) = 1 →
        8 + (lengthWord (List.ofFn buf)).toNat ≤ MAXBUF) := by
  have hout := bytesToPack_eq_outOfBounds_iff buf (by decide)
  constructor
  · intro hinside hknown
    by_contra hlarge
    exact hinside.decode (hout.mpr ⟨hknown, Nat.lt_of_not_le hlarge⟩)
  · intro hroom
    constructor
    · intro herror
      obtain ⟨hknown, hlarge⟩ := hout.mp herror
      have hfits := hroom hknown
      omega
    · intro pack _
      rw [readFloats_payload]
      intro herror
      cases herror

/-- An empty buffer after a datagram of eight bytes whose length word is all ones. -/
def hugeLength : Buf := recvfrom (fun _ => 0) [0, 0, 0, 0, 0xff, 0xff, 0xff, 0xff]

/-- Decoding it reads past its end. -/
theorem hugeLength_not_staysInside :
    bytesToPack hugeLength = .error .outOfBounds ∧ ¬ StaysInside hugeLength := by
  have hout : bytesToPack hugeLength = .error .outOfBounds := rfl
  refine ⟨hout, ?_⟩
  intro hinside
  exact hinside.decode hout
