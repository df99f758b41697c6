/-
# The listener loop and its reused buffer

`run_listener`, of the client as of the server, seen from what `recvfrom` does: each
round either fails, and leaves the buffer as it was, or receives a datagram.  Neither
program looks at the return value of `recvfrom`, so each round decodes the buffer and
stores what it finds.  A round that cannot decode the buffer, or whose floats
`store_batch` cannot copy, ends the program.

What is stored should depend on the datagrams alone, one batch for each (`NoReplay`).
That is so exactly as long as every receive succeeds and every datagram holds what it
makes the round store (`noReplay_iff`): a failed receive stores the last batch again, and
a datagram shorter than the floats it announces is completed from earlier traffic.

The listener threads of the two programs hand over what this loop stores
(`Client.replied_eq_runListener`, `Server.handed_eq_runListener`).
-/
import Quadrocopt.AcceptedBytes
import Quadrocopt.ClientPaths
import Quadrocopt.ServerPaths

/-! ## The loop -/

/-- The outcome of one `recvfrom`. -/
inductive Outcome where
  | error
  | datagram (d : Datagram)

/-- `receive_packet`: the buffer after one `recvfrom`. -/
def receivePacket (buf : Buf) : Outcome → Buf
  | .error => buf
  | .datagram d => recvfrom buf d

/-- The datagrams among the outcomes. -/
def Outcome.datagrams (os : List Outcome) : List Datagram :=
  os.filterMap fun o => match o with
    | .error => none
    | .datagram d => some d

/-- The listeners of the two programs. -/
inductive Listener where
  | client
  | server (l : Server.ListenerType)

namespace Listener

/-- The stock that a listener fills. -/
abbrev Stock : Listener → Type
  | client => Client.BatchStock
  | server _ => Server.BatchStock

/-- `initialize_batch_stock` of the two programs. -/
def initializeBatchStock : (p : Listener) → p.Stock
  | client => Client.initializeBatchStock
  | server _ => Server.initializeBatchStock

/-- `store_batch` of the two programs. -/
def storeBatch (pack : Packet) : (p : Listener) → p.Stock → Option p.Stock
  | client, bs => Client.storeBatch pack bs
  | server l, bs => Server.storeBatch pack l bs

/-- The batch of the listener in its stock. -/
def batch : (p : Listener) → p.Stock → SizedBuf
  | client, bs => Client.BatchStock.batch bs
  | server l, bs => Server.BatchStock.half bs l

/-- Whatever the stock holds, what is stored is the copy of the packet. -/
theorem map_batch_storeBatch (p : Listener) (pack : Packet) (bs : p.Stock) :
    (storeBatch pack p bs).map p.batch = copyOfPacket pack := by
  cases p with
  | client =>
      show (Option.map _ (copyOfPacket pack)).map _ = _
      cases copyOfPacket pack <;> rfl
  | server l =>
      cases l with
      | first =>
          show (Option.map _ (copyOfPacket pack)).map _ = _
          cases copyOfPacket pack <;> rfl
      | second =>
          show (Option.map _ (copyOfPacket pack)).map _ = _
          cases copyOfPacket pack <;> rfl

end Listener

/-- One round: what `recvfrom` does, and the stock as the calculator has left it. -/
structure Round (p : Listener) where
  outcome : Outcome
  stock : p.Stock

/-- `run_listener`: the batches that the rounds store, until one of them ends the program. -/
def runListener (p : Listener) (buf : Buf) : List (Round p) → List SizedBuf
  | [] => []
  | r :: rs =>
      match bytesToPack (receivePacket buf r.outcome) with
      | .error _ => []
      | .ok pack =>
          match Listener.storeBatch pack p r.stock with
          | none => []
          | some stock => p.batch stock :: runListener p (receivePacket buf r.outcome) rs

/-- As long as the outcomes are among `D`, what is stored is a function of the datagrams
received, one batch for each, whatever the buffer held and whatever came before. -/
def NoReplay (p : Listener) (D : Outcome → Prop) : Prop :=
  ∃ f : Datagram → SizedBuf, ∀ buf (rs : List (Round p)), (∀ r ∈ rs, D r.outcome) →
    runListener p buf rs = (Outcome.datagrams (rs.map Round.outcome)).map f

/-! ## What a round stores -/

/-- The packets that the rounds decode, until one of them cannot. -/
def decodedRounds (buf : Buf) : List Outcome → List Packet
  | [] => []
  | o :: os =>
      match bytesToPack (receivePacket buf o) with
      | .ok pack => pack :: decodedRounds (receivePacket buf o) os
      | .error _ => []

/-- The copies of packets, until one of them cannot be copied. -/
def copiesOf : List Packet → List SizedBuf
  | [] => []
  | pack :: packs =>
      match copyOfPacket pack with
      | some copy => copy :: copiesOf packs
      | none => []

/-- **The loop stores copies of what it decodes**; the stocks do not matter. -/
theorem runListener_eq (p : Listener) (buf : Buf) (rs : List (Round p)) :
    runListener p buf rs = copiesOf (decodedRounds buf (rs.map Round.outcome)) := by
  induction rs generalizing buf with
  | nil => rfl
  | cons r rs ih =>
      rw [List.map_cons, runListener, decodedRounds]
      cases bytesToPack (receivePacket buf r.outcome) with
      | error stop => rfl
      | ok pack =>
          have hstored := p.map_batch_storeBatch pack r.stock
          simp only [copiesOf, ← hstored]
          cases Listener.storeBatch pack p r.stock with
          | none => rfl
          | some stock => exact congrArg (p.batch stock :: ·) (ih _)

/-- Packets that can all be copied are all stored, with their floats. -/
theorem floats_copiesOf {packs : List Packet} (h : ∀ pack ∈ packs, copyOfPacket pack ≠ none) :
    (copiesOf packs).map SizedBuf.floats = packs.map getFloats := by
  induction packs with
  | nil => rfl
  | cons pack packs ih =>
      obtain ⟨copy, hcopy⟩ := Option.ne_none_iff_exists'.mp (h pack List.mem_cons_self)
      rw [copiesOf, hcopy, List.map_cons, List.map_cons, floats_of_copyOfPacket hcopy,
        ih fun q hq => h q (List.mem_cons_of_mem _ hq)]

/-! ## Datagrams that hold their floats -/

/-- The datagram holds all that its round stores: the header of a `PACK_OF_FLOATS`, and the
floats that the length word announces.  Up to three bytes more may be announced, which are
copied from behind the datagram and never stored; they have to be in the buffer. -/
structure HoldsItsFloats (d : Datagram) : Prop where
  length_le : d.length ≤ MAXBUF
  header : 8 ≤ d.length
  type_eq : charArrToPackType (typeWord d) = some .packOfFloats
  floats : 8 + 4 * ((lengthWord d).toNat / 4) ≤ d.length
  room : 8 + (lengthWord d).toNat ≤ MAXBUF

/-- The batch that such a datagram makes its round store. -/
def batchOf (d : Datagram) : SizedBuf where
  floats := getFloatsLoop (d.drop 8) 0 ((lengthWord d).toNat / 4)
  len := (lengthWord d).toNat / 4
  len_eq := (length_getFloatsLoop _ _ _).symm

/-- What exceeds the buffer is cut off. -/
theorem recvfrom_take (buf : Buf) (d : Datagram) :
    recvfrom buf (d.take MAXBUF) = recvfrom buf d := by
  funext i
  have hi : (i : ℕ) < MAXBUF := i.isLt
  by_cases hd : (i : ℕ) < d.length <;> simp [recvfrom, hi, hd]

/-- A memory that starts with a datagram, as a list. -/
theorem StartsWith.prefix_ofFn {size : ℕ} {ca : Fin size → CChar} {d : Datagram}
    (h : StartsWith ca d) : d <+: List.ofFn ca := by
  obtain ⟨hsize, hbytes⟩ := h
  rw [List.prefix_iff_eq_take]
  apply List.ext_getElem
  · rw [List.length_take, List.length_ofFn, Nat.min_eq_left hsize]
  · intro i hi _
    rw [List.getElem_take, List.getElem_ofFn]
    exact (hbytes ⟨i, hi⟩).symm

/-- A part of a prefix. -/
theorem take_drop_of_prefix {d m : List CChar} (h : d <+: m) {i n : ℕ} (hn : i + n ≤ d.length) :
    (m.drop i).take n = (d.drop i).take n := by
  obtain ⟨rest, rfl⟩ := h
  rw [List.drop_append_of_le_length (by omega), List.take_append_of_le_length]
  rw [List.length_drop]
  omega

/-- The two words of a complete header. -/
theorem header_of_prefix {d m : List CChar} (h : d <+: m) (hheader : 8 ≤ d.length) :
    typeWord m = typeWord d ∧ lengthWord m = lengthWord d := by
  have htype := take_drop_of_prefix h (i := 0) (n := 4) (by omega)
  have hlength := take_drop_of_prefix h (i := 4) (n := 4) (by omega)
  rw [List.drop_zero, List.drop_zero] at htype
  exact ⟨htype, congrArg bytesArrToUint hlength⟩

/-- The floats depend on the bytes that are read for them. -/
theorem getFloatsLoop_congr {buf buf' : List CChar} {offset n : ℕ}
    (h : buf.take (offset + 4 * n) = buf'.take (offset + 4 * n)) :
    getFloatsLoop buf offset n = getFloatsLoop buf' offset n := by
  induction n generalizing offset with
  | zero => rfl
  | succ n ih =>
      have hslice : getSlice buf offset (offset + 4) = getSlice buf' offset (offset + 4) := by
        have hfour := congrArg (List.take (offset + 4)) h
        rw [List.take_take, List.take_take, Nat.min_eq_left (by omega)] at hfour
        rw [getSlice, getSlice, Nat.add_sub_cancel_left, List.take_drop, List.take_drop, hfour]
      rw [getFloatsLoop, getFloatsLoop, hslice, ih]
      rwa [show offset + 4 + 4 * n = offset + 4 * (n + 1) by omega]

/-- The bytes that were read for the floats can be read off from them. -/
theorem flatMap_getFloatsLoop {buf : List CChar} {offset n : ℕ}
    (h : offset + 4 * n ≤ buf.length) :
    (getFloatsLoop buf offset n).flatMap floatToCharArr = (buf.drop offset).take (4 * n) := by
  induction n generalizing offset with
  | zero => rw [getFloatsLoop, Nat.mul_zero, List.take_zero, List.flatMap_nil]
  | succ n ih =>
      have hslice : (getSlice buf offset (offset + 4)).length = 4 := by
        rw [getSlice, List.length_take, List.length_drop]
        omega
      have hfloat : floatToCharArr (charArrToFloat (getSlice buf offset (offset + 4)))
          = getSlice buf offset (offset + 4) := uintToBytesArr_bytesArrToUint _ hslice
      rw [getFloatsLoop, List.flatMap_cons, hfloat, ih (by omega), getSlice,
        Nat.add_sub_cancel_left, Nat.mul_succ, Nat.add_comm (4 * n), List.take_add,
        List.drop_drop]

/-- **A datagram that holds its floats** makes its round store them, whatever the buffer held. -/
theorem HoldsItsFloats.round {d : Datagram} (hd : HoldsItsFloats d) (buf : Buf) :
    ∃ pack, bytesToPack (recvfrom buf d) = .ok pack ∧ copyOfPacket pack = some (batchOf d) := by
  have hheader := hd.header
  have hroom := hd.room
  have hmemory : (List.ofFn (recvfrom buf d)).length = MAXBUF := List.length_ofFn
  have hprefix : d <+: List.ofFn (recvfrom buf d) :=
    (startsWith_recvfrom buf d hd.length_le).prefix_ofFn
  obtain ⟨htype, hlength⟩ := header_of_prefix hprefix hheader
  obtain ⟨pack, hpack, hfloats, hlen, hbuf⟩ := bytesToPack_of_header
    (startsWith_ofFn (recvfrom buf d)) (by rw [htype, hd.type_eq]) (by omega)
    (by rw [hlength]; omega)
  rw [hlength] at hlen hbuf
  have hread : getFloats pack = (batchOf d).floats := by
    have hbytes := take_drop_of_prefix hprefix hd.floats
    rw [getFloats, hlen, hbuf]
    refine getFloatsLoop_congr ?_
    rw [Nat.zero_add, List.take_take, Nat.min_eq_left (Nat.mul_div_le _ 4), hbytes]
  have hcount : getFloatsCount pack = (batchOf d).len := by
    rw [getFloatsCount, if_neg (by simp [hfloats]), hlen]
    rfl
  refine ⟨pack, hpack, ?_⟩
  rw [copyOfPacket, hread, hcount, (batchOf d).len_eq, copyArrOfFloats_length]
  exact congrArg some (SizedBuf.ext rfl (batchOf d).len_eq.symm)

/-- **Round by round the loop stores the batches of the datagrams.** -/
theorem copiesOf_decodedRounds (buf : Buf) (os : List Outcome)
    (h : ∀ o ∈ os, ∃ d, o = .datagram d ∧ HoldsItsFloats (d.take MAXBUF)) :
    copiesOf (decodedRounds buf os)
      = (Outcome.datagrams os).map fun d => batchOf (d.take MAXBUF) := by
  induction os generalizing buf with
  | nil => rfl
  | cons o os ih =>
      obtain ⟨d, rfl, hd⟩ := h o List.mem_cons_self
      obtain ⟨pack, hpack, hcopy⟩ := hd.round buf
      rw [recvfrom_take] at hpack
      have hrest := ih (recvfrom buf d) (fun o ho => h o (List.mem_cons_of_mem _ ho))
      simp only [decodedRounds, receivePacket, hpack, copiesOf, hcopy, hrest]
      rfl

/-! ## Nothing less is enough -/

/-- Two buffers that differ everywhere. -/
def zeros : Buf := fun _ => 0

@[inherit_doc zeros] def ones : Buf := fun _ => 0xff

theorem ones_ne_zeros (i : Fin MAXBUF) : ones i ≠ zeros i := by
  show (0xff : CChar) ≠ 0
  decide

/-- Past the datagram the buffer is as it was. -/
theorem recvfrom_of_le (buf : Buf) {d : Datagram} {i : Fin MAXBUF} (h : d.length ≤ i) :
    recvfrom buf d i = buf i := dif_neg (Nat.not_lt.mpr h)

/-- A datagram that decodes on the buffer full of `0xff` has a complete header: otherwise
the last char of one of its words is `0xff`, and the word too large. -/
theorem header_of_bytesToPack {d : Datagram} {pack : Packet}
    (h : bytesToPack (recvfrom ones d) = .ok pack) : 8 ≤ d.length := by
  obtain ⟨tArr, len, buf, htArr, hlen, hbuf, htype, hlength, -⟩ := bytesToPack_eq_ok h
  by_contra hshort
  obtain ⟨_, hbytes⟩ := readBytes_eq_ok htArr
  obtain ⟨_, hbytes'⟩ := readBytes_eq_ok hlen
  by_cases hfour : d.length < 4
  · have hlast := (hbytes 3 (by decide)).trans (recvfrom_of_le ones (by simp; omega))
    rw [charArrToPackType_eq_none hlast] at htype
    cases htype
  · have hlast := (hbytes' 3 (by decide)).trans (recvfrom_of_le ones (by simp; omega))
    have hlarge := le_bytesArrToUint hlast
    rw [← hlength] at hlarge
    obtain ⟨hsize, -⟩ := readBytes_eq_ok hbuf
    have hmax : MAXBUF < 2 ^ 31 := by decide
    omega

/-- Only a `PACK_OF_FLOATS` can be copied. -/
theorem type_of_copyOfPacket {pack : Packet} {copy : SizedBuf} (h : copyOfPacket pack = some copy) :
    pack.type = .packOfFloats := by
  by_contra htype
  obtain ⟨hle, -⟩ := floats_of_copyArrOfFloats h
  have hlen := pack.length.isLt
  rw [length_getFloats, getFloatsCount, if_pos htype] at hle
  omega

/-- The bytes of a stored batch are those in the buffer. -/
theorem getD_of_copyOfPacket {buf : Buf} {pack : Packet} {copy : SizedBuf} {i : ℕ}
    (hpack : bytesToPack buf = .ok pack) (hcopy : copyOfPacket pack = some copy)
    (hi : i < 4 * (pack.length.toNat / 4)) :
    ∃ h : 8 + i < MAXBUF, (copy.floats.flatMap floatToCharArr).getD i 0 = buf ⟨8 + i, h⟩ := by
  obtain ⟨tArr, len, payload, -, -, hpayload, -, -, hbuf⟩ := bytesToPack_eq_ok hpack
  obtain ⟨hsize, hbytes⟩ := readBytes_eq_ok hpayload
  have hle := pack.length_le
  refine ⟨by omega, ?_⟩
  rw [floats_of_copyOfPacket hcopy, getFloats, flatMap_getFloatsLoop (by omega), List.drop_zero,
    ← hbytes i (by omega), ← hbuf, List.getD_eq_getElem?_getD, List.getElem?_take_of_lt hi,
    List.getD_eq_getElem?_getD]

/-- **A datagram that stores one batch on every buffer holds its floats.** -/
theorem holdsItsFloats_of_round {d : Datagram} (batch : SizedBuf) (hmax : d.length ≤ MAXBUF)
    (h : ∀ buf, ∃ pack, bytesToPack (recvfrom buf d) = .ok pack
      ∧ copyOfPacket pack = some batch) : HoldsItsFloats d := by
  obtain ⟨pack, hpack, hcopy⟩ := h ones
  obtain ⟨pack', hpack', hcopy'⟩ := h zeros
  have hheader := header_of_bytesToPack hpack
  have hmemory (buf : Buf) : (List.ofFn (recvfrom buf d)).length = MAXBUF := List.length_ofFn
  have hword (buf : Buf) := header_of_prefix (startsWith_recvfrom buf d hmax).prefix_ofFn hheader
  have hlen := length_of_decoded hpack
  have hlen' := length_of_decoded hpack'
  rw [(hword _).2] at hlen hlen'
  obtain ⟨-, -, payload, -, -, hpayload, -, -, -⟩ := bytesToPack_eq_ok hpack
  obtain ⟨hroom, -⟩ := readBytes_eq_ok hpayload
  have htype := type_of_bytesToPack (startsWith_ofFn (recvfrom ones d)) (by rw [hmemory]; decide)
    hpack
  rw [(hword _).1, type_of_copyOfPacket hcopy] at htype
  refine ⟨hmax, hheader, htype, ?_, by rwa [hlen] at hroom⟩
  -- the first byte after the datagram would be in the batch, on both buffers
  by_contra hshort
  obtain ⟨hi, hone⟩ := getD_of_copyOfPacket (i := d.length - 8) hpack hcopy (by rw [hlen]; omega)
  obtain ⟨_, hzero⟩ := getD_of_copyOfPacket (i := d.length - 8) hpack' hcopy' (by rw [hlen']; omega)
  rw [recvfrom_of_le ones (by simp; omega)] at hone
  rw [recvfrom_of_le zeros (by simp; omega), hone] at hzero
  exact ones_ne_zeros _ hzero

/-- The zero buffer stores an empty batch. -/
theorem copiesOf_zeros : copiesOf (decodedRounds zeros [.error]) = [SizedBuf.null] := rfl

/-- The only batch that one datagram may store. -/
theorem round_of_copiesOf {buf : Buf} {d : Datagram} {batch : SizedBuf}
    (h : copiesOf (decodedRounds buf [.datagram d]) = [batch]) :
    ∃ pack, bytesToPack (recvfrom buf d) = .ok pack ∧ copyOfPacket pack = some batch := by
  simp only [decodedRounds, receivePacket] at h
  split at h
  · next pack hpack =>
    simp only [copiesOf] at h
    split at h
    · next copy hcopy =>
      obtain rfl := (List.cons.inj h).1
      exact ⟨pack, hpack, hcopy⟩
    · cases h
  · cases h

/-- **The exact condition.**  Nothing is ever replayed if and only if every receive succeeds
and every datagram, cut off at the size of the buffer, holds the floats that it makes the
round store. -/
theorem noReplay_iff (p : Listener) (D : Outcome → Prop) :
    NoReplay p D ↔ ∀ o, D o → ∃ d, o = .datagram d ∧ HoldsItsFloats (d.take MAXBUF) := by
  constructor
  · -- runs of a single round, on the two buffers that differ everywhere
    rintro ⟨f, hf⟩ o ho
    have hone (buf : Buf) :
        copiesOf (decodedRounds buf [o]) = (Outcome.datagrams [o]).map f := by
      have hrun := hf buf [⟨o, p.initializeBatchStock⟩] (by simpa using ho)
      rwa [runListener_eq] at hrun
    cases o with
    | error =>
        have hnone := hone zeros
        rw [copiesOf_zeros] at hnone
        cases hnone
    | datagram d =>
        refine ⟨d, rfl, holdsItsFloats_of_round (f d) ?_ fun buf => ?_⟩
        · rw [List.length_take]
          exact Nat.min_le_left _ _
        · rw [recvfrom_take]
          exact round_of_copiesOf (hone buf)
  · intro hD
    refine ⟨fun d => batchOf (d.take MAXBUF), ?_⟩
    intro buf rs hrs
    rw [runListener_eq]
    apply copiesOf_decodedRounds
    intro o ho
    obtain ⟨r, hr, rfl⟩ := List.mem_map.mp ho
    exact hD r.outcome (hrs r hr)

/-- A round in which the stock is as `initialize_batch_stock` has left it. -/
def Listener.round (p : Listener) (o : Outcome) : Round p := ⟨o, p.initializeBatchStock⟩

theorem runListener_round (p : Listener) (buf : Buf) (os : List Outcome) :
    runListener p buf (os.map p.round) = copiesOf (decodedRounds buf os) := by
  have houtcomes : (os.map p.round).map Round.outcome = os := by
    rw [List.map_map]
    exact List.map_id os
  rw [runListener_eq, houtcomes]

/-- Outcomes of `recvfrom`: a reply of four floats, then a failed receive, then a datagram with a
header for four floats and none of them. -/
def failedAndShort : List Outcome :=
  [.datagram (datagramOf [1, 2, 3, 4]), .error, .datagram ((datagramOf [5, 6, 7, 8]).take 8)]

/-- The listener stores the reply three times, and nothing makes it so in the last datagram,
which on its own buffer stores zeros. -/
structure Replays (p : Listener) : Prop where
  stored : (runListener p zeros (failedAndShort.map p.round)).map SizedBuf.floats
    = [[1, 2, 3, 4], [1, 2, 3, 4], [1, 2, 3, 4]]
  alone : (runListener p zeros ((failedAndShort.drop 2).map p.round)).map SizedBuf.floats
    = [[0, 0, 0, 0]]
  not_noReplay : ¬ NoReplay p (fun _ => True)

theorem replays (p : Listener) : Replays p := by
  refine ⟨?_, ?_, ?_⟩
  · rw [runListener_round]
    decide +kernel
  · rw [runListener_round]
    decide +kernel
  · rintro ⟨f, hf⟩
    have hrun := hf zeros ([.error].map p.round) fun _ _ => trivial
    rw [runListener_round, copiesOf_zeros] at hrun
    cases hrun

/-- All three listeners do so. -/
theorem failed_and_short_receives_replay :
    Replays .client ∧ Replays (.server .first) ∧ Replays (.server .second) :=
  ⟨replays _, replays _, replays _⟩

/-! ## The loop inside the two programs -/

/-- One more round of a loop that has decoded every round so far. -/
theorem decodedRounds_concat {buf : Buf} {os : List Outcome} {o : Outcome} {pack : Packet}
    (hlen : (decodedRounds buf os).length = os.length)
    (hpack : bytesToPack (receivePacket (os.foldl receivePacket buf) o) = .ok pack) :
    decodedRounds buf (os ++ [o]) = decodedRounds buf os ++ [pack] := by
  induction os generalizing buf with
  | nil =>
      rw [List.foldl_nil] at hpack
      simp only [List.nil_append, decodedRounds, hpack]
  | cons o' os ih =>
      cases hround : bytesToPack (receivePacket buf o') with
      | ok pack' =>
          simp only [List.cons_append, decodedRounds, hround, List.length_cons,
            Nat.add_right_cancel_iff] at hlen ⊢
          rw [ih hlen hpack]
      | error stop =>
          simp only [decodedRounds, hround, List.length_nil, List.length_cons] at hlen
          omega

/-- The first rounds decode the first packets. -/
theorem decodedRounds_take (buf : Buf) (os : List Outcome) (n : ℕ) :
    decodedRounds buf (os.take n) = (decodedRounds buf os).take n := by
  induction os generalizing buf n with
  | nil => simp [decodedRounds]
  | cons o os ih =>
      cases n with
      | zero => rfl
      | succ n =>
          rw [List.take_succ_cons, decodedRounds, decodedRounds]
          cases bytesToPack (receivePacket buf o) with
          | error stop => rfl
          | ok pack => exact congrArg (pack :: ·) (ih _ n)

/-- What a listener thread has decoded and handed over, against the datagrams it has received:
`packs` are the packets of the rounds that are over, `inHand` that of the round under way. -/
structure Decoded (bufin buf : Buf) (received : List Datagram) (packs inHand : List Packet)
    (handed : List (List CFloat)) : Prop where
  packets : decodedRounds bufin (received.map .datagram) = packs ++ inHand
  length : (decodedRounds bufin (received.map .datagram)).length = received.length
  buffer : (received.map Outcome.datagram).foldl receivePacket bufin = buf
  handed : packs.map getFloats = handed
  copied : ∀ pack ∈ packs, copyOfPacket pack ≠ none

namespace Decoded

variable {bufin buf : Buf} {received : List Datagram} {packs inHand : List Packet}
  {handed : List (List CFloat)}

/-- Another datagram is received and decoded. -/
theorem receive (h : Decoded bufin buf received packs [] handed) {d : Datagram} {pack : Packet}
    (hpack : bytesToPack (recvfrom buf d) = .ok pack) :
    Decoded bufin (recvfrom buf d) (received ++ [d]) packs [pack] handed := by
  have hround := decodedRounds_concat (o := .datagram d) (by rw [h.length, List.length_map])
    (by rw [h.buffer]; exact hpack)
  have hmap : (received ++ [d]).map Outcome.datagram
      = received.map Outcome.datagram ++ [.datagram d] := List.map_append
  refine ⟨?_, ?_, ?_, h.handed, h.copied⟩
  · rw [hmap, hround, h.packets, List.append_nil]
  · rw [hmap, hround, List.length_append, h.length, List.length_append]
    rfl
  · rw [hmap, List.foldl_append, h.buffer]
    rfl

/-- The packet in hand is handed over. -/
theorem signal {pack : Packet} (h : Decoded bufin buf received packs [pack] handed)
    (hcopy : copyOfPacket pack ≠ none) :
    Decoded bufin buf received (packs ++ [pack]) [] (handed ++ [getFloats pack]) where
  packets := by rw [h.packets, List.append_nil]
  length := h.length
  buffer := h.buffer
  handed := by rw [List.map_append, h.handed, List.map_singleton]
  copied := by
    intro q hq
    rcases List.mem_append.mp hq with hq | hq
    · exact h.copied q hq
    · rwa [List.mem_singleton.mp hq]

/-- **What is handed over is what the loop stores** in the rounds that are over, whatever it
finds in the stock. -/
theorem stored (h : Decoded bufin buf received packs inHand handed) {p : Listener}
    {rs : List (Round p)}
    (hrs : rs.map Round.outcome = (received.take handed.length).map .datagram) :
    (runListener p bufin rs).map SizedBuf.floats = handed := by
  have hlength : handed.length = packs.length := by rw [← h.handed, List.length_map]
  rw [runListener_eq, hrs, List.map_take, decodedRounds_take, h.packets, hlength, List.take_left,
    floats_copiesOf h.copied, h.handed]

end Decoded

open Transition

/-- The client's listener signals only what it has stored. -/
theorem Client.copied_of_signalReady {P : State → Action → Prop} {bufin : Buf}
    {as : List Action} {s : State} (h : Run step P (init bufin) as s) {pack : Packet}
    (hpc : s.listener = .signalReady pack) : copyOfPacket pack ≠ none := by
  induction h with
  | nil => cases hpc
  | snoc _ _ hstep ih =>
      cases step_move hstep with
      | store pack' copy hpc' hcopy =>
          cases hpc
          rw [hcopy]
          exact Option.some_ne_none copy
      | receive => cases hpc
      | listenerWait => cases hpc
      | listenerSignal => cases hpc
      | _ => exact ih hpc

/-- What the client's listener has received, decoded and handed over. -/
theorem Client.decoded {P : State → Action → Prop} {bufin : Buf} {as : List Action} {s : State}
    (h : Run step P (init bufin) as s) :
    ∃ packs, Decoded bufin s.bufin s.received packs s.listener.inHand s.replied := by
  induction h with
  | nil => exact ⟨[], rfl, rfl, rfl, rfl, nofun⟩
  | snoc hrun _ hstep ih =>
      obtain ⟨packs, hdecoded⟩ := ih
      cases step_move hstep with
      | receive d pack hpc hpack =>
          rw [hpc] at hdecoded
          exact ⟨packs, hdecoded.receive hpack⟩
      | listenerWait pack hpc hflag =>
          rw [hpc] at hdecoded
          exact ⟨packs, hdecoded⟩
      | store pack copy hpc hcopy =>
          rw [hpc] at hdecoded
          exact ⟨packs, hdecoded⟩
      | listenerSignal pack hpc =>
          rw [hpc] at hdecoded
          exact ⟨packs ++ [pack], hdecoded.signal (copied_of_signalReady hrun hpc)⟩
      | _ => exact ⟨packs, hdecoded⟩

/-- **The client hands over what the loop stores** of the datagrams received, up to the one in
hand. -/
theorem Client.replied_eq_runListener {P : State → Action → Prop} {bufin : Buf}
    {as : List Action} {s : State} (h : Run step P (init bufin) as s) {rs : List (Round .client)}
    (hrs : rs.map Round.outcome = (s.received.take s.replied.length).map .datagram) :
    (runListener .client bufin rs).map SizedBuf.floats = s.replied := by
  obtain ⟨packs, hdecoded⟩ := Client.decoded h
  exact hdecoded.stored hrs

/-- A listener of the server signals only what it has stored. -/
theorem Server.copied_of_signalReady {serverCalculations : List CFloat → List.Vector CFloat 4}
    {P : State → Action → Prop} {bufin : ListenerType → Buf} {as : List Action} {s : State}
    (h : Run (step serverCalculations) P (init bufin) as s) {l : ListenerType} {pack : Packet}
    (hpc : s.listener l = .signalReady pack) : copyOfPacket pack ≠ none := by
  induction h with
  | nil => cases hpc
  | snoc _ _ hstep ih =>
      cases step_move hstep with
      | store l' pack' copy bs hpc' hcopy hbs =>
          by_cases hl : l = l'
          · subst hl
            simp only [Function.update_self, ListenerPc.signalReady.injEq] at hpc
            rw [← hpc, hcopy]
            exact Option.some_ne_none copy
          · exact ih (by simpa [hl] using hpc)
      | receive l' =>
          by_cases hl : l = l'
          · simp [hl] at hpc
          · exact ih (by simpa [hl] using hpc)
      | waitUntilCalcReads l' =>
          by_cases hl : l = l'
          · simp [hl] at hpc
          · exact ih (by simpa [hl] using hpc)
      | listenerSignal l' =>
          by_cases hl : l = l'
          · simp [hl] at hpc
          · exact ih (by simpa [hl] using hpc)
      | _ => exact ih hpc

/-- What a listener of the server has received, decoded and handed over. -/
theorem Server.decoded {serverCalculations : List CFloat → List.Vector CFloat 4}
    {P : State → Action → Prop} {bufin : ListenerType → Buf} {as : List Action} {s : State}
    (h : Run (step serverCalculations) P (init bufin) as s) (l : ListenerType) :
    ∃ packs, Decoded (bufin l) (s.bufin l) (s.received l) packs (s.listener l).inHand
      (s.handed l) := by
  induction h with
  | nil => exact ⟨[], rfl, rfl, rfl, rfl, nofun⟩
  | snoc hrun _ hstep ih =>
      obtain ⟨packs, hdecoded⟩ := ih
      cases (step_move hstep).listenerMove l with
      | frame hpc hreceived hhanded hbufin =>
          rw [hreceived, hhanded, hpc, hbufin]
          exact ⟨packs, hdecoded⟩
      | receive d pack ha hpack hhand hhand' hreceived hhanded hbufin =>
          rw [hhand] at hdecoded
          rw [hreceived, hhanded, hhand', hbufin]
          exact ⟨packs, hdecoded.receive hpack⟩
      | proceed hhand hreceived hhanded hbufin =>
          rw [hreceived, hhanded, hhand, hbufin]
          exact ⟨packs, hdecoded⟩
      | signal pack hpc hhand hhand' hreceived hhanded hbufin =>
          rw [hhand] at hdecoded
          rw [hreceived, hhanded, hhand', hbufin]
          exact ⟨packs ++ [pack], hdecoded.signal (copied_of_signalReady hrun hpc)⟩

/-- **A listener of the server hands over what the loop stores** of the datagrams received, up
to the one in hand. -/
theorem Server.handed_eq_runListener {serverCalculations : List CFloat → List.Vector CFloat 4}
    {P : State → Action → Prop} {bufin : ListenerType → Buf} {as : List Action} {s : State}
    (h : Run (step serverCalculations) P (init bufin) as s) {l : ListenerType}
    {rs : List (Round (.server l))}
    (hrs : rs.map Round.outcome = ((s.received l).take (s.handed l).length).map .datagram) :
    (runListener (.server l) (bufin l) rs).map SizedBuf.floats = s.handed l := by
  obtain ⟨packs, hdecoded⟩ := Server.decoded h l
  exact hdecoded.stored hrs
