/-
# The stocks (`data_struct.c` of both programs)

The threads of each program exchange batches of floats through *stocks*: records
of heap blocks, each with a length field next to its pointer.  The pair of a
block and its length is a `SizedBuf`, whose length field is right by
construction; the empty one stands for the NULL pointer with length `0`.

Copying out of a block reads `n` floats whatever the block holds, so
`copyArrOfFloats` is partial: asking for more than there is has no result.

The client's and the server's `BatchStock` are different records; they live in the
namespaces `Client` and `Server`.
-/
import Quadrocopt.ReceiveBuffer

/-- A block of floats together with the length field kept next to its pointer. -/
@[ext] structure SizedBuf where
  floats : List CFloat
  len : ℕ
  len_eq : len = floats.length

namespace SizedBuf

/-- The NULL pointer with length `0`. -/
def null : SizedBuf := ⟨[], 0, rfl⟩

/-- A fresh copy of `len` floats of the block, with its length. -/
def copy (b : SizedBuf) : SizedBuf where
  floats := b.floats.take b.len
  len := b.len
  len_eq := by rw [b.len_eq, List.take_length]

@[simp] theorem copy_eq (b : SizedBuf) : b.copy = b := by
  apply SizedBuf.ext
  · exact List.take_of_length_le b.len_eq.ge
  · rfl

end SizedBuf

/-- `copy_arr_of_floats`, kept with its length; it has no result when the array is
shorter than the size asked for. -/
def copyArrOfFloats (arr : List CFloat) (arrSize : ℕ) : Option SizedBuf :=
  if h : arrSize ≤ arr.length then
    some ⟨arr.take arrSize, arrSize, by rw [List.length_take, Nat.min_eq_left h]⟩
  else none

/-- A copy that succeeds holds the floats asked for. -/
theorem floats_of_copyArrOfFloats {arr : List CFloat} {n : ℕ} {b : SizedBuf}
    (h : copyArrOfFloats arr n = some b) : n ≤ arr.length ∧ b.floats = arr.take n := by
  rw [copyArrOfFloats, Option.dite_none_right_eq_some] at h
  obtain ⟨hle, hb⟩ := h
  exact ⟨hle, by rw [← Option.some.inj hb]⟩

/-- A copy fails exactly when the array is too short. -/
@[simp] theorem copyArrOfFloats_eq_none {arr : List CFloat} {n : ℕ} :
    copyArrOfFloats arr n = none ↔ arr.length < n := by
  simp [copyArrOfFloats]

/-! ## The client's stocks -/

namespace Client

/-- `struct _BatchStock` of the client: the reply the listener hands over. -/
structure BatchStock where
  batch : SizedBuf

/-- `initialize_batch_stock`. -/
def initializeBatchStock : BatchStock := ⟨SizedBuf.null⟩

/-- `add_to_batch_stock`. -/
def addToBatchStock (_bs : BatchStock) (batch : List CFloat) (batchLen : ℕ) : Option BatchStock :=
  (copyArrOfFloats batch batchLen).map fun copy => ⟨copy⟩

/-- `get_batch_from_stock`; the length argument of the source is never written. -/
def getBatchFromStock (bs : BatchStock) : List CFloat := bs.batch.copy.floats

/-- `clean_batch_stock`. -/
def cleanBatchStock (_bs : BatchStock) : BatchStock := ⟨SizedBuf.null⟩

/-- `struct _SenderStock`: the request the calculator hands over. -/
structure SenderStock where
  firstBatch : SizedBuf
  secondBatch : SizedBuf

/-- `initialize_sender_stock`. -/
def initializeSenderStock : SenderStock := ⟨SizedBuf.null, SizedBuf.null⟩

/-- `add_first_batch_to_sender_stock`. -/
def addFirstBatchToSenderStock (s : SenderStock) (batch : List CFloat) (batchLen : ℕ) :
    Option SenderStock :=
  (copyArrOfFloats batch batchLen).map fun copy => { s with firstBatch := copy }

/-- `add_second_batch_to_sender_stock`. -/
def addSecondBatchToSenderStock (s : SenderStock) (batch : List CFloat) (batchLen : ℕ) :
    Option SenderStock :=
  (copyArrOfFloats batch batchLen).map fun copy => { s with secondBatch := copy }

end Client

/-! ## The server's stocks -/

namespace Server

/-- `enum _listener_t`: which of the two request ports a listener serves. -/
inductive ListenerType where
  | first
  | second
  deriving DecidableEq, Repr

/-- `struct _BatchStock` of the server: the two halves of a request. -/
structure BatchStock where
  firstBatch : SizedBuf
  secondBatch : SizedBuf

namespace BatchStock

/-- The half that the listener of the given type fills. -/
def half (bs : BatchStock) : ListenerType → SizedBuf
  | .first => bs.firstBatch
  | .second => bs.secondBatch

end BatchStock

/-- `initialize_batch_stock`. -/
def initializeBatchStock : BatchStock := ⟨SizedBuf.null, SizedBuf.null⟩

/-- `add_first_stock_to_batch`. -/
def addFirstStockToBatch (bs : BatchStock) (batch : List CFloat) (batchLen : ℕ) :
    Option BatchStock :=
  (copyArrOfFloats batch batchLen).map fun copy => { bs with firstBatch := copy }

/-- `add_second_stock_to_batch`. -/
def addSecondStockToBatch (bs : BatchStock) (batch : List CFloat) (batchLen : ℕ) :
    Option BatchStock :=
  (copyArrOfFloats batch batchLen).map fun copy => { bs with secondBatch := copy }

/-- `get_first_stock_from_batch`: the copy with the length it reports. -/
def getFirstStockFromBatch (bs : BatchStock) : SizedBuf := bs.firstBatch.copy

/-- `get_second_stock_from_batch`: the copy with the length it reports. -/
def getSecondStockFromBatch (bs : BatchStock) : SizedBuf := bs.secondBatch.copy

/-- `clean_batch_stock`: both halves at once. -/
def cleanBatchStock (_bs : BatchStock) : BatchStock := ⟨SizedBuf.null, SizedBuf.null⟩

/-- `struct _CalculationsStock`: the result the calculator hands to the sender. -/
structure CalculationsStock where
  calculations : SizedBuf

/-- `initialize_calculations_stock`. -/
def initializeCalculationsStock : CalculationsStock := ⟨SizedBuf.null⟩

/-- `add_to_calculations_stock`. -/
def addToCalculationsStock (_cs : CalculationsStock) (calcs : List CFloat) (calcsLen : ℕ) :
    Option CalculationsStock :=
  (copyArrOfFloats calcs calcsLen).map fun copy => ⟨copy⟩

/-- `get_calculations_from_stock`: the copy, and what is in the length argument afterwards.
The source never writes it. -/
def getCalculationsFromStock (cs : CalculationsStock) (calcsLen : ℕ) : List CFloat × ℕ :=
  (cs.calculations.copy.floats, calcsLen)

/-- `clean_calculations_stock`. -/
def cleanCalculationsStock (_cs : CalculationsStock) : CalculationsStock := ⟨SizedBuf.null⟩

end Server

/-! ## Storing a received packet -/

/-- The copy that `store_batch` makes of a packet: `get_floats_count` floats of
what `get_floats` returns.  Both programs and both halves store this. -/
def copyOfPacket (pack : Packet) : Option SizedBuf :=
  copyArrOfFloats (getFloats pack) (getFloatsCount pack)

/-- A copy of a packet that succeeds holds all its floats. -/
theorem floats_of_copyOfPacket {pack : Packet} {copy : SizedBuf}
    (h : copyOfPacket pack = some copy) : copy.floats = getFloats pack := by
  obtain ⟨hle, hfloats⟩ := floats_of_copyArrOfFloats h
  have hlen : (getFloats pack).length = pack.length.toNat / 4 := length_getFloatsLoop _ _ _
  rw [hfloats]
  apply List.take_of_length_le
  rw [getFloatsCount] at hle ⊢
  split at hle
  · have := pack.length.isLt
    omega
  · rw [if_neg ‹_›, hlen]

/-- A `PACK_OF_FLOATS` can be copied. -/
theorem copyOfPacket_ne_none {pack : Packet} (h : pack.type = .packOfFloats) :
    copyOfPacket pack ≠ none := by
  rw [copyOfPacket, ne_eq, copyArrOfFloats_eq_none, getFloatsCount, if_neg (by simp [h]),
    getFloats, length_getFloatsLoop]
  exact lt_irrefl _

/-- `store_batch` of the client. -/
def Client.storeBatch (pack : Packet) (bs : Client.BatchStock) : Option Client.BatchStock :=
  Client.addToBatchStock bs (getFloats pack) (getFloatsCount pack)

/-- `store_batch` of the server, for the listener of the given type. -/
def Server.storeBatch (pack : Packet) (l : Server.ListenerType) (bs : Server.BatchStock) :
    Option Server.BatchStock :=
  match l with
  | .first => Server.addFirstStockToBatch bs (getFloats pack) (getFloatsCount pack)
  | .second => Server.addSecondStockToBatch bs (getFloats pack) (getFloatsCount pack)
