/-
# The memory of the client

The calculator, the sender and the listener of the client with the blocks that they allocate,
release and point to: the control of `Client.lean` says which thread moves, and the code of each
step is executed on a heap.  A call of `get_u` starts with the payload that `get_next_step`
allocates for it, and ends where `get_next_step` releases the payload and the result.

Over replies of at least four floats no thread goes wrong in any interleaving
(`client_no_fault`), and the memory refines the control (`client_memory_refines`).  The sender
releases all that it allocates; of each call two blocks of the stock are never released, and of
each reply four of the listener (`client_leaks`).

The loops start on any heap: the blocks that the threads were set up with are on it, and all
counts are of the blocks beyond them.  What the calculator allocates outside of the calls, and
what the printer does, is left out.
-/
import Quadrocopt.HeapMachine
import Quadrocopt.PointerVariables
import Quadrocopt.Outstanding

namespace ClientMemory

open HeapProgram OnHeap Transition
open Client (Payload firstHalf secondHalf)

/-! ## The variables -/

/-- The pointers of the threads: the listener's buffer, its packet and the payload of that; the
two stocks; what `get_u` works with, from its argument to its result; and what the sender has
fetched, with the two packets that it makes of it. -/
inductive Place where
  | bufin
  | pack
  | packPayload
  | batch
  | firstStock
  | secondStock
  | payload
  | firstBatch
  | secondBatch
  | listenerBatch
  | u
  | firstFetched
  | secondFetched
  | firstPack
  | firstPayload
  | firstBytes
  | secondPack
  | secondPayload
  | secondBytes
  deriving DecidableEq

/-- What the client puts out: the datagrams sent to the two ports, and the results of `get_u`. -/
structure Output where
  sentFirst : List Datagram
  sentSecond : List Datagram
  returned : List (List CFloat)

/-- The variables of the threads. -/
abbrev Vars := OnHeap.Vars Place Output

/-! ## The code -/

/-- `calloc` of floats. -/
def callocFloats (n : ℕ) : Prog Block Ptr := malloc (floatsBlock (List.replicate n 0))

/-- `fill_sender_stock`. -/
def fillSenderStock (v : Vars) : Prog Block Vars := do
  let initFirstBatch ← callocFloats 6
  let initSecondBatch ← callocFloats 7
  let first ← OnHeap.copyArrOfFloats initFirstBatch 6
  let second ← OnHeap.copyArrOfFloats initSecondBatch 7
  return (v.set .firstStock first 6).set .secondStock second 7

/-- `fill_sender_stock`, and `allocate_buf` of the listener. -/
def startUp (v : Vars) : Prog Block Vars := do
  let v ← fillSenderStock v
  let bufin ← chars.malloc MAXBUF
  return v.set .bufin bufin 0

/-- `get_payload_from_calc_data` or `normalize_vector`, and the first lines of `get_u`. -/
def callGetU (payload : Payload) (v : Vars) : Prog Block Vars := do
  let p ← floats.malloc 13
  forRange 13 fun i => floats.store p i (payload.toList.getD i 0)
  let firstBatch ← floats.malloc 6
  let secondBatch ← floats.malloc 7
  floats.memcpy firstBatch 0 p 0 6
  floats.memcpy secondBatch 0 p 6 7
  return ((v.set .payload p 13).set .firstBatch firstBatch 6).set .secondBatch secondBatch 7

/-- `add_first_batch_to_sender_stock`. -/
def addFirstBatchToSenderStock (v : Vars) : Prog Block Vars := copyInto .firstBatch .firstStock 6 v

/-- `add_second_batch_to_sender_stock`. -/
def addSecondBatchToSenderStock (v : Vars) : Prog Block Vars :=
  copyInto .secondBatch .secondStock 7 v

/-- After the signal to the sender `get_u` releases the two halves. -/
def freeBatches (v : Vars) : Prog Block Vars := do
  free (v.ptr .firstBatch)
  free (v.ptr .secondBatch)
  return v

/-- `get_batch_from_stock`. -/
def getBatchFromStock (v : Vars) : Prog Block Vars := copyInto .batch .listenerBatch (v.len .batch) v

/-- `clean_batch_stock`, and what `get_u` does before its last signal. -/
def cleanBatchStock (v : Vars) : Prog Block Vars := do
  free (v.ptr .batch)
  let v := v.set .batch none 0
  let u ← floats.malloc 4
  floats.memcpy u 0 (v.ptr .listenerBatch) 0 4
  free (v.ptr .listenerBatch)
  return (v.set .listenerBatch none 0).set .u u 4

/-- What `get_next_step` does with the payload and the result: `set_u` reads the four floats. -/
def afterGetU (v : Vars) : Prog Block Vars := do
  free (v.ptr .payload)
  let u ← (List.range 4).mapM fun i => floats.load (v.ptr .u) i
  free (v.ptr .u)
  return { v with out := { v.out with returned := v.out.returned ++ [u] } }

/-- The first half of `fetch_batches`. -/
def fetchFirst (v : Vars) : Prog Block Vars :=
  copyInto .firstStock .firstFetched (v.len .firstStock) v

/-- The second half of `fetch_batches`. -/
def fetchSecond (v : Vars) : Prog Block Vars :=
  copyInto .secondStock .secondFetched (v.len .secondStock) v

/-- `send_calcs`, up to its first send. -/
def sendFirst (v : Vars) : Prog Block Vars := do
  let (v, d) ← sendFloats .firstFetched .firstPack .firstBytes v
  return { v with out := { v.out with sentFirst := v.out.sentFirst ++ [d] } }

/-- What `send_calcs` and the loop around it release. -/
def freeSent (v : Vars) : Prog Block Unit := do
  freePack (v.ptr .firstPack)
  freePack (v.ptr .secondPack)
  free (v.ptr .firstBytes)
  free (v.ptr .secondBytes)
  free (v.ptr .firstFetched)
  free (v.ptr .secondFetched)

/-- `send_calcs`, from its second packet on, and the end of the loop of `run_sender`. -/
def sendSecond (v : Vars) : Prog Block Vars := do
  let (v, d) ← sendFloats .secondFetched .secondPack .secondBytes v
  freeSent v
  return { v with out := { v.out with sentSecond := v.out.sentSecond ++ [d] } }

/-- `store_batch`. -/
def storeBatch (v : Vars) : Prog Block Vars := do
  let payload ← OnHeap.getFloats (v.ptr .pack)
  let count ← OnHeap.getFloatsCount (v.ptr .pack)
  let copy ← OnHeap.copyArrOfFloats payload count
  return v.set .batch copy count

/-- What a thread executes in its next step. -/
def code (s : Client.State) (v : Vars) : Client.Action → Prog Block Vars
  | .getU payload => callGetU payload v
  | .calculator =>
      match s.calculator with
      | .addFirst _ => addFirstBatchToSenderStock v
      | .addSecond _ => addSecondBatchToSenderStock v
      | .signalSender _ => freeBatches v
      | .getBatch => getBatchFromStock v
      | .cleanBatch _ => cleanBatchStock v
      | .signalListener _ => afterGetU v
      | _ => pure v
  | .sender =>
      match s.sender with
      | .fetchFirst => fetchFirst v
      | .fetchSecond _ => fetchSecond v
      | .sendFirst _ _ => sendFirst v
      | .sendSecond _ _ => sendSecond v
      | _ => pure v
  | .receive d => receivePack .bufin .pack d v
  | .listener =>
      match s.listener with
      | .store _ => storeBatch v
      | _ => pure v

/-- The client and its memory. -/
abbrev State := HeapMachine.WithHeap Client.State Vars Block

/-- No variable is set. -/
def unset : Vars := ⟨fun _ => none, fun _ => 0, ⟨[], [], []⟩⟩

/-- What the start leaves on a heap: the four blocks of `fill_sender_stock`, and the buffer. -/
def startHeap (start : Heap Block) : Heap Block :=
  ((((start.push (floatsBlock (List.replicate 6 0))).push
    (floatsBlock (List.replicate 7 0))).push (floatsBlock (List.replicate 6 0))).push
      (floatsBlock (List.replicate 7 0))).push (chars.array (written [] MAXBUF))

/-- The state in which the loops start, on the heap `start` of what was set up before. -/
def init (start : Heap Block) (bufin : Buf) : State where
  control := Client.init bufin
  vars := ((unset.set .firstStock (some (start.next + 2)) 6).set .secondStock
    (some (start.next + 3)) 7).set .bufin (some (start.next + 4)) 0
  heap := startHeap start

/-- It is what the start leaves. -/
theorem startUp_run (start : Heap Block) (bufin : Buf) :
    startUp unset start = some ((init start bufin).vars, (init start bufin).heap) := by
  have hfirst : FloatsAt ((start.push (floatsBlock (List.replicate 6 0))).push
      (floatsBlock (List.replicate 7 0))) (some start.next) (List.replicate 6 0) :=
    Heap.block_push (Heap.block_push_self ..)
  have hsecond : FloatsAt (((start.push (floatsBlock (List.replicate 6 0))).push
      (floatsBlock (List.replicate 7 0))).push (floatsBlock (List.replicate 6 0)))
      (some (start.next + 1)) (List.replicate 7 0) :=
    Heap.block_push (Heap.block_push_self (start.push _) _)
  have hfill : fillSenderStock unset start
      = some ((unset.set .firstStock (some (start.next + 2)) 6).set .secondStock
          (some (start.next + 3)) 7,
        (((start.push (floatsBlock (List.replicate 6 0))).push
          (floatsBlock (List.replicate 7 0))).push (floatsBlock (List.replicate 6 0))).push
            (floatsBlock (List.replicate 7 0))) := by
    rw [fillSenderStock]
    refine (bind_run malloc_run _).trans ?_
    refine (bind_run malloc_run _).trans ?_
    refine (bind_run (copyArrOfFloats_run hfirst (by simp)) _).trans ?_
    refine (bind_run (copyArrOfFloats_run hsecond (by simp)) _).trans ?_
    rfl
  exact (bind_run hfill _).trans rfl

/-- One step of the client and its memory. -/
def step : State → Client.Action → Option State := HeapMachine.step Client.step code

/-- What is received is a reply with enough floats. -/
def ReplyReceived (_s : Client.State) (a : Client.Action) : Prop :=
  ∀ d, a = .receive d → WellFormed d ∧ 4 ≤ (floatsOf d).length

/-! ## The memory against the control -/

/-- Who works with a variable: one of the threads, or two of them by turns. -/
inductive Owner where
  | listener
  | listenerStock
  | senderStock
  | calculator
  | sender

/-- The owner of a variable. -/
def Place.owner : Place → Owner
  | .bufin | .pack | .packPayload => .listener
  | .batch => .listenerStock
  | .firstStock | .secondStock => .senderStock
  | .payload | .firstBatch | .secondBatch | .listenerBatch | .u => .calculator
  | .firstFetched | .secondFetched | .firstPack | .firstPayload | .firstBytes | .secondPack
  | .secondPayload | .secondBytes => .sender

/-- What the listener points to. -/
def ListenerIn (v : Vars) (T : Table Place) : Client.ListenerPc → Prop
  | .waitCalculator pack | .store pack => PacketIn v T .pack .packPayload pack
  | _ => True

/-- What the calculator points to. -/
def CalculatorIn (v : Vars) (T : Table Place) : Client.CalculatorPc → Prop
  | .outside => True
  | .waitSender payload | .addFirst payload | .addSecond payload | .signalSender payload =>
      (∃ fs, CopyIn v T .payload fs) ∧ CopyIn v T .firstBatch (firstHalf payload)
        ∧ CopyIn v T .secondBatch (secondHalf payload)
  | .waitListener | .getBatch => ∃ fs, CopyIn v T .payload fs
  | .cleanBatch listenerBatch =>
      (∃ fs, CopyIn v T .payload fs) ∧ CopyIn v T .listenerBatch listenerBatch
  | .signalListener u => (∃ fs, CopyIn v T .payload fs) ∧ CopyIn v T .u u ∧ u.length = 4

/-- What the sender points to. -/
def SenderIn (v : Vars) (T : Table Place) : Client.SenderPc → Prop
  | .fetchSecond first => CopyIn v T .firstFetched first
  | .signalReady first second | .sendFirst first second =>
      CopyIn v T .firstFetched first ∧ CopyIn v T .secondFetched second
  | .sendSecond first second =>
      CopyIn v T .firstFetched first ∧ CopyIn v T .secondFetched second
        ∧ PacketIn v T .firstPack .firstPayload (genPacketFromFloats first)
        ∧ CharsIn v T .firstBytes (packToBytes (genPacketFromFloats first))
  | _ => True

/-- The variables point to what the control says. -/
structure Matches (s : Client.State) (v : Vars) (T : Table Place) : Prop where
  bufin : BufferIn v T .bufin
  batch : FloatsIn v T .batch s.listenerStock.batch.floats
  firstStock : CopyIn v T .firstStock s.senderStock.firstBatch.floats
  secondStock : CopyIn v T .secondStock s.senderStock.secondBatch.floats
  listener : ListenerIn v T s.listener
  calculator : CalculatorIn v T s.calculator
  sender : SenderIn v T s.sender

/-- How often the listener has stored a reply. -/
def stored (s : Client.State) : ℕ :=
  s.replied.length + match s.listener with
    | .signalReady _ => 1
    | _ => 0

/-- How often the calculator has cleaned the stock of the listener. -/
def cleaned (s : Client.State) : ℕ :=
  s.returned.length + match s.calculator with
    | .signalListener _ => 1
    | _ => 0

/-- How many halves the calculator has added to the stock of the sender. -/
def added (s : Client.State) : ℕ :=
  2 * s.requested.length + match s.calculator with
    | .addSecond _ => 1
    | .signalSender _ => 2
    | _ => 0

/-- The blocks of a call of `get_u`. -/
def callBlocks : Client.CalculatorPc → ℕ
  | .outside => 0
  | .waitSender _ | .addFirst _ | .addSecond _ | .signalSender _ => 3
  | .waitListener | .getBatch => 1
  | .cleanBatch _ | .signalListener _ => 2

/-- The blocks of a round of the sender. -/
def roundBlocks : Client.SenderPc → ℕ
  | .waitCalculator | .fetchFirst => 0
  | .fetchSecond _ => 1
  | .signalReady _ _ | .sendFirst _ _ => 2
  | .sendSecond _ _ => 5

/-- The blocks beyond those of `start`, and those that were released with the stock of the
listener: the buffer, the four of `fill_sender_stock`, three of each receive, two of each store,
one of each half that was added, and those of the call and the round in progress. -/
def blocks (s : Client.State) : ℕ :=
  5 + 3 * s.received.length + 2 * stored s + added s + callBlocks s.calculator
    + roundBlocks s.sender

/-- The memory is as the control says, by a table of the blocks that the variables point to. -/
structure Fits (start : Heap Block) (s : Client.State) (v : Vars) (h : Heap Block)
    (T : Table Place) : Prop where
  holds : Holds h ∅ T
  fits : Matches s v T
  count : h.count + cleaned s = start.count + blocks s

/-- The first halves that were sent. -/
def sentFirst (s : Client.State) : List (List CFloat) :=
  s.emitted.map Prod.fst ++ match s.sender with
    | .sendSecond first _ => [first]
    | _ => []

/-- What the client has put out. -/
def output (s : Client.State) : Output where
  sentFirst := (sentFirst s).map datagramOf
  sentSecond := (s.emitted.map Prod.snd).map datagramOf
  returned := s.returned

/-- The memory is as the control says, and what was put out are the bytes of the halves and the
results. -/
def Represents (start : Heap Block) (m : State) : Prop :=
  (∃ T, Fits start m.control m.vars m.heap T) ∧ m.vars.out = output m.control

/-! ## What the steps do to the memory -/

section Frames

variable {v v' : Vars} {T T' : Table Place}

theorem ListenerIn.same {pc : Client.ListenerPc} (h : ListenerIn v T pc)
    (hsame : ∀ k, k.owner = .listener → Same v v' T T' k) : ListenerIn v' T' pc := by
  unfold ListenerIn at h ⊢
  cases pc with
  | waitCalculator pack => exact h.same (hsame _ rfl) (hsame _ rfl)
  | store pack => exact h.same (hsame _ rfl) (hsame _ rfl)
  | _ => trivial

theorem CalculatorIn.same {pc : Client.CalculatorPc} (h : CalculatorIn v T pc)
    (hsame : ∀ k, k.owner = .calculator → Same v v' T T' k) : CalculatorIn v' T' pc := by
  have hpayload : (∃ fs, CopyIn v T .payload fs) → ∃ fs, CopyIn v' T' .payload fs := by
    rintro ⟨fs, hfs⟩
    exact ⟨fs, hfs.same (hsame _ rfl)⟩
  have hcall {payload : Payload} (hpc : (∃ fs, CopyIn v T .payload fs)
      ∧ CopyIn v T .firstBatch (firstHalf payload) ∧ CopyIn v T .secondBatch (secondHalf payload)) :
      (∃ fs, CopyIn v' T' .payload fs) ∧ CopyIn v' T' .firstBatch (firstHalf payload)
        ∧ CopyIn v' T' .secondBatch (secondHalf payload) :=
    ⟨hpayload hpc.1, hpc.2.1.same (hsame _ rfl), hpc.2.2.same (hsame _ rfl)⟩
  unfold CalculatorIn at h ⊢
  cases pc with
  | outside => trivial
  | waitSender payload => exact hcall h
  | addFirst payload => exact hcall h
  | addSecond payload => exact hcall h
  | signalSender payload => exact hcall h
  | waitListener => exact hpayload h
  | getBatch => exact hpayload h
  | cleanBatch listenerBatch => exact ⟨hpayload h.1, h.2.same (hsame _ rfl)⟩
  | signalListener u => exact ⟨hpayload h.1, h.2.1.same (hsame _ rfl), h.2.2⟩

theorem SenderIn.same {pc : Client.SenderPc} (h : SenderIn v T pc)
    (hsame : ∀ k, k.owner = .sender → Same v v' T T' k) : SenderIn v' T' pc := by
  unfold SenderIn at h ⊢
  cases pc with
  | fetchSecond first => exact h.same (hsame _ rfl)
  | signalReady first second => exact ⟨h.1.same (hsame _ rfl), h.2.same (hsame _ rfl)⟩
  | sendFirst first second => exact ⟨h.1.same (hsame _ rfl), h.2.same (hsame _ rfl)⟩
  | sendSecond first second =>
      exact ⟨h.1.same (hsame _ rfl), h.2.1.same (hsame _ rfl),
        h.2.2.1.same (hsame _ rfl) (hsame _ rfl), h.2.2.2.same (hsame _ rfl)⟩
  | _ => trivial

end Frames

section Steps

variable {h : Heap Block} {v : Vars} {T : Table Place}

/-- **The call** allocates the payload and its halves. -/
theorem callGetU_run (payload : Payload) (v : Vars) (h : Heap Block) :
    callGetU payload v h
      = some (((v.set .payload (some h.next) payload.toList.length).set .firstBatch
          (some (h.next + 1)) (firstHalf payload).length).set .secondBatch (some (h.next + 2))
            (secondHalf payload).length,
        ((h.push (floatsBlock payload.toList)).push (floatsBlock (firstHalf payload))).push
          (floatsBlock (secondHalf payload))) := by
  have hlen : payload.toList.length = 13 := payload.toList_length
  have hfirst : ((payload.toList.map some).drop 0).take 6 = (firstHalf payload).map some := by
    rw [List.drop_zero, firstHalf, List.map_take]
  have hsecond : ((payload.toList.map some).drop 6).take 7 = (secondHalf payload).map some := by
    rw [secondHalf, List.map_take, List.map_drop]
  have hfirstCopy := floats.memcpy_fresh
    (h := ((h.push (floatsBlock payload.toList)).push (floats.array (written [] 6))).push
      (floats.array (written [] 7)))
    (Heap.block_push (Heap.block_push_self (h.push _) _))
    (Heap.block_push (Heap.block_push (Heap.block_push_self h _))) hfirst
    (Client.length_firstHalf payload)
  have hsecondCopy := floats.memcpy_fresh
    (h := ((h.push (floatsBlock payload.toList)).push (floatsBlock (firstHalf payload))).push
      (floats.array (written [] 7)))
    (Heap.block_push_self ((h.push _).push _) _)
    (Heap.block_push (Heap.block_push (Heap.block_push_self h _))) hsecond
    (Client.length_secondHalf payload)
  rw [Heap.put_push_of_ne (by simp), Heap.put_push] at hfirstCopy
  rw [Heap.put_push] at hsecondCopy
  rw [callGetU]
  refine (bind_run floats.malloc_run _).trans ?_
  refine (bind_run (fillFloats_run hlen) _).trans ?_
  refine (bind_run floats.malloc_run _).trans ?_
  refine (bind_run floats.malloc_run _).trans ?_
  refine (bind_run hfirstCopy _).trans ?_
  refine (bind_run hsecondCopy _).trans ?_
  rw [hlen, Client.length_firstHalf, Client.length_secondHalf]
  rfl

/-- **The halves** are released. -/
theorem freeBatches_run (H : Holds h ∅ T) {fs gs : List CFloat} (hfirst : CopyIn v T .firstBatch fs)
    (hsecond : CopyIn v T .secondBatch gs) :
    ∃ h' T', freeBatches v h = some (v, h') ∧ Holds h' ∅ T' ∧ h'.count + 2 = h.count
      ∧ ∀ k, k ≠ .firstBatch → k ≠ .secondBatch → Same v v T T' k := by
  obtain ⟨h₁, hfree₁, H₁, hcount₁⟩ := hfirst.free_run H (Set.notMem_empty _)
  have hsecond₁ : CopyIn v (Function.update T .firstBatch none) .secondBatch gs :=
    hsecond.same ⟨rfl, rfl, by simp⟩
  obtain ⟨h₂, hfree₂, H₂, hcount₂⟩ := hsecond₁.free_run H₁ (Set.notMem_empty _)
  refine ⟨h₂, _, ?_, H₂, by omega, fun k hk hk' => ⟨rfl, rfl, ?_⟩⟩
  · rw [freeBatches]
    refine (bind_run hfree₁ _).trans ?_
    refine (bind_run hfree₂ _).trans ?_
    rfl
  · rw [Function.update_of_ne hk', Function.update_of_ne hk]

/-- **The stock is cleaned** and the result copied. -/
theorem cleanBatchStock_run (H : Holds h ∅ T) {fs listenerBatch : List CFloat}
    (hbatch : CopyIn v T .batch fs) (hlistener : CopyIn v T .listenerBatch listenerBatch)
    (hlen : 4 ≤ listenerBatch.length) :
    ∃ v' h' T', cleanBatchStock v h = some (v', h') ∧ v'.out = v.out ∧ Holds h' ∅ T'
      ∧ h'.count + 1 = h.count ∧ FloatsIn v' T' .batch []
      ∧ CopyIn v' T' .u (listenerBatch.take 4)
      ∧ ∀ k, k ≠ .batch → k ≠ .listenerBatch → k ≠ .u → Same v v' T T' k := by
  obtain ⟨h₁, hfree₁, H₁, hcount₁⟩ := hbatch.free_run H (Set.notMem_empty _)
  have hlistener₁ : CopyIn (v.set .batch none 0) (Function.update T .batch none) .listenerBatch
      listenerBatch := hlistener.same (Same.set (by simp) ..)
  have htake : (listenerBatch.take 4).length = 4 := List.length_take_of_le hlen
  have H₂ := H₁.push .u (floatsBlock (listenerBatch.take 4))
  have hlistener₂ : CopyIn (v.set .batch none 0) (Function.update (Function.update T .batch none) .u
      (some (h₁.next, floatsBlock (listenerBatch.take 4)))) .listenerBatch listenerBatch :=
    hlistener₁.same ⟨rfl, rfl, Function.update_of_ne (by simp) ..⟩
  obtain ⟨h₂, hfree₂, H₃, hcount₂⟩ := hlistener₂.free_run H₂ (Set.notMem_empty _)
  refine ⟨((v.set .batch none 0).set .listenerBatch none 0).set .u (some h₁.next) 4, h₂, _, ?_, rfl,
    H₃, ?_, ?_, ?_, ?_⟩
  · obtain ⟨-, p, hptr, hT⟩ := hlistener₁
    have hfour : ((listenerBatch.map some).drop 0).take 4 = (listenerBatch.take 4).map some := by
      rw [List.drop_zero, List.map_take]
    have hcopy := floats.memcpy_fresh (h := h₁.push (floats.array (written [] 4)))
      (Heap.block_push_self h₁ _) (Heap.block_push (H₁.found _ _ _ hT)) hfour htake
    rw [← hptr, Heap.put_push] at hcopy
    rw [cleanBatchStock]
    refine (bind_run hfree₁ _).trans ?_
    refine (bind_run floats.malloc_run _).trans ?_
    refine (bind_run hcopy _).trans ?_
    refine (bind_run hfree₂ _).trans ?_
    rfl
  · simp only [Heap.count_push] at hcount₂
    omega
  · exact ⟨by simp [OnHeap.Vars.set], by simp [OnHeap.Vars.set]⟩
  · refine ⟨by simp [OnHeap.Vars.set, htake], h₁.next, by simp [OnHeap.Vars.set], by simp⟩
  · intro k hk hk' hk''
    simp [Same, OnHeap.Vars.set, Function.update_of_ne hk, Function.update_of_ne hk',
      Function.update_of_ne hk'']

/-- **The end of a call**: the result is read, and it and the payload are released. -/
theorem afterGetU_run (H : Holds h ∅ T) {fs u : List CFloat} (hpayload : CopyIn v T .payload fs)
    (hu : CopyIn v T .u u) (hlen : u.length = 4) :
    ∃ h' T', afterGetU v h
        = some ({ v with out := { v.out with returned := v.out.returned ++ [u] } }, h')
      ∧ Holds h' ∅ T' ∧ h'.count + 2 = h.count ∧ ∀ k, k.owner ≠ .calculator → T' k = T k := by
  obtain ⟨h₁, hfree₁, H₁, hcount₁⟩ := hpayload.free_run H (Set.notMem_empty _)
  have hu₁ : CopyIn v (Function.update T .payload none) .u u := hu.same ⟨rfl, rfl, by simp⟩
  obtain ⟨h₂, hfree₂, H₂, hcount₂⟩ := hu₁.free_run H₁ (Set.notMem_empty _)
  refine ⟨h₂, _, ?_, H₂, by omega, fun k hk => ?_⟩
  · obtain ⟨-, p, hptr, hT⟩ := hu₁
    have hload := loadAll_run (H₁.found _ _ _ hT) hlen
    rw [← hptr] at hload
    rw [afterGetU]
    refine (bind_run hfree₁ _).trans ?_
    refine (bind_run hload _).trans ?_
    refine (bind_run hfree₂ _).trans ?_
    rfl
  · rw [Function.update_of_ne (by rintro rfl; exact hk rfl),
      Function.update_of_ne (by rintro rfl; exact hk rfl)]

/-- **The end of a round**: both packets, their bytes and what was fetched are released. -/
theorem freeSent_run (H : Holds h ∅ T) {fs gs : List CFloat} {p q : Packet} {cs ds : List CChar}
    (hfirst : CopyIn v T .firstFetched fs) (hsecond : CopyIn v T .secondFetched gs)
    (hpack : PacketIn v T .firstPack .firstPayload p)
    (hpack' : PacketIn v T .secondPack .secondPayload q) (hbytes : CharsIn v T .firstBytes cs)
    (hbytes' : CharsIn v T .secondBytes ds) :
    ∃ h' T', freeSent v h = some ((), h') ∧ Holds h' ∅ T' ∧ h'.count + 8 = h.count
      ∧ ∀ k, k.owner ≠ .sender → T' k = T k := by
  have hno {k : Place} : k ∉ (∅ : Set Place) := Set.notMem_empty _
  obtain ⟨h₁, hfree₁, H₁, hcount₁⟩ := hpack.free_run H (by simp) hno hno
  obtain ⟨h₂, hfree₂, H₂, hcount₂⟩ := PacketIn.free_run
    (hpack'.same ⟨rfl, rfl, by simp⟩ ⟨rfl, rfl, by simp⟩) H₁ (by simp) hno hno
  obtain ⟨h₃, hfree₃, H₃, hcount₃⟩ := CharsIn.free_run (hbytes.same ⟨rfl, rfl, by simp⟩) H₂ hno
  obtain ⟨h₄, hfree₄, H₄, hcount₄⟩ := CharsIn.free_run (hbytes'.same ⟨rfl, rfl, by simp⟩) H₃ hno
  obtain ⟨h₅, hfree₅, H₅, hcount₅⟩ := CopyIn.free_run (hfirst.same ⟨rfl, rfl, by simp⟩) H₄ hno
  obtain ⟨h₆, hfree₆, H₆, hcount₆⟩ := CopyIn.free_run (hsecond.same ⟨rfl, rfl, by simp⟩) H₅ hno
  refine ⟨h₆, _, ?_, H₆, by omega, fun k hk => ?_⟩
  · rw [freeSent]
    refine (bind_run hfree₁ _).trans ?_
    refine (bind_run hfree₂ _).trans ?_
    refine (bind_run hfree₃ _).trans ?_
    refine (bind_run hfree₄ _).trans ?_
    refine (bind_run hfree₅ _).trans ?_
    exact hfree₆
  · have hne {j : Place} (hj : j.owner = .sender) : k ≠ j := by
      rintro rfl
      exact hk hj
    rw [Function.update_of_ne (hne rfl), Function.update_of_ne (hne rfl),
      Function.update_of_ne (hne rfl), Function.update_of_ne (hne rfl),
      Function.update_of_ne (hne rfl), Function.update_of_ne (hne rfl),
      Function.update_of_ne (hne rfl), Function.update_of_ne (hne rfl)]

/-- **A reply is stored.** -/
theorem storeBatch_run (H : Holds h ∅ T) {pack : Packet} {copy : SizedBuf}
    (hpack : PacketIn v T .pack .packPayload pack) (hcopy : copyOfPacket pack = some copy) :
    ∃ r h', storeBatch v h = some (v.set .batch (some r) copy.floats.length, h')
      ∧ Holds h' ∅ (Function.update T .batch (some (r, floatsBlock copy.floats)))
      ∧ h'.count = h.count + 2 := by
  obtain ⟨p, q, hptr, hat⟩ := hpack.packetAt H
  obtain ⟨hcount, hfloats⟩ := floats_of_copyArrOfFloats hcopy
  have hlen : copy.floats.length = getFloatsCount pack := by
    rw [hfloats, List.length_take, Nat.min_eq_left hcount]
  have H' := ((H.push_lost (floatsBlock (getFloats pack))).skip (pack.length.toNat / 4)).push .batch
    (floatsBlock copy.floats)
  have hpayload : FloatsAt ((h.push (floatsBlock (getFloats pack))).skip (pack.length.toNat / 4))
      (some h.next) (getFloats pack) := Heap.block_push_self h _
  refine ⟨_, _, ?_, H', by simp⟩
  rw [storeBatch, hptr]
  refine (bind_run (getFloats_run hat) _).trans ?_
  refine (bind_run (getFloatsCount_run ((hat.push _).skip _)) _).trans ?_
  refine (bind_run (copyArrOfFloats_run hpayload hcount) _).trans ?_
  rw [← hfloats, hlen]
  rfl

end Steps

/-! ## Every step keeps the memory as the control says -/

section Keeps

variable {s s' : Client.State} {v v' : Vars} {start h h' : Heap Block} {T T' : Table Place}
  {a : Client.Action}

/-- The step of a thread that does not touch the memory. -/
theorem Fits.idle (F : Fits start s v h T) (hstock : s'.listenerStock = s.listenerStock)
    (hstock' : s'.senderStock = s.senderStock) (hcleaned : cleaned s' = cleaned s)
    (hblocks : blocks s' = blocks s)
    (hlistener : ListenerIn v T s.listener → ListenerIn v T s'.listener)
    (hcalculator : CalculatorIn v T s.calculator → CalculatorIn v T s'.calculator)
    (hsender : SenderIn v T s.sender → SenderIn v T s'.sender) : Fits start s' v h T := by
  obtain ⟨H, M, hcount⟩ := F
  refine ⟨H, ⟨M.bufin, ?_, ?_, ?_, hlistener M.listener, hcalculator M.calculator,
    hsender M.sender⟩, ?_⟩
  · rw [hstock]
    exact M.batch
  · rw [hstock']
    exact M.firstStock
  · rw [hstock']
    exact M.secondStock
  · rw [hcleaned, hblocks]
    exact hcount

theorem Fits.receive (F : Fits start s v h T) {d : Datagram} {pack : Packet} (b : Buf)
    (hpc : s.listener = .receive) (hd : WellFormed d) (hpack : bytesToPack d.get = .ok pack) :
    ∃ v' h' T', receivePack .bufin .pack d v h = some (v', h') ∧ v'.out = v.out ∧ Fits start { s with
      bufin := b, listener := .waitCalculator pack, received := s.received ++ [d] } v' h' T' := by
  obtain ⟨H, M, hcount⟩ := F
  obtain ⟨v', h', T', hrun, hout, H', hcount', hbufin, hpackIn, hrest⟩ :=
    receivePack_run H M.bufin (Set.notMem_empty _) (show Place.pack ≠ .bufin by simp)
      (show Place.packPayload ≠ .bufin by simp) (by simp) hd hpack
  have hsame (k : Place) (hk : k.owner ≠ .listener) : Same v v' T T' k :=
    hrest k (by rintro rfl; exact hk rfl) (by rintro rfl; exact hk rfl) (by rintro rfl; exact hk rfl)
  refine ⟨v', h', T', hrun, hout, H', ⟨hbufin, M.batch.same (hsame _ (by simp [Place.owner])),
    M.firstStock.same (hsame _ (by simp [Place.owner])),
    M.secondStock.same (hsame _ (by simp [Place.owner])), hpackIn,
    M.calculator.same fun k hk => hsame k (by simp [hk]),
    M.sender.same fun k hk => hsame k (by simp [hk])⟩, ?_⟩
  simp [blocks, stored, cleaned, added, hpc] at hcount ⊢
  omega

theorem Fits.storeBatch (F : Fits start s v h T) {pack : Packet} {copy : SizedBuf}
    (hpc : s.listener = .store pack) (hcopy : copyOfPacket pack = some copy) :
    ∃ v' h' T', storeBatch v h = some (v', h') ∧ v'.out = v.out ∧ Fits start { s with
      listenerStock := ⟨copy⟩, listener := .signalReady pack } v' h' T' := by
  obtain ⟨H, M, hcount⟩ := F
  have hpack : PacketIn v T .pack .packPayload pack := by
    have hlistener := M.listener
    rwa [hpc] at hlistener
  obtain ⟨r, h', hrun, H', hcount'⟩ := storeBatch_run H hpack hcopy
  have hsame (k : Place) (hk : k ≠ .batch) := Same.set (v := v) (T := T) hk (some r)
    copy.floats.length (some (r, floatsBlock copy.floats))
  refine ⟨_, h', _, hrun, rfl, H', ⟨M.bufin.same (hsame _ (by simp)), (copyIn_set ..).floatsIn,
    M.firstStock.same (hsame _ (by simp)), M.secondStock.same (hsame _ (by simp)), trivial,
    M.calculator.same fun k hk => hsame k (by rintro rfl; cases hk),
    M.sender.same fun k hk => hsame k (by rintro rfl; cases hk)⟩, ?_⟩
  simp [blocks, stored, cleaned, added, hpc] at hcount ⊢
  omega

theorem Fits.callGetU (F : Fits start s v h T) (payload : Payload) (hpc : s.calculator = .outside) :
    ∃ v' h' T', callGetU payload v h = some (v', h') ∧ v'.out = v.out
      ∧ Fits start { s with calculator := .waitSender payload } v' h' T' := by
  obtain ⟨H, M, hcount⟩ := F
  have H' := ((H.push .payload (floatsBlock payload.toList)).push .firstBatch
    (floatsBlock (firstHalf payload))).push .secondBatch (floatsBlock (secondHalf payload))
  have hsame (k : Place) (hk : k.owner ≠ .calculator) :=
    ((Same.set (v := v) (T := T) (show k ≠ .payload by rintro rfl; exact hk rfl) (some h.next)
      payload.toList.length (some (h.next, floatsBlock payload.toList))).trans
    (Same.set (show k ≠ .firstBatch by rintro rfl; exact hk rfl) (some (h.next + 1))
      (firstHalf payload).length (some (h.next + 1, floatsBlock (firstHalf payload))))).trans
    (Same.set (show k ≠ .secondBatch by rintro rfl; exact hk rfl) (some (h.next + 2))
      (secondHalf payload).length (some (h.next + 2, floatsBlock (secondHalf payload))))
  refine ⟨_, _, _, callGetU_run payload v h, rfl, H',
    ⟨M.bufin.same (hsame _ (by simp [Place.owner])), M.batch.same (hsame _ (by simp [Place.owner])),
      M.firstStock.same (hsame _ (by simp [Place.owner])),
      M.secondStock.same (hsame _ (by simp [Place.owner])),
      M.listener.same fun k hk => hsame k (by simp [hk]), ⟨⟨payload.toList, ?_⟩, ?_, copyIn_set ..⟩,
      M.sender.same fun k hk => hsame k (by simp [hk])⟩, ?_⟩
  · exact ((copyIn_set v T .payload h.next payload.toList).same (Same.set (by simp) ..)).same
      (Same.set (by simp) ..)
  · exact (copyIn_set _ _ Place.firstBatch (h.next + 1) (firstHalf payload)).same (Same.set (by simp) ..)
  · simp [blocks, stored, cleaned, added, callBlocks, hpc] at hcount ⊢
    omega

theorem Fits.addFirst (F : Fits start s v h T) {payload : Payload} {copy : SizedBuf}
    (hpc : s.calculator = .addFirst payload) (hcopy : copy.floats = firstHalf payload) :
    ∃ v' h' T', addFirstBatchToSenderStock v h = some (v', h') ∧ v'.out = v.out ∧ Fits start { s with
      senderStock := ⟨copy, s.senderStock.secondBatch⟩
      calculator := .addSecond payload } v' h' T' := by
  obtain ⟨H, M, hcount⟩ := F
  have hcall : CalculatorIn v T (.addSecond payload) := by
    have hcalculator := M.calculator
    rwa [hpc] at hcalculator
  have hrun : addFirstBatchToSenderStock v h
      = some (v.set .firstStock (some h.next) (firstHalf payload).length,
        h.push (floatsBlock (firstHalf payload))) :=
    copyInto_run hcall.2.1.floatsIn H (Client.length_firstHalf payload).symm
  rw [← hcopy] at hrun
  have hsame (k : Place) (hk : k ≠ .firstStock) := Same.set (v := v) (T := T) hk (some h.next)
    copy.floats.length (some (h.next, floatsBlock copy.floats))
  refine ⟨_, _, _, hrun, rfl, H.push .firstStock _, ⟨M.bufin.same (hsame _ (by simp)),
    M.batch.same (hsame _ (by simp)), copyIn_set .., M.secondStock.same (hsame _ (by simp)),
    M.listener.same fun k hk => hsame k (by rintro rfl; cases hk),
    hcall.same fun k hk => hsame k (by rintro rfl; cases hk),
    M.sender.same fun k hk => hsame k (by rintro rfl; cases hk)⟩, ?_⟩
  simp [blocks, stored, cleaned, added, callBlocks, hpc] at hcount ⊢
  omega

theorem Fits.addSecond (F : Fits start s v h T) {payload : Payload} {copy : SizedBuf}
    (hpc : s.calculator = .addSecond payload) (hcopy : copy.floats = secondHalf payload) :
    ∃ v' h' T', addSecondBatchToSenderStock v h = some (v', h') ∧ v'.out = v.out ∧ Fits start { s with
      senderStock := ⟨s.senderStock.firstBatch, copy⟩
      calculator := .signalSender payload } v' h' T' := by
  obtain ⟨H, M, hcount⟩ := F
  have hcall : CalculatorIn v T (.signalSender payload) := by
    have hcalculator := M.calculator
    rwa [hpc] at hcalculator
  have hrun : addSecondBatchToSenderStock v h
      = some (v.set .secondStock (some h.next) (secondHalf payload).length,
        h.push (floatsBlock (secondHalf payload))) :=
    copyInto_run hcall.2.2.floatsIn H (Client.length_secondHalf payload).symm
  rw [← hcopy] at hrun
  have hsame (k : Place) (hk : k ≠ .secondStock) := Same.set (v := v) (T := T) hk (some h.next)
    copy.floats.length (some (h.next, floatsBlock copy.floats))
  refine ⟨_, _, _, hrun, rfl, H.push .secondStock _, ⟨M.bufin.same (hsame _ (by simp)),
    M.batch.same (hsame _ (by simp)), M.firstStock.same (hsame _ (by simp)), copyIn_set ..,
    M.listener.same fun k hk => hsame k (by rintro rfl; cases hk),
    hcall.same fun k hk => hsame k (by rintro rfl; cases hk),
    M.sender.same fun k hk => hsame k (by rintro rfl; cases hk)⟩, ?_⟩
  simp [blocks, stored, cleaned, added, callBlocks, hpc] at hcount ⊢
  omega

theorem Fits.signalSender (F : Fits start s v h T) {payload : Payload}
    (hpc : s.calculator = .signalSender payload) (b : Bool) :
    ∃ v' h' T', freeBatches v h = some (v', h') ∧ v'.out = v.out ∧ Fits start { s with
      senderToSignal := b
      calculator := .waitListener
      requested := s.requested ++ [payload] } v' h' T' := by
  obtain ⟨H, M, hcount⟩ := F
  obtain ⟨⟨fs, hpayload⟩, hfirst, hsecond⟩ : CalculatorIn v T (.signalSender payload) := by
    have hcalculator := M.calculator
    rwa [hpc] at hcalculator
  obtain ⟨h', T', hrun, H', hcount', hsame⟩ := freeBatches_run H hfirst hsecond
  refine ⟨v, h', T', hrun, rfl, H', ⟨M.bufin.same (hsame _ (by simp) (by simp)),
    M.batch.same (hsame _ (by simp) (by simp)), M.firstStock.same (hsame _ (by simp) (by simp)),
    M.secondStock.same (hsame _ (by simp) (by simp)),
    M.listener.same fun k hk => hsame k (by rintro rfl; cases hk) (by rintro rfl; cases hk),
    ⟨fs, hpayload.same (hsame _ (by simp) (by simp))⟩,
    M.sender.same fun k hk => hsame k (by rintro rfl; cases hk) (by rintro rfl; cases hk)⟩, ?_⟩
  simp [blocks, stored, cleaned, added, callBlocks, hpc] at hcount ⊢
  omega

theorem Fits.getBatch (F : Fits start s v h T) (hpc : s.calculator = .getBatch) :
    ∃ v' h' T', getBatchFromStock v h = some (v', h') ∧ v'.out = v.out ∧ Fits start { s with
      calculator := .cleanBatch s.listenerStock.batch.floats
      read := s.read ++ [s.listenerStock.batch.floats] } v' h' T' := by
  obtain ⟨H, M, hcount⟩ := F
  obtain ⟨fs, hpayload⟩ : CalculatorIn v T .getBatch := by
    have hcalculator := M.calculator
    rwa [hpc] at hcalculator
  have hsame (k : Place) (hk : k ≠ .listenerBatch) := Same.set (v := v) (T := T) hk (some h.next)
    s.listenerStock.batch.floats.length (some (h.next, floatsBlock s.listenerStock.batch.floats))
  refine ⟨_, _, _, copyInto_run M.batch H M.batch.1, rfl, H.push .listenerBatch _,
    ⟨M.bufin.same (hsame _ (by simp)), M.batch.same (hsame _ (by simp)),
      M.firstStock.same (hsame _ (by simp)), M.secondStock.same (hsame _ (by simp)),
      M.listener.same fun k hk => hsame k (by rintro rfl; cases hk),
      ⟨⟨fs, hpayload.same (hsame _ (by simp))⟩, copyIn_set ..⟩,
      M.sender.same fun k hk => hsame k (by rintro rfl; cases hk)⟩, ?_⟩
  simp [blocks, stored, cleaned, added, callBlocks, hpc] at hcount ⊢
  omega

theorem Fits.cleanBatch (F : Fits start s v h T) {listenerBatch : List CFloat}
    (hpc : s.calculator = .cleanBatch listenerBatch) (hlen : 4 ≤ listenerBatch.length)
    (hstock : s.listenerStock.batch.floats = listenerBatch) :
    ∃ v' h' T', cleanBatchStock v h = some (v', h') ∧ v'.out = v.out ∧ Fits start { s with
      listenerStock := ⟨SizedBuf.null⟩
      calculator := .signalListener (listenerBatch.take 4) } v' h' T' := by
  obtain ⟨H, M, hcount⟩ := F
  obtain ⟨⟨fs, hpayload⟩, hlistener⟩ : CalculatorIn v T (.cleanBatch listenerBatch) := by
    have hcalculator := M.calculator
    rwa [hpc] at hcalculator
  have hbatch : CopyIn v T .batch listenerBatch := by
    rw [← hstock]
    refine M.batch.copyIn ?_
    rintro hnil
    rw [hnil] at hstock
    rw [← hstock] at hlen
    cases hlen
  obtain ⟨v', h', T', hrun, hout, H', hcount', hbatch', hu, hsame⟩ :=
    cleanBatchStock_run H hbatch hlistener hlen
  refine ⟨v', h', T', hrun, hout, H', ⟨M.bufin.same (hsame _ (by simp) (by simp) (by simp)), hbatch',
    M.firstStock.same (hsame _ (by simp) (by simp) (by simp)),
    M.secondStock.same (hsame _ (by simp) (by simp) (by simp)),
    M.listener.same fun k hk =>
      hsame k (by rintro rfl; cases hk) (by rintro rfl; cases hk) (by rintro rfl; cases hk),
    ⟨⟨fs, hpayload.same (hsame _ (by simp) (by simp) (by simp))⟩, hu, List.length_take_of_le hlen⟩,
    M.sender.same fun k hk =>
      hsame k (by rintro rfl; cases hk) (by rintro rfl; cases hk) (by rintro rfl; cases hk)⟩, ?_⟩
  simp [blocks, stored, cleaned, added, callBlocks, hpc] at hcount ⊢
  omega

theorem Fits.signalListener (F : Fits start s v h T) {u : List CFloat}
    (hpc : s.calculator = .signalListener u) (b : Bool) :
    ∃ v' h' T', afterGetU v h = some (v', h')
      ∧ v'.out = { v.out with returned := v.out.returned ++ [u] } ∧ Fits start { s with
        listenerToSignal := b
        calculator := .outside
        returned := s.returned ++ [u] } v' h' T' := by
  obtain ⟨H, M, hcount⟩ := F
  obtain ⟨⟨fs, hpayload⟩, hu, hlen⟩ : CalculatorIn v T (.signalListener u) := by
    have hcalculator := M.calculator
    rwa [hpc] at hcalculator
  obtain ⟨h', T', hrun, H', hcount', hT'⟩ := afterGetU_run H hpayload hu hlen
  have hsame (k : Place) (hk : k.owner ≠ .calculator) :
      Same v { v with out := { v.out with returned := v.out.returned ++ [u] } } T T' k :=
    ⟨rfl, rfl, hT' k hk⟩
  refine ⟨_, h', T', hrun, rfl, H', ⟨M.bufin.same (hsame _ (by simp [Place.owner])),
    M.batch.same (hsame _ (by simp [Place.owner])), M.firstStock.same (hsame _ (by simp [Place.owner])),
    M.secondStock.same (hsame _ (by simp [Place.owner])),
    M.listener.same fun k hk => hsame k (by simp [hk]), trivial,
    M.sender.same fun k hk => hsame k (by simp [hk])⟩, ?_⟩
  simp [blocks, stored, cleaned, added, callBlocks, hpc] at hcount ⊢
  omega

theorem Fits.fetchFirst (F : Fits start s v h T) (hpc : s.sender = .fetchFirst) :
    ∃ v' h' T', fetchFirst v h = some (v', h') ∧ v'.out = v.out
      ∧ Fits start { s with sender := .fetchSecond s.senderStock.firstBatch.floats } v' h' T' := by
  obtain ⟨H, M, hcount⟩ := F
  have hsame (k : Place) (hk : k ≠ .firstFetched) := Same.set (v := v) (T := T) hk (some h.next)
    s.senderStock.firstBatch.floats.length (some (h.next, floatsBlock s.senderStock.firstBatch.floats))
  refine ⟨_, _, _, copyInto_run M.firstStock.floatsIn H M.firstStock.1, rfl,
    H.push .firstFetched _, ⟨M.bufin.same (hsame _ (by simp)), M.batch.same (hsame _ (by simp)),
      M.firstStock.same (hsame _ (by simp)), M.secondStock.same (hsame _ (by simp)),
      M.listener.same fun k hk => hsame k (by rintro rfl; cases hk),
      M.calculator.same fun k hk => hsame k (by rintro rfl; cases hk), copyIn_set ..⟩, ?_⟩
  simp [blocks, stored, cleaned, added, roundBlocks, hpc] at hcount ⊢
  omega

theorem Fits.fetchSecond (F : Fits start s v h T) {first : List CFloat} (hpc : s.sender = .fetchSecond first) :
    ∃ v' h' T', fetchSecond v h = some (v', h') ∧ v'.out = v.out
      ∧ Fits start { s with sender := .signalReady first s.senderStock.secondBatch.floats } v' h' T' := by
  obtain ⟨H, M, hcount⟩ := F
  have hfirst : CopyIn v T .firstFetched first := by
    have hsender := M.sender
    rwa [hpc] at hsender
  have hsame (k : Place) (hk : k ≠ .secondFetched) := Same.set (v := v) (T := T) hk (some h.next)
    s.senderStock.secondBatch.floats.length
    (some (h.next, floatsBlock s.senderStock.secondBatch.floats))
  refine ⟨_, _, _, copyInto_run M.secondStock.floatsIn H M.secondStock.1, rfl,
    H.push .secondFetched _, ⟨M.bufin.same (hsame _ (by simp)), M.batch.same (hsame _ (by simp)),
      M.firstStock.same (hsame _ (by simp)), M.secondStock.same (hsame _ (by simp)),
      M.listener.same fun k hk => hsame k (by rintro rfl; cases hk),
      M.calculator.same fun k hk => hsame k (by rintro rfl; cases hk),
      ⟨hfirst.same (hsame _ (by simp)), copyIn_set ..⟩⟩, ?_⟩
  simp [blocks, stored, cleaned, added, roundBlocks, hpc] at hcount ⊢
  omega

theorem Fits.sendFirst (F : Fits start s v h T) {first second : List CFloat}
    (hpc : s.sender = .sendFirst first second) :
    ∃ v' h' T', sendFirst v h = some (v', h')
      ∧ v'.out = { v.out with sentFirst := v.out.sentFirst ++ [datagramOf first] }
      ∧ Fits start { s with sender := .sendSecond first second } v' h' T' := by
  obtain ⟨H, M, hcount⟩ := F
  obtain ⟨hfirst, hsecond⟩ : SenderIn v T (.sendFirst first second) := by
    have hsender := M.sender
    rwa [hpc] at hsender
  obtain ⟨v', h', T', hrun, hout, H', hcount', hpack, hbytes, hsame⟩ := sendFloats_run hfirst.floatsIn
    H (show Place.firstPack ≠ .firstPayload by simp) (show Place.firstPack ≠ .firstBytes by simp)
    (by simp)
  have hother (k : Place) (hk : k.owner ≠ .sender) : Same v v' T T' k :=
    hsame k (by rintro rfl; exact hk rfl) (by rintro rfl; exact hk rfl) (by rintro rfl; exact hk rfl)
  refine ⟨{ v' with out := { v'.out with sentFirst := v'.out.sentFirst ++ [datagramOf first] } }, h',
    T', ?_, by rw [hout], H', ⟨M.bufin.same (hother _ (by simp [Place.owner])),
      M.batch.same (hother _ (by simp [Place.owner])),
      M.firstStock.same (hother _ (by simp [Place.owner])),
      M.secondStock.same (hother _ (by simp [Place.owner])),
      M.listener.same fun k hk => hother k (by simp [hk]),
      M.calculator.same fun k hk => hother k (by simp [hk]),
      ⟨hfirst.same (hsame _ (by simp) (by simp) (by simp)),
        hsecond.same (hsame _ (by simp) (by simp) (by simp)), hpack, hbytes⟩⟩, ?_⟩
  · rw [ClientMemory.sendFirst]
    exact bind_run hrun _
  · simp [blocks, stored, cleaned, added, roundBlocks, hpc] at hcount ⊢
    omega

theorem Fits.sendSecond (F : Fits start s v h T) {first second : List CFloat}
    (hpc : s.sender = .sendSecond first second) :
    ∃ v' h' T', sendSecond v h = some (v', h')
      ∧ v'.out = { v.out with sentSecond := v.out.sentSecond ++ [datagramOf second] }
      ∧ Fits start { s with
        sender := .waitCalculator, emitted := s.emitted ++ [(first, second)] } v' h' T' := by
  obtain ⟨H, M, hcount⟩ := F
  obtain ⟨hfirst, hsecond, hpack, hbytes⟩ : SenderIn v T (.sendSecond first second) := by
    have hsender := M.sender
    rwa [hpc] at hsender
  obtain ⟨v', h₁, T₁, hrun, hout, H₁, hcount₁, hpack', hbytes', hsame⟩ :=
    sendFloats_run hsecond.floatsIn H (show Place.secondPack ≠ .secondPayload by simp)
      (show Place.secondPack ≠ .secondBytes by simp) (by simp)
  obtain ⟨h', T', hfree, H', hcount', hT'⟩ := freeSent_run H₁
    (hfirst.same (hsame _ (by simp) (by simp) (by simp)))
    (hsecond.same (hsame _ (by simp) (by simp) (by simp)))
    (hpack.same (hsame _ (by simp) (by simp) (by simp)) (hsame _ (by simp) (by simp) (by simp)))
    hpack' (hbytes.same (hsame _ (by simp) (by simp) (by simp))) hbytes'
  have hother (k : Place) (hk : k.owner ≠ .sender) : Same v v' T T' k :=
    (hsame k (by rintro rfl; exact hk rfl) (by rintro rfl; exact hk rfl)
      (by rintro rfl; exact hk rfl)).trans ⟨rfl, rfl, hT' k hk⟩
  refine ⟨{ v' with out := { v'.out with sentSecond := v'.out.sentSecond ++ [datagramOf second] } },
    h', T', ?_, by rw [hout], H', ⟨M.bufin.same (hother _ (by simp [Place.owner])),
      M.batch.same (hother _ (by simp [Place.owner])),
      M.firstStock.same (hother _ (by simp [Place.owner])),
      M.secondStock.same (hother _ (by simp [Place.owner])),
      M.listener.same fun k hk => hother k (by simp [hk]),
      M.calculator.same fun k hk => hother k (by simp [hk]), trivial⟩, ?_⟩
  · rw [ClientMemory.sendSecond]
    refine (bind_run hrun _).trans ?_
    exact bind_run hfree _
  · simp [blocks, stored, cleaned, added, roundBlocks, hpc] at hcount ⊢
    omega

/-- A step that puts nothing out. -/
theorem Fits.represents (hout : v.out = output s) (hs : output s' = output s) {x : Prog Block Vars}
    (hx : ∃ v' h' T', x h = some (v', h') ∧ v'.out = v.out ∧ Fits start s' v' h' T') :
    ∃ v' h', x h = some (v', h') ∧ Represents start ⟨s', v', h'⟩ := by
  obtain ⟨v', h', T', hrun, hv', F'⟩ := hx
  exact ⟨v', h', hrun, ⟨T', F'⟩, by rw [hv', hs, hout]⟩

/-- **Every step** does what the control says. -/
theorem Fits.step (F : Fits start s v h T) (hout : v.out = output s)
    (hstock : ∀ listenerBatch, s.calculator = .cleanBatch listenerBatch →
      s.listenerStock.batch.floats = listenerBatch)
    (hP : ReplyReceived s a) (hm : Client.Move s a s') :
    ∃ v' h', code s v a h = some (v', h') ∧ Represents start ⟨s', v', h'⟩ := by
  have move {s' : Client.State} {a : Client.Action} {x : Prog Block Vars} (hcode : code s v a = x)
      (hs : output s' = output s)
      (hx : ∃ v' h' T', x h = some (v', h') ∧ v'.out = v.out ∧ Fits start s' v' h' T') :
      ∃ v' h', code s v a h = some (v', h') ∧ Represents start ⟨s', v', h'⟩ := by
    rw [hcode]
    exact Fits.represents hout hs hx
  have idle {s' : Client.State} {a : Client.Action} (hcode : code s v a = pure v)
      (hs : output s' = output s) (F' : Fits start s' v h T) :
      ∃ v' h', code s v a h = some (v', h') ∧ Represents start ⟨s', v', h'⟩ :=
    move hcode hs ⟨v, h, T, rfl, rfl, F'⟩
  cases hm with
  | getU payload hpc => exact move rfl rfl (F.callGetU payload hpc)
  | waitSender payload hpc hflag =>
      refine idle (by simp [code, hpc]) rfl (F.idle rfl rfl ?_ ?_ id ?_ id)
      · simp [cleaned, hpc]
      · simp [blocks, stored, added, callBlocks, hpc]
      · rw [hpc]
        exact id
  | addFirst payload copy hpc hcopy => exact move (by simp [code, hpc]) rfl (F.addFirst hpc hcopy)
  | addSecond payload copy hpc hcopy => exact move (by simp [code, hpc]) rfl (F.addSecond hpc hcopy)
  | signalSender payload hpc => exact move (by simp [code, hpc]) rfl (F.signalSender hpc true)
  | waitListener hpc hflag =>
      refine idle (by simp [code, hpc]) rfl (F.idle rfl rfl ?_ ?_ id ?_ id)
      · simp [cleaned, hpc]
      · simp [blocks, stored, added, callBlocks, hpc]
      · rw [hpc]
        exact id
  | getBatch hpc => exact move (by simp [code, hpc]) rfl (F.getBatch hpc)
  | cleanBatch listenerBatch hpc hlen =>
      exact move (by simp [code, hpc]) rfl (F.cleanBatch hpc hlen (hstock _ hpc))
  | signalListener u hpc =>
      obtain ⟨v', h', T', hcode, hv, F'⟩ := F.signalListener hpc true
      refine ⟨v', h', by simpa [code, hpc] using hcode, ⟨T', F'⟩, ?_⟩
      show v'.out = _
      rw [hv, hout]
      rfl
  | waitCalculator hpc hflag =>
      refine idle (by simp [code, hpc]) (by simp [output, sentFirst, hpc])
        (F.idle rfl rfl rfl ?_ id id fun _ => trivial)
      simp [blocks, stored, added, roundBlocks, hpc]
  | fetchFirst hpc => exact move (by simp [code, hpc]) (by simp [output, sentFirst, hpc]) (F.fetchFirst hpc)
  | fetchSecond first hpc =>
      exact move (by simp [code, hpc]) (by simp [output, sentFirst, hpc]) (F.fetchSecond hpc)
  | signalReady first second hpc =>
      refine idle (by simp [code, hpc]) (by simp [output, sentFirst, hpc])
        (F.idle rfl rfl rfl ?_ id id ?_)
      · simp [blocks, stored, added, roundBlocks, hpc]
      · rw [hpc]
        exact id
  | sendFirst first second hpc =>
      obtain ⟨v', h', T', hcode, hv, F'⟩ := F.sendFirst hpc
      refine ⟨v', h', by simpa [code, hpc] using hcode, ⟨T', F'⟩, ?_⟩
      show v'.out = _
      rw [hv, hout]
      simp [output, sentFirst, hpc]
  | sendSecond first second hpc =>
      obtain ⟨v', h', T', hcode, hv, F'⟩ := F.sendSecond hpc
      refine ⟨v', h', by simpa [code, hpc] using hcode, ⟨T', F'⟩, ?_⟩
      show v'.out = _
      rw [hv, hout]
      simp [output, sentFirst, hpc]
  | receive d pack hpc hpack =>
      have hd := (hP d rfl).1
      rw [bytesToPack_recvfrom _ hd.selfContained] at hpack
      exact move rfl rfl (F.receive _ hpc hd hpack)
  | listenerWait pack hpc hflag =>
      refine idle (by simp [code, hpc]) rfl (F.idle rfl rfl rfl ?_ ?_ id id)
      · simp [blocks, stored, added, hpc]
      · rw [hpc]
        exact id
  | store pack copy hpc hcopy => exact move (by simp [code, hpc]) rfl (F.storeBatch hpc hcopy)
  | listenerSignal pack hpc =>
      refine idle (by simp [code, hpc]) rfl (F.idle rfl rfl rfl ?_ (fun _ => trivial) id id)
      simp [blocks, stored, added, hpc]

end Keeps

/-! ## Runs -/

section Runs

variable {P : Client.State → Client.Action → Prop} {start : Heap Block} {bufin : Buf}
  {as : List Client.Action} {s : Client.State} {m : State}

/-- What the calculator has read is still in the stock when it cleans it. -/
theorem stock_of_cleanBatch (hrun : Run Client.step P (Client.init bufin) as s) :
    ∀ listenerBatch, s.calculator = .cleanBatch listenerBatch →
      s.listenerStock.batch.floats = listenerBatch := by
  induction hrun with
  | nil =>
      intro b hb
      cases hb
  | @snoc as s a s' hrun _ hstep ih =>
      cases Client.step_move hstep with
      | getBatch hpc =>
          intro b hb
          exact Client.CalculatorPc.cleanBatch.inj hb
      | store pack copy hpc hcopy =>
          -- the listener only stores while the calculator is outside
          intro b hb
          have hproducing : (Client.replyChannel s).producing = true := by
            simp [Client.replyChannel, hpc]
          have hidle := (Handshake.tokens_producing (Client.inv_run hrun).reply.tokens_eq hproducing).2.2
          have htaken : (Client.replyChannel s).consumer = .taken := by
            have hcalculator : s.calculator = .cleanBatch b := hb
            simp [Client.replyChannel, hcalculator]
          rw [htaken] at hidle
          cases hidle
      | _ =>
          first
          | exact ih
          | intro b hb
            cases hb

theorem keeps (start : Heap Block) (bufin : Buf) : HeapMachine.Keeps Client.step code
    ReplyReceived (init start bufin).control (Represents start) := by
  rintro as ⟨s, v, h⟩ a s' hrun ⟨⟨T, F⟩, hout⟩ hP hstep
  exact F.step hout (stock_of_cleanBatch hrun) hP (Client.step_move hstep)

theorem represents_init (start : Heap Block) (bufin : Buf) :
    Represents start (init start bufin) := by
  have hfirst : (startHeap start).block (start.next + 2)
      = some (floatsBlock (List.replicate 6 0)) :=
    Heap.block_push (Heap.block_push (Heap.block_push_self ((start.push _).push _) _))
  have hsecond : (startHeap start).block (start.next + 3)
      = some (floatsBlock (List.replicate 7 0)) :=
    Heap.block_push (Heap.block_push_self (((start.push _).push _).push _) _)
  have hbufin : (startHeap start).block (start.next + 4)
      = some (chars.array (written [] MAXBUF)) :=
    Heap.block_push_self ((((start.push _).push _).push _).push _) _
  refine ⟨⟨fun
    | .firstStock => some (start.next + 2, floatsBlock (List.replicate 6 0))
    | .secondStock => some (start.next + 3, floatsBlock (List.replicate 7 0))
    | .bufin => some (start.next + 4, chars.array (written [] MAXBUF))
    | _ => none, ⟨?_, ?_⟩, ⟨?_, ⟨rfl, rfl⟩, ?_, ?_, trivial, trivial, trivial⟩, ?_⟩, rfl⟩
  · intro k p b hk
    split at hk
    · cases hk
      exact hfirst
    · cases hk
      exact hsecond
    · cases hk
      exact hbufin
    · cases hk
  · -- the three addresses are different
    intro k k' p b b' hk hk'
    split at hk <;> simp only [Option.some.injEq, Prod.mk.injEq, reduceCtorEq] at hk <;>
      split at hk' <;> simp only [Option.some.injEq, Prod.mk.injEq, reduceCtorEq] at hk' <;>
      first
      | exact .inl rfl
      | omega
  · exact ⟨_, _, rfl, rfl, length_written (Nat.zero_le _)⟩
  · exact ⟨rfl, _, rfl, rfl⟩
  · exact ⟨rfl, _, rfl, rfl⟩
  · simp [init, startHeap, blocks, stored, cleaned, added, callBlocks, roundBlocks, Client.init]

theorem wellFormed_run (hrun : Run Client.step ReplyReceived (Client.init bufin) as s) :
    Run Client.step Client.WellFormedReceive (Client.init bufin) as s :=
  hrun.mono fun _ _ hP d ha => (hP d ha).1

/-- A thread that cannot move does not touch the memory. -/
theorem code_of_blocked (hrun : Run Client.step ReplyReceived (Client.init bufin) as s)
    {a : Client.Action} (hgetU : ∀ payload, a ≠ .getU payload) (hreceive : ∀ d, a ≠ .receive d)
    (hblocked : Client.step s a = none) (v : Vars) : code s v a = pure v := by
  cases a with
  | getU payload => exact absurd rfl (hgetU payload)
  | calculator =>
      rcases Client.calculator_blocked hblocked with hpc | ⟨p, hpc, -⟩ | ⟨hpc, -⟩ | ⟨b, hpc, hb⟩
      · simp [code, hpc]
      · simp [code, hpc]
      · simp [code, hpc]
      · have := Client.length_of_cleanBatch hrun hpc
        omega
  | sender =>
      obtain ⟨hpc, -⟩ := Client.sender_blocked hblocked
      simp [code, hpc]
  | receive d => exact absurd rfl (hreceive d)
  | listener =>
      rcases Client.listener_blocked hblocked with hpc | ⟨pack, hpc, -⟩ | ⟨pack, hpc, hcopy⟩
      · simp [code, hpc]
      · simp [code, hpc]
      · exact absurd hcopy (copyOfPacket_ne_none
          (Client.type_of_inHand (wellFormed_run hrun) pack (by simp [hpc])))

/-- **No undefined behaviour.**  In every interleaving in which the client receives replies of at
least four floats, whatever its buffer holds at first, what any thread executes next has a
result. -/
theorem client_no_fault (hrun : Run step (fun m a => ReplyReceived m.control a) (init start bufin) as m)
    {a : Client.Action} (ha : ReplyReceived m.control a)
    (hgetU : ∀ payload, a = .getU payload → m.control.calculator = .outside)
    (hreceive : ∀ d, a = .receive d → m.control.listener = .receive) :
    code m.control m.vars a m.heap ≠ none := by
  by_cases hcontrol : Client.step m.control a = none
  · have hcall : ∀ payload, a ≠ .getU payload := by
      rintro payload rfl
      simp [Client.step, Client.callGetU, hgetU payload rfl] at hcontrol
    have hthread : ∀ d, a ≠ .receive d := by
      rintro d rfl
      exact Client.receive_enabled (hreceive d rfl) (ha d rfl).1 hcontrol
    rw [code_of_blocked (HeapMachine.control_run hrun) hcall hthread hcontrol]
    exact Option.some_ne_none _
  · exact HeapMachine.Run.safe (keeps start bufin) (represents_init start bufin) hrun ha hcontrol

/-- One call, whose reply arrives ahead of it, up to the send of its request. -/
def callSchedule : List Client.Action :=
  .receive (datagramOf [1, 2, 3, 4, 5]) :: List.replicate 3 .listener ++ List.replicate 6 .sender
    ++ .getU Client.samplePayload :: List.replicate 8 .calculator ++ List.replicate 4 .sender

theorem callSchedule_run : ∃ m, Run step (fun m a => ReplyReceived m.control a) (init Heap.empty fun _ => 0)
    callSchedule m ∧ m.control.returned = [[1, 2, 3, 4]] := by
  obtain ⟨s, hrun, hreturned⟩ := Option.map_eq_some_iff.mp (by decide +kernel :
    (Transition.run Client.step (Client.init fun _ => 0) callSchedule).map (fun s => s.returned)
      = some [[1, 2, 3, 4]])
  have h : Run Client.step ReplyReceived (Client.init fun _ => 0) callSchedule s := by
    apply Run.of_run hrun
    rintro _ a ha d rfl
    obtain rfl : d = datagramOf [1, 2, 3, 4, 5] := by simpa [callSchedule] using ha
    refine ⟨wellFormed_datagramOf _ (by decide), ?_⟩
    rw [floatsOf_datagramOf _ (by decide)]
    decide
  obtain ⟨m, hm, rfl⟩ := HeapMachine.Run.lift (keeps Heap.empty fun _ => 0) (represents_init ..) h
  exact ⟨m, hm, hreturned⟩

/-- The send of the first half has a result. -/
theorem client_no_fault_send : ∃ m, Run step (fun m a => ReplyReceived m.control a)
    (init Heap.empty fun _ => 0) callSchedule m ∧ code m.control m.vars .sender m.heap ≠ none := by
  obtain ⟨m, hm, -⟩ := callSchedule_run
  refine ⟨m, hm, client_no_fault hm ?_ ?_ ?_⟩
  · intro d ha
    cases ha
  · intro payload ha
    cases ha
  · intro d ha
    cases ha

/-- **The memory refines the control.**  The schedules of the client with its memory are those
of the client without, to the same states of the control; what the first has sent are the bytes
of the halves that the second has sent, its calls of `get_u` have returned the same floats, and
the blocks that are live beyond those of the start are those that belong to its history. -/
theorem client_memory_refines :
    Run Client.step ReplyReceived (Client.init bufin) as s ↔
      ∃ m, Run step (fun m a => ReplyReceived m.control a) (init start bufin) as m ∧ m.control = s
        ∧ m.vars.out = output s ∧ m.heap.count + cleaned s = start.count + blocks s := by
  constructor
  · intro hrun
    obtain ⟨m, hm, rfl⟩ := HeapMachine.Run.lift (keeps start bufin) (represents_init start bufin) hrun
    obtain ⟨⟨T, F⟩, hout⟩ := HeapMachine.Run.related (keeps start bufin) (represents_init start bufin) hm
    exact ⟨m, hm, rfl, hout, F.count⟩
  · rintro ⟨m, hm, rfl, -, -⟩
    exact HeapMachine.control_run hm

/-- How far the listener and the reads are ahead of the calls that have returned. -/
theorem ahead (hrun : Run Client.step ReplyReceived (Client.init bufin) as s) :
    s.read.length = s.returned.length + s.calculator.result.length
      ∧ (s.read.length ≤ stored s ∧ stored s + s.calculator.result.length ≤ s.read.length + 1)
      ∧ (stored s ≤ s.received.length ∧ s.received.length ≤ stored s + 1) := by
  have hwf := wellFormed_run hrun
  have hlaw := (Client.inv_run hwf).reply
  have hputs : s.replied.length
      = s.read.length + (Client.replyChannel s).live.toNat := hlaw.balanced.length_puts
  have hreceived := congrArg List.length (Client.received_eq hwf)
  have hread := congrArg List.length (Client.read_eq hrun)
  simp only [List.length_map, List.length_append] at hreceived hread
  have hlive := Bool.toNat_le (Client.replyChannel s).live
  have hresult : s.calculator.result.length ≤ 1 := by
    cases s.calculator <;> simp
  -- with a result in hand the calculator has taken the reply and not signalled yet
  have htaken : s.calculator.result.length = 1 → (Client.replyChannel s).consumer = .taken := by
    cases hpc : s.calculator <;> simp [Client.replyChannel, hpc]
  have hstored : stored s + s.calculator.result.length ≤ s.read.length + 1
      ∧ s.replied.length ≤ stored s ∧ stored s ≤ s.received.length
      ∧ s.received.length ≤ stored s + 1 := by
    by_cases hone : s.calculator.result.length = 1
    · have hnotLive := Handshake.not_live_of_taken hlaw.tokens_eq (htaken hone)
      have hnotProducing := (hlaw.takes_eq_puts_of_taken (htaken hone)).2
      rw [hnotLive, Bool.toNat_false] at hputs
      cases hpc : s.listener <;> simp [Client.replyChannel, hpc] at hnotProducing <;>
        simp only [hpc, Client.ListenerPc.inHand, List.length_nil, List.length_singleton] at hreceived <;>
        simp only [stored, hpc] <;> omega
    · cases hpc : s.listener with
      | signalReady pack =>
          have hproducing : (Client.replyChannel s).producing = true := by
            simp [Client.replyChannel, hpc]
          rw [Handshake.not_live_of_producing hlaw.tokens_eq hproducing, Bool.toNat_false] at hputs
          simp only [hpc, Client.ListenerPc.inHand, List.length_singleton] at hreceived
          simp only [stored, hpc]
          omega
      | receive =>
          simp only [hpc, Client.ListenerPc.inHand, List.length_nil] at hreceived
          simp only [stored, hpc]
          omega
      | waitCalculator pack =>
          simp only [hpc, Client.ListenerPc.inHand, List.length_singleton] at hreceived
          simp only [stored, hpc]
          omega
      | store pack =>
          simp only [hpc, Client.ListenerPc.inHand, List.length_singleton] at hreceived
          simp only [stored, hpc]
          omega
  omega

/-- What is live in a state of the client. -/
theorem Represents.count_bounds (h : Represents start m)
    (hrun : Run Client.step ReplyReceived (Client.init bufin) as m.control) :
    start.count + 5 + 6 * m.control.returned.length ≤ m.heap.count
      ∧ m.heap.count ≤ start.count + 23 + 6 * m.control.returned.length := by
  obtain ⟨⟨T, F⟩, -⟩ := h
  have hcount := F.count
  obtain ⟨hread, hstored, hreceived⟩ := ahead hrun
  have hrequested := Client.requested_length hrun
  have hround : roundBlocks m.control.sender ≤ 5 := by
    cases m.control.sender <;> simp [roundBlocks]
  simp only [blocks, cleaned, added] at hcount
  cases hpc : m.control.calculator <;>
    simp only [hpc, Client.CalculatorPc.result, Client.CalculatorPc.awaiting, callBlocks,
      List.length_nil, List.length_singleton] at hcount hread hstored hrequested <;>
    omega

/-- **The memory grows.**  Six blocks are never released of each call that has returned.  What is
live besides is what was live before the start of the loops, and at most twenty-three blocks. -/
theorem client_leaks (hrun : Run step (fun m a => ReplyReceived m.control a) (init start bufin) as m) :
    start.count + 5 + 6 * m.control.returned.length ≤ m.heap.count
      ∧ m.heap.count ≤ start.count + 23 + 6 * m.control.returned.length := by
  have hrepresents := HeapMachine.Run.related (keeps start bufin) (represents_init start bufin) hrun
  exact hrepresents.count_bounds (HeapMachine.control_run hrun)

/-- After one call, with nothing on the heap of the start. -/
theorem client_leaks_one_call : ∃ m, Run step (fun m a => ReplyReceived m.control a)
    (init Heap.empty fun _ => 0) callSchedule m ∧ m.control.returned = [[1, 2, 3, 4]]
      ∧ 11 ≤ m.heap.count ∧ m.heap.count ≤ 29 := by
  obtain ⟨m, hm, hreturned⟩ := callSchedule_run
  have hleaks := client_leaks hm
  rw [hreturned, Heap.count_empty] at hleaks
  exact ⟨m, hm, hreturned, hleaks⟩

end Runs

end ClientMemory
