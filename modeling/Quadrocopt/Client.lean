/-
# The client's request/reply threads

The calculator (`get_u` of `main.c`), the sender (`run_sender.c`) and the listener
(`run_listener.c`) of the client, as one step function over a shared state.  Every
wait, signal, read or write of a stock, send and receive is one step; the
program counter of a thread names the operation it takes next and carries the
thread's local variables.

The state also keeps the history of what was handed over: nothing in the step
function reads it.

Prints, the barrier that releases the three loops together and the DEBUG output
take no part in the exchange and are left out.  Where the process would end
(`exit(1)`) or read past a block, the thread has no step.
-/
import Quadrocopt.ConditionPack
import Quadrocopt.Stock

namespace Client

/-- The 13 floats that `get_u` receives. -/
abbrev Payload := List.Vector CFloat 13

/-- `memcpy(first_batch, payload, 6 floats)` of `get_u`. -/
def firstHalf (payload : Payload) : List CFloat := payload.toList.take 6

/-- `memcpy(second_batch, payload + 6, 7 floats)` of `get_u`. -/
def secondHalf (payload : Payload) : List CFloat := (payload.toList.drop 6).take 7

/-- The two halves of a request. -/
def halves (payload : Payload) : List CFloat × List CFloat :=
  (firstHalf payload, secondHalf payload)

/-- The calculator: outside `get_u`, or at one of its operations. -/
inductive CalculatorPc where
  | outside
  | waitSender (payload : Payload)
  | addFirst (payload : Payload)
  | addSecond (payload : Payload)
  | signalSender (payload : Payload)
  | waitListener
  | getBatch
  | cleanBatch (listenerBatch : List CFloat)
  | signalListener (u : List CFloat)

/-- The sender: at one of the operations of the loop of `run_sender`. -/
inductive SenderPc where
  | waitCalculator
  | fetchFirst
  | fetchSecond (firstBatch : List CFloat)
  | signalReady (firstBatch secondBatch : List CFloat)
  | sendFirst (firstBatch secondBatch : List CFloat)
  | sendSecond (firstBatch secondBatch : List CFloat)

/-- The listener: at one of the operations of the loop of `run_listener`. -/
inductive ListenerPc where
  | receive
  | waitCalculator (pack : Packet)
  | store (pack : Packet)
  | signalReady (pack : Packet)

/-- The shared state of the three threads, their program counters, and the history:
the payloads handed to the sender, the pairs sent, the datagrams received, the
replies handed to the calculator, the replies it has read, and the results that
`get_u` has returned. -/
structure State where
  senderToSignal : Bool
  senderFromSignal : Bool
  listenerToSignal : Bool
  listenerFromSignal : Bool
  senderStock : SenderStock
  listenerStock : BatchStock
  bufin : Buf
  calculator : CalculatorPc
  sender : SenderPc
  listener : ListenerPc
  requested : List Payload
  emitted : List (List CFloat × List CFloat)
  received : List Datagram
  replied : List (List CFloat)
  read : List (List CFloat)
  returned : List (List CFloat)

/-! ## The initial state -/

/-- `fill_sender_stock`: two zero batches of 6 and 7 floats. -/
def fillSenderStock (s : SenderStock) : Option SenderStock :=
  (addFirstBatchToSenderStock s (List.replicate 6 0) 6).bind fun s =>
    addSecondBatchToSenderStock s (List.replicate 7 0) 7

/-- The stock that `initialize_globals` leaves behind. -/
def filledSenderStock : SenderStock where
  firstBatch := ⟨List.replicate 6 0, 6, rfl⟩
  secondBatch := ⟨List.replicate 7 0, 7, rfl⟩

/-- The stock is filled with thirteen zeros. -/
theorem fillSenderStock_initializeSenderStock :
    fillSenderStock initializeSenderStock = some filledSenderStock := rfl

/-- The state in which the three loops start: the flags of
`initialize_condition_packs`, the stock of `fill_sender_stock`, and a receive
buffer with whatever `malloc` left in it. -/
def init (bufin : Buf) : State where
  senderToSignal := true
  senderFromSignal := false
  listenerToSignal := true
  listenerFromSignal := false
  senderStock := filledSenderStock
  listenerStock := initializeBatchStock
  bufin := bufin
  calculator := .outside
  sender := .waitCalculator
  listener := .receive
  requested := []
  emitted := []
  received := []
  replied := []
  read := []
  returned := []

/-- The request that the initial stock amounts to. -/
def initialPayload : Payload := List.Vector.replicate 13 0

/-! ## The steps -/

/-- Who moves: the calculator enters `get_u` or takes its next step in it, the sender
or the listener takes its next step, or `recvfrom` returns a datagram to the
listener. -/
inductive Action where
  | getU (payload : Payload)
  | calculator
  | sender
  | receive (d : Datagram)
  | listener
  deriving DecidableEq

/-- The calculator enters `get_u`. -/
def callGetU (payload : Payload) (s : State) : Option State :=
  match s.calculator with
  | .outside => some { s with calculator := .waitSender payload }
  | _ => none

/-- The next step of the calculator inside `get_u`. -/
def stepCalculator (s : State) : Option State :=
  match s.calculator with
  | .outside => none
  | .waitSender payload =>
      -- goes through once the sender has fetched the request before
      (waitWithPack s.senderFromSignal).map fun flag =>
        { s with senderFromSignal := flag, calculator := .addFirst payload }
  | .addFirst payload =>
      (addFirstBatchToSenderStock s.senderStock (firstHalf payload) 6).map fun stock =>
        { s with senderStock := stock, calculator := .addSecond payload }
  | .addSecond payload =>
      (addSecondBatchToSenderStock s.senderStock (secondHalf payload) 7).map fun stock =>
        { s with senderStock := stock, calculator := .signalSender payload }
  | .signalSender payload =>
      some { s with
        senderToSignal := signalWithPack s.senderToSignal
        calculator := .waitListener
        requested := s.requested ++ [payload] }
  | .waitListener =>
      (waitWithPack s.listenerFromSignal).map fun flag =>
        { s with listenerFromSignal := flag, calculator := .getBatch }
  | .getBatch =>
      -- `read_listener_batch`: the copy here, the clean with the next step
      some { s with
        calculator := .cleanBatch (getBatchFromStock s.listenerStock)
        read := s.read ++ [getBatchFromStock s.listenerStock] }
  | .cleanBatch listenerBatch =>
      -- `memcpy(u, listener_batch, 4 floats)` has no result on a shorter batch
      (copyArrOfFloats listenerBatch 4).map fun u =>
        { s with
          listenerStock := cleanBatchStock s.listenerStock
          calculator := .signalListener u.floats }
  | .signalListener u =>
      some { s with
        listenerToSignal := signalWithPack s.listenerToSignal
        calculator := .outside
        returned := s.returned ++ [u] }

/-- The next step of `run_sender`; the two sends put a datagram on the network. -/
def stepSender (s : State) : Option State :=
  match s.sender with
  | .waitCalculator =>
      (waitWithPack s.senderToSignal).map fun flag =>
        { s with senderToSignal := flag, sender := .fetchFirst }
  -- `fetch_batches`: one read of the stock for each half
  | .fetchFirst => some { s with sender := .fetchSecond s.senderStock.firstBatch.copy.floats }
  | .fetchSecond firstBatch =>
      some { s with sender := .signalReady firstBatch s.senderStock.secondBatch.copy.floats }
  | .signalReady firstBatch secondBatch =>
      -- the calculator is released before the halves are sent
      some { s with
        senderFromSignal := signalWithPack s.senderFromSignal
        sender := .sendFirst firstBatch secondBatch }
  | .sendFirst firstBatch secondBatch =>
      some { s with sender := .sendSecond firstBatch secondBatch }
  | .sendSecond firstBatch secondBatch =>
      some { s with
        sender := .waitCalculator
        emitted := s.emitted ++ [(firstBatch, secondBatch)] }

/-- `recvfrom` returns the datagram `d` and `bytes_to_pack` decodes the buffer. -/
def stepReceive (d : Datagram) (s : State) : Option State :=
  match s.listener, bytesToPack (recvfrom s.bufin d) with
  | .receive, .ok pack =>
      some { s with
        bufin := recvfrom s.bufin d
        listener := .waitCalculator pack
        received := s.received ++ [d] }
  | _, _ => none

/-- The next step of `run_listener` after a receive. -/
def stepListener (s : State) : Option State :=
  match s.listener with
  | .receive => none
  | .waitCalculator pack =>
      (waitWithPack s.listenerToSignal).map fun flag =>
        { s with listenerToSignal := flag, listener := .store pack }
  | .store pack =>
      (storeBatch pack s.listenerStock).map fun stock =>
        { s with listenerStock := stock, listener := .signalReady pack }
  | .signalReady pack =>
      some { s with
        listenerFromSignal := signalWithPack s.listenerFromSignal
        listener := .receive
        replied := s.replied ++ [getFloats pack] }

/-- One step of the client. -/
def step (s : State) : Action → Option State
  | .getU payload => callGetU payload s
  | .calculator => stepCalculator s
  | .sender => stepSender s
  | .receive d => stepReceive d s
  | .listener => stepListener s

/-! ## What one step can do

`Move` lists the steps with what was enabled and what changes; every invariant is
derived from it, and `step_move` is the only place that takes `step` apart. -/

/-- The steps of the client, one constructor for each operation. -/
inductive Move (s : State) : Action → State → Prop
  | getU (payload : Payload) (hpc : s.calculator = .outside) :
      Move s (.getU payload) { s with calculator := .waitSender payload }
  | waitSender (payload : Payload) (hpc : s.calculator = .waitSender payload)
      (hflag : s.senderFromSignal = true) :
      Move s .calculator
        { s with senderFromSignal := false, calculator := .addFirst payload }
  | addFirst (payload : Payload) (copy : SizedBuf) (hpc : s.calculator = .addFirst payload)
      (hcopy : copy.floats = firstHalf payload) :
      Move s .calculator
        { s with
          senderStock := ⟨copy, s.senderStock.secondBatch⟩
          calculator := .addSecond payload }
  | addSecond (payload : Payload) (copy : SizedBuf) (hpc : s.calculator = .addSecond payload)
      (hcopy : copy.floats = secondHalf payload) :
      Move s .calculator
        { s with
          senderStock := ⟨s.senderStock.firstBatch, copy⟩
          calculator := .signalSender payload }
  | signalSender (payload : Payload) (hpc : s.calculator = .signalSender payload) :
      Move s .calculator
        { s with
          senderToSignal := true
          calculator := .waitListener
          requested := s.requested ++ [payload] }
  | waitListener (hpc : s.calculator = .waitListener) (hflag : s.listenerFromSignal = true) :
      Move s .calculator { s with listenerFromSignal := false, calculator := .getBatch }
  | getBatch (hpc : s.calculator = .getBatch) :
      Move s .calculator
        { s with
          calculator := .cleanBatch s.listenerStock.batch.floats
          read := s.read ++ [s.listenerStock.batch.floats] }
  | cleanBatch (listenerBatch : List CFloat) (hpc : s.calculator = .cleanBatch listenerBatch)
      (hlen : 4 ≤ listenerBatch.length) :
      Move s .calculator
        { s with
          listenerStock := ⟨SizedBuf.null⟩
          calculator := .signalListener (listenerBatch.take 4) }
  | signalListener (u : List CFloat) (hpc : s.calculator = .signalListener u) :
      Move s .calculator
        { s with
          listenerToSignal := true
          calculator := .outside
          returned := s.returned ++ [u] }
  | waitCalculator (hpc : s.sender = .waitCalculator) (hflag : s.senderToSignal = true) :
      Move s .sender { s with senderToSignal := false, sender := .fetchFirst }
  | fetchFirst (hpc : s.sender = .fetchFirst) :
      Move s .sender { s with sender := .fetchSecond s.senderStock.firstBatch.floats }
  | fetchSecond (firstBatch : List CFloat) (hpc : s.sender = .fetchSecond firstBatch) :
      Move s .sender
        { s with sender := .signalReady firstBatch s.senderStock.secondBatch.floats }
  | signalReady (firstBatch secondBatch : List CFloat)
      (hpc : s.sender = .signalReady firstBatch secondBatch) :
      Move s .sender
        { s with senderFromSignal := true, sender := .sendFirst firstBatch secondBatch }
  | sendFirst (firstBatch secondBatch : List CFloat)
      (hpc : s.sender = .sendFirst firstBatch secondBatch) :
      Move s .sender { s with sender := .sendSecond firstBatch secondBatch }
  | sendSecond (firstBatch secondBatch : List CFloat)
      (hpc : s.sender = .sendSecond firstBatch secondBatch) :
      Move s .sender
        { s with
          sender := .waitCalculator
          emitted := s.emitted ++ [(firstBatch, secondBatch)] }
  | receive (d : Datagram) (pack : Packet) (hpc : s.listener = .receive)
      (hpack : bytesToPack (recvfrom s.bufin d) = .ok pack) :
      Move s (.receive d)
        { s with
          bufin := recvfrom s.bufin d
          listener := .waitCalculator pack
          received := s.received ++ [d] }
  | listenerWait (pack : Packet) (hpc : s.listener = .waitCalculator pack)
      (hflag : s.listenerToSignal = true) :
      Move s .listener { s with listenerToSignal := false, listener := .store pack }
  | store (pack : Packet) (copy : SizedBuf) (hpc : s.listener = .store pack)
      (hcopy : copyOfPacket pack = some copy) :
      Move s .listener { s with listenerStock := ⟨copy⟩, listener := .signalReady pack }
  | listenerSignal (pack : Packet) (hpc : s.listener = .signalReady pack) :
      Move s .listener
        { s with
          listenerFromSignal := true
          listener := .receive
          replied := s.replied ++ [getFloats pack] }

/-- The first half of a payload has six floats. -/
theorem length_firstHalf (payload : Payload) : (firstHalf payload).length = 6 := by
  rw [firstHalf, List.length_take, payload.toList_length]
  rfl

/-- The second half has seven. -/
theorem length_secondHalf (payload : Payload) : (secondHalf payload).length = 7 := by
  rw [secondHalf, List.length_take, List.length_drop, payload.toList_length]
  rfl

theorem take_firstHalf (payload : Payload) : (firstHalf payload).take 6 = firstHalf payload :=
  List.take_of_length_le (length_firstHalf payload).le

theorem take_secondHalf (payload : Payload) : (secondHalf payload).take 7 = secondHalf payload :=
  List.take_of_length_le (length_secondHalf payload).le

/-- **Inversion of the step function.** -/
theorem step_move {s s' : State} {a : Action} (h : step s a = some s') : Move s a s' := by
  cases a with
  | getU payload =>
      simp only [step, callGetU] at h
      split at h
      · next hpc =>
        obtain rfl := Option.some.inj h
        exact Move.getU payload hpc
      · cases h
  | calculator =>
      simp only [step, stepCalculator] at h
      split at h
      · cases h
      · next payload hpc =>
        obtain ⟨hflag, rfl⟩ := map_waitWithPack_eq_some.mp h
        exact Move.waitSender payload hpc hflag
      · next payload hpc =>
        simp only [addFirstBatchToSenderStock, Option.map_map, Option.map_eq_some_iff] at h
        obtain ⟨copy, hcopy, rfl⟩ := h
        refine Move.addFirst payload copy hpc ?_
        rw [(floats_of_copyArrOfFloats hcopy).2, take_firstHalf]
      · next payload hpc =>
        simp only [addSecondBatchToSenderStock, Option.map_map, Option.map_eq_some_iff] at h
        obtain ⟨copy, hcopy, rfl⟩ := h
        refine Move.addSecond payload copy hpc ?_
        rw [(floats_of_copyArrOfFloats hcopy).2, take_secondHalf]
      · next payload hpc =>
        obtain rfl := Option.some.inj h
        exact Move.signalSender payload hpc
      · next hpc =>
        obtain ⟨hflag, rfl⟩ := map_waitWithPack_eq_some.mp h
        exact Move.waitListener hpc hflag
      · next hpc =>
        obtain rfl := Option.some.inj h
        simpa [getBatchFromStock] using Move.getBatch hpc
      · next listenerBatch hpc =>
        obtain ⟨u, hu, rfl⟩ := Option.map_eq_some_iff.mp h
        obtain ⟨hlen, hfloats⟩ := floats_of_copyArrOfFloats hu
        rw [hfloats]
        exact Move.cleanBatch listenerBatch hpc hlen
      · next u hpc =>
        obtain rfl := Option.some.inj h
        exact Move.signalListener u hpc
  | sender =>
      simp only [step, stepSender] at h
      split at h
      · next hpc =>
        obtain ⟨hflag, rfl⟩ := map_waitWithPack_eq_some.mp h
        exact Move.waitCalculator hpc hflag
      · next hpc =>
        obtain rfl := Option.some.inj h
        simpa using Move.fetchFirst hpc
      · next firstBatch hpc =>
        obtain rfl := Option.some.inj h
        simpa using Move.fetchSecond firstBatch hpc
      · next firstBatch secondBatch hpc =>
        obtain rfl := Option.some.inj h
        exact Move.signalReady firstBatch secondBatch hpc
      · next firstBatch secondBatch hpc =>
        obtain rfl := Option.some.inj h
        exact Move.sendFirst firstBatch secondBatch hpc
      · next firstBatch secondBatch hpc =>
        obtain rfl := Option.some.inj h
        exact Move.sendSecond firstBatch secondBatch hpc
  | receive d =>
      simp only [step, stepReceive] at h
      split at h
      · next pack hpc hpack =>
        obtain rfl := Option.some.inj h
        exact Move.receive d pack hpc hpack
      · cases h
  | listener =>
      simp only [step, stepListener] at h
      split at h
      · cases h
      · next pack hpc =>
        obtain ⟨hflag, rfl⟩ := map_waitWithPack_eq_some.mp h
        exact Move.listenerWait pack hpc hflag
      · next pack hpc =>
        simp only [storeBatch, addToBatchStock, Option.map_map, Option.map_eq_some_iff] at h
        obtain ⟨copy, hcopy, rfl⟩ := h
        exact Move.store pack copy hpc hcopy
      · next pack hpc =>
        obtain rfl := Option.some.inj h
        exact Move.listenerSignal pack hpc

/-! ## Frames -/

/-- Only the sender moves the sender and records what it emits. -/
theorem Move.sender_frame {s s' : State} {a : Action} (hm : Move s a s') (ha : a ≠ .sender) :
    s'.sender = s.sender ∧ s'.emitted = s.emitted := by
  cases hm <;> first | exact ⟨rfl, rfl⟩ | exact absurd rfl ha

/-- Only a receive records a datagram. -/
theorem Move.received_frame {s s' : State} {a : Action} (hm : Move s a s')
    (ha : ∀ d, a ≠ .receive d) : s'.received = s.received := by
  cases hm <;> first | rfl | exact absurd rfl (ha _)

end Client
