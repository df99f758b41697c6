/-
# The server's threads

The calculator (the loop of `main`), the two listeners (`run_listener.c`) and the
sender (`run_sender.c`) of the server, as one step function over a shared state, in
the same manner as the client: every wait, signal, read or write of a stock, send
and receive is one step.

The two listeners run the same code with their own flags, socket and half of the
stock; they are told apart by a `ListenerType`.  The control law is a parameter,
`serverCalculations`: nothing here depends on what it computes.

`calculate_res` writes the result into the `CalculationsStock` before
`wait_for_sender`, so before the sender is known to have taken the previous one.
-/
import Mathlib.Logic.Function.Basic
import Quadrocopt.ConditionPack
import Quadrocopt.Stock

namespace Server

/-- The calculator: at one of the operations of the loop of `main`. -/
inductive CalculatorPc where
  | waitFirst
  | waitSecond
  | getFirst
  | getSecond (firstBatch : SizedBuf)
  | cleanStock (firstBatch secondBatch : SizedBuf)
  | signalFirst (firstBatch secondBatch : SizedBuf)
  | signalSecond (firstBatch secondBatch : SizedBuf)
  | calculateRes (firstBatch secondBatch : SizedBuf)
  | waitForSender
  | signalCalculated

/-- The sender: at one of the operations of the loop of `run_sender`; `send_calcs`
first reads the stock, then sends. -/
inductive SenderPc where
  | waitForCalculator
  | readCalcs
  | send (calcs : List CFloat)
  | signalReady

/-- A listener: at one of the operations of the loop of `run_listener`. -/
inductive ListenerPc where
  | receive
  | waitUntilCalcReads (pack : Packet)
  | store (pack : Packet)
  | signalReady (pack : Packet)

/-- The shared state of the four threads, their program counters, and the history:
the datagrams received, the halves handed to the calculator and those it has read on
each port, the pairs of halves computed on, and the results handed to the sender and
sent. -/
structure State where
  listenerSignal : ListenerType → Bool
  calcSignalToListener : ListenerType → Bool
  calcToSenderSignal : Bool
  senderSignal : Bool
  bs : BatchStock
  cs : CalculationsStock
  bufin : ListenerType → Buf
  calculator : CalculatorPc
  sender : SenderPc
  listener : ListenerType → ListenerPc
  received : ListenerType → List Datagram
  handed : ListenerType → List (List CFloat)
  read : ListenerType → List (List CFloat)
  computed : List (List CFloat × List CFloat)
  signalled : List (List CFloat)
  sent : List (List CFloat)

/-- The state in which the loops start, with the flags of
`initialize_condition_packs`. -/
def init (bufin : ListenerType → Buf) : State where
  listenerSignal := fun _ => false
  calcSignalToListener := fun _ => true
  calcToSenderSignal := false
  senderSignal := true
  bs := initializeBatchStock
  cs := initializeCalculationsStock
  bufin := bufin
  calculator := .waitFirst
  sender := .waitForCalculator
  listener := fun _ => .receive
  received := fun _ => []
  handed := fun _ => []
  read := fun _ => []
  computed := []
  signalled := []
  sent := []

/-! ## The steps -/

/-- Who moves: the calculator, the sender or a listener takes its next step, or
`recvfrom` returns a datagram to a listener. -/
inductive Action where
  | calculator
  | sender
  | receive (l : ListenerType) (d : Datagram)
  | listener (l : ListenerType)
  deriving DecidableEq

/-- The array `received_data` that `calculate_res` builds from the two halves. -/
def receivedData (firstBatch secondBatch : SizedBuf) : List CFloat :=
  firstBatch.floats.take firstBatch.len ++ secondBatch.floats.take secondBatch.len

section Steps

variable (serverCalculations : List CFloat → List.Vector CFloat 4)

/-- The next step of the calculator. -/
def stepCalculator (s : State) : Option State :=
  match s.calculator with
  | .waitFirst =>
      (waitWithPack (s.listenerSignal .first)).map fun flag =>
        { s with
          listenerSignal := Function.update s.listenerSignal .first flag
          calculator := .waitSecond }
  | .waitSecond =>
      (waitWithPack (s.listenerSignal .second)).map fun flag =>
        { s with
          listenerSignal := Function.update s.listenerSignal .second flag
          calculator := .getFirst }
  -- `read_batches`: one read for each half, then the clean of both at once
  | .getFirst =>
      some { s with
        calculator := .getSecond (getFirstStockFromBatch s.bs)
        read := Function.update s.read .first
          (s.read .first ++ [(getFirstStockFromBatch s.bs).floats]) }
  | .getSecond firstBatch =>
      some { s with
        calculator := .cleanStock firstBatch (getSecondStockFromBatch s.bs)
        read := Function.update s.read .second
          (s.read .second ++ [(getSecondStockFromBatch s.bs).floats]) }
  | .cleanStock firstBatch secondBatch =>
      some { s with
        bs := cleanBatchStock s.bs
        calculator := .signalFirst firstBatch secondBatch }
  | .signalFirst firstBatch secondBatch =>
      some { s with
        calcSignalToListener := Function.update s.calcSignalToListener .first
          (signalWithPack (s.calcSignalToListener .first))
        calculator := .signalSecond firstBatch secondBatch }
  | .signalSecond firstBatch secondBatch =>
      some { s with
        calcSignalToListener := Function.update s.calcSignalToListener .second
          (signalWithPack (s.calcSignalToListener .second))
        calculator := .calculateRes firstBatch secondBatch }
  | .calculateRes firstBatch secondBatch =>
      -- `add_to_calculations_stock` comes before `wait_for_sender`
      (addToCalculationsStock s.cs
          (serverCalculations (receivedData firstBatch secondBatch)).toList 4).map fun cs =>
        { s with
          cs := cs
          calculator := .waitForSender
          computed := s.computed ++ [(firstBatch.floats, secondBatch.floats)] }
  | .waitForSender =>
      (waitWithPack s.senderSignal).map fun flag =>
        { s with senderSignal := flag, calculator := .signalCalculated }
  | .signalCalculated =>
      -- the result handed over is what the stock holds now
      some { s with
        calcToSenderSignal := signalWithPack s.calcToSenderSignal
        calculator := .waitFirst
        signalled := s.signalled ++ [s.cs.calculations.floats] }

/-- The next step of `run_sender`. -/
def stepSender (s : State) : Option State :=
  match s.sender with
  | .waitForCalculator =>
      (waitWithPack s.calcToSenderSignal).map fun flag =>
        { s with calcToSenderSignal := flag, sender := .readCalcs }
  | .readCalcs => some { s with sender := .send s.cs.calculations.copy.floats }
  | .send calcs => some { s with sender := .signalReady, sent := s.sent ++ [calcs] }
  | .signalReady =>
      some { s with
        senderSignal := signalWithPack s.senderSignal
        sender := .waitForCalculator }

/-- `recvfrom` returns the datagram `d` on the port of listener `l`, and
`bytes_to_pack` decodes the buffer. -/
def stepReceive (l : ListenerType) (d : Datagram) (s : State) : Option State :=
  match s.listener l, bytesToPack (recvfrom (s.bufin l) d) with
  | .receive, .ok pack =>
      some { s with
        bufin := Function.update s.bufin l (recvfrom (s.bufin l) d)
        listener := Function.update s.listener l (.waitUntilCalcReads pack)
        received := Function.update s.received l (s.received l ++ [d]) }
  | _, _ => none

/-- The next step of the `run_listener` of listener `l` after a receive. -/
def stepListener (l : ListenerType) (s : State) : Option State :=
  match s.listener l with
  | .receive => none
  | .waitUntilCalcReads pack =>
      (waitWithPack (s.calcSignalToListener l)).map fun flag =>
        { s with
          calcSignalToListener := Function.update s.calcSignalToListener l flag
          listener := Function.update s.listener l (.store pack) }
  | .store pack =>
      (storeBatch pack l s.bs).map fun bs =>
        { s with bs := bs, listener := Function.update s.listener l (.signalReady pack) }
  | .signalReady pack =>
      some { s with
        listenerSignal := Function.update s.listenerSignal l (signalWithPack (s.listenerSignal l))
        listener := Function.update s.listener l .receive
        handed := Function.update s.handed l (s.handed l ++ [getFloats pack]) }

/-- One step of the server. -/
def step (s : State) : Action → Option State
  | .calculator => stepCalculator serverCalculations s
  | .sender => stepSender s
  | .receive l d => stepReceive l d s
  | .listener l => stepListener l s

/-- The result vectors computed so far. -/
def results (s : State) : List (List CFloat) :=
  s.computed.map fun p => (serverCalculations (p.1 ++ p.2)).toList

/-! ## What one step can do -/

/-- The steps of the server, one constructor for each operation. -/
inductive Move (s : State) : Action → State → Prop
  | waitFirst (hpc : s.calculator = .waitFirst) (hflag : s.listenerSignal .first = true) :
      Move s .calculator
        { s with
          listenerSignal := Function.update s.listenerSignal .first false
          calculator := .waitSecond }
  | waitSecond (hpc : s.calculator = .waitSecond) (hflag : s.listenerSignal .second = true) :
      Move s .calculator
        { s with
          listenerSignal := Function.update s.listenerSignal .second false
          calculator := .getFirst }
  | getFirst (hpc : s.calculator = .getFirst) :
      Move s .calculator
        { s with
          calculator := .getSecond s.bs.firstBatch
          read := Function.update s.read .first (s.read .first ++ [s.bs.firstBatch.floats]) }
  | getSecond (firstBatch : SizedBuf) (hpc : s.calculator = .getSecond firstBatch) :
      Move s .calculator
        { s with
          calculator := .cleanStock firstBatch s.bs.secondBatch
          read := Function.update s.read .second (s.read .second ++ [s.bs.secondBatch.floats]) }
  | cleanStock (firstBatch secondBatch : SizedBuf)
      (hpc : s.calculator = .cleanStock firstBatch secondBatch) :
      Move s .calculator
        { s with
          bs := ⟨SizedBuf.null, SizedBuf.null⟩
          calculator := .signalFirst firstBatch secondBatch }
  | signalFirst (firstBatch secondBatch : SizedBuf)
      (hpc : s.calculator = .signalFirst firstBatch secondBatch) :
      Move s .calculator
        { s with
          calcSignalToListener := Function.update s.calcSignalToListener .first true
          calculator := .signalSecond firstBatch secondBatch }
  | signalSecond (firstBatch secondBatch : SizedBuf)
      (hpc : s.calculator = .signalSecond firstBatch secondBatch) :
      Move s .calculator
        { s with
          calcSignalToListener := Function.update s.calcSignalToListener .second true
          calculator := .calculateRes firstBatch secondBatch }
  | calculateRes (firstBatch secondBatch copy : SizedBuf)
      (hpc : s.calculator = .calculateRes firstBatch secondBatch)
      (hcopy : copy.floats
        = (serverCalculations (firstBatch.floats ++ secondBatch.floats)).toList) :
      Move s .calculator
        { s with
          cs := ⟨copy⟩
          calculator := .waitForSender
          computed := s.computed ++ [(firstBatch.floats, secondBatch.floats)] }
  | waitForSender (hpc : s.calculator = .waitForSender) (hflag : s.senderSignal = true) :
      Move s .calculator { s with senderSignal := false, calculator := .signalCalculated }
  | signalCalculated (hpc : s.calculator = .signalCalculated) :
      Move s .calculator
        { s with
          calcToSenderSignal := true
          calculator := .waitFirst
          signalled := s.signalled ++ [s.cs.calculations.floats] }
  | waitForCalculator (hpc : s.sender = .waitForCalculator)
      (hflag : s.calcToSenderSignal = true) :
      Move s .sender { s with calcToSenderSignal := false, sender := .readCalcs }
  | readCalcs (hpc : s.sender = .readCalcs) :
      Move s .sender { s with sender := .send s.cs.calculations.floats }
  | send (calcs : List CFloat) (hpc : s.sender = .send calcs) :
      Move s .sender { s with sender := .signalReady, sent := s.sent ++ [calcs] }
  | signalReady (hpc : s.sender = .signalReady) :
      Move s .sender { s with senderSignal := true, sender := .waitForCalculator }
  | receive (l : ListenerType) (d : Datagram) (pack : Packet) (hpc : s.listener l = .receive)
      (hpack : bytesToPack (recvfrom (s.bufin l) d) = .ok pack) :
      Move s (.receive l d)
        { s with
          bufin := Function.update s.bufin l (recvfrom (s.bufin l) d)
          listener := Function.update s.listener l (.waitUntilCalcReads pack)
          received := Function.update s.received l (s.received l ++ [d]) }
  | waitUntilCalcReads (l : ListenerType) (pack : Packet)
      (hpc : s.listener l = .waitUntilCalcReads pack)
      (hflag : s.calcSignalToListener l = true) :
      Move s (.listener l)
        { s with
          calcSignalToListener := Function.update s.calcSignalToListener l false
          listener := Function.update s.listener l (.store pack) }
  | store (l : ListenerType) (pack : Packet) (copy : SizedBuf) (bs : BatchStock)
      (hpc : s.listener l = .store pack) (hcopy : copyOfPacket pack = some copy)
      (hbs : ∀ l', bs.half l' = if l' = l then copy else s.bs.half l') :
      Move s (.listener l)
        { s with bs := bs, listener := Function.update s.listener l (.signalReady pack) }
  | listenerSignal (l : ListenerType) (pack : Packet) (hpc : s.listener l = .signalReady pack) :
      Move s (.listener l)
        { s with
          listenerSignal := Function.update s.listenerSignal l true
          listener := Function.update s.listener l .receive
          handed := Function.update s.handed l (s.handed l ++ [getFloats pack]) }

theorem receivedData_eq (firstBatch secondBatch : SizedBuf) :
    receivedData firstBatch secondBatch = firstBatch.floats ++ secondBatch.floats := by
  rw [receivedData, firstBatch.len_eq, secondBatch.len_eq, List.take_length, List.take_length]

/-- Storing a packet copies it into the listener's own half and leaves the other half
alone. -/
theorem half_of_storeBatch {pack : Packet} {l : ListenerType} {bs bs' : BatchStock}
    (h : storeBatch pack l bs = some bs') :
    ∃ copy, copyOfPacket pack = some copy
      ∧ ∀ l', bs'.half l' = if l' = l then copy else bs.half l' := by
  cases l with
  | first =>
      obtain ⟨copy, hcopy, rfl⟩ := Option.map_eq_some_iff.mp h
      exact ⟨copy, hcopy, fun l' => by cases l' <;> rfl⟩
  | second =>
      obtain ⟨copy, hcopy, rfl⟩ := Option.map_eq_some_iff.mp h
      exact ⟨copy, hcopy, fun l' => by cases l' <;> rfl⟩

variable {serverCalculations}

/-- **Inversion of the step function.** -/
theorem step_move {s s' : State} {a : Action} (h : step serverCalculations s a = some s') :
    Move serverCalculations s a s' := by
  cases a with
  | calculator =>
      simp only [step, stepCalculator] at h
      split at h
      · next hpc =>
        obtain ⟨hflag, rfl⟩ := map_waitWithPack_eq_some.mp h
        exact Move.waitFirst hpc hflag
      · next hpc =>
        obtain ⟨hflag, rfl⟩ := map_waitWithPack_eq_some.mp h
        exact Move.waitSecond hpc hflag
      · next hpc =>
        obtain rfl := Option.some.inj h
        simpa [getFirstStockFromBatch] using
          @Move.getFirst serverCalculations s hpc
      · next firstBatch hpc =>
        obtain rfl := Option.some.inj h
        simpa [getSecondStockFromBatch] using
          @Move.getSecond serverCalculations s firstBatch hpc
      · next firstBatch secondBatch hpc =>
        obtain rfl := Option.some.inj h
        exact Move.cleanStock firstBatch secondBatch hpc
      · next firstBatch secondBatch hpc =>
        obtain rfl := Option.some.inj h
        exact Move.signalFirst firstBatch secondBatch hpc
      · next firstBatch secondBatch hpc =>
        obtain rfl := Option.some.inj h
        exact Move.signalSecond firstBatch secondBatch hpc
      · next firstBatch secondBatch hpc =>
        simp only [addToCalculationsStock, Option.map_map, Option.map_eq_some_iff] at h
        obtain ⟨copy, hcopy, rfl⟩ := h
        refine Move.calculateRes firstBatch secondBatch copy hpc ?_
        rw [(floats_of_copyArrOfFloats hcopy).2, receivedData_eq]
        exact List.take_of_length_le (List.Vector.toList_length _).le
      · next hpc =>
        obtain ⟨hflag, rfl⟩ := map_waitWithPack_eq_some.mp h
        exact Move.waitForSender hpc hflag
      · next hpc =>
        obtain rfl := Option.some.inj h
        exact Move.signalCalculated hpc
  | sender =>
      simp only [step, stepSender] at h
      split at h
      · next hpc =>
        obtain ⟨hflag, rfl⟩ := map_waitWithPack_eq_some.mp h
        exact Move.waitForCalculator hpc hflag
      · next hpc =>
        obtain rfl := Option.some.inj h
        simpa using @Move.readCalcs serverCalculations s hpc
      · next calcs hpc =>
        obtain rfl := Option.some.inj h
        exact Move.send calcs hpc
      · next hpc =>
        obtain rfl := Option.some.inj h
        exact Move.signalReady hpc
  | receive l d =>
      simp only [step, stepReceive] at h
      split at h
      · next pack hpc hpack =>
        obtain rfl := Option.some.inj h
        exact Move.receive l d pack hpc hpack
      · cases h
  | listener l =>
      simp only [step, stepListener] at h
      split at h
      · cases h
      · next pack hpc =>
        obtain ⟨hflag, rfl⟩ := map_waitWithPack_eq_some.mp h
        exact Move.waitUntilCalcReads l pack hpc hflag
      · next pack hpc =>
        obtain ⟨bs, hstore, rfl⟩ := Option.map_eq_some_iff.mp h
        obtain ⟨copy, hcopy, hbs⟩ := half_of_storeBatch hstore
        exact Move.store l pack copy bs hpc hcopy hbs
      · next pack hpc =>
        obtain rfl := Option.some.inj h
        exact Move.listenerSignal l pack hpc

/-! ## Frames -/

/-- Only the sender records what it sends. -/
theorem Move.sent_frame {s s' : State} {a : Action} (hm : Move serverCalculations s a s')
    (ha : a ≠ .sender) : s'.sent = s.sent := by
  cases hm <;> first | rfl | exact absurd rfl ha

/-- Only a receive records a datagram. -/
theorem Move.received_frame {s s' : State} {a : Action} (hm : Move serverCalculations s a s')
    (ha : ∀ l d, a ≠ .receive l d) : s'.received = s.received := by
  cases hm <;> first | rfl | exact absurd rfl (ha _ _)

end Steps

end Server
