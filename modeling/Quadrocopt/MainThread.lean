/-
# The main thread of the client, in the whole system

`do_client_calculations` alternates between `get_next_step`, which calls `get_u` four times,
and `print_calc_data`.  So the main thread joins two machines that share nothing else: the
exchange with the server (`ClosedLoop.lean`) and the hand-over to the printer
(`Printer.lean`).  Here it drives both: a call of `get_u` is made where `get_next_step` makes
one, and the printer's machine leaves `get_next_step` after the fourth call has returned.

The arithmetic of `get_next_step` is a parameter, `nextPayload`: the payload of the next call
from the commands that the calls before have returned.  The number of rounds of the loop, which
the times decide and the commands do not, is a parameter too.

The printer is served once.  So the main thread makes at most eight calls of `get_u` before it
is stuck (`calls_bounded`), and over a network that drops nothing the system stops nowhere
before that (`stops_at_second_print`).  What is computed until then does not depend on the
schedule, where no result is overwritten: it is what one sequential program computes, whose
commands lag one payload behind (`follows_lagged`).
-/
import Quadrocopt.ClosedLoopThreads
import Quadrocopt.Outstanding
import Quadrocopt.ClosedLoopResults
import Quadrocopt.Printer

namespace ClosedLoop

open Transition
open Server (ListenerType)

/-! ## The exchange when no thread can move -/

section Drained

variable {serverCalculations : List CFloat → List.Vector CFloat 4} {clientBuf : Buf}
  {serverBuf : ListenerType → Buf} {as : List Action} {s : State}

/-- The listener of a client that stands still is not held up: with a reply handed over and
another one in hand, the client would have received more than it has asked for. -/
theorem Standstill.listener (hs : Standstill serverCalculations s)
    (h : Run (step serverCalculations) (fun _ a => a.Lossless) (init clientBuf serverBuf) as s)
    (hout : s.client.calculator = .outside)
    (hemitted : s.client.emitted.length = s.client.read.length + 1) :
    s.client.listener = .receive := by
  obtain ⟨bs, hclient⟩ := client_run_wf h
  have hwf : Run Client.step Client.WellFormedReceive (Client.init clientBuf) bs s.client :=
    hclient.mono (fun _ _ hP d hd => (hP d hd).1)
  have hreply := (Client.inv_run hclient).reply
  rcases Client.listener_blocked (Option.map_eq_none_iff.mp (hs .clientListener trivial)) with
    hrec | ⟨pack, hpc, hflag⟩ | ⟨pack, hpc, hcopy⟩
  · exact hrec
  · exfalso
    have hidle : (Client.replyChannel s.client).consumer = .idle := by
      simp [Client.replyChannel, hout]
    have hfull : (Client.replyChannel s.client).full = true := by
      by_contra hdown
      rw [Bool.not_eq_true] at hdown
      exact Handshake.not_stuck hreply.tokens_eq hflag (by simp [Client.replyChannel, hpc]) hdown
        hidle
    have hputs := congrArg List.length hreply.puts_eq
    simp only [Handshake.contents, Handshake.live, hfull, Bool.true_or, if_true,
      List.length_append, List.length_singleton] at hputs
    have hreceived := congrArg List.length (Client.received_eq hwf)
    simp only [List.length_map, List.length_append, hpc, Client.ListenerPc.inHand,
      List.length_singleton] at hreceived
    simp only [Client.replyChannel] at hputs
    -- what was received was sent, and what was sent was asked for
    have hlink := (replyLink_sound h).length_le
    have hsent := sent_le_batchesSent h .second
    simp only [replyLink, batchesSent, List.length_append, List.length_map] at hlink hsent
    omega
  · exact absurd hcopy (copyOfPacket_ne_none (Client.type_of_inHand hwf pack (by simp [hpc])))

/-- **The exchange at a standstill.**  The calculator is outside of `get_u`, every request is
answered, and the answer to the last one waits for the next call. -/
theorem Standstill.drained (hs : Standstill serverCalculations s)
    (h : Run (step serverCalculations) (fun _ a => a.Lossless) (init clientBuf serverBuf) as s) :
    s.client.calculator = .outside
      ∧ s.client.emitted.length = s.client.returned.length + 1
      ∧ s.server.sent.length = s.client.emitted.length
      ∧ s.client.received.length = s.client.emitted.length
      ∧ s.replies = [] := by
  have hout := hs.outside h
  obtain ⟨bs, hclient⟩ := client_run_wf h
  obtain ⟨bs', hserver⟩ := server_run_wf h
  obtain ⟨hsender, hto⟩ := Client.sender_blocked
    (Option.map_eq_none_iff.mp (hs .clientSender trivial))
  -- the sender has taken all requests
  have hidle : (Client.requestChannel s.client).consumer = .idle := by
    simp [Client.requestChannel, hsender]
  have hputs := congrArg List.length ((Client.inv_run hclient).request.takes_eq_puts_of_idle hto hidle)
  have hawait := Client.requested_length hclient
  have hread := congrArg List.length (Client.read_eq hclient)
  simp only [Client.requestChannel, Client.requests, List.length_cons, List.length_map,
    List.length_append, hsender, Client.SenderPc.inHand, List.length_nil] at hputs
  simp only [hout, Client.CalculatorPc.awaiting] at hawait
  simp only [List.length_map, List.length_append, hout, Client.CalculatorPc.result,
    List.length_nil] at hread
  have hlistener := hs.listener h hout (by omega)
  have hnil := hs.replies_eq_nil h hlistener
  -- the server has answered them
  obtain ⟨l, hl, hreceived⟩ := Server.blocked_counts hserver
    (Option.map_eq_none_iff.mp (hs .serverCalculator trivial))
    (Option.map_eq_none_iff.mp (hs .serverSender trivial))
    (fun l => Option.map_eq_none_iff.mp (hs (.serverListener l) trivial))
  have hlossless : ∀ (s : State) (a : Action), a.Lossless → a.Lossless := fun _ _ ha => ha
  have hrequests := (requestLink_conserving hlossless h l).length_sent (hs.requests_eq_nil h hl)
  have hreplies := (replyLink_conserving hlossless h).length_sent hnil
  have hdelivered := congrArg List.length (delivered_eq h l)
  have hbatches : (batchesSent s.client l).length = s.client.emitted.length := by
    cases l <;> simp [batchesSent, hsender]
  simp only [requestLink, tagged, List.length_mapIdx, hbatches] at hrequests
  simp only [replyLink, List.length_map] at hreplies
  rw [List.length_map] at hdelivered
  exact ⟨hout, by omega, by omega, by omega, hnil⟩

end Drained

end ClosedLoop

namespace MainThread

open Transition
open Server (ListenerType)

/-- The exchange, the printer with the place of the main thread in its loop, and the calls of
`get_u` that the current `get_next_step` has made. -/
structure State where
  exchange : ClosedLoop.State
  printing : Printer.State
  calls : ℕ

/-- The state after `initialize_globals` and `spawn_workers`. -/
def init (clientBuf : Buf) (serverBuf : ListenerType → Buf) (iterations : ℕ) : State where
  exchange := ClosedLoop.init clientBuf serverBuf
  printing := Printer.init iterations
  calls := 0

/-- What happens next: the main thread calls `get_u`; a step of the exchange; the main thread
takes a step outside of `get_u`; the printer takes one. -/
inductive Action where
  | getU
  | exchange (a : ClosedLoop.Action)
  | calculator
  | printer
  deriving DecidableEq

/-- The calls of `get_u` in `get_next_step`. -/
def callsPerStep : ℕ := 4

/-- The main thread is outside of `get_u`. -/
def outside (s : State) : Bool :=
  match s.exchange.client.calculator with
  | .outside => true
  | _ => false

/-- The main thread is outside of `get_next_step`, or the last call in it has returned. -/
def stepDone (s : State) : Bool :=
  match s.printing.calculator with
  | .getNextStep _ => s.calls == callsPerStep && outside s
  | _ => true

/-- The main thread is in `get_next_step`, before one of the calls. -/
def beforeCall (s : State) : Bool :=
  match s.printing.calculator with
  | .getNextStep _ => decide (s.calls < callsPerStep)
  | _ => false

/-- A step of the exchange that is not a new call of `get_u`. -/
def ofExchange : ClosedLoop.Action → Bool
  | .getU _ => false
  | _ => true

section Steps

variable (serverCalculations : List CFloat → List.Vector CFloat 4)
  (floatArrToString : List CFloat → String) (nextPayload : List (List CFloat) → Client.Payload)

/-- One step. -/
def step (s : State) : Action → Option State
  | .getU =>
      if beforeCall s then
        (ClosedLoop.step serverCalculations s.exchange
            (.getU (nextPayload s.exchange.client.returned))).map fun e =>
          { s with exchange := e, calls := s.calls + 1 }
      else none
  | .exchange a =>
      if ofExchange a then
        (ClosedLoop.step serverCalculations s.exchange a).map fun e => { s with exchange := e }
      else none
  | .calculator =>
      if stepDone s then
        (Printer.step floatArrToString s.printing .calculator).map fun p =>
          { s with printing := p, calls := 0 }
      else none
  | .printer =>
      (Printer.step floatArrToString s.printing .printer).map fun p => { s with printing := p }

/-- The steps, by what they do. -/
inductive Move (s : State) : Action → State → Prop
  | getU {n : ℕ} {e : ClosedLoop.State} (hpc : s.printing.calculator = .getNextStep n)
      (hcalls : s.calls < callsPerStep)
      (h : ClosedLoop.step serverCalculations s.exchange
        (.getU (nextPayload s.exchange.client.returned)) = some e) :
      Move s .getU { s with exchange := e, calls := s.calls + 1 }
  | exchange {a : ClosedLoop.Action} {e : ClosedLoop.State} (ha : ∀ p, a ≠ .getU p)
      (h : ClosedLoop.step serverCalculations s.exchange a = some e) :
      Move s (.exchange a) { s with exchange := e }
  | calculator {p : Printer.State}
      (hdone : ∀ n, s.printing.calculator = .getNextStep n →
        s.calls = callsPerStep ∧ s.exchange.client.calculator = .outside)
      (h : Printer.step floatArrToString s.printing .calculator = some p) :
      Move s .calculator { s with printing := p, calls := 0 }
  | printer {p : Printer.State}
      (h : Printer.step floatArrToString s.printing .printer = some p) :
      Move s .printer { s with printing := p }

variable {serverCalculations floatArrToString nextPayload} {s s' : State} {a : Action}

theorem beforeCall_iff : beforeCall s = true ↔
    (∃ n, s.printing.calculator = .getNextStep n) ∧ s.calls < callsPerStep := by
  unfold beforeCall
  cases s.printing.calculator <;> simp

theorem outside_iff : outside s = true ↔ s.exchange.client.calculator = .outside := by
  unfold outside
  cases s.exchange.client.calculator <;> simp

theorem stepDone_iff : stepDone s = true ↔ ∀ n, s.printing.calculator = .getNextStep n →
    s.calls = callsPerStep ∧ s.exchange.client.calculator = .outside := by
  unfold stepDone
  cases s.printing.calculator <;> simp [outside_iff]

theorem ofExchange_iff {a : ClosedLoop.Action} : ofExchange a = true ↔ ∀ p, a ≠ .getU p := by
  cases a <;> simp [ofExchange]

/-- **Inversion of the step function.** -/
theorem step_move (h : step serverCalculations floatArrToString nextPayload s a = some s') :
    Move serverCalculations floatArrToString nextPayload s a s' := by
  cases a with
  | getU =>
      obtain ⟨hat, h⟩ := Option.ite_none_right_eq_some.mp h
      obtain ⟨⟨n, hpc⟩, hcalls⟩ := beforeCall_iff.mp hat
      obtain ⟨e, he, rfl⟩ := Option.map_eq_some_iff.mp h
      exact Move.getU hpc hcalls he
  | exchange a =>
      obtain ⟨ha, h⟩ := Option.ite_none_right_eq_some.mp h
      obtain ⟨e, he, rfl⟩ := Option.map_eq_some_iff.mp h
      exact Move.exchange (ofExchange_iff.mp ha) he
  | calculator =>
      obtain ⟨hdone, h⟩ := Option.ite_none_right_eq_some.mp h
      obtain ⟨p, hp, rfl⟩ := Option.map_eq_some_iff.mp h
      exact Move.calculator (stepDone_iff.mp hdone) hp
  | printer =>
      obtain ⟨p, hp, rfl⟩ := Option.map_eq_some_iff.mp h
      exact Move.printer hp

/-! ## How well the network behaves -/

/-- The network drops nothing. -/
def Lossless (_s : State) (a : Action) : Prop := ∀ b, a = .exchange b → b.Lossless

/-- A step of one of the threads, deliveries included: everything but a drop. -/
def IsThreadStep : Action → Prop
  | .exchange a => a.IsThreadStep
  | _ => True

/-- The steps of the threads that are no deliveries. -/
def threadSteps : List Action :=
  [.getU, .calculator, .printer, .exchange .clientCalculator, .exchange .clientSender,
    .exchange .clientListener, .exchange .serverCalculator, .exchange .serverSender,
    .exchange (.serverListener .first), .exchange (.serverListener .second)]

/-- The network drops nothing and keeps the order on each socket, and no result is
overwritten before the sender of the server has read it. -/
def InOrderNoOverwrite (s : State) (a : Action) : Prop :=
  match a with
  | .exchange b => ClosedLoop.InOrderNoOverwrite s.exchange b
  | _ => True

instance (s : State) (a : Action) : Decidable (InOrderNoOverwrite s a) :=
  match a with
  | .exchange b => inferInstanceAs (Decidable (ClosedLoop.InOrderNoOverwrite s.exchange b))
  | .getU => isTrue trivial
  | .calculator => isTrue trivial
  | .printer => isTrue trivial

theorem InOrderNoOverwrite.lossless (h : InOrderNoOverwrite s a) : Lossless s a := by
  rintro b rfl
  exact ClosedLoop.Action.InOrder.lossless h.1

/-! ## The two machines inside -/

variable {clientBuf : Buf} {serverBuf : ListenerType → Buf} {iterations : ℕ}
  {as : List Action} {P : State → Action → Prop}

/-- Seen by itself, the exchange makes a run, under any discipline that calls of `get_u` meet. -/
theorem exchange_run {Q : ClosedLoop.State → ClosedLoop.Action → Prop}
    (hgetU : ∀ e p, Q e (.getU p)) (hQ : ∀ s a, P s (.exchange a) → Q s.exchange a)
    (h : Run (step serverCalculations floatArrToString nextPayload) P
      (init clientBuf serverBuf iterations) as s) :
    ∃ bs, Run (ClosedLoop.step serverCalculations) Q (ClosedLoop.init clientBuf serverBuf) bs
      s.exchange := by
  refine h.project State.exchange fun as s a s' _ hP hstep => ?_
  cases step_move hstep with
  | getU hpc hcalls he => exact .inr ⟨_, hgetU _ _, he⟩
  | exchange ha he => exact .inr ⟨_, hQ _ _ hP, he⟩
  | calculator hdone hp => exact .inl rfl
  | printer hp => exact .inl rfl

/-- Seen by itself, so does the printer. -/
theorem printing_run (h : Run (step serverCalculations floatArrToString nextPayload) P
      (init clientBuf serverBuf iterations) as s) :
    ∃ bs, Run (Printer.step floatArrToString) Any (Printer.init iterations) bs s.printing := by
  refine h.project State.printing fun as s a s' _ _ hstep => ?_
  cases step_move hstep with
  | getU hpc hcalls he => exact .inl rfl
  | exchange ha he => exact .inl rfl
  | calculator hdone hp => exact .inr ⟨_, trivial, hp⟩
  | printer hp => exact .inr ⟨_, trivial, hp⟩

/-! ## A run to the end -/

/-- Payloads that show which call they are of. -/
def numberedPayload (returned : List (List CFloat)) : Client.Payload :=
  List.Vector.replicate 13 (BitVec.ofNat 32 (returned.length + 1))

/-- The client sends its request and the server answers it. -/
def requestServed : List ClosedLoop.Action :=
  List.replicate 6 .clientSender ++ ClosedLoop.serveOldest ++ List.replicate 2 .serverCalculator
    ++ List.replicate 4 .serverSender

/-- The client's listener receives the reply and hands it over. -/
def handOver : List ClosedLoop.Action := .deliverReply 0 :: List.replicate 3 .clientListener

/-- A call of `get_u`, from its second step on. -/
def callServed : List ClosedLoop.Action :=
  List.replicate 4 .clientCalculator ++ requestServed ++ List.replicate 4 .clientCalculator
    ++ handOver

/-- One `get_next_step`. -/
def stepServed : List Action :=
  .calculator :: (List.replicate 4 (.getU :: callServed.map .exchange)).flatten ++ [.calculator]

/-- The printer ends, the zero batches are answered, and the main thread makes its way to the
second print. -/
def wholeSchedule : List Action :=
  List.replicate 2 .printer ++ (requestServed ++ handOver).map .exchange
    ++ stepServed ++ List.replicate 3 .calculator ++ stepServed

/-- With two rounds ahead of the main thread, eight calls return, one payload behind, and then
no thread can move. -/
theorem whole_run :
    ∃ s, Run (step Server.firstFour (fun _ => "") numberedPayload) InOrderNoOverwrite
        (init (fun _ => 0) (fun _ _ => 0) 2) wholeSchedule s
      ∧ s.exchange.client.returned = (List.range 8).map (fun n => List.replicate 4 (BitVec.ofNat 32 n))
      ∧ (∀ a ∈ threadSteps, step Server.firstFour (fun _ => "") numberedPayload s a = none)
      ∧ (∀ l, s.exchange.requests l = []) ∧ s.exchange.replies = [] := by
  obtain ⟨s, hrun, hobs⟩ := Option.map_eq_some_iff.mp (by decide +kernel :
    (run (guarded (step Server.firstFour (fun _ => "") numberedPayload) InOrderNoOverwrite)
      (init (fun _ => 0) (fun _ _ => 0) 2) wholeSchedule).map (fun s =>
        (s.exchange.client.returned,
          threadSteps.all fun a => (step Server.firstFour (fun _ => "") numberedPayload s a).isNone,
          (s.exchange.requests .first).isEmpty, (s.exchange.requests .second).isEmpty,
          s.exchange.replies.isEmpty))
    = some ((List.range 8).map (fun n => List.replicate 4 (BitVec.ofNat 32 n)), true, true, true,
      true))
  simp only [Prod.mk.injEq, List.all_eq_true, Option.isNone_iff_eq_none, List.isEmpty_iff] at hobs
  obtain ⟨hreturned, hblocked, hfirst, hsecond, hreplies⟩ := hobs
  refine ⟨s, Run.of_guarded hrun, hreturned, hblocked, fun l => ?_, hreplies⟩
  cases l with
  | first => exact hfirst
  | second => exact hsecond

/-! ## How often `get_u` is called -/

/-- The payloads of the calls made so far. -/
def asked (s : State) : List Client.Payload :=
  s.exchange.client.requested ++ s.exchange.client.calculator.pending

/-- The rounds of `get_next_step` that are still ahead or under way. -/
@[simp] def stepsAhead : Printer.CalculatorPc → ℕ
  | .loop n => n
  | .getNextStep n => n + 1
  | .waitPrinter n => n
  | .setParams n => n
  | .signalPrinter n => n

/-- A step of the exchange by itself makes no call. -/
theorem asked_exchange {e e' : ClosedLoop.State} {b : ClosedLoop.Action}
    (hm : ClosedLoop.Move serverCalculations e b e') :
    e'.client.requested ++ e'.client.calculator.pending
      = e.client.requested ++ e.client.calculator.pending ++ ClosedLoop.payloads [b] := by
  cases hm with
  | client c hc hstep =>
      rw [Client.payloads_move (Client.step_move hstep)]
      rcases hc with ⟨rfl, rfl⟩ | ⟨rfl, rfl⟩ | ⟨p, rfl, rfl⟩ <;> rfl
  | clientSender hstep =>
      rw [Client.payloads_move (Client.step_move hstep)]
      rfl
  | deliverReply i d hi hstep =>
      rw [Client.payloads_move (Client.step_move hstep)]
      rfl
  | server c hc hstep =>
      rcases hc with ⟨-, rfl⟩ | ⟨l, -, rfl⟩ <;> exact (List.append_nil _).symm
  | _ => exact (List.append_nil _).symm

theorem payloads_eq_nil {b : ClosedLoop.Action} (hb : ∀ p, b ≠ .getU p) :
    ClosedLoop.payloads [b] = [] := by
  cases b with
  | getU p => exact absurd rfl (hb p)
  | _ => rfl

/-- The calls made, those of the rounds ahead, and the calls of the round under way account
for the rounds of the loop. -/
structure Counted (iterations : ℕ) (s : State) : Prop where
  asked : (asked s).length + callsPerStep * stepsAhead s.printing.calculator
    = callsPerStep * iterations + s.calls
  calls_le : s.calls ≤ callsPerStep
  calls_eq : (∀ n, s.printing.calculator ≠ .getNextStep n) → s.calls = 0
  inGetU : s.exchange.client.calculator ≠ .outside → ∃ n, s.printing.calculator = .getNextStep n

/-- Only the main thread enters `get_u`. -/
theorem outside_exchange {e e' : ClosedLoop.State} {b : ClosedLoop.Action}
    (hm : ClosedLoop.Move serverCalculations e b e') (hb : ∀ p, b ≠ .getU p)
    (hout : e.client.calculator = .outside) : e'.client.calculator = .outside := by
  cases hm with
  | client c hc hstep =>
      rcases hc with ⟨rfl, rfl⟩ | ⟨rfl, rfl⟩ | ⟨p, rfl, rfl⟩
      · simp [Client.step, Client.stepCalculator, hout] at hstep
      · cases Client.step_move hstep <;> exact hout
      · exact absurd rfl (hb p)
  | clientSender hstep => cases Client.step_move hstep <;> exact hout
  | deliverReply i d hi hstep =>
      cases Client.step_move hstep
      exact hout
  | _ => exact hout

theorem Counted.move (h : Counted iterations s)
    (hm : Move serverCalculations floatArrToString nextPayload s a s') :
    Counted iterations s' := by
  obtain ⟨hasked, hle, heq, hin⟩ := h
  cases hm with
  | @getU n e hpc hcalls he =>
      have hmade : MainThread.asked { s with exchange := e, calls := s.calls + 1 }
          = MainThread.asked s ++ [nextPayload s.exchange.client.returned] :=
        asked_exchange (ClosedLoop.step_move he)
      refine ⟨?_, hcalls, fun hne => absurd hpc (hne n), fun _ => ⟨n, hpc⟩⟩
      rw [hmade, List.length_append, List.length_singleton]
      show (MainThread.asked s).length + 1 + callsPerStep * stepsAhead s.printing.calculator
        = callsPerStep * iterations + (s.calls + 1)
      omega
  | @exchange b e hb he =>
      have hmade := asked_exchange (ClosedLoop.step_move he)
      rw [payloads_eq_nil hb, List.append_nil] at hmade
      refine ⟨?_, hle, heq, fun hout => hin fun hout' => hout ?_⟩
      · rw [MainThread.asked, hmade]
        exact hasked
      · exact outside_exchange (ClosedLoop.step_move he) hb hout'
  | @calculator p hdone hp =>
      refine ⟨?_, Nat.zero_le _, fun _ => rfl, fun hout => ?_⟩
      · have hcalls := heq
        simp only [MainThread.asked] at hasked ⊢
        cases Printer.step_move hp with
        | loop n hpc => simp_all
        | getNextStep n hpc =>
            have := (hdone n hpc).1
            simp only [hpc, stepsAhead] at hasked ⊢
            rw [Nat.mul_add] at hasked
            omega
        | waitPrinter n hpc hflag => simp_all
        | setParams n hpc => simp_all
        | signalPrinter n hpc => simp_all
      · obtain ⟨n, hpc⟩ := hin hout
        exact absurd (hdone n hpc).2 hout
  | @printer p hp =>
      have hpc : p.calculator = s.printing.calculator := by
        cases Printer.step_move hp <;> rfl
      exact ⟨by rw [hpc]; exact hasked, hle, fun hne => heq (by rwa [hpc] at hne),
        fun hout => by rw [hpc]; exact hin hout⟩

theorem counted_run (h : Run (step serverCalculations floatArrToString nextPayload) P
      (init clientBuf serverBuf iterations) as s) : Counted iterations s := by
  refine h.invariant (I := Counted iterations) ⟨?_, ?_, ?_, ?_⟩
    (fun s a s' hs _ hstep => hs.move (step_move hstep))
  · exact Nat.zero_add _
  · exact Nat.zero_le _
  · exact fun _ => rfl
  · exact fun hout => absurd rfl hout

/-- The waits for the printer decide how many calls are made. -/
theorem asked_le (h : Run (step serverCalculations floatArrToString nextPayload) P
      (init clientBuf serverBuf iterations) as s) :
    (asked s).length ≤ callsPerStep * min iterations 2 := by
  obtain ⟨bs, hprinting⟩ := printing_run h
  have hflag := Printer.remaining_add_one hprinting
  obtain ⟨hasked, hle, heq, -⟩ := counted_run h
  have hone : s.printing.printerFromSignal.toNat ≤ 1 := Bool.toNat_le _
  simp only [callsPerStep] at hasked hle ⊢
  cases hpc : s.printing.calculator with
  | getNextStep n =>
      simp only [hpc, stepsAhead, Printer.CalculatorPc.remaining] at hasked hflag
      omega
  | _ =>
      have hcalls := heq (by simp [hpc])
      simp only [hpc, stepsAhead, Printer.CalculatorPc.remaining] at hasked hflag
      omega

/-- **At most eight calls.**  Whatever the threads, the printer and the network do, the main
thread makes at most four calls of `get_u` in each of the first two rounds of its loop, and
none after them; the sender sends at most one request more than that; and with two rounds or
more the loop never ends, so the workers are never stopped. -/
theorem calls_bounded (h : Run (step serverCalculations floatArrToString nextPayload) P
      (init clientBuf serverBuf iterations) as s) :
    (asked s).length ≤ callsPerStep * min iterations 2
      ∧ s.exchange.client.emitted.length ≤ callsPerStep * min iterations 2 + 1
      ∧ (2 ≤ iterations → s.printing.calculator ≠ .loop 0) := by
  obtain ⟨bs, hexchange⟩ := exchange_run (Q := Any) (fun _ _ => trivial) (fun _ _ _ => trivial) h
  obtain ⟨bs', hclient⟩ := ClosedLoop.client_run_wf hexchange
  obtain ⟨bs'', hprinting⟩ := printing_run h
  have hasked := asked_le h
  have hrounds := Client.rounds_le_requested hclient
  have hrequested : s.exchange.client.requested.length ≤ (asked s).length := by
    rw [asked, List.length_append]
    exact Nat.le_add_right _ _
  refine ⟨hasked, by omega, fun htwo hpc => ?_⟩
  have hflag := Printer.remaining_add_one hprinting
  have hone : s.printing.printerFromSignal.toNat ≤ 1 := Bool.toNat_le _
  rw [hpc, Printer.CalculatorPc.remaining] at hflag
  omega

/-- In the run to the end the eight calls are made. -/
theorem calls_bounded_eight :
    ∃ s, (asked s).length = 8 ∧ (asked s).length ≤ callsPerStep * min 2 2 := by
  obtain ⟨s, h, hreturned, -⟩ := whole_run
  have hle := (calls_bounded h).1
  have hlength := congrArg List.length hreturned
  refine ⟨s, ?_, hle⟩
  obtain ⟨bs, hexchange⟩ := exchange_run (Q := Any) (fun _ _ => trivial) (fun _ _ _ => trivial) h
  obtain ⟨bs', hclient⟩ := ClosedLoop.client_run_wf hexchange
  have hrequested := Client.requested_length hclient
  have hread := congrArg List.length (Client.read_eq hclient)
  simp only [List.length_map, List.length_append, List.length_range] at hread hlength
  simp only [asked, List.length_append, callsPerStep] at hle ⊢
  omega

/-! ## Where the system stops -/

variable (serverCalculations floatArrToString nextPayload) in
/-- No thread can take a step. -/
def Standstill (s : State) : Prop :=
  ∀ a, IsThreadStep a → step serverCalculations floatArrToString nextPayload s a = none

/-- Then the exchange stands still as well. -/
theorem Standstill.exchange
    (hs : Standstill serverCalculations floatArrToString nextPayload s) :
    ClosedLoop.Standstill serverCalculations s.exchange := by
  intro a ha
  have hof : ofExchange a = true := ofExchange_iff.mpr (by rintro p rfl; exact ha)
  have hnone := hs (.exchange a) ha
  simpa [step, hof] using hnone

/-- And the printer has ended. -/
theorem Standstill.ended (hs : Standstill serverCalculations floatArrToString nextPayload s) :
    s.printing.printer = .ended := by
  have hnone := hs .printer trivial
  simp only [step, Option.map_eq_none_iff, Printer.step, Printer.stepPrinter] at hnone
  cases hpc : s.printing.printer with
  | ended => rfl
  | createOutputFiles => simp [hpc] at hnone
  | print => simp [hpc, Printer.print, Printer.fetchMsg] at hnone

/-- Outside of `get_u`, only the flag of the printer stops the main thread, or the end of its
loop. -/
theorem Standstill.calculator
    (hs : Standstill serverCalculations floatArrToString nextPayload s)
    (hcounted : Counted iterations s) (hout : s.exchange.client.calculator = .outside) :
    s.printing.calculator = .loop 0
      ∨ ∃ n, s.printing.calculator = .waitPrinter n ∧ s.printing.printerFromSignal = false := by
  have hcall := hs .getU trivial
  have hnone := hs .calculator trivial
  simp only [step] at hcall hnone
  cases hpc : s.printing.calculator with
  | loop n =>
      cases n with
      | zero => exact .inl rfl
      | succ n => simp [stepDone, hpc, Printer.step, Printer.stepCalculator] at hnone
  | getNextStep n =>
      exfalso
      rcases hcounted.calls_le.lt_or_eq with hlt | heq
      · -- the next call can be made
        simp [beforeCall, hpc, hlt, ClosedLoop.step, ClosedLoop.clientStep, Client.step,
          Client.callGetU, hout] at hcall
      · simp [stepDone, hpc, heq, outside, hout, Printer.step, Printer.stepCalculator] at hnone
  | waitPrinter n =>
      refine .inr ⟨n, rfl, ?_⟩
      simpa [stepDone, hpc, Printer.step, Printer.stepCalculator] using hnone
  | setParams n => simp [stepDone, hpc, Printer.step, Printer.stepCalculator] at hnone
  | signalPrinter n => simp [stepDone, hpc, Printer.step, Printer.stepCalculator] at hnone

/-- Over a network that drops nothing, so does the exchange. -/
theorem exchange_lossless
    (h : Run (step serverCalculations floatArrToString nextPayload) Lossless
      (init clientBuf serverBuf iterations) as s) :
    ∃ bs, Run (ClosedLoop.step serverCalculations) (fun _ a => a.Lossless)
      (ClosedLoop.init clientBuf serverBuf) bs s.exchange :=
  exchange_run (fun _ _ => trivial) (fun _ b hP => hP b rfl) h

/-- **The system stops at the second print.**  Over a network that drops nothing, when no
thread can take a step any more: the loop has at most one round and is past it, or the main
thread is in the second `print_calc_data` and waits for the printer, which has ended.  The
calls of `get_u` have all returned, four for each round; and all requests, the zero batches
included, are answered, with the reply to the last one in the hands of the client. -/
theorem stops_at_second_print
    (h : Run (step serverCalculations floatArrToString nextPayload) Lossless
      (init clientBuf serverBuf iterations) as s)
    (hs : Standstill serverCalculations floatArrToString nextPayload s) :
    (iterations ≤ 1 ∧ s.printing.calculator = .loop 0
        ∨ 2 ≤ iterations ∧ s.printing.calculator = .waitPrinter (iterations - 2))
      ∧ s.printing.printer = .ended
      ∧ s.exchange.client.returned.length = callsPerStep * min iterations 2
      ∧ s.exchange.client.emitted.length = callsPerStep * min iterations 2 + 1
      ∧ s.exchange.server.sent.length = callsPerStep * min iterations 2 + 1
      ∧ s.exchange.client.received.length = callsPerStep * min iterations 2 + 1 := by
  obtain ⟨bs, hexchange⟩ := exchange_lossless h
  obtain ⟨hout, hemitted, hsent, hreceived, -⟩ := hs.exchange.drained hexchange
  obtain ⟨bs', hprinting⟩ := printing_run h
  obtain ⟨bs'', hclient⟩ := ClosedLoop.client_run_wf hexchange
  have hflag := Printer.remaining_add_one hprinting
  have hone : s.printing.printerFromSignal.toNat ≤ 1 := Bool.toNat_le _
  have hcounted := counted_run h
  obtain ⟨hasked, -, heq, -⟩ := hcounted
  -- every call made has returned
  have hawait := Client.requested_length hclient
  have hread := congrArg List.length (Client.read_eq hclient)
  simp only [hout, Client.CalculatorPc.awaiting] at hawait
  simp only [List.length_map, List.length_append, hout, Client.CalculatorPc.result,
    List.length_nil] at hread
  simp only [asked, hout, Client.CalculatorPc.pending, List.append_nil, callsPerStep] at hasked
  simp only [callsPerStep]
  rcases hs.calculator (counted_run h) hout with hpc | ⟨n, hpc, hdown⟩
  · have hcalls := heq (by simp [hpc])
    simp only [hpc, stepsAhead, Printer.CalculatorPc.remaining] at hasked hflag
    exact ⟨.inl ⟨by omega, hpc⟩, hs.ended, by omega, by omega, by omega, by omega⟩
  · have hcalls := heq (by simp [hpc])
    simp only [hpc, hdown, stepsAhead, Printer.CalculatorPc.remaining, Bool.toNat_false] at hasked hflag
    obtain rfl : iterations = n + 2 := by omega
    exact ⟨.inr ⟨by omega, hpc⟩, hs.ended, by omega, by omega, by omega, by omega⟩

variable (serverCalculations floatArrToString nextPayload) in
/-- With nothing in flight, a standstill shows in finitely many steps. -/
theorem standstill_of
    (hsteps : ∀ a ∈ threadSteps, step serverCalculations floatArrToString nextPayload s a = none)
    (hrequests : ∀ l, s.exchange.requests l = []) (hreplies : s.exchange.replies = []) :
    Standstill serverCalculations floatArrToString nextPayload s := by
  intro a ha
  cases a with
  | exchange b =>
      cases b with
      | getU p => exact ha.elim
      | deliverRequest l i => simp [step, ofExchange, ClosedLoop.step, hrequests]
      | deliverReply i => simp [step, ofExchange, ClosedLoop.step, hreplies]
      | dropRequest l i => exact ha.elim
      | dropReply i => exact ha.elim
      | serverListener l => cases l <;> exact hsteps _ (by simp [threadSteps])
      | _ => exact hsteps _ (by simp [threadSteps])
  | _ => exact hsteps _ (by simp [threadSteps])

/-- The run to the end stops there. -/
theorem stops_at_second_print_whole :
    ∃ s, Run (step Server.firstFour (fun _ => "") numberedPayload) Lossless
        (init (fun _ => 0) (fun _ _ => 0) 2) wholeSchedule s
      ∧ Standstill Server.firstFour (fun _ => "") numberedPayload s
      ∧ s.printing.calculator = .waitPrinter 0 ∧ s.printing.printer = .ended := by
  obtain ⟨s, h, -, hblocked, hrequests, hreplies⟩ := whole_run
  have hlossless := h.mono (fun _ _ hP => hP.lossless)
  have hs := standstill_of _ _ _ hblocked hrequests hreplies
  obtain ⟨hpc, hended, -⟩ := stops_at_second_print hlossless hs
  rcases hpc with ⟨htwo, -⟩ | ⟨-, hpc⟩
  · omega
  · exact ⟨s, hlossless, hs, hpc, hended⟩

/-! ## What is computed does not depend on the schedule -/

section Lagged

variable (serverCalculations nextPayload)

/-- The command for a payload, as the server sends it. -/
def commandFor (p : Client.Payload) : List CFloat := (serverCalculations p.toList).toList

/-- The commands that the first `n` calls return, when the calls so far were made with
`payloads`: the first call the command for the zero batches, the others that for the payload
before. -/
def commands (payloads : List Client.Payload) (n : ℕ) : List (List CFloat) :=
  ((Client.initialPayload :: payloads).take n).map (commandFor serverCalculations)

/-- The payloads of the first `n` calls of a sequential program that gets each command from
`commands`. -/
def laggedPayloads : ℕ → List Client.Payload
  | 0 => []
  | n + 1 => laggedPayloads n ++ [nextPayload (commands serverCalculations (laggedPayloads n) n)]

end Lagged

/-- What the calls have returned are the commands for the zero batches and the payloads
before, as the exchange hands them on. -/
theorem returned_eq_commands
    (h : Run (step serverCalculations floatArrToString nextPayload) InOrderNoOverwrite
      (init clientBuf serverBuf iterations) as s) :
    s.exchange.client.returned
      = commands serverCalculations (asked s) s.exchange.client.returned.length := by
  obtain ⟨bs, hexchange⟩ := exchange_run (Q := ClosedLoop.InOrderNoOverwrite)
    (fun e p => ⟨trivial, by simp⟩) (fun s b hP => hP) h
  have hP : ∀ e b, ClosedLoop.InOrderNoOverwrite e b → b.InOrder := fun _ _ hPb => hPb.1
  obtain ⟨bs', hserver⟩ := ClosedLoop.server_run (Q := Server.NoOverwrite)
    (fun _ _ _ _ _ _ hb => by cases hb)
    (fun _ _ _ _ _ hPb hb _ hcalc => hPb.2 (hb hcalc) rfl) hexchange
  have hsent := Server.sent_prefix_of_noOverwrite (fun _ _ hu => hu) hserver
  have hcomputed := (ClosedLoop.computed_prefix_rounds hP hexchange).trans
    (ClosedLoop.rounds_prefix_payloads hexchange)
  have hresults := hcomputed.map fun p => (serverCalculations (p.1 ++ p.2)).toList
  have hlaw : ∀ p : Client.Payload, serverCalculations ((Client.halves p).1 ++ (Client.halves p).2)
      = serverCalculations p.toList := fun p => ClosedLoop.serverCalculations_halves p
  rw [ClosedLoop.payloads_eq hexchange, List.map_map] at hresults
  simp only [Function.comp_def, hlaw] at hresults
  have hreturned := ((ClosedLoop.returned_prefix_sent hP hexchange).trans hsent).trans hresults
  rw [commands, List.map_take]
  exact List.prefix_iff_eq_take.mp hreturned

/-- The payloads are those of the sequential program. -/
theorem asked_eq_laggedPayloads
    (h : Run (step serverCalculations floatArrToString nextPayload) InOrderNoOverwrite
      (init clientBuf serverBuf iterations) as s) :
    asked s = laggedPayloads serverCalculations nextPayload (asked s).length := by
  induction h with
  | nil => rfl
  | @snoc as s a s' hrun hP hstep ih =>
      cases step_move hstep with
      | @getU n e hpc hcalls he =>
          have hmade : asked { s with exchange := e, calls := s.calls + 1 }
              = asked s ++ [nextPayload s.exchange.client.returned] :=
            asked_exchange (ClosedLoop.step_move he)
          -- all calls before have returned
          obtain ⟨bs, hexchange⟩ := exchange_run (Q := Any) (fun _ _ => trivial)
            (fun _ _ _ => trivial) hrun
          obtain ⟨bs', hclient⟩ := ClosedLoop.client_run_wf hexchange
          have hout : s.exchange.client.calculator = .outside := by
            cases ClosedLoop.step_move he with
            | client c hc hs =>
                rcases hc with ⟨-, hc⟩ | ⟨-, hc⟩ | ⟨p, rfl, -⟩
                · cases hc
                · cases hc
                · cases Client.step_move hs with
                  | getU payload hout => exact hout
            | server c hc hs => rcases hc with ⟨-, hc⟩ | ⟨l, -, hc⟩ <;> cases hc
          have hawait := Client.requested_length hclient
          have hread := congrArg List.length (Client.read_eq hclient)
          simp only [hout, Client.CalculatorPc.awaiting] at hawait
          simp only [List.length_map, List.length_append, hout, Client.CalculatorPc.result,
            List.length_nil] at hread
          have hlength : s.exchange.client.returned.length = (asked s).length := by
            simp only [asked, hout, Client.CalculatorPc.pending, List.append_nil]
            omega
          have hreturned := returned_eq_commands hrun
          rw [hlength] at hreturned
          rw [hmade, List.length_append, List.length_singleton, laggedPayloads, ← ih, ← hreturned]
      | @exchange b e hb he =>
          have hmade := asked_exchange (ClosedLoop.step_move he)
          rw [payloads_eq_nil hb, List.append_nil] at hmade
          have heq : asked { s with exchange := e } = asked s := hmade
          rw [heq]
          exact ih
      | calculator hdone hp => exact ih
      | printer hp => exact ih

/-- **One sequential program.**  In every run of the whole system, over a network that drops
nothing and keeps the order on each socket, in which no result is overwritten: the payloads of
the calls of `get_u` are those of the sequential program in which each call returns the command
for the payload of the call before, and so are the commands.  Threads, printer and network
decide only how far it comes. -/
theorem follows_lagged
    (h : Run (step serverCalculations floatArrToString nextPayload) InOrderNoOverwrite
      (init clientBuf serverBuf iterations) as s) :
    asked s = laggedPayloads serverCalculations nextPayload (asked s).length
      ∧ s.exchange.client.returned = commands serverCalculations
        (laggedPayloads serverCalculations nextPayload (asked s).length)
        s.exchange.client.returned.length := by
  have hasked := asked_eq_laggedPayloads h
  refine ⟨hasked, ?_⟩
  rw [← hasked]
  exact returned_eq_commands h

/-- In the run to the end each call returns the number of the call before. -/
theorem follows_lagged_whole :
    ∃ s, Run (step Server.firstFour (fun _ => "") numberedPayload) InOrderNoOverwrite
        (init (fun _ => 0) (fun _ _ => 0) 2) wholeSchedule s
      ∧ s.exchange.client.returned = (List.range 8).map (fun n => List.replicate 4 (BitVec.ofNat 32 n))
      ∧ asked s = laggedPayloads Server.firstFour numberedPayload (asked s).length := by
  obtain ⟨s, h, hreturned, -⟩ := whole_run
  exact ⟨s, h, hreturned, (follows_lagged h).1⟩

end Steps

end MainThread
