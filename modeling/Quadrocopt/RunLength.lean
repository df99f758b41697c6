/-
# How long the system runs

A call of `get_u` sets a bounded amount of work free: nine steps of the calculator, one round
of each of the other threads, and three datagrams that are delivered or lost.  So the steps of
a run are counted by the history (`ClosedLoop.length_eq`): where each thread is in its round,
how many rounds it has made, and what the network has lost.

The main thread makes at most eight calls.  So the whole system comes to rest, whatever the
schedule and the network (`MainThread.comes_to_rest`).
-/
import Quadrocopt.MainThread

/-! ## What a link loses -/

namespace Link

open scoped List

variable {α : Type*}

/-- The messages that were dropped. -/
def lost (l : Link α) : ℕ := l.sent.length - (l.delivered.length + l.inFlight.length)

/-- The messages that an operation drops. -/
def Op.losses : Op α → ℕ
  | drop _ => 1
  | _ => 0

/-- Only a drop loses a message. -/
theorem Sound.lost_step {l l' : Link α} {op : Op α} (hl : l.Sound) (hs : l.step op = some l') :
    l'.lost = l.lost + op.losses := by
  have hle := hl.length_le
  rw [List.length_append] at hle
  cases op with
  | send x =>
      obtain rfl := Option.some.inj hs
      simp only [lost, Op.losses, List.length_append, List.length_singleton]
      omega
  | deliver i =>
      obtain ⟨x, hx, rfl⟩ := Option.map_eq_some_iff.mp hs
      have hi := (List.getElem?_eq_some_iff.mp hx).1
      simp only [lost, Op.losses, List.length_append, List.length_singleton,
        List.length_eraseIdx_of_lt hi]
      omega
  | drop i =>
      obtain ⟨x, hx, rfl⟩ := Option.map_eq_some_iff.mp hs
      have hi := (List.getElem?_eq_some_iff.mp hx).1
      simp only [lost, Op.losses, List.length_eraseIdx_of_lt hi]
      omega

/-- What keeps all messages loses none. -/
theorem Moves.lost_of_keeps {Q : Op α → Prop} {l l' : Link α}
    (hm : Moves Q l l') (hl : l.Sound) (hQ : ∀ op, Q op → op.Keeps) : l'.lost = l.lost := by
  rcases hm with rfl | ⟨op, hop, hs⟩
  · rfl
  · rw [hl.lost_step hs]
    cases op with
    | drop i => exact (hQ _ hop).elim
    | _ => rfl

end Link

/-! ## The client -/

namespace Client

open Transition

variable {s s' : State} {a : Action}

/-- The steps of the current call of `get_u`. -/
@[simp] def CalculatorPc.taken : CalculatorPc → ℕ
  | .outside => 0
  | .waitSender _ => 1
  | .addFirst _ => 2
  | .addSecond _ => 3
  | .signalSender _ => 4
  | .waitListener => 5
  | .getBatch => 6
  | .cleanBatch _ => 7
  | .signalListener _ => 8

/-- The steps of the current round of the sender. -/
@[simp] def SenderPc.taken : SenderPc → ℕ
  | .waitCalculator => 0
  | .fetchFirst => 1
  | .fetchSecond _ => 2
  | .signalReady _ _ => 3
  | .sendFirst _ _ => 4
  | .sendSecond _ _ => 5

/-- The steps of the current round of the listener. -/
@[simp] def ListenerPc.taken : ListenerPc → ℕ
  | .receive => 0
  | .waitCalculator _ => 1
  | .store _ => 2
  | .signalReady _ => 3

/-- The steps of the three threads. -/
def stepsTaken (s : State) : ℕ :=
  9 * s.returned.length + s.calculator.taken + (6 * s.emitted.length + s.sender.taken)
    + (4 * s.replied.length + s.listener.taken)

theorem Move.stepsTaken_eq (hm : Move s a s') : stepsTaken s' = stepsTaken s + 1 := by
  cases hm <;> simp only [stepsTaken, *, CalculatorPc.taken, SenderPc.taken, ListenerPc.taken,
    List.length_append, List.length_singleton] <;> omega

variable {P : State → Action → Prop} {bufin : Buf} {as : List Action}

/-- The calculator makes nine steps in a call. -/
theorem calculator_le (h : Run step P (init bufin) as s) :
    9 * s.returned.length + s.calculator.taken
      ≤ 9 * (s.requested ++ s.calculator.pending).length := by
  have hrequested := requested_length h
  have hread := congrArg List.length (read_eq h)
  rw [List.length_map, List.length_append] at hread
  rw [List.length_append]
  cases hpc : s.calculator <;> simp [hpc] at hrequested hread ⊢ <;> omega

/-- The listener makes four for a datagram. -/
theorem listener_le (h : Run step WellFormedReceive (init bufin) as s) :
    4 * s.replied.length + s.listener.taken ≤ 4 * s.received.length := by
  have hreceived := congrArg List.length (received_eq h)
  rw [List.length_map, List.length_append, List.length_map] at hreceived
  cases hpc : s.listener <;> simp [hpc] at hreceived ⊢ <;> omega

theorem sender_le (h : Run step P (init bufin) as s) :
    6 * s.emitted.length + s.sender.taken ≤ 6 * s.requested.length + 11 := by
  have hrounds := rounds_le_requested h
  cases hpc : s.sender <;> simp [hpc] at hrounds ⊢ <;> omega

end Client

/-! ## The server -/

namespace Server

open Transition

variable {serverCalculations : List CFloat → List.Vector CFloat 4} {s s' : State} {a : Action}

/-- The steps of the current round of the calculator. -/
@[simp] def CalculatorPc.taken : CalculatorPc → ℕ
  | .waitFirst => 0
  | .waitSecond => 1
  | .getFirst => 2
  | .getSecond _ => 3
  | .cleanStock _ _ => 4
  | .signalFirst _ _ => 5
  | .signalSecond _ _ => 6
  | .calculateRes _ _ => 7
  | .waitForSender => 8
  | .signalCalculated => 9

/-- The steps of the sender since its last send. -/
@[simp] def SenderPc.taken : SenderPc → ℕ
  | .signalReady => 0
  | .waitForCalculator => 1
  | .readCalcs => 2
  | .send _ => 3

/-- The steps of the current round of a listener. -/
@[simp] def ListenerPc.taken : ListenerPc → ℕ
  | .receive => 0
  | .waitUntilCalcReads _ => 1
  | .store _ => 2
  | .signalReady _ => 3

/-- The steps of a listener. -/
def listenerTaken (l : ListenerType) (s : State) : ℕ :=
  4 * (s.handed l).length + (s.listener l).taken

/-- The steps of the four threads, and one more. -/
def stepsTaken (s : State) : ℕ :=
  10 * s.signalled.length + s.calculator.taken + (4 * s.sent.length + s.sender.taken)
    + (listenerTaken .first s + listenerTaken .second s)

theorem Move.stepsTaken_eq (hm : Move serverCalculations s a s') :
    stepsTaken s' = stepsTaken s + 1 := by
  cases hm with
  | receive l d pack hpc hpack => cases l <;> simp [stepsTaken, listenerTaken, hpc] <;> omega
  | waitUntilCalcReads l pack hpc hflag =>
      cases l <;> simp [stepsTaken, listenerTaken, hpc] <;> omega
  | store l pack copy bs hpc hcopy hbs =>
      cases l <;> simp [stepsTaken, listenerTaken, hpc] <;> omega
  | listenerSignal l pack hpc => cases l <;> simp [stepsTaken, listenerTaken, hpc] <;> omega
  | _ =>
      simp only [stepsTaken, listenerTaken, *, CalculatorPc.taken, SenderPc.taken,
        List.length_append, List.length_singleton]
      omega

variable {bufin : ListenerType → Buf} {as : List Action}

/-- The listeners of the server make four steps for a datagram as well. -/
theorem listener_le (h : Run (step serverCalculations) WellFormedReceive (init bufin) as s)
    (l : ListenerType) : listenerTaken l s ≤ 4 * (s.received l).length := by
  have hreceived := congrArg List.length (received_eq h l)
  rw [List.length_map, List.length_append, List.length_map] at hreceived
  cases hpc : s.listener l <;> simp [listenerTaken, hpc] at hreceived ⊢ <;> omega

/-- Its calculator makes ten for a pair. -/
theorem calculator_le (h : Run (step serverCalculations) WellFormedReceive (init bufin) as s)
    (l : ListenerType) :
    10 * s.signalled.length + s.calculator.taken ≤ 10 * (s.received l).length + 9 := by
  have hresults := congrArg List.length (results_eq h)
  have hcomputed := (computed_prefix_received h l).length_le
  rw [results, List.length_map, List.length_append] at hresults
  rw [List.length_map, List.length_map] at hcomputed
  have htaken : s.calculator.taken ≤ 9 := by cases s.calculator <;> simp
  omega

end Server

/-! ## The exchange -/

namespace ClosedLoop

open Transition
open Server (ListenerType)

variable {serverCalculations : List CFloat → List.Vector CFloat 4} {s s' : State} {a : Action}

/-- The datagrams that the network has lost. -/
def lost (s : State) : ℕ :=
  (requestLink .first s).lost + (requestLink .second s).lost + (replyLink s).lost

/-- Those that it loses in a step. -/
def Action.losses : Action → ℕ
  | dropRequest _ _ => 1
  | dropReply _ => 1
  | _ => 0

/-- Only a drop loses a datagram. -/
theorem lost_move (hrequests : ∀ l, (requestLink l s).Sound) (hreplies : (replyLink s).Sound)
    (hm : Move serverCalculations s a s') : lost s' = lost s + a.losses := by
  by_cases ha : a.Lossless
  · have hkeeps : ∀ {α : Type} (op : Link.Op α), a.Allows op → op.Keeps := fun _ hop => hop.1 ha
    have hlosses : a.losses = 0 := by cases a <;> first | rfl | exact ha.elim
    rw [lost, (requestLink_moves hm .first).lost_of_keeps (hrequests _) hkeeps,
      (requestLink_moves hm .second).lost_of_keeps (hrequests _) hkeeps,
      (replyLink_moves hm).lost_of_keeps hreplies hkeeps, hlosses]
    rfl
  · cases hm with
    | dropRequest l i x hi =>
        have hstep : (requestLink l s).step (.drop i) = some (requestLink l
            { s with requests := Function.update s.requests l ((s.requests l).eraseIdx i) }) := by
          simp [Link.step, requestLink, hi]
        have hdrop := (hrequests l).lost_step hstep
        have hother : ∀ l', l' ≠ l → requestLink l'
            { s with requests := Function.update s.requests l ((s.requests l).eraseIdx i) }
              = requestLink l' s := fun l' hl => by simp [requestLink, hl]
        have hreply : replyLink
            { s with requests := Function.update s.requests l ((s.requests l).eraseIdx i) }
              = replyLink s := rfl
        cases l with
        | first =>
            simp only [lost, hdrop, hother .second (by simp), hreply, Link.Op.losses,
              Action.losses]
            omega
        | second =>
            simp only [lost, hdrop, hother .first (by simp), hreply, Link.Op.losses,
              Action.losses]
            omega
    | dropReply i d hi =>
        have hstep : (replyLink s).step (.drop i) =
            some (replyLink { s with replies := s.replies.eraseIdx i }) := by
          simp [Link.step, replyLink, hi]
        have hdrop := hreplies.lost_step hstep
        simp only [lost, hdrop, Link.Op.losses, Action.losses]
        rfl
    | client b hb hc => rcases hb with ⟨-, rfl⟩ | ⟨-, rfl⟩ | ⟨p, -, rfl⟩ <;> exact absurd trivial ha
    | server b hb hc => rcases hb with ⟨-, rfl⟩ | ⟨l, -, rfl⟩ <;> exact absurd trivial ha
    | _ => exact absurd trivial ha

/-- A step is a step of one of the programs, or a loss. -/
theorem stepsTaken_move (hm : Move serverCalculations s a s') :
    Client.stepsTaken s'.client + Server.stepsTaken s'.server + a.losses
      = Client.stepsTaken s.client + Server.stepsTaken s.server + 1 := by
  cases hm with
  | client b hb hc =>
      have hsteps := (Client.step_move hc).stepsTaken_eq
      rcases hb with ⟨-, rfl⟩ | ⟨-, rfl⟩ | ⟨p, -, rfl⟩ <;> simp only [Action.losses] <;> omega
  | clientSender hc =>
      have hsteps := (Client.step_move hc).stepsTaken_eq
      simp only [Action.losses]
      omega
  | server b hb hsv =>
      have hsteps := (Server.step_move hsv).stepsTaken_eq
      rcases hb with ⟨-, rfl⟩ | ⟨l, -, rfl⟩ <;> simp only [Action.losses] <;> omega
  | serverSender hsv =>
      have hsteps := (Server.step_move hsv).stepsTaken_eq
      simp only [Action.losses]
      omega
  | deliverRequest l i x hi hsv =>
      have hsteps := (Server.step_move hsv).stepsTaken_eq
      simp only [Action.losses]
      omega
  | deliverReply i d hi hc =>
      have hsteps := (Client.step_move hc).stepsTaken_eq
      simp only [Action.losses]
      omega
  | dropRequest l i x hi => rfl
  | dropReply i d hi => rfl

variable {P : State → Action → Prop} {clientBuf : Buf} {serverBuf : ListenerType → Buf}
  {as : List Action}

/-- **The length of a run**, from its history. -/
theorem length_eq (h : Run (step serverCalculations) P (init clientBuf serverBuf) as s) :
    as.length + 1 = Client.stepsTaken s.client + Server.stepsTaken s.server + lost s := by
  induction h with
  | nil => rfl
  | snoc hrun _ hstep ih =>
      have hsteps := stepsTaken_move (step_move hstep)
      have hlost := lost_move (fun l => requestLink_sound hrun l) (replyLink_sound hrun)
        (step_move hstep)
      rw [List.length_append, List.length_singleton]
      omega

/-- The calls of `get_u` bound it. -/
theorem length_le (h : Run (step serverCalculations) P (init clientBuf serverBuf) as s) :
    as.length ≤ 44 * (s.client.requested ++ s.client.calculator.pending).length + 51 := by
  obtain ⟨bs, hclient⟩ := client_run_wf h
  obtain ⟨bs', hserver⟩ := server_run_wf h
  have hwf : Run Client.step Client.WellFormedReceive (Client.init clientBuf) bs s.client :=
    hclient.mono (fun _ _ hP d hd => (hP d hd).1)
  have hlength := length_eq h
  -- the threads of the client
  have hcalculator := Client.calculator_le hclient
  have hlistener := Client.listener_le hwf
  have hsender := Client.sender_le hclient
  have hrounds := Client.rounds_le_requested hclient
  -- the threads of the server
  have hcomputing := Server.calculator_le hserver .second
  have hfirst := Server.listener_le hserver .first
  have hsecond := Server.listener_le hserver .second
  have hsending : s.server.sender.taken ≤ 3 := by cases s.server.sender <;> simp
  -- the datagrams
  have hbatches := batchesSent_le_rounds s.client .first
  have hemitted : (batchesSent s.client .second).length = s.client.emitted.length := by
    rw [batchesSent, List.length_map]
  have hsent := sent_le_batchesSent h .second
  have hreceived : ∀ l, (s.server.received l).length ≤ (batchesSent s.client l).length := by
    intro l
    have hlink := (requestLink_sound h l).length_le
    rw [← delivered_eq h l, List.length_map]
    simp only [requestLink, tagged, List.length_append, List.length_mapIdx] at hlink
    omega
  have hreceivedFirst := hreceived .first
  have hreceivedSecond := hreceived .second
  have hreplied : s.client.received.length ≤ s.server.sent.length := by
    have hlink := (replyLink_sound h).length_le
    simp only [replyLink, List.length_append, List.length_map] at hlink
    omega
  have hlost : lost s ≤ (batchesSent s.client .first).length
      + (batchesSent s.client .second).length + s.server.sent.length := by
    simp only [lost, Link.lost, requestLink, replyLink, tagged, List.length_mapIdx,
      List.length_map]
    omega
  simp only [Client.stepsTaken, Server.stepsTaken] at hlength
  rw [List.length_append] at hcalculator ⊢
  omega

end ClosedLoop

/-! ## The printer -/

namespace Printer

variable {s s' : State} {a : Action}

/-- The steps that the calculator has still to make, if nothing stops it. -/
@[simp] def CalculatorPc.left : CalculatorPc → ℕ
  | .loop n => 5 * n
  | .getNextStep n => 5 * n + 4
  | .waitPrinter n => 5 * n + 3
  | .setParams n => 5 * n + 2
  | .signalPrinter n => 5 * n + 1

/-- The steps that the printer has still to make. -/
@[simp] def PrinterPc.left : PrinterPc → ℕ
  | .createOutputFiles => 2
  | .print => 1
  | .ended => 0

/-- The steps that both have still to make. -/
def stepsLeft (s : State) : ℕ := s.calculator.left + s.printer.left

theorem Move.stepsLeft_eq (hm : Move s a s') : stepsLeft s' + 1 = stepsLeft s := by
  cases hm <;> simp only [stepsLeft, *, CalculatorPc.left, PrinterPc.left] <;> omega

end Printer

/-! ## The whole system -/

namespace MainThread

open Transition
open Server (ListenerType)

variable {serverCalculations : List CFloat → List.Vector CFloat 4}
  {floatArrToString : List CFloat → String} {nextPayload : List (List CFloat) → Client.Payload}
  {clientBuf : Buf} {serverBuf : ListenerType → Buf} {iterations : ℕ}
  {as : List Action} {P : State → Action → Prop} {s : State}

/-- The steps of a run are those of the exchange, and those that the main thread and the
printer have made towards their end. -/
theorem length_add_stepsLeft (h : Run (step serverCalculations floatArrToString nextPayload) P
      (init clientBuf serverBuf iterations) as s) :
    ∃ bs, Run (ClosedLoop.step serverCalculations) Any (ClosedLoop.init clientBuf serverBuf) bs
        s.exchange
      ∧ as.length + Printer.stepsLeft s.printing = bs.length + (5 * iterations + 2) := by
  induction h with
  | nil => exact ⟨[], Run.nil, rfl⟩
  | snoc _ _ hstep ih =>
      obtain ⟨bs, hbs, hlength⟩ := ih
      simp only [List.length_append, List.length_singleton]
      cases step_move hstep with
      | getU hpc hcalls he =>
          refine ⟨_, hbs.snoc trivial he, ?_⟩
          simp only [List.length_append, List.length_singleton]
          omega
      | exchange ha he =>
          refine ⟨_, hbs.snoc trivial he, ?_⟩
          simp only [List.length_append, List.length_singleton]
          omega
      | calculator hdone hp =>
          have hleft := (Printer.step_move hp).stepsLeft_eq
          exact ⟨bs, hbs, by simp only; omega⟩
      | printer hp =>
          have hleft := (Printer.step_move hp).stepsLeft_eq
          exact ⟨bs, hbs, by simp only; omega⟩

/-- The wait for the printer bounds what the main thread does outside of `get_u`. -/
theorem stepsLeft_ge (h : Run (step serverCalculations floatArrToString nextPayload) P
      (init clientBuf serverBuf iterations) as s) :
    5 * iterations ≤ Printer.stepsLeft s.printing + 5 * min iterations 2 := by
  obtain ⟨bs, hprinting⟩ := printing_run h
  have hflag := Printer.remaining_add_one hprinting
  rw [Printer.stepsLeft]
  cases hpc : s.printing.calculator <;>
    simp only [hpc, Printer.CalculatorPc.remaining, Printer.CalculatorPc.left] at hflag ⊢ <;> omega

/-- Every run is of bounded length. -/
theorem length_le (h : Run (step serverCalculations floatArrToString nextPayload) P
      (init clientBuf serverBuf iterations) as s) : as.length ≤ 181 * min iterations 2 + 53 := by
  obtain ⟨bs, hexchange, hlength⟩ := length_add_stepsLeft h
  have hle := ClosedLoop.length_le hexchange
  have hasked := asked_le h
  have hleft := stepsLeft_ge h
  rw [asked, callsPerStep] at hasked
  omega

/-- **The system comes to rest.**  However the threads of both programs are scheduled, and
whatever the network delays, reorders or drops: after a bounded number of steps nothing more
happens, and from every state on the way the steps of the threads alone lead to a state in
which none of them can take a step. -/
theorem comes_to_rest (h : Run (step serverCalculations floatArrToString nextPayload) Any
      (init clientBuf serverBuf iterations) as s) :
    as.length ≤ 181 * min iterations 2 + 53
      ∧ ∃ bs s', (∀ b ∈ bs, IsThreadStep b)
        ∧ Run (step serverCalculations floatArrToString nextPayload) Any
          (init clientBuf serverBuf iterations) (as ++ bs) s'
        ∧ Standstill serverCalculations floatArrToString nextPayload s' :=
  ⟨length_le h, h.exists_rest fun _ _ h' => length_le h'⟩

/-- The run to the end has 369 of the 415 steps. -/
theorem comes_to_rest_whole :
    wholeSchedule.length = 369 ∧ wholeSchedule.length ≤ 181 * min 2 2 + 53 := by
  obtain ⟨s, h, -⟩ := whole_run
  exact ⟨by decide +kernel, (comes_to_rest (h.mono fun _ _ _ => trivial)).1⟩

end MainThread
