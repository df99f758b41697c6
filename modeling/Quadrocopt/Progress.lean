/-
# The exchange never wedges

A thread blocks only at a wait whose flag is down, or at a receive with nothing in
flight.  If all of them blocked at once while the calculator of the client is inside
`get_u`, every hand-shake would have all its requests taken; then

* the client has sent two requests more than it has received replies: the zero request,
  and the one it is waiting on (`Client.blocked_counts`);
* the server has received, on the port it is waiting on, as many requests as it has sent
  replies (`Server.blocked_counts`).

With nothing lost and nothing in flight these numbers disagree by two.
-/
import Quadrocopt.ClosedLoopNetwork

namespace Client

open Transition

/-! ## Where the threads of the client block -/

/-- The calculator blocks at one of its two waits, or where it would copy four floats out
of a shorter batch. -/
theorem calculator_blocked {s : State} (h : step s .calculator = none) :
    s.calculator = .outside
      ∨ (∃ p, s.calculator = .waitSender p ∧ s.senderFromSignal = false)
      ∨ (s.calculator = .waitListener ∧ s.listenerFromSignal = false)
      ∨ ∃ b, s.calculator = .cleanBatch b ∧ b.length < 4 := by
  simp only [step, stepCalculator] at h
  split at h
  · next hpc => exact .inl hpc
  · next p hpc => exact .inr (.inl ⟨p, hpc, by simpa using h⟩)
  · next p hpc => simp [addFirstBatchToSenderStock, length_firstHalf] at h
  · next p hpc => simp [addSecondBatchToSenderStock, length_secondHalf] at h
  · cases h
  · next hpc => exact .inr (.inr (.inl ⟨hpc, by simpa using h⟩))
  · cases h
  · next b hpc => exact .inr (.inr (.inr ⟨b, hpc, by simpa using h⟩))
  · cases h

/-- The sender blocks only at its wait. -/
theorem sender_blocked {s : State} (h : step s .sender = none) :
    s.sender = .waitCalculator ∧ s.senderToSignal = false := by
  simp only [step, stepSender] at h
  split at h
  · next hpc => exact ⟨hpc, by simpa using h⟩
  all_goals cases h

/-- Past its receive, the listener blocks at its wait, or where it would store a packet
that is no `PACK_OF_FLOATS`. -/
theorem listener_blocked {s : State} (h : step s .listener = none) :
    s.listener = .receive
      ∨ (∃ pack, s.listener = .waitCalculator pack ∧ s.listenerToSignal = false)
      ∨ ∃ pack, s.listener = .store pack ∧ copyOfPacket pack = none := by
  simp only [step, stepListener] at h
  split at h
  · next hpc => exact .inl hpc
  · next pack hpc => exact .inr (.inl ⟨pack, hpc, by simpa using h⟩)
  · next pack hpc =>
      exact .inr (.inr ⟨pack, hpc, by simpa [storeBatch, addToBatchStock, copyOfPacket] using h⟩)
  · cases h

/-- A listener at its receive accepts any well-formed datagram. -/
theorem receive_enabled {s : State} {d : Datagram} (hpc : s.listener = .receive)
    (hd : WellFormed d) : step s (.receive d) ≠ none := by
  obtain ⟨pack, hpack, -⟩ := hd.bytesToPack_recvfrom s.bufin
  simp [step, stepReceive, hpc, hpack]

/-! ## The counts of the client -/

/-- The replies that the call in progress still has to read. -/
@[simp] def CalculatorPc.awaiting : CalculatorPc → ℕ
  | .waitListener => 1
  | .getBatch => 1
  | _ => 0

variable {bufin : Buf} {as : List Action} {s : State}

/-- Each request handed over is answered by a reply read, or the call in progress awaits
it. -/
theorem requested_length {P : State → Action → Prop} (h : Run step P (init bufin) as s) :
    s.requested.length = s.read.length + s.calculator.awaiting := by
  induction h with
  | nil => rfl
  | snoc _ _ hstep ih => cases step_move hstep <;> simp_all

/-- The listener never holds anything but a `PACK_OF_FLOATS`. -/
theorem type_of_inHand (h : Run step WellFormedReceive (init bufin) as s) :
    ∀ pack ∈ s.listener.inHand, pack.type = .packOfFloats := by
  induction h with
  | nil =>
      intro pack hmem
      cases hmem
  | snoc _ hP hstep ih =>
      cases step_move hstep with
      | receive d pack hpc hpack =>
          obtain ⟨pack', hpack', htype, -⟩ := (hP d rfl).bytesToPack_recvfrom _
          obtain rfl : pack = pack' := Except.ok.inj (hpack.symm.trans hpack')
          simpa using htype
      | listenerWait pack hpc hflag => simpa [hpc] using ih
      | store pack copy hpc hcopy => simpa [hpc] using ih
      | listenerSignal pack hpc =>
          intro pack' hmem
          cases hmem
      | _ => exact ih

/-- **The client at a standstill.**  If no thread of the client can move but by a receive
while the calculator is inside `get_u`, then the listener is at its receive, the sender
has nothing in hand, and two requests more were sent than replies received. -/
theorem blocked_counts
    (h : Run step (fun _ a => ∀ d, a = .receive d → WellFormed d ∧ 4 ≤ (floatsOf d).length)
      (init bufin) as s)
    (hin : s.calculator ≠ .outside) (hcalc : step s .calculator = none)
    (hsend : step s .sender = none) (hlist : step s .listener = none) :
    s.listener = .receive ∧ s.sender = .waitCalculator
      ∧ s.emitted.length = s.received.length + 2 := by
  have hwf : Run step WellFormedReceive (init bufin) as s :=
    h.mono (fun _ _ hP d hd => (hP d hd).1)
  have hrequest := (inv_run h).request
  have hreply := (inv_run h).reply
  obtain ⟨hsender, hto⟩ := sender_blocked hsend
  have hconsumer : (requestChannel s).consumer = .idle := by simp [requestChannel, hsender]
  -- the calculator waits for the listener: nothing else can hold it up
  have hwait : s.calculator = .waitListener ∧ s.listenerFromSignal = false := by
    rcases calculator_blocked hcalc with hout | ⟨p, hpc, hflag⟩ | hwait | ⟨b, hpc, hlen⟩
    · exact absurd hout hin
    · refine absurd hconsumer (Handshake.not_stuck hrequest.tokens_eq hflag ?_ hto)
      simp [requestChannel, hpc]
    · exact hwait
    · have hb := length_of_cleanBatch h hpc
      omega
  obtain ⟨hpc, hfrom⟩ := hwait
  have hidle : (replyChannel s).consumer = .idle := by simp [replyChannel, hpc]
  -- the listener is at its receive: its wait would find the flag up
  have hlistener : s.listener = .receive := by
    rcases listener_blocked hlist with hrec | ⟨pack, hl, hflag⟩ | ⟨pack, hl, hcopy⟩
    · exact hrec
    · refine absurd hidle (Handshake.not_stuck hreply.tokens_eq hflag ?_ hfrom)
      simp [replyChannel, hl]
    · exact absurd hcopy (copyOfPacket_ne_none (type_of_inHand hwf pack (by simp [hl])))
  refine ⟨hlistener, hsender, ?_⟩
  -- both channels are drained, and the call in progress awaits one reply
  have hputs := congrArg List.length (hrequest.takes_eq_puts_of_idle hto hconsumer)
  have hreplied := congrArg List.length (hreply.takes_eq_puts_of_idle hfrom hidle)
  have hreceived := congrArg List.length (received_eq hwf)
  have hawait := requested_length h
  simp only [requestChannel, requests, List.length_cons, List.length_map, List.length_append,
    hsender, SenderPc.inHand, List.length_nil] at hputs
  simp only [replyChannel] at hreplied
  simp only [List.length_map, List.length_append, hlistener, ListenerPc.inHand,
    List.length_nil] at hreceived
  simp only [hpc, CalculatorPc.awaiting] at hawait
  omega

end Client

namespace Server

open Transition

variable {serverCalculations : List CFloat → List.Vector CFloat 4}

/-! ## Where the threads of the server block -/

/-- The calculator blocks only at its three waits. -/
theorem calculator_blocked {s : State} (h : step serverCalculations s .calculator = none) :
    (s.calculator = .waitFirst ∧ s.listenerSignal .first = false)
      ∨ (s.calculator = .waitSecond ∧ s.listenerSignal .second = false)
      ∨ (s.calculator = .waitForSender ∧ s.senderSignal = false) := by
  simp only [step, stepCalculator] at h
  split at h
  · next hpc => exact .inl ⟨hpc, by simpa using h⟩
  · next hpc => exact .inr (.inl ⟨hpc, by simpa using h⟩)
  · cases h
  · cases h
  · cases h
  · cases h
  · cases h
  · simp [addToCalculationsStock] at h
  · next hpc => exact .inr (.inr ⟨hpc, by simpa using h⟩)
  · cases h

/-- The sender blocks only at its wait. -/
theorem sender_blocked {s : State} (h : step serverCalculations s .sender = none) :
    s.sender = .waitForCalculator ∧ s.calcToSenderSignal = false := by
  simp only [step, stepSender] at h
  split at h
  · next hpc => exact ⟨hpc, by simpa using h⟩
  all_goals cases h

/-- Past its receive, a listener blocks at its wait, or where it would store a packet
that is no `PACK_OF_FLOATS`. -/
theorem listener_blocked {s : State} {l : ListenerType}
    (h : step serverCalculations s (.listener l) = none) :
    s.listener l = .receive
      ∨ (∃ pack, s.listener l = .waitUntilCalcReads pack ∧ s.calcSignalToListener l = false)
      ∨ ∃ pack, s.listener l = .store pack ∧ copyOfPacket pack = none := by
  simp only [step, stepListener] at h
  split at h
  · next hpc => exact .inl hpc
  · next pack hpc => exact .inr (.inl ⟨pack, hpc, by simpa using h⟩)
  · next pack hpc =>
      refine .inr (.inr ⟨pack, hpc, ?_⟩)
      cases l <;>
        simpa [storeBatch, addFirstStockToBatch, addSecondStockToBatch, copyOfPacket] using h
  · cases h

/-- A listener at its receive accepts any well-formed datagram. -/
theorem receive_enabled {s : State} {l : ListenerType} {d : Datagram}
    (hpc : s.listener l = .receive) (hd : WellFormed d) :
    step serverCalculations s (.receive l d) ≠ none := by
  obtain ⟨pack, hpack, -⟩ := hd.bytesToPack_recvfrom (s.bufin l)
  simp [step, stepReceive, hpc, hpack]

/-! ## The counts of the server -/

variable {bufin : ListenerType → Buf} {as : List Action} {s : State}

/-- A listener at a standstill whose calculator waits for it is at its receive, and every
datagram received on its port was computed on. -/
theorem listener_drained
    (h : Run (step serverCalculations) WellFormedReceive (init bufin) as s) (l : ListenerType)
    (hlist : step serverCalculations s (.listener l) = none)
    (hflag : s.listenerSignal l = false) (hidle : s.calculator.consumer l = .idle)
    (hhand : s.calculator.inHand l = []) :
    s.listener l = .receive ∧ (s.received l).length = s.computed.length := by
  have hhalf := (inv_run h).half l
  have hlistener : s.listener l = .receive := by
    rcases listener_blocked hlist with hrec | ⟨pack, hl, hcalc⟩ | ⟨pack, hl, hcopy⟩
    · exact hrec
    · refine absurd hidle (Handshake.not_stuck hhalf.tokens_eq hcalc ?_ hflag)
      simp [halfChannel, hl]
    · exact absurd hcopy (copyOfPacket_ne_none (type_of_inHand h l pack (by simp [hl])))
  have hputs := congrArg List.length (hhalf.takes_eq_puts_of_idle hflag hidle)
  have hreceived := congrArg List.length (received_eq h l)
  have hread := congrArg List.length (read_eq h l)
  simp only [halfChannel] at hputs
  simp only [List.length_map, List.length_append, hlistener, ListenerPc.inHand,
    List.length_nil] at hreceived
  simp only [List.length_map, List.length_append, hhand, List.length_nil] at hread
  exact ⟨hlistener, by omega⟩

/-- **The server at a standstill.**  If no thread of the server can move but by a receive,
then the listener of some port is at its receive and has received as many requests as
replies were sent. -/
theorem blocked_counts
    (h : Run (step serverCalculations) WellFormedReceive (init bufin) as s)
    (hcalc : step serverCalculations s .calculator = none)
    (hsend : step serverCalculations s .sender = none)
    (hlist : ∀ l, step serverCalculations s (.listener l) = none) :
    ∃ l, s.listener l = .receive ∧ (s.received l).length = s.sent.length := by
  have hresult := (inv_run h).result
  obtain ⟨hsender, hto⟩ := sender_blocked hsend
  have hconsumer : (resultChannel s).consumer = .idle := by simp [resultChannel, hsender]
  have hputs := hresult.length_puts
  have hresults := congrArg List.length (results_eq h)
  rw [Handshake.not_live_of_idle hto hconsumer] at hputs
  simp only [resultChannel, List.length_append, hsender, SenderPc.inHand, List.length_nil,
    Bool.toNat_false, Nat.add_zero] at hputs
  rw [results, List.length_map, List.length_append, hputs] at hresults
  rcases calculator_blocked hcalc with ⟨hpc, hflag⟩ | ⟨hpc, hflag⟩ | ⟨hpc, hflag⟩
  · obtain ⟨hlistener, hlen⟩ := listener_drained h .first (hlist .first) hflag
      (by simp [hpc]) (by simp [hpc])
    rw [hpc, List.length_nil] at hresults
    exact ⟨.first, hlistener, by omega⟩
  · obtain ⟨hlistener, hlen⟩ := listener_drained h .second (hlist .second) hflag
      (by simp [hpc]) (by simp [hpc])
    rw [hpc, List.length_nil] at hresults
    exact ⟨.second, hlistener, by omega⟩
  · -- the sender is idle and was handed nothing: its flag would be up
    refine absurd hconsumer (Handshake.not_stuck hresult.tokens_eq hflag ?_ hto)
    simp [resultChannel, hpc]

end Server

namespace ClosedLoop

open Transition
open Server (ListenerType)

variable {serverCalculations : List CFloat → List.Vector CFloat 4}
  {clientBuf : Buf} {serverBuf : ListenerType → Buf} {as : List Action} {s : State}

/-- No thread can take a step, by a receive or otherwise. -/
def Standstill (serverCalculations : List CFloat → List.Vector CFloat 4) (s : State) : Prop :=
  ∀ a : Action, a.IsThreadStep → step serverCalculations s a = none

/-- At a standstill nothing is in flight to a listener that is at its receive. -/
theorem Standstill.requests_eq_nil (hs : Standstill serverCalculations s)
    {P : State → Action → Prop}
    (h : Run (step serverCalculations) P (init clientBuf serverBuf) as s) {l : ListenerType}
    (hpc : s.server.listener l = .receive) : s.requests l = [] := by
  rw [List.eq_nil_iff_forall_not_mem]
  intro x hx
  obtain ⟨i, hi⟩ := List.mem_iff_getElem?.mp hx
  have hnone := hs (.deliverRequest l i) trivial
  simp only [step, hi, Option.bind_some, Option.map_eq_none_iff] at hnone
  exact Server.receive_enabled hpc
    (wellFormed_request h ((requestLink_sound h l).sent_of_inFlight hx)).1 hnone

/-- At a standstill nothing is in flight to the client when its listener is at its
receive. -/
theorem Standstill.replies_eq_nil (hs : Standstill serverCalculations s)
    {P : State → Action → Prop}
    (h : Run (step serverCalculations) P (init clientBuf serverBuf) as s)
    (hpc : s.client.listener = .receive) : s.replies = [] := by
  rw [List.eq_nil_iff_forall_not_mem]
  intro d hd
  obtain ⟨i, hi⟩ := List.mem_iff_getElem?.mp hd
  have hnone := hs (.deliverReply i) trivial
  simp only [step, hi, Option.bind_some, Option.map_eq_none_iff] at hnone
  exact Client.receive_enabled hpc
    (wellFormed_reply h ((replyLink_sound h).sent_of_inFlight hd)).1 hnone

/-- **The exchange never wedges.**  In every state that the closed loop reaches over a
network that drops nothing, some thread can take a step as long as the client's
calculator is inside a `get_u` call. -/
theorem exchange_never_wedges
    (h : Run (step serverCalculations) (fun _ a => a.Lossless) (init clientBuf serverBuf) as s)
    (hin : s.client.calculator ≠ .outside) :
    ∃ a : Action, a.IsThreadStep ∧ (step serverCalculations s a).isSome := by
  -- at a standstill the counts of client, server and network contradict each other
  by_contra hno
  have hs : Standstill serverCalculations s := by
    intro a ha
    by_contra hsome
    exact hno ⟨a, ha, Option.isSome_iff_ne_none.mpr hsome⟩
  have hlossless : ∀ (s : State) (a : Action), a.Lossless → a.Lossless := fun _ _ ha => ha
  obtain ⟨bs, hclient⟩ := client_run_wf h
  obtain ⟨bs', hserver⟩ := server_run_wf h
  obtain ⟨hlistener, hsender, hemitted⟩ := Client.blocked_counts hclient hin
    (Option.map_eq_none_iff.mp (hs .clientCalculator trivial))
    (Option.map_eq_none_iff.mp (hs .clientSender trivial))
    (Option.map_eq_none_iff.mp (hs .clientListener trivial))
  obtain ⟨l, hl, hreceived⟩ := Server.blocked_counts hserver
    (Option.map_eq_none_iff.mp (hs .serverCalculator trivial))
    (Option.map_eq_none_iff.mp (hs .serverSender trivial))
    (fun l => Option.map_eq_none_iff.mp (hs (.serverListener l) trivial))
  have hrequests := (requestLink_conserving hlossless h l).length_sent (hs.requests_eq_nil h hl)
  have hreplies := (replyLink_conserving hlossless h).length_sent
    (hs.replies_eq_nil h hlistener)
  have hdelivered := congrArg List.length (delivered_eq h l)
  have hbatches : (batchesSent s.client l).length = s.client.emitted.length := by
    cases l <;> simp [batchesSent, hsender]
  simp only [requestLink, tagged, List.length_mapIdx, hbatches] at hrequests
  simp only [replyLink, List.length_map] at hreplies
  rw [List.length_map] at hdelivered
  omega

/-- The first request is handed over while the sender still holds the zero batches, and
the calculator waits for the reply. -/
def waitingSchedule : List Action :=
  List.replicate 4 .clientSender
    ++ .getU (List.Vector.replicate 13 1) :: List.replicate 4 .clientCalculator

/-- Then another thread can move: the sender has two datagrams to send. -/
theorem exchange_never_wedges_waiting :
    ∃ s, Run (step fun _ => List.Vector.replicate 4 0) (fun _ a => a.Lossless)
        (init (fun _ => 0) fun _ _ => 0) waitingSchedule s
      ∧ s.client.calculator = .waitListener
      ∧ ∃ a : Action, a.IsThreadStep
          ∧ (step (fun _ => List.Vector.replicate 4 0) s a).isSome := by
  have hrun : run (step fun _ => List.Vector.replicate 4 0) (init (fun _ => 0) fun _ _ => 0)
      waitingSchedule = some _ := rfl
  have h := Run.of_run (P := fun _ a => a.Lossless) hrun
    (fun _ a ha => Action.InOrder.lossless ((by decide : ∀ a ∈ waitingSchedule, a.InOrder) a ha))
  exact ⟨_, h, rfl, exchange_never_wedges h (by rintro ⟨⟩)⟩

end ClosedLoop
