/-
# How many requests are outstanding

The stocks of the server hold one request and its sender one result: what keeps the
traffic within bounds is the composition of the two programs.  The client's sender is
one request ahead of `get_u` because of the stock that `fill_sender_stock` fills, `get_u`
waits for a reply before it returns, and the server answers each pair once.

In numbers (`at_most_two_outstanding`): between the requests whose first half is sent and
the replies that `get_u` has read there are at most two, and the server never sends more
replies than it was sent requests.  The first bound is the client's alone; the others
follow a reply back through the sockets and the two programs, one inequality at a time.
Nothing of this needs the network to be reliable, only that it duplicates nothing.
-/
import Quadrocopt.Progress

open Transition
open Server (ListenerType ofListener)

/-! ## The two ends -/

namespace Client

variable {P : State → Action → Prop} {bufin : Buf} {as : List Action} {s : State}

/-- The rounds of the sender are at most one ahead of the requests handed over: the first
one fetches the stock that was filled at the start. -/
theorem rounds_le_requested (h : Run step P (init bufin) as s) :
    s.emitted.length + s.sender.inHand.length ≤ s.requested.length + 1 := by
  have hlaw := (inv_run h).request.takes_prefix_puts.length_le
  simpa [requestChannel, requests] using hlaw

/-- The requests handed over are answered by the calls that have returned, but for the one
of the call in progress, whose reply may be read already. -/
theorem requested_le_returned (h : Run step P (init bufin) as s) :
    s.requested.length ≤ s.returned.length + 1 ∧ s.returned.length ≤ s.read.length := by
  have hlen := congrArg List.length (read_eq h)
  rw [List.length_map, List.length_append] at hlen
  have hrequested := requested_length h
  have hcall : s.calculator.result.length + s.calculator.awaiting ≤ 1 := by
    cases s.calculator <;> simp
  constructor
  · omega
  · omega

/-- A reply is read after it was received. -/
theorem read_le_received
    (h : Run step (fun _ a => ∀ d, a = .receive d → WellFormed d ∧ 4 ≤ (floatsOf d).length)
      (init bufin) as s) : s.read.length ≤ s.received.length := by
  have hwf : Run step WellFormedReceive (init bufin) as s :=
    h.mono (fun _ _ hP d hd => (hP d hd).1)
  have hread : s.read.length ≤ s.replied.length :=
    (inv_run h).reply.takes_prefix_puts.length_le
  have hreceived := congrArg List.length (received_eq hwf)
  rw [List.length_map, List.length_append] at hreceived
  omega

end Client

namespace Server

variable {serverCalculations : List CFloat → List.Vector CFloat 4}
  {bufin : ListenerType → Buf} {as : List Action} {s : State}

/-- The server's side: what is sent was computed, one result for each pair of requests,
even where a result is sent twice. -/
theorem sent_le_received
    (h : Run (step serverCalculations) WellFormedReceive (init bufin) as s) (l : ListenerType) :
    s.sent.length ≤ (s.received l).length := by
  have hputs := (inv_run h).result.length_puts
  have hresults := congrArg List.length (results_eq h)
  have hcomputed := (computed_prefix_received h l).length_le
  simp only [resultChannel, List.length_append] at hputs
  rw [results, List.length_map, List.length_append] at hresults
  rw [List.length_map, List.length_map] at hcomputed
  omega

end Server

/-! ## Around the loop -/

namespace ClosedLoop

variable {serverCalculations : List CFloat → List.Vector CFloat 4} {P : State → Action → Prop}
  {clientBuf : Buf} {serverBuf : ListenerType → Buf} {as : List Action} {s : State}

/-- What is read comes from what the server has sent. -/
theorem read_le_sent (h : Run (step serverCalculations) P (init clientBuf serverBuf) as s) :
    s.client.read.length ≤ s.server.sent.length := by
  obtain ⟨bs, hclient⟩ := client_run_wf h
  have hread := Client.read_le_received hclient
  have hlink := (replyLink_sound h).length_le
  simp only [replyLink, List.length_append, List.length_map] at hlink
  omega

/-- What the server sends answers what the client has sent to either port. -/
theorem sent_le_batchesSent
    (h : Run (step serverCalculations) P (init clientBuf serverBuf) as s) (l : ListenerType) :
    s.server.sent.length ≤ (batchesSent s.client l).length := by
  obtain ⟨bs, hserver⟩ := server_run_wf h
  have hsent := Server.sent_le_received hserver l
  have hlink := (requestLink_sound h l).length_le
  have hdelivered := congrArg List.length (delivered_eq h l)
  rw [List.length_map] at hdelivered
  simp only [requestLink, tagged, List.length_append, List.length_mapIdx] at hlink
  omega

/-- The first halves sent are those of the rounds sent, and perhaps of the round in
hand. -/
theorem batchesSent_le_rounds (c : Client.State) (l : ListenerType) :
    (batchesSent c l).length ≤ c.emitted.length + c.sender.inHand.length := by
  cases l with
  | first =>
      rw [batchesSent, List.length_append, List.length_map]
      cases c.sender <;> simp
  | second =>
      rw [batchesSent, List.length_map]
      exact Nat.le_add_right _ _

/-- **At most two requests are outstanding.**  In every state that the closed loop reaches,
whatever the interleaving: the requests whose first half is handed to `sendto` are as many
as the replies consumed in `get_u`, or one more, or two more, be it counted when the reply
is read or when the call returns; and the replies that the server has sent are at most as
many as the requests fully sent. -/
theorem at_most_two_outstanding
    (h : Run (step serverCalculations) (fun _ a => a.InOrder) (init clientBuf serverBuf) as s) :
    (s.client.read.length ≤ (batchesSent s.client .first).length
        ∧ (batchesSent s.client .first).length ≤ s.client.read.length + 2)
      ∧ (s.client.returned.length ≤ (batchesSent s.client .first).length
        ∧ (batchesSent s.client .first).length ≤ s.client.returned.length + 2)
      ∧ s.server.sent.length ≤ s.client.emitted.length := by
  obtain ⟨bs, hclient⟩ := client_run_wf h
  obtain ⟨hrequested, hreturned⟩ := Client.requested_le_returned hclient
  have hread := read_le_sent h
  have hsent := sent_le_batchesSent h
  have hahead := (batchesSent_le_rounds s.client .first).trans
    (Client.rounds_le_requested hclient)
  have hsecond := hsent .second
  rw [batchesSent, List.length_map] at hsecond
  refine ⟨⟨?_, ?_⟩, ⟨?_, ?_⟩, hsecond⟩
  · exact hread.trans (hsent .first)
  · omega
  · exact (hreturned.trans hread).trans (hsent .first)
  · omega

/-- The client before the first reply: two rounds are sent, none is answered. -/
def aheadSchedule : List Action :=
  List.replicate 4 .clientSender
    ++ .getU (List.Vector.replicate 13 1) :: List.replicate 4 .clientCalculator
    ++ List.replicate 8 .clientSender

/-- Then two requests are outstanding. -/
theorem at_most_two_outstanding_two :
    ∃ s, Run (step fun _ => List.Vector.replicate 4 0) (fun _ a => a.InOrder)
        (init (fun _ => 0) fun _ _ => 0) aheadSchedule s
      ∧ (batchesSent s.client .first).length = 2
      ∧ (batchesSent s.client .first).length ≤ s.client.read.length + 2 := by
  obtain ⟨s, hrun, hobs⟩ := Option.map_eq_some_iff.mp (by decide +kernel :
    (run (step fun _ => List.Vector.replicate 4 0) (init (fun _ => 0) fun _ _ => 0)
      aheadSchedule).map (fun s => (batchesSent s.client .first).length) = some 2)
  have h := Run.of_run (P := fun _ a => a.InOrder) hrun
    (fun _ a ha => (by decide : ∀ a ∈ aheadSchedule, a.InOrder) a ha)
  exact ⟨s, h, hobs, (at_most_two_outstanding h).1.2⟩

end ClosedLoop
