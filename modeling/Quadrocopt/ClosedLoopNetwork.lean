/-
# The sockets of the closed loop

Each request port, and the client's port, seen as a link: what was sent is read off
the sending program's history, what was delivered off the receiving program's.  The
laws of the link then say what a datagram in flight or delivered can be.

* On a request port: the half, on that port, of a round that the client's sender has
  fetched (`request_of_sent`), six or seven floats long.
* On the client's port: four floats that the server's sender has read.

So every datagram is well-formed, whatever the network does, and the programs inside
the loop run under the hypotheses of the results about them alone (`client_run_wf`,
`server_run_wf`).
-/
import Quadrocopt.ClosedLoop
import Quadrocopt.Link

namespace ClosedLoop

open Transition
open Server (ListenerType ofListener)

/-! ## What was sent -/

/-- The rounds of the client's sender that have fetched their batches. -/
def rounds (s : State) : List (List CFloat × List CFloat) :=
  s.client.emitted ++ s.client.sender.inHand

/-- The batches the client has sent to a port, one for each round. -/
def batchesSent (c : Client.State) : ListenerType → List (List CFloat)
  | .first => c.emitted.map Prod.fst ++ (match c.sender with
      | .sendSecond firstBatch _ => [firstBatch]
      | _ => [])
  | .second => c.emitted.map Prod.snd

/-- The datagrams that carry these batches, tagged with their rounds. -/
def tagged (batches : List (List CFloat)) : List (ℕ × Datagram) :=
  batches.mapIdx fun r batch => (r, datagramOf batch)

/-- The socket of a request port. -/
def requestLink (l : ListenerType) (s : State) : Link (ℕ × Datagram) where
  sent := tagged (batchesSent s.client l)
  inFlight := s.requests l
  delivered := s.delivered l

/-- The socket of the client. -/
def replyLink (s : State) : Link Datagram where
  sent := s.server.sent.map datagramOf
  inFlight := s.replies
  delivered := s.client.received

/-- The operations of a link that a step of the loop may amount to. -/
def Action.Allows {α : Type*} (a : Action) (op : Link.Op α) : Prop :=
  (a.Lossless → op.Keeps) ∧ (a.InOrder → op.Oldest)

/-- A send is always allowed. -/
theorem Action.allows_send {α : Type*} (a : Action) (x : α) : a.Allows (Link.Op.send x) := by
  constructor
  · intro _
    trivial
  · intro _
    trivial

/-! ## The steps on the sockets -/

/-- At most one datagram is sent to a port in one step. -/
theorem sentRequests_cases (c : Client.State) (l : ListenerType) :
    sentRequests c l = [] ∨ ∃ x, sentRequests c l = [x] := by
  unfold sentRequests
  split
  · exact .inr ⟨_, rfl⟩
  · exact .inr ⟨_, rfl⟩
  · exact .inl rfl

/-- A step of the client's sender sends what the loop puts in flight. -/
theorem tagged_sender {c c' : Client.State} (h : Client.step c .sender = some c')
    (l : ListenerType) :
    tagged (batchesSent c' l) = tagged (batchesSent c l) ++ sentRequests c l := by
  -- between its two sends the sender is one batch ahead on the first port
  cases Client.step_move h with
  | sendFirst firstBatch secondBatch hpc =>
      cases l <;> simp [tagged, batchesSent, sentRequests, hpc]
  | sendSecond firstBatch secondBatch hpc =>
      cases l <;> simp [tagged, batchesSent, sentRequests, hpc]
  | waitCalculator hpc hflag => cases l <;> simp [batchesSent, sentRequests, hpc]
  | fetchFirst hpc => cases l <;> simp [batchesSent, sentRequests, hpc]
  | fetchSecond firstBatch hpc => cases l <;> simp [batchesSent, sentRequests, hpc]
  | signalReady firstBatch secondBatch hpc => cases l <;> simp [batchesSent, sentRequests, hpc]

/-- The other steps of the client send nothing. -/
theorem batchesSent_frame {c c' : Client.State} {b : Client.Action}
    (h : Client.step c b = some c') (hb : b ≠ .sender) : batchesSent c' = batchesSent c := by
  obtain ⟨hsender, hemitted⟩ := (Client.step_move h).sender_frame hb
  funext l
  cases l <;> simp [batchesSent, hsender, hemitted]

section Steps

variable {serverCalculations : List CFloat → List.Vector CFloat 4}

/-- A step of the server's sender sends what the loop puts in flight. -/
theorem sent_sender {sv sv' : Server.State}
    (h : Server.step serverCalculations sv .sender = some sv') :
    sv'.sent.map datagramOf = sv.sent.map datagramOf ++ sentReplies sv := by
  cases Server.step_move h with
  | waitForCalculator hpc hflag => simp [sentReplies, hpc]
  | readCalcs hpc => simp [sentReplies, hpc]
  | send calcs hpc => simp [sentReplies, hpc]
  | signalReady hpc => simp [sentReplies, hpc]

/-- **The request ports.**  Every step of the loop is an operation of the link, or none
of its business. -/
theorem requestLink_moves {s s' : State} {a : Action} (hm : Move serverCalculations s a s')
    (l : ListenerType) : Link.Moves a.Allows (requestLink l s) (requestLink l s') := by
  cases hm with
  | client b hb hc =>
      -- only the sender sends
      have hsent := batchesSent_frame hc (client_action_ne hb).1
      exact .inl (by simp [requestLink, hsent])
  | clientSender hc =>
      -- a send on this port, on the other one, or none at all
      rcases sentRequests_cases s.client l with hnil | ⟨x, hx⟩
      · exact .inl (by simp [requestLink, tagged_sender hc, hnil])
      · refine .inr ⟨.send x, Action.allows_send _ x, ?_⟩
        simp [Link.step, requestLink, tagged_sender hc, hx]
  | deliverRequest l' i x hi hsv =>
      by_cases hl : l = l'
      · subst hl
        refine .inr ⟨.deliver i, ⟨fun _ => trivial, fun hin => hin⟩, ?_⟩
        simp [Link.step, requestLink, hi]
      · exact .inl (by simp [requestLink, hl])
  | dropRequest l' i x hi =>
      by_cases hl : l = l'
      · subst hl
        refine .inr ⟨.drop i, ⟨fun h => h, fun h => h⟩, ?_⟩
        simp [Link.step, requestLink, hi]
      · exact .inl (by simp [requestLink, hl])
  | deliverReply i d hi hc =>
      exact .inl (by simp [requestLink, batchesSent_frame hc])
  | _ => exact .inl rfl

/-- **The client's port.**  Every step of the loop is an operation of the link, or none
of its business. -/
theorem replyLink_moves {s s' : State} {a : Action} (hm : Move serverCalculations s a s') :
    Link.Moves a.Allows (replyLink s) (replyLink s') := by
  cases hm with
  | client b hb hc =>
      have hreceived := (Client.step_move hc).received_frame (client_action_ne hb).2
      exact .inl (by simp [replyLink, hreceived])
  | clientSender hc =>
      have hreceived := (Client.step_move hc).received_frame (by simp)
      exact .inl (by simp [replyLink, hreceived])
  | server b hb hsv =>
      have hsent := (Server.step_move hsv).sent_frame (server_action_ne hb).1
      exact .inl (by simp [replyLink, hsent])
  | serverSender hsv =>
      have hsent := sent_sender hsv
      cases hpc : s.server.sender with
      | send calcs =>
          refine .inr ⟨.send (datagramOf calcs), Action.allows_send _ _, ?_⟩
          simp [Link.step, replyLink, hsent, sentReplies, hpc]
      | _ => exact .inl (by simp [replyLink, hsent, sentReplies, hpc])
  | deliverRequest l i x hi hsv =>
      have hsent := (Server.step_move hsv).sent_frame (by simp)
      exact .inl (by simp [replyLink, hsent])
  | deliverReply i d hi hc =>
      refine .inr ⟨.deliver i, ⟨fun _ => trivial, fun hin => hin⟩, ?_⟩
      cases Client.step_move hc
      simp [Link.step, replyLink, hi]
  | dropRequest l i x hi => exact .inl rfl
  | dropReply i d hi =>
      refine .inr ⟨.drop i, ⟨fun h => h, fun h => h⟩, ?_⟩
      simp [Link.step, replyLink, hi]

/-! ## The laws of the sockets -/

variable {P : State → Action → Prop} {clientBuf : Buf} {serverBuf : ListenerType → Buf}
  {as : List Action} {s : State}

theorem requestLink_sound (h : Run (step serverCalculations) P (init clientBuf serverBuf) as s)
    (l : ListenerType) : (requestLink l s).Sound := by
  apply h.invariant (I := fun s => (requestLink l s).Sound)
  · cases l <;> exact List.Subperm.refl _
  · intro s a s' hl _ hstep
    exact hl.moves (requestLink_moves (step_move hstep) l)

theorem replyLink_sound (h : Run (step serverCalculations) P (init clientBuf serverBuf) as s) :
    (replyLink s).Sound := by
  apply h.invariant (I := fun s => (replyLink s).Sound)
  · exact List.Subperm.refl _
  · intro s a s' hl _ hstep
    exact hl.moves (replyLink_moves (step_move hstep))

theorem requestLink_conserving (hP : ∀ s a, P s a → a.Lossless)
    (h : Run (step serverCalculations) P (init clientBuf serverBuf) as s)
    (l : ListenerType) : (requestLink l s).Conserving := by
  apply h.invariant (I := fun s => (requestLink l s).Conserving)
  · cases l <;> exact List.Perm.refl _
  · intro s a s' hl ha hstep
    apply hl.moves _ (requestLink_moves (step_move hstep) l)
    intro op hop
    exact hop.1 (hP s a ha)

theorem replyLink_conserving (hP : ∀ s a, P s a → a.Lossless)
    (h : Run (step serverCalculations) P (init clientBuf serverBuf) as s) :
    (replyLink s).Conserving := by
  apply h.invariant (I := fun s => (replyLink s).Conserving)
  · exact List.Perm.refl _
  · intro s a s' hl ha hstep
    apply hl.moves _ (replyLink_moves (step_move hstep))
    intro op hop
    exact hop.1 (hP s a ha)

theorem requestLink_ordered (hP : ∀ s a, P s a → a.InOrder)
    (h : Run (step serverCalculations) P (init clientBuf serverBuf) as s)
    (l : ListenerType) : (requestLink l s).Ordered := by
  apply h.invariant (I := fun s => (requestLink l s).Ordered)
  · cases l <;> rfl
  · intro s a s' hl ha hstep
    apply hl.moves _ (requestLink_moves (step_move hstep) l)
    intro op hop
    exact hop.2 (hP s a ha)

theorem replyLink_ordered (hP : ∀ s a, P s a → a.InOrder)
    (h : Run (step serverCalculations) P (init clientBuf serverBuf) as s) :
    (replyLink s).Ordered := by
  apply h.invariant (I := fun s => (replyLink s).Ordered)
  · rfl
  · intro s a s' hl ha hstep
    apply hl.moves _ (replyLink_moves (step_move hstep))
    intro op hop
    exact hop.2 (hP s a ha)

/-- The requests delivered are the datagrams the server's history records. -/
theorem delivered_eq (h : Run (step serverCalculations) P (init clientBuf serverBuf) as s)
    (l : ListenerType) : (s.delivered l).map Prod.snd = s.server.received l := by
  apply h.invariant (I := fun s => (s.delivered l).map Prod.snd = s.server.received l) rfl
  intro s a s' heq _ hstep
  cases step_move hstep with
  | server b hb hsv =>
      have hreceived := (Server.step_move hsv).received_frame (server_action_ne hb).2
      simpa [hreceived] using heq
  | serverSender hsv =>
      have hreceived := (Server.step_move hsv).received_frame (by simp)
      simpa [hreceived] using heq
  | deliverRequest l' i x hi hsv =>
      cases Server.step_move hsv
      by_cases hl : l = l'
      · subst hl
        simp [heq]
      · simp [hl, heq]
  | _ => exact heq

/-! ## What a datagram can be -/

/-- The batches sent to a port are the halves, on that port, of the first rounds. -/
theorem batchesSent_prefix_rounds (s : State) (l : ListenerType) :
    batchesSent s.client l <+: (rounds s).map (ofListener l) := by
  rw [rounds, List.map_append]
  cases l with
  | first =>
      refine (List.prefix_append_right_inj _).mpr ?_
      cases s.client.sender <;> simp [ofListener]
  | second => exact List.prefix_append _ _

/-- A request that was sent carries the half of the round it is tagged with. -/
theorem request_of_sent {l : ListenerType} {x : ℕ × Datagram} (hx : x ∈ (requestLink l s).sent) :
    ∃ p, (rounds s)[x.1]? = some p ∧ x.2 = datagramOf (ofListener l p) := by
  obtain ⟨r, hr, rfl⟩ := List.mem_mapIdx.mp hx
  have hget := (batchesSent_prefix_rounds s l).getElem hr
  rw [List.getElem_map] at hget
  exact ⟨_, List.getElem?_eq_getElem _, by rw [hget]⟩

/-- The halves of a round hold six and seven floats. -/
theorem length_of_mem_rounds
    (h : Run (step serverCalculations) P (init clientBuf serverBuf) as s)
    {p : List CFloat × List CFloat} (hp : p ∈ rounds s) (l : ListenerType) :
    (ofListener l p).length ≤ 7 := by
  obtain ⟨bs, hrun⟩ := client_run (Q := Any) (fun _ _ _ _ _ => trivial)
    (fun _ _ _ => trivial) h
  obtain ⟨payload, -, rfl⟩ :=
    List.mem_map.mp ((Client.emitted_prefix_requests hrun).subset hp)
  cases l with
  | first => exact (Client.length_firstHalf payload).trans_le (by decide)
  | second => exact (Client.length_secondHalf payload).le

/-- A request that was sent is well-formed and carries its half. -/
theorem wellFormed_request (h : Run (step serverCalculations) P (init clientBuf serverBuf) as s)
    {l : ListenerType} {x : ℕ × Datagram} (hx : x ∈ (requestLink l s).sent) :
    WellFormed x.2 ∧ ∃ p, (rounds s)[x.1]? = some p ∧ floatsOf x.2 = ofListener l p := by
  obtain ⟨p, hp, hd⟩ := request_of_sent hx
  have hlen := length_of_mem_rounds h (List.mem_of_getElem? hp) l
  have hmax : 8 + 4 * 7 ≤ MAXBUF := by decide
  rw [hd]
  exact ⟨wellFormed_datagramOf _ (by omega), p, hp, floatsOf_datagramOf _ (by omega)⟩

/-- A reply that was sent is well-formed and carries four floats that the server's
sender has read. -/
theorem wellFormed_reply (h : Run (step serverCalculations) P (init clientBuf serverBuf) as s)
    {d : Datagram} (hd : d ∈ (replyLink s).sent) : WellFormed d ∧ (floatsOf d).length = 4 := by
  obtain ⟨calcs, hcalcs, rfl⟩ := List.mem_map.mp hd
  obtain ⟨bs, hrun⟩ := server_run (Q := Any) (fun _ _ _ _ _ _ => trivial)
    (fun _ _ _ _ _ _ _ _ => trivial) h
  have hlen := Server.length_of_mem_sent hrun calcs (List.mem_append_left _ hcalcs)
  have hmax : 8 + 4 * 4 ≤ MAXBUF := by decide
  rw [floatsOf_datagramOf calcs (by omega)]
  exact ⟨wellFormed_datagramOf calcs (by omega), hlen⟩

/-! ## The programs inside the loop, under the hypotheses of their own results -/

/-- The client of the loop receives well-formed replies of at least four floats. -/
theorem client_run_wf (h : Run (step serverCalculations) P (init clientBuf serverBuf) as s) :
    ∃ bs, Run Client.step
      (fun _ a => ∀ d, a = .receive d → WellFormed d ∧ 4 ≤ (floatsOf d).length)
      (Client.init clientBuf) bs s.client := by
  apply client_run _ _ h
  · intro as s d hrun hd d' hd'
    obtain rfl : d = d' := Client.Action.receive.inj hd'
    obtain ⟨hwf, hlen⟩ := wellFormed_reply hrun ((replyLink_sound hrun).sent_of_inFlight hd)
    exact ⟨hwf, hlen.ge⟩
  · intro c b hb d hd
    exact absurd hd (hb d)

/-- The server of the loop receives well-formed requests. -/
theorem server_run_wf (h : Run (step serverCalculations) P (init clientBuf serverBuf) as s) :
    ∃ bs, Run (Server.step serverCalculations) Server.WellFormedReceive
      (Server.init serverBuf) bs s.server := by
  apply server_run _ _ h
  · intro as s l x hrun hx l' d hd
    obtain ⟨rfl, rfl⟩ := Server.Action.receive.inj hd
    exact (wellFormed_request hrun ((requestLink_sound hrun l).sent_of_inFlight hx)).1
  · intro as s a b _ _ _ hb l d hd
    exact absurd hd (hb l d)

end Steps

end ClosedLoop
