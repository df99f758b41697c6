/-
# Which request a result belongs to

* `halves_of_computation`: a computation combines the halves whose datagrams were
  delivered in its position on the two ports.  The datagrams carry nothing that ties
  the halves together: they belong to one request when the network delivered them in
  step, which it does if it drops nothing and keeps the order on each socket.
* `returned_for_previous_payload`: the initial stock of the sender is a request too,
  so under the same discipline `get_u` returns the result for the payload of the call
  before, the first call the one for the zero payload.  This leaves out the runs in
  which `calculate_res` overwrites a result that was not sent.
-/
import Quadrocopt.ClosedLoopNetwork

namespace ClosedLoop

open Transition
open Server (ListenerType ofListener)

section Steps

variable {serverCalculations : List CFloat → List.Vector CFloat 4}
  {P : State → Action → Prop} {clientBuf : Buf} {serverBuf : ListenerType → Buf}
  {as : List Action} {s : State}

/-! ## The halves of a computation -/

/-- On each port, the half that the `n`-th computation uses belongs to the round of the
`n`-th request delivered. -/
theorem half_of_computation
    (h : Run (step serverCalculations) P (init clientBuf serverBuf) as s) (l : ListenerType)
    {n : ℕ} {p : List CFloat × List CFloat} (hp : s.server.computed[n]? = some p) :
    ∃ x q, (s.delivered l)[n]? = some x ∧ (rounds s)[x.1]? = some q
      ∧ ofListener l p = ofListener l q := by
  obtain ⟨bs, hrun⟩ := server_run_wf h
  have hpre := Server.computed_prefix_received hrun l
  rw [← delivered_eq h l, List.map_map] at hpre
  obtain ⟨hn, rfl⟩ := List.getElem?_eq_some_iff.mp hp
  have hget := List.prefix_iff_getElem?.mp hpre n (by rw [List.length_map]; exact hn)
  rw [List.getElem?_map, List.getElem_map, Option.map_eq_some_iff] at hget
  obtain ⟨x, hx, hfloats⟩ := hget
  obtain ⟨-, q, hq, hhalf⟩ := wellFormed_request h
    ((requestLink_sound h l).sent_of_delivered (List.mem_of_getElem? hx))
  exact ⟨x, q, hx, hq, hfloats.symm.trans hhalf⟩

/-- In order, the `n`-th request delivered on a port is that of round `n`. -/
theorem round_of_delivered (hP : ∀ s a, P s a → a.InOrder)
    (h : Run (step serverCalculations) P (init clientBuf serverBuf) as s) (l : ListenerType)
    {n : ℕ} {x : ℕ × Datagram} (hx : (s.delivered l)[n]? = some x) : x.1 = n := by
  have hpre := (requestLink_ordered hP h l).delivered_prefix_sent
  obtain ⟨hn, rfl⟩ := List.getElem?_eq_some_iff.mp hx
  have hget := List.prefix_iff_getElem?.mp hpre n hn
  simp only [requestLink, tagged, List.getElem?_mapIdx, Option.map_eq_some_iff] at hget
  obtain ⟨batch, -, hbatch⟩ := hget
  exact (congrArg Prod.fst hbatch).symm

/-- A pair is put together from its two halves. -/
theorem pair_of_halves {p q r : List CFloat × List CFloat}
    (hfirst : ofListener .first p = ofListener .first q)
    (hsecond : ofListener .second p = ofListener .second r) : p = (q.1, r.2) :=
  Prod.ext hfirst hsecond

/-- In order, the computations use the rounds one after the other. -/
theorem computed_prefix_rounds (hP : ∀ s a, P s a → a.InOrder)
    (h : Run (step serverCalculations) P (init clientBuf serverBuf) as s) :
    s.server.computed <+: rounds s := by
  apply List.prefix_iff_getElem?.mpr
  intro n hn
  -- both halves of the `n`-th computation are those of round `n`
  have hp := List.getElem?_eq_getElem hn
  obtain ⟨x, q, hx, hq, hfirst⟩ := half_of_computation h .first hp
  obtain ⟨y, r, hy, hr, hsecond⟩ := half_of_computation h .second hp
  rw [round_of_delivered hP h .first hx] at hq
  rw [round_of_delivered hP h .second hy] at hr
  obtain rfl : q = r := Option.some.inj (hq.symm.trans hr)
  rw [pair_of_halves hfirst hsecond]
  exact hq

/-- **The halves of a computation.**  In every run of the closed loop, whatever the
network drops, delays or reorders, the `n`-th computation concatenates the first half
of the round whose datagram was the `n`-th delivered on the first port and the second
half of the round whose datagram was the `n`-th delivered on the second port.  If
these carry one round, the two halves are that round's pair; and if the network
dropped nothing and kept the order on each socket, both carry round `n`. -/
theorem halves_of_computation
    (h : Run (step serverCalculations) Any (init clientBuf serverBuf) as s)
    {n : ℕ} {p : List CFloat × List CFloat} (hp : s.server.computed[n]? = some p) :
    ∃ x y q r, (s.delivered .first)[n]? = some x ∧ (s.delivered .second)[n]? = some y
      ∧ (rounds s)[x.1]? = some q ∧ (rounds s)[y.1]? = some r ∧ p = (q.1, r.2)
      ∧ (x.1 = y.1 → (rounds s)[x.1]? = some p)
      ∧ ((∀ a ∈ as, a.InOrder) → x.1 = n ∧ y.1 = n) := by
  obtain ⟨x, q, hx, hq, hfirst⟩ := half_of_computation h .first hp
  obtain ⟨y, r, hy, hr, hsecond⟩ := half_of_computation h .second hp
  have hpair := pair_of_halves hfirst hsecond
  refine ⟨x, y, q, r, hx, hy, hq, hr, hpair, ?_, ?_⟩
  · intro hxy
    rw [← hxy] at hr
    obtain rfl : q = r := Option.some.inj (hq.symm.trans hr)
    rw [hpair]
    exact hq
  · intro hin
    have hrun := h.and_forall hin
    constructor
    · exact round_of_delivered (fun _ _ hPa => hPa.2) hrun .first hx
    · exact round_of_delivered (fun _ _ hPa => hPa.2) hrun .second hy

/-- Both listeners of the server receive the oldest request on their port and hand it
over, and the calculator computes on the pair. -/
def serveOldest : List Action :=
  .deliverRequest .first 0 :: List.replicate 3 (.serverListener .first)
    ++ .deliverRequest .second 0 :: List.replicate 3 (.serverListener .second)
    ++ List.replicate 8 .serverCalculator

/-- The client sends the zero request and the server computes on it. -/
def zeroRequestSchedule : List Action := List.replicate 6 .clientSender ++ serveOldest

/-- The client sends two requests, and the first half of the first one is dropped. -/
def lossySchedule : List Action :=
  List.replicate 6 .clientSender
    ++ .getU Client.samplePayload :: List.replicate 4 .clientCalculator
    ++ List.replicate 6 .clientSender ++ .dropRequest .first 0 :: serveOldest

/-- With one half dropped, the first computation uses the first half of round one and the second
half of round zero. -/
theorem halves_of_computation_lossy :
    ∃ s, Run (step Server.firstFour) Any (init (fun _ => 0) fun _ _ => 0) lossySchedule s
      ∧ ∃ p q r, s.server.computed = [p] ∧ (rounds s)[1]? = some q ∧ (rounds s)[0]? = some r
        ∧ p = (q.1, r.2) ∧ p = ([1, 2, 3, 4, 5, 6], List.replicate 7 0) := by
  obtain ⟨s, h, hobs⟩ := Run.of_observed (by decide +kernel :
    (run (step Server.firstFour) (init (fun _ => 0) fun _ _ => 0) lossySchedule).map
      (fun s => (s.server.computed, (s.delivered .first).map Prod.fst,
        (s.delivered .second).map Prod.fst))
    = some ([([1, 2, 3, 4, 5, 6], List.replicate 7 0)], [1], [0]))
  simp only [Prod.mk.injEq] at hobs
  obtain ⟨hcomputed, hfirst, hsecond⟩ := hobs
  obtain ⟨x, y, q, r, hx, hy, hq, hr, hpair, -, -⟩ :=
    halves_of_computation h (n := 0) (by rw [hcomputed]; rfl)
  have hx' : x.1 = 1 := by
    have hget := congrArg (·[0]?) hfirst
    rw [List.getElem?_map, hx] at hget
    exact Option.some.inj hget
  have hy' : y.1 = 0 := by
    have hget := congrArg (·[0]?) hsecond
    rw [List.getElem?_map, hy] at hget
    exact Option.some.inj hget
  rw [hx'] at hq
  rw [hy'] at hr
  exact ⟨s, h, _, q, r, hcomputed, hq, hr, hpair, rfl⟩

/-- The server computes on the first half of the second request and the second half of
the first. -/
theorem halves_of_two_requests :
    ∃ s, Run (step Server.firstFour) Any (init (fun _ => 0) fun _ _ => 0) lossySchedule s
      ∧ rounds s = [(List.replicate 6 0, List.replicate 7 0),
          ([1, 2, 3, 4, 5, 6], [7, 8, 9, 10, 11, 12, 13])]
      ∧ s.server.computed = [([1, 2, 3, 4, 5, 6], List.replicate 7 0)]
      ∧ (s.delivered .first).map Prod.fst = [1] ∧ (s.delivered .second).map Prod.fst = [0]
      ∧ ∀ p ∈ s.server.computed, p ∉ rounds s := by
  obtain ⟨s, h, hobs⟩ := Run.of_observed (by decide +kernel :
    (run (step Server.firstFour) (init (fun _ => 0) fun _ _ => 0) lossySchedule).map
      (fun s => (rounds s, s.server.computed, (s.delivered .first).map Prod.fst,
        (s.delivered .second).map Prod.fst))
    = some ([(List.replicate 6 0, List.replicate 7 0),
        ([1, 2, 3, 4, 5, 6], [7, 8, 9, 10, 11, 12, 13])],
      [([1, 2, 3, 4, 5, 6], List.replicate 7 0)], [1], [0]))
  simp only [Prod.mk.injEq] at hobs
  obtain ⟨hrounds, hcomputed, hfirst, hsecond⟩ := hobs
  refine ⟨s, h, hrounds, hcomputed, hfirst, hsecond, ?_⟩
  rw [hrounds, hcomputed]
  decide

/-! ## The results of `get_u` -/

/-- The payloads of the `get_u` calls of a schedule. -/
def payloads (as : List Action) : List Client.Payload :=
  as.filterMap fun a => match a with
    | .getU payload => some payload
    | _ => none

/-- The calls made are the payloads handed over and the one still pending. -/
theorem payloads_eq (h : Run (step serverCalculations) P (init clientBuf serverBuf) as s) :
    payloads as = s.client.requested ++ s.client.calculator.pending := by
  induction h with
  | nil => rfl
  | snoc _ _ hstep ih =>
      rw [payloads, List.filterMap_append, ← payloads, ih]
      cases step_move hstep with
      | client b hb hc =>
          rw [Client.payloads_move (Client.step_move hc)]
          rcases hb with ⟨rfl, rfl⟩ | ⟨rfl, rfl⟩ | ⟨p, rfl, rfl⟩ <;> rfl
      | clientSender hc =>
          rw [Client.payloads_move (Client.step_move hc)]
          rfl
      | deliverReply i d hi hc =>
          rw [Client.payloads_move (Client.step_move hc)]
          rfl
      | server b hb hsv => rcases hb with ⟨-, rfl⟩ | ⟨l, -, rfl⟩ <;> exact List.append_nil _
      | _ => exact List.append_nil _

/-- The rounds are the zero request and the payloads, in the order of the calls. -/
theorem rounds_prefix_payloads
    (h : Run (step serverCalculations) P (init clientBuf serverBuf) as s) :
    rounds s <+: (Client.initialPayload :: payloads as).map Client.halves := by
  obtain ⟨bs, hrun⟩ := client_run (Q := Any) (fun _ _ _ _ _ => trivial)
    (fun _ _ _ => trivial) h
  rw [payloads_eq h, ← Client.payloads_eq hrun]
  exact Client.emitted_prefix_requests hrun

/-- In order, what `get_u` returns are the vectors the server has sent. -/
theorem returned_prefix_sent (hP : ∀ s a, P s a → a.InOrder)
    (h : Run (step serverCalculations) P (init clientBuf serverBuf) as s) :
    s.client.returned <+: s.server.sent := by
  obtain ⟨bs, hrun⟩ := client_run_wf h
  have hreturned := Client.returned_prefix_received
    (hrun.mono (fun _ _ hQ d hd => (hQ d hd).1))
  have hreceived : s.client.received <+: s.server.sent.map datagramOf :=
    (replyLink_ordered hP h).delivered_prefix_sent
  have hmap := hreturned.trans (hreceived.map fun d => (floatsOf d).take 4)
  obtain ⟨bs', hrun'⟩ := server_run (Q := Any) (fun _ _ _ _ _ _ => trivial)
    (fun _ _ _ _ _ _ _ _ => trivial) h
  have hfour := Server.length_of_mem_sent hrun'
  have hid : (s.server.sent.map datagramOf).map (fun d => (floatsOf d).take 4)
      = s.server.sent := by
    rw [List.map_map]
    nth_rewrite 2 [← List.map_id s.server.sent]
    apply List.map_congr_left
    intro calcs hcalcs
    have hlen := hfour calcs (List.mem_append_left _ hcalcs)
    show (floatsOf (datagramOf calcs)).take 4 = calcs
    rw [floatsOf_datagramOf calcs (by omega), List.take_of_length_le hlen.le]
  rwa [hid] at hmap

/-- The result the server computes on the two halves of a payload is the control law's
value at that payload. -/
theorem serverCalculations_halves (payload : Client.Payload) :
    serverCalculations ((Client.halves payload).1 ++ (Client.halves payload).2)
      = serverCalculations payload.toList := by
  rw [Client.halves_eq, List.take_append_drop]

/-- The network drops nothing and keeps the order on each socket, and `calculate_res` is
only executed when the sender has read every result handed to it. -/
def InOrderNoOverwrite (s : State) (a : Action) : Prop :=
  a.InOrder ∧ (a = .serverCalculator → Server.NoOverwrite s.server .calculator)

instance (s : State) (a : Action) : Decidable (InOrderNoOverwrite s a) :=
  inferInstanceAs (Decidable (_ ∧ _))

/-- **Results belong to the payload before.**  In every run of the closed loop over a
network that drops nothing and keeps the order on each socket, in which
`calculate_res` is only executed when the sender has read every result handed to it,
the `n`-th call of `get_u` returns the control law's value at the payload of call
`n - 1`, and the first call its value at thirteen zeros. -/
theorem returned_for_previous_payload
    (h : Run (step serverCalculations) InOrderNoOverwrite (init clientBuf serverBuf) as s) :
    s.client.returned <+: (Client.initialPayload :: payloads as).map
      fun p => (serverCalculations p.toList).toList := by
  have hP : ∀ s a, InOrderNoOverwrite s a → a.InOrder := fun _ _ hPa => hPa.1
  obtain ⟨bs, hrun⟩ := server_run (Q := Server.NoOverwrite)
    (fun _ _ _ _ _ _ ha => by cases ha)
    (fun _ _ _ _ _ hPa hb _ hcalc => hPa.2 (hb hcalc) rfl) h
  -- returned, sent, computed, fetched, called: each a prefix of the next
  have hsent := Server.sent_prefix_of_noOverwrite (fun _ _ hu => hu) hrun
  have hcomputed := (computed_prefix_rounds hP h).trans (rounds_prefix_payloads h)
  have hresults := hcomputed.map fun p => (serverCalculations (p.1 ++ p.2)).toList
  rw [List.map_map] at hresults
  have hlaw : ((fun p : List CFloat × List CFloat => (serverCalculations (p.1 ++ p.2)).toList)
      ∘ Client.halves) = fun p => (serverCalculations p.toList).toList := by
    funext p
    exact congrArg List.Vector.toList (serverCalculations_halves p)
  rw [hlaw] at hresults
  exact ((returned_prefix_sent hP h).trans hsent).trans hresults

/-- The zero request goes round the loop, and `get_u` is called once. -/
def firstCallSchedule : List Action :=
  zeroRequestSchedule ++ List.replicate 2 .serverCalculator ++ List.replicate 3 .serverSender
    ++ .getU Client.samplePayload :: List.replicate 4 .clientCalculator
    ++ .deliverReply 0 :: List.replicate 3 .clientListener
    ++ List.replicate 4 .clientCalculator

/-- The request of the first call goes round the loop too, and `get_u` is called again. -/
def secondCallSchedule : List Action :=
  firstCallSchedule ++ List.replicate 6 .clientSender ++ serveOldest
    ++ .serverSender :: List.replicate 2 .serverCalculator ++ List.replicate 3 .serverSender
    ++ .getU Client.initialPayload :: List.replicate 4 .clientCalculator
    ++ .deliverReply 0 :: List.replicate 3 .clientListener
    ++ List.replicate 4 .clientCalculator

/-- The first call returns what the law gives for thirteen zeros, and the second one what it gives
for the payload of the first. -/
theorem returned_for_previous_payload_two_calls :
    ∃ s, Run (step Server.firstFour) InOrderNoOverwrite (init (fun _ => 0) fun _ _ => 0)
        secondCallSchedule s
      ∧ payloads secondCallSchedule = [Client.samplePayload, Client.initialPayload]
      ∧ s.client.returned = [[0, 0, 0, 0], [1, 2, 3, 4]]
      ∧ s.client.returned <+: (Client.initialPayload :: payloads secondCallSchedule).map
          fun p => (Server.firstFour p.toList).toList := by
  obtain ⟨s, hrun, hreturned⟩ := Option.map_eq_some_iff.mp (by decide +kernel :
    (run (guarded (step Server.firstFour) InOrderNoOverwrite) (init (fun _ => 0) fun _ _ => 0)
      secondCallSchedule).map (fun s => s.client.returned)
        = some [[0, 0, 0, 0], [1, 2, 3, 4]])
  have h := Run.of_guarded hrun
  exact ⟨s, h, rfl, hreturned, returned_for_previous_payload h⟩

/-- When the next `calculate_res` comes before the sender has read the result for the
zeros, the first call returns the value at its own payload. -/
example :
    (run (step Server.firstFour) (init (fun _ => 0) fun _ _ => 0)
      (zeroRequestSchedule ++ List.replicate 2 .serverCalculator
        ++ .getU Client.samplePayload :: List.replicate 4 .clientCalculator
        ++ List.replicate 6 .clientSender ++ serveOldest ++ List.replicate 3 .serverSender
        ++ .deliverReply 0 :: List.replicate 3 .clientListener
        ++ List.replicate 4 .clientCalculator)).map (fun s => s.client.returned)
      = some [[1, 2, 3, 4]] := by
  decide +kernel

/-- That is not what the law gives for the payload of the call. -/
theorem first_call_returns_for_zeros :
    ∃ s, Run (step Server.firstFour) (fun _ a => a.InOrder) (init (fun _ => 0) fun _ _ => 0)
        firstCallSchedule s
      ∧ payloads firstCallSchedule = [Client.samplePayload]
      ∧ s.client.returned = [[0, 0, 0, 0]]
      ∧ (Server.firstFour Client.samplePayload.toList).toList = [1, 2, 3, 4] := by
  obtain ⟨s, hrun, hreturned⟩ := Option.map_eq_some_iff.mp (by decide +kernel :
    (run (step Server.firstFour) (init (fun _ => 0) fun _ _ => 0) firstCallSchedule).map
      (fun s => s.client.returned) = some [[0, 0, 0, 0]])
  exact ⟨s, Run.of_run hrun (fun _ => by decide), rfl, hreturned, rfl⟩

end Steps

end ClosedLoop
