/-
# How much data the consumers get

`server_calculations` indexes thirteen floats and `get_u` copies four, whatever arrived.
The lengths travel next to the data, from the length word of a datagram through the
stocks to the arrays, and are compared with nothing on the way.

The array built by the `n`-th `calculate_res` is exactly as long as the length words of
the `n`-th datagrams on the two ports announce together, and the batch that the `n`-th
`get_u` copies from as long as the `n`-th reply announces.  So the consumers have enough
data exactly when these numbers are large enough (`enough_data`).

A length word is read from the receive buffer, so that a datagram without a complete
header announces what an earlier one left there (`announced`).
-/
import Quadrocopt.AcceptedBytes
import Quadrocopt.ListenerLoop

open Transition

/-! ## What a datagram announces -/

/-- The numbers of floats that the length words in the receive buffer announce, one after
each datagram. -/
def announced (buf : Buf) : List Datagram → List ℕ
  | [] => []
  | d :: ds =>
      (lengthWord (List.ofFn (recvfrom buf d))).toNat / 4 :: announced (recvfrom buf d) ds

/-- A datagram with a complete header announces what its own length word says. -/
theorem announced_of_header (buf : Buf) {d : Datagram} (hheader : 8 ≤ d.length)
    (hmax : d.length ≤ MAXBUF) : announced buf [d] = [(lengthWord d).toNat / 4] := by
  have hd := startsWith_recvfrom buf d hmax
  have hofFn : (List.ofFn (recvfrom buf d)).length = MAXBUF := List.length_ofFn
  obtain ⟨v, hv, hbytes⟩ := readBytes_of_startsWith hd 4 4 (by omega)
  obtain ⟨w, hw, hbytes'⟩ := readBytes_of_startsWith (startsWith_ofFn (recvfrom buf d)) 4 4
    (by omega)
  obtain rfl : v = w := Except.ok.inj (hv.symm.trans hw)
  rw [announced, announced, lengthWord, lengthWord, ← hbytes', hbytes]

/-- What the rounds decode has the announced lengths, as long as nothing stops them. -/
theorem length_of_decodedRounds {buf : Buf} {ds : List Datagram}
    (h : (decodedRounds buf (ds.map .datagram)).length = ds.length) :
    ((decodedRounds buf (ds.map .datagram)).map getFloats).map List.length = announced buf ds := by
  induction ds generalizing buf with
  | nil => rfl
  | cons d ds ih =>
      cases hround : bytesToPack (receivePacket buf (.datagram d)) with
      | ok pack =>
          have hlength : pack.length = lengthWord (List.ofFn (recvfrom buf d)) :=
            length_of_decoded hround
          simp only [List.map_cons, decodedRounds, hround, List.length_cons,
            Nat.add_right_cancel_iff] at h ⊢
          rw [length_getFloats, hlength, announced]
          congr 1
          exact ih h
      | error stop =>
          simp only [List.map_cons, decodedRounds, hround, List.length_nil, List.length_cons] at h
          omega

/-- **What is handed over has the announced lengths.** -/
theorem Decoded.handed_prefix_announced {bufin buf : Buf} {received : List Datagram}
    {packs inHand : List Packet} {handed : List (List CFloat)}
    (h : Decoded bufin buf received packs inHand handed) :
    handed.map List.length <+: announced bufin received := by
  rw [← length_of_decodedRounds h.length, h.packets, List.map_append, h.handed]
  exact (List.prefix_append _ _).map List.length

/-- The last of a prefix of the announced lengths stands at its place. -/
theorem announced_getD {xs : List (List CFloat)} {x : List CFloat} {ns : List ℕ}
    (h : (xs ++ [x]).map List.length <+: ns) : ns.getD xs.length 0 = x.length := by
  obtain ⟨rest, hns⟩ := h
  rw [← hns, List.getD_append _ _ _ _ (by simp)]
  simp

/-! ## The server -/

namespace Server

variable {serverCalculations : List CFloat → List.Vector CFloat 4}

/-- The array that `server_calculations` is called with in the next step. -/
def CalculatorPc.params : CalculatorPc → Option (List CFloat)
  | .calculateRes firstBatch secondBatch => some (receivedData firstBatch secondBatch)
  | _ => none

/-- What was read on a port has the lengths announced there. -/
theorem length_of_read {P : State → Action → Prop} {bufin : ListenerType → Buf}
    {as : List Action} {s : State} (h : Run (step serverCalculations) P (init bufin) as s)
    (l : ListenerType) :
    (s.read l).map List.length <+: announced (bufin l) (datagrams l as) := by
  obtain ⟨packs, hdecoded⟩ := decoded h l
  have hread : s.read l <+: s.handed l := ((inv_run h).half l).takes_prefix_puts
  rw [datagrams_eq h]
  exact (hread.map List.length).trans hdecoded.handed_prefix_announced

/-- **The length of `received_data`.**  The array of the `n`-th computation has as many
floats as the `n`-th datagrams on the two ports announce together. -/
theorem length_of_params {P : State → Action → Prop} {bufin : ListenerType → Buf}
    {as : List Action} {s : State} {params : List CFloat}
    (h : Run (step serverCalculations) P (init bufin) as s)
    (hpc : s.calculator.params = some params) :
    params.length
      = (announced (bufin .first) (datagrams .first as)).getD s.computed.length 0
        + (announced (bufin .second) (datagrams .second as)).getD s.computed.length 0 := by
  unfold CalculatorPc.params at hpc
  split at hpc
  · next firstBatch secondBatch hres =>
    obtain rfl := Option.some.inj hpc
    have hfirst := length_of_read h .first
    have hsecond := length_of_read h .second
    rw [read_eq h, hres] at hfirst hsecond
    have hn := announced_getD hfirst
    have hn' := announced_getD hsecond
    rw [List.length_map] at hn hn'
    rw [hn, hn', receivedData_eq, List.length_append]
  · cases hpc

end Server

/-! ## The client -/

namespace Client

variable {P : State → Action → Prop} {bufin : Buf} {as : List Action} {s : State}

/-- The batch that `get_u` copies four floats from in the next step. -/
def CalculatorPc.copied : CalculatorPc → Option (List CFloat)
  | .cleanBatch listenerBatch => some listenerBatch
  | _ => none

/-- The batch that is copied from is the last one read, after those of the calls that have
returned. -/
theorem read_of_copied (h : Run step P (init bufin) as s) :
    ∀ b, s.calculator.copied = some b →
      ∃ before, s.read = before ++ [b] ∧ before.length = s.returned.length := by
  intro b hpc
  unfold CalculatorPc.copied at hpc
  split at hpc
  · next listenerBatch hres =>
    obtain rfl := Option.some.inj hpc
    have hlen := congrArg List.length (read_eq h)
    rw [hres, List.length_map, List.length_append] at hlen
    have hlast : s.read.getLast? = some listenerBatch := by
      clear hlen
      induction h with
      | nil => cases hres
      | snoc _ _ hstep ih => cases step_move hstep <;> simp_all
    obtain ⟨before, hread⟩ := List.getLast?_eq_some_iff.mp hlast
    refine ⟨before, hread, ?_⟩
    rw [hread, List.length_append] at hlen
    exact Nat.add_right_cancel hlen
  · cases hpc

/-- **The length of `listener_batch`.**  The batch of the `n`-th call has as many floats as
the `n`-th reply announces. -/
theorem length_of_copied {b : List CFloat} (h : Run step P (init bufin) as s)
    (hpc : s.calculator.copied = some b) :
    b.length = (announced bufin (datagrams as)).getD s.returned.length 0 := by
  obtain ⟨packs, hdecoded⟩ := decoded h
  have hread : s.read <+: s.replied := (inv_run h).reply.takes_prefix_puts
  have hprefix : s.read.map List.length <+: announced bufin (datagrams as) := by
    rw [datagrams_eq h]
    exact (hread.map List.length).trans hdecoded.handed_prefix_announced
  obtain ⟨before, hlast, hbefore⟩ := read_of_copied h b hpc
  rw [hlast] at hprefix
  rw [← hbefore]
  exact (announced_getD hprefix).symm

end Client

/-! ## Enough data -/

/-- **When the consumers get enough data.**  In every run of the server, whenever the
calculator is about to call `server_calculations`, its array holds the thirteen floats
that are indexed if and only if the datagrams that this computation is made of announce
thirteen together; and in every run of the client, whenever `get_u` is about to copy four
floats, the batch holds four if and only if the reply of this call announces four. -/
theorem enough_data (serverCalculations : List CFloat → List.Vector CFloat 4) :
    (∀ bufin as s params,
      Run (Server.step serverCalculations) Any (Server.init bufin) as s →
      s.calculator.params = some params →
      (13 ≤ params.length ↔
        13 ≤ (announced (bufin .first) (Server.datagrams .first as)).getD s.computed.length 0
          + (announced (bufin .second) (Server.datagrams .second as)).getD s.computed.length 0))
      ∧ ∀ bufin as s b,
        Run Client.step Any (Client.init bufin) as s → s.calculator.copied = some b →
        (4 ≤ b.length ↔ 4 ≤ (announced bufin (Client.datagrams as)).getD s.returned.length 0) := by
  constructor
  · intro bufin as s params h hpc
    rw [Server.length_of_params h hpc]
  · intro bufin as s b h hpc
    rw [Client.length_of_copied h hpc]

/-- Both listeners receive a datagram and hand over what it holds, up to the call of
`server_calculations`. -/
def requestOf (d e : Datagram) : List Server.Action :=
  .receive .first d :: List.replicate 3 (.listener .first)
    ++ .receive .second e :: List.replicate 3 (.listener .second)
    ++ List.replicate 7 .calculator

theorem datagrams_requestOf (d e : Datagram) :
    Server.datagrams .first (requestOf d e) = [d] ∧ Server.datagrams .second (requestOf d e) = [e] :=
  ⟨rfl, rfl⟩

/-- A reply arrives, and `get_u` is called and reads it. -/
def replyOf (d : Datagram) : List Client.Action :=
  .receive d :: List.replicate 3 .listener ++ List.replicate 4 .sender
    ++ .getU Client.samplePayload :: List.replicate 6 .calculator

/-- A request and a reply as the two programs send them are long enough. -/
theorem enough_data_full_request :
    (∃ s params, Run (Server.step Server.firstFour) Any (Server.init fun _ _ => 0)
        (requestOf (datagramOf (List.replicate 6 1)) (datagramOf (List.replicate 7 1))) s
      ∧ s.calculator.params = some params ∧ 13 ≤ params.length)
      ∧ ∃ s b, Run Client.step Any (Client.init fun _ => 0) (replyOf (datagramOf [1, 2, 3, 4])) s
        ∧ s.calculator.copied = some b ∧ 4 ≤ b.length := by
  constructor
  · obtain ⟨s, h, hobs⟩ := Run.of_observed (by decide +kernel :
      (run (Server.step Server.firstFour) (Server.init fun _ _ => 0)
        (requestOf (datagramOf (List.replicate 6 1)) (datagramOf (List.replicate 7 1)))).map
        (fun s => (s.calculator.params, s.computed)) = some (some (List.replicate 13 1), []))
    obtain ⟨hpc, hcomputed⟩ := Prod.mk.inj hobs
    refine ⟨s, _, h, hpc, ((enough_data _).1 _ _ _ _ h hpc).mpr ?_⟩
    have hfirst := announced_of_header (fun _ => 0) (d := datagramOf (List.replicate 6 1))
      (by decide) (by decide)
    have hsecond := announced_of_header (fun _ => 0) (d := datagramOf (List.replicate 7 1))
      (by decide) (by decide)
    rw [hcomputed, (datagrams_requestOf _ _).1, (datagrams_requestOf _ _).2, hfirst, hsecond]
    decide
  · obtain ⟨s, h, hobs⟩ := Run.of_observed (by decide +kernel :
      (run Client.step (Client.init fun _ => 0) (replyOf (datagramOf [1, 2, 3, 4]))).map
        (fun s => (s.calculator.copied, s.returned)) = some (some [1, 2, 3, 4], []))
    obtain ⟨hpc, hreturned⟩ := Prod.mk.inj hobs
    refine ⟨s, _, h, hpc, ((enough_data Server.firstFour).2 _ _ _ _ h hpc).mpr ?_⟩
    have hreply := announced_of_header (fun _ => 0) (d := datagramOf [1, 2, 3, 4])
      (by decide) (by decide)
    have hdatagrams : Client.datagrams (replyOf (datagramOf [1, 2, 3, 4]))
        = [datagramOf [1, 2, 3, 4]] := rfl
    rw [hreturned, hdatagrams, hreply]
    decide

/-- Empty packets are accepted on every port, and then `server_calculations` indexes an
array of no floats, and `get_u` copies four floats out of an empty batch. -/
theorem empty_packets_reach_consumers :
    (∃ s, Run (Server.step Server.firstFour) Any (Server.init fun _ _ => 0)
        (requestOf (datagramOf []) (datagramOf [])) s ∧ s.calculator.params = some [])
      ∧ ∃ s, Run Client.step Any (Client.init fun _ => 0) (replyOf (datagramOf [])) s
        ∧ s.calculator.copied = some [] := by
  constructor
  · obtain ⟨s, h, hpc⟩ := Run.of_observed (by decide +kernel :
      (run (Server.step Server.firstFour) (Server.init fun _ _ => 0)
        (requestOf (datagramOf []) (datagramOf []))).map (fun s => s.calculator.params)
        = some (some []))
    exact ⟨s, h, hpc⟩
  · obtain ⟨s, h, hpc⟩ := Run.of_observed (by decide +kernel :
      (run Client.step (Client.init fun _ => 0) (replyOf (datagramOf []))).map
        (fun s => s.calculator.copied) = some (some []))
    exact ⟨s, h, hpc⟩
