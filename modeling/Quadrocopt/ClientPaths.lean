/-
# The request path and the reply path of the client

What the client puts on the network, and what `get_u` returns, in terms of what
happened to it: the payloads of the `get_u` calls and the datagrams received, in
the order of the schedule.

* `request_path`: the pairs that `send_calcs` emits are the zero batches followed
  by the payloads, none lost, none repeated, none torn.
* `reply_path`: the `n`-th `get_u` call that returns yields the first four floats
  of the `n`-th datagram received.

Both combine a law of the channel with the bookkeeping of the two threads at its
ends.
-/
import Quadrocopt.ClientChannels

namespace Client

open Transition

/-! ## The inputs of a schedule -/

/-- The payloads of the `get_u` calls of a schedule. -/
def payloads (as : List Action) : List Payload :=
  as.filterMap fun a => match a with
    | .getU payload => some payload
    | _ => none

/-- The datagrams received in a schedule. -/
def datagrams (as : List Action) : List Datagram :=
  as.filterMap fun a => match a with
    | .receive d => some d
    | _ => none

/-- Every receive of the run returns a well-formed datagram. -/
def WellFormedReceive (_s : State) (a : Action) : Prop := ∀ d, a = .receive d → WellFormed d

/-! ## The bookkeeping of the threads -/

/-- The payload of the call in progress, until it is handed to the sender. -/
@[simp] def CalculatorPc.pending : CalculatorPc → List Payload
  | .waitSender payload => [payload]
  | .addFirst payload => [payload]
  | .addSecond payload => [payload]
  | .signalSender payload => [payload]
  | _ => []

/-- The result of the call in progress, once its reply is read. -/
@[simp] def CalculatorPc.result : CalculatorPc → List (List CFloat)
  | .cleanBatch listenerBatch => [listenerBatch.take 4]
  | .signalListener u => [u]
  | _ => []

/-- The reply the listener has received and not yet announced. -/
@[simp] def ListenerPc.inHand : ListenerPc → List Packet
  | .receive => []
  | .waitCalculator pack => [pack]
  | .store pack => [pack]
  | .signalReady pack => [pack]

/-- A call made is pending until it is handed to the sender. -/
theorem payloads_move {s s' : State} {a : Action} (hm : Move s a s') :
    s'.requested ++ s'.calculator.pending
      = s.requested ++ s.calculator.pending ++ payloads [a] := by
  cases hm <;> simp_all [payloads]

/-- The calculator's side of the request path: the calls made are the payloads handed
over and the one still pending. -/
theorem payloads_eq {P : State → Action → Prop} {bufin : Buf} {as : List Action} {s : State}
    (h : Run step P (init bufin) as s) :
    payloads as = s.requested ++ s.calculator.pending := by
  induction h with
  | nil => rfl
  | snoc _ _ hstep ih =>
      rw [payloads_move (step_move hstep), ← ih]
      exact List.filterMap_append

/-- The datagrams received are the ones the history records. -/
theorem datagrams_eq {P : State → Action → Prop} {bufin : Buf} {as : List Action} {s : State}
    (h : Run step P (init bufin) as s) : datagrams as = s.received := by
  induction h with
  | nil => rfl
  | snoc _ _ hstep ih =>
      rw [datagrams, List.filterMap_append, ← datagrams, ih]
      cases step_move hstep <;> simp

/-- The calculator's side of the reply path: each reply read gives a result that is
returned or about to be. -/
theorem read_eq {P : State → Action → Prop} {bufin : Buf} {as : List Action} {s : State}
    (h : Run step P (init bufin) as s) :
    s.read.map (List.take 4) = s.returned ++ s.calculator.result := by
  induction h with
  | nil => rfl
  | snoc _ _ hstep ih => cases step_move hstep <;> simp_all

/-- The listener's side of the reply path: each well-formed datagram received is
announced or about to be. -/
theorem received_eq {bufin : Buf} {as : List Action} {s : State}
    (h : Run step WellFormedReceive (init bufin) as s) :
    s.received.map floatsOf = s.replied ++ s.listener.inHand.map getFloats := by
  induction h with
  | nil => rfl
  | snoc _ hP hstep ih =>
      cases step_move hstep with
      | receive d pack hpc hpack =>
          -- the buffer decodes to the datagram, whatever it held before
          obtain ⟨pack', hpack', -, hfloats, -⟩ := (hP d rfl).bytesToPack_recvfrom _
          obtain rfl : pack = pack' := Except.ok.inj (hpack.symm.trans hpack')
          simp_all
      | _ => simp_all

/-! ## The two paths -/

/-- What the sender has emitted or holds is a prefix of what was handed to it. -/
theorem emitted_prefix_requests {P : State → Action → Prop} {bufin : Buf} {as : List Action} {s : State}
    (h : Run step P (init bufin) as s) :
    s.emitted ++ s.sender.inHand <+: (initialPayload :: payloads as).map halves := by
  have hlaw := (inv_run h).request.takes_prefix_puts
  rw [payloads_eq h, List.map_cons, List.map_append, ← List.cons_append]
  exact hlaw.trans (List.prefix_append _ _)

/-- The results returned are a prefix of the replies received, four floats each. -/
theorem returned_prefix_received {bufin : Buf} {as : List Action} {s : State}
    (h : Run step WellFormedReceive (init bufin) as s) :
    s.returned <+: s.received.map fun d => (floatsOf d).take 4 := by
  have hlaw := (inv_run h).reply.takes_prefix_puts
  have hread : s.returned <+: s.read.map (List.take 4) := by
    rw [read_eq h]
    exact List.prefix_append _ _
  have hreplied : s.replied <+: s.received.map floatsOf := by
    rw [received_eq h]
    exact List.prefix_append _ _
  have hmap := (hlaw.trans hreplied).map (List.take 4)
  rw [List.map_map] at hmap
  exact hread.trans hmap

/-- The batch that the calculator is about to copy from was read. -/
theorem mem_read_of_cleanBatch {P : State → Action → Prop} {bufin : Buf} {as : List Action}
    {s : State} (h : Run step P (init bufin) as s) :
    ∀ b, s.calculator = .cleanBatch b → b ∈ s.read := by
  induction h with
  | nil =>
      intro b hpc
      cases hpc
  | snoc _ _ hstep ih => cases step_move hstep <;> simp_all

/-- If every datagram received has four floats, so has every one on record. -/
theorem length_of_mem_received {bufin : Buf} {as : List Action} {s : State}
    (h : Run step (fun _ a => ∀ d, a = .receive d → WellFormed d ∧ 4 ≤ (floatsOf d).length)
      (init bufin) as s) : ∀ d ∈ s.received, 4 ≤ (floatsOf d).length := by
  induction h with
  | nil =>
      intro d hmem
      cases hmem
  | snoc _ hP hstep ih =>
      cases step_move hstep with
      | receive d pack hpc hpack =>
          intro d' hd'
          rcases List.mem_append.mp hd' with hold | hnew
          · exact ih d' hold
          · obtain rfl : d' = d := List.mem_singleton.mp hnew
            exact (hP d' rfl).2
      | _ => exact ih

/-- Then the calculator never copies from a shorter batch. -/
theorem length_of_cleanBatch {bufin : Buf} {as : List Action} {s : State}
    (h : Run step (fun _ a => ∀ d, a = .receive d → WellFormed d ∧ 4 ≤ (floatsOf d).length)
      (init bufin) as s) {b : List CFloat} (hpc : s.calculator = .cleanBatch b) :
    4 ≤ b.length := by
  have hwf : Run step WellFormedReceive (init bufin) as s :=
    h.mono (fun _ _ hP d hd => (hP d hd).1)
  have hread := (inv_run h).reply.takes_prefix_puts.subset (mem_read_of_cleanBatch h b hpc)
  have hmem : b ∈ s.received.map floatsOf := by
    rw [received_eq hwf]
    exact List.mem_append_left _ hread
  obtain ⟨d, hd, rfl⟩ := List.mem_map.mp hmem
  exact length_of_mem_received h d hd

/-- The two halves of a payload are its first six floats and its last seven. -/
theorem halves_eq (payload : Payload) :
    halves payload = (payload.toList.take 6, payload.toList.drop 6) := by
  have hlen : (payload.toList.drop 6).length = 7 := by
    rw [List.length_drop, payload.toList_length]
  rw [halves, firstHalf, secondHalf, List.take_of_length_le hlen.le]

/-- **The request path.**  In every run of the client, the pairs that `send_calcs` has
emitted are a prefix of the zero batches followed by the payloads of the `get_u`
calls, split after the sixth float; and whenever the calculator writes the stock,
the sender has fetched every request handed to it before. -/
theorem request_path {bufin : Buf} {as : List Action} {s : State}
    (h : Run step Any (init bufin) as s) :
    s.emitted <+: (List.replicate 6 0, List.replicate 7 0)
        :: (payloads as).map (fun p => (p.toList.take 6, p.toList.drop 6))
      ∧ ∀ p, s.calculator = .addFirst p ∨ s.calculator = .addSecond p →
          s.emitted ++ s.sender.inHand
            = (List.replicate 6 0, List.replicate 7 0)
              :: s.requested.map (fun p => (p.toList.take 6, p.toList.drop 6)) := by
  have hhalves : halves = fun p : Payload => (p.toList.take 6, p.toList.drop 6) :=
    funext halves_eq
  have hzero : halves initialPayload = (List.replicate 6 0, List.replicate 7 0) := rfl
  rw [← hhalves, ← hzero, ← List.map_cons, ← List.map_cons]
  constructor
  · exact (List.prefix_append _ _).trans (emitted_prefix_requests h)
  · intro p hpc
    have hproducing : (requestChannel s).producing = true := by
      rcases hpc with hpc | hpc <;> simp [requestChannel, hpc]
    exact (inv_run h).request.takes_eq_puts_of_producing hproducing

/-- A payload for concrete runs: the numbers from one to thirteen. -/
def samplePayload : Payload := List.Vector.ofFn fun i => BitVec.ofNat 32 (i + 1)

/-- Two rounds of the sender, with one request of `get_u` between them. -/
def requestSchedule : List Action :=
  List.replicate 6 .sender ++ .getU samplePayload :: List.replicate 4 .calculator
    ++ List.replicate 6 .sender

/-- Two rounds emit the zero batches and the two halves of the payload. -/
theorem request_path_two_rounds :
    ∃ s, Run step Any (init fun _ => 0) requestSchedule s
      ∧ s.emitted = [(List.replicate 6 0, List.replicate 7 0),
          ([1, 2, 3, 4, 5, 6], [7, 8, 9, 10, 11, 12, 13])]
      ∧ s.emitted <+: (List.replicate 6 0, List.replicate 7 0)
          :: (payloads requestSchedule).map (fun p => (p.toList.take 6, p.toList.drop 6)) := by
  obtain ⟨s, h, hemitted⟩ := Run.of_observed (by decide +kernel :
    (run step (init fun _ => 0) requestSchedule).map (fun s => s.emitted)
      = some [(List.replicate 6 0, List.replicate 7 0),
          ([1, 2, 3, 4, 5, 6], [7, 8, 9, 10, 11, 12, 13])])
  exact ⟨s, h, hemitted, (request_path h).1⟩

/-- **The reply path.**  In every run of the client in which each datagram received is
well-formed and has at least four floats, the results returned by `get_u` are a
prefix of the datagrams received, the first four floats of each; whenever the
listener stores a reply or the calculator cleans the stock, every reply handed over
has been read; and the stock is never cleaned under a listener that is writing it, nor
four floats copied out of a shorter batch. -/
theorem reply_path {bufin : Buf} {as : List Action} {s : State}
    (h : Run step (fun _ a => ∀ d, a = .receive d → WellFormed d ∧ 4 ≤ (floatsOf d).length)
      (init bufin) as s) :
    s.returned <+: (datagrams as).map (fun d => (floatsOf d).take 4)
      ∧ (∀ pack, s.listener = .store pack → s.read = s.replied)
      ∧ ∀ b, s.calculator = .cleanBatch b →
          s.read = s.replied ∧ s.listener.writing = false ∧ 4 ≤ b.length := by
  have hwf : Run step WellFormedReceive (init bufin) as s :=
    h.mono (fun _ _ hP d hd => (hP d hd).1)
  have hlaw := (inv_run h).reply
  refine ⟨?_, ?_, ?_⟩
  · rw [datagrams_eq h]
    exact returned_prefix_received hwf
  · intro pack hpc
    have hproducing : (replyChannel s).producing = true := by simp [replyChannel, hpc]
    exact hlaw.takes_eq_puts_of_producing hproducing
  · intro b hpc
    have htaken : (replyChannel s).consumer = .taken := by simp [replyChannel, hpc]
    obtain ⟨hread, hout⟩ := hlaw.takes_eq_puts_of_taken htaken
    exact ⟨hread, hout, length_of_cleanBatch h hpc⟩

/-- One call of `get_u`, with a reply that arrives ahead of it. -/
def replySchedule : List Action :=
  .receive (datagramOf [1, 2, 3, 4, 5]) :: List.replicate 3 .listener ++ List.replicate 4 .sender
    ++ .getU samplePayload :: List.replicate 8 .calculator

/-- The call returns the first four of the five floats received. -/
theorem reply_path_one_call :
    ∃ s, run step (init fun _ => 0) replySchedule = some s ∧ s.returned = [[1, 2, 3, 4]]
      ∧ s.returned <+: (datagrams replySchedule).map (fun d => (floatsOf d).take 4) := by
  obtain ⟨s, hrun, hreturned⟩ := Option.map_eq_some_iff.mp (by decide +kernel :
    (run step (init fun _ => 0) replySchedule).map (fun s => s.returned) = some [[1, 2, 3, 4]])
  refine ⟨s, hrun, hreturned, (reply_path (Run.of_run hrun ?_)).1⟩
  rintro _ a ha d rfl
  obtain rfl : d = datagramOf [1, 2, 3, 4, 5] := by simpa [replySchedule] using ha
  refine ⟨wellFormed_datagramOf _ (by decide), ?_⟩
  rw [floatsOf_datagramOf _ (by decide)]
  decide

end Client
