/-
# From datagrams to results

What the server computes on, and what it sends, in terms of the datagrams it
received.

* `pairs_in_order`: the `n`-th computation uses the `n`-th datagram of each port.
* `sent_prefix_results`: in the runs in which `calculate_res` never overwrites a
  result that the sender has not read, the results sent are a prefix of the results
  computed.  Without that condition a result can be lost and its successor sent
  twice (`results_lost_and_duplicated`).
-/
import Quadrocopt.ServerChannels

namespace Server

open Transition

/-- The datagrams received on the port of listener `l` in a schedule. -/
def datagrams (l : ListenerType) (as : List Action) : List Datagram :=
  as.filterMap fun a => match a with
    | .receive l' d => if l' = l then some d else none
    | _ => none

/-- Every receive of the run returns a well-formed datagram. -/
def WellFormedReceive (_s : State) (a : Action) : Prop :=
  ∀ l d, a = .receive l d → WellFormed d

/-! ## The bookkeeping of the threads -/

/-- The packet a listener has received and not yet announced. -/
@[simp] def ListenerPc.inHand : ListenerPc → List Packet
  | .receive => []
  | .waitUntilCalcReads pack => [pack]
  | .store pack => [pack]
  | .signalReady pack => [pack]

/-- The half of listener `l` that the calculator has read and not yet computed on. -/
@[simp] def CalculatorPc.inHand : CalculatorPc → ListenerType → List (List CFloat)
  | .getSecond firstBatch, .first => [firstBatch.floats]
  | .cleanStock firstBatch _, .first => [firstBatch.floats]
  | .cleanStock _ secondBatch, .second => [secondBatch.floats]
  | .signalFirst firstBatch _, .first => [firstBatch.floats]
  | .signalFirst _ secondBatch, .second => [secondBatch.floats]
  | .signalSecond firstBatch _, .first => [firstBatch.floats]
  | .signalSecond _ secondBatch, .second => [secondBatch.floats]
  | .calculateRes firstBatch _, .first => [firstBatch.floats]
  | .calculateRes _ secondBatch, .second => [secondBatch.floats]
  | _, _ => []

/-- The half of a computation's input that came from listener `l`. -/
def ofListener (l : ListenerType) (p : List CFloat × List CFloat) : List CFloat :=
  match l with
  | .first => p.1
  | .second => p.2

section Steps

variable {serverCalculations : List CFloat → List.Vector CFloat 4}

/-- What a step of the server does to listener `l` and its history: nothing, or one of the
four operations of its loop, the wait and the store being one case. -/
inductive ListenerMove (l : ListenerType) (s : State) (a : Action) (s' : State) : Prop
  | frame (hpc : s'.listener l = s.listener l) (hreceived : s'.received l = s.received l)
      (hhanded : s'.handed l = s.handed l) (hbufin : s'.bufin l = s.bufin l)
  | receive (d : Datagram) (pack : Packet) (ha : a = .receive l d)
      (hpack : bytesToPack (recvfrom (s.bufin l) d) = .ok pack)
      (hhand : (s.listener l).inHand = []) (hhand' : (s'.listener l).inHand = [pack])
      (hreceived : s'.received l = s.received l ++ [d]) (hhanded : s'.handed l = s.handed l)
      (hbufin : s'.bufin l = recvfrom (s.bufin l) d)
  | proceed (hhand : (s'.listener l).inHand = (s.listener l).inHand)
      (hreceived : s'.received l = s.received l) (hhanded : s'.handed l = s.handed l)
      (hbufin : s'.bufin l = s.bufin l)
  | signal (pack : Packet) (hpc : s.listener l = .signalReady pack)
      (hhand : (s.listener l).inHand = [pack])
      (hhand' : (s'.listener l).inHand = []) (hreceived : s'.received l = s.received l)
      (hhanded : s'.handed l = s.handed l ++ [getFloats pack]) (hbufin : s'.bufin l = s.bufin l)

/-- **Inversion, for one listener.** -/
theorem Move.listenerMove {s s' : State} {a : Action} (hm : Move serverCalculations s a s')
    (l : ListenerType) : ListenerMove l s a s' := by
  cases hm with
  | receive l' d pack hpc hpack =>
      by_cases hl : l = l'
      · subst hl
        exact .receive d pack rfl hpack (by rw [hpc]; rfl) (by simp) (by simp) rfl (by simp)
      · exact .frame (by simp [hl]) (by simp [hl]) rfl (by simp [hl])
  | waitUntilCalcReads l' pack hpc hflag =>
      by_cases hl : l = l'
      · subst hl
        exact .proceed (by simp [hpc]) rfl rfl rfl
      · exact .frame (by simp [hl]) rfl rfl rfl
  | store l' pack copy bs hpc hcopy hbs =>
      by_cases hl : l = l'
      · subst hl
        exact .proceed (by simp [hpc]) rfl rfl rfl
      · exact .frame (by simp [hl]) rfl rfl rfl
  | listenerSignal l' pack hpc =>
      by_cases hl : l = l'
      · subst hl
        exact .signal pack hpc (by rw [hpc]; rfl) (by simp) rfl (by simp) rfl
      · exact .frame (by simp [hl]) rfl (by simp [hl]) rfl
  | _ => exact .frame rfl rfl rfl rfl

variable {P : State → Action → Prop} {bufin : ListenerType → Buf} {as : List Action} {s : State}

/-- The datagrams received are the ones the history records. -/
theorem datagrams_eq (h : Run (step serverCalculations) P (init bufin) as s)
    (l : ListenerType) : datagrams l as = s.received l := by
  induction h with
  | nil => rfl
  | snoc _ _ hstep ih =>
      rw [datagrams, List.filterMap_append, ← datagrams, ih]
      cases step_move hstep with
      | receive l' d pack hpc hpack =>
          by_cases hl : l' = l
          · subst hl
            simp
          · simp [hl, Ne.symm hl]
      | _ => simp

/-- A listener's bookkeeping: each well-formed datagram received is announced or about
to be. -/
theorem received_eq (h : Run (step serverCalculations) WellFormedReceive (init bufin) as s)
    (l : ListenerType) :
    (s.received l).map floatsOf = s.handed l ++ (s.listener l).inHand.map getFloats := by
  induction h with
  | nil => rfl
  | snoc _ hP hstep ih =>
      cases (step_move hstep).listenerMove l with
      | frame hpc hreceived hhanded hbufin =>
          rw [hreceived, hhanded, hpc]
          exact ih
      | receive d pack ha hpack hhand hhand' hreceived hhanded hbufin =>
          -- the buffer decodes to the datagram, whatever it held before
          obtain ⟨pack', hpack', -, hfloats, -⟩ := (hP l d ha).bytesToPack_recvfrom _
          obtain rfl : pack = pack' := Except.ok.inj (hpack.symm.trans hpack')
          rw [hhand, List.map_nil, List.append_nil] at ih
          rw [hreceived, hhanded, hhand', List.map_append, ih, List.map_singleton, ← hfloats,
            List.map_singleton]
      | proceed hhand hreceived hhanded hbufin =>
          rw [hreceived, hhanded, hhand]
          exact ih
      | signal pack hpc hhand hhand' hreceived hhanded hbufin =>
          rw [hhand, List.map_singleton] at ih
          rw [hreceived, hhanded, hhand', List.map_nil, List.append_nil]
          exact ih

/-- A listener never holds anything but a `PACK_OF_FLOATS`. -/
theorem type_of_inHand (h : Run (step serverCalculations) WellFormedReceive (init bufin) as s)
    (l : ListenerType) : ∀ pack ∈ (s.listener l).inHand, pack.type = .packOfFloats := by
  induction h with
  | nil =>
      intro pack hmem
      cases hmem
  | snoc _ hP hstep ih =>
      cases (step_move hstep).listenerMove l with
      | frame hpc hreceived hhanded hbufin =>
          rw [hpc]
          exact ih
      | receive d pack ha hpack hhand hhand' hreceived hhanded hbufin =>
          obtain ⟨pack', hpack', htype, -⟩ := (hP l d ha).bytesToPack_recvfrom _
          obtain rfl : pack = pack' := Except.ok.inj (hpack.symm.trans hpack')
          intro pack' hmem
          rw [hhand'] at hmem
          rw [List.mem_singleton.mp hmem]
          exact htype
      | proceed hhand hreceived hhanded hbufin =>
          rw [hhand]
          exact ih
      | signal pack hpc hhand hhand' hreceived hhanded hbufin =>
          intro pack' hmem
          rw [hhand'] at hmem
          cases hmem

/-- The calculator's bookkeeping: each half read is computed on or about to be. -/
theorem read_eq (h : Run (step serverCalculations) P (init bufin) as s) (l : ListenerType) :
    s.read l = s.computed.map (ofListener l) ++ s.calculator.inHand l := by
  induction h with
  | nil => rfl
  | snoc _ _ hstep ih =>
      cases step_move hstep <;> cases l <;> simp_all [ofListener]

/-- The calculator's bookkeeping: each result computed is handed to the sender, or is in
the stock waiting to be. -/
theorem results_eq (h : Run (step serverCalculations) P (init bufin) as s) :
    results serverCalculations s
      = s.signalled ++ (match s.calculator with
        | .waitForSender => [s.cs.calculations.floats]
        | .signalCalculated => [s.cs.calculations.floats]
        | _ => []) := by
  induction h with
  | nil => rfl
  | snoc _ _ hstep ih => cases step_move hstep <;> simp_all [results]

/-- From the first computation on the stock holds four floats. -/
theorem length_calculations (h : Run (step serverCalculations) P (init bufin) as s)
    (hc : s.computed ≠ []) : s.cs.calculations.floats.length = 4 := by
  induction h with
  | nil => exact absurd rfl hc
  | snoc _ _ hstep ih =>
      cases step_move hstep with
      | calculateRes firstBatch secondBatch copy hpc hcopy =>
          show copy.floats.length = 4
          rw [hcopy, List.Vector.toList_length]
      | _ => exact ih hc

/-- The sender reads the stock only after a computation: the result it was handed was
published before. -/
theorem computed_of_readCalcs (h : Run (step serverCalculations) P (init bufin) as s)
    (hpc : s.sender = .readCalcs) : s.computed ≠ [] := by
  have hlen := (inv_run h).result.length_puts
  have hlive : (resultChannel s).live = true := by
    simp [Handshake.live, resultChannel, hpc]
  have hres := congrArg List.length (results_eq h)
  rw [hlive] at hlen
  intro hnil
  rw [results, hnil, List.map_nil, List.length_nil, List.length_append] at hres
  have hput : (resultChannel s).puts.length = s.signalled.length := rfl
  rw [hput, Bool.toNat_true] at hlen
  omega

/-- Everything sent, or about to be, has four floats. -/
theorem length_of_mem_sent (h : Run (step serverCalculations) P (init bufin) as s) :
    ∀ calcs ∈ s.sent ++ s.sender.inHand, calcs.length = 4 := by
  induction h with
  | nil =>
      intro calcs hmem
      cases hmem
  | snoc hrun _ hstep ih =>
      cases step_move hstep with
      | readCalcs hpc =>
          -- the only step by which the sender gets hold of something new
          have hfour := length_calculations hrun (computed_of_readCalcs hrun hpc)
          intro calcs hmem
          rcases List.mem_append.mp hmem with hsent | hhand
          · exact ih calcs (List.mem_append_left _ hsent)
          · obtain rfl : calcs = _ := List.mem_singleton.mp hhand
            exact hfour
      | waitForCalculator hpc hflag => simpa [hpc] using ih
      | send calcs hpc => simpa [hpc] using ih
      | signalReady hpc => simpa [hpc] using ih
      | _ => exact ih

/-! ## What the computations use -/

/-- What was read on a port is a prefix of what was received there. -/
theorem computed_prefix_received (h : Run (step serverCalculations) WellFormedReceive (init bufin) as s)
    (l : ListenerType) :
    s.computed.map (ofListener l) <+: (s.received l).map floatsOf := by
  have hlaw := ((inv_run h).half l).takes_prefix_puts
  have hread : s.computed.map (ofListener l) <+: s.read l := by
    rw [read_eq h l]
    exact List.prefix_append _ _
  have hhanded : s.handed l <+: (s.received l).map floatsOf := by
    rw [received_eq h l]
    exact List.prefix_append _ _
  exact (hread.trans hlaw).trans hhanded

/-- **The server pairs its inputs in order.**  In every run of the server whose datagrams
are well-formed, the `n`-th computation uses the floats of the `n`-th datagram of the
first port and of the `n`-th datagram of the second; whenever a listener stores its
half, or the calculator cleans the stock, every half handed over on that port has been
read, and the stock is never cleaned under a listener that is writing it. -/
theorem pairs_in_order (h : Run (step serverCalculations) WellFormedReceive (init bufin) as s) :
    s.computed.map Prod.fst <+: (datagrams .first as).map floatsOf
      ∧ s.computed.map Prod.snd <+: (datagrams .second as).map floatsOf
      ∧ (∀ l pack, s.listener l = .store pack → s.read l = s.handed l)
      ∧ ∀ l f g, s.calculator = .cleanStock f g →
          s.read l = s.handed l ∧ (s.listener l).writing = false := by
  have hlaw := (inv_run h).half
  refine ⟨?_, ?_, ?_, ?_⟩
  · rw [datagrams_eq h]
    exact computed_prefix_received h .first
  · rw [datagrams_eq h]
    exact computed_prefix_received h .second
  · intro l pack hpc
    have hproducing : (halfChannel l s).producing = true := by simp [halfChannel, hpc]
    exact (hlaw l).takes_eq_puts_of_producing hproducing
  · intro l f g hpc
    have htaken : (halfChannel l s).consumer = .taken := by simp [halfChannel, hpc]
    exact (hlaw l).takes_eq_puts_of_taken htaken

/-- A control law for concrete runs: the first four floats received. -/
def firstFour (params : List CFloat) : List.Vector CFloat 4 :=
  List.Vector.ofFn fun i => params.getD i 0

/-- Both listeners receive a half filled with one float and hand it over. -/
def feed (f : CFloat) : List Action :=
  .receive .first (datagramOf (List.replicate 6 f)) :: List.replicate 3 (.listener .first)
    ++ .receive .second (datagramOf (List.replicate 7 f)) :: List.replicate 3 (.listener .second)

theorem wellFormed_feed {f : CFloat} {l : ListenerType} {d : Datagram}
    (h : .receive l d ∈ feed f) : WellFormed d := by
  simp only [feed, List.mem_append, List.mem_cons, List.mem_replicate, Action.receive.injEq,
    reduceCtorEq, and_false, or_false] at h
  rcases h with ⟨-, rfl⟩ | ⟨-, rfl⟩ <;> exact wellFormed_datagramOf _ (by simp [MAXBUF])

/-- One computation, with the next pair handed over behind it. -/
def pairSchedule : List Action := feed 1 ++ List.replicate 8 .calculator ++ feed 2

/-- The computation uses the first datagram of each port. -/
theorem pairs_in_order_one_pair :
    ∃ s, Run (step firstFour) WellFormedReceive (init fun _ _ => 0) pairSchedule s
      ∧ s.computed = [(List.replicate 6 1, List.replicate 7 1)]
      ∧ s.computed.map Prod.fst <+: (datagrams .first pairSchedule).map floatsOf
      ∧ s.computed.map Prod.snd <+: (datagrams .second pairSchedule).map floatsOf := by
  obtain ⟨s, hrun, hcomputed⟩ := Option.map_eq_some_iff.mp (by decide +kernel :
    (run (step firstFour) (init fun _ _ => 0) pairSchedule).map (fun s => s.computed)
      = some [(List.replicate 6 1, List.replicate 7 1)])
  have h : Run (step firstFour) WellFormedReceive (init fun _ _ => 0) pairSchedule s := by
    apply Run.of_run hrun
    rintro _ a ha l d rfl
    simp only [pairSchedule, List.mem_append, List.mem_replicate, reduceCtorEq, and_false,
      or_false] at ha
    rcases ha with ha | ha <;> exact wellFormed_feed ha
  exact ⟨s, h, hcomputed, (pairs_in_order h).1, (pairs_in_order h).2.1⟩

/-! ## What is sent -/

/-- What the sender has sent or holds is a prefix of what was computed, as long as
nothing was overwritten. -/
theorem sent_prefix_of_noOverwrite (hP : ∀ s a, P s a → NoOverwrite s a)
    (h : Run (step serverCalculations) P (init bufin) as s) :
    s.sent <+: results serverCalculations s := by
  have hlaw := (resultChannel_run hP h).takes_prefix_puts
  rw [results_eq h]
  exact ((List.prefix_append _ _).trans hlaw).trans (List.prefix_append _ _)

/-- **No result is lost or duplicated, as long as `calculate_res` waits its turn.**  In
every run of the server in which `calculate_res` is only executed when the sender has
read every result handed to it, the results sent are a prefix of the results
computed. -/
theorem sent_prefix_results (h : Run (step serverCalculations) NoOverwrite (init bufin) as s) :
    s.sent <+: results serverCalculations s :=
  sent_prefix_of_noOverwrite (fun _ _ hu => hu) h

/-- Two pairs, where the sender reads each result before the next computation. -/
def patientSchedule : List Action :=
  feed 1 ++ List.replicate 10 .calculator ++ feed 2 ++ List.replicate 2 .sender
    ++ List.replicate 8 .calculator ++ List.replicate 2 .sender
    ++ List.replicate 2 .calculator ++ List.replicate 3 .sender

/-- The two results are sent one after the other. -/
theorem sent_prefix_results_two_pairs :
    ∃ s, Run (step firstFour) NoOverwrite (init fun _ _ => 0) patientSchedule s
      ∧ s.sent = [[1, 1, 1, 1], [2, 2, 2, 2]] ∧ s.sent <+: results firstFour s := by
  obtain ⟨s, hrun, hsent⟩ := Option.map_eq_some_iff.mp (by decide +kernel :
    (run (guarded (step firstFour) NoOverwrite) (init fun _ _ => 0) patientSchedule).map
      (fun s => s.sent) = some [[1, 1, 1, 1], [2, 2, 2, 2]])
  have h := Run.of_guarded hrun
  exact ⟨s, h, hsent, sent_prefix_results h⟩

/-- Two pairs, where the second computation comes before the sender has read the first
result. -/
def overwriteSchedule : List Action :=
  feed 1 ++ List.replicate 10 .calculator ++ feed 2 ++ List.replicate 8 .calculator
    ++ List.replicate 4 .sender ++ List.replicate 2 .calculator ++ List.replicate 3 .sender

/-- The first result is lost and the second one is sent twice. -/
theorem results_lost_and_duplicated :
    ∃ s, Run (step firstFour) Any (init fun _ _ => 0) overwriteSchedule s
      ∧ results firstFour s = [[1, 1, 1, 1], [2, 2, 2, 2]]
      ∧ s.sent = [[2, 2, 2, 2], [2, 2, 2, 2]] ∧ ¬ s.sent <+: results firstFour s := by
  obtain ⟨s, h, hobs⟩ := Run.of_observed (by decide +kernel :
    (run (step firstFour) (init fun _ _ => 0) overwriteSchedule).map
      (fun s => (results firstFour s, s.sent))
      = some ([[1, 1, 1, 1], [2, 2, 2, 2]], [[2, 2, 2, 2], [2, 2, 2, 2]]))
  obtain ⟨hresults, hsent⟩ := Prod.mk.inj hobs
  refine ⟨s, h, hresults, hsent, ?_⟩
  rw [hresults, hsent]
  decide

end Steps

end Server
