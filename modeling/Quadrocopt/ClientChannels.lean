/-
# The two hand-shakes of the client

The calculator hands requests to the sender through `sender_stock` and the flags
`sender_from_signal` / `sender_to_signal`; the listener hands replies to the
calculator through `listener_stock` and the flags `listener_to_signal` /
`listener_from_signal`.  Both are instances of the one-slot hand-shake
(`requestChannel`, `replyChannel`): each step of the client is, seen through a
channel, one operation of the hand-shake or nothing, and never a write over a
value that was not taken.  The laws of the hand-shake then hold in every
reachable state of the client (`Inv.of_run`).
-/
import Quadrocopt.Handshake
import Quadrocopt.Client

namespace Client

open Transition

/-! ## The channels -/

/-- The calculator is between its wait for the sender and its signal to it. -/
@[simp] def CalculatorPc.writing : CalculatorPc → Bool
  | .addFirst _ => true
  | .addSecond _ => true
  | .signalSender _ => true
  | _ => false

/-- The calculator as the consumer of replies. -/
@[simp] def CalculatorPc.consumer : CalculatorPc → Consumer
  | .getBatch => .entered
  | .cleanBatch _ => .taken
  | .signalListener _ => .taken
  | _ => .idle

/-- The sender as the consumer of requests. -/
@[simp] def SenderPc.consumer : SenderPc → Consumer
  | .fetchFirst => .entered
  | .fetchSecond _ => .entered
  | .signalReady _ _ => .taken
  | _ => .idle

/-- The pair the sender has fetched and not yet sent completely. -/
@[simp] def SenderPc.inHand : SenderPc → List (List CFloat × List CFloat)
  | .signalReady firstBatch secondBatch => [(firstBatch, secondBatch)]
  | .sendFirst firstBatch secondBatch => [(firstBatch, secondBatch)]
  | .sendSecond firstBatch secondBatch => [(firstBatch, secondBatch)]
  | _ => []

/-- The listener is between its wait for the calculator and its signal to it. -/
@[simp] def ListenerPc.writing : ListenerPc → Bool
  | .store _ => true
  | .signalReady _ => true
  | _ => false

/-- The requests handed to the sender: the initial zero batches, then the payloads
of the `get_u` calls that have signalled. -/
def requests (s : State) : List (List CFloat × List CFloat) :=
  halves initialPayload :: s.requested.map halves

/-- The hand-shake between calculator and sender. -/
def requestChannel (s : State) : Handshake (List CFloat × List CFloat) where
  free := s.senderFromSignal
  full := s.senderToSignal
  producing := s.calculator.writing
  consumer := s.sender.consumer
  slot := (s.senderStock.firstBatch.floats, s.senderStock.secondBatch.floats)
  puts := requests s
  takes := s.emitted ++ s.sender.inHand

/-- The hand-shake between listener and calculator. -/
def replyChannel (s : State) : Handshake (List CFloat) where
  free := s.listenerToSignal
  full := s.listenerFromSignal
  producing := s.listener.writing
  consumer := s.calculator.consumer
  slot := s.listenerStock.batch.floats
  puts := s.replied
  takes := s.read

/-! ## The invariant -/

/-- What the calculator has written so far is in the sender's stock. -/
def Written (s : State) : Prop :=
  match s.calculator with
  | .addSecond payload => s.senderStock.firstBatch.floats = firstHalf payload
  | .signalSender payload =>
      (s.senderStock.firstBatch.floats, s.senderStock.secondBatch.floats) = halves payload
  | _ => True

/-- What the sender has fetched so far is still in the stock. -/
def Fetched (s : State) : Prop :=
  match s.sender with
  | .fetchSecond firstBatch => s.senderStock.firstBatch.floats = firstBatch
  | _ => True

/-- What the listener has stored and not yet announced is still in the stock. -/
def Stored (s : State) : Prop :=
  match s.listener with
  | .signalReady pack => s.listenerStock.batch.floats = getFloats pack
  | _ => True

/-- **The invariant of the client**: both channels obey the law of the hand-shake,
and a thread inside its critical section finds in the stock what it put there or
read from it. -/
structure Inv (s : State) : Prop where
  request : (requestChannel s).Lawful
  reply : (replyChannel s).Lawful
  written : Written s
  fetched : Fetched s
  stored : Stored s

/-- The initial state satisfies the invariant: the stock holds the zero batches and
the sender's flag is up. -/
theorem inv_init (bufin : Buf) : Inv (init bufin) where
  request := ⟨rfl, rfl⟩
  reply := ⟨rfl, rfl⟩
  written := trivial
  fetched := trivial
  stored := trivial

/-! ## One step, seen through the channels -/

/-- **Request channel.**  Every step of the client is an operation of the hand-shake
between calculator and sender, or none of its business. -/
theorem requestChannel_moves {s s' : State} {a : Action} (hi : Inv s) (hm : Move s a s') :
    (requestChannel s).Moves (requestChannel s') := by
  have ht := hi.request.tokens_eq
  -- the calculator produces, the sender consumes, the listener takes no part
  cases hm with
  | getU payload hpc => exact .inl (by simp [requestChannel, requests, hpc])
  | waitSender payload hpc hflag =>
      refine Handshake.Moves.of_step .acquire (by simp) ?_
      simp [Handshake.step, requestChannel, requests, hpc, hflag]
  | addFirst payload copy hpc hcopy =>
      have hlive := Handshake.not_live_of_producing ht (by simp [requestChannel, hpc])
      refine Handshake.Moves.of_write hlive (copy.floats, s.senderStock.secondBatch.floats) ?_
      simp [Handshake.step, requestChannel, requests, hpc]
  | addSecond payload copy hpc hcopy =>
      have hlive := Handshake.not_live_of_producing ht (by simp [requestChannel, hpc])
      refine Handshake.Moves.of_write hlive (s.senderStock.firstBatch.floats, copy.floats) ?_
      simp [Handshake.step, requestChannel, requests, hpc]
  | signalSender payload hpc =>
      have hw := hi.written
      rw [Written, hpc] at hw
      refine Handshake.Moves.of_step .publish (by simp) ?_
      simp [Handshake.step, requestChannel, requests, hpc, hw]
  | waitListener hpc hflag => exact .inl (by simp [requestChannel, requests, hpc])
  | getBatch hpc => exact .inl (by simp [requestChannel, requests, hpc])
  | cleanBatch listenerBatch hpc hlen => exact .inl (by simp [requestChannel, requests, hpc])
  | signalListener u hpc => exact .inl (by simp [requestChannel, requests, hpc])
  | waitCalculator hpc hflag =>
      refine Handshake.Moves.of_step .accept (by simp) ?_
      simp [Handshake.step, requestChannel, requests, hpc, hflag]
  | fetchFirst hpc => exact .inl (by simp [requestChannel, requests, hpc])
  | fetchSecond firstBatch hpc =>
      have hf := hi.fetched
      rw [Fetched, hpc] at hf
      refine Handshake.Moves.of_step .take (by simp) ?_
      simp [Handshake.step, requestChannel, requests, hpc, hf]
  | signalReady firstBatch secondBatch hpc =>
      refine Handshake.Moves.of_step .release (by simp) ?_
      simp [Handshake.step, requestChannel, requests, hpc]
  | sendFirst firstBatch secondBatch hpc =>
      exact .inl (by simp [requestChannel, requests, hpc])
  | sendSecond firstBatch secondBatch hpc =>
      exact .inl (by simp [requestChannel, requests, hpc])
  | receive d pack hpc hpack => exact .inl rfl
  | listenerWait pack hpc hflag => exact .inl rfl
  | store pack copy hpc hcopy => exact .inl rfl
  | listenerSignal pack hpc => exact .inl rfl

/-- **Reply channel.**  Every step of the client is an operation of the hand-shake
between listener and calculator, or none of its business. -/
theorem replyChannel_moves {s s' : State} {a : Action} (hi : Inv s) (hm : Move s a s') :
    (replyChannel s).Moves (replyChannel s') := by
  have ht := hi.reply.tokens_eq
  -- the listener produces, the calculator consumes, the sender takes no part
  cases hm with
  | getU payload hpc => exact .inl (by simp [replyChannel, hpc])
  | waitSender payload hpc hflag => exact .inl (by simp [replyChannel, hpc])
  | addFirst payload copy hpc hcopy => exact .inl (by simp [replyChannel, hpc])
  | addSecond payload copy hpc hcopy => exact .inl (by simp [replyChannel, hpc])
  | signalSender payload hpc => exact .inl (by simp [replyChannel, hpc])
  | waitListener hpc hflag =>
      refine Handshake.Moves.of_step .accept (by simp) ?_
      simp [Handshake.step, replyChannel, hpc, hflag]
  | getBatch hpc =>
      refine Handshake.Moves.of_step .take (by simp) ?_
      simp [Handshake.step, replyChannel, hpc]
  | cleanBatch listenerBatch hpc hlen =>
      -- the clean is a write by the consumer, after it has taken the slot
      have hlive := Handshake.not_live_of_taken ht (by simp [replyChannel, hpc])
      refine Handshake.Moves.of_write hlive SizedBuf.null.floats ?_
      simp [Handshake.step, replyChannel, hpc]
  | signalListener u hpc =>
      refine Handshake.Moves.of_step .release (by simp) ?_
      simp [Handshake.step, replyChannel, hpc]
  | waitCalculator hpc hflag => exact .inl rfl
  | fetchFirst hpc => exact .inl rfl
  | fetchSecond firstBatch hpc => exact .inl rfl
  | signalReady firstBatch secondBatch hpc => exact .inl rfl
  | sendFirst firstBatch secondBatch hpc => exact .inl rfl
  | sendSecond firstBatch secondBatch hpc => exact .inl rfl
  | receive d pack hpc hpack => exact .inl (by simp [replyChannel, hpc])
  | listenerWait pack hpc hflag =>
      refine Handshake.Moves.of_step .acquire (by simp) ?_
      simp [Handshake.step, replyChannel, hpc, hflag]
  | store pack copy hpc hcopy =>
      have hlive := Handshake.not_live_of_producing ht (by simp [replyChannel, hpc])
      refine Handshake.Moves.of_write hlive copy.floats ?_
      simp [Handshake.step, replyChannel, hpc]
  | listenerSignal pack hpc =>
      have hs := hi.stored
      rw [Stored, hpc] at hs
      refine Handshake.Moves.of_step .publish (by simp) ?_
      simp [Handshake.step, replyChannel, hpc, hs]

/-! ## The threads' own bookkeeping -/

/-- The calculator finds what it wrote: nobody else writes the sender's stock. -/
theorem written_move {s s' : State} {a : Action} (hi : Inv s) (hm : Move s a s') : Written s' := by
  have hw := hi.written
  cases hm with
  | addFirst payload copy hpc hcopy => exact hcopy
  | addSecond payload copy hpc hcopy =>
      rw [Written, hpc] at hw
      simp only [Written, halves]
      rw [hw, hcopy]
  | _ => first | exact hw | trivial

/-- The sender's first half is still in the stock when it fetches the second: the
calculator cannot be writing. -/
theorem fetched_move {s s' : State} {a : Action} (hi : Inv s) (hm : Move s a s') : Fetched s' := by
  have ht := hi.request.tokens_eq
  have hf := hi.fetched
  cases hm with
  | addFirst payload copy hpc hcopy =>
      have hidle := (Handshake.tokens_producing ht (by simp [requestChannel, hpc])).2.2
      unfold Fetched at *
      cases hsender : s.sender <;> simp_all [requestChannel]
  | addSecond payload copy hpc hcopy => exact hf
  | fetchFirst hpc => rfl
  | _ => first | exact hf | trivial

/-- The listener's reply is still in the stock when it announces it: the calculator
cannot be cleaning. -/
theorem stored_move {s s' : State} {a : Action} (hi : Inv s) (hm : Move s a s') : Stored s' := by
  have ht := hi.reply.tokens_eq
  have hs := hi.stored
  cases hm with
  | cleanBatch listenerBatch hpc hlen =>
      have hidle := (Handshake.tokens_consuming ht (by simp [replyChannel, hpc])).2.2
      unfold Stored at *
      cases hlistener : s.listener <;> simp_all [replyChannel]
  | store pack copy hpc hcopy => exact floats_of_copyOfPacket hcopy
  | _ => first | exact hs | trivial

/-- **Step lemma.**  Every step of the client keeps the invariant. -/
theorem inv_move {s s' : State} {a : Action} (hi : Inv s) (hm : Move s a s') : Inv s' where
  request := hi.request.moves (requestChannel_moves hi hm)
  reply := hi.reply.moves (replyChannel_moves hi hm)
  written := written_move hi hm
  fetched := fetched_move hi hm
  stored := stored_move hi hm

/-- **Run lemma.**  The invariant holds in every reachable state, whatever the
interleaving and whatever arrives. -/
theorem inv_run {P : State → Action → Prop} {bufin : Buf} {as : List Action} {s : State}
    (h : Run step P (init bufin) as s) : Inv s := by
  apply h.invariant (inv_init bufin)
  intro s a s' hi _ hstep
  exact inv_move hi (step_move hstep)

end Client
