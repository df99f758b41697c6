/-
# The three hand-shakes of the server

Each listener hands its half of a request to the calculator through its half of the
`BatchStock` and its own pair of flags (`halfChannel`), and the calculator hands
results to the sender through the `CalculationsStock` and the flags `sender_signal` /
`calc_to_sender_signal` (`resultChannel`).

The two half channels obey the law of the hand-shake in every reachable state.  The
result channel is only balanced: `calculate_res` writes the stock outside the
calculator's critical section, so it may overwrite a result that the sender has not
read.  Its law holds in the runs in which it never does (`NoOverwrite`).
-/
import Quadrocopt.Handshake
import Quadrocopt.Server

namespace Server

open Transition

/-! ## The channels -/

/-- The calculator as the consumer of the halves of listener `l`. -/
@[simp] def CalculatorPc.consumer : CalculatorPc → ListenerType → Consumer
  | .waitSecond, .first => .entered
  | .getFirst, .first => .entered
  | .getFirst, .second => .entered
  | .getSecond _, .first => .taken
  | .getSecond _, .second => .entered
  | .cleanStock _ _, _ => .taken
  | .signalFirst _ _, _ => .taken
  | .signalSecond _ _, .second => .taken
  | _, _ => .idle

/-- The calculator is between its wait for the sender and its signal to it. -/
@[simp] def CalculatorPc.writing : CalculatorPc → Bool
  | .signalCalculated => true
  | _ => false

/-- The sender as the consumer of results. -/
@[simp] def SenderPc.consumer : SenderPc → Consumer
  | .waitForCalculator => .idle
  | .readCalcs => .entered
  | .send _ => .taken
  | .signalReady => .taken

/-- The result the sender has read and not yet sent. -/
@[simp] def SenderPc.inHand : SenderPc → List (List CFloat)
  | .send calcs => [calcs]
  | _ => []

/-- A listener is between its wait for the calculator and its signal to it. -/
@[simp] def ListenerPc.writing : ListenerPc → Bool
  | .store _ => true
  | .signalReady _ => true
  | _ => false

/-- The hand-shake between listener `l` and the calculator. -/
def halfChannel (l : ListenerType) (s : State) : Handshake (List CFloat) where
  free := s.calcSignalToListener l
  full := s.listenerSignal l
  producing := (s.listener l).writing
  consumer := s.calculator.consumer l
  slot := (s.bs.half l).floats
  puts := s.handed l
  takes := s.read l

/-- The hand-shake between the calculator and the sender. -/
def resultChannel (s : State) : Handshake (List CFloat) where
  free := s.senderSignal
  full := s.calcToSenderSignal
  producing := s.calculator.writing
  consumer := s.sender.consumer
  slot := s.cs.calculations.floats
  puts := s.signalled
  takes := s.sent ++ s.sender.inHand

/-! ## The invariant -/

/-- What a listener has stored and not yet announced is still in its half. -/
def Stored (s : State) : Prop :=
  ∀ l pack, s.listener l = .signalReady pack → (s.bs.half l).floats = getFloats pack

/-- **The invariant of the server.** -/
structure Inv (s : State) : Prop where
  half : ∀ l, (halfChannel l s).Lawful
  result : (resultChannel s).Balanced
  stored : Stored s

theorem inv_init (bufin : ListenerType → Buf) : Inv (init bufin) where
  half := fun _ => ⟨rfl, rfl⟩
  result := ⟨rfl, rfl⟩
  stored := fun _ _ h => by cases h

section Steps

variable {serverCalculations : List CFloat → List.Vector CFloat 4}

/-! ## One step, seen through the channels -/

/-- **Half channels.**  Every step of the server is an operation of the hand-shake
between listener `l` and the calculator, or none of its business. -/
theorem halfChannel_moves {s s' : State} {a : Action} (hi : Inv s)
    (hm : Move serverCalculations s a s') (l : ListenerType) :
    (halfChannel l s).Moves (halfChannel l s') := by
  have ht := (hi.half l).tokens_eq
  -- each of the calculator's steps concerns one port, but for the clean
  cases hm with
  | waitFirst hpc hflag =>
      cases l with
      | first =>
          refine Handshake.Moves.of_step .accept (by simp) ?_
          simp [Handshake.step, halfChannel, hpc, hflag]
      | second => exact .inl (by simp [halfChannel, hpc])
  | waitSecond hpc hflag =>
      cases l with
      | first => exact .inl (by simp [halfChannel, hpc])
      | second =>
          refine Handshake.Moves.of_step .accept (by simp) ?_
          simp [Handshake.step, halfChannel, hpc, hflag]
  | getFirst hpc =>
      cases l with
      | first =>
          refine Handshake.Moves.of_step .take (by simp) ?_
          simp [Handshake.step, halfChannel, hpc, BatchStock.half]
      | second => exact .inl (by simp [halfChannel, hpc])
  | getSecond firstBatch hpc =>
      cases l with
      | first => exact .inl (by simp [halfChannel, hpc])
      | second =>
          refine Handshake.Moves.of_step .take (by simp) ?_
          simp [Handshake.step, halfChannel, hpc, BatchStock.half]
  | cleanStock firstBatch secondBatch hpc =>
      have hlive := Handshake.not_live_of_taken ht (by simp [halfChannel, hpc])
      refine Handshake.Moves.of_write hlive SizedBuf.null.floats ?_
      cases l <;> simp [Handshake.step, halfChannel, hpc, BatchStock.half]
  | signalFirst firstBatch secondBatch hpc =>
      cases l with
      | first =>
          refine Handshake.Moves.of_step .release (by simp) ?_
          simp [Handshake.step, halfChannel, hpc]
      | second => exact .inl (by simp [halfChannel, hpc])
  | signalSecond firstBatch secondBatch hpc =>
      cases l with
      | first => exact .inl (by simp [halfChannel, hpc])
      | second =>
          refine Handshake.Moves.of_step .release (by simp) ?_
          simp [Handshake.step, halfChannel, hpc]
  | calculateRes firstBatch secondBatch copy hpc hcopy =>
      exact .inl (by simp [halfChannel, hpc])
  | waitForSender hpc hflag => exact .inl (by simp [halfChannel, hpc])
  | signalCalculated hpc => exact .inl (by simp [halfChannel, hpc])
  | waitForCalculator hpc hflag => exact .inl rfl
  | readCalcs hpc => exact .inl rfl
  | send calcs hpc => exact .inl rfl
  | signalReady hpc => exact .inl rfl
  | receive l' d pack hpc hpack =>
      by_cases hl : l = l'
      · subst hl
        exact .inl (by simp [halfChannel, hpc])
      · exact .inl (by simp [halfChannel, hl])
  | waitUntilCalcReads l' pack hpc hflag =>
      by_cases hl : l = l'
      · subst hl
        refine Handshake.Moves.of_step .acquire (by simp) ?_
        simp [Handshake.step, halfChannel, hpc, hflag]
      · exact .inl (by simp [halfChannel, hl])
  | store l' pack copy bs hpc hcopy hbs =>
      by_cases hl : l = l'
      · subst hl
        have hlive := Handshake.not_live_of_producing ht (by simp [halfChannel, hpc])
        refine Handshake.Moves.of_write hlive copy.floats ?_
        simp [Handshake.step, halfChannel, hpc, hbs]
      · exact .inl (by simp [halfChannel, hl, hbs])
  | listenerSignal l' pack hpc =>
      by_cases hl : l = l'
      · subst hl
        refine Handshake.Moves.of_step .publish (by simp) ?_
        simp [Handshake.step, halfChannel, hpc, hi.stored l pack hpc]
      · exact .inl (by simp [halfChannel, hl])

/-- The operation of the result channel that a step of the server amounts to: the write
of `calculate_res` is the only one. -/
theorem resultChannel_cases {s s' : State} {a : Action} (hm : Move serverCalculations s a s') :
    resultChannel s' = resultChannel s
      ∨ (∃ op, (∀ r, op ≠ .write r) ∧ (resultChannel s).step op = some (resultChannel s'))
      ∨ (∃ f g r, a = .calculator ∧ s.calculator = .calculateRes f g
          ∧ (resultChannel s).step (.write r) = some (resultChannel s')) := by
  cases hm with
  | calculateRes firstBatch secondBatch copy hpc hcopy =>
      refine .inr (.inr ⟨firstBatch, secondBatch, copy.floats, rfl, hpc, ?_⟩)
      simp [Handshake.step, resultChannel, hpc]
  | waitForSender hpc hflag =>
      refine .inr (.inl ⟨.acquire, by simp, ?_⟩)
      simp [Handshake.step, resultChannel, hpc, hflag]
  | signalCalculated hpc =>
      refine .inr (.inl ⟨.publish, by simp, ?_⟩)
      simp [Handshake.step, resultChannel, hpc]
  | waitForCalculator hpc hflag =>
      refine .inr (.inl ⟨.accept, by simp, ?_⟩)
      simp [Handshake.step, resultChannel, hpc, hflag]
  | readCalcs hpc =>
      refine .inr (.inl ⟨.take, by simp, ?_⟩)
      simp [Handshake.step, resultChannel, hpc]
  | send calcs hpc => exact .inl (by simp [resultChannel, hpc])
  | signalReady hpc =>
      refine .inr (.inl ⟨.release, by simp, ?_⟩)
      simp [Handshake.step, resultChannel, hpc]
  | receive l d pack hpc hpack => exact .inl rfl
  | waitUntilCalcReads l pack hpc hflag => exact .inl rfl
  | store l pack copy bs hpc hcopy hbs => exact .inl rfl
  | listenerSignal l pack hpc => exact .inl rfl
  | _ => exact .inl (by simp [resultChannel, *])

/-- **Result channel.**  Every step of the server is an operation of the hand-shake
between calculator and sender, overwriting ones included. -/
theorem resultChannel_movesAny {s s' : State} {a : Action}
    (hm : Move serverCalculations s a s') :
    (resultChannel s).MovesAny (resultChannel s') := by
  rcases resultChannel_cases hm with heq | ⟨op, -, hop⟩ | ⟨_, _, r, -, -, hop⟩
  · exact .inl heq
  · exact .inr ⟨op, hop⟩
  · exact .inr ⟨.write r, hop⟩

/-! ## The threads' own bookkeeping -/

/-- A listener's half is untouched until it announces it: the calculator cannot be
cleaning, and the other listener writes the other half. -/
theorem stored_move {s s' : State} {a : Action} (hi : Inv s)
    (hm : Move serverCalculations s a s') : Stored s' := by
  have hs := hi.stored
  cases hm with
  | cleanStock firstBatch secondBatch hpc =>
      intro l pack hl
      have hout := (Handshake.tokens_consuming (hi.half l).tokens_eq
        (by simp [halfChannel, hpc])).2.2
      have hin : (halfChannel l s).producing = true := by
        simp only [halfChannel]
        rw [show s.listener l = .signalReady pack from hl]
        rfl
      rw [hout] at hin
      cases hin
  | receive l' d pack' hpc hpack =>
      intro l pack hl
      by_cases hll : l = l'
      · subst hll
        simp at hl
      · exact hs l pack (by simpa [hll] using hl)
  | waitUntilCalcReads l' pack' hpc hflag =>
      intro l pack hl
      by_cases hll : l = l'
      · subst hll
        simp at hl
      · exact hs l pack (by simpa [hll] using hl)
  | store l' pack' copy bs hpc hcopy hbs =>
      intro l pack hl
      by_cases hll : l = l'
      · subst hll
        obtain rfl : pack' = pack := by simpa using hl
        simp [hbs, floats_of_copyOfPacket hcopy]
      · simpa [hbs, hll] using hs l pack (by simpa [hll] using hl)
  | listenerSignal l' pack' hpc =>
      intro l pack hl
      by_cases hll : l = l'
      · subst hll
        simp at hl
      · exact hs l pack (by simpa [hll] using hl)
  | _ => exact hs

/-- **Step lemma.**  Every step of the server keeps the invariant. -/
theorem inv_move {s s' : State} {a : Action} (hi : Inv s)
    (hm : Move serverCalculations s a s') : Inv s' where
  half := fun l => (hi.half l).moves (halfChannel_moves hi hm l)
  result := hi.result.moves (resultChannel_movesAny hm)
  stored := stored_move hi hm

/-- **Run lemma.**  The invariant holds in every reachable state, whatever the
interleaving and whatever arrives. -/
theorem inv_run {P : State → Action → Prop} {bufin : ListenerType → Buf} {as : List Action}
    {s : State} (h : Run (step serverCalculations) P (init bufin) as s) : Inv s := by
  apply h.invariant (inv_init bufin)
  intro s a s' hi _ hstep
  exact inv_move hi (step_move hstep)

/-! ## The result channel when nothing is overwritten -/

/-- A result was handed to the sender and `send_calcs` has not read it yet. -/
def resultPending (s : State) : Bool := s.calcToSenderSignal || s.sender.consumer.expecting

/-- The calculator is at `calculate_res`. -/
@[simp] def CalculatorPc.computing : CalculatorPc → Bool
  | .calculateRes _ _ => true
  | _ => false

/-- The discipline under which `calculate_res` runs only when the sender has read every
result handed to it. -/
def NoOverwrite (s : State) (a : Action) : Prop :=
  a = .calculator → s.calculator.computing = true → resultPending s = false

instance (s : State) (a : Action) : Decidable (NoOverwrite s a) :=
  inferInstanceAs (Decidable (_ → _ → _))

/-- **Step lemma of the result law.** -/
theorem resultChannel_moves {s s' : State} {a : Action} (hu : NoOverwrite s a)
    (hm : Move serverCalculations s a s') :
    (resultChannel s).Moves (resultChannel s') := by
  rcases resultChannel_cases hm with heq | ⟨op, hop, hs⟩ | ⟨f, g, r, ha, hpc, hs⟩
  · exact .inl heq
  · refine .inr ⟨op, ?_, hs⟩
    rintro ⟨-, r, rfl⟩
    exact hop r rfl
  · have hlive : (resultChannel s).live = false := hu ha (by rw [hpc]; rfl)
    exact Handshake.Moves.of_write hlive r hs

/-- **Run lemma of the result law.** -/
theorem resultChannel_run {P : State → Action → Prop} {bufin : ListenerType → Buf}
    {as : List Action} {s : State} (hP : ∀ s a, P s a → NoOverwrite s a)
    (h : Run (step serverCalculations) P (init bufin) as s) : (resultChannel s).Lawful := by
  apply h.invariant (I := fun s => (resultChannel s).Lawful) ⟨rfl, rfl⟩
  intro s a s' hl hPsa hstep
  exact hl.moves (resultChannel_moves (hP s a hPsa) (step_move hstep))

end Steps

end Server
