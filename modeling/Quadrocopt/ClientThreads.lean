/-
# The code of the client's threads

`Client.lean` takes each `wait_with_pack` and each `signal_with_pack` as one step.  Here the
three threads of the exchange run the code of the calls (`threading_stuff.c`), and print
under `io_mu` in between, as `run_sender.c` and `run_listener.c` do: every lock, unlock, test
of a flag, sleep, wake-up, assignment and `pthread_cond_signal` is a step of its own, and so
is every access to a stock and every send and receive.

The machine with calls of one step is the one of `Client.lean`; what is said here is where its
calls stand, and what the threads lock and print before each of their operations.  The client
is taken without DEBUG, in which case `get_u` prints nothing.
-/
import Quadrocopt.ClientPaths
import Quadrocopt.Threads

namespace Client

open Transition
open Threads (Instr Takes)
open ThreadConditionPack (Call)

/-- The threads of the exchange; the calculator is the main thread. -/
inductive Thread where
  | calculator
  | sender
  | listener
  deriving DecidableEq, Repr

/-- The condition packs of the exchange. -/
inductive Pack where
  | senderToSignal
  | senderFromSignal
  | listenerToSignal
  | listenerFromSignal
  deriving DecidableEq, Repr

/-- The mutexes other than those of the packs. -/
inductive Mutex where
  | ioMu
  deriving DecidableEq, Repr

/-- The thread that takes a step. -/
def actor : Action → Option Thread
  | .getU _ => some .calculator
  | .calculator => some .calculator
  | .sender => some .sender
  | .receive _ => some .listener
  | .listener => some .listener

/-- The step by which a thread makes the call it is at. -/
def callAct : Thread → Action
  | .calculator => .calculator
  | .sender => .sender
  | .listener => .listener

/-- The flags, and everything else. -/
def withFlags (flags : Pack → Bool) (s : State) : State :=
  { s with
    senderToSignal := flags .senderToSignal
    senderFromSignal := flags .senderFromSignal
    listenerToSignal := flags .listenerToSignal
    listenerFromSignal := flags .listenerFromSignal }

/-- The flags of `initialize_condition_packs`. -/
def initFlags : Pack → Bool
  | .senderToSignal => true
  | .senderFromSignal => false
  | .listenerToSignal => true
  | .listenerFromSignal => false

theorem withFlags_initFlags (bufin : Buf) : withFlags initFlags (init bufin) = init bufin := rfl

/-- The calls of `get_u`, of `run_sender` and of `run_listener`. -/
def call (s : State) : Thread → Option (Pack × Call)
  | .calculator =>
      match s.calculator with
      | .waitSender _ => some (.senderFromSignal, .wait)
      | .signalSender _ => some (.senderToSignal, .signal)
      | .waitListener => some (.listenerFromSignal, .wait)
      | .signalListener _ => some (.listenerToSignal, .signal)
      | _ => none
  | .sender =>
      match s.sender with
      | .waitCalculator => some (.senderToSignal, .wait)
      | .signalReady _ _ => some (.senderFromSignal, .signal)
      | _ => none
  | .listener =>
      match s.listener with
      | .waitCalculator _ => some (.listenerToSignal, .wait)
      | .signalReady _ => some (.listenerFromSignal, .signal)
      | _ => none

/-- The thread goes on to the operation after its call. -/
def advance (s : State) : Thread → State
  | .calculator =>
      match s.calculator with
      | .waitSender payload => { s with calculator := .addFirst payload }
      | .signalSender payload =>
          { s with calculator := .waitListener, requested := s.requested ++ [payload] }
      | .waitListener => { s with calculator := .getBatch }
      | .signalListener u => { s with calculator := .outside, returned := s.returned ++ [u] }
      | _ => s
  | .sender =>
      match s.sender with
      | .waitCalculator => { s with sender := .fetchFirst }
      | .signalReady firstBatch secondBatch =>
          { s with sender := .sendFirst firstBatch secondBatch }
      | _ => s
  | .listener =>
      match s.listener with
      | .waitCalculator pack => { s with listener := .store pack }
      | .signalReady pack =>
          { s with listener := .receive, replied := s.replied ++ [getFloats pack] }
      | _ => s

/-- `safe_print`, which the loops also write out in full. -/
def safePrint (text : String) : List (Instr Mutex) := [.lock .ioMu, .act text, .unlock .ioMu]

/-- The head of the loop of `run_sender`. -/
def senderRound : List (Instr Mutex) :=
  safePrint "[SENDER]: round %d\n" ++ safePrint "[SENDER]: waiting for the calculator\n"

/-- The head of the loop of `run_listener`. -/
def listenerRound : List (Instr Mutex) := safePrint "[LISTENER]: round %d\n"

/-- What a thread does first. -/
def start : Thread → List (Instr Mutex)
  | .calculator => []
  | .sender => senderRound
  | .listener => listenerRound

/-- What a thread does before the operation it has come to. -/
def before (s : State) : Thread → List (Instr Mutex)
  | .calculator => []
  | .sender =>
      match s.sender with
      | .waitCalculator => safePrint "[SENDER]: sent results\n" ++ senderRound
      | .sendFirst _ _ => [.act "fprintf out.txt"]
      | _ => []
  | .listener =>
      match s.listener with
      | .receive => listenerRound
      | .waitCalculator _ => safePrint "[LISTENER] received data\n"
      | _ => []

/-- The client's threads with the code of their calls. -/
def threads : Threads.Program Thread Pack Mutex State Action where
  step := step
  actor := actor
  withFlags := withFlags
  call := call
  callAct := callAct
  advance := advance
  start := start
  before := before

/-! ## The calls are those of the machine -/

theorem call_advance_of_ne (v : State) {t u : Thread} (hut : u ≠ t) :
    call (advance v t) u = call v u := by
  cases t
  case calculator =>
    cases u
    case calculator => exact absurd rfl hut
    all_goals cases hpc : v.calculator <;> simp [advance, call, hpc]
  case sender =>
    cases u
    case sender => exact absurd rfl hut
    all_goals cases hpc : v.sender <;> simp [advance, call, hpc]
  case listener =>
    cases u
    case listener => exact absurd rfl hut
    all_goals cases hpc : v.listener <;> simp [advance, call, hpc]

theorem Move.call_frame {v v' : State} {a : Action} {u : Thread} (hm : Move v a v')
    (hu : actor a ≠ some u) : call v' u = call v u := by
  cases hm <;> cases u <;> first | rfl | exact absurd rfl hu

theorem threads_frames : Threads.Frames threads where
  advance v _ _ hut := call_advance_of_ne v hut
  step _ _ _ _ hstep hu := (step_move hstep).call_frame hu

/-- A step that is not a call does not look at the flags. -/
theorem step_withFlags {v : State} {a : Action} (hcall : ∀ t, actor a = some t → call v t = none)
    (f : Pack → Bool) : step (withFlags f v) a = (step v a).map (withFlags f) := by
  cases a with
  | getU payload => cases hpc : v.calculator <;> simp [step, callGetU, withFlags, hpc]
  | calculator =>
      have hnone := hcall .calculator rfl
      cases hpc : v.calculator <;> simp [call, hpc] at hnone <;>
        simp [step, stepCalculator, withFlags, hpc, Function.comp_def]
  | sender =>
      have hnone := hcall .sender rfl
      cases hpc : v.sender <;> simp [call, hpc] at hnone
      all_goals simp [step, stepSender, withFlags, hpc]
  | receive d =>
      cases hpc : v.listener <;> cases hpack : bytesToPack (recvfrom v.bufin d) <;>
        simp [step, stepReceive, withFlags, hpc, hpack]
  | listener =>
      have hnone := hcall .listener rfl
      cases hpc : v.listener <;> simp [call, hpc] at hnone
      all_goals simp [step, stepListener, withFlags, hpc, Function.comp_def]

/-- A wait or a signal of the code is the wait or the signal of one step. -/
theorem step_callAct {v : State} {t : Thread} {p : Pack} {c : Call}
    (hcall : call v t = some (p, c)) (f : Pack → Bool) :
    step (withFlags f v) (callAct t) =
      if c = .wait ∧ f p = false then none
      else some (withFlags (Function.update f p (Threads.flagAfter c)) (advance v t)) := by
  cases t
  case calculator =>
    cases hpc : v.calculator <;> simp only [call, hpc, reduceCtorEq] at hcall <;> cases hcall
    case waitSender payload =>
      cases hf : f .senderFromSignal <;>
        simp [callAct, step, stepCalculator, withFlags, advance, Threads.flagAfter, hpc, hf,
          waitWithPack]
    case waitListener =>
      cases hf : f .listenerFromSignal <;>
        simp [callAct, step, stepCalculator, withFlags, advance, Threads.flagAfter, hpc, hf,
          waitWithPack]
    all_goals
      simp [callAct, step, stepCalculator, withFlags, advance, Threads.flagAfter, hpc,
        signalWithPack]
  case sender =>
    cases hpc : v.sender <;> simp only [call, hpc, reduceCtorEq] at hcall <;> cases hcall
    case waitCalculator =>
      cases hf : f .senderToSignal <;>
        simp [callAct, step, stepSender, withFlags, advance, Threads.flagAfter, hpc, hf,
          waitWithPack]
    case signalReady firstBatch secondBatch =>
      simp [callAct, step, stepSender, withFlags, advance, Threads.flagAfter, hpc, signalWithPack]
  case listener =>
    cases hpc : v.listener <;> simp only [call, hpc, reduceCtorEq] at hcall <;> cases hcall
    case waitCalculator pack =>
      cases hf : f .listenerToSignal <;>
        simp [callAct, step, stepListener, withFlags, advance, Threads.flagAfter, hpc, hf,
          waitWithPack]
    case signalReady pack =>
      simp [callAct, step, stepListener, withFlags, advance, Threads.flagAfter, hpc,
        signalWithPack]

/-- A thread at a call can do nothing else. -/
theorem step_eq_none_of_call {v : State} {t : Thread} {pc : Pack × Call} {a : Action}
    (hcall : call v t = some pc) (hactor : actor a = some t) (hne : a ≠ callAct t)
    (f : Pack → Bool) : step (withFlags f v) a = none := by
  cases a <;> obtain rfl := Option.some.inj hactor
  case getU payload =>
    cases hpc : v.calculator <;> simp [call, hpc] at hcall <;>
      simp [step, callGetU, withFlags, hpc]
  case receive d =>
    cases hpc : v.listener <;> simp [call, hpc] at hcall <;>
      simp [step, stepReceive, withFlags, hpc]
  all_goals exact absurd rfl hne

theorem threads_oneStep : Threads.OneStep threads where
  call _ _ _ _ f hcall := step_callAct hcall f
  only _ _ _ _ f hcall hactor hne := step_eq_none_of_call hcall hactor hne f
  op _ _ f hcall := step_withFlags hcall f

/-- No operation of the client is inside a locked section. -/
theorem threads_sections : Threads.Sections threads (fun _ _ => none) where
  call _ _ _ _ := rfl
  advance v t pc hcall := by
    cases t
    case calculator => rfl
    case sender =>
      cases hpc : v.sender <;> simp [threads, call, hpc] at hcall
      all_goals simp [threads, advance, before, hpc, Takes]
    case listener =>
      cases hpc : v.listener <;> simp [threads, call, hpc] at hcall <;>
        simp [threads, advance, before, hpc, Takes, listenerRound, safePrint]
  step v a v' t hstep hactor hcall := by
    cases t
    case calculator => rfl
    case sender =>
      cases hpc : v'.sender <;>
        simp [threads, before, hpc, Takes, senderRound, safePrint]
    case listener =>
      cases hpc : v'.listener <;>
        simp [threads, before, hpc, Takes, listenerRound, safePrint]
  advance_frame _ _ _ _ := rfl
  step_frame _ _ _ _ _ _ := rfl

theorem takes_start (t : Thread) : Takes none (start t) (none : Option Mutex) := by
  cases t <;> simp [start, senderRound, listenerRound, safePrint, Takes]

variable {P : Threads.State Thread Pack Mutex State → Threads.Action Thread Pack Action → Prop}
  {bufin : Buf} {as : List (Threads.Action Thread Pack Action)}
  {s : Threads.State Thread Pack Mutex State}

/-- **The client's code refines the client with calls of one step**, with the same `get_u`
calls and the same datagrams. -/
theorem threads_refines {Q : State → Action → Prop} (hcall : ∀ v t, Q v (callAct t))
    (hop : ∀ s a, P s (.op a) → Q (threads.view s) a)
    (h : Run (Threads.step threads) P (Threads.init threads initFlags (init bufin)) as s) :
    ∃ bs, Run step Q (init bufin) bs (threads.view s) ∧
      payloads bs = payloads (Threads.ops as) ∧ datagrams bs = datagrams (Threads.ops as) := by
  obtain ⟨bs, hbs, hops⟩ := Threads.view_run threads_frames threads_oneStep hcall hop h
  exact ⟨bs, hbs, hops _ _ (fun t => by cases t <;> rfl), hops _ _ (fun t => by cases t <;> rfl)⟩

/-- Every receive of the run returns a well-formed datagram. -/
def WellFormedOp (_s : Threads.State Thread Pack Mutex State)
    (a : Threads.Action Thread Pack Action) : Prop :=
  ∀ d, a = .op (.receive d) → WellFormed d

/-- **Both paths of the client, in its code.**  In any interleaving of the locks, tests,
sleeps, wake-ups and assignments of the three threads, the sender emits the zero batches and
then the halves of the payloads of the `get_u` calls, in order, and the calls return the
first four floats of the datagrams received, in order. -/
theorem code_paths
    (h : Run (Threads.step threads) WellFormedOp (Threads.init threads initFlags (init bufin))
      as s) :
    s.vars.emitted <+: (initialPayload :: payloads (Threads.ops as)).map halves ∧
      s.vars.returned <+: (datagrams (Threads.ops as)).map fun d => (floatsOf d).take 4 := by
  obtain ⟨bs, hbs, hpayloads, hdatagrams⟩ :=
    threads_refines (Q := WellFormedReceive) (fun _ t d hd => by cases t <;> cases hd)
      (fun _ a hwf d hd => hwf d (by rw [hd])) h
  rw [← hpayloads, ← hdatagrams, datagrams_eq hbs]
  have hemitted := emitted_prefix_requests hbs
  have hreturned := returned_prefix_received hbs
  exact ⟨(List.prefix_append _ _).trans hemitted, hreturned⟩

/-- So many steps of a thread. -/
def stepsOf (n : ℕ) (t : Thread) : List (Threads.Action Thread Pack Action) :=
  List.replicate n (.thread t)

/-- A signal on a pack where nobody sleeps. -/
def signalSteps (t : Thread) : List (Threads.Action Thread Pack Action) :=
  stepsOf 3 t ++ [.condSignal t [], .thread t]

/-- The listener hands over a reply, the sender fetches the zero batches, and a call of
`get_u` goes through; then the sender sends. -/
def callSteps : List (Threads.Action Thread Pack Action) :=
  stepsOf 3 .listener ++ .op (.receive (datagramOf [1, 2, 3, 4])) :: stepsOf 8 .listener
    ++ .op .listener :: signalSteps .listener
    ++ stepsOf 11 .sender ++ List.replicate 2 (.op .sender) ++ signalSteps .sender
    ++ .op (.getU samplePayload) :: stepsOf 5 .calculator ++ List.replicate 2 (.op .calculator)
    ++ signalSteps .calculator ++ stepsOf 5 .calculator ++ List.replicate 2 (.op .calculator)
    ++ signalSteps .calculator ++ .thread .sender :: List.replicate 2 (.op .sender)

theorem code_paths_one_call :
    ∃ s, Run (Threads.step threads) WellFormedOp (Threads.init threads initFlags (init fun _ => 0))
        callSteps s ∧ (s.vars.emitted.length, s.vars.returned) = (1, [[1, 2, 3, 4]]) ∧
      s.vars.returned <+:
        (datagrams (Threads.ops callSteps)).map fun d => (floatsOf d).take 4 := by
  obtain ⟨s, hrun, hobs⟩ := Option.map_eq_some_iff.mp
    (by decide +kernel :
      (run (Threads.step threads) (Threads.init threads initFlags (init fun _ => 0))
        callSteps).map (fun s => (s.vars.emitted.length, s.vars.returned)) =
      some (1, [[1, 2, 3, 4]]))
  have h : Run (Threads.step threads) WellFormedOp
      (Threads.init threads initFlags (init fun _ => 0)) callSteps s := by
    refine Run.of_run hrun fun _ a ha d hd => ?_
    obtain rfl : d = datagramOf [1, 2, 3, 4] := by
      rw [hd] at ha
      simpa [callSteps, stepsOf, signalSteps] using ha
    exact wellFormed_datagramOf _ (by decide)
  exact ⟨s, h, hobs, (code_paths h).2⟩

/-! ## Who accesses a stock while another does -/

/-- The stocks that threads share. -/
inductive Stock where
  | senderStock
  | listenerStock
  deriving DecidableEq, Repr

/-- The stock that a thread's operation accesses, and whether it writes it. -/
def access (s : State) : Thread → Option (Stock × Bool)
  | .calculator =>
      match s.calculator with
      | .addFirst _ => some (.senderStock, true)
      | .addSecond _ => some (.senderStock, true)
      | .getBatch => some (.listenerStock, false)
      | .cleanBatch _ => some (.listenerStock, true)
      | _ => none
  | .sender =>
      match s.sender with
      | .fetchFirst => some (.senderStock, false)
      | .fetchSecond _ => some (.senderStock, false)
      | _ => none
  | .listener =>
      match s.listener with
      | .store _ => some (.listenerStock, true)
      | _ => none

/-- The calculator is not at a stock while the sender or the listener is. -/
theorem access_calculator_ne {v : State} (h : Inv v) {t : Thread} (ht : t ≠ .calculator)
    {x : Stock} {w w' : Bool} (hx : access v t = some (x, w)) :
    access v .calculator ≠ some (x, w') := by
  intro hc
  cases t
  case calculator => exact ht rfl
  case sender =>
    have hconsumer : (requestChannel v).consumer ≠ .idle := by
      cases hpc : v.sender <;> simp [access, hpc] at hx <;> simp [requestChannel, hpc]
    have hwriting := (Handshake.tokens_consuming h.request.tokens_eq hconsumer).2.2
    cases hpc : v.calculator <;> simp [requestChannel, hpc] at hwriting <;>
      cases hpc' : v.sender <;> simp [access, hpc, hpc'] at hc hx <;> simp [← hc] at hx
  case listener =>
    have hproducing : (replyChannel v).producing = true := by
      cases hpc : v.listener <;> simp [access, hpc] at hx
      simp [replyChannel, hpc]
    have hidle := (Handshake.tokens_producing h.reply.tokens_eq hproducing).2.2
    cases hpc : v.calculator <;> simp [replyChannel, hpc] at hidle <;>
      cases hpc' : v.listener <;> simp [access, hpc, hpc'] at hc hx <;> simp [← hc] at hx

/-- **The client's threads never access a stock at once**, in any interleaving of their
code. -/
theorem not_race
    (h : Run (Threads.step threads) P (Threads.init threads initFlags (init bufin)) as s)
    (x : Stock) : ¬ Threads.Race threads access s x := by
  obtain ⟨bs, hview, -⟩ :=
    threads_refines (Q := Any) (fun _ _ => trivial) (fun _ _ _ => trivial) h
  have hinv : Inv (threads.view s) := inv_run hview
  rintro ⟨t, u, hne, -, -, hwrite, w, hw⟩
  by_cases ht : t = .calculator
  · subst ht
    exact access_calculator_ne hinv hne.symm hw hwrite
  · by_cases hu : u = .calculator
    · subst hu
      exact access_calculator_ne hinv ht hwrite hw
    · -- the sender and the listener have no stock in common
      cases t <;> cases u <;> first
        | exact ht rfl
        | exact hu rfl
        | exact hne rfl
        | (cases hpc : s.vars.sender <;> cases hpc' : s.vars.listener <;>
            simp [access, hpc, hpc'] at hwrite hw <;> simp [← hwrite] at hw)

/-- The sender has come to read the zero batches. -/
theorem not_race_fetching :
    ∃ s, Run (Threads.step threads) Any (Threads.init threads initFlags (init fun _ => 0))
        (stepsOf 11 .sender) s ∧ access s.vars .sender = some (.senderStock, false) ∧
      ¬ Threads.Race threads access s .senderStock := by
  obtain ⟨s, h, hobs⟩ := Run.of_observed
    (by decide +kernel :
      (run (Threads.step threads) (Threads.init threads initFlags (init fun _ => 0))
        (stepsOf 11 .sender)).map (fun s => access s.vars .sender) =
      some (some (.senderStock, false)))
  exact ⟨s, h, hobs, not_race h .senderStock⟩

end Client
