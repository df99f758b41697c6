/-
# The code of the server's threads

The four threads of the server with the code of their waits and signals, as in
`ClientThreads.lean`.  The waits and signals are those of `threading_stuff.c` written out in
`main.c`, `run_listener.c` and `run_sender.c`.

Two mutexes stand outside of the packs: `io_mu` around the prints, and
`batch_stock_access_mu` around the write of a listener into the stock.  `read_batches` of the
calculator takes neither, and prints the halves without `io_mu`; so does the sender with the
address it sends to.  No thread locks `client_addr_mu`.
-/
import Quadrocopt.ServerPaths
import Quadrocopt.Threads

namespace Server

open Transition
open Threads (Instr Takes)
open ThreadConditionPack (Call)

/-- The threads; the calculator is the main thread. -/
inductive Thread where
  | calculator
  | sender
  | listener (l : ListenerType)
  deriving DecidableEq, Repr

/-- The condition packs of `initialize_condition_packs`. -/
inductive Pack where
  | listenerSignal (l : ListenerType)
  | calcSignalToListener (l : ListenerType)
  | calcToSenderSignal
  | senderSignal
  deriving DecidableEq, Repr

/-- The mutexes other than those of the packs. -/
inductive Mutex where
  | ioMu
  | batchStockAccessMu
  deriving DecidableEq, Repr

/-- The thread that takes a step. -/
def actor : Action → Option Thread
  | .calculator => some .calculator
  | .sender => some .sender
  | .receive l _ => some (.listener l)
  | .listener l => some (.listener l)

/-- The step by which a thread makes the call it is at. -/
def callAct : Thread → Action
  | .calculator => .calculator
  | .sender => .sender
  | .listener l => .listener l

/-- The flags, and everything else. -/
def withFlags (flags : Pack → Bool) (s : State) : State :=
  { s with
    listenerSignal := fun l => flags (.listenerSignal l)
    calcSignalToListener := fun l => flags (.calcSignalToListener l)
    calcToSenderSignal := flags .calcToSenderSignal
    senderSignal := flags .senderSignal }

/-- The flags of `initialize_condition_packs`. -/
def initFlags : Pack → Bool
  | .listenerSignal _ => false
  | .calcSignalToListener _ => true
  | .calcToSenderSignal => false
  | .senderSignal => true

theorem withFlags_initFlags (bufin : ListenerType → Buf) :
    withFlags initFlags (init bufin) = init bufin := rfl

/-- The calls of the loop of `main`, of `run_sender` and of `run_listener`. -/
def call (s : State) : Thread → Option (Pack × Call)
  | .calculator =>
      match s.calculator with
      | .waitFirst => some (.listenerSignal .first, .wait)
      | .waitSecond => some (.listenerSignal .second, .wait)
      | .signalFirst _ _ => some (.calcSignalToListener .first, .signal)
      | .signalSecond _ _ => some (.calcSignalToListener .second, .signal)
      | .waitForSender => some (.senderSignal, .wait)
      | .signalCalculated => some (.calcToSenderSignal, .signal)
      | _ => none
  | .sender =>
      match s.sender with
      | .waitForCalculator => some (.calcToSenderSignal, .wait)
      | .signalReady => some (.senderSignal, .signal)
      | _ => none
  | .listener l =>
      match s.listener l with
      | .waitUntilCalcReads _ => some (.calcSignalToListener l, .wait)
      | .signalReady _ => some (.listenerSignal l, .signal)
      | _ => none

/-- The thread goes on to the operation after its call. -/
def advance (s : State) : Thread → State
  | .calculator =>
      match s.calculator with
      | .waitFirst => { s with calculator := .waitSecond }
      | .waitSecond => { s with calculator := .getFirst }
      | .signalFirst firstBatch secondBatch =>
          { s with calculator := .signalSecond firstBatch secondBatch }
      | .signalSecond firstBatch secondBatch =>
          { s with calculator := .calculateRes firstBatch secondBatch }
      | .waitForSender => { s with calculator := .signalCalculated }
      | .signalCalculated =>
          { s with
            calculator := .waitFirst
            signalled := s.signalled ++ [s.cs.calculations.floats] }
      | _ => s
  | .sender =>
      match s.sender with
      | .waitForCalculator => { s with sender := .readCalcs }
      | .signalReady => { s with sender := .waitForCalculator }
      | _ => s
  | .listener l =>
      match s.listener l with
      | .waitUntilCalcReads pack =>
          { s with listener := Function.update s.listener l (.store pack) }
      | .signalReady pack =>
          { s with
            listener := Function.update s.listener l .receive
            handed := Function.update s.handed l (s.handed l ++ [getFloats pack]) }
      | _ => s

/-- `safe_print`, which the loops also write out in full. -/
def safePrint (text : String) : List (Instr Mutex) := [.lock .ioMu, .act text, .unlock .ioMu]

/-- The head of the loop of `main`. -/
def calculatorRound : List (Instr Mutex) := safePrint "[CALCULATOR]: round %d\n"

/-- The head of the loop of `run_sender`. -/
def senderRound : List (Instr Mutex) :=
  safePrint "[SENDER]: round %d\n" ++ safePrint "[SENDER]: waiting for the calculator\n"

/-- The head of the loop of `run_listener`. -/
def listenerRound : List (Instr Mutex) := safePrint "[LISTENER]: round %d\n"

/-- What a thread does first. -/
def start : Thread → List (Instr Mutex)
  | .calculator => calculatorRound
  | .sender => senderRound
  | .listener _ => listenerRound

/-- What a thread does before the operation it has come to. -/
def before (s : State) : Thread → List (Instr Mutex)
  | .calculator =>
      match s.calculator with
      | .waitFirst => calculatorRound
      | .signalFirst _ _ =>
          [.act "First batch: ", .act "\nSecond batch: ", .act "\n"]
            ++ safePrint "[CALCULATOR]: batches read\n" ++ [.act "rand_sleep"]
      | .waitForSender => safePrint "[CALCULATOR]: results calculated\n"
      | _ => []
  | .sender =>
      match s.sender with
      | .waitForCalculator => senderRound
      | .send _ => [.act "print_sockaddr"]
      | .signalReady => safePrint "[SENDER]: sent results\n"
      | _ => []
  | .listener l =>
      match s.listener l with
      | .receive => listenerRound
      | .waitUntilCalcReads _ => safePrint "[LISTENER %d] received data\n"
      -- the lock and the unlock of `store_batch`
      | .store _ => [.lock .batchStockAccessMu]
      | .signalReady _ => .unlock .batchStockAccessMu :: safePrint "Listener %d: Batch stored\n"

/-- The mutex that a thread holds when it has come to its operation. -/
def inside (s : State) : Thread → Option Mutex
  | .listener l =>
      match s.listener l with
      | .store _ => some .batchStockAccessMu
      | _ => none
  | _ => none

section Steps

variable (serverCalculations : List CFloat → List.Vector CFloat 4)

/-- The server's threads with the code of their calls. -/
def threads : Threads.Program Thread Pack Mutex State Action where
  step := step serverCalculations
  actor := actor
  withFlags := withFlags
  call := call
  callAct := callAct
  advance := advance
  start := start
  before := before

variable {serverCalculations} {v v' : State} {a : Action} {t u : Thread}

/-! ## The calls are those of the machine -/

theorem frame_of_listener {l : ListenerType} (h : v'.listener l = v.listener l) :
    call v' (.listener l) = call v (.listener l) ∧
      inside v' (.listener l) = inside v (.listener l) := by
  simp [call, inside, h]

/-- A call changes where its thread is, and nobody else. -/
theorem advance_frame (v : State) (hut : u ≠ t) :
    call (advance v t) u = call v u ∧ inside (advance v t) u = inside v u := by
  cases t with
  | calculator =>
      cases u with
      | calculator => exact absurd rfl hut
      | _ => cases hpc : v.calculator <;> simp [advance, call, inside, hpc]
  | sender =>
      cases u with
      | sender => exact absurd rfl hut
      | _ => cases hpc : v.sender <;> simp [advance, call, inside, hpc]
  | listener l =>
      cases u with
      | calculator => cases hpc : v.listener l <;> simp [advance, call, inside, hpc]
      | sender => cases hpc : v.listener l <;> simp [advance, call, inside, hpc]
      | listener l' =>
          have hne : l' ≠ l := fun heq => hut (by rw [heq])
          apply frame_of_listener
          cases hpc : v.listener l <;> simp [advance, hpc, Function.update_of_ne hne]

theorem Move.call_frame (hm : Move serverCalculations v a v') (hu : actor a ≠ some u) :
    call v' u = call v u ∧ inside v' u = inside v u := by
  cases u with
  | listener l' =>
      apply frame_of_listener
      cases hm <;> first
        | rfl
        | exact Function.update_of_ne (fun heq => hu (by rw [heq]; rfl)) _ _
  | _ => cases hm <;> first | exact ⟨rfl, rfl⟩ | exact absurd rfl hu

theorem threads_frames : Threads.Frames (threads serverCalculations) where
  advance v _ _ hut := (advance_frame v hut).1
  step _ _ _ _ hstep hu := ((step_move hstep).call_frame hu).1

/-- A step that is not a call does not look at the flags. -/
theorem step_withFlags (hcall : ∀ t, actor a = some t → call v t = none) (f : Pack → Bool) :
    step serverCalculations (withFlags f v) a =
      (step serverCalculations v a).map (withFlags f) := by
  cases a with
  | calculator =>
      have hnone := hcall .calculator rfl
      cases hpc : v.calculator <;> simp [call, hpc] at hnone <;>
        simp [step, stepCalculator, withFlags, hpc, Function.comp_def]
  | sender =>
      have hnone := hcall .sender rfl
      cases hpc : v.sender <;> simp [call, hpc] at hnone <;>
        simp [step, stepSender, withFlags, hpc]
  | receive l d =>
      cases hpc : v.listener l <;> cases hpack : bytesToPack (recvfrom (v.bufin l) d) <;>
        simp [step, stepReceive, withFlags, hpc, hpack]
  | listener l =>
      have hnone := hcall (.listener l) rfl
      cases hpc : v.listener l <;> simp [call, hpc] at hnone <;>
        simp [step, stepListener, withFlags, hpc, Function.comp_def]

/-- The flags of one listener after a call on another pack, or on its own. -/
theorem update_listenerSignal (f : Pack → Bool) (l : ListenerType) (b : Bool) :
    (fun l' => Function.update f (.listenerSignal l) b (.listenerSignal l')) =
      Function.update (fun l' => f (.listenerSignal l')) l b := by
  funext l'
  simp [Function.update_apply]

theorem update_calcSignalToListener (f : Pack → Bool) (l : ListenerType) (b : Bool) :
    (fun l' => Function.update f (.calcSignalToListener l) b (.calcSignalToListener l')) =
      Function.update (fun l' => f (.calcSignalToListener l')) l b := by
  funext l'
  simp [Function.update_apply]

/-- A wait or a signal of the code is the wait or the signal of one step. -/
theorem step_callAct {p : Pack} {c : Call} (hcall : call v t = some (p, c)) (f : Pack → Bool) :
    step serverCalculations (withFlags f v) (callAct t) =
      if c = .wait ∧ f p = false then none
      else some (withFlags (Function.update f p (Threads.flagAfter c)) (advance v t)) := by
  cases t
  case calculator =>
    cases hpc : v.calculator <;> simp only [call, hpc, reduceCtorEq] at hcall <;> cases hcall
    case waitFirst =>
      cases hf : f (.listenerSignal .first) <;>
        simp [callAct, step, stepCalculator, withFlags, advance, Threads.flagAfter, hpc, hf,
          waitWithPack, update_listenerSignal]
    case waitSecond =>
      cases hf : f (.listenerSignal .second) <;>
        simp [callAct, step, stepCalculator, withFlags, advance, Threads.flagAfter, hpc, hf,
          waitWithPack, update_listenerSignal]
    case waitForSender =>
      cases hf : f .senderSignal <;>
        simp [callAct, step, stepCalculator, withFlags, advance, Threads.flagAfter, hpc, hf,
          waitWithPack]
    all_goals
      simp [callAct, step, stepCalculator, withFlags, advance, Threads.flagAfter, hpc,
        signalWithPack, update_calcSignalToListener]
  case sender =>
    cases hpc : v.sender <;> simp only [call, hpc, reduceCtorEq] at hcall <;> cases hcall
    case waitForCalculator =>
      cases hf : f .calcToSenderSignal <;>
        simp [callAct, step, stepSender, withFlags, advance, Threads.flagAfter, hpc, hf,
          waitWithPack]
    case signalReady =>
      simp [callAct, step, stepSender, withFlags, advance, Threads.flagAfter, hpc,
        signalWithPack]
  case listener l =>
    cases hpc : v.listener l <;> simp only [call, hpc, reduceCtorEq] at hcall <;> cases hcall
    case waitUntilCalcReads pack =>
      cases hf : f (.calcSignalToListener l) <;>
        simp [callAct, step, stepListener, withFlags, advance, Threads.flagAfter, hpc, hf,
          waitWithPack, update_calcSignalToListener]
    case signalReady pack =>
      simp [callAct, step, stepListener, withFlags, advance, Threads.flagAfter, hpc,
        signalWithPack, update_listenerSignal]

/-- A thread at a call can do nothing else. -/
theorem step_eq_none_of_call {pc : Pack × Call} (hcall : call v t = some pc)
    (hactor : actor a = some t) (hne : a ≠ callAct t) (f : Pack → Bool) :
    step serverCalculations (withFlags f v) a = none := by
  cases a <;> obtain rfl := Option.some.inj hactor
  case receive l d =>
    cases hpc : v.listener l <;> simp [call, hpc] at hcall <;>
      simp [step, stepReceive, withFlags, hpc]
  all_goals exact absurd rfl hne

theorem threads_oneStep : Threads.OneStep (threads serverCalculations) where
  call _ _ _ _ f hcall := step_callAct hcall f
  only _ _ _ _ f hcall hactor hne := step_eq_none_of_call hcall hactor hne f
  op _ _ f hcall := step_withFlags hcall f

/-- A listener stores its batch inside the section of `batch_stock_access_mu`; no other
operation is inside a section. -/
theorem threads_sections : Threads.Sections (threads serverCalculations) inside where
  call v t pc hcall := by
    cases t with
    | listener l =>
        cases hpc : v.listener l <;> simp [threads, call, hpc] at hcall <;> simp [inside, hpc]
    | _ => rfl
  advance v t pc hcall := by
    cases t with
    | calculator =>
        cases hpc : v.calculator <;> simp [threads, call, hpc] at hcall <;>
          simp [threads, advance, before, inside, hpc, Takes, calculatorRound, safePrint]
    | sender =>
        cases hpc : v.sender <;> simp [threads, call, hpc] at hcall <;>
          simp [threads, advance, before, inside, hpc, Takes, senderRound, safePrint]
    | listener l =>
        cases hpc : v.listener l <;> simp [threads, call, hpc] at hcall <;>
          simp [threads, advance, before, inside, hpc, Takes, listenerRound, safePrint]
  step v a v' t hstep hactor hcall := by
    cases step_move hstep <;> obtain rfl := Option.some.inj hactor
    all_goals
      simp_all [threads, call, before, inside, Takes, safePrint]
  advance_frame v _ _ hut := (advance_frame v hut).2
  step_frame _ _ _ _ hstep hu := ((step_move hstep).call_frame hu).2

theorem takes_start (bufin : ListenerType → Buf) (t : Thread) :
    Takes none (start t) (inside (init bufin) t) := by
  cases t <;> simp [start, calculatorRound, senderRound, listenerRound, safePrint, Takes, inside,
    init]

variable {P : Threads.State Thread Pack Mutex State → Threads.Action Thread Pack Action → Prop}
  {bufin : ListenerType → Buf} {as : List (Threads.Action Thread Pack Action)}
  {s : Threads.State Thread Pack Mutex State}

/-- **The server's code refines the server with calls of one step**, with the same
datagrams. -/
theorem threads_refines {Q : State → Action → Prop} (hcall : ∀ v t, Q v (callAct t))
    (hop : ∀ s a, P s (.op a) → Q ((threads serverCalculations).view s) a)
    (h : Run (Threads.step (threads serverCalculations)) P
      (Threads.init (threads serverCalculations) initFlags (init bufin)) as s) :
    ∃ bs, Run (step serverCalculations) Q (init bufin) bs
        ((threads serverCalculations).view s) ∧
      ∀ l, datagrams l bs = datagrams l (Threads.ops as) := by
  obtain ⟨bs, hbs, hops⟩ := Threads.view_run threads_frames threads_oneStep hcall hop h
  exact ⟨bs, hbs, fun l => hops _ _ (fun t => by cases t <;> rfl)⟩

/-- Every receive of the run returns a well-formed datagram. -/
def WellFormedOp (_s : Threads.State Thread Pack Mutex State)
    (a : Threads.Action Thread Pack Action) : Prop :=
  ∀ l d, a = .op (.receive l d) → WellFormed d

/-- **The server pairs its inputs in order, in its code.**  In any interleaving of the locks,
tests, sleeps, wake-ups and assignments of the four threads, the `n`-th computation uses the
floats of the `n`-th datagram of each port. -/
theorem code_pairs_in_order
    (h : Run (Threads.step (threads serverCalculations)) WellFormedOp
      (Threads.init (threads serverCalculations) initFlags (init bufin)) as s) :
    s.vars.computed.map Prod.fst <+: (datagrams .first (Threads.ops as)).map floatsOf ∧
      s.vars.computed.map Prod.snd <+: (datagrams .second (Threads.ops as)).map floatsOf := by
  obtain ⟨bs, hbs, hdatagrams⟩ :=
    threads_refines (Q := WellFormedReceive) (fun _ t l d hd => by cases t <;> cases hd)
      (fun _ a hwf l d hd => hwf l d (by rw [hd])) h
  rw [← hdatagrams, ← hdatagrams, datagrams_eq hbs, datagrams_eq hbs]
  exact ⟨computed_prefix_received hbs .first, computed_prefix_received hbs .second⟩

/-! ## Who accesses a stock while another does -/

/-- The stocks that threads share. -/
inductive Stock where
  | batchStock
  | calculationsStock
  deriving DecidableEq, Repr

/-- The stock that a thread's operation accesses, and whether it writes it. -/
def access (s : State) : Thread → Option (Stock × Bool)
  | .calculator =>
      match s.calculator with
      | .getFirst => some (.batchStock, false)
      | .getSecond _ => some (.batchStock, false)
      | .cleanStock _ _ => some (.batchStock, true)
      | .calculateRes _ _ => some (.calculationsStock, true)
      | _ => none
  | .sender =>
      match s.sender with
      | .readCalcs => some (.calculationsStock, false)
      | _ => none
  | .listener l =>
      match s.listener l with
      | .store _ => some (.batchStock, true)
      | _ => none

/-- The calculator reads and cleans the stock while no listener is about to store, without
taking the mutex they take. -/
theorem access_calculator_ne (h : Inv v) {l : ListenerType} {w : Bool}
    (hl : access v (.listener l) = some (.batchStock, true)) :
    access v .calculator ≠ some (.batchStock, w) := by
  intro hc
  have hproducing : (halfChannel l v).producing = true := by
    simp only [access] at hl
    simp only [halfChannel]
    split at hl
    · next pack hpc => rw [hpc]; rfl
    · cases hl
  have hidle := (Handshake.tokens_producing (h.half l).tokens_eq hproducing).2.2
  simp only [halfChannel] at hidle
  cases hpc : v.calculator <;> rw [hpc] at hidle <;> simp [access, hpc] at hc <;>
    cases l <;> cases hidle

/-- The two listeners exclude each other by `batch_stock_access_mu`, a listener and the
calculator by their hand-shake. -/
theorem not_race_batchStock
    (h : Run (Threads.step (threads serverCalculations)) P
      (Threads.init (threads serverCalculations) initFlags (init bufin)) as s) :
    ¬ Threads.Race (threads serverCalculations) access s .batchStock := by
  obtain ⟨bs, hview, -⟩ :=
    threads_refines (Q := Any) (fun _ _ => trivial) (fun _ _ _ => trivial) h
  have hinv : Inv ((threads serverCalculations).view s) := inv_run hview
  rintro ⟨t, u, hne, ht, hu, hwrite, w, hw⟩
  cases t with
  | sender => cases hpc : s.vars.sender <;> simp [access, hpc] at hwrite
  | calculator =>
      cases u with
      | calculator => exact hne rfl
      | sender => cases hpc : s.vars.sender <;> simp [access, hpc] at hw
      | listener l =>
          refine access_calculator_ne hinv (l := l) ?_ hwrite
          cases hpc : s.vars.listener l <;> simp [access, hpc] at hw
          simp [access, threads, Threads.Program.view, withFlags, hpc]
  | listener l =>
      cases u with
      | calculator => exact access_calculator_ne hinv hwrite hw
      | sender => cases hpc : s.vars.sender <;> simp [access, hpc] at hw
      | listener l' =>
          have hlocks := Threads.locks_run threads_frames threads_sections (takes_start bufin) h
          have hinside : ∀ l w, access s.vars (.listener l) = some (.batchStock, w) →
              inside s.vars (.listener l) = some .batchStockAccessMu := by
            intro l w hl
            cases hpc : s.vars.listener l <;> simp [access, hpc] at hl
            simp [inside, hpc]
          exact hne (hlocks.eq_of_inside ht hu (hinside l _ hwrite) (hinside l' _ hw))

end Steps

/-! ### The race that there is -/

/-- So many steps of a thread. -/
def stepsOf (n : ℕ) (t : Thread) : List (Threads.Action Thread Pack Action) :=
  List.replicate n (.thread t)

/-- A signal on a pack where nobody sleeps. -/
def signalSteps (t : Thread) : List (Threads.Action Thread Pack Action) :=
  stepsOf 3 t ++ [.condSignal t [], .thread t]

/-- A round of a listener whose half of the stock is free. -/
def listenerSteps (l : ListenerType) (d : Datagram) : List (Threads.Action Thread Pack Action) :=
  stepsOf 3 (.listener l) ++ .op (.receive l d) :: stepsOf 9 (.listener l)
    ++ .op (.listener l) :: stepsOf 4 (.listener l) ++ signalSteps (.listener l)

/-- Both listeners store a half, and the calculator comes to `calculate_res`. -/
def pairSteps : List (Threads.Action Thread Pack Action) :=
  listenerSteps .first (datagramOf (List.replicate 6 0))
    ++ listenerSteps .second (datagramOf (List.replicate 7 0))
    ++ stepsOf 13 .calculator ++ List.replicate 3 (.op .calculator) ++ stepsOf 7 .calculator
    ++ signalSteps .calculator ++ signalSteps .calculator

/-- The calculator signals the first result and computes the second, while the sender has
come to read the first. -/
def raceSteps : List (Threads.Action Thread Pack Action) :=
  pairSteps ++ .op .calculator :: stepsOf 8 .calculator ++ signalSteps .calculator
    ++ stepsOf 11 .sender ++ pairSteps

/-- The two computations of `raceSteps` are on the two pairs received. -/
theorem code_pairs_in_order_two_pairs :
    ∃ s, Run (Threads.step (threads fun _ => List.Vector.replicate 4 0)) WellFormedOp
        (Threads.init (threads fun _ => List.Vector.replicate 4 0) initFlags (init fun _ _ => 0))
        (raceSteps ++ [.op .calculator]) s ∧
      s.vars.computed.length = 2 ∧
      s.vars.computed.map Prod.fst <+:
        (datagrams .first (Threads.ops (raceSteps ++ [.op .calculator]))).map floatsOf := by
  obtain ⟨s, hrun, hobs⟩ := Option.map_eq_some_iff.mp
    (by decide +kernel :
      (run (Threads.step (threads fun _ => List.Vector.replicate 4 0))
        (Threads.init (threads fun _ => List.Vector.replicate 4 0) initFlags
          (init fun _ _ => 0)) (raceSteps ++ [.op .calculator])).map
        (fun s => s.vars.computed.length) = some 2)
  have h : Run (Threads.step (threads fun _ => List.Vector.replicate 4 0)) WellFormedOp
      (Threads.init (threads fun _ => List.Vector.replicate 4 0) initFlags (init fun _ _ => 0))
      (raceSteps ++ [.op .calculator]) s := by
    refine Run.of_run hrun fun _ a ha l d hd => ?_
    simp only [raceSteps, pairSteps, listenerSteps, stepsOf, signalSteps, hd, List.mem_append,
      List.mem_cons, List.mem_replicate, Threads.Action.op.injEq, Action.receive.injEq,
      reduceCtorEq, List.not_mem_nil, and_false, false_or, or_false, or_self] at ha
    rcases ha with ⟨-, rfl⟩ | ⟨-, rfl⟩ <;> exact wellFormed_datagramOf _ (by simp [MAXBUF])
  exact ⟨s, h, hobs, (code_pairs_in_order h).1⟩

/-- **The only stock that two threads access at once is the one of the results**, where
`calculate_res` writes while `send_calcs` reads. -/
theorem race_iff (x : Stock) :
    (∃ (serverCalculations : List CFloat → List.Vector CFloat 4)
      (bufin : ListenerType → Buf) (as : _) (s : _),
      Run (Threads.step (threads serverCalculations)) Any
        (Threads.init (threads serverCalculations) initFlags (init bufin)) as s ∧
      Threads.Race (threads serverCalculations) access s x) ↔ x = .calculationsStock := by
  constructor
  · rintro ⟨serverCalculations, bufin, as, s, hrun, hrace⟩
    cases x with
    | batchStock => exact absurd hrace (not_race_batchStock hrun)
    | calculationsStock => rfl
  · rintro rfl
    obtain ⟨s, hrun, hobs⟩ := Run.of_observed
      (by decide +kernel :
        (run (Threads.step (threads fun _ => List.Vector.replicate 4 0))
          (Threads.init (threads fun _ => List.Vector.replicate 4 0) initFlags
            (init fun _ _ => 0)) raceSteps).map
          (fun s => (Threads.atOp (threads fun _ => List.Vector.replicate 4 0) s .calculator,
            Threads.atOp (threads fun _ => List.Vector.replicate 4 0) s .sender,
            access s.vars .calculator, access s.vars .sender)) =
        some (true, true, some (.calculationsStock, true), some (.calculationsStock, false)))
    obtain ⟨hcalculator, hsender, hwrite, hread⟩ : _ ∧ _ ∧ _ ∧ _ := by simpa using hobs
    exact ⟨_, _, _, s, hrun, .calculator, .sender, by simp, hcalculator, hsender, hwrite,
      false, hread⟩

end Server
