/-
# Stopping the workers of the client

When the calculator has made its iterations, `wait_workers_to_finish` of `main.c` sends
SIGUSR1 to every worker of its list and joins it.  The handler (`signal_handling.c`) ends
the worker with `pthread_exit` wherever it is, and unlocks nothing: it keeps `io_mu` or the
mutex of a condition pack if it is stopped between their lock and unlock.  That includes the
condition wait of `wait_with_pack`: asleep there the worker has released the mutex, but
`pthread_exit` does not end it before it has the mutex again.  Once it is awake and waits for
the mutex, it ends without it.

The four threads are given here as lock programs, with every lock, unlock, test of a flag,
release, waking up and re-acquisition of a condition wait as one step; what neither locks nor signals
is a plain operation.  The loop of `do_client_calculations` is taken with the number of its
iterations.  The threads start past the barrier.  A `recvfrom` may return at any time, and
where the process would end (`exit(1)`) nothing is said.
-/
import Quadrocopt.LockProgram
import Quadrocopt.Workers

namespace StopWorkers

open LockProgram Transition Workers

/-- The condition packs of `initialize_condition_packs`. -/
inductive Pack where
  | senderToSignal
  | senderFromSignal
  | listenerToSignal
  | listenerFromSignal
  | printerToSignal
  | printerFromSignal
  deriving DecidableEq, Repr

/-- `io_mu`, and the mutex of each pack. -/
inductive Mutex where
  | ioMu
  | pack (p : Pack)
  deriving DecidableEq, Repr

/-- The calculator is the main thread. -/
inductive Thread where
  | calculator
  | listener
  | sender
  | printer
  deriving DecidableEq, Repr

/-- The operations that neither lock nor signal nor look at a flag. -/
inductive Op where
  | printf (text : String)
  | condSignal (p : Pack)
  -- the listener
  | recvfrom
  | bytesToPack
  | storeBatch
  -- the sender
  | fetchFirst
  | fetchSecond
  | writeSent
  | sendFirst
  | sendSecond
  -- the printer
  | createOutputFiles
  | print
  -- the calculator
  | calculateRef
  | nextStage
  | splitPayload
  | addFirstBatch
  | addSecondBatch
  | readListenerBatch
  | copyU
  | writeReceived
  | derivs
  | setCalcData
  | advanceTime
  | getCalcDataForPrinter
  | setParams

/-- An instruction of the client. -/
abbrev Instr := LockProgram.Instr Thread Mutex Pack Op

/-- The initial values of `cond_to_verify`. -/
def condToVerify : Pack → Bool
  | .senderToSignal => true
  | .senderFromSignal => false
  | .listenerToSignal => true
  | .listenerFromSignal => false
  | .printerToSignal => false
  | .printerFromSignal => true

/-! ## The pieces of code -/

/-- `safe_print`, which the loops also write out in full. -/
def safePrint (text : String) : List Instr :=
  [.lock .ioMu, .act (.printf text), .unlock .ioMu]

/-- `wait_with_pack`. -/
def waitWithPack (p : Pack) : List Instr :=
  [.lock (.pack p), .waitWhileDown p (.pack p), .clear p, .unlock (.pack p)]

/-- `signal_with_pack`. -/
def signalWithPack (p : Pack) : List Instr :=
  [.lock (.pack p), .set p, .act (.condSignal p), .unlock (.pack p)]

/-- The loop of `run_listener`. -/
def runListener : List Instr :=
  safePrint "[LISTENER]: round %d\n"
    ++ ([.act .recvfrom]
    ++ (safePrint "[LISTENER] received data\n"
    ++ ([.act .bytesToPack]
    ++ (waitWithPack .listenerToSignal
    ++ ([.act .storeBatch]
    ++ (signalWithPack .listenerFromSignal
    ++ [.again]))))))

/-- The loop of `run_sender`. -/
def runSender : List Instr :=
  safePrint "[SENDER]: round %d\n"
    ++ (safePrint "[SENDER]: waiting for the calculator\n"
    ++ (waitWithPack .senderToSignal
    ++ ([.act .fetchFirst, .act .fetchSecond]
    ++ (signalWithPack .senderFromSignal
    ++ ([.act .writeSent, .act .sendFirst, .act .sendSecond]
    ++ (safePrint "[SENDER]: sent results\n"
    ++ [.again]))))))

/-- `run_printer`: the first `print` finds no message, and the loop is left. -/
def runPrinter : List Instr := [.act .createOutputFiles, .act .print]

section Calculator

/- Whether the client is built with DEBUG. -/
variable (debug : Bool)

/-- `get_u`. -/
def getU : List Instr :=
  [.act .splitPayload]
    ++ (waitWithPack .senderFromSignal
    ++ ([.act .addFirstBatch, .act .addSecondBatch]
    ++ (signalWithPack .senderToSignal
    ++ (waitWithPack .listenerFromSignal
    ++ ([.act .readListenerBatch, .act .copyU]
    ++ (signalWithPack .listenerToSignal
    ++ if debug then [.act .writeReceived] else []))))))

/-- `get_next_step`: at each of its four stages it asks for the control and evaluates the
derivatives. -/
def getNextStep : List Instr :=
  (List.replicate 4 ([.act .nextStage] ++ (getU debug ++ [.act .derivs]))).flatten
    ++ [.act .setCalcData]

/-- `print_calc_data`. -/
def printCalcData : List Instr :=
  [.act .getCalcDataForPrinter]
    ++ (waitWithPack .printerFromSignal
    ++ ([.act .setParams]
    ++ signalWithPack .printerToSignal))

/-- `do_client_calculations` with so many iterations. -/
def doClientCalculations (iterations : ℕ) : List Instr :=
  (List.replicate iterations
    (getNextStep debug ++ ([.act .advanceTime] ++ printCalcData))).flatten

/-- `wait_workers_to_finish` on a list of workers: `stop_worker` and `pthread_join`. -/
def waitWorkersToFinish (workers : List Thread) : List Instr :=
  (if debug then safePrint "Started cleaning\n" else [])
    ++ ((workers.map fun worker => [.kill worker, .join worker]).flatten
    ++ if debug then safePrint "All threads joined\n" else [])

/-- What the calculator runs in `main` once the workers are spawned. -/
def calculator (iterations : ℕ) (workers : List Thread) : List Instr :=
  [.act .calculateRef]
    ++ (doClientCalculations debug iterations
    ++ waitWorkersToFinish debug workers)

/-- The client's threads. -/
def client (iterations : ℕ) (workers : List Thread) : Program Thread Mutex Pack Op where
  code
    | .calculator => calculator debug iterations workers
    | .listener => runListener
    | .sender => runSender
    | .printer => runPrinter
  body
    | .listener => runListener
    | .sender => runSender
    | .calculator => []
    | .printer => []

end Calculator

/-! ## The list of workers -/

/-- The workers that `spawn_workers` registers. -/
def spawnWorkers : WorkersCollection Thread Thread :=
  let coll := (addToWorkersCollection .listener initializeWorkersCollection .listener).2
  let coll := (addToWorkersCollection .sender coll .sender).2
  (addToWorkersCollection .printer coll .printer).2

/-- The listener was registered first, and is the only worker on the list. -/
theorem walk_spawnWorkers :
    spawnWorkers.workers.bind (fun list => walk spawnWorkers.heap 2 (.node list.head))
      = some [.listener] := by
  decide

/-! ## All locked sections are bracketed -/

/-- A printing section locks and unlocks `io_mu` around one action. -/
theorem balanced_safePrint (text : String) : Balanced (safePrint text) := by
  have h : ([.act (.printf text)] : List Instr).all (Instr.inside .ioMu) = true := rfl
  exact Balanced.locked h

/-- A wait locks and unlocks the mutex of its pack around the loop and the clearing of the flag. -/
theorem balanced_waitWithPack (p : Pack) : Balanced (waitWithPack p) := by
  have h : ([.waitWhileDown p (.pack p), .clear p] : List Instr).all (Instr.inside (.pack p))
      = true := by
    simp [Instr.inside, Instr.plain]
  exact Balanced.locked h

/-- So does a signal, around the raising of the flag and the wake-up. -/
theorem balanced_signalWithPack (p : Pack) : Balanced (signalWithPack p) := by
  have h : ([.set p, .act (.condSignal p)] : List Instr).all (Instr.inside (.pack p)) = true :=
    rfl
  exact Balanced.locked h

/-- The loop of the listener goes from section to section. -/
theorem balanced_runListener : Balanced runListener := by
  refine (balanced_safePrint _).append (Balanced.append (.of_plain rfl) ?_)
  refine (balanced_safePrint _).append (Balanced.append (.of_plain rfl) ?_)
  refine (balanced_waitWithPack _).append (Balanced.append (.of_plain rfl) ?_)
  exact (balanced_signalWithPack _).append Balanced.again

theorem balanced_runSender : Balanced runSender := by
  refine (balanced_safePrint _).append ((balanced_safePrint _).append ?_)
  refine (balanced_waitWithPack _).append (Balanced.append (.of_plain rfl) ?_)
  refine (balanced_signalWithPack _).append (Balanced.append (.of_plain rfl) ?_)
  exact (balanced_safePrint _).append Balanced.again

/-- The two waits and the two signals of `get_u`, with its copies between them. -/
theorem balanced_getU (debug : Bool) : Balanced (getU debug) := by
  refine Balanced.append (.of_plain rfl) ?_
  refine (balanced_waitWithPack _).append (Balanced.append (.of_plain rfl) ?_)
  refine (balanced_signalWithPack _).append ?_
  refine (balanced_waitWithPack _).append (Balanced.append (.of_plain rfl) ?_)
  refine (balanced_signalWithPack _).append ?_
  cases debug <;> exact Balanced.of_plain rfl

theorem balanced_getNextStep (debug : Bool) : Balanced (getNextStep debug) := by
  refine Balanced.append (Balanced.flatten ?_) (.of_plain rfl)
  intro stage hstage
  rw [List.eq_of_mem_replicate hstage]
  exact Balanced.append (.of_plain rfl) ((balanced_getU debug).append (.of_plain rfl))

theorem balanced_printCalcData : Balanced printCalcData := by
  refine Balanced.append (.of_plain rfl) ?_
  exact (balanced_waitWithPack _).append (Balanced.append (.of_plain rfl) (balanced_signalWithPack _))

theorem balanced_doClientCalculations (debug : Bool) (iterations : ℕ) :
    Balanced (doClientCalculations debug iterations) := by
  apply Balanced.flatten
  intro iteration hiteration
  rw [List.eq_of_mem_replicate hiteration]
  exact (balanced_getNextStep debug).append (Balanced.append (.of_plain rfl) balanced_printCalcData)

/-- The stops are sent from outside of all sections. -/
theorem balanced_waitWorkersToFinish (debug : Bool) (workers : List Thread) :
    Balanced (waitWorkersToFinish debug workers) := by
  have hprint : ∀ text, Balanced (if debug then safePrint text else []) := by
    intro text
    cases debug
    · exact Balanced.nil
    · exact balanced_safePrint text
  refine (hprint _).append (Balanced.append (Balanced.flatten ?_) (hprint _))
  intro stop hstop
  obtain ⟨worker, -, rfl⟩ := List.mem_map.mp hstop
  exact Balanced.of_plain rfl

/-- Every thread starts outside of all sections and closes each section it opens. -/
theorem balanced_code (debug : Bool) (iterations : ℕ) (workers : List Thread) (t : Thread) :
    Balanced ((client debug iterations workers).code t) := by
  cases t with
  | calculator =>
      exact Balanced.append (.of_plain rfl) ((balanced_doClientCalculations debug iterations).append
        (balanced_waitWorkersToFinish debug workers))
  | listener => exact balanced_runListener
  | sender => exact balanced_runSender
  | printer => exact Balanced.of_plain rfl

/-- So does every loop. -/
theorem balanced_body (debug : Bool) (iterations : ℕ) (workers : List Thread) (t : Thread) :
    Balanced ((client debug iterations workers).body t) := by
  cases t with
  | calculator => exact Balanced.nil
  | listener => exact balanced_runListener
  | sender => exact balanced_runSender
  | printer => exact Balanced.nil

/-! ## When a stop strands a lock -/

/-- **A lock is stranded exactly by a stop inside a locked section.**  For any number of
iterations and any list of workers, in the state at the end of a run of the client's
threads no thread that has ended owns `io_mu` or the mutex of a pack if and only if every
stop of the run was handled outside of the locked sections. -/
theorem noStrandedLock_iff_stopOutside (debug : Bool) (iterations : ℕ) (workers : List Thread)
    {as : List (Action Thread)} {s : State Thread Mutex Pack Op}
    (h : Run (step (client debug iterations workers)) Any
      (init (client debug iterations workers) condToVerify) as s) :
    NoStrandedLock s ↔ Run (step (client debug iterations workers)) StopOutside
      (init (client debug iterations workers) condToVerify) as s :=
  noStrandedLock_iff (balanced_code debug iterations workers)
    (balanced_body debug iterations workers) h

/-- So many iterations, in each of which the four requests are sent and answered; then the
calculator sends the listener its stop, and the listener handles it after so many steps of
its next round. -/
def stopAfter (iterations steps : ℕ) : List (Action Thread) :=
  .thread .calculator
    :: (List.replicate iterations
        ((List.replicate 4 (List.replicate 23 (.thread .sender)
            ++ List.replicate 18 (.thread .listener)
            ++ List.replicate 23 (.thread .calculator))).flatten
          ++ List.replicate 12 (.thread .calculator))).flatten
    ++ .thread .calculator
    :: List.replicate steps (.thread .listener)
    ++ [.handle .listener]

/-- Stopped at the head of its loop, the listener has no lock. -/
theorem noStrandedLock_iff_stopOutside_head :
    ∃ s, s.stopped .listener = true
      ∧ (NoStrandedLock s ↔ Run (step (client false 1 [.listener])) StopOutside
        (init (client false 1 [.listener]) condToVerify) (stopAfter 1 0) s) := by
  obtain ⟨s, h, hstopped⟩ := Run.of_observed (by decide +kernel :
    (run (step (client false 1 [.listener])) (init (client false 1 [.listener]) condToVerify)
      (stopAfter 1 0)).map (fun s => s.stopped .listener) = some true)
  exact ⟨s, hstopped, noStrandedLock_iff_stopOutside false 1 [.listener] h⟩

/-- A schedule after which the listener is stopped and owns a mutex. -/
theorem stranded_of_observed {iterations : ℕ} {as : List (Action Thread)} {m : Mutex}
    (h : (run (step (client false iterations [.listener]))
      (init (client false iterations [.listener]) condToVerify) as).map
        (fun s => (s.stopped .listener, s.owner m)) = some (true, some .listener)) :
    ∃ s, Run (step (client false iterations [.listener])) Any
        (init (client false iterations [.listener]) condToVerify) as s
      ∧ s.stopped .listener = true ∧ s.owner m = some .listener ∧ ¬ NoStrandedLock s := by
  obtain ⟨s, hrun, hobs⟩ := Run.of_observed h
  obtain ⟨hstopped, howner⟩ := Prod.mk.inj hobs
  exact ⟨s, hrun, hstopped, howner, fun hno => hno .listener m (.inl hstopped) howner⟩

/-- Stopped at its `printf`, the listener keeps `io_mu`: in its first round, when there was
no iteration to make, and in its fifth round after one iteration.  Stopped in the condition
wait of its second round, it keeps the mutex of the pack. -/
theorem stop_while_printing :
    spawnWorkers.workers.bind (fun list => walk spawnWorkers.heap 2 (.node list.head))
        = some [.listener]
      ∧ (∃ s, Run (step (client false 0 [.listener])) Any
          (init (client false 0 [.listener]) condToVerify) (stopAfter 0 1) s
        ∧ s.stopped .listener = true ∧ s.owner .ioMu = some .listener ∧ ¬ NoStrandedLock s)
      ∧ (∃ s, Run (step (client false 1 [.listener])) Any
          (init (client false 1 [.listener]) condToVerify) (stopAfter 1 1) s
        ∧ s.stopped .listener = true ∧ s.owner .ioMu = some .listener ∧ ¬ NoStrandedLock s)
      ∧ ∃ s, Run (step (client false 0 [.listener])) Any
          (init (client false 0 [.listener]) condToVerify) (stopAfter 0 29) s
        ∧ s.stopped .listener = true ∧ s.owner (.pack .listenerToSignal) = some .listener
        ∧ ¬ NoStrandedLock s := by
  refine ⟨walk_spawnWorkers, ?_, ?_, ?_⟩
  · exact stranded_of_observed (by decide +kernel)
  · exact stranded_of_observed (by decide +kernel)
  · exact stranded_of_observed (by decide +kernel)

/-- One step later it is awake and waits for the mutex, and ends without it. -/
example : (run (step (client false 0 [.listener])) (init (client false 0 [.listener]) condToVerify)
    (stopAfter 0 30)).map (fun s => (s.stopped .listener, s.owner (.pack .listenerToSignal)))
      = some (true, none) := by
  decide +kernel

end StopWorkers
