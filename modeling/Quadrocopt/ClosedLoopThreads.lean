/-
# The code of the closed loop

Client and server, joined as in `ClosedLoop.lean`, with the code of their waits and signals
(`ClientThreads.lean`, `ServerThreads.lean`): seven threads in two processes, each with its
own packs and mutexes, and the network.

The exchange does not wedge in the code either.  That no thread of the machine with calls of
one step is stopped (`Standstill.outside`) is not enough for it: in the code a thread also
waits for a mutex, and sleeps until it is woken.
-/
import Quadrocopt.ClientThreads
import Quadrocopt.Progress
import Quadrocopt.ServerThreads

namespace ClosedLoop

open Transition
open Threads (Instr Takes)
open ThreadConditionPack (Call)
open Server (ListenerType)

/-- The threads of both programs. -/
abbrev Thread := Client.Thread ⊕ Server.Thread

/-- The packs of both programs. -/
abbrev Pack := Client.Pack ⊕ Server.Pack

/-- The other mutexes of both programs. -/
abbrev Mutex := Client.Mutex ⊕ Server.Mutex

/-- The thread that takes a step; the network drops a datagram by itself. -/
def actor : Action → Option Thread
  | .getU _ => some (.inl .calculator)
  | .clientCalculator => some (.inl .calculator)
  | .clientSender => some (.inl .sender)
  | .clientListener => some (.inl .listener)
  | .serverCalculator => some (.inr .calculator)
  | .serverSender => some (.inr .sender)
  | .serverListener l => some (.inr (.listener l))
  | .deliverRequest l _ => some (.inr (.listener l))
  | .deliverReply _ => some (.inl .listener)
  | .dropRequest _ _ => none
  | .dropReply _ => none

/-- The step by which a thread makes the call it is at. -/
def callAct : Thread → Action
  | .inl .calculator => .clientCalculator
  | .inl .sender => .clientSender
  | .inl .listener => .clientListener
  | .inr .calculator => .serverCalculator
  | .inr .sender => .serverSender
  | .inr (.listener l) => .serverListener l

/-- The flags of both programs, and everything else. -/
def withFlags (flags : Pack → Bool) (s : State) : State :=
  { s with
    client := Client.withFlags (flags ∘ Sum.inl) s.client
    server := Server.withFlags (flags ∘ Sum.inr) s.server }

/-- The flags of both `initialize_condition_packs`. -/
def initFlags : Pack → Bool := Sum.elim Client.initFlags Server.initFlags

/-- The calls of both programs. -/
def call (s : State) : Thread → Option (Pack × Call)
  | .inl t => (Client.call s.client t).map (Prod.map Sum.inl id)
  | .inr t => (Server.call s.server t).map (Prod.map Sum.inr id)

/-- The thread goes on to the operation after its call. -/
def advance (s : State) : Thread → State
  | .inl t => { s with client := Client.advance s.client t }
  | .inr t => { s with server := Server.advance s.server t }

/-- What a thread does first. -/
def start : Thread → List (Instr Mutex)
  | .inl t => (Client.start t).map (Instr.map Sum.inl)
  | .inr t => (Server.start t).map (Instr.map Sum.inr)

/-- What a thread does before the operation it has come to. -/
def before (s : State) : Thread → List (Instr Mutex)
  | .inl t => (Client.before s.client t).map (Instr.map Sum.inl)
  | .inr t => (Server.before s.server t).map (Instr.map Sum.inr)

/-- The mutex that a thread holds when it has come to its operation. -/
def inside (s : State) : Thread → Option Mutex
  | .inl _ => none
  | .inr t => (Server.inside s.server t).map Sum.inr

section Steps

variable (serverCalculations : List CFloat → List.Vector CFloat 4)

/-- The seven threads with the code of their calls. -/
def threads : Threads.Program Thread Pack Mutex State Action where
  step := step serverCalculations
  actor := actor
  withFlags := withFlags
  call := call
  callAct := callAct
  advance := advance
  start := start
  before := before

variable {serverCalculations} {v v' : State} {a : Action} {t u : Thread}

/-! ## The calls are those of the machine -/

theorem withFlags_update_inl (f : Pack → Bool) (p : Client.Pack) (b : Bool) (v : State) :
    withFlags (Function.update f (.inl p) b) v =
      { v with
        client := Client.withFlags (Function.update (f ∘ Sum.inl) p b) v.client
        server := Server.withFlags (f ∘ Sum.inr) v.server } := by
  rw [withFlags, Function.update_comp_eq_of_injective f Sum.inl_injective,
    Function.update_comp_eq_of_forall_ne _ _ (by simp)]

theorem withFlags_update_inr (f : Pack → Bool) (p : Server.Pack) (b : Bool) (v : State) :
    withFlags (Function.update f (.inr p) b) v =
      { v with
        client := Client.withFlags (f ∘ Sum.inl) v.client
        server := Server.withFlags (Function.update (f ∘ Sum.inr) p b) v.server } := by
  rw [withFlags, Function.update_comp_eq_of_injective f Sum.inr_injective,
    Function.update_comp_eq_of_forall_ne _ _ (by simp)]

/-- A thread that is at a call sends nothing. -/
theorem sentRequests_of_call {c : Client.State} {pc : Client.Pack × Call}
    (h : Client.call c .sender = some pc) (l : ListenerType) : sentRequests c l = [] := by
  cases hpc : c.sender <;> simp [Client.call, hpc] at h <;> simp [sentRequests, hpc]

theorem sentReplies_of_call {sv : Server.State} {pc : Server.Pack × Call}
    (h : Server.call sv .sender = some pc) : sentReplies sv = [] := by
  cases hpc : sv.sender <;> simp [Server.call, hpc] at h <;> simp [sentReplies, hpc]

/-- A call of the client is the call of one step, seen in the loop. -/
theorem client_callAct {t : Client.Thread} {p : Client.Pack} {c : Call}
    (hcall : Client.call v.client t = some (p, c)) (f : Pack → Bool) :
    (Client.step (withFlags f v).client (Client.callAct t)).map
        (fun c => { withFlags f v with client := c }) =
      if c = .wait ∧ f (.inl p) = false then none
      else some (withFlags (Function.update f (.inl p) (Threads.flagAfter c))
        (advance v (.inl t))) := by
  change Option.map _ (Client.step (Client.withFlags (f ∘ Sum.inl) v.client) _) = _
  rw [Client.step_callAct hcall, withFlags_update_inl]
  simp only [Function.comp_apply]
  split_ifs <;> rfl

variable (serverCalculations) in
theorem server_callAct {t : Server.Thread} {p : Server.Pack} {c : Call}
    (hcall : Server.call v.server t = some (p, c)) (f : Pack → Bool) :
    (Server.step serverCalculations (withFlags f v).server (Server.callAct t)).map
        (fun sv => { withFlags f v with server := sv }) =
      if c = .wait ∧ f (.inr p) = false then none
      else some (withFlags (Function.update f (.inr p) (Threads.flagAfter c))
        (advance v (.inr t))) := by
  change Option.map _
    (Server.step serverCalculations (Server.withFlags (f ∘ Sum.inr) v.server) _) = _
  rw [Server.step_callAct hcall, withFlags_update_inr]
  simp only [Function.comp_apply]
  split_ifs <;> rfl

/-- A wait or a signal of the code is the wait or the signal of one step. -/
theorem step_callAct {p : Pack} {c : Call} (hcall : call v t = some (p, c)) (f : Pack → Bool) :
    step serverCalculations (withFlags f v) (callAct t) =
      if c = .wait ∧ f p = false then none
      else some (withFlags (Function.update f p (Threads.flagAfter c)) (advance v t)) := by
  cases t with
  | inl t =>
      obtain ⟨⟨q, d⟩, hq, heq⟩ := Option.map_eq_some_iff.mp hcall
      cases heq
      refine Eq.trans ?_ (client_callAct hq f)
      cases t
      case sender =>
        have hsent : ∀ l, sentRequests (withFlags f v).client l = [] := sentRequests_of_call hq
        simp only [callAct, step, hsent, List.append_nil]
        rfl
      all_goals rfl
  | inr t =>
      obtain ⟨⟨q, d⟩, hq, heq⟩ := Option.map_eq_some_iff.mp hcall
      cases heq
      refine Eq.trans ?_ (server_callAct serverCalculations hq f)
      cases t
      case sender =>
        have hsent : sentReplies (withFlags f v).server = [] := sentReplies_of_call hq
        simp only [callAct, step, hsent, List.append_nil]
        rfl
      all_goals rfl

theorem client_step_withFlags {b : Client.Action}
    (hcall : ∀ t, Client.actor b = some t → call v (.inl t) = none) (f : Pack → Bool) :
    Client.step (withFlags f v).client b =
      (Client.step v.client b).map (Client.withFlags (f ∘ Sum.inl)) :=
  Client.step_withFlags (fun t ht => Option.map_eq_none_iff.mp (hcall t ht)) _

variable (serverCalculations) in
theorem server_step_withFlags {b : Server.Action}
    (hcall : ∀ t, Server.actor b = some t → call v (.inr t) = none) (f : Pack → Bool) :
    Server.step serverCalculations (withFlags f v).server b =
      (Server.step serverCalculations v.server b).map (Server.withFlags (f ∘ Sum.inr)) :=
  Server.step_withFlags (fun t ht => Option.map_eq_none_iff.mp (hcall t ht)) _

/-- A step that is not a call does not look at the flags. -/
theorem step_withFlags (hcall : ∀ t, actor a = some t → call v t = none) (f : Pack → Bool) :
    step serverCalculations (withFlags f v) a =
      (step serverCalculations v a).map (withFlags f) := by
  cases a with
  | getU payload =>
      have h := client_step_withFlags (b := .getU payload)
        (fun t ht => hcall _ (by cases ht; rfl)) f
      simp only [step, clientStep, h, Option.map_map]
      rfl
  | clientCalculator =>
      have h := client_step_withFlags (b := .calculator)
        (fun t ht => hcall _ (by cases ht; rfl)) f
      simp only [step, clientStep, h, Option.map_map]
      rfl
  | clientListener =>
      have h := client_step_withFlags (b := .listener)
        (fun t ht => hcall _ (by cases ht; rfl)) f
      simp only [step, clientStep, h, Option.map_map]
      rfl
  | clientSender =>
      have h := client_step_withFlags (b := .sender)
        (fun t ht => hcall _ (by cases ht; rfl)) f
      simp only [step, h, Option.map_map]
      rfl
  | serverCalculator =>
      have h := server_step_withFlags serverCalculations (b := .calculator)
        (fun t ht => hcall _ (by cases ht; rfl)) f
      simp only [step, serverStep, h, Option.map_map]
      rfl
  | serverListener l =>
      have h := server_step_withFlags serverCalculations (b := .listener l)
        (fun t ht => hcall _ (by cases ht; rfl)) f
      simp only [step, serverStep, h, Option.map_map]
      rfl
  | serverSender =>
      have h := server_step_withFlags serverCalculations (b := .sender)
        (fun t ht => hcall _ (by cases ht; rfl)) f
      simp only [step, h, Option.map_map]
      rfl
  | deliverRequest l i =>
      have h : ∀ x : ℕ × Datagram, Server.step serverCalculations (withFlags f v).server
          (.receive l x.2) = (Server.step serverCalculations v.server (.receive l x.2)).map
            (Server.withFlags (f ∘ Sum.inr)) :=
        fun x => server_step_withFlags _ (fun t ht => hcall _ (by cases ht; rfl)) f
      simp only [step, Option.map_bind]
      refine congrArg _ (funext fun x => ?_)
      simp only [h, Function.comp_apply, Option.map_map]
      rfl
  | deliverReply i =>
      have h : ∀ d : Datagram, Client.step (withFlags f v).client (.receive d) =
          (Client.step v.client (.receive d)).map (Client.withFlags (f ∘ Sum.inl)) :=
        fun d => client_step_withFlags (fun t ht => hcall _ (by cases ht; rfl)) f
      simp only [step, Option.map_bind]
      refine congrArg _ (funext fun d => ?_)
      simp only [h, Function.comp_apply, Option.map_map]
      rfl
  | dropRequest l i =>
      simp only [step, Option.map_map]
      rfl
  | dropReply i =>
      simp only [step, Option.map_map]
      rfl

/-- A thread at a call can do nothing else. -/
theorem step_eq_none_of_call {pc : Pack × Call} (hcall : call v t = some pc)
    (hactor : actor a = some t) (hne : a ≠ callAct t) (f : Pack → Bool) :
    step serverCalculations (withFlags f v) a = none := by
  cases a <;> cases hactor
  case getU payload =>
    obtain ⟨qc, hqc, -⟩ := Option.map_eq_some_iff.mp hcall
    exact Option.map_eq_none_iff.mpr
      (Client.step_eq_none_of_call (a := .getU payload) hqc rfl (by simp [Client.callAct]) _)
  case deliverReply i =>
    obtain ⟨qc, hqc, -⟩ := Option.map_eq_some_iff.mp hcall
    refine Option.bind_eq_none_iff.mpr fun d _ => Option.map_eq_none_iff.mpr ?_
    exact Client.step_eq_none_of_call (a := .receive d) hqc rfl (by simp [Client.callAct]) _
  case deliverRequest l i =>
    obtain ⟨qc, hqc, -⟩ := Option.map_eq_some_iff.mp hcall
    refine Option.bind_eq_none_iff.mpr fun x _ => Option.map_eq_none_iff.mpr ?_
    exact Server.step_eq_none_of_call (a := .receive l x.2) hqc rfl (by simp [Server.callAct]) _
  all_goals exact absurd rfl hne

theorem threads_oneStep : Threads.OneStep (threads serverCalculations) where
  call _ _ _ _ f hcall := step_callAct hcall f
  only _ _ _ _ f hcall hactor hne := step_eq_none_of_call hcall hactor hne f
  op _ _ f hcall := step_withFlags hcall f

theorem frame_inl {t : Client.Thread} (h : Client.call v'.client t = Client.call v.client t) :
    call v' (.inl t) = call v (.inl t) ∧ inside v' (.inl t) = inside v (.inl t) := by
  simp [call, inside, h]

theorem frame_inr {t : Server.Thread}
    (h : Server.call v'.server t = Server.call v.server t ∧
      Server.inside v'.server t = Server.inside v.server t) :
    call v' (.inr t) = call v (.inr t) ∧ inside v' (.inr t) = inside v (.inr t) := by
  simp [call, inside, h.1, h.2]

/-- A step of one program is not seen by the threads of the other, and by its own threads as
there. -/
theorem Move.call_frame (hm : Move serverCalculations v a v') (hu : actor a ≠ some u) :
    call v' u = call v u ∧ inside v' u = inside v u := by
  cases u with
  | inl t =>
      apply frame_inl
      cases hm with
      | client b hb hstep =>
          refine (Client.step_move hstep).call_frame fun ht => hu ?_
          rcases hb with ⟨rfl, rfl⟩ | ⟨rfl, rfl⟩ | ⟨p, rfl, rfl⟩ <;> cases ht <;> rfl
      | clientSender hstep =>
          exact (Client.step_move hstep).call_frame fun ht => hu (by cases ht; rfl)
      | deliverReply i d hi hstep =>
          exact (Client.step_move hstep).call_frame fun ht => hu (by cases ht; rfl)
      | _ => rfl
  | inr t =>
      apply frame_inr
      cases hm with
      | server b hb hstep =>
          refine (Server.step_move hstep).call_frame fun ht => hu ?_
          rcases hb with ⟨rfl, rfl⟩ | ⟨l, rfl, rfl⟩ <;> cases ht <;> rfl
      | serverSender hstep =>
          exact (Server.step_move hstep).call_frame fun ht => hu (by cases ht; rfl)
      | deliverRequest l i x hi hstep =>
          exact (Server.step_move hstep).call_frame fun ht => hu (by cases ht; rfl)
      | _ => exact ⟨rfl, rfl⟩

theorem advance_frame (v : State) (hut : u ≠ t) :
    call (advance v t) u = call v u ∧ inside (advance v t) u = inside v u := by
  rcases t with t | t <;> rcases u with u | u
  · exact frame_inl (Client.call_advance_of_ne _ fun h => hut (by rw [h]))
  · exact ⟨rfl, rfl⟩
  · exact ⟨rfl, rfl⟩
  · exact frame_inr (Server.advance_frame _ fun h => hut (by rw [h]))

theorem threads_frames : Threads.Frames (threads serverCalculations) where
  advance v _ _ hut := (advance_frame v hut).1
  step _ _ _ _ hstep hu := ((step_move hstep).call_frame hu).1

/-- The sections of a step of one program. -/
theorem takes_client {b : Client.Action} {c : Client.State} {t : Client.Thread}
    (hstep : Client.step v.client b = some c) (hactor : Client.actor b = some t)
    (hcall : call v (.inl t) = none) (hc : v'.client = c) :
    Takes (inside v (.inl t)) (before v' (.inl t)) (inside v' (.inl t)) := by
  subst hc
  exact (Client.threads_sections.step _ _ _ _ hstep hactor
    (Option.map_eq_none_iff.mp hcall)).map

theorem takes_server {b : Server.Action} {sv : Server.State} {t : Server.Thread}
    (hstep : Server.step serverCalculations v.server b = some sv)
    (hactor : Server.actor b = some t) (hcall : call v (.inr t) = none) (hsv : v'.server = sv) :
    Takes (inside v (.inr t)) (before v' (.inr t)) (inside v' (.inr t)) := by
  subst hsv
  exact (Server.threads_sections.step _ _ _ _ hstep hactor
    (Option.map_eq_none_iff.mp hcall)).map

/-- The locked sections are those of the two programs. -/
theorem threads_sections : Threads.Sections (threads serverCalculations) inside where
  call v t pc hcall := by
    cases t with
    | inl t => rfl
    | inr t =>
        have hserver : Threads.Sections (Server.threads serverCalculations) Server.inside :=
          Server.threads_sections
        obtain ⟨qc, hqc, -⟩ := Option.map_eq_some_iff.mp hcall
        exact congrArg (Option.map Sum.inr) (hserver.call _ _ _ hqc)
  advance v t pc hcall := by
    cases t with
    | inl t =>
        obtain ⟨qc, hqc, -⟩ := Option.map_eq_some_iff.mp hcall
        exact (Client.threads_sections.advance _ _ _ hqc).map
    | inr t =>
        have hserver : Threads.Sections (Server.threads serverCalculations) Server.inside :=
          Server.threads_sections
        obtain ⟨qc, hqc, -⟩ := Option.map_eq_some_iff.mp hcall
        exact (hserver.advance _ _ _ hqc).map
  step v a v' t hstep hactor hcall := by
    cases step_move hstep with
    | client b hb hs =>
        rcases hb with ⟨rfl, rfl⟩ | ⟨rfl, rfl⟩ | ⟨p, rfl, rfl⟩ <;> cases hactor <;>
          exact takes_client hs rfl hcall rfl
    | clientSender hs =>
        cases hactor
        exact takes_client hs rfl hcall rfl
    | deliverReply i d hi hs =>
        cases hactor
        exact takes_client hs rfl hcall rfl
    | server b hb hs =>
        rcases hb with ⟨rfl, rfl⟩ | ⟨l, rfl, rfl⟩ <;> cases hactor <;>
          exact takes_server hs rfl hcall rfl
    | serverSender hs =>
        cases hactor
        exact takes_server hs rfl hcall rfl
    | deliverRequest l i x hi hs =>
        cases hactor
        exact takes_server hs rfl hcall rfl
    | dropRequest l i x hi => cases hactor
    | dropReply i d hi => cases hactor
  advance_frame v _ _ hut := (advance_frame v hut).2
  step_frame _ _ _ _ hstep hu := ((step_move hstep).call_frame hu).2

theorem takes_start (clientBuf : Buf) (serverBuf : ListenerType → Buf) (t : Thread) :
    Takes none (start t) (inside (init clientBuf serverBuf) t) := by
  cases t with
  | inl t => exact (Client.takes_start t).map
  | inr t => exact (Server.takes_start serverBuf t).map

/-! ## The exchange never wedges -/

section Progress

variable {clientBuf : Buf} {serverBuf : ListenerType → Buf}

/-- With calls of one step, the seven threads stop only while the calculator is outside of
`get_u`. -/
theorem Standstill.outside {as : List Action} {s : State} (hs : Standstill serverCalculations s)
    (h : Run (step serverCalculations) (fun _ a => a.Lossless) (init clientBuf serverBuf) as s) :
    s.client.calculator = .outside := by
  by_contra hin
  obtain ⟨bs, hclient⟩ := client_run_wf h
  obtain ⟨bs', hserver⟩ := server_run_wf h
  obtain ⟨hlistener, hsender, hemitted⟩ := Client.blocked_counts hclient hin
    (Option.map_eq_none_iff.mp (hs .clientCalculator trivial))
    (Option.map_eq_none_iff.mp (hs .clientSender trivial))
    (Option.map_eq_none_iff.mp (hs .clientListener trivial))
  obtain ⟨l, hl, hreceived⟩ := Server.blocked_counts hserver
    (Option.map_eq_none_iff.mp (hs .serverCalculator trivial))
    (Option.map_eq_none_iff.mp (hs .serverSender trivial))
    (fun l => Option.map_eq_none_iff.mp (hs (.serverListener l) trivial))
  -- nothing is in flight, so the counts of the two programs would agree
  have hlossless : ∀ (s : State) (a : Action), a.Lossless → a.Lossless := fun _ _ ha => ha
  have hrequests := (requestLink_conserving hlossless h l).length_sent (hs.requests_eq_nil h hl)
  have hreplies := (replyLink_conserving hlossless h).length_sent (hs.replies_eq_nil h hlistener)
  have hdelivered := congrArg List.length (delivered_eq h l)
  have hbatches : (batchesSent s.client l).length = s.client.emitted.length := by
    cases l <;> simp [batchesSent, hsender]
  simp only [requestLink, tagged, List.length_mapIdx, hbatches] at hrequests
  simp only [replyLink, List.length_map] at hreplies
  rw [List.length_map] at hdelivered
  omega

/-- The network of a run of the code drops nothing. -/
def LosslessOp (_s : Threads.State Thread Pack Mutex State)
    (a : Threads.Action Thread Pack Action) : Prop :=
  ∀ b, a = .op b → b.Lossless

/-- A step of one of the seven threads, deliveries included, that does not start a new
`get_u` call, and is no wake-up for no reason. -/
def IsCodeStep : Threads.Action Thread Pack Action → Prop
  | .thread _ => True
  | .condSignal _ _ => True
  | .spurious _ _ => False
  | .op a => a.IsThreadStep

/-- The client's calculator is in `get_u`, or has not returned from the last call in it. -/
def InGetU (s : Threads.State Thread Pack Mutex State) : Prop :=
  s.vars.client.calculator ≠ .outside ∨ s.inCall (.inl .calculator) ≠ none

variable {as : List (Threads.Action Thread Pack Action)}
  {s : Threads.State Thread Pack Mutex State}

/-- The closed loop's code refines the closed loop with calls of one step. -/
theorem view_lossless
    (h : Run (Threads.step (threads serverCalculations)) LosslessOp
      (Threads.init (threads serverCalculations) initFlags (init clientBuf serverBuf)) as s) :
    ∃ bs, Run (step serverCalculations) (fun _ a => a.Lossless) (init clientBuf serverBuf) bs
      ((threads serverCalculations).view s) := by
  obtain ⟨bs, hbs, -⟩ := Threads.view_run (Q := fun _ a => a.Lossless) threads_frames
    threads_oneStep (fun _ t => by rcases t with (_ | _ | _) | (_ | _ | _) <;> trivial)
    (fun _ b hb => hb b rfl) h
  exact ⟨bs, hbs⟩

/-- A listener of the server that has come to its store can make it. -/
theorem store_enabled
    (h : Run (Threads.step (threads serverCalculations)) LosslessOp
      (Threads.init (threads serverCalculations) initFlags (init clientBuf serverBuf)) as s)
    {u : Thread} {m : Mutex} (hm : inside s.vars u = some m) :
    ∃ a : Action, a.IsThreadStep ∧ actor a = some u ∧ call s.vars u = none ∧
      step serverCalculations s.vars a ≠ none := by
  obtain ⟨bs, hview⟩ := view_lossless h
  obtain ⟨bs', hserver⟩ := server_run_wf hview
  rcases u with t | (_ | _ | l)
  · cases hm
  · cases hm
  · cases hm
  · cases hpc : s.vars.server.listener l with
    | store pack =>
        have htype := Server.type_of_inHand hserver l pack (by
          simp [Threads.Program.view, threads, withFlags, Server.withFlags, hpc])
        have hcopy := copyOfPacket_ne_none htype
        refine ⟨.serverListener l, trivial, rfl, by simp [call, Server.call, hpc], ?_⟩
        simp only [step, serverStep, Server.step, Server.stepListener, hpc, ne_eq,
          Option.map_eq_none_iff]
        cases l <;>
          simpa [Server.storeBatch, Server.addFirstStockToBatch, Server.addSecondStockToBatch,
            copyOfPacket] using hcopy
    | _ => simp [inside, Server.inside, hpc] at hm

/-- **The exchange never wedges in the code.**  In every state that the code of the seven
threads reaches over a network that drops nothing, some thread can go on as long as the
client's calculator is in `get_u`: no thread waits for a mutex for ever, and no wake-up is
lost. -/
theorem code_never_wedges
    (h : Run (Threads.step (threads serverCalculations)) LosslessOp
      (Threads.init (threads serverCalculations) initFlags (init clientBuf serverBuf)) as s)
    (hin : InGetU s) :
    ∃ a, IsCodeStep a ∧ (Threads.step (threads serverCalculations) s a).isSome := by
  by_contra hno
  have hnone : ∀ a, IsCodeStep a → Threads.step (threads serverCalculations) s a = none := by
    intro a ha
    by_contra hsome
    exact hno ⟨a, ha, Option.isSome_iff_ne_none.mpr hsome⟩
  have hs : Threads.Standstill (threads serverCalculations) Action.IsThreadStep s :=
    ⟨fun t => hnone (.thread t) trivial, fun t ts => hnone (.condSignal t ts) trivial,
      fun a ha => hnone (.op a) ha⟩
  obtain ⟨bs, hview⟩ := view_lossless h
  have hstop : Standstill serverCalculations ((threads serverCalculations).view s) :=
    Threads.standstill threads_frames threads_oneStep threads_sections
      (takes_start clientBuf serverBuf) h hs (fun u m hm => store_enabled h hm)
  have hout : s.vars.client.calculator = .outside := hstop.outside hview
  rcases hin with hin | hin
  · exact hin hout
  · -- it would sleep in a wait of `get_u`
    obtain ⟨p, hp⟩ := Option.ne_none_iff_exists'.mp hin
    have hc := Threads.calls_run threads_frames h
    have hasleep := hs.asleep hc (Threads.pack_inv h p) hp
    obtain ⟨hcall, -⟩ := hc.atCall _ p .wait (by rw [hasleep]; rfl)
    simp [threads, call, Client.call, hout] at hcall

/-- So many steps of a thread of the client. -/
def clientSteps (n : ℕ) (t : Client.Thread) : List (Threads.Action Thread Pack Action) :=
  List.replicate n (.thread (.inl t))

/-- The sender fetches the zero batches, the calculator stores its request, and falls asleep
in `get_u` before the reply. -/
def asleepSchedule : List (Threads.Action Thread Pack Action) :=
  clientSteps 11 .sender ++ List.replicate 2 (.op .clientSender)
    ++ clientSteps 3 .sender ++ .condSignal (.inl .sender) [] :: clientSteps 1 .sender
    ++ .op (.getU (List.Vector.replicate 13 1)) :: clientSteps 5 .calculator
    ++ List.replicate 2 (.op .clientCalculator)
    ++ clientSteps 3 .calculator ++ .condSignal (.inl .calculator) [] :: clientSteps 5 .calculator

/-- Then another thread can go on: the sender has two datagrams to send. -/
theorem code_never_wedges_asleep :
    ∃ s, Run (Threads.step (threads fun _ => List.Vector.replicate 4 0)) LosslessOp
        (Threads.init (threads fun _ => List.Vector.replicate 4 0) initFlags
          (init (fun _ => 0) fun _ _ => 0)) asleepSchedule s
      ∧ (s.packs (.inl .listenerFromSignal)).place (.inl .calculator) = .asleep
      ∧ ∃ a, IsCodeStep a
          ∧ (Threads.step (threads fun _ => List.Vector.replicate 4 0) s a).isSome := by
  obtain ⟨s, hrun, hobs⟩ := Option.map_eq_some_iff.mp
    (by decide +kernel :
      (run (Threads.step (threads fun _ => List.Vector.replicate 4 0))
        (Threads.init (threads fun _ => List.Vector.replicate 4 0) initFlags
          (init (fun _ => 0) fun _ _ => 0)) asleepSchedule).map
        (fun s => ((s.packs (.inl .listenerFromSignal)).place (.inl .calculator),
          s.inCall (.inl .calculator))) =
      some (.asleep, some (.inl .listenerFromSignal)))
  have h : Run (Threads.step (threads fun _ => List.Vector.replicate 4 0)) LosslessOp
      (Threads.init (threads fun _ => List.Vector.replicate 4 0) initFlags
        (init (fun _ => 0) fun _ _ => 0)) asleepSchedule s := by
    refine Run.of_run hrun fun _ a ha b hb => ?_
    subst hb
    rcases (by simpa [asleepSchedule, clientSteps] using ha :
      b = .clientSender ∨ b = .getU (List.Vector.replicate 13 1) ∨ b = .clientCalculator)
      with rfl | rfl | rfl <;> trivial
  have hin : s.inCall (.inl .calculator) ≠ none := by simp [(Prod.mk.inj hobs).2]
  exact ⟨s, h, (Prod.mk.inj hobs).1, code_never_wedges h (.inr hin)⟩

end Progress

end Steps

end ClosedLoop
