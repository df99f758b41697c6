/-
# The memory of the closed loop

The two programs of `ClosedLoop.lean`, each with its own heap: a step of a thread executes the
code of that thread on the heap of its program, and a `recvfrom` returns what the network
delivers.

The results about the memory of one program rest on what it receives: halves of requests at the
server, replies of at least four floats at the client.  In the loop the other program is what
sends it, so nothing is assumed: whatever the network drops, delays or reorders, no thread of
either program goes wrong (`loop_no_fault`), what the programs send are the bytes of the control
(`loop_memory_refines`), and both heaps grow with every call of `get_u` (`loop_leaks`).
-/
import Quadrocopt.ClientMemory
import Quadrocopt.ClosedLoopResults
import Quadrocopt.ServerMemory

namespace ClosedLoopMemory

open HeapMachine Transition ClosedLoop
open HeapProgram (Heap)
open OnHeap (Block)
open scoped List
open Server (ListenerType ofListener)

/-! ## The two programs and their heaps -/

/-- The step of the client that a step of the loop is. -/
def clientAction (s : ClosedLoop.State) : Action → Option Client.Action
  | .getU payload => some (.getU payload)
  | .clientCalculator => some .calculator
  | .clientSender => some .sender
  | .clientListener => some .listener
  | .deliverReply i => (s.replies[i]?).map .receive
  | _ => none

/-- The step of the server that a step of the loop is. -/
def serverAction (s : ClosedLoop.State) : Action → Option Server.Action
  | .serverCalculator => some .calculator
  | .serverSender => some .sender
  | .serverListener l => some (.listener l)
  | .deliverRequest l i => ((s.requests l)[i]?).map fun x => .receive l x.2
  | _ => none

/-- The loop and the memory of the client. -/
abbrev WithClient := WithHeap ClosedLoop.State ClientMemory.Vars Block

/-- The loop and the memory of both programs. -/
abbrev State := WithHeap WithClient ServerMemory.Vars Block

/-- The memory of the client is as its control says. -/
def ClientRepresents (start : Heap Block) (m : WithClient) : Prop :=
  ClientMemory.Represents start ⟨m.control.client, m.vars, m.heap⟩

/-- The memory of the server is as its control says. -/
def ServerRepresents (start : Heap Block) (m : State) : Prop :=
  ServerMemory.Represents start ⟨m.control.control.server, m.vars, m.heap⟩

/-- Both programs have started, each on the heap of what it was set up with. -/
def init (clientStart serverStart : Heap Block) (clientBuf : Buf)
    (serverBuf : ListenerType → Buf) : State where
  control :=
    { control := ClosedLoop.init clientBuf serverBuf
      vars := (ClientMemory.init clientStart clientBuf).vars
      heap := (ClientMemory.init clientStart clientBuf).heap }
  vars := (ServerMemory.init serverStart serverBuf).vars
  heap := (ServerMemory.init serverStart serverBuf).heap

section Step

variable (serverCalculations : List CFloat → List.Vector CFloat 4)

/-- One step of the loop and of the memory of the client. -/
def clientStep : WithClient → Action → Option WithClient :=
  HeapMachine.step (ClosedLoop.step serverCalculations)
    (codeOfPart ClosedLoop.State.client clientAction ClientMemory.code)

/-- One step of the loop and of the memory of both programs. -/
def step : State → Action → Option State :=
  HeapMachine.step (clientStep serverCalculations)
    (codeOfPart (fun m => m.control.server) (fun m => serverAction m.control)
      (ServerMemory.code serverCalculations))

end Step

/-! ## What the programs receive -/

section Projections

variable {serverCalculations : List CFloat → List.Vector CFloat 4}
  {P : ClosedLoop.State → Action → Prop} {clientStart serverStart : Heap Block} {clientBuf : Buf}
  {serverBuf : ListenerType → Buf} {as : List Action} {s : ClosedLoop.State}

/-- A request in flight is the half of a request. -/
theorem half_of_inFlight
    (hrun : Run (ClosedLoop.step serverCalculations) P (ClosedLoop.init clientBuf serverBuf) as s)
    {l : ListenerType} {x : ℕ × Datagram} (hx : x ∈ s.requests l) :
    WellFormed x.2 ∧ (floatsOf x.2).length = ServerMemory.halfLen l := by
  obtain ⟨hwf, p, hp, hfloats⟩ :=
    wellFormed_request hrun ((requestLink_sound hrun l).sent_of_inFlight hx)
  obtain ⟨bs, hclient⟩ := client_run (Q := Any) (fun _ _ _ _ _ => trivial)
    (fun _ _ _ => trivial) hrun
  obtain ⟨payload, -, rfl⟩ :=
    List.mem_map.mp ((Client.emitted_prefix_requests hclient).subset (List.mem_of_getElem? hp))
  refine ⟨hwf, ?_⟩
  rw [hfloats]
  cases l with
  | first => exact Client.length_firstHalf payload
  | second => exact Client.length_secondHalf payload

/-- A reply in flight has four floats. -/
theorem reply_of_inFlight
    (hrun : Run (ClosedLoop.step serverCalculations) P (ClosedLoop.init clientBuf serverBuf) as s)
    {d : Datagram} (hd : d ∈ s.replies) : WellFormed d ∧ 4 ≤ (floatsOf d).length := by
  obtain ⟨hwf, hlen⟩ := wellFormed_reply hrun ((replyLink_sound hrun).sent_of_inFlight hd)
  exact ⟨hwf, hlen.ge⟩

/-- The client in the loop receives replies. -/
theorem client_projects : Projects ClosedLoop.State.client clientAction
    (ClosedLoop.step serverCalculations) Client.step P ClientMemory.ReplyReceived
    (ClosedLoop.init clientBuf serverBuf) := by
  intro as s a s' hrun _ hstep
  cases step_move hstep with
  | client b hb hc =>
      refine .inr ⟨b, ?_, ?_, hc⟩
      · rcases hb with ⟨rfl, rfl⟩ | ⟨rfl, rfl⟩ | ⟨payload, rfl, rfl⟩ <;> rfl
      · intro d hd
        exact absurd hd ((client_action_ne hb).2 d)
  | clientSender hc =>
      refine .inr ⟨.sender, rfl, ?_, hc⟩
      intro d hd
      cases hd
  | deliverReply i d hi hc =>
      have hact : clientAction s (.deliverReply i) = some (.receive d) :=
        congrArg (Option.map Client.Action.receive) hi
      refine .inr ⟨.receive d, hact, ?_, hc⟩
      rintro d' ⟨⟩
      exact reply_of_inFlight hrun (List.mem_of_getElem? hi)
  | server b hb hsv =>
      rcases hb with ⟨rfl, rfl⟩ | ⟨l, rfl, rfl⟩ <;> exact .inl ⟨rfl, rfl⟩
  | _ => exact .inl ⟨rfl, rfl⟩

/-- The server in the loop receives halves of requests. -/
theorem server_projects : Projects ClosedLoop.State.server serverAction
    (ClosedLoop.step serverCalculations) (Server.step serverCalculations) P
    ServerMemory.HalfReceived (ClosedLoop.init clientBuf serverBuf) := by
  intro as s a s' hrun _ hstep
  cases step_move hstep with
  | server b hb hsv =>
      refine .inr ⟨b, ?_, ?_, hsv⟩
      · rcases hb with ⟨rfl, rfl⟩ | ⟨l, rfl, rfl⟩ <;> rfl
      · intro l d hd
        exact absurd hd ((server_action_ne hb).2 l d)
  | serverSender hsv =>
      refine .inr ⟨.sender, rfl, ?_, hsv⟩
      intro l d hd
      cases hd
  | deliverRequest l i x hi hsv =>
      have hact : serverAction s (.deliverRequest l i) = some (.receive l x.2) :=
        congrArg (Option.map fun (x : ℕ × Datagram) => Server.Action.receive l x.2) hi
      refine .inr ⟨.receive l x.2, hact, ?_, hsv⟩
      rintro l' d ⟨⟩
      exact half_of_inFlight hrun (List.mem_of_getElem? hi)
  | client b hb hc =>
      rcases hb with ⟨rfl, rfl⟩ | ⟨rfl, rfl⟩ | ⟨payload, rfl, rfl⟩ <;> exact .inl ⟨rfl, rfl⟩
  | _ => exact .inl ⟨rfl, rfl⟩

theorem client_keeps : Keeps (ClosedLoop.step serverCalculations)
    (codeOfPart ClosedLoop.State.client clientAction ClientMemory.code) P
    (init clientStart serverStart clientBuf serverBuf).control.control
    (ClientRepresents clientStart) :=
  client_projects.keeps (ClientMemory.keeps clientStart clientBuf)

theorem server_keeps : Keeps (clientStep serverCalculations)
    (codeOfPart (fun m => m.control.server) (fun m => serverAction m.control)
      (ServerMemory.code serverCalculations)) (fun m => P m.control)
    (init clientStart serverStart clientBuf serverBuf).control
    (ServerRepresents serverStart) :=
  server_projects.withHeap.keeps (ServerMemory.keeps serverStart serverBuf)

theorem client_represents_init : ClientRepresents clientStart
    (init clientStart serverStart clientBuf serverBuf).control :=
  ClientMemory.represents_init clientStart clientBuf

theorem server_represents_init : ServerRepresents serverStart
    (init clientStart serverStart clientBuf serverBuf) :=
  ServerMemory.represents_init serverStart serverBuf

end Projections

/-! ## Runs -/

section Runs

variable {serverCalculations : List CFloat → List.Vector CFloat 4}
  {P : ClosedLoop.State → Action → Prop} {clientStart serverStart : Heap Block} {clientBuf : Buf}
  {serverBuf : ListenerType → Buf} {as : List Action} {s : ClosedLoop.State} {m : State}

/-- The loop with the memory of the client makes the run. -/
theorem withClient_run (hrun : Run (step serverCalculations) (fun m a => P m.control.control a)
    (init clientStart serverStart clientBuf serverBuf) as m) :
    Run (clientStep serverCalculations) (fun m a => P m.control a)
      (init clientStart serverStart clientBuf serverBuf).control as m.control :=
  HeapMachine.control_run (P := fun (m : WithClient) => P m.control) hrun

/-- The loop by itself makes the run. -/
theorem loop_run (hrun : Run (step serverCalculations) (fun m a => P m.control.control a)
    (init clientStart serverStart clientBuf serverBuf) as m) :
    Run (ClosedLoop.step serverCalculations) P (ClosedLoop.init clientBuf serverBuf) as
      m.control.control :=
  HeapMachine.control_run (withClient_run hrun)

/-- Both memories are as the control says. -/
theorem represents (hrun : Run (step serverCalculations) (fun m a => P m.control.control a)
    (init clientStart serverStart clientBuf serverBuf) as m) :
    ClientRepresents clientStart m.control ∧ ServerRepresents serverStart m := by
  constructor
  · exact HeapMachine.Run.related client_keeps client_represents_init (withClient_run hrun)
  · exact HeapMachine.Run.related (P := fun (m : WithClient) => P m.control) server_keeps
      server_represents_init hrun

/-- A run of the loop is one of both memories. -/
theorem lift (clientStart serverStart : Heap Block) (hrun : Run (ClosedLoop.step serverCalculations)
    P (ClosedLoop.init clientBuf serverBuf) as s) : ∃ m, Run (step serverCalculations)
      (fun m a => P m.control.control a) (init clientStart serverStart clientBuf serverBuf) as m
        ∧ m.control.control = s := by
  have hinit : ClientRepresents clientStart
      (init clientStart serverStart clientBuf serverBuf).control := client_represents_init
  obtain ⟨mc, hmc, rfl⟩ := HeapMachine.Run.lift client_keeps hinit hrun
  obtain ⟨m, hm, rfl⟩ := HeapMachine.Run.lift (P := fun (m : WithClient) => P m.control)
    server_keeps server_represents_init hmc
  exact ⟨m, hm, rfl⟩

theorem firstCall_run : ∃ m, Run (step Server.firstFour) Any
    (init Heap.empty Heap.empty (fun _ => 0) fun _ _ => 0) firstCallSchedule m
      ∧ m.control.control.client.returned = [[0, 0, 0, 0]]
      ∧ ClosedLoop.step Server.firstFour m.control.control .clientSender ≠ none := by
  obtain ⟨s, hrun, hobs⟩ := Run.of_observed (by decide +kernel :
    (Transition.run (ClosedLoop.step Server.firstFour)
      (ClosedLoop.init (fun _ => 0) fun _ _ => 0) firstCallSchedule).map
        (fun s => (s.client.returned, (ClosedLoop.step Server.firstFour s .clientSender).isSome))
      = some ([[0, 0, 0, 0]], true))
  obtain ⟨hreturned, henabled⟩ := Prod.mk.inj hobs
  obtain ⟨m, hm, rfl⟩ := lift Heap.empty Heap.empty hrun
  exact ⟨m, hm, hreturned, Option.isSome_iff_ne_none.mp henabled⟩

/-- **No undefined behaviour in the loop.**  In every run, whatever the network does and whatever
the buffers hold at first, a step that a thread of either program can take has a result on the
heap of that program. -/
theorem loop_no_fault (hrun : Run (step serverCalculations) Any
    (init clientStart serverStart clientBuf serverBuf) as m) {a : Action}
    (ha : ClosedLoop.step serverCalculations m.control.control a ≠ none) :
    step serverCalculations m a ≠ none := by
  have hclient : clientStep serverCalculations m.control a ≠ none :=
    HeapMachine.Run.enabled (P := Any) client_keeps client_represents_init
      (withClient_run (P := Any) hrun) trivial ha
  exact HeapMachine.Run.enabled (P := Any) (server_keeps (P := Any)) server_represents_init hrun
    trivial hclient

/-- After the first call the sender of the client takes its next step. -/
theorem loop_no_fault_first_call : ∃ m, Run (step Server.firstFour) Any
    (init Heap.empty Heap.empty (fun _ => 0) fun _ _ => 0) firstCallSchedule m
      ∧ step Server.firstFour m .clientSender ≠ none := by
  obtain ⟨m, hm, -, henabled⟩ := firstCall_run
  exact ⟨m, hm, loop_no_fault hm henabled⟩

/-- What the client has put out on a port. -/
def sentTo (out : ClientMemory.Output) : ListenerType → List Datagram
  | .first => out.sentFirst
  | .second => out.sentSecond

/-- The datagrams in flight are tagged with their rounds. -/
theorem map_snd_tagged (batches : List (List CFloat)) :
    (tagged batches).map Prod.snd = batches.map datagramOf := by
  apply List.ext_getElem
  · simp [tagged]
  · intro r _ _
    simp [tagged]

theorem sentTo_output (c : Client.State) (l : ListenerType) :
    sentTo (ClientMemory.output c) l = (batchesSent c l).map datagramOf := by
  cases l <;> rfl

/-- **The memory refines the control.**  The schedules of the loop with both memories are those
of the loop without, under every discipline and to the same states.  The code of the sending
threads puts out the bytes of the batches and the results, and all that the network has delivered
or has in flight is among them. -/
theorem loop_memory_refines :
    Run (ClosedLoop.step serverCalculations) P (ClosedLoop.init clientBuf serverBuf) as s ↔
      ∃ m, Run (step serverCalculations) (fun m a => P m.control.control a)
          (init clientStart serverStart clientBuf serverBuf) as m
        ∧ m.control.control = s
        ∧ (∀ l, sentTo m.control.vars.out l = (batchesSent s.client l).map datagramOf
          ∧ (s.delivered l ++ s.requests l).map Prod.snd <+~ sentTo m.control.vars.out l)
        ∧ (m.vars.out = s.server.sent.map datagramOf
          ∧ s.client.received ++ s.replies <+~ m.vars.out)
        ∧ m.control.vars.out.returned = s.client.returned := by
  constructor
  · intro hrun
    obtain ⟨m, hm, rfl⟩ := lift clientStart serverStart hrun
    obtain ⟨⟨-, hclient⟩, -, hserver⟩ := represents hm
    have hsent (l : ListenerType) : sentTo m.control.vars.out l
        = (batchesSent m.control.control.client l).map datagramOf :=
      (congrArg (sentTo · l) hclient).trans (sentTo_output _ l)
    have hserver : m.vars.out = m.control.control.server.sent.map datagramOf := hserver
    refine ⟨m, hm, rfl, fun l => ⟨hsent l, ?_⟩, ⟨hserver, ?_⟩, congrArg _ hclient⟩
    · rw [hsent l, ← map_snd_tagged]
      obtain ⟨xs, hperm, hsub⟩ := requestLink_sound hrun l
      exact ⟨xs.map Prod.snd, hperm.map Prod.snd, hsub.map Prod.snd⟩
    · rw [hserver]
      exact replyLink_sound hrun
  · rintro ⟨m, hm, rfl, -⟩
    exact loop_run hm

/-- What was sent was computed. -/
theorem sent_le_computed (hrun : Run (ClosedLoop.step serverCalculations) P
    (ClosedLoop.init clientBuf serverBuf) as s) (l : ListenerType) :
    s.server.sent.length ≤ s.server.computed.length
      ∧ s.server.computed.length ≤ (batchesSent s.client l).length := by
  obtain ⟨bs, hserver⟩ := server_run_wf hrun
  have hputs := (Server.inv_run hserver).result.length_puts
  have hresults := congrArg List.length (Server.results_eq hserver)
  simp only [Server.resultChannel, List.length_append] at hputs
  rw [Server.results, List.length_map, List.length_append] at hresults
  have hcomputed := (Server.computed_prefix_received hserver l).length_le
  rw [List.length_map, List.length_map] at hcomputed
  have hlink := (requestLink_sound hrun l).length_le
  simp only [requestLink, tagged, List.length_append, List.length_mapIdx] at hlink
  have hdelivered := congrArg List.length (delivered_eq hrun l)
  rw [List.length_map] at hdelivered
  omega

/-- **Both memories grow.**  Of each call of `get_u` that has returned, whatever the network has
dropped, six blocks of the client are never released and fifteen of the server.  What is live
besides is what was live before the start of the loops, and at most twenty-three blocks of the
client and fifty-eight of the server. -/
theorem loop_leaks (hrun : Run (step serverCalculations) Any
    (init clientStart serverStart clientBuf serverBuf) as m) :
    (clientStart.count + 5 + 6 * m.control.control.client.returned.length ≤ m.control.heap.count
        ∧ m.control.heap.count
          ≤ clientStart.count + 23 + 6 * m.control.control.client.returned.length)
      ∧ serverStart.count + 2 + 15 * m.control.control.client.returned.length ≤ m.heap.count
        ∧ m.heap.count
          ≤ serverStart.count + 58 + 15 * m.control.control.client.returned.length := by
  have hloop : Run (ClosedLoop.step serverCalculations) Any _ as m.control.control :=
    loop_run hrun
  obtain ⟨hclient, hserver⟩ := represents (P := Any) hrun
  obtain ⟨bs, hbs⟩ := client_projects.run hloop
  obtain ⟨cs, hcs⟩ := server_projects.run hloop
  obtain ⟨hsent, hcomputed⟩ := sent_le_computed hloop .first
  obtain ⟨hrequested, hreturned⟩ := Client.requested_le_returned hbs
  have hread := read_le_sent hloop
  have hahead := (batchesSent_le_rounds m.control.control.client .first).trans
    (Client.rounds_le_requested hbs)
  refine ⟨hclient.count_bounds hbs, ?_⟩
  obtain ⟨hlower, hupper⟩ := hserver.count_bounds hcs
  dsimp only at hlower hupper
  omega

/-- After the first call, with nothing on the heaps of the start. -/
theorem loop_leaks_first_call : ∃ m, Run (step Server.firstFour) Any
    (init Heap.empty Heap.empty (fun _ => 0) fun _ _ => 0) firstCallSchedule m
      ∧ (11 ≤ m.control.heap.count ∧ m.control.heap.count ≤ 29)
      ∧ 17 ≤ m.heap.count ∧ m.heap.count ≤ 73 := by
  obtain ⟨m, hm, hreturned, -⟩ := firstCall_run
  have hleaks := loop_leaks hm
  rw [hreturned, Heap.count_empty] at hleaks
  exact ⟨m, hm, hleaks⟩

end Runs

end ClosedLoopMemory
