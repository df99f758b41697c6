/-
# The closed loop: client, server and network

One client and one server, joined by three sockets: the two request ports of the
server and the reply port of the client.  A `sendto` puts a datagram in flight, a
`recvfrom` takes one out; between the two the network may delay it as long as it
likes, hand over a later one first, or drop it.

Each request in flight carries the number of the round of `run_sender` that sent it.
The programs do not see this number: it is there to say which halves belong
together.

Disciplines on the schedule say how well the network behaves: under
`Action.Lossless` it drops nothing, under `Action.InOrder` it also keeps the order
on each socket.
-/
import Quadrocopt.ClientPaths
import Quadrocopt.ServerPaths

namespace ClosedLoop

open Transition
open Server (ListenerType)

/-- Both programs, the datagrams in flight on the three sockets, and the requests
delivered so far on each port. -/
structure State where
  client : Client.State
  server : Server.State
  requests : ListenerType → List (ℕ × Datagram)
  replies : List Datagram
  delivered : ListenerType → List (ℕ × Datagram)

/-- Both programs in their initial states, nothing in flight. -/
def init (clientBuf : Buf) (serverBuf : ListenerType → Buf) : State where
  client := Client.init clientBuf
  server := Server.init serverBuf
  requests := fun _ => []
  replies := []
  delivered := fun _ => []

/-- Who moves: one of the seven threads, or the network by dropping a datagram.  A
delivery is the `recvfrom` step of the listener that waits on the socket; its number
says which of the datagrams in flight it returns. -/
inductive Action where
  | getU (payload : Client.Payload)
  | clientCalculator
  | clientSender
  | clientListener
  | serverCalculator
  | serverSender
  | serverListener (l : ListenerType)
  | deliverRequest (l : ListenerType) (i : ℕ)
  | deliverReply (i : ℕ)
  | dropRequest (l : ListenerType) (i : ℕ)
  | dropReply (i : ℕ)
  deriving DecidableEq

namespace Action

/-- The network drops nothing. -/
def Lossless : Action → Prop
  | dropRequest _ _ => False
  | dropReply _ => False
  | _ => True

/-- The network drops nothing and delivers the oldest datagram of a socket first. -/
def InOrder : Action → Prop
  | dropRequest _ _ => False
  | dropReply _ => False
  | deliverRequest _ i => i = 0
  | deliverReply i => i = 0
  | _ => True

/-- A step of one of the seven threads, deliveries included, that does not start a new
`get_u` call. -/
def IsThreadStep : Action → Prop
  | getU _ => False
  | dropRequest _ _ => False
  | dropReply _ => False
  | _ => True

theorem InOrder.lossless {a : Action} (h : a.InOrder) : a.Lossless := by
  cases a <;> first | exact trivial | exact h

instance : DecidablePred InOrder
  | getU _ => isTrue trivial
  | clientCalculator => isTrue trivial
  | clientSender => isTrue trivial
  | clientListener => isTrue trivial
  | serverCalculator => isTrue trivial
  | serverSender => isTrue trivial
  | serverListener _ => isTrue trivial
  | deliverRequest _ i => inferInstanceAs (Decidable (i = 0))
  | deliverReply i => inferInstanceAs (Decidable (i = 0))
  | dropRequest _ _ => isFalse id
  | dropReply _ => isFalse id

end Action

/-! ## The steps -/

/-- What the client's sender puts in flight on a request port when it takes its next
step. -/
def sentRequests (c : Client.State) (l : ListenerType) : List (ℕ × Datagram) :=
  match c.sender, l with
  | .sendFirst firstBatch _, .first => [(c.emitted.length, datagramOf firstBatch)]
  | .sendSecond _ secondBatch, .second => [(c.emitted.length, datagramOf secondBatch)]
  | _, _ => []

/-- What the server's sender puts in flight when it takes its next step. -/
def sentReplies (s : Server.State) : List Datagram :=
  match s.sender with
  | .send calcs => [datagramOf calcs]
  | _ => []

section Steps

variable (serverCalculations : List CFloat → List.Vector CFloat 4)

/-- A step of the client that neither sends nor receives. -/
def clientStep (s : State) (a : Client.Action) : Option State :=
  (Client.step s.client a).map fun c => { s with client := c }

/-- A step of the server that neither sends nor receives. -/
def serverStep (s : State) (a : Server.Action) : Option State :=
  (Server.step serverCalculations s.server a).map fun sv => { s with server := sv }

/-- One step of the closed loop. -/
def step (s : State) : Action → Option State
  | .getU payload => clientStep s (.getU payload)
  | .clientCalculator => clientStep s .calculator
  | .clientListener => clientStep s .listener
  | .clientSender =>
      (Client.step s.client .sender).map fun c =>
        { s with client := c, requests := fun l => s.requests l ++ sentRequests s.client l }
  | .serverCalculator => serverStep serverCalculations s .calculator
  | .serverListener l => serverStep serverCalculations s (.listener l)
  | .serverSender =>
      (Server.step serverCalculations s.server .sender).map fun sv =>
        { s with server := sv, replies := s.replies ++ sentReplies s.server }
  | .deliverRequest l i =>
      ((s.requests l)[i]?).bind fun x =>
        (Server.step serverCalculations s.server (.receive l x.2)).map fun sv =>
          { s with
            server := sv
            requests := Function.update s.requests l ((s.requests l).eraseIdx i)
            delivered := Function.update s.delivered l (s.delivered l ++ [x]) }
  | .deliverReply i =>
      (s.replies[i]?).bind fun d =>
        (Client.step s.client (.receive d)).map fun c =>
          { s with client := c, replies := s.replies.eraseIdx i }
  | .dropRequest l i =>
      ((s.requests l)[i]?).map fun _ =>
        { s with requests := Function.update s.requests l ((s.requests l).eraseIdx i) }
  | .dropReply i => (s.replies[i]?).map fun _ => { s with replies := s.replies.eraseIdx i }

/-- The steps of the closed loop by their effect on the two programs and the network. -/
inductive Move (s : State) : Action → State → Prop
  | client {a : Action} {c : Client.State} (b : Client.Action)
      (hb : b = .calculator ∧ a = .clientCalculator ∨ b = .listener ∧ a = .clientListener
        ∨ ∃ p, b = .getU p ∧ a = .getU p)
      (h : Client.step s.client b = some c) :
      Move s a { s with client := c }
  | clientSender {c : Client.State} (h : Client.step s.client .sender = some c) :
      Move s .clientSender
        { s with client := c, requests := fun l => s.requests l ++ sentRequests s.client l }
  | server {a : Action} {sv : Server.State} (b : Server.Action)
      (hb : b = .calculator ∧ a = .serverCalculator ∨ ∃ l, b = .listener l ∧ a = .serverListener l)
      (h : Server.step serverCalculations s.server b = some sv) :
      Move s a { s with server := sv }
  | serverSender {sv : Server.State}
      (h : Server.step serverCalculations s.server .sender = some sv) :
      Move s .serverSender
        { s with server := sv, replies := s.replies ++ sentReplies s.server }
  | deliverRequest {sv : Server.State} (l : ListenerType) (i : ℕ) (x : ℕ × Datagram)
      (hi : (s.requests l)[i]? = some x)
      (h : Server.step serverCalculations s.server (.receive l x.2) = some sv) :
      Move s (.deliverRequest l i)
        { s with
          server := sv
          requests := Function.update s.requests l ((s.requests l).eraseIdx i)
          delivered := Function.update s.delivered l (s.delivered l ++ [x]) }
  | deliverReply {c : Client.State} (i : ℕ) (d : Datagram) (hi : s.replies[i]? = some d)
      (h : Client.step s.client (.receive d) = some c) :
      Move s (.deliverReply i) { s with client := c, replies := s.replies.eraseIdx i }
  | dropRequest (l : ListenerType) (i : ℕ) (x : ℕ × Datagram)
      (hi : (s.requests l)[i]? = some x) :
      Move s (.dropRequest l i)
        { s with requests := Function.update s.requests l ((s.requests l).eraseIdx i) }
  | dropReply (i : ℕ) (d : Datagram) (hi : s.replies[i]? = some d) :
      Move s (.dropReply i) { s with replies := s.replies.eraseIdx i }

variable {serverCalculations}

/-- **Inversion of the step function.** -/
theorem step_move {s s' : State} {a : Action} (h : step serverCalculations s a = some s') :
    Move serverCalculations s a s' := by
  cases a with
  | getU payload =>
      obtain ⟨c, hc, rfl⟩ := Option.map_eq_some_iff.mp h
      exact Move.client (.getU payload) (.inr (.inr ⟨payload, rfl, rfl⟩)) hc
  | clientCalculator =>
      obtain ⟨c, hc, rfl⟩ := Option.map_eq_some_iff.mp h
      exact Move.client .calculator (.inl ⟨rfl, rfl⟩) hc
  | clientListener =>
      obtain ⟨c, hc, rfl⟩ := Option.map_eq_some_iff.mp h
      exact Move.client .listener (.inr (.inl ⟨rfl, rfl⟩)) hc
  | clientSender =>
      obtain ⟨c, hc, rfl⟩ := Option.map_eq_some_iff.mp h
      exact Move.clientSender hc
  | serverCalculator =>
      obtain ⟨sv, hsv, rfl⟩ := Option.map_eq_some_iff.mp h
      exact Move.server .calculator (.inl ⟨rfl, rfl⟩) hsv
  | serverListener l =>
      obtain ⟨sv, hsv, rfl⟩ := Option.map_eq_some_iff.mp h
      exact Move.server (.listener l) (.inr ⟨l, rfl, rfl⟩) hsv
  | serverSender =>
      obtain ⟨sv, hsv, rfl⟩ := Option.map_eq_some_iff.mp h
      exact Move.serverSender hsv
  | deliverRequest l i =>
      obtain ⟨x, hi, hrest⟩ := Option.bind_eq_some_iff.mp h
      obtain ⟨sv, hsv, rfl⟩ := Option.map_eq_some_iff.mp hrest
      exact Move.deliverRequest l i x hi hsv
  | deliverReply i =>
      obtain ⟨d, hi, hrest⟩ := Option.bind_eq_some_iff.mp h
      obtain ⟨c, hc, rfl⟩ := Option.map_eq_some_iff.mp hrest
      exact Move.deliverReply i d hi hc
  | dropRequest l i =>
      obtain ⟨x, hi, rfl⟩ := Option.map_eq_some_iff.mp h
      exact Move.dropRequest l i x hi
  | dropReply i =>
      obtain ⟨d, hi, rfl⟩ := Option.map_eq_some_iff.mp h
      exact Move.dropReply i d hi

/-- A step of the client that is not its sender's is neither a send nor a receive. -/
theorem client_action_ne {b : Client.Action} {a : Action}
    (hb : b = .calculator ∧ a = .clientCalculator ∨ b = .listener ∧ a = .clientListener
      ∨ ∃ p, b = .getU p ∧ a = .getU p) : b ≠ .sender ∧ ∀ d, b ≠ .receive d := by
  rcases hb with ⟨rfl, -⟩ | ⟨rfl, -⟩ | ⟨p, rfl, -⟩ <;> simp

/-- A step of the server that is not its sender's is neither a send nor a receive. -/
theorem server_action_ne {b : Server.Action} {a : Action}
    (hb : b = .calculator ∧ a = .serverCalculator ∨ ∃ l, b = .listener l ∧ a = .serverListener l) :
    b ≠ .sender ∧ ∀ l d, b ≠ .receive l d := by
  rcases hb with ⟨rfl, -⟩ | ⟨l, rfl, -⟩ <;> simp

/-! ## The programs inside the loop

Every run of the closed loop, seen from one of the programs, is a run of that
program. -/

variable {P : State → Action → Prop} {clientBuf : Buf} {serverBuf : ListenerType → Buf}
  {as : List Action} {s : State}

/-- The client of a run of the closed loop is at the end of a run of the client, under
any discipline that the replies in flight meet. -/
theorem client_run {Q : Client.State → Client.Action → Prop}
    (hreceive : ∀ as s d, Run (step serverCalculations) P (init clientBuf serverBuf) as s →
      d ∈ s.replies → Q s.client (.receive d))
    (hother : ∀ c b, (∀ d, b ≠ .receive d) → Q c b)
    (h : Run (step serverCalculations) P (init clientBuf serverBuf) as s) :
    ∃ bs, Run Client.step Q (Client.init clientBuf) bs s.client := by
  apply h.project State.client
  intro as s a s' hrun _ hstep
  cases step_move hstep with
  | client b hb hc =>
      exact .inr ⟨b, hother _ b (client_action_ne hb).2, hc⟩
  | clientSender hc => exact .inr ⟨.sender, hother _ _ (by simp), hc⟩
  | deliverReply i d hi hc =>
      exact .inr ⟨.receive d, hreceive as s d hrun (List.mem_of_getElem? hi), hc⟩
  | _ => exact .inl rfl

/-- The server of a run of the closed loop is at the end of a run of the server, under
any discipline that the requests in flight meet. -/
theorem server_run {Q : Server.State → Server.Action → Prop}
    (hreceive : ∀ as s l x, Run (step serverCalculations) P (init clientBuf serverBuf) as s →
      x ∈ s.requests l → Q s.server (.receive l x.2))
    (hother : ∀ as s a b, Run (step serverCalculations) P (init clientBuf serverBuf) as s →
      P s a → (b = .calculator → a = .serverCalculator) → (∀ l d, b ≠ .receive l d) →
      Q s.server b)
    (h : Run (step serverCalculations) P (init clientBuf serverBuf) as s) :
    ∃ bs, Run (Server.step serverCalculations) Q (Server.init serverBuf) bs s.server := by
  apply h.project State.server
  intro as s a s' hrun hP hstep
  cases step_move hstep with
  | server b hb hsv =>
      refine .inr ⟨b, hother as s a b hrun hP ?_ (server_action_ne hb).2, hsv⟩
      rintro rfl
      rcases hb with ⟨-, ha⟩ | ⟨l, hl, -⟩
      · exact ha
      · cases hl
  | serverSender hsv =>
      exact .inr ⟨.sender, hother as s _ _ hrun hP (by simp) (by simp), hsv⟩
  | deliverRequest l i x hi hsv =>
      exact .inr ⟨.receive l x.2, hreceive as s l x hrun (List.mem_of_getElem? hi), hsv⟩
  | _ => exact .inl rfl

end Steps

end ClosedLoop
