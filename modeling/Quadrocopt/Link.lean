/-
# A datagram link

A link between a sender and a receiver: what was sent, what is in flight, and what
was delivered.  A send puts a message in flight; a delivery may take any message in
flight, not only the oldest; a drop removes one for good.

Three laws, one for each degree of trust in the link:

* `Sound` (any operations): what was delivered and what is in flight was sent, no
  message twice.
* `Conserving` (no drops): nothing else was sent, so the numbers agree.
* `Ordered` (no drops, oldest first): what was sent is what was delivered followed by
  what is in flight.

The module names nothing of the program; each of its sockets is an instance of it.
-/
import Mathlib.Data.List.Perm.Basic
import Mathlib.Data.List.Perm.Subperm

/-- The state of a link over messages of type `α`. -/
structure Link (α : Type*) where
  sent : List α
  inFlight : List α
  delivered : List α

namespace Link

open scoped List

variable {α : Type*}

/-- The operations of the two ends and of the network. -/
inductive Op (α : Type*) where
  | send (x : α)
  | deliver (i : ℕ)
  | drop (i : ℕ)

/-- The operation loses nothing. -/
def Op.Keeps : Op α → Prop
  | drop _ => False
  | _ => True

/-- The operation loses nothing and delivers the oldest message. -/
def Op.Oldest : Op α → Prop
  | send _ => True
  | deliver i => i = 0
  | drop _ => False

/-- One operation, if it is enabled. -/
def step (l : Link α) : Op α → Option (Link α)
  | .send x => some { l with sent := l.sent ++ [x], inFlight := l.inFlight ++ [x] }
  | .deliver i =>
      (l.inFlight[i]?).map fun x =>
        { l with inFlight := l.inFlight.eraseIdx i, delivered := l.delivered ++ [x] }
  | .drop i => (l.inFlight[i]?).map fun _ => { l with inFlight := l.inFlight.eraseIdx i }

/-! ## The laws -/

/-- Nothing is made up and nothing is duplicated. -/
def Sound (l : Link α) : Prop := l.delivered ++ l.inFlight <+~ l.sent

/-- Nothing is lost either. -/
def Conserving (l : Link α) : Prop := l.delivered ++ l.inFlight ~ l.sent

/-- Nothing overtakes either. -/
def Ordered (l : Link α) : Prop := l.delivered ++ l.inFlight = l.sent

/-- The message taken out of flight, put back in front of the others. -/
theorem perm_eraseIdx {xs : List α} {i : ℕ} {x : α} (h : xs[i]? = some x) :
    x :: xs.eraseIdx i ~ xs := by
  obtain ⟨hi, rfl⟩ := List.getElem?_eq_some_iff.mp h
  exact List.getElem_cons_eraseIdx_perm hi

/-- A delivery moves a message and changes nothing else. -/
theorem perm_deliver {xs ys : List α} {i : ℕ} {x : α} (h : xs[i]? = some x) :
    (ys ++ [x]) ++ xs.eraseIdx i ~ ys ++ xs := by
  rw [List.append_assoc, List.singleton_append]
  exact (perm_eraseIdx h).append_left ys

/-- No operation duplicates or makes up a message. -/
theorem Sound.step {l l' : Link α} {op : Op α} (hl : l.Sound) (hs : l.step op = some l') :
    l'.Sound := by
  cases op with
  | send x =>
      obtain rfl := Option.some.inj hs
      show l.delivered ++ (l.inFlight ++ [x]) <+~ l.sent ++ [x]
      rw [← List.append_assoc]
      exact (List.subperm_append_right [x]).mpr hl
  | deliver i =>
      obtain ⟨x, hx, rfl⟩ := Option.map_eq_some_iff.mp hs
      exact (perm_deliver hx).subperm.trans hl
  | drop i =>
      obtain ⟨x, -, rfl⟩ := Option.map_eq_some_iff.mp hs
      exact ((List.eraseIdx_sublist l.inFlight i).append_left l.delivered).subperm.trans hl

/-- Without drops no message gets lost. -/
theorem Conserving.step {l l' : Link α} {op : Op α} (hl : l.Conserving) (hop : op.Keeps)
    (hs : l.step op = some l') : l'.Conserving := by
  cases op with
  | send x =>
      obtain rfl := Option.some.inj hs
      show l.delivered ++ (l.inFlight ++ [x]) ~ l.sent ++ [x]
      rw [← List.append_assoc]
      exact List.Perm.append_right [x] hl
  | deliver i =>
      obtain ⟨x, hx, rfl⟩ := Option.map_eq_some_iff.mp hs
      exact (perm_deliver hx).trans hl
  | drop i => exact hop.elim

/-- When only the oldest message is delivered, the order is kept. -/
theorem Ordered.step {l l' : Link α} {op : Op α} (hl : l.Ordered) (hop : op.Oldest)
    (hs : l.step op = some l') : l'.Ordered := by
  cases op with
  | send x =>
      obtain rfl := Option.some.inj hs
      show l.delivered ++ (l.inFlight ++ [x]) = l.sent ++ [x]
      rw [← List.append_assoc]
      exact congrArg (· ++ [x]) hl
  | deliver i =>
      obtain rfl : i = 0 := hop
      obtain ⟨x, hx, rfl⟩ := Option.map_eq_some_iff.mp hs
      -- the oldest message is the head of the list
      cases hflight : l.inFlight with
      | nil =>
          rw [hflight] at hx
          cases hx
      | cons y ys =>
          rw [hflight] at hx
          obtain rfl : y = x := Option.some.inj hx
          show (l.delivered ++ [y]) ++ ys = l.sent
          rw [List.append_assoc, List.singleton_append, ← hflight]
          exact hl
  | drop i => exact hop.elim

/-! ## Refinement into the link -/

/-- A step of some machine seen through a link: nothing, or one operation among those
that `Q` allows. -/
def Moves (Q : Op α → Prop) (l l' : Link α) : Prop :=
  l' = l ∨ ∃ op, Q op ∧ l.step op = some l'

/-- A machine that is seen through a link keeps its laws: here that of any network. -/
theorem Sound.moves {Q : Op α → Prop} {l l' : Link α} (hl : l.Sound) (hm : Moves Q l l') :
    l'.Sound := by
  rcases hm with rfl | ⟨op, -, hs⟩
  · exact hl
  · exact hl.step hs

/-- The same for a network that drops nothing. -/
theorem Conserving.moves {Q : Op α → Prop} (hQ : ∀ op, Q op → op.Keeps) {l l' : Link α}
    (hl : l.Conserving) (hm : Moves Q l l') : l'.Conserving := by
  rcases hm with rfl | ⟨op, hop, hs⟩
  · exact hl
  · exact hl.step (hQ op hop) hs

/-- The same for a network that keeps the order. -/
theorem Ordered.moves {Q : Op α → Prop} (hQ : ∀ op, Q op → op.Oldest) {l l' : Link α}
    (hl : l.Ordered) (hm : Moves Q l l') : l'.Ordered := by
  rcases hm with rfl | ⟨op, hop, hs⟩
  · exact hl
  · exact hl.step (hQ op hop) hs

/-! ## What the laws are used for -/

/-- What is in flight was sent. -/
theorem Sound.sent_of_inFlight {l : Link α} (hl : l.Sound) {x : α} (hx : x ∈ l.inFlight) :
    x ∈ l.sent :=
  List.Subperm.subset hl (List.mem_append_right _ hx)

/-- What was delivered was sent. -/
theorem Sound.sent_of_delivered {l : Link α} (hl : l.Sound) {x : α} (hx : x ∈ l.delivered) :
    x ∈ l.sent :=
  List.Subperm.subset hl (List.mem_append_left _ hx)

/-- With nothing in flight everything sent is delivered. -/
theorem Conserving.length_sent {l : Link α} (hl : l.Conserving) (h : l.inFlight = []) :
    l.sent.length = l.delivered.length := by
  rw [← List.Perm.length_eq hl, h, List.append_nil]

/-- What is delivered is a prefix of what was sent. -/
theorem Ordered.delivered_prefix_sent {l : Link α} (hl : l.Ordered) : l.delivered <+: l.sent := by
  rw [← hl]
  exact List.prefix_append _ _

end Link
