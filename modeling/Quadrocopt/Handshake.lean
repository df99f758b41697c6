/-
# The one-slot hand-shake

A producer and a consumer share one slot and two flags.  The producer waits for
`free` and clears it, writes the slot, and raises `full`; the consumer waits for
`full` and clears it, takes the contents of the slot, and raises `free`.  Writes
are not restricted to the producer's critical section, so that a machine whose
producer writes too early can be described as well.

Two laws, kept by the steps:

* `Balanced` (every step): exactly one of the two flags and the two critical
  sections holds the token, and the contents of the slot account for the one
  value that may have been published and not yet taken.
* `Lawful` (every step but a write over a value not yet taken): what was
  published is what was taken followed by the live contents of the slot.

The module names nothing of the program; each pair of flags of the program is
an instance of it.
-/
import Quadrocopt.Transition

/-- Where the consumer of a hand-shake is: outside its critical section, inside
it before it has taken the slot, or inside it afterwards. -/
inductive Consumer where
  | idle
  | entered
  | taken
  deriving DecidableEq, Repr

namespace Consumer

/-- The consumer is in its critical section. -/
@[simp] def inside : Consumer → Bool
  | idle => false
  | entered => true
  | taken => true

/-- The consumer is in its critical section and has yet to take the slot. -/
@[simp] def expecting : Consumer → Bool
  | idle => false
  | entered => true
  | taken => false

end Consumer

/-- The state of a hand-shake over values of type `α`, with the list of the
values published and the list of the values taken so far. -/
structure Handshake (α : Type*) where
  free : Bool
  full : Bool
  producing : Bool
  consumer : Consumer
  slot : α
  puts : List α
  takes : List α

namespace Handshake

variable {α : Type*}

/-- The operations of the two parties. -/
inductive Op (α : Type*) where
  | acquire
  | write (a : α)
  | publish
  | accept
  | take
  | release

/-- One operation, if it is enabled. -/
def step (h : Handshake α) : Op α → Option (Handshake α)
  | .acquire =>
      if h.free ∧ ¬ h.producing then some { h with free := false, producing := true } else none
  | .write a => some { h with slot := a }
  | .publish =>
      if h.producing then
        some { h with producing := false, full := true, puts := h.puts ++ [h.slot] }
      else none
  | .accept =>
      if h.full ∧ h.consumer = .idle then some { h with full := false, consumer := .entered }
      else none
  | .take =>
      if h.consumer = .entered then
        some { h with consumer := .taken, takes := h.takes ++ [h.slot] }
      else none
  | .release =>
      if h.consumer = .taken then some { h with consumer := .idle, free := true } else none

/-- The slot holds a published value that nobody has taken. -/
def live (h : Handshake α) : Bool := h.full || h.consumer.expecting

/-- The number of flags raised and critical sections occupied. -/
def tokens (h : Handshake α) : ℕ :=
  h.free.toNat + h.producing.toNat + h.full.toNat + h.consumer.inside.toNat

/-- The live contents of the slot, as a list of length at most one. -/
def contents (h : Handshake α) : List α := if h.live then [h.slot] else []

/-! ## The conservation laws -/

/-- Exactly one token, and at most one value between the two parties. -/
structure Balanced (h : Handshake α) : Prop where
  tokens_eq : h.tokens = 1
  length_puts : h.puts.length = h.takes.length + h.live.toNat

/-- What was published is what was taken followed by what the slot still holds. -/
structure Lawful (h : Handshake α) : Prop where
  tokens_eq : h.tokens = 1
  puts_eq : h.puts = h.takes ++ h.contents

/-- With nothing live the slot has no contents. -/
theorem contents_of_not_live {h : Handshake α} (hl : h.live = false) : h.contents = [] := by
  unfold contents
  rw [hl]
  rfl

/-! ## Exclusion

Each flag and each critical section, once it holds the token, excludes the
other three. -/

/-- The producer in its critical section: neither flag is raised and the
consumer is outside. -/
theorem tokens_producing {h : Handshake α} (ht : h.tokens = 1) (hp : h.producing = true) :
    h.free = false ∧ h.full = false ∧ h.consumer = .idle := by
  unfold tokens at ht
  rw [hp] at ht
  cases hf : h.free <;> cases hu : h.full <;> cases hc : h.consumer <;> simp_all

/-- The consumer in its critical section: neither flag is raised and the
producer is outside. -/
theorem tokens_consuming {h : Handshake α} (ht : h.tokens = 1) (hc : h.consumer ≠ .idle) :
    h.free = false ∧ h.full = false ∧ h.producing = false := by
  unfold tokens at ht
  cases hf : h.free <;> cases hu : h.full <;> cases hp : h.producing <;>
    cases hcons : h.consumer <;> simp_all

/-- The slot offered to the consumer: the other flag is down and both parties
are outside. -/
theorem tokens_full {h : Handshake α} (ht : h.tokens = 1) (hu : h.full = true) :
    h.free = false ∧ h.producing = false ∧ h.consumer = .idle := by
  unfold tokens at ht
  rw [hu] at ht
  cases hf : h.free <;> cases hp : h.producing <;> cases hc : h.consumer <;> simp_all

/-- The slot offered to the producer: the other flag is down and both parties
are outside. -/
theorem tokens_free {h : Handshake α} (ht : h.tokens = 1) (hf : h.free = true) :
    h.full = false ∧ h.producing = false ∧ h.consumer = .idle := by
  unfold tokens at ht
  rw [hf] at ht
  cases hu : h.full <;> cases hp : h.producing <;> cases hc : h.consumer <;> simp_all

/-- While the producer is in its critical section, nothing in the slot is live. -/
theorem not_live_of_producing {h : Handshake α} (ht : h.tokens = 1)
    (hp : h.producing = true) : h.live = false := by
  obtain ⟨-, hu, hc⟩ := tokens_producing ht hp
  simp [live, hu, hc]

/-- After the consumer has taken the slot, nothing in it is live. -/
theorem not_live_of_taken {h : Handshake α} (ht : h.tokens = 1)
    (hc : h.consumer = .taken) : h.live = false := by
  obtain ⟨-, hu, -⟩ := tokens_consuming ht (by rw [hc]; decide)
  simp [live, hu, hc]

/-- With the flag down and the consumer outside, nothing in the slot is live. -/
theorem not_live_of_idle {h : Handshake α} (hu : h.full = false) (hc : h.consumer = .idle) :
    h.live = false := by
  simp [live, hu, hc]

/-- With both flags down and both parties outside the token would be lost. -/
theorem not_stuck {h : Handshake α} (ht : h.tokens = 1) (hf : h.free = false)
    (hp : h.producing = false) (hu : h.full = false) : h.consumer ≠ .idle := by
  intro hc
  simp [tokens, hf, hp, hu, hc] at ht

/-! ## Every step keeps the laws -/

/-- The operation writes over a value that was published and not taken. -/
def Overwrites (h : Handshake α) (op : Op α) : Prop := h.live = true ∧ ∃ a, op = .write a

/-- With nothing live there is nothing to overwrite. -/
theorem not_overwrites_of_not_live {h : Handshake α} (hl : h.live = false) (op : Op α) :
    ¬ h.Overwrites op := by
  rintro ⟨hlive, -⟩
  rw [hl] at hlive
  cases hlive

/-- No operation creates or destroys a token. -/
theorem tokens_step {h h' : Handshake α} {op : Op α} (ht : h.tokens = 1)
    (hs : h.step op = some h') : h'.tokens = 1 := by
  cases op with
  | acquire =>
      simp only [step, Option.ite_none_right_eq_some, Option.some.injEq] at hs
      obtain ⟨⟨hf, -⟩, rfl⟩ := hs
      obtain ⟨hu, -, hc⟩ := tokens_free ht hf
      simp [tokens, hu, hc]
  | write a =>
      obtain rfl := Option.some.inj hs
      exact ht
  | publish =>
      simp only [step, Option.ite_none_right_eq_some, Option.some.injEq] at hs
      obtain ⟨hp, rfl⟩ := hs
      obtain ⟨hf, -, hc⟩ := tokens_producing ht hp
      simp [tokens, hf, hc]
  | accept =>
      simp only [step, Option.ite_none_right_eq_some, Option.some.injEq] at hs
      obtain ⟨⟨hu, -⟩, rfl⟩ := hs
      obtain ⟨hf, hp, -⟩ := tokens_full ht hu
      simp [tokens, hf, hp]
  | take =>
      simp only [step, Option.ite_none_right_eq_some, Option.some.injEq] at hs
      obtain ⟨hc, rfl⟩ := hs
      obtain ⟨hf, hu, hp⟩ := tokens_consuming ht (by rw [hc]; decide)
      simp [tokens, hf, hu, hp]
  | release =>
      simp only [step, Option.ite_none_right_eq_some, Option.some.injEq] at hs
      obtain ⟨hc, rfl⟩ := hs
      obtain ⟨-, hu, hp⟩ := tokens_consuming ht (by rw [hc]; decide)
      simp [tokens, hu, hp]

/-- **Counting law.**  Every operation, overwriting ones included, keeps the
balance of what was published and what was taken. -/
theorem Balanced.step {h h' : Handshake α} {op : Op α} (hb : h.Balanced)
    (hs : h.step op = some h') : h'.Balanced := by
  constructor
  · exact tokens_step hb.tokens_eq hs
  have hlen := hb.length_puts
  -- only `publish` and `take` count, and each moves the value across the slot
  cases op with
  | acquire =>
      simp only [Handshake.step, Option.ite_none_right_eq_some, Option.some.injEq] at hs
      obtain ⟨-, rfl⟩ := hs
      exact hlen
  | write a =>
      obtain rfl := Option.some.inj hs
      exact hlen
  | publish =>
      simp only [Handshake.step, Option.ite_none_right_eq_some, Option.some.injEq] at hs
      obtain ⟨hp, rfl⟩ := hs
      rw [not_live_of_producing hb.tokens_eq hp] at hlen
      simpa [live] using hlen
  | accept =>
      simp only [Handshake.step, Option.ite_none_right_eq_some, Option.some.injEq] at hs
      obtain ⟨⟨hu, -⟩, rfl⟩ := hs
      simpa [live, hu] using hlen
  | take =>
      simp only [Handshake.step, Option.ite_none_right_eq_some, Option.some.injEq] at hs
      obtain ⟨hc, rfl⟩ := hs
      obtain ⟨-, hu, -⟩ := tokens_consuming hb.tokens_eq (by rw [hc]; decide)
      simpa [live, hu, hc] using hlen
  | release =>
      simp only [Handshake.step, Option.ite_none_right_eq_some, Option.some.injEq] at hs
      obtain ⟨hc, rfl⟩ := hs
      simpa [live, hc] using hlen

/-- **Value law.**  An operation that does not overwrite a live slot keeps
"published is taken followed by the contents". -/
theorem Lawful.step {h h' : Handshake α} {op : Op α} (hl : h.Lawful) (hw : ¬ h.Overwrites op)
    (hs : h.step op = some h') : h'.Lawful := by
  constructor
  · exact tokens_step hl.tokens_eq hs
  have hputs := hl.puts_eq
  cases op with
  | acquire =>
      simp only [Handshake.step, Option.ite_none_right_eq_some, Option.some.injEq] at hs
      obtain ⟨-, rfl⟩ := hs
      exact hputs
  | write a =>
      -- nothing in the slot was published, so nothing is lost by writing it
      obtain rfl := Option.some.inj hs
      have hlive : h.live = false := by
        by_contra hc
        exact hw ⟨by simpa using hc, a, rfl⟩
      rw [contents_of_not_live hlive] at hputs
      rw [contents_of_not_live (by simpa [live] using hlive)]
      exact hputs
  | publish =>
      simp only [Handshake.step, Option.ite_none_right_eq_some, Option.some.injEq] at hs
      obtain ⟨hp, rfl⟩ := hs
      rw [contents_of_not_live (not_live_of_producing hl.tokens_eq hp)] at hputs
      -- what the producer leaves in the slot becomes its live contents
      simpa [contents, live] using hputs
  | accept =>
      simp only [Handshake.step, Option.ite_none_right_eq_some, Option.some.injEq] at hs
      obtain ⟨⟨hu, -⟩, rfl⟩ := hs
      simpa [contents, live, hu] using hputs
  | take =>
      simp only [Handshake.step, Option.ite_none_right_eq_some, Option.some.injEq] at hs
      obtain ⟨hc, rfl⟩ := hs
      obtain ⟨-, hu, -⟩ := tokens_consuming hl.tokens_eq (by rw [hc]; decide)
      simpa [contents, live, hu, hc] using hputs
  | release =>
      simp only [Handshake.step, Option.ite_none_right_eq_some, Option.some.injEq] at hs
      obtain ⟨hc, rfl⟩ := hs
      obtain ⟨-, hu, -⟩ := tokens_consuming hl.tokens_eq (by rw [hc]; decide)
      simpa [contents, live, hu, hc] using hputs

/-! ## Refinement into the hand-shake -/

/-- A step of some machine seen through a hand-shake: nothing, or one operation
that writes over nothing live. -/
def Moves (h h' : Handshake α) : Prop :=
  h' = h ∨ ∃ op, ¬ h.Overwrites op ∧ h.step op = some h'

/-- An operation that writes nothing may be made at any time. -/
theorem Moves.of_step {h h' : Handshake α} (op : Op α) (hop : ∀ a, op ≠ .write a)
    (hs : h.step op = some h') : h.Moves h' := by
  refine Or.inr ⟨op, ?_, hs⟩
  rintro ⟨-, a, ha⟩
  exact hop a ha

/-- With nothing live a write may be made. -/
theorem Moves.of_write {h h' : Handshake α} (hl : h.live = false) (a : α)
    (hs : h.step (.write a) = some h') : h.Moves h' :=
  Or.inr ⟨.write a, not_overwrites_of_not_live hl _, hs⟩

/-- A step of some machine seen through a hand-shake, with writes at any time. -/
def MovesAny (h h' : Handshake α) : Prop := h' = h ∨ ∃ op, h.step op = some h'

theorem Lawful.moves {h h' : Handshake α} (hl : h.Lawful) (hm : h.Moves h') : h'.Lawful := by
  rcases hm with rfl | ⟨op, hw, hs⟩
  · exact hl
  · exact hl.step hw hs

theorem Balanced.moves {h h' : Handshake α} (hb : h.Balanced) (hm : h.MovesAny h') :
    h'.Balanced := by
  rcases hm with rfl | ⟨op, hs⟩
  · exact hb
  · exact hb.step hs

/-! ## What the laws are used for -/

/-- What holds of the values holds of their number. -/
theorem Lawful.balanced {h : Handshake α} (hl : h.Lawful) : h.Balanced := by
  refine ⟨hl.tokens_eq, ?_⟩
  rw [hl.puts_eq, List.length_append, contents]
  cases h.live <;> rfl

/-- What the consumer has taken is a prefix of what the producer has published. -/
theorem Lawful.takes_prefix_puts {h : Handshake α} (hl : h.Lawful) : h.takes <+: h.puts := by
  rw [hl.puts_eq]
  exact List.prefix_append _ _

/-- With nothing live everything published is taken. -/
theorem Lawful.takes_eq_puts {h : Handshake α} (hl : h.Lawful) (hlive : h.live = false) :
    h.takes = h.puts := by
  rw [hl.puts_eq, contents_of_not_live hlive, List.append_nil]

/-- So it is while the producer is in its critical section: whatever it writes, it
overwrites nothing that is still wanted. -/
theorem Lawful.takes_eq_puts_of_producing {h : Handshake α} (hl : h.Lawful)
    (hp : h.producing = true) : h.takes = h.puts :=
  hl.takes_eq_puts (not_live_of_producing hl.tokens_eq hp)

/-- So it is after the consumer has taken the slot, and then the producer is outside. -/
theorem Lawful.takes_eq_puts_of_taken {h : Handshake α} (hl : h.Lawful)
    (hc : h.consumer = .taken) : h.takes = h.puts ∧ h.producing = false := by
  constructor
  · exact hl.takes_eq_puts (not_live_of_taken hl.tokens_eq hc)
  · exact (tokens_consuming hl.tokens_eq (by rw [hc]; decide)).2.2

/-- So it is with the flag down and the consumer outside. -/
theorem Lawful.takes_eq_puts_of_idle {h : Handshake α} (hl : h.Lawful) (hu : h.full = false)
    (hc : h.consumer = .idle) : h.takes = h.puts :=
  hl.takes_eq_puts (not_live_of_idle hu hc)

end Handshake
