/-
# List segments

Linked lists as what a lookup makes of pointers: `look p` is the element of the node at `p`
and the pointer behind it, and nothing where `p` leads nowhere.  Pointers, elements and the
lookup are arbitrary, so that one statement serves any field of any node.

`Segment look start nodes stop` lists the nodes from one pointer to another; a list is a
segment that stops at the null pointer, and the walk along it returns its elements
(`walk_of_segment`).  `TwoWay` is a list that is linked in both directions; it grows at its
end by a fresh node (`TwoWay.snoc`), and, read backwards, at its front.
-/
import Mathlib.Data.List.Nodup

namespace ListSegment

variable {P α : Type*}

/-- The nodes from `start` up to, and without, `stop`. -/
def Segment (look : P → Option (α × P)) : P → List (P × α) → P → Prop
  | start, [], stop => start = stop
  | start, (p, x) :: nodes, stop => start = p ∧ ∃ q, look p = some (x, q) ∧ Segment look q nodes stop

/-- The elements that a walk to the null pointer meets, in at most so many rounds. -/
def walk [DecidableEq P] (look : P → Option (α × P)) (null : P) : ℕ → P → Option (List α)
  | 0, _ => none
  | rounds + 1, p =>
      if p = null then some []
      else (look p).bind fun node => (walk look null rounds node.2).map (node.1 :: ·)

variable {look look' : P → Option (α × P)} {start mid stop null : P}

theorem segment_append (nodes nodes' : List (P × α)) :
    Segment look start (nodes ++ nodes') stop
      ↔ ∃ mid, Segment look start nodes mid ∧ Segment look mid nodes' stop := by
  induction nodes generalizing start with
  | nil => simp [Segment]
  | cons node nodes ih =>
    obtain ⟨p, x⟩ := node
    constructor
    · rintro ⟨hp, q, hq, hrest⟩
      obtain ⟨mid, hnodes, hnodes'⟩ := ih.mp hrest
      exact ⟨mid, ⟨hp, q, hq, hnodes⟩, hnodes'⟩
    · rintro ⟨mid, ⟨hp, q, hq, hnodes⟩, hnodes'⟩
      exact ⟨hp, q, hq, ih.mpr ⟨mid, hnodes, hnodes'⟩⟩

/-- A segment depends on the lookup at its own nodes only. -/
theorem Segment.congr {nodes : List (P × α)} (h : Segment look start nodes stop)
    (heq : ∀ p ∈ nodes.map Prod.fst, look' p = look p) : Segment look' start nodes stop := by
  induction nodes generalizing start with
  | nil => exact h
  | cons node nodes ih =>
    obtain ⟨hp, q, hq, hrest⟩ := h
    rw [List.map_cons, List.forall_mem_cons] at heq
    exact ⟨hp, q, heq.1.trans hq, ih hrest heq.2⟩

/-- The lookup finds every node of a segment. -/
theorem Segment.look_ne_none {nodes : List (P × α)} (h : Segment look start nodes stop) :
    ∀ p ∈ nodes.map Prod.fst, look p ≠ none := by
  induction nodes generalizing start with
  | nil => simp
  | cons node nodes ih =>
    obtain ⟨-, q, hq, hrest⟩ := h
    rw [List.map_cons, List.forall_mem_cons]
    exact ⟨by simp [hq], ih hrest⟩

/-! ## Walks -/

section Walks

variable [DecidableEq P]

/-- The walk along a list returns its elements. -/
theorem walk_of_segment (hnull : look null = none) {nodes : List (P × α)}
    (h : Segment look start nodes null) :
    walk look null (nodes.length + 1) start = some (nodes.map Prod.snd) := by
  induction nodes generalizing start with
  | nil => exact if_pos h
  | cons node nodes ih =>
    obtain ⟨rfl, q, hq, hrest⟩ := h
    have hne : node.1 ≠ null := by
      rintro hp
      rw [hp, hnull] at hq
      cases hq
    rw [List.length_cons, walk, if_neg hne, hq, Option.bind_some, ih hrest]
    rfl

/-- More rounds do not change what a walk returns. -/
theorem walk_succ {rounds : ℕ} {p : P} {l : List α} (h : walk look null rounds p = some l) :
    walk look null (rounds + 1) p = some l := by
  induction rounds generalizing p l with
  | zero => cases h
  | succ rounds ih =>
    rw [walk] at h ⊢
    split at h
    · rename_i hp
      rw [if_pos hp]
      exact h
    · rename_i hp
      rw [if_neg hp]
      obtain ⟨node, hnode, hrest⟩ := Option.bind_eq_some_iff.mp h
      obtain ⟨rest, hwalk, rfl⟩ := Option.map_eq_some_iff.mp hrest
      rw [hnode, Option.bind_some, ih hwalk]
      rfl

theorem walk_mono {rounds rounds' : ℕ} (hle : rounds ≤ rounds') {p : P} {l : List α}
    (h : walk look null rounds p = some l) : walk look null rounds' p = some l := by
  induction hle with
  | refl => exact h
  | step _ ih => exact walk_succ ih

/-- A walk returns one list at most. -/
theorem walk_inj {rounds rounds' : ℕ} {p : P} {l l' : List α}
    (h : walk look null rounds p = some l) (h' : walk look null rounds' p = some l') : l = l' := by
  have hmax := walk_mono (Nat.le_max_left rounds rounds') h
  rw [walk_mono (Nat.le_max_right rounds rounds') h'] at hmax
  exact (Option.some_inj.mp hmax).symm

end Walks

/-! ## Lists that are linked in both directions -/

/-- A list from `head` along `next`, and back from `tail` along `prev`. -/
structure TwoWay (next prev : P → Option (α × P)) (null head tail : P) (nodes : List (P × α)) :
    Prop where
  nodup : (nodes.map Prod.fst).Nodup
  next : Segment next head nodes null
  prev : Segment prev tail nodes.reverse null

variable {next prev next' prev' : P → Option (α × P)} {head tail : P} {nodes : List (P × α)}

/-- The list read backwards. -/
theorem TwoWay.symm (h : TwoWay next prev null head tail nodes) :
    TwoWay prev next null tail head nodes.reverse := by
  refine ⟨?_, h.prev, ?_⟩
  · rw [List.map_reverse, List.nodup_reverse]
    exact h.nodup
  · rw [List.reverse_reverse]
    exact h.next

/-- One node alone. -/
theorem TwoWay.single {p : P} {x : α} (hnext : next p = some (x, null))
    (hprev : prev p = some (x, null)) : TwoWay next prev null p p [(p, x)] :=
  ⟨List.nodup_singleton _, ⟨rfl, null, hnext, rfl⟩, ⟨rfl, null, hprev, rfl⟩⟩

/-- The tail is the last node. -/
theorem TwoWay.last (h : TwoWay next prev null head tail nodes) (hne : nodes ≠ []) :
    ∃ before x, nodes = before ++ [(tail, x)] := by
  obtain ⟨before, ⟨last, x⟩, rfl⟩ := (List.eq_nil_or_concat' nodes).resolve_left hne
  have hprev := h.prev
  rw [List.reverse_append] at hprev
  exact ⟨before, x, by rw [hprev.1]⟩

/-- **Growing at the end.**  A fresh node is linked behind the last one, and back to it; no
other link changes. -/
theorem TwoWay.snoc [DecidableEq P] (h : TwoWay next prev null head tail nodes) (hne : nodes ≠ [])
    {new : P} {y : α} (hfresh : new ∉ nodes.map Prod.fst)
    (hnext : ∀ p, next' p = if p = new then some (y, null)
      else if p = tail then (next p).map fun node => (node.1, new) else next p)
    (hprev : ∀ p, prev' p = if p = new then some (y, tail) else prev p) :
    TwoWay next' prev' null head new (nodes ++ [(new, y)]) := by
  obtain ⟨before, x, rfl⟩ := h.last hne
  have hnodup := h.nodup
  rw [List.map_append, List.nodup_append'] at hnodup
  refine ⟨?_, ?_, ?_⟩
  · rw [List.map_append, List.nodup_append']
    exact ⟨h.nodup, List.nodup_singleton _, List.disjoint_singleton.mpr hfresh⟩
  · obtain ⟨mid, hseg, rfl, q, hq, -⟩ := (segment_append _ _).mp h.next
    have hmid : mid ≠ new := by
      rintro rfl
      exact hfresh (by simp)
    rw [List.append_assoc, segment_append]
    refine ⟨mid, hseg.congr ?_, rfl, new, ?_, rfl, null, ?_, rfl⟩
    · intro p hp
      have hpnew : p ≠ new := by
        rintro rfl
        exact hfresh (by rw [List.map_append]; exact List.mem_append_left _ hp)
      have hpmid : p ≠ mid := by
        rintro rfl
        exact hnodup.2.2 hp (List.mem_singleton.mpr rfl)
      rw [hnext, if_neg hpnew, if_neg hpmid]
    · rw [hnext, if_neg hmid, if_pos rfl, hq]
      rfl
    · rw [hnext, if_pos rfl]
  · rw [List.reverse_append]
    refine ⟨rfl, tail, by rw [hprev, if_pos rfl], h.prev.congr ?_⟩
    intro p hp
    have hpnew : p ≠ new := by
      rintro rfl
      rw [List.map_reverse, List.mem_reverse] at hp
      exact hfresh hp
    rw [hprev, if_neg hpnew]

/-- Growing in the steps of a program: the node is allocated, with links to be written; the
last node is linked to it, it is linked back, and its own link is set to null. -/
theorem TwoWay.snoc_of_assignments [DecidableEq P]
    {next₁ next₂ next₃ prev₁ prev₂ : P → Option (α × P)} {new junk junk' : P} {y : α}
    (h : TwoWay next prev null head tail nodes) (hne : nodes ≠ [])
    (hfresh : new ∉ nodes.map Prod.fst)
    (hnext₁ : ∀ p, next₁ p = if p = new then some (y, junk) else next p)
    (hprev₁ : ∀ p, prev₁ p = if p = new then some (y, junk') else prev p)
    (hnext₂ : ∀ p, next₂ p = if p = tail then (next₁ p).map fun node => (node.1, new)
      else next₁ p)
    (hprev₂ : ∀ p, prev₂ p = if p = new then (prev₁ p).map fun node => (node.1, tail)
      else prev₁ p)
    (hnext₃ : ∀ p, next₃ p = if p = new then (next₂ p).map fun node => (node.1, null)
      else next₂ p) :
    TwoWay next₃ prev₂ null head new (nodes ++ [(new, y)]) := by
  have htail : new ≠ tail := by
    obtain ⟨before, x, rfl⟩ := h.last hne
    rintro rfl
    exact hfresh (by simp)
  refine h.snoc hne hfresh ?_ ?_
  · intro p
    rw [hnext₃, hnext₂, hnext₁]
    by_cases hnew : p = new
    · rw [if_pos hnew, if_pos hnew, if_pos hnew, if_neg (hnew ▸ htail)]
      rfl
    · rw [if_neg hnew, if_neg hnew, if_neg hnew]
  · intro p
    rw [hprev₂, hprev₁]
    by_cases hnew : p = new
    · rw [if_pos hnew, if_pos hnew, if_pos hnew]
      rfl
    · rw [if_neg hnew, if_neg hnew, if_neg hnew]

end ListSegment
