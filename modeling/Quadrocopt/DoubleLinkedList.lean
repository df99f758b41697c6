/-
# The double linked list (`utils.c` of the client)

`DoubleLinkedList` keeps the two ends of a chain of `BiNode`s and their number.  The nodes
live on a heap, as those of the workers' list do, and an operation that follows a pointer
that leads nowhere has no result.

Two things keep it from being a sequence.  A list made without a node has no tail, and an
addition writes to the tail all the same; and a removal takes the last node off from the
tail only, so that the walk from the head still meets it.  Everything else is as it should
be: the list is the sequence exactly where neither of the two happens
(`behavesAsSequence_iff`).
-/
import Quadrocopt.ListSegment
import Quadrocopt.Workers

namespace DoubleLinkedLists

open ListSegment
open Workers (Link)

variable {α : Type*}

/-! ## The source -/

/-- `struct _BiNode`. -/
structure BiNode (α : Type*) where
  el : α
  next : Link
  prev : Link

/-- The nodes allocated so far, each at its address. -/
abbrev Heap (α : Type*) := List (BiNode α)

/-- `struct _DoubleLinkedList`, with the heap of its nodes. -/
structure DoubleLinkedList (α : Type*) where
  heap : Heap α
  head : Link
  tail : Link
  nodesCount : ℕ

/-- The node behind a pointer; there is none behind NULL or an indeterminate one. -/
def deref (heap : Heap α) : Link → Option (BiNode α)
  | .node addr => heap[addr]?
  | _ => none

/-- An assignment to a field of the node behind a pointer. -/
def assign (heap : Heap α) (f : BiNode α → BiNode α) : Link → Option (Heap α)
  | .node addr => some (heap.modify addr f)
  | _ => none

/-- An assignment to `next`. -/
def setNext (heap : Heap α) (ptr value : Link) : Option (Heap α) :=
  assign heap (fun node => { node with next := value }) ptr

/-- An assignment to `prev`. -/
def setPrev (heap : Heap α) (ptr value : Link) : Option (Heap α) :=
  assign heap (fun node => { node with prev := value }) ptr

/-- `initialize_binode`: the new node is the last one of the heap. -/
def initializeBinode (heap : Heap α) (el : α) : Heap α × Link :=
  (heap ++ [⟨el, .indeterminate, .indeterminate⟩], .node heap.length)

/-- `initialize_double_linked_list`. -/
def initializeDoubleLinkedList (heap : Heap α) (node : Link) : Option (DoubleLinkedList α) := do
  let head := node
  let tail := node
  if node = .null then return ⟨heap, head, tail, 0⟩
  let heap ← setNext heap tail .null
  let heap ← setPrev heap tail .null
  let heap ← setNext heap head .null
  let heap ← setNext heap head .null
  return ⟨heap, head, tail, 1⟩

/-- `add_to_double_linked_list`. -/
def addToDoubleLinkedList (list : DoubleLinkedList α) (node : Link) :
    Option (DoubleLinkedList α) := do
  if node = .null then return list
  let prevTail := list.tail
  let heap ← setNext list.heap prevTail node
  let tail := node
  let heap ← setPrev heap tail prevTail
  let heap ← setNext heap tail .null
  return ⟨heap, list.head, tail, list.nodesCount + 1⟩

/-- `add_to_double_linked_list_front`. -/
def addToDoubleLinkedListFront (list : DoubleLinkedList α) (node : Link) :
    Option (DoubleLinkedList α) := do
  if node = .null then return list
  let prevHead := list.head
  let heap ← setPrev list.heap prevHead node
  let head := node
  let heap ← setNext heap head prevHead
  let heap ← setPrev heap head .null
  return ⟨heap, head, list.tail, list.nodesCount + 1⟩

/-- `remove_from_double_linked_list_rear`: the node it returns and the list. -/
def removeFromDoubleLinkedListRear (list : DoubleLinkedList α) :
    Option (Link × DoubleLinkedList α) := do
  let tailNode := list.tail
  let node ← deref list.heap list.tail
  let tail := node.prev
  let nodesCount := if tailNode ≠ .null then list.nodesCount - 1 else list.nodesCount
  return (tailNode, ⟨list.heap, list.head, tail, nodesCount⟩)

/-! ## The links, read through the heap -/

/-- The elements and the links forward. -/
def nextOf (heap : Heap α) (ptr : Link) : Option (α × Link) :=
  (deref heap ptr).map fun node => (node.el, node.next)

/-- The elements and the links backward. -/
def prevOf (heap : Heap α) (ptr : Link) : Option (α × Link) :=
  (deref heap ptr).map fun node => (node.el, node.prev)

variable (heap : Heap α) (el : α)

theorem nextOf_null : nextOf heap .null = none := rfl

theorem prevOf_null : prevOf heap .null = none := rfl

variable {heap el} in
/-- An assignment changes the one node. -/
theorem deref_assign {heap' : Heap α} {f : BiNode α → BiNode α} {ptr : Link}
    (h : assign heap f ptr = some heap') (p : Link) :
    deref heap' p = if p = ptr then (deref heap p).map f else deref heap p := by
  cases ptr with
  | node addr =>
    cases h
    cases p with
    | node a =>
      rw [deref, deref, List.getElem?_modify]
      by_cases ha : a = addr
      · simp [ha]
      · simp [ha, Ne.symm ha]
    | indeterminate => rfl
    | null => rfl
  | indeterminate => cases h
  | null => cases h

section Assignments

variable {heap} {heap' : Heap α} {ptr value : Link}

/-- What an assignment to `next` does to the links forward. -/
theorem nextOf_setNext (h : setNext heap ptr value = some heap') (p : Link) :
    nextOf heap' p = if p = ptr then (nextOf heap p).map fun node => (node.1, value)
      else nextOf heap p := by
  rw [nextOf, nextOf, deref_assign h]
  split
  · rw [Option.map_map, Option.map_map]
    rfl
  · rfl

/-- It leaves the links backward as they are. -/
theorem prevOf_setNext (h : setNext heap ptr value = some heap') (p : Link) :
    prevOf heap' p = prevOf heap p := by
  rw [prevOf, prevOf, deref_assign h]
  split
  · rw [Option.map_map]
    rfl
  · rfl

/-- What an assignment to `prev` does to the links backward. -/
theorem prevOf_setPrev (h : setPrev heap ptr value = some heap') (p : Link) :
    prevOf heap' p = if p = ptr then (prevOf heap p).map fun node => (node.1, value)
      else prevOf heap p := by
  rw [prevOf, prevOf, deref_assign h]
  split
  · rw [Option.map_map, Option.map_map]
    rfl
  · rfl

/-- It leaves the links forward as they are. -/
theorem nextOf_setPrev (h : setPrev heap ptr value = some heap') (p : Link) :
    nextOf heap' p = nextOf heap p := by
  rw [nextOf, nextOf, deref_assign h]
  split
  · rw [Option.map_map]
    rfl
  · rfl

end Assignments

/-- A new node is at a new address, and the others stay. -/
theorem deref_initializeBinode (ptr : Link) :
    deref (initializeBinode heap el).1 ptr
      = if ptr = .node heap.length then some ⟨el, .indeterminate, .indeterminate⟩
        else deref heap ptr := by
  cases ptr with
  | node p =>
    rw [deref, deref, initializeBinode, List.getElem?_append]
    by_cases h : p = heap.length
    · simp [h]
    · by_cases hlt : p < heap.length
      · simp [h, hlt]
      · simp [h, hlt]
        omega
  | indeterminate => rfl
  | null => rfl

theorem nextOf_initializeBinode (p : Link) :
    nextOf (initializeBinode heap el).1 p
      = if p = (initializeBinode heap el).2 then some (el, .indeterminate) else nextOf heap p := by
  rw [nextOf, deref_initializeBinode]
  split
  · rename_i hp
    exact (if_pos hp).symm
  · rename_i hp
    exact (if_neg hp).symm

theorem prevOf_initializeBinode (p : Link) :
    prevOf (initializeBinode heap el).1 p
      = if p = (initializeBinode heap el).2 then some (el, .indeterminate) else prevOf heap p := by
  rw [prevOf, deref_initializeBinode]
  split
  · rename_i hp
    exact (if_pos hp).symm
  · rename_i hp
    exact (if_neg hp).symm

variable {heap}

/-- A pointer behind which there is a node. -/
theorem eq_node_of_deref_ne_none {ptr : Link} (h : deref heap ptr ≠ none) :
    ∃ addr < heap.length, ptr = .node addr := by
  cases ptr with
  | node addr => exact ⟨addr, Nat.lt_of_not_le fun hle => h (List.getElem?_eq_none hle), rfl⟩
  | indeterminate => exact absurd rfl h
  | null => exact absurd rfl h

/-! ## The operations on a list that is linked in both directions -/

/-- The list is the one of these nodes, in both directions and by its number. -/
structure Linked (list : DoubleLinkedList α) (nodes : List (Link × α)) : Prop where
  twoWay : TwoWay (nextOf list.heap) (prevOf list.heap) .null list.head list.tail nodes
  count : list.nodesCount = nodes.length

theorem Linked.deref_ne_none {list : DoubleLinkedList α} {nodes : List (Link × α)}
    (h : Linked list nodes) : ∀ ptr ∈ nodes.map Prod.fst, deref list.heap ptr ≠ none := by
  intro ptr hptr hderef
  exact h.twoWay.next.look_ne_none ptr hptr (by rw [nextOf, hderef]; rfl)

/-- A node that is allocated now is not in the list. -/
theorem Linked.fresh {list : DoubleLinkedList α} {nodes : List (Link × α)}
    (h : Linked list nodes) : Link.node list.heap.length ∉ nodes.map Prod.fst := by
  intro hmem
  obtain ⟨addr, hlt, haddr⟩ := eq_node_of_deref_ne_none (h.deref_ne_none _ hmem)
  cases haddr
  exact absurd hlt (Nat.lt_irrefl _)

/-- The two ends of a list with a node. -/
theorem Linked.ends {list : DoubleLinkedList α} {nodes : List (Link × α)}
    (h : Linked list nodes) (hne : nodes ≠ []) :
    (∃ addr < list.heap.length, list.head = .node addr)
      ∧ ∃ addr < list.heap.length, list.tail = .node addr := by
  constructor
  · obtain ⟨before, x, hnodes⟩ := h.twoWay.symm.last (List.reverse_ne_nil_iff.mpr hne)
    refine eq_node_of_deref_ne_none (h.deref_ne_none _ ?_)
    rw [← List.mem_reverse, ← List.map_reverse, hnodes]
    simp
  · obtain ⟨before, x, hnodes⟩ := h.twoWay.last hne
    refine eq_node_of_deref_ne_none (h.deref_ne_none _ ?_)
    rw [hnodes]
    simp

/-- `initialize_double_linked_list` with a fresh node. -/
theorem linked_initializeDoubleLinkedList :
    ∃ list, initializeDoubleLinkedList (initializeBinode [] el).1 (initializeBinode [] el).2
        = some list
      ∧ Linked list [(.node 0, el)] :=
  ⟨_, rfl, TwoWay.single rfl rfl, rfl⟩

/-- `add_to_double_linked_list` with a fresh node. -/
theorem Linked.addToDoubleLinkedList {list : DoubleLinkedList α} {nodes : List (Link × α)}
    (h : Linked list nodes) (hne : nodes ≠ []) (el : α) :
    let fresh := initializeBinode list.heap el
    ∃ list', DoubleLinkedLists.addToDoubleLinkedList { list with heap := fresh.1 } fresh.2
        = some list'
      ∧ Linked list' (nodes ++ [(fresh.2, el)]) := by
  intro fresh
  obtain ⟨-, addr, haddr, htail⟩ := h.ends hne
  obtain ⟨heap₁, h₁⟩ : ∃ heap₁, setNext fresh.1 list.tail fresh.2 = some heap₁ := by
    rw [htail]
    exact ⟨_, rfl⟩
  obtain ⟨heap₂, h₂⟩ : ∃ heap₂, setPrev heap₁ fresh.2 list.tail = some heap₂ := ⟨_, rfl⟩
  obtain ⟨heap₃, h₃⟩ : ∃ heap₃, setNext heap₂ fresh.2 .null = some heap₃ := ⟨_, rfl⟩
  refine ⟨⟨heap₃, list.head, fresh.2, list.nodesCount + 1⟩, ?_, ?_, ?_⟩
  · have hnew : fresh.2 ≠ .null := by rintro ⟨⟩
    simp [DoubleLinkedLists.addToDoubleLinkedList, hnew, h₁, h₂, h₃]
  · have hprev₃ : prevOf heap₃ = prevOf heap₂ := funext (prevOf_setNext h₃)
    have hnext₂ : nextOf heap₂ = nextOf heap₁ := funext (nextOf_setPrev h₂)
    have hprev₁ : prevOf heap₁ = prevOf fresh.1 := funext (prevOf_setNext h₁)
    show TwoWay (nextOf heap₃) (prevOf heap₃) _ _ _ _
    rw [hprev₃]
    exact h.twoWay.snoc_of_assignments hne h.fresh (nextOf_initializeBinode list.heap el)
      (prevOf_initializeBinode list.heap el) (nextOf_setNext h₁)
      (hprev₁ ▸ prevOf_setPrev h₂) (hnext₂ ▸ nextOf_setNext h₃)
  · simp [h.count]

/-- `add_to_double_linked_list_front` with a fresh node: the same, read backwards. -/
theorem Linked.addToDoubleLinkedListFront {list : DoubleLinkedList α} {nodes : List (Link × α)}
    (h : Linked list nodes) (hne : nodes ≠ []) (el : α) :
    let fresh := initializeBinode list.heap el
    ∃ list', DoubleLinkedLists.addToDoubleLinkedListFront { list with heap := fresh.1 } fresh.2
        = some list'
      ∧ Linked list' ((fresh.2, el) :: nodes) := by
  intro fresh
  obtain ⟨⟨addr, haddr, hhead⟩, -⟩ := h.ends hne
  obtain ⟨heap₁, h₁⟩ : ∃ heap₁, setPrev fresh.1 list.head fresh.2 = some heap₁ := by
    rw [hhead]
    exact ⟨_, rfl⟩
  obtain ⟨heap₂, h₂⟩ : ∃ heap₂, setNext heap₁ fresh.2 list.head = some heap₂ := ⟨_, rfl⟩
  obtain ⟨heap₃, h₃⟩ : ∃ heap₃, setPrev heap₂ fresh.2 .null = some heap₃ := ⟨_, rfl⟩
  refine ⟨⟨heap₃, fresh.2, list.tail, list.nodesCount + 1⟩, ?_, ?_, ?_⟩
  · have hnew : fresh.2 ≠ .null := by rintro ⟨⟩
    simp [DoubleLinkedLists.addToDoubleLinkedListFront, hnew, h₁, h₂, h₃]
  · have hnext₃ : nextOf heap₃ = nextOf heap₂ := funext (nextOf_setPrev h₃)
    have hprev₂ : prevOf heap₂ = prevOf heap₁ := funext (prevOf_setNext h₂)
    have hnext₁ : nextOf heap₁ = nextOf fresh.1 := funext (nextOf_setPrev h₁)
    have hfresh : fresh.2 ∉ nodes.reverse.map Prod.fst := by
      rw [List.map_reverse, List.mem_reverse]
      exact h.fresh
    have hgrown := h.twoWay.symm.snoc_of_assignments (List.reverse_ne_nil_iff.mpr hne) hfresh
      (prevOf_initializeBinode list.heap el) (nextOf_initializeBinode list.heap el)
      (prevOf_setPrev h₁) (hnext₁ ▸ nextOf_setNext h₂) (hprev₂ ▸ prevOf_setPrev h₃)
    rw [← hnext₃] at hgrown
    simpa using hgrown.symm
  · simp [h.count]

/-- `remove_from_double_linked_list_rear`: it returns the last node, and changes neither the
head nor any link. -/
theorem Linked.removeFromDoubleLinkedListRear {list : DoubleLinkedList α}
    {nodes : List (Link × α)} (h : Linked list nodes) (hne : nodes ≠ []) :
    ∃ list', DoubleLinkedLists.removeFromDoubleLinkedListRear list = some (list.tail, list')
      ∧ list'.heap = list.heap ∧ list'.head = list.head := by
  obtain ⟨-, addr, haddr, htail⟩ := h.ends hne
  have hderef : deref list.heap list.tail = some list.heap[addr] := by
    rw [htail]
    exact List.getElem?_eq_getElem haddr
  have hnull : list.tail ≠ .null := by
    rw [htail]
    rintro ⟨⟩
  refine ⟨⟨list.heap, list.head, list.heap[addr].prev, list.nodesCount - 1⟩, ?_, rfl, rfl⟩
  simp [DoubleLinkedLists.removeFromDoubleLinkedListRear, hderef, hnull]

/-! ## Sequences of operations -/

/-- What may be done with a list; `none` is an addition of NULL. -/
inductive Op (α : Type*) where
  | append (el : Option α)
  | prepend (el : Option α)
  | removeRear
  deriving DecidableEq

/-- A fresh node, or NULL. -/
def freshNode (heap : Heap α) : Option α → Heap α × Link
  | none => (heap, .null)
  | some el => initializeBinode heap el

/-- One operation: the element that is removed, if one is, and the list it leaves. -/
def perform (list : DoubleLinkedList α) : Op α → Option (Option α × DoubleLinkedList α)
  | .append el =>
      let fresh := freshNode list.heap el
      (addToDoubleLinkedList { list with heap := fresh.1 } fresh.2).map (none, ·)
  | .prepend el =>
      let fresh := freshNode list.heap el
      (addToDoubleLinkedListFront { list with heap := fresh.1 } fresh.2).map (none, ·)
  | .removeRear =>
      (removeFromDoubleLinkedListRear list).map fun removed =>
        ((deref list.heap removed.1).map BiNode.el, removed.2)

/-- The same operation on a sequence. -/
def Op.onSequence (l : List α) : Op α → Option α × List α
  | .append el => (none, l ++ el.toList)
  | .prepend el => (none, el.toList ++ l)
  | .removeRear => (l.getLast?, l.dropLast)

/-- The list is this sequence: along `next` from the head, as `free_double_linked_list` walks,
along `prev` from the tail, and by its number. -/
structure Represents (list : DoubleLinkedList α) (l : List α) : Prop where
  forward : ∃ rounds, walk (nextOf list.heap) .null rounds list.head = some l
  backward : ∃ rounds, walk (prevOf list.heap) .null rounds list.tail = some l.reverse
  count : list.nodesCount = l.length

/-- The list is the sequence now, and after each of the operations, none of which follows a
pointer that leads nowhere or removes another element. -/
def Simulates (list : DoubleLinkedList α) (l : List α) : List (Op α) → Prop
  | [] => Represents list l
  | op :: ops => Represents list l
      ∧ ∃ list', perform list op = some ((op.onSequence l).1, list')
        ∧ Simulates list' (op.onSequence l).2 ops

/-- The list made with a fresh node, or with NULL, is the sequence of that node and stays one. -/
def BehavesAsSequence (el : Option α) (ops : List (Op α)) : Prop :=
  let fresh := freshNode [] el
  ∃ list, initializeDoubleLinkedList fresh.1 fresh.2 = some list ∧ Simulates list el.toList ops

/-- An addition of NULL. -/
def Op.addsNull (op : Op α) : Prop := op = .append none ∨ op = .prepend none

/-! ### A list made without a node -/

/-- What `initialize_double_linked_list` makes of NULL. -/
def emptyList : DoubleLinkedList α := ⟨[], .null, .null, 0⟩

theorem represents_emptyList : Represents (emptyList : DoubleLinkedList α) [] :=
  ⟨⟨1, rfl⟩, ⟨1, rfl⟩, rfl⟩

/-- It takes nothing but additions of NULL. -/
theorem simulates_emptyList_iff (ops : List (Op α)) :
    Simulates (emptyList : DoubleLinkedList α) [] ops ↔ ∀ op ∈ ops, op.addsNull := by
  induction ops with
  | nil => exact iff_of_true represents_emptyList (by simp)
  | cons op ops ih =>
    rw [List.forall_mem_cons]
    constructor
    · rintro ⟨-, list', hperform, hrest⟩
      cases op with
      | append el =>
        cases el with
        | none =>
          cases hperform
          exact ⟨.inl rfl, ih.mp hrest⟩
        | some el => cases hperform
      | prepend el =>
        cases el with
        | none =>
          cases hperform
          exact ⟨.inr rfl, ih.mp hrest⟩
        | some el => cases hperform
      | removeRear => cases hperform
    · rintro ⟨rfl | rfl, hops⟩
      · exact ⟨represents_emptyList, _, rfl, ih.mpr hops⟩
      · exact ⟨represents_emptyList, _, rfl, ih.mpr hops⟩

/-! ### A list with a node -/

theorem Linked.represents {list : DoubleLinkedList α} {nodes : List (Link × α)}
    (h : Linked list nodes) : Represents list (nodes.map Prod.snd) := by
  have hbackward := walk_of_segment (prevOf_null _) h.twoWay.prev
  rw [List.map_reverse] at hbackward
  exact ⟨⟨_, walk_of_segment (nextOf_null _) h.twoWay.next⟩, ⟨_, hbackward⟩,
    h.count.trans (List.length_map _).symm⟩

/-- After a removal the walk from the head still meets the removed node. -/
theorem Linked.not_simulates_removeRear {list : DoubleLinkedList α} {nodes : List (Link × α)}
    (h : Linked list nodes) (hne : nodes ≠ []) (ops : List (Op α)) :
    ¬Simulates list (nodes.map Prod.snd) (.removeRear :: ops) := by
  rintro ⟨-, list', hperform, hrest⟩
  have hrepresents : Represents list' (nodes.map Prod.snd).dropLast := by
    cases ops with
    | nil => exact hrest
    | cons op ops => exact hrest.1
  obtain ⟨list'', hremove, hheap, hhead⟩ := h.removeFromDoubleLinkedListRear hne
  rw [perform, hremove, Option.map_some, Option.some_inj] at hperform
  obtain rfl : list'' = list' := congrArg Prod.snd hperform
  obtain ⟨rounds, hwalk⟩ := hrepresents.forward
  obtain ⟨rounds', hwalk'⟩ := h.represents.forward
  rw [hheap, hhead] at hwalk
  have hlength := congrArg List.length (walk_inj hwalk hwalk')
  rw [List.length_dropLast, List.length_map] at hlength
  have hpos := List.length_pos_iff.mpr hne
  omega

/-- An operation that does what it is to do. -/
theorem Represents.simulates_cons_iff {list list' : DoubleLinkedList α} {l : List α} {op : Op α}
    (h : Represents list l) (hperform : perform list op = some ((op.onSequence l).1, list'))
    (ops : List (Op α)) :
    Simulates list l (op :: ops) ↔ Simulates list' (op.onSequence l).2 ops := by
  constructor
  · rintro ⟨-, list'', hperform', hrest⟩
    rw [hperform] at hperform'
    cases hperform'
    exact hrest
  · intro hrest
    exact ⟨h, list', hperform, hrest⟩

/-- Everything but a removal does to the list what it does to the sequence. -/
theorem Linked.perform_of_ne_removeRear {list : DoubleLinkedList α} {nodes : List (Link × α)}
    (h : Linked list nodes) (hne : nodes ≠ []) {op : Op α} (hop : op ≠ .removeRear) :
    ∃ list' nodes', perform list op = some ((op.onSequence (nodes.map Prod.snd)).1, list')
      ∧ Linked list' nodes' ∧ nodes' ≠ []
      ∧ nodes'.map Prod.snd = (op.onSequence (nodes.map Prod.snd)).2 := by
  cases op with
  | append el =>
    cases el with
    | none => exact ⟨list, nodes, rfl, h, hne, by simp [Op.onSequence]⟩
    | some el =>
      obtain ⟨list', hadd, hlinked⟩ := h.addToDoubleLinkedList hne el
      exact ⟨list', _, congrArg (Option.map (none, ·)) hadd, hlinked, by simp,
        by simp [Op.onSequence]⟩
  | prepend el =>
    cases el with
    | none => exact ⟨list, nodes, rfl, h, hne, by simp [Op.onSequence]⟩
    | some el =>
      obtain ⟨list', hadd, hlinked⟩ := h.addToDoubleLinkedListFront hne el
      exact ⟨list', _, congrArg (Option.map (none, ·)) hadd, hlinked, by simp,
        by simp [Op.onSequence]⟩
  | removeRear => exact absurd rfl hop

/-- It takes everything but a removal. -/
theorem Linked.simulates_iff {list : DoubleLinkedList α} {nodes : List (Link × α)}
    (h : Linked list nodes) (hne : nodes ≠ []) (ops : List (Op α)) :
    Simulates list (nodes.map Prod.snd) ops ↔ Op.removeRear ∉ ops := by
  induction ops generalizing list nodes with
  | nil => exact iff_of_true h.represents (by simp)
  | cons op ops ih =>
    by_cases hop : op = .removeRear
    · rw [hop]
      exact iff_of_false (h.not_simulates_removeRear hne ops) (by simp)
    · obtain ⟨list', nodes', hperform, hlinked, hne', hnodes'⟩ :=
        h.perform_of_ne_removeRear hne hop
      rw [h.represents.simulates_cons_iff hperform, ← hnodes', ih hlinked hne', List.mem_cons,
        not_or]
      exact (and_iff_right (Ne.symm hop)).symm

/-! ### Either list -/

/-- **Where the list is a sequence.**  Made without a node, as long as nothing but NULL is
added; made with a node, as long as nothing is removed. -/
theorem behavesAsSequence_iff (el : Option α) (ops : List (Op α)) :
    BehavesAsSequence el ops
      ↔ (el = none → ∀ op ∈ ops, op.addsNull) ∧ (el ≠ none → Op.removeRear ∉ ops) := by
  cases el with
  | none =>
    have hinit : initializeDoubleLinkedList (freshNode ([] : Heap α) none).1
        (freshNode ([] : Heap α) none).2 = some emptyList := rfl
    simp [BehavesAsSequence, hinit, simulates_emptyList_iff]
  | some el =>
    obtain ⟨list, hinit, hlinked⟩ := linked_initializeDoubleLinkedList el
    have hsimulates := hlinked.simulates_iff (List.cons_ne_nil _ _) ops
    simpa [BehavesAsSequence, freshNode, hinit] using hsimulates

/-- A message that is added to a list made with NULL is written behind NULL; a message that
is removed is met again by the walk from the head. -/
theorem not_behavesAsSequence :
    ¬BehavesAsSequence none [.append (some 1)]
      ∧ ¬BehavesAsSequence (some 1) [.append (some 2), .removeRear] := by
  constructor
  · rintro ⟨list, hinit, -, list', hperform, -⟩
    cases hinit
    cases hperform
  · rintro ⟨list, hinit, hsimulates⟩
    obtain ⟨list', hinit', hlinked⟩ := linked_initializeDoubleLinkedList 1
    obtain rfl : list' = list := Option.some_inj.mp (hinit'.symm.trans hinit)
    exact (hlinked.simulates_iff (List.cons_ne_nil _ _) _).mp hsimulates (by simp)

end DoubleLinkedLists
