/-
# The workers and their list (`data_struct.c`, `utils.c`)

`add_to_workers_collection` puts a worker into its slot and appends a node for it to a
simple linked list, which the first worker creates.  The nodes live on a heap of their
own: a node's address is its place in the order of the allocations, and a `next` field
that nobody has written is indeterminate.

`walk` is the loop of `wait_workers_to_finish` over the list.  Appending a node clears the
link that it has just set and leaves the tail where it is, so the loop never gets past the
first worker: it visits all that were added only where there is no second one
(`eachStopped_iff`).
-/
import Mathlib.Data.Int.Notation
import Mathlib.Data.List.Basic
import Mathlib.Data.Nat.Notation
import Mathlib.Logic.Function.Basic

namespace Workers

/-- What is in a `next` field; `malloc` leaves it indeterminate. -/
inductive Link where
  | indeterminate
  | null
  | node (addr : ℕ)
  deriving DecidableEq, Repr

variable {α σ : Type*}

/-- `struct _SimpleNode`. -/
structure SimpleNode (α : Type*) where
  el : α
  next : Link

/-- The nodes allocated so far. -/
abbrev Heap (α : Type*) := List (SimpleNode α)

/-- `struct _SimpleLinkedList`: the addresses of two nodes. -/
structure SimpleLinkedList where
  head : ℕ
  tail : ℕ

/-- An assignment to `next` of a node. -/
def setNext (heap : Heap α) (addr : ℕ) (next : Link) : Heap α :=
  heap.modify addr fun node => { node with next := next }

/-- `initialize_simple_node`: the new node is the last one of the heap. -/
def initializeSimpleNode (heap : Heap α) (el : α) : Heap α := heap ++ [⟨el, .indeterminate⟩]

/-- `initialize_simple_linked_list`. -/
def initializeSimpleLinkedList (heap : Heap α) (head : ℕ) : Heap α × SimpleLinkedList :=
  (setNext heap head .null, ⟨head, head⟩)

/-- `add_to_simple_linked_list`. -/
def addToSimpleLinkedList (heap : Heap α) (list : SimpleLinkedList) (node : ℕ) : Heap α :=
  -- the second assignment is to the field of the first, and `tail` is left where it is
  setNext (setNext heap list.tail (.node node)) list.tail .null

/-- `struct _WorkersCollection`, with a slot for each kind of worker. -/
structure WorkersCollection (α σ : Type*) where
  slot : σ → Option α
  workers : Option SimpleLinkedList
  heap : Heap α

/-- `initialize_workers_collection`. -/
def initializeWorkersCollection : WorkersCollection α σ := ⟨fun _ => none, none, []⟩

/-- `add_to_workers_collection`: its status and the collection it leaves. -/
def addToWorkersCollection [DecidableEq σ] (worker : α) (coll : WorkersCollection α σ)
    (dst : σ) : ℤ × WorkersCollection α σ :=
  if (coll.slot dst).isSome then (-1, coll)
  else
    let heap := initializeSimpleNode coll.heap worker
    let slot := Function.update coll.slot dst (some worker)
    match coll.workers with
    | none =>
        let (heap, list) := initializeSimpleLinkedList heap coll.heap.length
        (0, ⟨slot, some list, heap⟩)
    | some list => (0, ⟨slot, some list, addToSimpleLinkedList heap list coll.heap.length⟩)

/-- The workers that `wait_workers_to_finish` visits from a link on, in at most so many
rounds.  There is no result for a list that is longer, or that leaves the heap. -/
def walk (heap : Heap α) : ℕ → Link → Option (List α)
  | 0, _ => none
  | _ + 1, .indeterminate => none
  | _ + 1, .null => some []
  | rounds + 1, .node addr => do
      let node ← heap[addr]?
      let rest ← walk heap rounds node.next
      return node.el :: rest

/-! ## Sequences of calls -/

section Calls

variable [DecidableEq σ]

/-- The loop of `wait_workers_to_finish`, from the head of the list; there is no result
where there is no list. -/
def waitWorkersToFinish (coll : WorkersCollection α σ) (rounds : ℕ) : Option (List α) :=
  coll.workers.bind fun list => walk coll.heap rounds (.node list.head)

/-- The collection after a sequence of calls, each with its worker and its slot. -/
def addAll (coll : WorkersCollection α σ) (calls : List (α × σ)) : WorkersCollection α σ :=
  calls.foldl (fun coll call => (addToWorkersCollection call.1 coll call.2).2) coll

/-- The workers of the calls that succeed, in their order. -/
def added (coll : WorkersCollection α σ) : List (α × σ) → List α
  | [] => []
  | (worker, dst) :: calls =>
      let called := addToWorkersCollection worker coll dst
      if called.1 = 0 then worker :: added called.2 calls else added called.2 calls

/-- A call succeeds exactly when its slot is empty, and changes nothing when it fails. -/
def CallLaw (coll : WorkersCollection α σ) (call : α × σ) : Prop :=
  let called := addToWorkersCollection call.1 coll call.2
  (called.1 = 0 ↔ coll.slot call.2 = none) ∧ (called.1 ≠ 0 → called.2 = coll)

/-- What a sequence of calls is to lead to: each call keeps the law, and the loop over the
list ends and visits the workers of the calls that succeeded. -/
def EachStopped (calls : List (α × σ)) : Prop :=
  (∀ before call later, calls = before ++ call :: later →
      CallLaw (addAll initializeWorkersCollection before) call)
    ∧ ∃ rounds, waitWorkersToFinish (addAll initializeWorkersCollection calls) rounds
        = some (added initializeWorkersCollection calls)

/-! ### One call -/

variable (coll : WorkersCollection α σ) (worker : α) (dst : σ)

/-- A call with a full slot. -/
theorem addToWorkersCollection_of_isSome (h : (coll.slot dst).isSome = true) :
    addToWorkersCollection worker coll dst = (-1, coll) := if_pos h

/-- A call with an empty slot. -/
theorem addToWorkersCollection_status (h : coll.slot dst = none) :
    (addToWorkersCollection worker coll dst).1 = 0 := by
  unfold addToWorkersCollection
  rw [if_neg (by simp [h])]
  cases coll.workers with
  | none => rfl
  | some list => rfl

theorem callLaw (call : α × σ) : CallLaw coll call := by
  unfold CallLaw
  cases hslot : coll.slot call.2 with
  | none =>
    have hstatus := addToWorkersCollection_status coll call.1 call.2 hslot
    exact ⟨iff_of_true hstatus rfl, fun h => absurd hstatus h⟩
  | some other =>
    rw [addToWorkersCollection_of_isSome coll call.1 call.2 (by rw [hslot]; rfl)]
    exact ⟨iff_of_false (by simp) (by simp), fun _ => rfl⟩

/-- The list is the one node of the first worker, whatever else is on the heap. -/
def OneNode (first : α) (coll : WorkersCollection α σ) : Prop :=
  coll.workers = some ⟨0, 0⟩ ∧ coll.heap.head? = some ⟨first, .null⟩

/-- The first call. -/
theorem addToWorkersCollection_fresh :
    addToWorkersCollection worker (initializeWorkersCollection : WorkersCollection α σ) dst
      = (0, ⟨Function.update (fun _ => none) dst (some worker), some ⟨0, 0⟩,
          [⟨worker, .null⟩]⟩) := rfl

/-- A later call adds its node to the heap, but not to the list. -/
theorem OneNode.addToWorkersCollection {first : α} (h : OneNode first coll) :
    OneNode first (addToWorkersCollection worker coll dst).2 := by
  obtain ⟨hworkers, hhead⟩ := h
  unfold Workers.addToWorkersCollection
  split
  · exact ⟨hworkers, hhead⟩
  · rw [hworkers]
    refine ⟨rfl, ?_⟩
    cases hheap : coll.heap with
    | nil =>
      rw [hheap] at hhead
      cases hhead
    | cons node nodes =>
      rw [hheap, List.head?_cons, Option.some_inj] at hhead
      rw [hhead]
      rfl

/-! ### The whole sequence -/

theorem OneNode.addAll {first : α} {coll : WorkersCollection α σ} (h : OneNode first coll)
    (calls : List (α × σ)) : OneNode first (addAll coll calls) := by
  induction calls generalizing coll with
  | nil => exact h
  | cons call calls ih => exact ih (h.addToWorkersCollection coll call.1 call.2)

omit [DecidableEq σ] in
/-- The loop ends behind the first worker. -/
theorem OneNode.waitWorkersToFinish {first : α} {coll : WorkersCollection α σ}
    (h : OneNode first coll) (rounds : ℕ) :
    waitWorkersToFinish coll (rounds + 2) = some [first] := by
  obtain ⟨hworkers, hhead⟩ := h
  rw [List.head?_eq_getElem?] at hhead
  simp [Workers.waitWorkersToFinish, hworkers, walk, hhead]

omit [DecidableEq σ] in
/-- Whatever the loop returns is the first worker. -/
theorem OneNode.of_waitWorkersToFinish {first : α} {coll : WorkersCollection α σ}
    (h : OneNode first coll) {rounds : ℕ} {visited : List α}
    (hvisited : Workers.waitWorkersToFinish coll rounds = some visited) : visited = [first] := by
  match rounds with
  | 0 => simp [Workers.waitWorkersToFinish, h.1, walk] at hvisited
  | 1 => simp [Workers.waitWorkersToFinish, h.1, walk] at hvisited
  | rounds + 2 =>
    rw [h.waitWorkersToFinish] at hvisited
    exact (Option.some_inj.mp hvisited).symm

/-- No call succeeds where every slot is full. -/
theorem added_eq_nil_iff (calls : List (α × σ)) :
    added coll calls = [] ↔ ∀ call ∈ calls, (coll.slot call.2).isSome = true := by
  induction calls with
  | nil => simp [added]
  | cons call calls ih =>
    obtain ⟨worker, dst⟩ := call
    rw [List.forall_mem_cons, ← ih, added]
    cases hslot : coll.slot dst with
    | none =>
      have hstatus := addToWorkersCollection_status coll worker dst hslot
      simp [hstatus]
    | some other =>
      simp [addToWorkersCollection_of_isSome coll worker dst (by rw [hslot]; rfl)]

/-- **Which workers are stopped.**  The loop visits the workers of the calls that succeeded
exactly when there is a call and every further call names the slot of the first one, so
that it fails. -/
theorem eachStopped_iff (calls : List (α × σ)) :
    EachStopped calls
      ↔ ∃ first later, calls = first :: later ∧ ∀ call ∈ later, call.2 = first.2 := by
  cases calls with
  | nil =>
    refine iff_of_false ?_ ?_
    · rintro ⟨-, rounds, hvisited⟩
      cases hvisited
    · rintro ⟨first, later, hcalls, -⟩
      cases hcalls
  | cons first later =>
    obtain ⟨worker, dst⟩ := first
    have hfirst : OneNode worker
        (addToWorkersCollection worker initializeWorkersCollection dst).2 := ⟨rfl, rfl⟩
    have hone : OneNode worker (addAll initializeWorkersCollection ((worker, dst) :: later)) :=
      hfirst.addAll later
    have hadded : added initializeWorkersCollection ((worker, dst) :: later) = worker :: added
        (addToWorkersCollection worker initializeWorkersCollection dst).2 later := rfl
    -- after the first call the only full slot is its own
    have hslot : ∀ call : α × σ, ((addToWorkersCollection worker
        (initializeWorkersCollection : WorkersCollection α σ) dst).2.slot call.2).isSome = true
          ↔ call.2 = dst := by
      intro call
      rw [addToWorkersCollection_fresh]
      by_cases hdst : call.2 = dst
      · simp [hdst]
      · simp [hdst]
    have hnil := added_eq_nil_iff (addToWorkersCollection worker initializeWorkersCollection dst).2
      later
    simp only [hslot] at hnil
    constructor
    · rintro ⟨-, rounds, hvisited⟩
      have hlater := hone.of_waitWorkersToFinish hvisited
      rw [hadded, List.cons_inj_right] at hlater
      exact ⟨_, _, rfl, hnil.mp hlater⟩
    · rintro ⟨first, later', hcalls, hsame⟩
      obtain ⟨rfl, rfl⟩ := List.cons.inj hcalls
      refine ⟨fun before call _ _ => callLaw _ call, 2, ?_⟩
      rw [hone.waitWorkersToFinish 0, hadded, hnil.mpr hsame]

/-- The three calls of `spawn_workers`, each with a slot of its own: only the first worker
is visited. -/
theorem not_eachStopped_spawn_workers :
    let calls : List (ℕ × ℕ) := [(1, 1), (2, 2), (3, 3)]
    waitWorkersToFinish (addAll initializeWorkersCollection calls) 2 = some [1]
      ∧ added initializeWorkersCollection calls = [1, 2, 3]
      ∧ ¬EachStopped calls := by
  intro calls
  have hone : OneNode 1 (addAll initializeWorkersCollection calls) := ⟨rfl, rfl⟩
  refine ⟨rfl, rfl, ?_⟩
  rintro ⟨-, rounds, hvisited⟩
  cases hone.of_waitWorkersToFinish hvisited

end Calls

end Workers
