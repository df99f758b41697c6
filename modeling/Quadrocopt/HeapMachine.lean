/-
# A machine and the memory behind it

A state machine tells which thread moves and what it does next; the code of each step is a
program on a heap, which works with the variables of the threads.  The two are run side by
side: a step is taken where the machine takes one and its code has a result (`step`).

The code goes wrong in a state where the machine takes a step and the code of it has no result.
A relation between the machine and the memory that every step keeps, and under which the code
of every step has a result, shows that this happens in no run (`Run.safe`), and that every run
of the machine is one of the code too (`Run.lift`).

Where the code is that of a part of the machine, whose steps are some of the machine's
(`Projects`), what the part's steps keep the machine keeps (`Projects.keeps`).  So a machine of
several parts gets one memory after the other.

The module names nothing of the program.
-/
import Quadrocopt.HeapProgram
import Quadrocopt.Transition

namespace HeapMachine

open HeapProgram Transition

variable {σ α : Type*} {ν β : Type}

/-- The state of the machine, the variables of its threads, and the heap. -/
structure WithHeap (σ : Type*) (ν β : Type) where
  control : σ
  vars : ν
  heap : Heap β

variable (control : σ → α → Option σ) (code : σ → ν → α → Prog β ν)

/-- The machine takes a step, and its code is executed. -/
def step (m : WithHeap σ ν β) (a : α) : Option (WithHeap σ ν β) :=
  (control m.control a).bind fun s =>
    (code m.control m.vars a m.heap).map fun r => ⟨s, r.1, r.2⟩

variable {control code} {P : σ → α → Prop} {m m₀ m' : WithHeap σ ν β} {a : α} {as : List α}

theorem step_eq_some_iff : step control code m a = some m' ↔
    control m.control a = some m'.control
      ∧ code m.control m.vars a m.heap = some (m'.vars, m'.heap) := by
  rw [step, Option.bind_eq_some_iff]
  constructor
  · rintro ⟨s, hs, hcode⟩
    obtain ⟨⟨v, h⟩, hr, rfl⟩ := Option.map_eq_some_iff.mp hcode
    exact ⟨hs, hr⟩
  · rintro ⟨hs, hr⟩
    exact ⟨m'.control, hs, Option.map_eq_some_iff.mpr ⟨_, hr, rfl⟩⟩

/-- The machine by itself makes a run. -/
theorem control_run (h : Run (step control code) (fun m a => P m.control a) m₀ as m) :
    Run control P m₀.control as m.control := by
  induction h with
  | nil => exact Run.nil
  | snoc _ hP hstep ih => exact ih.snoc hP (step_eq_some_iff.mp hstep).1

/-- A relation between the machine and the memory under which the code of every step does what
it should. -/
def Keeps (control : σ → α → Option σ) (code : σ → ν → α → Prog β ν) (P : σ → α → Prop) (s₀ : σ)
    (I : WithHeap σ ν β → Prop) : Prop :=
  ∀ as m a s, Run control P s₀ as m.control → I m → P m.control a → control m.control a = some s →
    ∃ v h, code m.control m.vars a m.heap = some (v, h) ∧ I ⟨s, v, h⟩

section Keeps

variable {I : WithHeap σ ν β → Prop} (hkeeps : Keeps control code P m₀.control I) (h₀ : I m₀)

include hkeeps h₀

/-- It holds in every run. -/
theorem Run.related (h : Run (step control code) (fun m a => P m.control a) m₀ as m) : I m := by
  induction h with
  | nil => exact h₀
  | snoc hrun hP hstep ih =>
      obtain ⟨hs, hr⟩ := step_eq_some_iff.mp hstep
      obtain ⟨v, h, hr', hI⟩ := hkeeps _ _ _ _ (control_run hrun) ih hP hs
      obtain ⟨rfl, rfl⟩ := Prod.mk.inj (Option.some.inj (hr'.symm.trans hr))
      exact hI

/-- **Nothing goes wrong.** -/
theorem Run.safe (h : Run (step control code) (fun m a => P m.control a) m₀ as m)
    (hP : P m.control a) (hcontrol : control m.control a ≠ none) :
    code m.control m.vars a m.heap ≠ none := by
  obtain ⟨s, hs⟩ := Option.ne_none_iff_exists'.mp hcontrol
  obtain ⟨v, h', hr, -⟩ := hkeeps _ _ _ _ (control_run h) (Run.related hkeeps h₀ h) hP hs
  rw [hr]
  exact Option.some_ne_none _

/-- A step of the machine is one of its code too. -/
theorem Run.enabled (h : Run (step control code) (fun m a => P m.control a) m₀ as m)
    (hP : P m.control a) (hcontrol : control m.control a ≠ none) : step control code m a ≠ none := by
  obtain ⟨s, hs⟩ := Option.ne_none_iff_exists'.mp hcontrol
  obtain ⟨v, h', hr, -⟩ := hkeeps _ _ _ _ (control_run h) (Run.related hkeeps h₀ h) hP hs
  have hstep : step control code m a = some ⟨s, v, h'⟩ := step_eq_some_iff.mpr ⟨hs, hr⟩
  rw [hstep]
  exact Option.some_ne_none _

/-- **Every run of the machine** is one of its code. -/
theorem Run.lift {s : σ} (h : Run control P m₀.control as s) :
    ∃ m, Run (step control code) (fun m a => P m.control a) m₀ as m ∧ m.control = s := by
  induction h with
  | nil => exact ⟨m₀, Run.nil, rfl⟩
  | snoc hrun hP hstep ih =>
      obtain ⟨m, hm, rfl⟩ := ih
      obtain ⟨v, h, hr, -⟩ := hkeeps _ _ _ _ hrun (Run.related hkeeps h₀ hm) hP hstep
      exact ⟨⟨_, v, h⟩, hm.snoc hP (step_eq_some_iff.mpr ⟨hstep, hr⟩), rfl⟩

end Keeps

/-! ## A part of a machine -/

section Part

variable {τ γ : Type*} (part : σ → τ) (acts : σ → α → Option γ)

/-- The code of a part: it is executed where a step of the machine is one of the part. -/
def codeOfPart (code : τ → ν → γ → Prog β ν) (s : σ) (v : ν) (a : α) : Prog β ν :=
  match acts s a with
  | some b => code (part s) v b
  | none => pure v

/-- Every step of the machine is the step of the part that `acts` names, or leaves the part
alone. -/
def Projects (control : σ → α → Option σ) (controlPart : τ → γ → Option τ) (P : σ → α → Prop)
    (Q : τ → γ → Prop) (s₀ : σ) : Prop :=
  ∀ as s a s', Run control P s₀ as s → P s a → control s a = some s' →
    acts s a = none ∧ part s' = part s
      ∨ ∃ b, acts s a = some b ∧ Q (part s) b ∧ controlPart (part s) b = some (part s')

variable {part acts} {controlPart : τ → γ → Option τ} {codePart : τ → ν → γ → Prog β ν}
  {Q : τ → γ → Prop} {s₀ : σ}

/-- A run of the machine, seen from the part, is one of the part. -/
theorem Projects.run (h : Projects part acts control controlPart P Q s₀) {s : σ}
    (hrun : Run control P s₀ as s) : ∃ bs, Run controlPart Q (part s₀) bs (part s) := by
  apply hrun.project part
  intro as s a s' hrun hP hstep
  rcases h as s a s' hrun hP hstep with ⟨-, hpart⟩ | ⟨b, -, hQ, hb⟩
  · exact .inl hpart
  · exact .inr ⟨b, hQ, hb⟩

/-- What the steps of the part keep, the machine keeps. -/
theorem Projects.keeps (h : Projects part acts control controlPart P Q s₀)
    {I : WithHeap τ ν β → Prop} (hkeeps : Keeps controlPart codePart Q (part s₀) I) :
    Keeps control (codeOfPart part acts codePart) P s₀
      (fun m => I ⟨part m.control, m.vars, m.heap⟩) := by
  intro as m a s' hrun hI hP hstep
  obtain ⟨bs, hpart⟩ := h.run hrun
  rcases h as m.control a s' hrun hP hstep with ⟨hacts, hsame⟩ | ⟨b, hacts, hQ, hb⟩
  · refine ⟨m.vars, m.heap, ?_, ?_⟩
    · rw [codeOfPart, hacts]
      rfl
    · show I ⟨part s', m.vars, m.heap⟩
      rwa [hsame]
  · obtain ⟨v, h', hcode, hI'⟩ := hkeeps bs ⟨part m.control, m.vars, m.heap⟩ b _ hpart hI hQ hb
    refine ⟨v, h', ?_, hI'⟩
    rw [codeOfPart, hacts]
    exact hcode

/-- The machine that executes some code besides has the same parts. -/
theorem Projects.withHeap {ν' β' : Type} {code' : σ → ν' → α → Prog β' ν'}
    {m₀ : WithHeap σ ν' β'} (h : Projects part acts control controlPart P Q m₀.control) :
    Projects (fun m => part m.control) (fun m => acts m.control) (step control code') controlPart
      (fun m => P m.control) Q m₀ := by
  intro as m a m' hrun hP hstep
  exact h as _ a _ (control_run hrun) hP (step_eq_some_iff.mp hstep).1

end Part

end HeapMachine
