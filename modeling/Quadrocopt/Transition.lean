/-
# Runs of a partial step function

The common vocabulary of every state machine in this development: a machine is
a partial step function `step : σ → α → Option σ`, an interleaving is a list of
actions, and a run is a list of actions each of which was enabled when it was
taken.  `Run` also carries a *discipline*: a predicate on (state, action) that
every step of the run meets.  An unrestricted run has the discipline `Any`.

The module names nothing of the program: it holds the invariant rule, the
weakening of a discipline, and the projection of the runs of one machine onto
the runs of another.
-/
import Mathlib.Data.List.Infix

namespace Transition

variable {σ τ α β : Type*}

/-! ## Executing a schedule -/

/-- Execute a schedule, stopping at the first action that is not enabled. -/
def run (step : σ → α → Option σ) : σ → List α → Option σ
  | s, [] => some s
  | s, a :: as => (step s a).bind (fun s' => run step s' as)

/-- The discipline that allows every step. -/
def Any : σ → α → Prop := fun _ _ => True

/-! ## Runs -/

/-- `Run step P s₀ as s`: from `s₀`, the actions `as` are enabled one after the
other, each meets the discipline `P` in the state where it is taken, and they
lead to `s`. -/
inductive Run (step : σ → α → Option σ) (P : σ → α → Prop) (s₀ : σ) : List α → σ → Prop
  | nil : Run step P s₀ [] s₀
  | snoc {as : List α} {s : σ} {a : α} {s' : σ} :
      Run step P s₀ as s → P s a → step s a = some s' → Run step P s₀ (as ++ [a]) s'

variable {step : σ → α → Option σ} {P Q : σ → α → Prop} {s₀ s : σ} {as : List α}

/-- A run may be extended at its front. -/
theorem Run.cons {a : α} {s₁ : σ} (hP : P s₀ a) (hstep : step s₀ a = some s₁)
    (h : Run step P s₁ as s) : Run step P s₀ (a :: as) s := by
  induction h with
  | nil => exact Run.snoc Run.nil hP hstep
  | snoc _ hP' hstep' ih => exact Run.snoc ih hP' hstep'

/-- An executed schedule whose actions all meet the discipline is a run. -/
theorem Run.of_run (h : run step s₀ as = some s) (hP : ∀ s, ∀ a ∈ as, P s a) :
    Run step P s₀ as s := by
  induction as generalizing s₀ with
  | nil =>
      obtain rfl := Option.some.inj h
      exact Run.nil
  | cons a as ih =>
      obtain ⟨s₁, hstep, hrest⟩ := Option.bind_eq_some_iff.mp h
      exact Run.cons (hP s₀ a List.mem_cons_self) hstep
        (ih hrest (fun s b hb => hP s b (List.mem_cons_of_mem a hb)))

/-- An executed schedule is a run, and what is observed of its last state is so. -/
theorem Run.of_observed {obs : σ → τ} {b : τ} (h : (run step s₀ as).map obs = some b) :
    ∃ s, Run step Any s₀ as s ∧ obs s = b := by
  obtain ⟨s, hrun, hobs⟩ := Option.map_eq_some_iff.mp h
  exact ⟨s, Run.of_run hrun (fun _ _ _ => trivial), hobs⟩

/-- The machine that takes a step only where the discipline allows it. -/
def guarded (step : σ → α → Option σ) (P : σ → α → Prop) [∀ s a, Decidable (P s a)]
    (s : σ) (a : α) : Option σ :=
  if P s a then step s a else none

/-- A schedule executed under the guard of a discipline is a run. -/
theorem Run.of_guarded [∀ s a, Decidable (P s a)] (h : run (guarded step P) s₀ as = some s) :
    Run step P s₀ as s := by
  induction as generalizing s₀ with
  | nil =>
      obtain rfl := Option.some.inj h
      exact Run.nil
  | cons a as ih =>
      obtain ⟨s₁, hstep, hrest⟩ := Option.bind_eq_some_iff.mp h
      obtain ⟨hP, hstep⟩ := Option.ite_none_right_eq_some.mp hstep
      exact Run.cons hP hstep (ih hrest)

/-- A weaker discipline allows more runs. -/
theorem Run.mono (h : Run step P s₀ as s) (hPQ : ∀ s a, P s a → Q s a) :
    Run step Q s₀ as s := by
  induction h with
  | nil => exact Run.nil
  | snoc _ hP hstep ih => exact Run.snoc ih (hPQ _ _ hP) hstep

/-- A discipline on actions alone may be read off the schedule of the run. -/
theorem Run.and_forall {R : α → Prop} (h : Run step P s₀ as s) (hR : ∀ a ∈ as, R a) :
    Run step (fun s a => P s a ∧ R a) s₀ as s := by
  induction h with
  | nil => exact Run.nil
  | snoc _ hP hstep ih =>
      rw [List.forall_mem_append] at hR
      exact Run.snoc (ih hR.1) ⟨hP, hR.2 _ (List.mem_singleton_self _)⟩ hstep

/-! ## The invariant rule -/

/-- **Invariant rule.**  A predicate that holds initially and is kept by every
step the discipline allows holds at the end of every run. -/
theorem Run.invariant {I : σ → Prop} (h : Run step P s₀ as s) (h₀ : I s₀)
    (hI : ∀ s a s', I s → P s a → step s a = some s' → I s') : I s := by
  induction h with
  | nil => exact h₀
  | snoc _ hP hstep ih => exact hI _ _ _ ih hP hstep

/-- **Projection rule.**  If every step of a run of one machine leaves the view `f` alone
or moves it by one allowed step of a second machine, then the view of the run is a
run of the second machine.  The step is judged with the run that leads to it at
hand, so that facts about reachable states may be used. -/
theorem Run.project {step' : τ → β → Option τ} {P' : τ → β → Prop} (f : σ → τ)
    (h : Run step P s₀ as s)
    (hf : ∀ as s a s', Run step P s₀ as s → P s a → step s a = some s' →
      f s' = f s ∨ ∃ b, P' (f s) b ∧ step' (f s) b = some (f s')) :
    ∃ bs, Run step' P' (f s₀) bs (f s) := by
  induction h with
  | nil => exact ⟨[], Run.nil⟩
  | snoc hrun hP hstep ih =>
      obtain ⟨bs, hbs⟩ := ih
      rcases hf _ _ _ _ hrun hP hstep with heq | ⟨b, hPb, hb⟩
      · rw [heq]
        exact ⟨bs, hbs⟩
      · exact ⟨bs ++ [b], Run.snoc hbs hPb hb⟩

/-! ## Coming to rest -/

/-- A machine whose runs from a state are all of bounded length comes to rest: every run can be
continued, with actions of any kind that is given, to a state where no action of that kind is
enabled. -/
theorem Run.exists_rest {R : α → Prop} {n : ℕ}
    (hn : ∀ as s, Run step Any s₀ as s → as.length ≤ n) (h : Run step Any s₀ as s) :
    ∃ bs s', (∀ b ∈ bs, R b) ∧ Run step Any s₀ (as ++ bs) s' ∧ ∀ b, R b → step s' b = none := by
  -- the induction is on the number of steps that can still be made
  obtain ⟨k, hk⟩ : ∃ k, n = as.length + k := Nat.exists_eq_add_of_le (hn as s h)
  induction k generalizing as s with
  | zero =>
      refine ⟨[], s, by simp, by rwa [List.append_nil], fun b _ => ?_⟩
      by_contra hb
      obtain ⟨s', hs'⟩ := Option.ne_none_iff_exists'.mp hb
      have hle := hn _ _ (h.snoc trivial hs')
      rw [List.length_append, List.length_singleton] at hle
      omega
  | succ k ih =>
      by_cases hrest : ∀ b, R b → step s b = none
      · exact ⟨[], s, by simp, by rwa [List.append_nil], hrest⟩
      · obtain ⟨b, hR, hb⟩ := by simpa only [not_forall] using hrest
        obtain ⟨s', hs'⟩ := Option.ne_none_iff_exists'.mp hb
        obtain ⟨bs, s'', hbs, hrun, hnone⟩ := ih (h.snoc trivial hs')
          (by rw [List.length_append, List.length_singleton]; omega)
        refine ⟨b :: bs, s'', List.forall_mem_cons.mpr ⟨hR, hbs⟩, ?_, hnone⟩
        rwa [List.append_assoc] at hrun

end Transition
