/-
# The classical Runge-Kutta step, and loops over an array

Two things that an integrator rests on, over any field and any vector space.

* `RungeKutta.step`: one step of the classical fourth-order scheme for a right hand side
  that depends on time and state, with its four stages.
* `forLoop`: the loop `for (i = 1; i <= n; i++)`.  A loop that writes the entry `i` of one
  or two arrays in round `i`, from what the other arrays and its own entry hold, leaves
  each entry as if it were the only one (`forLoop_update`, `forLoop_update_pair`).
-/
import Mathlib

/-! ## The scheme -/

namespace RungeKutta

variable {K V : Type*} [Field K] [AddCommGroup V] [Module K V]

/-- The derivative at the start. -/
def k1 (f : K → V → V) (t _h : K) (y : V) : V := f t y

/-- The derivative in the middle, extrapolated with the first. -/
def k2 (f : K → V → V) (t h : K) (y : V) : V :=
  f (t + h / (2 : ℕ)) (y + (h / (2 : ℕ)) • k1 f t h y)

/-- The derivative in the middle, extrapolated with the second. -/
def k3 (f : K → V → V) (t h : K) (y : V) : V :=
  f (t + h / (2 : ℕ)) (y + (h / (2 : ℕ)) • k2 f t h y)

/-- The derivative at the end, extrapolated with the third. -/
def k4 (f : K → V → V) (t h : K) (y : V) : V := f (t + h) (y + h • k3 f t h y)

/-- One step of length `h` from the state `y` at the time `t`. -/
def step (f : K → V → V) (t h : K) (y : V) : V :=
  y + (h / (6 : ℕ)) • (k1 f t h y + 2 • k2 f t h y + 2 • k3 f t h y + k4 f t h y)

variable (f : K → V → V) (t h : K) (y : V)

theorem k2_eq : k2 f t h y = f (t + h / 2) (y + (h / 2) • k1 f t h y) := by
  rw [k2, Nat.cast_ofNat]

theorem k3_eq : k3 f t h y = f (t + h / 2) (y + (h / 2) • k2 f t h y) := by
  rw [k3, Nat.cast_ofNat]

/-- The two stages in the middle count twice. -/
theorem step_eq : step f t h y
    = y + (h / 6) • (k1 f t h y + k4 f t h y + 2 • (k3 f t h y + k2 f t h y)) := by
  rw [step, Nat.cast_ofNat, smul_add (2 : ℕ)]
  congr 2
  abel

/-! ### With a right hand side for each stage -/

/-- The state at which the second stage is taken. -/
def state₂ (f₁ : K → V → V) (t h : K) (y : V) : V := y + (h / (2 : ℕ)) • f₁ t y

/-- The state at which the third stage is taken. -/
def state₃ (f₁ f₂ : K → V → V) (t h : K) (y : V) : V :=
  y + (h / (2 : ℕ)) • f₂ (t + h / (2 : ℕ)) (state₂ f₁ t h y)

/-- The state at which the last stage is taken. -/
def state₄ (f₁ f₂ f₃ : K → V → V) (t h : K) (y : V) : V :=
  y + h • f₃ (t + h / (2 : ℕ)) (state₃ f₁ f₂ t h y)

/-- One step in which each stage has a right hand side of its own. -/
def staged (f₁ f₂ f₃ f₄ : K → V → V) (t h : K) (y : V) : V :=
  y + (h / (6 : ℕ)) • (f₁ t y + 2 • f₂ (t + h / (2 : ℕ)) (state₂ f₁ t h y)
    + 2 • f₃ (t + h / (2 : ℕ)) (state₃ f₁ f₂ t h y) + f₄ (t + h) (state₄ f₁ f₂ f₃ t h y))

/-- The two stages in the middle count twice here too. -/
theorem staged_eq (f₁ f₂ f₃ f₄ : K → V → V) : staged f₁ f₂ f₃ f₄ t h y
    = y + (h / (6 : ℕ)) • (f₁ t y + f₄ (t + h) (state₄ f₁ f₂ f₃ t h y)
      + 2 • (f₃ (t + h / (2 : ℕ)) (state₃ f₁ f₂ t h y)
        + f₂ (t + h / (2 : ℕ)) (state₂ f₁ t h y))) := by
  rw [staged, smul_add (2 : ℕ)]
  congr 2
  abel

/-- With one right hand side it is the step of the scheme. -/
theorem staged_self : staged f f f f t h y = step f t h y := rfl

end RungeKutta

/-! ## Loops -/

section Loops

variable {σ α β : Type*}

/-- `for (i = 1; i <= n; i++)`. -/
def forLoop (n : ℕ) (body : ℕ → σ → σ) (s : σ) : σ :=
  (List.range' 1 n).foldl (fun s i => body i s) s

theorem forLoop_zero (body : ℕ → σ → σ) (s : σ) : forLoop 0 body s = s := rfl

/-- The last round. -/
theorem forLoop_succ (n : ℕ) (body : ℕ → σ → σ) (s : σ) :
    forLoop (n + 1) body s = body (n + 1) (forLoop n body s) := by
  rw [forLoop, List.range'_1_concat, List.foldl_append, List.foldl_cons, List.foldl_nil,
    Nat.add_comm 1 n]
  rfl

/-- The array after `n` rounds, each of which has written its entry. -/
def written (n : ℕ) (f a : ℕ → α) : ℕ → α := fun j => if 1 ≤ j ∧ j ≤ n then f j else a j

theorem written_zero (f a : ℕ → α) : written 0 f a = a := by
  funext j
  rw [written, if_neg (by omega)]

/-- The entry of the next round is as it was before the loop. -/
theorem written_apply_succ (n : ℕ) (f a : ℕ → α) : written n f a (n + 1) = a (n + 1) := by
  rw [written, if_neg (by omega)]

/-- One more round. -/
theorem update_written (n : ℕ) (f a : ℕ → α) :
    Function.update (written n f a) (n + 1) (f (n + 1)) = written (n + 1) f a := by
  funext j
  by_cases hj : j = n + 1
  · subst hj
    rw [Function.update_self, written, if_pos (by omega)]
  · rw [Function.update_of_ne hj]
    unfold written
    congr 1
    exact propext (by omega)

/-- A loop that writes each entry of an array from what does not change. -/
theorem forLoop_update (n : ℕ) (f a : ℕ → α) :
    forLoop n (fun i a => Function.update a i (f i)) a = written n f a := by
  induction n with
  | zero => rw [forLoop_zero, written_zero]
  | succ n ih => rw [forLoop_succ, ih, update_written]

/-- A loop that writes each entry of two arrays from what the entry of the second held. -/
theorem forLoop_update_pair (n : ℕ) (f : ℕ → β → α) (g : ℕ → β → β) (a : ℕ → α) (b : ℕ → β) :
    forLoop n (fun i (p : (ℕ → α) × (ℕ → β)) =>
        (Function.update p.1 i (f i (p.2 i)), Function.update p.2 i (g i (p.2 i)))) (a, b)
      = (written n (fun j => f j (b j)) a, written n (fun j => g j (b j)) b) := by
  induction n with
  | zero => rw [forLoop_zero, written_zero, written_zero]
  | succ n ih =>
      rw [forLoop_succ, ih, ← update_written, ← update_written]
      simp only [written_apply_succ]

end Loops
