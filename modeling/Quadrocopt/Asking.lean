/-
# Programs that ask

A sequential program that calls some service: it asks a question, gets an answer, and goes on
with it, until it is done.  What it asks depends on the answers alone.  So one program can be
answered in several ways (`answered`, `lagged`), and where it stands after a number of answers
can be told from these (`after`).

The answers of interest here come one question late: each is the answer to the question before,
the first one that to a question the program has not asked (`lagged`).  Whoever hands the
program such answers sees it ask the questions of that run and no others
(`question_after_lagged`).

The module names nothing of the program.
-/
import Mathlib.Data.List.Basic

namespace Asking

universe u v w

/-- A program that asks questions in `Q`, gets answers in `A`, and has a result in `α`. -/
inductive Program (Q : Type u) (A : Type v) (α : Type w) where
  | done (a : α)
  | ask (q : Q) (next : A → Program Q A α)

namespace Program

variable {Q Q' A A' α β : Type*}

/-- One program, and then another one that depends on its result. -/
def bind : Program Q A α → (α → Program Q A β) → Program Q A β
  | done a, f => f a
  | ask q next, f => ask q fun a => (next a).bind f

/-- The same program with its questions and answers in other terms. -/
def translate (f : Q → Q') (g : A' → A) : Program Q A α → Program Q' A' α
  | done a => done a
  | ask q next => ask (f q) fun a => (next (g a)).translate f g

/-- The result, when each question gets its own answer. -/
def answered (f : Q → A) : Program Q A α → α
  | done a => a
  | ask q next => (next (f q)).answered f

/-- The question that is asked next. -/
def question? : Program Q A α → Option Q
  | done _ => none
  | ask q _ => some q

/-- What is left of a program after a number of answers. -/
def after : Program Q A α → List A → Program Q A α
  | done a, _ => done a
  | ask q next, [] => ask q next
  | ask _ next, a :: as => (next a).after as

/-- A program whose answers come one question late: what it asks, and its result. -/
def lagged (f : Q → A) : Program Q A α → Q → List Q × α
  | done a, _ => ([], a)
  | ask q next, last => (q :: ((next (f last)).lagged f q).1, ((next (f last)).lagged f q).2)

/-- The question of which a late answer would come next. -/
def last (qs : List Q) (q₀ : Q) : Q := qs.getLastD q₀

/-- The answers to the first `n` questions, when they come one question late. -/
def lateAnswers (f : Q → A) (qs : List Q) (q₀ : Q) (n : ℕ) : List A := ((q₀ :: qs).take n).map f

/-- **What a program asks when it is answered late.**  After the late answers to any number of
questions, the next question is that of the run with late answers. -/
theorem question_after_lagged (f : Q → A) (p : Program Q A α) (q₀ : Q) (n : ℕ) :
    (p.after (lateAnswers f (p.lagged f q₀).1 q₀ n)).question? = (p.lagged f q₀).1[n]? := by
  induction p generalizing q₀ n with
  | done a => rfl
  | ask q next ih =>
      cases n with
      | zero => rfl
      | succ n => exact ih (f q₀) q n

/-- A second program is answered late from the last question of the first one on. -/
theorem lagged_bind (f : Q → A) (p : Program Q A α) (g : α → Program Q A β) (q₀ : Q) :
    (p.bind g).lagged f q₀ =
      ((p.lagged f q₀).1
          ++ ((g (p.lagged f q₀).2).lagged f (last (p.lagged f q₀).1 q₀)).1,
        ((g (p.lagged f q₀).2).lagged f (last (p.lagged f q₀).1 q₀)).2) := by
  induction p generalizing q₀ with
  | done a => rfl
  | ask q next ih =>
      have hlast : last (lagged f (ask q next) q₀).1 q₀ = last ((next (f q₀)).lagged f q).1 q := by
        simp only [lagged, last, List.getLastD_cons]
      rw [hlast]
      simp only [bind, lagged, ih, List.cons_append]

/-- Late answers are the same in other terms. -/
theorem lagged_translate (g : Q → Q') (g' : A' → A) (f : Q' → A') (p : Program Q A α) (q₀ : Q) :
    (p.translate g g').lagged f (g q₀) =
      ((p.lagged (fun q => g' (f (g q))) q₀).1.map g, (p.lagged (fun q => g' (f (g q))) q₀).2) := by
  induction p generalizing q₀ with
  | done a => rfl
  | ask q next ih => simp only [translate, lagged, ih, List.map_cons]

end Program

end Asking
