import Mathlib.Data.List.Basic

/-!
Loops that read a value and move on.

`visit` is the loop `while (!done) { read; move; }`, with fuel. `Visits` is what
the loop does, without fuel: the values it reads and the state it ends in. The rule
is `visits_of_ahead`: a view of the values that lie ahead of a state, which a move
shortens by the value just read.
-/

namespace Traversal

variable {σ α : Type*} (done : σ → Bool) (read : σ → α) (move : σ → σ)

def visit : ℕ → σ → Option (List α × σ)
  | 0, _ => none
  | fuel + 1, s =>
    if done s then some ([], s)
    else (visit fuel (move s)).map fun rest => (read s :: rest.1, rest.2)

inductive Visits : σ → List α → σ → Prop where
  | stop {s : σ} : done s = true → Visits s [] s
  | step {s t : σ} {xs : List α} :
      done s = false → Visits (move s) xs t → Visits s (read s :: xs) t

variable {done read move}

/-- The loop completes with fuel for each value and one more. -/
theorem Visits.visit {s t : σ} {xs : List α} (h : Visits done read move s xs t) :
    visit done read move (xs.length + 1) s = some (xs, t) := by
  induction h with
  | stop hdone => rw [Traversal.visit, if_pos hdone]
  | step hdone _ ih =>
    rw [List.length_cons, Traversal.visit, if_neg (by rw [hdone]; exact Bool.false_ne_true), ih]
    rfl

/-- **The rule for loops.** `Ahead s xs` says that `xs` lies ahead of `s`. -/
theorem visits_of_ahead {Ahead : σ → List α → Prop} (last : ∀ s, Ahead s [] → done s = true)
    (first : ∀ s x xs, Ahead s (x :: xs) → done s = false ∧ read s = x ∧ Ahead (move s) xs)
    {s : σ} {xs : List α} (h : Ahead s xs) :
    ∃ t, Visits done read move s xs t ∧ Ahead t [] := by
  induction xs generalizing s with
  | nil => exact ⟨s, .stop (last s h), h⟩
  | cons x xs ih =>
    obtain ⟨hdone, rfl, ahead⟩ := first s x xs h
    obtain ⟨t, hvisits, hlast⟩ := ih ahead
    exact ⟨t, .step hdone hvisits, hlast⟩

end Traversal
