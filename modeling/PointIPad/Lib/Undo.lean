import PointIPad.Lib.Runs

/-!
Undoing.

The events of a machine are acts, some of which move it, and undos. Brackets are
matched: an undo cancels the last act before it that moved the machine and is not
cancelled yet, and does nothing if there is none. `uncancelled` lists what is left
at the end of a run.

What of the state takes part is a function `view` of it. `Undoable` has the four
laws: acts go by the view, an act that does not move keeps it, an undo brings back
the view from before an act, and there is nothing to undo at the start.

**The undo rule** (`run_uncancelled`). Under these laws, a run and the acts that it
leaves uncancelled lead to states with the same view.
-/

namespace Undo

open Transition

inductive Event (α : Type*) where
  | act (a : α)
  | undo
deriving DecidableEq

variable {σ α ξ ν : Type*}

/-- What is uncancelled after an event, if these acts were before. -/
def record (moves : σ → α → Bool) (s : σ) (open_ : List α) : Event α → List α
  | .act a => if moves s a then open_ ++ [a] else open_
  | .undo => open_.dropLast

/-- The acts of a run that moved the machine and that no later undo cancelled, after
those that were there before. -/
def uncancelled (step : σ → Event α → Except ξ σ) (moves : σ → α → Bool) :
    σ → List α → List (Event α) → List α
  | _, open_, [] => open_
  | s, open_, e :: es =>
    match step s e with
    | .ok s' => uncancelled step moves s' (record moves s open_ e) es
    | .error _ => open_

/-- Undoing, as far as the view tells. -/
structure Undoable (step : σ → Event α → Except ξ σ) (moves : σ → α → Bool) (view : σ → ν)
    (start : σ) : Prop where
  moves_congr : ∀ {s t a}, view t = view s → moves t a = moves s a
  act_congr : ∀ {s s' t a}, view t = view s → moves s a = true → step s (.act a) = .ok s' →
    ∃ t', step t (.act a) = .ok t' ∧ view t' = view s'
  stays : ∀ {s s' a}, moves s a = false → step s (.act a) = .ok s' → view s' = view s
  undo_act : ∀ {s s' t t' a}, moves s a = true → step s (.act a) = .ok s' → view t = view s' →
    step t .undo = .ok t' → view t' = view s
  undo_start : ∀ {t t'}, view t = view start → step t .undo = .ok t' → view t' = view start

/-- A run of acts each of which moves the machine. -/
inductive Moved (step : σ → Event α → Except ξ σ) (moves : σ → α → Bool) (start : σ) :
    List α → σ → Prop where
  | start : Moved step moves start [] start
  | act {acts : List α} {s s' : σ} {a : α} : Moved step moves start acts s → moves s a = true →
      step s (.act a) = .ok s' → Moved step moves start (acts ++ [a]) s'

section Rule

variable {step : σ → Event α → Except ξ σ} {moves : σ → α → Bool} {view : σ → ν} {start : σ}
  {acts : List α} {s s' t : σ} {e : Event α}

theorem Moved.run_ok (h : Moved step moves start acts t) :
    run step start (acts.map Event.act) = .ok t := by
  induction h with
  | start => rfl
  | act _ _ hstep ih =>
    rw [List.map_append]
    exact run_snoc_ok.mpr ⟨_, ih, hstep⟩

/-- One event, in a state and in what the uncancelled acts lead to. -/
theorem Moved.event (laws : Undoable step moves view start) (h : Moved step moves start acts t)
    (same : view t = view s) (hstep : step s e = .ok s') :
    ∃ t', Moved step moves start (record moves s acts e) t' ∧ view t' = view s' := by
  cases e with
  | act a =>
    rw [record]
    cases hmoves : moves s a with
    | false => exact ⟨t, h, same.trans (laws.stays hmoves hstep).symm⟩
    | true =>
      obtain ⟨t', ht, same'⟩ := laws.act_congr same hmoves hstep
      exact ⟨t', h.act ((laws.moves_congr same).trans hmoves) ht, same'⟩
  | undo =>
    rw [record]
    cases h with
    | start => exact ⟨start, .start, (laws.undo_start same.symm hstep).symm⟩
    | act before hmoves hact =>
      rw [List.dropLast_concat]
      exact ⟨_, before, (laws.undo_act hmoves hact same.symm hstep).symm⟩

theorem Moved.after (laws : Undoable step moves view start) {es : List (Event α)}
    (h : Moved step moves start acts t) (same : view t = view s)
    (hrun : run step s es = .ok s') :
    ∃ t', Moved step moves start (uncancelled step moves s acts es) t' ∧ view t' = view s' := by
  induction es generalizing s t acts with
  | nil =>
    cases hrun
    exact ⟨t, h, same⟩
  | cons e es ih =>
    obtain ⟨m, hstep, hrest⟩ := run_cons_ok.mp hrun
    obtain ⟨u, hu, same'⟩ := h.event laws same hstep
    rw [uncancelled, hstep]
    exact ih hu same' hrest

/-- **The undo rule.** The acts that no undo cancels lead to the same view. -/
theorem run_uncancelled (laws : Undoable step moves view start) {es : List (Event α)}
    (hrun : run step start es = .ok s) :
    ∃ t, run step start ((uncancelled step moves start [] es).map Event.act) = .ok t ∧
      view t = view s := by
  obtain ⟨t, moved, same⟩ := Moved.start.after laws rfl hrun
  exact ⟨t, moved.run_ok, same⟩

end Rule

end Undo
