import Mathlib.Data.List.Basic
import Mathlib.Data.List.Infix
import Mathlib.Logic.Basic

/-!
Runs of a deterministic machine whose steps may fail.

A step function `σ → ε → Except ξ σ` takes a state and an event to the next
state or fails; a failing step ends the run. `run` plays a list of events,
`Always` says that a property holds in every state a run passes through, and
`EachStep` that every event is tried in a state that satisfies a condition on
state and event.

The rules are the invariant rule (`run_invariant`, `always_of_invariant`), the
refinement rule (`run_refines`), and the exact-condition rule
(`always_iff_eachStep`): an invariant that is kept by the steps meeting a
condition, and whose goal is broken at once by any other step, makes the
condition on the steps equivalent to the goal along the whole run.
`eachStep_iff` compares two conditions on steps in the same way.
-/

namespace Transition

/-! ### Failing computations -/

section Except

universe u v

variable {ξ : Type u} {α β : Type v}

/-- A computation that succeeds has succeeded at each of its two stages. -/
theorem bind_eq_ok {x : Except ξ α} {f : α → Except ξ β} {b : β} :
    x >>= f = .ok b ↔ ∃ a, x = .ok a ∧ f a = .ok b := by
  cases x <;> simp [bind, Except.bind]

theorem map_eq_ok {x : Except ξ α} {f : α → β} {b : β} :
    x.map f = .ok b ↔ ∃ a, x = .ok a ∧ f a = b := by
  cases x <;> simp [Except.map]

@[simp] theorem ok_bind (a : α) (f : α → Except ξ β) : (Except.ok a >>= f) = f a := rfl

@[simp] theorem pure_eq_ok (a : α) : (pure a : Except ξ α) = .ok a := rfl

end Except

variable {σ ε ξ : Type*}

/-- Play a list of events from a state; the first failing step ends the run. -/
def run (step : σ → ε → Except ξ σ) : σ → List ε → Except ξ σ
  | s, [] => .ok s
  | s, e :: es => step s e >>= fun s' => run step s' es

/-- `P` holds in every state the run passes through, the first one included. -/
def Always (step : σ → ε → Except ξ σ) (P : σ → Prop) : σ → List ε → Prop
  | s, [] => P s
  | s, e :: es => P s ∧ ∀ s', step s e = .ok s' → Always step P s' es

/-- Every event of the run is tried in a state where `C` holds of it. -/
def EachStep (step : σ → ε → Except ξ σ) (C : σ → ε → Prop) : σ → List ε → Prop
  | _, [] => True
  | s, e :: es => C s e ∧ ∀ s', step s e = .ok s' → EachStep step C s' es

variable {step : σ → ε → Except ξ σ} {P I : σ → Prop} {C : σ → ε → Prop}

@[simp] theorem run_nil (s : σ) : run step s [] = .ok s := rfl

theorem run_cons_ok {s t : σ} {e : ε} {es : List ε} :
    run step s (e :: es) = .ok t ↔ ∃ s', step s e = .ok s' ∧ run step s' es = .ok t :=
  bind_eq_ok

theorem run_append_ok {s t : σ} {es fs : List ε} :
    run step s (es ++ fs) = .ok t ↔ ∃ m, run step s es = .ok m ∧ run step m fs = .ok t := by
  induction es generalizing s with
  | nil => simp
  | cons e es ih =>
    rw [List.cons_append, run_cons_ok]
    constructor
    · rintro ⟨s', hstep, hrun⟩
      obtain ⟨m, hm, ht⟩ := ih.mp hrun
      exact ⟨m, run_cons_ok.mpr ⟨s', hstep, hm⟩, ht⟩
    · rintro ⟨m, hm, ht⟩
      obtain ⟨s', hstep, hrun⟩ := run_cons_ok.mp hm
      exact ⟨s', hstep, ih.mpr ⟨m, hrun, ht⟩⟩

/-- A run followed by one more event. -/
theorem run_snoc_ok {s t : σ} {es : List ε} {e : ε} :
    run step s (es ++ [e]) = .ok t ↔ ∃ m, run step s es = .ok m ∧ step m e = .ok t := by
  rw [run_append_ok]
  constructor
  · rintro ⟨m, hm, ht⟩
    obtain ⟨t', hstep, hnil⟩ := run_cons_ok.mp ht
    cases hnil
    exact ⟨m, hm, hstep⟩
  · rintro ⟨m, hm, ht⟩
    exact ⟨m, hm, run_cons_ok.mpr ⟨t, ht, rfl⟩⟩

/-! ### The states and the steps of a run -/

theorem Always.head {s : σ} {es : List ε} (h : Always step P s es) : P s := by
  cases es with
  | nil => exact h
  | cons e es => exact h.1

/-- `Always` is what it says: the property holds after every completed prefix. -/
theorem always_iff_prefix {s : σ} {es : List ε} :
    Always step P s es ↔
      ∀ pre t, pre <+: es → run step s pre = .ok t → P t := by
  induction es generalizing s with
  | nil =>
    constructor
    · intro h pre t hpre hrun
      rw [List.prefix_nil.mp hpre] at hrun
      cases hrun
      exact h
    · intro h
      exact h [] s (List.prefix_refl _) rfl
  | cons e es ih =>
    constructor
    · rintro ⟨hhead, htail⟩ pre t hpre hrun
      cases pre with
      | nil => cases hrun; exact hhead
      | cons d pre =>
        obtain ⟨rfl, hpre'⟩ := List.cons_prefix_cons.mp hpre
        obtain ⟨s', hstep, hrun'⟩ := run_cons_ok.mp hrun
        exact ih.mp (htail s' hstep) pre t hpre' hrun'
    · intro h
      refine ⟨h [] s (List.nil_prefix) rfl, fun s' hstep => ih.mpr ?_⟩
      intro pre t hpre hrun
      exact h (e :: pre) t (List.cons_prefix_cons.mpr ⟨rfl, hpre⟩)
        (run_cons_ok.mpr ⟨s', hstep, hrun⟩)

/-- `EachStep` is what it says: the condition holds of every event, in the state
the run has reached when the event is tried. -/
theorem eachStep_iff_prefix {s : σ} {es : List ε} :
    EachStep step C s es ↔
      ∀ pre e t, pre ++ [e] <+: es → run step s pre = .ok t → C t e := by
  induction es generalizing s with
  | nil =>
    simp only [EachStep, true_iff]
    intro pre e t hpre
    exact absurd (List.prefix_nil.mp hpre) (by simp)
  | cons e es ih =>
    constructor
    · rintro ⟨hhead, htail⟩ pre d t hpre hrun
      cases pre with
      | nil =>
        cases hrun
        obtain ⟨rfl, -⟩ := List.cons_prefix_cons.mp hpre
        exact hhead
      | cons d' pre =>
        obtain ⟨rfl, hpre'⟩ := List.cons_prefix_cons.mp hpre
        obtain ⟨s', hstep, hrun'⟩ := run_cons_ok.mp hrun
        exact ih.mp (htail s' hstep) pre d t hpre' hrun'
    · intro h
      refine ⟨h [] e s (List.cons_prefix_cons.mpr ⟨rfl, List.nil_prefix⟩) rfl,
        fun s' hstep => ih.mpr ?_⟩
      intro pre d t hpre hrun
      exact h (e :: pre) d t (List.cons_prefix_cons.mpr ⟨rfl, hpre⟩)
        (run_cons_ok.mpr ⟨s', hstep, hrun⟩)

/-- A condition that holds of the events in every state. -/
theorem eachStep_of_forall {s : σ} {es : List ε} (h : ∀ t, ∀ e ∈ es, C t e) :
    EachStep step C s es :=
  eachStep_iff_prefix.mpr fun _ e t hpre _ =>
    h t e (hpre.subset (List.mem_append_right _ List.mem_cons_self))

instance decidableEachStep [∀ s e, Decidable (C s e)] :
    (s : σ) → (es : List ε) → Decidable (EachStep step C s es)
  | _, [] => isTrue trivial
  | s, e :: es =>
    match hstep : step s e with
    | .ok s' =>
      have := decidableEachStep s' es
      decidable_of_iff (C s e ∧ EachStep step C s' es) (by simp [EachStep, hstep])
    | .error x => decidable_of_iff (C s e) (by simp [EachStep, hstep])

instance decidableAlways [DecidablePred P] :
    (s : σ) → (es : List ε) → Decidable (Always step P s es)
  | s, [] => inferInstanceAs (Decidable (P s))
  | s, e :: es =>
    match hstep : step s e with
    | .ok s' =>
      have := decidableAlways s' es
      decidable_of_iff (P s ∧ Always step P s' es) (by simp [Always, hstep])
    | .error x => decidable_of_iff (P s) (by simp [Always, hstep])

/-! ### Rules -/

/-- **The invariant rule.** What every step preserves holds after every run. -/
theorem run_invariant (keep : ∀ s e s', I s → step s e = .ok s' → I s')
    {s t : σ} {es : List ε} (hI : I s) (hrun : run step s es = .ok t) : I t := by
  induction es generalizing s with
  | nil => cases hrun; exact hI
  | cons e es ih =>
    obtain ⟨s', hstep, hrun'⟩ := run_cons_ok.mp hrun
    exact ih (keep s e s' hI hstep) hrun'

/-- The invariant rule, for every state of the run. -/
theorem always_of_invariant (keep : ∀ s e s', I s → step s e = .ok s' → I s')
    (good : ∀ s, I s → P s) {s : σ} {es : List ε} (hI : I s) : Always step P s es :=
  always_iff_prefix.mpr fun _ _ _ hrun => good _ (run_invariant keep hI hrun)

/-- The invariant rule under a condition on the events, for every state of the run. -/
theorem always_of_eachStep (keep : ∀ s e s', I s → C s e → step s e = .ok s' → I s')
    (good : ∀ s, I s → P s) {s : σ} {es : List ε} (hI : I s) (hC : EachStep step C s es) :
    Always step P s es := by
  induction es generalizing s with
  | nil => exact good s hI
  | cons e es ih =>
    exact ⟨good s hI, fun s' hstep => ih (keep s e s' hI hC.1 hstep) (hC.2 s' hstep)⟩

/-- The invariant rule, for every step of the run. -/
theorem eachStep_of_invariant (keep : ∀ s e s', I s → step s e = .ok s' → I s')
    (good : ∀ s e, I s → C s e) {s : σ} {es : List ε} (hI : I s) : EachStep step C s es :=
  eachStep_iff_prefix.mpr fun _ e _ _ hrun => good _ e (run_invariant keep hI hrun)

/-- **The refinement rule.** If every step that meets the condition succeeds, and
a function on the abstract states goes along with it, then so it is with runs. -/
theorem run_refines {τ : Type*} {f : τ → ε → τ} {R : σ → τ → Prop}
    (keep : ∀ s a e, R s a → C s e → ∃ s', step s e = .ok s' ∧ R s' (f a e))
    {s : σ} {a : τ} {es : List ε} (hR : R s a) (hC : EachStep step C s es) :
    ∃ t, run step s es = .ok t ∧ R t (es.foldl f a) := by
  induction es generalizing s a with
  | nil => exact ⟨s, rfl, hR⟩
  | cons e es ih =>
    obtain ⟨s', hstep, hR'⟩ := keep s a e hR hC.1
    obtain ⟨t, hrun, hRt⟩ := ih hR' (hC.2 s' hstep)
    exact ⟨t, run_cons_ok.mpr ⟨s', hstep, hrun⟩, hRt⟩

/-- **The exact-condition rule.** Let `I` imply the goal `P` and be kept by the
steps that meet `C`, and let a step that does not meet `C` complete and break
`P`. Then `P` holds along a run exactly when all its steps meet `C`. -/
theorem always_iff_eachStep (good : ∀ s, I s → P s)
    (keep : ∀ s e s', I s → C s e → step s e = .ok s' → I s')
    (breaks : ∀ s e, I s → ¬ C s e → ∃ s', step s e = .ok s' ∧ ¬ P s')
    {s : σ} {es : List ε} (hI : I s) :
    Always step P s es ↔ EachStep step C s es := by
  induction es generalizing s with
  | nil => exact ⟨fun _ => trivial, fun _ => good s hI⟩
  | cons e es ih =>
    constructor
    · rintro ⟨-, htail⟩
      have hC : C s e := by
        by_contra hn
        obtain ⟨s', hstep, hbad⟩ := breaks s e hI hn
        exact hbad (htail s' hstep).head
      exact ⟨hC, fun s' hstep => (ih (keep s e s' hI hC hstep)).mp (htail s' hstep)⟩
    · rintro ⟨hC, htail⟩
      exact ⟨good s hI,
        fun s' hstep => (ih (keep s e s' hI hC hstep)).mpr (htail s' hstep)⟩

/-- Two conditions on steps are met along the same runs, if they agree wherever an
invariant holds that one of them keeps. -/
theorem eachStep_iff {D : σ → ε → Prop} (agree : ∀ s e, I s → (D s e ↔ C s e))
    (keep : ∀ s e s', I s → C s e → step s e = .ok s' → I s')
    {s : σ} {es : List ε} (hI : I s) : EachStep step D s es ↔ EachStep step C s es := by
  induction es generalizing s with
  | nil => exact Iff.rfl
  | cons e es ih =>
    constructor
    · rintro ⟨hD, htail⟩
      have hC := (agree s e hI).mp hD
      exact ⟨hC, fun s' hstep => (ih (keep s e s' hI hC hstep)).mp (htail s' hstep)⟩
    · rintro ⟨hC, htail⟩
      exact ⟨(agree s e hI).mpr hC,
        fun s' hstep => (ih (keep s e s' hI hC hstep)).mpr (htail s' hstep)⟩

end Transition
