import PointIPad.Menu
import PointIPad.OrderOperation
import PointIPad.Tables

/-!
Re-opening a table.

The screen of a table is its first controller on the first visit, and a copy of
it on every later one. What later visits do to the fields of the copy is lost
when it is left, because the first controller is kept; what they do to the three
stacks is not, because these are shared.

**Main result** (`resumes_iff`). Along every run, each table is opened again the
way it was last left exactly when each table, whenever it is opened again, was
last left at the place in the menu where its first visit left it.
-/

namespace PointIPad

open Transition

/-! ### What a screen shows of the menu -/

/-- The fields that lead through the menu and are copied. -/
structure MenuPosition where
  currentMenuItems : List String
  isActualItems : Bool
  isSubclass : Bool
  classNameForDatabase : Option String
  subclassNameForDatabase : Option String
  selectedItemId : Option NSNumber
deriving DecidableEq

def QuickServeController.position (s : QuickServeController) : MenuPosition where
  currentMenuItems := s.currentMenuItems
  isActualItems := s.isActualItems
  isSubclass := s.isSubclass
  classNameForDatabase := s.classNameForDatabase
  subclassNameForDatabase := s.subclassNameForDatabase
  selectedItemId := s.selectedItemId

def QuickServe.view (s : QuickServe) : MenuPosition × MenuStacks := (s.position, s.menuStacks)

/-- The menu, the flags and the three stacks are those of one place in the menu; in
particular the stacks are as deep as its level. -/
def OnMenu (db : DatabaseAccess) (s : QuickServe) : Prop := ∃ path, AtPath db path s

section View

variable {db : DatabaseAccess} {s s' : QuickServe}

theorem OnMenu.of_view (h : OnMenu db s) (same : s'.view = s.view) : OnMenu db s' := by
  obtain ⟨path, hmenu, hsub, hitems, hstacks⟩ := h
  obtain ⟨hposition, hsame⟩ := Prod.mk.inj same
  have menu : s'.currentMenuItems = s.currentMenuItems :=
    congrArg MenuPosition.currentMenuItems hposition
  have sub : s'.isSubclass = s.isSubclass := congrArg MenuPosition.isSubclass hposition
  have items : s'.isActualItems = s.isActualItems := congrArg MenuPosition.isActualItems hposition
  exact ⟨path, menu.trans hmenu, sub.trans hsub, items.trans hitems, hsame.trans hstacks⟩

theorem showTotals_view (order : Orders) :
    (QuickServe.showTotals { s with order := order }).view = s.view := by
  obtain ⟨_, _, h⟩ := QuickServe.showTotals_frame (s := { s with order := order })
  rw [h]
  rfl

/-- Appearing changes labels only. -/
theorem viewWillAppear_view (h : s.viewWillAppear db = .ok s') : s'.view = s.view := by
  obtain ⟨order, -, rfl⟩ := QuickServe.updateTotalOfOrderLabels_ok h
  exact showTotals_view order

/-- A stepper changes the order and labels only. -/
theorem stepperValueChanged_view {row : Nat} {value : Int}
    (h : s.stepperValueChanged db row value = .ok s') : s'.view = s.view := by
  rw [QuickServe.stepperValueChanged_eq] at h
  cases horder : s.order.stepperValueChanged db row value with
  | error e =>
    rw [horder] at h
    cases h
  | ok order =>
    rw [horder] at h
    cases h
    exact showTotals_view order

/-- No event leaves the menu. -/
theorem selectStep_onMenu {s s' : Selecting} {e : SelectEvent} (h : OnMenu db s.screen)
    (hstep : selectStep db s e = .ok s') : OnMenu db s'.screen := by
  cases selectStep_inv hstep with
  | tap hscreen =>
    obtain ⟨path, hpath⟩ := h
    obtain ⟨name, -, hname⟩ := bind_eq_ok.mp hscreen
    exact ⟨_, handleName_atPath hpath hname⟩
  | back =>
    obtain ⟨path, hpath⟩ := h
    exact ⟨_, flipBackMenuItems_atPath hpath⟩
  | selectRow _ =>
    obtain ⟨path, hpath⟩ := h
    exact ⟨path, hpath.currentMenuItems, hpath.isSubclass, hpath.isActualItems, hpath.menuStacks⟩
  | stepperValueChanged hscreen => exact h.of_view (stepperValueChanged_view hscreen)
  | openModifiers => exact h
  | toggle _ => exact h.of_view rfl
  | closeModifiers hscreen => exact h.of_view (viewWillAppear_view hscreen)
  | ignored _ => exact h

end View

/-! ### Visits -/

/-- The app, the table that was opened last, and how the screen of each table was
when it was left for the first and for the last time. -/
structure Visits where
  app : App
  opened : Option Int32
  firstLeft : Int32 → Option QuickServe
  lastLeft : Int32 → Option QuickServe

def Visits.init (tables : List String) : Visits :=
  ⟨.init tables, none, fun _ => none, fun _ => none⟩

/-- The table that an event leaves, with its screen. -/
def leftScreen (s : App) (opened : Option Int32) (e : AppEvent) : Option (Int32 × QuickServe) :=
  match s.shown, opened, e with
  | some (c, none), some t, .leave => some (t, s.load c)
  | _, _, _ => none

theorem leftScreen_eq_none {s : App} {opened : Option Int32} {e : AppEvent}
    (stays : ∀ c, s.shown = some (c, none) → e ≠ .leave) : leftScreen s opened e = none := by
  unfold leftScreen
  split
  · rename_i shown
    exact absurd rfl (stays _ shown)
  · rfl

/-- Notes a screen that is left. -/
def Visits.note (s : Visits) : Option (Int32 × QuickServe) → Visits
  | some (t, screen) => { s with
      firstLeft := Function.update s.firstLeft t (some ((s.firstLeft t).getD screen))
      lastLeft := Function.update s.lastLeft t (some screen) }
  | none => s

def visitStep (db : DatabaseAccess) (s : Visits) (e : AppEvent) : Except NSException Visits := do
  let app ← appStep db s.app e
  .ok { s.note (leftScreen s.app s.opened e) with
    app := app
    opened := openedAfter s.app s.opened e }

/-- A table that is opened again shows what it showed when it was last left, with
stacks as deep as the level of its menu. -/
def Resumes (db : DatabaseAccess) (s : Visits) (e : AppEvent) : Prop :=
  ∀ t left, e = .reopenTable t → s.app.shown = none → s.lastLeft t = some left →
    ∀ s' c, visitStep db s e = .ok s' → s'.app.shown = some (c, none) →
      (s'.app.load c).view = left.view ∧ OnMenu db (s'.app.load c)

/-- A table that is opened again was last left where its first visit left it. -/
def LeftAsFirst (s : Visits) (e : AppEvent) : Prop :=
  match s.app.shown, e with
  | none, .reopenTable t =>
    (s.lastLeft t).map (fun q => q.position) = (s.firstLeft t).map (fun q => q.position)
  | _, _ => True

instance (s : Visits) (e : AppEvent) : Decidable (LeftAsFirst s e) := by
  unfold LeftAsFirst
  split <;> infer_instance

theorem leftAsFirst_reopenTable {s : Visits} (home : s.app.shown = none) (t : Int32) :
    LeftAsFirst s (.reopenTable t) ↔
      (s.lastLeft t).map (fun q => q.position) = (s.firstLeft t).map (fun q => q.position) := by
  simp only [LeftAsFirst, home]

/-! ### The invariant -/

/-- The controller kept for a table is on the screen until the first visit ends,
and has not changed since; the stacks are as the last visit left them. -/
structure VisitInvariant (db : DatabaseAccess) (tables : List String) (s : Visits) : Prop where
  seating : Seating tables s.app s.opened
  computed : ∀ t kept, s.app.quickServeDictionary.lookup t = some kept →
    (∀ c shown, s.app.shown = some (c, some shown) → s.opened ≠ some t) →
      (s.app.objects kept).order.updateTotals db = .ok (s.app.objects kept).order
  computed_shown : ∀ c, s.app.shown = some (c, none) →
    (s.app.objects c).order.updateTotals db = .ok (s.app.objects c).order
  firstLeft_iff : ∀ t, s.firstLeft t = none ↔ s.lastLeft t = none
  left_mem : ∀ t, t ∉ s.app.quickServeDictionary → s.lastLeft t = none
  first_visit : ∀ t kept, s.app.quickServeDictionary.lookup t = some kept →
    s.firstLeft t = none → s.opened = some t ∧ ∃ modifiers, s.app.shown = some (kept, modifiers)
  frozen : ∀ t kept first, s.app.quickServeDictionary.lookup t = some kept →
    s.firstLeft t = some first →
      (s.app.load kept).position = first.position ∧
        ∀ c modifiers, s.app.shown = some (c, modifiers) → kept ≠ c
  menuStacks : ∀ t kept last, s.app.quickServeDictionary.lookup t = some kept →
    s.lastLeft t = some last →
      (∀ c modifiers, s.app.shown = some (c, modifiers) → s.opened ≠ some t) →
        (s.app.objects kept).menuStacks = last.menuStacks
  onMenu_left : ∀ t last, s.lastLeft t = some last → OnMenu db last
  onMenu_shown : ∀ c modifiers, s.app.shown = some (c, modifiers) → OnMenu db (s.app.load c)

section Visits

variable {db : DatabaseAccess} {tables : List String} {s s' : Visits} {e : AppEvent}

theorem visitInvariant_init (numbered : Numbered tables) :
    VisitInvariant db tables (.init tables) where
  seating := seating_init numbered
  computed := fun t kept h => by simp [Visits.init, App.init] at h
  computed_shown := fun _ h => by cases h
  firstLeft_iff := fun _ => Iff.rfl
  left_mem := fun _ _ => rfl
  first_visit := fun t kept h => by simp [Visits.init, App.init] at h
  frozen := fun t kept first h => by simp [Visits.init, App.init] at h
  menuStacks := fun t kept last h => by simp [Visits.init, App.init] at h
  onMenu_left := fun _ _ h => by cases h
  onMenu_shown := fun _ _ h => by cases h

/-- A screen appears when the totals of its order can be computed. -/
theorem viewWillAppear_succeeds {q : QuickServe} {order : Orders}
    (h : q.order.updateTotals db = .ok order) : ∃ q', q.viewWillAppear db = .ok q' := by
  rw [QuickServe.viewWillAppear, QuickServe.updateTotalOfOrderLabels_eq, h]
  exact ⟨_, rfl⟩

/-- At the home screen every kept controller is at the end of its first visit. -/
theorem VisitInvariant.firstLeft_of_home (h : VisitInvariant db tables s)
    (home : s.app.shown = none) {t : Int32} {kept : Addr}
    (hkept : s.app.quickServeDictionary.lookup t = some kept) :
    ∃ first, s.firstLeft t = some first := by
  cases hfirst : s.firstLeft t with
  | none =>
    obtain ⟨-, modifiers, hshown⟩ := h.first_visit t kept hkept hfirst
    rw [home] at hshown
    cases hshown
  | some first => exact ⟨first, rfl⟩

/-- **What a re-opened screen shows**: the place in the menu where the first visit
left it, with the stacks that the last visit left. -/
theorem VisitInvariant.reopens (h : VisitInvariant db tables s) (home : s.app.shown = none)
    {t : Int32} {last : QuickServe} (hlast : s.lastLeft t = some last) :
    ∃ first s' c, s.firstLeft t = some first ∧ visitStep db s (.reopenTable t) = .ok s' ∧
      s'.app.shown = some (c, none) ∧
      (s'.app.load c).view = (first.position, last.menuStacks) := by
  have mem : t ∈ s.app.quickServeDictionary := by
    by_contra absent
    rw [h.left_mem t absent] at hlast
    cases hlast
  obtain ⟨kept, hkept⟩ := Finmap.mem_iff.mp mem
  obtain ⟨first, hfirst⟩ := h.firstLeft_of_home home hkept
  have nothing {c : Addr} {modifiers : Option QuickModifierController}
      (hshown : s.app.shown = some (c, modifiers)) : False := by
    rw [home] at hshown
    cases hshown
  have computed := h.computed t kept hkept fun c shown hshown => (nothing hshown).elim
  have hstacks := h.menuStacks t kept last hkept hlast fun c m hshown => (nothing hshown).elim
  have position := (h.frozen t kept first hkept hfirst).1
  obtain ⟨lt, ref_lt⟩ := h.seating.inUse t kept hkept
  obtain ⟨q, hq⟩ : ∃ q, (s.app.load kept).resumed.viewWillAppear db = .ok q :=
    viewWillAppear_succeeds computed
  have happ : appStep db s.app (.reopenTable t) = .ok
      { (s.app.openOccupied kept).store s.app.controllers.next q with
        shown := some (s.app.controllers.next, none) } := by
    simp only [appStep, home, App.reopenTable, hkept, App.appear,
      App.load_openOccupied lt ref_lt, hq, ok_bind]
  refine ⟨first, _, s.app.controllers.next, hfirst, by rw [visitStep, happ]; rfl, rfl, ?_⟩
  show (((s.app.openOccupied kept).store s.app.controllers.next q).load _).view = _
  rw [App.load_store, viewWillAppear_view hq, ← position, ← hstacks]
  rfl

/-- A re-opened screen is as it was left exactly when that is where the first visit
ended. -/
theorem VisitInvariant.resumes_iff_leftAsFirst (h : VisitInvariant db tables s) :
    Resumes db s e ↔ LeftAsFirst s e := by
  constructor
  · intro resumes
    unfold LeftAsFirst
    split
    · rename_i t home
      cases hlast : s.lastLeft t with
      | none => rw [(h.firstLeft_iff t).mpr hlast]
      | some last =>
        obtain ⟨first, s', c, hfirst, hstep, hshown, hview⟩ := h.reopens home hlast
        obtain ⟨same, -⟩ := resumes t last rfl home hlast s' c hstep hshown
        have position : first.position = last.position :=
          congrArg Prod.fst (hview.symm.trans same)
        rw [hfirst, Option.map_some, Option.map_some, position]
    · trivial
  · intro asFirst t last he home hlast s' c hstep hshown
    obtain ⟨first, s₁, c₁, hfirst, hstep₁, hshown₁, hview⟩ := h.reopens home hlast
    rw [he, hstep₁] at hstep
    cases hstep
    rw [hshown₁] at hshown
    cases hshown
    rw [he, leftAsFirst_reopenTable home, hlast, hfirst] at asFirst
    have position : last.position = first.position := Option.some.inj asFirst
    have same : (s'.app.load c).view = last.view := by
      rw [hview, ← position]
      rfl
    exact ⟨same, (h.onMenu_left t last hlast).of_view same⟩

/-! ### What steps keep -/

/-- The controllers that are kept are not touched when another is made. -/
theorem VisitInvariant.position_of_creates (h : VisitInvariant db tables s) {app : App} {ref : Addr}
    (creates : Creates s.app app ref) {t : Int32} {kept : Addr}
    (hkept : s.app.quickServeDictionary.lookup t = some kept) :
    (app.load kept).position = (s.app.load kept).position ∧ kept ≠ s.app.controllers.next := by
  have lt := (h.seating.inUse t kept hkept).1
  have same := creates.controllers_get kept lt
  refine ⟨?_, Nat.ne_of_lt lt⟩
  show (app.controllers.get kept).position = (s.app.controllers.get kept).position
  rw [same]

/-- A screen that has just appeared shows computed totals. -/
theorem computed_of_opens {s s' : App} {ref : Addr} {q q₀ : QuickServe} (opens : Opens s s' ref q)
    (appears : q₀.viewWillAppear db = .ok q) :
    (s'.objects s.controllers.next).order.updateTotals db =
      .ok (s'.objects s.controllers.next).order := by
  have hq : (s'.objects s.controllers.next).order = q.order := congrArg QuickServe.order opens.load
  rw [hq]
  exact Orders.updateTotals_idempotent (QuickServe.viewWillAppear_order appears)

/-- A screen is opened at the class menu, for a free table or for none. -/
theorem VisitInvariant.openAtClasses (h : VisitInvariant db tables s) (home : s.app.shown = none)
    {app : App} {q : QuickServe} {tableNumber opened : Option Int32}
    (appears : (QuickServe.init db.classNames tableNumber).viewWillAppear db = .ok q)
    (opens : Opens s.app app s.app.shared.next q) (seating : Seating tables app opened)
    (kept_cases : ∀ t kept, app.quickServeDictionary.lookup t = some kept →
      s.app.quickServeDictionary.lookup t = some kept ∨
        t ∉ s.app.quickServeDictionary ∧ kept = s.app.controllers.next ∧ opened = some t)
    (unoccupied : ∀ t, t ∉ app.quickServeDictionary → t ∉ s.app.quickServeDictionary) :
    VisitInvariant db tables { s with app := app, opened := opened } where
  seating := seating
  computed := fun t kept hkept _ => by
    have computed := computed_of_opens opens appears
    rcases kept_cases t kept hkept with hkept | ⟨-, rfl, -⟩
    · show (app.objects kept).order.updateTotals db = .ok (app.objects kept).order
      rw [h.seating.objects_created opens hkept]
      refine h.computed t kept hkept fun c shown hshown => ?_
      rw [home] at hshown
      cases hshown
    · exact computed
  computed_shown := fun c hshown => by
    cases opens.shown.symm.trans hshown
    exact computed_of_opens opens appears
  firstLeft_iff := h.firstLeft_iff
  left_mem := fun t ht => h.left_mem t (unoccupied t ht)
  first_visit := fun t kept hkept hfirst => by
    rcases kept_cases t kept hkept with hkept | ⟨-, rfl, hopened⟩
    · obtain ⟨first, hsome⟩ := h.firstLeft_of_home home hkept
      rw [hsome] at hfirst
      cases hfirst
    · exact ⟨hopened, none, opens.shown⟩
  frozen := fun t kept first hkept hfirst => by
    rcases kept_cases t kept hkept with hkept | ⟨absent, -, -⟩
    · obtain ⟨same, ne⟩ := h.position_of_creates opens.toCreates hkept
      refine ⟨same.trans (h.frozen t kept first hkept hfirst).1, fun c modifiers hshown => ?_⟩
      cases opens.shown.symm.trans hshown
      exact ne
    · have none := (h.firstLeft_iff t).mpr (h.left_mem t absent)
      rw [none] at hfirst
      cases hfirst
  menuStacks := fun t kept last hkept hlast _ => by
    rcases kept_cases t kept hkept with hkept | ⟨absent, -, -⟩
    · show (app.objects kept).menuStacks = last.menuStacks
      rw [h.seating.objects_created opens hkept]
      refine h.menuStacks t kept last hkept hlast fun c modifiers hshown => ?_
      rw [home] at hshown
      cases hshown
    · rw [h.left_mem t absent] at hlast
      cases hlast
  onMenu_left := h.onMenu_left
  onMenu_shown := fun c modifiers hshown => by
    cases opens.shown.symm.trans hshown
    rw [opens.load]
    have start : OnMenu db (.init db.classNames tableNumber) := ⟨.classes, atPath_init db _⟩
    exact start.of_view (viewWillAppear_view appears)

/-- A table that was last left where its first visit left it is opened again. -/
theorem VisitInvariant.reopen (h : VisitInvariant db tables s) (home : s.app.shown = none)
    {app : App} {t : Int32} {occupied : Addr} {q : QuickServe} {opened : Option Int32}
    (asFirst : LeftAsFirst s (.reopenTable t))
    (listed : s.app.quickServeDictionary.lookup t = some occupied)
    (appears : (s.app.load occupied).resumed.viewWillAppear db = .ok q)
    (opens : Opens s.app app (s.app.controllers.get occupied).shared q)
    (dictionary : app.quickServeDictionary = s.app.quickServeDictionary)
    (seating : Seating tables app opened) (hopened : opened = some t) :
    VisitInvariant db tables { s with app := app, opened := opened } where
  seating := seating
  computed := fun t' kept hkept _ => by
    have hkept : s.app.quickServeDictionary.lookup t' = some kept := dictionary ▸ hkept
    show (app.objects kept).order.updateTotals db = .ok (app.objects kept).order
    rw [h.seating.objects_reopened opens listed hkept]
    split
    · exact Orders.updateTotals_idempotent (QuickServe.viewWillAppear_order appears)
    · refine h.computed t' kept hkept fun c shown hshown => ?_
      rw [home] at hshown
      cases hshown
  computed_shown := fun c hshown => by
    cases opens.shown.symm.trans hshown
    exact computed_of_opens opens appears
  firstLeft_iff := h.firstLeft_iff
  left_mem := fun t' ht' => h.left_mem t' (dictionary ▸ ht')
  first_visit := fun t' kept hkept hfirst => by
    obtain ⟨first, hsome⟩ := h.firstLeft_of_home home (dictionary ▸ hkept)
    rw [hsome] at hfirst
    cases hfirst
  frozen := fun t' kept first hkept hfirst => by
    have hkept : s.app.quickServeDictionary.lookup t' = some kept := dictionary ▸ hkept
    obtain ⟨same, ne⟩ := h.position_of_creates opens.toCreates hkept
    refine ⟨same.trans (h.frozen t' kept first hkept hfirst).1, fun c modifiers hshown => ?_⟩
    cases opens.shown.symm.trans hshown
    exact ne
  menuStacks := fun t' kept last hkept hlast other => by
    have hkept : s.app.quickServeDictionary.lookup t' = some kept := dictionary ▸ hkept
    have ne : t' ≠ t := fun same => other _ _ opens.shown (same ▸ hopened)
    show (app.objects kept).menuStacks = last.menuStacks
    rw [h.seating.objects_reopened opens listed hkept, if_neg ne]
    refine h.menuStacks t' kept last hkept hlast fun c modifiers hshown => ?_
    rw [home] at hshown
    cases hshown
  onMenu_left := h.onMenu_left
  onMenu_shown := fun c modifiers hshown => by
    cases opens.shown.symm.trans hshown
    obtain ⟨first, hfirst⟩ := h.firstLeft_of_home home listed
    cases hlast : s.lastLeft t with
    | none =>
      rw [(h.firstLeft_iff t).mpr hlast] at hfirst
      cases hfirst
    | some last =>
      have hstacks : (s.app.objects occupied).menuStacks = last.menuStacks := by
        refine h.menuStacks t occupied last listed hlast fun c modifiers hshown => ?_
        rw [home] at hshown
        cases hshown
      have same : (s.app.load occupied).view = last.view := by
        rw [leftAsFirst_reopenTable home, hlast, hfirst] at asFirst
        have position : last.position = first.position := Option.some.inj asFirst
        rw [QuickServe.view, QuickServe.view, (h.frozen t occupied first listed hfirst).1,
          ← position, ← hstacks]
        rfl
      rw [opens.load]
      exact (h.onMenu_left t last hlast).of_view ((viewWillAppear_view appears).trans same)

/-- The open screen is used. -/
theorem VisitInvariant.store (h : VisitInvariant db tables s) {c : Addr}
    {modifiers modifiers' : Option QuickModifierController} {q : QuickServe}
    (shown : s.app.shown = some (c, modifiers)) (onMenu : OnMenu db q)
    (computed : modifiers' = none → q.order.updateTotals db = .ok q.order) :
    VisitInvariant db tables
      { s with app := { s.app.store c q with shown := some (c, modifiers') } } where
  seating := h.seating.store shown q
  computed := fun t kept hkept other => by
    show ((s.app.store c q).objects kept).order.updateTotals db =
      .ok ((s.app.store c q).objects kept).order
    rw [h.seating.objects_store shown hkept q]
    split
    · rename_i same
      cases hmodifiers : modifiers' with
      | none => exact computed hmodifiers
      | some open' => exact absurd same (other c open' (by rw [hmodifiers]))
    · rename_i ne
      exact h.computed t kept hkept fun _ _ _ => ne
  computed_shown := fun c' hshown => by
    obtain ⟨rfl, closed⟩ := Prod.mk.inj (Option.some.inj hshown)
    have hobjects : (s.app.store c q).objects c = ⟨q.order, q.menuStacks⟩ :=
      App.objects_store_of_ref_eq rfl
    show ((s.app.store c q).objects c).order.updateTotals db =
      .ok ((s.app.store c q).objects c).order
    rw [hobjects]
    exact computed closed
  firstLeft_iff := h.firstLeft_iff
  left_mem := h.left_mem
  first_visit := fun t kept hkept hfirst => by
    obtain ⟨hopened, m, hshown⟩ := h.first_visit t kept hkept hfirst
    cases shown.symm.trans hshown
    exact ⟨hopened, modifiers', rfl⟩
  frozen := fun t kept first hkept hfirst => by
    obtain ⟨position, apart⟩ := h.frozen t kept first hkept hfirst
    have ne := apart c modifiers shown
    refine ⟨?_, fun c' m hshown => ?_⟩
    · show ((s.app.store c q).controllers.get kept).position = first.position
      rw [App.store_controllers_get ne]
      exact position
    · cases hshown
      exact ne
  menuStacks := fun t kept last hkept hlast other => by
    have ne : s.opened ≠ some t := other c modifiers' rfl
    show ((s.app.store c q).objects kept).menuStacks = last.menuStacks
    rw [h.seating.objects_store shown hkept q, if_neg ne]
    exact h.menuStacks t kept last hkept hlast fun _ _ _ => ne
  onMenu_left := h.onMenu_left
  onMenu_shown := fun c' m hshown => by
    cases hshown
    show OnMenu db ((s.app.store c q).load c)
    rw [App.load_store]
    exact onMenu

/-- The screen of a table is left: its first visit ends, if it was still on. -/
theorem VisitInvariant.leaveTable (h : VisitInvariant db tables s) {c : Addr} {t : Int32}
    (shown : s.app.shown = some (c, none)) (hopened : s.opened = some t) :
    VisitInvariant db tables { s.note (some (t, s.app.load c)) with
      app := { s.app with shown := none }
      opened := s.opened } where
  seating := h.seating.leave _
  computed := fun t' kept hkept _ => by
    refine h.computed t' kept hkept fun c' open' hshown => ?_
    cases shown.symm.trans hshown
  computed_shown := fun _ hshown => by cases hshown
  firstLeft_iff := fun t' => by
    show Function.update s.firstLeft t _ t' = none ↔ Function.update s.lastLeft t _ t' = none
    by_cases same : t' = t
    · subst same
      simp
    · rw [Function.update_of_ne same, Function.update_of_ne same]
      exact h.firstLeft_iff t'
  left_mem := fun t' ht' => by
    have same : t' ≠ t := fun same => ht' (same ▸ h.seating.opened_mem c none t shown hopened)
    show Function.update s.lastLeft t _ t' = none
    rw [Function.update_of_ne same]
    exact h.left_mem t' ht'
  first_visit := fun t' kept hkept hfirst => by
    have hfirst : Function.update s.firstLeft t _ t' = none := hfirst
    by_cases same : t' = t
    · subst same
      simp at hfirst
    · rw [Function.update_of_ne same] at hfirst
      obtain ⟨hopened', -⟩ := h.first_visit t' kept hkept hfirst
      exact absurd (Option.some.inj (hopened'.symm.trans hopened)) same
  frozen := fun t' kept first hkept hfirst => by
    have hfirst : Function.update s.firstLeft t _ t' = some first := hfirst
    refine ⟨?_, fun _ _ hshown => by cases hshown⟩
    by_cases same : t' = t
    · subst same
      rw [Function.update_self, Option.some.injEq] at hfirst
      cases hold : s.firstLeft t' with
      | none =>
        -- the controller that is kept was on the screen
        obtain ⟨-, m, hshown⟩ := h.first_visit t' kept hkept hold
        cases shown.symm.trans hshown
        rw [hold] at hfirst
        rw [← hfirst]
        rfl
      | some first' =>
        rw [hold] at hfirst
        rw [← hfirst]
        exact (h.frozen t' kept first' hkept hold).1
    · rw [Function.update_of_ne same] at hfirst
      exact (h.frozen t' kept first hkept hfirst).1
  menuStacks := fun t' kept last hkept hlast _ => by
    have hlast : Function.update s.lastLeft t _ t' = some last := hlast
    show (s.app.objects kept).menuStacks = last.menuStacks
    by_cases same : t' = t
    · subst same
      rw [Function.update_self] at hlast
      rw [← h.seating.objects_shown shown hkept hopened, ← Option.some.inj hlast]
      rfl
    · rw [Function.update_of_ne same] at hlast
      refine h.menuStacks t' kept last hkept hlast fun _ _ _ heq => ?_
      exact same (Option.some.inj (heq.symm.trans hopened))
  onMenu_left := fun t' last hlast => by
    have hlast : Function.update s.lastLeft t _ t' = some last := hlast
    by_cases same : t' = t
    · subst same
      rw [Function.update_self] at hlast
      rw [← Option.some.inj hlast]
      exact h.onMenu_shown c none shown
    · rw [Function.update_of_ne same] at hlast
      exact h.onMenu_left t' last hlast
  onMenu_shown := fun _ _ hshown => by cases hshown

/-- A screen without a table is left, or nothing is left. -/
theorem VisitInvariant.home (h : VisitInvariant db tables s)
    (untabled : s.opened = none ∨ s.app.shown = none) (opened : Option Int32) :
    VisitInvariant db tables { s with app := { s.app with shown := none }, opened := opened } := by
  have visited {t : Int32} {kept : Addr}
      (hkept : s.app.quickServeDictionary.lookup t = some kept) : s.firstLeft t ≠ none := by
    intro hfirst
    obtain ⟨hopened, m, hshown⟩ := h.first_visit t kept hkept hfirst
    rcases untabled with none | home
    · rw [none] at hopened
      cases hopened
    · rw [home] at hshown
      cases hshown
  have other {t : Int32} {c : Addr} {m : Option QuickModifierController}
      (hshown : s.app.shown = some (c, m)) : s.opened ≠ some t := by
    rcases untabled with none | home
    · rw [none]
      exact fun heq => by cases heq
    · rw [home] at hshown
      cases hshown
  exact {
    seating := h.seating.leave opened
    computed := fun t kept hkept _ => h.computed t kept hkept fun _ _ => other
    computed_shown := fun _ hshown => by cases hshown
    firstLeft_iff := h.firstLeft_iff
    left_mem := h.left_mem
    first_visit := fun t kept hkept hfirst => absurd hfirst (visited hkept)
    frozen := fun t kept first hkept hfirst =>
      ⟨(h.frozen t kept first hkept hfirst).1, fun _ _ hshown => by cases hshown⟩
    menuStacks := fun t kept last hkept hlast _ =>
      h.menuStacks t kept last hkept hlast fun _ _ => other
    onMenu_left := h.onMenu_left
    onMenu_shown := fun _ _ hshown => by cases hshown }

/-- **Every step keeps the invariant** that opens no table whose last visit ended
elsewhere than its first. -/
theorem VisitInvariant.step (h : VisitInvariant db tables s) (numbered : Numbered tables)
    (asFirst : LeftAsFirst s e) (hstep : visitStep db s e = .ok s') :
    VisitInvariant db tables s' := by
  obtain ⟨app, happ, hs'⟩ := bind_eq_ok.mp hstep
  cases hs'
  have move := appStep_moves h.seating.inUse happ
  have seating := h.seating.move numbered move
  cases move with
  | pickTable home listed appears opens list dictionary =>
    rename_i row tableNum q
    have free := h.seating.not_occupied numbered (List.mem_of_getElem? listed)
    rw [leftScreen_eq_none (e := .pickTable row) fun _ _ h => by cases h]
    refine h.openAtClasses home appears opens seating (fun t kept hkept => ?_) fun t ht mem => ?_
    · rw [dictionary] at hkept
      by_cases same : t = integerValue tableNum
      · rw [same, Finmap.lookup_insert] at hkept
        cases hkept
        right
        refine ⟨same ▸ free, rfl, ?_⟩
        simp only [openedAfter, home, listed, Option.map_some, same]
      · rw [Finmap.lookup_insert_of_ne _ same] at hkept
        exact .inl hkept
    · rw [dictionary] at ht
      exact ht (Finmap.mem_insert.mpr (.inr mem))
  | reopenTable home listed appears opens list dictionary =>
    rename_i t occupied q
    rw [leftScreen_eq_none (e := .reopenTable t) fun _ _ h => by cases h]
    exact h.reopen home asFirst listed appears opens dictionary seating
      (by simp only [openedAfter, home])
  | onlyQuickServe home appears opens list dictionary =>
    rw [leftScreen_eq_none (e := .onlyQuickServe) fun _ _ h => by cases h]
    refine h.openAtClasses home appears opens seating (fun t kept hkept => ?_) fun t ht mem => ?_
    · exact .inl (dictionary ▸ hkept)
    · exact ht (dictionary ▸ mem)
  | leave shown =>
    rename_i c
    rw [openedAfter_of_shown shown]
    cases hopened : s.opened with
    | none =>
      have hleft : leftScreen s.app none .leave = none := by simp only [leftScreen, shown]
      rw [hleft]
      exact h.home (.inl hopened) none
    | some t =>
      have hleft : leftScreen s.app (some t) .leave = some (t, s.app.load c) := by
        simp only [leftScreen, shown]
      rw [hleft, ← hopened]
      exact h.leaveTable shown hopened
  | onScreen shown step =>
    rename_i c modifiers e next
    rw [leftScreen_eq_none (e := .onScreen e) (fun _ _ h => by cases h), openedAfter_of_shown shown]
    refine h.store shown (selectStep_onMenu (h.onMenu_shown c modifiers shown) step) fun closed => ?_
    refine selectStep_totals step closed fun none => ?_
    exact h.computed_shown c (shown.trans (congrArg (fun m => some (c, m)) none))
  | payAndReturn shown appears =>
    rename_i c q
    rw [leftScreen_eq_none (e := .payAndReturn) (fun _ _ h => by cases h), openedAfter_of_shown shown]
    exact h.store shown ((h.onMenu_shown c none shown).of_view (viewWillAppear_view appears))
      fun _ => Orders.updateTotals_idempotent (QuickServe.viewWillAppear_order appears)
  | notOffered offered =>
    cases hshown : s.app.shown with
    | none =>
      have still : s.app = { s.app with shown := none } := by
        rw [← hshown]
      rw [leftScreen_eq_none fun c hsome => by rw [hshown] at hsome; cases hsome]
      show VisitInvariant db tables { s with app := s.app, opened := openedAfter s.app s.opened e }
      rw [still]
      exact h.home (.inr hshown) _
    | some shown =>
      have stays : ∀ c, s.app.shown = some (c, none) → e ≠ .leave := by
        rcases offered with home | ⟨-, stays⟩
        · rw [hshown] at home
          cases home
        · exact stays
      rw [leftScreen_eq_none stays, openedAfter_of_shown hshown]
      exact h

end Visits

/-- **Main result.** Along every run, from any numbered tables and over every
database: each table that is opened again shows what it showed when it was last
left, with stacks as deep as its menu, exactly when each was last left where its
first visit left it. -/
theorem resumes_iff {tables : List String} (numbered : Numbered tables) (db : DatabaseAccess)
    (events : List AppEvent) :
    EachStep (visitStep db) (Resumes db) (.init tables) events ↔
      EachStep (visitStep db) LeftAsFirst (.init tables) events :=
  eachStep_iff (I := VisitInvariant db tables) (fun _ _ h => h.resumes_iff_leftAsFirst)
    (fun _ _ _ h asFirst hstep => h.step numbered asFirst hstep) (visitInvariant_init numbered)

/-- Both visits end on the items of the tea. -/
def endOnItems : List AppEvent :=
  [.pickTable 0, .onScreen (.tap 0), .leave, .reopenTable 1, .onScreen .back, .onScreen (.tap 0),
    .leave, .reopenTable 1]

theorem resumes_endOnItems :
    EachStep (visitStep teaWithExtra) (Resumes teaWithExtra)
      (.init HomeViewController.listOfTables) endOnItems :=
  (resumes_iff numbered_listOfTables teaWithExtra endOnItems).mpr (by decide +kernel)

/-- The first visit ends at the class menu, the second on the items of the tea. -/
def endElsewhere : List AppEvent :=
  [.pickTable 0, .leave, .reopenTable 1, .onScreen (.tap 0), .leave]

theorem does_not_resume :
    ¬ EachStep (visitStep teaWithExtra) (Resumes teaWithExtra)
      (.init HomeViewController.listOfTables) (endElsewhere ++ [.reopenTable 1]) := by
  intro resumes
  -- the screen was left on items, and is opened on classes
  have reopened : (run (visitStep teaWithExtra) (.init HomeViewController.listOfTables)
      endElsewhere >>= fun s => (visitStep teaWithExtra s (.reopenTable 1)).map fun s' =>
        (s.app.shown.isNone, (s.lastLeft 1).map fun q => q.isActualItems,
          s'.app.shown.map fun shown => (shown.2.isNone, (s'.app.load shown.1).isActualItems))) =
      .ok (true, some true, some (true, false)) := by
    decide +kernel
  obtain ⟨s, hrun, hmap⟩ := bind_eq_ok.mp reopened
  cases hstep : visitStep teaWithExtra s (.reopenTable 1) with
  | error e => rw [hstep] at hmap; cases hmap
  | ok s' =>
    rw [hstep] at hmap
    obtain ⟨hhome, hrest⟩ := Prod.mk.inj (Except.ok.inj hmap)
    obtain ⟨hleft, hshown⟩ := Prod.mk.inj hrest
    obtain ⟨left, hleft, hitems⟩ := Option.map_eq_some_iff.mp hleft
    obtain ⟨⟨c, modifiers⟩, hshown, hopened⟩ := Option.map_eq_some_iff.mp hshown
    obtain ⟨hclosed, hclasses⟩ := Prod.mk.inj hopened
    cases Option.isNone_iff_eq_none.mp hclosed
    have last := eachStep_iff_prefix.mp resumes endElsewhere (.reopenTable 1) s
      (List.prefix_refl _) hrun
    have same := (last 1 left rfl (Option.isNone_iff_eq_none.mp hhome) hleft s' c hstep hshown).1
    have items : (s'.app.load c).isActualItems = left.isActualItems :=
      congrArg (fun view => view.1.isActualItems) same
    rw [hclasses, hitems] at items
    cases items

end PointIPad
