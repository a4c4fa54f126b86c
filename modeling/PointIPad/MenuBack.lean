import PointIPad.Lib.Undo
import PointIPad.Menu

/-!
Back undoes drilling down.

What a tap saves on the three stacks, and what Back takes from them, is all that
the menu shows: its names, the two flags, and the stacks. `Navigation` is this
part of a screen; on it, drilling down and going back are functions, inverse to
each other, and the screen does what they say. Taps on cells and presses of Back
are therefore the acts and the undos of an undoable machine.

**Main result** (`flipBackMenuItems_undoes`). From the class menu, every run leads
to the menu that the drill-down taps it did not take back lead to, with stacks of
one length, at most 2, that are empty exactly when both flags are down.
-/

namespace PointIPad

open Transition

/-! ### Drilling down and going back -/

structure Navigation where
  currentMenuItems : List String
  isSubclass : Bool
  isActualItems : Bool
  menuStacks : MenuStacks
deriving DecidableEq

namespace Navigation

/-- What is shown is pushed on the stacks. -/
def pushed (n : Navigation) : MenuStacks where
  stackOfMenus := n.menuStacks.stackOfMenus ++ [n.currentMenuItems]
  stackOfIsActualItemBools := n.menuStacks.stackOfIsActualItemBools ++ [n.isActualItems]
  stackOfIsSubclassBools := n.menuStacks.stackOfIsSubclassBools ++ [n.isSubclass]

/-- Opening a class or a subclass. A class with one subclass opens at its items. -/
def drill (db : DatabaseAccess) (n : Navigation) (name : String) : Navigation :=
  if n.isSubclass then ⟨db.itemsWhereSubclassIs name, true, true, n.pushed⟩
  else if (db.subclassWhereClassIs name).length = 1 then
    ⟨db.itemsWhereClassIs name, true, true, n.pushed⟩
  else ⟨db.subclassWhereClassIs name, true, false, n.pushed⟩

def back (n : Navigation) : Navigation :=
  if n.menuStacks.stackOfMenus.length = 0 then n
  else {
    currentMenuItems := n.menuStacks.stackOfMenus.getLast?.getD []
    isSubclass := n.menuStacks.stackOfIsSubclassBools.getLast?.getD false
    isActualItems := n.menuStacks.stackOfIsActualItemBools.getLast?.getD false
    menuStacks := {
      stackOfMenus := n.menuStacks.stackOfMenus.dropLast
      stackOfIsActualItemBools := n.menuStacks.stackOfIsActualItemBools.dropLast
      stackOfIsSubclassBools := n.menuStacks.stackOfIsSubclassBools.dropLast } }

theorem drill_menuStacks (db : DatabaseAccess) (n : Navigation) (name : String) :
    (n.drill db name).menuStacks = n.pushed := by
  unfold drill
  split
  · rfl
  · split <;> rfl

/-- Whatever was opened, Back shows what was shown before. -/
theorem back_drill (db : DatabaseAccess) (n : Navigation) (name : String) :
    (n.drill db name).back = n := by
  rw [back, drill_menuStacks]
  simp [pushed]

theorem back_of_empty {n : Navigation} (empty : n.menuStacks.stackOfMenus = []) : n.back = n := by
  rw [back, if_pos (by rw [empty]; rfl)]

end Navigation

/-! ### The screen -/

namespace QuickServe

def navigation (s : QuickServe) : Navigation where
  currentMenuItems := s.currentMenuItems
  isSubclass := s.isSubclass
  isActualItems := s.isActualItems
  menuStacks := s.menuStacks

/-- A tap drills down, unless items are shown. -/
def drillsDown (s : QuickServe) (_row : Nat) : Bool := !s.isActualItems

/-- A tap on the cell of a row, or Back. -/
def browse (db : DatabaseAccess) (s : QuickServe) : Undo.Event Nat → Except NSException QuickServe
  | .act row => s.handleOneTap db (some row)
  | .undo => .ok s.flipBackMenuItems

section Browse

variable {db : DatabaseAccess} {s s' t t' : QuickServe} {name : String} {row : Nat}

theorem flipBackMenuItems_navigation : s.flipBackMenuItems.navigation = s.navigation.back := by
  by_cases empty : s.menuStacks.stackOfMenus.length = 0
  · simp [flipBackMenuItems, Navigation.back, navigation, empty]
  · simp [flipBackMenuItems, Navigation.back, navigation, empty, removeLastObject]

/-- Above the items, a tap drills down and does not fail. -/
theorem handleName_navigation (hlevel : s.isActualItems = false) (name : String) :
    ∃ s', s.handleName db name = .ok s' ∧ s'.navigation = s.navigation.drill db name := by
  cases hsub : s.isSubclass with
  | true =>
    refine ⟨_, by simp [handleName, hlevel, hsub]; rfl, ?_⟩
    simp [Navigation.drill, navigation, hlevel, hsub, savePreviousState, Navigation.pushed]
  | false =>
    by_cases one : (db.subclassWhereClassIs name).length = 1
    · refine ⟨_, by simp [handleName, hlevel, hsub, one]; rfl, ?_⟩
      simp [Navigation.drill, navigation, hlevel, hsub, savePreviousState, Navigation.pushed, one]
    · refine ⟨_, by simp [handleName, hlevel, hsub, one]; rfl, ?_⟩
      simp [Navigation.drill, navigation, hlevel, hsub, savePreviousState, Navigation.pushed, one]

/-- A tap on an item does not navigate. -/
theorem handleName_stays (hlevel : s.isActualItems = true) (h : s.handleName db name = .ok s') :
    s'.navigation = s.navigation := by
  have hadd : QuickServe.addAnOrder db { s with
      nameOfSelected := some name
      selectedItemId := db.itemIdWhereClassIs s.classNameForDatabase
        s.subclassNameForDatabase name } = .ok s' := by
    rw [← h]
    simp [handleName, hlevel]
  obtain ⟨_, _, _, rfl⟩ := addAnOrder_frame hadd
  rfl

/-- A completed tap that drills down opened a name that the menu shows. -/
theorem handleOneTap_navigation (hlevel : s.isActualItems = false)
    (h : s.handleOneTap db (some row) = .ok s') :
    ∃ name, objectAtIndex s.currentMenuItems row = .ok name ∧
      s'.navigation = s.navigation.drill db name := by
  obtain ⟨name, hname, htap⟩ := bind_eq_ok.mp h
  obtain ⟨opened, hopened, hnavigation⟩ := handleName_navigation hlevel name
  rw [hopened] at htap
  cases htap
  exact ⟨name, hname, hnavigation⟩

theorem browse_undoable (db : DatabaseAccess) {start : QuickServe}
    (empty : start.menuStacks.stackOfMenus = []) :
    Undo.Undoable (browse db) drillsDown navigation start where
  moves_congr := by
    intro s t row same
    exact congrArg (fun n => !n.isActualItems) same
  act_congr := by
    intro s s' t row same hmoves htap
    have hlevel : s.isActualItems = false := by simpa [drillsDown] using hmoves
    obtain ⟨name, hname, hnavigation⟩ := handleOneTap_navigation hlevel htap
    have hmenu : t.currentMenuItems = s.currentMenuItems :=
      congrArg Navigation.currentMenuItems same
    obtain ⟨t', ht, hnavigation'⟩ :=
      handleName_navigation ((congrArg Navigation.isActualItems same).trans hlevel) name
    refine ⟨t', ?_, by rw [hnavigation', hnavigation, same]⟩
    apply bind_eq_ok.mpr
    exact ⟨name, hmenu ▸ hname, ht⟩
  stays := by
    intro s s' row hmoves htap
    have hlevel : s.isActualItems = true := by simpa [drillsDown] using hmoves
    obtain ⟨name, -, h⟩ := bind_eq_ok.mp htap
    exact handleName_stays hlevel h
  undo_act := by
    intro s s' t t' row hmoves htap same hback
    have hlevel : s.isActualItems = false := by simpa [drillsDown] using hmoves
    obtain ⟨name, -, hnavigation⟩ := handleOneTap_navigation hlevel htap
    cases hback
    rw [flipBackMenuItems_navigation, same, hnavigation, Navigation.back_drill]
  undo_start := by
    intro t t' same hback
    cases hback
    rw [flipBackMenuItems_navigation, same]
    exact Navigation.back_of_empty empty

/-- Taps and Back keep to the menu. -/
theorem browse_onMenu (h : ∃ path, AtPath db path s) {e : Undo.Event Nat}
    (hstep : browse db s e = .ok s') : ∃ path, AtPath db path s' := by
  obtain ⟨path, hpath⟩ := h
  cases e with
  | act row =>
    obtain ⟨name, -, htap⟩ := bind_eq_ok.mp hstep
    exact ⟨_, handleName_atPath hpath htap⟩
  | undo =>
    cases hstep
    exact ⟨_, flipBackMenuItems_atPath hpath⟩

end Browse

end QuickServe

/-- The stacks have one length, at most 2, and are empty exactly when both flags
are down. -/
def StacksFitFlags (s : QuickServe) : Prop :=
  s.menuStacks.stackOfIsActualItemBools.length = s.menuStacks.stackOfMenus.length ∧
  s.menuStacks.stackOfIsSubclassBools.length = s.menuStacks.stackOfMenus.length ∧
  s.menuStacks.stackOfMenus.length ≤ 2 ∧
  ((s.isSubclass = false ∧ s.isActualItems = false) ↔ s.menuStacks = .init)

theorem AtPath.stacksFitFlags {db : DatabaseAccess} {path : MenuPath} {s : QuickServe}
    (h : AtPath db path s) : StacksFitFlags s := by
  rw [StacksFitFlags, h.menuStacks, h.isSubclass, h.isActualItems]
  cases path <;>
    simp [MenuPath.menuStacks, MenuPath.isSubclass, MenuPath.isActualItems, MenuStacks.init]

/-- **Main result.** Back is the inverse of drilling down: from the class menu, any
run of taps and Backs leads to the menu to which the drill-down taps alone lead
that no later Back cancelled. -/
theorem flipBackMenuItems_undoes (db : DatabaseAccess) {start s : QuickServe}
    (classMenu : AtPath db .classes start) {es : List (Undo.Event Nat)}
    (hrun : run (QuickServe.browse db) start es = .ok s) :
    (∃ t, run (QuickServe.browse db) start
        ((Undo.uncancelled (QuickServe.browse db) QuickServe.drillsDown start [] es).map
          Undo.Event.act) = .ok t ∧
      t.navigation = s.navigation) ∧
    StacksFitFlags s := by
  have empty : start.menuStacks.stackOfMenus = [] := by
    rw [classMenu.menuStacks]
    rfl
  refine ⟨Undo.run_uncancelled (QuickServe.browse_undoable db empty) hrun, ?_⟩
  obtain ⟨path, hpath⟩ := run_invariant (I := fun s => ∃ path, AtPath db path s)
    (fun s e s' h hstep => QuickServe.browse_onMenu h hstep) ⟨_, classMenu⟩ hrun
  exact hpath.stacksFitFlags

/-- The soups are opened and left again, then the tea, which has one subclass. -/
def soupsThenTea : List (Undo.Event Nat) := [.undo, .act 0, .act 1, .act 0, .undo, .undo, .act 1]

theorem flipBackMenuItems_undoes_soups :
    ∃ s t, run (QuickServe.browse (itemServer smallMenu))
        (.init (itemServer smallMenu).classNames none) soupsThenTea = .ok s ∧
      run (QuickServe.browse (itemServer smallMenu))
        (.init (itemServer smallMenu).classNames none) [.act 1] = .ok t ∧
      t.navigation = s.navigation ∧ StacksFitFlags s := by
  have completes : (run (QuickServe.browse (itemServer smallMenu))
      (.init (itemServer smallMenu).classNames none) soupsThenTea).map (fun s => s.isActualItems)
        = .ok true := by
    decide +kernel
  obtain ⟨s, hrun, -⟩ := map_eq_ok.mp completes
  obtain ⟨⟨t, htaps, same⟩, fit⟩ :=
    flipBackMenuItems_undoes (itemServer smallMenu) (atPath_init _ none) hrun
  have left : Undo.uncancelled (QuickServe.browse (itemServer smallMenu)) QuickServe.drillsDown
      (.init (itemServer smallMenu).classNames none) [] soupsThenTea = [1] := by
    decide +kernel
  rw [left] at htaps
  exact ⟨s, t, hrun, htaps, same, fit⟩

end PointIPad
