import PointIPad.MenuBack
import PointIPad.Selection

/-!
Taps that hit no cell.

The point of a tap may lie between the cells. The collection view then has no
index path for it, and the row of `nil` is 0: the tap is one on the first cell, and
raises when the menu is empty. A tap that completes is never without effect
(`handleOneTap_changes`): it pushes the menu on the stacks, or adds a unit.

**Main result** (`handleOneTap_never_ignores`). In no state is a tap that hits no
cell ignored.
-/

namespace PointIPad

open Transition

/-! ### What a tap changes -/

section Changes

variable {db : DatabaseAccess} {o o' : Orders} {s s' : QuickServe} {itemId : NSNumber}

/-- The loop leaves the rows before its own alone. -/
theorem incrementQuantities_before {itemIds : List NSNumber} {qtyIndex : Nat}
    {qtys qtys' : List Int32}
    (h : Orders.incrementQuantities itemId itemIds qtyIndex qtys = .ok qtys') :
    ∀ j < qtyIndex, qtys'[j]? = qtys[j]? := by
  induction itemIds generalizing qtyIndex qtys with
  | nil =>
    intro j _
    cases h
    rfl
  | cons x itemIds ih =>
    intro j hj
    rw [Orders.incrementQuantities] at h
    split at h
    · obtain ⟨qty, -, h⟩ := bind_eq_ok.mp h
      obtain ⟨replaced, hreplaced, h⟩ := bind_eq_ok.mp h
      obtain ⟨-, rfl⟩ := replaceObjectAtIndex_eq_ok.mp hreplaced
      rw [ih h j (Nat.lt_succ_of_lt hj), List.getElem?_set_ne (Nat.ne_of_gt hj)]
    · exact ih h j (Nat.lt_succ_of_lt hj)

/-- The loop changes the quantity of an item that is there. -/
theorem incrementQuantities_ne {itemIds : List NSNumber} (mem : itemId ∈ itemIds)
    {qtyIndex : Nat} {qtys qtys' : List Int32}
    (h : Orders.incrementQuantities itemId itemIds qtyIndex qtys = .ok qtys') : qtys' ≠ qtys := by
  induction itemIds generalizing qtyIndex qtys with
  | nil => cases mem
  | cons x itemIds ih =>
    rw [Orders.incrementQuantities] at h
    split at h
    · -- later rounds leave this row alone
      obtain ⟨qty, hqty, h⟩ := bind_eq_ok.mp h
      obtain ⟨replaced, hreplaced, h⟩ := bind_eq_ok.mp h
      obtain ⟨hlt, rfl⟩ := replaceObjectAtIndex_eq_ok.mp hreplaced
      have after := incrementQuantities_before h qtyIndex (Nat.lt_succ_self qtyIndex)
      rw [List.getElem?_set_self hlt] at after
      rintro rfl
      rw [objectAtIndex_eq_ok.mp hqty, Option.some.injEq] at after
      exact absurd after.symm (by simp)
    · rename_i other
      exact ih ((List.mem_cons.mp mem).resolve_left (Ne.symm other)) h

/-- An added item is one line more, or one unit more. -/
theorem addItem_changes {id : Option NSNumber} (h : o.addItem id = .ok o') :
    o'.currentItemIds ≠ o.currentItemIds ∨ o'.currentQtys ≠ o.currentQtys := by
  cases id with
  | none => cases h
  | some x =>
    rw [Orders.addItem] at h
    split at h
    · rename_i known
      obtain ⟨qtys, hqtys, h⟩ := bind_eq_ok.mp h
      cases h
      exact .inr (incrementQuantities_ne known hqtys)
    · cases h
      left
      intro same
      simpa using congrArg List.length same

theorem addToOrder_changes {id : Option NSNumber} (h : o.addToOrder db id = .ok o') :
    o'.currentItemIds ≠ o.currentItemIds ∨ o'.currentQtys ≠ o.currentQtys := by
  obtain ⟨added, hadded, htotals⟩ := bind_eq_ok.mp h
  have changes := addItem_changes hadded
  obtain ⟨_, _, _, _, rfl⟩ := Orders.updateTotals_eq_ok htotals
  exact changes

/-- A completed tap has saved what was shown, or changed the lines of the order. -/
theorem handleOneTap_changes {indexPath : Option Nat} (h : s.handleOneTap db indexPath = .ok s') :
    s'.menuStacks ≠ s.menuStacks ∨ s'.order.currentItemIds ≠ s.order.currentItemIds ∨
      s'.order.currentQtys ≠ s.order.currentQtys := by
  obtain ⟨name, -, h⟩ := bind_eq_ok.mp h
  cases hlevel : s.isActualItems with
  | false =>
    obtain ⟨opened, hopened, hnavigation⟩ := QuickServe.handleName_navigation hlevel name
    rw [hopened] at h
    cases h
    left
    intro same
    have pushed : s'.menuStacks = s.navigation.pushed :=
      (congrArg Navigation.menuStacks hnavigation).trans (Navigation.drill_menuStacks _ _ _)
    have deeper := congrArg (fun m => m.stackOfMenus.length) (pushed.symm.trans same)
    simp [Navigation.pushed, QuickServe.navigation] at deeper
  | true =>
    right
    have hadd : QuickServe.addAnOrder db { s with
        nameOfSelected := some name
        selectedItemId := db.itemIdWhereClassIs s.classNameForDatabase
          s.subclassNameForDatabase name } = .ok s' := by
      rw [← h]
      simp [QuickServe.handleName, hlevel]
    obtain ⟨added, order, hadded, horder, rfl⟩ := QuickServe.addAnOrder_ok hadd
    have changes := addToOrder_changes hadded
    obtain ⟨_, _, _, _, rfl⟩ := Orders.updateTotals_eq_ok horder
    rw [QuickServe.showTotals_order]
    exact changes

end Changes

/-! ### Taps without an index path -/

/-- Two states of the screen with the same menu and the same order. What is not listed here,
such as labels and tax rates, may differ. -/
structure SameScreen (s s' : QuickServe) : Prop where
  currentMenuItems : s'.currentMenuItems = s.currentMenuItems
  isSubclass : s'.isSubclass = s.isSubclass
  isActualItems : s'.isActualItems = s.isActualItems
  menuStacks : s'.menuStacks = s.menuStacks
  classNameForDatabase : s'.classNameForDatabase = s.classNameForDatabase
  subclassNameForDatabase : s'.subclassNameForDatabase = s.subclassNameForDatabase
  selectedItemId : s'.selectedItemId = s.selectedItemId
  currentItemIds : s'.order.currentItemIds = s.order.currentItemIds
  currentQtys : s'.order.currentQtys = s.order.currentQtys
  dictionary : s'.order.dictionary = s.order.dictionary
  totalAmount : s'.order.totalAmount = s.order.totalAmount
  totalPrice : s'.order.totalPrice = s.order.totalPrice

/-- A tap that hits no cell raises nothing, and changes neither the menu nor the order. -/
def TapIgnored (db : DatabaseAccess) (s : QuickServe) : Prop :=
  ∃ s', s.handleOneTap db none = .ok s' ∧ SameScreen s s'

/-- **Main result.** A tap that hits no cell is never ignored, in any state. -/
theorem handleOneTap_never_ignores (db : DatabaseAccess) (s : QuickServe) : ¬ TapIgnored db s := by
  rintro ⟨s', htap, same⟩
  rcases handleOneTap_changes htap with saved | ids | qtys
  · exact saved same.menuStacks
  · exact ids same.currentItemIds
  · exact qtys same.currentQtys

/-- While the rolls are shown, a tap beside them orders one. -/
theorem tap_not_ignored :
    ¬ ∀ (db : DatabaseAccess) (currentMenuItems : List String) (tableNumber : Option Int32)
      (es : List SelectEvent) (s : Selecting),
      run (selectStep db) (.init currentMenuItems tableNumber) es = .ok s →
        s.modifiers = none → TapIgnored db s.screen := by
  intro always
  have rolls : (run (selectStep (itemServer smallMenu))
      (.init (itemServer smallMenu).classNames none) [.tap 0, .tap 0] >>= fun s =>
        (s.screen.handleOneTap (itemServer smallMenu) none).map fun screen =>
          (s.modifiers.isNone, s.screen.order.currentItemIds, screen.order.currentItemIds)) =
      .ok (true, [], [1]) := by
    decide +kernel
  obtain ⟨s, hrun, htap⟩ := bind_eq_ok.mp rolls
  obtain ⟨screen, hscreen, hids⟩ := map_eq_ok.mp htap
  obtain ⟨hclosed, hids⟩ := Prod.mk.inj hids
  obtain ⟨hbefore, hafter⟩ := Prod.mk.inj hids
  obtain ⟨s', hignored, same⟩ := always (itemServer smallMenu) (itemServer smallMenu).classNames
    none [.tap 0, .tap 0] s hrun (Option.isNone_iff_eq_none.mp hclosed)
  rw [hscreen] at hignored
  cases hignored
  have ids := same.currentItemIds
  rw [hbefore, hafter] at ids
  cases ids

end PointIPad
