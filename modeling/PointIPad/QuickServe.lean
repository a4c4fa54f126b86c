import PointIPad.OrderStore
import PointIPad.QuickModifier

/-!
The QuickServe screen: the menu, the order, and the labels below it.

A controller has fields of its own, and shares its order and its three stacks
with others by reference. `QuickServe` is a controller together with what its
references point to; the methods are those of the class. A label is the number
its text shows, before formatting.
-/

namespace PointIPad

open Transition

/-- The labels below the order. -/
structure OrderLabels where
  amountLabel : NSNumber
  taxLabel : NSNumber
  totalLabel : NSNumber
  firstTaxLabel : NSNumber
  secondTaxLabel : NSNumber
  firstTaxNameLabel : Option String
  secondTaxNameLabel : Option String
deriving DecidableEq

/-- The fields of a controller that are not shared. -/
structure QuickServeController where
  currentMenuItems : List String
  isActualItems : Bool
  isSubclass : Bool
  nameOfSelected : Option String
  classNameForDatabase : Option String
  subclassNameForDatabase : Option String
  selectedItemId : Option NSNumber
  tableNumber : Option Int32
  taxNameChanged : Bool
  labels : OrderLabels
deriving DecidableEq

/-- The three stacks for going back. They are created, and handed on, together. -/
structure MenuStacks where
  stackOfMenus : List (List String)
  stackOfIsActualItemBools : List Bool
  stackOfIsSubclassBools : List Bool
deriving DecidableEq

/-- A controller and the objects it refers to. -/
structure QuickServe extends QuickServeController where
  menuStacks : MenuStacks
  order : Orders
deriving DecidableEq

def MenuStacks.init : MenuStacks := ⟨[], [], []⟩

/-- `initWithCoder:` and the labels of `viewDidLoad`. A number made by
`[[NSNumber alloc] init]` is `nil`. -/
def QuickServeController.initWithCoder : QuickServeController where
  currentMenuItems := []
  isActualItems := false
  isSubclass := false
  nameOfSelected := none
  classNameForDatabase := none
  subclassNameForDatabase := none
  selectedItemId := none
  tableNumber := none
  taxNameChanged := false
  labels := ⟨0, 0, 0, 0, 0, none, none⟩

namespace QuickServe

/-- A screen opened at the class menu, with an order of its own. -/
def init (currentMenuItems : List String) (tableNumber : Option Int32) : QuickServe :=
  { QuickServeController.initWithCoder with
    currentMenuItems := currentMenuItems
    tableNumber := tableNumber
    menuStacks := .init
    order := .init }

/-! ### Labels -/

/-- The part of `updateTotalOfOrderLabels` that follows the update of the model. -/
def showTotals (s : QuickServe) : QuickServe :=
  let nsTaxValue := doubleValue s.order.totalPrice - intValue s.order.totalAmount
  let nsAmtValue := doubleValue s.order.totalAmount
  let labels := { s.labels with
    amountLabel := nsAmtValue
    taxLabel := nsTaxValue
    totalLabel := doubleValue s.order.totalPrice
    firstTaxLabel := nsTaxValue - nsAmtValue * doubleValue s.order.taxTwoPercentage
    secondTaxLabel := nsTaxValue - nsAmtValue * doubleValue s.order.taxOnePercentage }
  if s.taxNameChanged then { s with labels := labels }
  else { s with
    labels := { labels with
      firstTaxNameLabel := s.order.nameOfFirstTax
      secondTaxNameLabel := s.order.nameOfSecondTax }
    taxNameChanged := decide (s.order.nameOfFirstTax ≠ some "Tax One") }

def updateTotalOfOrderLabels (db : DatabaseAccess) (s : QuickServe) :
    Except NSException QuickServe := do
  let order ← s.order.updateTotals db
  .ok (showTotals { s with order := order })

/-- `viewWillAppear:`. -/
def viewWillAppear (db : DatabaseAccess) (s : QuickServe) : Except NSException QuickServe :=
  s.updateTotalOfOrderLabels db

/-! ### The menu -/

def savePreviousState (s : QuickServe) : QuickServe :=
  { s with menuStacks := {
      stackOfMenus := s.menuStacks.stackOfMenus ++ [s.currentMenuItems]
      stackOfIsActualItemBools := s.menuStacks.stackOfIsActualItemBools ++ [s.isActualItems]
      stackOfIsSubclassBools := s.menuStacks.stackOfIsSubclassBools ++ [s.isSubclass] } }

def flipBackMenuItems (s : QuickServe) : QuickServe :=
  if s.menuStacks.stackOfMenus.length = 0 then s
  else { s with
    currentMenuItems := s.menuStacks.stackOfMenus.getLast?.getD []
    isSubclass := s.menuStacks.stackOfIsSubclassBools.getLast?.getD false
    isActualItems := s.menuStacks.stackOfIsActualItemBools.getLast?.getD false
    menuStacks := {
      stackOfMenus := removeLastObject s.menuStacks.stackOfMenus
      stackOfIsActualItemBools := removeLastObject s.menuStacks.stackOfIsActualItemBools
      stackOfIsSubclassBools := removeLastObject s.menuStacks.stackOfIsSubclassBools } }

def addAnOrder (db : DatabaseAccess) (s : QuickServe) : Except NSException QuickServe := do
  let order ← s.order.addToOrder db s.selectedItemId
  updateTotalOfOrderLabels db { s with order := order }

/-- What a tap on a name does, by the level of the menu. -/
def handleName (db : DatabaseAccess) (s : QuickServe) (name : String) :
    Except NSException QuickServe :=
  let s := { s with nameOfSelected := some name }
  if !s.isSubclass && !s.isActualItems then
    -- a class with one subclass is taken to have none
    if (db.subclassWhereClassIs name).length = 1 then
      .ok { s.savePreviousState with
        isActualItems := true
        isSubclass := true
        currentMenuItems := db.itemsWhereClassIs name
        classNameForDatabase := some name }
    else
      .ok { s.savePreviousState with
        isSubclass := true
        classNameForDatabase := some name
        currentMenuItems := db.subclassWhereClassIs name }
  else if s.isSubclass && !s.isActualItems then
    .ok { s.savePreviousState with
      currentMenuItems := db.itemsWhereSubclassIs name
      isActualItems := true
      subclassNameForDatabase := some name }
  else
    addAnOrder db { s with
      selectedItemId :=
        db.itemIdWhereClassIs s.classNameForDatabase s.subclassNameForDatabase name }

/-- The row of a `nil` index path is 0. -/
def handleOneTap (db : DatabaseAccess) (s : QuickServe) (indexPath : Option Nat) :
    Except NSException QuickServe := do
  s.handleName db (← objectAtIndex s.currentMenuItems (indexPath.getD 0))

/-! ### The order -/

def didSelectRow (s : QuickServe) (row : Nat) : Except NSException QuickServe := do
  .ok { s with selectedItemId := some (← objectAtIndex s.order.currentItemIds row) }

def stepperValueChanged (db : DatabaseAccess) (s : QuickServe) (row : Nat) (value : Int) :
    Except NSException QuickServe := do
  let order ← s.order.setQuantity row value
  if value = Orders.STEPPER_MAX_VALUE then
    let order ← order.removeLine row
    let s ← updateTotalOfOrderLabels db { s with order := order }
    s.updateTotalOfOrderLabels db
  else updateTotalOfOrderLabels db { s with order := order }

/-- `modButtonPressed:` opens the Modifiers screen on the selected item, with no check. -/
def modButtonPressed (db : DatabaseAccess) (s : QuickServe) :
    Except NSException QuickModifierController :=
  QuickModifierController.viewDidLoad db s.selectedItemId

/-- A switch of the Modifiers screen is turned; the screen's delegate is `s`. -/
def switchChanged (s : QuickServe) (screen : QuickModifierController) (sect row : Nat)
    (on : Bool) : Except NSException (QuickModifierController × QuickServe) := do
  let (screen, order) ← screen.switchChanged s.order sect row on
  .ok (screen, { s with order := order })

/-! ### What the methods change -/

section Frame

variable {db : DatabaseAccess} {s s' : QuickServe}

/-- Showing totals changes labels only. -/
theorem showTotals_frame : ∃ labels changed,
    s.showTotals = { s with labels := labels, taxNameChanged := changed } := by
  unfold showTotals
  dsimp only
  split
  · exact ⟨_, s.taxNameChanged, rfl⟩
  · exact ⟨_, _, rfl⟩

@[simp] theorem showTotals_order : s.showTotals.order = s.order := by
  obtain ⟨_, _, h⟩ := s.showTotals_frame
  rw [h]

@[simp] theorem showTotals_amountLabel :
    s.showTotals.labels.amountLabel = doubleValue s.order.totalAmount := by
  unfold showTotals
  cases s.taxNameChanged <;> rfl

@[simp] theorem showTotals_taxLabel : s.showTotals.labels.taxLabel =
    doubleValue s.order.totalPrice - intValue s.order.totalAmount := by
  unfold showTotals
  cases s.taxNameChanged <;> rfl

@[simp] theorem showTotals_totalLabel :
    s.showTotals.labels.totalLabel = doubleValue s.order.totalPrice := by
  unfold showTotals
  cases s.taxNameChanged <;> rfl

@[simp] theorem showTotals_firstTaxLabel : s.showTotals.labels.firstTaxLabel =
    s.showTotals.labels.taxLabel
      - doubleValue s.order.totalAmount * doubleValue s.order.taxTwoPercentage := by
  unfold showTotals
  cases s.taxNameChanged <;> rfl

@[simp] theorem showTotals_secondTaxLabel : s.showTotals.labels.secondTaxLabel =
    s.showTotals.labels.taxLabel
      - doubleValue s.order.totalAmount * doubleValue s.order.taxOnePercentage := by
  unfold showTotals
  cases s.taxNameChanged <;> rfl

/-- The labels, and whether the tax names were shown, are all that changes. -/
theorem updateTotalOfOrderLabels_eq :
    s.updateTotalOfOrderLabels db =
      (s.order.updateTotals db).map fun order => showTotals { s with order := order } := by
  rw [updateTotalOfOrderLabels]
  cases s.order.updateTotals db <;> rfl

/-- Labels shown before other totals are computed are shown over. -/
theorem showTotals_showTotals {order order' : Orders}
    (hfirst : order'.nameOfFirstTax = order.nameOfFirstTax)
    (hsecond : order'.nameOfSecondTax = order.nameOfSecondTax) :
    showTotals { showTotals { s with order := order } with order := order' } =
      showTotals { s with order := order' } := by
  unfold showTotals
  cases s.taxNameChanged <;> simp [hfirst, hsecond]

/-- The stepper changes the order as `Orders.stepperValueChanged` says, and shows
its totals. -/
theorem stepperValueChanged_eq (row : Nat) (value : Int) :
    s.stepperValueChanged db row value =
      (s.order.stepperValueChanged db row value).map
        fun order => showTotals { s with order := order } := by
  rw [stepperValueChanged, Orders.stepperValueChanged]
  cases s.order.setQuantity row value with
  | error e => rfl
  | ok order =>
    simp only [ok_bind, updateTotalOfOrderLabels_eq]
    by_cases remove : value = Orders.STEPPER_MAX_VALUE
    · rw [if_pos remove, if_pos remove]
      cases order.removeLine row with
      | error e => rfl
      | ok order =>
        rw [ok_bind, ok_bind]
        cases hfirst : order.updateTotals db with
        | error e => rfl
        | ok first =>
          show Except.map _ (Orders.updateTotals db
            (showTotals { s with order := first }).order) = _
          rw [showTotals_order]
          cases hsecond : first.updateTotals db with
          | error e => simp [hsecond, Except.map]
          | ok second =>
            obtain ⟨_, _, _, _, rfl⟩ := Orders.updateTotals_eq_ok hsecond
            rw [ok_bind, hsecond]
            exact congrArg Except.ok (showTotals_showTotals rfl rfl)
    · rw [if_neg remove, if_neg remove]

/-- An item is added as `addToOrder:` says, the totals are computed once more,
and they are shown. -/
theorem addAnOrder_eq :
    s.addAnOrder db = (s.order.addToOrder db s.selectedItemId >>= Orders.updateTotals db).map
      fun order => showTotals { s with order := order } := by
  rw [addAnOrder]
  cases s.order.addToOrder db s.selectedItemId with
  | error e => rfl
  | ok order => exact updateTotalOfOrderLabels_eq

theorem updateTotalOfOrderLabels_ok (h : s.updateTotalOfOrderLabels db = .ok s') :
    ∃ order, s.order.updateTotals db = .ok order ∧
      s' = showTotals { s with order := order } := by
  obtain ⟨order, horder, hs'⟩ := bind_eq_ok.mp h
  exact ⟨order, horder, (Except.ok.inj hs').symm⟩

theorem addAnOrder_ok (h : s.addAnOrder db = .ok s') :
    ∃ added order, s.order.addToOrder db s.selectedItemId = .ok added ∧
      added.updateTotals db = .ok order ∧ s' = showTotals { s with order := order } := by
  obtain ⟨added, hadded, hlabels⟩ := bind_eq_ok.mp h
  obtain ⟨order, horder, hs'⟩ := updateTotalOfOrderLabels_ok hlabels
  exact ⟨added, order, hadded, horder, hs'⟩

/-- A tap either moves through the menu and leaves the order alone, or adds the
item whose id it looked up. -/
theorem handleOneTap_order {indexPath : Option Nat} (h : s.handleOneTap db indexPath = .ok s') :
    s'.order = s.order ∨ ∃ itemId added, s.order.addToOrder db itemId = .ok added ∧
      added.updateTotals db = .ok s'.order := by
  obtain ⟨name, -, h⟩ := bind_eq_ok.mp h
  rw [handleName] at h
  split at h
  · left
    split at h <;> cases h <;> rfl
  · split at h
    · left
      cases h
      rfl
    · obtain ⟨added, order, hadded, horder, rfl⟩ := addAnOrder_ok h
      exact .inr ⟨_, added, hadded, by rw [showTotals_order]; exact horder⟩

theorem flipBackMenuItems_order (s : QuickServe) : s.flipBackMenuItems.order = s.order := by
  unfold flipBackMenuItems
  split <;> rfl

theorem stepperValueChanged_order {row : Nat} {value : Int}
    (h : s.stepperValueChanged db row value = .ok s') :
    s.order.stepperValueChanged db row value = .ok s'.order := by
  rw [stepperValueChanged_eq] at h
  cases horder : s.order.stepperValueChanged db row value with
  | error e => rw [horder] at h; cases h
  | ok order => rw [horder] at h; cases h; rw [showTotals_order]

theorem viewWillAppear_order (h : s.viewWillAppear db = .ok s') :
    s.order.updateTotals db = .ok s'.order := by
  obtain ⟨order, horder, rfl⟩ := updateTotalOfOrderLabels_ok h
  rw [showTotals_order]
  exact horder

end Frame

end QuickServe

end PointIPad
