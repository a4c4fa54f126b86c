import PointIPad.Steppers
import PointIPad.StoredModifiers

/-!
The table of the order as it is shown, with everything that happens on the screen.

A row is made for a line: its stepper, the name and the price of the item, and the
quantity. Rows are made again when the table is reloaded, and one by one when they
come back into view; a stepper writes the label of its own row and nothing else. A
popover beside a row lists the modifier strings of its item; as long as it is
shown, touches go nowhere else.

**Main results.** No row is ever out of date: whatever has happened, making it again
would change nothing (`rows_show_order`). A popover shows the modifiers that the
selected line has now, and each of them is an option of its item with a flag
(`popover_shows_modifiers`).
-/

namespace PointIPad

open Transition

/-! ### Rows -/

/-- What a row of the table consists of. -/
structure QuickServeTableCell where
  stepper : UIStepper
  itemNameLabel : Option String
  priceLabel : String
  qtyLabel : String
deriving DecidableEq

/-- What `%@` prints for a quantity. -/
def qtyText (qty : Int32) : String := toString qty.toInt

/-- The row of a line. -/
def QuickServeTableCell.ofLine (db : DatabaseAccess) (itemId : NSNumber) (qty : Int32) :
    QuickServeTableCell where
  stepper := .ofValue qty.toInt
  itemNameLabel := db.getItemNameUsing itemId
  priceLabel := "$" ++ descriptionOrNull (db.getLunchPriceUsing itemId)
  qtyLabel := qtyText qty

/-- `tableView:cellForRowAtIndexPath:`. -/
def cellForRow (db : DatabaseAccess) (o : Orders) (row : Nat) :
    Except NSException QuickServeTableCell := do
  let qty ← objectAtIndex o.currentQtys row
  let itemId ← objectAtIndex o.currentItemIds row
  .ok (.ofLine db itemId qty)

/-- The first rows of the table. -/
def rowCells (db : DatabaseAccess) (o : Orders) : Nat → Except NSException (List QuickServeTableCell)
  | 0 => .ok []
  | row + 1 => do
    let cells ← rowCells db o row
    .ok (cells ++ [← cellForRow db o row])

/-! ### The screen with its rows -/

/-- The screens, the rows of the order's table, and the strings of a popover. -/
structure OrderView where
  selecting : Selecting
  cells : List QuickServeTableCell
  popover : Option (List String)

namespace OrderView

abbrev order (s : OrderView) : Orders := s.selecting.screen.order

/-- `[[self quickTableView] reloadData]`: as many rows as items. -/
def reloadData (db : DatabaseAccess) (selecting : Selecting) : Except NSException OrderView := do
  let o := selecting.screen.order
  .ok ⟨selecting, ← rowCells db o o.currentItemIds.length, none⟩

/-- The screen is shown, with an order that may have been there before. -/
def opened (db : DatabaseAccess) (screen : QuickServe) : Except NSException OrderView :=
  reloadData db ⟨screen, none⟩

/-- A stepper is pressed; `parentCell` is the row it is in. -/
def stepperValueChanged (db : DatabaseAccess) (s : OrderView) (row : Nat)
    (parentCell : QuickServeTableCell) (button : StepperButton) : Except NSException OrderView := do
  let sender := parentCell.stepper.press button
  let screen ← s.selecting.screen.stepperValueChanged db row sender.value
  if sender.value = Orders.STEPPER_MAX_VALUE then reloadData db ⟨screen, none⟩
  else
    let qty ← objectAtIndex screen.order.currentQtys row
    let parentCell := { parentCell with stepper := sender, qtyLabel := qtyText qty }
    .ok ⟨⟨screen, none⟩, s.cells.set row parentCell, none⟩

/-- `tableView:didSelectRowAtIndexPath:`. There is a popover if there is a string. -/
def didSelectRow (s : OrderView) (row : Nat) : Except NSException OrderView := do
  let screen ← s.selecting.screen.didSelectRow row
  let stringModArray := (screen.selectedItemId.bind screen.order.dictionary.lookup).getD []
  .ok ⟨⟨screen, none⟩, s.cells, if stringModArray.length ≠ 0 then some stringModArray else none⟩

end OrderView

inductive ViewEvent where
  | tap (row : Nat)
  | back
  | selectRow (row : Nat)
  | press (row : Nat) (button : StepperButton)
  | scrollTo (row : Nat)
  | openModifiers
  | toggle (sect row : Nat) (on : Bool)
  | closeModifiers
  | dismissPopover
deriving DecidableEq

/-- One event; what is covered by a popover or by the Modifiers screen does nothing. -/
def viewStep (db : DatabaseAccess) (s : OrderView) (e : ViewEvent) : Except NSException OrderView :=
  match s.popover, s.selecting.modifiers, e with
  | some _, _, .dismissPopover => .ok { s with popover := none }
  | some _, _, _ => .ok s
  | none, none, .tap row => do
    OrderView.reloadData db ⟨← s.selecting.screen.handleOneTap db (some row), none⟩
  | none, none, .back =>
    if s.selecting.screen.menuStacks.stackOfMenus.length = 0 then .ok s
    else OrderView.reloadData db ⟨s.selecting.screen.flipBackMenuItems, none⟩
  | none, none, .selectRow row => s.didSelectRow row
  | none, none, .press row button =>
    match s.cells[row]? with
    | some parentCell => s.stepperValueChanged db row parentCell button
    | none => .ok s
  | none, none, .scrollTo row =>
    if row < s.cells.length then do
      .ok { s with cells := s.cells.set row (← cellForRow db s.order row) }
    else .ok s
  | none, none, .openModifiers => do
    .ok { s with selecting := ⟨s.selecting.screen, some (← s.selecting.screen.modButtonPressed db)⟩ }
  | none, some shown, .toggle sect row on => do
    let (shown, screen) ← s.selecting.screen.switchChanged shown sect row on
    .ok { s with selecting := ⟨screen, some shown⟩ }
  | none, some _, .closeModifiers => do
    .ok { s with selecting := ⟨← s.selecting.screen.viewWillAppear db, none⟩ }
  | none, _, _ => .ok s

/-! ### Steps -/

/-- The lines of two orders are the same. -/
def SameLines (o o' : Orders) : Prop :=
  o'.currentItemIds = o.currentItemIds ∧ o'.currentQtys = o.currentQtys

/-- What an event can do to the rows. Whatever it does to the screens is an event of theirs. -/
inductive ViewStep (db : DatabaseAccess) (s : OrderView) : ViewEvent → OrderView → Prop where
  | ignored {e : ViewEvent} : ViewStep db s e s
  | dismissPopover : ViewStep db s .dismissPopover { s with popover := none }
  | reload {e : ViewEvent} {f : SelectEvent} {selecting : Selecting} {s' : OrderView} :
      selectStep db s.selecting f = .ok selecting →
      OrderView.reloadData db selecting = .ok s' → ViewStep db s e s'
  | selectRow {row : Nat} {s' : OrderView} :
      s.popover = none → s.selecting.modifiers = none → s.didSelectRow row = .ok s' →
      ViewStep db s (.selectRow row) s'
  | relabel {row : Nat} {button : StepperButton} {parentCell : QuickServeTableCell}
      {screen : QuickServe} {qty : Int32} :
      s.selecting.modifiers = none → s.cells[row]? = some parentCell →
      (parentCell.stepper.press button).value ≠ Orders.STEPPER_MAX_VALUE →
      s.selecting.screen.stepperValueChanged db row (parentCell.stepper.press button).value =
        .ok screen →
      objectAtIndex screen.order.currentQtys row = .ok qty →
      ViewStep db s (.press row button) ⟨⟨screen, none⟩, s.cells.set row { parentCell with
        stepper := parentCell.stepper.press button
        qtyLabel := qtyText qty }, none⟩
  | scrollTo {row : Nat} {cell : QuickServeTableCell} :
      cellForRow db s.order row = .ok cell →
      ViewStep db s (.scrollTo row) { s with cells := s.cells.set row cell }
  | keepRows {e : ViewEvent} {f : SelectEvent} {selecting : Selecting} :
      s.popover = none → selectStep db s.selecting f = .ok selecting →
      SameLines s.order selecting.screen.order →
      ViewStep db s e { s with selecting := selecting }

section Steps

variable {db : DatabaseAccess} {s s' : OrderView} {e : ViewEvent}

theorem viewStep_covered {strings : List String} (shown : s.popover = some strings)
    (h : viewStep db s e = .ok s') : ViewStep db s e s' := by
  obtain ⟨selecting, cells, popover⟩ := s
  cases shown
  cases e with
  | dismissPopover =>
    cases h
    exact .dismissPopover
  | tap _ | back | selectRow _ | press _ _ | scrollTo _ | openModifiers | toggle _ _ _
  | closeModifiers =>
    cases h
    exact .ignored

theorem viewStep_screen (closed : s.popover = none) (below : s.selecting.modifiers = none)
    (h : viewStep db s e = .ok s') : ViewStep db s e s' := by
  obtain ⟨⟨screen, modifiers⟩, cells, popover⟩ := s
  cases closed
  cases below
  cases e with
  | tap row =>
    obtain ⟨screen', hscreen, hreload⟩ := bind_eq_ok.mp h
    exact .reload (f := .tap row) (bind_eq_ok.mpr ⟨screen', hscreen, rfl⟩) hreload
  | back =>
    simp only [viewStep] at h
    split at h
    · cases h
      exact .ignored
    · exact .reload (f := .back) rfl h
  | selectRow row => exact .selectRow rfl rfl h
  | press row button =>
    simp only [viewStep] at h
    cases hcell : cells[row]? with
    | none =>
      rw [hcell] at h
      cases h
      exact .ignored
    | some parentCell =>
      simp only [hcell] at h
      obtain ⟨screen', hscreen, h⟩ := bind_eq_ok.mp h
      split at h
      · exact .reload (f := .stepperValueChanged row _)
          (bind_eq_ok.mpr ⟨screen', hscreen, rfl⟩) h
      · rename_i keep
        obtain ⟨qty, hqty, h⟩ := bind_eq_ok.mp h
        cases h
        exact .relabel rfl hcell keep hscreen hqty
  | scrollTo row =>
    simp only [viewStep] at h
    split at h
    · obtain ⟨cell, hcell, h⟩ := bind_eq_ok.mp h
      cases h
      exact .scrollTo hcell
    · cases h
      exact .ignored
  | openModifiers =>
    obtain ⟨shown, hshown, h⟩ := bind_eq_ok.mp h
    cases h
    exact .keepRows (f := .openModifiers) rfl (bind_eq_ok.mpr ⟨shown, hshown, rfl⟩) ⟨rfl, rfl⟩
  | toggle _ _ _ | closeModifiers | dismissPopover =>
    cases h
    exact .ignored

theorem viewStep_modifiers {shown : QuickModifierController} (closed : s.popover = none)
    (above : s.selecting.modifiers = some shown) (h : viewStep db s e = .ok s') :
    ViewStep db s e s' := by
  obtain ⟨⟨screen, modifiers⟩, cells, popover⟩ := s
  cases closed
  cases above
  cases e with
  | toggle sect row on =>
    obtain ⟨⟨shown', screen'⟩, hswitch, h⟩ := bind_eq_ok.mp h
    cases h
    refine .keepRows (f := .toggle sect row on) rfl (bind_eq_ok.mpr ⟨_, hswitch, rfl⟩) ?_
    obtain ⟨⟨shown'', order⟩, hchanged, hs'⟩ := bind_eq_ok.mp hswitch
    cases hs'
    obtain ⟨newChanges, -, hupdate, -⟩ := switchChanged_sends hchanged
    obtain ⟨dictionary, rfl⟩ := Orders.updateDictionaryWithModifierString_eq_ok hupdate
    exact ⟨rfl, rfl⟩
  | closeModifiers =>
    obtain ⟨screen', hscreen, h⟩ := bind_eq_ok.mp h
    cases h
    refine .keepRows (f := .closeModifiers) rfl (bind_eq_ok.mpr ⟨_, hscreen, rfl⟩) ?_
    obtain ⟨_, _, _, _, horder⟩ :=
      Orders.updateTotals_eq_ok (QuickServe.viewWillAppear_order hscreen)
    rw [horder]
    exact ⟨rfl, rfl⟩
  | tap _ | back | selectRow _ | press _ _ | scrollTo _ | openModifiers | dismissPopover =>
    cases h
    exact .ignored

/-- **The steps of the screen**, with everything they can do to the rows. -/
theorem viewStep_inv (h : viewStep db s e = .ok s') : ViewStep db s e s' := by
  cases covered : s.popover with
  | some strings => exact viewStep_covered covered h
  | none =>
    cases above : s.selecting.modifiers with
    | none => exact viewStep_screen covered above h
    | some shown => exact viewStep_modifiers covered above h

end Steps

/-! ### Rows that are up to date -/

/-- The rows are those of the order, each as it would be made now. -/
structure RowsShown (db : DatabaseAccess) (s : OrderView) : Prop where
  length : s.cells.length = s.order.currentItemIds.length
  cells : s.cells =
    List.zipWith (QuickServeTableCell.ofLine db) s.order.currentItemIds s.order.currentQtys

section Rows

variable {db : DatabaseAccess} {o : Orders} {s s' : OrderView} {e : ViewEvent}

theorem cellForRow_eq_ok {row : Nat} {cell : QuickServeTableCell}
    (h : cellForRow db o row = .ok cell) :
    (List.zipWith (QuickServeTableCell.ofLine db) o.currentItemIds o.currentQtys)[row]? =
      some cell := by
  obtain ⟨qty, hqty, h⟩ := bind_eq_ok.mp h
  obtain ⟨itemId, hitemId, h⟩ := bind_eq_ok.mp h
  cases h
  rw [List.getElem?_zipWith, objectAtIndex_eq_ok.mp hqty, objectAtIndex_eq_ok.mp hitemId]

/-- Each row is made for the line at its place. -/
theorem rowCells_eq_ok {rows : Nat} {cells : List QuickServeTableCell}
    (h : rowCells db o rows = .ok cells) :
    cells.length = rows ∧
      cells = (List.zipWith (QuickServeTableCell.ofLine db) o.currentItemIds o.currentQtys).take
        rows := by
  induction rows generalizing cells with
  | zero =>
    cases h
    exact ⟨rfl, rfl⟩
  | succ row ih =>
    obtain ⟨before, hbefore, h⟩ := bind_eq_ok.mp h
    obtain ⟨cell, hcell, h⟩ := bind_eq_ok.mp h
    cases h
    obtain ⟨hlength, htake⟩ := ih hbefore
    refine ⟨by rw [List.length_append, hlength]; rfl, ?_⟩
    rw [List.take_add_one, cellForRow_eq_ok hcell, ← htake, Option.toList_some]

/-- Reloading shows what the order holds. -/
theorem reloadData_shows {selecting : Selecting} (h : OrderView.reloadData db selecting = .ok s) :
    RowsShown db s ∧ s.selecting = selecting ∧ s.popover = none := by
  obtain ⟨cells, hcells, h⟩ := bind_eq_ok.mp h
  cases h
  obtain ⟨hlength, htake⟩ := rowCells_eq_ok hcells
  refine ⟨⟨hlength, ?_⟩, rfl, rfl⟩
  rw [List.take_of_length_le] at htake
  · exact htake
  · rw [List.length_zipWith]
    exact Nat.min_le_left _ _

theorem RowsShown.of_sameLines (h : RowsShown db s) {selecting : Selecting}
    {popover : Option (List String)} (same : SameLines s.order selecting.screen.order) :
    RowsShown db ⟨selecting, s.cells, popover⟩ := by
  obtain ⟨ids, qtys⟩ := same
  constructor
  · show s.cells.length = selecting.screen.order.currentItemIds.length
    rw [ids]
    exact h.length
  · show s.cells = List.zipWith _ selecting.screen.order.currentItemIds
      selecting.screen.order.currentQtys
    rw [ids, qtys]
    exact h.cells

/-- Setting a quantity sets the row that is made for it. -/
theorem zipWith_set_right {α β γ : Type} {f : α → β → γ} {as : List α} {bs : List β} {a : α}
    {row : Nat} (ha : as[row]? = some a) (b : β) :
    List.zipWith f as (bs.set row b) = (List.zipWith f as bs).set row (f a b) := by
  apply List.ext_getElem?
  intro j
  rw [List.getElem?_zipWith]
  by_cases same : row = j
  · subst same
    rw [List.getElem?_set_self', List.getElem?_set_self', List.getElem?_zipWith, ha]
    cases bs[row]? <;> rfl
  · rw [List.getElem?_set_ne same, List.getElem?_set_ne same, List.getElem?_zipWith]

/-- A stepper in its bounds is the one that is made for its value. -/
theorem UIStepper.ofValue_self (stepper : UIStepper) :
    UIStepper.ofValue (Int32.ofInt stepper.value).toInt = stepper := by
  have low := stepper.minimum_le
  have up := stepper.le_maximum
  have hint : (Int32.ofInt stepper.value).toInt = stepper.value := by
    simp only [Orders.STEPPER_MIN_VALUE, Orders.STEPPER_MAX_VALUE] at low up
    exact Int32.toInt_ofInt_of_le (by omega) (by omega)
  rw [hint, UIStepper.mk.injEq]
  exact UIStepper.ofValue_value low up

/-- The label that a stepper writes is that of the line it has changed. -/
theorem RowsShown.relabel (h : RowsShown db s) {row : Nat} {button : StepperButton}
    {parentCell : QuickServeTableCell} {screen : QuickServe} {qty : Int32}
    (hcell : s.cells[row]? = some parentCell)
    (keep : (parentCell.stepper.press button).value ≠ Orders.STEPPER_MAX_VALUE)
    (hscreen : s.selecting.screen.stepperValueChanged db row
      (parentCell.stepper.press button).value = .ok screen)
    (hqty : objectAtIndex screen.order.currentQtys row = .ok qty) :
    RowsShown db ⟨⟨screen, none⟩, s.cells.set row { parentCell with
      stepper := parentCell.stepper.press button
      qtyLabel := qtyText qty }, none⟩ := by
  have rows := stepperValueChanged_rows (QuickServe.stepperValueChanged_order hscreen)
  rw [if_neg keep] at rows
  obtain ⟨ids, qtys⟩ := rows
  constructor
  · show (s.cells.set row _).length = screen.order.currentItemIds.length
    rw [List.length_set, ids]
    exact h.length
  · show s.cells.set row _ = List.zipWith _ screen.order.currentItemIds screen.order.currentQtys
    have hrow := hcell
    rw [h.cells, List.getElem?_zipWith] at hrow
    cases hid : s.order.currentItemIds[row]? with
    | none =>
      rw [hid] at hrow
      cases hrow
    | some itemId =>
      cases hold : s.order.currentQtys[row]? with
      | none =>
        rw [hid, hold] at hrow
        cases hrow
      | some old =>
        rw [hid, hold] at hrow
        have parent : parentCell = .ofLine db itemId old := (Option.some.inj hrow).symm
        have written : qty = Int32.ofInt (parentCell.stepper.press button).value := by
          have hset := objectAtIndex_eq_ok.mp hqty
          obtain ⟨hlt, -⟩ := List.getElem?_eq_some_iff.mp hold
          rw [qtys, List.getElem?_set_self hlt] at hset
          exact (Option.some.inj hset).symm
        rw [ids, qtys, zipWith_set_right hid, ← h.cells, ← written]
        congr 1
        rw [QuickServeTableCell.ofLine, written, UIStepper.ofValue_self, parent]
        rfl

/-- **Every event keeps the rows up to date.** -/
theorem RowsShown.step (h : RowsShown db s) (hstep : viewStep db s e = .ok s') :
    RowsShown db s' := by
  cases viewStep_inv hstep with
  | ignored => exact h
  | dismissPopover => exact ⟨h.length, h.cells⟩
  | reload _ hreload => exact (reloadData_shows hreload).1
  | selectRow _ _ hselect =>
    obtain ⟨screen, hscreen, hselect⟩ := bind_eq_ok.mp hselect
    cases hselect
    obtain ⟨x, -, hscreen⟩ := bind_eq_ok.mp hscreen
    cases hscreen
    exact h.of_sameLines ⟨rfl, rfl⟩
  | relabel _ hcell keep hscreen hqty => exact h.relabel hcell keep hscreen hqty
  | scrollTo hcell =>
    -- the row that comes back is the one that was there
    rename_i row cell
    have same : s.cells.set row cell = s.cells := by
      have hrow := cellForRow_eq_ok hcell
      rw [← h.cells] at hrow
      obtain ⟨hlt, rfl⟩ := List.getElem?_eq_some_iff.mp hrow
      exact List.set_getElem_self hlt
    rw [same]
    exact h
  | keepRows _ _ same => exact h.of_sameLines same

/-- **Main result.** Whatever is done to a screen that has been opened, every row of
its table is the one that would be made for its line now, and there are no others. -/
theorem rows_show_order {screen : QuickServe} (hopened : OrderView.opened db screen = .ok s)
    (es : List ViewEvent) : Always (viewStep db) (RowsShown db) s es :=
  always_of_invariant (fun _ _ _ h hstep => RowsShown.step h hstep) (fun _ h => h)
    (reloadData_shows hopened).1

/-- A table with two teas is opened again, a stepper goes round, and a row comes back. -/
theorem rows_show_order_resumed :
    let order := { Orders.init with currentItemIds := [1, 2], currentQtys := [2, 1] }
    let screen := { QuickServe.init ["LUNCH"] (some 3) with order := order }
    ∃ s, OrderView.opened .offline screen = .ok s ∧
      Always (viewStep .offline) (RowsShown .offline) s
        [.press 1 .decrement, .press 0 .increment, .scrollTo 0] := by
  intro order screen
  have shown : (OrderView.opened .offline screen).isOk := by decide +kernel
  cases hopened : OrderView.opened .offline screen with
  | error e =>
    rw [hopened] at shown
    cases shown
  | ok s => exact ⟨s, rfl, rows_show_order hopened _⟩

end Rows

/-! ### Popovers -/

/-- A popover shows what the selected line has, and selecting a line shows it. -/
structure PopoverShows (db : DatabaseAccess) (s : OrderView) : Prop where
  shown : ∀ strings, s.popover = some strings → strings ≠ [] ∧
    ∃ x ∈ s.order.currentItemIds, s.selecting.screen.selectedItemId = some x ∧
      s.order.dictionary.lookup x = some strings ∧
      ∀ mod ∈ strings, ∃ screen, QuickModifierController.viewDidLoad db (some x) = .ok screen ∧
        ShownModifier screen mod
  selectRow : s.popover = none → s.selecting.modifiers = none →
    ∀ row x, s.order.currentItemIds[row]? = some x →
      ∃ s', viewStep db s (.selectRow row) = .ok s' ∧
        ∀ strings, s'.popover = some strings ↔
          strings ≠ [] ∧ s.order.dictionary.lookup x = some strings

/-- What holds at every point of a run: the strings of a popover are the current ones. -/
structure PopoverInvariant (db : DatabaseAccess) (s : OrderView) : Prop where
  offered : KeepsOffered db s.selecting
  current : ∀ strings, s.popover = some strings → strings ≠ [] ∧
    ∃ x ∈ s.order.currentItemIds, s.selecting.screen.selectedItemId = some x ∧
      s.order.dictionary.lookup x = some strings

def OrderView.init (currentMenuItems : List String) (tableNumber : Option Int32) : OrderView :=
  ⟨.init currentMenuItems tableNumber, [], none⟩

section Popovers

variable {db : DatabaseAccess} {s s' : OrderView} {e : ViewEvent}

/-- The screens take a step of theirs, or none. -/
theorem ViewStep.selecting (h : ViewStep db s e s') :
    s'.selecting = s.selecting ∨ ∃ e', selectStep db s.selecting e' = .ok s'.selecting := by
  cases h with
  | ignored => exact .inl rfl
  | dismissPopover => exact .inl rfl
  | reload hselecting hreload =>
    right
    rw [(reloadData_shows hreload).2.1]
    exact ⟨_, hselecting⟩
  | selectRow covered below hselect =>
    rename_i row
    obtain ⟨screen, hscreen, hselect⟩ := bind_eq_ok.mp hselect
    cases hselect
    refine .inr ⟨.selectRow row, ?_⟩
    rw [selectStep, hscreen]
    · rfl
    · exact below
  | relabel below hcell keep hscreen hqty =>
    rename_i row button parentCell screen qty
    refine .inr ⟨.stepperValueChanged row (parentCell.stepper.press button).value, ?_⟩
    rw [selectStep, hscreen]
    · rfl
    · exact below
  | scrollTo _ => exact .inl rfl
  | keepRows _ hselecting _ => exact .inr ⟨_, hselecting⟩

theorem didSelectRow_eq {row : Nat} {x : NSNumber} (hx : s.order.currentItemIds[row]? = some x) :
    s.didSelectRow row = .ok ⟨⟨{ s.selecting.screen with selectedItemId := some x }, none⟩, s.cells,
      if ((s.order.dictionary.lookup x).getD []).length ≠ 0 then
        some ((s.order.dictionary.lookup x).getD []) else none⟩ := by
  rw [OrderView.didSelectRow, QuickServe.didSelectRow, objectAtIndex_eq_ok.mpr hx]
  rfl

theorem viewStep_selectRow (covered : s.popover = none) (below : s.selecting.modifiers = none)
    (row : Nat) : viewStep db s (.selectRow row) = s.didSelectRow row := by
  obtain ⟨⟨screen, modifiers⟩, cells, popover⟩ := s
  cases covered
  cases below
  rfl

/-- There is a popover for strings, and none for no string. -/
theorem popover_eq_some_iff {stored : Option (List String)} {strings : List String} :
    (if (stored.getD []).length ≠ 0 then some (stored.getD []) else none) = some strings ↔
      strings ≠ [] ∧ stored = some strings := by
  cases stored with
  | none => simp
  | some stored =>
    rw [Option.getD_some, Option.some.injEq]
    constructor
    · intro h
      split at h
      · rename_i some_strings
        cases h
        exact ⟨List.ne_nil_of_length_pos (Nat.pos_of_ne_zero some_strings), rfl⟩
      · cases h
    · rintro ⟨some_strings, rfl⟩
      rw [if_pos fun none => some_strings (List.eq_nil_of_length_eq_zero none)]

theorem PopoverInvariant.of_none (offered : KeepsOffered db s.selecting) (none : s.popover = none) :
    PopoverInvariant db s where
  offered := offered
  current := by
    intro strings shown
    rw [none] at shown
    cases shown

theorem PopoverInvariant.step (h : PopoverInvariant db s) (hstep : viewStep db s e = .ok s') :
    PopoverInvariant db s' := by
  have step := viewStep_inv hstep
  have offered : KeepsOffered db s'.selecting := by
    rcases step.selecting with same | ⟨e', hselecting⟩
    · rw [same]
      exact h.offered
    · exact selectStep_keepsOffered h.offered hselecting
  cases step with
  | ignored => exact h
  | dismissPopover => exact .of_none offered rfl
  | reload _ hreload => exact .of_none offered (reloadData_shows hreload).2.2
  | selectRow _ _ hselect =>
    rename_i row
    obtain ⟨screen, hscreen, -⟩ := bind_eq_ok.mp hselect
    obtain ⟨x, hx, -⟩ := bind_eq_ok.mp hscreen
    have hrow := objectAtIndex_eq_ok.mp hx
    rw [didSelectRow_eq hrow] at hselect
    cases hselect
    refine ⟨offered, fun strings shown => ?_⟩
    obtain ⟨some_strings, stored⟩ := popover_eq_some_iff.mp shown
    exact ⟨some_strings, x, List.mem_of_getElem? hrow, rfl, stored⟩
  | relabel _ _ _ _ _ => exact .of_none offered rfl
  | scrollTo _ => exact ⟨h.offered, h.current⟩
  | keepRows covered _ _ => exact .of_none offered covered

theorem PopoverInvariant.popoverShows (h : PopoverInvariant db s) : PopoverShows db s where
  shown := by
    intro strings shown
    obtain ⟨some_strings, x, hx, selected, stored⟩ := h.current strings shown
    refine ⟨some_strings, x, hx, selected, stored, fun mod hmod => ?_⟩
    exact h.offered.modifiersWellFormed.stored x strings stored mod hmod
  selectRow := by
    intro covered below row x hx
    rw [viewStep_selectRow covered below, didSelectRow_eq hx]
    exact ⟨_, rfl, fun strings => popover_eq_some_iff⟩

/-- **Main result.** Along every run a popover shows the strings that the selected line
has, each with a title, a name and a flag of its item's Modifiers screen; and a line
that has strings shows them when it is selected. -/
theorem popover_shows_modifiers (db : DatabaseAccess) (currentMenuItems : List String)
    (tableNumber : Option Int32) (es : List ViewEvent) :
    Always (viewStep db) (PopoverShows db) (.init currentMenuItems tableNumber) es := by
  have start : PopoverInvariant db (.init currentMenuItems tableNumber) :=
    .of_none (keepsOffered_of_stored (holdsOffered_init db)) rfl
  exact always_of_invariant (fun _ _ _ h hstep => PopoverInvariant.step h hstep)
    (fun _ h => h.popoverShows) start

end Popovers

end PointIPad
