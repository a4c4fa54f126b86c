import PointIPad.Selection

/-!
The operations on an order, apart from the screens that perform them.

An order changes in three ways: an item is added, a stepper is moved, and
modifier changes are sent. Totals are computed again at many other points, when
a screen appears. `updateTotals_idempotent` says that this never matters: totals
follow from the items, quantities and modifiers, and so do the tax rates, which
are those of the last item with a unit. `Follows` is the resulting relation
between an order and the same order without those points.
-/

namespace PointIPad

open Transition

namespace Orders

variable {db : DatabaseAccess} {o o' : Orders} {t t' : Totals} {x : NSNumber}

/-! ### What totals depend on -/

def taxes (o : Orders) : Option NSNumber × Option NSNumber :=
  (o.taxOnePercentage, o.taxTwoPercentage)

def Totals.withTaxes (t : Totals) (p : Option NSNumber × Option NSNumber) : Totals :=
  { t with taxOnePercentage := p.1, taxTwoPercentage := p.2 }

/-- The tax rates that a unit of an item leaves behind. -/
def unitTaxes (db : DatabaseAccess) (itemId : NSNumber) : Option NSNumber × Option NSNumber :=
  (some (doubleValue (db.getTax itemId "1") / 100), some (doubleValue (db.getTax itemId "2") / 100))

/-- The tax rates after the loops: those of the last item that has a unit. -/
def taxesAfter (db : DatabaseAccess) :
    List NSNumber → List Int32 → Option NSNumber × Option NSNumber →
      Option NSNumber × Option NSNumber
  | x :: itemIds, qty :: qtys, p =>
    taxesAfter db itemIds qtys (if qty.toInt.toNat = 0 then p else unitTaxes db x)
  | _, _, p => p

/-- The rates are either left alone or replaced by rates that do not depend on
them. -/
theorem taxesAfter_cases (db : DatabaseAccess) (itemIds : List NSNumber) (qtys : List Int32) :
    (∀ p, taxesAfter db itemIds qtys p = p) ∨
      ∀ p q, taxesAfter db itemIds qtys p = taxesAfter db itemIds qtys q := by
  induction itemIds generalizing qtys with
  | nil => exact .inl fun p => rfl
  | cons x itemIds ih =>
    cases qtys with
    | nil => exact .inl fun p => rfl
    | cons qty qtys =>
      by_cases none : qty.toInt.toNat = 0
      · simpa only [taxesAfter, if_pos none] using ih qtys
      · exact .inr fun p q => by simp only [taxesAfter, if_neg none]

theorem taxesAfter_taxesAfter (itemIds : List NSNumber) (qtys : List Int32)
    (p : Option NSNumber × Option NSNumber) :
    taxesAfter db itemIds qtys (taxesAfter db itemIds qtys p) = taxesAfter db itemIds qtys p := by
  rcases taxesAfter_cases db itemIds qtys with same | const
  · rw [same, same]
  · exact const _ _

/-- A unit replaces the rates without reading them. -/
theorem addUnit_ok (h : o.addUnit db x t = .ok t') : t' = t'.withTaxes (unitTaxes db x) := by
  obtain ⟨modsPrice, -, h⟩ := bind_eq_ok.mp h
  cases h
  rfl

theorem addUnits_withTaxes (qty : Nat) (p : Option NSNumber × Option NSNumber) :
    o.addUnits db x qty (t.withTaxes p) =
      (o.addUnits db x qty t).map
        fun t => t.withTaxes (if qty = 0 then p else unitTaxes db x) := by
  induction qty generalizing t p with
  | zero => rfl
  | succ qty ih =>
    have head : o.addUnit db x (t.withTaxes p) = o.addUnit db x t := rfl
    rw [addUnits, addUnits, head]
    cases hunit : o.addUnit db x t with
    | error e => rfl
    | ok t' =>
      rw [ok_bind]
      have later := ih (t := t') (unitTaxes db x)
      rw [← addUnit_ok hunit, ite_self] at later
      rw [if_neg (Nat.succ_ne_zero qty)]
      exact later

theorem addLines_withTaxes (itemIds : List NSNumber) (curItem : Nat)
    (p : Option NSNumber × Option NSNumber) :
    o.addLines db itemIds curItem (t.withTaxes p) =
      (o.addLines db itemIds curItem t).map
        fun t => t.withTaxes (taxesAfter db itemIds (o.currentQtys.drop curItem) p) := by
  induction itemIds generalizing curItem t p with
  | nil => rfl
  | cons x itemIds ih =>
    rw [addLines, addLines]
    cases hqty : objectAtIndex o.currentQtys curItem with
    | error e => rfl
    | ok qty =>
      obtain ⟨hlt, rfl⟩ := List.getElem?_eq_some_iff.mp (objectAtIndex_eq_ok.mp hqty)
      simp only [ok_bind, addUnits_withTaxes]
      rw [List.drop_eq_getElem_cons hlt, taxesAfter]
      cases o.addUnits db x o.currentQtys[curItem].toInt.toNat t with
      | error e => rfl
      | ok t' => exact ih (curItem + 1) _

/-- The loops read quantities and modifiers only. -/
theorem addLines_congr (hqtys : o.currentQtys = o'.currentQtys)
    (hdict : o.dictionary = o'.dictionary) (itemIds : List NSNumber) (curItem : Nat) :
    o.addLines db itemIds curItem t = o'.addLines db itemIds curItem t := by
  have hunit (x : NSNumber) (t : Totals) : o.addUnit db x t = o'.addUnit db x t := by
    simp only [addUnit, priceOfEveryModUsing, modsInDict, hdict]
  have hunits (x : NSNumber) (qty : Nat) (t : Totals) :
      o.addUnits db x qty t = o'.addUnits db x qty t := by
    induction qty generalizing t with
    | zero => rfl
    | succ qty ih =>
      have later : o.addUnits db x qty = o'.addUnits db x qty := funext ih
      rw [addUnits, addUnits, hunit, later]
  induction itemIds generalizing curItem t with
  | nil => rfl
  | cons x itemIds ih => simp only [addLines, hqtys, hunits, ih]

/-- The totals of the items, with no rates to begin with. -/
def computedTotals (db : DatabaseAccess) (o : Orders) : Except NSException Totals :=
  o.addLines db o.currentItemIds 0 ⟨none, 0, 0, none, none⟩

theorem computedTotals_congr (hids : o.currentItemIds = o'.currentItemIds)
    (hqtys : o.currentQtys = o'.currentQtys) (hdict : o.dictionary = o'.dictionary) :
    o.computedTotals db = o'.computedTotals db := by
  rw [computedTotals, computedTotals, hids]
  exact addLines_congr hqtys hdict _ _

theorem updateTotals_eq :
    o.updateTotals db = (o.computedTotals db).map fun t =>
      { o with
        totalAmount := t.totalAmount
        totalPrice := some (doubleValue t.totalAmount + t.firstTax + t.secondTax)
        taxOnePercentage := (taxesAfter db o.currentItemIds o.currentQtys o.taxes).1
        taxTwoPercentage := (taxesAfter db o.currentItemIds o.currentQtys o.taxes).2 } := by
  have hrates : o.addLines db o.currentItemIds 0 (Totals.withTaxes ⟨none, 0, 0, none, none⟩ o.taxes) =
      (o.computedTotals db).map fun t =>
        t.withTaxes (taxesAfter db o.currentItemIds (o.currentQtys.drop 0) o.taxes) :=
    addLines_withTaxes o.currentItemIds 0 o.taxes
  rw [updateTotals]
  show (o.addLines db o.currentItemIds 0 (Totals.withTaxes ⟨none, 0, 0, none, none⟩ o.taxes) >>= _)
    = _
  rw [hrates, computedTotals, List.drop_zero]
  cases o.addLines db o.currentItemIds 0 ⟨none, 0, 0, none, none⟩ <;> rfl

/-! ### Orders that differ in their totals -/

def withTotals (o : Orders) (amount price : Option NSNumber) : Orders :=
  { o with totalAmount := amount, totalPrice := price }

/-- The tax rates are those that computing totals leaves. -/
def Settled (db : DatabaseAccess) (o : Orders) : Prop :=
  taxesAfter db o.currentItemIds o.currentQtys o.taxes = o.taxes

theorem settled_init : Settled db Orders.init := rfl

theorem settled_of_updateTotals (h : o.updateTotals db = .ok o') : Settled db o' := by
  rw [updateTotals_eq] at h
  cases hsums : o.computedTotals db with
  | error e => rw [hsums] at h; cases h
  | ok t =>
    rw [hsums] at h
    cases h
    exact taxesAfter_taxesAfter _ _ _

theorem updateTotals_withTotals (amount price : Option NSNumber) :
    (o.withTotals amount price).updateTotals db = o.updateTotals db := by
  have hsums : (o.withTotals amount price).computedTotals db = o.computedTotals db :=
    computedTotals_congr rfl rfl rfl
  rw [updateTotals_eq, updateTotals_eq, hsums]
  rfl

/-- Computing settled totals again changes the amounts only. -/
theorem Settled.updateTotals (settled : Settled db o) (h : o.updateTotals db = .ok o') :
    ∃ amount price, o' = o.withTotals amount price := by
  rw [updateTotals_eq] at h
  cases hsums : o.computedTotals db with
  | error e => rw [hsums] at h; cases h
  | ok t =>
    rw [hsums, settled] at h
    cases h
    exact ⟨_, _, rfl⟩

/-- **Totals are computed once.** Computing them again changes nothing. -/
theorem updateTotals_idempotent (h : o.updateTotals db = .ok o') :
    o'.updateTotals db = .ok o' := by
  have settled := settled_of_updateTotals h
  have same : o'.computedTotals db = o.computedTotals db := by
    obtain ⟨_, _, _, _, rfl⟩ := updateTotals_eq_ok h
    exact computedTotals_congr rfl rfl rfl
  rw [updateTotals_eq] at h ⊢
  cases hsums : o.computedTotals db with
  | error e => rw [hsums] at h; cases h
  | ok t =>
    rw [same, hsums, settled]
    rw [hsums] at h
    cases h
    rfl

/-- No method reads the amounts. -/
theorem addItem_withTotals (itemId : Option NSNumber) (amount price : Option NSNumber) :
    (o.withTotals amount price).addItem itemId =
      (o.addItem itemId).map fun o => o.withTotals amount price := by
  cases itemId with
  | none => rfl
  | some x =>
    rw [addItem, addItem]
    show (if x ∈ o.currentItemIds then _ else _) = _
    split
    · show (incrementQuantities x o.currentItemIds 0 o.currentQtys >>= _) = _
      cases incrementQuantities x o.currentItemIds 0 o.currentQtys <;> rfl
    · rfl

theorem setQuantity_withTotals (row : Nat) (value : Int) (amount price : Option NSNumber) :
    (o.withTotals amount price).setQuantity row value =
      (o.setQuantity row value).map fun o => o.withTotals amount price := by
  rw [setQuantity, setQuantity]
  show (replaceObjectAtIndex o.currentQtys row _ >>= _) = _
  cases replaceObjectAtIndex o.currentQtys row (Int32.ofInt value) <;> rfl

theorem removeLine_withTotals (row : Nat) (amount price : Option NSNumber) :
    (o.withTotals amount price).removeLine row =
      (o.removeLine row).map fun o => o.withTotals amount price := by
  rw [removeLine, removeLine]
  show (objectAtIndex o.currentItemIds row >>= fun x =>
    removeObjectAtIndex o.currentItemIds row >>= fun _ =>
      removeObjectAtIndex o.currentQtys row >>= _) = _
  cases objectAtIndex o.currentItemIds row with
  | error e => rfl
  | ok x =>
    cases removeObjectAtIndex o.currentItemIds row with
    | error e => rfl
    | ok itemIds => cases removeObjectAtIndex o.currentQtys row <;> rfl

theorem updateDictionaryWithModifierString_withTotals (newChanges : List String)
    (itemId : Option NSNumber) (amount price : Option NSNumber) :
    (o.withTotals amount price).updateDictionaryWithModifierString newChanges itemId =
      (o.updateDictionaryWithModifierString newChanges itemId).map
        fun o => o.withTotals amount price := by
  have same : (o.withTotals amount price).modsInDict itemId = o.modsInDict itemId := rfl
  unfold updateDictionaryWithModifierString
  rw [same]
  cases itemId with
  | none => cases newChanges <;> rfl
  | some key =>
    cases o.modsInDict (some key) with
    | none => cases newChanges <;> rfl
    | some mods =>
      dsimp only
      cases newChanges.foldlM applyNewChange mods <;> rfl

/-- Modifier changes leave items and quantities alone. -/
theorem updateDictionaryWithModifierString_eq_ok {newChanges : List String}
    {itemId : Option NSNumber}
    (h : o.updateDictionaryWithModifierString newChanges itemId = .ok o') :
    ∃ dictionary, o' = { o with dictionary := dictionary } := by
  unfold updateDictionaryWithModifierString at h
  split at h
  · obtain ⟨mods, -, h⟩ := bind_eq_ok.mp h
    cases h
    exact ⟨_, rfl⟩
  · cases h
    exact ⟨o.dictionary, rfl⟩
  · cases h

/-- Amounts that are not read may be anything. -/
theorem map_withTotals_bind {f : Orders → Except NSException Orders} {amount price : Option NSNumber}
    (unread : ∀ o, f (o.withTotals amount price) = f o) (x : Except NSException Orders) :
    (x.map (fun o => o.withTotals amount price) >>= f) = x >>= f := by
  cases x with
  | error e => rfl
  | ok o => exact unread o

end Orders

/-! ### Operations -/

/-- What the screens do to an order. -/
inductive OrderOperation where
  | addToOrder (itemId : Option NSNumber)
  | stepperValueChanged (row : Nat) (value : Int)
  | updateDictionaryWithModifierString (newChanges : List String) (itemId : Option NSNumber)
deriving DecidableEq

/-- An operation, with the totals that it computes. -/
def OrderOperation.perform (db : DatabaseAccess) (o : Orders) :
    OrderOperation → Except NSException Orders
  | .addToOrder itemId => o.addToOrder db itemId >>= Orders.updateTotals db
  | .stepperValueChanged row value => o.stepperValueChanged db row value
  | .updateDictionaryWithModifierString newChanges itemId =>
    o.updateDictionaryWithModifierString newChanges itemId

/-- The operations of a list, one after the other, on an empty order. -/
def replay (db : DatabaseAccess) (operations : List OrderOperation) : Except NSException Orders :=
  run (OrderOperation.perform db) .init operations

/-- An order is another one but for amounts that are to be computed again. -/
def Follows (db : DatabaseAccess) (o o' : Orders) : Prop :=
  o'.Settled db ∧ ∃ amount price, o = o'.withTotals amount price

section Operations

variable {db : DatabaseAccess} {o o' o₁ : Orders}

theorem follows_init : Follows db .init .init := ⟨Orders.settled_init, none, none, rfl⟩

/-- Totals computed from either order are the same. -/
theorem Follows.updateTotals_eq (h : Follows db o o') : o.updateTotals db = o'.updateTotals db := by
  obtain ⟨-, amount, price, rfl⟩ := h
  exact Orders.updateTotals_withTotals amount price

/-- Computing totals at any point makes no difference. -/
theorem Follows.updateTotals (h : Follows db o o') (hstep : o.updateTotals db = .ok o₁) :
    Follows db o₁ o' := by
  rw [h.updateTotals_eq] at hstep
  exact ⟨h.1, h.1.updateTotals hstep⟩

/-- An operation that computes totals ends with settled ones. -/
theorem OrderOperation.perform_addToOrder {itemId : Option NSNumber}
    (hstep : (OrderOperation.addToOrder itemId).perform db o = .ok o₁) :
    o₁.updateTotals db = .ok o₁ ∧ o₁.Settled db := by
  obtain ⟨added, -, htotals⟩ := bind_eq_ok.mp hstep
  exact ⟨Orders.updateTotals_idempotent htotals, Orders.settled_of_updateTotals htotals⟩

theorem OrderOperation.perform_stepperValueChanged {row : Nat} {value : Int}
    (hstep : (OrderOperation.stepperValueChanged row value).perform db o = .ok o₁) :
    o₁.updateTotals db = .ok o₁ ∧ o₁.Settled db := by
  obtain ⟨changed, -, hstep⟩ := bind_eq_ok.mp hstep
  split at hstep
  · obtain ⟨removed, -, hstep⟩ := bind_eq_ok.mp hstep
    obtain ⟨first, -, htotals⟩ := bind_eq_ok.mp hstep
    exact ⟨Orders.updateTotals_idempotent htotals, Orders.settled_of_updateTotals htotals⟩
  · exact ⟨Orders.updateTotals_idempotent hstep, Orders.settled_of_updateTotals hstep⟩

/-- Nor does it before an operation. -/
theorem Follows.perform (h : Follows db o o') {operation : OrderOperation}
    (hstep : operation.perform db o = .ok o₁) :
    ∃ o₁', operation.perform db o' = .ok o₁' ∧ Follows db o₁ o₁' := by
  obtain ⟨settled, amount, price, rfl⟩ := h
  cases operation with
  | addToOrder itemId =>
    have same : (OrderOperation.addToOrder itemId).perform db (o'.withTotals amount price) =
        (OrderOperation.addToOrder itemId).perform db o' := by
      have hadd := Orders.addItem_withTotals (o := o'.getTaxNames db) itemId amount price
      show ((o'.getTaxNames db).withTotals amount price).addItem itemId >>= _ >>= _ = _
      rw [hadd, Orders.map_withTotals_bind fun o => Orders.updateTotals_withTotals amount price]
      rfl
    refine ⟨o₁, same ▸ hstep, (OrderOperation.perform_addToOrder hstep).2, o₁.totalAmount,
      o₁.totalPrice, rfl⟩
  | stepperValueChanged row value =>
    have same : (OrderOperation.stepperValueChanged row value).perform db
          (o'.withTotals amount price) =
        (OrderOperation.stepperValueChanged row value).perform db o' := by
      show Orders.stepperValueChanged db (o'.withTotals amount price) row value =
        Orders.stepperValueChanged db o' row value
      rw [Orders.stepperValueChanged, Orders.stepperValueChanged, Orders.setQuantity_withTotals]
      cases o'.setQuantity row value with
      | error e => rfl
      | ok changed =>
        show (if _ then _ else _) = (if _ then _ else _)
        split
        · rw [Orders.removeLine_withTotals]
          refine Orders.map_withTotals_bind (fun o => ?_) _
          rw [Orders.updateTotals_withTotals]
        · exact Orders.updateTotals_withTotals amount price
    refine ⟨o₁, same ▸ hstep, (OrderOperation.perform_stepperValueChanged hstep).2,
      o₁.totalAmount, o₁.totalPrice, rfl⟩
  | updateDictionaryWithModifierString newChanges itemId =>
    have hstep : (o'.withTotals amount price).updateDictionaryWithModifierString newChanges itemId
      = .ok o₁ := hstep
    rw [Orders.updateDictionaryWithModifierString_withTotals] at hstep
    cases hchange : o'.updateDictionaryWithModifierString newChanges itemId with
    | error e => rw [hchange] at hstep; cases hstep
    | ok changed =>
      rw [hchange] at hstep
      cases hstep
      refine ⟨changed, hchange, ?_, amount, price, rfl⟩
      obtain ⟨dictionary, rfl⟩ := Orders.updateDictionaryWithModifierString_eq_ok hchange
      exact settled

end Operations

/-! ### The operations of the screens -/

/-- The changes that a toggle sends: all that were noted on this visit. -/
def QuickModifierController.sentChanges (c : QuickModifierController) (sect row : Nat)
    (on : Bool) : Except NSException (List String) := do
  let titleOfCell ← c.cellValue sect row
  let titleOfSection ← c.titleForHeaderInSection sect
  addStringModOptionToArray
    (titleOfSection ++ ":" ++ titleOfCell ++ ":" ++ (if on then "1" else "0"))
    c.modifiersToReturnToParent

/-- What an event does to the order, if it is one of the operations. A tap is, on
a menu of items. -/
def Selecting.operation (db : DatabaseAccess) (s : Selecting) (e : SelectEvent) :
    Option OrderOperation :=
  match s.modifiers, e with
  | none, .tap row =>
    if s.screen.isActualItems then
      s.screen.currentMenuItems[row]?.map fun name => .addToOrder
        (db.itemIdWhereClassIs s.screen.classNameForDatabase s.screen.subclassNameForDatabase name)
    else none
  | none, .stepperValueChanged row value => some (.stepperValueChanged row value)
  | some shown, .toggle sect row on =>
    (shown.sentChanges sect row on).toOption.map fun newChanges =>
      .updateDictionaryWithModifierString newChanges shown.selectedItemId
  | _, _ => none

section Screens

variable {db : DatabaseAccess} {s s' : Selecting} {e : SelectEvent}

/-- A tap on an item adds it, and any other tap leaves the order alone. -/
theorem handleOneTap_operation {screen screen' : QuickServe} {row : Nat}
    (h : screen.handleOneTap db (some row) = .ok screen') :
    match (⟨screen, none⟩ : Selecting).operation db (.tap row) with
    | some operation => operation.perform db screen.order = .ok screen'.order
    | none => screen'.order = screen.order := by
  obtain ⟨name, hname, h⟩ := bind_eq_ok.mp h
  have hrow : screen.currentMenuItems[row]? = some name := objectAtIndex_eq_ok.mp hname
  rw [QuickServe.handleName] at h
  simp only [Selecting.operation, hrow, Option.map_some]
  cases hactual : screen.isActualItems with
  | true =>
    rw [if_pos rfl]
    simp only [hactual, Bool.not_true, Bool.and_false, Bool.false_eq_true, if_false] at h
    obtain ⟨added, order, hadded, horder, rfl⟩ := QuickServe.addAnOrder_ok h
    show screen.order.addToOrder db _ >>= _ = _
    rw [hadded, ok_bind, horder, QuickServe.showTotals_order]
  | false =>
    simp only [Bool.false_eq_true, if_false]
    simp only [hactual, Bool.not_false, Bool.and_true] at h
    split at h
    · split at h <;> cases h <;> rfl
    · split at h
      · cases h
        rfl
      · rename_i hsub hnot
        cases hsubclass : screen.isSubclass <;> simp [hsubclass] at hsub hnot

theorem switchChanged_sends {c c' : QuickModifierController} {order order' : Orders}
    {sect row : Nat} {on : Bool} (h : c.switchChanged order sect row on = .ok (c', order')) :
    ∃ newChanges, c.sentChanges sect row on = .ok newChanges ∧
      order.updateDictionaryWithModifierString newChanges c.selectedItemId = .ok order' ∧
      c' = { c with modifiersToReturnToParent := newChanges } := by
  obtain ⟨cell, hcell, h⟩ := bind_eq_ok.mp h
  obtain ⟨title, htitle, h⟩ := bind_eq_ok.mp h
  obtain ⟨newChanges, hchanges, h⟩ := bind_eq_ok.mp h
  obtain ⟨changed, hchanged, h⟩ := bind_eq_ok.mp h
  cases h
  refine ⟨newChanges, ?_, hchanged, rfl⟩
  rw [QuickModifierController.sentChanges, hcell, ok_bind, htitle, ok_bind]
  exact hchanges

/-- What the shown screen does not offer is no operation. -/
theorem operation_of_not_offered (h : s.offers e = false) : s.operation db e = none := by
  obtain ⟨screen, modifiers⟩ := s
  cases modifiers <;> cases e <;> first | rfl | cases h

/-- **What an event does to the order.** It performs its operation; an event with
none computes totals at most. -/
theorem selectStep_performs (h : selectStep db s e = .ok s') :
    match s.operation db e with
    | some operation => operation.perform db s.screen.order = .ok s'.screen.order
    | none => s'.screen.order = s.screen.order ∨
        s.screen.order.updateTotals db = .ok s'.screen.order := by
  cases selectStep_inv h with
  | tap hscreen =>
    have tapped := handleOneTap_operation hscreen
    split at tapped
    · exact tapped
    · exact .inl tapped
  | back => exact .inl (QuickServe.flipBackMenuItems_order _)
  | selectRow _ => exact .inl rfl
  | stepperValueChanged hscreen => exact QuickServe.stepperValueChanged_order hscreen
  | openModifiers => exact .inl rfl
  | toggle hswitch =>
    obtain ⟨newChanges, hchanges, hupdate, -⟩ := switchChanged_sends hswitch
    simp only [Selecting.operation, hchanges, Except.toOption, Option.map_some]
    exact hupdate
  | closeModifiers hscreen => exact .inr (QuickServe.viewWillAppear_order hscreen)
  | ignored hoffers =>
    rw [operation_of_not_offered hoffers]
    exact .inl rfl

/-- Without the Modifiers screen above it, the order shows the totals of its
items. -/
theorem selectStep_totals (h : selectStep db s e = .ok s') (hclosed : s'.modifiers = none)
    (totals : s.modifiers = none → s.screen.order.updateTotals db = .ok s.screen.order) :
    s'.screen.order.updateTotals db = .ok s'.screen.order := by
  cases selectStep_inv h with
  | tap hscreen =>
    rcases QuickServe.handleOneTap_order hscreen with same | ⟨itemId, added, -, updated⟩
    · rw [same]
      exact totals rfl
    · exact Orders.updateTotals_idempotent updated
  | back =>
    rw [QuickServe.flipBackMenuItems_order]
    exact totals rfl
  | selectRow _ => exact totals rfl
  | stepperValueChanged hscreen =>
    exact (OrderOperation.perform_stepperValueChanged
      (QuickServe.stepperValueChanged_order hscreen)).1
  | openModifiers => cases hclosed
  | toggle _ => cases hclosed
  | closeModifiers hscreen =>
    exact Orders.updateTotals_idempotent (QuickServe.viewWillAppear_order hscreen)
  | ignored _ => exact totals hclosed

end Screens

end PointIPad
