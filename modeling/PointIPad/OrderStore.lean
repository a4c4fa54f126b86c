import PointIPad.Lib.OrderedMap
import PointIPad.Orders

/-!
The order as one ordered map.

The model adds items and the controller's stepper replaces and deletes them, on
three containers that nothing but the code keeps in step. `Represents` says that
the containers of an order hold one insertion-ordered map from items to lines;
it implies that the arrays are equally long, that the ids are distinct, and that
the dictionary has exactly the ids as keys.

**Main result.** Every event offered on an order completes, and changes the
represented map by exactly one operation on it (`orderStep_represents`); so
after any run the containers hold the map the events build
(`order_store_refines`). The one proviso is that a quantity is an `int`: an item
whose quantity is the largest `int` must not be tapped once more.
-/

namespace PointIPad

open Transition

/-! ### The stepper -/

namespace Orders

def STEPPER_MAX_VALUE : Int := 20
def STEPPER_MIN_VALUE : Int := 1

/-- `[[order currentQtys] replaceObjectAtIndex:row withObject:...]`. -/
def setQuantity (o : Orders) (row : Nat) (value : Int) : Except NSException Orders := do
  let qtys ← replaceObjectAtIndex o.currentQtys row (Int32.ofInt value)
  .ok { o with currentQtys := qtys }

/-- A line leaves the three containers. -/
def removeLine (o : Orders) (row : Nat) : Except NSException Orders := do
  let itemId ← objectAtIndex o.currentItemIds row
  let itemIds ← removeObjectAtIndex o.currentItemIds row
  let qtys ← removeObjectAtIndex o.currentQtys row
  .ok { o with
    dictionary := o.dictionary.erase itemId
    currentItemIds := itemIds
    currentQtys := qtys }

/-- What a stepper does to the order: the quantity of its row is replaced, and at
the largest value the row is removed and the totals are computed twice. -/
def stepperValueChanged (db : DatabaseAccess) (o : Orders) (row : Nat) (value : Int) :
    Except NSException Orders := do
  let o ← o.setQuantity row value
  if value = STEPPER_MAX_VALUE then
    let o ← o.removeLine row
    let o ← o.updateTotals db
    o.updateTotals db
  else o.updateTotals db

end Orders

/-! ### Lines -/

/-- What an order says about one item. -/
structure Line where
  quantity : Int
  modifiers : List ModChoice
  positive : 1 ≤ quantity

namespace Line

/-- An item just added: one unit, no modifiers. -/
def single : Line := ⟨1, [], le_refl 1⟩

/-- One unit more. -/
def addUnit (l : Line) : Line :=
  { l with quantity := l.quantity + 1, positive := l.positive.trans (by omega) }

/-- Another quantity; nothing below one is taken. -/
def setQuantity (value : Int) (l : Line) : Line :=
  if h : 1 ≤ value then { l with quantity := value, positive := h } else l

/-- The modifier entries after some changes. -/
def change (changes : List ModChoice) (l : Line) : Line :=
  { l with modifiers := ModChoice.applyChanges l.modifiers changes }

@[simp] theorem addUnit_quantity (l : Line) : l.addUnit.quantity = l.quantity + 1 := rfl

@[simp] theorem addUnit_modifiers (l : Line) : l.addUnit.modifiers = l.modifiers := rfl

theorem setQuantity_quantity {value : Int} (h : 1 ≤ value) (l : Line) :
    (l.setQuantity value).quantity = value := by
  rw [setQuantity, dif_pos h]

@[simp] theorem setQuantity_modifiers (value : Int) (l : Line) :
    (l.setQuantity value).modifiers = l.modifiers := by
  unfold setQuantity
  split <;> rfl

@[simp] theorem change_quantity (changes : List ModChoice) (l : Line) :
    (l.change changes).quantity = l.quantity := rfl

end Line

/-- The lines of an order, by item, in the order in which the items came. -/
abbrev OrderLines := OrderedMap NSNumber Line

/-! ### Events -/

/-- What the screens do to an order. -/
inductive OrderEvent where
  | addToOrder (itemId : NSNumber)
  | stepperValueChanged (row : Nat) (value : Int)
  | changedModifiers (itemId : NSNumber) (changes : List ModChoice)

/-- One event, by the code. -/
def orderStep (db : DatabaseAccess) (o : Orders) : OrderEvent → Except NSException Orders
  | .addToOrder itemId => o.addToOrder db (some itemId)
  | .stepperValueChanged row value => o.stepperValueChanged db row value
  | .changedModifiers itemId changes =>
    o.updateDictionaryWithModifierString (changes.map ModChoice.text) (some itemId)

/-- One event, on the lines. -/
def lineStep (m : OrderLines) : OrderEvent → OrderLines
  | .addToOrder itemId => m.upsert itemId Line.single Line.addUnit
  | .stepperValueChanged row value =>
    if value = Orders.STEPPER_MAX_VALUE then m.eraseRow row
    else m.modifyRow row (Line.setQuantity value)
  | .changedModifiers itemId changes => m.modify itemId (Line.change changes)

/-- An event the screens can offer: a stepper is in a displayed row and takes the
values 1 to 20, and modifiers are of an item in the order. -/
def Offered (o : Orders) : OrderEvent → Prop
  | .addToOrder _ => True
  | .stepperValueChanged row value =>
    row < o.currentItemIds.length ∧ Orders.STEPPER_MIN_VALUE ≤ value ∧
      value ≤ Orders.STEPPER_MAX_VALUE
  | .changedModifiers itemId _ => itemId ∈ o.currentItemIds

/-- The event does not add a unit to a line whose quantity is the largest `int`. -/
def NoOverflow (o : Orders) : OrderEvent → Prop
  | .addToOrder itemId => (itemId, Int32.maxValue) ∉ o.currentItemIds.zip o.currentQtys
  | _ => True

instance (o : Orders) : (e : OrderEvent) → Decidable (Offered o e)
  | .addToOrder _ => isTrue trivial
  | .stepperValueChanged _ _ => inferInstanceAs (Decidable (_ ∧ _ ∧ _))
  | .changedModifiers itemId _ => inferInstanceAs (Decidable (itemId ∈ o.currentItemIds))

instance (o : Orders) : (e : OrderEvent) → Decidable (NoOverflow o e)
  | .addToOrder _ => inferInstanceAs (Decidable (_ ∉ _))
  | .stepperValueChanged _ _ => isTrue trivial
  | .changedModifiers _ _ => isTrue trivial

/-! ### Representation -/

/-- What keeps the three containers in step. -/
structure StoreInvariant (o : Orders) : Prop where
  length_eq : o.currentItemIds.length = o.currentQtys.length
  nodup : o.currentItemIds.Nodup
  mem_dictionary_iff : ∀ x, x ∈ o.dictionary ↔ x ∈ o.currentItemIds
  one_le_qty : ∀ q ∈ o.currentQtys, 1 ≤ q.toInt

/-- The three containers of an order hold one ordered map. -/
structure Represents (o : Orders) (m : OrderLines) : Prop where
  itemIds : o.currentItemIds = m.keys
  qtys : o.currentQtys.map Int32.toInt = m.values.map Line.quantity
  modifiers : ∀ x, o.dictionary.lookup x =
    (m.get? x).map fun l => l.modifiers.map ModChoice.text

theorem represents_init : Represents Orders.init OrderedMap.empty where
  itemIds := rfl
  qtys := rfl
  modifiers := fun x => Finmap.lookup_empty x

namespace Represents

variable {o : Orders} {m : OrderLines}

theorem length_eq (h : Represents o m) : o.currentItemIds.length = o.currentQtys.length := by
  have hlen := congrArg List.length h.qtys
  rw [List.length_map, List.length_map, OrderedMap.length_values] at hlen
  rw [h.itemIds, hlen]

theorem nodup (h : Represents o m) : o.currentItemIds.Nodup := h.itemIds ▸ m.keys_nodup

theorem mem_dictionary_iff (h : Represents o m) (x : NSNumber) :
    x ∈ o.dictionary ↔ x ∈ o.currentItemIds := by
  rw [← Finmap.lookup_isSome, h.modifiers, Option.isSome_map, OrderedMap.isSome_get?_iff,
    h.itemIds]

theorem one_le_qty (h : Represents o m) {q : Int32} (hq : q ∈ o.currentQtys) : 1 ≤ q.toInt := by
  have hmem : q.toInt ∈ m.values.map Line.quantity := h.qtys ▸ List.mem_map_of_mem hq
  obtain ⟨l, -, hl⟩ := List.mem_map.mp hmem
  exact hl ▸ l.positive

theorem storeInvariant (h : Represents o m) : StoreInvariant o where
  length_eq := h.length_eq
  nodup := h.nodup
  mem_dictionary_iff := h.mem_dictionary_iff
  one_le_qty := fun _ => h.one_le_qty

/-- The line of an item in the order, and the strings the dictionary has for it. -/
theorem exists_line (h : Represents o m) {x : NSNumber} (hx : x ∈ o.currentItemIds) :
    ∃ l, m.get? x = some l ∧ o.dictionary.lookup x = some (l.modifiers.map ModChoice.text) := by
  rw [h.itemIds] at hx
  obtain ⟨l, hl⟩ := Option.isSome_iff_exists.mp (OrderedMap.isSome_get?_iff.mpr hx)
  exact ⟨l, hl, by rw [h.modifiers, hl]; rfl⟩

/-- Totals can always be computed, and the map stays. -/
theorem updateTotals (h : Represents o m) (db : DatabaseAccess) :
    ∃ o', o.updateTotals db = .ok o' ∧ Represents o' m := by
  obtain ⟨o', ho'⟩ := Orders.updateTotals_succeeds (le_of_eq h.length_eq) fun x hx => by
    obtain ⟨l, -, hmods⟩ := h.exists_line hx
    exact ⟨_, Orders.priceOfEveryModUsing_text db hmods⟩
  obtain ⟨_, _, _, _, rfl⟩ := Orders.updateTotals_eq_ok ho'
  exact ⟨_, ho', h.itemIds, h.qtys, h.modifiers⟩

end Represents

/-! ### The steps -/

section Steps

variable {db : DatabaseAccess} {o : Orders} {m : OrderLines} {itemId : NSNumber}

theorem incrementQuantities_of_not_mem {itemIds : List NSNumber} (h : itemId ∉ itemIds)
    (qtyIndex : Nat) (qtys : List Int32) :
    Orders.incrementQuantities itemId itemIds qtyIndex qtys = .ok qtys := by
  induction itemIds generalizing qtyIndex with
  | nil => rfl
  | cons x itemIds ih =>
    rw [List.mem_cons, not_or] at h
    rw [Orders.incrementQuantities, if_neg (Ne.symm h.1)]
    exact ih h.2 (qtyIndex + 1)

/-- Among distinct ids the loop adds one unit, at the row of the item. -/
theorem incrementQuantities_of_row {itemIds : List NSNumber} (nodup : itemIds.Nodup) {row : Nat}
    (hrow : itemIds[row]? = some itemId) {qtyIndex : Nat} {qtys : List Int32} {q : Int32}
    (hq : qtys[qtyIndex + row]? = some q) :
    Orders.incrementQuantities itemId itemIds qtyIndex qtys =
      .ok (qtys.set (qtyIndex + row) (q + 1)) := by
  induction itemIds generalizing qtyIndex row with
  | nil => simp at hrow
  | cons x itemIds ih =>
    obtain ⟨hx, nodup⟩ := List.nodup_cons.mp nodup
    cases row with
    | zero =>
      rw [List.getElem?_cons_zero, Option.some.injEq] at hrow
      subst hrow
      rw [Nat.add_zero] at hq ⊢
      obtain ⟨hlt, -⟩ := List.getElem?_eq_some_iff.mp hq
      rw [Orders.incrementQuantities, if_pos rfl, objectAtIndex_eq_ok.mpr hq, ok_bind]
      simp only [replaceObjectAtIndex_eq_ok.mpr ⟨hlt, rfl⟩, ok_bind]
      exact incrementQuantities_of_not_mem hx _ _
    | succ row =>
      rw [List.getElem?_cons_succ] at hrow
      have hne : x ≠ itemId := by
        rintro rfl
        exact hx (List.mem_of_getElem? hrow)
      rw [Orders.incrementQuantities, if_neg hne,
        ih nodup hrow (by rw [← hq]; congr 1; omega)]
      congr 2
      omega

/-- A quantity below the largest `int` is really one more after the addition. -/
theorem toInt_add_one {q : Int32} (h : q ≠ Int32.maxValue) : (q + 1).toInt = q.toInt + 1 := by
  have hle : q.toInt ≤ 2 ^ 31 - 1 := Int32.toInt_le q
  have hge : -2 ^ 31 ≤ q.toInt := Int32.le_toInt q
  have hne : q.toInt ≠ 2 ^ 31 - 1 := fun heq => h (Int32.toInt_inj.mp heq)
  rw [Int32.toInt_add, Int32.toInt_one]
  exact Int.bmod_eq_of_le (by omega) (by omega)

/-- A quantity replaced in its row, and the same row of the lines changed. -/
theorem map_set_eq_map_modify {qtys : List Int32} {lines : List Line}
    (h : qtys.map Int32.toInt = lines.map Line.quantity) {row : Nat} {q : Int32}
    {f : Line → Line} (hrow : ∀ l, lines[row]? = some l → (f l).quantity = q.toInt) :
    (qtys.set row q).map Int32.toInt = (lines.modify row f).map Line.quantity := by
  have hlen : qtys.length = lines.length := by simpa using congrArg List.length h
  refine List.ext_getElem? fun i => ?_
  have hi : qtys[i]?.map Int32.toInt = lines[i]?.map Line.quantity := by
    rw [← List.getElem?_map, ← List.getElem?_map, h]
  rw [List.getElem?_map, List.getElem?_map, List.getElem?_set, List.getElem?_modify]
  by_cases same : row = i
  · subst same
    cases hline : lines[row]? with
    | none =>
      have : ¬ row < qtys.length := by
        rw [hlen]
        exact Nat.not_lt.mpr (List.getElem?_eq_none_iff.mp hline)
      simp [this]
    | some l =>
      have : row < qtys.length := hlen ▸ (List.getElem?_eq_some_iff.mp hline).1
      simp [this, hrow l hline]
  · simp [same, hi]

theorem map_quantity_modify {lines : List Line} {row : Nat} {f : Line → Line}
    (h : ∀ l, (f l).quantity = l.quantity) :
    (lines.modify row f).map Line.quantity = lines.map Line.quantity := by
  refine List.ext_getElem? fun i => ?_
  rw [List.getElem?_map, List.getElem?_map, List.getElem?_modify]
  cases lines[i]? with
  | none => rfl
  | some l =>
    simp only [Option.map_eq_map, Option.map_some, Option.some.injEq]
    split
    · exact h l
    · rfl

/-- Changing the line of an item changes its strings and no others. -/
theorem lookup_of_modify (h : Represents o m) {f : Line → Line} {d : NSMutableDictionary _ _}
    (hself : d.lookup itemId =
      (m.get? itemId).map fun l => (f l).modifiers.map ModChoice.text)
    (hother : ∀ x, x ≠ itemId → d.lookup x = o.dictionary.lookup x) (x : NSNumber) :
    d.lookup x = ((m.modify itemId f).get? x).map fun l => l.modifiers.map ModChoice.text := by
  by_cases same : x = itemId
  · subst same
    rw [hself, OrderedMap.get?_modify_self, Option.map_map]
    rfl
  · rw [hother x same, h.modifiers, OrderedMap.get?_modify_of_ne m same]

/-- An item in the order gets one unit more. -/
theorem addItem_known (h : Represents o m) (known : itemId ∈ o.currentItemIds)
    (noOverflow : NoOverflow o (.addToOrder itemId)) :
    ∃ o', o.addItem (some itemId) = .ok o' ∧ Represents o' (m.modify itemId Line.addUnit) := by
  obtain ⟨row, hrow⟩ := List.mem_iff_getElem?.mp known
  obtain ⟨q, hq⟩ : ∃ q, o.currentQtys[0 + row]? = some q := by
    obtain ⟨hlt, -⟩ := List.getElem?_eq_some_iff.mp hrow
    exact ⟨_, List.getElem?_eq_getElem (by rw [Nat.zero_add, ← h.length_eq]; exact hlt)⟩
  have hloop := incrementQuantities_of_row h.nodup hrow hq
  rw [Nat.zero_add] at hq hloop
  have hkeys : m.keys[row]? = some itemId := h.itemIds ▸ hrow
  refine ⟨{ o with currentQtys := o.currentQtys.set row (q + 1) }, ?_, ?_⟩
  · simp only [Orders.addItem, if_pos known, hloop, ok_bind]
  · refine ⟨h.itemIds.trans (OrderedMap.keys_modify m).symm, ?_, ?_⟩
    · rw [OrderedMap.values_modify m hkeys]
      refine map_set_eq_map_modify h.qtys fun l hl => ?_
      have hquantity : q.toInt = l.quantity := by
        have := congrArg (fun qs : List Int => qs[row]?) h.qtys
        simpa [hq, hl] using this
      rw [Line.addUnit_quantity, ← hquantity, toInt_add_one]
      rintro rfl
      exact noOverflow (List.mem_of_getElem? (List.getElem?_zip_eq_some.mpr ⟨hrow, hq⟩))
    · exact lookup_of_modify h (h.modifiers itemId) fun _ _ => rfl

/-- A new item is added with one unit and no modifiers. -/
theorem addItem_new (h : Represents o m) (new : itemId ∉ o.currentItemIds) :
    ∃ o', o.addItem (some itemId) = .ok o' ∧
      Represents o' (m.upsert itemId Line.single Line.addUnit) := by
  have hnew : itemId ∉ m.keys := h.itemIds ▸ new
  refine ⟨{ o with
    currentItemIds := o.currentItemIds ++ [itemId]
    currentQtys := o.currentQtys ++ [1]
    dictionary := o.dictionary.insert itemId [] }, ?_, ?_⟩
  · simp only [Orders.addItem, if_neg new]
  · refine ⟨?_, ?_, fun x => ?_⟩
    · rw [OrderedMap.keys_upsert_of_not_mem m hnew, h.itemIds]
    · rw [OrderedMap.values_upsert_of_not_mem m hnew, List.map_append, List.map_append, h.qtys]
      rfl
    · by_cases same : x = itemId
      · subst same
        rw [Finmap.lookup_insert, OrderedMap.get?_upsert_self, OrderedMap.get?_eq_none_iff.mpr hnew]
        rfl
      · rw [Finmap.lookup_insert_of_ne _ same, h.modifiers, OrderedMap.get?_upsert_of_ne m same]

theorem addToOrder_represents (h : Represents o m)
    (noOverflow : NoOverflow o (.addToOrder itemId)) :
    ∃ o', orderStep db o (.addToOrder itemId) = .ok o' ∧
      Represents o' (lineStep m (.addToOrder itemId)) := by
  have named : Represents (o.getTaxNames db) m := ⟨h.itemIds, h.qtys, h.modifiers⟩
  obtain ⟨o₁, hadd, h₁⟩ : ∃ o₁, (o.getTaxNames db).addItem (some itemId) = .ok o₁ ∧
      Represents o₁ (m.upsert itemId Line.single Line.addUnit) := by
    by_cases known : itemId ∈ o.currentItemIds
    · have hmem : itemId ∈ m.keys := h.itemIds ▸ known
      rw [OrderedMap.upsert, dif_pos hmem]
      exact addItem_known named known noOverflow
    · exact addItem_new named known
  obtain ⟨o₂, htotals, h₂⟩ := h₁.updateTotals db
  refine ⟨o₂, ?_, h₂⟩
  rw [orderStep, Orders.addToOrder, hadd, ok_bind, htotals]

theorem setQuantity_represents (h : Represents o m) {row : Nat}
    (hrow : row < o.currentItemIds.length) {value : Int} (hlow : 1 ≤ value) (hup : value ≤ 20) :
    ∃ o', o.setQuantity row value = .ok o' ∧
      Represents o' (m.modifyRow row (Line.setQuantity value)) := by
  have hqty : row < o.currentQtys.length := h.length_eq ▸ hrow
  obtain ⟨itemId, hitem⟩ : ∃ itemId, o.currentItemIds[row]? = some itemId :=
    ⟨_, List.getElem?_eq_getElem hrow⟩
  have hkeys : m.keys[row]? = some itemId := h.itemIds ▸ hitem
  refine ⟨{ o with currentQtys := o.currentQtys.set row (Int32.ofInt value) }, ?_, ?_⟩
  · rw [Orders.setQuantity, replaceObjectAtIndex_eq_ok.mpr ⟨hqty, rfl⟩, ok_bind]
  · rw [OrderedMap.modifyRow_of_row m hkeys]
    refine ⟨h.itemIds.trans (OrderedMap.keys_modify m).symm, ?_, ?_⟩
    · rw [OrderedMap.values_modify m hkeys]
      refine map_set_eq_map_modify h.qtys fun l _ => ?_
      rw [Line.setQuantity_quantity hlow, Int32.toInt_ofInt_of_le (by omega) (by omega)]
    · refine lookup_of_modify h ?_ fun _ _ => rfl
      simp only [Line.setQuantity_modifiers]
      exact h.modifiers itemId

theorem removeLine_represents (h : Represents o m) {row : Nat}
    (hrow : row < o.currentItemIds.length) :
    ∃ o', o.removeLine row = .ok o' ∧ Represents o' (m.eraseRow row) := by
  have hqty : row < o.currentQtys.length := h.length_eq ▸ hrow
  obtain ⟨itemId, hitem⟩ : ∃ itemId, o.currentItemIds[row]? = some itemId :=
    ⟨_, List.getElem?_eq_getElem hrow⟩
  have hkeys : m.keys[row]? = some itemId := h.itemIds ▸ hitem
  refine ⟨{ o with
    dictionary := o.dictionary.erase itemId
    currentItemIds := o.currentItemIds.eraseIdx row
    currentQtys := o.currentQtys.eraseIdx row }, ?_, ?_, ?_, fun x => ?_⟩
  · simp only [Orders.removeLine, objectAtIndex_eq_ok.mpr hitem, ok_bind,
      removeObjectAtIndex_eq_ok.mpr ⟨hrow, rfl⟩, removeObjectAtIndex_eq_ok.mpr ⟨hqty, rfl⟩]
  · rw [OrderedMap.keys_eraseRow, h.itemIds]
  · rw [OrderedMap.values_eraseRow, ← List.eraseIdx_map, ← List.eraseIdx_map, h.qtys]
  · by_cases same : x = itemId
    · subst same
      rw [Finmap.lookup_erase, OrderedMap.get?_eraseRow_self m hkeys]
      rfl
    · rw [Finmap.lookup_erase_ne same, h.modifiers, OrderedMap.get?_eraseRow_of_ne m hkeys same]

theorem stepperValueChanged_represents (h : Represents o m) {row : Nat} {value : Int}
    (offered : Offered o (.stepperValueChanged row value)) :
    ∃ o', orderStep db o (.stepperValueChanged row value) = .ok o' ∧
      Represents o' (lineStep m (.stepperValueChanged row value)) := by
  obtain ⟨hrow, hlow, hup⟩ := offered
  obtain ⟨o₁, hset, h₁⟩ := setQuantity_represents h hrow hlow hup
  rw [orderStep, Orders.stepperValueChanged, hset, ok_bind, lineStep]
  by_cases remove : value = Orders.STEPPER_MAX_VALUE
  · rw [if_pos remove, if_pos remove]
    have hrow₁ : row < o₁.currentItemIds.length := by
      rw [h₁.itemIds, OrderedMap.keys_modifyRow, ← h.itemIds]
      exact hrow
    obtain ⟨o₂, hremove, h₂⟩ := removeLine_represents h₁ hrow₁
    obtain ⟨o₃, htotals, h₃⟩ := h₂.updateTotals db
    obtain ⟨o₄, htotals', h₄⟩ := h₃.updateTotals db
    refine ⟨o₄, by rw [hremove, ok_bind, htotals, ok_bind, htotals'], ?_⟩
    -- the quantity just set goes with its row
    rwa [OrderedMap.eraseRow_modifyRow] at h₄
  · rw [if_neg remove, if_neg remove]
    exact h₁.updateTotals db

theorem changedModifiers_represents (h : Represents o m) {changes : List ModChoice}
    (offered : Offered o (.changedModifiers itemId changes)) :
    ∃ o', orderStep db o (.changedModifiers itemId changes) = .ok o' ∧
      Represents o' (lineStep m (.changedModifiers itemId changes)) := by
  obtain ⟨l, hl, hmods⟩ := h.exists_line offered
  refine ⟨_, Orders.updateDictionaryWithModifierString_text _ hmods, ?_⟩
  obtain ⟨row, hrow⟩ := List.mem_iff_getElem?.mp (h.itemIds ▸ offered : itemId ∈ m.keys)
  refine ⟨h.itemIds.trans (OrderedMap.keys_modify m).symm, ?_, ?_⟩
  · rw [lineStep, OrderedMap.values_modify m hrow, h.qtys]
    exact (map_quantity_modify (Line.change_quantity changes)).symm
  · refine lookup_of_modify h ?_ fun x hx => Finmap.lookup_insert_of_ne _ hx
    rw [Finmap.lookup_insert, hl]
    rfl

/-- **Main result, one step.** An offered event completes and changes the lines
as `lineStep` says. -/
theorem orderStep_represents (h : Represents o m) (e : OrderEvent) (offered : Offered o e)
    (noOverflow : NoOverflow o e) :
    ∃ o', orderStep db o e = .ok o' ∧ Represents o' (lineStep m e) := by
  cases e with
  | addToOrder itemId => exact addToOrder_represents h noOverflow
  | stepperValueChanged row value => exact stepperValueChanged_represents h offered
  | changedModifiers itemId changes => exact changedModifiers_represents h offered

end Steps

/-! ### What a step leaves alone -/

/-- What an event does to the lines: the order of the items, the line of the item
it is about, and the lines of all others. -/
def Effect (m m' : OrderLines) : OrderEvent → Prop
  | .addToOrder x =>
    (x ∈ m.keys → m'.keys = m.keys ∧ ∃ l l', m.get? x = some l ∧ m'.get? x = some l' ∧
      l'.quantity = l.quantity + 1 ∧ l'.modifiers = l.modifiers) ∧
    (x ∉ m.keys → m'.keys = m.keys ++ [x] ∧
      ∃ l', m'.get? x = some l' ∧ l'.quantity = 1 ∧ l'.modifiers = []) ∧
    ∀ y, y ≠ x → m'.get? y = m.get? y
  | .stepperValueChanged row value =>
    ∃ x, m.keys[row]? = some x ∧
      (value < Orders.STEPPER_MAX_VALUE → m'.keys = m.keys ∧ ∃ l l', m.get? x = some l ∧
        m'.get? x = some l' ∧ l'.quantity = value ∧ l'.modifiers = l.modifiers) ∧
      (value = Orders.STEPPER_MAX_VALUE → m'.keys = m.keys.eraseIdx row ∧ m'.get? x = none) ∧
      ∀ y, y ≠ x → m'.get? y = m.get? y
  | .changedModifiers x changes =>
    m'.keys = m.keys ∧ (∃ l l', m.get? x = some l ∧ m'.get? x = some l' ∧
      l'.quantity = l.quantity ∧
      l'.modifiers = ModChoice.applyChanges l.modifiers changes) ∧
    ∀ y, y ≠ x → m'.get? y = m.get? y

theorem lineStep_effect {o : Orders} {m : OrderLines} (h : Represents o m) {e : OrderEvent}
    (offered : Offered o e) : Effect m (lineStep m e) e := by
  cases e with
  | addToOrder x =>
    refine ⟨fun known => ⟨OrderedMap.keys_upsert_of_mem m known, ?_⟩,
      fun new => ⟨OrderedMap.keys_upsert_of_not_mem m new, ?_⟩,
      fun y hy => OrderedMap.get?_upsert_of_ne m hy⟩
    · obtain ⟨l, hl⟩ := Option.isSome_iff_exists.mp (OrderedMap.isSome_get?_iff.mpr known)
      refine ⟨l, l.addUnit, hl, ?_, rfl, rfl⟩
      rw [lineStep, OrderedMap.get?_upsert_self, hl, Option.elim_some]
    · refine ⟨Line.single, ?_, rfl, rfl⟩
      rw [lineStep, OrderedMap.get?_upsert_self, OrderedMap.get?_eq_none_iff.mpr new,
        Option.elim_none]
  | stepperValueChanged row value =>
    obtain ⟨hrow, hlow, hup⟩ := offered
    obtain ⟨x, hx⟩ : ∃ x, m.keys[row]? = some x :=
      ⟨_, List.getElem?_eq_getElem (h.itemIds ▸ hrow)⟩
    have hmem : x ∈ m.keys := List.mem_of_getElem? hx
    obtain ⟨l, hl⟩ := Option.isSome_iff_exists.mp (OrderedMap.isSome_get?_iff.mpr hmem)
    refine ⟨x, hx, fun below => ?_, fun top => ?_, fun y hy => ?_⟩
    · rw [lineStep, if_neg below.ne, OrderedMap.modifyRow_of_row m hx]
      refine ⟨OrderedMap.keys_modify m, l, l.setQuantity value, hl, ?_,
        Line.setQuantity_quantity hlow l, Line.setQuantity_modifiers value l⟩
      rw [OrderedMap.get?_modify_self, hl, Option.map_some]
    · rw [lineStep, if_pos top]
      exact ⟨OrderedMap.keys_eraseRow m row, OrderedMap.get?_eraseRow_self m hx⟩
    · rw [lineStep]
      split
      · exact OrderedMap.get?_eraseRow_of_ne m hx hy
      · rw [OrderedMap.modifyRow_of_row m hx]
        exact OrderedMap.get?_modify_of_ne m hy
  | changedModifiers x changes =>
    obtain ⟨l, hl, -⟩ := h.exists_line offered
    refine ⟨OrderedMap.keys_modify m, ⟨l, l.change changes, hl, ?_, rfl, rfl⟩,
      fun y hy => OrderedMap.get?_modify_of_ne m hy⟩
    rw [lineStep, OrderedMap.get?_modify_self, hl, Option.map_some]

/-! ### Runs -/

/-- The lines that a list of events builds from the empty order. -/
def linesAfter (es : List OrderEvent) : OrderLines := es.foldl lineStep OrderedMap.empty

theorem run_represents {db : DatabaseAccess} {o : Orders} {m : OrderLines}
    (h : Represents o m) {es : List OrderEvent}
    (offered : EachStep (orderStep db) (fun o e => Offered o e ∧ NoOverflow o e) o es) :
    ∃ o', run (orderStep db) o es = .ok o' ∧ Represents o' (es.foldl lineStep m) := by
  refine run_refines ?_ h offered
  rintro o m e represents ⟨hoffered, noOverflow⟩
  exact orderStep_represents represents e hoffered noOverflow

/-- **Main result.** A run of offered events from the empty order completes, and
its containers are in step: they hold the map that the events build. The next
offered event completes too, and has its effect on that map and no other. -/
theorem order_store_refines (db : DatabaseAccess) (es : List OrderEvent)
    (offered : EachStep (orderStep db) (fun o e => Offered o e ∧ NoOverflow o e)
      Orders.init es) :
    ∃ o, run (orderStep db) Orders.init es = .ok o ∧ StoreInvariant o ∧
      Represents o (linesAfter es) ∧
      ∀ e, Offered o e → NoOverflow o e → ∃ o', orderStep db o e = .ok o' ∧
        Represents o' (linesAfter (es ++ [e])) ∧
        Effect (linesAfter es) (linesAfter (es ++ [e])) e := by
  obtain ⟨o, hrun, h⟩ := run_represents represents_init offered
  refine ⟨o, hrun, h.storeInvariant, h, fun e hoffered hint => ?_⟩
  obtain ⟨o', hstep, h'⟩ := orderStep_represents h e hoffered hint
  have hlines : linesAfter (es ++ [e]) = lineStep (linesAfter es) e := by
    rw [linesAfter, List.foldl_append]
    rfl
  exact ⟨o', hstep, hlines ▸ h', hlines ▸ lineStep_effect h hoffered⟩

/-- Two units of one item, a modifier, a second item that is removed and comes back. -/
def removeAndAdd : List OrderEvent :=
  [.addToOrder 1, .addToOrder 1, .stepperValueChanged 0 5,
    .changedModifiers 1 [⟨"Modifier 2", "M1", true, by decide, by decide⟩],
    .addToOrder 2, .stepperValueChanged 0 20, .addToOrder 1]

theorem order_store_refines_removeAndAdd :
    ∃ o, run (orderStep DatabaseAccess.offline) Orders.init removeAndAdd = .ok o ∧
      StoreInvariant o := by
  obtain ⟨o, hrun, hstore, -⟩ :=
    order_store_refines DatabaseAccess.offline removeAndAdd (by decide +kernel)
  exact ⟨o, hrun, hstore⟩

/-! ### The largest quantity -/

/-- One item tapped over and over: its quantity is the number of taps, as an `int`. -/
theorem run_taps (db : DatabaseAccess) (x : NSNumber) (taps : Nat) :
    ∃ o, run (orderStep db) Orders.init (List.replicate (taps + 1) (.addToOrder x)) = .ok o ∧
      o.currentItemIds = [x] ∧ o.currentQtys = [Int32.ofNat (taps + 1)] ∧
      o.dictionary.lookup x = some [] := by
  have readable : ∀ o : Orders, o.currentItemIds = [x] → o.currentQtys.length = 1 →
      o.dictionary.lookup x = some [] → ∃ o', o.updateTotals db = .ok o' := by
    intro o hids hqtys hmods
    refine Orders.updateTotals_succeeds (by simp [hids, hqtys]) fun y hy => ?_
    rw [hids, List.mem_singleton] at hy
    subst hy
    have noMods : o.dictionary.lookup y = some (([] : List ModChoice).map ModChoice.text) := hmods
    exact ⟨_, Orders.priceOfEveryModUsing_text db noMods⟩
  -- every tap adds to the one line, and the totals can be computed again
  have tap : ∀ (o o₁ : Orders) (q : Int32), (o.getTaxNames db).addItem (some x) = .ok o₁ →
      o₁.currentItemIds = [x] → o₁.currentQtys = [q] → o₁.dictionary.lookup x = some [] →
      ∃ o', orderStep db o (.addToOrder x) = .ok o' ∧ o'.currentItemIds = [x] ∧
        o'.currentQtys = [q] ∧ o'.dictionary.lookup x = some [] := by
    intro o o₁ q hadd hids hqtys hmods
    obtain ⟨o', htotals⟩ := readable o₁ hids (by rw [hqtys]; rfl) hmods
    have hstep : orderStep db o (.addToOrder x) = .ok o' := by
      rw [orderStep, Orders.addToOrder, hadd, ok_bind, htotals]
    obtain ⟨_, _, _, _, rfl⟩ := Orders.updateTotals_eq_ok htotals
    exact ⟨_, hstep, hids, hqtys, hmods⟩
  induction taps with
  | zero =>
    obtain ⟨o', hstep, ho'⟩ := tap Orders.init _ 1 rfl rfl rfl (Finmap.lookup_insert _)
    exact ⟨o', run_cons_ok.mpr ⟨o', hstep, rfl⟩, ho'⟩
  | succ taps ih =>
    obtain ⟨o, hrun, hids, hqtys, hmods⟩ := ih
    have hadd : (o.getTaxNames db).addItem (some x) =
        .ok { o.getTaxNames db with currentQtys := [Int32.ofNat (taps + 1) + 1] } := by
      simp [Orders.addItem, Orders.getTaxNames, Orders.incrementQuantities, objectAtIndex,
        replaceObjectAtIndex, hids, hqtys]
    obtain ⟨o', hstep, hids', hqtys', hmods'⟩ := tap o _ _ hadd hids rfl hmods
    refine ⟨o', ?_, hids', hqtys'.trans ?_, hmods'⟩
    · rw [List.replicate_succ']
      exact run_snoc_ok.mpr ⟨o, hrun, hstep⟩
    · rw [Int32.ofNat_add (taps + 1) 1]
      rfl

/-- Without the proviso the quantity of a line does not stay positive. -/
theorem quantity_overflows :
    EachStep (orderStep DatabaseAccess.offline) Offered Orders.init
        (List.replicate (2 ^ 31) (.addToOrder 1)) ∧
      ∃ o, run (orderStep DatabaseAccess.offline) Orders.init
        (List.replicate (2 ^ 31) (.addToOrder 1)) = .ok o ∧ ¬ StoreInvariant o := by
  obtain ⟨o, hrun, -, hqtys, -⟩ := run_taps DatabaseAccess.offline 1 (2 ^ 31 - 1)
  rw [show 2 ^ 31 - 1 + 1 = 2 ^ 31 by norm_num] at hrun hqtys
  refine ⟨eachStep_of_forall fun t e he => ?_, o, hrun, fun h => ?_⟩
  · rw [List.eq_of_mem_replicate he]
    exact trivial
  · have hmem : Int32.ofNat (2 ^ 31) ∈ o.currentQtys := by
      rw [hqtys]
      exact List.mem_singleton_self _
    exact absurd (h.one_le_qty _ hmem) (by decide)

end PointIPad
