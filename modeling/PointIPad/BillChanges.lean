import PointIPad.OrderHistory

/-!
What an event of an order adds to its bill.

A line is charged its units times the price of one, which depends on the item and
on its modifiers. So an event adds the price of the unit it adds, the units that a
stepper puts in or takes out, or the difference that modifiers make to all units of
the line. `charge` says so of the lines before the event, and never of those after.

**Main result** (`bill_is_charged`). After every run the amount and the taxes are
the sums of what the events were charged.
-/

namespace PointIPad

open Transition WeightedSum

/-! ### Charges -/

section Charges

variable (unit : NSNumber → List ModChoice → ℚ)

/-- The sum over the lines of the units times the price of one. -/
def lineSum (m : OrderLines) : ℚ := m.sumOver fun x l => l.quantity * unit x l.modifiers

/-- What an event adds to that sum, from the lines before it. -/
def charge (m : OrderLines) : OrderEvent → ℚ
  | .addToOrder itemId => unit itemId ((m.get? itemId).elim [] Line.modifiers)
  | .stepperValueChanged row value =>
    match m.entries[row]? with
    | some (x, l) =>
      ((if value = Orders.STEPPER_MAX_VALUE then 0 else value) - l.quantity) * unit x l.modifiers
    | none => 0
  | .changedModifiers itemId changes =>
    match m.get? itemId with
    | some l =>
      l.quantity * (unit itemId (ModChoice.applyChanges l.modifiers changes)
        - unit itemId l.modifiers)
    | none => 0

/-- What a list of events adds, one after the other. -/
def charges : OrderLines → List OrderEvent → ℚ
  | _, [] => 0
  | m, e :: es => charge unit m e + charges (lineStep m e) es

variable {unit} {o : Orders} {m : OrderLines}

theorem lineSum_addToOrder (x : NSNumber) :
    lineSum unit (lineStep m (.addToOrder x)) = lineSum unit m + charge unit m (.addToOrder x) := by
  rw [lineStep, charge]
  cases hx : m.get? x with
  | none =>
    rw [lineSum, OrderedMap.sumOver_upsert_of_not_mem m _ (OrderedMap.get?_eq_none_iff.mp hx)]
    show _ + ((1 : ℤ) : ℚ) * unit x [] = _
    rw [Int.cast_one, one_mul]
    rfl
  | some l =>
    have known : x ∈ m.keys := OrderedMap.isSome_get?_iff.mp (by rw [hx]; rfl)
    rw [OrderedMap.upsert, dif_pos known, lineSum, OrderedMap.sumOver_modify m _ hx]
    simp only [Line.addUnit_quantity, Line.addUnit_modifiers, Option.elim_some]
    rw [lineSum]
    push_cast
    ring

theorem lineSum_stepperValueChanged {row : ℕ} {value : ℤ} (low : 1 ≤ value) :
    lineSum unit (lineStep m (.stepperValueChanged row value)) =
      lineSum unit m + charge unit m (.stepperValueChanged row value) := by
  cases hrow : m.entries[row]? with
  | none =>
    have outside : m.entries.length ≤ row := List.getElem?_eq_none_iff.mp hrow
    have noKey : m.keys[row]? = none := by rw [OrderedMap.keys, List.getElem?_map, hrow]; rfl
    have same : lineStep m (.stepperValueChanged row value) = m := by
      rw [lineStep]
      split
      · exact OrderedMap.ext (List.eraseIdx_of_length_le outside)
      · rw [OrderedMap.modifyRow, noKey]
    rw [same, charge, hrow, add_zero]
  | some e =>
    obtain ⟨x, l⟩ := e
    have hkey : m.keys[row]? = some x := by rw [OrderedMap.keys, List.getElem?_map, hrow]; rfl
    rw [lineStep, charge, hrow]
    dsimp only
    split
    · rw [lineSum, OrderedMap.sumOver_eraseRow m _ hrow, lineSum]
      ring
    · have hline : m.get? x = some l := OrderedMap.get?_eq_some_iff.mpr (List.mem_of_getElem? hrow)
      rw [OrderedMap.modifyRow_of_row m hkey, lineSum, OrderedMap.sumOver_modify m _ hline, lineSum,
        Line.setQuantity_quantity low, Line.setQuantity_modifiers]
      ring

theorem lineSum_changedModifiers (x : NSNumber) (changes : List ModChoice) :
    lineSum unit (lineStep m (.changedModifiers x changes)) =
      lineSum unit m + charge unit m (.changedModifiers x changes) := by
  rw [lineStep, charge]
  cases hx : m.get? x with
  | none =>
    have same : m.modify x (Line.change changes) = m := by
      refine OrderedMap.ext ((List.map_congr_left fun e he => if_neg ?_).trans (List.map_id _))
      rintro rfl
      exact OrderedMap.get?_eq_none_iff.mp hx (List.mem_map_of_mem he)
    rw [same, add_zero]
  | some l =>
    rw [lineSum, OrderedMap.sumOver_modify m _ hx, lineSum, Line.change_quantity]
    show _ + (_ * unit x (ModChoice.applyChanges l.modifiers changes) - _) = _
    ring

/-- **One event.** -/
theorem lineSum_lineStep {e : OrderEvent} (offered : Offered o e) :
    lineSum unit (lineStep m e) = lineSum unit m + charge unit m e := by
  cases e with
  | addToOrder x => exact lineSum_addToOrder x
  | stepperValueChanged row value => exact lineSum_stepperValueChanged offered.2.1
  | changedModifiers x changes => exact lineSum_changedModifiers x changes

theorem lineSum_foldl {db : DatabaseAccess} {es : List OrderEvent} (h : Represents o m)
    (offered : EachStep (orderStep db) (fun o e => Offered o e ∧ NoOverflow o e) o es) :
    lineSum unit (es.foldl lineStep m) = lineSum unit m + charges unit m es := by
  induction es generalizing o m with
  | nil => exact (add_zero _).symm
  | cons e es ih =>
    obtain ⟨⟨hoffered, noOverflow⟩, later⟩ := offered
    obtain ⟨o', hstep, h'⟩ := orderStep_represents h e hoffered noOverflow
    rw [List.foldl_cons, ih h' (later o' hstep), lineSum_lineStep hoffered, charges, add_assoc]

end Charges

/-! ### The bill -/

/-- The price of a unit with its options. -/
def unitAmount (db : DatabaseAccess) (itemId : NSNumber) (modifiers : List ModChoice) : ℚ :=
  Orders.lunchPrice db itemId +
    ((modifiers.filter (·.isOn)).map fun m => Orders.optionPrice db itemId m.key).sum

/-- The tax on a unit; options are not taxed. -/
def unitTax (db : DatabaseAccess) (taxNumber : String) (itemId : NSNumber) (_ : List ModChoice) : ℚ :=
  Orders.lunchPrice db itemId * Orders.taxRate db taxNumber itemId

section Bill

variable {db : DatabaseAccess} {o : Orders} {m : OrderLines}

theorem Represents.billLines (h : Represents o m) :
    o.billLines = m.entries.map fun e => (e.1, e.2.quantity.toNat) := by
  have lines : o.billLines = (o.currentItemIds.zip (o.currentQtys.map Int32.toInt)).map
      fun l => (l.1, l.2.toNat) := by
    rw [Orders.billLines, List.zip_map_right, List.map_map]
    rfl
  rw [lines, h.itemIds, h.qtys, OrderedMap.keys, OrderedMap.values, List.map_map, List.zip_map',
    List.map_map]
  rfl

/-- A sum over the lines of the bill, by the entries of the map. -/
theorem Represents.weightedSum_billLines (h : Represents o m) {f : NSNumber → ℚ}
    {unit : NSNumber → List ModChoice → ℚ}
    (priced : ∀ x l, m.get? x = some l → f x = unit x l.modifiers) :
    weightedSum o.billLines f = lineSum unit m := by
  rw [h.billLines, weightedSum, lineSum, OrderedMap.sumOver, List.map_map]
  refine congrArg List.sum (List.map_congr_left fun e he => ?_)
  have natural : ((e.2.quantity.toNat : ℤ) : ℚ) = e.2.quantity := by
    rw [Int.toNat_of_nonneg (Int.le_trans (by decide) e.2.positive)]
  rw [Function.comp_apply, priced e.1 e.2 (OrderedMap.get?_eq_some_iff.mpr he), ← natural]
  rfl

theorem Represents.amountDue (h : Represents o m) : o.amountDue db = lineSum (unitAmount db) m := by
  refine h.weightedSum_billLines fun x l hl => ?_
  have hmods : o.dictionary.lookup x = some (l.modifiers.map ModChoice.text) := by
    rw [h.modifiers, hl]
    rfl
  rw [unitAmount, Orders.modsPrice, Orders.switchedOn_of_lookup hmods, List.map_map]
  rfl

theorem Represents.taxDue (h : Represents o m) (taxNumber : String) :
    o.taxDue db taxNumber = lineSum (unitTax db taxNumber) m :=
  h.weightedSum_billLines fun _ _ _ => rfl

/-- **Main result.** After every run of offered events from the empty order the
totals can be computed; the amount, and each tax, is the sum of what the events
were charged. -/
theorem bill_is_charged (db : DatabaseAccess) (es : List OrderEvent)
    (offered : EachStep (orderStep db) (fun o e => Offered o e ∧ NoOverflow o e)
      Orders.init es) :
    ∃ o billed, run (orderStep db) Orders.init es = .ok o ∧ o.updateTotals db = .ok billed ∧
      doubleValue billed.totalAmount = charges (unitAmount db) OrderedMap.empty es ∧
      doubleValue billed.totalPrice = doubleValue billed.totalAmount +
        charges (unitTax db "1") OrderedMap.empty es +
        charges (unitTax db "2") OrderedMap.empty es := by
  obtain ⟨o, hrun, h⟩ := run_represents represents_init offered
  have sums : ∀ unit, lineSum unit (es.foldl lineStep OrderedMap.empty) =
      charges unit OrderedMap.empty es := by
    intro unit
    rw [lineSum_foldl represents_init offered, lineSum, OrderedMap.sumOver_empty, zero_add]
  obtain ⟨billed, htotals, hbilled⟩ := (tidy_of_run hrun).billed db
  refine ⟨o, billed, hrun, htotals, ?_, ?_⟩
  · rw [hbilled.totalAmount, h.amountDue, sums]
  · rw [hbilled.totalPrice, hbilled.totalAmount, h.taxDue, h.taxDue, sums, sums]
    rfl

theorem bill_is_charged_removeAndAdd :
    ∃ o billed, run (orderStep (Orders.sizePriced "2")) Orders.init removeAndAdd = .ok o ∧
      o.updateTotals (Orders.sizePriced "2") = .ok billed ∧
      doubleValue billed.totalAmount =
        charges (unitAmount (Orders.sizePriced "2")) OrderedMap.empty removeAndAdd := by
  obtain ⟨o, billed, hrun, htotals, hamount, -⟩ :=
    bill_is_charged (Orders.sizePriced "2") removeAndAdd (by decide +kernel)
  exact ⟨o, billed, hrun, htotals, hamount⟩

end Bill

end PointIPad
