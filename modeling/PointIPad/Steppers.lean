import PointIPad.OrderOperation

/-!
The steppers beside the lines of an order.

A stepper is made with the quantity of its line and keeps a value of its own from
then on. It holds its value between 1 and 20, and goes on at the other end when it
is pressed beyond one; at 20 the line is removed. A tap on an item knows none of
this.

**Main result** (`quantities_agree_iff`). Quantities stay between 1 and 19,
steppers show them, and a press changes its line by one unit or removes it, along
a run exactly when no item is tapped while its line has 19 units.
-/

namespace PointIPad

open Transition

/-! ### Steppers -/

/-- A stepper that wraps, with the bounds the screen gives it. -/
structure UIStepper where
  value : Int
  minimum_le : Orders.STEPPER_MIN_VALUE ≤ value
  le_maximum : value ≤ Orders.STEPPER_MAX_VALUE
deriving DecidableEq

inductive StepperButton where
  | increment
  | decrement
deriving DecidableEq

namespace UIStepper

/-- A value outside the bounds is brought to the nearer one. -/
def ofValue (value : Int) : UIStepper where
  value := max Orders.STEPPER_MIN_VALUE (min Orders.STEPPER_MAX_VALUE value)
  minimum_le := Int.le_max_left _ _
  le_maximum := by
    have bounds : Orders.STEPPER_MIN_VALUE ≤ Orders.STEPPER_MAX_VALUE := by decide
    omega

/-- Beyond a bound it goes on at the other one. -/
def press (s : UIStepper) : StepperButton → UIStepper
  | .increment =>
    if h : s.value + 1 ≤ Orders.STEPPER_MAX_VALUE then
      ⟨s.value + 1, Int.le_add_one s.minimum_le, h⟩
    else ⟨Orders.STEPPER_MIN_VALUE, Int.le_refl _, by decide⟩
  | .decrement =>
    if h : Orders.STEPPER_MIN_VALUE ≤ s.value - 1 then
      ⟨s.value - 1, h, Int.le_trans (Int.sub_le_self s.value (by decide)) s.le_maximum⟩
    else ⟨Orders.STEPPER_MAX_VALUE, by decide, Int.le_refl _⟩

theorem ofValue_value {value : Int} (low : Orders.STEPPER_MIN_VALUE ≤ value)
    (up : value ≤ Orders.STEPPER_MAX_VALUE) : (ofValue value).value = value := by
  simp only [ofValue]
  omega

/-- Below the maximum a press is one step, or leads to the maximum. -/
theorem press_value {s : UIStepper} (below : s.value < Orders.STEPPER_MAX_VALUE)
    (button : StepperButton) :
    (s.press button).value = Orders.STEPPER_MAX_VALUE ∨ (s.press button).value = s.value + 1 ∨
      (s.press button).value = s.value - 1 := by
  cases button with
  | increment =>
    right; left
    rw [press, dif_pos (by omega)]
  | decrement =>
    rw [press]
    split
    · right; right
      rfl
    · exact .inl rfl

end UIStepper

/-! ### The table of the order -/

/-- The order, and the steppers in the rows of its table. -/
structure OrderTable where
  order : Orders
  steppers : List UIStepper

inductive TableEvent where
  | tap (itemId : Option NSNumber)
  | press (row : Nat) (button : StepperButton)
  | reloadData

/-- The first rows of the table: each has a stepper made with its quantity. -/
def stepperCells (o : Orders) : Nat → Except NSException (List UIStepper)
  | 0 => .ok []
  | row + 1 => do
    let cells ← stepperCells o row
    let qty ← objectAtIndex o.currentQtys row
    .ok (cells ++ [.ofValue qty.toInt])

/-- `reloadData`: there are as many rows as items. -/
def OrderTable.reload (o : Orders) : Except NSException OrderTable := do
  .ok ⟨o, ← stepperCells o o.currentItemIds.length⟩

/-- One event. A tap on an item reloads the table, and so does a stepper that
removes its row; any other stepper keeps the value it was pressed to. -/
def tableStep (db : DatabaseAccess) (s : OrderTable) :
    TableEvent → Except NSException OrderTable
  | .tap itemId => do
    OrderTable.reload (← (OrderOperation.addToOrder itemId).perform db s.order)
  | .press row button =>
    match s.steppers[row]? with
    | some stepper => do
      let sender := stepper.press button
      let order ← s.order.stepperValueChanged db row sender.value
      if sender.value = Orders.STEPPER_MAX_VALUE then OrderTable.reload order
      else .ok ⟨order, s.steppers.set row sender⟩
    | none => .ok s
  | .reloadData => OrderTable.reload s.order

def OrderTable.init : OrderTable := ⟨.init, []⟩

/-- A line has left, or its quantity is one more or one less; the other lines stay. -/
def OneUnitOrRemoved (o o' : Orders) (row : Nat) : Prop :=
  (o'.currentItemIds = o.currentItemIds.eraseIdx row ∧
      o'.currentQtys = o.currentQtys.eraseIdx row) ∨
    (o'.currentItemIds = o.currentItemIds ∧ ∃ qty qty', o.currentQtys[row]? = some qty ∧
      o'.currentQtys = o.currentQtys.set row qty' ∧
      (qty'.toInt = qty.toInt + 1 ∨ qty'.toInt = qty.toInt - 1))

/-- Taps and steppers agree on quantities. -/
structure QuantitiesAgree (db : DatabaseAccess) (s : OrderTable) : Prop where
  bounds : ∀ qty ∈ s.order.currentQtys,
    Orders.STEPPER_MIN_VALUE ≤ qty.toInt ∧ qty.toInt < Orders.STEPPER_MAX_VALUE
  steppers : s.steppers.map UIStepper.value = s.order.currentQtys.map Int32.toInt
  press : ∀ row < s.order.currentItemIds.length, ∀ button,
    ∃ s', tableStep db s (.press row button) = .ok s' ∧ OneUnitOrRemoved s.order s'.order row

/-- No item is tapped while its line has 19 units. -/
def NotAtNineteen (s : OrderTable) : TableEvent → Prop
  | .tap (some itemId) => (itemId, 19) ∉ s.order.currentItemIds.zip s.order.currentQtys
  | _ => True

instance (s : OrderTable) : (e : TableEvent) → Decidable (NotAtNineteen s e)
  | .tap (some _) => inferInstanceAs (Decidable (_ ∉ _))
  | .tap none => isTrue trivial
  | .press _ _ => isTrue trivial
  | .reloadData => isTrue trivial

/-! ### Lines and rows -/

section Rows

variable {db : DatabaseAccess} {o o' : Orders} {m : OrderLines} {s s' : OrderTable}

/-- Every line has fewer units than a stepper's maximum. -/
def BelowMaximum (m : OrderLines) : Prop :=
  ∀ x l, m.get? x = some l → l.quantity < Orders.STEPPER_MAX_VALUE

theorem Represents.belowMaximum_iff (h : Represents o m) :
    BelowMaximum m ↔ ∀ qty ∈ o.currentQtys, qty.toInt < Orders.STEPPER_MAX_VALUE := by
  constructor
  · intro below qty hqty
    have hmem : qty.toInt ∈ m.values.map Line.quantity := h.qtys ▸ List.mem_map_of_mem hqty
    obtain ⟨l, hl, heq⟩ := List.mem_map.mp hmem
    obtain ⟨⟨x, l'⟩, hentry, rfl⟩ := List.mem_map.mp hl
    rw [← heq]
    exact below x l' (OrderedMap.get?_eq_some_iff.mpr hentry)
  · intro below x l hl
    have hentry : l ∈ m.values := List.mem_map_of_mem (OrderedMap.get?_eq_some_iff.mp hl)
    have hmem : l.quantity ∈ o.currentQtys.map Int32.toInt := h.qtys ▸ List.mem_map_of_mem hentry
    obtain ⟨qty, hqty, heq⟩ := List.mem_map.mp hmem
    rw [← heq]
    exact below qty hqty

theorem stepperCells_eq {rows : Nat} (hrows : rows ≤ o.currentQtys.length) :
    stepperCells o rows =
      .ok ((o.currentQtys.take rows).map fun qty => UIStepper.ofValue qty.toInt) := by
  induction rows with
  | zero => rfl
  | succ row ih =>
    have hlt : row < o.currentQtys.length := by omega
    rw [stepperCells, ih (by omega), ok_bind,
      objectAtIndex_eq_ok.mpr (List.getElem?_eq_getElem hlt), ok_bind,
      List.take_succ_eq_append_getElem hlt, List.map_append, List.map_singleton]

theorem reload_eq (hlen : o.currentItemIds.length = o.currentQtys.length) :
    OrderTable.reload o =
      .ok ⟨o, o.currentQtys.map fun qty => UIStepper.ofValue qty.toInt⟩ := by
  rw [OrderTable.reload, stepperCells_eq (le_of_eq hlen), hlen, List.take_length]
  rfl

/-- What a stepper's value does to the rows. -/
theorem stepperValueChanged_rows {row : Nat} {value : Int}
    (h : o.stepperValueChanged db row value = .ok o') :
    if value = Orders.STEPPER_MAX_VALUE then
      o'.currentItemIds = o.currentItemIds.eraseIdx row ∧
        o'.currentQtys = o.currentQtys.eraseIdx row
    else
      o'.currentItemIds = o.currentItemIds ∧
        o'.currentQtys = o.currentQtys.set row (Int32.ofInt value) := by
  obtain ⟨o₁, hset, h⟩ := bind_eq_ok.mp h
  obtain ⟨qtys, hqtys, hset⟩ := bind_eq_ok.mp hset
  obtain ⟨-, rfl⟩ := replaceObjectAtIndex_eq_ok.mp hqtys
  cases hset
  split
  · rename_i remove
    rw [if_pos remove] at h
    obtain ⟨o₂, hremove, h⟩ := bind_eq_ok.mp h
    obtain ⟨o₃, htotals, htotals'⟩ := bind_eq_ok.mp h
    obtain ⟨_, _, _, _, rfl⟩ := Orders.updateTotals_eq_ok htotals'
    obtain ⟨_, _, _, _, rfl⟩ := Orders.updateTotals_eq_ok htotals
    obtain ⟨x, -, hremove⟩ := bind_eq_ok.mp hremove
    obtain ⟨itemIds, hids, hremove⟩ := bind_eq_ok.mp hremove
    obtain ⟨qtys, hqtys', hremove⟩ := bind_eq_ok.mp hremove
    obtain ⟨-, rfl⟩ := removeObjectAtIndex_eq_ok.mp hids
    obtain ⟨-, rfl⟩ := removeObjectAtIndex_eq_ok.mp hqtys'
    cases hremove
    exact ⟨rfl, List.eraseIdx_set_eq⟩
  · rename_i keep
    rw [if_neg keep] at h
    obtain ⟨_, _, _, _, rfl⟩ := Orders.updateTotals_eq_ok h
    exact ⟨rfl, rfl⟩

/-- The rows hold the lines. -/
theorem Represents.mem_zip_iff (h : Represents o m) {x : NSNumber} {qty : Int32} :
    (x, qty) ∈ o.currentItemIds.zip o.currentQtys ↔
      ∃ l, m.get? x = some l ∧ l.quantity = qty.toInt := by
  have row_iff : ∀ (row : Nat) (l : Line), m.values[row]? = some l →
      (o.currentQtys[row]? = some qty ↔ l.quantity = qty.toInt) := by
    intro row l hl
    have hqty : o.currentQtys[row]?.map Int32.toInt = some l.quantity := by
      rw [← List.getElem?_map, h.qtys, List.getElem?_map, hl, Option.map_some]
    obtain ⟨qty', hqty', heq⟩ := Option.map_eq_some_iff.mp hqty
    rw [hqty', ← heq, Option.some.injEq]
    exact ⟨fun same => by rw [same], fun same => Int32.toInt_inj.mp same⟩
  constructor
  · intro hmem
    obtain ⟨row, hrow⟩ := List.mem_iff_getElem?.mp hmem
    obtain ⟨hx, hqty⟩ := List.getElem?_zip_eq_some.mp hrow
    rw [h.itemIds] at hx
    obtain ⟨l, hl⟩ : ∃ l, m.values[row]? = some l := by
      obtain ⟨hlt, -⟩ := List.getElem?_eq_some_iff.mp hx
      exact ⟨_, List.getElem?_eq_getElem (by rw [OrderedMap.length_values]; exact hlt)⟩
    exact ⟨l, OrderedMap.get?_of_row hx hl, (row_iff row l hl).mp hqty⟩
  · rintro ⟨l, hl, hquantity⟩
    obtain ⟨row, hrow⟩ := List.mem_iff_getElem?.mp (OrderedMap.get?_eq_some_iff.mp hl)
    have hx : m.keys[row]? = some x := by
      rw [OrderedMap.keys, List.getElem?_map, hrow, Option.map_some]
    have hvalue : m.values[row]? = some l := by
      rw [OrderedMap.values, List.getElem?_map, hrow, Option.map_some]
    refine List.mem_iff_getElem?.mpr ⟨row, List.getElem?_zip_eq_some.mpr ⟨?_, ?_⟩⟩
    · rw [h.itemIds]
      exact hx
    · exact (row_iff row l hvalue).mpr hquantity

end Rows

/-! ### The invariant -/

/-- The containers hold lines of fewer than 20 units, and the steppers show them. -/
structure TableInvariant (s : OrderTable) : Prop where
  lines : ∃ m, Represents s.order m ∧ BelowMaximum m
  steppers : s.steppers.map UIStepper.value = s.order.currentQtys.map Int32.toInt

section Invariant

variable {db : DatabaseAccess} {o : Orders} {m : OrderLines} {s s' : OrderTable} {e : TableEvent}

theorem tableInvariant_init : TableInvariant .init where
  lines := ⟨OrderedMap.empty, represents_init, fun x l h => by cases h⟩
  steppers := rfl

/-- Steppers made for such lines show them. -/
theorem reload_keeps (h : Represents o m) (below : BelowMaximum m) :
    ∃ s', OrderTable.reload o = .ok s' ∧ s'.order = o ∧ TableInvariant s' := by
  refine ⟨_, reload_eq h.length_eq, rfl, ⟨m, h, below⟩, ?_⟩
  rw [List.map_map]
  refine List.map_congr_left fun qty hqty => ?_
  exact UIStepper.ofValue_value (h.one_le_qty hqty)
    (Int.le_of_lt (h.belowMaximum_iff.mp below qty hqty))

/-- **A press** changes its line by one unit or removes it. -/
theorem TableInvariant.press (db : DatabaseAccess) (h : TableInvariant s) {row : Nat}
    (hrow : row < s.order.currentItemIds.length) (button : StepperButton) :
    ∃ s', tableStep db s (.press row button) = .ok s' ∧
      OneUnitOrRemoved s.order s'.order row ∧ TableInvariant s' := by
  obtain ⟨m, represents, below⟩ := h.lines
  have belowQtys := represents.belowMaximum_iff.mp below
  obtain ⟨qty, hqty⟩ : ∃ qty, s.order.currentQtys[row]? = some qty :=
    ⟨_, List.getElem?_eq_getElem (represents.length_eq ▸ hrow)⟩
  -- the stepper of the row shows its quantity
  have hvalue : s.steppers[row]?.map UIStepper.value = some qty.toInt := by
    rw [← List.getElem?_map, h.steppers, List.getElem?_map, hqty, Option.map_some]
  obtain ⟨stepper, hstepper, shows⟩ := Option.map_eq_some_iff.mp hvalue
  obtain ⟨o', hstep, represents'⟩ :
      ∃ o', orderStep db s.order (.stepperValueChanged row (stepper.press button).value) = .ok o' ∧
        Represents o' (lineStep m (.stepperValueChanged row (stepper.press button).value)) :=
    orderStep_represents represents _
      ⟨hrow, (stepper.press button).minimum_le, (stepper.press button).le_maximum⟩ trivial
  have rows := stepperValueChanged_rows hstep
  simp only [tableStep, hstepper]
  have changed : s.order.stepperValueChanged db row (stepper.press button).value = .ok o' := hstep
  rw [changed, ok_bind]
  by_cases remove : (stepper.press button).value = Orders.STEPPER_MAX_VALUE
  · rw [if_pos remove] at rows ⊢
    have below' :
        BelowMaximum (lineStep m (.stepperValueChanged row (stepper.press button).value)) := by
      rw [represents'.belowMaximum_iff, rows.2]
      exact fun q hq => belowQtys q (List.mem_of_mem_eraseIdx hq)
    obtain ⟨s', hreload, rfl, invariant⟩ := reload_keeps represents' below'
    exact ⟨s', hreload, .inl rows, invariant⟩
  · rw [if_neg remove] at rows ⊢
    have hint :
        (Int32.ofInt (stepper.press button).value).toInt = (stepper.press button).value := by
      have low := (stepper.press button).minimum_le
      have up := (stepper.press button).le_maximum
      simp only [Orders.STEPPER_MIN_VALUE, Orders.STEPPER_MAX_VALUE] at low up
      exact Int32.toInt_ofInt_of_le (by omega) (by omega)
    have oneUnit : (stepper.press button).value = qty.toInt + 1 ∨
        (stepper.press button).value = qty.toInt - 1 := by
      have belowStepper : stepper.value < Orders.STEPPER_MAX_VALUE := by
        rw [shows]
        exact belowQtys qty (List.mem_of_getElem? hqty)
      rw [← shows]
      exact (UIStepper.press_value belowStepper button).resolve_left remove
    refine ⟨_, rfl, .inr ⟨rows.1, qty, _, hqty, rows.2, by rw [hint]; exact oneUnit⟩,
      ⟨_, represents', ?_⟩, ?_⟩
    · rw [represents'.belowMaximum_iff, rows.2]
      intro q hq
      rcases List.mem_or_eq_of_mem_set hq with old | rfl
      · exact belowQtys q old
      · rw [hint]
        exact lt_of_le_of_ne (stepper.press button).le_maximum remove
    · show (s.steppers.set row (stepper.press button)).map UIStepper.value = _
      rw [rows.2, List.map_set, List.map_set, h.steppers, hint]

theorem TableInvariant.quantitiesAgree (h : TableInvariant s) : QuantitiesAgree db s where
  bounds := by
    obtain ⟨m, represents, below⟩ := h.lines
    intro qty hqty
    exact ⟨represents.one_le_qty hqty, represents.belowMaximum_iff.mp below qty hqty⟩
  steppers := h.steppers
  press := by
    intro row hrow button
    obtain ⟨s', hstep, oneUnit, -⟩ := h.press _ hrow button
    exact ⟨s', hstep, oneUnit⟩

/-- A tap adds a unit to the line of its item, whatever its quantity is. -/
theorem TableInvariant.tap (db : DatabaseAccess) (represents : Represents s.order m)
    (below : BelowMaximum m) (x : NSNumber) :
    ∃ o', (OrderOperation.addToOrder (some x)).perform db s.order = .ok o' ∧
      Represents o' (m.upsert x Line.single Line.addUnit) := by
  have noOverflow : NoOverflow s.order (.addToOrder x) := by
    intro hmem
    obtain ⟨l, hl, hquantity⟩ := represents.mem_zip_iff.mp hmem
    have hbelow := below x l hl
    rw [hquantity] at hbelow
    exact absurd hbelow (by decide)
  obtain ⟨o₁, hadd, represents₁⟩ : ∃ o₁, orderStep db s.order (.addToOrder x) = .ok o₁ ∧
      Represents o₁ (lineStep m (.addToOrder x)) :=
    orderStep_represents represents (.addToOrder x) trivial noOverflow
  obtain ⟨o₂, htotals, represents₂⟩ := represents₁.updateTotals db
  exact ⟨o₂, bind_eq_ok.mpr ⟨o₁, hadd, htotals⟩, represents₂⟩

/-- **Every event keeps the invariant**, but for a tap on an item with 19 units. -/
theorem TableInvariant.step (h : TableInvariant s) (notAtNineteen : NotAtNineteen s e)
    (hstep : tableStep db s e = .ok s') : TableInvariant s' := by
  obtain ⟨m, represents, below⟩ := h.lines
  cases e with
  | tap itemId =>
    obtain ⟨o', hperform, hreload⟩ := bind_eq_ok.mp hstep
    cases itemId with
    | none => cases hperform
    | some x =>
      obtain ⟨o₁, hperform₁, represents'⟩ := TableInvariant.tap db represents below x
      rw [hperform] at hperform₁
      cases hperform₁
      have below' : BelowMaximum (m.upsert x Line.single Line.addUnit) := by
        intro y l hl
        by_cases same : y = x
        · subst same
          rw [OrderedMap.get?_upsert_self, Option.some.injEq] at hl
          subst hl
          cases hline : m.get? y with
          | none => decide
          | some l =>
            have ne : l.quantity ≠ 19 := by
              intro nineteen
              exact notAtNineteen (represents.mem_zip_iff.mpr ⟨l, hline, nineteen⟩)
            have lt := below y l hline
            simp only [Option.elim_some, Line.addUnit_quantity, Orders.STEPPER_MAX_VALUE] at lt ⊢
            omega
        · rw [OrderedMap.get?_upsert_of_ne m same] at hl
          exact below y l hl
      obtain ⟨s₁, hreload₁, -, invariant⟩ := reload_keeps represents' below'
      rw [hreload] at hreload₁
      cases hreload₁
      exact invariant
  | press row button =>
    by_cases hrow : row < s.order.currentItemIds.length
    · obtain ⟨s₁, hstep₁, -, invariant⟩ := h.press db hrow button
      rw [hstep] at hstep₁
      cases hstep₁
      exact invariant
    · have none : s.steppers[row]? = none := by
        have hlen := congrArg List.length h.steppers
        rw [List.length_map, List.length_map, ← represents.length_eq] at hlen
        exact List.getElem?_eq_none_iff.mpr (by omega)
      simp only [tableStep, none] at hstep
      cases hstep
      exact h
  | reloadData =>
    obtain ⟨s₁, hreload, -, invariant⟩ := reload_keeps represents below
    rw [tableStep, hreload] at hstep
    cases hstep
    exact invariant

/-- The twentieth unit is one too many. -/
theorem TableInvariant.breaks (h : TableInvariant s) (atNineteen : ¬ NotAtNineteen s e) :
    ∃ s', tableStep db s e = .ok s' ∧ ¬ QuantitiesAgree db s' := by
  obtain ⟨m, represents, below⟩ := h.lines
  cases e with
  | press row button => exact absurd trivial atNineteen
  | reloadData => exact absurd trivial atNineteen
  | tap itemId =>
    cases itemId with
    | none => exact absurd trivial atNineteen
    | some x =>
      obtain ⟨l, hl, nineteen⟩ := represents.mem_zip_iff.mp (not_not.mp atNineteen)
      obtain ⟨o', hperform, represents'⟩ := TableInvariant.tap db represents below x
      refine ⟨_, bind_eq_ok.mpr ⟨o', hperform, reload_eq represents'.length_eq⟩, fun agree => ?_⟩
      have below' := represents'.belowMaximum_iff.mpr fun qty hqty => (agree.bounds qty hqty).2
      have twenty := below' x l.addUnit (by rw [OrderedMap.get?_upsert_self, hl, Option.elim_some])
      rw [Line.addUnit_quantity, nineteen] at twenty
      exact absurd twenty (by decide)

end Invariant

/-- **Main result.** From the empty order, taps and steppers agree at every point of
a run exactly when no item is tapped while its line has 19 units. -/
theorem quantities_agree_iff (db : DatabaseAccess) (es : List TableEvent) :
    Always (tableStep db) (QuantitiesAgree db) .init es ↔
      EachStep (tableStep db) NotAtNineteen .init es :=
  always_iff_eachStep (fun _ h => TableInvariant.quantitiesAgree h)
    (fun _ _ _ h below hstep => TableInvariant.step h below hstep)
    (fun _ _ h atNineteen => TableInvariant.breaks h atNineteen) tableInvariant_init

theorem quantities_disagree :
    ¬ ∀ (db : DatabaseAccess) (es : List TableEvent),
      Always (tableStep db) (QuantitiesAgree db) .init es := by
  intro always
  have taps : (run (tableStep DatabaseAccess.offline) .init
      (List.replicate 20 (.tap (some 1)))).map (fun s => s.order.currentQtys) = .ok [20] := by
    decide +kernel
  obtain ⟨s, hrun, hqtys⟩ := map_eq_ok.mp taps
  have agree := always_iff_prefix.mp (always DatabaseAccess.offline
    (List.replicate 20 (.tap (some 1)))) _ s (List.prefix_refl _) hrun
  have below := (agree.bounds 20 (by rw [hqtys]; exact List.mem_singleton_self 20)).2
  exact absurd below (by decide)

/-- Twenty-five units are one fewer than twenty to the stepper. -/
example : (run (tableStep DatabaseAccess.offline) .init
    (List.replicate 25 (.tap (some 1)) ++ [.press 0 .decrement])).map
      (fun s => s.order.currentQtys) = .ok [19] := by
  decide +kernel

end PointIPad
