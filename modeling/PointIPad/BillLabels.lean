import PointIPad.OrderHistory

/-!
The figures below the order.

The screen is not told the taxes: it takes the amount from the total again, and
splits what is left by the two rates that the last unit has left in the order.

**Main results.** For every order that can be reached, the figures add up exactly
when the amount due is a whole number that an `int` holds (`figures_add_up_iff`),
for the amount is taken from the total as an `int`. Where they do, the two taxes
are shown right exactly when the lines, taxed at the rates of the last one and
with their modifiers, come to the same taxes (`breakdown_right_iff`).
-/

namespace PointIPad

open Transition WeightedSum

namespace Orders

/-- The rate of the item of the last unit; 0 if there are no units. -/
def lastRate (db : DatabaseAccess) (taxNumber : String) (o : Orders) : ℚ :=
  (units o.billLines).getLast?.elim 0 (taxRate db taxNumber)

/-- How much more a tax would be with the rate of the last unit for all lines, and
with modifiers taxed. -/
def rateError (db : DatabaseAccess) (taxNumber : String) (o : Orders) : ℚ :=
  weightedSum o.billLines fun x =>
    lunchPrice db x * (o.lastRate db taxNumber - taxRate db taxNumber x)
      + o.modsPrice db x * o.lastRate db taxNumber

section Rates

variable {db : DatabaseAccess} {o o' : Orders}

/-- The rates left in the order are those of the last unit. -/
theorem taxesAfter_eq (itemIds : List NSNumber) (qtys : List Int32)
    (p : Option NSNumber × Option NSNumber) :
    taxesAfter db itemIds qtys p =
      (units ((itemIds.zip qtys).map fun l => (l.1, l.2.toInt.toNat))).getLast?.elim p
        (unitTaxes db) := by
  induction itemIds generalizing qtys p with
  | nil => rfl
  | cons x itemIds ih =>
    cases qtys with
    | nil => rfl
    | cons qty qtys =>
      rw [taxesAfter, ih, List.zip_cons_cons, List.map_cons, units_cons, List.getLast?_append,
        List.getLast?_replicate]
      split
      · rw [Option.or_none]
      · cases (units _).getLast? <;> rfl

theorem amount_mul_lastRate (taxNumber : String) :
    o.amountDue db * o.lastRate db taxNumber = o.taxDue db taxNumber + o.rateError db taxNumber := by
  rw [amountDue, taxDue, rateError, ← weightedSum_add, ← weightedSum_mul_right]
  refine congrArg _ (funext fun x => ?_)
  ring

/-- A rate left in the order counts like the rate of the last unit: without a unit
there is no amount. -/
theorem Billed.amount_mul_taxes (billed : Billed db o o') :
    doubleValue o'.totalAmount * doubleValue o'.taxOnePercentage =
        o.amountDue db * o.lastRate db "1" ∧
      doubleValue o'.totalAmount * doubleValue o'.taxTwoPercentage =
        o.amountDue db * o.lastRate db "2" := by
  have rates := billed.taxes
  rw [taxesAfter_eq] at rates
  obtain ⟨first, second⟩ := Prod.mk.inj rates
  rw [billed.totalAmount, first, second, lastRate, lastRate, billLines]
  cases hlast : (units ((o.currentItemIds.zip o.currentQtys).map
      fun l => (l.1, l.2.toInt.toNat))).getLast? with
  | some x => exact ⟨rfl, rfl⟩
  | none =>
    have nothing : o.amountDue db = 0 := by
      rw [amountDue, ← sum_map_units, billLines, List.getLast?_eq_none_iff.mp hlast]
      rfl
    simp only [nothing, zero_mul, and_self]

end Rates

end Orders

/-! ### The labels -/

section Labels

variable {db : DatabaseAccess} {s s' : QuickServe} {o : Orders}

/-- The figures that are shown for a billed order. -/
structure Shows (db : DatabaseAccess) (o : Orders) (labels : OrderLabels) : Prop where
  amountLabel : labels.amountLabel = o.amountDue db
  totalLabel : labels.totalLabel = o.amountDue db + o.taxDue db "1" + o.taxDue db "2"
  /-- the amount is cut to an `int` -/
  taxLabel : ∃ amount, doubleValue amount = o.amountDue db ∧
    labels.taxLabel = labels.totalLabel - intValue amount
  firstTaxLabel : labels.firstTaxLabel =
    labels.taxLabel - (o.taxDue db "2" + o.rateError db "2")
  secondTaxLabel : labels.secondTaxLabel =
    labels.taxLabel - (o.taxDue db "1" + o.rateError db "1")

theorem Tidy.shows (h : Tidy s.order) (db : DatabaseAccess) :
    ∃ s', s.updateTotalOfOrderLabels db = .ok s' ∧ Shows db s.order s'.labels := by
  obtain ⟨o', htotals, billed⟩ := h.billed db
  obtain ⟨first, second⟩ := billed.amount_mul_taxes
  have total : doubleValue o'.totalPrice =
      s.order.amountDue db + s.order.taxDue db "1" + s.order.taxDue db "2" := by
    rw [billed.totalPrice]
    rfl
  refine ⟨QuickServe.showTotals { s with order := o' }, ?_, ?_⟩
  · rw [QuickServe.updateTotalOfOrderLabels, htotals, ok_bind]
  · exact {
      amountLabel := by rw [QuickServe.showTotals_amountLabel, billed.totalAmount]
      totalLabel := by rw [QuickServe.showTotals_totalLabel, total]
      taxLabel := ⟨o'.totalAmount, billed.totalAmount, by simp⟩
      firstTaxLabel := by
        rw [QuickServe.showTotals_firstTaxLabel, second, Orders.amount_mul_lastRate]
      secondTaxLabel := by
        rw [QuickServe.showTotals_secondTaxLabel, first, Orders.amount_mul_lastRate] }

/-- The total tax is right exactly when nothing is cut off the amount. -/
theorem Shows.taxLabel_iff {labels : OrderLabels} (h : Shows db o labels) :
    labels.taxLabel = o.taxDue db "1" + o.taxDue db "2" ↔ HeldByInt (o.amountDue db) := by
  obtain ⟨amount, hamount, htax⟩ := h.taxLabel
  rw [htax, h.totalLabel, ← hamount, ← intValue_eq_doubleValue_iff]
  constructor
  · intro right
    linarith
  · intro whole
    linarith

theorem Shows.sum_iff {labels : OrderLabels} (h : Shows db o labels) :
    labels.amountLabel + labels.taxLabel = labels.totalLabel ↔
      labels.taxLabel = o.taxDue db "1" + o.taxDue db "2" := by
  rw [h.amountLabel, h.totalLabel]
  constructor
  · intro sum
    linarith
  · intro right
    linarith

/-- **Main result.** Whatever built the order, the total tax that is shown is what
`updateTotals` adds up, and amount and tax add up to the total, exactly when the
amount due is a whole number that an `int` holds. -/
theorem figures_add_up_iff (db : DatabaseAccess) {es : List OrderEvent}
    (hrun : run (orderStep db) Orders.init es = .ok s.order) :
    ∃ s', s.updateTotalOfOrderLabels db = .ok s' ∧
      (s'.labels.taxLabel = s.order.taxDue db "1" + s.order.taxDue db "2" ↔
        HeldByInt (s.order.amountDue db)) ∧
      (s'.labels.amountLabel + s'.labels.taxLabel = s'.labels.totalLabel ↔
        HeldByInt (s.order.amountDue db)) := by
  obtain ⟨s', hstep, shows⟩ := (tidy_of_run hrun).shows db
  exact ⟨s', hstep, shows.taxLabel_iff, shows.sum_iff.trans shows.taxLabel_iff⟩

/-- A screen with an order. -/
def screenOf (o : Orders) : QuickServe := { QuickServe.init [] none with order := o }

/-- Two items for 3.5. -/
theorem figures_add_up_twoUnits :
    ∃ s s' : QuickServe, s.updateTotalOfOrderLabels (Orders.sizePriced "2") = .ok s' ∧
      s'.labels.amountLabel + s'.labels.taxLabel = s'.labels.totalLabel := by
  have ends : (run (orderStep (Orders.sizePriced "2")) Orders.init
      [.addToOrder 1, .addToOrder 1]).map
        (fun o => decide (HeldByInt (o.amountDue (Orders.sizePriced "2")))) = .ok true := by
    decide +kernel
  obtain ⟨o, hrun, whole⟩ := map_eq_ok.mp ends
  obtain ⟨s', hstep, -, sum_iff⟩ :=
    figures_add_up_iff (s := screenOf o) (Orders.sizePriced "2") hrun
  exact ⟨screenOf o, s', hstep, sum_iff.mpr (of_decide_eq_true whole)⟩

/-- One item for 3.5. -/
theorem figures_do_not_add_up :
    ¬ ∀ (db : DatabaseAccess) (es : List OrderEvent) (s : QuickServe),
      run (orderStep db) Orders.init es = .ok s.order →
      ∃ s', s.updateTotalOfOrderLabels db = .ok s' ∧
        s'.labels.taxLabel = s.order.taxDue db "1" + s.order.taxDue db "2" := by
  intro always
  have ends : (run (orderStep (Orders.sizePriced "2")) Orders.init [.addToOrder 1] >>= fun o =>
      ((screenOf o).updateTotalOfOrderLabels (Orders.sizePriced "2")).map fun s' =>
        decide (s'.labels.taxLabel = o.taxDue (Orders.sizePriced "2") "1"
          + o.taxDue (Orders.sizePriced "2") "2")) = .ok false := by
    decide +kernel
  obtain ⟨o, hrun, ends'⟩ := bind_eq_ok.mp ends
  obtain ⟨s₁, hstep₁, wrong⟩ := map_eq_ok.mp ends'
  obtain ⟨s', hstep, right⟩ := always (Orders.sizePriced "2") [.addToOrder 1] (screenOf o) hrun
  rw [hstep₁] at hstep
  cases hstep
  exact of_decide_eq_false wrong right

/-- **Main result.** Where the total tax is right, the two taxes are, exactly when
the last rates make no error; where it is not, nothing is asked. -/
theorem breakdown_right_iff (db : DatabaseAccess) {es : List OrderEvent}
    (hrun : run (orderStep db) Orders.init es = .ok s.order) :
    ∃ s', s.updateTotalOfOrderLabels db = .ok s' ∧
      ((s'.labels.taxLabel = s.order.taxDue db "1" + s.order.taxDue db "2" →
          s'.labels.firstTaxLabel = s.order.taxDue db "1" ∧
          s'.labels.secondTaxLabel = s.order.taxDue db "2") ↔
        (HeldByInt (s.order.amountDue db) →
          s.order.rateError db "1" = 0 ∧ s.order.rateError db "2" = 0)) := by
  obtain ⟨s', hstep, shows⟩ := (tidy_of_run hrun).shows db
  refine ⟨s', hstep, ?_⟩
  rw [← shows.taxLabel_iff]
  refine imp_congr_right fun right => ?_
  rw [shows.firstTaxLabel, shows.secondTaxLabel, right]
  constructor
  · rintro ⟨first, second⟩
    constructor <;> linarith
  · rintro ⟨first, second⟩
    constructor <;> linarith

/-- Two items for 3.5, of which the first is taxed. -/
def firstTaxed : DatabaseAccess :=
  .answering [("SELECT lunch_price", "3.5"), ("SELECT taxed1 from TBL_ITEMS where item_id=1", "t"),
    ("SELECT tax_rate", "8")]

theorem breakdown_right_oneItem :
    ∃ s s' : QuickServe, s.updateTotalOfOrderLabels firstTaxed = .ok s' ∧
      (s'.labels.taxLabel = s.order.taxDue firstTaxed "1" + s.order.taxDue firstTaxed "2" →
        s'.labels.firstTaxLabel = s.order.taxDue firstTaxed "1" ∧
        s'.labels.secondTaxLabel = s.order.taxDue firstTaxed "2") := by
  have ends : (run (orderStep firstTaxed) Orders.init [.addToOrder 1, .addToOrder 1]).map
      (fun o => decide (o.rateError firstTaxed "1" = 0 ∧ o.rateError firstTaxed "2" = 0)) =
        .ok true := by
    decide +kernel
  obtain ⟨o, hrun, errors⟩ := map_eq_ok.mp ends
  obtain ⟨s', hstep, right_iff⟩ := breakdown_right_iff (s := screenOf o) firstTaxed hrun
  exact ⟨screenOf o, s', hstep, right_iff.mpr fun _ => of_decide_eq_true errors⟩

/-- A taxed item and one that is not: the whole tax is shown as the second, too. -/
theorem breakdown_wrong :
    ¬ ∀ (db : DatabaseAccess) (es : List OrderEvent) (s : QuickServe),
      run (orderStep db) Orders.init es = .ok s.order →
      ∃ s', s.updateTotalOfOrderLabels db = .ok s' ∧
        (s'.labels.taxLabel = s.order.taxDue db "1" + s.order.taxDue db "2" →
          s'.labels.firstTaxLabel = s.order.taxDue db "1" ∧
          s'.labels.secondTaxLabel = s.order.taxDue db "2") := by
  intro always
  have ends : (run (orderStep firstTaxed) Orders.init [.addToOrder 1, .addToOrder 2] >>= fun o =>
      ((screenOf o).updateTotalOfOrderLabels firstTaxed).map fun s' =>
        (decide (s'.labels.taxLabel = o.taxDue firstTaxed "1" + o.taxDue firstTaxed "2"),
          decide (s'.labels.secondTaxLabel = o.taxDue firstTaxed "2"))) = .ok (true, false) := by
    decide +kernel
  obtain ⟨o, hrun, ends'⟩ := bind_eq_ok.mp ends
  obtain ⟨s₁, hstep₁, figures⟩ := map_eq_ok.mp ends'
  obtain ⟨total, second⟩ := Prod.mk.inj figures
  obtain ⟨s', hstep, right⟩ := always firstTaxed [.addToOrder 1, .addToOrder 2] (screenOf o) hrun
  rw [hstep₁] at hstep
  cases hstep
  exact of_decide_eq_false second (right (of_decide_eq_true total)).2

end Labels

end PointIPad
