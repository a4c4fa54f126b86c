import PointIPad.Lib.WeightedSum
import PointIPad.OrderOperation

/-!
What an order is charged.

`updateTotals` goes through the lines, the units of a line and the modifier
strings of an item, and adds to running totals. `Charges` says what a list of
units adds to them; lists that follow each other compose, so the loops add the
sums over the lines (`updateTotals_billed`).

**Main result** (`bill_exact_iff`). The sums are those of the database prices
exactly when nothing is cut off: the price of a choice of Modifier 2 is read as
an `int`, where that of Modifier 3 is read as a double.
-/

namespace PointIPad

open Transition WeightedSum

namespace Orders

/-! ### The parts of a bill -/

/-- The modifier strings of an item. -/
def modStrings (o : Orders) (itemId : NSNumber) : List String :=
  (o.modsInDict (some itemId)).getD []

/-- The options of an item that are on, by category and choice. -/
def switchedOn (o : Orders) (itemId : NSNumber) : List (String × String) :=
  (o.modStrings itemId).filterMap optionOn

/-- The items with the number of units that are charged; no unit for a quantity
below one. -/
def billLines (o : Orders) : List (NSNumber × ℕ) :=
  (o.currentItemIds.zip o.currentQtys).map fun l => (l.1, l.2.toInt.toNat)

def lunchPrice (db : DatabaseAccess) (itemId : NSNumber) : ℚ :=
  doubleValue (db.getLunchPriceUsing itemId)

def taxRate (db : DatabaseAccess) (taxNumber : String) (itemId : NSNumber) : ℚ :=
  doubleValue (db.getTax itemId taxNumber) / 100

/-- What the options that are on add to a unit. -/
def modsPrice (db : DatabaseAccess) (o : Orders) (itemId : NSNumber) : ℚ :=
  ((o.switchedOn itemId).map (optionPrice db itemId)).sum

def amountDue (db : DatabaseAccess) (o : Orders) : ℚ :=
  weightedSum o.billLines fun x => lunchPrice db x + o.modsPrice db x

/-- A tax of an order: the rate of each item, on its price without modifiers. -/
def taxDue (db : DatabaseAccess) (taxNumber : String) (o : Orders) : ℚ :=
  weightedSum o.billLines fun x => lunchPrice db x * taxRate db taxNumber x

/-- Every modifier string of an item of the order has a flag. -/
def Readable (o : Orders) : Prop := ∀ x ∈ o.currentItemIds, ∀ mod ∈ o.modStrings x, HasFlag mod

instance (o : Orders) : Decidable o.Readable :=
  inferInstanceAs (Decidable (∀ x ∈ o.currentItemIds, ∀ mod ∈ o.modStrings x, HasFlag mod))

/-! ### What the loops add -/

section Loops

variable {db : DatabaseAccess} {o o' : Orders} {t t' t'' : Totals} {x : NSNumber}

theorem priceOfEveryModUsing_eq (flags : ∀ mod ∈ o.modStrings x, HasFlag mod) :
    o.priceOfEveryModUsing db x = .ok (o.modsPrice db x) := by
  rw [priceOfEveryModUsing]
  exact (addModPrices_eq db x flags 0).trans (by rw [zero_add]; rfl)

/-- The running totals `t'` are `t` with a unit of each of these items added. -/
structure Charges (db : DatabaseAccess) (o : Orders) (items : List NSNumber) (t t' : Totals) :
    Prop where
  totalAmount : doubleValue t'.totalAmount =
    doubleValue t.totalAmount + (items.map fun x => lunchPrice db x + o.modsPrice db x).sum
  isSome_totalAmount : t'.totalAmount.isSome ↔ t.totalAmount.isSome ∨ items ≠ []
  firstTax : t'.firstTax = t.firstTax + (items.map fun x => lunchPrice db x * taxRate db "1" x).sum
  secondTax :
    t'.secondTax = t.secondTax + (items.map fun x => lunchPrice db x * taxRate db "2" x).sum

theorem Charges.nil (t : Totals) : Charges db o [] t t where
  totalAmount := by simp
  isSome_totalAmount := by simp
  firstTax := by simp
  secondTax := by simp

theorem Charges.append {items items' : List NSNumber} (h : Charges db o items t t')
    (h' : Charges db o items' t' t'') : Charges db o (items ++ items') t t'' where
  totalAmount := by
    rw [h'.totalAmount, h.totalAmount, List.map_append, List.sum_append, add_assoc]
  isSome_totalAmount := by
    rw [h'.isSome_totalAmount, h.isSome_totalAmount, or_assoc, ne_eq, ne_eq, ne_eq,
      List.append_eq_nil_iff, not_and_or]
  firstTax := by
    rw [h'.firstTax, h.firstTax, List.map_append, List.sum_append, add_assoc]
  secondTax := by
    rw [h'.secondTax, h.secondTax, List.map_append, List.sum_append, add_assoc]

theorem addUnit_charges (flags : ∀ mod ∈ o.modStrings x, HasFlag mod) (t : Totals) :
    ∃ t', o.addUnit db x t = .ok t' ∧ Charges db o [x] t t' := by
  rw [addUnit, priceOfEveryModUsing_eq flags, ok_bind]
  refine ⟨_, rfl, ?_, ?_, ?_, ?_⟩
  · rw [List.map_singleton, List.sum_singleton, lunchPrice]
    show doubleValue _ + doubleValue t.totalAmount + o.modsPrice db x = _
    ring
  · simp
  · rw [List.map_singleton, List.sum_singleton]
    rfl
  · rw [List.map_singleton, List.sum_singleton]
    rfl

theorem addUnits_charges (flags : ∀ mod ∈ o.modStrings x, HasFlag mod) (qty : ℕ) (t : Totals) :
    ∃ t', o.addUnits db x qty t = .ok t' ∧ Charges db o (List.replicate qty x) t t' := by
  induction qty generalizing t with
  | zero => exact ⟨t, rfl, Charges.nil t⟩
  | succ qty ih =>
    obtain ⟨t₁, hunit, h₁⟩ := addUnit_charges flags t
    obtain ⟨t₂, hunits, h₂⟩ := ih t₁
    refine ⟨t₂, ?_, h₁.append h₂⟩
    rw [addUnits, hunit, ok_bind, hunits]

theorem addLines_charges {itemIds : List NSNumber} (curItem : ℕ)
    (hlen : curItem + itemIds.length ≤ o.currentQtys.length)
    (flags : ∀ x ∈ itemIds, ∀ mod ∈ o.modStrings x, HasFlag mod) (t : Totals) :
    ∃ t', o.addLines db itemIds curItem t = .ok t' ∧
      Charges db o (units ((itemIds.zip (o.currentQtys.drop curItem)).map
        fun l => (l.1, l.2.toInt.toNat))) t t' := by
  induction itemIds generalizing curItem t with
  | nil => exact ⟨t, rfl, Charges.nil t⟩
  | cons x itemIds ih =>
    rw [List.length_cons] at hlen
    have hlt : curItem < o.currentQtys.length := by omega
    obtain ⟨t₁, hunits, h₁⟩ :=
      addUnits_charges (flags x List.mem_cons_self) o.currentQtys[curItem].toInt.toNat t
    obtain ⟨t₂, hlines, h₂⟩ := ih (curItem + 1) (by omega)
      (fun y hy => flags y (List.mem_cons_of_mem x hy)) t₁
    refine ⟨t₂, ?_, ?_⟩
    · rw [addLines, objectAtIndex_eq_ok.mpr (List.getElem?_eq_getElem hlt), ok_bind, hunits,
        ok_bind, hlines]
    · rw [List.drop_eq_getElem_cons hlt]
      exact h₁.append h₂

/-- What `updateTotals` makes of an order. -/
structure Billed (db : DatabaseAccess) (o o' : Orders) : Prop where
  totalAmount : doubleValue o'.totalAmount = o.amountDue db
  isSome_totalAmount : o'.totalAmount.isSome ↔ units o.billLines ≠ []
  totalPrice : o'.totalPrice = some (o.amountDue db + o.taxDue db "1" + o.taxDue db "2")
  taxes : o'.taxes = taxesAfter db o.currentItemIds o.currentQtys o.taxes

/-- **The loops add the sums over the lines.** -/
theorem updateTotals_billed (db : DatabaseAccess)
    (hlen : o.currentItemIds.length ≤ o.currentQtys.length) (readable : o.Readable) :
    ∃ o', o.updateTotals db = .ok o' ∧ Billed db o o' := by
  obtain ⟨t, hsums, h⟩ := addLines_charges 0 (by omega) readable ⟨none, 0, 0, none, none⟩
  have hamount : doubleValue t.totalAmount = o.amountDue db := by
    rw [h.totalAmount, sum_map_units]
    exact zero_add _
  have hfirst : t.firstTax = o.taxDue db "1" := by
    rw [h.firstTax, sum_map_units]
    exact zero_add _
  have hsecond : t.secondTax = o.taxDue db "2" := by
    rw [h.secondTax, sum_map_units]
    exact zero_add _
  rw [updateTotals_eq, computedTotals, hsums]
  refine ⟨_, rfl, hamount, ?_, ?_, rfl⟩
  · exact h.isSome_totalAmount.trans (or_iff_right Bool.false_ne_true)
  · rw [← hamount, ← hfirst, ← hsecond]

/-- A line with a unit is read: the totals cannot be computed if a string of its
item has no flag. -/
theorem readable_of_addLines {itemIds : List NSNumber} {curItem : ℕ}
    (positive : ∀ q ∈ o.currentQtys, 1 ≤ q.toInt)
    (h : o.addLines db itemIds curItem t = .ok t') :
    ∀ x ∈ itemIds, ∀ mod ∈ o.modStrings x, HasFlag mod := by
  induction itemIds generalizing curItem t with
  | nil => simp
  | cons x itemIds ih =>
    obtain ⟨qty, hqty, h⟩ := bind_eq_ok.mp h
    obtain ⟨t₁, hunits, h⟩ := bind_eq_ok.mp h
    have hpos : 1 ≤ qty.toInt :=
      positive qty (List.mem_of_getElem? (objectAtIndex_eq_ok.mp hqty))
    have hone : qty.toInt.toNat = (qty.toInt.toNat - 1) + 1 := by omega
    rw [hone] at hunits
    obtain ⟨t₂, hunit, -⟩ := bind_eq_ok.mp hunits
    obtain ⟨modsPrice, hprice, -⟩ := bind_eq_ok.mp hunit
    intro y hy
    rcases List.mem_cons.mp hy with rfl | hy
    · exact hasFlag_of_addModPrices hprice
    · exact ih h y hy

end Loops

/-! ### The bill by the database prices -/

/-- The sum over the lines of the quantity times a value of the item. -/
def overLines (o : Orders) (f : NSNumber → ℚ) : ℚ :=
  ((o.currentItemIds.zip o.currentQtys).map fun l => (l.2.toInt : ℚ) * f l.1).sum

/-- The price that the database has for an option; only quantities and extras
have one. -/
def databasePrice (db : DatabaseAccess) (itemId : NSNumber) (option : String × String) : ℚ :=
  if option.1 = "Modifier 2" then doubleValue (db.getModPriceQuantity itemId option.2)
  else if option.1 = "Modifier 3" then doubleValue (db.getModPriceExtra itemId option.2)
  else 0

def databaseModsPrice (db : DatabaseAccess) (o : Orders) (itemId : NSNumber) : ℚ :=
  ((o.switchedOn itemId).map (databasePrice db itemId)).sum

/-- The exact bill: the database prices by quantity, and the taxes on the lunch
prices. -/
def BillExact (db : DatabaseAccess) (o o' : Orders) : Prop :=
  doubleValue o'.totalAmount =
      o.overLines (fun x => lunchPrice db x + o.databaseModsPrice db x) ∧
    doubleValue o'.totalPrice = doubleValue o'.totalAmount + o.overLines (fun x =>
      lunchPrice db x * (doubleValue (db.getTax x "1") + doubleValue (db.getTax x "2")) / 100)

instance (db : DatabaseAccess) (o o' : Orders) : Decidable (BillExact db o o') :=
  inferInstanceAs (Decidable (_ ∧ _))

/-- What reading a price as an `int` cuts off it. -/
def cutOff (n : Option NSNumber) : ℚ := doubleValue n - intValue n

/-- What is cut off the prices of the quantities of an item that are on. -/
def cutOffMods (db : DatabaseAccess) (o : Orders) (itemId : NSNumber) : ℚ :=
  (((o.switchedOn itemId).filter (·.1 = "Modifier 2")).map
    fun option => cutOff (db.getModPriceQuantity itemId option.2)).sum

section Exact

variable {db : DatabaseAccess} {o : Orders}

theorem overLines_eq (positive : ∀ q ∈ o.currentQtys, 1 ≤ q.toInt) (f : NSNumber → ℚ) :
    o.overLines f = weightedSum o.billLines f := by
  rw [overLines, weightedSum, billLines, List.map_map]
  refine congrArg List.sum (List.map_congr_left fun l hl => ?_)
  have hqty : 1 ≤ l.2.toInt := positive l.2 (List.of_mem_zip hl).2
  have hcast : ((l.2.toInt.toNat : ℤ) : ℚ) = (l.2.toInt : ℚ) := by
    rw [Int.toNat_of_nonneg (by omega)]
  rw [← hcast]
  rfl

/-- The database prices are what is charged and what is cut off. -/
theorem databaseModsPrice_eq (x : NSNumber) :
    o.databaseModsPrice db x = o.modsPrice db x + o.cutOffMods db x := by
  rw [databaseModsPrice, modsPrice, cutOffMods]
  induction o.switchedOn x with
  | nil => simp
  | cons option options ih =>
    rw [List.map_cons, List.map_cons, List.sum_cons, List.sum_cons, ih]
    by_cases quantity : option.1 = "Modifier 2"
    · rw [List.filter_cons_of_pos (by simpa using quantity), List.map_cons, List.sum_cons, cutOff,
        databasePrice, optionPrice, if_pos quantity, if_pos quantity]
      ring
    · rw [List.filter_cons_of_neg (by simpa using quantity), databasePrice, optionPrice,
        if_neg quantity, if_neg quantity]
      ring

theorem taxDue_add :
    o.taxDue db "1" + o.taxDue db "2" = weightedSum o.billLines fun x =>
      lunchPrice db x * (doubleValue (db.getTax x "1") + doubleValue (db.getTax x "2")) / 100 := by
  rw [taxDue, taxDue, ← weightedSum_add]
  refine congrArg _ (funext fun x => ?_)
  rw [taxRate, taxRate]
  ring

/-- **Main result.** The totals of an order can be computed if and only if its
modifiers can be read, and they are the exact bill if and only if what is cut off,
by quantity, comes to nothing. -/
theorem bill_exact_iff (db : DatabaseAccess) {o : Orders} (store : StoreInvariant o) :
    ((∃ o', o.updateTotals db = .ok o') ↔ o.Readable) ∧
      ∀ o', o.updateTotals db = .ok o' →
        (BillExact db o o' ↔ o.overLines (o.cutOffMods db) = 0) := by
  have readable : ∀ o', o.updateTotals db = .ok o' → o.Readable := by
    intro o' htotals
    obtain ⟨t, hsums, -⟩ := bind_eq_ok.mp htotals
    exact readable_of_addLines store.one_le_qty hsums
  refine ⟨⟨fun ⟨o', htotals⟩ => readable o' htotals, fun readable => ?_⟩, fun o' htotals => ?_⟩
  · obtain ⟨o', htotals, -⟩ := updateTotals_billed db (le_of_eq store.length_eq) readable
    exact ⟨o', htotals⟩
  obtain ⟨o₁, htotals₁, billed⟩ :=
    updateTotals_billed db (le_of_eq store.length_eq) (readable o' htotals)
  rw [htotals] at htotals₁
  cases htotals₁
  have hamount : o.overLines (fun x => lunchPrice db x + o.databaseModsPrice db x) =
      o.amountDue db + o.overLines (o.cutOffMods db) := by
    rw [overLines_eq store.one_le_qty, overLines_eq store.one_le_qty, amountDue, ← weightedSum_add]
    refine congrArg _ (funext fun x => ?_)
    rw [databaseModsPrice_eq, add_assoc]
  have hprice : doubleValue o'.totalPrice = doubleValue o'.totalAmount + o.overLines (fun x =>
      lunchPrice db x * (doubleValue (db.getTax x "1") + doubleValue (db.getTax x "2")) / 100) := by
    rw [billed.totalPrice, billed.totalAmount, overLines_eq store.one_le_qty, ← taxDue_add,
      ← add_assoc]
    rfl
  rw [BillExact, and_iff_left hprice, billed.totalAmount, hamount]
  exact left_eq_add

end Exact

/-! ### A price with a fraction -/

/-- Two units of an item, in a size that costs more. -/
def twoLarge : Orders :=
  { Orders.init with
    currentItemIds := [1]
    currentQtys := [2]
    dictionary := Finmap.insert 1 ["Modifier 2:Large:1"] ∅ }

/-- An item for 3.5, taxed at 8, and what its size costs. -/
def sizePriced (price : String) : DatabaseAccess :=
  .answering [("SELECT lunch_price", "3.5"), ("SELECT price from TBL_QUANTITY", price),
    ("SELECT taxed1", "t"), ("SELECT tax_rate", "8")]

theorem storeInvariant_twoLarge : StoreInvariant twoLarge where
  length_eq := rfl
  nodup := List.nodup_singleton 1
  mem_dictionary_iff := by
    intro x
    rw [twoLarge, Finmap.mem_insert, List.mem_singleton]
    exact or_iff_left Finmap.notMem_empty
  one_le_qty := by
    intro q hq
    rw [List.mem_singleton.mp hq]
    decide

theorem bill_exact_wholePrice :
    ∃ o', twoLarge.updateTotals (sizePriced "2") = .ok o' ∧
      BillExact (sizePriced "2") twoLarge o' := by
  obtain ⟨completes_iff, exact_iff⟩ := bill_exact_iff (sizePriced "2") storeInvariant_twoLarge
  obtain ⟨o', htotals⟩ := completes_iff.mpr (by decide +kernel)
  exact ⟨o', htotals, (exact_iff o' htotals).mpr (by decide +kernel)⟩

/-- A size for half a dollar is charged nothing. -/
theorem bill_not_exact :
    ¬ ∀ (db : DatabaseAccess) (o : Orders), StoreInvariant o →
      ∀ o', o.updateTotals db = .ok o' → BillExact db o o' := by
  intro always
  have short : (twoLarge.updateTotals (sizePriced "0.5")).map
      (fun o' => decide (BillExact (sizePriced "0.5") twoLarge o')) = .ok false := by
    decide +kernel
  obtain ⟨o', htotals, wrong⟩ := map_eq_ok.mp short
  exact of_decide_eq_false wrong
    (always (sizePriced "0.5") twoLarge storeInvariant_twoLarge o' htotals)

section Whole

variable {db : DatabaseAccess} {o : Orders}

/-- While no price is negative, nothing is cut off exactly when an `int` holds the
price of every quantity that is on. -/
theorem nothing_cut_off_iff (store : StoreInvariant o)
    (nonneg : ∀ x choice, 0 ≤ doubleValue (db.getModPriceQuantity x choice)) :
    o.overLines (o.cutOffMods db) = 0 ↔
      ∀ x ∈ o.currentItemIds, ∀ option ∈ o.switchedOn x, option.1 = "Modifier 2" →
        HeldByInt (doubleValue (db.getModPriceQuantity x option.2)) := by
  have cut : ∀ x (option : String × String), 0 ≤ cutOff (db.getModPriceQuantity x option.2) :=
    fun x option => sub_nonneg.mpr (intValue_le_doubleValue (nonneg x option.2))
  have hmods : ∀ x, o.cutOffMods db x = 0 ↔ ∀ option ∈ o.switchedOn x, option.1 = "Modifier 2" →
      HeldByInt (doubleValue (db.getModPriceQuantity x option.2)) := by
    intro x
    rw [cutOffMods, sum_map_eq_zero_iff fun option _ => cut x option]
    simp only [List.mem_filter, decide_eq_true_eq, and_imp, cutOff, sub_eq_zero]
    refine forall_congr' fun option => imp_congr_right fun _ => imp_congr_right fun _ => ?_
    rw [eq_comm, intValue_eq_doubleValue_iff]
  have hnonneg : ∀ x, 0 ≤ o.cutOffMods db x := by
    intro x
    refine List.sum_nonneg fun q hq => ?_
    obtain ⟨option, -, rfl⟩ := List.mem_map.mp hq
    exact cut x option
  have hqty : ∀ l ∈ o.currentItemIds.zip o.currentQtys, (0 : ℚ) < l.2.toInt := by
    intro l hl
    have hpos : 1 ≤ l.2.toInt := store.one_le_qty l.2 (List.of_mem_zip hl).2
    exact_mod_cast hpos
  rw [overLines, sum_map_eq_zero_iff fun l hl => mul_nonneg (hqty l hl).le (hnonneg l.1)]
  constructor
  · intro zeros x hx
    rw [← List.map_fst_zip (le_of_eq store.length_eq)] at hx
    obtain ⟨l, hl, rfl⟩ := List.mem_map.mp hx
    exact (hmods l.1).mp ((mul_eq_zero_iff_left (hqty l hl).ne').mp (zeros l hl))
  · intro whole l hl
    rw [(hmods l.1).mpr (whole l.1 (List.of_mem_zip hl).1), mul_zero]

end Whole

end Orders

end PointIPad
