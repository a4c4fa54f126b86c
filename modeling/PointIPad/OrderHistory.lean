import PointIPad.Bill
import PointIPad.Selection

/-!
Orders by the events that built them.

`Tidy` is what every event leaves: distinct items, a quantity for each, and for
each item a list of entries with distinct choices. It is kept by every step that
completes, whether or not a screen can offer it and whatever the quantities are,
so it holds of every order that can be reached.

**Main result** (`bill_by_contents`). Two orders with the same units of every item
and the same options on are charged the same, whatever came before.
-/

namespace PointIPad

open Transition ModChoice WeightedSum

/-- What every order that can be reached satisfies. -/
structure Tidy (o : Orders) : Prop extends Keyed o where
  length_eq : o.currentItemIds.length = o.currentQtys.length
  distinct : ∀ x (mods : List ModChoice), o.dictionary.lookup x = some (mods.map text) →
    (mods.map ModChoice.choice).Nodup

section Tidy

variable {db : DatabaseAccess} {o o' : Orders}

theorem tidy_init : Tidy Orders.init where
  toKeyed := keyed_init
  length_eq := rfl
  distinct := fun x mods h => by simp [Orders.init] at h

theorem Tidy.updateTotals (h : Tidy o) (hstep : o.updateTotals db = .ok o') : Tidy o' := by
  have keyed := h.toKeyed.updateTotals hstep
  obtain ⟨_, _, _, _, rfl⟩ := Orders.updateTotals_eq_ok hstep
  exact ⟨keyed, h.length_eq, h.distinct⟩

theorem length_incrementQuantities {x : NSNumber} {itemIds : List NSNumber} {qtyIndex : ℕ}
    {qtys qtys' : List Int32}
    (h : Orders.incrementQuantities x itemIds qtyIndex qtys = .ok qtys') :
    qtys'.length = qtys.length := by
  induction itemIds generalizing qtyIndex qtys with
  | nil =>
    cases h
    rfl
  | cons y itemIds ih =>
    rw [Orders.incrementQuantities] at h
    split at h
    · obtain ⟨qty, -, h⟩ := bind_eq_ok.mp h
      obtain ⟨replaced, hreplaced, h⟩ := bind_eq_ok.mp h
      obtain ⟨-, rfl⟩ := replaceObjectAtIndex_eq_ok.mp hreplaced
      rw [ih h, List.length_set]
    · exact ih h

theorem Tidy.addItem (h : Tidy o) {itemId : Option NSNumber} (hstep : o.addItem itemId = .ok o') :
    Tidy o' := by
  obtain ⟨keyed, -⟩ := h.toKeyed.addItem hstep
  cases itemId with
  | none => cases hstep
  | some x =>
    rw [Orders.addItem] at hstep
    split at hstep
    · obtain ⟨qtys, hqtys, hstep⟩ := bind_eq_ok.mp hstep
      cases hstep
      exact ⟨keyed, h.length_eq.trans (length_incrementQuantities hqtys).symm, h.distinct⟩
    · cases hstep
      refine ⟨keyed, by simp [h.length_eq], fun y mods hy => ?_⟩
      by_cases same : y = x
      · subst same
        rw [Finmap.lookup_insert, Option.some.injEq] at hy
        rw [List.map_eq_nil_iff.mp hy.symm]
        exact List.nodup_nil
      · rw [Finmap.lookup_insert_of_ne _ same] at hy
        exact h.distinct y mods hy

theorem Tidy.setQuantity (h : Tidy o) {row : ℕ} {value : Int}
    (hstep : o.setQuantity row value = .ok o') : Tidy o' := by
  have keyed := h.toKeyed.setQuantity hstep
  obtain ⟨qtys, hqtys, hstep⟩ := bind_eq_ok.mp hstep
  obtain ⟨-, rfl⟩ := replaceObjectAtIndex_eq_ok.mp hqtys
  cases hstep
  exact ⟨keyed, by rw [List.length_set, h.length_eq], h.distinct⟩

theorem Tidy.removeLine (h : Tidy o) {row : ℕ} (hstep : o.removeLine row = .ok o') : Tidy o' := by
  have keyed := h.toKeyed.removeLine hstep
  obtain ⟨x, -, hstep⟩ := bind_eq_ok.mp hstep
  obtain ⟨itemIds, hids, hstep⟩ := bind_eq_ok.mp hstep
  obtain ⟨qtys, hqtys, hstep⟩ := bind_eq_ok.mp hstep
  cases hstep
  obtain ⟨hrow, rfl⟩ := removeObjectAtIndex_eq_ok.mp hids
  obtain ⟨hrow', rfl⟩ := removeObjectAtIndex_eq_ok.mp hqtys
  refine ⟨keyed, ?_, fun y mods hy => ?_⟩
  · rw [List.length_eraseIdx_of_lt hrow, List.length_eraseIdx_of_lt hrow', h.length_eq]
  · by_cases same : y = x
    · subst same
      rw [Finmap.lookup_erase] at hy
      cases hy
    · rw [Finmap.lookup_erase_ne same] at hy
      exact h.distinct y mods hy

theorem Tidy.updateModifiers (h : Tidy o) {x : NSNumber} {changes : List ModChoice}
    (hstep : o.updateDictionaryWithModifierString (changes.map text) (some x) = .ok o') :
    Tidy o' := by
  by_cases hx : x ∈ o.currentItemIds
  · obtain ⟨o₁, before, hbefore, hstep₁, keyed, -⟩ := h.toKeyed.updateModifiers hx changes
    rw [hstep₁] at hstep
    cases hstep
    rw [Orders.updateDictionaryWithModifierString_text changes hbefore] at hstep₁
    cases hstep₁
    refine ⟨keyed, h.length_eq, fun y mods hy => ?_⟩
    by_cases same : y = x
    · subst same
      rw [Finmap.lookup_insert, Option.some.injEq] at hy
      rw [← List.map_injective_iff.mpr text_injective hy]
      exact nodup_choices_applyChanges (h.distinct y before hbefore)
    · rw [Finmap.lookup_insert_of_ne _ same] at hy
      exact h.distinct y mods hy
  · -- without changes there is nothing to raise
    have absent : o.modsInDict (some x) = none := by
      rw [← h.mem_dictionary_iff] at hx
      exact Finmap.lookup_eq_none.mpr hx
    cases changes with
    | nil =>
      simp only [Orders.updateDictionaryWithModifierString, absent, List.map_nil] at hstep
      cases hstep
      exact h
    | cons change changes =>
      rw [List.map_cons, Orders.updateDictionaryWithModifierString_absent absent] at hstep
      cases hstep

/-- **Every step keeps the order tidy.** -/
theorem Tidy.step (h : Tidy o) {e : OrderEvent} (hstep : orderStep db o e = .ok o') : Tidy o' := by
  cases e with
  | addToOrder x =>
    obtain ⟨o₁, hadd, htotals⟩ := bind_eq_ok.mp hstep
    have named : Tidy (o.getTaxNames db) :=
      ⟨⟨h.nodup, h.mem_dictionary_iff, h.entries⟩, h.length_eq, h.distinct⟩
    exact (named.addItem hadd).updateTotals htotals
  | stepperValueChanged row value =>
    obtain ⟨o₁, hset, hstep⟩ := bind_eq_ok.mp hstep
    have h₁ := h.setQuantity hset
    split at hstep
    · obtain ⟨o₂, hremove, hstep⟩ := bind_eq_ok.mp hstep
      obtain ⟨o₃, htotals, htotals'⟩ := bind_eq_ok.mp hstep
      exact ((h₁.removeLine hremove).updateTotals htotals).updateTotals htotals'
    · exact h₁.updateTotals hstep
  | changedModifiers x changes => exact h.updateModifiers hstep

theorem tidy_of_run {es : List OrderEvent} (hrun : run (orderStep db) Orders.init es = .ok o) :
    Tidy o :=
  run_invariant (fun _ _ _ h hstep => h.step hstep) tidy_init hrun

end Tidy

/-! ### What a bill depends on -/

namespace Orders

/-- The units of an item in an order. -/
def quantityOf (o : Orders) (itemId : NSNumber) : ℕ := unitsOf o.billLines itemId

variable {db : DatabaseAccess} {o o' : Orders} {x : NSNumber}

theorem modStrings_of_lookup {strings : List String}
    (present : o.dictionary.lookup x = some strings) : o.modStrings x = strings := by
  simp only [modStrings, modsInDict, Option.bind_some, present, Option.getD_some]

theorem switchedOn_of_lookup {mods : List ModChoice}
    (hmods : o.dictionary.lookup x = some (mods.map text)) :
    o.switchedOn x = (mods.filter (·.isOn)).map ModChoice.key := by
  rw [switchedOn, modStrings_of_lookup hmods, filterMap_optionOn_text]

theorem switchedOn_of_absent (absent : o.dictionary.lookup x = none) : o.switchedOn x = [] := by
  have none : o.modStrings x = [] := by
    simp only [modStrings, modsInDict, Option.bind_some, absent, Option.getD_none]
  rw [switchedOn, none, List.filterMap_nil]

end Orders

section Contents

variable {db : DatabaseAccess} {o o' : Orders}

theorem Tidy.readable (h : Tidy o) : o.Readable := by
  intro x hx mod hmod
  obtain ⟨mods, hmods⟩ := h.exists_mods hx
  rw [Orders.modStrings_of_lookup hmods] at hmod
  obtain ⟨m, -, rfl⟩ := List.mem_map.mp hmod
  exact Orders.hasFlag_text m

/-- The totals of a tidy order can be computed, and are the sums over its lines. -/
theorem Tidy.billed (h : Tidy o) (db : DatabaseAccess) :
    ∃ o', o.updateTotals db = .ok o' ∧ Orders.Billed db o o' :=
  Orders.updateTotals_billed db (le_of_eq h.length_eq) h.readable

theorem Tidy.nodup_billLines (h : Tidy o) : (o.billLines.map Prod.fst).Nodup := by
  have items : o.billLines.map Prod.fst = o.currentItemIds := by
    rw [Orders.billLines, List.map_map]
    exact List.map_fst_zip (le_of_eq h.length_eq)
  rw [items]
  exact h.nodup

/-- An option is on at most once. -/
theorem Tidy.nodup_switchedOn (h : Tidy o) (x : NSNumber) : (o.switchedOn x).Nodup := by
  cases hlookup : o.dictionary.lookup x with
  | none =>
    rw [Orders.switchedOn_of_absent hlookup]
    exact List.nodup_nil
  | some strings =>
    obtain ⟨mods, rfl⟩ := h.entries x strings hlookup
    rw [Orders.switchedOn_of_lookup hlookup]
    refine List.Nodup.of_map Prod.snd ?_
    rw [List.map_map]
    exact (h.distinct x mods hlookup).sublist ((List.filter_sublist).map _)

/-- The order in which options are stored does not matter to their price. -/
theorem Tidy.modsPrice_eq (h : Tidy o) (h' : Tidy o') {x : NSNumber}
    (options : ∀ option, option ∈ o.switchedOn x ↔ option ∈ o'.switchedOn x) :
    o.modsPrice db x = o'.modsPrice db x := by
  have perm : (o.switchedOn x).Perm (o'.switchedOn x) :=
    (List.perm_ext_iff_of_nodup (h.nodup_switchedOn x) (h'.nodup_switchedOn x)).mpr options
  exact (perm.map _).sum_eq

/-- **Main result.** Two runs from the empty order that end with the same units of
every item and the same options on: their totals are computed, and are the same. -/
theorem bill_by_contents (db : DatabaseAccess) {es es' : List OrderEvent}
    (hrun : run (orderStep db) Orders.init es = .ok o)
    (hrun' : run (orderStep db) Orders.init es' = .ok o')
    (quantities : ∀ x, o.quantityOf x = o'.quantityOf x)
    (options : ∀ x option, option ∈ o.switchedOn x ↔ option ∈ o'.switchedOn x) :
    ∃ billed billed', o.updateTotals db = .ok billed ∧ o'.updateTotals db = .ok billed' ∧
      billed.totalAmount = billed'.totalAmount ∧ billed.totalPrice = billed'.totalPrice := by
  have h := tidy_of_run hrun
  have h' := tidy_of_run hrun'
  obtain ⟨billed, htotals, hbilled⟩ := h.billed db
  obtain ⟨billed', htotals', hbilled'⟩ := h'.billed db
  have sums : ∀ f : NSNumber → ℚ, weightedSum o.billLines f = weightedSum o'.billLines f :=
    weightedSum_congr h.nodup_billLines h'.nodup_billLines quantities
  have amounts : o.amountDue db = o'.amountDue db := by
    rw [Orders.amountDue, Orders.amountDue, sums]
    refine congrArg _ (funext fun x => ?_)
    rw [h.modsPrice_eq h' (options x)]
  have taxes : ∀ taxNumber, o.taxDue db taxNumber = o'.taxDue db taxNumber := fun _ => sums _
  have charged : billed.totalAmount.isSome ↔ billed'.totalAmount.isSome := by
    rw [hbilled.isSome_totalAmount, hbilled'.isSome_totalAmount,
      units_ne_nil_iff h.nodup_billLines, units_ne_nil_iff h'.nodup_billLines]
    exact exists_congr fun x => by rw [← Orders.quantityOf, quantities x, Orders.quantityOf]
  have values : doubleValue billed.totalAmount = doubleValue billed'.totalAmount := by
    rw [hbilled.totalAmount, hbilled'.totalAmount, amounts]
  refine ⟨billed, billed', htotals, htotals', ?_, ?_⟩
  · -- the values agree, and so does whether there is one
    cases hamount : billed.totalAmount <;> cases hamount' : billed'.totalAmount
    all_goals simp_all [doubleValue]
  · rw [hbilled.totalPrice, hbilled'.totalPrice, amounts, taxes, taxes]

/-- Two orders have the same contents if they have for the items of both. -/
def SameContents (o o' : Orders) : Prop :=
  ∀ x ∈ o.currentItemIds ++ o'.currentItemIds,
    o.quantityOf x = o'.quantityOf x ∧ (o.switchedOn x).Perm (o'.switchedOn x)

instance (o o' : Orders) : Decidable (SameContents o o') :=
  inferInstanceAs (Decidable (∀ x ∈ o.currentItemIds ++ o'.currentItemIds,
    o.quantityOf x = o'.quantityOf x ∧ (o.switchedOn x).Perm (o'.switchedOn x)))

theorem Tidy.of_not_mem (h : Tidy o) {x : NSNumber} (hx : x ∉ o.currentItemIds) :
    o.quantityOf x = 0 ∧ o.switchedOn x = [] := by
  constructor
  · refine unitsOf_of_not_mem fun mem => hx ?_
    obtain ⟨line, hline, rfl⟩ := List.mem_map.mp mem
    obtain ⟨l, hl, rfl⟩ := List.mem_map.mp hline
    exact (List.of_mem_zip hl).1
  · rw [← h.mem_dictionary_iff] at hx
    exact Orders.switchedOn_of_absent (Finmap.lookup_eq_none.mpr hx)

theorem Tidy.sameContents (h : Tidy o) (h' : Tidy o') (same : SameContents o o') (x : NSNumber) :
    o.quantityOf x = o'.quantityOf x ∧
      ∀ option, option ∈ o.switchedOn x ↔ option ∈ o'.switchedOn x := by
  by_cases hx : x ∈ o.currentItemIds ++ o'.currentItemIds
  · obtain ⟨quantity, options⟩ := same x hx
    exact ⟨quantity, fun _ => options.mem_iff⟩
  · rw [List.mem_append, not_or] at hx
    obtain ⟨quantity, options⟩ := h.of_not_mem hx.1
    obtain ⟨quantity', options'⟩ := h'.of_not_mem hx.2
    rw [quantity, quantity', options, options']
    exact ⟨rfl, fun _ => Iff.rfl⟩

theorem quantity_free : Delimited.Free ':' "Modifier 2" := by decide

theorem extra_free : Delimited.Free ':' "Modifier 3" := by decide

/-- A large tea with milk, and a cake. -/
def teaFirst : List OrderEvent :=
  [.addToOrder 1, .addToOrder 2,
    .changedModifiers 1 [⟨"Modifier 2", "Large", true, quantity_free, by decide⟩,
      ⟨"Modifier 3", "Milk", true, extra_free, by decide⟩]]

/-- The same, with the tea added twice, taken back to one, and sugar put in and out. -/
def cakeFirst : List OrderEvent :=
  [.addToOrder 2, .addToOrder 1, .addToOrder 1,
    .changedModifiers 1 [⟨"Modifier 3", "Sugar", true, extra_free, by decide⟩,
      ⟨"Modifier 3", "Milk", true, extra_free, by decide⟩],
    .stepperValueChanged 1 1,
    .changedModifiers 1 [⟨"Modifier 2", "Large", true, quantity_free, by decide⟩,
      ⟨"Modifier 3", "Sugar", false, extra_free, by decide⟩]]

theorem bill_by_contents_teaAndCake :
    ∃ o o' billed billed', run (orderStep (Orders.sizePriced "2")) Orders.init teaFirst = .ok o ∧
      run (orderStep (Orders.sizePriced "2")) Orders.init cakeFirst = .ok o' ∧
      o.updateTotals (Orders.sizePriced "2") = .ok billed ∧
      o'.updateTotals (Orders.sizePriced "2") = .ok billed' ∧
      billed.totalAmount = billed'.totalAmount ∧ billed.totalPrice = billed'.totalPrice := by
  have ends : (run (orderStep (Orders.sizePriced "2")) Orders.init teaFirst >>= fun o =>
      (run (orderStep (Orders.sizePriced "2")) Orders.init cakeFirst).map fun o' =>
        decide (SameContents o o')) = .ok true := by
    decide +kernel
  obtain ⟨o, hrun, ends'⟩ := bind_eq_ok.mp ends
  obtain ⟨o', hrun', same⟩ := map_eq_ok.mp ends'
  have contents :=
    (tidy_of_run hrun).sameContents (tidy_of_run hrun') (of_decide_eq_true same)
  obtain ⟨billed, billed', htotals, htotals', totals⟩ :=
    bill_by_contents (Orders.sizePriced "2") hrun hrun' (fun x => (contents x).1)
      fun x => (contents x).2
  exact ⟨o, o', billed, billed', hrun, hrun', htotals, htotals', totals⟩

end Contents

end PointIPad
