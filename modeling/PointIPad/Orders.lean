import Mathlib.Algebra.BigOperators.Group.List.Basic
import PointIPad.DatabaseAccess
import PointIPad.ModChoice

/-!
The order of a table: its items, their quantities and modifiers, and its totals.

Three containers hold an order: the item ids, the quantities at the same
indices, and a dictionary from item ids to modifier strings. The methods are
those of the class, loop by loop; a method that indexes a collection may raise.
The dictionary's arrays are changed in place, which is the same here as putting
the changed array back.

The last section is the link to modifier entries: while every string of an item
is an entry, the string code computes `ModChoice.applyChanges`, its reads are
`ModChoice.flagOf`, and neither raises.
-/

namespace PointIPad

open Transition

structure Orders where
  totalAmount : Option NSNumber
  totalPrice : Option NSNumber
  currentItemIds : List NSNumber
  currentQtys : List Int32
  dictionary : NSMutableDictionary NSNumber (List String)
  taxOnePercentage : Option NSNumber
  taxTwoPercentage : Option NSNumber
  nameOfFirstTax : Option String
  nameOfSecondTax : Option String
deriving DecidableEq

namespace Orders

def init : Orders where
  totalAmount := none
  totalPrice := none
  currentItemIds := []
  currentQtys := []
  dictionary := ∅
  taxOnePercentage := none
  taxTwoPercentage := none
  nameOfFirstTax := some "Tax One"
  nameOfSecondTax := some "Tax Two"

/-- In a string `Modifier 1:M1:1`. -/
def CATEGORY_INDEX : Nat := 0
def CHOICE_INDEX : Nat := 1
def BOOLEAN_INDEX : Nat := 2

/-- `[dictionary objectForKey:itemId]`; `nil` for `nil`. -/
def modsInDict (o : Orders) (itemId : Option NSNumber) : Option (List String) :=
  itemId.bind fun key => o.dictionary.lookup key

/-! ### Totals -/

/-- The loop of `priceOfEveryModUsing:` over the modifier strings of an item. -/
def addModPrices (db : DatabaseAccess) (itemId : NSNumber) :
    List String → NSNumber → Except NSException NSNumber
  | [], totalModPrice => .ok totalModPrice
  | mod :: mods, totalModPrice => do
    let modString := componentsSeparatedByString mod
    if (← objectAtIndex modString BOOLEAN_INDEX) = "1" then
      if (← objectAtIndex modString CATEGORY_INDEX) = "Modifier 2" then
        -- the price of a quantity is read as an `int`
        let modPriceFromDB := intValue (db.getModPriceQuantity itemId
          (← objectAtIndex modString CHOICE_INDEX))
        addModPrices db itemId mods (modPriceFromDB + totalModPrice)
      else if (← objectAtIndex modString CATEGORY_INDEX) = "Modifier 3" then
        let modPriceFromDB := doubleValue (db.getModPriceExtra itemId
          (← objectAtIndex modString CHOICE_INDEX))
        addModPrices db itemId mods (modPriceFromDB + totalModPrice)
      else addModPrices db itemId mods totalModPrice
    else addModPrices db itemId mods totalModPrice

def priceOfEveryModUsing (db : DatabaseAccess) (o : Orders) (itemId : NSNumber) :
    Except NSException NSNumber :=
  addModPrices db itemId ((o.modsInDict (some itemId)).getD []) 0

/-- The locals and the ivars that the loops of `updateTotals` work on. -/
structure Totals where
  totalAmount : Option NSNumber
  firstTax : NSNumber
  secondTax : NSNumber
  taxOnePercentage : Option NSNumber
  taxTwoPercentage : Option NSNumber

/-- The body of the inner loop: one unit of an item. -/
def addUnit (db : DatabaseAccess) (o : Orders) (itemId : NSNumber) (t : Totals) :
    Except NSException Totals := do
  let tempItemPrice := db.getLunchPriceUsing itemId
  let modsPrice ← o.priceOfEveryModUsing db itemId
  let taxOne := doubleValue (db.getTax itemId "1") / 100
  let taxTwo := doubleValue (db.getTax itemId "2") / 100
  .ok {
    totalAmount := some (doubleValue tempItemPrice + doubleValue t.totalAmount + modsPrice)
    firstTax := t.firstTax + doubleValue tempItemPrice * taxOne
    secondTax := t.secondTax + doubleValue tempItemPrice * taxTwo
    taxOnePercentage := some taxOne
    taxTwoPercentage := some taxTwo }

/-- The inner loop, for a quantity. -/
def addUnits (db : DatabaseAccess) (o : Orders) (itemId : NSNumber) :
    Nat → Totals → Except NSException Totals
  | 0, t => .ok t
  | qty + 1, t => o.addUnit db itemId t >>= o.addUnits db itemId qty

/-- The outer loop, over the item ids from an index on. -/
def addLines (db : DatabaseAccess) (o : Orders) :
    List NSNumber → Nat → Totals → Except NSException Totals
  | [], _, t => .ok t
  | itemId :: itemIds, curItem, t => do
    let qty ← objectAtIndex o.currentQtys curItem
    let t ← o.addUnits db itemId qty.toInt.toNat t
    o.addLines db itemIds (curItem + 1) t

def updateTotals (db : DatabaseAccess) (o : Orders) : Except NSException Orders := do
  let t ← o.addLines db o.currentItemIds 0 {
    totalAmount := none
    firstTax := 0
    secondTax := 0
    taxOnePercentage := o.taxOnePercentage
    taxTwoPercentage := o.taxTwoPercentage }
  .ok { o with
    totalAmount := t.totalAmount
    totalPrice := some (doubleValue t.totalAmount + t.firstTax + t.secondTax)
    taxOnePercentage := t.taxOnePercentage
    taxTwoPercentage := t.taxTwoPercentage }

/-! ### Adding an item -/

def getTaxNames (db : DatabaseAccess) (o : Orders) : Orders :=
  { o with
    nameOfFirstTax := db.getTaxName "1"
    nameOfSecondTax := db.getTaxName "2" }

/-- The loop that adds one to the quantity at every index of an id. -/
def incrementQuantities (itemId : NSNumber) :
    List NSNumber → Nat → List Int32 → Except NSException (List Int32)
  | [], _, qtys => .ok qtys
  | x :: itemIds, qtyIndex, qtys =>
    if x = itemId then do
      let incrementQuantity := (← objectAtIndex qtys qtyIndex) + 1
      let qtys ← replaceObjectAtIndex qtys qtyIndex incrementQuantity
      incrementQuantities itemId itemIds (qtyIndex + 1) qtys
    else incrementQuantities itemId itemIds (qtyIndex + 1) qtys

/-- The three containers after an item is added; `addObject:` raises on a `nil` id. -/
def addItem (o : Orders) (itemId : Option NSNumber) : Except NSException Orders :=
  match itemId with
  | some itemId =>
    if itemId ∈ o.currentItemIds then do
      let qtys ← incrementQuantities itemId o.currentItemIds 0 o.currentQtys
      .ok { o with currentQtys := qtys }
    else
      .ok { o with
        currentItemIds := o.currentItemIds ++ [itemId]
        currentQtys := o.currentQtys ++ [1]
        dictionary := o.dictionary.insert itemId [] }
  | none => .error .invalidArgumentException

def addToOrder (db : DatabaseAccess) (o : Orders) (itemId : Option NSNumber) :
    Except NSException Orders := do
  let o ← (o.getTaxNames db).addItem itemId
  o.updateTotals db

/-! ### Modifier strings -/

def newChangeInDictionary : List String → String → Except NSException Bool
  | [], _ => .ok false
  | mod :: mods, newChange => do
    let splitNewChange := componentsSeparatedByString newChange
    let splitModsInDict := componentsSeparatedByString mod
    if (← objectAtIndex splitModsInDict CHOICE_INDEX)
        = (← objectAtIndex splitNewChange CHOICE_INDEX) then .ok true
    else newChangeInDictionary mods newChange

/-- The inner loop of `updateDictionaryWithModifierString:forKey:`: every string
with the choice of the change takes its flag. -/
def replaceFlags (newChange : String) : List String → Except NSException (List String)
  | [] => .ok []
  | mod :: mods => do
    let modUpdate := componentsSeparatedByString newChange
    let modNames := componentsSeparatedByString mod
    let replaced ←
      if (← objectAtIndex modNames CHOICE_INDEX) = (← objectAtIndex modUpdate CHOICE_INDEX) then do
        let names ← replaceObjectAtIndex modNames BOOLEAN_INDEX
          (← objectAtIndex modUpdate BOOLEAN_INDEX)
        .ok (ModChoice.format (← objectAtIndex names CATEGORY_INDEX)
          (← objectAtIndex names CHOICE_INDEX) (← objectAtIndex names BOOLEAN_INDEX))
      else .ok mod
    .ok (replaced :: (← replaceFlags newChange mods))

/-- The body of the outer loop, on the modifier strings of an item. -/
def applyNewChange (mods : List String) (newChange : String) : Except NSException (List String) := do
  if ← newChangeInDictionary mods newChange then replaceFlags newChange mods
  else .ok (mods ++ [newChange])

/-- An item that is not in the dictionary has no array to change: a first change
puts `nil` into the dictionary, which raises. -/
def updateDictionaryWithModifierString (o : Orders) (newChanges : List String)
    (itemId : Option NSNumber) : Except NSException Orders :=
  match itemId, o.modsInDict itemId, newChanges with
  | some key, some mods, newChanges => do
    let mods ← newChanges.foldlM applyNewChange mods
    .ok { o with dictionary := o.dictionary.insert key mods }
  | _, _, [] => .ok o
  | _, _, _ :: _ => .error .invalidArgumentException

/-- The loop of `nameInKey:ofKey:`: the flag of the first string with the name. -/
def nameIn : List String → String → Except NSException Bool
  | [], _ => .ok false
  | mod :: mods, cellValue => do
    let modNames := componentsSeparatedByString mod
    if (← objectAtIndex modNames CHOICE_INDEX) = cellValue then
      .ok (decide ((← objectAtIndex modNames BOOLEAN_INDEX) = "1"))
    else nameIn mods cellValue

def nameInKey (o : Orders) (cellValue : String) (itemId : Option NSNumber) :
    Except NSException Bool :=
  nameIn ((o.modsInDict itemId).getD []) cellValue

/-! ### What the methods change -/

section Frame

variable {db : DatabaseAccess} {o o' : Orders} {itemId : NSNumber}

/-- Totals are computed without touching the items, quantities and modifiers. -/
theorem updateTotals_eq_ok (h : o.updateTotals db = .ok o') :
    ∃ amount price taxOne taxTwo, o' = { o with
      totalAmount := amount, totalPrice := price
      taxOnePercentage := taxOne, taxTwoPercentage := taxTwo } := by
  obtain ⟨t, -, ht⟩ := bind_eq_ok.mp h
  cases ht
  exact ⟨_, _, _, _, rfl⟩

theorem addUnits_succeeds {p : NSNumber} (hprice : o.priceOfEveryModUsing db itemId = .ok p)
    (qty : Nat) (t : Totals) : ∃ t', o.addUnits db itemId qty t = .ok t' := by
  induction qty generalizing t with
  | zero => exact ⟨t, rfl⟩
  | succ qty ih =>
    rw [addUnits, addUnit, hprice]
    exact ih _

theorem addLines_succeeds {itemIds : List NSNumber} (curItem : Nat)
    (hlen : curItem + itemIds.length ≤ o.currentQtys.length)
    (hprice : ∀ x ∈ itemIds, ∃ p, o.priceOfEveryModUsing db x = .ok p) (t : Totals) :
    ∃ t', o.addLines db itemIds curItem t = .ok t' := by
  induction itemIds generalizing curItem t with
  | nil => exact ⟨t, rfl⟩
  | cons x itemIds ih =>
    rw [List.length_cons] at hlen
    obtain ⟨qty, hqty⟩ : ∃ qty, o.currentQtys[curItem]? = some qty :=
      ⟨_, List.getElem?_eq_getElem (by omega)⟩
    obtain ⟨p, hp⟩ := hprice x List.mem_cons_self
    obtain ⟨t', ht'⟩ := addUnits_succeeds hp qty.toInt.toNat t
    obtain ⟨t'', ht''⟩ :=
      ih (curItem + 1) (by omega) (fun y hy => hprice y (List.mem_cons_of_mem x hy)) t'
    refine ⟨t'', ?_⟩
    rw [addLines, objectAtIndex_eq_ok.mpr hqty, ok_bind, ht', ok_bind, ht'']

/-- Totals can be computed when every item has a quantity and readable modifiers. -/
theorem updateTotals_succeeds (hlen : o.currentItemIds.length ≤ o.currentQtys.length)
    (hprice : ∀ x ∈ o.currentItemIds, ∃ p, o.priceOfEveryModUsing db x = .ok p) :
    ∃ o', o.updateTotals db = .ok o' := by
  obtain ⟨t, ht⟩ := addLines_succeeds 0 (by omega) hprice ⟨none, 0, 0, o.taxOnePercentage,
    o.taxTwoPercentage⟩
  rw [updateTotals, ht]
  exact ⟨_, rfl⟩

end Frame

/-! ### Modifier strings that have a flag -/

section Flags

/-- A modifier string has a category, a choice and a flag. -/
def HasFlag (mod : String) : Prop := BOOLEAN_INDEX < (componentsSeparatedByString mod).length

instance (mod : String) : Decidable (HasFlag mod) := inferInstanceAs (Decidable (_ < _))

/-- The category and the choice of a modifier string whose flag is on. -/
def optionOn (mod : String) : Option (String × String) :=
  match componentsSeparatedByString mod with
  | category :: choice :: flag :: _ => if flag = "1" then some (category, choice) else none
  | _ => none

/-- What an option adds to the price of an item when it is on. -/
def optionPrice (db : DatabaseAccess) (itemId : NSNumber) (option : String × String) : NSNumber :=
  if option.1 = "Modifier 2" then intValue (db.getModPriceQuantity itemId option.2)
  else if option.1 = "Modifier 3" then doubleValue (db.getModPriceExtra itemId option.2)
  else 0

variable {mods : List String}

/-- One string of `priceOfEveryModUsing:`. -/
theorem addModPrices_cons (db : DatabaseAccess) (itemId total : NSNumber) {mod : String}
    (flag : HasFlag mod) :
    addModPrices db itemId (mod :: mods) total =
      addModPrices db itemId mods
        (((optionOn mod).map (optionPrice db itemId)).getD 0 + total) := by
  unfold HasFlag at flag
  rw [addModPrices, optionOn]
  rcases hparts : componentsSeparatedByString mod with - | ⟨category, - | ⟨choice, - | ⟨on, parts⟩⟩⟩
  -- three components are read, whatever follows them
  case cons.cons.cons =>
    by_cases isOn : on = "1"
    · by_cases quantity : category = "Modifier 2"
      · simp [objectAtIndex, BOOLEAN_INDEX, CATEGORY_INDEX, CHOICE_INDEX, isOn, optionPrice,
          quantity]
      · by_cases extra : category = "Modifier 3"
        · simp [objectAtIndex, BOOLEAN_INDEX, CATEGORY_INDEX, CHOICE_INDEX, isOn, optionPrice,
            extra]
        · simp [objectAtIndex, BOOLEAN_INDEX, CATEGORY_INDEX, isOn, optionPrice, quantity, extra]
    · simp [objectAtIndex, BOOLEAN_INDEX, isOn]
  all_goals
    rw [hparts] at flag
    simp [BOOLEAN_INDEX] at flag

theorem addModPrices_eq (db : DatabaseAccess) (itemId : NSNumber)
    (flags : ∀ mod ∈ mods, HasFlag mod) (total : NSNumber) :
    addModPrices db itemId mods total =
      .ok (total + ((mods.filterMap optionOn).map (optionPrice db itemId)).sum) := by
  induction mods generalizing total with
  | nil => simp [addModPrices]
  | cons mod mods ih =>
    rw [addModPrices_cons db itemId total (flags mod List.mem_cons_self),
      ih fun mod' hmod' => flags mod' (List.mem_cons_of_mem mod hmod')]
    cases hoption : optionOn mod with
    | none => simp [hoption]
    | some option =>
      rw [List.filterMap_cons, hoption, List.map_cons, List.sum_cons, Option.map_some,
        Option.getD_some, ← add_assoc, add_comm total]

/-- A string without a flag raises, whatever the others are. -/
theorem hasFlag_of_addModPrices {db : DatabaseAccess} {itemId total p : NSNumber}
    (h : addModPrices db itemId mods total = .ok p) : ∀ mod ∈ mods, HasFlag mod := by
  induction mods generalizing total with
  | nil => simp
  | cons mod mods ih =>
    have flag : HasFlag mod := by
      rw [addModPrices] at h
      obtain ⟨on, hon, -⟩ := bind_eq_ok.mp h
      exact (List.getElem?_eq_some_iff.mp (objectAtIndex_eq_ok.mp hon)).1
    rw [addModPrices_cons db itemId total flag] at h
    intro mod' hmod'
    rcases List.mem_cons.mp hmod' with rfl | hmod'
    · exact flag
    · exact ih h mod' hmod'

end Flags

/-! ### Modifier strings that are entries -/

section Entries

open ModChoice

variable {mods changes : List ModChoice} {change : ModChoice}

theorem newChangeInDictionary_text :
    newChangeInDictionary (mods.map text) change.text =
      .ok (decide (∃ m ∈ mods, m.choice = change.choice)) := by
  induction mods with
  | nil => simp [newChangeInDictionary]
  | cons m mods ih =>
    rw [List.map_cons, newChangeInDictionary, components_text, components_text]
    by_cases same : m.choice = change.choice
    · simp [objectAtIndex, CHOICE_INDEX, same]
    · simp [objectAtIndex, CHOICE_INDEX, same, ih]

theorem replaceFlags_text :
    replaceFlags change.text (mods.map text) = .ok ((mods.map fun m =>
      if m.choice = change.choice then m.withFlag change.isOn else m).map text) := by
  induction mods with
  | nil => rfl
  | cons m mods ih =>
    rw [List.map_cons, replaceFlags, components_text, components_text, ih]
    by_cases same : m.choice = change.choice
    · simp [objectAtIndex, replaceObjectAtIndex, CATEGORY_INDEX, CHOICE_INDEX, BOOLEAN_INDEX, same,
        text, withFlag]
    · simp [objectAtIndex, CHOICE_INDEX, same]

/-- The string code applies a change as the entries do. -/
theorem applyNewChange_text :
    applyNewChange (mods.map text) change.text = .ok ((applyChange mods change).map text) := by
  rw [applyNewChange, newChangeInDictionary_text, ok_bind, applyChange]
  by_cases known : ∃ m ∈ mods, m.choice = change.choice
  · rw [if_pos known, decide_eq_true known, if_pos rfl, replaceFlags_text]
  · rw [if_neg known, decide_eq_false known]
    simp

theorem foldlM_applyNewChange_text :
    (changes.map text).foldlM applyNewChange (mods.map text) =
      .ok ((applyChanges mods changes).map text) := by
  induction changes generalizing mods with
  | nil => rfl
  | cons change changes ih =>
    rw [List.map_cons, List.foldlM_cons, applyNewChange_text, ok_bind, ih]
    rfl

/-- The flag shown for a name is the flag of its choice. -/
theorem nameIn_text (cellValue : String) :
    nameIn (mods.map text) cellValue = .ok (decide (flagOf mods cellValue = some true)) := by
  induction mods with
  | nil => simp [nameIn, flagOf]
  | cons m mods ih =>
    rw [List.map_cons, nameIn, components_text, flagOf_cons]
    by_cases same : m.choice = cellValue
    · simp [objectAtIndex, CHOICE_INDEX, BOOLEAN_INDEX, same]
    · simp [objectAtIndex, CHOICE_INDEX, same, ih]

theorem hasFlag_text (m : ModChoice) : HasFlag m.text := by
  rw [HasFlag, components_text]
  exact Nat.lt_succ_self 2

theorem optionOn_text (m : ModChoice) : optionOn m.text = if m.isOn then some m.key else none := by
  rw [optionOn, components_text]
  cases hon : m.isOn <;> simp [flagText, key]

theorem filterMap_optionOn_text :
    (mods.map text).filterMap optionOn = (mods.filter (·.isOn)).map key := by
  induction mods with
  | nil => rfl
  | cons m mods ih =>
    rw [List.map_cons, List.filterMap_cons, optionOn_text, ih]
    cases hon : m.isOn <;> simp [hon]

theorem addModPrices_text (db : DatabaseAccess) (itemId total : NSNumber) :
    addModPrices db itemId (mods.map text) total =
      .ok (total + ((mods.filter (·.isOn)).map fun m => optionPrice db itemId m.key).sum) := by
  have flags : ∀ mod ∈ mods.map text, HasFlag mod := by
    intro mod hmod
    obtain ⟨m, -, rfl⟩ := List.mem_map.mp hmod
    exact hasFlag_text m
  rw [addModPrices_eq db itemId flags, filterMap_optionOn_text, List.map_map]
  rfl

/-- Applying changes to the entries of an item: its list is changed as entries
are, nothing else is, and nothing raises. -/
theorem updateDictionaryWithModifierString_text {o : Orders} {itemId : NSNumber}
    (changes : List ModChoice)
    (hmods : o.dictionary.lookup itemId = some (mods.map text)) :
    o.updateDictionaryWithModifierString (changes.map text) (some itemId) =
      .ok { o with
        dictionary := o.dictionary.insert itemId ((applyChanges mods changes).map text) } := by
  have present : o.modsInDict (some itemId) = some (mods.map text) := hmods
  unfold updateDictionaryWithModifierString
  simp only [present, foldlM_applyNewChange_text, ok_bind]

/-- A change for an item that is not in the dictionary raises. -/
theorem updateDictionaryWithModifierString_absent {o : Orders} {itemId : Option NSNumber}
    (absent : o.modsInDict itemId = none) (newChange : String) (newChanges : List String) :
    o.updateDictionaryWithModifierString (newChange :: newChanges) itemId =
      .error .invalidArgumentException := by
  unfold updateDictionaryWithModifierString
  rw [absent]
  cases itemId <;> rfl

theorem nameInKey_text {o : Orders} {itemId : NSNumber} (cellValue : String)
    (hmods : o.dictionary.lookup itemId = some (mods.map text)) :
    o.nameInKey cellValue (some itemId) = .ok (decide (flagOf mods cellValue = some true)) := by
  have present : o.modsInDict (some itemId) = some (mods.map text) := hmods
  rw [nameInKey, present]
  exact nameIn_text cellValue

theorem priceOfEveryModUsing_text (db : DatabaseAccess) {o : Orders} {itemId : NSNumber}
    (hmods : o.dictionary.lookup itemId = some (mods.map text)) :
    o.priceOfEveryModUsing db itemId =
      .ok ((mods.filter (·.isOn)).map fun m => optionPrice db itemId m.key).sum := by
  have present : o.modsInDict (some itemId) = some (mods.map text) := hmods
  rw [priceOfEveryModUsing, present]
  exact (addModPrices_text db itemId 0).trans (by rw [zero_add])

end Entries

end Orders

end PointIPad
