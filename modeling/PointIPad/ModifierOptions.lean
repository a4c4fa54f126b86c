import Mathlib.Algebra.Order.BigOperators.Group.List
import Mathlib.Data.List.ReduceOption
import PointIPad.QuickModifier
import PointIPad.StoredNames

/-!
The options of an item, in the database and on the Modifiers screen.

TBL_ITEMS has the hotness and the other options of an item in one column each,
TBL_QUANTITY and TBL_EXTRAS have priced options in any number of rows; in every
column several options may stand in one text, with colons between them. The
screen reads one row of each table. NULL is read as the empty text, so it does
not become the word `null` by which the screen knows that there are no options.
A query names its item by the number that is printed, which has seven digits.

**Main results.** A section shows exactly the stored options when the first row
of the item holds all of them and none is blank (`options_shown_iff`). The
prices of listed options are found when every listed name is the whole text of
a row (`options_priced_iff`).
-/

namespace PointIPad

/-! ### Item ids -/

/-- The item that a query with this id is about: the number that the printed id
stands for. -/
def askedId (itemId : NSNumber) : ℚ := Decimal.leadingDecimal (description itemId).toList

theorem askedId_intCast {n : ℤ} (hn : |n| < 10 ^ 7) : askedId n = n := by
  rw [askedId, description_intCast hn, Decimal.leadingDecimal_toString]

/-- The printed id is an integer, without a point or an exponent. -/
def PrintedAsInteger (itemId : NSNumber) : Prop :=
  toString (Decimal.leadingInt (description itemId).toList) = description itemId

instance (itemId : NSNumber) : Decidable (PrintedAsInteger itemId) :=
  inferInstanceAs (Decidable (_ = _))

theorem printedAsInteger_intCast {n : ℤ} (hn : |n| < 10 ^ 7) : PrintedAsInteger n := by
  rw [PrintedAsInteger, description_intCast hn, Decimal.leadingInt_toString]

/-! ### The tables -/

/-- A row of TBL_ITEMS: the four columns of each of its two kinds of options. -/
structure ItemRow where
  itemId : Int
  hotness : PGSQLRow 4
  options : PGSQLRow 4

/-- A row of TBL_QUANTITY or TBL_EXTRAS: the option, its id, its price and its images. -/
structure OptionRow where
  itemId : Int
  columns : PGSQLRow 4

theorem optionColumn_lt : 0 < 4 := by decide

theorem priceColumn_lt : 2 < 4 := by decide

/-- The places of the option and of its price in the select lists. -/
def optionColumn : Fin 4 := ⟨0, optionColumn_lt⟩
def priceColumn : Fin 4 := ⟨2, priceColumn_lt⟩

structure OptionTables where
  tblItems : List ItemRow
  tblQuantity : List OptionRow
  tblExtras : List OptionRow

inductive ModCategory where
  | hotness
  | quantity
  | extras
  | options
deriving DecidableEq

namespace ModCategory

def title : ModCategory → String
  | .hotness => "Modifier 1"
  | .quantity => "Modifier 2"
  | .extras => "Modifier 3"
  | .options => "Modifier 4"

def query (itemId : Option NSNumber) : ModCategory → String
  | .hotness => "SELECT hotness, hotness_level, hotness_threshold, hotness_images"
    ++ " from TBL_ITEMS where item_id=" ++ descriptionOrNull itemId
  | .quantity => "SELECT size, quantity_id, price, quantity_images"
    ++ " from TBL_QUANTITY where item_id=" ++ descriptionOrNull itemId
  | .extras => "SElECT extras, extras_id, price, extra_images"
    ++ " from TBL_EXTRAS where item_id=" ++ descriptionOrNull itemId
  | .options => "SELECT options, options_level, option_threshold, option_images"
    ++ " from TBL_ITEMS where item_id=" ++ descriptionOrNull itemId

/-- The method that reads the options of a category. -/
def mods (db : DatabaseAccess) (itemId : Option NSNumber) : ModCategory → List String
  | .hotness => db.hotnessOptionsModifierOne itemId
  | .quantity => db.quantityOptionsModifierTwo itemId
  | .extras => db.extraOptionsModifierThree itemId
  | .options => db.optionOptionsModifierFour itemId

theorem mods_eq (db : DatabaseAccess) (itemId : Option NSNumber) (c : ModCategory) :
    c.mods db itemId = db.createModsUsing (c.query itemId) := by
  cases c <;> rfl

/-- The rows of an item, as the query of the category selects their columns. -/
def rows (tables : OptionTables) (itemId : ℚ) : ModCategory → List (PGSQLRow 4)
  | .hotness => (tables.tblItems.filter (·.itemId = itemId)).map (·.hotness)
  | .quantity => (tables.tblQuantity.filter (·.itemId = itemId)).map (·.columns)
  | .extras => (tables.tblExtras.filter (·.itemId = itemId)).map (·.columns)
  | .options => (tables.tblItems.filter (·.itemId = itemId)).map (·.options)

/-- The option texts of an item, row by row. -/
def optionTexts (tables : OptionTables) (itemId : ℚ) (c : ModCategory) : List (Option String) :=
  (c.rows tables itemId).map (· optionColumn)

theorem title_injective {c c' : ModCategory} (h : c.title = c'.title) : c = c' := by
  cases c <;> cases c' <;> first | rfl | exact absurd h (by decide)

end ModCategory

/-- The server answers the four queries with the rows of the item they are about. -/
def ServesOptions (db : DatabaseAccess) (tables : OptionTables) (itemId : NSNumber) : Prop :=
  ∀ c : ModCategory,
    db.pgConn.answer ⟨c.query (some itemId), 4⟩ = some (c.rows tables (askedId itemId))

/-! ### What is stored and what is shown -/

/-- The options stored in a column: the names between colons that are not blank. -/
def storedNames (cells : List (Option String)) : List String :=
  (cells.reduceOption.flatMap componentsSeparatedByString).filter (· ≠ "")

/-- The text that decides about a section: that of the first row. -/
def shownText : List (Option String) → String
  | [] => "null"
  | cell :: _ => PGSQLField.asString PGSQLConnection.defaultEncoding ⟨cell⟩

/-- The screen shows exactly these names under a title, if there are any. -/
structure ShowsExactly (screen : QuickModifierController) (title : String) (names : List String) :
    Prop where
  present : (∃ rows, (title, rows) ∈ screen.modsToShow) ↔ names ≠ []
  rows : ∀ rows, (title, rows) ∈ screen.modsToShow → rows.Perm names

/-- The first row holds all options there are, each of them readable, and it is
not taken for the word `null`. -/
def FirstRowTellsAll : List (Option String) → Prop
  | [] => True
  | none :: _ => False
  | some text :: others =>
    text ≠ "null" ∧ (∀ name ∈ componentsSeparatedByString text, name ≠ "" ∧ Ascii name) ∧
      storedNames others = []

/-- The first row reads as these names, in some order. -/
def FirstRowReads (names : List String) : List (Option String) → Prop
  | [] => names = []
  | none :: _ => False
  | some text :: _ =>
    if text = "null" then names = []
    else ((componentsSeparatedByString text).map (decode .macOSRoman)).Perm names

/-- The first row of the item tells all. An item whose id is not printed exactly is
taken for another one, whose first row must then read as its options. -/
def OffersShown (tables : OptionTables) (itemId : NSNumber) (c : ModCategory) : Prop :=
  if askedId itemId = itemId then FirstRowTellsAll (c.optionTexts tables itemId)
  else
    FirstRowReads (storedNames (c.optionTexts tables itemId))
      (c.optionTexts tables (askedId itemId))

section Shown

variable {db : DatabaseAccess} {tables : OptionTables} {itemId : NSNumber} {names : List String}
  {c : ModCategory} {text : String} {others : List (Option String)}

theorem headD_mods (serves : ServesOptions db tables itemId) (c : ModCategory) :
    (c.mods db (some itemId)).headD "null" =
      shownText (c.optionTexts tables (askedId itemId)) := by
  have hfield := PGSQLConnection.stringField_eq db.pgConn ⟨c.query (some itemId), 4⟩ 0
  rw [serves c] at hfield
  rw [ModCategory.mods_eq, DatabaseAccess.createModsUsing]
  cases hrows : c.rows tables (askedId itemId) with
  | nil =>
    rw [hrows] at hfield
    simp only [List.map_cons, List.headD_cons]
    rw [hfield, ModCategory.optionTexts, hrows]
    rfl
  | cons row rows =>
    rw [hrows] at hfield
    simp only [List.map_cons, List.headD_cons]
    rw [hfield, ModCategory.optionTexts, hrows]
    rfl

/-- The sections, category by category. -/
theorem modSections_eq (db : DatabaseAccess) (itemId : Option NSNumber) :
    modSections db itemId = [ModCategory.hotness, .quantity, .extras, .options].flatMap fun c =>
      if (c.mods db itemId).headD "null" = "null" then []
      else [(c.title, componentsSeparatedByString ((c.mods db itemId).headD "null"))] := rfl

theorem mem_modSections_iff (serves : ServesOptions db tables itemId) :
    (c.title, names) ∈ modSections db (some itemId) ↔
      shownText (c.optionTexts tables (askedId itemId)) ≠ "null" ∧
        names =
          componentsSeparatedByString (shownText (c.optionTexts tables (askedId itemId))) := by
  rw [modSections_eq, List.mem_flatMap, ← headD_mods serves c]
  constructor
  · rintro ⟨c', -, hmem⟩
    split at hmem
    · exact absurd hmem List.not_mem_nil
    · rename_i present
      obtain ⟨htitle, rfl⟩ := Prod.mk.inj (List.mem_singleton.mp hmem)
      rw [ModCategory.title_injective htitle]
      exact ⟨present, rfl⟩
  · rintro ⟨present, rfl⟩
    refine ⟨c, by cases c <;> simp, ?_⟩
    rw [if_neg present]
    exact List.mem_singleton_self _

/-- The screen of an item just opened, in terms of the deciding texts. -/
theorem showsExactly_opened_iff (serves : ServesOptions db tables itemId) :
    ShowsExactly (.opened db (some itemId)) c.title names ↔
      (shownText (c.optionTexts tables (askedId itemId)) ≠ "null" ↔ names ≠ []) ∧
        (shownText (c.optionTexts tables (askedId itemId)) ≠ "null" →
          (componentsSeparatedByString
            (shownText (c.optionTexts tables (askedId itemId)))).Perm names) := by
  have hmem (rows : List String) :
      (c.title, rows) ∈ (QuickModifierController.opened db (some itemId)).modsToShow ↔ _ :=
    mem_modSections_iff serves
  constructor
  · rintro ⟨present, rows⟩
    refine ⟨⟨fun h => ?_, fun h => ?_⟩, fun h => rows _ ((hmem _).mpr ⟨h, rfl⟩)⟩
    · exact present.mp ⟨_, (hmem _).mpr ⟨h, rfl⟩⟩
    · obtain ⟨shown, hshown⟩ := present.mpr h
      exact ((hmem shown).mp hshown).1
  · rintro ⟨present, rows⟩
    refine ⟨⟨?_, fun h => ⟨_, (hmem _).mpr ⟨present.mpr h, rfl⟩⟩⟩, ?_⟩
    · rintro ⟨shown, hshown⟩
      exact present.mp ((hmem shown).mp hshown).1
    · intro shown hshown
      obtain ⟨h, rfl⟩ := (hmem shown).mp hshown
      exact rows h

@[simp] theorem storedNames_null (others : List (Option String)) :
    storedNames (none :: others) = storedNames others := rfl

theorem storedNames_text (text : String) (others : List (Option String)) :
    storedNames (some text :: others) =
      (componentsSeparatedByString text).filter (· ≠ "") ++ storedNames others := by
  simp [storedNames, List.reduceOption_cons_of_some]

theorem blank_not_mem_storedNames (cells : List (Option String)) : "" ∉ storedNames cells := by
  simp [storedNames]

theorem componentsSeparatedByString_null : componentsSeparatedByString "null" = ["null"] := by
  decide

/-- A translation that makes nothing smaller and only rearranges a list keeps all sizes. -/
theorem size_eq_of_perm_map {α : Type} {f : α → α} (size : α → Nat) {l : List α}
    (grows : ∀ a, size a ≤ size (f a)) (h : (l.map f).Perm l) : ∀ a ∈ l, size (f a) = size a := by
  intro a ha
  have hsum : (l.map fun x => size (f x)).sum = (l.map size).sum := by
    have hperm := (h.map size).sum_eq
    rwa [List.map_map] at hperm
  by_contra hne
  have hlt : size a < size (f a) := lt_of_le_of_ne (grows a) (Ne.symm hne)
  exact absurd hsum (List.sum_lt_sum _ _ (fun x _ => grows x) ⟨a, ha, hlt⟩).ne'

/-- Names that reading only rearranges are ASCII: reading makes every other one longer. -/
theorem ascii_of_perm_decode (h : (names.map (decode .macOSRoman)).Perm names) :
    ∀ name ∈ names, Ascii name := by
  intro name hname
  have hle (s : String) : (utf8Bytes s).length ≤ (utf8Bytes (decode .macOSRoman s)).length :=
    (Nat.le_add_right _ _).trans (length_utf8Bytes_le s)
  exact ascii_of_length_eq (size_eq_of_perm_map (fun s => (utf8Bytes s).length) hle h name hname)

theorem filter_eq_self_of_ne_blank (h : ∀ name ∈ names, name ≠ "") :
    names.filter (· ≠ "") = names :=
  List.filter_eq_self.mpr fun name hname => decide_eq_true (h name hname)

/-- One column: the names shown are these exactly when the first row reads as them. -/
theorem shown_iff_reads (cells : List (Option String)) (hnames : "" ∉ names) :
    ((shownText cells ≠ "null" ↔ names ≠ []) ∧
      (shownText cells ≠ "null" →
        (componentsSeparatedByString (shownText cells)).Perm names)) ↔
      FirstRowReads names cells := by
  rcases cells with _ | ⟨_ | text, others⟩
  · simp [shownText, FirstRowReads]
  · -- a NULL is shown as one blank row
    simp only [FirstRowReads, iff_false, not_and]
    rintro - hrows
    have hne : shownText (none :: others) ≠ "null" := by
      show "" ≠ "null"
      decide
    have hblank : "" ∈ componentsSeparatedByString (shownText (none :: others)) := by
      show "" ∈ componentsSeparatedByString ""
      decide
    exact hnames ((hrows hne).subset hblank)
  · have hshown : shownText (some text :: others) = decode .macOSRoman text := rfl
    have hnull : decode .macOSRoman text = "null" ↔ text = "null" :=
      decode_eq_iff_of_ascii (by decide)
    rw [hshown, components_decode, FirstRowReads, Ne, hnull]
    split
    · rename_i null
      simp [null]
    · rename_i notNull
      constructor
      · rintro ⟨-, hrows⟩
        exact hrows notNull
      · intro hperm
        refine ⟨⟨fun _ blank => ?_, fun _ => notNull⟩, fun _ => hperm⟩
        rw [blank, List.perm_nil, List.map_eq_nil_iff] at hperm
        exact Delimited.components_ne_nil text hperm

/-- A first row reads as the names that are stored exactly when it tells all. -/
theorem firstRowReads_storedNames_iff (cells : List (Option String)) :
    FirstRowReads (storedNames cells) cells ↔ FirstRowTellsAll cells := by
  rcases cells with _ | ⟨_ | text, others⟩
  · simp [FirstRowReads, storedNames, FirstRowTellsAll, List.reduceOption]
  · rfl
  · rw [FirstRowReads, FirstRowTellsAll, storedNames_text]
    split
    · rename_i null
      simp [null, componentsSeparatedByString_null]
    rename_i notNull
    constructor
    · intro hperm
      have hblank : ∀ name ∈ componentsSeparatedByString text, name ≠ "" := by
        rintro name hname rfl
        refine blank_not_mem_storedNames (some text :: others) ?_
        rw [storedNames_text]
        exact hperm.subset (List.mem_map.mpr ⟨"", hname, rfl⟩)
      rw [filter_eq_self_of_ne_blank hblank] at hperm
      have hlength := hperm.length_eq
      rw [List.length_map, List.length_append] at hlength
      have hothers : storedNames others = [] := List.eq_nil_of_length_eq_zero (by omega)
      rw [hothers, List.append_nil] at hperm
      have hascii := ascii_of_perm_decode hperm
      exact ⟨notNull, fun name hname => ⟨hblank name hname, hascii name hname⟩, hothers⟩
    · rintro ⟨-, hnames, hothers⟩
      have hread : (componentsSeparatedByString text).map (decode .macOSRoman) =
          componentsSeparatedByString text := by
        conv_rhs => rw [← List.map_id (componentsSeparatedByString text)]
        exact List.map_congr_left fun name hname => decode_of_ascii (hnames name hname).2
      rw [filter_eq_self_of_ne_blank fun name hname => (hnames name hname).1, hothers,
        List.append_nil, hread]

/-- A section of the screen shows the options of its item. -/
theorem showsExactly_storedNames_iff (serves : ServesOptions db tables itemId) :
    ShowsExactly (.opened db (some itemId)) c.title (storedNames (c.optionTexts tables itemId)) ↔
      OffersShown tables itemId c := by
  rw [showsExactly_opened_iff serves, shown_iff_reads _ (blank_not_mem_storedNames _), OffersShown]
  split
  · rename_i printed
    rw [printed, firstRowReads_storedNames_iff]
  · rfl

/-- An id of at most seven digits is printed exactly. -/
theorem offersShown_intCast (tables : OptionTables) (c : ModCategory) {n : ℤ}
    (hn : |n| < 10 ^ 7) : OffersShown tables n c ↔ FirstRowTellsAll (c.optionTexts tables n) := by
  rw [OffersShown, if_pos (askedId_intCast hn)]

end Shown

/-! ### Prices of the options shown -/

/-- A category whose options have prices. -/
inductive PricedCategory where
  | quantity
  | extras
deriving DecidableEq

namespace PricedCategory

def category : PricedCategory → ModCategory
  | .quantity => .quantity
  | .extras => .extras

/-- The price lookup of the category. -/
def lookup (db : DatabaseAccess) (itemId : NSNumber) (modName : String) :
    PricedCategory → Option NSNumber
  | .quantity => db.getModPriceQuantity itemId modName
  | .extras => db.getModPriceExtra itemId modName

def lookupQuery (itemId : NSNumber) (modName : String) : PricedCategory → NameQuery
  | .quantity => .getModPriceQuantity itemId modName
  | .extras => .getModPriceExtra itemId modName

theorem lookup_eq (db : DatabaseAccess) (itemId : NSNumber) (modName : String)
    (p : PricedCategory) :
    p.lookup db itemId modName =
      db.pgConn.numberField ⟨(p.lookupQuery itemId modName).text, 1⟩ 0 := by
  cases p with
  | quantity => exact db.getModPriceQuantity_eq itemId modName
  | extras => exact db.getModPriceExtra_eq itemId modName

theorem names_lookupQuery (itemId : NSNumber) (modName : String) (p : PricedCategory) :
    (p.lookupQuery itemId modName).names = [modName] := by
  cases p <;> rfl

/-- The lookup of an extra puts the item id between quotes, where it must be written
as an integer. -/
def AcceptsId (itemId : NSNumber) : PricedCategory → Prop
  | .quantity => True
  | .extras => PrintedAsInteger itemId

instance (itemId : NSNumber) : (p : PricedCategory) → Decidable (p.AcceptsId itemId)
  | .quantity => isTrue trivial
  | .extras => inferInstanceAs (Decidable (PrintedAsInteger itemId))

theorem acceptsId_intCast (p : PricedCategory) {n : ℤ} (hn : |n| < 10 ^ 7) : p.AcceptsId n := by
  cases p with
  | quantity => trivial
  | extras => exact printedAsInteger_intCast hn

end PricedCategory

/-- The server answers a lookup that it can read as one with the prices of the rows
whose whole text is the name; an item id that it does not accept is an error. -/
def ServesPrices (db : DatabaseAccess) (tables : OptionTables) (itemId : NSNumber) : Prop :=
  ∀ (p : PricedCategory) (name : String),
    Sql.IsSelectWith (p.lookupQuery itemId name).text (p.lookupQuery itemId name).literals →
      db.pgConn.answer ⟨(p.lookupQuery itemId name).text, 1⟩ =
        if p.AcceptsId itemId then
          some (((p.category.rows tables (askedId itemId)).filter
            (· optionColumn = some name)).map fun row _ => row priceColumn)
        else none

/-- Every option listed under the title costs what its row says. -/
def Priced (db : DatabaseAccess) (tables : OptionTables) (itemId : NSNumber) (p : PricedCategory)
    (screen : QuickModifierController) : Prop :=
  ∀ names, (p.category.title, names) ∈ screen.modsToShow → ∀ name ∈ names,
    ∃ row ∈ (p.category.rows tables (askedId itemId)).head?, ∃ price ∈ row priceColumn,
      p.lookup db itemId name = some (floatValue price)

/-- The names that the first row is listed as. -/
def listedNames (cell : Option String) : List String :=
  componentsSeparatedByString (PGSQLField.asString PGSQLConnection.defaultEncoding ⟨cell⟩)

/-- The first row has a price, and each of its listed names is the whole text of a
row; the first such row has the same price. -/
def FirstRowPriced : List (PGSQLRow 4) → Prop
  | [] => True
  | first :: others =>
    ∃ price ∈ first priceColumn, ∀ name ∈ listedNames (first optionColumn),
      ∃ row ∈ (first :: others).find? (· optionColumn = some name), ∃ cost ∈ row priceColumn,
        floatValue cost = floatValue price

instance : (rows : List (PGSQLRow 4)) → Decidable (FirstRowPriced rows)
  | [] => isTrue trivial
  | _ :: _ => inferInstanceAs (Decidable (∃ price ∈ _, ∀ name ∈ _, _))

/-- No options are listed: there is no row, or the first one has the word `null`. -/
def NothingListed (rows : List (PGSQLRow 4)) : Prop :=
  ∀ first ∈ rows.head?, first optionColumn = some "null"

instance (rows : List (PGSQLRow 4)) : Decidable (NothingListed rows) :=
  inferInstanceAs (Decidable (∀ first ∈ _, _))

/-- Nothing is listed, or the lookups accept the item id and find what is listed. -/
def PricesFound (tables : OptionTables) (itemId : NSNumber) (p : PricedCategory) : Prop :=
  NothingListed (p.category.rows tables (askedId itemId)) ∨
    p.AcceptsId itemId ∧ FirstRowPriced (p.category.rows tables (askedId itemId))

/-- An id of at most seven digits is accepted. -/
theorem pricesFound_intCast (tables : OptionTables) (p : PricedCategory) {n : ℤ}
    (hn : |n| < 10 ^ 7) : PricesFound tables n p ↔
      NothingListed (p.category.rows tables n) ∨ FirstRowPriced (p.category.rows tables n) := by
  rw [PricesFound, askedId_intCast hn, and_iff_right (p.acceptsId_intCast hn)]

/-- A row with one name and a price is found by its name. -/
theorem firstRowPriced_of_oneName {first : PGSQLRow 4} {text price : String}
    (htext : first optionColumn = some text) (oneName : Delimited.Free ':' text)
    (ascii : Ascii text) (hprice : first priceColumn = some price) (others : List (PGSQLRow 4)) :
    FirstRowPriced (first :: others) := by
  refine ⟨price, hprice, fun name hname => ⟨first, ?_, price, hprice, rfl⟩⟩
  have hlisted : listedNames (first optionColumn) = [text] := by
    have hread : PGSQLField.asString PGSQLConnection.defaultEncoding ⟨some text⟩ = text :=
      asString_of_ascii ascii
    rw [listedNames, htext, hread]
    exact Delimited.components_of_free oneName
  rw [hlisted, List.mem_singleton] at hname
  rw [hname]
  exact List.find?_cons_of_pos (decide_eq_true htext)

/-- The option text of the first row has no quote in it. -/
def QuoteFree (rows : List (PGSQLRow 4)) : Prop :=
  ∀ first ∈ rows.head?, ∀ text ∈ first optionColumn, '\'' ∉ text.toList

section Priced

variable {db : DatabaseAccess} {tables : OptionTables} {itemId : NSNumber} {name : String}
  {p : PricedCategory}

/-- A lookup finds the first row with the name, and its price. -/
theorem lookup_of_quoteFree (serves : ServesPrices db tables itemId) (free : '\'' ∉ name.toList) :
    p.lookup db itemId name =
      if p.AcceptsId itemId then
        ((p.category.rows tables (askedId itemId)).find? (· optionColumn = some name)).bind
          fun row => (row priceColumn).map floatValue
      else none := by
  have hread := (p.lookupQuery itemId name).isSelectWith_of_quoteFree
    (by rw [PricedCategory.names_lookupQuery]; simpa using free)
  have hanswer := PGSQLConnection.numberField_eq db.pgConn ⟨(p.lookupQuery itemId name).text, 1⟩ 0
  rw [serves p name hread] at hanswer
  rw [PricedCategory.lookup_eq, hanswer]
  split
  · rw [Option.bind_some, List.head?_map, List.head?_filter, Option.bind_map]
    rfl
  · rfl

theorem asString_eq_null_iff {cell : Option String} :
    PGSQLField.asString PGSQLConnection.defaultEncoding ⟨cell⟩ = "null" ↔ cell = some "null" := by
  cases cell with
  | none =>
    simp only [PGSQLField.asString, reduceCtorEq, iff_false]
    decide
  | some text =>
    rw [Option.some_inj]
    exact decode_eq_iff_of_ascii (by decide)

/-- A name without quotes is listed without quotes. -/
theorem quoteFree_of_mem_listedNames {cell : Option String}
    (free : ∀ text ∈ cell, '\'' ∉ text.toList) (hname : name ∈ listedNames cell) :
    '\'' ∉ name.toList := by
  intro hquote
  have hshown := Delimited.mem_of_mem_components hname hquote
  cases cell with
  | none => exact absurd hshown (by decide)
  | some text => exact free text rfl (mem_of_mem_decode hshown (by decide))

theorem priced_opened_iff (serves : ServesOptions db tables itemId)
    (prices : ServesPrices db tables itemId)
    (free : QuoteFree (p.category.rows tables (askedId itemId))) :
    Priced db tables itemId p (.opened db (some itemId)) ↔ PricesFound tables itemId p := by
  have hmem (names : List String) :
      (p.category.title, names) ∈ (QuickModifierController.opened db (some itemId)).modsToShow ↔
        shownText (p.category.optionTexts tables (askedId itemId)) ≠ "null" ∧
          names = componentsSeparatedByString
            (shownText (p.category.optionTexts tables (askedId itemId))) :=
    mem_modSections_iff serves
  have hlookup (name : String) (h : '\'' ∉ name.toList) := lookup_of_quoteFree (p := p) prices h
  unfold Priced PricesFound
  rcases hrows : p.category.rows tables (askedId itemId) with _ | ⟨first, others⟩
  · rw [ModCategory.optionTexts, hrows] at hmem
    simp [hmem, NothingListed, shownText]
  · rw [ModCategory.optionTexts, hrows] at hmem
    rw [hrows] at hlookup free
    have hfree (name : String) (h : name ∈ listedNames (first optionColumn)) : '\'' ∉ name.toList :=
      quoteFree_of_mem_listedNames (free first rfl) h
    have hshown : shownText ((first :: others).map (· optionColumn)) = "null" ↔
        first optionColumn = some "null" := asString_eq_null_iff
    constructor
    · intro priced
      by_cases hnull : first optionColumn = some "null"
      · left
        rintro row ⟨⟩
        exact hnull
      have hpriced : ∀ name ∈ listedNames (first optionColumn), ∃ price ∈ first priceColumn,
          p.lookup db itemId name = some (floatValue price) := by
        intro name hname
        have hsection := (hmem _).mpr ⟨fun h => hnull (hshown.mp h), rfl⟩
        obtain ⟨row, hrow, price, hprice, hfound⟩ := priced _ hsection name hname
        obtain rfl : first = row := Option.some.inj hrow
        exact ⟨price, hprice, hfound⟩
      have hne : listedNames (first optionColumn) ≠ [] := Delimited.components_ne_nil _
      obtain ⟨name, rest, hlisted⟩ := List.exists_cons_of_ne_nil hne
      have hfirst : name ∈ listedNames (first optionColumn) := hlisted ▸ List.mem_cons_self
      obtain ⟨price, hprice, hfound⟩ := hpriced name hfirst
      have accepts : p.AcceptsId itemId := by
        by_contra refused
        rw [hlookup name (hfree name hfirst), if_neg refused] at hfound
        cases hfound
      refine .inr ⟨accepts, price, hprice, fun n hn => ?_⟩
      obtain ⟨price', hprice', hfound⟩ := hpriced n hn
      obtain rfl : price = price' := Option.mem_unique hprice hprice'
      rw [hlookup n (hfree n hn), if_pos accepts] at hfound
      obtain ⟨row, hrow, hcost⟩ := Option.bind_eq_some_iff.mp hfound
      obtain ⟨cost, hcost, hsame⟩ := Option.map_eq_some_iff.mp hcost
      exact ⟨row, hrow, cost, hcost, hsame⟩
    · rintro (nothing | ⟨accepts, price, hprice, found⟩) names hnames name hname
      · exact absurd (hshown.mpr (nothing first rfl)) ((hmem names).mp hnames).1
      · obtain ⟨-, rfl⟩ := (hmem names).mp hnames
        refine ⟨first, rfl, price, hprice, ?_⟩
        obtain ⟨row, hrow, cost, hcost, hsame⟩ := found name hname
        rw [hlookup name (hfree name hname), if_pos accepts, hrow, Option.bind_some, hcost,
          Option.map_some, hsame]

end Priced

/-! ### A server for the tables of an item -/

/-- The six queries about options, each with the text it starts with. -/
inductive OptionQuery where
  | options (c : ModCategory)
  | price (p : PricedCategory)
deriving DecidableEq

namespace OptionQuery

def all : List OptionQuery :=
  [.options .hotness, .options .quantity, .options .extras, .options .options, .price .quantity,
    .price .extras]

def start : OptionQuery → String
  | .options .hotness => "SELECT hotness"
  | .options .quantity => "SELECT size"
  | .options .extras => "SElECT extras"
  | .options .options => "SELECT options"
  | .price .quantity => "SELECT price from TBL_QUANTITY"
  | .price .extras => "SELECT price from TBL_EXTRAS"

/-- The query a text starts as. -/
def ofText (text : String) : Option OptionQuery :=
  all.find? fun k => k.start.toList <+: text.toList

theorem eq_of_start_le : ∀ k ∈ all, ∀ k' ∈ all, k.start.toList <+: k'.start.toList → k = k' := by
  decide

theorem mem_all (k : OptionQuery) : k ∈ all := by
  rcases k with (_ | _ | _ | _) | (_ | _) <;> decide

theorem ofText_start (k : OptionQuery) (rest : String) : ofText (k.start ++ rest) = some k := by
  have hstart : k.start.toList <+: (k.start ++ rest).toList := by
    rw [String.toList_append]
    exact List.prefix_append _ _
  have hunique (k' : OptionQuery) : k'.start.toList <+: (k.start ++ rest).toList ↔ k' = k := by
    constructor
    · intro h
      rcases List.prefix_or_prefix_of_prefix h hstart with h | h
      · exact eq_of_start_le k' k'.mem_all k k.mem_all h
      · exact (eq_of_start_le k k.mem_all k' k'.mem_all h).symm
    · rintro rfl
      exact hstart
  rw [ofText]
  simp only [hunique]
  rcases k with (_ | _ | _ | _) | (_ | _) <;> rfl

end OptionQuery

/-- A server that knows the option queries about one item. -/
def optionServer (tables : OptionTables) (itemId : NSNumber) : DatabaseAccess :=
  ⟨⟨fun q => (OptionQuery.ofText q.text).bind fun k => match k with
    | .options c => some ((c.rows tables (askedId itemId)).map fun row i =>
        if h : i.val < 4 then row ⟨i.val, h⟩ else none)
    | .price p => if p.AcceptsId itemId then
        (Sql.lex q.text).map fun tokens =>
          ((p.category.rows tables (askedId itemId)).filter
            (· optionColumn = (Sql.constants tokens).getLast?.map Prod.snd)).map
              fun row _ => row priceColumn
      else none⟩⟩

/-- The text starts as given. -/
def StartsWith (start text : String) : Prop := ∃ rest, text = start ++ rest

theorem StartsWith.append {start text : String} (h : StartsWith start text) (more : String) :
    StartsWith start (text ++ more) := by
  obtain ⟨rest, rfl⟩ := h
  exact ⟨rest ++ more, String.append_assoc⟩

theorem startsWith_query (itemId : Option NSNumber) (c : ModCategory) :
    StartsWith (OptionQuery.options c).start (c.query itemId) := by
  cases c with
  | hotness =>
    have hstart : StartsWith "SELECT hotness"
        "SELECT hotness, hotness_level, hotness_threshold, hotness_images" :=
      ⟨", hotness_level, hotness_threshold, hotness_images", rfl⟩
    exact (hstart.append _).append _
  | quantity =>
    have hstart : StartsWith "SELECT size" "SELECT size, quantity_id, price, quantity_images" :=
      ⟨", quantity_id, price, quantity_images", rfl⟩
    exact (hstart.append _).append _
  | extras =>
    have hstart : StartsWith "SElECT extras" "SElECT extras, extras_id, price, extra_images" :=
      ⟨", extras_id, price, extra_images", rfl⟩
    exact (hstart.append _).append _
  | options =>
    have hstart : StartsWith "SELECT options"
        "SELECT options, options_level, option_threshold, option_images" :=
      ⟨", options_level, option_threshold, option_images", rfl⟩
    exact (hstart.append _).append _

theorem startsWith_lookupQuery (itemId : NSNumber) (name : String) (p : PricedCategory) :
    StartsWith (OptionQuery.price p).start (p.lookupQuery itemId name).text := by
  cases p with
  | quantity =>
    have hstart : StartsWith "SELECT price from TBL_QUANTITY"
        "SELECT price from TBL_QUANTITY where item_id=" := ⟨" where item_id=", rfl⟩
    exact (((hstart.append _).append _).append _).append _
  | extras =>
    have hstart : StartsWith "SELECT price from TBL_EXTRAS"
        "SELECT price from TBL_EXTRAS where item_id='" := ⟨" where item_id='", rfl⟩
    exact (((hstart.append _).append _).append _).append _

theorem servesOptions_optionServer (tables : OptionTables) (itemId : NSNumber) :
    ServesOptions (optionServer tables itemId) tables itemId := by
  intro c
  obtain ⟨rest, hrest⟩ := startsWith_query (some itemId) c
  have hkind := OptionQuery.ofText_start (.options c) rest
  rw [← hrest] at hkind
  show (OptionQuery.ofText (c.query (some itemId))).bind _ = _
  rw [hkind, Option.bind_some]
  refine congrArg some ?_
  conv_rhs => rw [← List.map_id (c.rows tables (askedId itemId))]
  refine List.map_congr_left fun row _ => funext fun i => ?_
  exact dif_pos i.isLt

theorem servesPrices_optionServer (tables : OptionTables) (itemId : NSNumber) :
    ServesPrices (optionServer tables itemId) tables itemId := by
  rintro p name ⟨tokens, hlex, -, hconstants⟩
  obtain ⟨rest, hrest⟩ := startsWith_lookupQuery itemId name p
  have hkind := OptionQuery.ofText_start (.price p) rest
  rw [← hrest] at hkind
  have hlast : (Sql.constants tokens).getLast?.map Prod.snd = some name := by
    rw [hconstants]
    cases p <;> rfl
  show (OptionQuery.ofText (p.lookupQuery itemId name).text).bind _ = _
  rw [hkind, Option.bind_some, hlex]
  dsimp only
  rw [Option.map_some, hlast]

/-! ### The screen against the tables -/

/-- A section shows exactly what the database offers when the first row tells all. -/
theorem options_shown_iff (db : DatabaseAccess) (tables : OptionTables) (itemId : NSNumber)
    (serves : ServesOptions db tables itemId) (c : ModCategory) :
    ∃ screen, QuickModifierController.viewDidLoad db (some itemId) = .ok screen ∧
      (ShowsExactly screen c.title (storedNames (c.optionTexts tables itemId)) ↔
        OffersShown tables itemId c) :=
  ⟨_, viewDidLoad_eq db _, showsExactly_storedNames_iff serves⟩

/-- One item with hotness levels, a size and two extras in one row. -/
def noodleTables : OptionTables where
  tblItems := [⟨57, ![some "Mild:Hot", none, none, none], ![none, none, none, none]⟩]
  tblQuantity := [⟨57, ![some "Large", some "1", some "2", none]⟩]
  tblExtras := [⟨57, ![some "Egg:Tofu", some "1", some "1.5", none]⟩]

theorem options_shown_noodles :
    ∃ screen, QuickModifierController.viewDidLoad (optionServer noodleTables 57) (some 57) =
        .ok screen ∧
      (ShowsExactly screen ModCategory.hotness.title
          (storedNames (ModCategory.hotness.optionTexts noodleTables 57)) ↔
        OffersShown noodleTables 57 .hotness) :=
  options_shown_iff (optionServer noodleTables 57) noodleTables 57
    (servesOptions_optionServer noodleTables 57) .hotness

/-- The column of the other options is NULL: a section with a blank row is shown. -/
theorem options_not_shown :
    ServesOptions (optionServer noodleTables 57) noodleTables 57 ∧
      ∃ screen, QuickModifierController.viewDidLoad (optionServer noodleTables 57) (some 57) =
          .ok screen ∧
        ¬ ShowsExactly screen ModCategory.options.title
          (storedNames (ModCategory.options.optionTexts noodleTables 57)) := by
  have serves := servesOptions_optionServer noodleTables 57
  refine ⟨serves, _, viewDidLoad_eq _ _, fun shows => ?_⟩
  have tells := (showsExactly_storedNames_iff serves).mp shows
  exact (offersShown_intCast noodleTables .options (n := 57) (by decide)).mp tells

/-- A listed option can be priced when its name is a whole text of the table; for
names without quotes, only then. -/
theorem options_priced_iff (db : DatabaseAccess) (tables : OptionTables) (itemId : NSNumber)
    (serves : ServesOptions db tables itemId) (prices : ServesPrices db tables itemId)
    (p : PricedCategory) :
    ∃ screen, QuickModifierController.viewDidLoad db (some itemId) = .ok screen ∧
      (QuoteFree (p.category.rows tables (askedId itemId)) ∧ PricesFound tables itemId p →
        Priced db tables itemId p screen) ∧
      (QuoteFree (p.category.rows tables (askedId itemId)) → Priced db tables itemId p screen →
        PricesFound tables itemId p) :=
  ⟨_, viewDidLoad_eq db _, fun h => (priced_opened_iff serves prices h.1).mpr h.2,
    fun free => (priced_opened_iff serves prices free).mp⟩

theorem options_priced_noodles :
    ∃ screen, QuickModifierController.viewDidLoad (optionServer noodleTables 57) (some 57) =
        .ok screen ∧
      (QuoteFree (PricedCategory.quantity.category.rows noodleTables (askedId 57)) ∧
          PricesFound noodleTables 57 .quantity →
        Priced (optionServer noodleTables 57) noodleTables 57 .quantity screen) ∧
      (QuoteFree (PricedCategory.quantity.category.rows noodleTables (askedId 57)) →
        Priced (optionServer noodleTables 57) noodleTables 57 .quantity screen →
          PricesFound noodleTables 57 .quantity) :=
  options_priced_iff (optionServer noodleTables 57) noodleTables 57
    (servesOptions_optionServer noodleTables 57) (servesPrices_optionServer noodleTables 57)
    .quantity

/-- Two extras stand in one row; neither is found by its name. -/
theorem options_not_priced :
    ServesPrices (optionServer noodleTables 57) noodleTables 57 ∧
      ∃ screen, QuickModifierController.viewDidLoad (optionServer noodleTables 57) (some 57) =
          .ok screen ∧
        ¬ Priced (optionServer noodleTables 57) noodleTables 57 .extras screen := by
  have serves := servesOptions_optionServer noodleTables 57
  have prices := servesPrices_optionServer noodleTables 57
  have asked : askedId 57 = 57 := askedId_intCast (n := 57) (by decide)
  have free : QuoteFree (PricedCategory.extras.category.rows noodleTables (askedId 57)) := by
    rw [asked]
    rintro first ⟨⟩ text ⟨⟩
    decide
  refine ⟨prices, _, viewDidLoad_eq _ _, fun priced => ?_⟩
  have found := (priced_opened_iff serves prices free).mp priced
  rcases (pricesFound_intCast noodleTables .extras (n := 57) (by decide)).mp found with h | h
  · exact absurd h (by decide +kernel)
  · exact absurd h (by decide +kernel)

end PointIPad
