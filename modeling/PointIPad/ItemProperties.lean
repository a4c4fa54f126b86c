import PointIPad.DatabaseAccess

/-!
The properties of an item, with its extras and its toppings.

`initWithItemId:` clears the object and runs three queries. The last two add an
object per row to a collection of the item. The object was cleared to `nil`
collections, so that nothing is added; and the query for extras selects two
columns, of which the loop reads three.

**Main result** (`initWithItemId_loads_iff`). The extras and the toppings of an item
are loaded exactly when it has none.
-/

namespace PointIPad

open Transition

/-! ### Extras, toppings and items -/

structure ItemExtras where
  extrasId : Option String
  extrasName : Option String
  extrasPrice : Option String
deriving DecidableEq

def ItemExtras.init : ItemExtras := ⟨none, none, none⟩

structure ItemToppings where
  area : Option NSNumber
  location : Option NSNumber
  amount : Option NSNumber
  toppingId : Option String
  toppingName : Option String
  isDefault : Bool
  isSelected : Bool
  isHalf : Bool
  isDouble : Bool
  firstHalf : Bool
  secondHalf : Bool
  firstDouble : Bool
  secondDouble : Bool
  toppingValue : Option NSNumber
deriving DecidableEq

/-- The numbers FULL and NORMAL are 0, which is `nil` as an object; the location is
left, right, top and bottom. -/
def ItemToppings.init : ItemToppings where
  area := none
  location := some 15
  amount := none
  toppingId := none
  toppingName := none
  isDefault := false
  isSelected := false
  isHalf := false
  isDouble := false
  firstHalf := false
  secondHalf := false
  firstDouble := false
  secondDouble := false
  toppingValue := some 0

/-- An item; a collection may be `nil`. -/
structure ItemProperties where
  itemId : Option String
  hotness : Option String
  options : Option String
  comments : Option String
  toppingsLevel : Option String
  toppingPrice : Option String
  toppingThreshold : Option NSNumber
  itemName : Option String
  commentsLevel : Option String
  hotnessLevel : Option String
  priceStatus : Option String
  optionsLevel : Option String
  quantityLevel : Option String
  extrasLevel : Option String
  item_price : Option NSNumber
  item_tax : Option NSNumber
  vItemToppings : Option (List ItemToppings)
  vItemExtras : Option (List ItemExtras)
  hasSubItems : Bool
  taxPercentage : Option String
  cookitem : Bool
  slot_time : Option String
  course : Option String
deriving DecidableEq

namespace ItemProperties

/-- A new object is cleared. -/
def setNullItems : ItemProperties where
  itemId := none
  hotness := none
  options := none
  comments := none
  toppingsLevel := none
  toppingPrice := none
  toppingThreshold := none
  itemName := none
  commentsLevel := none
  hotnessLevel := none
  priceStatus := none
  optionsLevel := none
  quantityLevel := none
  extrasLevel := none
  item_price := none
  item_tax := none
  vItemToppings := none
  vItemExtras := none
  hasSubItems := false
  taxPercentage := some "0.0"
  cookitem := true
  slot_time := none
  course := none

/-- An id that is set stays. -/
def setItemId (item : ItemProperties) (itemId : String) : ItemProperties :=
  if item.itemId = none then { item with itemId := some itemId } else item

/-- `addObject:` to a collection that may be `nil`. -/
def addExtras (item : ItemProperties) (extras : ItemExtras) : ItemProperties :=
  { item with vItemExtras := item.vItemExtras.map (· ++ [extras]) }

def addToppings (item : ItemProperties) (toppings : ItemToppings) : ItemProperties :=
  { item with vItemToppings := item.vItemToppings.map (· ++ [toppings]) }

end ItemProperties

/-! ### The loaders -/

namespace DatabaseAccess

def itemPropertiesQuery (itemId : Option String) : String :=
  "SELECT HOTNESS, OPTIONS, COMMENT, TOPPINGS_LEVEL, TOPPING_THRESHOLD, TOPPING_PRICE, NAME,"
    ++ " HOTNESS_LEVEL, COMMENTS_LEVEL, OPTIONS_LEVEL, QUANTITY_LEVEL, EXTRAS_LEVEL,"
    ++ " HAS_SUBITEMS, getTaxPercentage(" ++ stringOrNull itemId ++ "), COOK_ITEM, SET_PRICE,"
    ++ " SLOT_TIME, COURSE FROM TBL_ITEMS WHERE ITEM_ID = " ++ stringOrNull itemId

def itemExtrasQuery (itemId : Option String) : String :=
  "SELECT EXTRAS_ID, PRICE FROM TBL_EXTRAS WHERE ITEM_ID = " ++ stringOrNull itemId ++ "::text"

def itemToppingsQuery (itemId : Option String) : String :=
  "SELECT A.TOPPING_ID, B.TOPPING_NAME, B.TOPPING_VALUE FROM TBL_ITEM_TOPPINGS A, TBL_TOPPINGS B"
    ++ " WHERE A.ITEM_ID = " ++ stringOrNull itemId ++ " AND A.TOPPING_ID=B.TOPPING_ID"

/-- The fields of the first row of a query of 18 columns. -/
def setProperties (rs : PGSQLRecordset 18) (item : ItemProperties) :
    Except NSException ItemProperties := do
  .ok { item with
    hotness := ← rs.stringAt 0
    options := ← rs.stringAt 1
    comments := ← rs.stringAt 2
    toppingsLevel := ← rs.stringAt 3
    toppingThreshold := ← rs.numberAt 4
    toppingPrice := ← rs.stringAt 5
    itemName := ← rs.stringAt 6
    hotnessLevel := ← rs.stringAt 7
    commentsLevel := ← rs.stringAt 8
    optionsLevel := ← rs.stringAt 9
    quantityLevel := ← rs.stringAt 10
    extrasLevel := ← rs.stringAt 11
    hasSubItems := ← rs.booleanAt 12
    taxPercentage := ← rs.stringAt 13
    cookitem := ← rs.booleanAt 14
    priceStatus := ← rs.stringAt 15
    slot_time := ← rs.stringAt 16
    course := ← rs.stringAt 17 }

/-- A failed query is read like one without rows. -/
def itemProperties (db : DatabaseAccess) (item : ItemProperties) (itemId : Option String) :
    Except NSException ItemProperties :=
  setProperties ((db.pgConn.openSelect ⟨itemPropertiesQuery itemId, 18⟩).getD
    ⟨[], 0, PGSQLConnection.defaultEncoding⟩) item

/-- A loader goes through the rows of a query; a `nil` record set has none. -/
def loadRows (db : DatabaseAccess) (q : Select)
    (body : PGSQLRecordset q.columns → ItemProperties → Except NSException ItemProperties)
    (item : ItemProperties) : Except NSException ItemProperties :=
  match db.pgConn.openSelect q with
  | some rs => PGSQLRecordset.forEachRow body rs.rowCount rs item
  | none => .ok item

/-- The body of the loop of `itemExtras:withItemId:`, over rows of two columns. -/
def loadExtras (rs : PGSQLRecordset 2) (item : ItemProperties) :
    Except NSException ItemProperties := do
  .ok (item.addExtras { ItemExtras.init with
    extrasId := ← rs.stringAt 0
    extrasName := ← rs.stringAt 1
    extrasPrice := ← rs.stringAt 2 })

def itemExtras (db : DatabaseAccess) (item : ItemProperties) (itemId : Option String) :
    Except NSException ItemProperties :=
  db.loadRows ⟨itemExtrasQuery itemId, 2⟩ loadExtras item

def loadToppings (rs : PGSQLRecordset 3) (item : ItemProperties) :
    Except NSException ItemProperties := do
  .ok (item.addToppings { ItemToppings.init with
    toppingId := ← rs.stringAt 0
    toppingName := ← rs.stringAt 1
    toppingValue := ← rs.numberAt 2
    isDefault := true
    isSelected := true })

def itemToppings (db : DatabaseAccess) (item : ItemProperties) (itemId : Option String) :
    Except NSException ItemProperties :=
  db.loadRows ⟨itemToppingsQuery itemId, 3⟩ loadToppings item

end DatabaseAccess

/-- `initWithItemId:`. -/
def ItemProperties.initWithItemId (db : DatabaseAccess) (itemId : String) :
    Except NSException ItemProperties := do
  let item := ItemProperties.setNullItems.setItemId itemId
  let item ← db.itemProperties item item.itemId
  let item ← db.itemExtras item item.itemId
  db.itemToppings item item.itemId

/-! ### What the loaders do -/

namespace DatabaseAccess

variable {db : DatabaseAccess} {item : ItemProperties} {itemId : Option String}

/-- Every column that is read is selected. -/
theorem setProperties_ok (rs : PGSQLRecordset 18) (item : ItemProperties) :
    ∃ item', setProperties rs item = .ok item' ∧ item'.itemId = item.itemId ∧
      item'.vItemExtras = item.vItemExtras ∧ item'.vItemToppings = item.vItemToppings := by
  have string : ∀ i (h : i < 18), rs.stringAt i =
      .ok ((rs.fieldByIndex ⟨i, h⟩).map (·.asString rs.defaultEncoding)) := by
    intro i h
    rw [PGSQLRecordset.stringAt, rs.fieldAt_of_lt h]
    rfl
  have number : ∀ i (h : i < 18), rs.numberAt i =
      .ok ((rs.fieldByIndex ⟨i, h⟩).bind (·.asNumber)) := by
    intro i h
    rw [PGSQLRecordset.numberAt, rs.fieldAt_of_lt h]
    rfl
  have boolean : ∀ i (h : i < 18), rs.booleanAt i =
      .ok (((rs.fieldByIndex ⟨i, h⟩).map (·.asBoolean)).getD false) := by
    intro i h
    rw [PGSQLRecordset.booleanAt, rs.fieldAt_of_lt h]
    rfl
  simp [setProperties, string, number, boolean]

theorem loadRows_eq {q : Select}
    {body : PGSQLRecordset q.columns → ItemProperties → Except NSException ItemProperties}
    {step : ItemProperties → PGSQLRow q.columns → Except NSException ItemProperties}
    (hbody : ∀ rs a record, rs.defaultEncoding = PGSQLConnection.defaultEncoding →
      rs.currentRecord = some record → body rs a = step a record) :
    db.loadRows q body item = ((db.pgConn.answer q).getD []).foldlM step item := by
  unfold loadRows PGSQLConnection.openSelect
  cases db.pgConn.answer q with
  | none => rfl
  | some rows =>
    exact PGSQLRecordset.forEachRow_eq hbody rows.length ⟨rows, 0, _⟩ rfl (Nat.zero_add _) item

/-- The loop for extras raises at its first row. -/
theorem itemExtras_eq : db.itemExtras item itemId =
    if (db.pgConn.answer ⟨itemExtrasQuery itemId, 2⟩).getD [] = [] then .ok item
    else .error .rangeException := by
  have raises : ∀ rs a record, rs.defaultEncoding = PGSQLConnection.defaultEncoding →
      rs.currentRecord = some record →
        loadExtras rs a = (fun _ _ => .error .rangeException : ItemProperties → PGSQLRow 2 →
          Except NSException ItemProperties) a record := by
    intro rs a record _ hrecord
    simp [loadExtras, PGSQLRecordset.stringAt, rs.fieldAt_of_lt Nat.zero_lt_two,
      rs.fieldAt_of_lt Nat.one_lt_two, rs.fieldAt_of_le hrecord (le_refl 2), Except.map]
    rfl
  rw [itemExtras, loadRows_eq raises]
  cases (db.pgConn.answer ⟨itemExtrasQuery itemId, 2⟩).getD [] with
  | nil => rfl
  | cons row rows => rfl

/-- The toppings of a row. -/
def toppingsOfRow (row : PGSQLRow 3) : ItemToppings := { ItemToppings.init with
  toppingId := some (PGSQLField.asString PGSQLConnection.defaultEncoding ⟨row ⟨0, by decide⟩⟩)
  toppingName := some (PGSQLField.asString PGSQLConnection.defaultEncoding ⟨row ⟨1, by decide⟩⟩)
  toppingValue := PGSQLField.asNumber ⟨row ⟨2, by decide⟩⟩
  isDefault := true
  isSelected := true }

theorem foldlM_addToppings (rows : List (PGSQLRow 3)) (item : ItemProperties) :
    rows.foldlM (fun item row => (.ok (item.addToppings (toppingsOfRow row)) :
      Except NSException ItemProperties)) item =
        .ok { item with vItemToppings := item.vItemToppings.map (· ++ rows.map toppingsOfRow) } := by
  induction rows generalizing item with
  | nil => simp
  | cons row rows ih =>
    rw [List.foldlM_cons, ok_bind, ih]
    simp [ItemProperties.addToppings, Function.comp_def]

/-- The loop for toppings completes, and adds those of every row to a collection
that is there. -/
theorem itemToppings_eq : db.itemToppings item itemId = .ok { item with
    vItemToppings := item.vItemToppings.map
      (· ++ ((db.pgConn.answer ⟨itemToppingsQuery itemId, 3⟩).getD []).map toppingsOfRow) } := by
  have adds : ∀ rs a record, rs.defaultEncoding = PGSQLConnection.defaultEncoding →
      rs.currentRecord = some record →
        loadToppings rs a = (fun item row => .ok (item.addToppings (toppingsOfRow row)) :
          ItemProperties → PGSQLRow 3 → Except NSException ItemProperties) a record := by
    intro rs a record hencoding hrecord
    simp [loadToppings, PGSQLRecordset.stringAt, PGSQLRecordset.numberAt,
      rs.fieldAt_of_lt (i := 0) (by decide), rs.fieldAt_of_lt (i := 1) (by decide),
      rs.fieldAt_of_lt (i := 2) (by decide), Except.map, PGSQLRecordset.fieldByIndex, hrecord,
      hencoding]
    rfl
  rw [itemToppings, loadRows_eq adds]
  exact foldlM_addToppings _ item

end DatabaseAccess

/-- The object completes unless the query for extras has rows, and its collections
are `nil`. -/
theorem ItemProperties.initWithItemId_eq (db : DatabaseAccess) (itemId : String) :
    (∃ item, initWithItemId db itemId = .ok item ∧ item.vItemExtras = none ∧
      item.vItemToppings = none ∧
      (db.pgConn.answer ⟨DatabaseAccess.itemExtrasQuery (some itemId), 2⟩).getD [] = []) ∨
    initWithItemId db itemId = .error .rangeException ∧
      (db.pgConn.answer ⟨DatabaseAccess.itemExtrasQuery (some itemId), 2⟩).getD [] ≠ [] := by
  obtain ⟨item, hitem, hid, hextras, htoppings⟩ := DatabaseAccess.setProperties_ok
    ((db.pgConn.openSelect ⟨DatabaseAccess.itemPropertiesQuery (some itemId), 18⟩).getD
      ⟨[], 0, PGSQLConnection.defaultEncoding⟩) (setNullItems.setItemId itemId)
  have properties : db.itemProperties (setNullItems.setItemId itemId) (some itemId) = .ok item :=
    hitem
  have id : item.itemId = some itemId := hid
  have loads : initWithItemId db itemId =
      (db.itemExtras item (some itemId) >>= fun item => db.itemToppings item item.itemId) := by
    rw [← id]
    exact congrArg (· >>= _) properties
  rw [loads, DatabaseAccess.itemExtras_eq]
  by_cases none : (db.pgConn.answer
      ⟨DatabaseAccess.itemExtrasQuery (some itemId), 2⟩).getD [] = []
  · rw [if_pos none, ok_bind, DatabaseAccess.itemToppings_eq]
    refine .inl ⟨_, rfl, hextras, ?_, none⟩
    simp only [htoppings]
    rfl
  · rw [if_neg none]
    exact .inr ⟨rfl, none⟩

/-! ### The tables -/

/-- A row of TBL_EXTRAS, TBL_ITEM_TOPPINGS and TBL_TOPPINGS: the columns that matter
here. A column may hold NULL. -/
structure TblExtras where
  itemId : Int
  extrasId : Option String
  extras : Option String
  price : Option String

structure TblItemToppings where
  itemId : Int
  toppingId : Option String

structure TblToppings where
  toppingId : Option String
  toppingName : Option String
  toppingValue : Option String

structure DetailTables where
  tblExtras : List TblExtras
  tblItemToppings : List TblItemToppings
  tblToppings : List TblToppings

namespace DetailTables

/-- The rows of an item. -/
def extrasOf (tables : DetailTables) (itemId : Int) : List TblExtras :=
  tables.tblExtras.filter (·.itemId = itemId)

/-- The toppings of an item, joined; NULL is not equal to NULL. -/
def toppingsOf (tables : DetailTables) (itemId : Int) : List (TblItemToppings × TblToppings) :=
  (tables.tblItemToppings.filter (·.itemId = itemId)).flatMap fun a =>
    (tables.tblToppings.filter fun b => a.toppingId ≠ none ∧ a.toppingId = b.toppingId).map
      fun b => (a, b)

end DetailTables

/-- The row with these cells. -/
def rowOf {n : Nat} (cells : List (Option String)) : PGSQLRow n := fun i => cells.getD i.val none

/-- An answer of the server consists of the rows of the item, in some order; it may
also report an error. -/
structure ServesDetails (db : DatabaseAccess) (tables : DetailTables) (itemId : Int)
    (extras : List TblExtras) (toppings : List (TblItemToppings × TblToppings)) : Prop where
  extras_perm : extras.Perm (tables.extrasOf itemId)
  toppings_perm : toppings.Perm (tables.toppingsOf itemId)
  extras_answer : ∀ rows ∈ db.pgConn.answer
    ⟨DatabaseAccess.itemExtrasQuery (some (toString itemId)), 2⟩,
      rows = extras.map fun r => rowOf [r.extrasId, r.price]
  toppings_answer : ∀ rows ∈ db.pgConn.answer
    ⟨DatabaseAccess.itemToppingsQuery (some (toString itemId)), 3⟩,
      rows = toppings.map fun r => rowOf [r.1.toppingId, r.2.toppingName, r.2.toppingValue]

/-- What an object is to hold of a row. -/
def TblExtras.loaded (r : TblExtras) : ItemExtras where
  extrasId := some (PGSQLField.asString PGSQLConnection.defaultEncoding ⟨r.extrasId⟩)
  extrasName := some (PGSQLField.asString PGSQLConnection.defaultEncoding ⟨r.extras⟩)
  extrasPrice := some (PGSQLField.asString PGSQLConnection.defaultEncoding ⟨r.price⟩)

def TblItemToppings.loaded (r : TblItemToppings) (topping : TblToppings) : ItemToppings :=
  { ItemToppings.init with
    toppingId := some (PGSQLField.asString PGSQLConnection.defaultEncoding ⟨r.toppingId⟩)
    toppingName := some (PGSQLField.asString PGSQLConnection.defaultEncoding ⟨topping.toppingName⟩)
    toppingValue := PGSQLField.asNumber ⟨topping.toppingValue⟩
    isDefault := true
    isSelected := true }

/-- One object per row, in row order; a `nil` collection holds none. -/
structure DetailsLoaded (item : ItemProperties) (extras : List TblExtras)
    (toppings : List (TblItemToppings × TblToppings)) : Prop where
  extras : item.vItemExtras.getD [] = extras.map (·.loaded)
  toppings : item.vItemToppings.getD [] = toppings.map fun r => r.1.loaded r.2

/-- **Main result.** The details of an item are loaded exactly when it has none: no
row of TBL_EXTRAS, and no row of TBL_ITEM_TOPPINGS with a topping. -/
theorem initWithItemId_loads_iff (db : DatabaseAccess) (tables : DetailTables) (itemId : Int)
    {extras : List TblExtras} {toppings : List (TblItemToppings × TblToppings)}
    (serves : ServesDetails db tables itemId extras toppings) :
    (∃ item, ItemProperties.initWithItemId db (toString itemId) = .ok item ∧
      DetailsLoaded item extras toppings) ↔
    tables.extrasOf itemId = [] ∧ tables.toppingsOf itemId = [] := by
  have hextras : tables.extrasOf itemId = [] ↔ extras = [] := by
    rw [← List.length_eq_zero_iff, ← serves.extras_perm.length_eq, List.length_eq_zero_iff]
  have htoppings : tables.toppingsOf itemId = [] ↔ toppings = [] := by
    rw [← List.length_eq_zero_iff, ← serves.toppings_perm.length_eq, List.length_eq_zero_iff]
  rw [hextras, htoppings]
  constructor
  · rintro ⟨item, hitem, loaded⟩
    rcases ItemProperties.initWithItemId_eq db (toString itemId) with
      ⟨item', hitem', nilExtras, nilToppings, -⟩ | ⟨raises, -⟩
    · rw [hitem] at hitem'
      cases hitem'
      have extrasNone := loaded.extras
      have toppingsNone := loaded.toppings
      rw [nilExtras] at extrasNone
      rw [nilToppings] at toppingsNone
      exact ⟨List.map_eq_nil_iff.mp extrasNone.symm, List.map_eq_nil_iff.mp toppingsNone.symm⟩
    · rw [hitem] at raises
      cases raises
  · rintro ⟨rfl, rfl⟩
    have noRows : (db.pgConn.answer
        ⟨DatabaseAccess.itemExtrasQuery (some (toString itemId)), 2⟩).getD [] = [] := by
      cases hanswer : db.pgConn.answer
          ⟨DatabaseAccess.itemExtrasQuery (some (toString itemId)), 2⟩ with
      | none => rfl
      | some rows => exact serves.extras_answer rows hanswer
    rcases ItemProperties.initWithItemId_eq db (toString itemId) with
      ⟨item, hitem, nilExtras, nilToppings, -⟩ | ⟨-, rows⟩
    · refine ⟨item, hitem, ?_, ?_⟩
      · rw [nilExtras]
        rfl
      · rw [nilToppings]
        rfl
    · exact absurd noRows rows

/-- A server that knows the details of one item. -/
def detailServer (tables : DetailTables) (itemId : Int) : DatabaseAccess :=
  ⟨⟨fun q =>
    if q.text = DatabaseAccess.itemExtrasQuery (some (toString itemId)) then
      some ((tables.extrasOf itemId).map fun r => rowOf [r.extrasId, r.price])
    else if q.text = DatabaseAccess.itemToppingsQuery (some (toString itemId)) then
      some ((tables.toppingsOf itemId).map fun r =>
        rowOf [r.1.toppingId, r.2.toppingName, r.2.toppingValue])
    else none⟩⟩

theorem servesDetails_detailServer {tables : DetailTables} {itemId : Int}
    (distinct : DatabaseAccess.itemToppingsQuery (some (toString itemId)) ≠
      DatabaseAccess.itemExtrasQuery (some (toString itemId))) :
    ServesDetails (detailServer tables itemId) tables itemId (tables.extrasOf itemId)
      (tables.toppingsOf itemId) where
  extras_perm := .refl _
  toppings_perm := .refl _
  extras_answer := by
    intro rows hrows
    simp only [detailServer] at hrows
    exact (Option.some.inj hrows).symm
  toppings_answer := by
    intro rows hrows
    simp only [detailServer, if_neg distinct] at hrows
    exact (Option.some.inj hrows).symm

/-- Item 1 has an extra, and item 2 has none. -/
def cheeseTables : DetailTables where
  tblExtras := [⟨1, some "7", some "Cheese", some "0.5"⟩]
  tblItemToppings := []
  tblToppings := [⟨some "3", some "Olives", some "1"⟩]

theorem initWithItemId_loads_two : ∃ item,
    ItemProperties.initWithItemId (detailServer cheeseTables 2) (toString (2 : Int)) = .ok item ∧
      DetailsLoaded item [] [] :=
  (initWithItemId_loads_iff (detailServer cheeseTables 2) cheeseTables 2
    (servesDetails_detailServer (by decide +kernel))).mpr ⟨by decide, by decide⟩

/-- The name of the extra is looked for in the second column, and its price in a
column that was not selected. -/
theorem details_not_loaded :
    ¬ ∀ (db : DatabaseAccess) (tables : DetailTables) (itemId : Int) (extras : List TblExtras)
      (toppings : List (TblItemToppings × TblToppings)),
      ServesDetails db tables itemId extras toppings →
        ∃ item, ItemProperties.initWithItemId db (toString itemId) = .ok item ∧
          DetailsLoaded item extras toppings := by
  intro always
  have raises : ItemProperties.initWithItemId (detailServer cheeseTables 1) (toString (1 : Int)) =
      .error .rangeException := by
    decide +kernel
  obtain ⟨item, hitem, -⟩ := always (detailServer cheeseTables 1) cheeseTables 1 _ _
    (servesDetails_detailServer (by decide +kernel))
  rw [raises] at hitem
  cases hitem

end PointIPad
