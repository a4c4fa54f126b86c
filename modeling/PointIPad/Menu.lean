import PointIPad.QuickServe
import PointIPad.StoredNames

/-!
The menu: classes, subclasses and items.

The menu a user sees is a path: the class menu, the subclasses or the items of a
class, the items of a subclass. `AtPath` says that a screen shows a path, with
the stacks that lead back from it; taps and Back keep to it.

The database is a parameter. `ServesItems` is what a server does with the menu
queries of a table about names without a quote: it answers each with the values the
table holds, once each where the query says DISTINCT, in some order. Names reach the
screen as the client reads them, and go back as they are shown; an id is read as a
float.

**Main result** (`items_orderable_iff`). All items shown can be ordered, at every
point of a run of taps and Back presses, if the run keeps two rules: a class that has
just one subclass is opened only while no other subclass is remembered, and of the
names a tap shows each, as it is read, is found in the open class and subclass, with
an id that is read as that of a row found. For tables without quotes, and with the ids
that no float holds on one row each, the rules are necessary too.
-/

namespace PointIPad

open Transition

/-! ### Answers of the server -/

/-- The server answers a query of one column with these texts, in some order. -/
def PGSQLConnection.Lists (conn : PGSQLConnection) (text : String) (values : List String) : Prop :=
  ∃ rows ∈ conn.answer ⟨text, 1⟩, (rows.map fun row => row ⟨0, Nat.one_pos⟩).Perm (values.map some)

instance (conn : PGSQLConnection) (text : String) (values : List String) :
    Decidable (conn.Lists text values) :=
  inferInstanceAs (Decidable (∃ rows ∈ conn.answer ⟨text, 1⟩, _))

/-- A stored text, as the client reads it. -/
def asRead (text : String) : String :=
  PGSQLField.asString PGSQLConnection.defaultEncoding ⟨some text⟩

/-- A name that can stand between the quotes of a literal. -/
def Unquoted (name : String) : Prop := '\'' ∉ name.toList

instance (name : String) : Decidable (Unquoted name) := inferInstanceAs (Decidable ('\'' ∉ _))

theorem Unquoted.asRead {name : String} (h : Unquoted name) : Unquoted (asRead name) :=
  fun quote => h (mem_of_mem_decode quote (by decide))

section Lists

variable {conn : PGSQLConnection} {text : String} {values : List String}

theorem PGSQLConnection.Lists.answer (h : conn.Lists text values) :
    ∃ rows, conn.answer ⟨text, 1⟩ = some rows ∧
      (rows.map fun row => row 0).Perm (values.map some) := h

/-- The texts are read as the client reads them. -/
theorem stringColumn_perm (h : conn.Lists text values) :
    (conn.stringColumn ⟨text, 1⟩ 0).Perm (values.map asRead) := by
  obtain ⟨rows, hanswer, hperm⟩ := h.answer
  rw [PGSQLConnection.stringColumn_eq, hanswer, Option.getD_some]
  have hread : (rows.map fun row => PGSQLField.asString PGSQLConnection.defaultEncoding ⟨row 0⟩)
      = (rows.map fun row => row 0).map
        fun cell => PGSQLField.asString PGSQLConnection.defaultEncoding ⟨cell⟩ := by
    rw [List.map_map]
    rfl
  rw [hread]
  refine (hperm.map _).trans ?_
  rw [List.map_map]
  exact List.Perm.refl _

/-- A number field is one of the numbers listed, read as a float, and `nil` if there are
none. -/
theorem numberField_of_lists {ids : List Int} (h : conn.Lists text (ids.map toString)) :
    (ids = [] → conn.numberField ⟨text, 1⟩ 0 = none) ∧
      (ids ≠ [] → ∃ i ∈ ids, conn.numberField ⟨text, 1⟩ 0 = some (floatValue (toString i))) := by
  obtain ⟨rows, hanswer, hperm⟩ := h.answer
  rw [PGSQLConnection.numberField_eq, hanswer]
  cases rows with
  | nil =>
    have hnil : ids = [] := by simpa using hperm.length_eq.symm
    exact ⟨fun _ => rfl, fun hne => absurd hnil hne⟩
  | cons row rows =>
    obtain ⟨v, hv, hrow⟩ := List.mem_map.mp
      (hperm.subset (List.mem_cons_self : row 0 ∈ ((row :: rows).map fun row => row 0)))
    obtain ⟨i, hi, rfl⟩ := List.mem_map.mp hv
    refine ⟨fun hnil => absurd hi (hnil ▸ List.not_mem_nil), fun _ => ⟨i, hi, ?_⟩⟩
    have hcell : row 0 = some (toString i) := hrow.symm
    show (row 0).map floatValue = _
    rw [hcell, Option.map_some]

end Lists

/-! ### The items table -/

/-- A row of TBL_ITEMS: the columns the menu reads. -/
structure TblItem where
  itemId : Int
  className : String
  subclassName : String
  name : String
deriving DecidableEq

/-- What the lookup of an item's id asks for. -/
def TblItem.Matches (className : String) (subclassName : Option String) (name : String)
    (r : TblItem) : Prop :=
  r.className = className ∧ (∀ s ∈ subclassName, r.subclassName = s) ∧ r.name = name

instance (className : String) (subclassName : Option String) (name : String) (r : TblItem) :
    Decidable (r.Matches className subclassName name) :=
  inferInstanceAs (Decidable (_ ∧ (∀ s ∈ subclassName, _) ∧ _))

/-- The names a DISTINCT query lists: one column of the rows that satisfy a condition. -/
def distinct (table : List TblItem) (keep : TblItem → Bool) (column : TblItem → String) :
    List String :=
  ((table.filter keep).map column).dedup

/-- The server answers the menu queries from the rows of a table, as far as they are about
names without a quote: such a query is read as it was meant (`names_survive_iff`). The names
that can be sent are those that the client has read. -/
structure ServesItems (db : DatabaseAccess) (table : List TblItem) : Prop where
  classes : db.pgConn.Lists DatabaseAccess.classNamesQuery
    (distinct table (fun _ => true) (·.className))
  subclasses : ∀ r ∈ table, Unquoted (asRead r.className) →
    db.pgConn.Lists (DatabaseAccess.subclassQuery (asRead r.className))
      (distinct table (·.className = asRead r.className) (·.subclassName))
  itemsOfClass : ∀ r ∈ table, Unquoted (asRead r.className) →
    db.pgConn.Lists (DatabaseAccess.itemsOfClassQuery (asRead r.className))
      (distinct table (·.className = asRead r.className) (·.name))
  itemsOfSubclass : ∀ r ∈ table, Unquoted (asRead r.subclassName) →
    db.pgConn.Lists (DatabaseAccess.itemsOfSubclassQuery (asRead r.subclassName))
      (distinct table (·.subclassName = asRead r.subclassName) (·.name))
  itemId : ∀ r ∈ table, ∀ sub ∈ none :: table.map (some <| asRead ·.subclassName), ∀ item ∈ table,
    Unquoted (asRead r.className) → (∀ s ∈ sub, Unquoted s) → Unquoted (asRead item.name) →
    db.pgConn.Lists (DatabaseAccess.itemIdQuery (some (asRead r.className)) sub (asRead item.name))
      ((table.filter fun row => row.Matches (asRead r.className) sub (asRead item.name)).map
        fun row => toString row.itemId)

/-- The lookup of a name finds a row, and whichever row the server lists first, its id is
read as that of a row found. -/
def Found (table : List TblItem) (className : String) (subclassName : Option String)
    (name : String) : Prop :=
  Unquoted name ∧ (∃ r ∈ table, r.Matches className subclassName name) ∧
    ∀ r ∈ table, r.Matches className subclassName name → ∃ r' ∈ table,
      r'.Matches className subclassName name ∧ floatValue (toString r.itemId) = (r'.itemId : ℚ)

instance (table : List TblItem) (className : String) (subclassName : Option String)
    (name : String) : Decidable (Found table className subclassName name) :=
  inferInstanceAs (Decidable (_ ∧ (∃ r ∈ table, _) ∧ ∀ r ∈ table, _ → ∃ r' ∈ table, _ ∧ _))

section Queries

variable {db : DatabaseAccess} {table : List TblItem} {c sub : String}

theorem mem_distinct {keep : TblItem → Bool} {column : TblItem → String} {v : String} :
    v ∈ distinct table keep column ↔ ∃ r ∈ table, keep r ∧ column r = v := by
  simp [distinct, and_assoc]

theorem mem_classNames_iff (serves : ServesItems db table) :
    c ∈ db.classNames ↔ ∃ r ∈ table, asRead r.className = c := by
  rw [DatabaseAccess.classNames, (stringColumn_perm serves.classes).mem_iff, List.mem_map]
  simp [mem_distinct]

/-- The subclasses of a class that is shown. -/
theorem subclassWhereClassIs_perm (serves : ServesItems db table)
    (hc : ∃ r ∈ table, asRead r.className = c) (plain : Unquoted c) :
    (db.subclassWhereClassIs c).Perm
      ((distinct table (·.className = c) (·.subclassName)).map asRead) := by
  obtain ⟨r, hr, rfl⟩ := hc
  exact stringColumn_perm (serves.subclasses r hr plain)

theorem mem_itemsWhereClassIs_iff (serves : ServesItems db table)
    (hc : ∃ r ∈ table, asRead r.className = c) (plain : Unquoted c) {name : String} :
    name ∈ db.itemsWhereClassIs c ↔ ∃ r ∈ table, r.className = c ∧ asRead r.name = name := by
  obtain ⟨r, hr, rfl⟩ := hc
  rw [DatabaseAccess.itemsWhereClassIs, (stringColumn_perm (serves.itemsOfClass r hr plain)).mem_iff,
    List.mem_map]
  simp [mem_distinct, and_assoc]

theorem mem_itemsWhereSubclassIs_iff (serves : ServesItems db table)
    (hsub : ∃ r ∈ table, asRead r.subclassName = sub) (plain : Unquoted sub) {name : String} :
    name ∈ db.itemsWhereSubclassIs sub ↔
      ∃ r ∈ table, r.subclassName = sub ∧ asRead r.name = name := by
  obtain ⟨r, hr, rfl⟩ := hsub
  rw [DatabaseAccess.itemsWhereSubclassIs,
    (stringColumn_perm (serves.itemsOfSubclass r hr plain)).mem_iff, List.mem_map]
  simp [mem_distinct, and_assoc]

/-- A class and perhaps a subclass that have been opened, by the names that were shown. -/
structure Opened (table : List TblItem) (className : String) (subclassName : Option String) :
    Prop where
  className_shown : ∃ r ∈ table, asRead r.className = className
  className_unquoted : Unquoted className
  subclassName_shown : ∀ s ∈ subclassName, ∃ r ∈ table, asRead r.subclassName = s
  subclassName_unquoted : ∀ s ∈ subclassName, Unquoted s

/-- The lookup of an id finds one of the rows it asks for, and `nil` if there is none. -/
theorem itemIdWhereClassIs_spec (serves : ServesItems db table) {subclassName : Option String}
    (opened : Opened table c subclassName) {name : String}
    (hname : ∃ r ∈ table, asRead r.name = name) (plain : Unquoted name) :
    ((¬ ∃ r ∈ table, r.Matches c subclassName name) →
      db.itemIdWhereClassIs (some c) subclassName name = none) ∧
    ((∃ r ∈ table, r.Matches c subclassName name) → ∃ r ∈ table, r.Matches c subclassName name ∧
      db.itemIdWhereClassIs (some c) subclassName name = some (floatValue (toString r.itemId))) := by
  obtain ⟨⟨r, hr, rfl⟩, classPlain, hsub, subPlain⟩ := opened
  obtain ⟨item, hitem, rfl⟩ := hname
  have hmem : subclassName ∈ none :: table.map (some <| asRead ·.subclassName) := by
    cases subclassName with
    | none => exact List.mem_cons_self
    | some s =>
      obtain ⟨row, hrow, rfl⟩ := hsub s rfl
      exact List.mem_cons_of_mem _ (List.mem_map_of_mem hrow)
  let found := table.filter fun row => row.Matches (asRead r.className) subclassName (asRead item.name)
  have hlists : db.pgConn.Lists
      (DatabaseAccess.itemIdQuery (some (asRead r.className)) subclassName (asRead item.name))
      ((found.map (·.itemId)).map toString) := by
    rw [List.map_map]
    exact serves.itemId r hr subclassName hmem item hitem classPlain subPlain plain
  have hfound : ∀ row, row ∈ found ↔
      row ∈ table ∧ row.Matches (asRead r.className) subclassName (asRead item.name) := by
    simp [found]
  obtain ⟨hnone, hsome⟩ := numberField_of_lists hlists
  constructor
  · intro nothing
    refine hnone (List.map_eq_nil_iff.mpr (List.eq_nil_iff_forall_not_mem.mpr fun row hrow => ?_))
    exact nothing ⟨row, (hfound row).mp hrow⟩
  · rintro ⟨row, hrow⟩
    have hne : found.map (·.itemId) ≠ [] :=
      List.ne_nil_of_mem (List.mem_map_of_mem ((hfound row).mpr hrow))
    obtain ⟨i, hi, hid⟩ := hsome hne
    obtain ⟨row', hrow', rfl⟩ := List.mem_map.mp hi
    obtain ⟨htable, hmatches⟩ := (hfound row').mp hrow'
    exact ⟨row', htable, hmatches, hid⟩

end Queries

/-! ### Paths -/

/-- What a user has opened. -/
inductive MenuPath where
  | classes
  | subclasses (className : String)
  | itemsOfClass (className : String)
  | itemsOfSubclass (className subclassName : String)
deriving DecidableEq

namespace MenuPath

/-- The names shown. -/
def menu (db : DatabaseAccess) : MenuPath → List String
  | .classes => db.classNames
  | .subclasses c => db.subclassWhereClassIs c
  | .itemsOfClass c => db.itemsWhereClassIs c
  | .itemsOfSubclass _ s => db.itemsWhereSubclassIs s

def isSubclass : MenuPath → Bool
  | .classes => false
  | _ => true

def isActualItems : MenuPath → Bool
  | .itemsOfClass _ => true
  | .itemsOfSubclass _ _ => true
  | _ => false

/-- Opening a name. -/
def tap (db : DatabaseAccess) (path : MenuPath) (name : String) : MenuPath :=
  match path with
  | .classes =>
    if (db.subclassWhereClassIs name).length = 1 then .itemsOfClass name else .subclasses name
  | .subclasses c => .itemsOfSubclass c name
  | path => path

def back : MenuPath → MenuPath
  | .itemsOfSubclass c _ => .subclasses c
  | _ => .classes

/-- The stacks that lead back to the class menu. -/
def menuStacks (db : DatabaseAccess) : MenuPath → MenuStacks
  | .classes => .init
  | .subclasses _ => ⟨[db.classNames], [false], [false]⟩
  | .itemsOfClass _ => ⟨[db.classNames], [false], [false]⟩
  | .itemsOfSubclass c _ =>
    ⟨[db.classNames, db.subclassWhereClassIs c], [false, false], [false, true]⟩

def openedClass : MenuPath → Option String
  | .classes => none
  | .subclasses c => some c
  | .itemsOfClass c => some c
  | .itemsOfSubclass c _ => some c

def openedSubclass : MenuPath → Option String
  | .itemsOfSubclass _ s => some s
  | _ => none

end MenuPath

/-- The screen shows a path. -/
structure AtPath (db : DatabaseAccess) (path : MenuPath) (s : QuickServe) : Prop where
  currentMenuItems : s.currentMenuItems = path.menu db
  isSubclass : s.isSubclass = path.isSubclass
  isActualItems : s.isActualItems = path.isActualItems
  menuStacks : s.menuStacks = path.menuStacks db

section AtPath

variable {db : DatabaseAccess} {path : MenuPath} {s s' : QuickServe} {name : String}

theorem atPath_init (db : DatabaseAccess) (tableNumber : Option Int32) :
    AtPath db .classes (.init db.classNames tableNumber) :=
  ⟨rfl, rfl, rfl, rfl⟩

/-- A tap on the class menu. -/
theorem handleName_classes (h : AtPath db .classes s) (name : String) :
    s.handleName db name = .ok { s with
      nameOfSelected := some name
      classNameForDatabase := some name
      currentMenuItems := (MenuPath.tap db .classes name).menu db
      isSubclass := true
      isActualItems := (MenuPath.tap db .classes name).isActualItems
      menuStacks := (MenuPath.tap db .classes name).menuStacks db } := by
  obtain ⟨hmenu, hsub, hitems, hstacks⟩ := h
  by_cases one : (db.subclassWhereClassIs name).length = 1
  · simp [QuickServe.handleName, hsub, hitems, MenuPath.isSubclass, MenuPath.isActualItems,
      QuickServe.savePreviousState, hstacks, hmenu, MenuPath.tap, one, MenuPath.menu,
      MenuPath.menuStacks, MenuStacks.init]
  · simp [QuickServe.handleName, hsub, hitems, MenuPath.isSubclass, MenuPath.isActualItems,
      QuickServe.savePreviousState, hstacks, hmenu, MenuPath.tap, one, MenuPath.menu,
      MenuPath.menuStacks, MenuStacks.init]

/-- A tap on the subclasses of a class. -/
theorem handleName_subclasses {c : String} (h : AtPath db (.subclasses c) s) (name : String) :
    s.handleName db name = .ok { s with
      nameOfSelected := some name
      subclassNameForDatabase := some name
      currentMenuItems := db.itemsWhereSubclassIs name
      isActualItems := true
      menuStacks := (MenuPath.itemsOfSubclass c name).menuStacks db } := by
  obtain ⟨hmenu, hsub, hitems, hstacks⟩ := h
  simp [QuickServe.handleName, hsub, hitems, MenuPath.isSubclass, MenuPath.isActualItems,
    QuickServe.savePreviousState, hstacks, hmenu, MenuPath.menu, MenuPath.menuStacks]

/-- A tap on an item: its id is looked up in the context at hand. -/
theorem handleName_items (h : AtPath db path s) (hlevel : path.isActualItems = true)
    (name : String) :
    s.handleName db name = QuickServe.addAnOrder db { s with
      nameOfSelected := some name
      selectedItemId := db.itemIdWhereClassIs s.classNameForDatabase
        s.subclassNameForDatabase name } := by
  have hitems : s.isActualItems = true := h.isActualItems.trans hlevel
  simp [QuickServe.handleName, hitems]

/-- Adding an item leaves the menu and the context of lookups alone. -/
theorem addAnOrder_frame (h : s.addAnOrder db = .ok s') :
    ∃ order labels changed,
      s' = { s with order := order, labels := labels, taxNameChanged := changed } := by
  rw [QuickServe.addAnOrder_eq] at h
  cases horder : s.order.addToOrder db s.selectedItemId >>= Orders.updateTotals db with
  | error e => rw [horder] at h; cases h
  | ok order =>
    rw [horder] at h
    obtain ⟨labels, changed, hshow⟩ :=
      QuickServe.showTotals_frame (s := { s with order := order })
    cases h
    exact ⟨order, labels, changed, hshow⟩

theorem handleName_atPath (h : AtPath db path s) (hstep : s.handleName db name = .ok s') :
    AtPath db (path.tap db name) s' := by
  cases path with
  | classes =>
    rw [handleName_classes h] at hstep
    cases hstep
    refine ⟨rfl, ?_, rfl, rfl⟩
    rw [MenuPath.tap]
    split <;> rfl
  | subclasses c =>
    rw [handleName_subclasses h] at hstep
    cases hstep
    exact ⟨rfl, h.isSubclass, rfl, rfl⟩
  | itemsOfClass c =>
    rw [handleName_items h rfl] at hstep
    obtain ⟨_, _, _, rfl⟩ := addAnOrder_frame hstep
    exact ⟨h.currentMenuItems, h.isSubclass, h.isActualItems, h.menuStacks⟩
  | itemsOfSubclass c sub =>
    rw [handleName_items h rfl] at hstep
    obtain ⟨_, _, _, rfl⟩ := addAnOrder_frame hstep
    exact ⟨h.currentMenuItems, h.isSubclass, h.isActualItems, h.menuStacks⟩

theorem flipBackMenuItems_atPath (h : AtPath db path s) :
    AtPath db path.back s.flipBackMenuItems := by
  obtain ⟨hmenu, hsub, hitems, hstacks⟩ := h
  unfold QuickServe.flipBackMenuItems
  cases path with
  | classes =>
    rw [if_pos (by rw [hstacks]; rfl)]
    exact ⟨hmenu, hsub, hitems, hstacks⟩
  | subclasses c =>
    rw [if_neg (by rw [hstacks]; simp [MenuPath.menuStacks])]
    rw [hstacks]
    exact ⟨rfl, rfl, rfl, rfl⟩
  | itemsOfClass c =>
    rw [if_neg (by rw [hstacks]; simp [MenuPath.menuStacks])]
    rw [hstacks]
    exact ⟨rfl, rfl, rfl, rfl⟩
  | itemsOfSubclass c sub =>
    rw [if_neg (by rw [hstacks]; simp [MenuPath.menuStacks])]
    rw [hstacks]
    exact ⟨rfl, rfl, rfl, rfl⟩

/-- Back leaves the context of lookups alone. -/
theorem flipBackMenuItems_context :
    s.flipBackMenuItems.classNameForDatabase = s.classNameForDatabase ∧
      s.flipBackMenuItems.subclassNameForDatabase = s.subclassNameForDatabase := by
  unfold QuickServe.flipBackMenuItems
  split <;> exact ⟨rfl, rfl⟩

end AtPath

/-! ### Browsing -/

/-- A screen, and what its user has opened. -/
structure Browsing where
  screen : QuickServe
  path : MenuPath

inductive MenuEvent where
  | tap (row : Nat)
  | back
deriving DecidableEq

def Browsing.init (db : DatabaseAccess) (tableNumber : Option Int32) : Browsing :=
  ⟨.init db.classNames tableNumber, .classes⟩

/-- A tap on a shown cell, or Back. The user opens the name the cell shows. -/
def menuStep (db : DatabaseAccess) (b : Browsing) : MenuEvent → Except NSException Browsing
  | .tap row => do
    let name ← objectAtIndex b.screen.currentMenuItems row
    .ok ⟨← b.screen.handleOneTap db (some row), b.path.tap db name⟩
  | .back => .ok ⟨b.screen.flipBackMenuItems, b.path.back⟩

/-- While items are shown, the lookup of each name shown finds a row with that
name, in the class and the subclass that were opened. -/
def ItemsOrderable (db : DatabaseAccess) (table : List TblItem) (b : Browsing) : Prop :=
  b.screen.isActualItems = true → ∀ name ∈ b.screen.currentMenuItems, ∃ r ∈ table,
    db.itemIdWhereClassIs b.screen.classNameForDatabase b.screen.subclassNameForDatabase name
      = some (r.itemId : ℚ) ∧
    r.name = name ∧ (∀ c ∈ b.path.openedClass, r.className = c) ∧
    ∀ s ∈ b.path.openedSubclass, r.subclassName = s

instance (db : DatabaseAccess) (table : List TblItem) (b : Browsing) :
    Decidable (ItemsOrderable db table b) :=
  inferInstanceAs (Decidable (_ = true → ∀ name ∈ b.screen.currentMenuItems, ∃ r ∈ table,
    db.itemIdWhereClassIs b.screen.classNameForDatabase b.screen.subclassNameForDatabase name
      = some (r.itemId : ℚ) ∧ _ ∧ (∀ c ∈ b.path.openedClass, _) ∧ ∀ s ∈ b.path.openedSubclass, _))

/-- The two rules for opening names, by what is shown. No name has a quote. A class with one
subclass: no other subclass is remembered from before, and the name of each row, as it is
read, is found in the class. A subclass: the name of each row in it, whatever its class, is
found in the open class and the subclass. -/
def OpensOwnName (table : List TblItem) (remembered : Option String) :
    MenuPath → Option String → Prop
  | .classes, some c =>
    Unquoted c ∧ ((distinct table (·.className = c) (·.subclassName)).length = 1 →
      (∀ s ∈ remembered, ∀ r ∈ table, r.className = c → r.subclassName = s) ∧
        ∀ r ∈ table, r.className = c → Found table c none (asRead r.name))
  | .subclasses c, some s =>
    Unquoted s ∧ ∀ r ∈ table, r.subclassName = s → Found table c (some s) (asRead r.name)
  | _, _ => True

/-- The event keeps the rules. -/
def OpensOwn (table : List TblItem) (b : Browsing) : MenuEvent → Prop
  | .back => True
  | .tap row => OpensOwnName table b.screen.subclassNameForDatabase b.path
      b.screen.currentMenuItems[row]?

instance (table : List TblItem) (remembered : Option String) :
    (path : MenuPath) → (name : Option String) → Decidable (OpensOwnName table remembered path name)
  | .classes, some _ => inferInstanceAs (Decidable (_ ∧ (_ →
      (∀ s ∈ remembered, ∀ r ∈ table, _ → _) ∧ ∀ r ∈ table, _ → Found _ _ _ _)))
  | .subclasses _, some _ =>
    inferInstanceAs (Decidable (_ ∧ ∀ r ∈ table, _ → Found _ _ _ _))
  | .classes, none => isTrue trivial
  | .subclasses _, none => isTrue trivial
  | .itemsOfClass _, _ => isTrue trivial
  | .itemsOfSubclass _ _, _ => isTrue trivial

instance (table : List TblItem) (b : Browsing) : (e : MenuEvent) → Decidable (OpensOwn table b e)
  | .back => isTrue trivial
  | .tap row => inferInstanceAs (Decidable (OpensOwnName _ _ _ b.screen.currentMenuItems[row]?))

/-- What holds at every point of a run that keeps the rules. -/
structure MenuInvariant (db : DatabaseAccess) (table : List TblItem) (b : Browsing) : Prop where
  atPath : AtPath db b.path b.screen
  openedClass : ∀ c ∈ b.path.openedClass, b.screen.classNameForDatabase = some c ∧
    Unquoted c ∧ ∃ r ∈ table, asRead r.className = c
  openedSubclass : ∀ s ∈ b.path.openedSubclass, b.screen.subclassNameForDatabase = some s
  remembered : ∀ s ∈ b.screen.subclassNameForDatabase,
    Unquoted s ∧ ∃ r ∈ table, asRead r.subclassName = s
  orderable : ItemsOrderable db table b

/-- A table without quotes. An id that a float does not hold is that of one row only, by
class, subclass and name. -/
structure Readable (table : List TblItem) : Prop where
  unquoted : ∀ r ∈ table, Unquoted r.className ∧ Unquoted r.subclassName ∧ Unquoted r.name
  ids : ∀ r ∈ table, ∀ r' ∈ table, r.className = r'.className → r.subclassName = r'.subclassName →
    r.name = r'.name → floatValue (toString r.itemId) = (r.itemId : ℚ) ∨ r.itemId = r'.itemId

/-- A float holds all ids of at most 24 binary digits. -/
theorem readable_of_small {table : List TblItem}
    (unquoted : ∀ r ∈ table, Unquoted r.className ∧ Unquoted r.subclassName ∧ Unquoted r.name)
    (small : ∀ r ∈ table, |r.itemId| < 2 ^ 24) : Readable table :=
  ⟨unquoted, fun r hr _ _ _ _ _ => .inl (floatValue_toString (small r hr))⟩

section Browsing

variable {db : DatabaseAccess} {table : List TblItem} {b b' : Browsing} {row : Nat} {name : String}

theorem menuInvariant_init (db : DatabaseAccess) (table : List TblItem)
    (tableNumber : Option Int32) : MenuInvariant db table (.init db tableNumber) where
  atPath := atPath_init db tableNumber
  openedClass := fun _ hc => by cases hc
  openedSubclass := fun _ hs => by cases hs
  remembered := fun _ hs => by cases hs
  orderable := fun hitems => by cases hitems

/-- A tap on a shown name. -/
theorem menuStep_tap (db : DatabaseAccess) (hname : b.screen.currentMenuItems[row]? = some name) :
    menuStep db b (.tap row) =
      (b.screen.handleName db name).map fun screen => ⟨screen, b.path.tap db name⟩ := by
  have hcell : objectAtIndex b.screen.currentMenuItems row = .ok name :=
    objectAtIndex_eq_ok.mpr hname
  rw [menuStep, hcell, ok_bind, QuickServe.handleOneTap, Option.getD_some, hcell, ok_bind]
  cases b.screen.handleName db name <;> rfl

theorem objectAtIndex_of_menuStep_tap (h : menuStep db b (.tap row) = .ok b') :
    ∃ name, b.screen.currentMenuItems[row]? = some name := by
  obtain ⟨name, hname, -⟩ := bind_eq_ok.mp h
  exact ⟨name, objectAtIndex_eq_ok.mp hname⟩

theorem MenuInvariant.opened (h : MenuInvariant db table b) {c : String}
    (hc : c ∈ b.path.openedClass) : Opened table c b.screen.subclassNameForDatabase where
  className_shown := (h.openedClass c hc).2.2
  className_unquoted := (h.openedClass c hc).2.1
  subclassName_shown := fun s hs => (h.remembered s hs).2
  subclassName_unquoted := fun s hs => (h.remembered s hs).1

section Shown

variable {c : String} (serves : ServesItems db table)
  (opened : Opened table c b.screen.subclassNameForDatabase)
  (hitems : b.screen.isActualItems = true) (hclass : b.screen.classNameForDatabase = some c)
  (hopened : b.path.openedClass = some c)
  (hsub : ∀ s ∈ b.path.openedSubclass, b.screen.subclassNameForDatabase = some s)
  (names : ∀ name ∈ b.screen.currentMenuItems, ∃ r ∈ table, asRead r.name = name)

include serves opened hclass hopened hsub names

/-- Names that are found can be ordered. -/
theorem itemsOrderable_of_found (found : ∀ name ∈ b.screen.currentMenuItems,
    Found table c b.screen.subclassNameForDatabase name) : ItemsOrderable db table b := by
  intro _ name hname
  obtain ⟨plain, some_row, reads⟩ := found name hname
  obtain ⟨row, hrow, hmatches, hid⟩ :=
    (itemIdWhereClassIs_spec serves opened (names name hname) plain).2 some_row
  obtain ⟨r, hr, ⟨hrclass, hrsub, hrname⟩, heq⟩ := reads row hrow hmatches
  refine ⟨r, hr, by rw [hclass, hid, heq], hrname, ?_, fun s hs => hrsub s (hsub s hs)⟩
  intro c' hc'
  rw [hopened] at hc'
  exact hrclass.trans (Option.some.inj hc')

include hitems

/-- Of a readable table, if the rows found for a name have one subclass, names that can be
ordered are found. -/
theorem found_of_itemsOrderable (readable : Readable table)
    (same : ∀ r ∈ table, ∀ r' ∈ table, r.className = c →
      (∀ s ∈ b.path.openedSubclass, r.subclassName = s) →
      r'.className = c → (∀ s ∈ b.screen.subclassNameForDatabase, r'.subclassName = s) →
      r.subclassName = r'.subclassName)
    (orderable : ItemsOrderable db table b) : ∀ name ∈ b.screen.currentMenuItems,
      Found table c b.screen.subclassNameForDatabase name := by
  intro name hname
  have plain : Unquoted name := by
    obtain ⟨r, hr, rfl⟩ := names name hname
    exact (readable.unquoted r hr).2.2.asRead
  obtain ⟨hnone, hsome⟩ := itemIdWhereClassIs_spec serves opened (names name hname) plain
  obtain ⟨r, hr, hlookup, hrname, hrclass, hrsub⟩ := orderable hitems name hname
  rw [hclass] at hlookup
  have some_row : ∃ r ∈ table, r.Matches c b.screen.subclassNameForDatabase name := by
    by_contra nothing
    rw [hnone nothing] at hlookup
    cases hlookup
  obtain ⟨first, hfirst, ⟨hfclass, hfsub, hfname⟩, hid⟩ := hsome some_row
  rw [hid, Option.some_inj] at hlookup
  have hrc : r.className = c := hrclass c hopened
  have hrmatches : r.Matches c b.screen.subclassNameForDatabase name :=
    ⟨hrc, fun s hs => (same r hr first hfirst hrc hrsub hfclass hfsub).trans (hfsub s hs), hrname⟩
  refine ⟨plain, some_row, fun row hrow hmatches => ?_⟩
  obtain ⟨hrowc, hrowsub, hrown⟩ := hmatches
  have hsubclass : row.subclassName = first.subclassName :=
    same row hrow first hfirst hrowc (fun s hs => hrowsub s (hsub s hs)) hfclass hfsub
  rcases readable.ids row hrow first hfirst (hrowc.trans hfclass.symm) hsubclass
    (hrown.trans hfname.symm) with held | one
  · exact ⟨row, hrow, ⟨hrowc, hrowsub, hrown⟩, held⟩
  · exact ⟨r, hr, hrmatches, one ▸ hlookup⟩

end Shown

/-- All rows of a class with one subclass have that subclass. -/
theorem subclassName_eq_of_one {c : String}
    (one : (distinct table (·.className = c) (·.subclassName)).length = 1) {r r' : TblItem}
    (hr : r ∈ table) (hrc : r.className = c) (hr' : r' ∈ table) (hrc' : r'.className = c) :
    r.subclassName = r'.subclassName := by
  obtain ⟨a, ha⟩ := List.length_eq_one_iff.mp one
  have only : ∀ row ∈ table, row.className = c → row.subclassName = a := by
    intro row hrow hrowc
    have hmem : row.subclassName ∈ distinct table (·.className = c) (·.subclassName) :=
      mem_distinct.mpr ⟨row, hrow, decide_eq_true hrowc, rfl⟩
    rw [ha] at hmem
    exact List.mem_singleton.mp hmem
  rw [only r hr hrc, only r' hr' hrc']

theorem found_congr {c name : String} {sub sub' : Option String}
    (same : ∀ r ∈ table, (r.Matches c sub name ↔ r.Matches c sub' name)) :
    Found table c sub name ↔ Found table c sub' name := by
  unfold Found
  grind

/-- In a class with one subclass names are found exactly when no other subclass is
remembered, and they are found in the class. -/
theorem found_itemsOfClass_iff {c : String} {remembered : Option String}
    (one : (distinct table (·.className = c) (·.subclassName)).length = 1) :
    (∀ r ∈ table, r.className = c → Found table c remembered (asRead r.name)) ↔
      (∀ s ∈ remembered, ∀ r ∈ table, r.className = c → r.subclassName = s) ∧
        ∀ r ∈ table, r.className = c → Found table c none (asRead r.name) := by
  have congr (own : ∀ s ∈ remembered, ∀ r ∈ table, r.className = c → r.subclassName = s)
      (name : String) : Found table c remembered name ↔ Found table c none name := by
    refine found_congr fun r hr => ⟨fun h => ⟨h.1, nofun, h.2.2⟩, fun h => ⟨h.1, ?_, h.2.2⟩⟩
    exact fun s hs => own s hs r hr h.1
  constructor
  · intro found
    have own : ∀ s ∈ remembered, ∀ r ∈ table, r.className = c → r.subclassName = s := by
      intro s hs r hr hrc
      obtain ⟨-, ⟨r', hr', hrc', hsub, -⟩, -⟩ := found r hr hrc
      rw [subclassName_eq_of_one one hr hrc hr' hrc', hsub s hs]
    exact ⟨own, fun r hr hrc => (congr own _).mp (found r hr hrc)⟩
  · rintro ⟨own, found⟩ r hr hrc
    exact (congr own _).mpr (found r hr hrc)

/-- The rows a tap on a name of the class menu asks for. -/
theorem tap_class (serves : ServesItems db table)
    (h : MenuInvariant db table b) (hpath : b.path = .classes)
    (hname : b.screen.currentMenuItems[row]? = some name) :
    (∃ r ∈ table, asRead r.className = name) ∧ (Unquoted name →
      ((db.subclassWhereClassIs name).length = 1 ↔
        (distinct table (·.className = name) (·.subclassName)).length = 1)) := by
  have hshown : b.screen.currentMenuItems = db.classNames := by
    rw [h.atPath.currentMenuItems, hpath]
    rfl
  have hc := (mem_classNames_iff serves).mp (hshown ▸ List.mem_of_getElem? hname)
  refine ⟨hc, fun plain => ?_⟩
  rw [(subclassWhereClassIs_perm serves hc plain).length_eq, List.length_map]

/-- A tap on the class menu opens the class, and remembers what was remembered. -/
theorem menuStep_class (h : AtPath db .classes b.screen) (hpath : b.path = .classes)
    (hname : b.screen.currentMenuItems[row]? = some name) :
    ∃ b', menuStep db b (.tap row) = .ok b' ∧ b'.path = MenuPath.tap db .classes name ∧
      AtPath db b'.path b'.screen ∧ b'.screen.classNameForDatabase = some name ∧
      b'.screen.subclassNameForDatabase = b.screen.subclassNameForDatabase := by
  have hscreen := handleName_classes h name
  have hstep := menuStep_tap db hname
  rw [hscreen, hpath] at hstep
  exact ⟨_, hstep, rfl, handleName_atPath h hscreen, rfl, rfl⟩

/-- A tap on a subclass opens it, and remembers it. -/
theorem menuStep_subclass {c : String} (h : AtPath db (.subclasses c) b.screen)
    (hpath : b.path = .subclasses c) (hname : b.screen.currentMenuItems[row]? = some name) :
    ∃ b', menuStep db b (.tap row) = .ok b' ∧ b'.path = .itemsOfSubclass c name ∧
      AtPath db b'.path b'.screen ∧
      b'.screen.classNameForDatabase = b.screen.classNameForDatabase ∧
      b'.screen.subclassNameForDatabase = some name := by
  have hscreen := handleName_subclasses h name
  have hstep := menuStep_tap db hname
  rw [hscreen, hpath] at hstep
  exact ⟨_, hstep, rfl, handleName_atPath h hscreen, rfl, rfl⟩

/-- After a tap on the class menu, the items shown can be ordered if the tap kept the first
rule; for a readable table only then. -/
theorem orderable_after_class (serves : ServesItems db table)
    (h : MenuInvariant db table b) (hpath : b.path = .classes)
    (hname : b.screen.currentMenuItems[row]? = some name) (plain : Unquoted name)
    (hpath' : b'.path = MenuPath.tap db .classes name) (hat' : AtPath db b'.path b'.screen)
    (hclass' : b'.screen.classNameForDatabase = some name)
    (hsub' : b'.screen.subclassNameForDatabase = b.screen.subclassNameForDatabase) :
    (OpensOwn table b (.tap row) → ItemsOrderable db table b') ∧
      (Readable table → ItemsOrderable db table b' → OpensOwn table b (.tap row)) := by
  obtain ⟨hc, hone⟩ := tap_class serves h hpath hname
  have hown : OpensOwn table b (.tap row) ↔
      ((distinct table (·.className = name) (·.subclassName)).length = 1 →
        ∀ r ∈ table, r.className = name →
          Found table name b.screen.subclassNameForDatabase (asRead r.name)) := by
    simp only [OpensOwn, OpensOwnName, hpath, hname]
    rw [and_iff_right plain]
    exact forall_congr' fun one => (found_itemsOfClass_iff one).symm
  rw [hown]
  by_cases one : (db.subclassWhereClassIs name).length = 1
  · rw [MenuPath.tap, if_pos one] at hpath'
    have distinct_one := (hone plain).mp one
    have hshown : ∀ n, n ∈ b'.screen.currentMenuItems ↔
        ∃ r ∈ table, r.className = name ∧ asRead r.name = n := by
      intro n
      rw [hat'.currentMenuItems, hpath']
      exact mem_itemsWhereClassIs_iff serves hc plain
    have names : ∀ n ∈ b'.screen.currentMenuItems, ∃ r ∈ table, asRead r.name = n := by
      intro n hn
      obtain ⟨r, hr, -, hrn⟩ := (hshown n).mp hn
      exact ⟨r, hr, hrn⟩
    have opened : Opened table name b'.screen.subclassNameForDatabase := by
      rw [hsub']
      exact ⟨hc, plain, fun s hs => (h.remembered s hs).2, fun s hs => (h.remembered s hs).1⟩
    have hopened : b'.path.openedClass = some name := by rw [hpath']; rfl
    have noSubclass : ∀ s ∈ b'.path.openedSubclass, b'.screen.subclassNameForDatabase = some s := by
      intro s hs
      rw [hpath'] at hs
      cases hs
    have hitems : b'.screen.isActualItems = true := hat'.isActualItems.trans (by rw [hpath']; rfl)
    constructor
    · intro own
      apply itemsOrderable_of_found serves opened hclass' hopened noSubclass names
      intro n hn
      obtain ⟨r, hr, hrc, rfl⟩ := (hshown n).mp hn
      rw [hsub']
      exact own distinct_one r hr hrc
    · intro readable orderable _ r hr hrc
      have found := found_of_itemsOrderable serves opened hitems hclass' hopened noSubclass names
        readable (fun r hr r' hr' hrc _ hrc' _ =>
          subclassName_eq_of_one distinct_one hr hrc hr' hrc') orderable
      rw [← hsub']
      exact found _ ((hshown _).mpr ⟨r, hr, hrc, rfl⟩)
  · rw [MenuPath.tap, if_neg one] at hpath'
    refine ⟨fun _ hitems => ?_, fun _ _ one' => absurd ((hone plain).mpr one') one⟩
    rw [hat'.isActualItems, hpath'] at hitems
    cases hitems

/-- After a tap on a subclass, the items shown can be ordered if the tap kept the second
rule; for a readable table only then. -/
theorem orderable_after_subclass (serves : ServesItems db table) {c : String}
    (hc : ∃ r ∈ table, asRead r.className = c) (classPlain : Unquoted c)
    (hpath : b.path = .subclasses c)
    (hname : b.screen.currentMenuItems[row]? = some name) (plain : Unquoted name)
    (hsub : ∃ r ∈ table, asRead r.subclassName = name)
    (hpath' : b'.path = .itemsOfSubclass c name) (hat' : AtPath db b'.path b'.screen)
    (hclass' : b'.screen.classNameForDatabase = some c)
    (hsub' : b'.screen.subclassNameForDatabase = some name) :
    (OpensOwn table b (.tap row) → ItemsOrderable db table b') ∧
      (Readable table → ItemsOrderable db table b' → OpensOwn table b (.tap row)) := by
  have hown : OpensOwn table b (.tap row) ↔ ∀ r ∈ table, r.subclassName = name →
      Found table c (some name) (asRead r.name) := by
    simp only [OpensOwn, OpensOwnName, hpath, hname]
    exact and_iff_right plain
  have hshown : ∀ n, n ∈ b'.screen.currentMenuItems ↔
      ∃ r ∈ table, r.subclassName = name ∧ asRead r.name = n := by
    intro n
    rw [hat'.currentMenuItems, hpath']
    exact mem_itemsWhereSubclassIs_iff serves hsub plain
  have names : ∀ n ∈ b'.screen.currentMenuItems, ∃ r ∈ table, asRead r.name = n := by
    intro n hn
    obtain ⟨r, hr, -, hrn⟩ := (hshown n).mp hn
    exact ⟨r, hr, hrn⟩
  have opened : Opened table c b'.screen.subclassNameForDatabase := by
    rw [hsub']
    refine ⟨hc, classPlain, ?_, ?_⟩
    · rintro s ⟨⟩
      exact hsub
    · rintro s ⟨⟩
      exact plain
  have hopened : b'.path.openedClass = some c := by rw [hpath']; rfl
  have openedSub : ∀ s ∈ b'.path.openedSubclass, b'.screen.subclassNameForDatabase = some s := by
    intro s hs
    rw [hpath'] at hs
    exact hsub'.trans hs
  have hitems : b'.screen.isActualItems = true := hat'.isActualItems.trans (by rw [hpath']; rfl)
  rw [hown]
  constructor
  · intro own
    apply itemsOrderable_of_found serves opened hclass' hopened openedSub names
    intro n hn
    obtain ⟨r, hr, hrs, rfl⟩ := (hshown n).mp hn
    rw [hsub']
    exact own r hr hrs
  · intro readable orderable r hr hrs
    have same : ∀ r ∈ table, ∀ r' ∈ table, r.className = c →
        (∀ s ∈ b'.path.openedSubclass, r.subclassName = s) → r'.className = c →
        (∀ s ∈ b'.screen.subclassNameForDatabase, r'.subclassName = s) →
        r.subclassName = r'.subclassName := by
      intro r _ r' _ _ hrs _ hrs'
      rw [hrs name (by rw [hpath']; rfl), hrs' name hsub']
    have found := found_of_itemsOrderable serves opened hitems hclass' hopened openedSub names
      readable same orderable
    rw [← hsub']
    exact found _ ((hshown _).mpr ⟨r, hr, hrs, rfl⟩)

/-- A tap that opens a name completes. If it keeps the rules, the invariant holds again; for
a readable table it leads to items that can be ordered only then. -/
theorem menuStep_open (serves : ServesItems db table)
    (h : MenuInvariant db table b) (hlevel : b.path.isActualItems = false)
    (hname : b.screen.currentMenuItems[row]? = some name) :
    ∃ b', menuStep db b (.tap row) = .ok b' ∧
      (OpensOwn table b (.tap row) → MenuInvariant db table b') ∧
      (Readable table → ItemsOrderable db table b' → OpensOwn table b (.tap row)) := by
  have hat := h.atPath
  cases hpath : b.path with
  | classes =>
    rw [hpath] at hat
    obtain ⟨b', hstep, hpath', hat', hclass', hsub'⟩ := menuStep_class hat hpath hname
    obtain ⟨hc, -⟩ := tap_class serves h hpath hname
    refine ⟨b', hstep, fun own => ?_, fun readable orderable => ?_⟩
    · have plain : Unquoted name := by
        simp only [OpensOwn, OpensOwnName, hpath, hname] at own
        exact own.1
      have orderable := (orderable_after_class serves h hpath hname plain hpath' hat' hclass' hsub').1
      refine ⟨hat', ?_, ?_, hsub' ▸ h.remembered, orderable own⟩
      · intro c hopened
        rw [hpath', MenuPath.tap] at hopened
        split at hopened
        · exact Option.some.inj hopened ▸ ⟨hclass', plain, hc⟩
        · exact Option.some.inj hopened ▸ ⟨hclass', plain, hc⟩
      · intro s hopened
        rw [hpath', MenuPath.tap] at hopened
        split at hopened <;> cases hopened
    · have plain : Unquoted name := by
        obtain ⟨r, hr, rfl⟩ := hc
        exact (readable.unquoted r hr).1.asRead
      exact (orderable_after_class serves h hpath hname plain hpath' hat' hclass' hsub').2
        readable orderable
  | subclasses c =>
    obtain ⟨hclass, classPlain, hc⟩ := h.openedClass c (by rw [hpath]; rfl)
    have hsub : ∃ r ∈ table, asRead r.subclassName = name := by
      have hmem := List.mem_of_getElem? hname
      rw [hat.currentMenuItems, hpath] at hmem
      obtain ⟨sub, hsub, rfl⟩ :=
        List.mem_map.mp ((subclassWhereClassIs_perm serves hc classPlain).subset hmem)
      obtain ⟨r, hr, -, rfl⟩ := mem_distinct.mp hsub
      exact ⟨r, hr, rfl⟩
    rw [hpath] at hat
    obtain ⟨b', hstep, hpath', hat', hclass', hsub'⟩ := menuStep_subclass hat hpath hname
    rw [hclass] at hclass'
    refine ⟨b', hstep, fun own => ?_, fun readable orderable => ?_⟩
    · have plain : Unquoted name := by
        simp only [OpensOwn, OpensOwnName, hpath, hname] at own
        exact own.1
      have orderable := (orderable_after_subclass serves hc classPlain hpath hname plain hsub hpath'
        hat' hclass' hsub').1
      refine ⟨hat', ?_, ?_, ?_, orderable own⟩
      · intro c' hopened
        rw [hpath'] at hopened
        exact Option.some.inj hopened ▸ ⟨hclass', classPlain, hc⟩
      · intro s hopened
        rw [hpath'] at hopened
        exact hsub'.trans hopened
      · intro s hs
        rw [hsub'] at hs
        exact Option.some.inj hs ▸ ⟨plain, hsub⟩
    · have plain : Unquoted name := by
        obtain ⟨r, hr, rfl⟩ := hsub
        exact (readable.unquoted r hr).2.1.asRead
      exact (orderable_after_subclass serves hc classPlain hpath hname plain hsub hpath' hat' hclass'
        hsub').2 readable orderable
  | itemsOfClass c => rw [hpath] at hlevel; cases hlevel
  | itemsOfSubclass c s => rw [hpath] at hlevel; cases hlevel

/-- A tap on an item leaves the menu and the context as they are. -/
theorem menuStep_item (h : MenuInvariant db table b) (hlevel : b.path.isActualItems = true)
    (hstep : menuStep db b (.tap row) = .ok b') : MenuInvariant db table b' := by
  obtain ⟨name, hname⟩ := objectAtIndex_of_menuStep_tap hstep
  rw [menuStep_tap db hname, handleName_items h.atPath hlevel] at hstep
  have hpath : b.path.tap db name = b.path := by
    cases hp : b.path with
    | classes => rw [hp] at hlevel; cases hlevel
    | subclasses c => rw [hp] at hlevel; cases hlevel
    | itemsOfClass c => rfl
    | itemsOfSubclass c s => rfl
  rw [hpath] at hstep
  cases hadd : QuickServe.addAnOrder db { b.screen with
      nameOfSelected := some name
      selectedItemId := db.itemIdWhereClassIs b.screen.classNameForDatabase
        b.screen.subclassNameForDatabase name } with
  | error e => rw [hadd] at hstep; cases hstep
  | ok screen =>
    rw [hadd] at hstep
    obtain ⟨_, _, _, rfl⟩ := addAnOrder_frame hadd
    cases hstep
    obtain ⟨⟨hmenu, hsub, hitems, hstacks⟩, hopened, hopenedSub, hremembered, horderable⟩ := h
    exact ⟨⟨hmenu, hsub, hitems, hstacks⟩, hopened, hopenedSub, hremembered, horderable⟩

/-- Back never leads to items. -/
theorem menuStep_back (h : MenuInvariant db table b) :
    MenuInvariant db table ⟨b.screen.flipBackMenuItems, b.path.back⟩ := by
  have hat := flipBackMenuItems_atPath h.atPath
  obtain ⟨hclass, hsub⟩ := flipBackMenuItems_context (s := b.screen)
  refine ⟨hat, ?_, ?_, hsub ▸ h.remembered, ?_⟩
  · intro c hopened
    rw [hclass]
    refine h.openedClass c ?_
    cases hpath : b.path with
    | itemsOfSubclass c' s => rw [hpath] at hopened; exact hopened
    | classes => rw [hpath] at hopened; cases hopened
    | subclasses c' => rw [hpath] at hopened; cases hopened
    | itemsOfClass c' => rw [hpath] at hopened; cases hopened
  · intro s hopened
    cases hpath : b.path <;> rw [hpath] at hopened <;> cases hopened
  · intro hitems
    rw [hat.isActualItems] at hitems
    cases hpath : b.path <;> rw [hpath] at hitems <;> cases hitems

/-- An event that keeps the rules keeps the invariant. -/
theorem menuStep_keeps (serves : ServesItems db table) (h : MenuInvariant db table b)
    {e : MenuEvent} (own : OpensOwn table b e) (hstep : menuStep db b e = .ok b') :
    MenuInvariant db table b' := by
  cases e with
  | back => cases hstep; exact menuStep_back h
  | tap row =>
    cases hlevel : b.path.isActualItems with
    | true => exact menuStep_item h hlevel hstep
    | false =>
      obtain ⟨name, hname⟩ := objectAtIndex_of_menuStep_tap hstep
      obtain ⟨b'', hstep', keeps, -⟩ := menuStep_open serves h hlevel hname
      obtain rfl : b' = b'' := by rw [hstep] at hstep'; exact Except.ok.inj hstep'
      exact keeps own

/-- For a readable table, an event that breaks the rules shows items that cannot be ordered. -/
theorem menuStep_breaks (serves : ServesItems db table) (readable : Readable table)
    (h : MenuInvariant db table b) {e : MenuEvent} (broken : ¬ OpensOwn table b e) :
    ∃ b', menuStep db b e = .ok b' ∧ ¬ ItemsOrderable db table b' := by
  cases e with
  | back => exact absurd trivial broken
  | tap row =>
    cases hlevel : b.path.isActualItems with
    | true =>
      refine absurd ?_ broken
      cases hpath : b.path with
      | classes => rw [hpath] at hlevel; cases hlevel
      | subclasses c => rw [hpath] at hlevel; cases hlevel
      | itemsOfClass c => rw [OpensOwn, hpath]; trivial
      | itemsOfSubclass c s => rw [OpensOwn, hpath]; trivial
    | false =>
      cases hname : b.screen.currentMenuItems[row]? with
      | none =>
        refine absurd ?_ broken
        rw [OpensOwn, hname]
        cases b.path <;> trivial
      | some name =>
        obtain ⟨b', hstep, -, only⟩ := menuStep_open serves h hlevel hname
        exact ⟨b', hstep, fun orderable => broken (only readable orderable)⟩

/-- **Main result.** For every table, along every run from the class menu: all items shown can
be ordered, at every point, if every event keeps the two rules. For a readable table they
can be ordered exactly then. -/
theorem items_orderable_iff (db : DatabaseAccess) (table : List TblItem)
    (serves : ServesItems db table) (tableNumber : Option Int32) (es : List MenuEvent) :
    (EachStep (menuStep db) (OpensOwn table) (.init db tableNumber) es →
      Always (menuStep db) (ItemsOrderable db table) (.init db tableNumber) es) ∧
    (Readable table →
      Always (menuStep db) (ItemsOrderable db table) (.init db tableNumber) es →
      EachStep (menuStep db) (OpensOwn table) (.init db tableNumber) es) := by
  have start := menuInvariant_init db table tableNumber
  have good : ∀ b, MenuInvariant db table b → ItemsOrderable db table b := fun b h => h.orderable
  constructor
  · apply always_of_eachStep _ good start
    exact fun b e b' h own hstep => menuStep_keeps serves h own hstep
  · intro readable
    apply (always_iff_eachStep good _ _ start).mp
    · exact fun b e b' h own hstep => menuStep_keeps serves h own hstep
    · exact fun b e h broken => menuStep_breaks serves readable h broken

end Browsing

/-! ### A menu on which a subclass is remembered too long -/

/-- A server that knows the queries about the names of a table, as they are read. -/
def itemServer (table : List TblItem) : DatabaseAccess :=
  let answers : List (String × List String) :=
    (DatabaseAccess.classNamesQuery, distinct table (fun _ => true) (·.className)) ::
      table.flatMap fun r =>
        let c := asRead r.className
        let s := asRead r.subclassName
        (DatabaseAccess.subclassQuery c, distinct table (·.className = c) (·.subclassName)) ::
        (DatabaseAccess.itemsOfClassQuery c, distinct table (·.className = c) (·.name)) ::
        (DatabaseAccess.itemsOfSubclassQuery s, distinct table (·.subclassName = s) (·.name)) ::
        (none :: table.map (some <| asRead ·.subclassName)).flatMap fun sub =>
          table.map fun item => (DatabaseAccess.itemIdQuery (some c) sub (asRead item.name),
            (table.filter fun row => row.Matches c sub (asRead item.name)).map
              fun row => toString row.itemId)
  ⟨⟨fun q => (answers.find? (·.1 = q.text)).map fun a => a.2.map fun v _ => some v⟩⟩

/-- The id of the tea is too large for the whole numbers of a float; a float holds it. -/
def largeMenu : List TblItem :=
  [⟨1, "FOOD", "ROLLS", "Dragon"⟩, ⟨2, "FOOD", "SOUPS", "Miso"⟩, ⟨16777218, "TEA", "HOT", "Green"⟩]

theorem servesItems_largeMenu : ServesItems (itemServer largeMenu) largeMenu :=
  ⟨by decide +kernel, by decide +kernel, by decide +kernel, by decide +kernel,
    by decide +kernel⟩

/-- A class with one subclass is opened first; then the subclasses of another. -/
def ownNames : List MenuEvent := [.tap 1, .tap 0, .back, .tap 0, .tap 0, .tap 0, .back, .tap 1]

theorem items_orderable_ownNames :
    Always (menuStep (itemServer largeMenu)) (ItemsOrderable (itemServer largeMenu) largeMenu)
        (.init (itemServer largeMenu) none) ownNames ∧
      EachStep (menuStep (itemServer largeMenu)) (OpensOwn largeMenu)
        (.init (itemServer largeMenu) none) ownNames := by
  obtain ⟨orderable, only⟩ :=
    items_orderable_iff (itemServer largeMenu) largeMenu servesItems_largeMenu none ownNames
  have always := orderable (by decide +kernel)
  exact ⟨always, only ⟨by decide +kernel, by decide +kernel⟩ always⟩

def smallMenu : List TblItem :=
  [⟨1, "FOOD", "ROLLS", "Dragon"⟩, ⟨2, "FOOD", "SOUPS", "Miso"⟩, ⟨3, "TEA", "HOT", "Green"⟩]

theorem servesItems_smallMenu : ServesItems (itemServer smallMenu) smallMenu :=
  ⟨by decide +kernel, by decide +kernel, by decide +kernel, by decide +kernel,
    by decide +kernel⟩

/-- The rolls are opened and left; then the tea, whose lookup asks for rolls. -/
def rollsThenTea : List MenuEvent := [.tap 0, .tap 0, .back, .back, .tap 1]

theorem items_not_orderable :
    ServesItems (itemServer smallMenu) smallMenu ∧
      ¬ Always (menuStep (itemServer smallMenu)) (ItemsOrderable (itemServer smallMenu) smallMenu)
        (.init (itemServer smallMenu) none) rollsThenTea :=
  ⟨servesItems_smallMenu, by decide +kernel⟩

end PointIPad
