import PointIPad.DatabaseAccess
import PointIPad.Lib.Runs

/-!
Record sets, with everything they keep.

A record set moves a current record over the rows of an answer. Behind either end
there is no current record, and from there the next one is the first again. The end
of the rows is remembered until the first or the last record is asked for. The last
record is the one behind the last row: libpq takes its fields to be NULL.

**Main result** (`forEachRow_refines`). A loop of the app over a record set does what
it does over the rows.
-/

namespace PointIPad

variable {n : Nat}

/-! ### Answers -/

structure PGSQLColumn where
  name : String
  index : Nat
  type : Nat
deriving DecidableEq, Repr

/-- An answer as libpq keeps it: names and types of the columns, and the tuples. Values are
texts here, as the app reads them; a `Libpq.PGresult` has them in bytes, as they come. -/
structure PGresult (n : Nat) where
  attributes : Fin n → String × Nat
  tuples : List (PGSQLRow n)

def PQntuples : Option (PGresult n) → Nat
  | some res => res.tuples.length
  | none => 0

def checkTupleFieldNumber (res : Option (PGresult n)) (tup_num field_num : Int) : Bool :=
  res.isSome && decide (0 ≤ tup_num) && decide (tup_num < PQntuples res) &&
    decide (0 ≤ field_num) && decide (field_num < n)

/-- What is in a field, if there is one: `none` for NULL. -/
def field? (res : Option (PGresult n)) (tup_num field_num : Int) : Option (Option String) :=
  (res.bind fun res => res.tuples[tup_num.toNat]?).bind fun row =>
    if h : field_num.toNat < n then some (row ⟨field_num.toNat, h⟩) else none

/-- The value of NULL is empty; there is none outside the tuples and the columns. -/
def PQgetvalue (res : Option (PGresult n)) (tup_num field_num : Int) : Option String :=
  if !checkTupleFieldNumber res tup_num field_num then none
  else (field? res tup_num field_num).map fun value => value.getD ""

/-- What is outside is taken to be NULL. -/
def PQgetisnull (res : Option (PGresult n)) (tup_num field_num : Int) : Bool :=
  if !checkTupleFieldNumber res tup_num field_num then true
  else (field? res tup_num field_num).join.isNone

/-- The text of a field, if it is there and not NULL. -/
def fieldText (res : Option (PGresult n)) (tup_num field_num : Int) : Option String :=
  if PQgetisnull res tup_num field_num then none else PQgetvalue res tup_num field_num

/-- The index of a column that is `nil` is 0. -/
def PGSQLField.initWithResult (res : Option (PGresult n)) (forColumn : Option PGSQLColumn)
    (atRow : Int) : PGSQLField :=
  ⟨fieldText res atRow (forColumn.elim 0 PGSQLColumn.index : Nat)⟩

/-! ### Record sets -/

/-- A record set. The current record is known by its row number. -/
structure Recordset (n : Nat) where
  pgResult : Option (PGresult n)
  columns : Option (List PGSQLColumn)
  rowCount : Nat
  currentRecord : Option Int
  isOpen : Bool
  isEOF : Bool
  defaultEncoding : NSStringEncoding

namespace Recordset

def setCurrentRecordWithRowIndex (c : Recordset n) (rowIndex : Int) : Recordset n :=
  { c with currentRecord := some rowIndex }

/-- The row of the current record, -1 if there is none. -/
def currentRowIndex (c : Recordset n) : Int := c.currentRecord.getD (-1)

def moveNext (c : Recordset n) : Recordset n :=
  if c.rowCount = 0 then c
  else if c.currentRowIndex + 1 ≥ c.rowCount then { c with isEOF := true, currentRecord := none }
  else c.setCurrentRecordWithRowIndex (c.currentRowIndex + 1)

def moveFirst (c : Recordset n) : Recordset n :=
  if c.rowCount = 0 then c
  else { c with isEOF := false }.setCurrentRecordWithRowIndex 0

def movePrevious (c : Recordset n) : Recordset n :=
  if c.rowCount = 0 then c
  else if c.currentRowIndex - 1 < 0 then { c with isEOF := true, currentRecord := none }
  else c.setCurrentRecordWithRowIndex (c.currentRowIndex - 1)

/-- The row index is the number of rows. -/
def moveLast (c : Recordset n) : Recordset n :=
  if c.rowCount = 0 then c
  else { c with isEOF := false }.setCurrentRecordWithRowIndex c.rowCount

/-- The count of rows stays. -/
def close (c : Recordset n) : Recordset n :=
  let c := if c.isOpen then { c with columns := none, pgResult := none } else c
  { c with currentRecord := none, isOpen := false }

def columnsOf (res : PGresult n) : List PGSQLColumn :=
  List.ofFn fun i => ⟨(res.attributes i).1, i, (res.attributes i).2⟩

/-- `initWithResult:`, and the encoding that the connection sets. -/
def initWithResult (res : PGresult n) (encoding : NSStringEncoding) : Recordset n :=
  let c : Recordset n := {
    pgResult := some res
    columns := some (columnsOf res)
    rowCount := PQntuples (some res)
    currentRecord := none
    isOpen := true
    isEOF := true
    defaultEncoding := encoding }
  if c.rowCount = 0 then c else { c with isEOF := false }.moveFirst

/-- A field of the current record. Once the set is closed, there are no columns to look in. -/
def fieldByIndex (c : Recordset n) (fieldIndex : Nat) : Except NSException (Option PGSQLField) :=
  match c.currentRecord, c.columns with
  | none, _ => .ok none
  | some rowNumber, none => .ok (some (.initWithResult c.pgResult none rowNumber))
  | some rowNumber, some columns => do
    let column ← objectAtIndex columns fieldIndex
    .ok (some (.initWithResult c.pgResult (some column) rowNumber))

/-- The first column with the name, in any case. -/
def fieldByName (caseFold : String → String) (c : Recordset n) (fieldName : String) :
    Option PGSQLField :=
  c.currentRecord.map fun rowNumber => .initWithResult c.pgResult
    ((c.columns.getD []).find? fun column => caseFold column.name = caseFold fieldName) rowNumber

/-- The type of `boolean` columns. -/
def BOOL : Nat := 16

def addColumnValue (caseFold : String → String) (c : Recordset n)
    (dict : NSMutableDictionary String String) (column : PGSQLColumn) :
    NSMutableDictionary String String :=
  let field := c.fieldByName caseFold column.name
  if column.type = BOOL then
    dict.insert column.name (if (field.map PGSQLField.asBoolean).getD false then "true" else "false")
  else
    -- a value that is `nil` removes its key
    match field.map (PGSQLField.asString c.defaultEncoding) with
    | some text => dict.insert column.name text
    | none => dict.erase column.name

def dictionaryFromRecord (caseFold : String → String) (c : Recordset n) :
    NSMutableDictionary String String :=
  (c.columns.getD []).foldl (c.addColumnValue caseFold) ∅

/-! ### Fields -/

section Fields

variable {c : Recordset n} {res : PGresult n}

/-- A field that is NULL has no text, nor has one that is not there. -/
theorem fieldText_eq (res : Option (PGresult n)) (tup_num field_num : Int) :
    fieldText res tup_num field_num =
      if checkTupleFieldNumber res tup_num field_num then (field? res tup_num field_num).join
      else none := by
  rw [fieldText, PQgetisnull, PQgetvalue]
  cases checkTupleFieldNumber res tup_num field_num with
  | false => rfl
  | true => rcases field? res tup_num field_num with _ | _ | text <;> rfl

theorem fieldText_tuple {tup : Nat} {row : PGSQLRow n} (h : res.tuples[tup]? = some row)
    (i : Fin n) : fieldText (some res) tup (i : Nat) = row i := by
  obtain ⟨hlt, -⟩ := List.getElem?_eq_some_iff.mp h
  have inside : checkTupleFieldNumber (some res) tup (i : Nat) = true := by
    simp [checkTupleFieldNumber, PQntuples, hlt]
  have there : field? (some res) tup (i : Nat) = some (row i) := by
    rw [field?, Option.bind_some, Int.toNat_natCast, h]
    exact dif_pos i.isLt
  rw [fieldText_eq, if_pos inside, there, Option.join_some]

/-- There is nothing behind the last tuple. -/
theorem fieldText_behind {tup : Nat} (h : res.tuples.length ≤ tup) (field : Nat) :
    fieldText (some res) tup field = none := by
  have outside : checkTupleFieldNumber (some res) tup field = false := by
    simp [checkTupleFieldNumber, PQntuples, Nat.not_lt.mpr h]
  rw [fieldText_eq, outside, if_neg Bool.false_ne_true]

/-- A field of the current record of a set that is open. -/
theorem fieldByIndex_open {rowNumber : Int} (hcolumns : c.columns = some (columnsOf res))
    (hrecord : c.currentRecord = some rowNumber) {i : Nat} (hi : i < n) :
    c.fieldByIndex i = .ok (some ⟨fieldText c.pgResult rowNumber i⟩) := by
  have hcolumn : objectAtIndex (columnsOf res) i =
      .ok ⟨(res.attributes ⟨i, hi⟩).1, i, (res.attributes ⟨i, hi⟩).2⟩ := by
    simp [objectAtIndex, columnsOf, hi]
  rw [fieldByIndex, hrecord, hcolumns]
  dsimp only
  rw [hcolumn]
  rfl

theorem fieldByIndex_outside {rowNumber : Int} (hcolumns : c.columns = some (columnsOf res))
    (hrecord : c.currentRecord = some rowNumber) {i : Nat} (hi : n ≤ i) :
    c.fieldByIndex i = .error .rangeException := by
  have hcolumn : objectAtIndex (columnsOf res) i = .error .rangeException := by
    simp [objectAtIndex, columnsOf, Nat.not_lt.mpr hi]
  rw [fieldByIndex, hrecord, hcolumns]
  dsimp only
  rw [hcolumn]
  rfl

end Fields

/-! ### Loops -/

/-- What a loop of the app sees of the current record. -/
abbrev Fields := Nat → Except NSException (Option PGSQLField)

/-- The loop `for (i = 0; i < rowCount; i++) { ...; [rs moveNext]; }`, with the set it leaves. -/
def forEachRow {α : Type} (body : Fields → NSStringEncoding → α → Except NSException α) :
    Nat → Recordset n → α → Except NSException (Recordset n × α)
  | 0, c, a => .ok (c, a)
  | remaining + 1, c, a => do
    let a ← body c.fieldByIndex c.defaultEncoding a
    forEachRow body remaining c.moveNext a

/-- A set that is open, with its current record and whether the end has been reached. -/
def placed (res : PGresult n) (encoding : NSStringEncoding) (currentRecord : Option Int)
    (isEOF : Bool) : Recordset n where
  pgResult := some res
  columns := some (columnsOf res)
  rowCount := res.tuples.length
  currentRecord := currentRecord
  isOpen := true
  isEOF := isEOF
  defaultEncoding := encoding

@[simp] theorem placed_defaultEncoding (res : PGresult n) (encoding : NSStringEncoding)
    (currentRecord : Option Int) (isEOF : Bool) :
    (placed res encoding currentRecord isEOF).defaultEncoding = encoding := rfl

section Loops

variable {res : PGresult n} {encoding : NSStringEncoding} {record : Option Int} {isEOF : Bool}

theorem initWithResult_of_nil (h : res.tuples.length = 0) :
    initWithResult res encoding = placed res encoding none true := by
  have hcount : PQntuples (some res) = 0 := h
  simp [placed, initWithResult, hcount, h]

theorem initWithResult_of_rows (h : res.tuples.length ≠ 0) :
    initWithResult res encoding = placed res encoding (some 0) false := by
  have hcount : PQntuples (some res) = res.tuples.length := rfl
  simp [placed, initWithResult, hcount, h, moveFirst, setCurrentRecordWithRowIndex]

/-- Among the rows, the next record is that of the next row, or there is none. -/
theorem moveNext_placed {row : Nat} (h : row < res.tuples.length) :
    (placed res encoding (some row) isEOF).moveNext =
      if row + 1 < res.tuples.length then placed res encoding (some (row + 1 : Nat)) isEOF
      else placed res encoding none true := by
  have rows : (placed res encoding (some row) isEOF).rowCount ≠ 0 := by
    simp only [placed]
    omega
  rw [moveNext, if_neg rows]
  by_cases last : row + 1 < res.tuples.length
  · rw [if_pos last, if_neg (by simp only [currentRowIndex, placed, Option.getD_some]; omega)]
    rfl
  · rw [if_neg last, if_pos (by simp only [currentRowIndex, placed, Option.getD_some]; omega)]
    rfl

/-- On a row, the record set gives the fields of the row. -/
theorem fieldByIndex_placed {rs : PGSQLRecordset n} (hrows : rs.rows = res.tuples)
    (h : rs.rowNumber < res.tuples.length) :
    (placed res encoding (some rs.rowNumber) isEOF).fieldByIndex = rs.fieldAt := by
  funext i
  have hrecord : rs.currentRecord = some res.tuples[rs.rowNumber] := by
    rw [PGSQLRecordset.currentRecord, hrows]
    exact List.getElem?_eq_getElem h
  by_cases hi : i < n
  · rw [fieldByIndex_open rfl rfl hi, rs.fieldAt_of_lt hi, PGSQLRecordset.fieldByIndex, hrecord]
    exact congrArg (fun data => Except.ok (some (PGSQLField.mk data)))
      (fieldText_tuple (List.getElem?_eq_getElem h) ⟨i, hi⟩)
  · rw [fieldByIndex_outside rfl rfl (Nat.not_lt.mp hi), rs.fieldAt_of_le hrecord (Nat.not_lt.mp hi)]

/-- From a row on, the loop does what it does over the rows, and reaches the end. -/
theorem forEachRow_placed {α : Type} (isEOF : Bool) (body : Fields → NSStringEncoding → α → Except NSException α)
    (remaining : Nat) (rs : PGSQLRecordset n) (hrows : rs.rows = res.tuples)
    (hencoding : rs.defaultEncoding = encoding)
    (hremaining : rs.rowNumber + remaining = res.tuples.length) (hlast : remaining = 0 → isEOF = true)
    (a : α) :
    forEachRow body remaining (placed res encoding
        (if rs.rowNumber < res.tuples.length then some (rs.rowNumber : Int) else none) isEOF) a =
      (PGSQLRecordset.forEachRow (fun rs => body rs.fieldAt rs.defaultEncoding) remaining rs a).map
        fun a => (placed res encoding none true, a) := by
  induction remaining generalizing rs isEOF a with
  | zero =>
    rw [if_neg (by omega), hlast rfl]
    rfl
  | succ remaining ih =>
    have hlt : rs.rowNumber < res.tuples.length := by omega
    have later := ih (if rs.rowNumber + 1 < res.tuples.length then isEOF else true)
      rs.moveNext hrows hencoding (by simp only [PGSQLRecordset.moveNext]; omega)
      (fun none => if_neg (by omega))
    rw [if_pos hlt, forEachRow, fieldByIndex_placed hrows hlt, moveNext_placed hlt,
      PGSQLRecordset.forEachRow, placed_defaultEncoding, hencoding]
    cases body rs.fieldAt encoding a with
    | error e => rfl
    | ok a =>
      rw [Transition.ok_bind, Transition.ok_bind]
      have next := later a
      have hnext : rs.moveNext.rowNumber = rs.rowNumber + 1 := rfl
      rw [hnext] at next
      by_cases last : rs.rowNumber + 1 < res.tuples.length
      · simp only [if_pos last] at next ⊢
        exact next
      · simp only [if_neg last] at next ⊢
        exact next

end Loops

/-- **Main result.** A loop over a record set, whatever it does with the fields it reads,
does the same as over the rows alone; the set is left behind the last row. -/
theorem forEachRow_refines {α : Type} (res : PGresult n) (encoding : NSStringEncoding)
    (body : Fields → NSStringEncoding → α → Except NSException α) (a : α) :
    forEachRow body (initWithResult res encoding).rowCount (initWithResult res encoding) a =
      (PGSQLRecordset.forEachRow (fun rs => body rs.fieldAt rs.defaultEncoding) res.tuples.length
        ⟨res.tuples, 0, encoding⟩ a).map fun a => (placed res encoding none true, a) := by
  have loop (isEOF : Bool) (atEnd : res.tuples.length = 0 → isEOF = true) :=
    forEachRow_placed isEOF body res.tuples.length ⟨res.tuples, 0, encoding⟩ rfl rfl
      (Nat.zero_add res.tuples.length) atEnd a
  by_cases empty : res.tuples.length = 0
  · have none := loop true (fun _ => rfl)
    rw [if_neg (Nat.not_lt.mpr (Nat.le_of_eq empty))] at none
    rw [initWithResult_of_nil empty]
    exact none
  · have first := loop false (fun zero => absurd zero empty)
    rw [if_pos (Nat.pos_of_ne_zero empty)] at first
    rw [initWithResult_of_rows empty]
    exact first

end Recordset

end PointIPad
