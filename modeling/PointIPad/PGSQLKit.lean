import PointIPad.Foundation
import Mathlib.Data.Fin.VecNotation

/-!
The database client: text encodings, fields, records, record sets and the
connection.

A SELECT is sent as text, and PostgreSQL answers with rows of as many cells as
the select list has columns; a cell is a text or NULL. The answers are the
parameter `answer` of a connection. `nil` stands for both a failed command and a
command without rows, so a field of an empty or failed result is `nil`.

A connection that is never told otherwise decodes fields as Mac OS Roman and
sends commands as UTF-8. On ASCII text the two agree (`asString_of_ascii`).
-/

namespace PointIPad

/-! ### Encodings -/

inductive NSStringEncoding where
  | utf8
  | macOSRoman
deriving DecidableEq, Repr

/-- The code points of the bytes 128 to 255 in Mac OS Roman. -/
def macOSRomanHigh : List Nat :=
  [0xC4, 0xC5, 0xC7, 0xC9, 0xD1, 0xD6, 0xDC, 0xE1, 0xE0, 0xE2, 0xE4, 0xE3, 0xE5, 0xE7, 0xE9, 0xE8,
   0xEA, 0xEB, 0xED, 0xEC, 0xEE, 0xEF, 0xF1, 0xF3, 0xF2, 0xF4, 0xF6, 0xF5, 0xFA, 0xF9, 0xFB, 0xFC,
   0x2020, 0xB0, 0xA2, 0xA3, 0xA7, 0x2022, 0xB6, 0xDF,
   0xAE, 0xA9, 0x2122, 0xB4, 0xA8, 0x2260, 0xC6, 0xD8,
   0x221E, 0xB1, 0x2264, 0x2265, 0xA5, 0xB5, 0x2202, 0x2211,
   0x220F, 0x3C0, 0x222B, 0xAA, 0xBA, 0x3A9, 0xE6, 0xF8,
   0xBF, 0xA1, 0xAC, 0x221A, 0x192, 0x2248, 0x2206, 0xAB,
   0xBB, 0x2026, 0xA0, 0xC0, 0xC3, 0xD5, 0x152, 0x153,
   0x2013, 0x2014, 0x201C, 0x201D, 0x2018, 0x2019, 0xF7, 0x25CA,
   0xFF, 0x178, 0x2044, 0x20AC, 0x2039, 0x203A, 0xFB01, 0xFB02,
   0x2021, 0xB7, 0x201A, 0x201E, 0x2030, 0xC2, 0xCA, 0xC1,
   0xCB, 0xC8, 0xCD, 0xCE, 0xCF, 0xCC, 0xD3, 0xD4,
   0xF8FF, 0xD2, 0xDA, 0xDB, 0xD9, 0x131, 0x2C6, 0x2DC,
   0xAF, 0x2D8, 0x2D9, 0x2DA, 0xB8, 0x2DD, 0x2DB, 0x2C7]

/-- The character a byte stands for in Mac OS Roman. -/
def macOSRomanChar (b : UInt8) : Char :=
  if b < 128 then Char.ofNat b.toNat
  else Char.ofNat ((macOSRomanHigh[b.toNat - 128]?).getD 0)

/-- The bytes of a text in UTF-8. -/
def utf8Bytes (s : String) : List UInt8 := s.toList.flatMap String.utf8EncodeChar

/-- A text received as UTF-8 bytes, read in the given encoding. -/
def decode (encoding : NSStringEncoding) (received : String) : String :=
  match encoding with
  | .utf8 => received
  | .macOSRoman => String.ofList ((utf8Bytes received).map macOSRomanChar)

/-! ### Fields -/

/-- One cell of a record: NULL or its text as the server sent it. -/
structure PGSQLField where
  data : Option String
deriving DecidableEq, Repr

def PGSQLField.isNull (f : PGSQLField) : Bool := f.data.isNone

/-- NULL reads as the empty string. -/
def PGSQLField.asString (encoding : NSStringEncoding) (f : PGSQLField) : String :=
  match f.data with
  | none => ""
  | some text => decode encoding text

/-- A number is read as a float; NULL gives `nil`. -/
def PGSQLField.asNumber (f : PGSQLField) : Option NSNumber := f.data.map floatValue

def PGSQLField.asBoolean (f : PGSQLField) : Bool :=
  match f.data with
  | some text => text.toList.head? = some 't'
  | none => false

/-! ### Record sets -/

/-- A row of the answer to a SELECT of `n` columns. -/
abbrev PGSQLRow (n : Nat) := Fin n → Option String

/-- A record set: its rows and the row number of the current record. -/
structure PGSQLRecordset (n : Nat) where
  rows : List (PGSQLRow n)
  rowNumber : Nat
  defaultEncoding : NSStringEncoding

namespace PGSQLRecordset

variable {n : Nat}

def rowCount (rs : PGSQLRecordset n) : Nat := rs.rows.length

/-- The current record; `nil` when there are no rows or the last one is passed. -/
def currentRecord (rs : PGSQLRecordset n) : Option (PGSQLRow n) := rs.rows[rs.rowNumber]?

def moveNext (rs : PGSQLRecordset n) : PGSQLRecordset n := { rs with rowNumber := rs.rowNumber + 1 }

/-- A field of the current record, by a column index inside the select list. -/
def fieldByIndex (rs : PGSQLRecordset n) (i : Fin n) : Option PGSQLField :=
  rs.currentRecord.map fun row => ⟨row i⟩

/-- The strings of one column, collected while moving through the rows: the loop
`for (i = 0; i < rowCount; i++) { add [[rs fieldByIndex:c] asString]; [rs moveNext]; }`. -/
def collectStrings (rs : PGSQLRecordset n) (column : Fin n) : Nat → List String
  | 0 => []
  | remaining + 1 =>
    ((rs.fieldByIndex column).map (·.asString rs.defaultEncoding)).toList
      ++ rs.moveNext.collectStrings column remaining

/-- The loop visits every row once, in order. -/
theorem collectStrings_eq_map (rs : PGSQLRecordset n) (column : Fin n) (remaining : Nat)
    (hrows : rs.rowNumber + remaining = rs.rowCount) :
    rs.collectStrings column remaining =
      (rs.rows.drop rs.rowNumber).map
        fun row => PGSQLField.asString rs.defaultEncoding ⟨row column⟩ := by
  induction remaining generalizing rs with
  | zero =>
    rw [Nat.add_zero] at hrows
    rw [collectStrings, hrows, rowCount, List.drop_length, List.map_nil]
  | succ remaining ih =>
    have hlt : rs.rowNumber < rs.rows.length := by rw [rowCount] at hrows; omega
    rw [collectStrings, ih rs.moveNext (by simp only [moveNext, rowCount] at hrows ⊢; omega)]
    rw [List.drop_eq_getElem_cons hlt, List.map_cons]
    simp [fieldByIndex, currentRecord, moveNext, List.getElem?_eq_getElem hlt]

/-! #### Fields by any index -/

/-- `fieldByIndex:` of a record. An index outside the select list raises. -/
def recordField (record : PGSQLRow n) (fieldIndex : Nat) : Except NSException PGSQLField :=
  (objectAtIndex (List.ofFn record) fieldIndex).map PGSQLField.mk

/-- `fieldByIndex:` of the current record, by any index. -/
def fieldAt (rs : PGSQLRecordset n) (i : Nat) : Except NSException (Option PGSQLField) :=
  match rs.currentRecord with
  | some record => (recordField record i).map some
  | none => .ok none

def stringAt (rs : PGSQLRecordset n) (i : Nat) : Except NSException (Option String) :=
  (rs.fieldAt i).map fun field => field.map (·.asString rs.defaultEncoding)

def numberAt (rs : PGSQLRecordset n) (i : Nat) : Except NSException (Option NSNumber) :=
  (rs.fieldAt i).map fun field => field.bind (·.asNumber)

/-- The flag of a `nil` field is NO. -/
def booleanAt (rs : PGSQLRecordset n) (i : Nat) : Except NSException Bool :=
  (rs.fieldAt i).map fun field => (field.map (·.asBoolean)).getD false

/-- The loop `for (i = 0; i < rowCount; i++) { ...; [rs moveNext]; }`. -/
def forEachRow {α : Type} (body : PGSQLRecordset n → α → Except NSException α) :
    Nat → PGSQLRecordset n → α → Except NSException α
  | 0, _, a => .ok a
  | remaining + 1, rs, a => body rs a >>= forEachRow body remaining rs.moveNext

theorem fieldAt_of_lt (rs : PGSQLRecordset n) {i : Nat} (h : i < n) :
    rs.fieldAt i = .ok (rs.fieldByIndex ⟨i, h⟩) := by
  unfold fieldAt fieldByIndex recordField
  cases rs.currentRecord with
  | none => rfl
  | some record => simp [objectAtIndex, h, Except.map]

/-- A record has no field outside the select list. -/
theorem fieldAt_of_le (rs : PGSQLRecordset n) {record : PGSQLRow n}
    (hrecord : rs.currentRecord = some record) {i : Nat} (h : n ≤ i) :
    rs.fieldAt i = .error .rangeException := by
  simp [fieldAt, recordField, hrecord, objectAtIndex, Nat.not_lt.mpr h, Except.map]

/-- The loop is a fold over the rows, if its body works on the current record. -/
theorem forEachRow_eq {α : Type} {body : PGSQLRecordset n → α → Except NSException α}
    {step : α → PGSQLRow n → Except NSException α} {encoding : NSStringEncoding}
    (hbody : ∀ rs a record, rs.defaultEncoding = encoding → rs.currentRecord = some record →
      body rs a = step a record)
    (remaining : Nat) (rs : PGSQLRecordset n) (hencoding : rs.defaultEncoding = encoding)
    (hrows : rs.rowNumber + remaining = rs.rowCount) (a : α) :
    forEachRow body remaining rs a = (rs.rows.drop rs.rowNumber).foldlM step a := by
  induction remaining generalizing rs a with
  | zero =>
    rw [Nat.add_zero] at hrows
    rw [forEachRow, hrows, rowCount, List.drop_length]
    rfl
  | succ remaining ih =>
    have hlt : rs.rowNumber < rs.rows.length := by rw [rowCount] at hrows; omega
    have hrecord : rs.currentRecord = some rs.rows[rs.rowNumber] := List.getElem?_eq_getElem hlt
    rw [forEachRow, hbody rs a _ hencoding hrecord, List.drop_eq_getElem_cons hlt, List.foldlM_cons]
    congr 1
    funext a'
    exact ih rs.moveNext hencoding (by simp only [moveNext, rowCount] at hrows ⊢; omega) a'

end PGSQLRecordset

/-! ### Connections -/

/-- A SELECT command: its text and the number of columns of its select list. -/
structure Select where
  text : String
  columns : Nat
deriving DecidableEq, Repr

/-- A connection, as the way the server answers a SELECT: `none` is an error. -/
structure PGSQLConnection where
  answer : (q : Select) → Option (List (PGSQLRow q.columns))

namespace PGSQLConnection

/-- What `init` sets; the app never changes it. -/
def defaultEncoding : NSStringEncoding := .macOSRoman

/-- `open:` sends the command and wraps the rows in a record set at the first row. -/
def openSelect (conn : PGSQLConnection) (q : Select) : Option (PGSQLRecordset q.columns) :=
  (conn.answer q).map fun rows => ⟨rows, 0, defaultEncoding⟩

/-- A field of the first row as a string: `[[rs fieldByIndex:c] asString]`. -/
def stringField (conn : PGSQLConnection) (q : Select) (column : Fin q.columns) : Option String :=
  ((conn.openSelect q).bind (·.fieldByIndex column)).map (·.asString defaultEncoding)

/-- A field of the first row as a number: `[[rs fieldByIndex:c] asNumber]`. -/
def numberField (conn : PGSQLConnection) (q : Select) (column : Fin q.columns) :
    Option NSNumber :=
  ((conn.openSelect q).bind (·.fieldByIndex column)).bind (·.asNumber)

/-- One column of all rows as strings; no rows for a `nil` record set. -/
def stringColumn (conn : PGSQLConnection) (q : Select) (column : Fin q.columns) : List String :=
  match conn.openSelect q with
  | some rs => rs.collectStrings column rs.rowCount
  | none => []

theorem stringColumn_eq (conn : PGSQLConnection) (q : Select) (column : Fin q.columns) :
    conn.stringColumn q column =
      ((conn.answer q).getD []).map
        fun row => PGSQLField.asString defaultEncoding ⟨row column⟩ := by
  unfold stringColumn openSelect
  cases conn.answer q with
  | none => rfl
  | some rows =>
    exact PGSQLRecordset.collectStrings_eq_map ⟨rows, 0, defaultEncoding⟩ column rows.length
      (Nat.zero_add _)

theorem stringField_eq (conn : PGSQLConnection) (q : Select) (column : Fin q.columns) :
    conn.stringField q column =
      ((conn.answer q).bind (·.head?)).map
        fun row => PGSQLField.asString defaultEncoding ⟨row column⟩ := by
  unfold stringField openSelect
  cases conn.answer q with
  | none => rfl
  | some rows =>
    cases rows <;> rfl

theorem numberField_eq (conn : PGSQLConnection) (q : Select) (column : Fin q.columns) :
    conn.numberField q column =
      ((conn.answer q).bind (·.head?)).bind fun row => (row column).map floatValue := by
  unfold numberField openSelect
  cases conn.answer q with
  | none => rfl
  | some rows =>
    cases rows <;> rfl

end PGSQLConnection

/-! ### ASCII text -/

/-- Every character is an ASCII character. -/
def Ascii (s : String) : Prop := ∀ c ∈ s.toList, c.toNat < 128

instance (s : String) : Decidable (Ascii s) :=
  List.decidableBAll (fun c : Char => c.toNat < 128) s.toList

theorem map_macOSRomanChar_utf8EncodeChar {c : Char} (h : c.toNat < 128) :
    (String.utf8EncodeChar c).map macOSRomanChar = [c] := by
  have hval : c.val.toNat ≤ 0x7f := Nat.le_of_lt_succ h
  have hbyte : (UInt8.ofNat c.val.toNat).toNat = c.val.toNat := by
    rw [UInt8.toNat_ofNat']
    omega
  have hlow : UInt8.ofNat c.val.toNat < 128 := by
    rw [UInt8.lt_iff_toNat_lt, hbyte]
    exact h
  have hsingle : String.utf8EncodeChar c = [UInt8.ofNat c.val.toNat] := by
    rw [String.utf8EncodeChar]
    exact if_pos hval
  rw [hsingle, List.map_singleton, macOSRomanChar, if_pos hlow, hbyte]
  exact congrArg (fun d => [d]) (Char.ofNat_toNat c)

/-- An ASCII character is one byte, the same in both encodings. -/
theorem decode_of_ascii {encoding : NSStringEncoding} {s : String} (h : Ascii s) :
    decode encoding s = s := by
  cases encoding with
  | utf8 => rfl
  | macOSRoman =>
    have hbytes : (utf8Bytes s).map macOSRomanChar = s.toList := by
      rw [utf8Bytes, List.map_flatMap]
      conv_rhs => rw [← List.flatMap_singleton' s.toList]
      exact List.flatMap_congr fun c hc => map_macOSRomanChar_utf8EncodeChar (h c hc)
    rw [decode, hbytes, String.ofList_toList]

theorem asString_of_ascii {encoding : NSStringEncoding} {s : String} (h : Ascii s) :
    PGSQLField.asString encoding ⟨some s⟩ = s :=
  decode_of_ascii h

end PointIPad
