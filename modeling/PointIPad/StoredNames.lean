import PointIPad.SqlNames

/-!
Names read from the database and sent back.

The menu loaders read a column in Mac OS Roman, the default of a connection, and
the names they hand out are put into queries that are sent as UTF-8. A stored
name is given here by its text; its bytes are those of UTF-8.

**Main result** (`name_returned_iff`). A query with a loaded name is, byte by
byte, the query with the stored name, and names the stored one to the server,
exactly when the name is ASCII.
-/

namespace PointIPad

open Sql

/-! ### The length of what is sent -/

theorem utf8Bytes_append (s t : String) : utf8Bytes (s ++ t) = utf8Bytes s ++ utf8Bytes t := by
  rw [utf8Bytes, String.toList_append, List.flatMap_append]
  rfl

section Bytes

variable {b : UInt8} {c : Char} {s : String}

/-- The bytes of a character beyond ASCII are 128 or more. -/
theorem le_of_mem_utf8EncodeChar (h : 128 ≤ c.toNat) (hb : b ∈ String.utf8EncodeChar c) :
    128 ≤ b.toNat := by
  have hval : ¬ c.val.toNat ≤ 0x7f := Nat.not_le_of_lt h
  rw [String.utf8EncodeChar, if_neg hval] at hb
  split_ifs at hb
  · simp only [List.mem_cons, List.not_mem_nil, or_false] at hb
    rcases hb with rfl | rfl <;> rw [UInt8.toNat_ofNat'] <;> omega
  · simp only [List.mem_cons, List.not_mem_nil, or_false] at hb
    rcases hb with rfl | rfl | rfl <;> rw [UInt8.toNat_ofNat'] <;> omega
  · simp only [List.mem_cons, List.not_mem_nil, or_false] at hb
    rcases hb with rfl | rfl | rfl | rfl <;> rw [UInt8.toNat_ofNat'] <;> omega

theorem utf8EncodeChar_ne_nil (c : Char) : String.utf8EncodeChar c ≠ [] := by
  rw [Ne, ← List.length_eq_zero_iff, String.length_utf8EncodeChar]
  exact (Char.utf8Size_pos c).ne'

theorem ascii_iff_bytes : Ascii s ↔ ∀ b ∈ utf8Bytes s, b.toNat < 128 := by
  constructor
  · intro ascii b hb
    obtain ⟨c, hc, hb⟩ := List.mem_flatMap.mp hb
    have hval : c.val.toNat ≤ 0x7f := Nat.le_of_lt_succ (ascii c hc)
    rw [String.utf8EncodeChar, if_pos hval, List.mem_singleton] at hb
    rw [hb, UInt8.toNat_ofNat']
    omega
  · intro low c hc
    by_contra high
    obtain ⟨b, rest, hbytes⟩ := List.exists_cons_of_ne_nil (utf8EncodeChar_ne_nil c)
    have hb : b ∈ String.utf8EncodeChar c := hbytes ▸ List.mem_cons_self
    have hhigh := le_of_mem_utf8EncodeChar (Nat.le_of_not_lt high) hb
    exact absurd (low b (List.mem_flatMap.mpr ⟨c, hc, hb⟩)) (Nat.not_lt_of_le hhigh)

theorem toNat_ofNat_valid {n : Nat} (h : n.isValidChar) : (Char.ofNat n).toNat = n := by
  rw [Char.ofNat, dif_pos h]
  rfl

/-- The upper half of the table has characters beyond ASCII only. -/
theorem macOSRomanHigh_spec :
    macOSRomanHigh.all fun n => 128 ≤ n ∧ (n < 0xd800 ∨ 0xdfff < n ∧ n < 0x10000) := by
  decide

theorem le_toNat_macOSRomanChar (h : 128 ≤ b.toNat) : 128 ≤ (macOSRomanChar b).toNat := by
  have hlow : ¬ b < 128 := by
    rw [UInt8.lt_iff_toNat_lt]
    exact Nat.not_lt_of_le h
  have hlt : b.toNat - 128 < macOSRomanHigh.length := by
    have hbyte := b.toNat_lt
    have hlength : macOSRomanHigh.length = 128 := rfl
    omega
  obtain ⟨n, hn, hget⟩ : ∃ n ∈ macOSRomanHigh, macOSRomanHigh[b.toNat - 128]? = some n :=
    ⟨_, List.getElem_mem hlt, List.getElem?_eq_getElem hlt⟩
  have hspec : 128 ≤ n ∧ (n < 0xd800 ∨ 0xdfff < n ∧ n < 0x10000) := by
    simpa using List.all_eq_true.mp macOSRomanHigh_spec n hn
  have hvalid : n.isValidChar := by
    unfold Nat.isValidChar
    omega
  rw [macOSRomanChar, if_neg hlow, hget, Option.getD_some, toNat_ofNat_valid hvalid]
  exact hspec.1

/-- A byte of the upper half becomes a character of two bytes or more. -/
theorem two_le_length_of_high (h : 128 ≤ b.toNat) :
    2 ≤ (String.utf8EncodeChar (macOSRomanChar b)).length := by
  have hpos := Char.utf8Size_pos (macOSRomanChar b)
  have hsize : (macOSRomanChar b).utf8Size ≠ 1 := by
    intro hone
    rw [Char.utf8Size_eq_one_iff, UInt32.le_iff_toNat_le] at hone
    have hsmall : (macOSRomanChar b).toNat ≤ 127 := hone
    have hlarge := le_toNat_macOSRomanChar h
    omega
  rw [String.length_utf8EncodeChar]
  omega

/-- Nothing gets shorter by the detour, and only ASCII text keeps its length. -/
theorem length_le_utf8Bytes_roman (bytes : List UInt8) :
    bytes.length + bytes.countP (128 ≤ ·.toNat) ≤
      ((bytes.map macOSRomanChar).flatMap String.utf8EncodeChar).length := by
  induction bytes with
  | nil => exact Nat.le_refl 0
  | cons b bytes ih =>
    rw [List.map_cons, List.flatMap_cons, List.length_append, List.length_cons]
    by_cases high : 128 ≤ b.toNat
    · have := two_le_length_of_high high
      rw [List.countP_cons_of_pos (by simpa using high)]
      omega
    · have := List.length_pos_of_ne_nil (utf8EncodeChar_ne_nil (macOSRomanChar b))
      rw [List.countP_cons_of_neg (by simpa using high)]
      omega

theorem length_utf8Bytes_le (s : String) :
    (utf8Bytes s).length + (utf8Bytes s).countP (128 ≤ ·.toNat) ≤
      (utf8Bytes (decode .macOSRoman s)).length := by
  rw [decode]
  conv_rhs => rw [utf8Bytes, String.toList_ofList]
  exact length_le_utf8Bytes_roman (utf8Bytes s)

/-- Text read as Mac OS Roman and sent as UTF-8 keeps its length only if it is ASCII. -/
theorem ascii_of_length_eq (h : (utf8Bytes (decode .macOSRoman s)).length = (utf8Bytes s).length) :
    Ascii s := by
  have hle := length_utf8Bytes_le s
  have hzero : (utf8Bytes s).countP (128 ≤ ·.toNat) = 0 := by omega
  rw [ascii_iff_bytes]
  intro b hb
  have := List.countP_eq_zero.mp hzero b hb
  simpa using this

/-! ### What a text is read as -/

/-- What one stored character is read as. -/
def romanOf (c : Char) : List Char := (String.utf8EncodeChar c).map macOSRomanChar

theorem toList_decode (s : String) : (decode .macOSRoman s).toList = s.toList.flatMap romanOf := by
  rw [decode, String.toList_ofList, utf8Bytes, List.map_flatMap]
  rfl

theorem romanOf_of_ascii (h : c.toNat < 128) : romanOf c = [c] :=
  map_macOSRomanChar_utf8EncodeChar h

/-- A character beyond ASCII is not read as an ASCII one. -/
theorem eq_of_mem_romanOf {d : Char} (hd : d ∈ romanOf c) (ascii : d.toNat < 128) : d = c := by
  by_cases hc : c.toNat < 128
  · rw [romanOf_of_ascii hc] at hd
    exact List.mem_singleton.mp hd
  · obtain ⟨b, hb, rfl⟩ := List.mem_map.mp hd
    have hhigh := le_of_mem_utf8EncodeChar (Nat.le_of_not_lt hc) hb
    exact absurd ascii (Nat.not_lt_of_le (le_toNat_macOSRomanChar hhigh))

/-- The ASCII characters of a text that was read are those stored. -/
theorem mem_of_mem_decode (h : c ∈ (decode .macOSRoman s).toList) (ascii : c.toNat < 128) :
    c ∈ s.toList := by
  rw [toList_decode] at h
  obtain ⟨d, hd, hc⟩ := List.mem_flatMap.mp h
  rwa [eq_of_mem_romanOf hc ascii]

theorem decode_eq_iff_of_ascii {t : String} (ascii : Ascii t) :
    decode .macOSRoman s = t ↔ s = t := by
  constructor
  · intro h
    have hs : Ascii s := by
      intro c hc
      by_contra high
      obtain ⟨d, rest, hread⟩ : ∃ d rest, romanOf c = d :: rest :=
        List.exists_cons_of_ne_nil fun hnil => utf8EncodeChar_ne_nil c (List.map_eq_nil_iff.mp hnil)
      have hd : d ∈ romanOf c := hread ▸ List.mem_cons_self
      have hread : d ∈ t.toList := by
        rw [← h, toList_decode]
        exact List.mem_flatMap.mpr ⟨c, hc, hd⟩
      have hascii := ascii d hread
      rw [eq_of_mem_romanOf hd hascii] at hascii
      exact high hascii
    rw [← h, decode_of_ascii hs]
  · rintro rfl
    exact decode_of_ascii ascii

/-- Cutting at colons and reading may be done in either order. -/
theorem components_decode (s : String) :
    componentsSeparatedByString (decode .macOSRoman s) =
      (componentsSeparatedByString s).map (decode .macOSRoman) := by
  have hsplit : (s.toList.flatMap romanOf).splitOn ':' =
      (s.toList.splitOn ':').map (·.flatMap romanOf) :=
    Delimited.splitOn_flatMap (romanOf_of_ascii (by decide))
      (fun c hc hmem => hc (eq_of_mem_romanOf hmem (by decide)).symm) s.toList
  rw [componentsSeparatedByString, componentsSeparatedByString, Delimited.components,
    Delimited.components, toList_decode, hsplit, List.map_map, List.map_map]
  refine List.map_congr_left fun piece _ => ?_
  apply String.toList_injective
  rw [Function.comp_apply, Function.comp_apply, toList_decode, String.toList_ofList,
    String.toList_ofList]

end Bytes

/-! ### Loading a name and sending it -/

/-- A method that loads names of the menu, with its argument. -/
inductive MenuLoader where
  | classNames
  | subclassWhereClassIs (className : String)
  | itemsWhereClassIs (className : String)
  | itemsWhereSubclassIs (className : String)

namespace MenuLoader

def query : MenuLoader → String
  | .classNames => DatabaseAccess.classNamesQuery
  | .subclassWhereClassIs className => DatabaseAccess.subclassQuery className
  | .itemsWhereClassIs className => DatabaseAccess.itemsOfClassQuery className
  | .itemsWhereSubclassIs className => DatabaseAccess.itemsOfSubclassQuery className

def load (db : DatabaseAccess) : MenuLoader → List String
  | .classNames => db.classNames
  | .subclassWhereClassIs className => db.subclassWhereClassIs className
  | .itemsWhereClassIs className => db.itemsWhereClassIs className
  | .itemsWhereSubclassIs className => db.itemsWhereSubclassIs className

/-- All of them read one column. -/
theorem load_eq (db : DatabaseAccess) (loader : MenuLoader) :
    loader.load db = db.pgConn.stringColumn ⟨loader.query, 1⟩ 0 := by
  cases loader <;> rfl

/-- A stored name is loaded in Mac OS Roman. -/
theorem load_getElem? {db : DatabaseAccess} {loader : MenuLoader} {rows : List (PGSQLRow 1)}
    (answer : db.pgConn.answer ⟨loader.query, 1⟩ = some rows) {i : Nat} {row : PGSQLRow 1}
    (hrow : rows[i]? = some row) {name : String} (stored : row 0 = some name) :
    (loader.load db)[i]? = some (decode .macOSRoman name) := by
  rw [load_eq, PGSQLConnection.stringColumn_eq, answer, Option.getD_some, List.getElem?_map, hrow,
    Option.map_some, stored]
  rfl

end MenuLoader

/-- A place for a name in a WHERE clause, with the other names of the query. -/
inductive NamePlace where
  | classOfSubclasses
  | classOfItems
  | subclassOfItems
  | classOfItem (subClassName : Option String) (itemName : String)
  | subclassOfItem (className itemName : String)
  | nameOfItem (className : String) (subClassName : Option String)

namespace NamePlace

def query (name : String) : NamePlace → NameQuery
  | .classOfSubclasses => .subclassWhereClassIs name
  | .classOfItems => .itemsWhereClassIs name
  | .subclassOfItems => .itemsWhereSubclassIs name
  | .classOfItem subClassName itemName => .itemIdWhereClassIs name subClassName itemName
  | .subclassOfItem className itemName => .itemIdWhereClassIs className (some name) itemName
  | .nameOfItem className subClassName => .itemIdWhereClassIs className subClassName name

/-- The text around the name does not depend on it. -/
theorem exists_around (place : NamePlace) :
    ∃ before after, ∀ name, (place.query name).text = before ++ name ++ after := by
  cases place with
  | classOfItem subClassName itemName =>
    cases subClassName with
    | none =>
      refine ⟨"SELECT item_id from TBL_ITEMS WHERE CLASS='", "' AND NAME='" ++ itemName ++ "'",
        fun name => ?_⟩
      rw [← String.append_assoc, ← String.append_assoc]
      rfl
    | some subClassName =>
      refine ⟨"SELECT item_id from TBL_ITEMS WHERE CLASS='",
        "' AND SUBCLASS='" ++ subClassName ++ "' AND NAME='" ++ itemName ++ "'", fun name => ?_⟩
      rw [← String.append_assoc, ← String.append_assoc, ← String.append_assoc,
        ← String.append_assoc]
      rfl
  | subclassOfItem className itemName =>
    refine ⟨"SELECT item_id from TBL_ITEMS WHERE CLASS='" ++ className ++ "' AND SUBCLASS='",
      "' AND NAME='" ++ itemName ++ "'", fun name => ?_⟩
    rw [← String.append_assoc, ← String.append_assoc]
    rfl
  | nameOfItem className subClassName =>
    cases subClassName with
    | none => exact ⟨_, _, fun name => rfl⟩
    | some subClassName => exact ⟨_, _, fun name => rfl⟩
  | _ => exact ⟨_, _, fun name => rfl⟩

end NamePlace

/-- A name that was loaded is sent back as it is stored. -/
structure Returned (place : NamePlace) (name loaded : String) : Prop where
  /-- `open:` transmits the query with the bytes of the stored name. -/
  bytes : utf8Bytes (place.query loaded).text = utf8Bytes (place.query name).text
  /-- The server looks for the stored name. -/
  found : IsSelectWith (place.query loaded).text (place.query name).literals

theorem returned_iff {place : NamePlace} {name : String}
    (free : ∀ n ∈ (place.query name).names, '\'' ∉ n.toList) :
    Returned place name (decode .macOSRoman name) ↔ Ascii name := by
  constructor
  · rintro ⟨bytes, -⟩
    obtain ⟨before, after, around⟩ := place.exists_around
    have hlength := congrArg List.length bytes
    simp only [around, utf8Bytes_append, List.length_append] at hlength
    exact ascii_of_length_eq (by omega)
  · intro ascii
    rw [decode_of_ascii ascii]
    exact ⟨rfl, NameQuery.isSelectWith_of_quoteFree _ free⟩

/-- A loaded name finds its row again exactly when it is ASCII. -/
theorem name_returned_iff (db : DatabaseAccess) (loader : MenuLoader) {rows : List (PGSQLRow 1)}
    (answer : db.pgConn.answer ⟨loader.query, 1⟩ = some rows) {i : Nat} {row : PGSQLRow 1}
    (hrow : rows[i]? = some row) {name : String} (stored : row 0 = some name) (place : NamePlace)
    (free : ∀ n ∈ (place.query name).names, '\'' ∉ n.toList) :
    ∃ loaded, (loader.load db)[i]? = some loaded ∧ (Returned place name loaded ↔ Ascii name) :=
  ⟨_, MenuLoader.load_getElem? answer hrow stored, returned_iff free⟩

/-- A database whose one class has this name. -/
def oneClass (name : String) : DatabaseAccess :=
  .answering [(DatabaseAccess.classNamesQuery, name)]

theorem name_returned_tea :
    ∃ loaded, (MenuLoader.classNames.load (oneClass "Tea"))[0]? = some loaded ∧
      (Returned .classOfItems "Tea" loaded ↔ Ascii "Tea") :=
  name_returned_iff (oneClass "Tea") .classNames rfl (i := 0) rfl rfl .classOfItems (by decide)

theorem name_not_returned :
    ∃ loaded, (MenuLoader.classNames.load (oneClass "Café"))[0]? = some loaded ∧
      ¬ Returned .classOfItems "Café" loaded :=
  ⟨_, MenuLoader.load_getElem? rfl (i := 0) rfl rfl,
    fun returned => absurd ((returned_iff (by decide)).mp returned) (by decide)⟩

end PointIPad
