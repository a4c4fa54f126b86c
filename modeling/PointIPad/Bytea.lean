import PointIPad.SqlLiterals

/-!
Binary data on its way to the database and back.

The client writes data as the text of a constant, in hexadecimal or in the escape
format, and the scanner and then the input function of the type read it. What the
server puts out, in one of the two formats, the client reads with a function of its
own, which takes bad input too.

**Main results.** What the input function accepts, the client reads as the same data
(`PQunescapeBytea_of_byteain`). Data that is encoded, stored and fetched is decoded
to itself, in every format on either way (`sqlDecodeData_round_trip`).
-/

namespace PointIPad

open Coding

/-! ### Formats -/

def hexDigit (d : UInt8) : UInt8 := if d < 10 then '0'.toUInt8 + d else 'a'.toUInt8 + (d - 10)

/-- The two digits of a byte. -/
def hexPair (c : UInt8) : Bytes := [hexDigit (c >>> 4 &&& 0xf), hexDigit (c &&& 0xf)]

def hexEncode (src : Bytes) : Bytes := src.flatMap hexPair

/-- The prefix of the hexadecimal format. -/
def hexMark : Bytes := [backslashByte, 'x'.toUInt8]

/-- Whether a byte has three octal digits in the escape format. -/
def isUnprintable (c : UInt8) : Bool := c < 0x20 || 0x7e < c

def octalDigits (c : UInt8) : Bytes :=
  ['0'.toUInt8 + (c >>> 6), '0'.toUInt8 + (c >>> 3 &&& 7), '0'.toUInt8 + (c &&& 7)]

/-- Three octal digits that a byte can have, and what follows. -/
def takeOctal (cs : Bytes) : Option (UInt8 × Bytes) :=
  match cs with
  | d1 :: d2 :: d3 :: rest =>
    if ('0'.toUInt8 ≤ d1 ∧ d1 ≤ '3'.toUInt8) ∧ ('0'.toUInt8 ≤ d2 ∧ d2 ≤ '7'.toUInt8)
        ∧ ('0'.toUInt8 ≤ d3 ∧ d3 ≤ '7'.toUInt8) then
      some ((d1 - '0'.toUInt8) <<< 6 + (d2 - '0'.toUInt8) <<< 3 + (d3 - '0'.toUInt8), rest)
    else none
  | _ => none

theorem takeOctal_length {cs rest : Bytes} {c : UInt8} (h : takeOctal cs = some (c, rest)) :
    rest.length < cs.length := by
  unfold takeOctal at h
  split at h
  · split at h
    · cases h
      simp only [List.length_cons]
      omega
    · cases h
  · cases h

/-! ### The server -/

inductive ByteaOutput where
  | hex
  | escape
deriving DecidableEq, Repr

/-- The escape format of a byte that is put out. -/
def escapeOut (c : UInt8) : Bytes :=
  if c = backslashByte then [backslashByte, backslashByte]
  else if isUnprintable c then backslashByte :: octalDigits c
  else [c]

def byteaout (output : ByteaOutput) (vlena : Bytes) : Bytes :=
  match output with
  | .hex => hexMark ++ hexEncode vlena
  | .escape => vlena.flatMap escapeOut

/-- White space between the bytes is skipped. -/
def hexDecode : Bytes → Option Bytes
  | [] => some []
  | c :: cs =>
    if c = ' '.toUInt8 ∨ c = '\n'.toUInt8 ∨ c = '\t'.toUInt8 ∨ c = '\r'.toUInt8 then hexDecode cs
    else
      match cs with
      | [] => none
      | c' :: rest =>
        match hexVal c, hexVal c' with
        | some v1, some v2 => (hexDecode rest).map (UInt8.ofNat (v1 <<< 4 ||| v2) :: ·)
        | _, _ => none

/-- The escape format. A backslash stands before three octal digits or another backslash. -/
def escapeDecode : Bytes → Option Bytes
  | [] => some []
  | c :: cs =>
    if c ≠ backslashByte then (escapeDecode cs).map (c :: ·)
    else
      match _hoctal : takeOctal cs with
      | some (byte, rest) => (escapeDecode rest).map (byte :: ·)
      | none =>
        if cs.head? = some backslashByte then (escapeDecode cs.tail).map (backslashByte :: ·)
        else none
termination_by cs => cs.length
decreasing_by
  · exact Nat.lt_succ_self _
  · exact (takeOctal_length _hoctal).trans (Nat.lt_succ_self _)
  · rw [List.length_tail, List.length_cons]
    omega

/-- The format is hexadecimal if the text begins with the mark. -/
def byteain (inputText : Bytes) : Option Bytes :=
  if inputText.take 2 = hexMark then hexDecode (inputText.drop 2) else escapeDecode inputText

/-! ### The client -/

/-- The escape format of a byte inside a constant. -/
def escapeByte (stdStrings : Bool) (c : UInt8) : Bytes :=
  let bslash := if stdStrings then [backslashByte] else [backslashByte, backslashByte]
  if isUnprintable c then bslash ++ octalDigits c
  else if c = quoteByte then [quoteByte, quoteByte]
  else if c = backslashByte then bslash ++ bslash
  else [c]

def PQescapeByteaInternal (stdStrings useHex : Bool) (data : Bytes) : Bytes :=
  if useHex then
    (if stdStrings then [backslashByte] else [backslashByte, backslashByte]) ++ 'x'.toUInt8 ::
      hexEncode data
  else data.flatMap (escapeByte stdStrings)

def PQescapeByteaConn (conn : PGconn) (data : Bytes) : Bytes :=
  PQescapeByteaInternal conn.stdStrings (decide (90000 ≤ conn.sversion)) data

/-- Bad input is ignored. -/
def unhexText : Bytes → Bytes
  | [] => []
  | [_] => []
  | c :: c' :: cs =>
    match hexVal c with
    | none => unhexText (c' :: cs)
    | some v1 =>
      match hexVal c' with
      | some v2 => UInt8.ofNat (v1 <<< 4 ||| v2) :: unhexText cs
      | none => unhexText cs

/-- A backslash before anything else than a backslash or octal digits is dropped. -/
def unescapeText : Bytes → Bytes
  | [] => []
  | c :: cs =>
    if c = backslashByte then
      if cs.head? = some backslashByte then backslashByte :: unescapeText cs.tail
      else
        match _hoctal : takeOctal cs with
        | some (byte, rest) => byte :: unescapeText rest
        | none => unescapeText cs
    else c :: unescapeText cs
termination_by cs => cs.length
decreasing_by
  · rw [List.length_tail, List.length_cons]
    omega
  · exact (takeOctal_length _hoctal).trans (Nat.lt_succ_self _)
  · exact Nat.lt_succ_self _
  · exact Nat.lt_succ_self _

def PQunescapeBytea (strtext : Bytes) : Bytes :=
  if strtext.take 2 = hexMark then unhexText (strtext.drop 2) else unescapeText strtext

/-- The text is what comes before the first NUL. Without one it would be read beyond its end. -/
def sqlDecodeData (toDecode : Bytes) : Option Bytes :=
  if 0 ∈ toDecode then some (PQunescapeBytea (toDecode.takeWhile (· ≠ 0))) else none

def sqlEncodeData (conn : PGconn) (toEncode : Bytes) : Bytes := PQescapeByteaConn conn toEncode

/-- The data of a field in text format: libpq ends the text with a NUL, and the field
takes it over. -/
def asData (value : Bytes) : Bytes := value ++ [0]

/-! ### Digits -/

theorem hexPair_spec (c : UInt8) :
    ∃ d d' v1 v2, hexPair c = [d, d'] ∧ hexVal d = some v1 ∧ hexVal d' = some v2 ∧
      UInt8.ofNat (v1 <<< 4 ||| v2) = c := by
  have all : ∀ c : UInt8,
      hexVal (hexDigit (c >>> 4 &&& 0xf)) = some (c >>> 4 &&& 0xf).toNat ∧
        hexVal (hexDigit (c &&& 0xf)) = some (c &&& 0xf).toNat ∧
        UInt8.ofNat ((c >>> 4 &&& 0xf).toNat <<< 4 ||| (c &&& 0xf).toNat) = c := by
    decide +kernel
  exact ⟨_, _, _, _, rfl, all c⟩

/-- White space is no digit. -/
theorem hexVal_blank {c : UInt8}
    (blank : c = ' '.toUInt8 ∨ c = '\n'.toUInt8 ∨ c = '\t'.toUInt8 ∨ c = '\r'.toUInt8) :
    hexVal c = none := by
  rcases blank with rfl | rfl | rfl | rfl <;> decide

theorem takeOctal_octalDigits (c : UInt8) (rest : Bytes) :
    takeOctal (octalDigits c ++ rest) = some (c, rest) := by
  have digits : ∀ c : UInt8, (('0'.toUInt8 ≤ '0'.toUInt8 + (c >>> 6)
      ∧ '0'.toUInt8 + (c >>> 6) ≤ '3'.toUInt8)
      ∧ ('0'.toUInt8 ≤ '0'.toUInt8 + (c >>> 3 &&& 7) ∧ '0'.toUInt8 + (c >>> 3 &&& 7) ≤ '7'.toUInt8)
      ∧ ('0'.toUInt8 ≤ '0'.toUInt8 + (c &&& 7) ∧ '0'.toUInt8 + (c &&& 7) ≤ '7'.toUInt8)) ∧
      ('0'.toUInt8 + (c >>> 6) - '0'.toUInt8) <<< 6
        + ('0'.toUInt8 + (c >>> 3 &&& 7) - '0'.toUInt8) <<< 3
        + ('0'.toUInt8 + (c &&& 7) - '0'.toUInt8) = c := by
    decide +kernel
  obtain ⟨range, value⟩ := digits c
  show (if _ then some (_, rest) else none) = _
  rw [if_pos range, value]

theorem takeOctal_backslash (cs : Bytes) : takeOctal (backslashByte :: cs) = none := by
  unfold takeOctal
  split
  · rename_i d1 d2 d3 rest heq
    cases heq
    exact if_neg fun h => absurd h.1.2 (by decide)
  · rfl

/-! ### What the server puts out it takes in -/

theorem readsOff_hexPair (c : UInt8) : ReadsOff hexDecode (hexPair c) (c :: ·) := by
  intro rest
  obtain ⟨d, d', v1, v2, hpair, hd, hd', hvalue⟩ := hexPair_spec c
  rw [hpair, List.cons_append, List.singleton_append, hexDecode, if_neg, hd, hd']
  · dsimp only
    rw [hvalue]
  · intro blank
    rw [hexVal_blank blank] at hd
    cases hd

theorem escapeDecode_plain {c : UInt8} (plain : c ≠ backslashByte) :
    ReadsOff escapeDecode [c] (c :: ·) := by
  intro rest
  rw [List.singleton_append, escapeDecode, if_pos plain]

theorem escapeDecode_octal {cs rest : Bytes} {c : UInt8} (octal : takeOctal cs = some (c, rest)) :
    escapeDecode (backslashByte :: cs) = (escapeDecode rest).map (c :: ·) := by
  rw [escapeDecode, if_neg (not_not.mpr rfl)]
  split
  · rename_i byte rest' hoctal
    rw [octal] at hoctal
    cases hoctal
    rfl
  · rename_i hoctal
    rw [octal] at hoctal
    cases hoctal

theorem escapeDecode_backslash (cs : Bytes) :
    escapeDecode (backslashByte :: backslashByte :: cs) =
      (escapeDecode cs).map (backslashByte :: ·) := by
  rw [escapeDecode, if_neg (not_not.mpr rfl)]
  split
  · rename_i byte rest' hoctal
    rw [takeOctal_backslash] at hoctal
    cases hoctal
  · exact if_pos rfl

theorem readsOff_escapeOut (c : UInt8) : ReadsOff escapeDecode (escapeOut c) (c :: ·) := by
  unfold escapeOut
  split
  · rename_i backslash
    rw [backslash]
    exact escapeDecode_backslash
  · rename_i backslash
    split
    · intro rest
      exact escapeDecode_octal (takeOctal_octalDigits c rest)
    · exact escapeDecode_plain backslash

theorem foldr_cons (data : Bytes) (r : Bytes) :
    data.foldr (fun c => (c :: ·)) r = data ++ r := by
  induction data with
  | nil => rfl
  | cons c data ih => rw [List.foldr_cons, ih, List.cons_append]

/-- The escape format does not begin with the mark of the other one. -/
theorem take_escapeOut (vlena : Bytes) : (vlena.flatMap escapeOut).take 2 ≠ hexMark := by
  have digit : ∀ c : UInt8, '0'.toUInt8 + (c >>> 6) ≠ 'x'.toUInt8 := by decide +kernel
  cases vlena with
  | nil => decide
  | cons c vlena =>
    rw [List.flatMap_cons, escapeOut]
    split
    · show [backslashByte, backslashByte] ≠ hexMark
      decide
    · split
      · intro mark
        exact digit c (List.cons.inj (List.cons.inj mark).2).1
      · rename_i plain _
        intro mark
        exact plain (List.cons.inj mark).1

theorem byteain_byteaout (output : ByteaOutput) (vlena : Bytes) :
    byteain (byteaout output vlena) = some vlena := by
  cases output with
  | hex =>
    have hread := (readsOff_flatMap vlena fun c _ => readsOff_hexPair c).read_eq (r := []) rfl
    rw [foldr_cons, List.append_nil] at hread
    exact hread
  | escape =>
    have hread := (readsOff_flatMap vlena fun c _ => readsOff_escapeOut c).read_eq (r := [])
      (by rw [escapeDecode])
    rw [foldr_cons, List.append_nil] at hread
    rw [byteain, byteaout, if_neg (take_escapeOut vlena)]
    exact hread

/-! ### What the server takes in the client reads -/

/-- A byte that is no digit is dropped. -/
theorem unhexText_of_none {c : UInt8} (hc : hexVal c = none) (cs : Bytes) :
    unhexText (c :: cs) = unhexText cs := by
  cases cs with
  | nil => rfl
  | cons c' cs => rw [unhexText, hc]

theorem unhexText_of_hexDecode {cs data : Bytes} (h : hexDecode cs = some data) :
    unhexText cs = data := by
  fun_induction hexDecode cs generalizing data with
  | case1 => exact Option.some.inj h
  | case2 c cs blank ih => rw [unhexText_of_none (hexVal_blank blank), ih h]
  | case3 => cases h
  | case4 c _ c' rest v1 v2 hc hc' ih =>
    obtain ⟨data', hrest, rfl⟩ := Option.map_eq_some_iff.mp h
    rw [unhexText, hc]
    dsimp only
    rw [hc']
    dsimp only
    rw [ih hrest]
  | case5 => cases h

theorem unescapeText_octal {cs rest : Bytes} {c : UInt8} (octal : takeOctal cs = some (c, rest)) :
    unescapeText (backslashByte :: cs) = c :: unescapeText rest := by
  have notBackslash : cs.head? ≠ some backslashByte := by
    intro hhead
    obtain ⟨_, rfl⟩ := List.head?_eq_some_iff.mp hhead
    rw [takeOctal_backslash] at octal
    cases octal
  rw [unescapeText, if_pos rfl, if_neg notBackslash]
  split
  · rename_i byte rest' hoctal
    rw [octal] at hoctal
    cases hoctal
    rfl
  · rename_i hoctal
    rw [octal] at hoctal
    cases hoctal

theorem unescapeText_of_escapeDecode {cs data : Bytes} (h : escapeDecode cs = some data) :
    unescapeText cs = data := by
  fun_induction escapeDecode cs generalizing data with
  | case1 =>
    rw [unescapeText]
    exact Option.some.inj h
  | case2 c cs plain ih =>
    obtain ⟨data', hrest, rfl⟩ := Option.map_eq_some_iff.mp h
    rw [unescapeText, if_neg plain, ih hrest]
  | case3 c cs backslash byte rest octal ih =>
    obtain ⟨data', hrest, rfl⟩ := Option.map_eq_some_iff.mp h
    rw [not_not.mp backslash, unescapeText_octal octal, ih hrest]
  | case4 c cs backslash _ double ih =>
    obtain ⟨data', hrest, rfl⟩ := Option.map_eq_some_iff.mp h
    rw [unescapeText, if_pos (not_not.mp backslash), if_pos double, ih hrest]
  | case5 => cases h

/-- **Main result.** The client reads every text that the server accepts, and as the same
data. -/
theorem PQunescapeBytea_of_byteain {strtext data : Bytes} (h : byteain strtext = some data) :
    PQunescapeBytea strtext = data := by
  unfold byteain at h
  unfold PQunescapeBytea
  split at h
  · rename_i mark
    rw [if_pos mark, unhexText_of_hexDecode h]
  · rename_i unmarked
    rw [if_neg unmarked, unescapeText_of_escapeDecode h]

theorem PQunescapeBytea_of_byteain_blanks :
    PQunescapeBytea (utf8Bytes "\\x41 42") = utf8Bytes "AB" :=
  PQunescapeBytea_of_byteain (by decide +kernel)

/-! ### There and back -/

/-- What the client writes is what the server would put out, made ready for a constant. -/
theorem PQescapeByteaInternal_eq (stdStrings useHex : Bool) (data : Bytes) :
    PQescapeByteaInternal stdStrings useHex data =
      (byteaout (if useHex then .hex else .escape) data).flatMap (doubled stdStrings) := by
  cases useHex with
  | false =>
    have byte : ∀ c : UInt8, ∀ std, escapeByte std c = (escapeOut c).flatMap (doubled std) := by
      decide +kernel
    show data.flatMap (escapeByte stdStrings) = (data.flatMap escapeOut).flatMap _
    rw [List.flatMap_assoc]
    exact congrArg data.flatMap (funext fun c => byte c stdStrings)
  | true =>
    have pair : ∀ c : UInt8, ∀ std, (hexPair c).flatMap (doubled std) = hexPair c := by
      decide +kernel
    have mark : ∀ std, hexMark.flatMap (doubled std) =
        (if std then [backslashByte] else [backslashByte, backslashByte]) ++ ['x'.toUInt8] := by
      decide
    show _ ++ 'x'.toUInt8 :: data.flatMap hexPair = (hexMark ++ data.flatMap hexPair).flatMap _
    rw [List.flatMap_append, mark, List.flatMap_assoc,
      show (fun c => (hexPair c).flatMap (doubled stdStrings)) = hexPair from
        funext fun c => pair c stdStrings, List.append_assoc]
    rfl

/-- There is no NUL in what the server puts out. -/
theorem zero_not_mem_byteaout (output : ByteaOutput) (vlena : Bytes) :
    0 ∉ byteaout output vlena := by
  intro hzero
  cases output with
  | hex =>
    have digits : ∀ b : UInt8, 0 ∉ hexPair b := by decide +kernel
    rcases List.mem_append.mp hzero with mark | hzero
    · exact absurd mark (by decide)
    · obtain ⟨b, -, hb⟩ := List.mem_flatMap.mp hzero
      exact digits b hb
  | escape =>
    have escaped : ∀ b : UInt8, 0 ∉ escapeOut b := by decide +kernel
    obtain ⟨b, -, hb⟩ := List.mem_flatMap.mp hzero
    exact escaped b hb

theorem sqlDecodeData_asData {value : Bytes} (nul : 0 ∉ value) :
    sqlDecodeData (asData value) = some (PQunescapeBytea value) := by
  have text : (value ++ [0]).takeWhile (fun c : UInt8 => c ≠ 0) = value := by
    rw [List.takeWhile_append_of_pos, List.takeWhile_cons_of_neg (by decide), List.append_nil]
    rintro c hc
    exact decide_eq_true (ne_of_mem_of_not_mem hc nul)
  rw [sqlDecodeData, asData, if_pos (List.mem_append_right _ (List.mem_singleton_self 0)), text]

/-- A constant that is read and stored as binary data, and what follows it. -/
def storeConstant (settings : ScanSettings) (cs : Bytes) : Option (Bytes × Bytes) := do
  let (text, rest) ← scanLiteral settings cs
  let data ← byteain text
  some (data, rest)

/-- **Main result.** Where client and server agree on backslashes: data that is encoded, put
between quotes, stored, put out in either format and decoded is the same data. -/
theorem sqlDecodeData_round_trip {settings : ScanSettings} {conn : PGconn} (output : ByteaOutput)
    (agree : conn.stdStrings = settings.standardConformingStrings) (data : Bytes) {rest : Bytes}
    (ends : LiteralEnds rest) :
    storeConstant settings (sqlEncodeData conn data ++ quoteByte :: rest) = some (data, rest) ∧
      sqlDecodeData (asData (byteaout output data)) = some data := by
  constructor
  · have hscan := scanLiteral_doubled settings
      (byteaout (if decide (90000 ≤ conn.sversion) then .hex else .escape) data) ends
    rw [← agree, ← PQescapeByteaInternal_eq] at hscan
    rw [storeConstant, sqlEncodeData, PQescapeByteaConn, hscan, Option.bind_eq_bind,
      Option.bind_some]
    dsimp only
    rw [byteain_byteaout]
    rfl
  · rw [sqlDecodeData_asData (zero_not_mem_byteaout output data),
      PQunescapeBytea_of_byteain (byteain_byteaout output data)]

theorem sqlDecodeData_round_trip_old :
    storeConstant ⟨false, .off, false, true, fun _ => true⟩
        (sqlEncodeData ⟨.LATIN1, false, 80400⟩ [0, 39, 92, 200] ++ quoteByte :: utf8Bytes ");") =
      some ([0, 39, 92, 200], utf8Bytes ");") ∧
      sqlDecodeData (asData (byteaout .escape [0, 39, 92, 200])) = some [0, 39, 92, 200] :=
  sqlDecodeData_round_trip .escape rfl _ (by decide)

end PointIPad
