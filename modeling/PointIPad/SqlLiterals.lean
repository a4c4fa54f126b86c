import Mathlib.Data.FinEnum
import PointIPad.Lib.Coding
import PointIPad.StoredNames

/-!
String constants: how libpq escapes a text, and how the server's scanner reads it.

What a backslash is in a constant depends on `standard_conforming_strings`, and how
many bytes libpq takes over at once on the client encoding. In some encodings a part of
a character looks like a backslash; the server converts a query before it is scanned.

**Main results.** A text that is escaped and put between quotes is one constant with
the same text, as far as the server accepts its characters, and whatever follows it
(`scanLiteral_escape`). Escaping writes at most two bytes for each byte (`escape_fits`).
-/

namespace PointIPad

open Coding

abbrev Bytes := List UInt8

def quoteByte : UInt8 := '\''.toUInt8

def backslashByte : UInt8 := '\\'.toUInt8

def isHighbitSet (c : UInt8) : Bool := 0x80 ≤ c

/-! ### The scanner -/

inductive BackslashQuote where
  | off
  | on
  | safeEncoding
deriving DecidableEq, Repr

/-- The settings of the server that a string constant depends on. -/
structure ScanSettings where
  standardConformingStrings : Bool
  backslashQuote : BackslashQuote
  /-- Whether the client encoding is for clients only. -/
  clientOnlyEncoding : Bool
  databaseIsUTF8 : Bool
  /-- `pg_verifymbstr`, for the encoding of the database. -/
  verifymbstr : Bytes → Bool

def octalVal (c : UInt8) : Option Nat :=
  if '0'.toUInt8 ≤ c ∧ c ≤ '7'.toUInt8 then some (c - '0'.toUInt8).toNat else none

def hexVal (c : UInt8) : Option Nat :=
  if '0'.toUInt8 ≤ c ∧ c ≤ '9'.toUInt8 then some (c - '0'.toUInt8).toNat
  else if 'A'.toUInt8 ≤ c ∧ c ≤ 'F'.toUInt8 then some ((c - 'A'.toUInt8).toNat + 10)
  else if 'a'.toUInt8 ≤ c ∧ c ≤ 'f'.toUInt8 then some ((c - 'a'.toUInt8).toNat + 10)
  else none

/-- The value of at most so many digits, and what follows them. -/
def readDigits (val : UInt8 → Option Nat) (base : Nat) : Nat → Nat → Bytes → Nat × Bytes
  | 0, value, cs => (value, cs)
  | _ + 1, value, [] => (value, [])
  | atMost + 1, value, c :: cs =>
    match val c with
    | some d => readDigits val base atMost (base * value + d) cs
    | none => (value, c :: cs)

/-- How many digits a Unicode escape has. -/
def unicodeDigits (c : UInt8) : Nat := if c = 'u'.toUInt8 then 4 else 8

/-- `xeunicode` behind the backslash: the code and what follows. -/
def xeunicode : Bytes → Option (Nat × Bytes)
  | [] => none
  | c :: cs =>
    if (c = 'u'.toUInt8 ∨ c = 'U'.toUInt8) ∧ unicodeDigits c ≤ cs.length
        ∧ (cs.take (unicodeDigits c)).all (fun d => (hexVal d).isSome) then
      some (readDigits hexVal 16 (unicodeDigits c) 0 cs)
    else none

def isUtf16SurrogateFirst (c : Nat) : Bool := 0xD800 ≤ c && c ≤ 0xDBFF

def isUtf16SurrogateSecond (c : Nat) : Bool := 0xDC00 ≤ c && c ≤ 0xDFFF

def surrogatePairToCodepoint (first second : Nat) : Nat :=
  (first % 0x400) * 0x400 + 0x10000 + second % 0x400

/-- What is read, and whether it has to be verified. -/
def addunicode (settings : ScanSettings) (c : Nat) : Option (Bytes × Bool) :=
  if c = 0 ∨ 0x10FFFF < c then none
  else if 0x7F < c ∧ settings.databaseIsUTF8 = false then none
  else some (String.utf8EncodeChar (Char.ofNat c), decide (0x7F < c))

def unescapeSingleChar (c : UInt8) : Bytes × Bool :=
  if c = 'b'.toUInt8 then ([0x08], false)
  else if c = 'f'.toUInt8 then ([0x0c], false)
  else if c = 'n'.toUInt8 then ([0x0a], false)
  else if c = 'r'.toUInt8 then ([0x0d], false)
  else if c = 't'.toUInt8 then ([0x09], false)
  else ([c], c = 0 || isHighbitSet c)

/-- The character that octal or hexadecimal digits stand for. -/
def codedChar (value : Nat) : Bytes × Bool :=
  ([UInt8.ofNat value], UInt8.ofNat value = 0 || isHighbitSet (UInt8.ofNat value))

/-- A Unicode escape behind its backslash. A surrogate needs another one behind it. -/
def xeUnicodeEscape (settings : ScanSettings) (cs : Bytes) : Option ((Bytes × Bool) × Bytes) :=
  match xeunicode cs with
  | none => none
  | some (c, rest) =>
    if isUtf16SurrogateFirst c then
      if rest.head? = some backslashByte then
        match xeunicode rest.tail with
        | some (second, rest) =>
          if isUtf16SurrogateSecond second then
            (addunicode settings (surrogatePairToCodepoint c second)).map (·, rest)
          else none
        | none => none
      else none
    else if isUtf16SurrogateSecond c then none
    else (addunicode settings c).map (·, rest)

def refusesBackslashQuote (settings : ScanSettings) : Bool :=
  match settings.backslashQuote with
  | .off => true
  | .on => false
  | .safeEncoding => settings.clientOnlyEncoding

/-- What stands behind a backslash: the text it is read as, and what follows. -/
def xeEscape (settings : ScanSettings) : Bytes → Option ((Bytes × Bool) × Bytes)
  | [] => none
  | c :: cs =>
    if c = 'u'.toUInt8 ∨ c = 'U'.toUInt8 then xeUnicodeEscape settings (c :: cs)
    else if (octalVal c).isSome then
      let (value, rest) := readDigits octalVal 8 3 0 (c :: cs)
      some (codedChar value, rest)
    else if c = 'x'.toUInt8 ∧ (cs.head?.bind hexVal).isSome then
      let (value, rest) := readDigits hexVal 16 2 0 cs
      some (codedChar value, rest)
    else if c = quoteByte ∧ refusesBackslashQuote settings then none
    else some (unescapeSingleChar c, cs)

def isNewlineByte (c : UInt8) : Bool := c = '\n'.toUInt8 || c = '\r'.toUInt8

def isHorizSpaceByte (c : UInt8) : Bool := c = ' '.toUInt8 || c = '\t'.toUInt8 || c = 0x0c

/-- Behind a quote: where the constant goes on, if blanks and comments with a newline
and another quote stand there. -/
def quotecontinue (newline comment : Bool) : Bytes → Option Bytes
  | [] => none
  | c :: cs =>
    if isNewlineByte c then quotecontinue true false cs
    else if comment then quotecontinue newline true cs
    else if isHorizSpaceByte c then quotecontinue newline false cs
    else if c = '-'.toUInt8 ∧ cs.head? = some '-'.toUInt8 then quotecontinue newline true cs
    else if c = quoteByte ∧ newline then some cs
    else none

/-- The text of a constant, whether it has to be verified, and what follows its last quote. -/
structure Scanned where
  text : Bytes
  sawNonAscii : Bool
  rest : Bytes
deriving DecidableEq, Repr

/-- Text in front of what is read. -/
def Scanned.addlit (ytext : Bytes × Bool) (s : Scanned) : Scanned :=
  { s with text := ytext.1 ++ s.text, sawNonAscii := ytext.2 || s.sawNonAscii }

theorem readDigits_length (val : UInt8 → Option Nat) (base atMost value : Nat) (cs : Bytes) :
    (readDigits val base atMost value cs).2.length ≤ cs.length := by
  fun_induction readDigits val base atMost value cs with
  | case1 value cs => exact Nat.le_refl _
  | case2 _ value => exact Nat.le_refl _
  | case3 atMost value c cs d hd ih => exact Nat.le_succ_of_le ih
  | case4 atMost value c cs hd => exact Nat.le_refl _

theorem xeunicode_length {cs rest : Bytes} {c : Nat} (h : xeunicode cs = some (c, rest)) :
    rest.length ≤ cs.length := by
  cases cs with
  | nil => cases h
  | cons d cs =>
    rw [xeunicode] at h
    split at h
    · have hdigits := readDigits_length hexVal 16 (unicodeDigits d) 0 cs
      rw [Option.some.inj h] at hdigits
      exact Nat.le_succ_of_le hdigits
    · cases h

theorem xeUnicodeEscape_length {settings : ScanSettings} {cs rest : Bytes} {ytext : Bytes × Bool}
    (h : xeUnicodeEscape settings cs = some (ytext, rest)) : rest.length ≤ cs.length := by
  rw [xeUnicodeEscape] at h
  split at h
  · cases h
  · rename_i c behind hfirst
    have hbehind := xeunicode_length hfirst
    split at h
    · split at h
      · split at h
        · rename_i second behind' hsecond
          have htail := xeunicode_length hsecond
          rw [List.length_tail] at htail
          split at h
          · obtain ⟨_, _, heq⟩ := Option.map_eq_some_iff.mp h
            cases heq
            omega
          · cases h
        · cases h
      · cases h
    · split at h
      · cases h
      · obtain ⟨_, _, heq⟩ := Option.map_eq_some_iff.mp h
        cases heq
        exact hbehind

theorem xeEscape_length {settings : ScanSettings} {cs rest : Bytes} {ytext : Bytes × Bool}
    (h : xeEscape settings cs = some (ytext, rest)) : rest.length ≤ cs.length := by
  cases cs with
  | nil => cases h
  | cons c cs =>
    rw [xeEscape] at h
    dsimp only at h
    split at h
    · exact xeUnicodeEscape_length h
    · split at h
      · cases h
        exact readDigits_length _ _ _ _ _
      · split at h
        · cases h
          exact Nat.le_succ_of_le (readDigits_length _ _ _ _ _)
        · split at h
          · cases h
          · cases h
            exact Nat.le_succ _

theorem quotecontinue_length {newline comment : Bool} {cs rest : Bytes}
    (h : quotecontinue newline comment cs = some rest) : rest.length ≤ cs.length := by
  fun_induction quotecontinue newline comment cs with
  | case1 => cases h
  | case2 newline comment c cs _ ih => exact Nat.le_succ_of_le (ih h)
  | case3 newline c cs _ ih => exact Nat.le_succ_of_le (ih h)
  | case4 newline comment c cs _ _ _ ih => exact Nat.le_succ_of_le (ih h)
  | case5 newline comment c cs _ _ _ _ ih => exact Nat.le_succ_of_le (ih h)
  | case6 newline comment c cs =>
    cases h
    exact Nat.le_succ _
  | case7 => cases h

/-- A constant, behind its first quote. -/
def readLiteral (settings : ScanSettings) : Bytes → Option Scanned
  | [] => none
  | c :: cs =>
    if c = quoteByte then
      if cs.head? = some quoteByte then
        (readLiteral settings cs.tail).map (.addlit ([quoteByte], false))
      else
        match _hgap : quotecontinue false false cs with
        | some rest => readLiteral settings rest
        | none => some ⟨[], false, cs⟩
    else if c = backslashByte ∧ settings.standardConformingStrings = false then
      match _hescape : xeEscape settings cs with
      | some (ytext, rest) => (readLiteral settings rest).map (.addlit ytext)
      | none => none
    else (readLiteral settings cs).map (.addlit ([c], false))
termination_by cs => cs.length
decreasing_by
  · rw [List.length_tail, List.length_cons]
    omega
  · have hrest := quotecontinue_length _hgap
    rw [List.length_cons]
    omega
  · have hrest := xeEscape_length _hescape
    rw [List.length_cons]
    omega
  · exact Nat.lt_succ_self _

/-- The text of the constant, and what follows it. -/
def scanLiteral (settings : ScanSettings) (cs : Bytes) : Option (Bytes × Bytes) :=
  (readLiteral settings cs).bind fun s =>
    if s.sawNonAscii && !settings.verifymbstr s.text then none else some (s.text, s.rest)

/-! ### Pieces of a constant -/

/-- What follows the quote at the end: neither another quote, nor a newline and one. -/
def LiteralEnds (rest : Bytes) : Prop :=
  rest.head? ≠ some quoteByte ∧ quotecontinue false false rest = none

instance (rest : Bytes) : Decidable (LiteralEnds rest) := inferInstanceAs (Decidable (_ ∧ _))

section Pieces

variable {settings : ScanSettings} {rest : Bytes} {c : UInt8}

theorem readLiteral_end (ends : LiteralEnds rest) :
    readLiteral settings (quoteByte :: rest) = some ⟨[], false, rest⟩ := by
  rw [readLiteral, if_pos rfl, if_neg ends.1]
  split
  · rename_i behind hgap
    rw [ends.2] at hgap
    cases hgap
  · rfl

theorem readsOff_char (quote : c ≠ quoteByte)
    (backslash : c = backslashByte → settings.standardConformingStrings = true) :
    ReadsOff (readLiteral settings) [c] (.addlit ([c], false)) := by
  intro rest
  rw [List.singleton_append, readLiteral, if_neg quote, if_neg]
  rintro ⟨same, off⟩
  rw [backslash same] at off
  cases off

theorem readsOff_quote :
    ReadsOff (readLiteral settings) [quoteByte, quoteByte] (.addlit ([quoteByte], false)) := by
  intro rest
  rw [List.cons_append, readLiteral, if_pos rfl]
  rfl

theorem readsOff_backslash (off : settings.standardConformingStrings = false) :
    ReadsOff (readLiteral settings) [backslashByte, backslashByte]
      (.addlit ([backslashByte], false)) := by
  intro rest
  have escape : xeEscape settings (backslashByte :: rest) = some (([backslashByte], false), rest) :=
    rfl
  rw [List.cons_append, List.singleton_append, readLiteral, if_neg (by decide), if_pos ⟨rfl, off⟩]
  split
  · rename_i ytext behind hescape
    rw [escape] at hescape
    cases hescape
    rfl
  · rename_i hescape
    rw [escape] at hescape
    cases hescape

end Pieces

/-! ### Escaping -/

/-- The encodings of the server and its clients, in the order of the table. -/
inductive PgEnc where
  | SQL_ASCII | EUC_JP | EUC_CN | EUC_KR | EUC_TW | EUC_JIS_2004 | UTF8 | MULE_INTERNAL
  | LATIN1 | LATIN2 | LATIN3 | LATIN4 | LATIN5 | LATIN6 | LATIN7 | LATIN8 | LATIN9 | LATIN10
  | WIN1256 | WIN1258 | WIN866 | WIN874 | KOI8R | WIN1251 | WIN1252
  | ISO_8859_5 | ISO_8859_6 | ISO_8859_7 | ISO_8859_8
  | WIN1250 | WIN1253 | WIN1254 | WIN1255 | WIN1257 | KOI8U
  | SJIS | BIG5 | GBK | UHC | GB18030 | JOHAB | SHIFT_JIS_2004
deriving DecidableEq, Repr

def pgEucMblen (c : UInt8) : Nat :=
  if c = 0x8e then 2 else if c = 0x8f then 3 else if isHighbitSet c then 2 else 1

def pgEuctwMblen (c : UInt8) : Nat :=
  if c = 0x8e then 4 else if c = 0x8f then 3 else if isHighbitSet c then 2 else 1

def pgUtfMblen (c : UInt8) : Nat :=
  if c &&& 0x80 = 0 then 1
  else if c &&& 0xe0 = 0xc0 then 2
  else if c &&& 0xf0 = 0xe0 then 3
  else if c &&& 0xf8 = 0xf0 then 4
  else 1

def pgMuleMblen (c : UInt8) : Nat :=
  if 0x81 ≤ c ∧ c ≤ 0x8d then 2
  else if c = 0x9a ∨ c = 0x9b then 3
  else if 0x90 ≤ c ∧ c ≤ 0x99 then 3
  else if c = 0x9c ∨ c = 0x9d then 4
  else 1

def pgSjisMblen (c : UInt8) : Nat :=
  if 0xa1 ≤ c ∧ c ≤ 0xdf then 1 else if isHighbitSet c then 2 else 1

/-- EUC_CN, BIG5, GBK and UHC. -/
def pgDoubleMblen (c : UInt8) : Nat := if isHighbitSet c then 2 else 1

def pgGb18030Mblen (c next : UInt8) : Nat :=
  if !isHighbitSet c then 1
  else if 0x40 ≤ next ∧ next ≤ 0x7e ∨ 0x80 ≤ next ∧ next ≤ 0xfe then 2
  else if 0x30 ≤ next ∧ next ≤ 0x39 then 4
  else 2

/-- The table of lengths: by the first byte of a character and the one behind it. -/
def mblen (encoding : PgEnc) (c next : UInt8) : Nat :=
  match encoding with
  | .EUC_JP | .EUC_KR | .EUC_JIS_2004 | .JOHAB => pgEucMblen c
  | .EUC_TW => pgEuctwMblen c
  | .UTF8 => pgUtfMblen c
  | .MULE_INTERNAL => pgMuleMblen c
  | .SJIS | .SHIFT_JIS_2004 => pgSjisMblen c
  | .EUC_CN | .BIG5 | .GBK | .UHC => pgDoubleMblen c
  | .GB18030 => pgGb18030Mblen c next
  | _ => 1

/-- How many bytes the first character of a text has. -/
def pgEncodingMblen (encoding : PgEnc) (mbstr : Bytes) : Nat :=
  mblen encoding (mbstr.headD 0) (mbstr.tail.headD 0)

theorem pgGb18030Mblen_pos (c next : UInt8) : 0 < pgGb18030Mblen c next := by
  unfold pgGb18030Mblen
  split_ifs <;> decide

theorem mblen_pos (encoding : PgEnc) (c next : UInt8) : 0 < mblen encoding c next := by
  have euc : ∀ c, 0 < pgEucMblen c := by decide +kernel
  have euctw : ∀ c, 0 < pgEuctwMblen c := by decide +kernel
  have utf : ∀ c, 0 < pgUtfMblen c := by decide +kernel
  have mule : ∀ c, 0 < pgMuleMblen c := by decide +kernel
  have sjis : ∀ c, 0 < pgSjisMblen c := by decide +kernel
  have double : ∀ c, 0 < pgDoubleMblen c := by decide +kernel
  cases encoding <;> first
    | exact Nat.one_pos
    | exact euc c
    | exact euctw c
    | exact utf c
    | exact mule c
    | exact sjis c
    | exact double c
    | exact pgGb18030Mblen_pos c next

def SQL_STR_DOUBLE (c : UInt8) (escapeBackslash : Bool) : Bool :=
  c = quoteByte || (c = backslashByte && escapeBackslash)

/-- A character that is not a part of a longer one. -/
def doubled (stdStrings : Bool) (c : UInt8) : Bytes :=
  if SQL_STR_DOUBLE c (!stdStrings) then [c, c] else [c]

/-- So many spaces at the end of `target`, as long as they fit. -/
def padOut (length : Nat) : Nat → Bytes → Bytes
  | 0, target => target
  | missing + 1, target =>
    if target.length / 2 ≥ length then target
    else padOut length missing (target ++ [' '.toUInt8])

/-- The loop of `PQescapeStringInternal`, and whether the text is an error. -/
def escapeLoop (encoding : PgEnc) (stdStrings : Bool) (length : Nat) (target : Bytes) :
    Bytes → Bytes × Bool
  | [] => (target, false)
  | c :: source =>
    if c = 0 then (target, false)
    else if !isHighbitSet c then
      escapeLoop encoding stdStrings length (target ++ doubled stdStrings c) source
    else
      let len := pgEncodingMblen encoding (c :: source)
      let copied := ((c :: source).take len).takeWhile (· ≠ 0)
      if copied.length < len then
        (padOut length (len - copied.length) (target ++ copied), true)
      else
        escapeLoop encoding stdStrings length (target ++ copied) ((c :: source).drop len)
termination_by source => source.length
decreasing_by
  · exact Nat.lt_succ_self _
  · have hpos : 0 < pgEncodingMblen encoding (c :: source) := mblen_pos encoding _ _
    rw [List.length_drop, List.length_cons]
    omega

/-- What is written, and whether there is an error. -/
def PQescapeStringInternal (encoding : PgEnc) (stdStrings : Bool) (source : Bytes) : Bytes × Bool :=
  escapeLoop encoding stdStrings source.length [] source

/-- What libpq knows of a connection. -/
structure PGconn where
  clientEncoding : PgEnc
  stdStrings : Bool
  sversion : Nat
deriving DecidableEq, Repr

/-- Without a connection the result is empty, and an error. -/
def PQescapeStringConn (conn : Option PGconn) (source : Bytes) : Bytes × Bool :=
  match conn with
  | none => ([], true)
  | some conn => PQescapeStringInternal conn.clientEncoding conn.stdStrings source

/-! ### What is written fits -/

theorem padOut_length {length : Nat} (missing : Nat) {target : Bytes}
    (fits : target.length ≤ 2 * length) : (padOut length missing target).length ≤ 2 * length := by
  induction missing generalizing target with
  | zero => exact fits
  | succ missing ih =>
    rw [padOut]
    split
    · exact fits
    · apply ih
      rw [List.length_append, List.length_singleton]
      omega

theorem doubled_length (stdStrings : Bool) (c : UInt8) : (doubled stdStrings c).length ≤ 2 := by
  unfold doubled
  split
  · exact Nat.le_refl 2
  · exact one_le_two

theorem escapeLoop_length {encoding : PgEnc} {stdStrings : Bool} {length : Nat}
    {target source : Bytes} (fits : target.length + 2 * source.length ≤ 2 * length) :
    (escapeLoop encoding stdStrings length target source).1.length ≤ 2 * length := by
  fun_induction escapeLoop encoding stdStrings length target source with
  | case1 target => exact fits
  | case2 target source => exact le_of_add_le_left fits
  | case3 target c source _ _ ih =>
    have htwo := doubled_length stdStrings c
    apply ih
    rw [List.length_cons] at fits
    rw [List.length_append]
    omega
  | case4 target c source _ _ len copied short =>
    have hcopied : copied.length ≤ (c :: source).length :=
      ((List.takeWhile_sublist _).trans (List.take_sublist _ _)).length_le
    apply padOut_length
    rw [List.length_append]
    omega
  | case5 target c source _ _ len copied whole ih =>
    have hcopied : copied.length ≤ ((c :: source).take len).length :=
      (List.takeWhile_sublist _).length_le
    rw [List.length_take] at hcopied
    apply ih
    rw [List.length_append, List.length_drop]
    omega

/-- **Main result.** At most two bytes for each byte of the text, whatever the text and
the encoding are. -/
theorem escape_fits (encoding : PgEnc) (stdStrings : Bool) (source : Bytes) :
    (PQescapeStringInternal encoding stdStrings source).1.length ≤ 2 * source.length :=
  escapeLoop_length (Nat.le_of_eq (Nat.zero_add _))

/-! ### What reaches the scanner -/

/-- How the server takes characters beyond ASCII that stand together: it verifies them, and
converts them if the database has another encoding. -/
abbrev ConversionProc := Bytes → Option Bytes

/-- No byte that libpq would have doubled is made of characters beyond ASCII. Of the conversions
to an encoding that a server can have one breaks this, where a backslash counts: SHIFT_JIS_2004
to UTF8 makes one of 81 5F. -/
def ConversionProc.Plain (proc : ConversionProc) (stdStrings : Bool) : Prop :=
  ∀ chars converted, proc chars = some converted →
    ∀ d ∈ converted, SQL_STR_DOUBLE d (!stdStrings) = false

/-- The characters beyond ASCII in front of a text, and what follows them. -/
def takeChars (encoding : PgEnc) : Bytes → Option (Bytes × Bytes)
  | [] => some ([], [])
  | c :: cs =>
    if !isHighbitSet c then some ([], c :: cs)
    else
      let len := pgEncodingMblen encoding (c :: cs)
      -- a character that is cut
      if (c :: cs).length < len ∨ 0 ∈ (c :: cs).take len then none
      else (takeChars encoding ((c :: cs).drop len)).map fun p => ((c :: cs).take len ++ p.1, p.2)
termination_by cs => cs.length
decreasing_by
  have hpos : 0 < pgEncodingMblen encoding (c :: cs) := mblen_pos encoding _ _
  rw [List.length_drop, List.length_cons]
  omega

/-- A text of characters beyond ASCII. The length of each is known from its own bytes. -/
inductive Chars (encoding : PgEnc) : Bytes → Prop where
  | nil : Chars encoding []
  | cons {c : UInt8} {char chars : Bytes} :
      isHighbitSet c = true → pgEncodingMblen encoding (c :: char) = char.length + 1 →
      0 ∉ c :: char → Chars encoding chars → Chars encoding (c :: char ++ chars)

/-- No character beyond ASCII comes next. -/
def AsciiNext (text : Bytes) : Prop := ∀ c ∈ text.head?, isHighbitSet c = false

theorem asciiNext_cons {c : UInt8} (ascii : isHighbitSet c = false) (cs : Bytes) :
    AsciiNext (c :: cs) := by
  rintro d ⟨⟩
  exact ascii

/-- What is behind a character has no part in its length. -/
theorem pgEncodingMblen_append {encoding : PgEnc} {c : UInt8} (high : isHighbitSet c = true)
    (char rest : Bytes) :
    pgEncodingMblen encoding (c :: char ++ rest) = char.length + 1 ↔
      pgEncodingMblen encoding (c :: char) = char.length + 1 := by
  cases char with
  | cons next char => exact Iff.rfl
  | nil =>
    cases encoding with
    | GB18030 =>
      -- here the second byte counts, but there always is one
      have long : ∀ next, pgGb18030Mblen c next ≠ 1 := by
        intro next
        rw [pgGb18030Mblen, if_neg (by rw [high]; decide)]
        split_ifs <;> decide
      exact iff_of_false (long _) (long _)
    | _ => exact Iff.rfl

theorem takeChars_append {encoding : PgEnc} {chars rest : Bytes} (h : Chars encoding chars)
    (next : AsciiNext rest) : takeChars encoding (chars ++ rest) = some (chars, rest) := by
  induction h with
  | nil =>
    cases rest with
    | nil => rw [List.append_nil, takeChars]
    | cons c rest =>
      rw [List.nil_append, takeChars, if_pos]
      rw [next c rfl]
      rfl
  | @cons c char chars high len nul _ ih =>
    have whole : pgEncodingMblen encoding (c :: char ++ (chars ++ rest)) = (c :: char).length :=
      (pgEncodingMblen_append high char _).mpr len
    rw [List.append_assoc, List.cons_append, takeChars, if_neg (by rw [high]; decide)]
    rw [← List.cons_append]
    dsimp only
    rw [whole, List.take_left, List.drop_left, ih, if_neg]
    · rfl
    · rw [not_or, List.length_append]
      exact ⟨Nat.not_lt.mpr (Nat.le_add_right _ _), nul⟩

theorem chars_of_takeChars (encoding : PgEnc) (text : Bytes) :
    ∀ taken ∈ takeChars encoding text,
      Chars encoding taken.1 ∧ AsciiNext taken.2 ∧ text = taken.1 ++ taken.2 := by
  fun_induction takeChars encoding text with
  | case1 =>
    rintro taken ⟨⟩
    exact ⟨.nil, nofun, rfl⟩
  | case2 c cs ascii =>
    rintro taken ⟨⟩
    exact ⟨.nil, asciiNext_cons ((Bool.not_eq_true' _).mp ascii) cs, rfl⟩
  | case3 => exact nofun
  | case4 c cs high len whole ih =>
    intro taken htaken
    obtain ⟨behind, hbehind, rfl⟩ := Option.map_eq_some_iff.mp htaken
    obtain ⟨hchars, next, left⟩ := ih behind hbehind
    obtain ⟨enough, nul⟩ := not_or.mp whole
    rw [Bool.not_eq_true', Bool.not_eq_false] at high
    -- the character, in front of what follows it
    obtain ⟨n, hn⟩ : ∃ n, len = n + 1 := Nat.exists_eq_succ_of_ne_zero (mblen_pos encoding _ _).ne'
    have hchar : (c :: cs).take len = c :: cs.take n := by rw [hn, List.take_succ_cons]
    have split : c :: cs = c :: cs.take n ++ (behind.1 ++ behind.2) := by
      rw [← hchar, ← left, List.take_append_drop]
    have hlen : (cs.take n).length + 1 = len := by
      rw [← List.length_cons, ← hchar, List.length_take_of_le (Nat.not_lt.mp enough)]
    rw [hchar] at nul ⊢
    refine ⟨.cons high ?_ nul hchars, next, by rw [List.append_assoc, ← split]⟩
    rw [← pgEncodingMblen_append high, ← split]
    exact hlen.symm

/-- `pg_client_to_server`: ASCII stays as it is, and a NUL is refused. -/
def pgClientToServer (encoding : PgEnc) (proc : ConversionProc) : Bytes → Option Bytes
  | [] => some []
  | c :: cs =>
    if c = 0 then none
    else if _ascii : !isHighbitSet c then (pgClientToServer encoding proc cs).map (c :: ·)
    else
      match _taken : takeChars encoding (c :: cs) with
      | none => none
      | some (chars, rest) =>
        (proc chars).bind fun converted =>
          (pgClientToServer encoding proc rest).map (converted ++ ·)
termination_by cs => cs.length
decreasing_by
  · exact Nat.lt_succ_self _
  · obtain ⟨-, next, split⟩ := chars_of_takeChars encoding (c :: cs) _ _taken
    cases chars with
    | nil =>
      rw [List.nil_append] at split
      have ascii := next c (by rw [← split]; rfl)
      exact absurd (by rw [ascii]; rfl) _ascii
    | cons d chars =>
      have split : c :: cs = d :: chars ++ rest := split
      rw [split, List.length_append, List.length_cons]
      omega

/-- What the server takes a text for. -/
inductive ToServer (encoding : PgEnc) (proc : ConversionProc) : Bytes → Bytes → Prop where
  | nil : ToServer encoding proc [] []
  | ascii {c : UInt8} {cs converted : Bytes} :
      c ≠ 0 → isHighbitSet c = false → ToServer encoding proc cs converted →
      ToServer encoding proc (c :: cs) (c :: converted)
  | chars {chars rest converted converted' : Bytes} :
      chars ≠ [] → Chars encoding chars → AsciiNext rest → proc chars = some converted →
      ToServer encoding proc rest converted' →
      ToServer encoding proc (chars ++ rest) (converted ++ converted')

theorem Chars.head {encoding : PgEnc} {chars : Bytes} (h : Chars encoding chars)
    (some_chars : chars ≠ []) : ∃ c cs, chars = c :: cs ∧ c ≠ 0 ∧ isHighbitSet c = true := by
  cases h with
  | nil => exact absurd rfl some_chars
  | @cons c char chars high len nul _ =>
    exact ⟨c, char ++ chars, rfl, fun zero => nul (zero ▸ List.mem_cons_self), high⟩

section Conversions

variable {encoding : PgEnc} {proc : ConversionProc} {text text' rest rest' : Bytes}

theorem toServer_of_eq (encoding : PgEnc) (proc : ConversionProc) (text : Bytes) :
    ∀ converted ∈ pgClientToServer encoding proc text, ToServer encoding proc text converted := by
  fun_induction pgClientToServer encoding proc text with
  | case1 =>
    rintro converted ⟨⟩
    exact .nil
  | case2 => exact nofun
  | case3 c cs nul ascii ih =>
    intro converted h
    obtain ⟨behind, hbehind, rfl⟩ := Option.map_eq_some_iff.mp h
    exact .ascii nul ((Bool.not_eq_true' _).mp ascii) (ih behind hbehind)
  | case4 => exact nofun
  | case5 c cs nul high chars rest taken ih =>
    intro converted h
    obtain ⟨first, hfirst, h⟩ := Option.bind_eq_some_iff.mp h
    obtain ⟨behind, hbehind, rfl⟩ := Option.map_eq_some_iff.mp h
    obtain ⟨hchars, next, split⟩ := chars_of_takeChars encoding (c :: cs) _ taken
    rw [split]
    refine .chars ?_ hchars next hfirst (ih behind hbehind)
    rintro rfl
    rw [Bool.not_eq_true', Bool.not_eq_false] at high
    rw [List.nil_append] at split
    rw [next c (by rw [← split]; rfl)] at high
    cases high

/-- Nothing happens to ASCII. -/
theorem toServer_ascii (ascii : text.all (fun c => c ≠ 0 && !isHighbitSet c) = true) :
    ToServer encoding proc text text := by
  induction text with
  | nil => exact .nil
  | cons c text ih =>
    obtain ⟨hc, ascii⟩ := Bool.and_eq_true_iff.mp ascii
    obtain ⟨nul, low⟩ := Bool.and_eq_true_iff.mp hc
    exact .ascii (of_decide_eq_true nul) ((Bool.not_eq_true' _).mp low) (ih ascii)

theorem ToServer.eq (h : ToServer encoding proc text text') :
    pgClientToServer encoding proc text = some text' := by
  induction h with
  | nil => rw [pgClientToServer]
  | ascii nul ascii _ ih =>
    rw [pgClientToServer, if_neg nul, dif_pos (by rw [ascii]; rfl), ih]
    rfl
  | @chars chars rest converted converted' some_chars hchars next hconverted _ ih =>
    obtain ⟨c, cs, same, nul, high⟩ := hchars.head some_chars
    have taken := takeChars_append hchars next
    rw [same] at taken hconverted ⊢
    rw [List.cons_append, pgClientToServer, if_neg nul, dif_neg (by rw [high]; decide)]
    split
    · rename_i none
      rw [← List.cons_append, taken] at none
      cases none
    · rename_i chars' rest' taken'
      rw [← List.cons_append, taken] at taken'
      cases taken'
      rw [hconverted, Option.bind_some, ih]
      rfl

/-- A text may be cut in front of a byte of ASCII. -/
theorem ToServer.append (h : ToServer encoding proc text text')
    (h' : ToServer encoding proc rest rest') (next : AsciiNext rest) :
    ToServer encoding proc (text ++ rest) (text' ++ rest') := by
  induction h with
  | nil => exact h'
  | ascii nul ascii _ ih => exact .ascii nul ascii ih
  | @chars chars behind converted converted' some_chars hchars hnext hconverted _ ih =>
    rw [List.append_assoc, List.append_assoc]
    refine .chars some_chars hchars ?_ hconverted ih
    cases behind with
    | nil => exact next
    | cons c behind => exact hnext

theorem ToServer.doubled {c : UInt8} (nul : c ≠ 0) (ascii : isHighbitSet c = false)
    (stdStrings : Bool) (h : ToServer encoding proc text text') :
    ToServer encoding proc (doubled stdStrings c ++ text) (doubled stdStrings c ++ text') := by
  unfold PointIPad.doubled
  split
  · exact .ascii nul ascii (.ascii nul ascii h)
  · exact .ascii nul ascii h

end Conversions

/-! ### Constants that are read as they were -/

theorem flatMap_doubled_of_plain {stdStrings : Bool} {text : Bytes}
    (plain : ∀ d ∈ text, SQL_STR_DOUBLE d (!stdStrings) = false) :
    text.flatMap (doubled stdStrings) = text := by
  induction text with
  | nil => rfl
  | cons c text ih =>
    rw [List.flatMap_cons, doubled, plain c List.mem_cons_self, if_neg Bool.false_ne_true,
      ih fun d hd => plain d (List.mem_cons_of_mem c hd), List.singleton_append]

/-- Characters beyond ASCII are taken over as they are, whatever their bytes look like. -/
theorem Chars.escapeLoop {encoding : PgEnc} {chars : Bytes} (h : Chars encoding chars)
    (stdStrings : Bool) (length : Nat) (target rest : Bytes) :
    escapeLoop encoding stdStrings length target (chars ++ rest) =
      escapeLoop encoding stdStrings length (target ++ chars) rest := by
  induction h generalizing target with
  | nil => rw [List.nil_append, List.append_nil]
  | @cons c char chars high len nul _ ih =>
    have whole : pgEncodingMblen encoding (c :: char ++ (chars ++ rest)) = (c :: char).length :=
      (pgEncodingMblen_append high char _).mpr len
    have copied : (c :: char).takeWhile (fun d => d ≠ 0) = c :: char := by
      rw [List.takeWhile_eq_self_iff]
      exact fun d hd => decide_eq_true fun zero => nul (zero ▸ hd)
    have hc : c ≠ 0 := fun zero => nul (zero ▸ List.mem_cons_self)
    rw [List.append_assoc, List.cons_append, PointIPad.escapeLoop, if_neg hc,
      if_neg (by rw [high]; decide), ← List.cons_append]
    dsimp only
    rw [whole, List.take_left, List.drop_left, copied, if_neg (Nat.lt_irrefl _), ih,
      List.append_assoc]

/-- A text that the server accepts is escaped without an error, and what is written for it
reaches the scanner with quotes and backslashes doubled. -/
theorem ToServer.escapeLoop {encoding : PgEnc} {proc : ConversionProc} {text text' : Bytes}
    (h : ToServer encoding proc text text') {stdStrings : Bool} (plain : proc.Plain stdStrings) :
    ∃ escaped, (∀ length target,
        escapeLoop encoding stdStrings length target text = (target ++ escaped, false)) ∧
      escaped.head? = text.head? ∧
      ToServer encoding proc escaped (text'.flatMap (PointIPad.doubled stdStrings)) := by
  induction h with
  | nil =>
    refine ⟨[], fun length target => ?_, rfl, .nil⟩
    rw [PointIPad.escapeLoop, List.append_nil]
  | @ascii c cs converted nul ascii _ ih =>
    obtain ⟨escaped, written, -, reaches⟩ := ih
    refine ⟨PointIPad.doubled stdStrings c ++ escaped, fun length target => ?_, ?_, ?_⟩
    · rw [PointIPad.escapeLoop, if_neg nul, if_pos (by rw [ascii]; rfl), written, List.append_assoc]
    · unfold PointIPad.doubled
      split <;> rfl
    · rw [List.flatMap_cons]
      exact reaches.doubled nul ascii stdStrings
  | @chars chars rest converted converted' some_chars hchars next hconverted _ ih =>
    obtain ⟨escaped, written, first, reaches⟩ := ih
    refine ⟨chars ++ escaped, fun length target => ?_, ?_, ?_⟩
    · rw [hchars.escapeLoop, written, List.append_assoc]
    · obtain ⟨c, cs, rfl, -⟩ := hchars.head some_chars
      rfl
    · rw [List.flatMap_append, flatMap_doubled_of_plain (plain _ _ hconverted)]
      exact .chars some_chars hchars (fun c hc => next c (first ▸ hc)) hconverted reaches

theorem readsOff_doubled (settings : ScanSettings) (c : UInt8) :
    ReadsOff (readLiteral settings) (doubled settings.standardConformingStrings c)
      (.addlit ([c], false)) := by
  unfold doubled
  split
  · rename_i double
    rcases Bool.or_eq_true_iff.mp double with quote | backslash
    · rw [of_decide_eq_true quote]
      exact readsOff_quote
    · obtain ⟨backslash, off⟩ := Bool.and_eq_true_iff.mp backslash
      rw [of_decide_eq_true backslash]
      apply readsOff_backslash
      rwa [Bool.not_eq_true'] at off
  · rename_i single
    obtain ⟨quote, backslash⟩ := Bool.or_eq_false_iff.mp (Bool.eq_false_of_not_eq_true single)
    apply readsOff_char (of_decide_eq_false quote)
    intro same
    rw [decide_eq_true same, Bool.true_and] at backslash
    rwa [Bool.not_eq_false'] at backslash

theorem foldr_addlit (text : Bytes) (s : Scanned) :
    text.foldr (fun c => Scanned.addlit ([c], false)) s = { s with text := text ++ s.text } := by
  induction text with
  | nil => rfl
  | cons c text ih =>
    rw [List.foldr_cons, ih]
    rfl

/-- Bytes that are doubled as the scanner needs it, up to the quote. -/
theorem scanLiteral_doubled (settings : ScanSettings) (text : Bytes) {rest : Bytes}
    (ends : LiteralEnds rest) :
    scanLiteral settings
        (text.flatMap (doubled settings.standardConformingStrings) ++ quoteByte :: rest) =
      some (text, rest) := by
  have hread := readsOff_flatMap text (fun c _ => readsOff_doubled settings c) (quoteByte :: rest)
  rw [readLiteral_end ends, Option.map_some, foldr_addlit] at hread
  rw [scanLiteral, hread]
  show some (text ++ [], rest) = some (text, rest)
  rw [List.append_nil]

/-- **Main result.** Where libpq and the server agree on backslashes: a text of characters that
the server accepts, escaped and put between quotes, reaches the scanner as one constant. It is
read as the text in the encoding of the database, whatever stands around it. -/
theorem scanLiteral_escape {settings : ScanSettings} {conn : PGconn} {proc : ConversionProc}
    {front front' text text' rest rest' : Bytes}
    (agree : conn.stdStrings = settings.standardConformingStrings)
    (plain : proc.Plain settings.standardConformingStrings)
    (hfront : pgClientToServer conn.clientEncoding proc front = some front')
    (htext : pgClientToServer conn.clientEncoding proc text = some text')
    (hrest : pgClientToServer conn.clientEncoding proc rest = some rest')
    (ends : LiteralEnds rest') :
    (PQescapeStringConn (some conn) text).2 = false ∧
      ∃ literal, pgClientToServer conn.clientEncoding proc
          (front ++ quoteByte :: ((PQescapeStringConn (some conn) text).1 ++ quoteByte :: rest)) =
            some (front' ++ quoteByte :: literal) ∧
        scanLiteral settings literal = some (text', rest') := by
  have quote : ∀ {cs converted}, ToServer conn.clientEncoding proc cs converted →
      ToServer conn.clientEncoding proc (quoteByte :: cs) (quoteByte :: converted) :=
    .ascii (by decide) rfl
  have next : ∀ cs, AsciiNext (quoteByte :: cs) := asciiNext_cons rfl
  obtain ⟨escaped, written, -, reaches⟩ := (toServer_of_eq _ _ text _ htext).escapeLoop plain
  have escapes : PQescapeStringConn (some conn) text = (escaped, false) := by
    rw [PQescapeStringConn, PQescapeStringInternal, agree]
    exact written _ []
  rw [escapes]
  refine ⟨rfl, _, ?_, scanLiteral_doubled settings text' ends⟩
  have behind := reaches.append (quote (toServer_of_eq _ _ rest _ hrest)) (next _)
  exact ((toServer_of_eq _ _ front _ hfront).append (quote behind) (next _)).eq

namespace Kanji

/-- A character of SJIS, the second byte of which is that of a backslash, in EUC_JP. -/
def proc : ConversionProc := fun chars => if chars = [0x95, 0x5c] then some [0xc9, 0xbd] else none

theorem plain : proc.Plain false := by
  intro chars converted h d hd
  unfold proc at h
  split at h
  · cases h
    rcases List.mem_pair.mp hd with rfl | rfl <;> rfl
  · cases h

def conn : PGconn := ⟨.SJIS, false, 90101⟩

/-- The character, a quote and a backslash. -/
def text : Bytes := [0x95, 0x5c] ++ [quoteByte, backslashByte]

theorem text_toServer :
    ToServer .SJIS proc text ([0xc9, 0xbd] ++ [quoteByte, backslashByte]) := by
  have kanji : Chars .SJIS [0x95, 0x5c] :=
    @Chars.cons .SJIS 0x95 [0x5c] [] rfl rfl (by decide) .nil
  apply ToServer.chars (List.cons_ne_nil _ _) kanji (asciiNext_cons rfl [backslashByte])
  · decide
  · exact toServer_ascii (by decide)

end Kanji

theorem scanLiteral_escape_kanji :
    (PQescapeStringConn (some Kanji.conn) Kanji.text).2 = false ∧
      ∃ literal, pgClientToServer .SJIS Kanji.proc (utf8Bytes "VALUES (" ++ quoteByte ::
          ((PQescapeStringConn (some Kanji.conn) Kanji.text).1 ++ quoteByte :: utf8Bytes ", 1)")) =
            some (utf8Bytes "VALUES (" ++ quoteByte :: literal) ∧
        scanLiteral ⟨false, .safeEncoding, true, false, fun _ => true⟩ literal =
          some ([0xc9, 0xbd] ++ [quoteByte, backslashByte], utf8Bytes ", 1)") := by
  apply scanLiteral_escape rfl Kanji.plain
  · exact (toServer_ascii (by decide)).eq
  · exact Kanji.text_toServer.eq
  · exact (toServer_ascii (by decide)).eq
  · decide

/-- The quote behind a backslash that is made of 81 5F is not the end of the constant. -/
example : ∃ literal, pgClientToServer .SHIFT_JIS_2004
      (fun chars => if chars = [0x81, 0x5f] then some [backslashByte] else none)
      ((PQescapeStringConn (some ⟨.SHIFT_JIS_2004, false, 90101⟩) [0x81, 0x5f]).1 ++
        quoteByte :: utf8Bytes ", 1)") = some (backslashByte :: quoteByte :: literal) ∧
    scanLiteral ⟨false, .safeEncoding, true, true, fun _ => true⟩
      (backslashByte :: quoteByte :: literal) = none := by
  have chars : Chars .SHIFT_JIS_2004 [0x81, 0x5f] :=
    @Chars.cons .SHIFT_JIS_2004 0x81 [0x5f] [] rfl rfl (by decide) .nil
  have escapes : (PQescapeStringConn (some ⟨.SHIFT_JIS_2004, false, 90101⟩) [0x81, 0x5f]).1 =
      [0x81, 0x5f] := by
    have written := chars.escapeLoop false 2 [] []
    rw [PQescapeStringConn, PQescapeStringInternal]
    exact congrArg Prod.fst (written.trans (by rw [escapeLoop]))
  have next : AsciiNext (quoteByte :: utf8Bytes ", 1)") := asciiNext_cons rfl _
  have rest := @toServer_ascii .SHIFT_JIS_2004
    (fun chars => if chars = [0x81, 0x5f] then some [backslashByte] else none)
    (quoteByte :: utf8Bytes ", 1)") (by decide)
  have converted : (if [0x81, 0x5f] = ([0x81, 0x5f] : Bytes) then some [backslashByte] else none) =
      some [backslashByte] := if_pos rfl
  rw [escapes]
  refine ⟨_, (ToServer.chars (List.cons_ne_nil _ _) chars next converted rest).eq, ?_⟩
  rw [scanLiteral, readLiteral, if_neg (by decide), if_pos ⟨rfl, rfl⟩]
  rfl

end PointIPad
