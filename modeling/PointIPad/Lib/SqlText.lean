import Mathlib.Algebra.GroupWithZero.Nat
import Mathlib.Algebra.Order.BigOperators.Group.List
import Mathlib.Data.List.Basic
import Mathlib.Data.String.Basic
import Mathlib.Tactic.SplitIfs

/-!
The lexical rules of SQL commands, as PostgreSQL's scanner reads them with
`standard_conforming_strings` on.

A scanner reads a command character by character into words, symbols, quoted
names and constants. Between quotes a quote is written twice; two pieces that only
white space with a newline separates are one constant, and a `--` comment is white
space. Constants may also be escape strings (`E'...'`), bit strings (`B'...'`),
have Unicode escapes (`U&'...'`) or stand between dollar signs; their text is kept
as it is written. Words stand for keywords, names and numbers, and operators are
left as single symbols.

**Main result** (`isSelectWith_written_iff`). A command that is put together
from fixed text and values between quotes is one SELECT with exactly these
values as its constants if and only if no value contains a quote. What carries
the proof is a count: a literal takes two quotes, and two more for each quote in
its text (`owed_le_count`).
-/

namespace Sql

/-- What stands around a constant, and what its text may hold. -/
inductive Quoting where
  | standard
  | escape
  | unicode
  | bits
  | dollar
deriving DecidableEq, Repr

inductive Token where
  | word (text : String)
  | symbol (c : Char)
  | quotedName (text : String)
  | constant (kind : Quoting) (text : String)
deriving DecidableEq, Repr

/-- What is being read. After a quote in a constant, either the constant has ended or
the next character is a quote as well, or it goes on after a gap. -/
inductive Mode where
  | plain (word : List Char)
  | dash
  | slash
  | ampersand (u : Char)
  | quoted (kind : Quoting) (text : List Char)
  | backslash (text : List Char)
  | quote (kind : Quoting) (text : List Char)
  | gap (kind : Quoting) (text : List Char) (newline : Bool)
  | gapDash (kind : Quoting) (text : List Char)
  | gapComment (kind : Quoting) (text : List Char)
  | dollar (tag : List Char)
  | dollarText (tag text : List Char)
  | quotedName (text : List Char)
  | quotedNameQuote (text : List Char)
  | lineComment
  | blockComment (depth : Nat) (last : Char)
  | failed
deriving DecidableEq, Repr

structure Scanner where
  tokens : List Token
  mode : Mode
deriving DecidableEq, Repr

/-! ### Reading -/

def isBlank (c : Char) : Bool := c = ' ' || c = '\t' || c = '\n' || c = '\r' || c = '\x0c'

def isNewline (c : Char) : Bool := c = '\n' || c = '\r'

/-- Letters, and every character beyond ASCII. -/
def isNameStart (c : Char) : Bool := c.isAlpha || c = '_' || 128 ≤ c.toNat

def isNameChar (c : Char) : Bool := isNameStart c || c.isDigit || c = '$'

def isWordStart (c : Char) : Bool := isNameStart c || c.isDigit

/-- Whether a word goes on: a number with digits only. -/
def goesOn (word : List Char) (c : Char) : Bool :=
  match word with
  | [] => isWordStart c
  | d :: _ => if d.isDigit then c.isDigit else isNameChar c

def wordToken (word : List Char) : List Token :=
  if word.isEmpty then [] else [.word (String.ofList word)]

@[simp] theorem wordToken_nil : wordToken [] = [] := rfl

def constantToken (kind : Quoting) (text : List Char) : Token := .constant kind (String.ofList text)

namespace Scanner

def init : Scanner := ⟨[], .plain []⟩

/-- The first character of something new, after some tokens. -/
def start (tokens : List Token) (c : Char) : Scanner :=
  if c = '\'' then ⟨tokens, .quoted .standard []⟩
  else if c = '"' then ⟨tokens, .quotedName []⟩
  else if c = '-' then ⟨tokens, .dash⟩
  else if c = '/' then ⟨tokens, .slash⟩
  else if c = '$' then ⟨tokens, .dollar []⟩
  else if isBlank c then ⟨tokens, .plain []⟩
  else if isWordStart c then ⟨tokens, .plain [c]⟩
  else ⟨tokens ++ [.symbol c], .plain []⟩

/-- A character after a word. Some words of one letter belong to the constant that
begins with the next quote. -/
def afterWord (tokens : List Token) (word : List Char) (c : Char) : Scanner :=
  if goesOn word c then ⟨tokens, .plain (word ++ [c])⟩
  else if c = '\'' ∧ (word = ['e'] ∨ word = ['E']) then ⟨tokens, .quoted .escape []⟩
  else if c = '\'' ∧ (word = ['b'] ∨ word = ['B'] ∨ word = ['x'] ∨ word = ['X']) then
    ⟨tokens, .quoted .bits []⟩
  else if c = '&' ∧ word = ['u'] then ⟨tokens, .ampersand 'u'⟩
  else if c = '&' ∧ word = ['U'] then ⟨tokens, .ampersand 'U'⟩
  else start (tokens ++ wordToken word) c

/-- The delimiter of a text between dollar signs. -/
def delimiter (tag : List Char) : List Char := '$' :: (tag ++ ['$'])

def step (s : Scanner) (c : Char) : Scanner :=
  match s.mode with
  | .plain word => afterWord s.tokens word c
  | .dash =>
    if c = '-' then ⟨s.tokens, .lineComment⟩ else start (s.tokens ++ [.symbol '-']) c
  | .slash =>
    if c = '*' then ⟨s.tokens, .blockComment 1 ' '⟩ else start (s.tokens ++ [.symbol '/']) c
  | .ampersand u =>
    if c = '\'' then ⟨s.tokens, .quoted .unicode []⟩
    else if c = '"' then ⟨s.tokens, .quotedName []⟩
    else start (s.tokens ++ [.word (String.singleton u), .symbol '&']) c
  | .quoted kind text =>
    if c = '\'' then ⟨s.tokens, .quote kind text⟩
    else if kind = .escape ∧ c = '\\' then ⟨s.tokens, .backslash text⟩
    else ⟨s.tokens, .quoted kind (text ++ [c])⟩
  | .backslash text => ⟨s.tokens, .quoted .escape (text ++ ['\\', c])⟩
  | .quote kind text =>
    if c = '\'' ∧ kind ≠ .bits then ⟨s.tokens, .quoted kind (text ++ [c])⟩
    else if isBlank c then ⟨s.tokens, .gap kind text (isNewline c)⟩
    else if c = '-' then ⟨s.tokens, .gapDash kind text⟩
    else start (s.tokens ++ [constantToken kind text]) c
  | .gap kind text newline =>
    if isBlank c then ⟨s.tokens, .gap kind text (newline || isNewline c)⟩
    else if c = '-' then ⟨s.tokens, .gapDash kind text⟩
    else if c = '\'' ∧ newline then ⟨s.tokens, .quoted kind text⟩
    else start (s.tokens ++ [constantToken kind text]) c
  | .gapDash kind text =>
    if c = '-' then ⟨s.tokens, .gapComment kind text⟩
    else start (s.tokens ++ [constantToken kind text, .symbol '-']) c
  | .gapComment kind text => if isNewline c then ⟨s.tokens, .gap kind text true⟩ else s
  | .dollar tag =>
    if c = '$' then ⟨s.tokens, .dollarText tag []⟩
    else if isNameStart c || (!tag.isEmpty && c.isDigit) then ⟨s.tokens, .dollar (tag ++ [c])⟩
    else afterWord (s.tokens ++ [.symbol '$']) tag c
  | .dollarText tag text =>
    if (delimiter tag).isSuffixOf (text ++ [c]) then
      ⟨s.tokens ++ [constantToken .dollar (text.take (text.length - (tag.length + 1)))], .plain []⟩
    else ⟨s.tokens, .dollarText tag (text ++ [c])⟩
  | .quotedName text =>
    if c = '"' then ⟨s.tokens, .quotedNameQuote text⟩ else ⟨s.tokens, .quotedName (text ++ [c])⟩
  | .quotedNameQuote text =>
    if c = '"' then ⟨s.tokens, .quotedName (text ++ [c])⟩
    else if text.isEmpty then ⟨s.tokens, .failed⟩
    else start (s.tokens ++ [.quotedName (String.ofList text)]) c
  | .lineComment => if isNewline c then ⟨s.tokens, .plain []⟩ else s
  | .blockComment depth last =>
    -- comments nest
    if last = '/' ∧ c = '*' then ⟨s.tokens, .blockComment (depth + 1) ' '⟩
    else if last = '*' ∧ c = '/' then
      if depth ≤ 1 then ⟨s.tokens, .plain []⟩ else ⟨s.tokens, .blockComment (depth - 1) ' '⟩
    else ⟨s.tokens, .blockComment depth c⟩
  | .failed => s

def scan (s : Scanner) (text : List Char) : Scanner := text.foldl step s

/-- The tokens that the end of the command completes; an unfinished constant, name or
comment is an error. -/
def last : Mode → Option (List Token)
  | .plain word => some (wordToken word)
  | .dash => some [.symbol '-']
  | .slash => some [.symbol '/']
  | .ampersand u => some [.word (String.singleton u), .symbol '&']
  | .quoted _ _ => none
  | .backslash _ => none
  | .quote kind text => some [constantToken kind text]
  | .gap kind text _ => some [constantToken kind text]
  | .gapDash kind text => some [constantToken kind text, .symbol '-']
  | .gapComment kind text => some [constantToken kind text]
  | .dollar tag => some (.symbol '$' :: wordToken tag)
  | .dollarText _ _ => none
  | .quotedName _ => none
  | .quotedNameQuote text =>
    if text.isEmpty then none else some [.quotedName (String.ofList text)]
  | .lineComment => some []
  | .blockComment _ _ => none
  | .failed => none

def finish (s : Scanner) : Option (List Token) := (last s.mode).map (s.tokens ++ ·)

end Scanner

open Scanner

def lex (command : String) : Option (List Token) := (init.scan command.toList).finish

/-- The constants, each with its kind. -/
def constants (tokens : List Token) : List (Quoting × String) :=
  tokens.filterMap fun t => match t with
    | .constant kind text => some (kind, text)
    | _ => none

/-- The tokens of one SELECT, not followed by another command. -/
def IsSelect (tokens : List Token) : Prop :=
  tokens.head? = some (.word "SELECT") ∧ Token.symbol ';' ∉ tokens

/-- The command is one SELECT; its constants are string literals, and exactly these. -/
def IsSelectWith (command : String) (values : List String) : Prop :=
  ∃ tokens ∈ lex command, IsSelect tokens ∧ constants tokens = values.map (Quoting.standard, ·)

instance (tokens : List Token) : Decidable (IsSelect tokens) :=
  inferInstanceAs (Decidable (_ ∧ _))

instance (command : String) (values : List String) : Decidable (IsSelectWith command values) :=
  inferInstanceAs (Decidable (∃ tokens ∈ lex command, _))

@[simp] theorem constants_append (ts us : List Token) :
    constants (ts ++ us) = constants ts ++ constants us :=
  List.filterMap_append

@[simp] theorem constants_nil : constants [] = [] := rfl

/-! ### Tokens already read -/

section Scan

variable (ts us : List Token) (c : Char) (text more : List Char)

theorem scan_append (s : Scanner) : s.scan (text ++ more) = (s.scan text).scan more :=
  List.foldl_append

theorem scan_cons (s : Scanner) : s.scan (c :: text) = (s.step c).scan text := rfl

/-- The scanner with these tokens before its own. -/
def Scanner.after (ts : List Token) (s : Scanner) : Scanner := ⟨ts ++ s.tokens, s.mode⟩

theorem start_append : start (ts ++ us) c = (start us c).after ts := by
  simp only [start, Scanner.after]
  split_ifs <;> simp

theorem afterWord_append (word : List Char) :
    afterWord (ts ++ us) word c = (afterWord us word c).after ts := by
  simp only [afterWord, List.append_assoc, start_append]
  split_ifs <;> rfl

/-- What was read before does not matter for what is read next. -/
theorem step_after (s : Scanner) : (s.after ts).step c = (s.step c).after ts := by
  obtain ⟨us, m⟩ := s
  cases m <;> simp only [step, Scanner.after, List.append_assoc, start_append, afterWord_append] <;>
    split_ifs <;> simp

theorem scan_after (s : Scanner) : (s.after ts).scan text = (s.scan text).after ts := by
  induction text generalizing s with
  | nil => rfl
  | cons c text ih => rw [scan_cons, scan_cons, step_after, ih]

end Scan

/-! ### Counting quotes -/

/-- The quotes that a token takes in the command, for a literal. -/
def Token.quotes : Token → Nat
  | .constant .standard text => 2 + 2 * text.toList.count '\''
  | _ => 0

/-- The quotes that were read for a literal that is not complete. -/
def Mode.quotes : Mode → Nat
  | .quoted .standard text => 1 + 2 * text.count '\''
  | .quote .standard text => 2 + 2 * text.count '\''
  | .gap .standard text _ => 2 + 2 * text.count '\''
  | .gapDash .standard text => 2 + 2 * text.count '\''
  | .gapComment .standard text => 2 + 2 * text.count '\''
  | _ => 0

def owed (tokens : List Token) : Nat := (tokens.map Token.quotes).sum

def Scanner.owed (s : Scanner) : Nat := Sql.owed s.tokens + s.mode.quotes

section Owed

variable {ts out : List Token} {c : Char} {kind : Quoting} {text word : List Char}

@[simp] theorem owed_append (ts us : List Token) : owed (ts ++ us) = owed ts + owed us := by
  simp [owed]

@[simp] theorem owed_wordToken (word : List Char) : owed (wordToken word) = 0 := by
  unfold wordToken
  split <;> rfl

/-- A constant takes what was read for it. -/
theorem owed_constantToken (kind : Quoting) (text : List Char) :
    owed [constantToken kind text] = (Mode.quote kind text).quotes := by
  cases kind <;> simp [owed, constantToken, Token.quotes, Mode.quotes]

theorem owed_start (ts : List Token) (c : Char) :
    (start ts c).owed ≤ owed ts + [c].count '\'' := by
  unfold start
  split_ifs with quote <;> simp [Scanner.owed, Mode.quotes, quote, owed, Token.quotes]

theorem owed_afterWord (ts : List Token) (word : List Char) (c : Char) :
    (afterWord ts word c).owed ≤ owed ts + [c].count '\'' := by
  have hstart := owed_start (ts ++ wordToken word) c
  rw [owed_append, owed_wordToken, Nat.add_zero] at hstart
  unfold afterWord
  split_ifs <;> first | exact hstart | simp [Scanner.owed, Mode.quotes]

/-- A constant is complete before the next token. -/
theorem owed_start_constant (ts : List Token) (kind : Quoting) (text : List Char) (c : Char) :
    (start (ts ++ [constantToken kind text]) c).owed ≤
      owed ts + (Mode.quote kind text).quotes + [c].count '\'' := by
  have hstart := owed_start (ts ++ [constantToken kind text]) c
  rwa [owed_append, owed_constantToken] at hstart

theorem quotes_quoted_append (kind : Quoting) (text : List Char) (hc : c ≠ '\'') :
    (Mode.quoted kind (text ++ [c])).quotes = (Mode.quoted kind text).quotes := by
  have hcount : [c].count '\'' = 0 := List.count_eq_zero.mpr (by simpa using hc.symm)
  cases kind <;> simp [Mode.quotes, List.count_append, hcount]

/-- Reading a character raises the count by one at most, and only for a quote. -/
theorem owed_step (s : Scanner) (c : Char) : (s.step c).owed ≤ s.owed + [c].count '\'' := by
  obtain ⟨ts, m⟩ := s
  have hstart := owed_start ts c
  cases m with
  | plain word => exact owed_afterWord ts word c
  | dash =>
    have hsymbol := owed_start (ts ++ [.symbol '-']) c
    simp only [step]
    split_ifs
    · simp [Scanner.owed, Mode.quotes]
    · simpa [Scanner.owed, Mode.quotes, owed, Token.quotes] using hsymbol
  | slash =>
    have hsymbol := owed_start (ts ++ [.symbol '/']) c
    simp only [step]
    split_ifs
    · simp [Scanner.owed, Mode.quotes]
    · simpa [Scanner.owed, Mode.quotes, owed, Token.quotes] using hsymbol
  | ampersand u =>
    have hsymbol := owed_start (ts ++ [.word (String.singleton u), .symbol '&']) c
    simp only [step]
    split_ifs
    · simp [Scanner.owed, Mode.quotes]
    · simp [Scanner.owed, Mode.quotes]
    · simpa [Scanner.owed, Mode.quotes, owed, Token.quotes] using hsymbol
  | quoted kind text =>
    simp only [step]
    split_ifs with quote backslash
    · cases kind with
      | standard =>
        simp only [Scanner.owed, Mode.quotes, quote, List.count_singleton_self]
        omega
      | _ => simp [Scanner.owed, Mode.quotes]
    · simp [Scanner.owed, Mode.quotes, backslash.1]
    · simp [Scanner.owed, quotes_quoted_append kind text quote]
  | backslash text => simp [step, Scanner.owed, Mode.quotes]
  | quote kind text =>
    simp only [step]
    split_ifs with again blank dash
    · cases kind with
      | standard =>
        simp only [Scanner.owed, Mode.quotes, again.1, List.count_append, List.count_singleton_self]
        omega
      | _ => simp [Scanner.owed, Mode.quotes]
    · cases kind <;> simp [Scanner.owed, Mode.quotes]
    · cases kind <;> simp [Scanner.owed, Mode.quotes]
    · exact owed_start_constant ts kind text c
  | gap kind text newline =>
    have hconstant := owed_start_constant ts kind text c
    simp only [step]
    split_ifs with blank dash again
    · cases kind <;> simp [Scanner.owed, Mode.quotes]
    · cases kind <;> simp [Scanner.owed, Mode.quotes]
    · cases kind with
      | standard =>
        simp only [Scanner.owed, Mode.quotes]
        omega
      | _ => simp [Scanner.owed, Mode.quotes]
    · cases kind <;> exact hconstant
  | gapDash kind text =>
    have htwo : owed [constantToken kind text, .symbol '-'] = (Mode.quote kind text).quotes :=
      owed_constantToken kind text
    have hsymbol := owed_start (ts ++ [constantToken kind text, .symbol '-']) c
    rw [owed_append, htwo] at hsymbol
    simp only [step]
    split_ifs
    · cases kind <;> simp [Scanner.owed, Mode.quotes]
    · cases kind <;> exact hsymbol
  | gapComment kind text =>
    simp only [step]
    split_ifs
    · cases kind <;> simp [Scanner.owed, Mode.quotes]
    · simp
  | dollar tag =>
    have hsymbol := owed_afterWord (ts ++ [.symbol '$']) tag c
    simp only [step]
    split_ifs
    · simp [Scanner.owed, Mode.quotes]
    · simp [Scanner.owed, Mode.quotes]
    · simpa [Scanner.owed, Mode.quotes, owed, Token.quotes] using hsymbol
  | dollarText tag text =>
    simp only [step]
    split_ifs <;> simp [Scanner.owed, Mode.quotes, owed, constantToken, Token.quotes]
  | quotedName text =>
    simp only [step]
    split_ifs <;> simp [Scanner.owed, Mode.quotes]
  | quotedNameQuote text =>
    have hname := owed_start (ts ++ [.quotedName (String.ofList text)]) c
    simp only [step]
    split_ifs
    · simp [Scanner.owed, Mode.quotes]
    · simp [Scanner.owed, Mode.quotes]
    · simpa [Scanner.owed, Mode.quotes, owed, Token.quotes] using hname
  | lineComment =>
    simp only [step]
    split_ifs <;> simp [Scanner.owed, Mode.quotes]
  | blockComment depth last =>
    simp only [step]
    split_ifs <;> simp [Scanner.owed, Mode.quotes]
  | failed => simp [step]

theorem owed_scan (s : Scanner) (text : List Char) :
    (s.scan text).owed ≤ s.owed + text.count '\'' := by
  induction text generalizing s with
  | nil => exact Nat.le_refl _
  | cons c text ih =>
    have hstep := owed_step s c
    have hrest := ih (s.step c)
    rw [scan_cons, List.count_cons]
    rw [List.count_cons, List.count_nil] at hstep
    omega

theorem owed_last {m : Mode} (h : last m = some out) : owed out ≤ m.quotes := by
  cases m with
  | quote kind text =>
    cases h
    exact Nat.le_of_eq (owed_constantToken kind text)
  | gap kind text newline =>
    cases h
    rw [owed_constantToken]
    cases kind <;> exact Nat.le_refl _
  | gapDash kind text =>
    have htwo : owed [constantToken kind text, .symbol '-'] = (Mode.quote kind text).quotes :=
      owed_constantToken kind text
    cases h
    rw [htwo]
    cases kind <;> exact Nat.le_refl _
  | gapComment kind text =>
    cases h
    rw [owed_constantToken]
    cases kind <;> exact Nat.le_refl _
  | quotedNameQuote text =>
    simp only [last] at h
    split_ifs at h
    cases h
    exact Nat.le_refl _
  | plain word =>
    cases h
    exact Nat.le_of_eq (owed_wordToken word)
  | dollar tag =>
    cases h
    exact Nat.le_of_eq ((Nat.zero_add _).trans (owed_wordToken tag))
  | _ =>
    cases h
    try exact Nat.le_refl _

theorem owed_finish {s : Scanner} (h : s.finish = some out) : owed out ≤ s.owed := by
  obtain ⟨more, hlast, rfl⟩ := Option.map_eq_some_iff.mp h
  rw [owed_append]
  exact Nat.add_le_add_left (owed_last hlast) _

/-- **A command has the quotes that its literals take**, two for each and two more for
each quote in its text. -/
theorem owed_le_count {command : String} (h : lex command = some out) :
    owed out ≤ command.toList.count '\'' := by
  have hscan := (owed_finish h).trans (owed_scan init command.toList)
  rwa [show init.owed = 0 from rfl, Nat.zero_add] at hscan

theorem owed_eq_sum_constants (tokens : List Token) :
    owed tokens = ((constants tokens).map fun p => (Token.constant p.1 p.2).quotes).sum := by
  induction tokens with
  | nil => rfl
  | cons t tokens ih =>
    rw [owed, List.map_cons, List.sum_cons, ← owed, ih]
    cases t with
    | constant kind text => rfl
    | _ => exact Nat.zero_add _

end Owed

/-! ### Commands put together -/

/-- Pieces of fixed text, each followed by a value between quotes. -/
def written : List (String × String) → String
  | [] => ""
  | (before, value) :: parts => before ++ "'" ++ value ++ "'" ++ written parts

/-- The tokens of a piece of fixed text. -/
def tokensOf (before : String) : List Token := (init.scan before.toList).tokens

/-- The text is made of whole tokens, none of them a constant or the end of a command. -/
structure Fixed (before : String) : Prop where
  whole : (init.scan before.toList).mode = .plain []
  quoteFree : '\'' ∉ before.toList
  no_constant : constants (tokensOf before) = []
  no_end : Token.symbol ';' ∉ tokensOf before

instance (before : String) : Decidable (Fixed before) :=
  decidable_of_iff ((init.scan before.toList).mode = .plain [] ∧ '\'' ∉ before.toList ∧
      constants (tokensOf before) = [] ∧ Token.symbol ';' ∉ tokensOf before)
    ⟨fun h => ⟨h.1, h.2.1, h.2.2.1, h.2.2.2⟩,
      fun h => ⟨h.whole, h.quoteFree, h.no_constant, h.no_end⟩⟩

/-- The text may stand after a literal: it begins with a blank and a name. -/
def Separate (before : String) : Prop :=
  before.toList.head? = some ' ' ∧ (before.toList[1]?).any isNameStart = true

instance (before : String) : Decidable (Separate before) := inferInstanceAs (Decidable (_ ∧ _))

/-- What may follow a literal: nothing, or a blank and a name. -/
def Apart (more : List Char) : Prop :=
  more = [] ∨ ∃ c rest, more = ' ' :: c :: rest ∧ isNameStart c = true

/-- Formats whose quotes belong to the fixed text. -/
theorem written_one {a a' x : String} (ha : a' = a ++ "'") : a' ++ x ++ "'" = written [(a, x)] := by
  simp only [ha, written, String.append_empty]

theorem written_two {a b a' b' x y : String} (ha : a' = a ++ "'") (hb : b' = "'" ++ b ++ "'") :
    a' ++ x ++ b' ++ y ++ "'" = written [(a, x), (b, y)] := by
  simp only [ha, hb, written, String.append_assoc, String.append_empty]

theorem written_three {a b d a' b' d' x y z : String} (ha : a' = a ++ "'")
    (hb : b' = "'" ++ b ++ "'") (hd : d' = "'" ++ d ++ "'") :
    a' ++ x ++ b' ++ y ++ d' ++ z ++ "'" = written [(a, x), (b, y), (d, z)] := by
  simp only [ha, hb, hd, written, String.append_assoc, String.append_empty]

section Written

variable {ts out : List Token} {before : String} {text value more : List Char}
  {parts : List (String × String)}

theorem toList_written_cons (p : String × String) (parts : List (String × String)) :
    (written (p :: parts)).toList =
      p.1.toList ++ '\'' :: (p.2.toList ++ '\'' :: (written parts).toList) := by
  have hquote : "'".toList = ['\''] := rfl
  simp only [written, String.toList_append, hquote, List.append_assoc,
    List.cons_append, List.nil_append]

/-- The quotes of a command: those around the values, and those in them. -/
theorem count_written (fixed : ∀ p ∈ parts, Fixed p.1) :
    (written parts).toList.count '\'' =
      (parts.map fun p => 2 + p.2.toList.count '\'').sum := by
  induction parts with
  | nil => rfl
  | cons p parts ih =>
    have hrest := ih fun q hq => fixed q (List.mem_cons_of_mem p hq)
    have hnone := List.count_eq_zero.mpr (fixed p List.mem_cons_self).quoteFree
    rw [toList_written_cons, List.count_append, List.count_cons_self, List.count_append,
      List.count_cons_self, hrest, hnone, List.map_cons, List.sum_cons]
    omega

/-- A command whose literals are its values has no quotes in them. -/
theorem quoteFree_of_constants (fixed : ∀ p ∈ parts, Fixed p.1)
    (h : lex (written parts) = some out)
    (hconstants : constants out = (parts.map Prod.snd).map (Quoting.standard, ·)) :
    ∀ p ∈ parts, '\'' ∉ p.2.toList := by
  have hle := owed_le_count h
  rw [owed_eq_sum_constants, hconstants, List.map_map, List.map_map, count_written fixed] at hle
  intro p hp hquote
  have hpos : 0 < p.2.toList.count '\'' := List.count_pos_iff.mpr hquote
  refine absurd hle (Nat.not_le_of_lt ?_)
  refine List.sum_lt_sum _ _ (fun q _ => ?_) ⟨p, hp, ?_⟩
  · exact Nat.add_le_add_left (Nat.le_mul_of_pos_left _ (by decide)) 2
  · simp only [Function.comp_apply, Token.quotes]
    omega

theorem apart_written (separate : ∀ p ∈ parts, Separate p.1) : Apart (written parts).toList := by
  cases parts with
  | nil => exact .inl rfl
  | cons p parts =>
    obtain ⟨hhead, hany⟩ := separate p List.mem_cons_self
    obtain ⟨c, hsecond, hc⟩ := (Option.any_eq_true _ _).mp hany
    obtain ⟨rest, hbefore⟩ : ∃ rest, p.1.toList = ' ' :: c :: rest := by
      rcases hlist : p.1.toList with _ | ⟨b, _ | ⟨c', rest⟩⟩
      · simp [hlist] at hhead
      · simp [hlist] at hsecond
      · simp_all
    refine .inr ⟨c, rest ++ '\'' :: (p.2.toList ++ '\'' :: (written parts).toList), ?_, hc⟩
    rw [toList_written_cons, hbefore]
    rfl

theorem scan_fixed (ts : List Token) (fixed : Fixed before) :
    (⟨ts, .plain []⟩ : Scanner).scan before.toList = ⟨ts ++ tokensOf before, .plain []⟩ := by
  have hafter : (⟨ts, .plain []⟩ : Scanner) = init.after ts := by simp [Scanner.after, init]
  rw [hafter, scan_after, Scanner.after, fixed.whole]
  rfl

/-- Up to its quote, a literal is read as it stands. -/
theorem scan_value (free : '\'' ∉ value) :
    (⟨ts, .quoted .standard text⟩ : Scanner).scan value =
      ⟨ts, .quoted .standard (text ++ value)⟩ := by
  induction value generalizing text with
  | nil => simp [Scanner.scan]
  | cons c value ih =>
    rw [List.mem_cons, not_or] at free
    have hnext : step ⟨ts, .quoted .standard text⟩ c = ⟨ts, .quoted .standard (text ++ [c])⟩ := by
      simp [step, Ne.symm free.1]
    rw [scan_cons, hnext, ih free.2, List.append_assoc, List.singleton_append]

theorem ne_of_isWordStart {c : Char} (h : isWordStart c = true) :
    c ≠ '\'' ∧ c ≠ '"' ∧ c ≠ '-' ∧ c ≠ '/' ∧ c ≠ '$' ∧ c ≠ '&' ∧ ¬ isBlank c := by
  have apart (d : Char) (hd : isWordStart d = false) : c ≠ d := by
    rintro rfl
    rw [hd] at h
    cases h
  refine ⟨apart _ (by decide), apart _ (by decide), apart _ (by decide), apart _ (by decide),
    apart _ (by decide), apart _ (by decide), fun blank => ?_⟩
  simp only [isBlank, Bool.or_eq_true, decide_eq_true_eq] at blank
  rcases blank with (((rfl | rfl) | rfl) | rfl) | rfl <;> exact absurd h (by decide)

theorem start_of_isWordStart {c : Char} (h : isWordStart c = true) :
    start ts c = ⟨ts, .plain [c]⟩ := by
  obtain ⟨hquote, hname, hdash, hslash, hdollar, -, hblank⟩ := ne_of_isWordStart h
  simp [start, hquote, hname, hdash, hslash, hdollar, hblank, h]

theorem isWordStart_of_isNameStart {c : Char} (h : isNameStart c = true) : isWordStart c = true := by
  rw [isWordStart, h, Bool.true_or]

/-- A literal is complete before what may follow it. -/
theorem finish_quote (apart : Apart more) :
    ((⟨ts, .quote .standard text⟩ : Scanner).scan more).finish =
      ((⟨ts ++ [constantToken .standard text], .plain []⟩ : Scanner).scan more).finish := by
  rcases apart with rfl | ⟨c, rest, rfl, hc⟩
  · simp [Scanner.scan, finish, last]
  · have hword := isWordStart_of_isNameStart hc
    obtain ⟨hquote, -, hdash, -, -, -, hblank⟩ := ne_of_isWordStart hword
    have hgap : step ⟨ts, .quote .standard text⟩ ' ' = ⟨ts, .gap .standard text false⟩ := rfl
    have hspace : step ⟨ts ++ [constantToken .standard text], .plain []⟩ ' ' =
        ⟨ts ++ [constantToken .standard text] ++ [], .plain []⟩ := rfl
    have hnext : step ⟨ts, .gap .standard text false⟩ c =
        start (ts ++ [constantToken .standard text]) c := by
      simp [step, hdash, hblank]
    have hplain : step ⟨ts ++ [constantToken .standard text] ++ [], .plain []⟩ c =
        start (ts ++ [constantToken .standard text]) c := by
      rw [start_of_isWordStart hword, List.append_nil]
      simp [step, afterWord, goesOn, hword]
    rw [scan_cons, scan_cons, scan_cons, scan_cons, hgap, hspace, hnext, hplain]

/-- The scanner after a part: its fixed text and its value between quotes. -/
theorem finish_part (fixed : Fixed before) (free : '\'' ∉ value) (apart : Apart more) :
    ((⟨ts, .plain []⟩ : Scanner).scan (before.toList ++ '\'' :: (value ++ '\'' :: more))).finish =
      ((⟨ts ++ tokensOf before ++ [constantToken .standard value], .plain []⟩ : Scanner).scan
        more).finish := by
  have hopen : step ⟨ts ++ tokensOf before, .plain []⟩ '\'' =
      ⟨ts ++ tokensOf before ++ [], .quoted .standard []⟩ := rfl
  have hclose : step ⟨ts ++ tokensOf before ++ [], .quoted .standard value⟩ '\'' =
      ⟨ts ++ tokensOf before ++ [], .quote .standard value⟩ := rfl
  rw [scan_append, scan_fixed _ fixed, scan_cons, hopen, scan_append, scan_value free,
    List.nil_append, scan_cons, hclose, List.append_nil, finish_quote apart]

/-- Without quotes in its values, a command is read as its fixed text and the values. -/
theorem finish_written (ts : List Token) (fixed : ∀ p ∈ parts, Fixed p.1)
    (separate : ∀ p ∈ parts.tail, Separate p.1)
    (free : ∀ p ∈ parts, '\'' ∉ p.2.toList) :
    ((⟨ts, .plain []⟩ : Scanner).scan (written parts).toList).finish =
      some (ts ++ parts.flatMap fun p => tokensOf p.1 ++ [.constant .standard p.2]) := by
  induction parts generalizing ts with
  | nil => simp [written, Scanner.scan, finish, last]
  | cons p parts ih =>
    have later : ∀ q ∈ parts, Separate q.1 := separate
    have hlater := ih (ts ++ tokensOf p.1 ++ [constantToken .standard p.2.toList])
      (fun q hq => fixed q (List.mem_cons_of_mem p hq))
      (fun q hq => separate q (List.mem_of_mem_tail hq))
      (fun q hq => free q (List.mem_cons_of_mem p hq))
    rw [toList_written_cons, finish_part (fixed p List.mem_cons_self) (free p List.mem_cons_self)
      (apart_written later), hlater]
    simp [constantToken]

theorem constants_flatMap (fixed : ∀ p ∈ parts, Fixed p.1) :
    constants (parts.flatMap fun p => tokensOf p.1 ++ [.constant .standard p.2]) =
      (parts.map Prod.snd).map (Quoting.standard, ·) := by
  induction parts with
  | nil => rfl
  | cons p parts ih =>
    have hlater := ih fun q hq => fixed q (List.mem_cons_of_mem p hq)
    rw [List.flatMap_cons, constants_append, constants_append,
      (fixed p List.mem_cons_self).no_constant, hlater]
    rfl

end Written

/-! ### Numbers in the fixed text -/

/-- The text has no quote, and outside of constants it is read as words and symbols
that do not end the command. -/
structure Calm (text : List Char) : Prop where
  quoteFree : '\'' ∉ text
  reads : ∀ ts word, ∃ read word',
    (⟨ts, .plain word⟩ : Scanner).scan text = ⟨ts ++ read, .plain word'⟩ ∧
      constants read = [] ∧ Token.symbol ';' ∉ read

section Calm

variable {text more : List Char} {c : Char}

theorem constants_wordToken (word : List Char) :
    constants (wordToken word) = [] ∧ Token.symbol ';' ∉ wordToken word := by
  unfold wordToken
  split <;> simp [constants]

theorem calm_nil : Calm [] :=
  ⟨List.not_mem_nil, fun ts word => ⟨[], word, by simp [Scanner.scan], rfl, by simp⟩⟩

theorem Calm.append (htext : Calm text) (hmore : Calm more) : Calm (text ++ more) := by
  refine ⟨?_, fun ts word => ?_⟩
  · rw [List.mem_append, not_or]
    exact ⟨htext.quoteFree, hmore.quoteFree⟩
  · obtain ⟨read, word', hscan, hconstants, hend⟩ := htext.reads ts word
    obtain ⟨read', word'', hscan', hconstants', hend'⟩ := hmore.reads (ts ++ read) word'
    refine ⟨read ++ read', word'', ?_, ?_, ?_⟩
    · rw [scan_append, hscan, hscan', List.append_assoc]
    · rw [constants_append, hconstants, hconstants', List.append_nil]
    · rw [List.mem_append, not_or]
      exact ⟨hend, hend'⟩

/-- A letter or a digit goes on with a word or begins one. -/
theorem calm_wordStart (hc : isWordStart c = true) : Calm [c] := by
  obtain ⟨hquote, -, -, -, -, hand, -⟩ := ne_of_isWordStart hc
  refine ⟨by simpa using hquote.symm, fun ts word => ?_⟩
  by_cases on : goesOn word c = true
  · refine ⟨[], word ++ [c], ?_, rfl, by simp⟩
    simp [Scanner.scan, step, afterWord, on]
  · obtain ⟨hconstants, hend⟩ := constants_wordToken word
    refine ⟨wordToken word, [c], ?_, hconstants, hend⟩
    simp [Scanner.scan, step, afterWord, on, hquote, hand, start_of_isWordStart hc]

theorem not_goesOn (hc : isNameChar c = false) (word : List Char) : goesOn word c = false := by
  simp only [isNameChar, Bool.or_eq_false_iff] at hc
  unfold goesOn
  split
  · rw [isWordStart, hc.1.1, hc.1.2, Bool.or_self]
  · split
    · exact hc.1.2
    · rw [isNameChar, hc.1.1, hc.1.2, hc.2, Bool.or_self, Bool.or_self]

/-- A point or a plus sign. -/
theorem calm_symbol (hc : c = '.' ∨ c = '+') : Calm [c] := by
  refine ⟨by rcases hc with rfl | rfl <;> decide, fun ts word => ?_⟩
  obtain ⟨hconstants, hend⟩ := constants_wordToken word
  have hname : isNameChar c = false := by rcases hc with rfl | rfl <;> decide
  have hoff := not_goesOn hname word
  refine ⟨wordToken word ++ [.symbol c], [], ?_, ?_, ?_⟩
  · rcases hc with rfl | rfl <;>
      simp [Scanner.scan, step, afterWord, hoff, start, isWordStart, isNameStart, isBlank]
  · rw [constants_append, hconstants]
    rfl
  · rcases hc with rfl | rfl <;> simp [hend]

theorem calm_of_forall (h : ∀ c ∈ text, isWordStart c = true ∨ c = '.' ∨ c = '+') : Calm text := by
  induction text with
  | nil => exact calm_nil
  | cons c text ih =>
    have hfirst : Calm [c] := by
      rcases h c List.mem_cons_self with hword | hsymbol
      · exact calm_wordStart hword
      · exact calm_symbol hsymbol
    exact hfirst.append (ih fun d hd => h d (List.mem_cons_of_mem c hd))

/-- A minus sign before a word does not start a comment. -/
theorem calm_dash (hc : isWordStart c = true) : Calm ['-', c] := by
  obtain ⟨hquote, -, hdash, -, -, -, -⟩ := ne_of_isWordStart hc
  refine ⟨by simpa using hquote.symm, fun ts word => ?_⟩
  obtain ⟨hconstants, hend⟩ := constants_wordToken word
  have hoff := not_goesOn (c := '-') (by decide) word
  refine ⟨wordToken word ++ [.symbol '-'], [c], ?_, ?_, ?_⟩
  · have hfirst : step ⟨ts, .plain word⟩ '-' = ⟨ts ++ wordToken word, .dash⟩ := by
      simp [step, afterWord, hoff, start]
    have hnext : step ⟨ts ++ wordToken word, .dash⟩ c =
        start (ts ++ wordToken word ++ [.symbol '-']) c := by
      simp [step, hdash]
    rw [scan_cons, hfirst, scan_cons, hnext, start_of_isWordStart hc, List.append_assoc]
    rfl
  · rw [constants_append, hconstants]
    rfl
  · simp [hend]

/-- Calm text between two fixed pieces, the second one after a blank. -/
theorem scan_calm_between {first last : String} {d : List Char} (hfirst : Fixed first)
    (hcalm : Calm d) (hlast : Fixed last) (blank : ∃ rest, last.toList = ' ' :: rest) :
    ∃ read, init.scan (first.toList ++ d ++ last.toList) =
        ⟨tokensOf first ++ read ++ tokensOf last, .plain []⟩ ∧
      constants read = [] ∧ Token.symbol ';' ∉ read := by
  obtain ⟨read, word, hscan, hconstants, hend⟩ := hcalm.reads (tokensOf first) []
  obtain ⟨hword, hwordEnd⟩ := constants_wordToken word
  have hopen : init.scan first.toList = ⟨tokensOf first, .plain []⟩ := scan_fixed [] hfirst
  have hclose : (⟨tokensOf first ++ read, .plain word⟩ : Scanner).scan last.toList =
      (⟨tokensOf first ++ (read ++ wordToken word), .plain []⟩ : Scanner).scan last.toList := by
    obtain ⟨rest, hrest⟩ := blank
    have hspace (ts : List Token) (w : List Char) :
        step ⟨ts, .plain w⟩ ' ' = ⟨ts ++ wordToken w, .plain []⟩ := by
      simp [step, afterWord, not_goesOn (c := ' ') (by decide) w, start, isBlank]
    rw [hrest, scan_cons, scan_cons, hspace, hspace, wordToken_nil, List.append_nil,
      List.append_assoc]
  refine ⟨read ++ wordToken word, ?_, ?_, ?_⟩
  · rw [scan_append, scan_append, hopen, hscan, hclose, scan_fixed _ hlast]
  · rw [constants_append, hconstants, hword, List.append_nil]
  · rw [List.mem_append, not_or]
    exact ⟨hend, hwordEnd⟩

theorem fixed_calm_between {first d last : String} (hfirst : Fixed first) (hcalm : Calm d.toList)
    (hlast : Fixed last) (blank : ∃ rest, last.toList = ' ' :: rest) :
    Fixed (first ++ d ++ last) ∧
      tokensOf first <+: tokensOf (first ++ d ++ last) := by
  obtain ⟨read, hscan, hconstants, hend⟩ := scan_calm_between hfirst hcalm hlast blank
  have hall : init.scan (first ++ d ++ last).toList =
      ⟨tokensOf first ++ read ++ tokensOf last, .plain []⟩ := by
    rw [String.toList_append, String.toList_append, hscan]
  have htokens : tokensOf (first ++ d ++ last) = tokensOf first ++ read ++ tokensOf last := by
    rw [tokensOf, hall]
  refine ⟨⟨by rw [hall], ?_, ?_, ?_⟩, ?_⟩
  · simp [String.toList_append, hfirst.quoteFree, hcalm.quoteFree, hlast.quoteFree]
  · simp [htokens, hconstants, hfirst.no_constant, hlast.no_constant]
  · simp [htokens, hend, hfirst.no_end, hlast.no_end]
  · exact ⟨read ++ tokensOf last, by rw [htokens, List.append_assoc]⟩

end Calm

/-! ### Values between quotes -/

/-- A SELECT written with its values between quotes is read as one SELECT with these
values exactly when no value contains a quote. -/
theorem isSelectWith_written_iff {p : String × String} {parts : List (String × String)}
    (select : (tokensOf p.1).head? = some (.word "SELECT")) (fixed : ∀ q ∈ p :: parts, Fixed q.1)
    (separate : ∀ q ∈ parts, Separate q.1) :
    IsSelectWith (written (p :: parts)) ((p :: parts).map Prod.snd) ↔
      ∀ q ∈ p :: parts, '\'' ∉ q.2.toList := by
  constructor
  · rintro ⟨tokens, hlex, -, hconstants⟩
    exact quoteFree_of_constants fixed hlex hconstants
  · intro free
    refine ⟨_, finish_written [] fixed separate free, ⟨?_, ?_⟩, ?_⟩
    · rw [List.nil_append, List.flatMap_cons, List.append_assoc, List.head?_append, select]
      rfl
    · simp only [List.nil_append, List.mem_flatMap, List.mem_append, List.mem_singleton, not_exists,
        not_and, not_or]
      intro q hq
      exact ⟨(fixed q hq).no_end, Token.noConfusion⟩
    · rw [List.nil_append, constants_flatMap fixed]

end Sql
