import Mathlib.Data.Rat.Defs
import Mathlib.Data.Nat.Log
import Mathlib.Algebra.Order.Field.Rat
import Mathlib.Data.List.TakeWhile
import Mathlib.Data.String.Basic
import Mathlib.Tactic.Common

/-!
Reading decimal numerals at the front of a text.

The readers skip leading white space, take an optional sign and then as many
digits as there are; what follows is not looked at. `leadingInt` reads an
integer, `leadingDecimal` also a fraction and a decimal exponent. A numeral
written by `toString` is read back as the number it was written for
(`leadingInt_toString`, `leadingDecimal_toString`).
-/

namespace Decimal

/-- The digits at the front of a text. -/
def digits (cs : List Char) : List Char := cs.takeWhile Char.isDigit

/-- The number a list of digits stands for; the empty list stands for 0. -/
def natOfDigits (ds : List Char) : Nat := Nat.ofDigitChars 10 ds 0

/-- The text without its leading white space. -/
def skipSpaces (cs : List Char) : List Char := cs.dropWhile Char.isWhitespace

/-- An optional sign: whether it is a minus, and the rest of the text. -/
def sign : List Char → Bool × List Char
  | '-' :: cs => (true, cs)
  | '+' :: cs => (false, cs)
  | cs => (false, cs)

/-- The integer at the front of a text, 0 if there is none. -/
def leadingInt (cs : List Char) : Int :=
  let (neg, ds) := sign (skipSpaces cs)
  let n : Int := natOfDigits (digits ds)
  if neg then -n else n

/-- The factor `10 ^ k` of an exponent `e k` at the front of a text, 1 if there is none. -/
def exponentFactor : List Char → ℚ
  | 'e' :: cs => 10 ^ leadingInt cs
  | 'E' :: cs => 10 ^ leadingInt cs
  | _ => 1

/-- An unsigned decimal number: digits, a fraction, an exponent. -/
def unsignedDecimal (cs : List Char) : ℚ :=
  let whole := digits cs
  match cs.dropWhile Char.isDigit with
  | '.' :: fs =>
    let fraction := digits fs
    (natOfDigits (whole ++ fraction) : ℚ) / 10 ^ fraction.length
      * exponentFactor (fs.dropWhile Char.isDigit)
  | rest => (natOfDigits whole : ℚ) * exponentFactor rest

/-- The decimal number at the front of a text, 0 if there is none. -/
def leadingDecimal (cs : List Char) : ℚ :=
  let (neg, ds) := sign (skipSpaces cs)
  if neg then -unsignedDecimal ds else unsignedDecimal ds

/-! ### Numerals are read back -/

variable (n : Nat)

theorem isDigit_of_mem {n : Nat} {c : Char} (hc : c ∈ Nat.toDigits 10 n) : c.isDigit :=
  Nat.isDigit_of_mem_toDigits (by decide) (by decide) hc

@[simp] theorem digits_toDigits : digits (Nat.toDigits 10 n) = Nat.toDigits 10 n :=
  List.takeWhile_eq_self_iff.mpr fun _ hc => isDigit_of_mem hc

@[simp] theorem dropWhile_isDigit_toDigits : (Nat.toDigits 10 n).dropWhile Char.isDigit = [] :=
  List.dropWhile_eq_nil_iff.mpr fun _ hc => isDigit_of_mem hc

@[simp] theorem natOfDigits_toDigits : natOfDigits (Nat.toDigits 10 n) = n :=
  Nat.ofDigitChars_toDigits (by decide) (by decide)

/-- A factor of ten is a zero at the end. -/
theorem toDigits_mul_pow {n : Nat} (hn : 0 < n) (k : Nat) :
    Nat.toDigits 10 (n * 10 ^ k) = Nat.toDigits 10 n ++ List.replicate k '0' := by
  induction k with
  | zero => simp
  | succ k ih =>
    have hten : n * 10 ^ (k + 1) = 10 * (n * 10 ^ k) + 0 := by
      rw [Nat.pow_succ, ← Nat.mul_assoc, Nat.mul_comm, Nat.add_zero]
    have hpos : 0 < n * 10 ^ k := Nat.mul_pos hn (Nat.pow_pos (by decide))
    rw [hten, ← Nat.toDigits_append_toDigits (by decide) hpos (by decide), ih, Nat.toDigits_zero,
      List.append_assoc, ← List.replicate_succ']

theorem length_toDigits {n : Nat} (hn : 0 < n) :
    (Nat.toDigits 10 n).length = Nat.log 10 n + 1 := by
  have hle : (Nat.toDigits 10 n).length ≤ Nat.log 10 n + 1 :=
    (Nat.length_toDigits_le_iff (by decide) (Nat.succ_pos _)).mpr
      (Nat.lt_pow_succ_log_self (by decide) n)
  have hge : Nat.log 10 n < (Nat.toDigits 10 n).length := by
    rcases Nat.eq_zero_or_pos (Nat.log 10 n) with hzero | hpos
    · rw [hzero]
      exact Nat.length_toDigits_pos
    · rw [← not_le, Nat.length_toDigits_le_iff (by decide) hpos, not_lt]
      exact Nat.pow_log_le_self 10 hn.ne'
  omega

theorem sign_skipSpaces_of_isDigit {d : Char} {ds : List Char} (hd : d.isDigit) :
    sign (skipSpaces (d :: ds)) = (false, d :: ds) := by
  have hspace : d.isWhitespace = false := by
    rw [Char.isDigit, Bool.and_eq_true, decide_eq_true_eq, decide_eq_true_eq] at hd
    simp only [Char.isWhitespace, Bool.or_eq_false_iff, decide_eq_false_iff_not]
    refine ⟨⟨⟨?_, ?_⟩, ?_⟩, ?_⟩ <;> rintro rfl <;> exact absurd hd (by decide)
  have hminus : d ≠ '-' := by rintro rfl; exact absurd hd (by decide)
  have hplus : d ≠ '+' := by rintro rfl; exact absurd hd (by decide)
  rw [skipSpaces, List.dropWhile_cons, hspace]
  simp only [Bool.false_eq_true, if_false]
  unfold sign
  split
  · rename_i heq; exact absurd (List.cons.inj heq).1 hminus
  · rename_i heq; exact absurd (List.cons.inj heq).1 hplus
  · rfl

/-- A numeral starts with a digit, so it has neither spaces nor a sign before it. -/
@[simp] theorem sign_skipSpaces_toDigits :
    sign (skipSpaces (Nat.toDigits 10 n)) = (false, Nat.toDigits 10 n) := by
  obtain ⟨d, ds, hcons⟩ := List.exists_cons_of_ne_nil (Nat.toDigits_ne_nil (n := n) (b := 10))
  rw [hcons]
  exact sign_skipSpaces_of_isDigit (isDigit_of_mem (n := n) (by simp [hcons]))

@[simp] theorem sign_skipSpaces_minus (cs : List Char) :
    sign (skipSpaces ('-' :: cs)) = (true, cs) := rfl

theorem toList_toString_ofNat : (toString (Int.ofNat n)).toList = Nat.toDigits 10 n :=
  Nat.toList_repr

theorem toList_toString_negSucc :
    (toString (Int.negSucc n)).toList = '-' :: Nat.toDigits 10 (n + 1) := by
  show ("-" ++ (n + 1).repr).toList = _
  rw [String.toList_append, Nat.toList_repr]
  rfl

/-- A numeral is read back as its integer. -/
theorem leadingInt_toString (n : Int) : leadingInt (toString n).toList = n := by
  cases n with
  | ofNat n =>
    rw [toList_toString_ofNat]
    simp [leadingInt]
  | negSucc n =>
    rw [toList_toString_negSucc]
    simp [leadingInt, Int.negSucc_eq]

theorem unsignedDecimal_toDigits : unsignedDecimal (Nat.toDigits 10 n) = n := by
  simp [unsignedDecimal, exponentFactor]

/-- A numeral is read back as its integer by the decimal reader too. -/
theorem leadingDecimal_toString (n : Int) : leadingDecimal (toString n).toList = n := by
  cases n with
  | ofNat n =>
    rw [toList_toString_ofNat]
    simp [leadingDecimal, unsignedDecimal_toDigits]
  | negSucc n =>
    rw [toList_toString_negSucc]
    simp [leadingDecimal, unsignedDecimal_toDigits, Int.negSucc_eq]

end Decimal
