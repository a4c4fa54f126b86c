import Mathlib.Data.Finmap
import PointIPad.Lib.Decimal
import PointIPad.Lib.Delimited
import PointIPad.Lib.Rounding
import PointIPad.Lib.Runs

/-!
The part of Foundation the app uses: exceptions, mutable arrays and
dictionaries, numbers and strings.

A mutable collection is its current contents; a method that changes one returns
the new contents. A method that raises returns the exception, which ends the app
because nothing catches it. `nil` is `none`, and a message to `nil` does nothing
and returns `nil`, `NO` or 0.

An `NSNumber` is the number it holds. Doubles are exact rationals; the float in
which a column is read is rounded (`roundToFloat`), and so is a number printed
with `%f` or `%@`. An `int` is 32 bits wide and wraps, and `NSInteger` has the
width of an `int` on the 32-bit devices the app is built for.
-/

namespace PointIPad

open Transition

/-- The exceptions raised by the collections. -/
inductive NSException where
  | rangeException
  | invalidArgumentException
deriving DecidableEq, Repr

/-! ### Mutable arrays -/

section NSMutableArray

variable {α : Type}

def objectAtIndex (a : List α) (i : Nat) : Except NSException α :=
  match a[i]? with
  | some x => .ok x
  | none => .error .rangeException

def replaceObjectAtIndex (a : List α) (i : Nat) (x : α) : Except NSException (List α) :=
  if i < a.length then .ok (a.set i x) else .error .rangeException

def removeObjectAtIndex (a : List α) (i : Nat) : Except NSException (List α) :=
  if i < a.length then .ok (a.eraseIdx i) else .error .rangeException

/-- `addObject:` raises on `nil`. -/
def addObject (a : List α) : Option α → Except NSException (List α)
  | some x => .ok (a ++ [x])
  | none => .error .invalidArgumentException

/-- `removeObject:` removes every object that is equal to the argument. -/
def removeObject [DecidableEq α] (a : List α) (x : α) : List α := a.filter (· ≠ x)

/-- Sent to an empty array, `removeLastObject` removes nothing. -/
def removeLastObject (a : List α) : List α := a.dropLast

theorem objectAtIndex_eq_ok {a : List α} {i : Nat} {x : α} :
    objectAtIndex a i = .ok x ↔ a[i]? = some x := by
  unfold objectAtIndex
  cases a[i]? <;> simp

theorem replaceObjectAtIndex_eq_ok {a b : List α} {i : Nat} {x : α} :
    replaceObjectAtIndex a i x = .ok b ↔ i < a.length ∧ b = a.set i x := by
  unfold replaceObjectAtIndex
  split <;> simp_all [eq_comm]

theorem removeObjectAtIndex_eq_ok {a b : List α} {i : Nat} :
    removeObjectAtIndex a i = .ok b ↔ i < a.length ∧ b = a.eraseIdx i := by
  unfold removeObjectAtIndex
  split <;> simp_all [eq_comm]

end NSMutableArray

/-! ### Mutable dictionaries -/

/-- A finite map with no order on its keys. -/
abbrev NSMutableDictionary (κ ν : Type) := Finmap fun _ : κ => ν

/-! ### Numbers -/

abbrev NSNumber := ℚ

/-- The value of a number read as a double; 0 for `nil`. -/
def doubleValue (n : Option NSNumber) : ℚ := n.getD 0

/-- An integer brought into the range of an `int`. -/
def saturate (n : Int) : Int32 := Int32.ofInt (max (-2 ^ 31) (min (2 ^ 31 - 1) n))

/-- The value of a number cut to an integer, toward zero, and brought into the range
of an `int`; 0 for `nil`. -/
def intValue (n : Option NSNumber) : Int := (saturate ((n.getD 0).num.tdiv (n.getD 0).den)).toInt

theorem toInt_saturate {n : Int} (hlow : -2 ^ 31 ≤ n) (hup : n < 2 ^ 31) :
    (saturate n).toInt = n := by
  have hclip : max (-2 ^ 31) (min (2 ^ 31 - 1) n) = n := by omega
  rw [saturate, hclip, Int32.toInt_ofInt_of_le hlow hup]

theorem toInt_saturate_eq (n : Int) :
    (saturate n).toInt = max (-2 ^ 31) (min (2 ^ 31 - 1) n) := by
  rw [saturate, Int32.toInt_ofInt_of_le (by omega) (by omega)]

/-- The number is an integer in the range of an `int`. -/
def HeldByInt (q : ℚ) : Prop := q.den = 1 ∧ -2 ^ 31 ≤ q.num ∧ q.num < 2 ^ 31

instance (q : ℚ) : Decidable (HeldByInt q) := inferInstanceAs (Decidable (_ ∧ _ ∧ _))

/-- Nothing is lost exactly when an `int` holds the number. -/
theorem intValue_eq_doubleValue_iff {n : Option NSNumber} :
    (intValue n : ℚ) = doubleValue n ↔ HeldByInt (doubleValue n) := by
  unfold doubleValue
  constructor
  · intro same
    have hclip : intValue n = max (-2 ^ 31) (min (2 ^ 31 - 1) ((n.getD 0).num.tdiv (n.getD 0).den)) :=
      toInt_saturate_eq _
    rw [← same]
    refine ⟨Rat.den_intCast _, ?_, ?_⟩
    · rw [Rat.num_intCast]
      omega
    · rw [Rat.num_intCast]
      omega
  · rintro ⟨whole, hlow, hup⟩
    rw [intValue, whole, Nat.cast_one, Int.tdiv_one, toInt_saturate hlow hup]
    exact Rat.coe_int_num_of_den_eq_one whole

/-- A number made from an `int` is read back. -/
theorem intValue_toInt (n : Int32) : intValue (some (n.toInt : ℚ)) = n.toInt := by
  rw [intValue, Option.getD_some, Rat.num_intCast, Rat.den_intCast, Nat.cast_one, Int.tdiv_one]
  exact toInt_saturate (Int32.le_toInt n) (Int32.toInt_lt n)

/-- A number that is not negative is not made larger. -/
theorem intValue_le_doubleValue {n : Option NSNumber} (nonneg : 0 ≤ doubleValue n) :
    (intValue n : ℚ) ≤ doubleValue n := by
  unfold doubleValue at nonneg ⊢
  have hnum : 0 ≤ (n.getD 0).num := Rat.num_nonneg.mpr nonneg
  have hfloor : (n.getD 0).num.tdiv (n.getD 0).den = ⌊n.getD 0⌋ := by
    rw [Int.tdiv_eq_ediv_of_nonneg hnum, Rat.floor_def']
  have hcut : intValue n ≤ ⌊n.getD 0⌋ := by
    have hpos : 0 ≤ ⌊n.getD 0⌋ := Int.floor_nonneg.mpr nonneg
    rw [intValue, hfloor, toInt_saturate_eq]
    omega
  calc (intValue n : ℚ) ≤ (⌊n.getD 0⌋ : ℚ) := by exact_mod_cast hcut
    _ ≤ n.getD 0 := Int.floor_le _

/-- The float nearest to a number: 24 binary digits. -/
def roundToFloat (q : ℚ) : ℚ := Rounding.roundToBinary 24 (-149) q

theorem roundToFloat_intCast {n : ℤ} (hn : |n| < 2 ^ 24) : roundToFloat n = n :=
  Rounding.roundToBinary_intCast (by decide) (by decide) hn

/-- The number that `%f` prints: six decimals. -/
def sixDecimals (q : ℚ) : ℚ := Rounding.roundTo (1 / 10 ^ 6) q

/-- The digits of `%.7g`: seven of them, and the power of ten of the first. -/
def sevenDigits (q : ℚ) : Int × Int :=
  let exponent := Int.log 10 |q|
  let mantissa := Rounding.roundHalfEven (|q| / 10 ^ (exponent - 6))
  if mantissa = 10 ^ 7 then (10 ^ 6, exponent + 1) else (mantissa, exponent)

/-- Digits with the point after the first `whole` of them, without trailing zeros. -/
def decimalText (whole : Nat) (ds : List Char) : List Char :=
  let fraction := (ds.drop whole).reverse.dropWhile (· = '0')
  ds.take whole ++ if fraction.isEmpty then [] else '.' :: fraction.reverse

/-- What `%@` prints for a number made from a float: `%.7g`. -/
def description (q : NSNumber) : String :=
  if q = 0 then "0" else
  let (mantissa, exponent) := sevenDigits q
  let ds := (toString mantissa).toList
  let body : List Char :=
    if 0 ≤ exponent ∧ exponent < 7 then decimalText (exponent.toNat + 1) ds
    else if -4 ≤ exponent ∧ exponent < 0 then
      decimalText 1 ('0' :: List.replicate (-exponent - 1).toNat '0' ++ ds)
    else
      let power := toString exponent.natAbs
      decimalText 1 ds ++ ['e', if exponent < 0 then '-' else '+']
        ++ (if power.length < 2 then '0' :: power.toList else power.toList)
  String.ofList (if q < 0 then '-' :: body else body)

/-- What `%@` prints for a number that may be `nil`. -/
def descriptionOrNull (n : Option NSNumber) : String := n.elim "(null)" description

/-! ### Strings -/

/-- Every string the app cuts is cut at colons. -/
def componentsSeparatedByString (s : String) : List String := Delimited.components ':' s

/-- `integerValue`, on a device where `NSInteger` is an `int`. -/
def integerValue (s : String) : Int32 := saturate (Decimal.leadingInt s.toList)

def floatValue (s : String) : ℚ := roundToFloat (Decimal.leadingDecimal s.toList)

/-- What `%@` prints for a number made from an `int`. -/
def intText (n : Int32) : String := toString n.toInt

/-- A numeral in the range of an `int` is printed back as it was read. -/
theorem intText_integerValue {n : Int} (hlow : -2 ^ 31 ≤ n) (hup : n < 2 ^ 31) :
    intText (integerValue (toString n)) = toString n := by
  rw [intText, integerValue, Decimal.leadingInt_toString, toInt_saturate hlow hup]

theorem floatValue_toString {n : ℤ} (hn : |n| < 2 ^ 24) : floatValue (toString n) = n := by
  rw [floatValue, Decimal.leadingDecimal_toString, roundToFloat_intCast hn]

/-- At most seven digits are not rounded. -/
theorem sevenDigits_eq {q : ℚ} {n : ℕ} (hq : |q| = n) (hpos : 0 < n) (hlt : n < 10 ^ 7) :
    sevenDigits q = (((n * 10 ^ (6 - Nat.log 10 n) : ℕ) : ℤ), (Nat.log 10 n : ℤ)) := by
  have hlog : Nat.log 10 n ≤ 6 := Nat.lt_succ_iff.mp (Nat.log_lt_of_lt_pow hpos.ne' hlt)
  have hmantissa : (n : ℚ) / 10 ^ ((Nat.log 10 n : ℤ) - 6) =
      ((n * 10 ^ (6 - Nat.log 10 n) : ℕ) : ℤ) := by
    have hexp : (Nat.log 10 n : ℤ) - 6 = -((6 - Nat.log 10 n : ℕ) : ℤ) := by omega
    rw [hexp, zpow_neg, div_inv_eq_mul, zpow_natCast]
    push_cast
    rfl
  have hne : ((n * 10 ^ (6 - Nat.log 10 n) : ℕ) : ℤ) ≠ 10 ^ 7 := by
    have hbound : n * 10 ^ (6 - Nat.log 10 n) < 10 ^ 7 := by
      calc n * 10 ^ (6 - Nat.log 10 n)
          < 10 ^ (Nat.log 10 n + 1) * 10 ^ (6 - Nat.log 10 n) :=
            Nat.mul_lt_mul_of_pos_right (Nat.lt_pow_succ_log_self (by decide) n)
              (Nat.pow_pos (by decide))
        _ = 10 ^ 7 := by rw [← Nat.pow_add]; congr 1; omega
    exact_mod_cast hbound.ne
  simp only [sevenDigits, hq, Int.log_natCast, hmantissa, Rounding.roundHalfEven_intCast]
  rw [if_neg hne]

/-- An integer of at most seven digits is printed as it is. -/
theorem description_intCast {n : ℤ} (hn : |n| < 10 ^ 7) : description n = toString n := by
  rcases eq_or_ne n 0 with rfl | hne
  · rfl
  have hpos : 0 < n.natAbs := Int.natAbs_pos.mpr hne
  have hlt : n.natAbs < 10 ^ 7 := by
    rw [Int.abs_eq_natAbs] at hn
    exact_mod_cast hn
  have hdigits : sevenDigits n = _ := sevenDigits_eq (by rw [Nat.cast_natAbs, Int.cast_abs]) hpos hlt
  have hlog : Nat.log 10 n.natAbs ≤ 6 := Nat.lt_succ_iff.mp (Nat.log_lt_of_lt_pow hpos.ne' hlt)
  have hpower : (0 : ℤ) ≤ (Nat.log 10 n.natAbs : ℤ) ∧ (Nat.log 10 n.natAbs : ℤ) < 7 := by omega
  -- the digits that were added are zeros after the point
  have hbody : decimalText (Nat.log 10 n.natAbs + 1)
      (toString ((n.natAbs * 10 ^ (6 - Nat.log 10 n.natAbs) : ℕ) : ℤ)).toList =
        Nat.toDigits 10 n.natAbs := by
    have hprinted (m : ℕ) : (toString (m : ℤ)).toList = Nat.toDigits 10 m :=
      Decimal.toList_toString_ofNat m
    rw [hprinted, Decimal.toDigits_mul_pow hpos, decimalText, ← Decimal.length_toDigits hpos,
      List.take_left, List.drop_left]
    simp
  have hcast : (n : ℚ) ≠ 0 := Int.cast_ne_zero.mpr hne
  rw [description, if_neg hcast, hdigits]
  simp only [hpower, and_self, if_true, Int.toNat_natCast, hbody]
  rw [← String.toList_inj, String.toList_ofList]
  cases n with
  | ofNat n =>
    have hsign : ¬ ((Int.ofNat n : ℚ) < 0) := by simp
    rw [if_neg hsign, Decimal.toList_toString_ofNat]
    rfl
  | negSucc n =>
    have hsign : ((Int.negSucc n : ℤ) : ℚ) < 0 := Int.cast_lt_zero.mpr (Int.negSucc_lt_zero n)
    rw [if_pos hsign, Decimal.toList_toString_negSucc]
    rfl

end PointIPad
