import PointIPad.DatabaseAccess
import PointIPad.Lib.SqlText

/-!
Names in queries.

Six methods put class, subclass, item or option names between the quotes of a
literal, as they are; `sqlEncodeString:` of the connection, which doubles quotes,
is not used. Here the queries are read by PostgreSQL's lexical rules.

**Main result** (`names_survive_iff`). A query is one SELECT whose literals are
the names it was given exactly when none of them contains a quote.
-/

namespace PointIPad

open Sql

/-! ### The queries -/

namespace DatabaseAccess

def extraPriceQuery (itemId : NSNumber) (modName : String) : String :=
  "SELECT price from TBL_EXTRAS where item_id='" ++ description itemId
    ++ "' AND extras='" ++ modName ++ "'"

def quantityPriceQuery (itemId : NSNumber) (modName : String) : String :=
  "SELECT price from TBL_QUANTITY where item_id=" ++ description itemId
    ++ " AND size='" ++ modName ++ "'"

variable (db : DatabaseAccess) (itemId : NSNumber) (modName : String)

theorem getModPriceExtra_eq :
    db.getModPriceExtra itemId modName =
      db.pgConn.numberField ⟨extraPriceQuery itemId modName, 1⟩ 0 := rfl

theorem getModPriceQuantity_eq :
    db.getModPriceQuantity itemId modName =
      db.pgConn.numberField ⟨quantityPriceQuery itemId modName, 1⟩ 0 := rfl

end DatabaseAccess

/-- A method that puts names into a query, with its arguments. -/
inductive NameQuery where
  | subclassWhereClassIs (className : String)
  | itemsWhereClassIs (className : String)
  | itemIdWhereClassIs (className : String) (subClassName : Option String) (itemName : String)
  | itemsWhereSubclassIs (className : String)
  | getModPriceExtra (itemId : NSNumber) (modName : String)
  | getModPriceQuantity (itemId : NSNumber) (modName : String)

namespace NameQuery

def text : NameQuery → String
  | .subclassWhereClassIs className => DatabaseAccess.subclassQuery className
  | .itemsWhereClassIs className => DatabaseAccess.itemsOfClassQuery className
  | .itemIdWhereClassIs className subClassName itemName =>
    DatabaseAccess.itemIdQuery (some className) subClassName itemName
  | .itemsWhereSubclassIs className => DatabaseAccess.itemsOfSubclassQuery className
  | .getModPriceExtra itemId modName => DatabaseAccess.extraPriceQuery itemId modName
  | .getModPriceQuantity itemId modName => DatabaseAccess.quantityPriceQuery itemId modName

/-- The names given, in the order in which they are put in. -/
def names : NameQuery → List String
  | .subclassWhereClassIs className => [className]
  | .itemsWhereClassIs className => [className]
  | .itemIdWhereClassIs className subClassName itemName =>
    className :: subClassName.toList ++ [itemName]
  | .itemsWhereSubclassIs className => [className]
  | .getModPriceExtra _ modName => [modName]
  | .getModPriceQuantity _ modName => [modName]

/-- What the literals of the query are meant to be: the names, after the item id in
the one query that puts it between quotes. -/
def literals (q : NameQuery) : List String :=
  match q with
  | .getModPriceExtra itemId _ => description itemId :: q.names
  | _ => q.names

/-- The fixed text of a query and its literals. -/
def parts : NameQuery → List (String × String)
  | .subclassWhereClassIs className =>
    [("SELECT DISTINCT SUBCLASS FROM TBL_ITEMS WHERE CLASS=", className)]
  | .itemsWhereClassIs className =>
    [("SELECT DISTINCT NAME FROM TBL_ITEMS WHERE CLASS=", className)]
  | .itemIdWhereClassIs className (some subClassName) itemName =>
    [("SELECT item_id from TBL_ITEMS WHERE CLASS=", className), (" AND SUBCLASS=", subClassName),
      (" AND NAME=", itemName)]
  | .itemIdWhereClassIs className none itemName =>
    [("SELECT item_id from TBL_ITEMS WHERE CLASS=", className), (" AND NAME=", itemName)]
  | .itemsWhereSubclassIs className =>
    [("SELECT DISTINCT NAME FROM TBL_ITEMS WHERE SUBCLASS=", className)]
  | .getModPriceExtra itemId modName =>
    [("SELECT price from TBL_EXTRAS where item_id=", description itemId), (" AND extras=", modName)]
  | .getModPriceQuantity itemId modName =>
    [("SELECT price from TBL_QUANTITY where item_id=" ++ description itemId ++ " AND size=",
      modName)]

theorem literals_eq (q : NameQuery) : q.literals = q.parts.map Prod.snd := by
  cases q with
  | itemIdWhereClassIs className subClassName itemName => cases subClassName <;> rfl
  | _ => rfl

/-- The texts that the methods format are put together from these parts. -/
theorem text_eq (q : NameQuery) : q.text = written q.parts := by
  cases q with
  | subclassWhereClassIs className => exact written_one rfl
  | itemsWhereClassIs className => exact written_one rfl
  | itemIdWhereClassIs className subClassName itemName =>
    cases subClassName with
    | none => exact written_two rfl rfl
    | some subClassName => exact written_three rfl rfl rfl
  | itemsWhereSubclassIs className => exact written_one rfl
  | getModPriceExtra itemId modName => exact written_two rfl rfl
  | getModPriceQuantity itemId modName =>
    refine written_one ?_
    have hsize : " AND size='" = " AND size=" ++ "'" := rfl
    rw [hsize, ← String.append_assoc]

end NameQuery

/-! ### Item ids -/

/-- A digit, followed by text that holds no literal. -/
def Numeral (text : List Char) : Prop :=
  ∃ d rest, text = d :: rest ∧ d.isDigit = true ∧ Calm rest

section Numeral

variable {text more ds : List Char} {c : Char}

theorem isWordStart_of_isDigit (h : c.isDigit = true) : isWordStart c = true := by
  rw [isWordStart, h, Bool.or_true]

theorem Numeral.calm (h : Numeral text) : Calm text := by
  obtain ⟨d, rest, rfl, hd, hrest⟩ := h
  exact (calm_wordStart (isWordStart_of_isDigit hd)).append hrest

theorem Numeral.append (h : Numeral text) (hmore : Calm more) : Numeral (text ++ more) := by
  obtain ⟨d, rest, rfl, hd, hrest⟩ := h
  exact ⟨d, rest ++ more, rfl, hd, hrest.append hmore⟩

/-- A sign before a numeral is no comment. -/
theorem Numeral.calm_minus (h : Numeral text) : Calm ('-' :: text) := by
  obtain ⟨d, rest, rfl, hd, hrest⟩ := h
  exact (calm_dash (isWordStart_of_isDigit hd)).append hrest

theorem numeral_toDigits (n : Nat) : Numeral (Nat.toDigits 10 n) := by
  obtain ⟨d, rest, hcons⟩ := List.exists_cons_of_ne_nil (Nat.toDigits_ne_nil (n := n) (b := 10))
  have hdigit : ∀ e ∈ d :: rest, e.isDigit = true := fun e he => Decimal.isDigit_of_mem (hcons ▸ he)
  refine ⟨d, rest, hcons, hdigit d List.mem_cons_self, calm_of_forall fun e he => .inl ?_⟩
  exact isWordStart_of_isDigit (hdigit e (List.mem_cons_of_mem d he))

/-- Digits, with a point among them or not. -/
theorem numeral_decimalText (whole : Nat) (hne : ds ≠ []) (digits : ∀ c ∈ ds, c.isDigit = true) :
    Numeral (decimalText (whole + 1) ds) := by
  obtain ⟨d, rest, rfl⟩ := List.exists_cons_of_ne_nil hne
  rw [decimalText, List.take_succ_cons, List.cons_append]
  refine ⟨d, _, rfl, digits d List.mem_cons_self, Calm.append ?_ ?_⟩
  · refine calm_of_forall fun c hc => .inl (isWordStart_of_isDigit (digits c ?_))
    exact List.mem_cons_of_mem d (List.mem_of_mem_take hc)
  · split
    · exact calm_nil
    · refine calm_of_forall fun c hc => ?_
      rcases List.mem_cons.mp hc with rfl | hc
      · exact .inr (.inl rfl)
      · refine .inl (isWordStart_of_isDigit (digits c ?_))
        have hdrop := (List.dropWhile_sublist _).subset (List.mem_reverse.mp hc)
        exact List.mem_of_mem_drop (List.mem_reverse.mp hdrop)

end Numeral

/-- The digits of a number have no sign. -/
theorem toList_sevenDigits (q : NSNumber) :
    ∃ n, (toString (sevenDigits q).1).toList = Nat.toDigits 10 n := by
  have hnonneg : 0 ≤ (sevenDigits q).1 := by
    have hround : 0 ≤ Rounding.roundHalfEven (|q| / 10 ^ (Int.log 10 |q| - 6)) :=
      Rounding.roundHalfEven_nonneg (div_nonneg (abs_nonneg q) (zpow_nonneg (by norm_num) _))
    rw [sevenDigits]
    split
    · norm_num
    · exact hround
  obtain ⟨n, hn⟩ := Int.eq_ofNat_of_zero_le hnonneg
  exact ⟨n, by rw [hn]; exact Decimal.toList_toString_ofNat n⟩

/-- The digits of the exponent, at least two of them. -/
theorem numeral_power (n : Nat) :
    Numeral (if (toString n).length < 2 then '0' :: (toString n).toList
      else (toString n).toList) := by
  have hdigits : Numeral (toString n).toList := by
    rw [show (toString n).toList = Nat.toDigits 10 n from Nat.toList_repr]
    exact numeral_toDigits n
  split
  · exact ⟨'0', _, rfl, rfl, hdigits.calm⟩
  · exact hdigits

/-- The exponent, whose sign stands before a digit. -/
theorem calm_exponent {power : List Char} (hpower : Numeral power) {sign : Char}
    (hsign : sign = '-' ∨ sign = '+') : Calm (['e', sign] ++ power) := by
  have hletter : Calm ['e'] := calm_wordStart rfl
  rcases hsign with rfl | rfl
  · exact hletter.append hpower.calm_minus
  · exact hletter.append ((calm_symbol (.inr rfl)).append hpower.calm)

/-- A printed number holds no literal, no end of a command and no comment. -/
theorem calm_description (itemId : NSNumber) : Calm (description itemId).toList := by
  unfold description
  split
  · have hzero : "0".toList = ['0'] := rfl
    rw [hzero]
    exact calm_wordStart rfl
  · obtain ⟨n, hn⟩ := toList_sevenDigits itemId
    have digits : ∀ c ∈ Nat.toDigits 10 n, c.isDigit = true := fun c hc => Decimal.isDigit_of_mem hc
    have hne : Nat.toDigits 10 n ≠ [] := Nat.toDigits_ne_nil
    generalize sevenDigits itemId = pair at hn ⊢
    obtain ⟨mantissa, exponent⟩ := pair
    dsimp only at hn ⊢
    rw [hn, String.toList_ofList]
    have hbody : Numeral (if 0 ≤ exponent ∧ exponent < 7 then
          decimalText (exponent.toNat + 1) (Nat.toDigits 10 n)
        else if -4 ≤ exponent ∧ exponent < 0 then
          decimalText 1 ('0' :: List.replicate (-exponent - 1).toNat '0' ++ Nat.toDigits 10 n)
        else decimalText 1 (Nat.toDigits 10 n) ++ ['e', if exponent < 0 then '-' else '+']
          ++ (if (toString exponent.natAbs).length < 2 then '0' :: (toString exponent.natAbs).toList
            else (toString exponent.natAbs).toList)) := by
      split
      · exact numeral_decimalText _ hne digits
      · split
        · refine numeral_decimalText 0 (by simp) fun c hc => ?_
          rcases List.mem_append.mp hc with hzero | hc
          · rcases List.mem_cons.mp hzero with rfl | hzero
            · rfl
            · rw [(List.mem_replicate.mp hzero).2]
              rfl
          · exact digits c hc
        · rw [List.append_assoc]
          refine (numeral_decimalText 0 hne digits).append (calm_exponent (numeral_power _) ?_)
          split
          · exact .inl rfl
          · exact .inr rfl
    split
    · exact hbody.calm_minus
    · exact hbody.calm

/-! ### Reading the queries -/

namespace NameQuery

variable (q : NameQuery)

/-- The fixed text of the one query that holds an item id outside of quotes. -/
theorem fixed_quantityPrice (itemId : NSNumber) :
    Fixed ("SELECT price from TBL_QUANTITY where item_id=" ++ description itemId ++ " AND size=") ∧
      tokensOf "SELECT price from TBL_QUANTITY where item_id=" <+:
        tokensOf ("SELECT price from TBL_QUANTITY where item_id=" ++ description itemId
          ++ " AND size=") := by
  have hlast : Fixed " AND size=" := by decide
  exact fixed_calm_between (by decide) (calm_description itemId) hlast ⟨_, rfl⟩

theorem fixed_parts : ∀ p ∈ q.parts, Fixed p.1 := by
  cases q with
  | itemIdWhereClassIs className subClassName itemName =>
    cases subClassName with
    | none =>
      simp only [parts, List.forall_mem_cons]
      decide
    | some subClassName =>
      simp only [parts, List.forall_mem_cons]
      decide
  | getModPriceExtra itemId modName =>
    simp only [parts, List.forall_mem_cons]
    decide
  | getModPriceQuantity itemId modName =>
    exact List.forall_mem_singleton.mpr (fixed_quantityPrice itemId).1
  | _ =>
    simp only [parts, List.forall_mem_singleton]
    decide

theorem separate_parts : ∀ p ∈ q.parts.tail, Separate p.1 := by
  cases q with
  | itemIdWhereClassIs className subClassName itemName =>
    cases subClassName with
    | none =>
      simp only [parts, List.tail_cons, List.forall_mem_singleton]
      decide
    | some subClassName =>
      simp only [parts, List.tail_cons, List.forall_mem_cons]
      decide
  | getModPriceExtra itemId modName =>
    simp only [parts, List.tail_cons, List.forall_mem_singleton]
    decide
  | _ => exact List.forall_mem_nil _

/-- Every query begins with the word SELECT. -/
theorem parts_select :
    ∃ p parts, q.parts = p :: parts ∧ (tokensOf p.1).head? = some (.word "SELECT") := by
  cases q with
  | itemIdWhereClassIs className subClassName itemName =>
    cases subClassName with
    | none =>
      refine ⟨_, _, rfl, ?_⟩
      dsimp only
      decide
    | some subClassName =>
      refine ⟨_, _, rfl, ?_⟩
      dsimp only
      decide
  | getModPriceQuantity itemId modName =>
    obtain ⟨later, hlater⟩ := (fixed_quantityPrice itemId).2
    refine ⟨_, _, rfl, ?_⟩
    rw [← hlater]
    rfl
  | _ =>
    refine ⟨_, _, rfl, ?_⟩
    dsimp only
    decide

/-- The item id has no quote; the other literals are the names. -/
theorem quoteFree_parts_iff :
    (∀ p ∈ q.parts, '\'' ∉ p.2.toList) ↔ ∀ name ∈ q.names, '\'' ∉ name.toList := by
  cases q with
  | itemIdWhereClassIs className subClassName itemName =>
    cases subClassName <;> simp [parts, names]
  | getModPriceExtra itemId modName =>
    simp [parts, names, (calm_description itemId).quoteFree]
  | _ => simp [parts, names]

theorem isSelectWith_of_quoteFree (free : ∀ name ∈ q.names, '\'' ∉ name.toList) :
    IsSelectWith q.text q.literals := by
  obtain ⟨p, parts, hparts, select⟩ := q.parts_select
  have hfixed := q.fixed_parts
  have hseparate := q.separate_parts
  rw [← quoteFree_parts_iff] at free
  rw [q.text_eq, q.literals_eq]
  rw [hparts] at hfixed hseparate free ⊢
  exact (isSelectWith_written_iff select hfixed hseparate).mpr free

theorem quoteFree_of_isSelectWith (h : IsSelectWith q.text q.literals) :
    ∀ name ∈ q.names, '\'' ∉ name.toList := by
  obtain ⟨p, parts, hparts, select⟩ := q.parts_select
  have hfixed := q.fixed_parts
  have hseparate := q.separate_parts
  rw [← quoteFree_parts_iff]
  rw [q.text_eq, q.literals_eq] at h
  rw [hparts] at hfixed hseparate h ⊢
  exact (isSelectWith_written_iff select hfixed hseparate).mp h

end NameQuery

/-- A query survives its names exactly when none of them contains a quote. -/
theorem names_survive_iff (q : NameQuery) :
    IsSelectWith q.text q.literals ↔ ∀ name ∈ q.names, '\'' ∉ name.toList :=
  ⟨q.quoteFree_of_isSelectWith, q.isSelectWith_of_quoteFree⟩

/-- A class with a quote in its name. -/
theorem name_does_not_survive :
    ¬ IsSelectWith (NameQuery.subclassWhereClassIs "Kid's menu").text
      (NameQuery.subclassWhereClassIs "Kid's menu").literals := by
  decide

end PointIPad
