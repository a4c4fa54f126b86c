import Mathlib.Data.Set.List
import PointIPad.Orders

/-!
Modifier strings, and sending them again.

A string is well formed if it is cut at the colon into three parts, the last of
which is a flag; these are the strings of entries (`wellFormed_iff`). The screen
sends all the changes of a visit each time a switch is turned, so that the order
gets most of them many times. On entries, changes in any number settle the list
at once: each entry takes the flag of the last change to its choice, and the first
change for each new choice is added (`applyChanges_eq`).

**Main result** (`updateDictionaryWithModifierString_resend`). Sending a list of
changes to an item settles its strings, and sending it again changes nothing.
-/

namespace PointIPad

open Transition

/-- A last element is new, or a duplicate. -/
theorem eraseDups_concat {α : Type*} [BEq α] [LawfulBEq α] (xs : List α) (x : α) :
    (xs ++ [x]).eraseDups = if x ∈ xs then xs.eraseDups else xs.eraseDups ++ [x] := by
  rw [List.eraseDups_append, List.cons_removeAll]
  by_cases old : x ∈ xs
  · rw [if_pos old, if_neg (by simpa using old)]
    simp
  · rw [if_neg old, if_pos (by simpa using old)]
    simp [List.eraseDups_cons]

namespace ModChoice

/-! ### Settling -/

/-- The entry with the flag of the last change to its choice. -/
def settle (changes : List ModChoice) (m : ModChoice) : ModChoice :=
  m.withFlag ((lastFlag changes m.choice).getD m.isOn)

/-- The first change for each choice that has no entry, in the order of the changes. -/
def newChoices (mods changes : List ModChoice) : List ModChoice :=
  changes.foldl (fun new change =>
    if ∃ m ∈ mods ++ new, m.choice = change.choice then new else new ++ [change]) []

section Settle

variable {mods changes : List ModChoice} {change m : ModChoice}

@[simp] theorem settle_choice : (m.settle changes).choice = m.choice := rfl

@[simp] theorem settle_category : (m.settle changes).category = m.category := rfl

theorem settle_concat : m.settle (changes ++ [change]) =
    if m.choice = change.choice then m.withFlag change.isOn else m.settle changes := by
  rw [settle, lastFlag_concat]
  by_cases same : m.choice = change.choice
  · rw [if_pos same, if_pos same.symm, Option.getD_some]
  · rw [if_neg same, if_neg (Ne.symm same), settle]

theorem settle_settle : (m.settle changes).settle changes = m.settle changes := by
  unfold settle
  cases hflag : lastFlag changes m.choice with
  | none => simp [withFlag, hflag]
  | some b => simp [withFlag, hflag]

/-- An entry to whose choice there is no change stays as it is. -/
theorem settle_of_notMem (absent : m.choice ∉ changes.map choice) : m.settle changes = m := by
  have none : lastFlag changes m.choice = none := by
    apply flagOf_eq_none_iff.mpr
    intro change mem same
    exact absent (List.mem_map.mpr ⟨change, List.mem_reverse.mp mem, same⟩)
  rw [settle, none]
  rfl

theorem newChoices_concat : newChoices mods (changes ++ [change]) =
    if ∃ m ∈ mods ++ newChoices mods changes, m.choice = change.choice then
      newChoices mods changes
    else newChoices mods changes ++ [change] := by
  rw [newChoices, List.foldl_append]
  rfl

/-- Changes settle the entries, and those they add. -/
theorem applyChanges_eq :
    applyChanges mods changes = (mods ++ newChoices mods changes).map (settle changes) := by
  induction changes using List.reverseRecOn with
  | nil => exact (List.append_nil mods).symm ▸ (List.map_id mods).symm
  | append_singleton changes change ih =>
    rw [applyChanges_concat, ih, newChoices_concat, applyChange]
    have known : (∃ m ∈ (mods ++ newChoices mods changes).map (settle changes),
        m.choice = change.choice) ↔
        ∃ m ∈ mods ++ newChoices mods changes, m.choice = change.choice := by
      simp only [List.mem_map, exists_exists_and_eq_and, settle_choice]
    by_cases old : ∃ m ∈ mods ++ newChoices mods changes, m.choice = change.choice
    · rw [if_pos (known.mpr old), if_pos old, List.map_map]
      apply List.map_congr_left
      intro m _
      rw [settle_concat, Function.comp_apply, settle_choice]
      split <;> rfl
    · rw [if_neg (known.not.mpr old), if_neg old, ← List.append_assoc]
      refine Eq.trans ?_ List.map_append.symm
      congr 1
      · apply List.map_congr_left
        intro m mem
        rw [settle_concat, if_neg fun same => old ⟨m, mem, same⟩]
      · rw [List.map_singleton, settle_concat, if_pos rfl]
        rfl

/-- New choices come in the order in which the changes first name them. -/
theorem choices_newChoices : (newChoices mods changes).map choice =
    ((changes.map choice).filter (· ∉ mods.map choice)).eraseDups := by
  induction changes using List.reverseRecOn with
  | nil => rfl
  | append_singleton changes change ih =>
    have known : (∃ m ∈ mods ++ newChoices mods changes, m.choice = change.choice) ↔
        change.choice ∈ mods.map choice ∨
          change.choice ∈ (changes.map choice).filter (· ∉ mods.map choice) := by
      rw [← List.mem_eraseDups (l := (changes.map choice).filter _), ← ih, ← List.mem_append,
        ← List.map_append, List.mem_map]
    rw [newChoices_concat, List.map_append, List.map_singleton, List.filter_append]
    by_cases old : change.choice ∈ mods.map choice
    · rw [if_pos (known.mpr (.inl old)), ih, List.filter_singleton,
        decide_eq_false (not_not.mpr old), cond_false, List.append_nil]
    · rw [List.filter_singleton, decide_eq_true old, cond_true, eraseDups_concat]
      by_cases named : change.choice ∈ (changes.map choice).filter (· ∉ mods.map choice)
      · rw [if_pos (known.mpr (.inr named)), if_pos named, ih]
      · rw [if_neg (known.not.mpr (not_or.mpr ⟨old, named⟩)), if_neg named, List.map_append, ih]
        rfl

theorem choices_applyChanges : (applyChanges mods changes).map choice =
    mods.map choice ++ ((changes.map choice).filter (· ∉ mods.map choice)).eraseDups := by
  rw [applyChanges_eq, List.map_map, ← choices_newChoices, ← List.map_append]
  rfl

/-- Once applied, changes change nothing. -/
theorem applyChanges_idem :
    applyChanges (applyChanges mods changes) changes = applyChanges mods changes := by
  have nothing : newChoices (applyChanges mods changes) changes = [] := by
    apply List.map_eq_nil_iff.mp
    have known : ∀ name ∈ changes.map choice,
        name ∈ (applyChanges mods changes).map choice := by
      intro name hname
      rw [choices_applyChanges, List.mem_append, List.mem_eraseDups]
      by_cases old : name ∈ mods.map choice
      · exact .inl old
      · exact .inr (List.mem_filter.mpr ⟨hname, decide_eq_true old⟩)
    rw [choices_newChoices, List.filter_eq_nil_iff.mpr]
    · rfl
    · intro name hname new
      exact of_decide_eq_true new (known name hname)
  have again : applyChanges (applyChanges mods changes) changes =
      (applyChanges mods changes).map (settle changes) := by
    rw [applyChanges_eq, nothing, List.append_nil]
  rw [again, applyChanges_eq, List.map_map]
  apply List.map_congr_left
  intro m _
  exact settle_settle

end Settle

end ModChoice

/-! ### Well-formed strings -/

/-- The parts of a string `Modifier 1:M1:1`. -/
def categoryOf (mod : String) : String :=
  (componentsSeparatedByString mod)[Orders.CATEGORY_INDEX]?.getD ""

def choiceOf (mod : String) : String :=
  (componentsSeparatedByString mod)[Orders.CHOICE_INDEX]?.getD ""

def booleanOf (mod : String) : String :=
  (componentsSeparatedByString mod)[Orders.BOOLEAN_INDEX]?.getD ""

/-- The string has these three parts and no other, and the last is a flag. -/
def WellFormed (mod : String) : Prop :=
  componentsSeparatedByString mod = [categoryOf mod, choiceOf mod, booleanOf mod] ∧
    (booleanOf mod = "0" ∨ booleanOf mod = "1")

instance (mod : String) : Decidable (WellFormed mod) := inferInstanceAs (Decidable (_ ∧ _))

section WellFormed

open ModChoice

variable {mod : String} {m : ModChoice}

@[simp] theorem categoryOf_text : categoryOf m.text = m.category := by
  rw [categoryOf, components_text]
  rfl

@[simp] theorem choiceOf_text : choiceOf m.text = m.choice := by
  rw [choiceOf, components_text]
  rfl

@[simp] theorem booleanOf_text : booleanOf m.text = flagText m.isOn := by
  rw [booleanOf, components_text]
  rfl

theorem wellFormed_text (m : ModChoice) : WellFormed m.text := by
  refine ⟨by rw [components_text, categoryOf_text, choiceOf_text, booleanOf_text], ?_⟩
  rw [booleanOf_text]
  cases m.isOn with
  | true => exact .inr rfl
  | false => exact .inl rfl

/-- The well-formed strings are the strings of entries. -/
theorem wellFormed_iff : WellFormed mod ↔ ∃ m : ModChoice, m.text = mod := by
  constructor
  · rintro ⟨parts, flag⟩
    have free : ∀ part ∈ [categoryOf mod, choiceOf mod, booleanOf mod], Delimited.Free ':' part := by
      intro part hpart
      exact Delimited.free_of_mem_components (parts ▸ hpart)
    refine ⟨⟨categoryOf mod, choiceOf mod, booleanOf mod = "1", free _ (by simp),
      free _ (by simp)⟩, ?_⟩
    have hflag : flagText (decide (booleanOf mod = "1")) = booleanOf mod := by
      rcases flag with zero | one
      · rw [zero]
        rfl
      · rw [one]
        rfl
    rw [text, hflag]
    have colon : String.singleton ':' = ":" := rfl
    calc format (categoryOf mod) (choiceOf mod) (booleanOf mod)
        = Delimited.joined ':' [categoryOf mod, choiceOf mod, booleanOf mod] := by
          rw [Delimited.joined_three, colon, format]
      _ = Delimited.joined ':' (componentsSeparatedByString mod) := by rw [parts]
      _ = mod := Delimited.joined_components mod
  · rintro ⟨m, rfl⟩
    exact wellFormed_text m

/-- Lists of well-formed strings are lists of entries. -/
theorem exists_map_text {mods : List String} (wellFormed : ∀ mod ∈ mods, WellFormed mod) :
    ∃ entries : List ModChoice, entries.map text = mods := by
  have range : mods ∈ Set.range (List.map text) := by
    rw [Set.range_list_map]
    intro mod hmod
    exact wellFormed_iff.mp (wellFormed mod hmod)
  exact range

theorem map_choiceOf_text (entries : List ModChoice) :
    (entries.map text).map choiceOf = entries.map choice := by
  rw [List.map_map]
  exact List.map_congr_left fun m _ => choiceOf_text

end WellFormed

/-! ### Sending changes again -/

/-- What a list of changes makes of the strings of an item. -/
structure ChangesSettled (mods changes mods' : List String) : Prop where
  flag : ∀ before change after, changes = before ++ change :: after →
    choiceOf change ∉ after.map choiceOf →
      ∃ mod' ∈ mods', choiceOf mod' = choiceOf change ∧ booleanOf mod' = booleanOf change
  stored : ∀ (i : Nat) mod, mods[i]? = some mod → ∃ mod', mods'[i]? = some mod' ∧
    categoryOf mod' = categoryOf mod ∧ choiceOf mod' = choiceOf mod ∧
      (choiceOf mod ∉ changes.map choiceOf → mod' = mod)
  choices : mods'.map choiceOf =
    mods.map choiceOf ++ ((changes.map choiceOf).filter (· ∉ mods.map choiceOf)).eraseDups
  nodup : (mods'.map choiceOf).Nodup
  wellFormed : ∀ mod' ∈ mods', WellFormed mod'

section Resend

open ModChoice

variable {mods changes : List ModChoice}

/-- The last change to a choice is the one no later change has the choice of. -/
theorem lastFlag_of_last {before after : List ModChoice} {change : ModChoice}
    (last : change.choice ∉ after.map choice) :
    lastFlag (before ++ change :: after) change.choice = some change.isOn := by
  have none : flagOf after.reverse change.choice = none := by
    apply flagOf_eq_none_iff.mpr
    intro m mem same
    exact last (List.mem_map.mpr ⟨m, List.mem_reverse.mp mem, same⟩)
  rw [lastFlag, List.reverse_append, List.reverse_cons, List.append_assoc, flagOf_append, none,
    Option.none_or, List.singleton_append, flagOf_cons, if_pos rfl]

theorem changesSettled_text (nodup : (mods.map choice).Nodup) :
    ChangesSettled (mods.map text) (changes.map text) ((applyChanges mods changes).map text) where
  flag := by
    intro before change after split last
    obtain ⟨first, rest, rfl, rfl, hrest⟩ := List.map_eq_append_iff.mp split
    obtain ⟨m, later, rfl, rfl, rfl⟩ := List.map_eq_cons_iff.mp hrest
    rw [choiceOf_text, map_choiceOf_text] at last
    have settled : flagOf (applyChanges mods (first ++ m :: later)) m.choice = some m.isOn := by
      rw [flagOf_applyChanges, lastFlag_of_last last, Option.some_or]
    obtain ⟨m', mem, same, flag⟩ :=
      (flagOf_eq_some_iff (nodup_choices_applyChanges nodup)).mp settled
    refine ⟨m'.text, List.mem_map_of_mem mem, ?_, ?_⟩
    · rw [choiceOf_text, choiceOf_text, same]
    · rw [booleanOf_text, booleanOf_text, flag]
  stored := by
    intro i mod hmod
    rw [List.getElem?_map, Option.map_eq_some_iff] at hmod
    obtain ⟨m, hm, rfl⟩ := hmod
    refine ⟨(m.settle changes).text, ?_, ?_, ?_, ?_⟩
    · rw [applyChanges_eq, List.map_append, List.map_append, List.getElem?_append_left, 
        List.getElem?_map, List.getElem?_map, hm]
      · rfl
      · simpa using (List.getElem?_eq_some_iff.mp hm).1
    · rw [categoryOf_text, categoryOf_text, settle_category]
    · rw [choiceOf_text, choiceOf_text, settle_choice]
    · intro untouched
      rw [choiceOf_text, map_choiceOf_text] at untouched
      rw [settle_of_notMem untouched]
  choices := by
    rw [map_choiceOf_text, map_choiceOf_text, map_choiceOf_text, choices_applyChanges]
  nodup := by
    rw [map_choiceOf_text]
    exact nodup_choices_applyChanges nodup
  wellFormed := by
    intro mod' hmod'
    obtain ⟨m, -, rfl⟩ := List.mem_map.mp hmod'
    exact wellFormed_text m

end Resend

/-- **Main result.** Changes sent to an item settle its strings and nothing else of
the order; sent again, they change nothing. -/
theorem updateDictionaryWithModifierString_resend (o : Orders) {itemId : NSNumber}
    {mods changes : List String} (inDictionary : o.dictionary.lookup itemId = some mods)
    (wellFormed : ∀ mod ∈ mods, WellFormed mod) (nodup : (mods.map choiceOf).Nodup)
    (changesWellFormed : ∀ change ∈ changes, WellFormed change) :
    ∃ o' mods', o.updateDictionaryWithModifierString changes (some itemId) = .ok o' ∧
      o'.dictionary.lookup itemId = some mods' ∧ ChangesSettled mods changes mods' ∧
      (∀ other, other ≠ itemId → o'.dictionary.lookup other = o.dictionary.lookup other) ∧
      o' = { o with dictionary := o'.dictionary } ∧
      o'.updateDictionaryWithModifierString changes (some itemId) = .ok o' := by
  obtain ⟨entries, rfl⟩ := exists_map_text wellFormed
  obtain ⟨changeEntries, rfl⟩ := exists_map_text changesWellFormed
  rw [map_choiceOf_text] at nodup
  have settled := Finmap.lookup_insert (a := itemId) (b :=
    (ModChoice.applyChanges entries changeEntries).map ModChoice.text) o.dictionary
  refine ⟨_, _, Orders.updateDictionaryWithModifierString_text changeEntries inDictionary,
    settled, changesSettled_text nodup, ?_, rfl, ?_⟩
  · intro other ne
    exact Finmap.lookup_insert_of_ne _ ne
  · rw [Orders.updateDictionaryWithModifierString_text changeEntries settled,
      ModChoice.applyChanges_idem, Finmap.insert_insert]

/-- An item whose one modifier is off. -/
def mildItem : Orders := { Orders.init with
  dictionary := (∅ : NSMutableDictionary NSNumber (List String)).insert 1 ["Modifier 1:mild:0"] }

/-- Two changes to one choice, around a new one. -/
def mildTwice : List String := ["Modifier 1:mild:1", "Modifier 2:large:1", "Modifier 1:mild:0"]

theorem updateDictionaryWithModifierString_resend_mild :
    ∃ o' mods', mildItem.updateDictionaryWithModifierString mildTwice (some 1) = .ok o' ∧
      o'.dictionary.lookup 1 = some mods' ∧
      ChangesSettled ["Modifier 1:mild:0"] mildTwice mods' ∧
      o'.updateDictionaryWithModifierString mildTwice (some 1) = .ok o' := by
  obtain ⟨o', mods', hsent, hmods, settled, -, -, again⟩ :=
    updateDictionaryWithModifierString_resend mildItem (Finmap.lookup_insert _) (by decide)
      (by decide) (by decide : ∀ change ∈ mildTwice, WellFormed change)
  exact ⟨o', mods', hsent, hmods, settled, again⟩

end PointIPad
