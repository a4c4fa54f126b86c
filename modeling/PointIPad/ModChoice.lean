import PointIPad.Foundation

/-!
Modifier choices.

The order keeps the modifiers of an item as strings such as `Modifier 1:M1:1`:
the category, the choice, and whether the choice is on. `ModChoice` is such an
entry taken apart. Its two names are free of the colon, so that the string is
cut into exactly these three parts (`components_text`); the option names the
database supplies are pieces cut at colons, and satisfy this.

Two ways of looking an entry up meet in the app. The order looks for the choice
(`applyChange`), the Modifiers screen for the category and the choice
(`recordChange`). Both are total functions here, on entries; that the string
code computes them is shown where that code is modelled.
-/

namespace PointIPad

/-- A modifier entry. -/
structure ModChoice where
  category : String
  choice : String
  isOn : Bool
  category_free : Delimited.Free ':' category
  choice_free : Delimited.Free ':' choice
deriving DecidableEq

namespace ModChoice

/-- What the third part of an entry says. -/
def flagText (isOn : Bool) : String := if isOn then "1" else "0"

/-- `[NSString stringWithFormat:@"%@:%@:%@", ...]`. -/
def format (category choice flag : String) : String :=
  category ++ ":" ++ choice ++ ":" ++ flag

/-- The entry as the order stores it. -/
def text (m : ModChoice) : String := format m.category m.choice (flagText m.isOn)

/-- The same option, switched on or off. -/
def withFlag (m : ModChoice) (isOn : Bool) : ModChoice := { m with isOn := isOn }

/-- What tells two options on the Modifiers screen apart. -/
def key (m : ModChoice) : String × String := (m.category, m.choice)

@[simp] theorem withFlag_choice (m : ModChoice) (b : Bool) : (m.withFlag b).choice = m.choice := rfl

@[simp] theorem withFlag_category (m : ModChoice) (b : Bool) :
    (m.withFlag b).category = m.category := rfl

@[simp] theorem withFlag_isOn (m : ModChoice) (b : Bool) : (m.withFlag b).isOn = b := rfl

@[simp] theorem withFlag_key (m : ModChoice) (b : Bool) : (m.withFlag b).key = m.key := rfl

theorem flagText_free (b : Bool) : Delimited.Free ':' (flagText b) := by cases b <;> decide

@[simp] theorem flagText_eq_one_iff {b : Bool} : flagText b = "1" ↔ b = true := by
  cases b <;> decide

/-- An entry is cut back into its three parts. -/
theorem components_text (m : ModChoice) :
    componentsSeparatedByString m.text = [m.category, m.choice, flagText m.isOn] :=
  Delimited.components_three m.category_free m.choice_free (flagText_free m.isOn)

/-- Entries that are stored as the same string are the same. -/
theorem text_injective : Function.Injective text := by
  intro m m' same
  have parts := congrArg componentsSeparatedByString same
  rw [components_text, components_text] at parts
  obtain ⟨category, rest⟩ := List.cons.inj parts
  obtain ⟨choice, rest⟩ := List.cons.inj rest
  obtain ⟨flag, -⟩ := List.cons.inj rest
  have isOn : m.isOn = m'.isOn := by
    rw [Bool.eq_iff_iff, ← flagText_eq_one_iff, flag, flagText_eq_one_iff]
  cases m
  cases m'
  cases category
  cases choice
  cases isOn
  rfl

/-! ### Looking up by choice -/

/-- The flag of the first entry with a choice; none if the choice was never made. -/
def flagOf (mods : List ModChoice) (choice : String) : Option Bool :=
  (mods.find? (·.choice = choice)).map isOn

/-- One change sent to the order: every entry with its choice takes its flag; a
change with a new choice is added. -/
def applyChange (mods : List ModChoice) (change : ModChoice) : List ModChoice :=
  if ∃ m ∈ mods, m.choice = change.choice then
    mods.map fun m => if m.choice = change.choice then m.withFlag change.isOn else m
  else mods ++ [change]

/-- The changes sent to the order, one after the other. -/
def applyChanges (mods changes : List ModChoice) : List ModChoice := changes.foldl applyChange mods

/-- The flag of the last entry with a choice. -/
def lastFlag (changes : List ModChoice) (choice : String) : Option Bool :=
  flagOf changes.reverse choice

section Lookup

variable {mods changes : List ModChoice} {change m : ModChoice} {choice : String}

theorem flagOf_cons :
    flagOf (m :: mods) choice = if m.choice = choice then some m.isOn else flagOf mods choice := by
  unfold flagOf
  by_cases h : m.choice = choice
  · simp [h]
  · simp [h]

theorem flagOf_append (mods' : List ModChoice) :
    flagOf (mods ++ mods') choice = (flagOf mods choice).or (flagOf mods' choice) := by
  induction mods with
  | nil => simp [flagOf]
  | cons m mods ih =>
    rw [List.cons_append, flagOf_cons, flagOf_cons]
    split
    · rfl
    · exact ih

theorem flagOf_eq_none_iff : flagOf mods choice = none ↔ ∀ m ∈ mods, m.choice ≠ choice := by
  simp [flagOf]

/-- A change with a choice that has entries is the new flag of that choice. -/
theorem flagOf_map_withFlag (b : Bool) (changed : String) :
    flagOf (mods.map fun m => if m.choice = changed then m.withFlag b else m) choice =
      if choice = changed then (flagOf mods choice).map fun _ => b else flagOf mods choice := by
  induction mods with
  | nil => simp [flagOf]
  | cons m mods ih =>
    rw [List.map_cons, flagOf_cons, flagOf_cons, ih]
    grind [withFlag_choice, withFlag_isOn]

/-- After a change, its choice has its flag, and no other choice is affected. -/
theorem flagOf_applyChange :
    flagOf (applyChange mods change) choice =
      if change.choice = choice then some change.isOn else flagOf mods choice := by
  unfold applyChange
  by_cases known : ∃ m ∈ mods, m.choice = change.choice
  · rw [if_pos known, flagOf_map_withFlag]
    by_cases same : change.choice = choice
    · subst same
      rw [if_pos rfl, if_pos rfl]
      cases hflag : flagOf mods change.choice with
      | none =>
        obtain ⟨m, mem, hm⟩ := known
        exact absurd hm (flagOf_eq_none_iff.mp hflag m mem)
      | some b => rfl
    · rw [if_neg same, if_neg (Ne.symm same)]
  · rw [if_neg known, flagOf_append, flagOf_cons]
    have absent : flagOf mods change.choice = none :=
      flagOf_eq_none_iff.mpr fun m mem hm => known ⟨m, mem, hm⟩
    by_cases same : change.choice = choice
    · subst same
      rw [absent, if_pos rfl, if_pos rfl]
      rfl
    · rw [if_neg same, if_neg same]
      simp [flagOf]

theorem lastFlag_concat :
    lastFlag (changes ++ [change]) choice =
      if change.choice = choice then some change.isOn else lastFlag changes choice := by
  rw [lastFlag, List.reverse_append, List.reverse_singleton, List.singleton_append, flagOf_cons]
  rfl

theorem applyChanges_concat :
    applyChanges mods (changes ++ [change]) = applyChange (applyChanges mods changes) change := by
  simp [applyChanges, List.foldl_append]

/-- After several changes a choice has the flag of the last change made to it;
a choice without a change keeps its flag. -/
theorem flagOf_applyChanges :
    flagOf (applyChanges mods changes) choice =
      (lastFlag changes choice).or (flagOf mods choice) := by
  induction changes using List.reverseRecOn with
  | nil => simp [applyChanges, lastFlag, flagOf]
  | append_singleton changes change ih =>
    rw [applyChanges_concat, flagOf_applyChange, lastFlag_concat, ih]
    split <;> rfl

/-- The entries after a change are those before it and the change, up to flags. -/
theorem exists_key_of_mem_applyChange (h : m ∈ applyChange mods change) :
    m.key = change.key ∨ ∃ m' ∈ mods, m.key = m'.key := by
  unfold applyChange at h
  split at h
  · obtain ⟨m', mem, rfl⟩ := List.mem_map.mp h
    refine .inr ⟨m', mem, ?_⟩
    split <;> rfl
  · rcases List.mem_append.mp h with mem | mem
    · exact .inr ⟨m, mem, rfl⟩
    · rw [List.mem_singleton.mp mem]
      exact .inl rfl

theorem exists_key_of_mem_applyChanges (h : m ∈ applyChanges mods changes) :
    (∃ c ∈ changes, m.key = c.key) ∨ ∃ m' ∈ mods, m.key = m'.key := by
  induction changes generalizing mods with
  | nil => exact .inr ⟨m, h, rfl⟩
  | cons change changes ih =>
    have applied : m ∈ applyChanges (applyChange mods change) changes := h
    rcases ih applied with ⟨c, mem, hc⟩ | ⟨m', mem, hm⟩
    · exact .inl ⟨c, List.mem_cons_of_mem change mem, hc⟩
    · rcases exists_key_of_mem_applyChange mem with hkey | ⟨m'', mem'', hkey⟩
      · exact .inl ⟨change, List.mem_cons_self, hm.trans hkey⟩
      · exact .inr ⟨m'', mem'', hm.trans hkey⟩

/-- Distinct choices stay distinct. -/
theorem nodup_choices_applyChange (nodup : (mods.map ModChoice.choice).Nodup) :
    ((applyChange mods change).map ModChoice.choice).Nodup := by
  unfold applyChange
  split
  · have choices : (mods.map fun m => if m.choice = change.choice then m.withFlag change.isOn
        else m).map ModChoice.choice = mods.map ModChoice.choice := by
      rw [List.map_map]
      refine List.map_congr_left fun m _ => ?_
      simp only [Function.comp_apply]
      split <;> rfl
    rw [choices]
    exact nodup
  · rename_i new
    rw [List.map_append, List.nodup_append]
    refine ⟨nodup, by simp, ?_⟩
    intro a ha b hb hab
    obtain ⟨m, mem, rfl⟩ := List.mem_map.mp ha
    rw [List.map_singleton, List.mem_singleton] at hb
    exact new ⟨m, mem, hab.trans hb⟩

theorem nodup_choices_applyChanges (nodup : (mods.map ModChoice.choice).Nodup) :
    ((applyChanges mods changes).map ModChoice.choice).Nodup := by
  induction changes generalizing mods with
  | nil => exact nodup
  | cons change changes ih => exact ih (nodup_choices_applyChange nodup)

/-- With distinct choices, the flag of a choice is the flag of its one entry. -/
theorem flagOf_eq_some_iff (nodup : (mods.map ModChoice.choice).Nodup) {b : Bool} :
    flagOf mods choice = some b ↔ ∃ m ∈ mods, m.choice = choice ∧ m.isOn = b := by
  rw [flagOf, Option.map_eq_some_iff]
  constructor
  · rintro ⟨m, hfind, hb⟩
    exact ⟨m, List.mem_of_find?_eq_some hfind, by simpa using List.find?_some hfind, hb⟩
  · rintro ⟨m, mem, rfl, hb⟩
    obtain ⟨m', hfind⟩ := Option.isSome_iff_exists.mp
      (List.find?_isSome.mpr ⟨m, mem, by simp⟩ : (mods.find? (·.choice = m.choice)).isSome)
    refine ⟨m', hfind, ?_⟩
    have same : m'.choice = m.choice := by simpa using List.find?_some hfind
    rw [List.inj_on_of_nodup_map nodup (List.mem_of_find?_eq_some hfind) mem same, hb]

/-- With distinct choices the flag of a choice is that of its one change. -/
theorem lastFlag_of_mem (nodup : (changes.map ModChoice.choice).Nodup) (mem : change ∈ changes) :
    lastFlag changes change.choice = some change.isOn := by
  have reversed : (changes.reverse.map ModChoice.choice).Nodup := by
    rwa [List.map_reverse, List.nodup_reverse]
  exact (flagOf_eq_some_iff reversed).mpr ⟨change, List.mem_reverse.mpr mem, rfl, rfl⟩

end Lookup

/-! ### Looking up by category and choice -/

/-- A change noted on the screen: it replaces the entry with its category and
its choice, or is added. -/
def recordChange : List ModChoice → ModChoice → List ModChoice
  | [], change => [change]
  | m :: sent, change =>
    if m.key = change.key then change :: sent else m :: recordChange sent change

section Record

variable {sent : List ModChoice} {change m : ModChoice}

theorem mem_recordChange_self : change ∈ recordChange sent change := by
  induction sent with
  | nil => exact List.mem_singleton_self change
  | cons m sent ih =>
    rw [recordChange]
    split
    · exact List.mem_cons_self
    · exact List.mem_cons_of_mem m ih

/-- The keys noted after a change are those before it and the change's own. -/
theorem keys_recordChange :
    (recordChange sent change).map key =
      if change.key ∈ sent.map key then sent.map key else sent.map key ++ [change.key] := by
  induction sent with
  | nil => rfl
  | cons m sent ih =>
    rw [recordChange]
    by_cases same : m.key = change.key
    · rw [if_pos same, List.map_cons, List.map_cons, same, if_pos List.mem_cons_self]
    · rw [if_neg same, List.map_cons, List.map_cons, ih]
      by_cases mem : change.key ∈ sent.map key
      · rw [if_pos mem, if_pos (List.mem_cons_of_mem _ mem)]
      · rw [if_neg mem, if_neg (by simpa [Ne.symm same] using mem)]
        rfl

theorem nodup_keys_recordChange (nodup : (sent.map key).Nodup) :
    ((recordChange sent change).map key).Nodup := by
  rw [keys_recordChange]
  split
  · exact nodup
  · rename_i new
    exact List.nodup_append.mpr
      ⟨nodup, List.nodup_singleton _, fun a ha b hb hab =>
        new (List.mem_singleton.mp hb ▸ hab ▸ ha)⟩

theorem eq_or_mem_of_mem_recordChange (mem : m ∈ recordChange sent change) :
    m = change ∨ m ∈ sent := by
  induction sent with
  | nil => exact .inl (List.mem_singleton.mp mem)
  | cons m' sent ih =>
    rw [recordChange] at mem
    split at mem
    · rcases List.mem_cons.mp mem with rfl | mem
      · exact .inl rfl
      · exact .inr (List.mem_cons_of_mem m' mem)
    · rcases List.mem_cons.mp mem with rfl | mem
      · exact .inr List.mem_cons_self
      · exact (ih mem).imp_right (List.mem_cons_of_mem m')

/-- A new option is noted behind the others. -/
theorem recordChange_new (new : change.key ∉ sent.map key) :
    recordChange sent change = sent ++ [change] := by
  induction sent with
  | nil => rfl
  | cons m sent ih =>
    rw [List.map_cons, List.mem_cons, not_or] at new
    rw [recordChange, if_neg (Ne.symm new.1), ih new.2, List.cons_append]

/-- A change of an option that is noted leaves the later ones in their places. -/
theorem recordChange_append (later : List ModChoice) (known : change.key ∈ sent.map key) :
    recordChange (sent ++ later) change = recordChange sent change ++ later := by
  induction sent with
  | nil => cases known
  | cons m sent ih =>
    rw [List.cons_append, recordChange, recordChange]
    split
    · rfl
    · rename_i other
      rw [List.map_cons, List.mem_cons] at known
      rw [ih (known.resolve_left (Ne.symm other)), List.cons_append]

/-- Distinct choices stay distinct, if no other option with the choice is noted. -/
theorem nodup_choices_recordChange (nodup : (sent.map choice).Nodup)
    (apart : ∀ m ∈ sent, m.choice = change.choice → m.category = change.category) :
    ((recordChange sent change).map choice).Nodup := by
  have inj : ∀ m ∈ recordChange sent change, ∀ m' ∈ recordChange sent change,
      m.choice = m'.choice → m.key = m'.key := by
    have same : ∀ m ∈ recordChange sent change, m.choice = change.choice → m.key = change.key := by
      intro m hm hchoice
      rcases eq_or_mem_of_mem_recordChange hm with rfl | old
      · rfl
      · exact Prod.ext (apart m old hchoice) hchoice
    intro m hm m' hm' hchoice
    rcases eq_or_mem_of_mem_recordChange hm with rfl | old
    · exact (same m' hm' hchoice.symm).symm
    · rcases eq_or_mem_of_mem_recordChange hm' with rfl | old'
      · exact same m hm hchoice
      · rw [List.inj_on_of_nodup_map nodup old old' hchoice]
  have keys : ((recordChange sent change).map key).Nodup := by
    apply nodup_keys_recordChange
    apply List.Nodup.of_map Prod.snd
    rwa [List.map_map]
  rw [List.nodup_map_iff_inj_on keys.of_map]
  intro m hm m' hm' hchoice
  exact List.inj_on_of_nodup_map keys hm hm' (inj m hm m' hm' hchoice)

/-- What is noted after a change: the change, and the entries of other options. -/
theorem mem_recordChange (nodup : (sent.map key).Nodup) (mem : m ∈ recordChange sent change) :
    m = change ∨ m ∈ sent ∧ m.key ≠ change.key := by
  by_cases same : m.key = change.key
  · exact .inl (List.inj_on_of_nodup_map (nodup_keys_recordChange nodup) mem
      mem_recordChange_self same)
  · right
    rcases eq_or_mem_of_mem_recordChange mem with rfl | old
    · exact absurd rfl same
    · exact ⟨old, same⟩

end Record

end ModChoice

end PointIPad
