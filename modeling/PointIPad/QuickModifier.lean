import Mathlib.Algebra.BigOperators.Group.Finset.Basic
import PointIPad.Orders

/-!
The Modifiers screen.

The screen shows a section for each kind of modifier an item has, and a switch
for each option. Every toggle is noted in a list kept while the screen is open,
and the whole list is sent to the order again. The screen tells options apart by
category and choice; the order only by choice.

Opening the screen never raises and shows the sections of the item
(`viewDidLoad_eq`); a toggle is a change of one entry, noted and sent with all
others (`switchChanged_noted`).
-/

namespace PointIPad

open Transition

structure QuickModifierController where
  selectedItemId : Option NSNumber
  modsToShow : List (String × List String)
  modOptionKeys : List String
  modifiersToReturnToParent : List String
deriving DecidableEq

namespace QuickModifierController

/-! ### The sections of an item -/

/-- Several options are stored in one text, as in `M1:M1A:M2`. -/
def getDelimitedModNames (modArray : List String) : Except NSException (List String) := do
  .ok (componentsSeparatedByString (← objectAtIndex modArray 0))

/-- One of the four blocks of `viewDidLoad`. A section is a dictionary with one
entry; its key is also kept in `modOptionKeys`. -/
def addSection (optionKey : String) (mods : List String) (c : QuickModifierController) :
    Except NSException QuickModifierController := do
  if (← objectAtIndex mods 0) ≠ "null" then
    .ok { c with
      modsToShow := c.modsToShow ++ [(optionKey, ← getDelimitedModNames mods)]
      modOptionKeys := c.modOptionKeys ++ [optionKey] }
  else .ok c

def viewDidLoad (db : DatabaseAccess) (selectedItemId : Option NSNumber) :
    Except NSException QuickModifierController := do
  let c : QuickModifierController := ⟨selectedItemId, [], [], []⟩
  let c ← c.addSection "Modifier 1" (db.hotnessOptionsModifierOne selectedItemId)
  let c ← c.addSection "Modifier 2" (db.quantityOptionsModifierTwo selectedItemId)
  let c ← c.addSection "Modifier 3" (db.extraOptionsModifierThree selectedItemId)
  c.addSection "Modifier 4" (db.optionOptionsModifierFour selectedItemId)

/-- The title of a section. -/
def titleForHeaderInSection (c : QuickModifierController) (sect : Nat) :
    Except NSException String :=
  objectAtIndex c.modOptionKeys sect

/-- The text of a cell: the name of its option. -/
def cellValue (c : QuickModifierController) (sect row : Nat) : Except NSException String := do
  let dictionary ← objectAtIndex c.modsToShow sect
  let key ← objectAtIndex c.modOptionKeys sect
  objectAtIndex (if dictionary.1 = key then dictionary.2 else []) row

/-- The state a switch is shown in when its cell is made. -/
def determineSwitchStartState (c : QuickModifierController) (order : Orders) (sect row : Nat) :
    Except NSException Bool := do
  order.nameInKey (← c.cellValue sect row) c.selectedItemId

/-- The loop of `addStringModOptionToArray:` over the changes noted so far. -/
def addStringModOptionToArray (modStringToAdd : String) :
    List String → Except NSException (List String)
  | [] => .ok [modStringToAdd]
  | oneModifierString :: rest => do
    let selectedModOptionFromStringToAdd := componentsSeparatedByString modStringToAdd
    let selectedModOptions := componentsSeparatedByString oneModifierString
    if (← objectAtIndex selectedModOptionFromStringToAdd 0)
        = (← objectAtIndex selectedModOptions 0) then
      if (← objectAtIndex selectedModOptionFromStringToAdd 1)
          = (← objectAtIndex selectedModOptions 1) then .ok (modStringToAdd :: rest)
      else .ok (oneModifierString :: (← addStringModOptionToArray modStringToAdd rest))
    else .ok (oneModifierString :: (← addStringModOptionToArray modStringToAdd rest))

/-- A switch is turned: the change is noted, and all changes noted on this visit
are sent to the order. -/
def switchChanged (c : QuickModifierController) (order : Orders) (sect row : Nat) (on : Bool) :
    Except NSException (QuickModifierController × Orders) := do
  let titleOfCell ← c.cellValue sect row
  let titleOfSection ← c.titleForHeaderInSection sect
  let stringModOption := titleOfSection ++ ":" ++ titleOfCell ++ ":" ++ (if on then "1" else "0")
  let changes ← addStringModOptionToArray stringModOption c.modifiersToReturnToParent
  let order ← order.updateDictionaryWithModifierString changes c.selectedItemId
  .ok ({ c with modifiersToReturnToParent := changes }, order)

end QuickModifierController

/-! ### What is offered -/

/-- The sections of an item: a category and the options of its first row, unless
that row has none. -/
def modSections (db : DatabaseAccess) (itemId : Option NSNumber) : List (String × List String) :=
  [("Modifier 1", db.hotnessOptionsModifierOne itemId),
    ("Modifier 2", db.quantityOptionsModifierTwo itemId),
    ("Modifier 3", db.extraOptionsModifierThree itemId),
    ("Modifier 4", db.optionOptionsModifierFour itemId)].flatMap fun (key, mods) =>
      if mods.headD "null" = "null" then []
      else [(key, componentsSeparatedByString (mods.headD "null"))]

/-- The option in a row of a section. -/
def optionAt (sections : List (String × List String)) (sect row : Nat) :
    Option (String × String) :=
  sections[sect]?.bind fun s => s.2[row]?.map fun choice => (s.1, choice)

/-- All options, each a category and a choice. -/
def offeredOptions (sections : List (String × List String)) : List (String × String) :=
  sections.flatMap fun s => s.2.map fun choice => (s.1, choice)

/-- The screen of an item just opened. -/
def QuickModifierController.opened (db : DatabaseAccess) (itemId : Option NSNumber) :
    QuickModifierController where
  selectedItemId := itemId
  modsToShow := modSections db itemId
  modOptionKeys := (modSections db itemId).map Prod.fst
  modifiersToReturnToParent := []

section Sections

variable {db : DatabaseAccess} {itemId : Option NSNumber} {sections : List (String × List String)}
  {sect row : Nat} {option : String × String}

theorem addSection_eq {mods : List String} (hmods : mods ≠ []) (key : String)
    (c : QuickModifierController) :
    c.addSection key mods = .ok { c with
      modsToShow := c.modsToShow ++ (if mods.headD "null" = "null" then []
        else [(key, componentsSeparatedByString (mods.headD "null"))])
      modOptionKeys := c.modOptionKeys ++ (if mods.headD "null" = "null" then []
        else [(key, componentsSeparatedByString (mods.headD "null"))]).map Prod.fst } := by
  obtain ⟨first, rest, rfl⟩ := List.exists_cons_of_ne_nil hmods
  rw [QuickModifierController.addSection]
  simp only [objectAtIndex, List.getElem?_cons_zero, ok_bind, List.headD_cons,
    QuickModifierController.getDelimitedModNames]
  by_cases null : first = "null"
  · simp [null]
  · simp [null]

/-- Opening the screen never raises. -/
theorem viewDidLoad_eq (db : DatabaseAccess) (itemId : Option NSNumber) :
    QuickModifierController.viewDidLoad db itemId = .ok (.opened db itemId) := by
  have ne (text : String) : db.createModsUsing text ≠ [] := db.createModsUsing_ne_nil text
  simp only [QuickModifierController.viewDidLoad, DatabaseAccess.hotnessOptionsModifierOne,
    DatabaseAccess.quantityOptionsModifierTwo, DatabaseAccess.extraOptionsModifierThree,
    DatabaseAccess.optionOptionsModifierFour, addSection_eq (ne _), ok_bind]
  simp [QuickModifierController.opened, modSections, DatabaseAccess.hotnessOptionsModifierOne,
    DatabaseAccess.quantityOptionsModifierTwo, DatabaseAccess.extraOptionsModifierThree,
    DatabaseAccess.optionOptionsModifierFour]

theorem mem_offeredOptions_of_optionAt (h : optionAt sections sect row = some option) :
    option ∈ offeredOptions sections := by
  obtain ⟨s, hsect, hrow⟩ := Option.bind_eq_some_iff.mp h
  obtain ⟨choice, hchoice, rfl⟩ := Option.map_eq_some_iff.mp hrow
  exact List.mem_flatMap.mpr ⟨s, List.mem_of_getElem? hsect,
    List.mem_map_of_mem (List.mem_of_getElem? hchoice)⟩

/-- An option offered has its place on the screen. -/
theorem exists_optionAt (h : option ∈ offeredOptions sections) :
    ∃ sect row, optionAt sections sect row = some option := by
  obtain ⟨s, hs, hoption⟩ := List.mem_flatMap.mp h
  obtain ⟨choice, hchoice, rfl⟩ := List.mem_map.mp hoption
  obtain ⟨sect, hsect⟩ := List.mem_iff_getElem?.mp hs
  obtain ⟨row, hrow⟩ := List.mem_iff_getElem?.mp hchoice
  exact ⟨sect, row, by rw [optionAt, hsect, Option.bind_some, hrow, Option.map_some]⟩

/-- Titles and option names are free of colons. -/
theorem free_of_mem_offeredOptions (h : option ∈ offeredOptions (modSections db itemId)) :
    Delimited.Free ':' option.1 ∧ Delimited.Free ':' option.2 := by
  obtain ⟨s, hs, hoption⟩ := List.mem_flatMap.mp h
  obtain ⟨choice, hchoice, rfl⟩ := List.mem_map.mp hoption
  obtain ⟨⟨key, mods⟩, hkey, hs⟩ := List.mem_flatMap.mp hs
  dsimp only at hs
  split at hs
  · cases hs
  · rw [List.mem_singleton.mp hs] at hchoice ⊢
    refine ⟨?_, Delimited.free_of_mem_components hchoice⟩
    show Delimited.Free ':' key
    simp only [List.mem_cons, List.not_mem_nil, or_false, Prod.mk.injEq] at hkey
    rcases hkey with ⟨rfl, -⟩ | ⟨rfl, -⟩ | ⟨rfl, -⟩ | ⟨rfl, -⟩ <;> decide

/-- A section has at least one row. -/
theorem exists_option_of_sections (h : modSections db itemId ≠ []) :
    ∃ option, optionAt (modSections db itemId) 0 0 = some option := by
  obtain ⟨s, rest, hsections⟩ := List.exists_cons_of_ne_nil h
  obtain ⟨⟨key, mods⟩, -, hs⟩ := List.mem_flatMap.mp (hsections ▸ List.mem_cons_self : s ∈ _)
  dsimp only at hs
  split at hs
  · cases hs
  · have hne : componentsSeparatedByString (mods.headD "null") ≠ [] :=
      Delimited.components_ne_nil _
    obtain ⟨name, names, hnames⟩ := List.exists_cons_of_ne_nil hne
    rw [List.mem_singleton.mp hs, hnames] at hsections
    rw [hsections]
    exact ⟨_, rfl⟩

end Sections

/-! ### Toggles, on entries -/

namespace QuickModifierController

open ModChoice

/-- The screen of an item after some changes were noted on it. -/
def noted (db : DatabaseAccess) (itemId : Option NSNumber) (sent : List ModChoice) :
    QuickModifierController :=
  { opened db itemId with modifiersToReturnToParent := sent.map text }

variable {db : DatabaseAccess} {itemId : Option NSNumber} {sent : List ModChoice}
  {change : ModChoice} {sect row : Nat}

theorem addStringModOptionToArray_text :
    addStringModOptionToArray change.text (sent.map text) =
      .ok ((recordChange sent change).map text) := by
  induction sent with
  | nil => rfl
  | cons m sent ih =>
    rw [List.map_cons, addStringModOptionToArray, components_text, components_text, ih,
      recordChange]
    have hkey : m.key = change.key ↔ change.category = m.category ∧ change.choice = m.choice := by
      rw [key, key, Prod.mk.injEq, eq_comm, @eq_comm _ m.choice]
    by_cases category : change.category = m.category
    · by_cases choice : change.choice = m.choice
      · rw [if_pos (hkey.mpr ⟨category, choice⟩)]
        simp [objectAtIndex, category, choice]
      · rw [if_neg fun h => choice (hkey.mp h).2]
        simp [objectAtIndex, category, choice]
    · rw [if_neg fun h => category (hkey.mp h).1]
      simp [objectAtIndex, category]

theorem cellValue_noted {option : String × String}
    (h : optionAt (modSections db itemId) sect row = some option) :
    (noted db itemId sent).cellValue sect row = .ok option.2 ∧
      (noted db itemId sent).titleForHeaderInSection sect = .ok option.1 := by
  obtain ⟨s, hsect, hrow⟩ := Option.bind_eq_some_iff.mp h
  obtain ⟨choice, hchoice, rfl⟩ := Option.map_eq_some_iff.mp hrow
  have hkey : objectAtIndex ((modSections db itemId).map Prod.fst) sect = .ok s.1 :=
    objectAtIndex_eq_ok.mpr (by rw [List.getElem?_map, hsect, Option.map_some])
  constructor
  · simp only [cellValue, noted, opened, objectAtIndex_eq_ok.mpr hsect, hkey, ok_bind, if_true,
      objectAtIndex_eq_ok.mpr hchoice]
  · exact hkey

/-- There is no cell for an option that is not shown. -/
theorem cellValue_not_shown (sent : List ModChoice)
    (h : optionAt (modSections db itemId) sect row = none) :
    ∃ e, (noted db itemId sent).cellValue sect row = .error e := by
  rw [cellValue]
  cases hsect : (modSections db itemId)[sect]? with
  | none =>
    have hdict : objectAtIndex (noted db itemId sent).modsToShow sect = .error .rangeException := by
      show objectAtIndex (modSections db itemId) sect = _
      rw [objectAtIndex, hsect]
    exact ⟨_, by rw [hdict]; rfl⟩
  | some s =>
    have hrow : s.2[row]? = none := by
      rw [optionAt, hsect] at h
      exact Option.map_eq_none_iff.mp h
    have hkey : objectAtIndex ((modSections db itemId).map Prod.fst) sect = .ok s.1 :=
      objectAtIndex_eq_ok.mpr (by rw [List.getElem?_map, hsect, Option.map_some])
    refine ⟨.rangeException, ?_⟩
    simp only [noted, opened, objectAtIndex_eq_ok.mpr hsect, hkey, ok_bind, if_true]
    rw [objectAtIndex, hrow]

theorem switchChanged_not_shown (order : Orders) (sent : List ModChoice) (on : Bool)
    (h : optionAt (modSections db itemId) sect row = none) :
    ∃ e, (noted db itemId sent).switchChanged order sect row on = .error e := by
  obtain ⟨e, he⟩ := cellValue_not_shown sent h
  exact ⟨e, by rw [switchChanged, he]; rfl⟩

/-- A toggle notes the change by its category and choice, and sends all changes. -/
theorem switchChanged_noted (order : Orders) (sent : List ModChoice) (change : ModChoice)
    (h : optionAt (modSections db itemId) sect row = some change.key) :
    (noted db itemId sent).switchChanged order sect row change.isOn =
      (order.updateDictionaryWithModifierString ((recordChange sent change).map text) itemId).map
        fun order => (noted db itemId (recordChange sent change), order) := by
  obtain ⟨hcell, htitle⟩ := cellValue_noted h
  have htext : change.key.1 ++ ":" ++ change.key.2 ++ ":" ++ (if change.isOn then "1" else "0")
      = change.text := rfl
  have hadd : addStringModOptionToArray change.text
      (noted db itemId sent).modifiersToReturnToParent =
        .ok ((recordChange sent change).map text) := addStringModOptionToArray_text
  rw [switchChanged, hcell, ok_bind, htitle, ok_bind, htext]
  simp only [hadd, ok_bind]
  show (order.updateDictionaryWithModifierString ((recordChange sent change).map text) itemId
    >>= fun order => _) = _
  cases order.updateDictionaryWithModifierString ((recordChange sent change).map text) itemId <;>
    rfl

theorem opened_eq_noted : opened db itemId = noted db itemId [] := rfl

end QuickModifierController

end PointIPad
