import PointIPad.ModifierStrings
import PointIPad.OrderOperation

/-!
The modifier strings that the app makes and keeps.

A string is put together from the title of a section and the text of a cell. Both
are free of colons: the titles are fixed, and the text of a cell is a piece of what
the database holds, cut at colons. So the string is cut into the same parts again,
on the screen and in the order, and the loops that do so index no part that is
missing.

**Main result** (`modifiers_wellFormed`). At every point of every run, each string
that is kept consists of a title, a name under it on the Modifiers screen of its
item, and a flag.
-/

namespace PointIPad

open Transition ModChoice QuickModifierController

/-! ### Entries of options that are offered -/

/-- The dictionary holds, for each item, entries of options offered for it. -/
def HoldsOffered (db : DatabaseAccess) (o : Orders) : Prop :=
  ∀ x strings, o.dictionary.lookup x = some strings →
    ∃ mods : List ModChoice, strings = mods.map text ∧
      ∀ m ∈ mods, m.key ∈ offeredOptions (modSections db (some x))

section HoldsOffered

variable {db : DatabaseAccess} {o o' : Orders}

theorem holdsOffered_init (db : DatabaseAccess) : HoldsOffered db .init := by
  intro x strings h
  cases h

theorem HoldsOffered.of_dictionary (h : HoldsOffered db o) (same : o'.dictionary = o.dictionary) :
    HoldsOffered db o' := by
  intro x strings hx
  exact h x strings (same ▸ hx)

theorem HoldsOffered.updateTotals (h : HoldsOffered db o) (hstep : o.updateTotals db = .ok o') :
    HoldsOffered db o' := by
  obtain ⟨_, _, _, _, rfl⟩ := Orders.updateTotals_eq_ok hstep
  exact h.of_dictionary rfl

/-- The list of one item is replaced. -/
theorem HoldsOffered.insert (h : HoldsOffered db o) {x : NSNumber} {mods : List ModChoice}
    (offered : ∀ m ∈ mods, m.key ∈ offeredOptions (modSections db (some x)))
    (hinsert : o'.dictionary = o.dictionary.insert x (mods.map text)) : HoldsOffered db o' := by
  intro y strings hy
  rw [hinsert] at hy
  by_cases same : y = x
  · subst same
    rw [Finmap.lookup_insert, Option.some.injEq] at hy
    exact ⟨mods, hy.symm, offered⟩
  · rw [Finmap.lookup_insert_of_ne _ same] at hy
    exact h y strings hy

theorem HoldsOffered.erase (h : HoldsOffered db o) {x : NSNumber}
    (herase : o'.dictionary = o.dictionary.erase x) : HoldsOffered db o' := by
  intro y strings hy
  rw [herase] at hy
  by_cases same : y = x
  · subst same
    rw [Finmap.lookup_erase] at hy
    cases hy
  · rw [Finmap.lookup_erase_ne same] at hy
    exact h y strings hy

/-- A new item starts with an empty list. -/
theorem HoldsOffered.addToOrder (h : HoldsOffered db o) {itemId : Option NSNumber}
    (hstep : o.addToOrder db itemId = .ok o') : HoldsOffered db o' := by
  obtain ⟨added, hadded, htotals⟩ := bind_eq_ok.mp hstep
  refine HoldsOffered.updateTotals ?_ htotals
  cases itemId with
  | none => cases hadded
  | some x =>
    rw [Orders.addItem] at hadded
    split at hadded
    · obtain ⟨qtys, -, hqtys⟩ := bind_eq_ok.mp hadded
      cases hqtys
      exact h.of_dictionary rfl
    · cases hadded
      have empty : ∀ m ∈ ([] : List ModChoice),
          m.key ∈ offeredOptions (modSections db (some x)) :=
        fun m hm => absurd hm List.not_mem_nil
      exact h.insert empty rfl

theorem HoldsOffered.stepperValueChanged (h : HoldsOffered db o) {row : Nat} {value : Int}
    (hstep : o.stepperValueChanged db row value = .ok o') : HoldsOffered db o' := by
  obtain ⟨set, hset, hstep⟩ := bind_eq_ok.mp hstep
  obtain ⟨qtys, -, hqtys⟩ := bind_eq_ok.mp hset
  cases hqtys
  have held : HoldsOffered db { o with currentQtys := qtys } := h.of_dictionary rfl
  split at hstep
  · obtain ⟨removed, hremoved, hstep⟩ := bind_eq_ok.mp hstep
    obtain ⟨first, hfirst, hsecond⟩ := bind_eq_ok.mp hstep
    obtain ⟨x, -, hremoved⟩ := bind_eq_ok.mp hremoved
    obtain ⟨itemIds, -, hremoved⟩ := bind_eq_ok.mp hremoved
    obtain ⟨qtys', -, hremoved⟩ := bind_eq_ok.mp hremoved
    cases hremoved
    exact ((held.erase rfl).updateTotals hfirst).updateTotals hsecond
  · exact held.updateTotals hstep

/-- Changes to options offered for an item. -/
theorem HoldsOffered.updateModifiers (h : HoldsOffered db o) {itemId : Option NSNumber}
    {changes : List ModChoice}
    (offered : ∀ m ∈ changes, m.key ∈ offeredOptions (modSections db itemId))
    (hstep : o.updateDictionaryWithModifierString (changes.map text) itemId = .ok o') :
    HoldsOffered db o' := by
  cases present : o.modsInDict itemId with
  | none =>
    cases changes with
    | nil =>
      have same : o.updateDictionaryWithModifierString [] itemId = .ok o := by
        unfold Orders.updateDictionaryWithModifierString
        rw [present]
        cases itemId <;> rfl
      rw [List.map_nil, same] at hstep
      cases hstep
      exact h
    | cons change changes =>
      rw [List.map_cons, Orders.updateDictionaryWithModifierString_absent present] at hstep
      cases hstep
  | some strings =>
    cases itemId with
    | none => cases present
    | some x =>
      obtain ⟨mods, rfl, hmods⟩ := h x strings present
      rw [Orders.updateDictionaryWithModifierString_text changes present] at hstep
      cases hstep
      refine h.insert (fun m hm => ?_) rfl
      rcases exists_key_of_mem_applyChanges hm with ⟨change, hchange, hkey⟩ | ⟨m', hm', hkey⟩
      · exact hkey ▸ offered change hchange
      · exact hkey ▸ hmods m' hm'

end HoldsOffered

/-! ### The two screens -/

/-- The changes noted on a visit are about options offered for the item. -/
def NotesOffered (db : DatabaseAccess) (shown : QuickModifierController) : Prop :=
  ∃ itemId sent, shown = .noted db itemId sent ∧
    ∀ m ∈ sent, m.key ∈ offeredOptions (modSections db itemId)

/-- What holds at every point of a run. -/
structure KeepsOffered (db : DatabaseAccess) (s : Selecting) : Prop where
  stored : HoldsOffered db s.screen.order
  noted : ∀ shown ∈ s.modifiers, NotesOffered db shown

section Steps

variable {db : DatabaseAccess} {s s' : Selecting} {e : SelectEvent} {itemId : Option NSNumber}
  {sent : List ModChoice} {sect row : Nat} {on : Bool} {newChanges : List String}

/-- A toggle sends entries of options offered for the item. -/
theorem sentChanges_noted
    (offered : ∀ m ∈ sent, m.key ∈ offeredOptions (modSections db itemId))
    (h : (noted db itemId sent).sentChanges sect row on = .ok newChanges) :
    ∃ changes : List ModChoice, newChanges = changes.map text ∧
      ∀ m ∈ changes, m.key ∈ offeredOptions (modSections db itemId) := by
  obtain ⟨cell, hcell, h⟩ := bind_eq_ok.mp h
  obtain ⟨title, htitle, h⟩ := bind_eq_ok.mp h
  cases hat : optionAt (modSections db itemId) sect row with
  | none =>
    obtain ⟨e, he⟩ := cellValue_not_shown sent hat
    rw [hcell] at he
    cases he
  | some option =>
    obtain ⟨hvalue, hheader⟩ : (noted db itemId sent).cellValue sect row = .ok option.2 ∧
        (noted db itemId sent).titleForHeaderInSection sect = .ok option.1 := cellValue_noted hat
    rw [hcell] at hvalue
    rw [htitle] at hheader
    cases hvalue
    cases hheader
    have hoption := mem_offeredOptions_of_optionAt hat
    obtain ⟨hcategory, hchoice⟩ := free_of_mem_offeredOptions hoption
    let change : ModChoice := ⟨option.1, option.2, on, hcategory, hchoice⟩
    have hadd : addStringModOptionToArray change.text
        (noted db itemId sent).modifiersToReturnToParent =
          .ok ((recordChange sent change).map text) := addStringModOptionToArray_text
    refine ⟨recordChange sent change, (Except.ok.inj (hadd.symm.trans h)).symm, fun m hm => ?_⟩
    rcases eq_or_mem_of_mem_recordChange hm with rfl | old
    · exact hoption
    · exact offered m old

/-- A toggle stores and notes what it sends. -/
theorem KeepsOffered.toggle {screen : QuickServe} {shown shown' : QuickModifierController}
    {order : Orders} (h : KeepsOffered db ⟨screen, some shown⟩)
    (hswitch : shown.switchChanged screen.order sect row on = .ok (shown', order)) :
    KeepsOffered db ⟨{ screen with order := order }, some shown'⟩ := by
  obtain ⟨itemId, sent, rfl, offered⟩ := h.noted shown rfl
  obtain ⟨newChanges, hchanges, hupdate, rfl⟩ := switchChanged_sends hswitch
  obtain ⟨changes, rfl, hoffered⟩ := sentChanges_noted offered hchanges
  refine ⟨h.stored.updateModifiers hoffered hupdate, fun shown' hshown' => ?_⟩
  cases hshown'
  exact ⟨itemId, changes, rfl, hoffered⟩

/-- While the Modifiers screen is not shown, there is only the order. -/
theorem keepsOffered_of_stored {screen : QuickServe} (h : HoldsOffered db screen.order) :
    KeepsOffered db ⟨screen, none⟩ :=
  ⟨h, fun _ hshown => by cases hshown⟩

theorem HoldsOffered.handleOneTap {screen screen' : QuickServe} (h : HoldsOffered db screen.order)
    {indexPath : Option Nat} (hstep : screen.handleOneTap db indexPath = .ok screen') :
    HoldsOffered db screen'.order := by
  rcases QuickServe.handleOneTap_order hstep with same | ⟨itemId, added, hadd, htotals⟩
  · rw [same]
    exact h
  · exact (h.addToOrder hadd).updateTotals htotals

theorem selectStep_keepsOffered (h : KeepsOffered db s) (hstep : selectStep db s e = .ok s') :
    KeepsOffered db s' := by
  cases selectStep_inv hstep with
  | tap hscreen => exact keepsOffered_of_stored (h.stored.handleOneTap hscreen)
  | back =>
    apply keepsOffered_of_stored
    rw [QuickServe.flipBackMenuItems_order]
    exact h.stored
  | selectRow _ => exact keepsOffered_of_stored h.stored
  | stepperValueChanged hscreen =>
    exact keepsOffered_of_stored
      (h.stored.stepperValueChanged (QuickServe.stepperValueChanged_order hscreen))
  | openModifiers =>
    refine ⟨h.stored, fun shown hopened => ?_⟩
    cases hopened
    exact ⟨_, [], opened_eq_noted, fun m hm => absurd hm List.not_mem_nil⟩
  | toggle hswitch => exact h.toggle hswitch
  | closeModifiers hscreen =>
    exact keepsOffered_of_stored (h.stored.updateTotals (QuickServe.viewWillAppear_order hscreen))
  | ignored _ => exact h

end Steps

/-! ### Strings and loops -/

/-- The string consists of a title of the screen, the text of a cell, and a flag;
each part is in range, and together they are the string. -/
structure ShownModifier (screen : QuickModifierController) (mod : String) : Prop where
  parts : componentsSeparatedByString mod = [categoryOf mod, choiceOf mod, booleanOf mod]
  shown : ∃ sect row, screen.titleForHeaderInSection sect = .ok (categoryOf mod) ∧
    screen.cellValue sect row = .ok (choiceOf mod)
  flag : booleanOf mod = "0" ∨ booleanOf mod = "1"
  inRange : ∀ i ∈ [Orders.CATEGORY_INDEX, Orders.CHOICE_INDEX, Orders.BOOLEAN_INDEX],
    ∃ part, objectAtIndex (componentsSeparatedByString mod) i = .ok part
  rejoined : ModChoice.format (categoryOf mod) (choiceOf mod) (booleanOf mod) = mod

/-- Every string that is kept is one that the Modifiers screen of its item shows. -/
structure ModifiersWellFormed (db : DatabaseAccess) (s : Selecting) : Prop where
  noted : ∀ shown ∈ s.modifiers, ∀ mod ∈ shown.modifiersToReturnToParent, ShownModifier shown mod
  stored : ∀ x mods, s.screen.order.dictionary.lookup x = some mods → ∀ mod ∈ mods,
    ∃ screen, viewDidLoad db (some x) = .ok screen ∧ ShownModifier screen mod

/-- The loops that cut strings index no missing part: over the strings kept, and
with any well-formed changes. -/
structure LoopsInRange (db : DatabaseAccess) (s : Selecting) : Prop where
  priceOfEveryModUsing : ∀ x, ∃ price, s.screen.order.priceOfEveryModUsing db x = .ok price
  nameInKey : ∀ cellValue itemId, ∃ on, s.screen.order.nameInKey cellValue itemId = .ok on
  newChangeInDictionary : ∀ x mods, s.screen.order.dictionary.lookup x = some mods →
    ∀ change, WellFormed change → ∃ known, Orders.newChangeInDictionary mods change = .ok known
  updateDictionaryWithModifierString : ∀ x mods, s.screen.order.dictionary.lookup x = some mods →
    ∀ changes, (∀ change ∈ changes, WellFormed change) →
      ∃ o, s.screen.order.updateDictionaryWithModifierString changes (some x) = .ok o
  addStringModOptionToArray : ∀ shown ∈ s.modifiers, ∀ mod, WellFormed mod →
    ∃ changes, addStringModOptionToArray mod shown.modifiersToReturnToParent = .ok changes

section WellFormed

variable {db : DatabaseAccess} {s : Selecting} {itemId : Option NSNumber}

theorem shownModifier_text (sent : List ModChoice) {m : ModChoice}
    (offered : m.key ∈ offeredOptions (modSections db itemId)) :
    ShownModifier (.noted db itemId sent) m.text where
  parts := (wellFormed_text m).1
  shown := by
    obtain ⟨sect, row, hat⟩ := exists_optionAt offered
    obtain ⟨hcell, htitle⟩ := cellValue_noted hat
    rw [categoryOf_text, choiceOf_text]
    exact ⟨sect, row, htitle, hcell⟩
  flag := (wellFormed_text m).2
  inRange := by
    intro i hi
    rw [components_text]
    simp only [List.mem_cons, List.not_mem_nil, or_false] at hi
    rcases hi with rfl | rfl | rfl
    · exact ⟨_, rfl⟩
    · exact ⟨_, rfl⟩
    · exact ⟨_, rfl⟩
  rejoined := by
    rw [categoryOf_text, choiceOf_text, booleanOf_text]
    rfl

theorem KeepsOffered.modifiersWellFormed (h : KeepsOffered db s) : ModifiersWellFormed db s where
  noted := by
    intro shown hshown mod hmod
    obtain ⟨itemId, sent, rfl, offered⟩ := h.noted shown hshown
    obtain ⟨m, hm, rfl⟩ := List.mem_map.mp hmod
    exact shownModifier_text sent (offered m hm)
  stored := by
    intro x strings hstrings mod hmod
    obtain ⟨mods, rfl, offered⟩ := h.stored x strings hstrings
    obtain ⟨m, hm, rfl⟩ := List.mem_map.mp hmod
    exact ⟨_, viewDidLoad_eq db (some x), shownModifier_text [] (offered m hm)⟩

theorem KeepsOffered.loopsInRange (h : KeepsOffered db s) : LoopsInRange db s where
  priceOfEveryModUsing := by
    intro x
    cases hstrings : s.screen.order.dictionary.lookup x with
    | none =>
      have absent : s.screen.order.modsInDict (some x) = none := hstrings
      rw [Orders.priceOfEveryModUsing, absent]
      exact ⟨_, rfl⟩
    | some strings =>
      obtain ⟨mods, rfl, -⟩ := h.stored x strings hstrings
      exact ⟨_, Orders.priceOfEveryModUsing_text db hstrings⟩
  nameInKey := by
    intro cellValue itemId
    cases present : s.screen.order.modsInDict itemId with
    | none =>
      rw [Orders.nameInKey, present]
      exact ⟨_, rfl⟩
    | some strings =>
      cases itemId with
      | none => cases present
      | some x =>
        obtain ⟨mods, rfl, -⟩ := h.stored x strings present
        exact ⟨_, Orders.nameInKey_text cellValue present⟩
  newChangeInDictionary := by
    intro x strings hstrings change wellFormed
    obtain ⟨mods, rfl, -⟩ := h.stored x strings hstrings
    obtain ⟨m, rfl⟩ := wellFormed_iff.mp wellFormed
    exact ⟨_, Orders.newChangeInDictionary_text⟩
  updateDictionaryWithModifierString := by
    intro x strings hstrings changes wellFormed
    obtain ⟨mods, rfl, -⟩ := h.stored x strings hstrings
    obtain ⟨entries, rfl⟩ := exists_map_text wellFormed
    exact ⟨_, Orders.updateDictionaryWithModifierString_text entries hstrings⟩
  addStringModOptionToArray := by
    intro shown hshown mod wellFormed
    obtain ⟨itemId, sent, rfl, -⟩ := h.noted shown hshown
    obtain ⟨m, rfl⟩ := wellFormed_iff.mp wellFormed
    exact ⟨_, addStringModOptionToArray_text⟩

end WellFormed

/-- **Main result.** Along every run, the modifier strings that are kept are well
formed, and the loops over them stay in range. -/
theorem modifiers_wellFormed (db : DatabaseAccess) (currentMenuItems : List String)
    (tableNumber : Option Int32) (es : List SelectEvent) :
    Always (selectStep db) (fun s => ModifiersWellFormed db s ∧ LoopsInRange db s)
      (.init currentMenuItems tableNumber) es := by
  have start : KeepsOffered db (.init currentMenuItems tableNumber) :=
    keepsOffered_of_stored (holdsOffered_init db)
  refine always_of_invariant (I := KeepsOffered db) ?_ ?_ start
  · intro s e s' h hstep
    exact selectStep_keepsOffered h hstep
  · intro s h
    exact ⟨h.modifiersWellFormed, h.loopsInRange⟩

end PointIPad
