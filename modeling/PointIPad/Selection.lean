import PointIPad.QuickServe

/-!
The selected item and the Modifiers screen.

The Modifiers screen opens on the item that was tapped or selected last. A
stepper that removes the line of that item does not touch the selection, and the
button that opens the screen does not look.

**Main result** (`toggles_land_iff`). Every switch that can be shown is turned
without an exception, and its choice is stored for an item of the order, at every
point of a run exactly when the run keeps two rules: the Modifiers screen is never
opened on an item that has options and is no longer in the order, and no two
switches of one name are turned on one visit.
-/

namespace PointIPad

open Transition ModChoice

/-! ### Orders with a list for each item -/

/-- What toggles need of an order: its items are distinct, the dictionary has a
list for each of them and for nothing else, and the lists hold entries. -/
structure Keyed (o : Orders) : Prop where
  nodup : o.currentItemIds.Nodup
  mem_dictionary_iff : ∀ x, x ∈ o.dictionary ↔ x ∈ o.currentItemIds
  entries : ∀ x strings, o.dictionary.lookup x = some strings →
    ∃ mods : List ModChoice, strings = mods.map text

section Keyed

variable {db : DatabaseAccess} {o o' : Orders}

theorem keyed_init : Keyed Orders.init where
  nodup := List.nodup_nil
  mem_dictionary_iff := fun _ => iff_of_false Finmap.notMem_empty List.not_mem_nil
  entries := fun x strings h => by simp [Orders.init] at h

theorem Keyed.exists_mods (h : Keyed o) {x : NSNumber} (hx : x ∈ o.currentItemIds) :
    ∃ mods : List ModChoice, o.dictionary.lookup x = some (mods.map text) := by
  obtain ⟨strings, hlookup⟩ := Finmap.mem_iff.mp ((h.mem_dictionary_iff x).mpr hx)
  obtain ⟨mods, rfl⟩ := h.entries x strings hlookup
  exact ⟨mods, hlookup⟩

theorem Keyed.updateTotals (h : Keyed o) (hstep : o.updateTotals db = .ok o') : Keyed o' := by
  obtain ⟨_, _, _, _, rfl⟩ := Orders.updateTotals_eq_ok hstep
  exact ⟨h.nodup, h.mem_dictionary_iff, h.entries⟩

/-- An item is added under its id, unless it is there already. -/
theorem Keyed.addItem (h : Keyed o) {itemId : Option NSNumber}
    (hstep : o.addItem itemId = .ok o') :
    Keyed o' ∧ ∃ x, itemId = some x ∧ x ∈ o'.currentItemIds := by
  cases itemId with
  | none => cases hstep
  | some x =>
    rw [Orders.addItem] at hstep
    split at hstep
    · rename_i known
      obtain ⟨qtys, -, hqtys⟩ := bind_eq_ok.mp hstep
      cases hqtys
      exact ⟨⟨h.nodup, h.mem_dictionary_iff, h.entries⟩, x, rfl, known⟩
    · rename_i new
      cases hstep
      refine ⟨⟨?_, fun y => ?_, fun y strings hy => ?_⟩, x, rfl, by simp⟩
      · exact List.nodup_append.mpr ⟨h.nodup, List.nodup_singleton x, fun a ha b hb hab =>
          new (List.mem_singleton.mp hb ▸ hab ▸ ha)⟩
      · rw [Finmap.mem_insert, h.mem_dictionary_iff, List.mem_append, List.mem_singleton, or_comm]
      · by_cases same : y = x
        · subst same
          rw [Finmap.lookup_insert] at hy
          exact ⟨[], (Option.some.inj hy).symm⟩
        · rw [Finmap.lookup_insert_of_ne _ same] at hy
          exact h.entries y strings hy

theorem Keyed.addToOrder (h : Keyed o) {itemId : Option NSNumber}
    (hstep : o.addToOrder db itemId = .ok o') :
    Keyed o' ∧ ∃ x, itemId = some x ∧ x ∈ o'.currentItemIds := by
  obtain ⟨o₁, hadd, htotals⟩ := bind_eq_ok.mp hstep
  have named : Keyed (o.getTaxNames db) := ⟨h.nodup, h.mem_dictionary_iff, h.entries⟩
  obtain ⟨h₁, x, hx, hmem⟩ := named.addItem hadd
  refine ⟨h₁.updateTotals htotals, x, hx, ?_⟩
  obtain ⟨_, _, _, _, rfl⟩ := Orders.updateTotals_eq_ok htotals
  exact hmem

theorem Keyed.setQuantity (h : Keyed o) {row : Nat} {value : Int}
    (hstep : o.setQuantity row value = .ok o') : Keyed o' := by
  obtain ⟨qtys, -, hqtys⟩ := bind_eq_ok.mp hstep
  cases hqtys
  exact ⟨h.nodup, h.mem_dictionary_iff, h.entries⟩

/-- Among distinct items, the removed one leaves the array and the dictionary. -/
theorem Keyed.removeLine (h : Keyed o) {row : Nat} (hstep : o.removeLine row = .ok o') :
    Keyed o' := by
  obtain ⟨x, hx, hstep⟩ := bind_eq_ok.mp hstep
  obtain ⟨itemIds, hids, hstep⟩ := bind_eq_ok.mp hstep
  obtain ⟨qtys, -, hstep⟩ := bind_eq_ok.mp hstep
  cases hstep
  obtain ⟨-, rfl⟩ := removeObjectAtIndex_eq_ok.mp hids
  obtain ⟨hrow, rfl⟩ := List.getElem?_eq_some_iff.mp (objectAtIndex_eq_ok.mp hx)
  have herase : o.currentItemIds.eraseIdx row = o.currentItemIds.erase o.currentItemIds[row] :=
    (h.nodup.erase_getElem row hrow).symm
  refine ⟨h.nodup.sublist (List.eraseIdx_sublist _ _), fun y => ?_, fun y strings hy => ?_⟩
  · rw [Finmap.mem_erase, h.mem_dictionary_iff, herase, h.nodup.mem_erase_iff]
  · by_cases same : y = o.currentItemIds[row]
    · subst same
      rw [Finmap.lookup_erase] at hy
      cases hy
    · rw [Finmap.lookup_erase_ne same] at hy
      exact h.entries y strings hy

theorem Keyed.stepperValueChanged (h : Keyed o) {row : Nat} {value : Int}
    (hstep : o.stepperValueChanged db row value = .ok o') : Keyed o' := by
  obtain ⟨o₁, hset, hstep⟩ := bind_eq_ok.mp hstep
  have h₁ := h.setQuantity hset
  split at hstep
  · obtain ⟨o₂, hremove, hstep⟩ := bind_eq_ok.mp hstep
    obtain ⟨o₃, htotals, htotals'⟩ := bind_eq_ok.mp hstep
    exact ((h₁.removeLine hremove).updateTotals htotals).updateTotals htotals'
  · exact h₁.updateTotals hstep

/-- Changes of entries for an item of the order. -/
theorem Keyed.updateModifiers (h : Keyed o) {x : NSNumber} (hx : x ∈ o.currentItemIds)
    (changes : List ModChoice) :
    ∃ o' mods, o.dictionary.lookup x = some (mods.map text) ∧
      o.updateDictionaryWithModifierString (changes.map text) (some x) = .ok o' ∧ Keyed o' ∧
      o'.currentItemIds = o.currentItemIds ∧
      o'.dictionary.lookup x = some ((applyChanges mods changes).map text) := by
  obtain ⟨mods, hmods⟩ := h.exists_mods hx
  refine ⟨_, mods, hmods, Orders.updateDictionaryWithModifierString_text changes hmods,
    ⟨h.nodup, fun y => ?_, fun y strings hy => ?_⟩, rfl, Finmap.lookup_insert _⟩
  · rw [Finmap.mem_insert, h.mem_dictionary_iff]
    exact ⟨fun hy => hy.elim (fun heq => heq ▸ hx) id, .inr⟩
  · by_cases same : y = x
    · subst same
      rw [Finmap.lookup_insert] at hy
      exact ⟨_, (Option.some.inj hy).symm⟩
    · rw [Finmap.lookup_insert_of_ne _ same] at hy
      exact h.entries y strings hy

end Keyed

/-! ### The two screens -/

/-- The QuickServe screen, and the Modifiers screen while it is shown above it. -/
structure Selecting where
  screen : QuickServe
  modifiers : Option QuickModifierController

inductive SelectEvent where
  | tap (row : Nat)
  | back
  | selectRow (row : Nat)
  | stepperValueChanged (row : Nat) (value : Int)
  | openModifiers
  | toggle (sect row : Nat) (on : Bool)
  | closeModifiers
deriving DecidableEq

/-- One event; what the shown screen does not offer does nothing. -/
def selectStep (db : DatabaseAccess) (s : Selecting) (e : SelectEvent) :
    Except NSException Selecting :=
  match s.modifiers, e with
  | none, .tap row => do .ok ⟨← s.screen.handleOneTap db (some row), none⟩
  | none, .back => .ok ⟨s.screen.flipBackMenuItems, none⟩
  | none, .selectRow row => do .ok ⟨← s.screen.didSelectRow row, none⟩
  | none, .stepperValueChanged row value => do
    .ok ⟨← s.screen.stepperValueChanged db row value, none⟩
  | none, .openModifiers => do .ok ⟨s.screen, some (← s.screen.modButtonPressed db)⟩
  | some shown, .toggle sect row on => do
    let (shown, screen) ← s.screen.switchChanged shown sect row on
    .ok ⟨screen, some shown⟩
  | some _, .closeModifiers => do .ok ⟨← s.screen.viewWillAppear db, none⟩
  | _, _ => .ok s

/-- The screen that is shown offers the event. -/
def Selecting.offers (s : Selecting) : SelectEvent → Bool
  | .toggle _ _ _ => s.modifiers.isSome
  | .closeModifiers => s.modifiers.isSome
  | _ => s.modifiers.isNone

/-- What an event can do. -/
inductive SelectStep (db : DatabaseAccess) : Selecting → SelectEvent → Selecting → Prop where
  | tap {screen screen' : QuickServe} {row : Nat} :
      screen.handleOneTap db (some row) = .ok screen' →
      SelectStep db ⟨screen, none⟩ (.tap row) ⟨screen', none⟩
  | back {screen : QuickServe} :
      SelectStep db ⟨screen, none⟩ .back ⟨screen.flipBackMenuItems, none⟩
  | selectRow {screen : QuickServe} {row : Nat} {x : NSNumber} :
      objectAtIndex screen.order.currentItemIds row = .ok x →
      SelectStep db ⟨screen, none⟩ (.selectRow row) ⟨{ screen with selectedItemId := some x }, none⟩
  | stepperValueChanged {screen screen' : QuickServe} {row : Nat} {value : Int} :
      screen.stepperValueChanged db row value = .ok screen' →
      SelectStep db ⟨screen, none⟩ (.stepperValueChanged row value) ⟨screen', none⟩
  | openModifiers {screen : QuickServe} :
      SelectStep db ⟨screen, none⟩ .openModifiers
        ⟨screen, some (.opened db screen.selectedItemId)⟩
  | toggle {screen : QuickServe} {shown shown' : QuickModifierController} {order : Orders}
      {sect row : Nat} {on : Bool} :
      shown.switchChanged screen.order sect row on = .ok (shown', order) →
      SelectStep db ⟨screen, some shown⟩ (.toggle sect row on)
        ⟨{ screen with order := order }, some shown'⟩
  | closeModifiers {screen screen' : QuickServe} {shown : QuickModifierController} :
      screen.viewWillAppear db = .ok screen' →
      SelectStep db ⟨screen, some shown⟩ .closeModifiers ⟨screen', none⟩
  | ignored {s : Selecting} {e : SelectEvent} : s.offers e = false → SelectStep db s e s

theorem selectStep_inv {db : DatabaseAccess} {s s' : Selecting} {e : SelectEvent}
    (h : selectStep db s e = .ok s') : SelectStep db s e s' := by
  obtain ⟨screen, modifiers⟩ := s
  cases modifiers with
  | none =>
    cases e with
    | tap row =>
      obtain ⟨screen', hscreen, hs'⟩ := bind_eq_ok.mp h
      cases hs'
      exact .tap hscreen
    | back => cases h; exact .back
    | selectRow row =>
      obtain ⟨screen', hscreen, hs'⟩ := bind_eq_ok.mp h
      cases hs'
      obtain ⟨x, hx, hs'⟩ := bind_eq_ok.mp hscreen
      cases hs'
      exact .selectRow hx
    | stepperValueChanged row value =>
      obtain ⟨screen', hscreen, hs'⟩ := bind_eq_ok.mp h
      cases hs'
      exact .stepperValueChanged hscreen
    | openModifiers =>
      obtain ⟨shown, hshown, hs'⟩ := bind_eq_ok.mp h
      rw [QuickServe.modButtonPressed, viewDidLoad_eq] at hshown
      cases hshown
      cases hs'
      exact .openModifiers
    | toggle sect row on => cases h; exact .ignored rfl
    | closeModifiers => cases h; exact .ignored rfl
  | some shown =>
    cases e with
    | toggle sect row on =>
      obtain ⟨⟨shown', screen'⟩, hswitch, hs'⟩ := bind_eq_ok.mp h
      cases hs'
      obtain ⟨⟨shown'', order⟩, hchanged, hs'⟩ := bind_eq_ok.mp hswitch
      cases hs'
      exact .toggle hchanged
    | closeModifiers =>
      obtain ⟨screen', hscreen, hs'⟩ := bind_eq_ok.mp h
      cases hs'
      exact .closeModifiers hscreen
    | tap row => cases h; exact .ignored rfl
    | back => cases h; exact .ignored rfl
    | selectRow row => cases h; exact .ignored rfl
    | stepperValueChanged row value => cases h; exact .ignored rfl
    | openModifiers => cases h; exact .ignored rfl

/-- A toggle is stored under an item id: all changes noted on this visit are applied, the
toggled one among them, and the choice comes to have its flag. -/
def ChoiceStored (o o' : Orders) (noted : List String) (x : NSNumber) (option : String × String)
    (on : Bool) : Prop :=
  ∃ (mods sent : List ModChoice) (change : ModChoice),
    o.dictionary.lookup x = some (mods.map text) ∧ noted = sent.map text ∧
    change.key = option ∧ change.isOn = on ∧
    o'.dictionary.lookup x = some ((applyChanges mods (recordChange sent change)).map text) ∧
    flagOf (applyChanges mods (recordChange sent change)) option.2 = some on

/-- Every switch the Modifiers screen shows can be turned: nothing is raised, and
the choice is stored under the id of an item of the order. -/
def TogglesLand (s : Selecting) : Prop :=
  ∀ shown ∈ s.modifiers, ∀ sect row option, optionAt shown.modsToShow sect row = some option →
    ∀ on, ∃ shown' screen', s.screen.switchChanged shown sect row on = .ok (shown', screen') ∧
      ∃ x ∈ screen'.order.currentItemIds, shown.selectedItemId = some x ∧
        ChoiceStored s.screen.order screen'.order shown.modifiersToReturnToParent x option on

/-- The Modifiers screen is not opened on an item with options that has left the
order. -/
def OpensOnLine (db : DatabaseAccess) (s : Selecting) (e : SelectEvent) : Prop :=
  match s.modifiers, e with
  | none, .openModifiers =>
    modSections db s.screen.selectedItemId ≠ [] →
      ∃ x ∈ s.screen.order.currentItemIds, s.screen.selectedItemId = some x
  | _, _ => True

instance (db : DatabaseAccess) (s : Selecting) (e : SelectEvent) :
    Decidable (OpensOnLine db s e) := by
  unfold OpensOnLine
  split <;> infer_instance

/-- No switch of the same name in another section has been turned on this visit. -/
def TurnsApart (s : Selecting) (e : SelectEvent) : Prop :=
  match s.modifiers, e with
  | some shown, .toggle sect row _ =>
    ∀ option ∈ optionAt shown.modsToShow sect row, ∀ noted ∈ shown.modifiersToReturnToParent,
      (componentsSeparatedByString noted)[1]? = some option.2 →
        (componentsSeparatedByString noted)[0]? = some option.1
  | _, _ => True

instance (s : Selecting) (e : SelectEvent) : Decidable (TurnsApart s e) := by
  unfold TurnsApart
  split <;> infer_instance

/-- The changes of one visit that kept the rules. -/
structure Turned (db : DatabaseAccess) (itemId : Option NSNumber) (sent : List ModChoice) :
    Prop where
  offered : ∀ m ∈ sent, m.key ∈ offeredOptions (modSections db itemId)
  choices : (sent.map ModChoice.choice).Nodup

/-- What holds at every point of a run that keeps the rules. -/
structure SelectInvariant (db : DatabaseAccess) (s : Selecting) : Prop where
  keyed : Keyed s.screen.order
  shown : ∀ shown ∈ s.modifiers,
    (∃ sent, shown = .noted db s.screen.selectedItemId sent ∧
      Turned db s.screen.selectedItemId sent) ∧
      (modSections db s.screen.selectedItemId ≠ [] →
        ∃ x ∈ s.screen.order.currentItemIds, s.screen.selectedItemId = some x)

section Steps

variable {db : DatabaseAccess} {s s' : Selecting}

/-- The change that a shown switch stands for. -/
theorem exists_change {itemId : Option NSNumber} {sect row : Nat} {option : String × String}
    (hat : optionAt (modSections db itemId) sect row = some option) (on : Bool) :
    ∃ change : ModChoice, change.key = option ∧ change.isOn = on := by
  obtain ⟨hcategory, hchoice⟩ := free_of_mem_offeredOptions (mem_offeredOptions_of_optionAt hat)
  exact ⟨⟨option.1, option.2, on, hcategory, hchoice⟩, rfl, rfl⟩

/-- A shown switch is turned: the order takes the changes under the selected item. -/
theorem switchChanged_lands {screen : QuickServe} {x : NSNumber} (sent : List ModChoice)
    (keyed : Keyed screen.order) (hx : x ∈ screen.order.currentItemIds) {sect row : Nat}
    {change : ModChoice} (hat : optionAt (modSections db (some x)) sect row = some change.key) :
    ∃ order mods, screen.order.dictionary.lookup x = some (mods.map text) ∧
      screen.switchChanged (.noted db (some x) sent) sect row change.isOn =
        .ok (.noted db (some x) (recordChange sent change), { screen with order := order }) ∧
      Keyed order ∧ order.currentItemIds = screen.order.currentItemIds ∧
      order.dictionary.lookup x =
        some ((applyChanges mods (recordChange sent change)).map text) := by
  obtain ⟨order, mods, hmods, hupdate, hkeyed, hids, hstored⟩ :=
    keyed.updateModifiers hx (recordChange sent change)
  have hswitch := QuickModifierController.switchChanged_noted screen.order sent change hat
  rw [hupdate] at hswitch
  refine ⟨order, mods, hmods, ?_, hkeyed, hids, hstored⟩
  show (QuickModifierController.switchChanged _ _ sect row change.isOn >>= _) = _
  rw [hswitch]
  rfl

/-- While the choices noted are distinct, a toggled choice has its flag afterwards. -/
theorem flagOf_toggled {mods sent : List ModChoice} {change : ModChoice}
    (nodup : (sent.map ModChoice.choice).Nodup) :
    flagOf (applyChanges mods (recordChange sent change)) change.choice = some change.isOn := by
  have last : lastFlag (recordChange sent change) change.choice = some change.isOn := by
    by_cases known : change.key ∈ sent.map ModChoice.key
    · obtain ⟨m, hm, hkey⟩ := List.mem_map.mp known
      have apart : ∀ m' ∈ sent, m'.choice = change.choice → m'.category = change.category := by
        intro m' hm' hchoice
        rw [List.inj_on_of_nodup_map nodup hm' hm (hchoice.trans (congrArg Prod.snd hkey).symm)]
        exact congrArg Prod.fst hkey
      exact lastFlag_of_mem (nodup_choices_recordChange nodup apart) mem_recordChange_self
    · rw [recordChange_new known, lastFlag_concat, if_pos rfl]
  rw [flagOf_applyChanges, last, Option.some_or]

/-- A shown switch is one of an item of the order. -/
theorem SelectInvariant.toggled (h : SelectInvariant db s) {shown : QuickModifierController}
    (hshown : s.modifiers = some shown) {sect row : Nat} {option : String × String}
    (hat : optionAt shown.modsToShow sect row = some option) :
    ∃ x sent, x ∈ s.screen.order.currentItemIds ∧ s.screen.selectedItemId = some x ∧
      shown = .noted db (some x) sent ∧ Turned db (some x) sent ∧
      optionAt (modSections db (some x)) sect row = some option := by
  obtain ⟨⟨sent, rfl, turned⟩, hline⟩ := h.shown shown hshown
  have hoption : optionAt (modSections db s.screen.selectedItemId) sect row = some option := hat
  have hne : modSections db s.screen.selectedItemId ≠ [] := by
    intro hnil
    rw [hnil] at hoption
    cases hoption
  obtain ⟨x, hx, hselected⟩ := hline hne
  rw [hselected] at turned hoption ⊢
  exact ⟨x, sent, hx, rfl, rfl, turned, hoption⟩

theorem SelectInvariant.togglesLand (h : SelectInvariant db s) : TogglesLand s := by
  intro shown hshown sect row option hat on
  obtain ⟨x, sent, hx, -, rfl, turned, hoption⟩ := h.toggled hshown hat
  obtain ⟨change, rfl, rfl⟩ := exists_change hoption on
  obtain ⟨order, mods, hmods, hswitch, -, hids, hstored⟩ :=
    switchChanged_lands sent h.keyed hx hoption
  exact ⟨_, _, hswitch, x, hids ▸ hx, rfl, mods, sent, change, hmods, rfl, rfl, rfl, hstored,
    flagOf_toggled turned.choices⟩

theorem Keyed.handleOneTap {screen screen' : QuickServe} (h : Keyed screen.order)
    {indexPath : Option Nat} (hstep : screen.handleOneTap db indexPath = .ok screen') :
    Keyed screen'.order := by
  rcases QuickServe.handleOneTap_order hstep with heq | ⟨itemId, added, hadd, htotals⟩
  · rw [heq]
    exact h
  · exact (h.addToOrder hadd).1.updateTotals htotals

/-- While the Modifiers screen is not shown, the invariant is about the order. -/
theorem selectInvariant_of_keyed {screen : QuickServe} (h : Keyed screen.order) :
    SelectInvariant db ⟨screen, none⟩ :=
  ⟨h, fun _ hshown => by cases hshown⟩

/-- What is noted after a toggle that is apart from the others. -/
theorem Turned.record {itemId : Option NSNumber} {sent : List ModChoice} (h : Turned db itemId sent)
    {change : ModChoice} (offered : change.key ∈ offeredOptions (modSections db itemId))
    (apart : ∀ m ∈ sent, m.choice = change.choice → m.category = change.category) :
    Turned db itemId (recordChange sent change) where
  offered := by
    intro m hm
    rcases eq_or_mem_of_mem_recordChange hm with rfl | old
    · exact offered
    · exact h.offered m old
  choices := nodup_choices_recordChange h.choices apart

/-- The changes noted are apart from a switch exactly when those of its name are its own. -/
theorem turnsApart_iff {screen : QuickServe} {x : NSNumber} {sent : List ModChoice} {sect row : Nat}
    {option : String × String} (hat : optionAt (modSections db (some x)) sect row = some option)
    (on : Bool) :
    TurnsApart ⟨screen, some (.noted db (some x) sent)⟩ (.toggle sect row on) ↔
      ∀ m ∈ sent, m.choice = option.2 → m.category = option.1 := by
  have shown : optionAt (QuickModifierController.noted db (some x) sent).modsToShow sect row =
      some option := hat
  simp only [TurnsApart, shown, Option.mem_some_iff, forall_eq']
  show (∀ noted ∈ sent.map text, _) ↔ _
  rw [List.forall_mem_map]
  simp only [components_text, List.getElem?_cons_zero, List.getElem?_cons_succ, Option.some_inj]

/-- A toggle keeps the invariant, if it is apart from the others. -/
theorem SelectInvariant.toggle {screen : QuickServe} {shown shown' : QuickModifierController}
    {order : Orders} {sect row : Nat} {on : Bool} (h : SelectInvariant db ⟨screen, some shown⟩)
    (apart : TurnsApart ⟨screen, some shown⟩ (.toggle sect row on))
    (hswitch : shown.switchChanged screen.order sect row on = .ok (shown', order)) :
    SelectInvariant db ⟨{ screen with order := order }, some shown'⟩ := by
  cases hat : optionAt shown.modsToShow sect row with
  | none =>
    obtain ⟨⟨sent, hsent, -⟩, -⟩ := h.shown shown rfl
    have hsent : shown = .noted db screen.selectedItemId sent := hsent
    subst hsent
    obtain ⟨e, he⟩ := QuickModifierController.switchChanged_not_shown screen.order sent on hat
    rw [hswitch] at he
    cases he
  | some option =>
    obtain ⟨x, sent, hx, hselected, rfl, turned, hoption⟩ := h.toggled rfl hat
    have hselected : screen.selectedItemId = some x := hselected
    obtain ⟨change, rfl, rfl⟩ := exists_change hoption on
    have recorded := turned.record (mem_offeredOptions_of_optionAt hoption)
      ((turnsApart_iff hoption change.isOn).mp apart)
    have hscreen : screen.switchChanged (.noted db (some x) sent) sect row change.isOn =
        .ok (shown', { screen with order := order }) := by
      rw [QuickServe.switchChanged, hswitch]
      rfl
    obtain ⟨order', mods, -, hlands, hkeyed, hids, -⟩ :=
      switchChanged_lands sent h.keyed hx hoption
    rw [hlands] at hscreen
    obtain ⟨rfl, horder⟩ := Prod.mk.inj (Except.ok.inj hscreen)
    obtain rfl : order' = order := congrArg QuickServe.order horder
    refine ⟨hkeyed, fun shown' hshown' => ?_⟩
    obtain rfl := Option.some.inj hshown'
    show (∃ sent, _ = QuickModifierController.noted db screen.selectedItemId sent ∧
        Turned db screen.selectedItemId sent) ∧
      (modSections db screen.selectedItemId ≠ [] → ∃ x ∈ order'.currentItemIds,
        screen.selectedItemId = some x)
    rw [hselected]
    exact ⟨⟨_, rfl, recorded⟩, fun _ => ⟨x, hids ▸ hx, rfl⟩⟩

theorem selectStep_keeps (h : SelectInvariant db s) {e : SelectEvent} (line : OpensOnLine db s e)
    (apart : TurnsApart s e) (hstep : selectStep db s e = .ok s') : SelectInvariant db s' := by
  cases selectStep_inv hstep with
  | tap hscreen => exact selectInvariant_of_keyed (h.keyed.handleOneTap hscreen)
  | back =>
    apply selectInvariant_of_keyed
    rw [QuickServe.flipBackMenuItems_order]
    exact h.keyed
  | selectRow _ => exact selectInvariant_of_keyed h.keyed
  | stepperValueChanged hscreen =>
    exact selectInvariant_of_keyed
      (h.keyed.stepperValueChanged (QuickServe.stepperValueChanged_order hscreen))
  | openModifiers =>
    refine ⟨h.keyed, fun shown hopened => ?_⟩
    cases hopened
    refine ⟨⟨[], QuickModifierController.opened_eq_noted, ?_⟩, line⟩
    exact ⟨List.forall_mem_nil _, List.nodup_nil⟩
  | toggle hswitch => exact h.toggle apart hswitch
  | closeModifiers hscreen =>
    exact selectInvariant_of_keyed (h.keyed.updateTotals (QuickServe.viewWillAppear_order hscreen))
  | ignored _ => exact h

/-- A toggle for an item that is not in the order raises. -/
theorem switchChanged_raises {screen : QuickServe} {itemId : Option NSNumber}
    (absent : screen.order.modsInDict itemId = none) {sect row : Nat} {option : String × String}
    (hat : optionAt (modSections db itemId) sect row = some option) (on : Bool) :
    screen.switchChanged (.opened db itemId) sect row on = .error .invalidArgumentException := by
  obtain ⟨hcategory, hchoice⟩ := free_of_mem_offeredOptions (mem_offeredOptions_of_optionAt hat)
  let change : ModChoice := ⟨option.1, option.2, on, hcategory, hchoice⟩
  have hswitch := QuickModifierController.switchChanged_noted screen.order [] change hat
  have hraise : screen.order.updateDictionaryWithModifierString
      ((recordChange [] change).map text) itemId = .error .invalidArgumentException :=
    Orders.updateDictionaryWithModifierString_absent absent _ _
  rw [hraise] at hswitch
  rw [QuickServe.switchChanged, QuickModifierController.opened_eq_noted]
  show (QuickModifierController.switchChanged _ _ sect row change.isOn >>= _) = _
  rw [hswitch]
  rfl

/-- Opening the screen on anything else shows switches that cannot be turned. -/
theorem openModifiers_breaks {screen : QuickServe} (keyed : Keyed screen.order)
    (broken : ¬ OpensOnLine db ⟨screen, none⟩ .openModifiers) :
    ∃ s', selectStep db ⟨screen, none⟩ .openModifiers = .ok s' ∧ ¬ TogglesLand s' := by
  obtain ⟨hne, noLine⟩ := Classical.not_imp.mp broken
  obtain ⟨option, hat⟩ := exists_option_of_sections hne
  have absent : screen.order.modsInDict screen.selectedItemId = none := by
    cases hselected : screen.selectedItemId with
    | none => rfl
    | some x =>
      refine Finmap.lookup_eq_none.mpr fun hx => noLine ?_
      exact ⟨x, (keyed.mem_dictionary_iff x).mp hx, hselected⟩
  refine ⟨⟨screen, some (.opened db screen.selectedItemId)⟩, ?_, fun land => ?_⟩
  · simp only [selectStep, QuickServe.modButtonPressed, viewDidLoad_eq, ok_bind]
  · obtain ⟨shown', screen', hswitch, -⟩ := land _ rfl 0 0 option hat true
    rw [switchChanged_raises absent hat true] at hswitch
    cases hswitch

/-- After a second switch of a name the first one has no effect: the second is always
sent behind it. -/
theorem toggle_breaks {screen : QuickServe} {shown : QuickModifierController} {sect row : Nat}
    {on : Bool} (h : SelectInvariant db ⟨screen, some shown⟩)
    (broken : ¬ TurnsApart ⟨screen, some shown⟩ (.toggle sect row on)) :
    ∃ s', selectStep db ⟨screen, some shown⟩ (.toggle sect row on) = .ok s' ∧
      ¬ TogglesLand s' := by
  cases hat : optionAt shown.modsToShow sect row with
  | none => exact absurd (by simp [TurnsApart, hat]) broken
  | some option =>
    obtain ⟨x, sent, hx, -, rfl, turned, hoption⟩ := h.toggled rfl hat
    rw [turnsApart_iff hoption] at broken
    push Not at broken
    obtain ⟨first, hfirst, hchoice, hcategory⟩ := broken
    obtain ⟨change, rfl, rfl⟩ := exists_change hoption on
    obtain ⟨order, mods, -, hswitch, hkeyed, hids, hstored⟩ :=
      switchChanged_lands sent h.keyed hx hoption
    refine ⟨⟨{ screen with order := order }, some (.noted db (some x) (recordChange sent change))⟩,
      ?_, fun land => ?_⟩
    · simp only [selectStep, hswitch, ok_bind]
    · -- the change is the last one sent, and stays so when the first switch is turned again
      have new : change.key ∉ sent.map ModChoice.key := by
        intro known
        obtain ⟨m, hm, hkey⟩ := List.mem_map.mp known
        have same : m.choice = first.choice := (congrArg Prod.snd hkey).trans hchoice.symm
        rw [List.inj_on_of_nodup_map turned.choices hm hfirst same] at hkey
        exact hcategory (congrArg Prod.fst hkey)
      obtain ⟨sect', row', hfirst_at⟩ := exists_optionAt (turned.offered first hfirst)
      obtain ⟨shown', screen', -, x', -, hx', stored⟩ :=
        land _ rfl sect' row' first.key hfirst_at (!change.isOn)
      obtain rfl : x = x' := Option.some.inj hx'
      obtain ⟨mods', sent', again, hmods', hsent', hkey, -, -, hflag⟩ := stored
      have hsent' : recordChange sent change = sent' :=
        List.map_injective_iff.mpr text_injective hsent'
      have known : again.key ∈ sent.map ModChoice.key := hkey ▸ List.mem_map_of_mem hfirst
      have one_name : change.choice = first.key.2 := hchoice.symm
      rw [← hsent', recordChange_new new, recordChange_append [change] known, flagOf_applyChanges,
        lastFlag_concat, if_pos one_name, Option.some_or, Option.some_inj] at hflag
      exact absurd hflag.symm (Bool.not_ne_self _)

theorem selectStep_breaks (h : SelectInvariant db s) {e : SelectEvent}
    (broken : ¬ (OpensOnLine db s e ∧ TurnsApart s e)) :
    ∃ s', selectStep db s e = .ok s' ∧ ¬ TogglesLand s' := by
  obtain ⟨screen, modifiers⟩ := s
  cases modifiers with
  | none =>
    cases e with
    | openModifiers => exact openModifiers_breaks h.keyed fun line => broken ⟨line, trivial⟩
    | _ => exact absurd ⟨trivial, trivial⟩ broken
  | some shown =>
    cases e with
    | toggle sect row on => exact toggle_breaks h fun apart => broken ⟨trivial, apart⟩
    | _ => exact absurd ⟨trivial, trivial⟩ broken

end Steps

/-- A screen just opened, with an empty order. -/
def Selecting.init (currentMenuItems : List String) (tableNumber : Option Int32) : Selecting :=
  ⟨.init currentMenuItems tableNumber, none⟩

/-- **Main result.** Along every run from an empty order, over every database:
the switches that are shown can be turned and their choices are stored, for an item of
the order, at every point, exactly when the Modifiers screen is opened only while the
selected item is in the order or has no options, and no two switches of one name are
turned on one visit. -/
theorem toggles_land_iff (db : DatabaseAccess) (currentMenuItems : List String)
    (tableNumber : Option Int32) (es : List SelectEvent) :
    Always (selectStep db) TogglesLand (.init currentMenuItems tableNumber) es ↔
      EachStep (selectStep db) (fun s e => OpensOnLine db s e ∧ TurnsApart s e)
        (.init currentMenuItems tableNumber) es :=
  always_iff_eachStep (fun _ h => SelectInvariant.togglesLand h)
    (fun _ _ _ h rules hstep => selectStep_keeps h rules.1 rules.2 hstep)
    (fun _ _ h broken => selectStep_breaks h broken) (selectInvariant_of_keyed keyed_init)

/-! ### A selection that is removed -/

/-- A database with one item, of class `TEA`, that has an extra. -/
def teaWithExtra : DatabaseAccess :=
  .answering [("SELECT DISTINCT CLASS", "TEA"), ("SELECT DISTINCT SUBCLASS", "HOT"),
    ("SELECT DISTINCT NAME", "Green"), ("SELECT item_id", "1"), ("SElECT extras,", "M1")]

/-- The tea is ordered, and its extra is turned on. -/
def openOnLine : List SelectEvent :=
  [.tap 0, .tap 0, .selectRow 0, .openModifiers, .toggle 0 0 true]

theorem toggles_land_openOnLine :
    Always (selectStep teaWithExtra) TogglesLand (.init teaWithExtra.classNames none) openOnLine :=
  (toggles_land_iff teaWithExtra teaWithExtra.classNames none openOnLine).mpr (by decide +kernel)

/-- The tea is ordered and removed with the stepper; then its modifiers are opened. -/
def removeThenOpen : List SelectEvent :=
  [.tap 0, .tap 0, .stepperValueChanged 0 20, .openModifiers]

theorem toggles_do_not_land :
    ¬ Always (selectStep teaWithExtra) TogglesLand (.init teaWithExtra.classNames none)
      removeThenOpen := by
  intro always
  have raises : (run (selectStep teaWithExtra) (.init teaWithExtra.classNames none)
      removeThenOpen).map (fun s => s.modifiers.map fun shown =>
        (optionAt shown.modsToShow 0 0, (s.screen.switchChanged shown 0 0 true).isOk)) =
      .ok (some (some ("Modifier 3", "M1"), false)) := by
    decide +kernel
  cases hrun : run (selectStep teaWithExtra) (.init teaWithExtra.classNames none)
      removeThenOpen with
  | error e => rw [hrun] at raises; cases raises
  | ok s =>
    rw [hrun] at raises
    have hmap := Except.ok.inj raises
    obtain ⟨shown, hshown, heq⟩ := Option.map_eq_some_iff.mp hmap
    obtain ⟨hat, hswitch⟩ := Prod.mk.inj heq
    obtain ⟨shown', screen', hok, -⟩ :=
      always_iff_prefix.mp always _ s (List.prefix_refl _) hrun shown hshown 0 0 _ hat true
    rw [hok] at hswitch
    cases hswitch

end PointIPad
