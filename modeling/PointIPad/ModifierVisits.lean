import PointIPad.QuickModifier

/-!
Visits to the Modifiers screen of one item.

A run is a series of visits, each with toggles of the switches shown. The order
keeps the choices; the screen starts every visit with no changes noted and sends
all of them on every toggle. `Kept` is what a user expects at each point: every
switch would be shown as it was last toggled, and exactly the options last
toggled on are charged.

The order matches a change by its choice alone, so an option shares its entry
with an option of the same choice in another category. `choices_kept_iff` says
that this is the only way in which choices are lost or mixed up: they are kept
throughout a run if and only if the run turns on no choice that is offered under
two categories.
-/

namespace PointIPad

open Transition ModChoice

/-- The order, and the Modifiers screen of an item. -/
structure ModifierVisits where
  order : Orders
  screen : QuickModifierController

/-- The screen is left and opened again, or a switch is turned. -/
inductive ModifierEvent where
  | visit
  | toggle (sect row : Nat) (on : Bool)
deriving DecidableEq

def modifierStep (db : DatabaseAccess) (itemId : NSNumber) (s : ModifierVisits) :
    ModifierEvent → Except NSException ModifierVisits
  | .visit => do
    .ok { s with screen := ← QuickModifierController.viewDidLoad db (some itemId) }
  | .toggle sect row on => do
    let (screen, order) ← s.screen.switchChanged s.order sect row on
    .ok ⟨order, screen⟩

/-! ### What was last chosen -/

section History

variable (sections : List (String × List String))

/-- The option an event toggles, and how. -/
def toggled : ModifierEvent → Option ((String × String) × Bool)
  | .visit => none
  | .toggle sect row on => (optionAt sections sect row).map fun option => (option, on)

/-- The last toggle of an option. -/
def lastToggle (es : List ModifierEvent) (option : String × String) : Option Bool :=
  ((es.reverse.filterMap (toggled sections)).find? (·.1 = option)).map Prod.snd

/-- The switch of the event is shown. -/
def Shown : ModifierEvent → Prop
  | .visit => True
  | .toggle sect row _ => (optionAt sections sect row).isSome

instance : (e : ModifierEvent) → Decidable (Shown sections e)
  | .visit => isTrue trivial
  | .toggle sect row _ => inferInstanceAs (Decidable ((optionAt sections sect row).isSome = true))

/-- The choice is offered under one category only. -/
def Unshared (choice : String) : Prop :=
  ∀ option ∈ offeredOptions sections, option.2 = choice →
    ∀ option' ∈ offeredOptions sections, option'.2 = choice → option = option'

instance (choice : String) : Decidable (Unshared sections choice) :=
  inferInstanceAs (Decidable (∀ option ∈ offeredOptions sections, option.2 = choice →
    ∀ option' ∈ offeredOptions sections, option'.2 = choice → option = option'))

/-- The event does not turn on a choice that is offered under two categories. -/
def TurnsOnUnshared (e : ModifierEvent) : Prop :=
  ∀ option, toggled sections e = some (option, true) → Unshared sections option.2

instance (e : ModifierEvent) : Decidable (TurnsOnUnshared sections e) :=
  match h : toggled sections e with
  | some (option, true) =>
    decidable_of_iff (Unshared sections option.2) (by simp [TurnsOnUnshared, h])
  | some (_, false) => isTrue fun _ hon => by simp [h] at hon
  | none => isTrue fun _ hon => by simp [h] at hon

/-- The options last toggled on. -/
def lastOn (es : List ModifierEvent) : Finset (String × String) :=
  (offeredOptions sections).toFinset.filter fun option =>
    lastToggle sections es option = some true

variable {sections} {es : List ModifierEvent} {e : ModifierEvent} {option : String × String}

theorem lastToggle_snoc :
    lastToggle sections (es ++ [e]) option =
      match toggled sections e with
      | some (o, on) => if o = option then some on else lastToggle sections es option
      | none => lastToggle sections es option := by
  rw [lastToggle, List.reverse_append, List.reverse_singleton, List.singleton_append,
    List.filterMap_cons]
  cases toggled sections e with
  | none => rfl
  | some t =>
    obtain ⟨o, on⟩ := t
    by_cases same : o = option
    · simp [same]
    · simp [same, lastToggle]

/-- An option last toggled on was turned on by some event. -/
theorem exists_of_lastToggle {on : Bool} (h : lastToggle sections es option = some on) :
    ∃ e ∈ es, toggled sections e = some (option, on) := by
  obtain ⟨t, hfind, rfl⟩ := Option.map_eq_some_iff.mp h
  have hoption : t.1 = option := by simpa using List.find?_some hfind
  obtain ⟨e, he, ht⟩ := List.mem_filterMap.mp (List.mem_of_find?_eq_some hfind)
  exact ⟨e, List.mem_reverse.mp he, hoption ▸ ht⟩

theorem mem_offered_of_toggled {on : Bool} (h : toggled sections e = some (option, on)) :
    option ∈ offeredOptions sections := by
  cases e with
  | visit => cases h
  | toggle sect row b =>
    obtain ⟨o, hat, heq⟩ := Option.map_eq_some_iff.mp h
    cases heq
    exact mem_offeredOptions_of_optionAt hat

/-- Without a forbidden toggle, a choice offered twice is never last toggled on. -/
theorem unshared_of_lastToggle (turnsOn : ∀ e ∈ es, TurnsOnUnshared sections e)
    (h : lastToggle sections es option = some true) : Unshared sections option.2 := by
  obtain ⟨e, he, ht⟩ := exists_of_lastToggle h
  exact turnsOn e he option ht

end History

/-- What a user expects after some toggles of an item's options, made on an order:
each option offered is shown as last toggled, exactly the options last toggled
on are charged, and no other item's modifiers changed. -/
structure Kept (db : DatabaseAccess) (order : Orders) (itemId : NSNumber)
    (es : List ModifierEvent) (s : ModifierVisits) : Prop where
  shown : ∀ option ∈ offeredOptions (modSections db (some itemId)),
    s.order.nameInKey option.2 (some itemId) =
      .ok (decide (lastToggle (modSections db (some itemId)) es option = some true))
  charged : s.order.priceOfEveryModUsing db itemId =
    .ok (∑ option ∈ lastOn (modSections db (some itemId)) es, Orders.optionPrice db itemId option)
  others : ∀ x, x ≠ itemId → s.order.dictionary.lookup x = order.dictionary.lookup x

/-! ### The invariant of a run without forbidden toggles -/

/-- How the entries of the item and the changes noted on the screen follow the
last toggles. -/
structure FollowsToggles (db : DatabaseAccess) (order : Orders) (itemId : NSNumber)
    (es : List ModifierEvent) (s : ModifierVisits) (mods sent : List ModChoice) : Prop where
  mods_eq : s.order.dictionary.lookup itemId = some (mods.map text)
  screen_eq : s.screen = .noted db (some itemId) sent
  nodup_choices : (mods.map choice).Nodup
  mods_offered : ∀ m ∈ mods, m.key ∈ offeredOptions (modSections db (some itemId))
  flag_iff : ∀ option ∈ offeredOptions (modSections db (some itemId)),
    flagOf mods option.2 = some true ↔
      lastToggle (modSections db (some itemId)) es option = some true
  nodup_keys : (sent.map key).Nodup
  sent_last : ∀ m ∈ sent, lastToggle (modSections db (some itemId)) es m.key = some m.isOn
  others : ∀ x, x ≠ itemId → s.order.dictionary.lookup x = order.dictionary.lookup x

section Invariant

variable {db : DatabaseAccess} {order : Orders} {itemId : NSNumber} {es : List ModifierEvent}
  {s : ModifierVisits} {mods sent : List ModChoice}

/-- The entries that are on are the options last toggled on. -/
theorem FollowsToggles.sum_eq (h : FollowsToggles db order itemId es s mods sent)
    (turnsOn : ∀ e ∈ es, TurnsOnUnshared (modSections db (some itemId)) e) :
    ((mods.filter (·.isOn)).map fun m => Orders.optionPrice db itemId m.key).sum =
      ∑ option ∈ lastOn (modSections db (some itemId)) es,
        Orders.optionPrice db itemId option := by
  have nodup : ((mods.filter (·.isOn)).map key).Nodup := by
    refine List.Nodup.of_map Prod.snd ?_
    rw [List.map_map]
    exact h.nodup_choices.sublist (List.filter_sublist.map _)
  have keys : lastOn (modSections db (some itemId)) es =
      ((mods.filter (·.isOn)).map key).toFinset := by
    ext option
    rw [lastOn, Finset.mem_filter, List.mem_toFinset, List.mem_toFinset, List.mem_map]
    constructor
    · rintro ⟨hoffered, hlast⟩
      obtain ⟨m, hm, hchoice, hon⟩ :=
        (flagOf_eq_some_iff h.nodup_choices).mp ((h.flag_iff option hoffered).mpr hlast)
      -- the choice is offered once, so the entry is the option's own
      exact ⟨m, List.mem_filter.mpr ⟨hm, hon⟩,
        unshared_of_lastToggle turnsOn hlast m.key (h.mods_offered m hm) hchoice option hoffered rfl⟩
    · rintro ⟨m, hm, rfl⟩
      obtain ⟨hm, hon⟩ := List.mem_filter.mp hm
      have hoffered := h.mods_offered m hm
      exact ⟨hoffered, (h.flag_iff m.key hoffered).mp
        ((flagOf_eq_some_iff h.nodup_choices).mpr ⟨m, hm, rfl, hon⟩)⟩
  rw [keys, List.sum_toFinset _ nodup, List.map_map]
  rfl

theorem FollowsToggles.kept (h : FollowsToggles db order itemId es s mods sent)
    (turnsOn : ∀ e ∈ es, TurnsOnUnshared (modSections db (some itemId)) e) :
    Kept db order itemId es s where
  shown := fun option hoffered => by
    rw [Orders.nameInKey_text option.2 h.mods_eq]
    simp only [h.flag_iff option hoffered]
  charged := by rw [Orders.priceOfEveryModUsing_text db h.mods_eq, h.sum_eq turnsOn]
  others := h.others

theorem lastToggle_visit (sections : List (String × List String)) (option : String × String) :
    lastToggle sections (es ++ [.visit]) option = lastToggle sections es option :=
  lastToggle_snoc

/-- A visit starts with no changes noted; the order stays. -/
theorem FollowsToggles.visit (h : FollowsToggles db order itemId es s mods sent) :
    ∃ s', modifierStep db itemId s .visit = .ok s' ∧
      FollowsToggles db order itemId (es ++ [.visit]) s' mods [] := by
  refine ⟨⟨s.order, .opened db (some itemId)⟩, ?_, ?_⟩
  · rw [modifierStep, viewDidLoad_eq, ok_bind]
  · exact {
      mods_eq := h.mods_eq
      screen_eq := QuickModifierController.opened_eq_noted
      nodup_choices := h.nodup_choices
      mods_offered := h.mods_offered
      flag_iff := fun option hoffered => by
        rw [lastToggle_visit]
        exact h.flag_iff option hoffered
      nodup_keys := List.nodup_nil
      sent_last := fun m hm => absurd hm List.not_mem_nil
      others := h.others }

/-- After a toggle, the changes noted say how their options were last toggled. -/
theorem FollowsToggles.sent_after (h : FollowsToggles db order itemId es s mods sent)
    {change m : ModChoice} {e : ModifierEvent}
    (he : toggled (modSections db (some itemId)) e = some (change.key, change.isOn))
    (hm : m ∈ recordChange sent change) :
    lastToggle (modSections db (some itemId)) (es ++ [e]) m.key = some m.isOn := by
  rw [lastToggle_snoc, he]
  rcases mem_recordChange h.nodup_keys hm with rfl | ⟨hm, hne⟩
  · exact if_pos rfl
  · exact (if_neg (Ne.symm hne)).trans (h.sent_last m hm)

/-- After a toggle and the changes it sends, the flag of a choice offered once
is its last toggle. -/
theorem FollowsToggles.flag_after (h : FollowsToggles db order itemId es s mods sent)
    {change : ModChoice} {e : ModifierEvent}
    (he : toggled (modSections db (some itemId)) e = some (change.key, change.isOn))
    (turnsOn : ∀ e' ∈ es ++ [e], TurnsOnUnshared (modSections db (some itemId)) e')
    {option : String × String} (hoffered : option ∈ offeredOptions (modSections db (some itemId))) :
    flagOf (applyChanges mods (recordChange sent change)) option.2 = some true ↔
      lastToggle (modSections db (some itemId)) (es ++ [e]) option = some true := by
  have offered : ∀ m ∈ recordChange sent change,
      m.key ∈ offeredOptions (modSections db (some itemId)) := by
    intro m hm
    obtain ⟨e', -, ht⟩ := exists_of_lastToggle (h.sent_after he hm)
    exact mem_offered_of_toggled ht
  rw [flagOf_applyChanges]
  cases hlast : lastFlag (recordChange sent change) option.2 with
  | some b =>
    -- the choice is among the changes sent: its flag is that of its last change
    rw [Option.some_or]
    obtain ⟨m, hm, hchoice, rfl⟩ : ∃ m ∈ recordChange sent change,
        m.choice = option.2 ∧ m.isOn = b := by
      obtain ⟨m, hfind, hb⟩ := Option.map_eq_some_iff.mp hlast
      exact ⟨m, List.mem_reverse.mp (List.mem_of_find?_eq_some hfind),
        by simpa using List.find?_some hfind, hb⟩
    have hsent := h.sent_after he hm
    constructor
    · intro hon
      rw [hon] at hsent
      have same := unshared_of_lastToggle turnsOn hsent m.key (offered m hm) rfl option hoffered
        hchoice.symm
      rw [← same, hsent]
    · intro hon
      have same := unshared_of_lastToggle turnsOn hon option hoffered rfl m.key (offered m hm)
        hchoice
      rw [← hsent, ← same, hon]
  | none =>
    -- the choice is not among the changes sent, so it was not toggled just now
    rw [Option.none_or, h.flag_iff option hoffered, lastToggle_snoc, he]
    have hne : change.key ≠ option := by
      rintro rfl
      exact flagOf_eq_none_iff.mp hlast change (List.mem_reverse.mpr mem_recordChange_self) rfl
    simp only [if_neg hne]

/-- A shown switch is turned without an exception, and the invariant is kept. -/
theorem FollowsToggles.toggle (h : FollowsToggles db order itemId es s mods sent)
    {sect row : Nat} {on : Bool}
    (shown : Shown (modSections db (some itemId)) (.toggle sect row on))
    (turnsOn : ∀ e ∈ es ++ [.toggle sect row on],
      TurnsOnUnshared (modSections db (some itemId)) e) :
    ∃ s' mods' sent', modifierStep db itemId s (.toggle sect row on) = .ok s' ∧
      FollowsToggles db order itemId (es ++ [.toggle sect row on]) s' mods' sent' := by
  obtain ⟨option, hat⟩ := Option.isSome_iff_exists.mp shown
  have hoffered := mem_offeredOptions_of_optionAt hat
  obtain ⟨hcategory, hchoice⟩ := free_of_mem_offeredOptions hoffered
  let change : ModChoice := ⟨option.1, option.2, on, hcategory, hchoice⟩
  have he : toggled (modSections db (some itemId)) (.toggle sect row on) =
      some (change.key, change.isOn) := by
    rw [toggled, hat]
    rfl
  let changes := recordChange sent change
  have hupdate := Orders.updateDictionaryWithModifierString_text changes h.mods_eq
  have hswitch := QuickModifierController.switchChanged_noted s.order sent change hat
  let order' : Orders := { s.order with
    dictionary := s.order.dictionary.insert itemId ((applyChanges mods changes).map text) }
  refine ⟨⟨order', .noted db (some itemId) changes⟩, applyChanges mods changes, changes, ?_, ?_⟩
  · rw [modifierStep, h.screen_eq]
    show (QuickModifierController.switchChanged _ _ sect row change.isOn >>= _) = _
    rw [hswitch, hupdate]
    rfl
  · exact {
      mods_eq := Finmap.lookup_insert _
      screen_eq := rfl
      nodup_choices := nodup_choices_applyChanges h.nodup_choices
      mods_offered := fun m hm => by
        rcases exists_key_of_mem_applyChanges hm with ⟨c, hc, hkey⟩ | ⟨m', hm', hkey⟩
        · obtain ⟨e', -, ht⟩ := exists_of_lastToggle (h.sent_after he hc)
          rw [hkey]
          exact mem_offered_of_toggled ht
        · rw [hkey]
          exact h.mods_offered m' hm'
      flag_iff := fun _ hoption => h.flag_after he turnsOn hoption
      nodup_keys := nodup_keys_recordChange h.nodup_keys
      sent_last := fun _ hm => h.sent_after he hm
      others := fun x hx => (Finmap.lookup_insert_of_ne _ hx).trans (h.others x hx) }

end Invariant

/-! ### Runs -/

section Runs

variable {db : DatabaseAccess} {order : Orders} {itemId : NSNumber} {es : List ModifierEvent}

theorem followsToggles_nil (hmods : order.dictionary.lookup itemId = some []) :
    FollowsToggles db order itemId [] ⟨order, .opened db (some itemId)⟩ [] [] where
  mods_eq := hmods
  screen_eq := QuickModifierController.opened_eq_noted
  nodup_choices := List.nodup_nil
  mods_offered := fun m hm => absurd hm List.not_mem_nil
  flag_iff := fun _ _ => iff_of_false (by simp [flagOf]) (by simp [lastToggle])
  nodup_keys := List.nodup_nil
  sent_last := fun m hm => absurd hm List.not_mem_nil
  others := fun _ _ => rfl

/-- Runs without a forbidden toggle complete and keep the invariant. -/
theorem run_followsToggles (hmods : order.dictionary.lookup itemId = some [])
    (shown : ∀ e ∈ es, Shown (modSections db (some itemId)) e)
    (turnsOn : ∀ e ∈ es, TurnsOnUnshared (modSections db (some itemId)) e) :
    ∃ s mods sent, run (modifierStep db itemId) ⟨order, .opened db (some itemId)⟩ es = .ok s ∧
      FollowsToggles db order itemId es s mods sent := by
  induction es using List.reverseRecOn with
  | nil => exact ⟨_, [], [], rfl, followsToggles_nil hmods⟩
  | append_singleton es e ih =>
    obtain ⟨s, mods, sent, hrun, h⟩ := ih
      (fun e he => shown e (List.mem_append_left _ he))
      (fun e he => turnsOn e (List.mem_append_left _ he))
    have hshown := shown e (List.mem_append_right _ (List.mem_singleton_self e))
    cases e with
    | visit =>
      obtain ⟨s', hstep, h'⟩ := h.visit
      exact ⟨s', mods, [], run_snoc_ok.mpr ⟨s, hrun, hstep⟩, h'⟩
    | toggle sect row on =>
      obtain ⟨s', mods', sent', hstep, h'⟩ := h.toggle hshown turnsOn
      exact ⟨s', mods', sent', run_snoc_ok.mpr ⟨s, hrun, hstep⟩, h'⟩

/-- A choice offered twice is not turned on while all choices are kept: both of
its options would be shown on, and the other one was never turned on. -/
theorem turnsOnUnshared_of_kept {e : ModifierEvent} {s : ModifierVisits}
    (turnsOn : ∀ e ∈ es, TurnsOnUnshared (modSections db (some itemId)) e)
    (kept : Kept db order itemId (es ++ [e]) s) :
    TurnsOnUnshared (modSections db (some itemId)) e := by
  intro option he
  have hoffered := mem_offered_of_toggled he
  have hlast : lastToggle (modSections db (some itemId)) (es ++ [e]) option = some true := by
    rw [lastToggle_snoc, he]
    exact if_pos rfl
  have only : ∀ other ∈ offeredOptions (modSections db (some itemId)),
      other.2 = option.2 → other = option := by
    intro other hother hchoice
    by_contra hne
    have hflag : lastToggle (modSections db (some itemId)) (es ++ [e]) other = some true := by
      have shownOther := kept.shown other hother
      rw [hchoice, kept.shown option hoffered] at shownOther
      simpa [hlast] using shownOther
    rw [lastToggle_snoc, he] at hflag
    simp only [if_neg (Ne.symm hne)] at hflag
    exact hne (unshared_of_lastToggle turnsOn hflag other hother rfl option hoffered hchoice.symm)
  intro a ha hachoice b hb hbchoice
  rw [only a ha hachoice, only b hb hbchoice]

/-- **Main result.** Take an item of an order without modifiers, open its
Modifiers screen, and let the shown switches be toggled over any number of
visits. The toggles complete, and at every point the options are shown and
charged as last toggled, if and only if no toggle turns on a choice that is
offered under two categories. -/
theorem choices_kept_iff (db : DatabaseAccess) (order : Orders) (itemId : NSNumber)
    (hmods : order.dictionary.lookup itemId = some []) (es : List ModifierEvent)
    (shown : ∀ e ∈ es, Shown (modSections db (some itemId)) e) :
    (∀ pre, pre <+: es → ∃ s,
      run (modifierStep db itemId) ⟨order, .opened db (some itemId)⟩ pre = .ok s ∧
        Kept db order itemId pre s) ↔
      ∀ e ∈ es, TurnsOnUnshared (modSections db (some itemId)) e := by
  constructor
  · intro kept
    induction es using List.reverseRecOn with
    | nil => exact fun e he => absurd he List.not_mem_nil
    | append_singleton es e ih =>
      have turnsOn := ih (fun e he => shown e (List.mem_append_left _ he))
        fun pre hpre => kept pre (hpre.trans (List.prefix_append es [e]))
      obtain ⟨s, -, hkept⟩ := kept (es ++ [e]) (List.prefix_refl _)
      intro e' he'
      rcases List.mem_append.mp he' with he' | he'
      · exact turnsOn e' he'
      · rw [List.mem_singleton.mp he']
        exact turnsOnUnshared_of_kept turnsOn hkept
  · intro turnsOn pre hpre
    have turnsOnPre : ∀ e ∈ pre, TurnsOnUnshared (modSections db (some itemId)) e :=
      fun e he => turnsOn e (hpre.subset he)
    obtain ⟨s, mods, sent, hrun, h⟩ := run_followsToggles hmods
      (fun e he => shown e (hpre.subset he)) turnsOnPre
    exact ⟨s, hrun, h.kept turnsOnPre⟩

end Runs

/-! ### A choice offered twice -/

/-- A database that offers `M1` both as a hotness and as an extra. -/
def sharedChoice : DatabaseAccess :=
  .answering [("SELECT hotness,", "M1:M2"), ("SElECT extras,", "M1:M3"),
    ("SELECT price from TBL_EXTRAS", "2")]

theorem modSections_sharedChoice :
    modSections sharedChoice (some 1) =
      [("Modifier 1", ["M1", "M2"]), ("Modifier 3", ["M1", "M3"])] := by
  decide +kernel

/-- An order of one item, without modifiers. -/
def oneLine : Orders :=
  { Orders.init with
    currentItemIds := [1], currentQtys := [1], dictionary := Finmap.singleton 1 [] }

/-- Options offered once, toggled over two visits. -/
def twoVisits : List ModifierEvent :=
  [.toggle 0 1 true, .toggle 1 1 true, .visit, .toggle 0 1 false]

theorem choices_kept_twoVisits :
    ∃ s, run (modifierStep sharedChoice 1) ⟨oneLine, .opened sharedChoice (some 1)⟩ twoVisits
        = .ok s ∧
      Kept sharedChoice oneLine 1 twoVisits s :=
  (choices_kept_iff sharedChoice oneLine 1 (Finmap.lookup_singleton_eq) twoVisits
    (by rw [modSections_sharedChoice]; decide)).mpr
    (by rw [modSections_sharedChoice]; decide) twoVisits (List.prefix_refl _)

/-- Turning on the hotness `M1` shows the extra `M1` as on. -/
theorem choices_mixed_up :
    (∀ e ∈ [ModifierEvent.toggle 0 0 true],
        Shown (modSections sharedChoice (some 1)) e) ∧
      ¬ ∀ pre, pre <+: [ModifierEvent.toggle 0 0 true] → ∃ s,
        run (modifierStep sharedChoice 1) ⟨oneLine, .opened sharedChoice (some 1)⟩ pre = .ok s ∧
          Kept sharedChoice oneLine 1 pre s := by
  refine ⟨by rw [modSections_sharedChoice]; decide, fun kept => ?_⟩
  obtain ⟨s, hrun, hkept⟩ := kept _ (List.prefix_refl _)
  have hshown := hkept.shown ("Modifier 3", "M1") (by rw [modSections_sharedChoice]; decide)
  have hon : (run (modifierStep sharedChoice 1) ⟨oneLine, .opened sharedChoice (some 1)⟩
      [.toggle 0 0 true]).map (fun s => s.order.nameInKey "M1" (some 1)) = .ok (.ok true) := by
    rw [QuickModifierController.opened, modSections_sharedChoice]
    decide +kernel
  rw [hrun] at hon
  have heq := (Except.ok.inj hon).symm.trans hshown
  rw [modSections_sharedChoice] at heq
  exact absurd heq (by decide)

end PointIPad
