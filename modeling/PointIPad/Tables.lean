import PointIPad.Lib.Heap
import PointIPad.Selection

/-!
Tables: the home screen, the two lists of tables, and the QuickServe screens
that they open.

Picking a free table makes a QuickServe controller, keeps it under the number of
the table, and takes the table off the list of free ones. Re-opening an occupied
table makes another controller from the one that is kept: some fields are copied,
and the order and the three stacks are handed on by reference. The controller
that is kept is never replaced.

`AppMove` says what a step can do, and `Seating` is what every step keeps: free
and occupied tables partition the tables, each occupied table has an order of
its own, and the screen of a table works on the order of that table.
-/

namespace PointIPad

open Transition

/-! ### The app -/

/-- What controllers share. `initWithCoder:` makes the order and the three stacks
together, and they are handed on together, so one address stands for all. -/
structure SharedObjects where
  order : Orders
  menuStacks : MenuStacks
deriving DecidableEq

structure ControllerObject extends QuickServeController where
  shared : Addr
deriving DecidableEq

/-- The home screen's lists, the objects, and the QuickServe screen with the
Modifiers screen above it, if they are open. -/
structure App where
  controllers : Heap ControllerObject
  shared : Heap SharedObjects
  listOfTables : List String
  quickServeDictionary : NSMutableDictionary Int32 Addr
  shown : Option (Addr × Option QuickModifierController)

/-- The tables of the home screen, from its `viewDidLoad`. -/
def HomeViewController.listOfTables : List String :=
  ["1", "2", "3", "4", "5", "6", "7", "8", "9", "10"]

namespace App

def init (listOfTables : List String) : App where
  controllers := .empty ⟨.initWithCoder, 0⟩
  shared := .empty ⟨.init, .init⟩
  listOfTables := listOfTables
  quickServeDictionary := ∅
  shown := none

/-- The objects that a controller refers to. -/
def objects (s : App) (c : Addr) : SharedObjects := s.shared.get (s.controllers.get c).shared

/-- A controller with its objects. -/
def load (s : App) (c : Addr) : QuickServe where
  toQuickServeController := (s.controllers.get c).toQuickServeController
  order := (s.objects c).order
  menuStacks := (s.objects c).menuStacks

/-- What a method made of a controller and of the objects it shares. -/
def store (s : App) (c : Addr) (q : QuickServe) : App :=
  { s with
    controllers := s.controllers.set c ⟨q.toQuickServeController, (s.controllers.get c).shared⟩
    shared := s.shared.set (s.controllers.get c).shared ⟨q.order, q.menuStacks⟩ }

/-- The storyboard makes a controller, at the next address. -/
def instantiate (s : App) : App :=
  { s with
    controllers := s.controllers.alloc ⟨.initWithCoder, s.shared.next⟩
    shared := s.shared.alloc ⟨.init, .init⟩ }

/-- What both ways to open a screen at the class menu set. -/
def openAtClasses (db : DatabaseAccess) (tableNumber : Option Int32) (s : App) : App :=
  let c := s.controllers.next
  let s := s.instantiate
  { s with controllers := s.controllers.set c { s.controllers.get c with
      isActualItems := false
      tableNumber := tableNumber
      currentMenuItems := db.classNames } }

/-- `prepareForSegue:` of the list of occupied tables. -/
def openOccupied (occupied : Addr) (s : App) : App :=
  let c := s.controllers.next
  let s := s.instantiate
  let occupiedQuickServeController := s.controllers.get occupied
  { s with controllers := s.controllers.set c { s.controllers.get c with
      shared := occupiedQuickServeController.shared
      selectedItemId := occupiedQuickServeController.selectedItemId
      nameOfSelected := occupiedQuickServeController.nameOfSelected
      currentMenuItems := occupiedQuickServeController.currentMenuItems
      isActualItems := occupiedQuickServeController.isActualItems
      isSubclass := occupiedQuickServeController.isSubclass
      classNameForDatabase := occupiedQuickServeController.classNameForDatabase
      subclassNameForDatabase := occupiedQuickServeController.subclassNameForDatabase
      taxNameChanged := occupiedQuickServeController.taxNameChanged
      tableNumber := occupiedQuickServeController.tableNumber } }

/-- A QuickServe screen comes to the front. -/
def appear (db : DatabaseAccess) (c : Addr) (s : App) : Except NSException App := do
  .ok { s.store c (← (s.load c).viewWillAppear db) with shown := some (c, none) }

/-- A free table is picked. -/
def pickTable (db : DatabaseAccess) (row : Nat) (s : App) : Except NSException App := do
  let tableNum ← objectAtIndex s.listOfTables row
  let selectedTableNumber := integerValue tableNum
  let c := s.controllers.next
  let s := s.openAtClasses db (some selectedTableNumber)
  appear db c { s with
    quickServeDictionary := s.quickServeDictionary.insert selectedTableNumber c
    listOfTables := removeObject s.listOfTables (intText selectedTableNumber) }

/-- An occupied table is opened again; other numbers are not in the list. -/
def reopenTable (db : DatabaseAccess) (t : Int32) (s : App) : Except NSException App :=
  match s.quickServeDictionary.lookup t with
  | some occupied => appear db s.controllers.next (s.openOccupied occupied)
  | none => .ok s

/-- Quick Serve without a table. The controller is not kept. -/
def onlyQuickServe (db : DatabaseAccess) (s : App) : Except NSException App :=
  appear db s.controllers.next (s.openAtClasses db none)

end App

inductive AppEvent where
  | pickTable (row : Nat)
  | reopenTable (t : Int32)
  | onlyQuickServe
  | leave
  | onScreen (e : SelectEvent)
  | payAndReturn
deriving DecidableEq

/-- One event; what the shown screen does not offer does nothing. The payment
screen reads the order, and the QuickServe screen appears again after it. -/
def appStep (db : DatabaseAccess) (s : App) : AppEvent → Except NSException App
  | .pickTable row =>
    match s.shown with
    | none => s.pickTable db row
    | some _ => .ok s
  | .reopenTable t =>
    match s.shown with
    | none => s.reopenTable db t
    | some _ => .ok s
  | .onlyQuickServe =>
    match s.shown with
    | none => s.onlyQuickServe db
    | some _ => .ok s
  | .leave =>
    match s.shown with
    | some (_, none) => .ok { s with shown := none }
    | _ => .ok s
  | .onScreen e =>
    match s.shown with
    | some (c, modifiers) => do
      let shown ← selectStep db ⟨s.load c, modifiers⟩ e
      .ok { s.store c shown.screen with shown := some (c, shown.modifiers) }
    | none => .ok s
  | .payAndReturn =>
    match s.shown with
    | some (c, none) => s.appear db c
    | _ => .ok s

/-! ### What methods change -/

namespace App

variable {db : DatabaseAccess} {s s' : App} {c c' : Addr} {q : QuickServe}

@[simp] theorem store_controllers_next : (s.store c q).controllers.next = s.controllers.next := rfl

@[simp] theorem store_shared_next : (s.store c q).shared.next = s.shared.next := rfl

/-- References are never redirected. -/
@[simp] theorem store_ref :
    ((s.store c q).controllers.get c').shared = (s.controllers.get c').shared := by
  by_cases same : c' = c
  · subst same
    simp [store]
  · rw [store]
    simp only [Heap.get_set_of_ne same]

theorem store_controllers_get (ne : c' ≠ c) :
    (s.store c q).controllers.get c' = s.controllers.get c' := Heap.get_set_of_ne ne

theorem store_shared_get {p : Addr} (ne : p ≠ (s.controllers.get c).shared) :
    (s.store c q).shared.get p = s.shared.get p := Heap.get_set_of_ne ne

/-- What is stored is seen by every controller with the same reference. -/
theorem objects_store_of_ref_eq
    (same : (s.controllers.get c').shared = (s.controllers.get c).shared) :
    (s.store c q).objects c' = ⟨q.order, q.menuStacks⟩ := by
  rw [objects, store_ref, same]
  exact Heap.get_set_self

theorem objects_store_of_ref_ne
    (ne : (s.controllers.get c').shared ≠ (s.controllers.get c).shared) :
    (s.store c q).objects c' = s.objects c' := by
  rw [objects, store_ref]
  exact store_shared_get ne

@[simp] theorem load_store : (s.store c q).load c = q := by
  rw [load, objects_store_of_ref_eq rfl]
  simp [store]

end App

/-- A controller is made at the next address. It refers to `ref`; the objects
there were before are as they were, but for the one it refers to. -/
structure Creates (s s' : App) (ref : Addr) : Prop where
  controllers_next : s'.controllers.next = s.controllers.next + 1
  shared_next : s'.shared.next = s.shared.next + 1
  controllers_get : ∀ c < s.controllers.next, s'.controllers.get c = s.controllers.get c
  created_ref : (s'.controllers.get s.controllers.next).shared = ref
  shared_get : ∀ p < s.shared.next, p ≠ ref → s'.shared.get p = s.shared.get p

/-- The lists of tables may change at the same time. -/
theorem Creates.listed {s s' : App} {ref : Addr} (h : Creates s s' ref) {list : List String}
    {dictionary : NSMutableDictionary Int32 Addr} :
    Creates s { s' with listOfTables := list, quickServeDictionary := dictionary } ref :=
  ⟨h.controllers_next, h.shared_next, h.controllers_get, h.created_ref, h.shared_get⟩

/-- The controller is shown, in the state `q`. -/
structure Opens (s s' : App) (ref : Addr) (q : QuickServe) : Prop extends Creates s s' ref where
  shown : s'.shown = some (s.controllers.next, none)
  load : s'.load s.controllers.next = q

/-- A screen re-opened from a controller: its state, with labels of its own. -/
def QuickServe.resumed (q : QuickServe) : QuickServe :=
  { q with labels := QuickServeController.initWithCoder.labels }

namespace App

variable {db : DatabaseAccess} {s s₁ s' : App} {c occupied ref : Addr} {q : QuickServe}

theorem creates_openAtClasses (tableNumber : Option Int32) :
    Creates s (s.openAtClasses db tableNumber) s.shared.next where
  controllers_next := rfl
  shared_next := rfl
  controllers_get := fun c lt => by
    rw [openAtClasses, instantiate]
    simp only [Heap.get_set_of_ne (Nat.ne_of_lt lt), Heap.get_alloc_of_lt lt]
  created_ref := by simp [openAtClasses, instantiate]
  shared_get := fun p lt _ => Heap.get_alloc_of_lt lt

theorem load_openAtClasses (tableNumber : Option Int32) :
    (s.openAtClasses db tableNumber).load s.controllers.next =
      .init db.classNames tableNumber := by
  simp [load, objects, openAtClasses, instantiate, QuickServe.init, QuickServeController.initWithCoder]

/-- The lists of tables are not read. -/
theorem load_listed (list : List String) (dictionary : NSMutableDictionary Int32 Addr) :
    App.load { s with listOfTables := list, quickServeDictionary := dictionary } c = s.load c := rfl

theorem creates_openOccupied (lt : occupied < s.controllers.next) :
    Creates s (s.openOccupied occupied) (s.controllers.get occupied).shared where
  controllers_next := rfl
  shared_next := rfl
  controllers_get := fun c lt => by
    rw [openOccupied, instantiate]
    simp only [Heap.get_set_of_ne (Nat.ne_of_lt lt), Heap.get_alloc_of_lt lt]
  created_ref := by simp [openOccupied, instantiate, Heap.get_alloc_of_lt lt]
  shared_get := fun p lt _ => Heap.get_alloc_of_lt lt

theorem load_openOccupied (lt : occupied < s.controllers.next)
    (ref_lt : (s.controllers.get occupied).shared < s.shared.next) :
    (s.openOccupied occupied).load s.controllers.next = (s.load occupied).resumed := by
  simp [load, objects, openOccupied, instantiate, QuickServe.resumed, Heap.get_alloc_of_lt lt,
    Heap.get_alloc_of_lt ref_lt]

theorem appear_ok (h : s.appear db c = .ok s') :
    ∃ q, (s.load c).viewWillAppear db = .ok q ∧
      s' = { s.store c q with shown := some (c, none) } := by
  obtain ⟨q, hq, hs'⟩ := bind_eq_ok.mp h
  cases hs'
  exact ⟨q, hq, rfl⟩

/-- A controller that was made comes to the front. -/
theorem opens_of_appear (creates : Creates s s₁ ref)
    (h : s₁.appear db s.controllers.next = .ok s') :
    ∃ q, (s₁.load s.controllers.next).viewWillAppear db = .ok q ∧ Opens s s' ref q ∧
      s'.listOfTables = s₁.listOfTables ∧ s'.quickServeDictionary = s₁.quickServeDictionary := by
  obtain ⟨q, hq, rfl⟩ := appear_ok h
  refine ⟨q, hq, ⟨⟨creates.controllers_next, creates.shared_next, fun c lt => ?_, ?_,
    fun p lt ne => ?_⟩, rfl, load_store⟩, rfl, rfl⟩
  · exact (store_controllers_get (Nat.ne_of_lt lt)).trans (creates.controllers_get c lt)
  · exact store_ref.trans creates.created_ref
  · have other : p ≠ (s₁.controllers.get s.controllers.next).shared := by
      rw [creates.created_ref]
      exact ne
    exact (store_shared_get other).trans (creates.shared_get p lt ne)

end App

/-- The objects of a controller that was there are touched only if the new one
refers to them. -/
theorem Opens.objects_of_ref_eq {s s' : App} {ref c : Addr} {q : QuickServe} (h : Opens s s' ref q)
    (lt : c < s.controllers.next) (same : (s.controllers.get c).shared = ref) :
    s'.objects c = ⟨q.order, q.menuStacks⟩ := by
  rw [App.objects, h.controllers_get c lt, same, ← h.created_ref, ← h.load]
  rfl

theorem Opens.objects_of_ref_ne {s s' : App} {ref c : Addr} {q : QuickServe} (h : Opens s s' ref q)
    (lt : c < s.controllers.next) (ref_lt : (s.controllers.get c).shared < s.shared.next)
    (ne : (s.controllers.get c).shared ≠ ref) : s'.objects c = s.objects c := by
  rw [App.objects, h.controllers_get c lt]
  exact h.shared_get _ ref_lt ne

/-! ### What a step can do -/

/-- A step of the app, case by case. -/
inductive AppMove (db : DatabaseAccess) (s : App) : AppEvent → App → Prop where
  | pickTable {row : Nat} {tableNum : String} {q : QuickServe} {s' : App}
      (home : s.shown = none) (listed : s.listOfTables[row]? = some tableNum)
      (appears : (QuickServe.init db.classNames (some (integerValue tableNum))).viewWillAppear db
        = .ok q)
      (opens : Opens s s' s.shared.next q)
      (list : s'.listOfTables = removeObject s.listOfTables (intText (integerValue tableNum)))
      (dictionary : s'.quickServeDictionary =
        s.quickServeDictionary.insert (integerValue tableNum) s.controllers.next) :
      AppMove db s (.pickTable row) s'
  | reopenTable {t : Int32} {occupied : Addr} {q : QuickServe} {s' : App}
      (home : s.shown = none) (listed : s.quickServeDictionary.lookup t = some occupied)
      (appears : (s.load occupied).resumed.viewWillAppear db = .ok q)
      (opens : Opens s s' (s.controllers.get occupied).shared q)
      (list : s'.listOfTables = s.listOfTables)
      (dictionary : s'.quickServeDictionary = s.quickServeDictionary) :
      AppMove db s (.reopenTable t) s'
  | onlyQuickServe {q : QuickServe} {s' : App} (home : s.shown = none)
      (appears : (QuickServe.init db.classNames none).viewWillAppear db = .ok q)
      (opens : Opens s s' s.shared.next q)
      (list : s'.listOfTables = s.listOfTables)
      (dictionary : s'.quickServeDictionary = s.quickServeDictionary) :
      AppMove db s .onlyQuickServe s'
  | leave {c : Addr} (shown : s.shown = some (c, none)) : AppMove db s .leave { s with shown := none }
  | onScreen {c : Addr} {modifiers : Option QuickModifierController} {e : SelectEvent}
      {next : Selecting} (shown : s.shown = some (c, modifiers))
      (step : selectStep db ⟨s.load c, modifiers⟩ e = .ok next) :
      AppMove db s (.onScreen e) { s.store c next.screen with shown := some (c, next.modifiers) }
  | payAndReturn {c : Addr} {q : QuickServe} (shown : s.shown = some (c, none))
      (appears : (s.load c).viewWillAppear db = .ok q) :
      AppMove db s .payAndReturn { s.store c q with shown := some (c, none) }
  /-- A table that is not in the list, or a way in or out that is not there. -/
  | notOffered {e : AppEvent}
      (home : s.shown = none ∨ (∀ e', e ≠ .onScreen e') ∧ ∀ c, s.shown = some (c, none) → e ≠ .leave) :
      AppMove db s e s

/-- The controllers that are kept are there, and so is what they refer to. -/
def App.InUse (s : App) : Prop :=
  ∀ t c, s.quickServeDictionary.lookup t = some c →
    c < s.controllers.next ∧ (s.controllers.get c).shared < s.shared.next

theorem appStep_moves {db : DatabaseAccess} {s s' : App} {e : AppEvent} (inUse : s.InUse)
    (h : appStep db s e = .ok s') : AppMove db s e s' := by
  cases hshown : s.shown with
  | none =>
    cases e with
    | pickTable row =>
      simp only [appStep, hshown] at h
      obtain ⟨tableNum, hrow, h⟩ := bind_eq_ok.mp h
      obtain ⟨q, hq, opens, list, dictionary⟩ :=
        App.opens_of_appear (App.creates_openAtClasses (some (integerValue tableNum))).listed h
      rw [App.load_listed, App.load_openAtClasses] at hq
      exact .pickTable hshown (objectAtIndex_eq_ok.mp hrow) hq opens list dictionary
    | reopenTable t =>
      simp only [appStep, hshown, App.reopenTable] at h
      cases listed : s.quickServeDictionary.lookup t with
      | none =>
        rw [listed] at h
        cases h
        exact .notOffered (.inl hshown)
      | some occupied =>
        simp only [listed] at h
        obtain ⟨lt, ref_lt⟩ := inUse t occupied listed
        obtain ⟨q, hq, opens, list, dictionary⟩ :=
          App.opens_of_appear (App.creates_openOccupied lt) h
        rw [App.load_openOccupied lt ref_lt] at hq
        exact .reopenTable hshown listed hq opens list dictionary
    | onlyQuickServe =>
      simp only [appStep, hshown] at h
      obtain ⟨q, hq, opens, list, dictionary⟩ :=
        App.opens_of_appear (App.creates_openAtClasses none) h
      rw [App.load_openAtClasses] at hq
      exact .onlyQuickServe hshown hq opens list dictionary
    | leave => simp only [appStep, hshown] at h; cases h; exact .notOffered (.inl hshown)
    | onScreen e => simp only [appStep, hshown] at h; cases h; exact .notOffered (.inl hshown)
    | payAndReturn => simp only [appStep, hshown] at h; cases h; exact .notOffered (.inl hshown)
  | some shown =>
    obtain ⟨c, modifiers⟩ := shown
    cases e with
    | pickTable row =>
      simp only [appStep, hshown] at h
      cases h
      exact .notOffered (.inr ⟨fun _ => nofun, fun _ _ => nofun⟩)
    | reopenTable t =>
      simp only [appStep, hshown] at h
      cases h
      exact .notOffered (.inr ⟨fun _ => nofun, fun _ _ => nofun⟩)
    | onlyQuickServe =>
      simp only [appStep, hshown] at h
      cases h
      exact .notOffered (.inr ⟨fun _ => nofun, fun _ _ => nofun⟩)
    | onScreen e =>
      simp only [appStep, hshown] at h
      obtain ⟨next, hnext, h⟩ := bind_eq_ok.mp h
      cases h
      exact .onScreen hshown hnext
    | leave =>
      cases modifiers with
      | none =>
        simp only [appStep, hshown] at h
        cases h
        exact .leave hshown
      | some open' =>
        simp only [appStep, hshown] at h
        cases h
        refine .notOffered (.inr ⟨fun _ => nofun, fun c' closed => ?_⟩)
        rw [hshown] at closed
        cases closed
    | payAndReturn =>
      cases modifiers with
      | none =>
        simp only [appStep, hshown] at h
        obtain ⟨q, hq, rfl⟩ := App.appear_ok h
        exact .payAndReturn hshown hq
      | some open' =>
        simp only [appStep, hshown] at h
        cases h
        exact .notOffered (.inr ⟨fun _ => nofun, fun _ _ => nofun⟩)

/-! ### Seating -/

/-- Lists of tables as the app can tell them apart: different numerals, each of a
number that an `int` can hold. -/
structure Numbered (tables : List String) : Prop where
  nodup : tables.Nodup
  numeral : ∀ text ∈ tables, ∃ n : Int, -2 ^ 31 ≤ n ∧ n < 2 ^ 31 ∧ text = toString n

theorem Numbered.intText_integerValue {tables : List String} (h : Numbered tables) {text : String}
    (mem : text ∈ tables) : intText (integerValue text) = text := by
  obtain ⟨n, low, up, rfl⟩ := h.numeral text mem
  exact PointIPad.intText_integerValue low up

theorem numbered_listOfTables : Numbered HomeViewController.listOfTables where
  nodup := by decide
  numeral := fun text mem => by
    have hmem : text ∈ ([1, 2, 3, 4, 5, 6, 7, 8, 9, 10] : List Int).map toString := mem
    have bounds : ∀ n ∈ ([1, 2, 3, 4, 5, 6, 7, 8, 9, 10] : List Int), -2 ^ 31 ≤ n ∧ n < 2 ^ 31 := by
      decide
    obtain ⟨n, hn, rfl⟩ := List.mem_map.mp hmem
    exact ⟨n, (bounds n hn).1, (bounds n hn).2, rfl⟩

/-- The table whose screen is open, by the way it was opened. -/
def openedAfter (s : App) (opened : Option Int32) (e : AppEvent) : Option Int32 :=
  match s.shown with
  | some _ => opened
  | none =>
    match e with
    | .pickTable row => s.listOfTables[row]?.map integerValue
    | .reopenTable t => some t
    | .onlyQuickServe => none
    | .leave | .onScreen _ | .payAndReturn => opened

/-- While a screen is open, no table is opened. -/
theorem openedAfter_of_shown {s : App} {opened : Option Int32} {e : AppEvent}
    {shown : Addr × Option QuickModifierController} (h : s.shown = some shown) :
    openedAfter s opened e = opened := by
  cases e <;> simp only [openedAfter, h]

/-- Free and occupied tables partition the tables. -/
structure Partition (tables : List String) (s : App) : Prop where
  free_nodup : s.listOfTables.Nodup
  free_iff : ∀ text, text ∈ s.listOfTables ↔
    text ∈ tables ∧ ∀ t ∈ s.quickServeDictionary, intText t ≠ text
  occupied_mem : ∀ t ∈ s.quickServeDictionary, intText t ∈ tables

/-- What every step keeps. Of two tables, neither works on the objects of the
other, and the open screen works on those of its own table. -/
structure Seating (tables : List String) (s : App) (opened : Option Int32) : Prop
    extends Partition tables s where
  inUse : s.InUse
  apart : ∀ t t' c c', s.quickServeDictionary.lookup t = some c →
    s.quickServeDictionary.lookup t' = some c' →
      (s.controllers.get c).shared = (s.controllers.get c').shared → t = t'
  shown_inUse : ∀ c modifiers, s.shown = some (c, modifiers) →
    c < s.controllers.next ∧ (s.controllers.get c).shared < s.shared.next
  shown_iff : ∀ c modifiers t kept, s.shown = some (c, modifiers) →
    s.quickServeDictionary.lookup t = some kept →
      ((s.controllers.get c).shared = (s.controllers.get kept).shared ↔ opened = some t)
  opened_mem : ∀ c modifiers t, s.shown = some (c, modifiers) → opened = some t →
    t ∈ s.quickServeDictionary

section Seating

variable {db : DatabaseAccess} {tables : List String} {s s' : App} {opened : Option Int32}
  {e : AppEvent}

theorem seating_init (numbered : Numbered tables) : Seating tables (.init tables) none where
  free_nodup := numbered.nodup
  free_iff := fun text => by
    refine ⟨fun h => ⟨h, fun t ht => absurd ht Finmap.notMem_empty⟩, fun h => h.1⟩
  occupied_mem := fun t ht => absurd ht Finmap.notMem_empty
  inUse := fun t c h => by simp [App.init] at h
  apart := fun t t' c c' h => by simp [App.init] at h
  shown_inUse := fun _ _ h => by cases h
  shown_iff := fun _ _ _ _ h => by cases h
  opened_mem := fun _ _ _ h => by cases h

/-- A free table has no controller yet. -/
theorem Partition.not_occupied (h : Partition tables s) (numbered : Numbered tables)
    {text : String} (free : text ∈ s.listOfTables) : integerValue text ∉ s.quickServeDictionary := by
  intro occupied
  obtain ⟨mem, apart⟩ := (h.free_iff text).mp free
  exact apart _ occupied (numbered.intText_integerValue mem)

/-- A free table that is taken is occupied from then on. -/
theorem Partition.take (h : Partition tables s) (numbered : Numbered tables) {text : String}
    (free : text ∈ s.listOfTables) {c : Addr}
    (list : s'.listOfTables = removeObject s.listOfTables (intText (integerValue text)))
    (dictionary : s'.quickServeDictionary = s.quickServeDictionary.insert (integerValue text) c) :
    Partition tables s' := by
  have mem := ((h.free_iff text).mp free).1
  have named := numbered.intText_integerValue mem
  refine ⟨?_, fun other => ?_, fun t ht => ?_⟩
  · rw [list]
    exact h.free_nodup.filter _
  · rw [list, dictionary, removeObject, List.mem_filter, h.free_iff, named, decide_eq_true_eq]
    constructor
    · rintro ⟨⟨hmem, hne⟩, htext⟩
      refine ⟨hmem, fun t ht => ?_⟩
      rcases Finmap.mem_insert.mp ht with rfl | ht
      · rw [named]
        exact fun same => htext same.symm
      · exact hne t ht
    · rintro ⟨hmem, hne⟩
      refine ⟨⟨hmem, fun t ht => hne t (Finmap.mem_insert.mpr (.inr ht))⟩, fun same => ?_⟩
      exact hne _ (Finmap.mem_insert.mpr (.inl rfl)) (named.trans same.symm)
  · rw [dictionary] at ht
    rcases Finmap.mem_insert.mp ht with rfl | ht
    · rw [named]
      exact mem
    · exact h.occupied_mem t ht

/-- Storing a controller moves no reference. -/
theorem Seating.store (h : Seating tables s opened) {c : Addr}
    {modifiers modifiers' : Option QuickModifierController} (shown : s.shown = some (c, modifiers))
    (q : QuickServe) :
    Seating tables { s.store c q with shown := some (c, modifiers') } opened := by
  have refs (c' : Addr) : ((s.store c q).controllers.get c').shared =
      (s.controllers.get c').shared := App.store_ref
  refine ⟨⟨h.free_nodup, h.free_iff, h.occupied_mem⟩, fun t kept hkept => ?_,
    fun t t' kept kept' hkept hkept' => ?_, fun c' m hshown => ?_, fun c' m t kept hshown hkept => ?_,
    fun c' m t hshown => ?_⟩
  · obtain ⟨lt, ref_lt⟩ := h.inUse t kept hkept
    exact ⟨lt, (refs kept).symm ▸ ref_lt⟩
  · simp only [refs]
    exact h.apart t t' kept kept' hkept hkept'
  · cases hshown
    simp only [refs]
    exact h.shown_inUse c modifiers shown
  · cases hshown
    simp only [refs]
    exact h.shown_iff c modifiers t kept shown hkept
  · cases hshown
    exact h.opened_mem c modifiers t shown

/-- At the home screen it does not matter which table was open. -/
theorem Seating.leave (h : Seating tables s opened) (opened' : Option Int32) :
    Seating tables { s with shown := none } opened' where
  free_nodup := h.free_nodup
  free_iff := h.free_iff
  occupied_mem := h.occupied_mem
  inUse := h.inUse
  apart := h.apart
  shown_inUse := fun _ _ hshown => by cases hshown
  shown_iff := fun _ _ _ _ hshown => by cases hshown
  opened_mem := fun _ _ _ hshown => by cases hshown

/-- A screen that is opened works on objects in use: those of a table that was
opened again, or new ones. -/
theorem Seating.opens (h : Seating tables s opened) {ref : Addr} {q : QuickServe}
    (opens : Opens s s' ref q) (ref_le : ref ≤ s.shared.next)
    (partition : Partition tables s') {opened' : Option Int32}
    (kept_cases : ∀ t kept, s'.quickServeDictionary.lookup t = some kept →
      (s.quickServeDictionary.lookup t = some kept ∧
        (ref = (s.controllers.get kept).shared ↔ opened' = some t)) ∨
      kept = s.controllers.next ∧ ref = s.shared.next ∧ opened' = some t)
    (opened_mem : ∀ t, opened' = some t → t ∈ s'.quickServeDictionary) :
    Seating tables s' opened' := by
  have old {t : Int32} {kept : Addr} (hkept : s.quickServeDictionary.lookup t = some kept) :
      s'.controllers.get kept = s.controllers.get kept :=
    opens.controllers_get kept (h.inUse t kept hkept).1
  have old_lt {t : Int32} {kept : Addr} (hkept : s.quickServeDictionary.lookup t = some kept) :
      (s.controllers.get kept).shared < s.shared.next := (h.inUse t kept hkept).2
  refine ⟨partition, fun t kept hkept => ?_, fun t t' kept kept' hkept hkept' same => ?_,
    fun c m hshown => ?_, fun c m t kept hshown hkept => ?_, fun c m t hshown => opened_mem t⟩
  · rw [opens.controllers_next, opens.shared_next]
    rcases kept_cases t kept hkept with ⟨hkept, -⟩ | ⟨rfl, new, -⟩
    · rw [old hkept]
      exact ⟨Nat.lt_succ_of_lt (h.inUse t kept hkept).1, Nat.lt_succ_of_lt (old_lt hkept)⟩
    · rw [opens.created_ref]
      exact ⟨Nat.lt_succ_self _, Nat.lt_succ_of_le ref_le⟩
  · rcases kept_cases t kept hkept with ⟨hkept, -⟩ | ⟨rfl, new, hopened⟩ <;>
      rcases kept_cases t' kept' hkept' with ⟨hkept', -⟩ | ⟨rfl, new', hopened'⟩
    · rw [old hkept, old hkept'] at same
      exact h.apart t t' kept kept' hkept hkept' same
    · rw [old hkept, opens.created_ref, new'] at same
      exact absurd same (Nat.ne_of_lt (old_lt hkept))
    · rw [old hkept', opens.created_ref, new] at same
      exact absurd same.symm (Nat.ne_of_lt (old_lt hkept'))
    · exact Option.some.inj (hopened.symm.trans hopened')
  · rw [opens.shown] at hshown
    cases hshown
    rw [opens.controllers_next, opens.shared_next, opens.created_ref]
    exact ⟨Nat.lt_succ_self _, Nat.lt_succ_of_le ref_le⟩
  · rw [opens.shown] at hshown
    cases hshown
    rw [opens.created_ref]
    rcases kept_cases t kept hkept with ⟨hkept, shared_iff⟩ | ⟨rfl, new, hopened⟩
    · rw [old hkept]
      exact shared_iff
    · rw [opens.created_ref]
      exact iff_of_true rfl hopened

/-- What the open screen stores, its table sees and no other does. -/
theorem Seating.objects_store (h : Seating tables s opened) {c kept : Addr}
    {modifiers : Option QuickModifierController} {t : Int32} (shown : s.shown = some (c, modifiers))
    (hkept : s.quickServeDictionary.lookup t = some kept) (q : QuickServe) :
    (s.store c q).objects kept =
      if opened = some t then ⟨q.order, q.menuStacks⟩ else s.objects kept := by
  have shared_iff := h.shown_iff c modifiers t kept shown hkept
  split
  · rename_i same
    exact App.objects_store_of_ref_eq (shared_iff.mpr same).symm
  · rename_i other
    exact App.objects_store_of_ref_ne fun same => other (shared_iff.mp same.symm)

/-- What the open screen shows is what its table refers to. -/
theorem Seating.objects_shown (h : Seating tables s opened) {c kept : Addr}
    {modifiers : Option QuickModifierController} {t : Int32} (shown : s.shown = some (c, modifiers))
    (hkept : s.quickServeDictionary.lookup t = some kept) (same : opened = some t) :
    s.objects c = s.objects kept := by
  rw [App.objects, App.objects, (h.shown_iff c modifiers t kept shown hkept).mpr same]

/-- A new order is no table's. -/
theorem Seating.objects_created (h : Seating tables s opened) {q : QuickServe}
    (opens : Opens s s' s.shared.next q) {t : Int32} {kept : Addr}
    (hkept : s.quickServeDictionary.lookup t = some kept) : s'.objects kept = s.objects kept := by
  obtain ⟨lt, ref_lt⟩ := h.inUse t kept hkept
  exact opens.objects_of_ref_ne lt ref_lt (Nat.ne_of_lt ref_lt)

/-- Opening a table again touches the objects of no other. -/
theorem Seating.objects_reopened (h : Seating tables s opened) {occupied kept : Addr}
    {q : QuickServe} (opens : Opens s s' (s.controllers.get occupied).shared q) {t t' : Int32}
    (hoccupied : s.quickServeDictionary.lookup t = some occupied)
    (hkept : s.quickServeDictionary.lookup t' = some kept) :
    s'.objects kept = if t' = t then ⟨q.order, q.menuStacks⟩ else s.objects kept := by
  obtain ⟨lt, ref_lt⟩ := h.inUse t' kept hkept
  split
  · rename_i same
    subst same
    refine opens.objects_of_ref_eq lt ?_
    rw [Option.some.inj (hkept.symm.trans hoccupied)]
  · rename_i other
    exact opens.objects_of_ref_ne lt ref_lt
      fun same => other (h.apart t' t kept occupied hkept hoccupied same)

/-- **Every step keeps the seating.** -/
theorem Seating.move (h : Seating tables s opened) (numbered : Numbered tables)
    (move : AppMove db s e s') : Seating tables s' (openedAfter s opened e) := by
  cases move with
  | pickTable home listed appears opens list dictionary =>
    rename_i row tableNum q
    have free := List.mem_of_getElem? listed
    have new := h.not_occupied numbered free
    have hopened : openedAfter s opened (.pickTable row) = some (integerValue tableNum) := by
      simp only [openedAfter, home, listed, Option.map_some]
    rw [hopened]
    refine h.opens opens (le_refl _) (h.take numbered free list dictionary)
      (fun t kept hkept => ?_) (fun t ht => ?_)
    · rw [dictionary] at hkept
      by_cases same : t = integerValue tableNum
      · rw [same, Finmap.lookup_insert] at hkept
        cases hkept
        exact .inr ⟨rfl, rfl, same ▸ rfl⟩
      · rw [Finmap.lookup_insert_of_ne _ same] at hkept
        refine .inl ⟨hkept, iff_of_false (fun heq => ?_) fun heq => same (Option.some.inj heq).symm⟩
        exact Nat.ne_of_gt (h.inUse t kept hkept).2 heq
    · rw [dictionary, ← Option.some.inj ht]
      exact Finmap.mem_insert.mpr (.inl rfl)
  | reopenTable home listed appears opens list dictionary =>
    rename_i t occupied q
    have hopened : openedAfter s opened (.reopenTable t) = some t := by
      simp only [openedAfter, home]
    rw [hopened]
    have partition : Partition tables s' :=
      ⟨list ▸ h.free_nodup, by rw [list, dictionary]; exact h.free_iff,
        dictionary ▸ h.occupied_mem⟩
    refine h.opens opens (Nat.le_of_lt (h.inUse t occupied listed).2) partition
      (fun t' kept hkept => ?_) (fun t' ht' => ?_)
    · rw [dictionary] at hkept
      refine .inl ⟨hkept, fun same => ?_, fun same => ?_⟩
      · rw [h.apart t t' occupied kept listed hkept same]
      · cases same
        rw [Option.some.inj (listed.symm.trans hkept)]
    · rw [dictionary, ← Option.some.inj ht']
      exact Finmap.mem_of_lookup_eq_some listed
  | onlyQuickServe home appears opens list dictionary =>
    have hopened : openedAfter s opened .onlyQuickServe = none := by
      simp only [openedAfter, home]
    rw [hopened]
    have partition : Partition tables s' :=
      ⟨list ▸ h.free_nodup, by rw [list, dictionary]; exact h.free_iff,
        dictionary ▸ h.occupied_mem⟩
    refine h.opens opens (le_refl _) partition (fun t kept hkept => ?_) (fun t ht => by cases ht)
    rw [dictionary] at hkept
    exact .inl ⟨hkept, iff_of_false
      (fun heq => Nat.ne_of_gt (h.inUse t kept hkept).2 heq) (fun heq => by cases heq)⟩
  | leave shown =>
    rw [openedAfter_of_shown shown]
    exact h.leave opened
  | onScreen shown step =>
    rename_i c modifiers e next
    rw [openedAfter_of_shown shown]
    exact h.store shown next.screen
  | payAndReturn shown appears =>
    rename_i c q
    rw [openedAfter_of_shown shown]
    exact h.store shown q
  | notOffered home =>
    -- nothing is open, or what is open stays open
    cases hshown : s.shown with
    | none =>
      have home' : s = { s with shown := none } := by
        cases s
        cases hshown
        rfl
      rw [home']
      exact h.leave _
    | some shown =>
      rw [openedAfter_of_shown hshown]
      exact h

end Seating

end PointIPad
