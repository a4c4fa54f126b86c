import PointIPad.OrderOperation
import PointIPad.Tables

/-!
Isolation of tables.

A log notes each operation on an order together with the table that was open.
It plays no part in the steps: it says what the order of a table should be, the
result of the operations of that table alone, in their order, on an empty order.

**Main result** (`tables_isolated`). Along every run, from any list of numbered
tables, free and occupied tables partition the tables, and each table shows the
order that its own operations make.
-/

namespace PointIPad

open Transition

/-! ### The log -/

/-- The operation that an event performs on the order of the open screen. -/
def App.operation (db : DatabaseAccess) (s : App) (e : AppEvent) : Option OrderOperation :=
  match s.shown, e with
  | some (c, modifiers), .onScreen e => Selecting.operation db ⟨s.load c, modifiers⟩ e
  | _, _ => none

/-- An entry for an operation while a table was open. -/
def logged (opened : Option Int32) (operation : Option OrderOperation) :
    List (Int32 × OrderOperation) :=
  match opened, operation with
  | some t, some operation => [(t, operation)]
  | _, _ => []

/-- The operations of one table. -/
def operationsOn (t : Int32) (log : List (Int32 × OrderOperation)) : List OrderOperation :=
  log.filterMap fun entry => if entry.1 = t then some entry.2 else none

/-- The app, the table that was opened last, and the log. -/
structure Service where
  app : App
  opened : Option Int32
  log : List (Int32 × OrderOperation)

def Service.init (tables : List String) : Service := ⟨.init tables, none, []⟩

def serviceStep (db : DatabaseAccess) (s : Service) (e : AppEvent) : Except NSException Service := do
  let app ← appStep db s.app e
  .ok ⟨app, openedAfter s.app s.opened e, s.log ++ logged s.opened (s.app.operation db e)⟩

/-- The order that operations make of an empty one, with its totals. -/
def orderOf (db : DatabaseAccess) (operations : List OrderOperation) : Except NSException Orders :=
  replay db operations >>= Orders.updateTotals db

/-- Free and occupied tables partition the tables, so that no pick takes a table
that is occupied. The order kept for a table, with its totals, is the one that
the operations of the table make, and it is the order that the screen of the
table shows. -/
structure TablesIsolated (db : DatabaseAccess) (tables : List String) (s : Service) : Prop where
  partition : Partition tables s.app
  free : ∀ text ∈ s.app.listOfTables, integerValue text ∉ s.app.quickServeDictionary
  kept : ∀ t kept, s.app.quickServeDictionary.lookup t = some kept →
    (s.app.load kept).order.updateTotals db = orderOf db (operationsOn t s.log)
  shown : ∀ c modifiers t, s.app.shown = some (c, modifiers) → s.opened = some t →
    (s.app.load c).order.updateTotals db = orderOf db (operationsOn t s.log) ∧
      (modifiers = none → .ok (s.app.load c).order = orderOf db (operationsOn t s.log))

section Log

variable {t t' : Int32} {log : List (Int32 × OrderOperation)} {operation : OrderOperation}

theorem operationsOn_append (log log' : List (Int32 × OrderOperation)) :
    operationsOn t (log ++ log') = operationsOn t log ++ operationsOn t log' := List.filterMap_append

theorem operationsOn_logged_self : operationsOn t (logged (some t) (some operation)) = [operation] := by
  simp [operationsOn, logged]

theorem operationsOn_logged_of_ne {opened : Option Int32} (ne : opened ≠ some t)
    (operation : Option OrderOperation) : operationsOn t (logged opened operation) = [] := by
  rcases opened with _ | t'
  · rfl
  · rcases operation with _ | operation
    · rfl
    · have other : t' ≠ t := fun same => ne (same ▸ rfl)
      simp [operationsOn, logged, other]

theorem operationsOn_logged_none (opened : Option Int32) :
    operationsOn t (logged opened none) = [] := by
  cases opened <;> rfl

end Log

/-! ### The invariant -/

/-- The order of a table is made by the operations of the table, but for amounts
that are computed when its screen appears next. -/
structure ServiceInvariant (db : DatabaseAccess) (tables : List String) (s : Service) : Prop where
  seating : Seating tables s.app s.opened
  follows : ∀ t kept, s.app.quickServeDictionary.lookup t = some kept →
    ∃ o, replay db (operationsOn t s.log) = .ok o ∧ Follows db (s.app.objects kept).order o
  unopened : ∀ t, t ∉ s.app.quickServeDictionary → operationsOn t s.log = []
  totals : ∀ c, s.app.shown = some (c, none) →
    (s.app.objects c).order.updateTotals db = .ok (s.app.objects c).order

section Isolation

variable {db : DatabaseAccess} {tables : List String} {s s' : Service} {e : AppEvent}

theorem serviceInvariant_init (numbered : Numbered tables) :
    ServiceInvariant db tables (.init tables) where
  seating := seating_init numbered
  follows := fun t kept h => by simp [Service.init, App.init] at h
  unopened := fun _ _ => rfl
  totals := fun _ h => by cases h

/-- The invariant says what the tables show. -/
theorem ServiceInvariant.isolated (h : ServiceInvariant db tables s) (numbered : Numbered tables) :
    TablesIsolated db tables s := by
  have order_eq {t : Int32} {kept : Addr} (hkept : s.app.quickServeDictionary.lookup t = some kept) :
      (s.app.objects kept).order.updateTotals db = orderOf db (operationsOn t s.log) := by
    obtain ⟨o, hreplay, follows⟩ := h.follows t kept hkept
    rw [orderOf, hreplay, ok_bind, follows.updateTotals_eq]
  refine ⟨h.seating.toPartition, fun text free => h.seating.not_occupied numbered free,
    fun t kept hkept => order_eq hkept, fun c modifiers t hshown hopened => ?_⟩
  obtain ⟨kept, hkept⟩ := Finmap.mem_iff.mp (h.seating.opened_mem c modifiers t hshown hopened)
  have same : (s.app.load c).order = (s.app.objects kept).order :=
    congrArg SharedObjects.order (h.seating.objects_shown hshown hkept hopened)
  refine ⟨same ▸ order_eq hkept, fun closed => ?_⟩
  subst closed
  rw [← order_eq hkept, ← same]
  exact (h.totals c hshown).symm

/-- Without an operation the log of a table is as it was. -/
theorem operationsOn_of_none {t : Int32} {operation : Option OrderOperation}
    (none : operation = none) (log : List (Int32 × OrderOperation)) (opened : Option Int32) :
    operationsOn t (log ++ logged opened operation) = operationsOn t log := by
  rw [operationsOn_append, none, operationsOn_logged_none, List.append_nil]

/-- The order that a screen shows when it appears has its totals computed. -/
theorem totals_of_opens {s s' : App} {ref : Addr} {q q₀ : QuickServe} (opens : Opens s s' ref q)
    (appears : q₀.viewWillAppear db = .ok q) {c : Addr} (shown : s'.shown = some (c, none)) :
    (s'.objects c).order.updateTotals db = .ok (s'.objects c).order := by
  rw [opens.shown] at shown
  cases shown
  have hq : (s'.objects s.controllers.next).order = q.order := congrArg QuickServe.order opens.load
  rw [hq]
  exact Orders.updateTotals_idempotent (QuickServe.viewWillAppear_order appears)

/-- A free table is taken: its order is new, the others are as they were. -/
theorem ServiceInvariant.pick (h : ServiceInvariant db tables s) {app : App} {tableNum : String}
    {q : QuickServe} (free : integerValue tableNum ∉ s.app.quickServeDictionary)
    (appears : (QuickServe.init db.classNames (some (integerValue tableNum))).viewWillAppear db
      = .ok q)
    (opens : Opens s.app app s.app.shared.next q)
    (dictionary : app.quickServeDictionary =
      s.app.quickServeDictionary.insert (integerValue tableNum) s.app.controllers.next)
    {opened : Option Int32} (seating : Seating tables app opened) :
    ServiceInvariant db tables ⟨app, opened, s.log⟩ := by
  refine ⟨seating, fun t kept hkept => ?_, fun t ht => ?_,
    fun c hshown => totals_of_opens opens appears hshown⟩
  · have hkept : app.quickServeDictionary.lookup t = some kept := hkept
    rw [dictionary] at hkept
    by_cases same : t = integerValue tableNum
    · rw [same, Finmap.lookup_insert] at hkept
      cases hkept
      refine ⟨.init, ?_, ?_⟩
      · rw [same, h.unopened _ free]
        rfl
      · have hq : (app.objects s.app.controllers.next).order = q.order :=
          congrArg QuickServe.order opens.load
        rw [hq]
        exact follows_init.updateTotals (QuickServe.viewWillAppear_order appears)
    · rw [Finmap.lookup_insert_of_ne _ same] at hkept
      show ∃ o, _ ∧ Follows db (app.objects kept).order o
      rw [h.seating.objects_created opens hkept]
      exact h.follows t kept hkept
  · have ht : t ∉ app.quickServeDictionary := ht
    rw [dictionary, Finmap.mem_insert] at ht
    exact h.unopened t fun mem => ht (.inr mem)

/-- A table is opened again: computing the totals of its order is all that
happens to the orders. -/
theorem ServiceInvariant.reopen (h : ServiceInvariant db tables s) {app : App} {t : Int32}
    {occupied : Addr} {q : QuickServe}
    (listed : s.app.quickServeDictionary.lookup t = some occupied)
    (appears : (s.app.load occupied).resumed.viewWillAppear db = .ok q)
    (opens : Opens s.app app (s.app.controllers.get occupied).shared q)
    (dictionary : app.quickServeDictionary = s.app.quickServeDictionary)
    {opened : Option Int32} (seating : Seating tables app opened) :
    ServiceInvariant db tables ⟨app, opened, s.log⟩ := by
  refine ⟨seating, fun t' kept hkept => ?_, fun t' ht => h.unopened t' (dictionary ▸ ht),
    fun c hshown => totals_of_opens opens appears hshown⟩
  have hkept : s.app.quickServeDictionary.lookup t' = some kept := dictionary ▸ hkept
  obtain ⟨o, hreplay, follows⟩ := h.follows t' kept hkept
  refine ⟨o, hreplay, ?_⟩
  show Follows db (app.objects kept).order o
  rw [h.seating.objects_reopened opens listed hkept]
  split
  · rename_i same
    subst same
    cases Option.some.inj (hkept.symm.trans listed)
    exact follows.updateTotals (QuickServe.viewWillAppear_order appears)
  · exact follows

/-- The screen of a table performs an operation, or computes totals at most. -/
theorem ServiceInvariant.perform (h : ServiceInvariant db tables s) {c : Addr}
    {modifiers modifiers' : Option QuickModifierController} {q : QuickServe}
    (shown : s.app.shown = some (c, modifiers)) (operation : Option OrderOperation)
    (performs : match operation with
      | some operation => operation.perform db (s.app.load c).order = .ok q.order
      | none => q.order = (s.app.load c).order ∨
          (s.app.load c).order.updateTotals db = .ok q.order)
    (totals : modifiers' = none → q.order.updateTotals db = .ok q.order) :
    ServiceInvariant db tables ⟨{ s.app.store c q with shown := some (c, modifiers') }, s.opened,
      s.log ++ logged s.opened operation⟩ := by
  refine ⟨h.seating.store shown q, fun t kept hkept => ?_, fun t ht => ?_, fun c' hshown => ?_⟩
  · obtain ⟨o, hreplay, follows⟩ := h.follows t kept hkept
    show ∃ o, replay db (operationsOn t (s.log ++ logged s.opened operation)) = .ok o ∧
      Follows db ((s.app.store c q).objects kept).order o
    rw [h.seating.objects_store shown hkept q]
    by_cases same : s.opened = some t
    · rw [if_pos same]
      have before : (s.app.load c).order = (s.app.objects kept).order :=
        congrArg SharedObjects.order (h.seating.objects_shown shown hkept same)
      rw [before] at performs
      cases operation with
      | none =>
        rw [operationsOn_of_none rfl]
        refine ⟨o, hreplay, ?_⟩
        rcases performs with unchanged | computed
        · rw [unchanged]
          exact follows
        · exact follows.updateTotals computed
      | some operation =>
        obtain ⟨o', hperform, follows'⟩ := follows.perform performs
        refine ⟨o', ?_, follows'⟩
        rw [operationsOn_append, same, operationsOn_logged_self]
        exact run_snoc_ok.mpr ⟨o, hreplay, hperform⟩
    · rw [if_neg same, operationsOn_append, operationsOn_logged_of_ne same, List.append_nil]
      exact ⟨o, hreplay, follows⟩
  · -- a table whose screen is open is occupied
    have other : s.opened ≠ some t := fun same => ht (h.seating.opened_mem c modifiers t shown same)
    show operationsOn t (s.log ++ logged s.opened operation) = []
    rw [operationsOn_append, operationsOn_logged_of_ne other, List.append_nil]
    exact h.unopened t ht
  · obtain ⟨rfl, closed⟩ := Prod.mk.inj (Option.some.inj hshown)
    have hobjects : (s.app.store c q).objects c = ⟨q.order, q.menuStacks⟩ :=
      App.objects_store_of_ref_eq rfl
    show ((s.app.store c q).objects c).order.updateTotals db =
      .ok ((s.app.store c q).objects c).order
    rw [hobjects]
    exact totals closed

/-- **Every step keeps the invariant.** -/
theorem ServiceInvariant.step (h : ServiceInvariant db tables s) (numbered : Numbered tables)
    (hstep : serviceStep db s e = .ok s') : ServiceInvariant db tables s' := by
  obtain ⟨app, happ, hs'⟩ := bind_eq_ok.mp hstep
  cases hs'
  have move := appStep_moves h.seating.inUse happ
  have seating := h.seating.move numbered move
  have idle (none : s.app.operation db e = none)
      (kept : ServiceInvariant db tables ⟨app, openedAfter s.app s.opened e, s.log⟩) :
      ServiceInvariant db tables ⟨app, openedAfter s.app s.opened e,
        s.log ++ logged s.opened (s.app.operation db e)⟩ := by
    refine ⟨kept.seating, fun t c hc => ?_, fun t ht => ?_, kept.totals⟩
    · rw [operationsOn_of_none none]
      exact kept.follows t c hc
    · rw [operationsOn_of_none none]
      exact kept.unopened t ht
  cases move with
  | pickTable home listed appears opens list dictionary =>
    refine idle (by simp only [App.operation, home]) ?_
    exact h.pick (h.seating.not_occupied numbered (List.mem_of_getElem? listed)) appears opens
      dictionary seating
  | reopenTable home listed appears opens list dictionary =>
    refine idle (by simp only [App.operation, home]) ?_
    exact h.reopen listed appears opens dictionary seating
  | onlyQuickServe home appears opens list dictionary =>
    refine idle (by simp only [App.operation, home]) ⟨seating, fun t kept hkept => ?_,
      fun t ht => h.unopened t (dictionary ▸ ht), fun c hshown => totals_of_opens opens appears hshown⟩
    have hkept : s.app.quickServeDictionary.lookup t = some kept := dictionary ▸ hkept
    show ∃ o, _ ∧ Follows db (app.objects kept).order o
    rw [h.seating.objects_created opens hkept]
    exact h.follows t kept hkept
  | leave shown =>
    refine idle (by simp only [App.operation, shown]) ⟨seating, h.follows, h.unopened, ?_⟩
    intro c hshown
    cases hshown
  | onScreen shown step =>
    rename_i c modifiers e next
    have hop : s.app.operation db (.onScreen e) =
        Selecting.operation db ⟨s.app.load c, modifiers⟩ e := by
      simp only [App.operation, shown]
    rw [openedAfter_of_shown shown, hop]
    refine h.perform shown _ (selectStep_performs step) fun closed => ?_
    refine selectStep_totals step closed fun none => ?_
    exact h.totals c (shown.trans (congrArg (fun m => some (c, m)) none))
  | payAndReturn shown appears =>
    rename_i c q
    have hop : s.app.operation db .payAndReturn = none := by simp only [App.operation, shown]
    have computed := QuickServe.viewWillAppear_order appears
    rw [openedAfter_of_shown shown, hop]
    exact h.perform shown none (.inr computed)
      fun _ => Orders.updateTotals_idempotent computed
  | notOffered offered =>
    have hop : s.app.operation db e = none := by
      cases hshown : s.app.shown with
      | none => simp only [App.operation, hshown]
      | some shown =>
        rcases offered with home | ⟨none, -⟩
        · rw [hshown] at home
          cases home
        · cases e <;> simp only [App.operation, hshown]
          exact absurd rfl (none _)
    exact idle hop ⟨seating, h.follows, h.unopened, h.totals⟩

end Isolation

/-- **Tables are isolated.** From any list of numbered tables, along every run of
picks, re-openings, leavings and operations: free and occupied tables partition
the tables, and each table shows what its own operations make of an empty order. -/
theorem tables_isolated {tables : List String} (numbered : Numbered tables) (db : DatabaseAccess)
    (events : List AppEvent) :
    Always (serviceStep db) (TablesIsolated db tables) (.init tables) events :=
  always_of_invariant (fun _ _ _ h hstep => h.step numbered hstep) (fun _ h => h.isolated numbered)
    (serviceInvariant_init numbered)

/-- Table 3 orders a tea, table 1 orders nothing, and table 3 is opened again. -/
def twoTables : List AppEvent :=
  [.pickTable 2, .onScreen (.tap 0), .onScreen (.tap 0), .leave, .pickTable 0, .leave,
    .reopenTable 3]

theorem tables_isolated_twoTables :
    Always (serviceStep teaWithExtra) (TablesIsolated teaWithExtra HomeViewController.listOfTables)
      (.init HomeViewController.listOfTables) twoTables :=
  tables_isolated numbered_listOfTables teaWithExtra twoTables

/-- A table whose number no `int` can hold stays on the list after it was picked,
and its controller is kept under another number. -/
theorem tables_overlap :
    ¬ Always (serviceStep teaWithExtra) (TablesIsolated teaWithExtra ["2147483648"])
      (.init ["2147483648"]) [.pickTable 0] := by
  intro always
  have picked : (run (serviceStep teaWithExtra) (.init ["2147483648"]) [.pickTable 0]).map
      (fun s => (s.app.listOfTables, s.app.quickServeDictionary.lookup 2147483647)) =
        .ok (["2147483648"], some 0) := by
    decide +kernel
  cases hrun : run (serviceStep teaWithExtra) (.init ["2147483648"]) [.pickTable 0] with
  | error e => rw [hrun] at picked; cases picked
  | ok s =>
    rw [hrun] at picked
    obtain ⟨hlist, hlookup⟩ := Prod.mk.inj (Except.ok.inj picked)
    have isolated := always_iff_prefix.mp always _ s (List.prefix_refl _) hrun
    have named := isolated.partition.occupied_mem _ (Finmap.mem_of_lookup_eq_some hlookup)
    revert named
    decide

end PointIPad
