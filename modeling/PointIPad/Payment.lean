import PointIPad.OrderOperation
import PointIPad.Tables

/-!
The Payment screen, and what is charged there.

The totals of an order are stored with it, and are computed again by some
operations and not by others: modifier changes leave them alone. The Payment
screen is given the order by reference and computes nothing.

**Main result** (`totals_fresh`). While prices and taxes stay the same, the totals
are those that would be computed whenever the QuickServe screen or the Payment
screen is showing. The rest of the database may change between events.
-/

namespace PointIPad

open Transition

/-! ### Prices and taxes -/

/-- Two databases charge the same. -/
structure SamePrices (db db' : DatabaseAccess) : Prop where
  lunchPrice : ∀ x, db'.getLunchPriceUsing x = db.getLunchPriceUsing x
  quantityPrice : ∀ x modName, db'.getModPriceQuantity x modName = db.getModPriceQuantity x modName
  extraPrice : ∀ x modName, db'.getModPriceExtra x modName = db.getModPriceExtra x modName
  tax : ∀ x taxNumber, db'.getTax x taxNumber = db.getTax x taxNumber

theorem SamePrices.refl (db : DatabaseAccess) : SamePrices db db :=
  ⟨fun _ => rfl, fun _ _ => rfl, fun _ _ => rfl, fun _ _ => rfl⟩

namespace Orders

variable {db db' : DatabaseAccess} {o : Orders}

theorem addUnits_of_samePrices (h : SamePrices db db') (x : NSNumber) (qty : ℕ) (t : Totals) :
    o.addUnits db' x qty t = o.addUnits db x qty t := by
  have hmods : ∀ mods total, addModPrices db' x mods total = addModPrices db x mods total := by
    intro mods
    induction mods with
    | nil => exact fun _ => rfl
    | cons mod mods ih =>
      intro total
      simp only [addModPrices, h.quantityPrice, h.extraPrice, ih]
  have hunit : ∀ t, o.addUnit db' x t = o.addUnit db x t := by
    intro t
    simp only [addUnit, priceOfEveryModUsing, hmods, h.lunchPrice, h.tax]
  induction qty generalizing t with
  | zero => rfl
  | succ qty ih =>
    rw [addUnits, addUnits, hunit]
    exact congrArg _ (funext ih)

/-- Totals depend on prices and taxes only. -/
theorem updateTotals_of_samePrices (h : SamePrices db db') :
    o.updateTotals db' = o.updateTotals db := by
  have hlines : ∀ itemIds curItem t,
      o.addLines db' itemIds curItem t = o.addLines db itemIds curItem t := by
    intro itemIds
    induction itemIds with
    | nil => exact fun _ _ => rfl
    | cons x itemIds ih =>
      intro curItem t
      simp only [addLines, addUnits_of_samePrices h, ih]
  rw [updateTotals, updateTotals, hlines]

/-- The stored totals are those that would be computed now. -/
def Fresh (db : DatabaseAccess) (o : Orders) : Prop :=
  ∃ o', o.updateTotals db = .ok o' ∧ o'.totalAmount = o.totalAmount ∧ o'.totalPrice = o.totalPrice

end Orders

/-! ### The Payment screen -/

def PaymentTableViewController.paymentChoices : List String := ["Cash", "Debit"]

/-- The app, with the order of the Payment screen while that is shown above the
QuickServe screen. -/
structure Paying where
  app : App
  payment : Option Addr

def Paying.init (listOfTables : List String) : Paying := ⟨.init listOfTables, none⟩

inductive PayEvent where
  | app (e : AppEvent)
  | payNow
  | didSelectRow (row : Nat)
  | back

/-- One event; what the shown screen does not offer does nothing. Neither choice of
the Payment screen is handled. -/
def payStep (db : DatabaseAccess) (s : Paying) (e : PayEvent) : Except NSException Paying :=
  match s.payment with
  | none =>
    match e with
    | .app e => do .ok ⟨← appStep db s.app e, none⟩
    | .payNow =>
      match s.app.shown with
      | some (c, none) => .ok { s with payment := some (s.app.controllers.get c).shared }
      | _ => .ok s
    | .didSelectRow _ | .back => .ok s
  | some _ =>
    match e with
    | .didSelectRow row => do
      let _pickedPaymentChoice ← objectAtIndex PaymentTableViewController.paymentChoices row
      .ok s
    | .back =>
      match s.app.shown with
      | some (c, none) => do .ok ⟨← s.app.appear db c, none⟩
      | _ => .ok s
    | .app _ | .payNow => .ok s

/-- The totals are fresh on the QuickServe screen and on the Payment screen. -/
def ShowsFresh (db : DatabaseAccess) (s : Paying) : Prop :=
  (∀ c, s.app.shown = some (c, none) → (s.app.load c).order.Fresh db) ∧
    ∀ p, s.payment = some p → (s.app.shared.get p).order.Fresh db

/-! ### The totals that are shown -/

section Fresh

variable {db db' : DatabaseAccess} {s s' : App} {c : Addr}

/-- The order of the QuickServe screen, when nothing is above it, has its totals. -/
def ShowsTotals (db : DatabaseAccess) (s : App) : Prop :=
  ∀ c, s.shown = some (c, none) → (s.load c).order.updateTotals db = .ok (s.load c).order

theorem appear_showsTotals (h : s.appear db c = .ok s') : ShowsTotals db s' := by
  obtain ⟨q, hq, rfl⟩ := App.appear_ok h
  intro c' hshown
  cases hshown
  show ((s.store c q).load c).order.updateTotals db = .ok ((s.store c q).load c).order
  rw [App.load_store]
  exact Orders.updateTotals_idempotent (QuickServe.viewWillAppear_order hq)

/-- What is done on the screen keeps its totals. -/
theorem ShowsTotals.select (h : ShowsTotals db s) {modifiers : Option QuickModifierController}
    (hshown : s.shown = some (c, modifiers)) {e : SelectEvent} {next : Selecting}
    (hnext : selectStep db ⟨s.load c, modifiers⟩ e = .ok next) :
    ShowsTotals db { s.store c next.screen with shown := some (c, next.modifiers) } := by
  intro c' hshown'
  obtain ⟨rfl, closed⟩ := Prod.mk.inj (Option.some.inj hshown')
  have stored : App.load { s.store c next.screen with shown := some (c, next.modifiers) } c =
      next.screen := App.load_store
  rw [stored]
  refine selectStep_totals hnext closed fun none => h c ?_
  rw [hshown]
  exact congrArg (fun m => some (c, m)) none

/-- **Every way to the QuickServe screen computes the totals**, and what is done on
it keeps them. -/
theorem appStep_showsTotals {e : AppEvent} (h : ShowsTotals db s) (hstep : appStep db s e = .ok s') :
    ShowsTotals db s' := by
  cases hshown : s.shown with
  | none =>
    cases e with
    | pickTable row =>
      simp only [appStep, hshown] at hstep
      obtain ⟨tableNum, -, hstep⟩ := bind_eq_ok.mp hstep
      exact appear_showsTotals hstep
    | reopenTable t =>
      simp only [appStep, hshown, App.reopenTable] at hstep
      split at hstep
      · exact appear_showsTotals hstep
      · cases hstep
        exact h
    | onlyQuickServe =>
      simp only [appStep, hshown] at hstep
      exact appear_showsTotals hstep
    | leave => simp only [appStep, hshown] at hstep; cases hstep; exact h
    | onScreen e => simp only [appStep, hshown] at hstep; cases hstep; exact h
    | payAndReturn => simp only [appStep, hshown] at hstep; cases hstep; exact h
  | some shown =>
    obtain ⟨c, modifiers⟩ := shown
    cases e with
    | pickTable row => simp only [appStep, hshown] at hstep; cases hstep; exact h
    | reopenTable t => simp only [appStep, hshown] at hstep; cases hstep; exact h
    | onlyQuickServe => simp only [appStep, hshown] at hstep; cases hstep; exact h
    | leave =>
      cases modifiers with
      | none =>
        simp only [appStep, hshown] at hstep
        cases hstep
        intro c' hshown'
        cases hshown'
      | some open' => simp only [appStep, hshown] at hstep; cases hstep; exact h
    | onScreen e =>
      simp only [appStep, hshown] at hstep
      obtain ⟨next, hnext, hstep⟩ := bind_eq_ok.mp hstep
      cases hstep
      exact h.select hshown hnext
    | payAndReturn =>
      cases modifiers with
      | none =>
        simp only [appStep, hshown] at hstep
        exact appear_showsTotals hstep
      | some open' => simp only [appStep, hshown] at hstep; cases hstep; exact h

theorem ShowsTotals.of_samePrices (prices : SamePrices db db') :
    ShowsTotals db' s ↔ ShowsTotals db s := by
  simp only [ShowsTotals, Orders.updateTotals_of_samePrices prices]

end Fresh

/-- What every event keeps: the Payment screen has the order of the QuickServe
screen below it, and that order has its totals. -/
structure PayInvariant (db : DatabaseAccess) (s : Paying) : Prop where
  totals : ShowsTotals db s.app
  payment : ∀ p, s.payment = some p →
    ∃ c, s.app.shown = some (c, none) ∧ (s.app.controllers.get c).shared = p

section Runs

variable {db db' : DatabaseAccess} {s s' : Paying} {e : PayEvent}

theorem payInvariant_init (listOfTables : List String) : PayInvariant db (.init listOfTables) where
  totals := fun _ hshown => by cases hshown
  payment := fun _ hpayment => by cases hpayment

theorem PayInvariant.showsFresh (h : PayInvariant db s) : ShowsFresh db s := by
  have fresh : ∀ c, s.app.shown = some (c, none) → (s.app.load c).order.Fresh db :=
    fun c hshown => ⟨_, h.totals c hshown, rfl, rfl⟩
  refine ⟨fresh, fun p hpayment => ?_⟩
  obtain ⟨c, hshown, rfl⟩ := h.payment p hpayment
  exact fresh c hshown

/-- **Every event keeps the invariant**, over any database with the same prices. -/
theorem PayInvariant.step (h : PayInvariant db s) (prices : SamePrices db db')
    (hstep : payStep db' s e = .ok s') : PayInvariant db s' := by
  have totals : ShowsTotals db' s.app := (ShowsTotals.of_samePrices prices).mpr h.totals
  unfold payStep at hstep
  split at hstep
  · cases e with
    | app e =>
      obtain ⟨app, happ, hstep⟩ := bind_eq_ok.mp hstep
      cases hstep
      refine ⟨(ShowsTotals.of_samePrices prices).mp (appStep_showsTotals totals happ), ?_⟩
      intro p hpayment
      cases hpayment
    | payNow =>
      dsimp only at hstep
      split at hstep
      · rename_i c hshown
        cases hstep
        refine ⟨h.totals, fun p hpayment => ?_⟩
        cases hpayment
        exact ⟨c, hshown, rfl⟩
      · cases hstep
        exact h
    | didSelectRow row => cases hstep; exact h
    | back => cases hstep; exact h
  · cases e with
    | app e => cases hstep; exact h
    | payNow => cases hstep; exact h
    | didSelectRow row =>
      obtain ⟨choice, -, hstep⟩ := bind_eq_ok.mp hstep
      cases hstep
      exact h
    | back =>
      dsimp only at hstep
      split at hstep
      · obtain ⟨app, happears, hstep⟩ := bind_eq_ok.mp hstep
        cases hstep
        refine ⟨(ShowsTotals.of_samePrices prices).mp (appear_showsTotals happears), ?_⟩
        intro p hpayment
        cases hpayment
      · cases hstep
        exact h

/-- **Main result.** Along every run over databases that charge the same, the
totals on the QuickServe screen and on the Payment screen are fresh. -/
theorem totals_fresh (db : DatabaseAccess) (listOfTables : List String)
    (events : List (DatabaseAccess × PayEvent)) (prices : ∀ e ∈ events, SamePrices db e.1) :
    Always (fun s e => payStep e.1 s e.2) (ShowsFresh db) (.init listOfTables) events := by
  have samePrices : EachStep (fun s (e : DatabaseAccess × PayEvent) => payStep e.1 s e.2)
      (fun _ e => SamePrices db e.1) (.init listOfTables) events :=
    eachStep_of_forall fun _ e he => prices e he
  exact always_of_eachStep (fun _ _ _ h same hstep => h.step same hstep)
    (fun _ h => h.showsFresh) (payInvariant_init listOfTables) samePrices

/-- A tea with its extra is ordered at a table and paid for; then the table is
opened again. -/
def orderAndPay : List PayEvent :=
  [.app (.pickTable 0), .app (.onScreen (.tap 0)), .app (.onScreen (.tap 0)),
    .app (.onScreen .openModifiers), .app (.onScreen (.toggle 0 0 true)),
    .app (.onScreen .closeModifiers), .payNow, .didSelectRow 0, .back, .app .leave,
    .app (.reopenTable 1), .payNow]

theorem totals_fresh_orderAndPay :
    Always (fun s e => payStep e.1 s e.2) (ShowsFresh teaWithExtra)
      (.init HomeViewController.listOfTables) (orderAndPay.map fun e => (teaWithExtra, e)) :=
  totals_fresh teaWithExtra HomeViewController.listOfTables _ fun e he => by
    obtain ⟨_, -, rfl⟩ := List.mem_map.mp he
    exact SamePrices.refl teaWithExtra

/-- That run ends on the Payment screen, with the order of the table. -/
example : (run (payStep teaWithExtra) (.init HomeViewController.listOfTables) orderAndPay).map
    (fun s => (s.payment, s.app.shown.isSome)) = .ok (some 0, true) := by
  decide +kernel

end Runs

end PointIPad
