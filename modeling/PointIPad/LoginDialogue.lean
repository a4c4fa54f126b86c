import PointIPad.ClockOutcome

/-!
The screens of a login, one above the other.

The table of choices opens the list of employees for a choice, and a row of the list
either performs the action or opens an alert that asks for the password. A wrong
password, or Cancel, leaves the list. The two choices for breaks do nothing.

**Main results.** What the lists at home and the database come to be is the same
as with one event for an action, in every run (`dialogue_reaches_iff`). Whoever is
clocked in or logged in has been asked for a password, and it was their own
(`entered_by_password`).
-/

namespace PointIPad

open Transition

/-! ### The screens -/

def loginChoices : List String :=
  ["Login", "Logout", "Clock In", "Clock Out", "Break Start", "Break End"]

/-- The choice that a text stands for, if it is implemented. -/
def LoginOption.ofText (text : String) : Option LoginOption :=
  if text = "Login" then some .login
  else if text = "Logout" then some .logout
  else if text = "Clock In" then some .clockIn
  else if text = "Clock Out" then some .clockOut
  else none

/-- What is on top of the home screen. -/
inductive LoginScreen where
  | home
  | loginTable
  /-- The list for a choice, and the employee whose password the alert asks for. -/
  | employeeList (whatLoginOption : LoginOption) (asking : Option Addr)
deriving DecidableEq

structure LoginDialogue where
  clock : TimeClock
  screen : LoginScreen

inductive DialogueEvent where
  | loginSegue
  | pickLoginChoice (row : Nat)
  | didSelectRow (row : Nat) (now : Int)
  | clickedButton (buttonIndex : Nat) (passwordEntered : String) (now : Int)
  | back
deriving DecidableEq

/-- Who an employee is, and how they show it. -/
def Employee.credentials (e : Employee) : String × String := (e.empId, e.password)

def EmployeeRow.credentials (row : EmployeeRow) : String × String := (row.employeeId, row.password)

namespace LoginDialogue

def init (database : Payroll) : LoginDialogue := ⟨.init database, .home⟩

/-- The row of a list that is `nil` is `nil`; the login screens never show one. -/
def rows (s : LoginDialogue) (whatLoginOption : LoginOption) : List Addr :=
  s.clock.listToDisplay (s.clock.allEmployees.getD []) whatLoginOption

/-- `sendDataBackToRoot`, and back to the home screen. -/
def sendDataBackToRoot (s : LoginDialogue) (whatLoginOption : LoginOption) (currentEmployee : Addr)
    (now : Int) (outcome : SqlOutcome) : LoginDialogue where
  clock := { s.clock.addOrRemoveEmployeeFromList whatLoginOption currentEmployee now outcome with
    allEmployees := none }
  screen := .home

end LoginDialogue

/-- One event. Behind the alert nothing can be touched, and a screen that is not on top
has no events. -/
def dialogueStep (s : LoginDialogue) :
    DialogueEvent × SqlOutcome → Except NSException LoginDialogue
  | (e, outcome) =>
    match s.screen, e with
    | .home, .loginSegue => .ok ⟨s.clock.loginSegue, .loginTable⟩
    | .loginTable, .pickLoginChoice row => do
      let pickedLoginOption ← objectAtIndex loginChoices row
      .ok (match LoginOption.ofText pickedLoginOption with
        | some whatLoginOption => { s with screen := .employeeList whatLoginOption none }
        | none => s)
    | .loginTable, .back => .ok ⟨{ s.clock with allEmployees := none }, .home⟩
    | .employeeList whatLoginOption none, .didSelectRow row now => do
      let currentEmployee ← objectAtIndex (s.rows whatLoginOption) row
      .ok (if whatLoginOption.entersPassword then
          { s with screen := .employeeList whatLoginOption (some currentEmployee) }
        else s.sendDataBackToRoot whatLoginOption currentEmployee now outcome)
    | .employeeList _ none, .back => .ok { s with screen := .loginTable }
    | .employeeList whatLoginOption (some currentEmployee),
        .clickedButton buttonIndex passwordEntered now =>
      .ok (if buttonIndex = 1
          ∧ passwordEntered = (s.clock.employees.get currentEmployee).password then
          s.sendDataBackToRoot whatLoginOption currentEmployee now outcome
        else { s with screen := .employeeList whatLoginOption none })
    | _, _ => .ok s

/-! ### What a step does -/

namespace LoginDialogue

variable {s s' : LoginDialogue} {outcome : SqlOutcome}

/-- The clock of a step, and what made it. -/
inductive DialogueMove (s : LoginDialogue) (outcome : SqlOutcome) :
    DialogueEvent → LoginDialogue → Prop
  | read (home : s.screen = .home) :
      DialogueMove s outcome .loginSegue ⟨s.clock.loginSegue, .loginTable⟩
  | leave (top : s.screen = .loginTable) :
      DialogueMove s outcome .back ⟨{ s.clock with allEmployees := none }, .home⟩
  /-- Another screen comes on top, without an alert. -/
  | turn {e : DialogueEvent} {screen : LoginScreen} (away : s.screen ≠ .home)
      (later : screen = .loginTable ∨ ∃ option, screen = .employeeList option none) :
      DialogueMove s outcome e ⟨s.clock, screen⟩
  | ask {row : Nat} {now : Int} {option : LoginOption} {p : Addr}
      (top : s.screen = .employeeList option none) (picked : (s.rows option)[row]? = some p)
      (asks : option.entersPassword = true) :
      DialogueMove s outcome (.didSelectRow row now) ⟨s.clock, .employeeList option (some p)⟩
  | pick {row : Nat} {now : Int} {option : LoginOption} {p : Addr}
      (top : s.screen = .employeeList option none) (picked : (s.rows option)[row]? = some p)
      (plain : option.entersPassword = false) :
      DialogueMove s outcome (.didSelectRow row now) (s.sendDataBackToRoot option p now outcome)
  | answer {now : Int} {option : LoginOption} {p : Addr}
      (top : s.screen = .employeeList option (some p)) :
      DialogueMove s outcome (.clickedButton 1 (s.clock.employees.get p).password now)
        (s.sendDataBackToRoot option p now outcome)
  | stay {e : DialogueEvent} : DialogueMove s outcome e s

theorem dialogueStep_moves {e : DialogueEvent} (hstep : dialogueStep s (e, outcome) = .ok s') :
    DialogueMove s outcome e s' := by
  unfold dialogueStep at hstep
  dsimp only at hstep
  split at hstep
  · rename_i home
    cases hstep
    exact .read home
  · rename_i row top
    obtain ⟨text, -, hstep⟩ := bind_eq_ok.mp hstep
    cases hstep
    split
    · exact .turn (by rw [top]; exact LoginScreen.noConfusion) (.inr ⟨_, rfl⟩)
    · exact .stay
  · rename_i top
    cases hstep
    exact .leave top
  · rename_i option row now top
    obtain ⟨p, picked, hstep⟩ := bind_eq_ok.mp hstep
    cases hstep
    split
    · rename_i asks
      exact .ask top (objectAtIndex_eq_ok.mp picked) asks
    · rename_i plain
      exact .pick top (objectAtIndex_eq_ok.mp picked) (Bool.eq_false_of_not_eq_true plain)
  · rename_i option top
    cases hstep
    exact .turn (by rw [top]; exact LoginScreen.noConfusion) (.inl rfl)
  · rename_i option p buttonIndex passwordEntered now top
    cases hstep
    split
    · rename_i right
      obtain ⟨rfl, rfl⟩ := right
      exact .answer top
    · exact .turn (by rw [top]; exact LoginScreen.noConfusion) (.inr ⟨_, rfl⟩)
  · cases hstep
    exact .stay

/-! ### One event for an action -/

/-- The home screen is on top when no employees are read, and an alert is for an
employee of the list. -/
structure Consistent (s : LoginDialogue) : Prop where
  home : s.screen = .home ↔ s.clock.allEmployees = none
  asked : ∀ {option : LoginOption} {p : Addr}, s.screen = .employeeList option (some p) →
    option.entersPassword = true ∧ ∃ row : Nat, (s.rows option)[row]? = some p

theorem consistent_init (database : Payroll) : (init database).Consistent where
  home := ⟨fun _ => rfl, fun _ => rfl⟩
  asked := fun h => by cases h

theorem consistent_home {clock : TimeClock} (none : clock.allEmployees = none) :
    Consistent ⟨clock, .home⟩ where
  home := ⟨fun _ => none, fun _ => rfl⟩
  asked := fun h => by cases h

/-- The row that is picked, with the password if one is asked for, is the one selected. -/
theorem Consistent.selected (h : s.Consistent) {option : LoginOption} {row : Nat} {p : Addr}
    {passwordEntered : String} (away : s.screen ≠ .home) (picked : (s.rows option)[row]? = some p)
    (right : option.entersPassword = false ∨
      passwordEntered = (s.clock.employees.get p).password) :
    s.clock.selected option row passwordEntered = some p := by
  obtain ⟨allEmployees, hall⟩ := Option.ne_none_iff_exists'.mp (mt h.home.mpr away)
  rw [rows, hall, Option.getD_some] at picked
  rw [TimeClock.selected, hall, Option.bind_some, picked, Option.filter_some, if_pos]
  rcases right with plain | same
  · rw [plain]
    rfl
  · rw [decide_eq_true same, Bool.or_true]

/-- An action of the screens is an action of the clock, by one event. -/
theorem Consistent.sendDataBackToRoot (h : s.Consistent) {option : LoginOption} {row : Nat}
    {p : Addr} {now : Int} {passwordEntered : String} (away : s.screen ≠ .home)
    (picked : (s.rows option)[row]? = some p)
    (right : option.entersPassword = false ∨
      passwordEntered = (s.clock.employees.get p).password) :
    clockStep s.clock (.didSelectRow option row passwordEntered now, outcome) =
      .ok (s.sendDataBackToRoot option p now outcome).clock := by
  rw [clockStep, h.selected away picked right]
  rfl

/-- **Step lemma.** A step keeps the screens consistent, and its clock is that of no event
or of one. -/
theorem Consistent.move (h : s.Consistent) {e : DialogueEvent}
    (move : DialogueMove s outcome e s') :
    s'.Consistent ∧
      (s'.clock = s.clock ∨ ∃ event, clockStep s.clock (event, outcome) = .ok s'.clock) := by
  cases move with
  | read home =>
    refine ⟨⟨?_, fun h => by cases h⟩, .inr ⟨.loginSegue, ?_⟩⟩
    · constructor <;> intro h <;> cases h
    · rw [clockStep, if_pos (by rw [h.home.mp home]; rfl)]
  | leave top => exact ⟨consistent_home rfl, .inr ⟨.back, rfl⟩⟩
  | @turn _ screen away later =>
    refine ⟨⟨?_, ?_⟩, .inl rfl⟩
    · have open' : s.clock.allEmployees ≠ none := mt h.home.mpr away
      have away' : screen ≠ .home := by
        rcases later with rfl | ⟨option, rfl⟩ <;> exact LoginScreen.noConfusion
      exact ⟨fun home => absurd home away', fun none => absurd none open'⟩
    · intro option p asked
      rcases later with rfl | ⟨option', rfl⟩ <;> cases asked
  | @ask row now option p top picked asks =>
    refine ⟨⟨?_, ?_⟩, .inl rfl⟩
    · have open' : s.clock.allEmployees ≠ none :=
        mt h.home.mpr (by rw [top]; exact LoginScreen.noConfusion)
      exact ⟨fun home => (by cases home), fun none => absurd none open'⟩
    · intro option' q asked
      cases asked
      exact ⟨asks, row, picked⟩
  | pick top picked plain =>
    exact ⟨consistent_home rfl, .inr ⟨.didSelectRow _ _ "" _, h.sendDataBackToRoot
      (by rw [top]; exact LoginScreen.noConfusion) picked (.inl plain)⟩⟩
  | answer top =>
    obtain ⟨-, row, picked⟩ := h.asked top
    exact ⟨consistent_home rfl, .inr ⟨_, h.sendDataBackToRoot
      (by rw [top]; exact LoginScreen.noConfusion) picked (.inr rfl)⟩⟩
  | stay => exact ⟨h, .inl rfl⟩

/-- The clock of a dialogue is one that single events reach. -/
theorem clock_reached (database : Payroll) {events : List (DialogueEvent × SqlOutcome)}
    (hrun : run dialogueStep (init database) events = .ok s) :
    s.Consistent ∧ ∃ actions, run clockStep (.init database) actions = .ok s.clock := by
  refine run_invariant (I := fun s => s.Consistent ∧
    ∃ actions, run clockStep (.init database) actions = .ok s.clock) ?_
    ⟨consistent_init database, [], rfl⟩ hrun
  rintro s ⟨e, outcome⟩ s' ⟨h, actions, hactions⟩ hstep
  obtain ⟨h', same | ⟨event, hevent⟩⟩ := h.move (dialogueStep_moves hstep)
  · exact ⟨h', actions, same ▸ hactions⟩
  · exact ⟨h', actions ++ [(event, outcome)], run_snoc_ok.mpr ⟨s.clock, hactions, hevent⟩⟩

/-- The row of a choice in the table. -/
def choiceRow : LoginOption → Nat
  | .login => 0
  | .logout => 1
  | .clockIn => 2
  | .clockOut => 3

theorem pick_choiceRow {clock : TimeClock} (option : LoginOption) :
    dialogueStep ⟨clock, .loginTable⟩ (.pickLoginChoice (choiceRow option), outcome) =
      .ok ⟨clock, .employeeList option none⟩ := by
  cases option <;> rfl

/-- What an event for an action does is done over the screens. -/
theorem perform {clock : TimeClock} {option : LoginOption} {row : Nat} {passwordEntered : String}
    {now : Int} {p : Addr} (selected : clock.selected option row passwordEntered = some p) :
    ∃ events, run dialogueStep ⟨clock, .loginTable⟩ events = .ok
      ⟨{ clock.addOrRemoveEmployeeFromList option p now outcome with allEmployees := none },
        .home⟩ := by
  obtain ⟨allEmployees, hall, hrow⟩ := Option.bind_eq_some_iff.mp selected
  obtain ⟨hrow, right⟩ := Option.filter_eq_some_iff.mp hrow
  have picked : objectAtIndex (rows ⟨clock, .employeeList option none⟩ option) row = .ok p := by
    rw [objectAtIndex_eq_ok, rows, hall]
    exact hrow
  have list : dialogueStep ⟨clock, .loginTable⟩ (.pickLoginChoice (choiceRow option), outcome) =
      .ok ⟨clock, .employeeList option none⟩ := pick_choiceRow option
  cases asks : option.entersPassword with
  | false =>
    have done : dialogueStep ⟨clock, .employeeList option none⟩ (.didSelectRow row now, outcome) =
        .ok (sendDataBackToRoot ⟨clock, .employeeList option none⟩ option p now outcome) := by
      show objectAtIndex _ row >>= _ = _
      rw [picked, ok_bind, asks, if_neg Bool.false_ne_true]
    exact ⟨[(.pickLoginChoice (choiceRow option), outcome), (.didSelectRow row now, outcome)],
      run_cons_ok.mpr ⟨_, list, run_cons_ok.mpr ⟨_, done, rfl⟩⟩⟩
  | true =>
    have asked : dialogueStep ⟨clock, .employeeList option none⟩
        (.didSelectRow row now, outcome) = .ok ⟨clock, .employeeList option (some p)⟩ := by
      show objectAtIndex _ row >>= _ = _
      rw [picked, ok_bind, asks, if_pos rfl]
    have same : passwordEntered = (clock.employees.get p).password := by
      rw [asks, Bool.not_true, Bool.false_or] at right
      exact of_decide_eq_true right
    have done : dialogueStep ⟨clock, .employeeList option (some p)⟩
        (.clickedButton 1 passwordEntered now, outcome) =
        .ok (sendDataBackToRoot ⟨clock, .employeeList option (some p)⟩ option p now outcome) := by
      show Except.ok _ = _
      rw [if_pos ⟨rfl, same⟩]
    exact ⟨[(.pickLoginChoice (choiceRow option), outcome), (.didSelectRow row now, outcome),
      (.clickedButton 1 passwordEntered now, outcome)],
      run_cons_ok.mpr ⟨_, list, run_cons_ok.mpr ⟨_, asked, run_cons_ok.mpr ⟨_, done, rfl⟩⟩⟩⟩

/-- The screen between two actions. -/
def restingScreen (clock : TimeClock) : LoginScreen :=
  if clock.allEmployees.isNone then .home else .loginTable

/-- **Step lemma.** A single event is made up of events of the screens. -/
theorem screens_perform {clock clock' : TimeClock} {e : ClockEvent × SqlOutcome}
    (hstep : clockStep clock e = .ok clock') :
    ∃ events, run dialogueStep ⟨clock, restingScreen clock⟩ events =
      .ok ⟨clock', restingScreen clock'⟩ := by
  obtain ⟨e, outcome⟩ := e
  cases hall : clock.allEmployees with
  | none =>
    have resting : restingScreen clock = .home := by rw [restingScreen, hall]; rfl
    cases e with
    | loginSegue =>
      rw [clockStep, hall, Option.isNone_none, if_pos rfl] at hstep
      cases hstep
      refine ⟨[(.loginSegue, outcome)], ?_⟩
      rw [resting]
      rfl
    | back =>
      have same : { clock with allEmployees := none } = clock := by rw [← hall]
      rw [clockStep, same] at hstep
      cases hstep
      exact ⟨[], rfl⟩
    | didSelectRow option row passwordEntered now =>
      rw [clockStep, TimeClock.selected, hall] at hstep
      cases hstep
      exact ⟨[], rfl⟩
  | some allEmployees =>
    have resting : restingScreen clock = .loginTable := by rw [restingScreen, hall]; rfl
    cases e with
    | loginSegue =>
      rw [clockStep, hall] at hstep
      cases hstep
      exact ⟨[], rfl⟩
    | back =>
      cases hstep
      refine ⟨[(.back, outcome)], ?_⟩
      rw [resting]
      rfl
    | didSelectRow option row passwordEntered now =>
      rw [clockStep] at hstep
      split at hstep
      · rename_i p selected
        cases hstep
        rw [resting]
        exact perform selected
      · cases hstep
        exact ⟨[], rfl⟩

/-- **Main result.** From the start of the app, whatever the SQL commands do: what the home
screen's lists, the employees and the database can come to be over the screens is what
they can come to be by single events. -/
theorem dialogue_reaches_iff (database : Payroll) (clock : TimeClock) :
    (∃ events s, run dialogueStep (init database) events = .ok s ∧ s.clock = clock) ↔
      ∃ events, run clockStep (.init database) events = .ok clock := by
  constructor
  · rintro ⟨events, s, hrun, rfl⟩
    exact (clock_reached database hrun).2
  · rintro ⟨events, hrun⟩
    have resting : ∃ events, run dialogueStep (init database) events =
        .ok ⟨clock, restingScreen clock⟩ := by
      refine run_invariant (I := fun clock => ∃ events, run dialogueStep (init database) events =
        .ok ⟨clock, restingScreen clock⟩) ?_ ⟨[], rfl⟩ hrun
      rintro clock e clock' ⟨before, hbefore⟩ hstep
      obtain ⟨after, hafter⟩ := screens_perform hstep
      exact ⟨before ++ after, run_append_ok.mpr ⟨_, hbefore, hafter⟩⟩
    obtain ⟨events, hevents⟩ := resting
    exact ⟨events, _, hevents, rfl⟩

/-! ### Passwords -/

/-- In the course of the events, the password of the employee was asked for, and the text
was the answer. -/
def Asked (database : Payroll) (events : List (DialogueEvent × SqlOutcome))
    (whatLoginOption : LoginOption) (p : Addr) (text : String) : Prop :=
  ∃ before now outcome after t, events = before ++ (.clickedButton 1 text now, outcome) :: after ∧
    run dialogueStep (init database) before = .ok t ∧
    t.screen = .employeeList whatLoginOption (some p)

variable {database : Payroll} {events : List (DialogueEvent × SqlOutcome)}

theorem Asked.snoc {option : LoginOption} {p : Addr} {text : String}
    (h : Asked database events option p text) (e : DialogueEvent × SqlOutcome) :
    Asked database (events ++ [e]) option p text := by
  obtain ⟨before, now, outcome, after, t, rfl, hrun, top⟩ := h
  exact ⟨before, now, outcome, after ++ [e], t, by rw [List.append_assoc]; rfl, hrun, top⟩

/-- The ids and passwords of the table stay, and each object has those of a row. Whoever is
on a list at home was asked for the password. -/
structure PasswordInvariant (database : Payroll) (events : List (DialogueEvent × SqlOutcome))
    (s : LoginDialogue) : Prop where
  table : s.clock.database.tblEmployee.map EmployeeRow.credentials =
    database.tblEmployee.map EmployeeRow.credentials
  objects : ∀ p < s.clock.employees.next,
    (s.clock.employees.get p).credentials ∈ database.tblEmployee.map EmployeeRow.credentials
  offered : ∀ option, ∀ p ∈ s.rows option, p < s.clock.employees.next
  clockedIn : ∀ p ∈ s.clock.clockedInEmployees,
    Asked database events .clockIn p (s.clock.employees.get p).password
  loggedIn : ∀ p ∈ s.clock.loggedInEmployee,
    Asked database events .login p (s.clock.employees.get p).password

theorem passwordInvariant_init (database : Payroll) :
    PasswordInvariant database [] (init database) where
  table := rfl
  objects := fun p hp => absurd hp (Nat.not_lt_zero p)
  offered := fun option p hp => by cases option <;> cases hp
  clockedIn := fun _ h => by cases h
  loggedIn := fun _ h => by cases h

theorem credentials_setStatus (db : Payroll) (succeeds : Bool) (empId : String) :
    (db.setStatus succeeds empId).tblEmployee.map EmployeeRow.credentials =
      db.tblEmployee.map EmployeeRow.credentials := by
  unfold Payroll.setStatus
  split
  · rw [List.map_map]
    refine congrArg (db.tblEmployee.map ·) (funext fun row => ?_)
    show EmployeeRow.credentials (if row.employeeId = empId then _ else row) = _
    split <;> rfl
  · rfl

theorem credentials_clearStatus (db : Payroll) (succeeds : Bool) (empId : String) :
    (db.clearStatus succeeds empId).tblEmployee.map EmployeeRow.credentials =
      db.tblEmployee.map EmployeeRow.credentials := by
  unfold Payroll.clearStatus
  split
  · rw [List.map_map]
    refine congrArg (db.tblEmployee.map ·) (funext fun row => ?_)
    show EmployeeRow.credentials (if row.employeeId = empId then _ else row) = _
    split <;> rfl
  · rfl

/-- An action changes neither an id nor a password of the table. -/
theorem credentials_action (clock : TimeClock) (option : LoginOption) (p : Addr) (now : Int) :
    (clock.addOrRemoveEmployeeFromList option p now outcome).database.tblEmployee.map
      EmployeeRow.credentials = clock.database.tblEmployee.map EmployeeRow.credentials := by
  cases option with
  | clockIn => exact (credentials_setStatus _ _ _).trans (by rw [Payroll.insertSalary_tblEmployee])
  | clockOut =>
    exact (credentials_clearStatus _ _ _).trans (by rw [Payroll.updateSalary_tblEmployee])
  | login => rfl
  | logout => rfl

theorem credentials_get_action (clock : TimeClock) (option : LoginOption) (p q : Addr) (now : Int) :
    ((clock.addOrRemoveEmployeeFromList option p now outcome).employees.get q).credentials =
      (clock.employees.get q).credentials := by
  cases option with
  | clockIn =>
    show ((clock.employees.set p { clock.employees.get p with clockInTime := some now }).get
      q).credentials = _
    by_cases same : q = p
    · rw [same, Heap.get_set_self]
      rfl
    · rw [Heap.get_set_of_ne same]
  | login => rfl
  | logout => rfl
  | clockOut => rfl

theorem password_get_action (clock : TimeClock) (option : LoginOption) (p q : Addr) (now : Int) :
    ((clock.addOrRemoveEmployeeFromList option p now outcome).employees.get q).password =
      (clock.employees.get q).password :=
  congrArg Prod.snd (credentials_get_action clock option p q now)

/-- An action is done for an employee who was asked, if it puts them on a list. -/
theorem PasswordInvariant.action {option : LoginOption} {p : Addr} {now : Int}
    {e : DialogueEvent × SqlOutcome} (h : PasswordInvariant database events s)
    (mem : p ∈ s.rows option)
    (asked : option.entersPassword = true →
      Asked database (events ++ [e]) option p (s.clock.employees.get p).password) :
    PasswordInvariant database (events ++ [e]) (s.sendDataBackToRoot option p now outcome) := by
  have hp := h.offered option p mem
  have next : (s.sendDataBackToRoot option p now outcome).clock.employees.next =
      s.clock.employees.next := TimeClock.next_addOrRemoveEmployeeFromList option
  have password (q : Addr) :
      ((s.sendDataBackToRoot option p now outcome).clock.employees.get q).password =
        (s.clock.employees.get q).password := password_get_action s.clock option p q now
  have clockedIn : ∀ q ∈ (s.sendDataBackToRoot option p now outcome).clock.clockedInEmployees,
      q ∈ s.clock.clockedInEmployees ∨ q = p ∧ option = .clockIn := by
    intro q hq
    cases option with
    | clockIn =>
      rcases List.mem_append.mp hq with old | new
      · exact .inl old
      · exact .inr ⟨List.mem_singleton.mp new, rfl⟩
    | clockOut => exact .inl (List.mem_of_mem_filter hq)
    | login => exact .inl hq
    | logout => exact .inl hq
  have loggedIn : ∀ q ∈ (s.sendDataBackToRoot option p now outcome).clock.loggedInEmployee,
      q ∈ s.clock.loggedInEmployee ∨ q = p ∧ option = .login := by
    intro q hq
    cases option with
    | login =>
      rcases List.mem_append.mp hq with old | new
      · exact .inl (List.mem_of_mem_dropLast old)
      · exact .inr ⟨List.mem_singleton.mp new, rfl⟩
    | logout => exact .inl (List.mem_of_mem_dropLast hq)
    | clockIn => exact .inl hq
    | clockOut => exact .inl hq
  refine ⟨(credentials_action _ _ _ _).trans h.table, ?_, ?_, ?_, ?_⟩
  · intro q hq
    rw [next] at hq
    exact (credentials_get_action s.clock option p q now) ▸ h.objects q hq
  · intro option' q hq
    rw [next]
    have clockedIn_lt (mem : q ∈ (s.sendDataBackToRoot option p now outcome).clock.clockedInEmployees) :
        q < s.clock.employees.next := by
      rcases clockedIn q mem with old | ⟨rfl, -⟩
      · exact h.offered .login q old
      · exact hp
    cases option' with
    | login => exact clockedIn_lt hq
    | clockOut => exact clockedIn_lt hq
    | logout =>
      rcases loggedIn q hq with old | ⟨rfl, -⟩
      · exact h.offered .logout q old
      · exact hp
    | clockIn => cases hq
  · intro q hq
    rw [password]
    rcases clockedIn q hq with old | ⟨rfl, rfl⟩
    · exact (h.clockedIn q old).snoc e
    · exact asked rfl
  · intro q hq
    rw [password]
    rcases loggedIn q hq with old | ⟨rfl, rfl⟩
    · exact (h.loggedIn q old).snoc e
    · exact asked rfl

/-- Screens that come and go, or employees that are forgotten. -/
theorem PasswordInvariant.keep {screen : LoginScreen} {e : DialogueEvent × SqlOutcome}
    (h : PasswordInvariant database events s) (allEmployees : Option (List Addr))
    (fewer : allEmployees = none ∨ allEmployees = s.clock.allEmployees) :
    PasswordInvariant database (events ++ [e])
      ⟨{ s.clock with allEmployees := allEmployees }, screen⟩ where
  table := h.table
  objects := h.objects
  offered := fun option q hq => by
    cases option with
    | login => exact h.offered .login q hq
    | logout => exact h.offered .logout q hq
    | clockOut => exact h.offered .clockOut q hq
    | clockIn =>
      rcases fewer with rfl | rfl
      · cases hq
      · exact h.offered .clockIn q hq
  clockedIn := fun q hq => (h.clockedIn q hq).snoc e
  loggedIn := fun q hq => (h.loggedIn q hq).snoc e

/-- New objects for the rows of the table. -/
theorem PasswordInvariant.loginSegue {screen : LoginScreen} {e : DialogueEvent × SqlOutcome}
    (h : PasswordInvariant database events s) :
    PasswordInvariant database (events ++ [e]) ⟨s.clock.loginSegue, screen⟩ := by
  have next : s.clock.loginSegue.employees.next =
      s.clock.employees.next + s.clock.database.employeesFromDatabase.length :=
    Heap.next_allocList _ _
  have old {q : Addr} (hq : q < s.clock.employees.next) :
      s.clock.loginSegue.employees.get q = s.clock.employees.get q :=
    Heap.get_allocList_of_lt _ hq
  have later {q : Addr} (hq : q < s.clock.employees.next) :
      q < s.clock.loginSegue.employees.next := by
    rw [next]
    exact Nat.lt_add_right _ hq
  refine ⟨h.table, ?_, ?_, ?_, ?_⟩
  · intro q hq
    rw [next] at hq
    rcases Nat.lt_or_ge q s.clock.employees.next with used | new
    · rw [old used]
      exact h.objects q used
    · have made : s.clock.loginSegue.employees.get q ∈ s.clock.database.employeesFromDatabase :=
        Heap.get_allocList_mem _ new hq
      obtain ⟨row, hrow, hmade⟩ := List.mem_map.mp made
      rw [← hmade, ← h.table]
      exact List.mem_map_of_mem hrow
  · intro option q hq
    cases option with
    | login => exact later (h.offered .login q hq)
    | logout => exact later (h.offered .logout q hq)
    | clockOut => exact later (h.offered .clockOut q hq)
    | clockIn =>
      rw [next]
      exact (List.mem_range'_1.mp hq).2
  · intro q hq
    rw [old (h.offered .login q hq)]
    exact (h.clockedIn q hq).snoc e
  · intro q hq
    rw [old (h.offered .logout q hq)]
    exact (h.loggedIn q hq).snoc e

/-- **Step lemma.** -/
theorem PasswordInvariant.step {e : DialogueEvent × SqlOutcome} (consistent : s.Consistent)
    (hrun : run dialogueStep (init database) events = .ok s)
    (h : PasswordInvariant database events s) (hstep : dialogueStep s e = .ok s') :
    PasswordInvariant database (events ++ [e]) s' := by
  obtain ⟨event, outcome⟩ := e
  cases dialogueStep_moves hstep with
  | read => exact h.loginSegue
  | leave => exact h.keep none (.inl rfl)
  | turn => exact h.keep _ (.inr rfl)
  | ask => exact h.keep _ (.inr rfl)
  | stay => exact h.keep _ (.inr rfl)
  | pick top picked plain =>
    apply h.action (List.mem_of_getElem? picked)
    intro asks
    rw [plain] at asks
    cases asks
  | @answer now option p top =>
    obtain ⟨-, row, picked⟩ := consistent.asked top
    apply h.action (List.mem_of_getElem? picked)
    intro _
    exact ⟨events, now, outcome, [], s, rfl, hrun, top⟩

theorem passwordInvariant_run (database : Payroll) (events : List (DialogueEvent × SqlOutcome))
    (hrun : run dialogueStep (init database) events = .ok s) :
    PasswordInvariant database events s := by
  induction events using List.reverseRecOn generalizing s with
  | nil =>
    cases hrun
    exact passwordInvariant_init database
  | append_singleton events e ih =>
    obtain ⟨t, hbefore, hstep⟩ := run_snoc_ok.mp hrun
    exact (ih hbefore).step (clock_reached database hbefore).1 hbefore hstep

/-- **Main result.** Along every run of the login screens, whatever the SQL commands do:
whoever is clocked in, and whoever is logged in, has been asked for the password that the
table has for their id, and has entered it. -/
theorem entered_by_password (database : Payroll) (events : List (DialogueEvent × SqlOutcome))
    (s : LoginDialogue) (hrun : run dialogueStep (init database) events = .ok s) :
    (∀ p ∈ s.clock.clockedInEmployees, ∃ row ∈ database.tblEmployee,
      row.employeeId = s.clock.empId p ∧ Asked database events .clockIn p row.password) ∧
    (∀ p ∈ s.clock.loggedInEmployee, ∃ row ∈ database.tblEmployee,
      row.employeeId = s.clock.empId p ∧ Asked database events .login p row.password) := by
  have h := passwordInvariant_run database events hrun
  have row {p : Addr} (used : p < s.clock.employees.next) : ∃ row ∈ database.tblEmployee,
      row.employeeId = s.clock.empId p ∧ row.password = (s.clock.employees.get p).password := by
    obtain ⟨row, hrow, same⟩ := List.mem_map.mp (h.objects p used)
    exact ⟨row, hrow, congrArg Prod.fst same, congrArg Prod.snd same⟩
  constructor
  · intro p hp
    obtain ⟨row, hrow, hid, hpassword⟩ := row (h.offered .login p hp)
    exact ⟨row, hrow, hid, hpassword ▸ h.clockedIn p hp⟩
  · intro p hp
    obtain ⟨row, hrow, hid, hpassword⟩ := row (h.offered .logout p hp)
    exact ⟨row, hrow, hid, hpassword ▸ h.loggedIn p hp⟩

/-- A wrong password, and the right one. -/
def secondTry : List (DialogueEvent × SqlOutcome) :=
  [.loginSegue, .pickLoginChoice 2, .didSelectRow 0 10, .clickedButton 1 "PW" 11, .didSelectRow 0 12,
    .clickedButton 1 "pw" 13].map (·, .succeed)

theorem entered_by_password_secondTry :
    ∃ s, run dialogueStep (init TimeClock.oneEmployee) secondTry = .ok s ∧
      s.clock.clockedInEmployees = [0] ∧
      (∀ p ∈ s.clock.clockedInEmployees, ∃ row ∈ TimeClock.oneEmployee.tblEmployee,
        row.employeeId = s.clock.empId p ∧
          Asked TimeClock.oneEmployee secondTry .clockIn p row.password) ∧
      (∀ p ∈ s.clock.loggedInEmployee, ∃ row ∈ TimeClock.oneEmployee.tblEmployee,
        row.employeeId = s.clock.empId p ∧
          Asked TimeClock.oneEmployee secondTry .login p row.password) :=
  ⟨_, rfl, rfl, entered_by_password _ _ _ rfl⟩

end LoginDialogue

end PointIPad
