import PointIPad.Foundation
import PointIPad.Lib.Heap

/-!
The login screens: Login, Logout, Clock In and Clock Out.

The home screen holds the list of clocked-in employees, the logged-in employee
as a list of at most one, and a flag. Employees are objects: each visit of the
login screens reads all employees again and makes new objects for them, and an
object is removed from a list by identity. Clock In and Clock Out each issue two
SQL commands, of which each may fail on its own; nobody looks at the results.

Times are whole seconds, as in the strings that the app writes. An employee id
is its text: the server prints it, and it is sent back as it was received.
-/

namespace PointIPad

open Transition

/-! ### The database -/

/-- A row of `TBL_EMPLOYEE`, its names and password as `asString` reads them. -/
structure EmployeeRow where
  fname : String
  lname : String
  password : String
  employeeId : String
  status : Bool
  driverStatus : Bool
  breakStatus : Bool
deriving DecidableEq

/-- A row of `TBL_SALARY`. -/
structure SalaryRow where
  employeeId : String
  clockIn : Int
  clockOut : Option Int
  hrs : Option NSNumber
deriving DecidableEq

structure Payroll where
  tblEmployee : List EmployeeRow
  tblSalary : List SalaryRow
deriving DecidableEq

structure Employee where
  fname : String
  lname : String
  fullname : String
  password : String
  empId : String
  clockInTime : Option Int
deriving DecidableEq

/-- Which of the two commands of an action succeed. -/
structure SqlOutcome where
  salary : Bool
  employee : Bool
deriving DecidableEq

def SqlOutcome.succeed : SqlOutcome := ⟨true, true⟩

namespace Payroll

def employeesFromDatabase (db : Payroll) : List Employee :=
  db.tblEmployee.map fun row =>
    { fname := row.fname
      lname := row.lname
      fullname := row.fname ++ " " ++ row.lname
      password := row.password
      empId := row.employeeId
      clockInTime := none }

/-- The rows with `EMPLOYEE_ID=empId AND CLOCK_OUT IS NULL`. -/
def IsOpen (empId : String) (row : SalaryRow) : Prop :=
  row.employeeId = empId ∧ row.clockOut = none

instance (empId : String) (row : SalaryRow) : Decidable (IsOpen empId row) :=
  inferInstanceAs (Decidable (_ ∧ _))

/-- `insert into tbl_salary`; a failed command changes nothing. -/
def insertSalary (db : Payroll) (succeeds : Bool) (empId : String) (clockIn : Int) : Payroll :=
  if succeeds then { db with tblSalary := db.tblSalary ++ [⟨empId, clockIn, none, none⟩] } else db

/-- `UPDATE TBL_SALARY SET CLOCK_OUT, HRS`. -/
def updateSalary (db : Payroll) (succeeds : Bool) (empId : String) (clockOut : Int)
    (hrs : NSNumber) : Payroll :=
  if succeeds then { db with
    tblSalary := db.tblSalary.map fun row =>
      if IsOpen empId row then { row with clockOut := some clockOut, hrs := some hrs } else row }
  else db

/-- `UPDATE TBL_EMPLOYEE SET STATUS = TRUE, DRIVER_STATUS=TRUE`. -/
def setStatus (db : Payroll) (succeeds : Bool) (empId : String) : Payroll :=
  if succeeds then { db with
    tblEmployee := db.tblEmployee.map fun row =>
      if row.employeeId = empId then { row with status := true, driverStatus := true } else row }
  else db

/-- `UPDATE TBL_EMPLOYEE SET STATUS=FALSE, driver_status=FALSE, break_status=false`. -/
def clearStatus (db : Payroll) (succeeds : Bool) (empId : String) : Payroll :=
  if succeeds then { db with
    tblEmployee := db.tblEmployee.map fun row =>
      if row.employeeId = empId then
        { row with status := false, driverStatus := false, breakStatus := false }
      else row }
  else db

end Payroll

/-- The difference of two times. The first is `nil` for an employee that was never
clocked in. -/
def timeBetweenDate (firstDate : Option Int) (secondDate : Int) : Int :=
  secondDate - firstDate.getD 0

def SECONDS_IN_HOURS : NSNumber := 3600

/-! ### The screens -/

inductive LoginOption where
  | login
  | logout
  | clockIn
  | clockOut
deriving DecidableEq

/-- Login and Clock In ask for the password of the employee. -/
def LoginOption.entersPassword : LoginOption → Bool
  | .login => true
  | .clockIn => true
  | .logout => false
  | .clockOut => false

/-- The home screen's lists, and the employees that the open login screen has read. -/
structure TimeClock where
  employees : Heap Employee
  allEmployees : Option (List Addr)
  clockedInEmployees : List Addr
  loggedInEmployee : List Addr
  isLoggedIn : Bool
  database : Payroll

/-- `removeObjectIdenticalTo:` removes every reference to an object. -/
def removeObjectIdenticalTo (a : List Addr) (p : Addr) : List Addr := a.filter (· ≠ p)

namespace TimeClock

def init (database : Payroll) : TimeClock where
  employees := .empty ⟨"", "", "", "", "", none⟩
  allEmployees := none
  clockedInEmployees := []
  loggedInEmployee := []
  isLoggedIn := false
  database := database

def empId (s : TimeClock) (p : Addr) : String := (s.employees.get p).empId

/-- `prepareForSegue:` of the home screen, for `loginSegue`: all employees are read
into new objects. -/
def loginSegue (s : TimeClock) : TimeClock :=
  let read := s.database.employeesFromDatabase
  { s with
    employees := s.employees.allocList read
    allEmployees := some (List.range' s.employees.next read.length) }

def insertClockIn (s : TimeClock) (employee : Addr) (now : Int) (outcome : SqlOutcome) : TimeClock :=
  { s with
    employees := s.employees.set employee
      { s.employees.get employee with clockInTime := some now }
    database := (s.database.insertSalary outcome.salary (s.empId employee) now).setStatus
      outcome.employee (s.empId employee) }

def insertClockOut (s : TimeClock) (employee : Addr) (now : Int) (outcome : SqlOutcome) :
    TimeClock :=
  let timeDiff := timeBetweenDate (s.employees.get employee).clockInTime now
  -- `%f` prints six decimals
  let timeDiffInHours := sixDecimals (timeDiff / SECONDS_IN_HOURS)
  { s with
    database := (s.database.updateSalary outcome.salary (s.empId employee) now
      timeDiffInHours).clearStatus outcome.employee (s.empId employee) }

/-- The list that `viewDidLoad` of the employee list shows. -/
def listToDisplay (s : TimeClock) (allEmployees : List Addr) : LoginOption → List Addr
  | .login => s.clockedInEmployees
  | .logout => s.loggedInEmployee
  | .clockIn => allEmployees
  | .clockOut => s.clockedInEmployees

def addOrRemoveEmployeeFromList (s : TimeClock) (loginOption : LoginOption) (currentEmployee : Addr)
    (now : Int) (outcome : SqlOutcome) : TimeClock :=
  match loginOption with
  | .login => { s with
      isLoggedIn := true
      loggedInEmployee := removeLastObject s.loggedInEmployee ++ [currentEmployee] }
  | .clockIn =>
    insertClockIn { s with clockedInEmployees := s.clockedInEmployees ++ [currentEmployee] }
      currentEmployee now outcome
  | .logout => { s with
      isLoggedIn := false
      loggedInEmployee := removeLastObject s.loggedInEmployee }
  | .clockOut =>
    insertClockOut { s with
      clockedInEmployees := removeObjectIdenticalTo s.clockedInEmployees currentEmployee }
      currentEmployee now outcome

/-- The employee of a row, once the password is right where one is asked for. -/
def selected (s : TimeClock) (loginOption : LoginOption) (row : Nat) (passwordEntered : String) :
    Option Addr :=
  s.allEmployees.bind fun allEmployees =>
    (s.listToDisplay allEmployees loginOption)[row]?.filter fun p =>
      !loginOption.entersPassword || passwordEntered = (s.employees.get p).password

end TimeClock

inductive ClockEvent where
  | loginSegue
  | back
  | didSelectRow (loginOption : LoginOption) (row : Nat) (passwordEntered : String) (now : Int)
deriving DecidableEq

/-- One event, with the outcome of its SQL commands. An action ends at the home
screen; a wrong password, or what is not offered, does nothing. -/
def clockStep (s : TimeClock) : ClockEvent × SqlOutcome → Except NSException TimeClock
  | (.loginSegue, _) => .ok (if s.allEmployees.isNone then s.loginSegue else s)
  | (.back, _) => .ok { s with allEmployees := none }
  | (.didSelectRow loginOption row passwordEntered now, outcome) =>
    match s.selected loginOption row passwordEntered with
    | some currentEmployee => .ok
        { s.addOrRemoveEmployeeFromList loginOption currentEmployee now outcome with
          allEmployees := none }
    | none => .ok s

/-- The action that an event performs, its employee, and the time. -/
def TimeClock.performs (s : TimeClock) : ClockEvent → Option (LoginOption × Addr × Int)
  | .didSelectRow loginOption row passwordEntered now =>
    (s.selected loginOption row passwordEntered).map fun p => (loginOption, p, now)
  | _ => none

/-- One event, of which all commands succeed. -/
def succeedingStep (s : TimeClock) (e : ClockEvent) : Except NSException TimeClock :=
  clockStep s (e, .succeed)

/-! ### What actions change -/

namespace TimeClock

variable {s s' : TimeClock} {p q : Addr} {now : Int} {outcome : SqlOutcome}

/-- An action keeps the objects but for the time of a Clock In. -/
theorem empId_addOrRemoveEmployeeFromList (loginOption : LoginOption) :
    (s.addOrRemoveEmployeeFromList loginOption p now outcome).empId = s.empId := by
  funext q
  cases loginOption with
  | clockIn =>
    show ((s.employees.set p { s.employees.get p with clockInTime := some now }).get q).empId = _
    by_cases same : q = p
    · rw [same, Heap.get_set_self]
      rfl
    · rw [Heap.get_set_of_ne same]
      rfl
  | login => rfl
  | logout => rfl
  | clockOut => rfl

theorem next_addOrRemoveEmployeeFromList (loginOption : LoginOption) :
    (s.addOrRemoveEmployeeFromList loginOption p now outcome).employees.next = s.employees.next := by
  cases loginOption <;> rfl

theorem mem_of_selected {loginOption : LoginOption} {row : Nat} {passwordEntered : String}
    (h : s.selected loginOption row passwordEntered = some p) :
    ∃ allEmployees, s.allEmployees = some allEmployees ∧
      p ∈ s.listToDisplay allEmployees loginOption := by
  obtain ⟨allEmployees, hall, hrow⟩ := Option.bind_eq_some_iff.mp h
  obtain ⟨hrow, -⟩ := Option.filter_eq_some_iff.mp hrow
  exact ⟨allEmployees, hall, List.mem_of_getElem? hrow⟩

theorem mem_of_performs {e : ClockEvent} {loginOption : LoginOption}
    (h : s.performs e = some (loginOption, p, now)) :
    ∃ allEmployees, s.allEmployees = some allEmployees ∧
      p ∈ s.listToDisplay allEmployees loginOption := by
  cases e with
  | loginSegue => cases h
  | back => cases h
  | didSelectRow option row passwordEntered time =>
    obtain ⟨q, selected, hq⟩ := Option.map_eq_some_iff.mp h
    cases hq
    exact mem_of_selected selected

/-- What a step does. -/
inductive ClockMove (s : TimeClock) (outcome : SqlOutcome) : ClockEvent → TimeClock → Prop
  | act {e : ClockEvent} {loginOption : LoginOption} {p : Addr} {now : Int}
      (performed : s.performs e = some (loginOption, p, now)) :
      ClockMove s outcome e
        { s.addOrRemoveEmployeeFromList loginOption p now outcome with allEmployees := none }
  | read : ClockMove s outcome .loginSegue s.loginSegue
  | back : ClockMove s outcome .back { s with allEmployees := none }
  | stay {e : ClockEvent} (nothing : s.performs e = none) : ClockMove s outcome e s

theorem clockStep_moves {e : ClockEvent} (hstep : clockStep s (e, outcome) = .ok s') :
    ClockMove s outcome e s' := by
  cases e with
  | loginSegue =>
    rw [clockStep] at hstep
    cases hstep
    split
    · exact .read
    · exact .stay rfl
  | back =>
    cases hstep
    exact .back
  | didSelectRow loginOption row passwordEntered now =>
    rw [clockStep] at hstep
    split at hstep
    · rename_i p selected
      cases hstep
      exact .act (by rw [performs, selected]; rfl)
    · rename_i nobody
      cases hstep
      exact .stay (by rw [performs, nobody]; rfl)

/-- An event that performs an action takes it. -/
theorem clockStep_performs {e : ClockEvent} {loginOption : LoginOption}
    (performed : s.performs e = some (loginOption, p, now)) :
    clockStep s (e, outcome) = .ok
      { s.addOrRemoveEmployeeFromList loginOption p now outcome with allEmployees := none } := by
  cases e with
  | loginSegue => cases performed
  | back => cases performed
  | didSelectRow option row passwordEntered time =>
    obtain ⟨q, selected, hq⟩ := Option.map_eq_some_iff.mp performed
    cases hq
    rw [clockStep, selected]

/-- What every step keeps of the objects: those in use stay, and those just read
are new. -/
structure WellFormed (s : TimeClock) : Prop where
  clockedIn_lt : ∀ p ∈ s.clockedInEmployees, p < s.employees.next
  clockedIn_nodup : s.clockedInEmployees.Nodup
  read_lt : ∀ allEmployees ∈ s.allEmployees, ∀ p ∈ allEmployees, p < s.employees.next
  read_new : ∀ allEmployees ∈ s.allEmployees, ∀ p ∈ allEmployees, p ∉ s.clockedInEmployees

theorem wellFormed_init (database : Payroll) : (init database).WellFormed where
  clockedIn_lt := fun _ h => by cases h
  clockedIn_nodup := List.nodup_nil
  read_lt := fun _ h => by cases h
  read_new := fun _ h => by cases h

theorem WellFormed.loginSegue (h : s.WellFormed) : s.loginSegue.WellFormed where
  clockedIn_lt := fun p hp => by
    show p < (s.employees.allocList _).next
    rw [Heap.next_allocList]
    exact Nat.lt_add_right _ (h.clockedIn_lt p hp)
  clockedIn_nodup := h.clockedIn_nodup
  read_lt := fun allEmployees hall p hp => by
    cases hall
    show p < (s.employees.allocList _).next
    rw [Heap.next_allocList]
    exact (List.mem_range'_1.mp hp).2
  read_new := fun allEmployees hall p hp hold => by
    cases hall
    have new := (List.mem_range'_1.mp hp).1
    exact Nat.not_lt_of_ge new (h.clockedIn_lt p hold)

/-- The ids of the objects in use do not change when others are made. -/
theorem empId_loginSegue (used : p < s.employees.next) : s.loginSegue.empId p = s.empId p := by
  show ((s.employees.allocList _).get p).empId = _
  rw [Heap.get_allocList_of_lt _ used]
  rfl

theorem WellFormed.action (h : s.WellFormed) {e : ClockEvent} {loginOption : LoginOption}
    (performed : s.performs e = some (loginOption, p, now)) (outcome : SqlOutcome) :
    WellFormed { s.addOrRemoveEmployeeFromList loginOption p now outcome with
      allEmployees := none } := by
  obtain ⟨allEmployees, hall, hp⟩ := mem_of_performs performed
  have lists : ∀ q ∈ (s.addOrRemoveEmployeeFromList loginOption p now outcome).clockedInEmployees,
      q < s.employees.next := by
    intro q hq
    cases loginOption with
    | login => exact h.clockedIn_lt q hq
    | logout => exact h.clockedIn_lt q hq
    | clockOut => exact h.clockedIn_lt q (List.mem_of_mem_filter hq)
    | clockIn =>
      rcases List.mem_append.mp hq with hq | hq
      · exact h.clockedIn_lt q hq
      · rw [List.mem_singleton.mp hq]
        exact h.read_lt allEmployees hall p hp
  have nodup : (s.addOrRemoveEmployeeFromList loginOption p now outcome).clockedInEmployees.Nodup := by
    cases loginOption with
    | login => exact h.clockedIn_nodup
    | logout => exact h.clockedIn_nodup
    | clockOut => exact h.clockedIn_nodup.filter _
    | clockIn =>
      have new := h.read_new allEmployees hall p hp
      exact List.nodup_append.mpr ⟨h.clockedIn_nodup, List.nodup_singleton p,
        fun a ha b hb hab => new (List.mem_singleton.mp hb ▸ hab ▸ ha)⟩
  refine ⟨fun q hq => ?_, nodup, fun _ hnone => (by cases hnone), fun _ hnone => (by cases hnone)⟩
  show q < (s.addOrRemoveEmployeeFromList loginOption p now outcome).employees.next
  rw [next_addOrRemoveEmployeeFromList]
  exact lists q hq

/-- **Every step keeps the objects well formed**, whatever the commands do. -/
theorem WellFormed.step (h : s.WellFormed) {e : ClockEvent × SqlOutcome}
    (hstep : clockStep s e = .ok s') : s'.WellFormed := by
  obtain ⟨event, outcome⟩ := e
  cases clockStep_moves hstep with
  | act performed => exact h.action performed outcome
  | read => exact h.loginSegue
  | back =>
    exact ⟨h.clockedIn_lt, h.clockedIn_nodup, fun _ hnone => (by cases hnone),
      fun _ hnone => (by cases hnone)⟩
  | stay => exact h

end TimeClock

end PointIPad
