import PointIPad.Payroll

/-!
Clock In and Clock Out when SQL commands fail.

Both actions change the list of clocked-in employees in memory and issue one
command for each of two tables. The commands run on their own, and a failed one
returns what a successful one returns.

**Main result.** An action is reflected by the list, whatever happens, and by
each table exactly as its own command went: as a whole, or not at all
(`actions_reflected`). A table is never changed in part, but the three do not
change together.
-/

namespace PointIPad

open Transition

/-- Whether a clock action starts a shift. -/
def LoginOption.starts : LoginOption → Option Bool
  | .clockIn => some true
  | .clockOut => some false
  | .login => none
  | .logout => none

/-! ### Commands -/

namespace Payroll

/-- A row is opened, or every open row of the employee is closed; the other rows
stay. -/
def SalaryReflects (starts : Bool) (empId : String) (now : Int) (rows rows' : List SalaryRow) :
    Prop :=
  if starts then rows' = rows ++ [⟨empId, now, none, none⟩]
  else List.Forall₂ (fun row row' =>
    if IsOpen empId row then
      row'.employeeId = row.employeeId ∧ row'.clockIn = row.clockIn ∧ row'.clockOut = some now
    else row' = row) rows rows'

/-- The rows of the employee get the status; the other rows stay. -/
def StatusReflects (starts : Bool) (empId : String) (rows rows' : List EmployeeRow) : Prop :=
  List.Forall₂ (fun row row' =>
    if row.employeeId = empId then row'.employeeId = empId ∧ row'.status = starts
    else row' = row) rows rows'

variable {db : Payroll} {rows : List EmployeeRow} {succeeds : Bool} {empId : String} {now : Int}
variable {hrs : NSNumber}

@[simp] theorem insertSalary_tblEmployee :
    (db.insertSalary succeeds empId now).tblEmployee = db.tblEmployee := by
  unfold insertSalary
  split <;> rfl

@[simp] theorem updateSalary_tblEmployee :
    (db.updateSalary succeeds empId now hrs).tblEmployee = db.tblEmployee := by
  unfold updateSalary
  split <;> rfl

theorem salaryReflects_insertSalary :
    SalaryReflects true empId now db.tblSalary (db.insertSalary true empId now).tblSalary := rfl

theorem salaryReflects_updateSalary :
    SalaryReflects false empId now db.tblSalary (db.updateSalary true empId now hrs).tblSalary := by
  rw [updateSalary_tblSalary, SalaryReflects, if_neg Bool.false_ne_true]
  refine List.forall₂_map_right_iff.mpr (List.forall₂_same.mpr fun row _ => ?_)
  split
  · exact ⟨rfl, rfl, rfl⟩
  · rfl

theorem statusReflects_setStatus (same : db.tblEmployee = rows) :
    StatusReflects true empId rows (db.setStatus true empId).tblEmployee := by
  subst same
  refine List.forall₂_map_right_iff.mpr (List.forall₂_same.mpr fun row _ => ?_)
  split
  · rename_i empId_eq
    exact ⟨empId_eq, rfl⟩
  · rfl

theorem statusReflects_clearStatus (same : db.tblEmployee = rows) :
    StatusReflects false empId rows (db.clearStatus true empId).tblEmployee := by
  subst same
  refine List.forall₂_map_right_iff.mpr (List.forall₂_same.mpr fun row _ => ?_)
  split
  · rename_i empId_eq
    exact ⟨empId_eq, rfl⟩
  · rfl

end Payroll

/-! ### Actions -/

namespace TimeClock

/-- The id is on the list once more, or once less. -/
def ListReflects (starts : Bool) (empId : String) (s s' : TimeClock) : Prop :=
  ∀ x, if starts then
      s'.clockedInIds.count x = s.clockedInIds.count x + if x = empId then 1 else 0
    else s.clockedInIds.count x = s'.clockedInIds.count x + if x = empId then 1 else 0

/-- A clock action changes all three, or none. -/
def AllOrNothing (s : TimeClock) (e : ClockEvent × SqlOutcome) : Prop :=
  ∀ loginOption starts p now s', s.performs e.1 = some (loginOption, p, now) →
    loginOption.starts = some starts → clockStep s e = .ok s' →
    (ListReflects starts (s.empId p) s s' ∧
      Payroll.SalaryReflects starts (s.empId p) now s.database.tblSalary s'.database.tblSalary ∧
      Payroll.StatusReflects starts (s.empId p) s.database.tblEmployee s'.database.tblEmployee) ∨
    (s'.clockedInEmployees = s.clockedInEmployees ∧
      s'.database.tblSalary = s.database.tblSalary ∧
      s'.database.tblEmployee.map (·.status) = s.database.tblEmployee.map (·.status))

/-- A clock action changes the list, and each table whose command succeeds. -/
def ActionReflected (s : TimeClock) (e : ClockEvent × SqlOutcome) : Prop :=
  ∀ loginOption starts p now s', s.performs e.1 = some (loginOption, p, now) →
    loginOption.starts = some starts → clockStep s e = .ok s' →
    ListReflects starts (s.empId p) s s' ∧
    (if e.2.salary then
      Payroll.SalaryReflects starts (s.empId p) now s.database.tblSalary s'.database.tblSalary
    else s'.database.tblSalary = s.database.tblSalary) ∧
    (if e.2.employee then
      Payroll.StatusReflects starts (s.empId p) s.database.tblEmployee s'.database.tblEmployee
    else s'.database.tblEmployee = s.database.tblEmployee)

variable {s s' : TimeClock} {p : Addr} {now : Int} {outcome : SqlOutcome}

theorem listReflects_clockIn :
    ListReflects true (s.empId p) s
      { s.addOrRemoveEmployeeFromList .clockIn p now outcome with allEmployees := none } := by
  intro x
  rw [if_pos rfl, clockedInIds_clockIn, List.count_append, List.count_singleton]
  simp only [beq_iff_eq, eq_comm (a := x)]

/-- A Clock Out takes one object off the list. -/
theorem listReflects_clockOut (h : s.WellFormed) (mem : p ∈ s.clockedInEmployees) :
    ListReflects false (s.empId p) s
      { s.addOrRemoveEmployeeFromList .clockOut p now outcome with allEmployees := none } := by
  intro x
  have removed : removeObjectIdenticalTo s.clockedInEmployees p = s.clockedInEmployees.erase p := by
    rw [h.clockedIn_nodup.erase_eq_filter]
    refine List.filter_congr fun q _ => Bool.eq_iff_iff.mpr ?_
    simp
  have counts := ((List.perm_cons_erase mem).map s.empId).count_eq x
  rw [List.map_cons, List.count_cons] at counts
  rw [if_neg Bool.false_ne_true]
  show (s.clockedInEmployees.map s.empId).count x =
    ((removeObjectIdenticalTo s.clockedInEmployees p).map
      (s.addOrRemoveEmployeeFromList .clockOut p now outcome).empId).count x + _
  rw [empId_addOrRemoveEmployeeFromList, removed, counts]
  simp only [beq_iff_eq, eq_comm (a := x)]

theorem database_clockIn : (s.addOrRemoveEmployeeFromList .clockIn p now outcome).database =
    (s.database.insertSalary outcome.salary (s.empId p) now).setStatus outcome.employee
      (s.empId p) := rfl

theorem database_clockOut : (s.addOrRemoveEmployeeFromList .clockOut p now outcome).database =
    (s.database.updateSalary outcome.salary (s.empId p) now
      (sixDecimals (timeBetweenDate (s.employees.get p).clockInTime now / SECONDS_IN_HOURS))).clearStatus
      outcome.employee (s.empId p) := rfl

theorem WellFormed.actionReflected (h : s.WellFormed) (e : ClockEvent × SqlOutcome) :
    s.ActionReflected e := by
  intro loginOption starts p now s' performed hstarts hstep
  obtain ⟨event, salary, employee⟩ := e
  have after := (clockStep_performs performed).symm.trans hstep
  obtain ⟨allEmployees, -, hp⟩ := mem_of_performs performed
  have database : s'.database =
      (s.addOrRemoveEmployeeFromList loginOption p now ⟨salary, employee⟩).database := by
    cases after
    rfl
  cases loginOption with
  | login => cases hstarts
  | logout => cases hstarts
  | clockIn =>
    cases hstarts
    rw [database, database_clockIn]
    refine ⟨?_, ?_, ?_⟩
    · cases after
      exact listReflects_clockIn
    · rw [Payroll.setStatus_tblSalary]
      cases salary
      · rfl
      · exact Payroll.salaryReflects_insertSalary
    · cases employee
      · exact Payroll.insertSalary_tblEmployee
      · exact Payroll.statusReflects_setStatus Payroll.insertSalary_tblEmployee
  | clockOut =>
    cases hstarts
    rw [database, database_clockOut]
    refine ⟨?_, ?_, ?_⟩
    · cases after
      exact listReflects_clockOut h hp
    · rw [Payroll.clearStatus_tblSalary]
      cases salary
      · rfl
      · exact Payroll.salaryReflects_updateSalary
    · cases employee
      · exact Payroll.updateSalary_tblEmployee
      · exact Payroll.statusReflects_clearStatus Payroll.updateSalary_tblEmployee

/-- **Main result.** In every state that the login screens reach, and whatever the
commands do: the list reflects every Clock In and Clock Out, and each table
reflects it if its command succeeds and stays as it was if not. -/
theorem actions_reflected (database : Payroll) (events : List (ClockEvent × SqlOutcome)) :
    EachStep clockStep ActionReflected (.init database) events :=
  eachStep_of_invariant (fun _ _ _ h hstep => h.step hstep) (fun _ e h => h.actionReflected e)
    (wellFormed_init database)

/-- A Clock In of which only the second command succeeds. -/
theorem actions_half_done :
    ¬ EachStep clockStep AllOrNothing (.init oneEmployee)
      [(.loginSegue, .succeed), (.didSelectRow .clockIn 0 "pw" 0, ⟨false, true⟩)] := by
  intro each
  obtain ⟨-, rest⟩ := each
  obtain ⟨second, -⟩ := rest _ rfl
  have performed : (init oneEmployee).loginSegue.performs (.didSelectRow .clockIn 0 "pw" 0) =
      some (.clockIn, 0, 0) := by
    decide
  rcases second _ true _ _ _ performed rfl (clockStep_performs performed) with
    ⟨-, salary, -⟩ | ⟨list, -, -⟩
  · cases salary
  · cases list

end TimeClock

end PointIPad
