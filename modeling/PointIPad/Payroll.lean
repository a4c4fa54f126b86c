import PointIPad.TimeClock

/-!
The time clock and the payroll table.

Clock In offers every employee, clocked in or not, and knows objects; the SQL
commands know employee ids. A second Clock In of an employee opens a second row,
and the next Clock Out closes both with the hours of one of them.

**Main results.** The list of clocked-in employees agrees with the open rows
along a run exactly when nobody clocks in twice (`clock_ins_agree_iff`). The
hours of every closed row are those of its own times exactly when every Clock Out
is of an object that holds the times of the rows it closes, after a whole number
of nine seconds (`hours_paid_iff`).
-/

namespace PointIPad

open Transition

namespace Payroll

/-- The open rows of an employee. -/
def openRows (db : Payroll) (empId : String) : List SalaryRow :=
  db.tblSalary.filter fun row => IsOpen empId row

section Commands

variable {db : Payroll} {empId x : String} {now : Int} {hrs : NSNumber} {succeeds : Bool}

@[simp] theorem setStatus_tblSalary : (db.setStatus succeeds empId).tblSalary = db.tblSalary := by
  unfold setStatus
  split <;> rfl

@[simp] theorem clearStatus_tblSalary :
    (db.clearStatus succeeds empId).tblSalary = db.tblSalary := by
  unfold clearStatus
  split <;> rfl

theorem insertSalary_tblSalary :
    (db.insertSalary true empId now).tblSalary = db.tblSalary ++ [⟨empId, now, none, none⟩] := rfl

theorem updateSalary_tblSalary :
    (db.updateSalary true empId now hrs).tblSalary = db.tblSalary.map fun row =>
      if IsOpen empId row then { row with clockOut := some now, hrs := some hrs } else row := rfl

@[simp] theorem openRows_setStatus : (db.setStatus succeeds empId).openRows x = db.openRows x := by
  rw [openRows, setStatus_tblSalary, openRows]

@[simp] theorem openRows_clearStatus :
    (db.clearStatus succeeds empId).openRows x = db.openRows x := by
  rw [openRows, clearStatus_tblSalary, openRows]

/-- A row is opened for one employee. -/
theorem openRows_insertSalary :
    (db.insertSalary true empId now).openRows x =
      db.openRows x ++ if x = empId then [⟨empId, now, none, none⟩] else [] := by
  rw [openRows, insertSalary_tblSalary, List.filter_append, openRows]
  congr 1
  by_cases same : x = empId
  · simp [same, IsOpen]
  · have other : ¬ IsOpen x ⟨empId, now, none, none⟩ := fun h => same h.1.symm
    simp [same, other]

/-- All open rows of one employee are closed. -/
theorem openRows_updateSalary :
    (db.updateSalary true empId now hrs).openRows x =
      if x = empId then [] else db.openRows x := by
  rw [openRows, updateSalary_tblSalary, openRows]
  induction db.tblSalary with
  | nil => simp
  | cons row rows ih =>
    rw [List.map_cons, List.filter_cons, List.filter_cons, ih]
    by_cases same : x = empId
    · by_cases hopen : IsOpen empId row
      · have closed : ¬ IsOpen x { row with clockOut := some now, hrs := some hrs } :=
          fun h => by cases h.2
        simp [same, hopen]
        exact fun h => by cases h.2
      · simp [same, hopen]
    · by_cases hopen : IsOpen empId row
      · have other : ¬ IsOpen x row := fun h => same (h.1.symm.trans hopen.1)
        have closed : ¬ IsOpen x { row with clockOut := some now, hrs := some hrs } :=
          fun h => by cases h.2
        simp [same, hopen, other, closed]
      · simp [same, hopen]

end Commands

end Payroll

/-! ### Lists and open rows -/

namespace TimeClock

/-- The payroll table after a Clock In. -/
theorem tblSalary_clockIn (s : TimeClock) (p : Addr) (now : Int) :
    (s.addOrRemoveEmployeeFromList .clockIn p now .succeed).database.tblSalary =
      s.database.tblSalary ++ [⟨s.empId p, now, none, none⟩] :=
  Payroll.setStatus_tblSalary

/-- The payroll table after a Clock Out. -/
theorem tblSalary_clockOut (s : TimeClock) (p : Addr) (now : Int) :
    (s.addOrRemoveEmployeeFromList .clockOut p now .succeed).database.tblSalary =
      s.database.tblSalary.map fun row =>
        if Payroll.IsOpen (s.empId p) row then { row with
          clockOut := some now
          hrs := some (sixDecimals ((timeBetweenDate (s.employees.get p).clockInTime now) /
            SECONDS_IN_HOURS)) }
        else row :=
  Payroll.clearStatus_tblSalary

def clockedInIds (s : TimeClock) : List String := s.clockedInEmployees.map s.empId

/-- The list and the table agree. -/
structure ClockInsAgree (s : TimeClock) : Prop where
  nodup : s.clockedInIds.Nodup
  mem_iff : ∀ empId, empId ∈ s.clockedInIds ↔ (s.database.openRows empId).length = 1

/-- A Clock In is of an employee that is not clocked in. -/
def ClocksInOnce (s : TimeClock) (e : ClockEvent) : Prop :=
  match s.performs e with
  | some (.clockIn, p, _) => s.empId p ∉ s.clockedInIds
  | _ => True

instance (s : TimeClock) (e : ClockEvent) : Decidable (s.ClocksInOnce e) := by
  unfold ClocksInOnce
  split <;> infer_instance

/-- Everybody on the list has one open row, and nobody else has one. -/
structure ClockInvariant (s : TimeClock) : Prop where
  wellFormed : s.WellFormed
  nodup : s.clockedInIds.Nodup
  openRows : ∀ empId, (s.database.openRows empId).length = if empId ∈ s.clockedInIds then 1 else 0

section Agreement

variable {s s' : TimeClock} {e : ClockEvent} {p : Addr} {now : Int}

theorem ClockInvariant.agree (h : ClockInvariant s) : ClockInsAgree s := by
  refine ⟨h.nodup, fun empId => ?_⟩
  rw [h.openRows]
  split <;> simp_all

theorem clockedInIds_loginSegue (h : s.WellFormed) :
    s.loginSegue.clockedInIds = s.clockedInIds :=
  List.map_congr_left fun p hp => empId_loginSegue (h.clockedIn_lt p hp)

/-- The ids after a Clock In. -/
theorem clockedInIds_clockIn {outcome : SqlOutcome} :
    clockedInIds { s.addOrRemoveEmployeeFromList .clockIn p now outcome with allEmployees := none } =
      s.clockedInIds ++ [s.empId p] := by
  show (s.clockedInEmployees ++ [p]).map
    (s.addOrRemoveEmployeeFromList .clockIn p now outcome).empId = _
  rw [empId_addOrRemoveEmployeeFromList]
  exact List.map_append

/-- The ids after a Clock Out. Among different ids, one leaves the list. -/
theorem mem_clockedInIds_clockOut (nodup : s.clockedInIds.Nodup) (mem : p ∈ s.clockedInEmployees)
    (empId : String) :
    empId ∈ (removeObjectIdenticalTo s.clockedInEmployees p).map s.empId ↔
      empId ∈ s.clockedInIds ∧ empId ≠ s.empId p := by
  constructor
  · intro hmem
    obtain ⟨q, hq, rfl⟩ := List.mem_map.mp hmem
    obtain ⟨hq, hne⟩ := List.mem_filter.mp hq
    refine ⟨List.mem_map_of_mem hq, fun same => ?_⟩
    exact of_decide_eq_true hne (List.inj_on_of_nodup_map nodup hq mem same)
  · rintro ⟨hmem, hne⟩
    obtain ⟨q, hq, rfl⟩ := List.mem_map.mp hmem
    have other : q ≠ p := fun same => hne (same ▸ rfl)
    exact List.mem_map_of_mem (List.mem_filter.mpr ⟨hq, decide_eq_true other⟩)

/-- An action of an employee that is not clocked in, or is clocked out. -/
theorem ClockInvariant.action (h : ClockInvariant s) {loginOption : LoginOption}
    (performed : s.performs e = some (loginOption, p, now))
    (once : loginOption = .clockIn → s.empId p ∉ s.clockedInIds) :
    ClockInvariant { s.addOrRemoveEmployeeFromList loginOption p now .succeed with
      allEmployees := none } := by
  have wellFormed := h.wellFormed.action performed .succeed
  obtain ⟨allEmployees, -, hp⟩ := mem_of_performs performed
  cases loginOption with
  | login => exact ⟨wellFormed, h.nodup, h.openRows⟩
  | logout => exact ⟨wellFormed, h.nodup, h.openRows⟩
  | clockIn =>
    have new := once rfl
    refine ⟨wellFormed, ?_, fun empId => ?_⟩
    · rw [clockedInIds_clockIn]
      exact List.nodup_append.mpr ⟨h.nodup, List.nodup_singleton _,
        fun a ha b hb hab => new (List.mem_singleton.mp hb ▸ hab ▸ ha)⟩
    · rw [clockedInIds_clockIn]
      show ((s.database.insertSalary true (s.empId p) now).setStatus true _ |>.openRows empId).length
        = _
      rw [Payroll.openRows_setStatus, Payroll.openRows_insertSalary, List.length_append,
        h.openRows]
      by_cases same : empId = s.empId p
      · simp [same, new]
      · simp [same]
  | clockOut =>
    have ids := mem_clockedInIds_clockOut h.nodup hp
    refine ⟨wellFormed, h.nodup.sublist (List.filter_sublist.map _), fun empId => ?_⟩
    show ((s.database.updateSalary true (s.empId p) now _).clearStatus true _ |>.openRows
      empId).length = if empId ∈ (removeObjectIdenticalTo s.clockedInEmployees p).map s.empId
        then 1 else 0
    rw [Payroll.openRows_clearStatus, Payroll.openRows_updateSalary]
    by_cases same : empId = s.empId p
    · have gone : empId ∉ (removeObjectIdenticalTo s.clockedInEmployees p).map s.empId :=
        fun mem => ((ids empId).mp mem).2 same
      rw [if_pos same, if_neg gone]
      rfl
    · rw [if_neg same, h.openRows]
      simp only [ids, same, ne_eq, not_false_eq_true, and_true]

theorem ClockInvariant.step (h : ClockInvariant s) (once : s.ClocksInOnce e)
    (hstep : succeedingStep s e = .ok s') : ClockInvariant s' := by
  have wellFormed := h.wellFormed.step hstep
  cases clockStep_moves hstep with
  | act performed =>
    refine h.action performed fun clockIn => ?_
    subst clockIn
    simpa only [ClocksInOnce, performed] using once
  | read =>
    have ids := clockedInIds_loginSegue h.wellFormed
    exact ⟨wellFormed, ids ▸ h.nodup, fun empId => ids ▸ h.openRows empId⟩
  | back => exact ⟨wellFormed, h.nodup, h.openRows⟩
  | stay => exact h

/-- A second Clock In puts an id into the list twice. -/
theorem ClockInvariant.breaks (twice : ¬ s.ClocksInOnce e) :
    ∃ s', succeedingStep s e = .ok s' ∧ ¬ ClockInsAgree s' := by
  unfold ClocksInOnce at twice
  split at twice
  · rename_i p now performed
    refine ⟨_, clockStep_performs performed, fun agree => ?_⟩
    have nodup := agree.nodup
    rw [clockedInIds_clockIn] at nodup
    exact (List.nodup_append.mp nodup).2.2 _ (not_not.mp twice) _ (List.mem_singleton_self _) rfl
  · exact absurd trivial twice

end Agreement

/-- **Main result.** From a payroll without open rows, along every run of the login
screens: the list of clocked-in employees agrees with the open rows at every
point exactly when every Clock In is of an employee that is not clocked in. -/
theorem clock_ins_agree_iff (database : Payroll) (closed : ∀ row ∈ database.tblSalary, row.clockOut ≠ none)
    (events : List ClockEvent) :
    Always succeedingStep ClockInsAgree (.init database) events ↔
      EachStep succeedingStep ClocksInOnce (.init database) events := by
  refine always_iff_eachStep (I := ClockInvariant) (fun _ h => h.agree)
    (fun _ _ _ h once hstep => h.step once hstep) (fun _ _ _ twice => ClockInvariant.breaks twice)
    ⟨wellFormed_init database, List.nodup_nil, fun empId => ?_⟩
  have none : database.openRows empId = [] :=
    List.filter_eq_nil_iff.mpr fun row hrow hopen => closed row hrow (of_decide_eq_true hopen).2
  show (database.openRows empId).length = 0
  rw [none]
  rfl

/-- One employee, who has not worked yet. -/
def oneEmployee : Payroll := ⟨[⟨"First", "Last", "pw", "7", false, false, false⟩], []⟩

/-- A shift, and the start of another. -/
def shiftThenStart : List ClockEvent :=
  [.loginSegue, .didSelectRow .clockIn 0 "pw" 0, .loginSegue, .didSelectRow .clockOut 0 "" 28800,
    .loginSegue, .didSelectRow .clockIn 0 "pw" 86400]

theorem clock_ins_agree_shiftThenStart :
    Always succeedingStep ClockInsAgree (.init oneEmployee) shiftThenStart :=
  (clock_ins_agree_iff oneEmployee (fun _ h => by cases h) shiftThenStart).mpr (by decide +kernel)

/-- Clocked in, and clocked in once more. -/
def startTwice : List ClockEvent :=
  [.loginSegue, .didSelectRow .clockIn 0 "pw" 0, .loginSegue, .didSelectRow .clockIn 0 "pw" 9]

theorem clock_ins_disagree :
    ¬ Always succeedingStep ClockInsAgree (.init oneEmployee) startTwice := by
  intro always
  have ids : (run succeedingStep (.init oneEmployee) startTwice).map clockedInIds =
      .ok ["7", "7"] := by
    decide +kernel
  cases hrun : run succeedingStep (.init oneEmployee) startTwice with
  | error e => rw [hrun] at ids; cases ids
  | ok s =>
    rw [hrun] at ids
    have agree := always_iff_prefix.mp always _ s (List.prefix_refl _) hrun
    have nodup := agree.nodup
    rw [Except.ok.inj ids] at nodup
    revert nodup
    decide

/-! ### Hours -/

/-- Six decimals of hours are exact for whole multiples of nine seconds only. -/
theorem sixDecimals_hours_iff {d n : Int} :
    sixDecimals (d / SECONDS_IN_HOURS) * SECONDS_IN_HOURS = n ↔ n = d ∧ 9 ∣ d := by
  have unit : (0 : ℚ) < 1 / 10 ^ 6 := by norm_num
  constructor
  · intro h
    have near := Rounding.abs_roundTo_sub_le unit ((d : ℚ) / SECONDS_IN_HOURS)
    have hsix : Rounding.roundTo (1 / 10 ^ 6) ((d : ℚ) / SECONDS_IN_HOURS) = n / 3600 := by
      rw [← h, sixDecimals, SECONDS_IN_HOURS]
      ring
    rw [hsix, SECONDS_IN_HOURS] at near
    have close : |((n - d : Int) : ℚ)| < 1 := by
      have factor : ((n - d : Int) : ℚ) = 3600 * ((n : ℚ) / 3600 - d / 3600) := by
        push_cast
        ring
      rw [factor, abs_mul, abs_of_pos (by norm_num : (0 : ℚ) < 3600)]
      linarith
    have same : n = d := by
      have : |n - d| < 1 := by exact_mod_cast close
      have := Int.abs_lt_one_iff.mp this
      omega
    refine ⟨same, ?_⟩
    -- the hours are a whole number of millionths
    obtain ⟨k, hk⟩ := (Rounding.roundTo_eq_self_iff unit.ne').mp
      (show Rounding.roundTo (1 / 10 ^ 6) ((n : ℚ) / 3600) = n / 3600 by
        rw [same] at hsix ⊢
        exact hsix)
    have whole : n * 2500 = 9 * k := by
      have : (n : ℚ) * 2500 = 9 * k := by
        field_simp at hk
        linarith
      exact_mod_cast this
    omega
  · rintro ⟨rfl, m, rfl⟩
    have exact : sixDecimals (((9 * m : Int) : ℚ) / SECONDS_IN_HOURS) =
        ((9 * m : Int) : ℚ) / SECONDS_IN_HOURS := by
      rw [sixDecimals, Rounding.roundTo_eq_self_iff unit.ne']
      refine ⟨2500 * m, ?_⟩
      rw [SECONDS_IN_HOURS]
      push_cast
      ring
    rw [exact, SECONDS_IN_HOURS]
    ring

end TimeClock

/-- A time clock, and how often each row of `TBL_SALARY` was closed. -/
structure Ledger where
  clock : TimeClock
  closings : Nat → Nat

namespace Ledger

/-- Nobody has worked yet. -/
def init (tblEmployee : List EmployeeRow) : Ledger := ⟨.init ⟨tblEmployee, []⟩, fun _ => 0⟩

/-- The event issues an `UPDATE TBL_SALARY` whose condition holds of the row. -/
def Closes (clock : TimeClock) (e : ClockEvent) (i : Nat) : Prop :=
  match clock.performs e with
  | some (.clockOut, p, _) =>
    ∃ row ∈ clock.database.tblSalary[i]?, Payroll.IsOpen (clock.empId p) row
  | _ => False

instance (clock : TimeClock) (e : ClockEvent) (i : Nat) : Decidable (Closes clock e i) := by
  unfold Closes
  split <;> infer_instance

def step (s : Ledger) (e : ClockEvent) : Except NSException Ledger :=
  (succeedingStep s.clock e).map fun clock =>
    ⟨clock, fun i => s.closings i + if Closes s.clock e i then 1 else 0⟩

/-- Every closed row has the hours between its own two times, and was closed once. -/
def PaidOnce (s : Ledger) : Prop :=
  ∀ i row clockOut, s.clock.database.tblSalary[i]? = some row → row.clockOut = some clockOut →
    (∃ hrs, row.hrs = some hrs ∧
      hrs * SECONDS_IN_HOURS = ((clockOut - row.clockIn : Int) : NSNumber)) ∧
    s.closings i = 1

/-- A Clock Out is of an object that holds the time of every row it closes, a whole
number of nine seconds ago. -/
def PaysShift (s : Ledger) (e : ClockEvent) : Prop :=
  match s.clock.performs e with
  | some (.clockOut, p, now) =>
    ∀ row ∈ s.clock.database.openRows (s.clock.empId p),
      (s.clock.employees.get p).clockInTime = some row.clockIn ∧ 9 ∣ now - row.clockIn
  | _ => True

instance (s : Ledger) (e : ClockEvent) : Decidable (s.PaysShift e) := by
  unfold PaysShift
  split <;> infer_instance

/-- What every step keeps: clocked-in objects have a time, and a row that is not
closed was never closed. -/
structure PaidInvariant (s : Ledger) : Prop where
  wellFormed : s.clock.WellFormed
  timed : ∀ p ∈ s.clock.clockedInEmployees, (s.clock.employees.get p).clockInTime ≠ none
  paid : s.PaidOnce
  opened : ∀ i row, s.clock.database.tblSalary[i]? = some row → row.clockOut = none →
    s.closings i = 0
  beyond : ∀ i, s.clock.database.tblSalary.length ≤ i → s.closings i = 0

section Hours

variable {s s' : Ledger} {clock : TimeClock} {e : ClockEvent} {p : Addr} {now : Int}

theorem paidInvariant_init (tblEmployee : List EmployeeRow) : (init tblEmployee).PaidInvariant where
  wellFormed := TimeClock.wellFormed_init _
  timed := fun _ h => by cases h
  paid := by
    intro i row clockOut hrow
    cases hrow
  opened := fun _ _ _ _ => rfl
  beyond := fun _ _ => rfl

/-- The table as it was. -/
theorem PaidInvariant.keepRows (h : s.PaidInvariant) (wellFormed : clock.WellFormed)
    (timed : ∀ p ∈ clock.clockedInEmployees, (clock.employees.get p).clockInTime ≠ none)
    (rows : clock.database.tblSalary = s.clock.database.tblSalary) :
    PaidInvariant ⟨clock, s.closings⟩ where
  wellFormed := wellFormed
  timed := timed
  paid := by
    intro i row clockOut hrow hout
    exact h.paid i row clockOut (rows ▸ hrow) hout
  opened := by
    intro i row hrow hout
    exact h.opened i row (rows ▸ hrow) hout
  beyond := by
    intro i hi
    exact h.beyond i (rows ▸ hi)

theorem PaidInvariant.read (h : s.PaidInvariant) : PaidInvariant ⟨s.clock.loginSegue, s.closings⟩ := by
  refine h.keepRows h.wellFormed.loginSegue ?_ rfl
  intro p hp
  show ((s.clock.employees.allocList _).get p).clockInTime ≠ none
  rw [Heap.get_allocList_of_lt _ (h.wellFormed.clockedIn_lt p hp)]
  exact h.timed p hp

/-- A Clock In appends an open row. -/
theorem PaidInvariant.clockIn (h : s.PaidInvariant)
    (performed : s.clock.performs e = some (.clockIn, p, now)) :
    PaidInvariant ⟨{ s.clock.addOrRemoveEmployeeFromList .clockIn p now .succeed with
      allEmployees := none }, s.closings⟩ := by
  have rows := s.clock.tblSalary_clockIn p now
  have old_or_new : ∀ {i row}, (s.clock.database.tblSalary ++
      [⟨s.clock.empId p, now, none, none⟩])[i]? = some row →
      s.clock.database.tblSalary[i]? = some row ∨
        row.clockOut = none ∧ s.clock.database.tblSalary.length ≤ i := by
    intro i row hrow
    rcases Nat.lt_or_ge i s.clock.database.tblSalary.length with hi | hi
    · rw [List.getElem?_append_left hi] at hrow
      exact .inl hrow
    · rw [List.getElem?_append_right hi, List.getElem?_singleton] at hrow
      split at hrow
      · cases hrow
        exact .inr ⟨rfl, hi⟩
      · cases hrow
  refine ⟨h.wellFormed.action performed .succeed, ?_, ?_, ?_, ?_⟩
  · intro q hq
    show ((s.clock.employees.set p { s.clock.employees.get p with
      clockInTime := some now }).get q).clockInTime ≠ none
    by_cases same : q = p
    · rw [same, Heap.get_set_self]
      exact Option.some_ne_none now
    · rw [Heap.get_set_of_ne same]
      rcases List.mem_append.mp hq with hq | hq
      · exact h.timed q hq
      · exact absurd (List.mem_singleton.mp hq) same
  · intro i row clockOut hrow hout
    rcases old_or_new (rows ▸ hrow) with old | ⟨hopen, -⟩
    · exact h.paid i row clockOut old hout
    · rw [hopen] at hout
      cases hout
  · intro i row hrow hout
    rcases old_or_new (rows ▸ hrow) with old | ⟨-, hi⟩
    · exact h.opened i row old hout
    · exact h.beyond i hi
  · intro i hi
    refine h.beyond i (Nat.le_trans ?_ hi)
    show _ ≤ (s.clock.addOrRemoveEmployeeFromList .clockIn p now .succeed).database.tblSalary.length
    rw [rows, List.length_append]
    exact Nat.le_add_right _ _

/-- The hours that a Clock Out writes into a row are those of the row, exactly when
the object holds the time of the row and they have six decimals. -/
theorem hours_match_iff {clockInTime : Option Int} (timed : clockInTime ≠ none) {clockIn : Int} :
    sixDecimals (timeBetweenDate clockInTime now / SECONDS_IN_HOURS) * SECONDS_IN_HOURS =
        ((now - clockIn : Int) : NSNumber) ↔
      clockInTime = some clockIn ∧ 9 ∣ now - clockIn := by
  obtain ⟨time, rfl⟩ := Option.ne_none_iff_exists'.mp timed
  rw [TimeClock.sixDecimals_hours_iff]
  show now - clockIn = now - time ∧ 9 ∣ now - time ↔ some time = some clockIn ∧ 9 ∣ now - clockIn
  constructor
  · rintro ⟨same, nine⟩
    have time_eq : time = clockIn := by omega
    subst time_eq
    exact ⟨rfl, nine⟩
  · rintro ⟨same, nine⟩
    cases same
    exact ⟨rfl, nine⟩

/-- A row of the table after a Clock Out. -/
theorem getElem?_clockOut (now : Int) {i : Nat} {row : SalaryRow} :
    (s.clock.addOrRemoveEmployeeFromList .clockOut p now .succeed).database.tblSalary[i]? = some row ↔
      ∃ old, s.clock.database.tblSalary[i]? = some old ∧
        (if Payroll.IsOpen (s.clock.empId p) old then { old with
          clockOut := some now
          hrs := some (sixDecimals ((timeBetweenDate (s.clock.employees.get p).clockInTime now) /
            SECONDS_IN_HOURS)) }
        else old) = row := by
  rw [TimeClock.tblSalary_clockOut, List.getElem?_map, Option.map_eq_some_iff]

theorem mem_openRows {db : Payroll} {empId : String} {i : Nat} {row : SalaryRow}
    (hrow : db.tblSalary[i]? = some row) (hopen : Payroll.IsOpen empId row) :
    row ∈ db.openRows empId :=
  List.mem_filter.mpr ⟨List.mem_of_getElem? hrow, decide_eq_true hopen⟩

theorem closings_of_closes {i : Nat} (closes : Closes s.clock e i) :
    (s.closings i + if Closes s.clock e i then 1 else 0) = s.closings i + 1 := by
  rw [if_pos closes]

theorem closings_of_not_closes {i : Nat} (closes : ¬ Closes s.clock e i) :
    (s.closings i + if Closes s.clock e i then 1 else 0) = s.closings i := by
  rw [if_neg closes, Nat.add_zero]

/-- A Clock Out that pays the shift closes every open row, once and with its hours. -/
theorem PaidInvariant.clockOut (h : s.PaidInvariant)
    (performed : s.clock.performs e = some (.clockOut, p, now)) (pays : s.PaysShift e) :
    PaidInvariant ⟨{ s.clock.addOrRemoveEmployeeFromList .clockOut p now .succeed with
      allEmployees := none }, fun i => s.closings i + if Closes s.clock e i then 1 else 0⟩ := by
  obtain ⟨_, -, hp⟩ := TimeClock.mem_of_performs performed
  simp only [PaysShift, performed] at pays
  have closes_iff : ∀ {i row}, s.clock.database.tblSalary[i]? = some row →
      (Closes s.clock e i ↔ Payroll.IsOpen (s.clock.empId p) row) := by
    intro i row hrow
    simp [Closes, performed, hrow]
  refine ⟨h.wellFormed.action performed .succeed, ?_, ?_, ?_, ?_⟩
  · intro q hq
    exact h.timed q (List.mem_of_mem_filter hq)
  · intro i row clockOut hrow hout
    obtain ⟨old, hold, rfl⟩ := (getElem?_clockOut now).mp hrow
    have closes := closes_iff hold
    split at hout
    · rename_i hopen
      cases hout
      rw [if_pos hopen]
      refine ⟨⟨_, rfl, (hours_match_iff (h.timed p hp)).mpr (pays old (mem_openRows hold hopen))⟩, ?_⟩
      refine (closings_of_closes (closes.mpr hopen)).trans ?_
      rw [h.opened i old hold hopen.2]
    · rename_i hclosed
      rw [if_neg hclosed]
      obtain ⟨hours, once⟩ := h.paid i old clockOut hold hout
      have kept := closings_of_not_closes (fun hc => hclosed (closes.mp hc))
      exact ⟨hours, kept.trans once⟩
  · intro i row hrow hout
    obtain ⟨old, hold, rfl⟩ := (getElem?_clockOut now).mp hrow
    split at hout
    · cases hout
    · rename_i hclosed
      have kept := closings_of_not_closes (fun hc => hclosed ((closes_iff hold).mp hc))
      exact kept.trans (h.opened i old hold hout)
  · intro i hi
    have hi : s.clock.database.tblSalary.length ≤ i := by
      refine Nat.le_trans (Nat.le_of_eq ?_) hi
      show _ = (s.clock.addOrRemoveEmployeeFromList .clockOut p now .succeed).database.tblSalary.length
      rw [TimeClock.tblSalary_clockOut, List.length_map]
    have gone : ¬ Closes s.clock e i := by
      simp [Closes, performed, List.getElem?_eq_none hi]
    exact (closings_of_not_closes gone).trans (h.beyond i hi)

/-- A step of the ledger is a step of the time clock. -/
theorem step_eq_ok : s.step e = .ok s' ↔ succeedingStep s.clock e = .ok s'.clock ∧
    s'.closings = fun i => s.closings i + if Closes s.clock e i then 1 else 0 := by
  rw [step]
  cases succeedingStep s.clock e with
  | error x => simp [Except.map]
  | ok clock =>
    constructor
    · rintro ⟨⟩
      exact ⟨rfl, rfl⟩
    · rintro ⟨hclock, hclosings⟩
      cases hclock
      rw [← hclosings]
      rfl

/-- Only a Clock Out closes rows. -/
theorem closings_eq (none : ∀ p now, s.clock.performs e ≠ some (.clockOut, p, now)) :
    (fun i => s.closings i + if Closes s.clock e i then 1 else 0) = s.closings := by
  funext i
  have open_ : ¬ Closes s.clock e i := by
    unfold Closes
    split
    · rename_i p now performed
      exact absurd performed (none p now)
    · exact id
  exact closings_of_not_closes open_

theorem PaidInvariant.step (h : s.PaidInvariant) (pays : s.PaysShift e)
    (hstep : s.step e = .ok s') : s'.PaidInvariant := by
  obtain ⟨hclock, hclosings⟩ := step_eq_ok.mp hstep
  obtain ⟨clock, closings⟩ := s'
  subst hclosings
  have wellFormed := h.wellFormed.step hclock
  cases TimeClock.clockStep_moves hclock with
  | @act _ loginOption p now performed =>
    have other : loginOption ≠ .clockOut →
        ∀ q time, s.clock.performs e ≠ some (.clockOut, q, time) := by
      intro ne q time out
      cases performed.symm.trans out
      exact ne rfl
    cases loginOption with
    | login =>
      rw [closings_eq (other (by decide))]
      exact h.keepRows wellFormed h.timed rfl
    | logout =>
      rw [closings_eq (other (by decide))]
      exact h.keepRows wellFormed h.timed rfl
    | clockIn =>
      rw [closings_eq (other (by decide))]
      exact h.clockIn performed
    | clockOut => exact h.clockOut performed pays
  | read =>
    rw [closings_eq (fun _ _ => by rintro ⟨⟩)]
    exact h.read
  | back =>
    rw [closings_eq (fun _ _ => by rintro ⟨⟩)]
    exact h.keepRows wellFormed h.timed rfl
  | stay nothing =>
    rw [closings_eq (fun _ _ => by rw [nothing]; rintro ⟨⟩)]
    exact h

/-- Any other Clock Out writes wrong hours into a row. -/
theorem PaidInvariant.breaks (h : s.PaidInvariant) (wrong : ¬ s.PaysShift e) :
    ∃ s', s.step e = .ok s' ∧ ¬ s'.PaidOnce := by
  unfold PaysShift at wrong
  split at wrong
  · rename_i p now performed
    obtain ⟨_, -, hp⟩ := TimeClock.mem_of_performs performed
    refine ⟨⟨_, _⟩, step_eq_ok.mpr ⟨TimeClock.clockStep_performs performed, rfl⟩, fun paid => wrong ?_⟩
    intro row hrow
    obtain ⟨hmem, hopen⟩ := List.mem_filter.mp hrow
    obtain ⟨i, hi⟩ := List.getElem?_of_mem hmem
    have closed := (getElem?_clockOut now).mpr ⟨row, hi, if_pos (of_decide_eq_true hopen)⟩
    obtain ⟨⟨hrs, written, hours⟩, -⟩ := paid i _ now closed rfl
    cases written
    exact (hours_match_iff (h.timed p hp)).mp hours
  · exact absurd trivial wrong

end Hours

/-- **Main result.** From an empty payroll table, along every run of the login
screens: every closed row has the hours between its own two times and was closed
once, at every point, exactly when every Clock Out is of an object that holds the
time of every row it closes, a whole number of nine seconds ago. -/
theorem hours_paid_iff (tblEmployee : List EmployeeRow) (events : List ClockEvent) :
    Always step PaidOnce (init tblEmployee) events ↔
      EachStep step PaysShift (init tblEmployee) events :=
  always_iff_eachStep (fun _ h => h.paid) (fun _ _ _ h pays hstep => h.step pays hstep)
    (fun _ _ h wrong => h.breaks wrong) (paidInvariant_init tblEmployee)

/-- Clocked in twice, and out once: both rows get the hours since the first time. -/
theorem hours_not_paid :
    ¬ Always step PaidOnce (init TimeClock.oneEmployee.tblEmployee)
      (TimeClock.startTwice ++ [.loginSegue, .didSelectRow .clockOut 0 "" 18]) := by
  intro always
  have second : (run step (init TimeClock.oneEmployee.tblEmployee)
      (TimeClock.startTwice ++ [.loginSegue, .didSelectRow .clockOut 0 "" 18])).map
        (fun s => s.clock.database.tblSalary[1]?) = .ok (some ⟨"7", 9, some 18, some (1 / 200)⟩) := by
    decide +kernel
  cases hrun : run step (init TimeClock.oneEmployee.tblEmployee)
      (TimeClock.startTwice ++ [.loginSegue, .didSelectRow .clockOut 0 "" 18]) with
  | error e => rw [hrun] at second; cases second
  | ok s =>
    rw [hrun] at second
    have paid := always_iff_prefix.mp always _ s (List.prefix_refl _) hrun
    obtain ⟨⟨hrs, written, hours⟩, -⟩ := paid 1 _ 18 (Except.ok.inj second) rfl
    cases written
    norm_num [SECONDS_IN_HOURS] at hours

end Ledger

end PointIPad
