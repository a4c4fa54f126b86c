import PointIPad.Payroll

/-!
The login session.

Only one employee is logged in at a time, and Login offers the clocked-in
employees. The session is a list of at most one object and a flag; Clock Out
touches neither.

**Main result.** The session stays coherent along a run exactly when no Clock Out
is of the employee that is logged in (`session_coherent_iff`).
-/

namespace PointIPad

open Transition

namespace TimeClock

/-- At most one employee is logged in, the flag says whether one is, and the one that
is logged in is clocked in. -/
structure SessionCoherent (s : TimeClock) : Prop where
  atMostOne : s.loggedInEmployee.length ≤ 1
  flag : s.isLoggedIn = true ↔ s.loggedInEmployee.length = 1
  clockedIn : ∀ p ∈ s.loggedInEmployee, p ∈ s.clockedInEmployees

/-- A Clock Out is of somebody else than the one that is logged in. -/
def ClocksOutOthers (s : TimeClock) (e : ClockEvent × SqlOutcome) : Prop :=
  match s.performs e.1 with
  | some (.clockOut, p, _) => p ∉ s.loggedInEmployee
  | _ => True

instance (s : TimeClock) (e : ClockEvent × SqlOutcome) : Decidable (s.ClocksOutOthers e) := by
  unfold ClocksOutOthers
  split <;> infer_instance

variable {s s' : TimeClock} {e : ClockEvent × SqlOutcome} {p : Addr} {now : Int}
variable {outcome : SqlOutcome}

theorem removeLastObject_of_length_le_one {a : List Addr} (h : a.length ≤ 1) :
    removeLastObject a = [] := by
  apply List.eq_nil_of_length_eq_zero
  rw [removeLastObject, List.length_dropLast]
  omega

theorem sessionCoherent_init (database : Payroll) : (init database).SessionCoherent := by
  refine ⟨Nat.zero_le 1, ?_, ?_⟩
  · constructor <;> intro h <;> cases h
  · intro p hp
    cases hp

theorem SessionCoherent.action (h : s.SessionCoherent) {event : ClockEvent}
    {loginOption : LoginOption} (performed : s.performs event = some (loginOption, p, now))
    (others : loginOption = .clockOut → p ∉ s.loggedInEmployee) :
    SessionCoherent { s.addOrRemoveEmployeeFromList loginOption p now outcome with
      allEmployees := none } := by
  obtain ⟨allEmployees, -, hp⟩ := mem_of_performs performed
  cases loginOption with
  | login =>
    have only : (s.addOrRemoveEmployeeFromList .login p now outcome).loggedInEmployee = [p] := by
      show removeLastObject s.loggedInEmployee ++ [p] = [p]
      rw [removeLastObject_of_length_le_one h.atMostOne, List.nil_append]
    refine ⟨?_, ?_, ?_⟩
    · rw [only]
      exact Nat.le_refl 1
    · rw [only]
      exact ⟨fun _ => rfl, fun _ => rfl⟩
    · intro q hq
      rw [only] at hq
      rw [List.mem_singleton.mp hq]
      exact hp
  | logout =>
    have nobody : (s.addOrRemoveEmployeeFromList .logout p now outcome).loggedInEmployee = [] :=
      removeLastObject_of_length_le_one h.atMostOne
    refine ⟨?_, ?_, ?_⟩
    · rw [nobody]
      exact Nat.zero_le 1
    · rw [nobody]
      constructor <;> intro h <;> cases h
    · intro q hq
      rw [nobody] at hq
      cases hq
  | clockIn =>
    refine ⟨h.atMostOne, h.flag, ?_⟩
    intro q hq
    exact List.mem_append_left _ (h.clockedIn q hq)
  | clockOut =>
    refine ⟨h.atMostOne, h.flag, ?_⟩
    intro q hq
    have other : q ≠ p := by
      rintro rfl
      exact others rfl hq
    exact List.mem_filter.mpr ⟨h.clockedIn q hq, decide_eq_true other⟩

theorem SessionCoherent.step (h : s.SessionCoherent) (others : s.ClocksOutOthers e)
    (hstep : clockStep s e = .ok s') : s'.SessionCoherent := by
  obtain ⟨event, outcome⟩ := e
  cases clockStep_moves hstep with
  | @act _ loginOption p now performed =>
    apply h.action performed
    rintro rfl
    simpa only [ClocksOutOthers, performed] using others
  | read => exact ⟨h.atMostOne, h.flag, h.clockedIn⟩
  | back => exact ⟨h.atMostOne, h.flag, h.clockedIn⟩
  | stay => exact h

/-- A Clock Out of the employee that is logged in leaves them logged in. -/
theorem SessionCoherent.breaks (self : ¬ s.ClocksOutOthers e) :
    ∃ s', clockStep s e = .ok s' ∧ ¬ s'.SessionCoherent := by
  unfold ClocksOutOthers at self
  split at self
  · rename_i p now performed
    refine ⟨_, clockStep_performs performed, ?_⟩
    intro coherent
    have still := coherent.clockedIn p (not_not.mp self)
    exact of_decide_eq_true (List.mem_filter.mp still).2 rfl
  · exact absurd trivial self

/-- **Main result.** From the start of the app, along every run of the login screens
and whatever the SQL commands do: the session is coherent at every point exactly
when no Clock Out is of the employee that is logged in. -/
theorem session_coherent_iff (database : Payroll) (events : List (ClockEvent × SqlOutcome)) :
    Always clockStep SessionCoherent (.init database) events ↔
      EachStep clockStep ClocksOutOthers (.init database) events :=
  always_iff_eachStep (fun _ h => h) (fun _ _ _ h others hstep => h.step others hstep)
    (fun _ _ _ self => SessionCoherent.breaks self) (sessionCoherent_init database)

/-- Clocked in, logged in, and clocked out. -/
def leavesLoggedIn : List ClockEvent :=
  [.loginSegue, .didSelectRow .clockIn 0 "pw" 0, .loginSegue, .didSelectRow .login 0 "pw" 1,
    .loginSegue, .didSelectRow .clockOut 0 "" 2]

theorem session_incoherent :
    ¬ Always clockStep SessionCoherent (.init oneEmployee) (leavesLoggedIn.map (·, .succeed)) := by
  intro always
  have lists : (run clockStep (.init oneEmployee) (leavesLoggedIn.map (·, .succeed))).map
      (fun s => (s.loggedInEmployee, s.clockedInEmployees)) = .ok ([0], []) := by
    decide +kernel
  cases hrun : run clockStep (.init oneEmployee) (leavesLoggedIn.map (·, .succeed)) with
  | error e => rw [hrun] at lists; cases lists
  | ok s =>
    rw [hrun] at lists
    obtain ⟨loggedIn, clockedIn⟩ := Prod.mk.inj (Except.ok.inj lists)
    have coherent := always_iff_prefix.mp always _ s (List.prefix_refl _) hrun
    have still := coherent.clockedIn 0 (loggedIn ▸ List.mem_singleton_self 0)
    rw [clockedIn] at still
    cases still

end TimeClock

end PointIPad
