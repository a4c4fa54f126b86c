import PointIPad.Recordset
import PointIPad.Lib.Traversal

/-!
Record sets under any moves.

**Main results.** After any moves, the current record is that of a row, or the last
move was to the last record, and whether the end has been reached depends on the
moves since (`isEOF_iff`). A pass forward reads every row; a pass back from the last
record reads a row of NULLs first (`passes_read`). A dictionary has the column names
for its keys, and under each name the first column of that name in any case
(`dictionary_holds`).
-/

namespace PointIPad

variable {n : Nat}

namespace Recordset

/-! ### Moves -/

inductive MoveEvent where
  | moveNext
  | movePrevious
  | moveFirst
  | moveLast
  | close
deriving DecidableEq

def moveStep (c : Recordset n) : MoveEvent → Recordset n
  | .moveNext => c.moveNext
  | .movePrevious => c.movePrevious
  | .moveFirst => c.moveFirst
  | .moveLast => c.moveLast
  | .close => c.close

/-- The events that forget the end of the rows. -/
def MoveEvent.rewinds (e : MoveEvent) : Prop := e = .moveFirst ∨ e = .moveLast

/-- The events that may run off the rows. -/
def MoveEvent.advances (e : MoveEvent) : Prop := e = .moveNext ∨ e = .movePrevious

/-- What the moves after an opening keep, and where they have led. -/
structure Moved (res : PGresult n) (es : List MoveEvent) (c : Recordset n) : Prop where
  rowCount : c.rowCount = res.tuples.length
  result : c.pgResult = if .close ∈ es then none else some res
  columns : c.columns = if .close ∈ es then none else some (columnsOf res)
  isOpen : c.isOpen = decide (.close ∉ es)
  record : ∀ i, c.currentRecord = some i → res.tuples.length ≠ 0 ∧ 0 ≤ i ∧
    (i < res.tuples.length ∨ (i = res.tuples.length ∧ es.getLast? = some .moveLast))

section Moves

variable {res : PGresult n} {encoding : NSStringEncoding} {c : Recordset n} {es : List MoveEvent}
  {e : MoveEvent}

theorem moved_init (res : PGresult n) (encoding : NSStringEncoding) :
    Moved res [] (initWithResult res encoding) := by
  by_cases empty : res.tuples.length = 0
  · rw [initWithResult_of_nil empty]
    exact ⟨rfl, rfl, rfl, rfl, fun i none => by cases none⟩
  · rw [initWithResult_of_rows empty]
    refine ⟨rfl, rfl, rfl, rfl, fun i first => ?_⟩
    cases first
    exact ⟨empty, Int.le_refl 0, .inl (by omega)⟩

/-- A move that does not close changes the current record and the mark of the end only. -/
theorem moveStep_frame (open_ : e ≠ .close) : ∃ currentRecord isEOF,
    c.moveStep e = { c with currentRecord := currentRecord, isEOF := isEOF } := by
  cases e with
  | moveNext =>
    rw [moveStep, moveNext]
    split
    · exact ⟨_, _, rfl⟩
    · split <;> exact ⟨_, _, rfl⟩
  | movePrevious =>
    rw [moveStep, movePrevious]
    split
    · exact ⟨_, _, rfl⟩
    · split <;> exact ⟨_, _, rfl⟩
  | moveFirst =>
    rw [moveStep, moveFirst]
    split <;> exact ⟨_, _, rfl⟩
  | moveLast =>
    rw [moveStep, moveLast]
    split <;> exact ⟨_, _, rfl⟩
  | close => exact absurd rfl open_

/-- Where a move leads. -/
theorem moveStep_record (rows : c.rowCount ≠ 0) :
    (c.moveStep e).currentRecord = match e with
      | .moveNext =>
        if c.currentRowIndex + 1 ≥ c.rowCount then none else some (c.currentRowIndex + 1)
      | .movePrevious =>
        if c.currentRowIndex - 1 < 0 then none else some (c.currentRowIndex - 1)
      | .moveFirst => some 0
      | .moveLast => some c.rowCount
      | .close => none := by
  cases e with
  | moveNext =>
    rw [moveStep, moveNext, if_neg rows]
    split <;> rfl
  | movePrevious =>
    rw [moveStep, movePrevious, if_neg rows]
    split <;> rfl
  | moveFirst =>
    rw [moveStep, moveFirst, if_neg rows]
    rfl
  | moveLast =>
    rw [moveStep, moveLast, if_neg rows]
    rfl
  | close => rfl

/-- The mark of the end is set by running off the rows, and taken off by rewinding. -/
theorem moveStep_isEOF (rows : c.rowCount ≠ 0) :
    (c.moveStep e).isEOF = true ↔
      (e.advances ∧ (c.moveStep e).currentRecord = none) ∨ (¬ e.rewinds ∧ c.isEOF = true) := by
  rw [moveStep_record rows]
  cases e with
  | moveNext =>
    rw [moveStep, moveNext, if_neg rows]
    split <;> simp_all [MoveEvent.advances, MoveEvent.rewinds, setCurrentRecordWithRowIndex]
  | movePrevious =>
    rw [moveStep, movePrevious, if_neg rows]
    split <;> simp_all [MoveEvent.advances, MoveEvent.rewinds, setCurrentRecordWithRowIndex]
  | moveFirst =>
    rw [moveStep, moveFirst, if_neg rows]
    simp [MoveEvent.advances, MoveEvent.rewinds, setCurrentRecordWithRowIndex]
  | moveLast =>
    rw [moveStep, moveLast, if_neg rows]
    simp [MoveEvent.advances, MoveEvent.rewinds, setCurrentRecordWithRowIndex]
  | close =>
    rw [moveStep, close]
    cases c.isOpen <;> simp [MoveEvent.advances, MoveEvent.rewinds]

theorem moveStep_defaultEncoding (c : Recordset n) (e : MoveEvent) :
    (c.moveStep e).defaultEncoding = c.defaultEncoding := by
  by_cases closes : e = .close
  · subst closes
    rw [moveStep, close]
    cases c.isOpen <;> rfl
  · obtain ⟨_, _, frame⟩ := moveStep_frame (c := c) closes
    rw [frame]

theorem Moved.currentRowIndex (h : Moved res es c) :
    -1 ≤ c.currentRowIndex ∧ c.currentRowIndex ≤ res.tuples.length := by
  rw [Recordset.currentRowIndex]
  cases hrecord : c.currentRecord with
  | none =>
    rw [Option.getD_none]
    omega
  | some i =>
    have hi := h.record i hrecord
    rw [Option.getD_some]
    omega

theorem Moved.stepRecord (h : Moved res es c) {i : Int}
    (hrecord : (c.moveStep e).currentRecord = some i) : res.tuples.length ≠ 0 ∧ 0 ≤ i ∧
      (i < res.tuples.length ∨ (i = res.tuples.length ∧ e = .moveLast)) := by
  have bounds := h.currentRowIndex
  by_cases empty : res.tuples.length = 0
  · -- without rows no move does anything
    have hcount : c.rowCount = 0 := h.rowCount.trans empty
    have none : ∀ i, c.currentRecord ≠ some i := fun i hi => (h.record i hi).1 empty
    cases e with
    | moveNext => rw [moveStep, moveNext, if_pos hcount] at hrecord; exact absurd hrecord (none i)
    | movePrevious =>
      rw [moveStep, movePrevious, if_pos hcount] at hrecord
      exact absurd hrecord (none i)
    | moveFirst => rw [moveStep, moveFirst, if_pos hcount] at hrecord; exact absurd hrecord (none i)
    | moveLast => rw [moveStep, moveLast, if_pos hcount] at hrecord; exact absurd hrecord (none i)
    | close => cases hrecord
  · have rows : c.rowCount ≠ 0 := by
      rw [h.rowCount]
      exact empty
    rw [moveStep_record rows, h.rowCount] at hrecord
    refine ⟨empty, ?_⟩
    cases e with
    | moveNext =>
      dsimp only at hrecord
      split at hrecord
      · cases hrecord
      · cases hrecord
        omega
    | movePrevious =>
      dsimp only at hrecord
      split at hrecord
      · cases hrecord
      · cases hrecord
        omega
    | moveFirst =>
      cases hrecord
      omega
    | moveLast =>
      cases hrecord
      exact ⟨by omega, .inr ⟨rfl, rfl⟩⟩
    | close => cases hrecord

/-- **Every move** keeps the set what it is, and leads to a row or to the last record. -/
theorem Moved.step (h : Moved res es c) (e : MoveEvent) : Moved res (es ++ [e]) (c.moveStep e) := by
  have record : ∀ i, (c.moveStep e).currentRecord = some i → res.tuples.length ≠ 0 ∧ 0 ≤ i ∧
      (i < res.tuples.length ∨
        (i = res.tuples.length ∧ (es ++ [e]).getLast? = some .moveLast)) := by
    intro i hi
    rw [List.getLast?_concat, Option.some.injEq]
    exact h.stepRecord hi
  by_cases closes : e = .close
  · subst closes
    have mem : MoveEvent.close ∈ es ++ [.close] := List.mem_append_right es List.mem_cons_self
    by_cases before : .close ∈ es
    · have closed : c.isOpen = false := by rw [h.isOpen, decide_eq_false (not_not.mpr before)]
      refine ⟨?_, ?_, ?_, ?_, record⟩
      all_goals simp only [moveStep, close, closed, if_pos mem]
      · exact h.rowCount
      · rw [if_neg Bool.false_ne_true, h.result, if_pos before]
      · rw [if_neg Bool.false_ne_true, h.columns, if_pos before]
      · simp
    · have opened : c.isOpen = true := by rw [h.isOpen, decide_eq_true before]
      refine ⟨?_, ?_, ?_, ?_, record⟩
      all_goals simp only [moveStep, close, opened, if_pos mem, if_true]
      · exact h.rowCount
      · simp
  · have mem : MoveEvent.close ∈ es ++ [e] ↔ .close ∈ es := by
      rw [List.mem_append, List.mem_singleton]
      exact or_iff_left fun same => closes same.symm
    obtain ⟨currentRecord, isEOF, frame⟩ := moveStep_frame (c := c) closes
    refine ⟨?_, ?_, ?_, ?_, record⟩
    all_goals rw [frame]
    · exact h.rowCount
    · simp only [mem]
      exact h.result
    · simp only [mem]
      exact h.columns
    · simp only [mem]
      exact h.isOpen

theorem moved_foldl (res : PGresult n) (encoding : NSStringEncoding) (es : List MoveEvent) :
    Moved res es (es.foldl moveStep (initWithResult res encoding)) := by
  induction es using List.reverseRecOn with
  | nil => exact moved_init res encoding
  | append_singleton es e ih =>
    rw [List.foldl_append]
    exact ih.step e

theorem defaultEncoding_foldl (res : PGresult n) (encoding : NSStringEncoding)
    (es : List MoveEvent) :
    (es.foldl moveStep (initWithResult res encoding)).defaultEncoding = encoding := by
  induction es using List.reverseRecOn with
  | nil =>
    rw [initWithResult]
    dsimp only
    split
    · rfl
    · rw [moveFirst]
      split <;> rfl
  | append_singleton es e ih =>
    rw [List.foldl_append, List.foldl_cons, List.foldl_nil, moveStep_defaultEncoding, ih]

end Moves

/-- A move has run off the rows, and no later one has gone to the first or the last record. -/
def RanOff (c : Recordset n) (es : List MoveEvent) : Prop :=
  ∃ pre e post, es = pre ++ e :: post ∧ e.advances ∧
    ((pre ++ [e]).foldl moveStep c).currentRecord = none ∧ ∀ f ∈ post, ¬ MoveEvent.rewinds f

section RanOff

variable {c : Recordset n} {res : PGresult n} {encoding : NSStringEncoding} {es : List MoveEvent}
  {e : MoveEvent}

theorem ranOff_snoc : RanOff c (es ++ [e]) ↔
    (e.advances ∧ ((es ++ [e]).foldl moveStep c).currentRecord = none) ∨
      (¬ e.rewinds ∧ RanOff c es) := by
  constructor
  · rintro ⟨pre, f, post, split, advances, off, later⟩
    rcases List.eq_nil_or_concat post with rfl | ⟨post, g, rfl⟩
    · obtain ⟨rfl, rfl⟩ := List.append_inj' split rfl |>.imp id List.singleton_inj.mp
      exact .inl ⟨advances, off⟩
    · have same : es ++ [e] = (pre ++ f :: post) ++ [g] := by
        rw [split]
        simp
      obtain ⟨rfl, last⟩ := List.append_inj' same rfl
      cases List.singleton_inj.mp last
      refine .inr ⟨later e (by simp), pre, f, post, rfl, advances, off, fun x hx => later x ?_⟩
      simp [hx]
  · rintro (⟨advances, off⟩ | ⟨keeps, pre, f, post, rfl, advances, off, later⟩)
    · exact ⟨es, e, [], rfl, advances, off, fun f hf => absurd hf List.not_mem_nil⟩
    · refine ⟨pre, f, post ++ [e], by simp, advances, off, fun x hx => ?_⟩
      rcases List.mem_append.mp hx with before | last
      · exact later x before
      · rw [List.mem_singleton.mp last]
        exact keeps

/-- Where there are rows, the end is marked by the moves alone. -/
theorem isEOF_foldl (rows : res.tuples.length ≠ 0) (es : List MoveEvent) :
    (es.foldl moveStep (initWithResult res encoding)).isEOF = true ↔
      RanOff (initWithResult res encoding) es := by
  induction es using List.reverseRecOn with
  | nil =>
    rw [initWithResult_of_rows rows]
    constructor
    · intro h
      cases h
    · rintro ⟨pre, e, post, h, -⟩
      exact absurd h (by simp)
  | append_singleton es e ih =>
    have hcount : (es.foldl moveStep (initWithResult res encoding)).rowCount ≠ 0 := by
      rw [(moved_foldl res encoding es).rowCount]
      exact rows
    rw [ranOff_snoc, List.foldl_append, List.foldl_cons, List.foldl_nil, moveStep_isEOF hcount, ih]

theorem moveStep_isEOF_empty (empty : c.rowCount = 0) : (c.moveStep e).isEOF = c.isEOF := by
  cases e with
  | moveNext => rw [moveStep, moveNext, if_pos empty]
  | movePrevious => rw [moveStep, movePrevious, if_pos empty]
  | moveFirst => rw [moveStep, moveFirst, if_pos empty]
  | moveLast => rw [moveStep, moveLast, if_pos empty]
  | close =>
    rw [moveStep, close]
    cases c.isOpen <;> rfl

theorem isEOF_foldl_empty (empty : res.tuples.length = 0) (es : List MoveEvent) :
    (es.foldl moveStep (initWithResult res encoding)).isEOF = true := by
  induction es using List.reverseRecOn with
  | nil =>
    rw [initWithResult_of_nil empty]
    rfl
  | append_singleton es e ih =>
    have hcount := (moved_foldl res encoding es).rowCount.trans empty
    rw [List.foldl_append, List.foldl_cons, List.foldl_nil, moveStep_isEOF_empty hcount, ih]

/-- What a field of the current record holds: nothing once the set is closed. -/
theorem Moved.field (h : Moved res es c) {i : Int} (hrecord : c.currentRecord = some i)
    (j : Fin n) : c.fieldByIndex j = .ok (some
      ⟨if .close ∈ es then none else (res.tuples[i.toNat]?).bind fun row => row j⟩) := by
  obtain ⟨-, low, -⟩ := h.record i hrecord
  by_cases closed : .close ∈ es
  · rw [fieldByIndex, hrecord, h.columns, h.result, if_pos closed, if_pos closed, if_pos closed]
    rfl
  · have hcolumns := h.columns
    have hresult := h.result
    rw [if_neg closed] at hcolumns hresult
    rw [fieldByIndex_open hcolumns hrecord j.isLt, hresult, if_neg closed]
    obtain ⟨row, rfl⟩ := Int.eq_ofNat_of_zero_le low
    rw [Int.toNat_natCast]
    cases htuple : res.tuples[row]? with
    | none => rw [fieldText_behind (List.getElem?_eq_none_iff.mp htuple)]; rfl
    | some tuple => rw [fieldText_tuple htuple]; rfl

/-- **Main result.** After any moves: the end has been reached if there are no rows, or
a move has run off them and none has gone to the first or the last record since. There
is a current record for a row only, or for the end of the rows right after a move to the
last record; it has the fields of the row, and NULLs at the end or once the set is closed. -/
theorem isEOF_iff (res : PGresult n) (encoding : NSStringEncoding) (es : List MoveEvent) :
    ((es.foldl moveStep (initWithResult res encoding)).isEOF = true ↔
      res.tuples = [] ∨ RanOff (initWithResult res encoding) es) ∧
    ∀ i, (es.foldl moveStep (initWithResult res encoding)).currentRecord = some i →
      0 ≤ i ∧ (i < res.tuples.length ∨
        (i = res.tuples.length ∧ es.getLast? = some .moveLast)) ∧
      ∀ j : Fin n, (es.foldl moveStep (initWithResult res encoding)).fieldByIndex j = .ok (some
        ⟨if .close ∈ es then none else (res.tuples[i.toNat]?).bind fun row => row j⟩) := by
  have moved := moved_foldl res encoding es
  constructor
  · by_cases empty : res.tuples.length = 0
    · exact iff_of_true (isEOF_foldl_empty empty es) (.inl (List.eq_nil_of_length_eq_zero empty))
    · rw [isEOF_foldl empty]
      constructor
      · exact .inr
      · rintro (nil | off)
        · exact absurd (congrArg List.length nil) empty
        · exact off
  · intro i hrecord
    obtain ⟨-, low, place⟩ := moved.record i hrecord
    exact ⟨low, place, fun j => moved.field hrecord j⟩

end RanOff

/-! ### Passes -/

/-- The fields of the current record, one for each column. -/
def readFields (c : Recordset n) : List (Except NSException (Option PGSQLField)) :=
  List.ofFn fun j : Fin n => c.fieldByIndex j

/-- The fields of a row. -/
def rowFields (row : PGSQLRow n) : List (Except NSException (Option PGSQLField)) :=
  List.ofFn fun j : Fin n => .ok (some ⟨row j⟩)

def nullRow (n : Nat) : PGSQLRow n := fun _ => none

section Passes

open Traversal

variable {res : PGresult n} {encoding : NSStringEncoding} {record : Option Int} {isEOF : Bool}

theorem readFields_placed {i : Nat} {row : PGSQLRow n} (h : res.tuples[i]? = some row) :
    (placed res encoding (some i) isEOF).readFields = rowFields row := by
  rw [readFields, rowFields]
  congr 1
  funext j
  rw [fieldByIndex_open rfl rfl j.isLt]
  exact congrArg (fun data => Except.ok (some (PGSQLField.mk data))) (fieldText_tuple h j)

/-- Behind the rows every field is NULL. -/
theorem readFields_behind (encoding : NSStringEncoding) (isEOF : Bool) :
    (placed res encoding (some res.tuples.length) isEOF).readFields =
      rowFields (nullRow n) := by
  rw [readFields, rowFields]
  congr 1
  funext j
  rw [fieldByIndex_open rfl rfl j.isLt]
  exact congrArg (fun data => Except.ok (some (PGSQLField.mk data)))
    (fieldText_behind (le_refl _) j)

/-- From behind row `i`, the previous record is that of row `i`. -/
theorem movePrevious_placed {i : Nat} (h : i < res.tuples.length) :
    (placed res encoding (some (i + 1 : Nat)) isEOF).movePrevious =
      placed res encoding (some i) isEOF := by
  have rows : (placed res encoding (some (i + 1 : Nat)) isEOF).rowCount ≠ 0 := by
    simp only [placed]
    omega
  rw [movePrevious, if_neg rows,
    if_neg (by simp only [currentRowIndex, placed, Option.getD_some]; omega)]
  simp only [setCurrentRecordWithRowIndex, placed, currentRowIndex, Option.getD_some]
  congr 2
  omega

theorem movePrevious_first (rows : res.tuples.length ≠ 0) :
    (placed res encoding (some 0) isEOF).movePrevious = placed res encoding none true := by
  have count : (placed res encoding (some 0) isEOF).rowCount ≠ 0 := rows
  rw [movePrevious, if_neg count, if_pos (by simp [currentRowIndex, placed])]
  rfl

/-- The rows that a pass forward has before it. -/
def AheadForward (res : PGresult n) (encoding : NSStringEncoding) (c : Recordset n)
    (fields : List (List (Except NSException (Option PGSQLField)))) : Prop :=
  (fields = [] ∧ c = placed res encoding none true) ∨
    ∃ i < res.tuples.length, c = placed res encoding (some (i : Nat)) false ∧
      fields = (res.tuples.drop i).map rowFields

theorem visits_forward (res : PGresult n) (encoding : NSStringEncoding) :
    Visits Recordset.isEOF readFields moveNext (initWithResult res encoding)
      (res.tuples.map rowFields) (placed res encoding none true) := by
  have start : AheadForward res encoding (initWithResult res encoding)
      (res.tuples.map rowFields) := by
    by_cases empty : res.tuples.length = 0
    · rw [initWithResult_of_nil empty, List.eq_nil_of_length_eq_zero empty]
      exact .inl ⟨rfl, rfl⟩
    · rw [initWithResult_of_rows empty]
      exact .inr ⟨0, Nat.pos_of_ne_zero empty, rfl, rfl⟩
  have last : ∀ c, AheadForward res encoding c [] → c = placed res encoding none true := by
    rintro c (⟨-, rfl⟩ | ⟨i, hi, -, some_rows⟩)
    · rfl
    · have none := congrArg List.length some_rows
      rw [List.length_map, List.length_drop, List.length_nil] at none
      omega
  have first : ∀ c x xs, AheadForward res encoding c (x :: xs) →
      c.isEOF = false ∧ c.readFields = x ∧ AheadForward res encoding c.moveNext xs := by
    rintro c x xs (⟨none, -⟩ | ⟨i, hi, rfl, some_rows⟩)
    · cases none
    · rw [List.drop_eq_getElem_cons hi, List.map_cons] at some_rows
      obtain ⟨rfl, rfl⟩ := List.cons_eq_cons.mp some_rows
      refine ⟨rfl, readFields_placed (List.getElem?_eq_getElem hi), ?_⟩
      rw [moveNext_placed hi]
      by_cases next : i + 1 < res.tuples.length
      · rw [if_pos next]
        exact .inr ⟨i + 1, next, rfl, rfl⟩
      · rw [if_neg next, List.drop_eq_nil_of_le (Nat.not_lt.mp next)]
        exact .inl ⟨rfl, rfl⟩
  obtain ⟨t, visits, atEnd⟩ := visits_of_ahead (fun c h => by rw [last c h]; rfl) first start
  rw [last t atEnd] at visits
  exact visits

/-- The rows that a pass back has before it. -/
def AheadBack (res : PGresult n) (encoding : NSStringEncoding) (c : Recordset n)
    (fields : List (List (Except NSException (Option PGSQLField)))) : Prop :=
  (fields = [] ∧ c = placed res encoding none true) ∨
    ∃ i < res.tuples.length, c = placed res encoding (some (i : Nat)) false ∧
      fields = ((res.tuples.take (i + 1)).map rowFields).reverse

theorem visits_back (encoding : NSStringEncoding) {i : Nat} (hi : i < res.tuples.length) :
    Visits Recordset.isEOF readFields movePrevious (placed res encoding (some (i : Nat)) false)
      ((res.tuples.take (i + 1)).map rowFields).reverse (placed res encoding none true) := by
  have start : AheadBack res encoding (placed res encoding (some (i : Nat)) false)
      ((res.tuples.take (i + 1)).map rowFields).reverse := .inr ⟨i, hi, rfl, rfl⟩
  have last : ∀ c, AheadBack res encoding c [] → c = placed res encoding none true := by
    rintro c (⟨-, rfl⟩ | ⟨j, hj, -, some_rows⟩)
    · rfl
    · have none := congrArg List.length some_rows
      rw [List.length_reverse, List.length_map, List.length_take, List.length_nil] at none
      omega
  have first : ∀ c x xs, AheadBack res encoding c (x :: xs) →
      c.isEOF = false ∧ c.readFields = x ∧ AheadBack res encoding c.movePrevious xs := by
    rintro c x xs (⟨none, -⟩ | ⟨j, hj, rfl, some_rows⟩)
    · cases none
    · rw [List.take_succ_eq_append_getElem hj, List.map_append, List.reverse_append] at some_rows
      obtain ⟨rfl, rfl⟩ := List.cons_eq_cons.mp some_rows
      refine ⟨rfl, readFields_placed (List.getElem?_eq_getElem hj), ?_⟩
      cases j with
      | zero =>
        rw [Nat.cast_zero, movePrevious_first (by omega)]
        exact .inl ⟨rfl, rfl⟩
      | succ j =>
        rw [movePrevious_placed (by omega)]
        exact .inr ⟨j, by omega, rfl, rfl⟩
  obtain ⟨t, visits, atEnd⟩ := visits_of_ahead (fun c h => by rw [last c h]; rfl) first start
  rw [last t atEnd] at visits
  exact visits

/-- **Main result.** A pass forward reads every row once. A pass back from the last record
reads a row of NULLs, and then every row once, the last one first. Both end at the end. -/
theorem passes_read (res : PGresult n) (encoding : NSStringEncoding) :
    Visits Recordset.isEOF readFields moveNext (initWithResult res encoding)
      (res.tuples.map rowFields) (placed res encoding none true) ∧
    (res.tuples ≠ [] →
      Visits Recordset.isEOF readFields movePrevious (initWithResult res encoding).moveLast
        (rowFields (nullRow n) :: (res.tuples.map rowFields).reverse)
        (placed res encoding none true)) := by
  refine ⟨visits_forward res encoding, fun some_rows => ?_⟩
  have rows : res.tuples.length ≠ 0 := fun empty =>
    some_rows (List.eq_nil_of_length_eq_zero empty)
  obtain ⟨last, hlast⟩ := Nat.exists_eq_succ_of_ne_zero rows
  have behind : (initWithResult res encoding).moveLast =
      placed res encoding (some res.tuples.length) false := by
    have count : (placed res encoding (some 0) false).rowCount ≠ 0 := rows
    rw [initWithResult_of_rows rows, moveLast, if_neg count]
    rfl
  have atLast : last < res.tuples.length := by omega
  have back := visits_back encoding atLast
  rw [List.take_of_length_le (by omega)] at back
  rw [behind, ← readFields_behind encoding false]
  refine .step rfl ?_
  rw [hlast, Nat.succ_eq_add_one, movePrevious_placed (by omega)]
  exact back

end Passes

/-! ### Dictionaries -/

/-- The text that stands for a field in a dictionary. -/
def valueText (encoding : NSStringEncoding) (type : Nat) (field : PGSQLField) : String :=
  if type = BOOL then (if field.asBoolean then "true" else "false") else field.asString encoding

/-- What a column puts under its name, if anything. -/
def columnValue (caseFold : String → String) (c : Recordset n) (column : PGSQLColumn) :
    Option String :=
  match c.fieldByName caseFold column.name with
  | some field => some (valueText c.defaultEncoding column.type field)
  | none => if column.type = BOOL then some "false" else none

section Dictionaries

variable {caseFold : String → String} {c : Recordset n} {res : PGresult n} {es : List MoveEvent}

theorem addColumnValue_lookup (dict : NSMutableDictionary String String) (column : PGSQLColumn)
    (name : String) : (c.addColumnValue caseFold dict column).lookup name =
      if name = column.name then c.columnValue caseFold column else dict.lookup name := by
  rw [addColumnValue, columnValue]
  by_cases same : name = column.name
  · subst same
    rw [if_pos rfl]
    cases c.fieldByName caseFold column.name with
    | none =>
      split
      · exact Finmap.lookup_insert _
      · exact Finmap.lookup_erase _ _
    | some field =>
      dsimp only [Option.map_some, Option.getD_some, valueText]
      split
      · exact Finmap.lookup_insert _
      · exact Finmap.lookup_insert _
  · rw [if_neg same]
    split
    · exact Finmap.lookup_insert_of_ne _ same
    · split
      · exact Finmap.lookup_insert_of_ne _ same
      · exact Finmap.lookup_erase_ne same

/-- Of columns with one name, the last has the say. -/
theorem foldl_addColumnValue_lookup (columns : List PGSQLColumn) (name : String) :
    (columns.foldl (c.addColumnValue caseFold) ∅).lookup name =
      (columns.reverse.find? fun column => name = column.name).bind (c.columnValue caseFold) := by
  induction columns using List.reverseRecOn with
  | nil => rfl
  | append_singleton columns column ih =>
    rw [List.foldl_append, List.foldl_cons, List.foldl_nil, addColumnValue_lookup, ih,
      List.reverse_append, List.reverse_singleton, List.singleton_append, List.find?_cons]
    by_cases same : name = column.name
    · rw [if_pos same, decide_eq_true same]
      rfl
    · rw [if_neg same, decide_eq_false same]

/-- The first column with a name in some case, by its place. -/
theorem find?_columnsOf {named : PGSQLColumn → Bool} {column : PGSQLColumn}
    (mem : column ∈ columnsOf res) (hnamed : named column = true) :
    ((columnsOf res).find? named).elim 0 PGSQLColumn.index = (columnsOf res).findIdx named := by
  have hlt : (columnsOf res).findIdx named < (columnsOf res).length :=
    List.findIdx_lt_length_of_exists ⟨column, mem, hnamed⟩
  rw [List.find?_eq_getElem?_findIdx, List.getElem?_eq_getElem hlt]
  simp [columnsOf]

/-- **Main result.** After any moves, the dictionary of an open set has a key for each
column name. Of columns with one name the last says whether it is a boolean; the value
comes from the first column that has the name in any case. Without a current record
only booleans are left, and all are false; a closed set gives no key at all. -/
theorem dictionary_holds (caseFold : String → String) (res : PGresult n)
    (encoding : NSStringEncoding) (es : List MoveEvent) (name : String) :
    ((es.foldl moveStep (initWithResult res encoding)).dictionaryFromRecord caseFold).lookup name =
      if .close ∈ es then none
      else ((columnsOf res).reverse.find? fun column => name = column.name).bind fun column =>
        match (es.foldl moveStep (initWithResult res encoding)).currentRecord with
        | none => if column.type = BOOL then some "false" else none
        | some i => some (valueText encoding column.type ⟨fieldText (some res) i
            ((columnsOf res).findIdx fun column => caseFold column.name = caseFold name)⟩) := by
  have moved := moved_foldl res encoding es
  have hencoding : (es.foldl moveStep (initWithResult res encoding)).defaultEncoding = encoding :=
    defaultEncoding_foldl res encoding es
  generalize es.foldl moveStep (initWithResult res encoding) = c at moved hencoding
  rw [dictionaryFromRecord, moved.columns]
  by_cases closed : .close ∈ es
  · rw [if_pos closed, if_pos closed]
    rfl
  · rw [if_neg closed, if_neg closed, Option.getD_some, foldl_addColumnValue_lookup]
    cases hlast : (columnsOf res).reverse.find? fun column => name = column.name with
    | none => rfl
    | some column =>
      have hname : name = column.name := by
        have found := List.find?_some hlast
        exact of_decide_eq_true found
      have mem : column ∈ columnsOf res := List.mem_reverse.mp (List.mem_of_find?_eq_some hlast)
      have hcolumns := moved.columns
      have hresult := moved.result
      rw [if_neg closed] at hcolumns hresult
      rw [Option.bind_some, Option.bind_some, columnValue, fieldByName]
      cases c.currentRecord with
      | none => rfl
      | some i =>
        dsimp only [Option.map_some]
        rw [hcolumns, hresult, hencoding, Option.getD_some, ← hname]
        congr 2
        rw [← find?_columnsOf mem (by rw [hname]; exact decide_eq_true rfl)]
        rfl

end Dictionaries

end Recordset

end PointIPad
