import PointIPad.QueryAnswer
import PointIPad.Recordset

/-!
Queries one after another over one connection, and the rows that they get.

Between the answers, and in the middle of them, the server may send what has nothing to
do with the queries: notices, notifications and the values of parameters.

**Main results.** Each query gets the answer that the server made to it
(`query_gets_answer`, `queries_get_answers`). There is no success before the server has said
that it is ready (`no_success_before_ready`). The rows of a table arrive as they are in it
(`rows_arrive`).
-/

namespace PointIPad

namespace Libpq

open Reading BackendMessage

/-! ### Messages that have nothing to do with a query -/

theorem receive_asynchronous (e : Exchange) {message : BackendMessage}
    (h : message.asynchronous = true) : e.receive message = .inr e := by
  cases message with
  | noticeResponse _ | parameterStatus _ _ | notificationResponse _ => rfl
  | _ => cases h

theorem answer_asynchronous {before : List ServerMessage}
    (h : ∀ m ∈ before, m.message.asynchronous = true) (how : ReadEnd) (e : Exchange)
    (ms : List ServerMessage) : answer how e (before ++ ms) = answer how e ms := by
  induction before with
  | nil => rfl
  | cons m before ih =>
    rw [List.cons_append, answer, receive_asynchronous e (h m List.mem_cons_self)]
    exact ih fun m' hm' => h m' (List.mem_cons_of_mem m hm')

theorem afterwards_asynchronous {before : List ServerMessage}
    (h : ∀ m ∈ before, m.message.asynchronous = true) (ms : List ServerMessage) :
    afterwards (before ++ ms) = afterwards ms := by
  induction before with
  | nil => rfl
  | cons m before ih =>
    have skipped := receive_asynchronous .begun (h m List.mem_cons_self)
    rw [List.cons_append, afterwards_of_inr (before ++ ms) skipped]
    exact ih fun m' hm' => h m' (List.mem_cons_of_mem m hm')

/-- They can come anywhere in an answer. -/
theorem answer_filter (how : ReadEnd) (e : Exchange) (ms : List ServerMessage) :
    answer how e (ms.filter fun m => !m.message.asynchronous) = answer how e ms := by
  induction ms generalizing e with
  | nil => rfl
  | cons m ms ih =>
    cases h : m.message.asynchronous with
    | true =>
      rw [List.filter_cons_of_neg (by rw [h]; decide), ih, answer, receive_asynchronous e h]
    | false =>
      rw [List.filter_cons_of_pos (by rw [h]; rfl), answer, answer]
      cases e.receive m.message with
      | inl last => rfl
      | inr e' => exact ih e'

/-! ### One query after another -/

/-- A connection between two queries: nothing is on its way but messages that have nothing to
do with them, the last one perhaps in part. -/
structure Between (conn : PGconn) (left : List Bytes) (piece : Bytes) : Prop where
  idle : conn.asyncStatus = .idle
  isOpen : conn.statusOk = true
  incomplete : Incomplete piece
  coming : ∃ before, (∀ m ∈ before, m.message.asynchronous = true) ∧
    conn.inBuffer ++ left.flatten = streamed before ++ piece

theorem streamed_append (ms ms' : List ServerMessage) :
    streamed (ms ++ ms') = streamed ms ++ streamed ms' := List.flatMap_append

/-- Nothing has to be dropped before the query goes out. -/
theorem PQexec_eq {conn : PGconn} {reads : List Bytes} {how : ReadEnd}
    (idle : (pqParseInput3 conn).asyncStatus = .idle)
    (isOpen : (pqParseInput3 conn).statusOk = true) :
    PQexec conn reads how = PQexecFinish { pqParseInput3 conn with
      errorMessage := [], result := none, asyncStatus := .busy } reads how none := by
  have waiting : (pqParseInput3 conn).asyncStatus ≠ .busy := by
    rw [idle]
    decide
  have none : PQgetResult conn reads how = (none, pqParseInput3 conn, reads) := by
    unfold PQgetResult
    dsimp only
    rw [if_neg waiting, takeResult, idle]
  have started : PQexecStart conn reads how = (true, pqParseInput3 conn, reads) := by
    rw [PQexecStart]
    split
    · rename_i h
      rw [none] at h
      cases h
      rfl
    · rename_i h
      rw [none] at h
      cases h
  rw [PQexec, started]
  dsimp only
  rw [PQsendQuery, isOpen, idle]
  rfl

/-- One query, and the connection behind it. -/
theorem Between.exec {conn : PGconn} {left reads : List Bytes} {piece piece' : Bytes}
    {ms : List ServerMessage} (h : Between conn left piece) (incomplete : Incomplete piece')
    (coming : piece ++ reads.flatten = streamed ms ++ piece') (how : ReadEnd) :
    (PQexec conn (left ++ reads) how).1 = answer how .begun ms ∧
      ∀ after, afterwards ms = some after → (∀ m ∈ after, m.message.asynchronous = true) →
        Between (PQexec conn (left ++ reads) how).2.1 (PQexec conn (left ++ reads) how).2.2
          piece' := by
  obtain ⟨before, hbefore, bytes⟩ := h.coming
  have waiting : conn.asyncStatus ≠ .busy := by
    rw [h.idle]
    decide
  obtain ⟨status, -, isOpen, rest, hrest, parsed⟩ :=
    pqParseInput3_keeps h.incomplete bytes waiting
  have hothers : ∀ m ∈ rest, m.message.asynchronous = true := fun m hm =>
    hbefore m (hrest.subset hm)
  have all : (pqParseInput3 conn).inBuffer ++ (left ++ reads).flatten =
      streamed (rest ++ ms) ++ piece' := by
    rw [List.flatten_append, ← List.append_assoc, parsed, List.append_assoc, coming,
      streamed_append, List.append_assoc]
  have hanswered : Answered (PQexecFinish { pqParseInput3 conn with
      errorMessage := [], result := none, asyncStatus := .busy } (left ++ reads) how none)
      how .begun (rest ++ ms) piece' :=
    answered (rest ++ ms) incomplete all rfl (isOpen.trans h.isOpen) nofun
  rw [PQexec_eq (status.trans h.idle) (isOpen.trans h.isOpen)]
  constructor
  · rw [hanswered.result, answer_asynchronous hothers]
  · intro after hafter others
    obtain ⟨idle, isOpen, left', hleft, bytes'⟩ :=
      hanswered.settled after ((afterwards_asynchronous hothers ms).trans hafter)
    exact ⟨idle, isOpen, incomplete, left', fun m hm => others m (hleft.subset hm), bytes'⟩

theorem incomplete_nil : Incomplete [] :=
  ⟨⟨emptyQueryResponse, trivial, by decide, .inr (by decide)⟩, _, List.cons_ne_nil _ _,
    List.nil_append _⟩

namespace Tea

/-- One column, of type `text`. -/
def columns : List PGresAttDesc := [⟨utf8Bytes "name", 16384, 2, 25, -1, -1, 0⟩]

/-- The row of a drink, and one without a name. -/
def table : PointIPad.PGresult 1 := ⟨fun _ => ("name", 25), [fun _ => some "Tea", fun _ => none]⟩

def notice : ServerMessage :=
  ⟨noticeResponse [('S'.toUInt8, utf8Bytes "LOG")], by simp [Texts]; decide, by decide, .inl rfl⟩

/-- The answer to a query for the table, with a notice before it. -/
def sent : List ServerMessage :=
  [notice,
    ⟨rowDescription columns, by simp [Texts, columns]; decide, by decide, .inl rfl⟩,
    ⟨dataRow [some (utf8Bytes "Tea")], by simp [Texts], by decide, .inl rfl⟩,
    ⟨dataRow [none], by simp [Texts], by decide, .inl rfl⟩,
    ⟨commandComplete (utf8Bytes "SELECT 2"), by simp [Texts]; decide, by decide, .inr (by decide)⟩,
    ⟨readyForQuery 'I'.toUInt8, trivial, by decide, .inr (by decide)⟩]

/-- An idle connection; the first three bytes of the notice are there already. -/
def conn : PGconn where
  inBuffer := (streamed sent).take 3
  statusOk := true
  asyncStatus := .idle
  xactStatus := .idle
  result := none
  errorMessage := []
  pstatus := []
  notifies := []
  notices := []

/-- The rest, in two reads. -/
def reads : List Bytes := [((streamed sent).drop 3).take 40, ((streamed sent).drop 3).drop 40]

theorem reads_flatten : reads.flatten = (streamed sent).drop 3 := by
  rw [reads, List.flatten_cons, List.flatten_singleton, List.take_append_drop]

theorem coming : conn.inBuffer ++ reads.flatten = streamed sent ++ [] := by
  rw [reads_flatten, List.append_nil]
  exact List.take_append_drop 3 _

theorem between : Between conn [] conn.inBuffer where
  idle := rfl
  isOpen := rfl
  incomplete := ⟨notice, notice.message.encode.drop 3, by decide, rfl⟩
  coming := ⟨[], nofun, List.append_nil _⟩

end Tea

/-- **Main result.** As long as the server has not said that it is ready, there is no success:
a copy begins, or the result is an error. It says how reading came to its end, unless the
server has closed the connection in order. -/
theorem no_success_before_ready {conn : PGconn} {left reads : List Bytes} {piece tail : Bytes}
    {ms : List ServerMessage} (h : Between conn left piece) (incomplete : Incomplete tail)
    (coming : piece ++ reads.flatten = streamed ms ++ tail) (how : ReadEnd)
    (never : ∀ m ∈ ms, ∀ status, m.message ≠ .readyForQuery status) :
    ∃ res, (PQexec conn (left ++ reads) how).1 = some res ∧
      (isCopy res.resultStatus = true ∨ FailsWith how.text.toList res) := by
  obtain ⟨result, -⟩ := h.exec incomplete coming how
  rw [result]
  exact answer_of_never_ready never

/-- The connection is reset behind the rows. -/
theorem no_success_before_ready_tea :
    ∃ res, (PQexec Tea.conn ([] ++ [(streamed (Tea.sent.take 4)).drop 3]) .reset).1 = some res ∧
      (isCopy res.resultStatus = true ∨ FailsWith [.connectionClosed] res) := by
  apply no_success_before_ready Tea.between incomplete_nil
  · rw [List.flatten_singleton, List.append_nil]
    exact List.take_append_drop 3 (streamed (Tea.sent.take 4))
  · intro m hm status
    simp only [Tea.sent, List.take, List.mem_cons, List.not_mem_nil, or_false] at hm
    rcases hm with rfl | rfl | rfl | rfl <;> exact nofun

/-- Queries, each with the reads that come after it has gone out, and their results. -/
def PQexecs (how : ReadEnd) (conn : PGconn) (left : List Bytes) :
    List (List Bytes) → List (Option PGresult)
  | [] => []
  | reads :: more =>
    let out := PQexec conn (left ++ reads) how
    out.1 :: PQexecs how out.2.1 out.2.2 more

/-- The server answers each query when it has gone out. What comes behind an answer, before
the next query, has nothing to do with the queries; its last message may be cut. -/
inductive Carries : Bytes → List (List Bytes) → List (List ServerMessage) → Prop where
  | nil {piece : Bytes} : Carries piece [] []
  | cons {piece piece' : Bytes} {reads : List Bytes} {more : List (List Bytes)}
      {ms after : List ServerMessage} {answers : List (List ServerMessage)} :
      Incomplete piece' → piece ++ reads.flatten = streamed ms ++ piece' →
      afterwards ms = some after → (∀ m ∈ after, m.message.asynchronous = true) →
      Carries piece' more answers → Carries piece (reads :: more) (ms :: answers)

/-- **Main result.** Each query gets the answer that the server has made to it, however the
answers are cut, and whatever else the server sends. -/
theorem queries_get_answers {conn : PGconn} {left : List Bytes} {piece : Bytes}
    {batches : List (List Bytes)} {answers : List (List ServerMessage)}
    (h : Between conn left piece) (carried : Carries piece batches answers) (how : ReadEnd) :
    PQexecs how conn left batches = answers.map (answer how .begun) := by
  induction carried generalizing conn left with
  | nil => rfl
  | cons incomplete coming hafter others _ ih =>
    obtain ⟨result, next⟩ := h.exec incomplete coming how
    rw [PQexecs, List.map_cons, result, ih (next _ hafter others)]

/-- The same query twice. -/
theorem queries_get_answers_tea :
    PQexecs .closed Tea.conn [] [Tea.reads, [streamed Tea.sent]] =
      [answer .closed .begun Tea.sent, answer .closed .begun Tea.sent] := by
  have carried : Carries Tea.conn.inBuffer [Tea.reads, [streamed Tea.sent]] [Tea.sent, Tea.sent] := by
    apply Carries.cons incomplete_nil Tea.coming rfl (List.forall_mem_nil _)
    refine Carries.cons incomplete_nil ?_ rfl (List.forall_mem_nil _) Carries.nil
    rw [List.flatten_singleton, List.nil_append, List.append_nil]
  exact queries_get_answers Tea.between carried .closed

/-! ### The rows of a table

What the app sees of a result in `PointIPad.PGresult`, here in the bytes of a `PGresult`. -/

def checkTupleFieldNumber (res : PGresult) (tup_num field_num : Int) : Bool :=
  decide (0 ≤ tup_num) && decide (tup_num < res.tuples.length) && decide (0 ≤ field_num) &&
    decide (field_num < res.attDescs.length)

/-- What is in a field, if there is one: `none` for NULL. -/
def field? (res : PGresult) (tup_num field_num : Int) : Option (Option Bytes) :=
  res.tuples[tup_num.toNat]?.bind fun tup => tup[field_num.toNat]?

/-- The value of NULL is empty. -/
def PQgetvalue (res : PGresult) (tup_num field_num : Int) : Option Bytes :=
  if !checkTupleFieldNumber res tup_num field_num then none
  else (field? res tup_num field_num).map fun value => value.getD []

/-- What is outside is taken to be NULL. -/
def PQgetisnull (res : PGresult) (tup_num field_num : Int) : Bool :=
  if !checkTupleFieldNumber res tup_num field_num then true
  else ((field? res tup_num field_num).join).isNone

variable {n : Nat}

/-- What the server sends of a row. -/
def rowValues (row : PGSQLRow n) : List (Option Bytes) :=
  List.ofFn fun field => (row field).map utf8Bytes

/-- The messages that answer a query for a table. -/
def tableAnswer (columns : List PGresAttDesc) (table : PointIPad.PGresult n) (commandTag : Bytes)
    (status : UInt8) : List BackendMessage :=
  rowDescription columns :: (table.tuples.map fun row => dataRow (rowValues row)) ++
    [commandComplete commandTag, readyForQuery status]

/-- The result of libpq for a table. -/
def tableResult (columns : List PGresAttDesc) (table : PointIPad.PGresult n) (commandTag : Bytes) :
    PGresult where
  resultStatus := .tuplesOk
  attDescs := columns
  tuples := table.tuples.map rowValues
  cmdStatus := commandTag.take CMDSTATUS_LEN
  paramDescs := []
  errMsg := []

theorem answer_rows {columns : List PGresAttDesc} (width : columns.length = n)
    {rows : List (PGSQLRow n)} {ms : List ServerMessage} {before : List (List (Option Bytes))}
    {commandTag : Bytes} {status : UInt8} {errorMessage : List ErrorText} (how : ReadEnd)
    (sent : ms.map ServerMessage.message = (rows.map fun row => dataRow (rowValues row)) ++
      [commandComplete commandTag, readyForQuery status]) :
    answer how ⟨some { emptyResult .tuplesOk [] with attDescs := columns, tuples := before }, none,
        errorMessage⟩ ms =
      some { emptyResult .tuplesOk [] with
        attDescs := columns
        tuples := before ++ rows.map rowValues
        cmdStatus := commandTag.take CMDSTATUS_LEN } := by
  induction rows generalizing ms before with
  | nil =>
    obtain ⟨complete, ms, rfl, hcomplete, sent⟩ := List.map_eq_cons_iff.mp sent
    obtain ⟨ready, ms, rfl, hready, -⟩ := List.map_eq_cons_iff.mp sent
    rw [answer, hcomplete]
    show answer how _ (ready :: ms) = _
    rw [answer, hready, List.map_nil, List.append_nil]
    rfl
  | cons row rows ih =>
    obtain ⟨m, ms, rfl, hm, sent⟩ := List.map_eq_cons_iff.mp sent
    have fits : (rowValues row).length = columns.length := by
      rw [rowValues, List.length_ofFn, width]
    rw [answer, hm]
    show answer how (if (rowValues row).length ≠ columns.length then _ else _) ms = _
    rw [if_neg (not_not.mpr fits)]
    refine (ih sent).trans ?_
    simp only [List.map_cons, List.append_assoc, List.singleton_append]

theorem answer_table {columns : List PGresAttDesc} {table : PointIPad.PGresult n}
    (width : columns.length = n) {commandTag : Bytes} {status : UInt8} {ms : List ServerMessage}
    (how : ReadEnd)
    (sent : (ms.filter fun m => !m.message.asynchronous).map ServerMessage.message =
      tableAnswer columns table commandTag status) :
    answer how .begun ms = some (tableResult columns table commandTag) := by
  rw [← answer_filter]
  obtain ⟨m, rows, hms, hm, sent⟩ := List.map_eq_cons_iff.mp sent
  rw [hms, answer, hm]
  exact answer_rows width how sent

section Fields

variable {columns : List PGresAttDesc} {table : PointIPad.PGresult n} {commandTag : Bytes}

theorem checkTupleFieldNumber_iff {tup_num field_num : Int} :
    PointIPad.checkTupleFieldNumber (some table) tup_num field_num = true ↔
      0 ≤ tup_num ∧ tup_num < table.tuples.length ∧ 0 ≤ field_num ∧ field_num < n := by
  simp only [PointIPad.checkTupleFieldNumber, Bool.and_eq_true, decide_eq_true_eq,
    Option.isSome_some, true_and, and_assoc]
  rfl

theorem checkTupleFieldNumber_tableResult (width : columns.length = n)
    (tup_num field_num : Int) :
    checkTupleFieldNumber (tableResult columns table commandTag) tup_num field_num =
      PointIPad.checkTupleFieldNumber (some table) tup_num field_num := by
  have rows : (tableResult columns table commandTag).tuples.length = table.tuples.length :=
    List.length_map _
  have fields : (tableResult columns table commandTag).attDescs.length = n := width
  rw [Bool.eq_iff_iff, checkTupleFieldNumber_iff, checkTupleFieldNumber, rows, fields]
  simp only [Bool.and_eq_true, decide_eq_true_eq, and_assoc]

/-- A field of the answer is one of the table. -/
theorem field?_tableResult {tup_num field_num : Int}
    (inside : PointIPad.checkTupleFieldNumber (some table) tup_num field_num = true) :
    field? (tableResult columns table commandTag) tup_num field_num =
      (PointIPad.field? (some table) tup_num field_num).map (Option.map utf8Bytes) := by
  obtain ⟨low, below, left, right⟩ := checkTupleFieldNumber_iff.mp inside
  have column : field_num.toNat < n := by omega
  have row : tup_num.toNat < table.tuples.length := by omega
  have hrow : table.tuples[tup_num.toNat]? = some table.tuples[tup_num.toNat] :=
    List.getElem?_eq_getElem row
  rw [field?, tableResult, List.getElem?_map, hrow, Option.map_some, Option.bind_some,
    rowValues, List.getElem?_ofFn, dif_pos column, PointIPad.field?, Option.bind_some, hrow,
    Option.bind_some, dif_pos column, Option.map_some]

theorem PQgetisnull_tableResult (width : columns.length = n) (tup_num field_num : Int) :
    PQgetisnull (tableResult columns table commandTag) tup_num field_num =
      PointIPad.PQgetisnull (some table) tup_num field_num := by
  rw [PQgetisnull, PointIPad.PQgetisnull, checkTupleFieldNumber_tableResult width]
  cases inside : PointIPad.checkTupleFieldNumber (some table) tup_num field_num with
  | false => rfl
  | true =>
    rw [field?_tableResult inside]
    rcases PointIPad.field? (some table) tup_num field_num with _ | _ | value <;> rfl

/-- NULL has the empty value on both sides. -/
theorem PQgetvalue_tableResult (width : columns.length = n) (tup_num field_num : Int) :
    PQgetvalue (tableResult columns table commandTag) tup_num field_num =
      (PointIPad.PQgetvalue (some table) tup_num field_num).map utf8Bytes := by
  rw [PQgetvalue, PointIPad.PQgetvalue, checkTupleFieldNumber_tableResult width]
  cases inside : PointIPad.checkTupleFieldNumber (some table) tup_num field_num with
  | false => rfl
  | true =>
    rw [field?_tableResult inside]
    rcases PointIPad.field? (some table) tup_num field_num with _ | _ | value <;> rfl

end Fields

/-- **Main result.** The rows of a table arrive as they are in it, with their NULLs, whatever
else the server sends, and however all of it is cut. -/
theorem rows_arrive {columns : List PGresAttDesc} {table : PointIPad.PGresult n}
    (width : columns.length = n) {commandTag : Bytes} {status : UInt8} {ms : List ServerMessage}
    (sent : (ms.filter fun m => !m.message.asynchronous).map ServerMessage.message =
      tableAnswer columns table commandTag status)
    {conn : PGconn} {left reads : List Bytes} {piece tail : Bytes} (h : Between conn left piece)
    (incomplete : Incomplete tail) (coming : piece ++ reads.flatten = streamed ms ++ tail)
    (how : ReadEnd) :
    ∃ res, (PQexec conn (left ++ reads) how).1 = some res ∧ res.resultStatus = .tuplesOk ∧
      res.attDescs = columns ∧ res.tuples.length = PQntuples (some table) ∧
      ∀ tup_num field_num : Int,
        PQgetisnull res tup_num field_num =
          PointIPad.PQgetisnull (some table) tup_num field_num ∧
        PQgetvalue res tup_num field_num =
          (PointIPad.PQgetvalue (some table) tup_num field_num).map utf8Bytes := by
  obtain ⟨result, -⟩ := h.exec incomplete coming how
  refine ⟨tableResult columns table commandTag, ?_, rfl, rfl, List.length_map _,
    fun tup_num field_num => ⟨PQgetisnull_tableResult width tup_num field_num,
      PQgetvalue_tableResult width tup_num field_num⟩⟩
  rw [result, answer_table width how sent]

theorem rows_arrive_tea :
    ∃ res, (PQexec Tea.conn ([] ++ Tea.reads) .closed).1 = some res ∧
      PQgetvalue res 0 0 = some (utf8Bytes "Tea") ∧ PQgetisnull res 1 0 = true ∧
      PQgetvalue res 1 0 = some [] ∧ PQgetvalue res 0 (-1) = none := by
  obtain ⟨res, hres, -, -, -, fields⟩ := @rows_arrive 1 Tea.columns Tea.table rfl
    (utf8Bytes "SELECT 2") 'I'.toUInt8 Tea.sent rfl _ _ _ _ _ Tea.between incomplete_nil Tea.coming
    .closed
  exact ⟨res, hres, (fields 0 0).2, (fields 1 0).1, (fields 1 0).2, (fields 0 (-1)).2⟩

end Libpq

end PointIPad
