import PointIPad.ServerMessages

/-!
The answer to a query, message by message.

What a query comes to depends on the messages of the server, and on how reading ends if they
break off (`answer`): each finished result takes the place of the one before, error texts are
put together, and without the message that the server is ready again there is an error.

libpq returns this answer however the messages are cut into reads, and wherever and however
the connection breaks (`answered`).
-/

namespace PointIPad

namespace Libpq

open Reading BackendMessage

/-! ### The answer -/

def emptyResult (status : ExecStatusType) (errMsg : List ErrorText) : PGresult :=
  ⟨status, [], [], [], [], errMsg⟩

/-- An error, with these texts behind the ones that the result has. -/
def withError (result : Option PGresult) (texts : List ErrorText) : PGresult :=
  match result with
  | none => emptyResult .fatalError texts
  | some res =>
    if res.resultStatus ≠ .fatalError ∨ res.errMsg = [] then emptyResult .fatalError texts
    else { res with errMsg := res.errMsg ++ texts }

/-- An answer as it comes in: the result that is being put together, what the results before
it have come to, and the texts that an error without a text of its own takes up. -/
structure Exchange where
  result : Option PGresult
  last : Option PGresult
  errorMessage : List ErrorText

namespace Exchange

/-- When the query has gone out. -/
def begun : Exchange := ⟨none, none, []⟩

def finish (e : Exchange) (result : PGresult) : Exchange :=
  ⟨none, some (mergeResult e.last result), (mergeResult e.last result).errMsg⟩

def fail (e : Exchange) (text : ErrorText) : Exchange :=
  { e with result := some (withError e.result [text]), errorMessage := [text] }

def addRow (e : Exchange) (values : List (Option Bytes)) : Exchange :=
  match e.result with
  | none => e.fail .noRowDescription
  | some res =>
    match res.resultStatus with
    | .tuplesOk =>
      if values.length ≠ res.attDescs.length then e.fail .fieldCount
      else { e with result := some { res with tuples := res.tuples ++ [values] } }
    | .fatalError => e
    | _ => e.fail .noRowDescription

/-- The answer is over, or it goes on. -/
def receive (e : Exchange) : BackendMessage → Option PGresult ⊕ Exchange
  | rowDescription columns =>
    -- columns of another result end the one before
    let e := e.result.elim e e.finish
    .inr { e with result := some { emptyResult .tuplesOk [] with attDescs := columns } }
  | dataRow values => .inr (e.addRow values)
  | commandComplete commandTag =>
    let res := e.result.getD (emptyResult .commandOk [])
    .inr (e.finish { res with cmdStatus := commandTag.take CMDSTATUS_LEN })
  | emptyQueryResponse => .inr (e.finish (e.result.getD (emptyResult .emptyQuery [])))
  | errorResponse fields => .inr (e.finish (emptyResult .fatalError [.server fields]))
  | noticeResponse _ | parameterStatus _ _ | notificationResponse _ => .inr e
  | readyForQuery _ => .inl e.last
  | copyResponse direction _ formats =>
    .inl (some (mergeResult e.last
      { emptyResult direction.resultStatus [] with attDescs := copyColumns formats }))

end Exchange

/-- What the messages come to, if reading ends behind them. -/
def answer (how : ReadEnd) (e : Exchange) : List ServerMessage → Option PGresult
  | [] => some (mergeResult e.last (withError e.result (how.texts e.errorMessage)))
  | m :: ms =>
    match e.receive m.message with
    | .inl last => last
    | .inr e => answer how e ms

/-- What comes behind the message that the server is ready. -/
def afterwards : List ServerMessage → Option (List ServerMessage)
  | [] => none
  | m :: ms =>
    match m.message with
    | .readyForQuery _ => some ms
    | .copyResponse _ _ _ => none
    | _ => afterwards ms

theorem afterwards_of_inr {e e' : Exchange} {m : ServerMessage} (ms : List ServerMessage)
    (h : e.receive m.message = .inr e') : afterwards (m :: ms) = afterwards ms := by
  rw [afterwards]
  split
  · rename_i status hm
    rw [hm] at h
    cases h
  · rename_i hm
    rw [hm] at h
    cases h
  · rfl

/-! ### Streams of messages -/

def streamed (ms : List ServerMessage) : Bytes := ms.flatMap fun m => m.message.encode

/-- A piece of a message, without its end. -/
def Incomplete (piece : Bytes) : Prop :=
  ∃ m : ServerMessage, ∃ missing, missing ≠ [] ∧ piece ++ missing = m.message.encode

/-- Of the messages that are still to come the first has arrived, or not all of it. -/
theorem arrived_cases {arrived coming tail : Bytes} {ms : List ServerMessage}
    (incomplete : Incomplete tail) (h : arrived ++ coming = streamed ms ++ tail) :
    (∃ m ms' rest, ms = m :: ms' ∧ arrived = m.message.encode ++ rest ∧
        rest ++ coming = streamed ms' ++ tail) ∨
      Incomplete arrived ∧ (ms = [] ∨ coming ≠ []) := by
  cases ms with
  | nil =>
    obtain ⟨m, missing, some_missing, hm⟩ := incomplete
    rw [streamed, List.flatMap_nil, List.nil_append] at h
    refine .inr ⟨⟨m, coming ++ missing, ?_, ?_⟩, .inl rfl⟩
    · exact List.append_ne_nil_of_right_ne_nil _ some_missing
    · rw [← List.append_assoc, h, hm]
  | cons m ms =>
    rw [streamed, List.flatMap_cons, List.append_assoc] at h
    rcases List.append_eq_append_iff.mp h with ⟨missing, hm, hcoming⟩ | ⟨rest, harrived, hrest⟩
    · by_cases complete : missing = []
      · subst complete
        rw [List.append_nil] at hm
        exact .inl ⟨m, ms, [], rfl, by rw [List.append_nil, hm], hcoming⟩
      · refine .inr ⟨⟨m, missing, complete, hm.symm⟩, .inr ?_⟩
        rw [hcoming]
        exact List.append_ne_nil_of_left_ne_nil complete _
    · exact .inl ⟨m, ms, rest, rfl, harrived, hrest.symm⟩

/-! ### Turns of the loops -/

section Turns

variable {conn conn' : PGconn} {reads : List Bytes} {how : ReadEnd} {last : Option PGresult}
  {rest : Bytes}

theorem PQgetResult_of_consumed (h : parseMessage conn = .consumed conn' rest) :
    PQgetResult conn reads how = PQgetResult { conn' with inBuffer := rest } reads how := by
  unfold PQgetResult
  rw [pqParseInput3_of_consumed h]

theorem PQgetResult_read (waits : parseMessage conn = .returned conn)
    (busy : conn.asyncStatus = .busy) (isOpen : conn.statusOk = true) (read : Bytes) :
    PQgetResult conn (read :: reads) how =
      PQgetResult { conn with inBuffer := conn.inBuffer ++ read } reads how := by
  conv_lhs => unfold PQgetResult
  dsimp only
  rw [pqParseInput3_of_returned waits, if_pos busy, isOpen]
  rfl

theorem PQgetResult_ended (waits : parseMessage conn = .returned conn)
    (busy : conn.asyncStatus = .busy) :
    PQgetResult conn [] how = (some (pqPrepareAsyncResult (readFailed conn how)).1,
      (pqPrepareAsyncResult (readFailed conn how)).2, []) := by
  unfold PQgetResult
  dsimp only
  rw [pqParseInput3_of_returned waits, if_pos busy]
  split <;> rfl

theorem PQgetResult_taken (waits : parseMessage conn = .returned conn')
    (there : conn'.asyncStatus ≠ .busy) :
    PQgetResult conn reads how = ((takeResult conn').1, (takeResult conn').2, reads) := by
  unfold PQgetResult
  dsimp only
  rw [pqParseInput3_of_returned waits, if_neg there]

theorem PQexecFinish_eq (conn : PGconn) (reads : List Bytes) (how : ReadEnd)
    (last : Option PGresult) :
    PQexecFinish conn reads how last =
      match PQgetResult conn reads how with
      | (none, conn, reads) => (last, conn, reads)
      | (some result, conn', reads') =>
        if isCopy (mergeResult last result).resultStatus = true ∨
            (mergeErrors last result conn').statusOk = false then
          (some (mergeResult last result), mergeErrors last result conn', reads')
        else PQexecFinish (mergeErrors last result conn') reads' how (some (mergeResult last result)) := by
  rw [PQexecFinish]
  split
  · rename_i h
    rw [h]
  · rename_i h
    rw [h]
    dsimp only
    split
    · rfl
    · rfl

theorem PQexecFinish_congr {conn₂ : PGconn} {reads₂ : List Bytes}
    (h : PQgetResult conn reads how = PQgetResult conn₂ reads₂ how) :
    PQexecFinish conn reads how last = PQexecFinish conn₂ reads₂ how last := by
  rw [PQexecFinish_eq, h, ← PQexecFinish_eq]

/-- The state in which the query goes on, once the result has been fetched: the text of the
connection is that of the results so far. -/
def released (conn : PGconn) (res : PGresult) (last : Option PGresult) : PGconn :=
  { conn with result := none, asyncStatus := .busy, errorMessage := (mergeResult last res).errMsg }

theorem mergeErrors_eq_released (conn : PGconn) (res : PGresult) (last : Option PGresult) :
    mergeErrors last res
      { conn with result := none, errorMessage := res.errMsg, asyncStatus := .busy } =
        released conn res last := by
  unfold mergeErrors released mergeResult
  split
  · rfl
  · split <;> rfl

theorem isCopy_mergeResult_false {res : PGresult} (nocopy : isCopy res.resultStatus = false) :
    isCopy (mergeResult last res).resultStatus = false := by
  unfold mergeResult
  split
  · exact nocopy
  · rename_i last
    split
    · rename_i fatal
      show isCopy last.resultStatus = false
      rw [fatal.1]
      rfl
    · exact nocopy

/-- A result is fetched. -/
theorem PQexecFinish_ready {res : PGresult} (waits : parseMessage conn = .returned conn')
    (ready : conn'.asyncStatus = .ready) (isOpen : conn'.statusOk = true)
    (hres : conn'.result = some res) (nocopy : isCopy res.resultStatus = false) :
    PQexecFinish conn reads how last =
      PQexecFinish (released conn' res last) reads how (some (mergeResult last res)) := by
  have there : conn'.asyncStatus ≠ .busy := by
    rw [ready]
    decide
  rw [PQexecFinish_eq, PQgetResult_taken waits there, takeResult, ready]
  dsimp only
  rw [pqPrepareAsyncResult, hres, Option.getD_some]
  dsimp only
  rw [mergeErrors_eq_released, if_neg]
  rw [isCopy_mergeResult_false nocopy, released, isOpen]
  decide

end Turns

/-! ### Results that are finished early -/

theorem deliver_anytime (conn : PGconn) {message : BackendMessage} (h : message.anytime = true) :
    ∃ notices notifies, ∀ conn' : PGconn,
      conn'.notices = conn.notices → conn'.notifies = conn.notifies →
      deliver conn' message = .taken { conn' with notices, notifies } := by
  cases message with
  | noticeResponse fields =>
    refine ⟨conn.notices ++ [.server fields], conn.notifies, fun conn' hnotices hnotifies => ?_⟩
    rw [deliver, ← hnotices, ← hnotifies]
  | notificationResponse notify =>
    refine ⟨conn.notices, conn.notifies ++ [notify], fun conn' hnotices hnotifies => ?_⟩
    rw [deliver, ← hnotices, ← hnotifies]
  | _ => cases h

theorem parseMessage_of_incomplete {conn : PGconn} (h : Incomplete conn.inBuffer) :
    parseMessage conn = .returned conn := by
  obtain ⟨m, missing, some_missing, hm⟩ := h
  exact parseMessage_incomplete m some_missing hm

/-- Whether a finished result is fetched before or after the notices behind it are dealt
with makes no difference. -/
theorem PQexecFinish_release {conn : PGconn} {reads : List Bytes} {how : ReadEnd}
    {last : Option PGresult} {res : PGresult} {ms : List ServerMessage} {tail : Bytes}
    (incomplete : Incomplete tail)
    (coming : conn.inBuffer ++ reads.flatten = streamed ms ++ tail)
    (ready : conn.asyncStatus = .ready) (isOpen : conn.statusOk = true)
    (hres : conn.result = some res) (nocopy : isCopy res.resultStatus = false) :
    PQexecFinish conn reads how last =
      PQexecFinish (released conn res last) reads how (some (mergeResult last res)) := by
  induction ms generalizing conn with
  | nil =>
    rcases arrived_cases incomplete coming with ⟨_, _, _, same, _⟩ | ⟨piece, -⟩
    · cases same
    · exact PQexecFinish_ready (parseMessage_of_incomplete piece) ready isOpen hres nocopy
  | cons m ms ih =>
    rcases arrived_cases incomplete coming with ⟨m, ms', rest, same, harrived, hrest⟩ | ⟨piece, -⟩
    · cases same
      cases hany : m.message.anytime with
      | true =>
        obtain ⟨notices, notifies, taken⟩ := deliver_anytime conn hany
        have early := parseMessage_encode m harrived
        rw [taken conn rfl rfl] at early
        have late : parseMessage (released conn res last) = _ := parseMessage_encode m harrived
        rw [taken (released conn res last) rfl rfl] at late
        calc PQexecFinish conn reads how last
          _ = PQexecFinish { conn with notices, notifies, inBuffer := rest } reads how last :=
            PQexecFinish_congr (PQgetResult_of_consumed early)
          _ = PQexecFinish (released { conn with notices, notifies, inBuffer := rest } res last)
                reads how (some (mergeResult last res)) := ih hrest ready isOpen hres
          _ = PQexecFinish (released conn res last) reads how (some (mergeResult last res)) :=
            (PQexecFinish_congr (PQgetResult_of_consumed late)).symm
      | false =>
        have held := parseMessage_encode m harrived
        rw [deliver_waits conn hany, ready] at held
        exact PQexecFinish_ready held ready isOpen hres nocopy
    · exact PQexecFinish_ready (parseMessage_of_incomplete piece) ready isOpen hres nocopy

/-! ### Connections that are not waiting -/

theorem deliver_not_busy {conn : PGconn} (waiting : conn.asyncStatus ≠ .busy)
    (message : BackendMessage) :
    deliver conn message = .held conn ∨ ∃ conn', deliver conn message = .taken conn' ∧
      conn'.asyncStatus = conn.asyncStatus ∧ conn'.result = conn.result ∧
      conn'.statusOk = conn.statusOk := by
  cases hany : message.anytime with
  | true =>
    obtain ⟨notices, notifies, taken⟩ := deliver_anytime conn hany
    exact .inr ⟨_, taken conn rfl rfl, rfl, rfl, rfl⟩
  | false =>
    rw [deliver_waits conn hany]
    cases hstatus : conn.asyncStatus with
    | busy => exact absurd hstatus waiting
    | idle =>
      cases message with
      | _ => exact .inr ⟨_, rfl, hstatus, rfl, rfl⟩
    | ready | copyIn | copyOut | copyBoth => exact .inl rfl

/-- Parsing changes neither the state nor the result of such a connection, and takes off
some of the messages. -/
theorem pqParseInput3_keeps {conn : PGconn} {coming : Bytes} {ms : List ServerMessage} {tail : Bytes}
    (incomplete : Incomplete tail) (h : conn.inBuffer ++ coming = streamed ms ++ tail)
    (waiting : conn.asyncStatus ≠ .busy) :
    (pqParseInput3 conn).asyncStatus = conn.asyncStatus ∧
      (pqParseInput3 conn).result = conn.result ∧
      (pqParseInput3 conn).statusOk = conn.statusOk ∧
      ∃ rest, rest <:+ ms ∧ (pqParseInput3 conn).inBuffer ++ coming = streamed rest ++ tail := by
  have stays : ∀ {conn ms}, conn.inBuffer ++ coming = streamed ms ++ tail →
      parseMessage conn = .returned conn →
      (pqParseInput3 conn).asyncStatus = conn.asyncStatus ∧
      (pqParseInput3 conn).result = conn.result ∧
      (pqParseInput3 conn).statusOk = conn.statusOk ∧
      ∃ rest, rest <:+ ms ∧ (pqParseInput3 conn).inBuffer ++ coming = streamed rest ++ tail := by
    intro conn ms h returned
    rw [pqParseInput3_of_returned returned]
    exact ⟨rfl, rfl, rfl, ms, List.suffix_rfl, h⟩
  induction ms generalizing conn with
  | nil =>
    rcases arrived_cases incomplete h with ⟨_, _, _, same, _⟩ | ⟨piece, -⟩
    · cases same
    · exact stays h (parseMessage_of_incomplete piece)
  | cons m ms ih =>
    rcases arrived_cases incomplete h with ⟨m, ms', rest, same, harrived, hrest⟩ | ⟨piece, -⟩
    · cases same
      have parsed := parseMessage_encode m harrived
      rcases deliver_not_busy waiting m.message with held | ⟨conn', taken, status, result, isOpen⟩
      · rw [held] at parsed
        exact stays h parsed
      · rw [taken] at parsed
        rw [pqParseInput3_of_consumed parsed, ← status, ← result, ← isOpen]
        obtain ⟨status', result', isOpen', left, hleft, bytes⟩ :=
          @ih { conn' with inBuffer := rest } hrest (status ▸ waiting)
        exact ⟨status', result', isOpen', left, hleft.trans (List.suffix_cons m ms), bytes⟩
    · exact stays h (parseMessage_of_incomplete piece)

/-! ### One message of an answer -/

theorem pqSaveErrorResult_result (conn : PGconn) :
    (pqSaveErrorResult conn).result = some (withError conn.result conn.errorMessage) := by
  unfold pqSaveErrorResult withError
  cases conn.result with
  | none => rfl
  | some res =>
    dsimp only
    split <;> rfl

theorem isCopy_withError (result : Option PGresult) (texts : List ErrorText) :
    isCopy (withError result texts).resultStatus = false := by
  unfold withError
  split
  · rfl
  · split
    · rfl
    · rename_i fatal
      rw [not_or, not_not] at fatal
      dsimp only
      rw [fatal.1]
      rfl

def NoCopy (result : Option PGresult) : Prop := ∀ res ∈ result, isCopy res.resultStatus = false

/-- What has come in on a connection, with what the results before have come to. -/
def exchange (conn : PGconn) (last : Option PGresult) : Exchange :=
  ⟨conn.result, last, conn.errorMessage⟩

@[simp] theorem exchange_result (conn : PGconn) (last : Option PGresult) :
    (exchange conn last).result = conn.result :=
  rfl

theorem exchange_saveError (conn : PGconn) (last : Option PGresult) (text : ErrorText) :
    exchange (saveError conn text) last = (exchange conn last).fail text := by
  have saved := pqSaveErrorResult_result { conn with errorMessage := [text] }
  rw [exchange, saveError, saved]
  rfl

/-- What a message does to a query that is waiting for its answer. -/
inductive BusyStep (conn : PGconn) (last : Option PGresult) (message : BackendMessage) : Prop where
  | goesOn (conn' : PGconn) :
      deliver conn message = .taken conn' → conn'.asyncStatus = .busy →
      conn'.statusOk = conn.statusOk → NoCopy conn'.result →
      (exchange conn last).receive message = .inr (exchange conn' last) →
      BusyStep conn last message
  | finishes (conn' : PGconn) (res : PGresult) :
      deliver conn message = .taken conn' → conn'.asyncStatus = .ready →
      conn'.statusOk = conn.statusOk → conn'.result = some res → isCopy res.resultStatus = false →
      (exchange conn last).receive message = .inr ((exchange conn last).finish res) →
      BusyStep conn last message
  | startsAnother (res res' : PGresult) :
      conn.result = some res → deliver conn message = .held { conn with asyncStatus := .ready } →
      isCopy res'.resultStatus = false →
      deliver (released conn res last) message =
        .taken { released conn res last with result := some res' } →
      (exchange conn last).receive message =
        .inr { (exchange conn last).finish res with result := some res' } →
      BusyStep conn last message
  | ends (conn' : PGconn) (status : UInt8) :
      message = .readyForQuery status → deliver conn message = .taken conn' →
      conn'.asyncStatus = .idle → conn'.statusOk = conn.statusOk → BusyStep conn last message
  | copies (conn' : PGconn) (direction : CopyDirection) (format : UInt8) (formats : List Int16)
      (res : PGresult) :
      message = .copyResponse direction format formats → deliver conn message = .taken conn' →
      conn'.asyncStatus = direction.asyncStatus → conn'.result = some res →
      res.resultStatus = direction.resultStatus →
      (exchange conn last).receive message = .inl (some (mergeResult last res)) →
      BusyStep conn last message

theorem exchange_addTuple (conn : PGconn) (last : Option PGresult) (values : List (Option Bytes)) :
    exchange (addTuple conn values) last = (exchange conn last).addRow values := by
  unfold addTuple Exchange.addRow
  rw [exchange_result]
  cases hres : conn.result with
  | none => exact exchange_saveError conn last .noRowDescription
  | some res =>
    dsimp only
    cases res.resultStatus with
    | tuplesOk =>
      dsimp only
      split
      · exact exchange_saveError conn last .fieldCount
      · rfl
    | fatalError => rfl
    | emptyQuery | commandOk | copyIn | copyOut | copyBoth =>
      exact exchange_saveError conn last .noRowDescription

theorem addTuple_keeps (conn : PGconn) (values : List (Option Bytes)) :
    (addTuple conn values).asyncStatus = conn.asyncStatus ∧
      (addTuple conn values).statusOk = conn.statusOk := by
  unfold addTuple
  split
  · split
    · split <;> exact ⟨rfl, rfl⟩
    · exact ⟨rfl, rfl⟩
    · exact ⟨rfl, rfl⟩
  · exact ⟨rfl, rfl⟩

theorem noCopy_addRow {e : Exchange} (nocopy : NoCopy e.result) (values : List (Option Bytes)) :
    NoCopy (e.addRow values).result := by
  have fails : ∀ text, NoCopy (e.fail text).result := by
    rintro text res ⟨⟩
    exact isCopy_withError _ _
  unfold Exchange.addRow
  split
  · exact fails _
  · rename_i before hbefore
    split
    · split
      · exact fails _
      · rintro res ⟨⟩
        exact nocopy before hbefore
    · exact nocopy
    · exact fails _

theorem isCopy_finishResult {conn : PGconn} {status : ExecStatusType} {cmdStatus : Option Bytes}
    (nocopy : NoCopy conn.result) (hstatus : isCopy status = false) {res : PGresult}
    (h : (finishResult conn status cmdStatus).result = some res) :
    isCopy res.resultStatus = false := by
  cases h
  cases hres : conn.result with
  | none => exact hstatus
  | some res => exact nocopy res hres

theorem busyStep {conn : PGconn} (busy : conn.asyncStatus = .busy) (nocopy : NoCopy conn.result)
    (last : Option PGresult) (message : BackendMessage) : BusyStep conn last message := by
  have hdeliver : message.anytime = false → deliver conn message = deliverBusy conn message := by
    intro waits
    rw [deliver_waits conn waits, busy]
  cases message with
  | rowDescription columns =>
    cases hres : conn.result with
    | none =>
      refine .goesOn _ ((hdeliver rfl).trans (if_pos hres)) busy rfl ?_ ?_
      · rintro res ⟨⟩
        rfl
      · rw [Exchange.receive, exchange, hres]
        rfl
    | some res =>
      refine .startsAnother res { emptyResult .tuplesOk [] with attDescs := columns } hres
        ((hdeliver rfl).trans (if_neg (by rw [hres]; exact Option.some_ne_none res))) rfl ?_ ?_
      · rfl
      · rw [Exchange.receive, exchange, hres]
        rfl
  | dataRow values =>
    obtain ⟨status, isOpen⟩ := addTuple_keeps conn values
    refine .goesOn _ (hdeliver rfl) (status.trans busy) isOpen ?_ ?_
    · rw [← exchange_result (addTuple conn values) last, exchange_addTuple]
      exact noCopy_addRow nocopy values
    · rw [exchange_addTuple]
      rfl
  | commandComplete commandTag =>
    refine .finishes _ _ (hdeliver rfl) rfl rfl rfl (isCopy_finishResult nocopy rfl rfl) ?_
    rw [Exchange.receive, exchange]
    cases conn.result <;> rfl
  | emptyQueryResponse =>
    refine .finishes _ _ (hdeliver rfl) rfl rfl rfl (isCopy_finishResult nocopy rfl rfl) ?_
    rw [Exchange.receive, exchange]
    cases conn.result <;> rfl
  | errorResponse fields => exact .finishes _ _ (hdeliver rfl) rfl rfl rfl rfl rfl
  | noticeResponse fields => exact .goesOn _ rfl busy rfl nocopy rfl
  | parameterStatus name value => exact .goesOn _ (hdeliver rfl) busy rfl nocopy rfl
  | notificationResponse notify => exact .goesOn _ rfl busy rfl nocopy rfl
  | readyForQuery status => exact .ends _ status rfl (hdeliver rfl) rfl rfl
  | copyResponse direction format formats =>
    cases direction with
    | copyIn => exact .copies _ .copyIn _ _ _ rfl (hdeliver rfl) rfl rfl rfl rfl
    | copyOut => exact .copies _ .copyOut _ _ _ rfl (hdeliver rfl) rfl rfl rfl rfl
    | copyBoth => exact .copies _ .copyBoth _ _ _ rfl (hdeliver rfl) rfl rfl rfl rfl

/-! ### The answer that libpq returns -/

section Answers

variable {conn : PGconn} {reads : List Bytes} {how : ReadEnd} {last : Option PGresult}
  {ms : List ServerMessage} {tail : Bytes}

/-- A connection that can be used again. Of the messages behind the answer some may have been
dealt with; the others are still there. -/
structure Settled (conn : PGconn) (reads : List Bytes) (tail : Bytes) (after : List ServerMessage) :
    Prop where
  idle : conn.asyncStatus = .idle
  isOpen : conn.statusOk = true
  left : ∃ rest, rest <:+ after ∧ conn.inBuffer ++ reads.flatten = streamed rest ++ tail

/-- What a query that is waiting comes to. -/
structure Answered (out : Option PGresult × PGconn × List Bytes) (how : ReadEnd) (e : Exchange)
    (ms : List ServerMessage) (tail : Bytes) : Prop where
  result : out.1 = answer how e ms
  settled : ∀ after, afterwards ms = some after → Settled out.2.1 out.2.2 tail after

theorem PQexecFinish_idle (incomplete : Incomplete tail)
    (coming : conn.inBuffer ++ reads.flatten = streamed ms ++ tail)
    (idle : conn.asyncStatus = .idle) (isOpen : conn.statusOk = true) :
    (PQexecFinish conn reads how last).1 = last ∧
      Settled (PQexecFinish conn reads how last).2.1 (PQexecFinish conn reads how last).2.2 tail ms := by
  have waiting : conn.asyncStatus ≠ .busy := by
    rw [idle]
    decide
  obtain ⟨status, -, stillOpen, left⟩ := pqParseInput3_keeps incomplete coming waiting
  have none : PQgetResult conn reads how = (none, pqParseInput3 conn, reads) := by
    unfold PQgetResult
    dsimp only
    rw [if_neg (status ▸ waiting), takeResult, status, idle]
  rw [PQexecFinish_eq, none]
  exact ⟨rfl, status.trans idle, stillOpen.trans isOpen, left⟩

theorem PQexecFinish_copy (incomplete : Incomplete tail)
    (coming : conn.inBuffer ++ reads.flatten = streamed ms ++ tail) {direction : CopyDirection}
    (copy : conn.asyncStatus = direction.asyncStatus) {res : PGresult}
    (hres : conn.result = some res) (hstatus : res.resultStatus = direction.resultStatus) :
    (PQexecFinish conn reads how last).1 = some (mergeResult last res) := by
  have waiting : conn.asyncStatus ≠ .busy := by
    rw [copy]
    cases direction <;> decide
  obtain ⟨status, result, -⟩ := pqParseInput3_keeps incomplete coming waiting
  have prepared : copyResult (pqParseInput3 conn) direction.resultStatus =
      (res, (pqPrepareAsyncResult (pqParseInput3 conn)).2) := by
    rw [copyResult, result, hres, Option.map_some, if_pos (congrArg some hstatus),
      pqPrepareAsyncResult, result, hres]
    rfl
  have taken : takeResult (pqParseInput3 conn) =
      (some res, (pqPrepareAsyncResult (pqParseInput3 conn)).2) := by
    rw [takeResult, status, copy]
    cases direction with
    | copyIn | copyOut | copyBoth => exact congrArg (fun taken => (some taken.1, taken.2)) prepared
  have stops : isCopy (mergeResult last res).resultStatus = true := by
    apply isCopy_mergeResult
    rw [hstatus]
    cases direction <;> rfl
  have fetched : PQgetResult conn reads how =
      (some res, (pqPrepareAsyncResult (pqParseInput3 conn)).2, reads) := by
    unfold PQgetResult
    dsimp only
    rw [if_neg (status ▸ waiting), taken]
  rw [PQexecFinish_eq, fetched]
  dsimp only
  rw [if_pos (.inl stops)]

/-- Reading ends in the middle of an answer. -/
theorem PQexecFinish_ended (piece : Incomplete conn.inBuffer) (busy : conn.asyncStatus = .busy)
    (isOpen : conn.statusOk = true) :
    (PQexecFinish conn [] how last).1 =
      some (mergeResult last (withError conn.result (how.texts conn.errorMessage))) := by
  have fails : readFails conn how =
      { conn with statusOk := !how.lost, errorMessage := how.texts conn.errorMessage } :=
    if_pos isOpen
  have failed : (pqPrepareAsyncResult (readFailed conn how)).1 =
      withError conn.result (how.texts conn.errorMessage) := by
    rw [pqPrepareAsyncResult, readFailed, fails]
    dsimp only
    rw [pqSaveErrorResult_result]
    rfl
  have status : (mergeErrors last (pqPrepareAsyncResult (readFailed conn how)).1
      (pqPrepareAsyncResult (readFailed conn how)).2).statusOk = !how.lost := by
    rw [mergeErrors_eq, readFailed, fails]
    rfl
  rw [PQexecFinish_eq, PQgetResult_ended (parseMessage_of_incomplete piece) busy]
  dsimp only
  rw [status, failed]
  cases hlost : how.lost with
  | true => rw [if_pos (.inr rfl)]
  | false =>
    -- the connection counts as open, and has nothing more to come
    rw [isCopy_mergeResult_false (isCopy_withError _ _), if_neg (by decide)]
    have idle := @PQexecFinish_idle (mergeErrors last (withError conn.result
        (how.texts conn.errorMessage)) (pqPrepareAsyncResult (readFailed conn how)).2) []
      how (some (mergeResult last (withError conn.result (how.texts conn.errorMessage)))) []
      conn.inBuffer piece
    refine (idle ?_ ?_ ?_).1
    · rw [mergeErrors_eq, readFailed, fails]
      exact List.append_nil _
    · rw [mergeErrors_eq]
      rfl
    · rw [failed] at status
      rw [status, hlost]
      rfl

theorem PQexecFinish_read (piece : Incomplete conn.inBuffer) (busy : conn.asyncStatus = .busy)
    (isOpen : conn.statusOk = true) (read : Bytes) :
    PQexecFinish conn (read :: reads) how last =
      PQexecFinish { conn with inBuffer := conn.inBuffer ++ read } reads how last :=
  PQexecFinish_congr (PQgetResult_read (parseMessage_of_incomplete piece) busy isOpen read)

/-- A message that has arrived. -/
theorem PQexecFinish_message {m : ServerMessage} {rest : Bytes} (incomplete : Incomplete tail)
    (arrived : conn.inBuffer = m.message.encode ++ rest)
    (coming : rest ++ reads.flatten = streamed ms ++ tail)
    (busy : conn.asyncStatus = .busy) (isOpen : conn.statusOk = true) (nocopy : NoCopy conn.result)
    (later : ∀ (conn : PGconn) (last : Option PGresult),
      conn.inBuffer ++ reads.flatten = streamed ms ++ tail → conn.asyncStatus = .busy →
      conn.statusOk = true → NoCopy conn.result →
      Answered (PQexecFinish conn reads how last) how (exchange conn last) ms tail) :
    Answered (PQexecFinish conn reads how last) how (exchange conn last) (m :: ms) tail := by
  have parsed := parseMessage_encode m arrived
  have goes_on : ∀ {e out}, (exchange conn last).receive m.message = .inr e →
      Answered out how e ms tail → Answered out how (exchange conn last) (m :: ms) tail := by
    rintro e out received ⟨result, settled⟩
    constructor
    · rw [answer, received]
      exact result
    · rw [afterwards_of_inr ms received]
      exact settled
  cases busyStep busy nocopy last m.message with
  | goesOn conn' taken status isOpen' nocopy' received =>
    rw [taken] at parsed
    rw [PQexecFinish_congr (PQgetResult_of_consumed parsed)]
    exact goes_on received (later _ last coming status (isOpen'.trans isOpen) nocopy')
  | finishes conn' res taken ready isOpen' hres nocopy' received =>
    rw [taken] at parsed
    have finished : PQexecFinish { conn' with inBuffer := rest } reads how last = _ :=
      PQexecFinish_release incomplete coming ready (isOpen'.trans isOpen) hres nocopy'
    rw [PQexecFinish_congr (PQgetResult_of_consumed parsed), finished]
    exact goes_on received (later _ _ coming rfl (isOpen'.trans isOpen) nofun)
  | startsAnother res res' hres held nocopy' taken received =>
    -- the message stays, and is the first one of the next result
    rw [held] at parsed
    have again : parseMessage (released conn res last) = _ := parseMessage_encode m arrived
    rw [taken] at again
    have next : PQexecFinish (released conn res last) reads how (some (mergeResult last res)) = _ :=
      PQexecFinish_congr (PQgetResult_of_consumed again)
    have ready : PQexecFinish conn reads how last = _ :=
      PQexecFinish_ready parsed rfl isOpen hres (nocopy res hres)
    rw [ready]
    refine goes_on received (next ▸ later _ _ coming rfl isOpen ?_)
    rintro _ ⟨⟩
    exact nocopy'
  | ends conn' status hm taken idle isOpen' =>
    rw [taken] at parsed
    obtain ⟨hlast, settled⟩ := @PQexecFinish_idle { conn' with inBuffer := rest } reads how last ms tail
      incomplete coming idle (isOpen'.trans isOpen)
    rw [PQexecFinish_congr (PQgetResult_of_consumed parsed)]
    constructor
    · rw [hlast, answer, hm]
      rfl
    · intro after hafter
      rw [afterwards, hm] at hafter
      exact Option.some.inj hafter ▸ settled
  | copies conn' direction format formats res hm taken copy hres hstatus received =>
    rw [taken] at parsed
    have ended : (PQexecFinish { conn' with inBuffer := rest } reads how last).1 =
        some (mergeResult last res) := by
      apply PQexecFinish_copy incomplete
      · exact coming
      · exact copy
      · exact hres
      · exact hstatus
    rw [PQexecFinish_congr (PQgetResult_of_consumed parsed)]
    constructor
    · rw [ended, answer, received]
    · intro after hafter
      rw [afterwards, hm] at hafter
      cases hafter

theorem answered (ms : List ServerMessage) (incomplete : Incomplete tail)
    (coming : conn.inBuffer ++ reads.flatten = streamed ms ++ tail)
    (busy : conn.asyncStatus = .busy) (isOpen : conn.statusOk = true) (nocopy : NoCopy conn.result) :
    Answered (PQexecFinish conn reads how last) how (exchange conn last) ms tail := by
  induction ms generalizing conn reads last with
  | nil =>
    induction reads generalizing conn with
    | nil =>
      rcases arrived_cases incomplete coming with ⟨_, _, _, same, _⟩ | ⟨piece, -⟩
      · cases same
      · exact ⟨PQexecFinish_ended piece busy isOpen, nofun⟩
    | cons read reads ihReads =>
      rcases arrived_cases incomplete coming with ⟨_, _, _, same, _⟩ | ⟨piece, -⟩
      · cases same
      · rw [PQexecFinish_read piece busy isOpen]
        rw [List.flatten_cons, ← List.append_assoc] at coming
        exact @ihReads { conn with inBuffer := conn.inBuffer ++ read } coming busy isOpen nocopy
  | cons m ms ih =>
    induction reads generalizing conn with
    | nil =>
      rcases arrived_cases incomplete coming with ⟨m, ms', rest, same, arrived, hrest⟩ | ⟨_, more⟩
      · cases same
        exact PQexecFinish_message incomplete arrived hrest busy isOpen nocopy fun conn last => ih
      · rcases more with none | some_coming
        · cases none
        · exact absurd rfl some_coming
    | cons read reads ihReads =>
      rcases arrived_cases incomplete coming with ⟨m, ms', rest, same, arrived, hrest⟩ | ⟨piece, -⟩
      · cases same
        exact PQexecFinish_message incomplete arrived hrest busy isOpen nocopy fun conn last => ih
      · rw [PQexecFinish_read piece busy isOpen]
        rw [List.flatten_cons, ← List.append_assoc] at coming
        exact @ihReads { conn with inBuffer := conn.inBuffer ++ read } coming busy isOpen nocopy

end Answers

/-! ### Answers that break off -/

/-- An error of which the texts end in these. -/
def FailsWith (texts : List ErrorText) (res : PGresult) : Prop :=
  res.resultStatus = .fatalError ∧ texts <:+ res.errMsg

theorem withError_fails (result : Option PGresult) (texts : List ErrorText) :
    FailsWith texts (withError result texts) := by
  unfold withError
  split
  · exact ⟨rfl, List.suffix_rfl⟩
  · rename_i res
    split
    · exact ⟨rfl, List.suffix_rfl⟩
    · rename_i fatal
      exact ⟨not_not.mp (not_or.mp fatal).1, List.suffix_append res.errMsg texts⟩

theorem mergeResult_fails {texts : List ErrorText} {last : Option PGresult} {res : PGresult}
    (h : FailsWith texts res) : FailsWith texts (mergeResult last res) := by
  obtain ⟨fatal, ending⟩ := h
  unfold mergeResult
  split
  · exact ⟨fatal, ending⟩
  · rename_i last
    split
    · rename_i both
      exact ⟨both.1, ending.trans (List.suffix_append last.errMsg res.errMsg)⟩
    · exact ⟨fatal, ending⟩

theorem text_suffix (how : ReadEnd) (before : List ErrorText) :
    how.text.toList <:+ how.texts before := by
  cases how with
  | closed => exact List.nil_suffix
  | reset | receiveFails | selectFails => exact List.suffix_rfl

/-- Without the message that the server is ready a copy begins, or there is the error that
reading ends in. -/
theorem answer_of_never_ready {how : ReadEnd} {e : Exchange} {ms : List ServerMessage}
    (never : ∀ m ∈ ms, ∀ status, m.message ≠ .readyForQuery status) :
    ∃ res, answer how e ms = some res ∧
      (isCopy res.resultStatus = true ∨ FailsWith how.text.toList res) := by
  induction ms generalizing e with
  | nil =>
    obtain ⟨fatal, ending⟩ := @mergeResult_fails (how.texts e.errorMessage) e.last _
      (withError_fails e.result _)
    exact ⟨_, rfl, .inr ⟨fatal, (text_suffix how _).trans ending⟩⟩
  | cons m ms ih =>
    rw [answer]
    cases received : e.receive m.message with
    | inr e' => exact ih fun m' hm' => never m' (List.mem_cons_of_mem m hm')
    | inl last =>
      cases hm : m.message with
      | readyForQuery status => exact absurd hm (never m List.mem_cons_self status)
      | copyResponse direction format formats =>
        rw [hm] at received
        cases received
        refine ⟨_, rfl, .inl (isCopy_mergeResult ?_)⟩
        cases direction <;> rfl
      | _ =>
        rw [hm] at received
        cases received

/-- The server reports an error and closes the connection in order: its text comes twice. -/
example {fields : MessageFields} {m : ServerMessage} (h : m.message = errorResponse fields) :
    answer .closed .begun [m] =
      some (emptyResult .fatalError [.server fields, .server fields]) := by
  rw [answer, h]
  rfl

end Libpq

end PointIPad
