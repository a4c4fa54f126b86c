import PointIPad.QueryProtocol

/-!
What the server sends in answer to a simple query, and what one message does to libpq.

A message of the server is well formed (`ServerMessage`): its texts have no NUL, and its
counts and its length fit their fields. Such a message does to a connection what
`deliver` says, whatever has arrived behind it (`parseMessage_encode`); as long as it is
not complete, nothing happens (`parseMessage_incomplete`).
-/

namespace PointIPad

namespace Libpq

open Reading

/-! ### Numbers on the wire -/

def pq_sendint (i : Int32) (b : Nat) : Bytes := bigEndian b i.toUInt32.toNat

def pq_sendstring (str : Bytes) : Bytes := str ++ [0]

theorem says_pqGetc (c : UInt8) : Says pqGetc [c] c := fun _ => rfl

theorem says_pqGets {str : Bytes} (nul : 0 ∉ str) : Says pqGets (pq_sendstring str) str := by
  intro rest
  induction str with
  | nil => rfl
  | cons c str ih =>
    obtain ⟨hc, nul⟩ := not_or.mp (mt List.mem_cons.mpr nul)
    show pqGets (c :: (pq_sendstring str ++ rest)) = _
    rw [pqGets, if_neg (Ne.symm hc), ih nul]
    rfl

theorem says_pqGetnchar (value : Bytes) : Says (pqGetnchar value.length) value value := by
  intro rest
  rw [pqGetnchar_eq_some]
  refine ⟨?_, List.take_left.symm, List.drop_left.symm⟩
  rw [List.length_append]
  exact Nat.le_add_right _ _

theorem says_pqGetInt (i : Int32) (b : Nat) :
    Says (pqGetInt b) (pq_sendint i b) (Int32.ofNat (i.toUInt32.toNat % 256 ^ b)) := by
  have digits := (says_pqGetnchar (pq_sendint i b)).map (f := fun d => Int32.ofNat (ofBigEndian d))
  rw [pq_sendint, length_bigEndian, ofBigEndian_bigEndian] at digits
  exact digits

theorem says_int32 (i : Int32) : Says (pqGetInt 4) (pq_sendint i 4) i := by
  have value := says_pqGetInt i 4
  have small : i.toUInt32.toNat < 256 ^ 4 := i.toUInt32.toNat_lt
  rwa [Nat.mod_eq_of_lt small, ← Int32.toNat_toBitVec, Int32.ofNat_bitVecToNat,
    Int32.ofBitVec_toBitVec] at value

/-- A number of two bytes is read without its sign; the cast gives it back. -/
theorem int16_of_sent (i : Int16) :
    (Int32.ofNat (i.toInt32.toUInt32.toNat % 256 ^ 2)).toInt16 = i := by
  rw [Int32.toInt16_ofNat', ← Int32.toNat_toBitVec, Int16.toBitVec_toInt32]
  apply Int16.toBitVec_inj.mp
  apply BitVec.eq_of_toNat_eq
  rw [Int16.toBitVec_ofNat', BitVec.toNat_ofNat, BitVec.toNat_signExtend]
  have small := i.toBitVec.isLt
  split
  · simp
    omega
  · simp
    omega

theorem count_of_sent {n : Nat} (small : n < 2 ^ 16) :
    (Int32.ofNat ((Int32.ofNat n).toUInt32.toNat % 256 ^ 2)).toInt.toNat = n := by
  have fits : n % 2 ^ 32 % 256 ^ 2 = n := by omega
  rw [Int32.toUInt32_ofNat', UInt32.toNat_ofNat', fits, Int32.toInt_ofNat_of_lt (by omega)]
  rfl

/-! ### Messages -/

inductive CopyDirection where
  | copyIn
  | copyOut
  | copyBoth
deriving DecidableEq, Repr

inductive BackendMessage where
  | rowDescription (columns : List PGresAttDesc)
  | dataRow (values : List (Option Bytes))
  | commandComplete (commandTag : Bytes)
  | emptyQueryResponse
  | errorResponse (fields : MessageFields)
  | noticeResponse (fields : MessageFields)
  | parameterStatus (name value : Bytes)
  | notificationResponse (notify : PGnotify)
  | readyForQuery (transactionBlockStatusCode : UInt8)
  | copyResponse (direction : CopyDirection) (format : UInt8) (formats : List Int16)
deriving DecidableEq, Repr

namespace BackendMessage

def id : BackendMessage → UInt8
  | rowDescription _ => 'T'.toUInt8
  | dataRow _ => 'D'.toUInt8
  | commandComplete _ => 'C'.toUInt8
  | emptyQueryResponse => 'I'.toUInt8
  | errorResponse _ => 'E'.toUInt8
  | noticeResponse _ => 'N'.toUInt8
  | parameterStatus _ _ => 'S'.toUInt8
  | notificationResponse _ => 'A'.toUInt8
  | readyForQuery _ => 'Z'.toUInt8
  | copyResponse .copyIn _ _ => 'G'.toUInt8
  | copyResponse .copyOut _ _ => 'H'.toUInt8
  | copyResponse .copyBoth _ _ => 'W'.toUInt8

/-- `SendRowDescriptionMessage` for one column. -/
def sendColumn (column : PGresAttDesc) : Bytes :=
  pq_sendstring column.name ++ (pq_sendint column.tableid.toInt32 4 ++
    (pq_sendint column.columnid.toInt32 2 ++ (pq_sendint column.typid.toInt32 4 ++
      (pq_sendint column.typlen.toInt32 2 ++ (pq_sendint column.atttypmod 4 ++
        pq_sendint column.format.toInt32 2)))))

/-- `printtup` for one value. -/
def sendValue : Option Bytes → Bytes
  | none => pq_sendint (-1) 4
  | some value => pq_sendint (Int32.ofNat value.length) 4 ++ value

def sendField (field : UInt8 × Bytes) : Bytes := [field.1] ++ pq_sendstring field.2

def body : BackendMessage → Bytes
  | rowDescription columns =>
    pq_sendint (Int32.ofNat columns.length) 2 ++ columns.flatMap sendColumn
  | dataRow values => pq_sendint (Int32.ofNat values.length) 2 ++ values.flatMap sendValue
  | commandComplete commandTag => pq_sendstring commandTag
  | emptyQueryResponse => []
  | errorResponse fields | noticeResponse fields => fields.flatMap sendField ++ [0]
  | parameterStatus name value => pq_sendstring name ++ pq_sendstring value
  | notificationResponse notify =>
    pq_sendint notify.be_pid 4 ++ (pq_sendstring notify.relname ++ pq_sendstring notify.extra)
  | readyForQuery transactionBlockStatusCode => [transactionBlockStatusCode]
  | copyResponse _ format formats =>
    [format] ++ (pq_sendint (Int32.ofNat formats.length) 2 ++
      formats.flatMap fun format => pq_sendint format.toInt32 2)

/-- `pq_putmessage` -/
def encode (message : BackendMessage) : Bytes :=
  message.id :: (pq_sendint (Int32.ofNat (message.body.length + 4)) 4 ++ message.body)

/-- Texts have no NUL, and counts fit into two bytes. -/
def Texts : BackendMessage → Prop
  | rowDescription columns => columns.length < 2 ^ 16 ∧ ∀ column ∈ columns, 0 ∉ column.name
  | dataRow values => values.length < 2 ^ 16
  | commandComplete commandTag => 0 ∉ commandTag
  | errorResponse fields | noticeResponse fields => ∀ field ∈ fields, field.1 ≠ 0 ∧ 0 ∉ field.2
  | parameterStatus name value => 0 ∉ name ∧ 0 ∉ value
  | notificationResponse notify => 0 ∉ notify.relname ∧ 0 ∉ notify.extra
  | copyResponse _ _ formats => formats.length < 2 ^ 16
  | emptyQueryResponse | readyForQuery _ => True

/-- Whether libpq deals with it at any time. -/
def anytime : BackendMessage → Bool
  | noticeResponse _ | notificationResponse _ => true
  | _ => false

/-- Whether it has nothing to do with the query. -/
def asynchronous : BackendMessage → Bool
  | noticeResponse _ | notificationResponse _ | parameterStatus _ _ => true
  | _ => false

end BackendMessage

/-- A message that libpq can be sent: its length fits, as far as messages of its type may
be long. -/
structure ServerMessage where
  message : BackendMessage
  texts : message.Texts
  size : message.body.length + 4 < 2 ^ 31
  short : VALID_LONG_MESSAGE_TYPE message.id = true ∨ message.body.length + 4 ≤ 30000

/-! ### What one message does -/

inductive Delivered where
  /-- It has to wait until the result is fetched. -/
  | held (conn : PGconn)
  | taken (conn : PGconn)

open BackendMessage

def addTuple (conn : PGconn) (values : List (Option Bytes)) : PGconn :=
  match conn.result with
  | some result =>
    match result.resultStatus with
    | .tuplesOk =>
      if values.length ≠ result.attDescs.length then saveError conn .fieldCount
      else { conn with result := some { result with tuples := result.tuples ++ [values] } }
    | .fatalError => conn
    | _ => saveError conn .noRowDescription
  | none => saveError conn .noRowDescription

def CopyDirection.asyncStatus : CopyDirection → PGAsyncStatusType
  | .copyIn => .copyIn
  | .copyOut => .copyOut
  | .copyBoth => .copyBoth

def CopyDirection.resultStatus : CopyDirection → ExecStatusType
  | .copyIn => .copyIn
  | .copyOut => .copyOut
  | .copyBoth => .copyBoth

/-- The result of an error of the server. -/
def errorResult (conn : PGconn) (fields : MessageFields) : PGresult :=
  { PQmakeEmptyPGresult conn .fatalError with errMsg := [.server fields] }

def copyColumns (formats : List Int16) : List PGresAttDesc :=
  formats.map fun format => ⟨[], 0, 0, 0, 0, 0, format⟩

def deliverBusy (conn : PGconn) : BackendMessage → Delivered
  | rowDescription columns =>
    if conn.result = none then
      .taken { conn with
        result := some { PQmakeEmptyPGresult conn .tuplesOk with attDescs := columns } }
    else .held { conn with asyncStatus := .ready }
  | dataRow values => .taken (addTuple conn values)
  | commandComplete commandTag => .taken (finishResult conn .commandOk (some commandTag))
  | emptyQueryResponse => .taken (finishResult conn .emptyQuery none)
  | errorResponse fields => .taken { conn with
      result := some (errorResult conn fields)
      errorMessage := conn.errorMessage ++ [.server fields]
      asyncStatus := .ready }
  | parameterStatus name value => .taken (pqSaveParameterStatus conn name value)
  | readyForQuery status => .taken { conn with
      xactStatus := transactionStatus status
      asyncStatus := .idle }
  | copyResponse direction _ formats => .taken { conn with
      result := some { PQmakeEmptyPGresult conn direction.resultStatus with
        attDescs := copyColumns formats }
      asyncStatus := direction.asyncStatus }
  | noticeResponse _ | notificationResponse _ => .held conn

def deliverIdle (conn : PGconn) : BackendMessage → Delivered
  | errorResponse fields => .taken { conn with notices := conn.notices ++ [.server fields] }
  | parameterStatus name value => .taken (pqSaveParameterStatus conn name value)
  | message => .taken { conn with notices := conn.notices ++ [.whileIdle message.id] }

/-- What a message does to a connection. -/
def deliver (conn : PGconn) : BackendMessage → Delivered
  | noticeResponse fields => .taken { conn with notices := conn.notices ++ [.server fields] }
  | notificationResponse notify => .taken { conn with notifies := conn.notifies ++ [notify] }
  | message =>
    match conn.asyncStatus with
    | .busy => deliverBusy conn message
    | .idle => deliverIdle conn message
    | _ => .held conn

/-- In the terms of the parser, with what is left of the buffer. -/
def Delivered.parsed (rest : Bytes) : Delivered → Parsed
  | .held conn => .returned conn
  | .taken conn => .consumed conn rest

/-! ### What the bodies say -/

theorem says_getColumn {column : PGresAttDesc} (nul : 0 ∉ column.name) :
    Says getColumn (sendColumn column) column := by
  have number (i : Int16) := says_pqGetInt i.toInt32 2
  unfold getColumn sendColumn
  apply (says_pqGets nul).bind
  apply (says_int32 column.tableid.toInt32).bind
  apply (number column.columnid).bind
  apply (says_int32 column.typid.toInt32).bind
  apply (number column.typlen).bind
  apply (says_int32 column.atttypmod).bind
  convert (number column.format).map using 1
  rw [int16_of_sent, int16_of_sent, int16_of_sent, UInt32.toUInt32_toInt32,
    UInt32.toUInt32_toInt32]

theorem says_getRowDescriptions (conn : PGconn) {columns : List PGresAttDesc}
    (texts : (rowDescription columns).Texts) :
    Says (getRowDescriptions conn) (rowDescription columns).body { conn with
      result := some { PQmakeEmptyPGresult conn .tuplesOk with attDescs := columns } } := by
  obtain ⟨small, nul⟩ := texts
  unfold getRowDescriptions
  apply (says_pqGetInt (Int32.ofNat columns.length) 2).bind
  rw [count_of_sent small]
  exact (says_times fun column hcolumn => says_getColumn (nul column hcolumn)).map

theorem says_getValue {value : Option Bytes} (small : (sendValue value).length < 2 ^ 31) :
    Says getValue (sendValue value) value := by
  cases value with
  | none =>
    intro rest
    unfold getValue sendValue
    rw [bind_apply, says_int32]
    rfl
  | some value =>
    rw [sendValue, List.length_append] at small
    have length : (Int32.ofNat value.length).toInt = value.length :=
      Int32.toInt_ofNat_of_lt (by omega)
    have notNull : Int32.ofNat value.length ≠ -1 := by
      intro null
      rw [null] at length
      have negative : (-1 : Int32).toInt = -1 := rfl
      omega
    unfold getValue sendValue
    apply (says_int32 _).bind
    rw [if_neg notNull, length]
    exact (says_pqGetnchar value).map

theorem getAnotherTuple_body {conn : PGconn} {result : PGresult}
    (hresult : conn.result = some result) (tuples : result.resultStatus = .tuplesOk)
    {values : List (Option Bytes)} (texts : (dataRow values).Texts)
    (size : (dataRow values).body.length + 4 < 2 ^ 31) (rest : Bytes) :
    getAnotherTuple conn result (dataRow values).body.length ((dataRow values).body ++ rest) =
      some (addTuple conn values, rest) := by
  have count := says_pqGetInt (Int32.ofNat values.length) 2 (values.flatMap sendValue ++ rest)
  rw [← List.append_assoc] at count
  change pqGetInt 2 ((dataRow values).body ++ rest) = _ at count
  have small : ∀ value ∈ values, (sendValue value).length < 2 ^ 31 := by
    intro value hvalue
    obtain ⟨before, after, rfl⟩ := List.append_of_mem hvalue
    simp only [body, List.flatMap_append, List.flatMap_cons, List.length_append] at size
    omega
  rw [getAnotherTuple, count]
  dsimp only
  rw [count_of_sent texts, addTuple, hresult]
  dsimp only
  rw [tuples]
  dsimp only
  split
  · rw [List.drop_left]
  · rename_i agree
    rw [not_not] at agree
    rw [← agree, says_times (fun value hvalue => says_getValue (small value hvalue)) rest]

/-- There is fuel for every field. -/
theorem getFields_send {fields : MessageFields} (texts : ∀ field ∈ fields, field.1 ≠ 0 ∧ 0 ∉ field.2)
    {fuel : Nat} (enough : fields.length < fuel) :
    Says (getFields fuel) (fields.flatMap sendField ++ [0]) fields := by
  induction fields generalizing fuel with
  | nil =>
    obtain ⟨fuel, rfl⟩ := Nat.exists_eq_add_of_lt enough
    intro rest
    rfl
  | cons field fields ih =>
    obtain ⟨fuel, rfl⟩ := Nat.exists_eq_succ_of_ne_zero (Nat.ne_zero_of_lt enough)
    obtain ⟨code, nul⟩ := texts field List.mem_cons_self
    rw [List.flatMap_cons, sendField, List.append_assoc, List.append_assoc]
    unfold getFields
    apply (says_pqGetc field.1).bind
    rw [if_neg code]
    apply (says_pqGets nul).bind
    exact (ih (fun f hf => texts f (List.mem_cons_of_mem field hf))
      (Nat.lt_of_succ_lt_succ enough)).map

theorem pqGetErrorNotice3_body (conn : PGconn) (isError : Bool) {fields : MessageFields}
    (texts : ∀ field ∈ fields, field.1 ≠ 0 ∧ 0 ∉ field.2) (rest : Bytes) :
    pqGetErrorNotice3 conn isError (fields.flatMap sendField ++ [0] ++ rest) =
      some (if isError then { conn with
          result := some (errorResult conn fields)
          errorMessage := conn.errorMessage ++ [.server fields] }
        else { conn with notices := conn.notices ++ [.server fields] }, rest) := by
  have enough : fields.length <
      (fields.flatMap sendField ++ [0] ++ rest).length + 1 := by
    have bytes : fields.length ≤ (fields.flatMap sendField).length := by
      rw [List.length_flatMap, ← List.length_map fun field => (sendField field).length]
      apply List.length_le_sum_of_one_le
      intro length hlength
      obtain ⟨field, -, rfl⟩ := List.mem_map.mp hlength
      exact Nat.succ_le_of_lt (Nat.zero_lt_succ _)
    rw [List.length_append, List.length_append]
    omega
  rw [pqGetErrorNotice3, getFields_send texts enough rest]
  cases isError <;> rfl

theorem says_getParameterStatus (conn : PGconn) {name value : Bytes}
    (texts : (parameterStatus name value).Texts) :
    Says (getParameterStatus conn) (parameterStatus name value).body
      (pqSaveParameterStatus conn name value) := by
  unfold getParameterStatus
  apply (says_pqGets texts.1).bind
  exact (says_pqGets texts.2).map

theorem says_getNotify (conn : PGconn) {notify : PGnotify}
    (texts : (notificationResponse notify).Texts) :
    Says (getNotify conn) (notificationResponse notify).body
      { conn with notifies := conn.notifies ++ [notify] } := by
  unfold getNotify
  apply (says_int32 notify.be_pid).bind
  apply (says_pqGets texts.1).bind
  exact (says_pqGets texts.2).map

theorem says_getCopyStart (conn : PGconn) (copytype : ExecStatusType) {direction : CopyDirection}
    {format : UInt8} {formats : List Int16} (texts : (copyResponse direction format formats).Texts) :
    Says (getCopyStart conn copytype) (copyResponse direction format formats).body { conn with
      result := some { PQmakeEmptyPGresult conn copytype with
        attDescs := copyColumns formats } } := by
  unfold getCopyStart
  apply (says_pqGetc format).bind
  apply (says_pqGetInt (Int32.ofNat formats.length) 2).bind
  rw [count_of_sent texts]
  have read := says_times_map fun (format : Int16) (_ : format ∈ formats) =>
    says_pqGetInt format.toInt32 2
  convert read.map using 1
  rw [List.map_map, copyColumns]
  simp only [Function.comp_def, int16_of_sent]

/-! ### Messages in front of anything -/

theorem ofGet_says {conn conn' : PGconn} {get : Get PGconn} {piece : Bytes}
    (h : Says get piece conn') (rest : Bytes) :
    Parsed.ofGet conn get (piece ++ rest) = .consumed conn' rest := by
  rw [Parsed.ofGet, h]

theorem ofGet_discard (conn conn' : PGconn) (body rest : Bytes) :
    Parsed.ofGet conn (discard conn' body.length) (body ++ rest) = .consumed conn' rest := by
  rw [Parsed.ofGet, discard, List.drop_left]

theorem parseIdle_body (conn : PGconn) {message : BackendMessage} (texts : message.Texts)
    (waits : message.anytime = false) (rest : Bytes) :
    parseIdle conn message.id message.body.length (message.body ++ rest) =
      (deliverIdle conn message).parsed rest := by
  cases message with
  | noticeResponse _ | notificationResponse _ => cases waits
  | errorResponse fields =>
    show Parsed.ofGet conn (pqGetErrorNotice3 conn false) _ = _
    rw [Parsed.ofGet, body, pqGetErrorNotice3_body conn false texts rest]
    rfl
  | parameterStatus name value => exact ofGet_says (says_getParameterStatus conn texts) rest
  | rowDescription _ | dataRow _ | commandComplete _ | emptyQueryResponse | readyForQuery _ =>
    exact ofGet_discard conn _ _ rest
  | copyResponse direction _ _ => cases direction <;> exact ofGet_discard conn _ _ rest

theorem parseBusy_body (conn : PGconn) {message : BackendMessage} (texts : message.Texts)
    (size : message.body.length + 4 < 2 ^ 31) (waits : message.anytime = false) (rest : Bytes) :
    parseBusy conn message.id message.body.length (message.body ++ rest) =
      (deliverBusy conn message).parsed rest := by
  cases message with
  | noticeResponse _ | notificationResponse _ => cases waits
  | rowDescription columns =>
    show (if conn.result = none then _ else _) = _
    rw [deliverBusy]
    split
    · exact ofGet_says (says_getRowDescriptions conn texts) rest
    · rfl
  | dataRow values =>
    show (match conn.result with
      | some _ => _
      | none => Parsed.ofGet conn (discard _ (dataRow values).body.length) _) = _
    rw [deliverBusy, addTuple]
    cases hresult : conn.result with
    | none => exact ofGet_discard conn _ _ rest
    | some result =>
      dsimp only
      cases hstatus : result.resultStatus with
      | tuplesOk =>
        have added := getAnotherTuple_body hresult hstatus texts size rest
        rw [addTuple, hresult] at added
        dsimp only at added ⊢
        rw [hstatus] at added
        rw [Parsed.ofGet, added]
        rfl
      | fatalError => exact ofGet_discard conn _ _ rest
      | emptyQuery | commandOk | copyIn | copyOut | copyBoth => exact ofGet_discard conn _ _ rest
  | commandComplete commandTag => exact ofGet_says (says_pqGets texts).map rest
  | emptyQueryResponse => rfl
  | errorResponse fields =>
    show Parsed.ofGet conn _ _ = _
    rw [Parsed.ofGet, bind_apply, body, pqGetErrorNotice3_body conn true texts rest]
    rfl
  | parameterStatus name value => exact ofGet_says (says_getParameterStatus conn texts) rest
  | readyForQuery status => rfl
  | copyResponse direction format formats =>
    cases direction with
    | copyIn => exact ofGet_says (says_getCopyStart conn .copyIn texts).map rest
    | copyOut => exact ofGet_says (says_getCopyStart conn .copyOut texts).map rest
    | copyBoth => exact ofGet_says (says_getCopyStart conn .copyBoth texts).map rest

theorem deliver_waits (conn : PGconn) {message : BackendMessage} (waits : message.anytime = false) :
    deliver conn message =
      match conn.asyncStatus with
      | .busy => deliverBusy conn message
      | .idle => deliverIdle conn message
      | _ => .held conn := by
  cases message with
  | noticeResponse _ | notificationResponse _ => cases waits
  | _ => rfl

theorem charOf_id {message : BackendMessage} (waits : message.anytime = false) :
    charOf message.id ≠ 'A' ∧ charOf message.id ≠ 'N' := by
  cases message with
  | noticeResponse _ | notificationResponse _ => cases waits
  | copyResponse direction _ _ =>
    cases direction <;>
    · dsimp only [BackendMessage.id]
      decide
  | _ =>
    dsimp only [BackendMessage.id]
    decide

theorem parseBody_body (conn : PGconn) (m : ServerMessage) (rest : Bytes) :
    parseBody conn m.message.id m.message.body.length (m.message.body ++ rest) =
      (deliver conn m.message).parsed rest := by
  obtain ⟨message, texts, size, short⟩ := m
  cases waits : message.anytime with
  | true =>
    cases message with
    | noticeResponse fields =>
      show Parsed.ofGet conn (pqGetErrorNotice3 conn false) _ = _
      rw [Parsed.ofGet, body, pqGetErrorNotice3_body conn false texts rest]
      rfl
    | notificationResponse notify => exact ofGet_says (says_getNotify conn texts) rest
    | _ => cases waits
  | false =>
    obtain ⟨notification, notice⟩ := charOf_id waits
    rw [deliver_waits conn waits, parseBody, if_neg notification, if_neg notice]
    cases conn.asyncStatus with
    | busy => exact parseBusy_body conn texts size waits rest
    | idle => exact parseIdle_body conn texts waits rest
    | ready | copyIn | copyOut | copyBoth => rfl

theorem getHeader_sent (id : UInt8) (msgLength : Int32) (body : Bytes) :
    getHeader (id :: (pq_sendint msgLength 4 ++ body)) = some ((id, msgLength), body) :=
  (says_int32 msgLength).map (f := fun msgLength => (id, msgLength)) body

theorem getHeader_encode (message : BackendMessage) (rest : Bytes) :
    getHeader (message.encode ++ rest) =
      some ((message.id, Int32.ofNat (message.body.length + 4)), message.body ++ rest) := by
  have header := getHeader_sent message.id (Int32.ofNat (message.body.length + 4))
    (message.body ++ rest)
  rwa [← List.append_assoc] at header

theorem getHeader_short {id : UInt8} {arrived : Bytes} (short : arrived.length < 4) :
    getHeader (id :: arrived) = none := by
  show ((pqGetInt 4 >>= fun msgLength => pure (id, msgLength)) : Get _) arrived = none
  rw [map_apply, show pqGetInt 4 arrived = _ from map_apply _ _ _, pqGetnchar, if_pos short]
  rfl

theorem lengthInRange_encode (m : ServerMessage) :
    lengthInRange m.message.id (Int32.ofNat (m.message.body.length + 4)) = true := by
  rw [lengthInRange, Int32.toInt_ofNat_of_lt m.size, Bool.and_eq_true, decide_eq_true_iff,
    Bool.or_eq_true, decide_eq_true_iff]
  refine ⟨by omega, m.short.symm.imp_left fun h => ?_⟩
  omega

/-- **A message that is there.** It does what is said of it, whatever follows it. -/
theorem parseMessage_encode {conn : PGconn} (m : ServerMessage) {rest : Bytes}
    (hbuffer : conn.inBuffer = m.message.encode ++ rest) :
    parseMessage conn = (deliver conn m.message).parsed rest := by
  have length : (Int32.ofNat (m.message.body.length + 4)).toInt.toNat - 4 =
      m.message.body.length := by
    rw [Int32.toInt_ofNat_of_lt m.size, Int.toNat_natCast, Nat.add_sub_cancel]
  rw [parseMessage, hbuffer, getHeader_encode]
  dsimp only
  rw [lengthInRange_encode m, length, Bool.not_true, if_neg Bool.false_ne_true, if_neg ?_,
    parseBody_body]
  · cases deliver conn m.message with
    | held conn' => rfl
    | taken conn' =>
      rw [Delivered.parsed, checkLength, if_pos]
      rw [List.length_append, Nat.add_comm]
  · rw [List.length_append]
    omega

/-- **A message that is not complete.** Nothing happens. -/
theorem parseMessage_incomplete {conn : PGconn} (m : ServerMessage) {missing : Bytes}
    (some_missing : missing ≠ []) (hbuffer : conn.inBuffer ++ missing = m.message.encode) :
    parseMessage conn = .returned conn := by
  have short : getHeader conn.inBuffer = none ∨ ∃ body,
      getHeader conn.inBuffer =
        some ((m.message.id, Int32.ofNat (m.message.body.length + 4)), body) ∧
      body.length < m.message.body.length := by
    cases hin : conn.inBuffer with
    | nil => exact .inl rfl
    | cons c arrived =>
      rw [hin] at hbuffer
      obtain ⟨rfl, harrived⟩ := List.cons.inj hbuffer
      rcases List.append_eq_append_iff.mp harrived with ⟨length, hlength, hmissing⟩ | ⟨body, rfl, hbody⟩
      · cases length with
        | nil =>
          rw [List.append_nil] at hlength
          rw [List.nil_append] at hmissing
          refine .inr ⟨[], ?_, hmissing ▸ List.length_pos_of_ne_nil some_missing⟩
          rw [← hlength, ← List.append_nil (pq_sendint _ _), getHeader_sent]
        | cons d length =>
          have four := congrArg List.length hlength
          rw [pq_sendint, length_bigEndian, List.length_append, List.length_cons] at four
          exact .inl (getHeader_short (by omega))
      · refine .inr ⟨body, getHeader_sent _ _ _, ?_⟩
        rw [hbody, List.length_append]
        exact Nat.lt_add_of_pos_right (List.length_pos_of_ne_nil some_missing)
  rw [parseMessage]
  rcases short with none | ⟨body, header, less⟩
  · rw [none]
  · rw [header]
    dsimp only
    rw [lengthInRange_encode m, Int32.toInt_ofNat_of_lt m.size, Int.toNat_natCast,
      Nat.add_sub_cancel, Bool.not_true, if_neg Bool.false_ne_true, if_pos less]

end Libpq

end PointIPad
