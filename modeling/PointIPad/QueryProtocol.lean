import PointIPad.Lib.Reader
import PointIPad.SqlLiterals

/-!
libpq waiting for the answer to a query (protocol 3).

What arrives is kept in a buffer, and message after message is taken off it. Some
messages finish a result; the messages behind it wait until the result is fetched,
other than notices and notifications. A message that does not keep to its length, or
that has no place, is an error result.

The model is of simple queries over a connection without SSL. Memory does not run out.
-/

namespace PointIPad

namespace Libpq

open Reading

/-! ### Results and connections -/

inductive ExecStatusType where
  | emptyQuery
  | commandOk
  | tuplesOk
  | copyOut
  | copyIn
  | copyBoth
  | fatalError
deriving DecidableEq, Repr

abbrev Oid := UInt32

structure PGresAttDesc where
  name : Bytes
  tableid : Oid
  columnid : Int16
  typid : Oid
  typlen : Int16
  atttypmod : Int32
  format : Int16
deriving DecidableEq, Repr

/-- The fields of an error or a notice, with their codes. -/
abbrev MessageFields := List (UInt8 × Bytes)

/-- An error text, by what it says. A text of the server is known by its fields. -/
inductive ErrorText where
  | server (fields : MessageFields)
  /-- "server sent data ("D" message) without prior row description ("T" message)" -/
  | noRowDescription
  /-- "unexpected field count in "D" message" -/
  | fieldCount
  /-- "unexpected response from server; first received character was ..." -/
  | unexpectedResponse (id : UInt8)
  /-- "message contents do not agree with length in message type ..." -/
  | lengthMismatch (id : UInt8)
  /-- "lost synchronization with server: got message type ..., length ..." -/
  | lostSynchronization (id : UInt8) (msgLength : Int32)
  /-- "server closed the connection unexpectedly" -/
  | connectionClosed
  /-- "could not receive data from server: ..." -/
  | receiveFailed
  /-- "select() failed: ..." -/
  | selectFailed
  /-- "socket not open" -/
  | socketNotOpen
  /-- "no connection to the server" -/
  | noConnection
  /-- "another command is already in progress" -/
  | alreadyBusy
  /-- "no COPY in progress" -/
  | noCopy
  /-- "connection not open" -/
  | connectionNotOpen
  /-- "PQexec not allowed during COPY BOTH" -/
  | duringCopyBoth
deriving DecidableEq, Repr

structure PGresult where
  resultStatus : ExecStatusType
  attDescs : List PGresAttDesc
  tuples : List (List (Option Bytes))
  cmdStatus : Bytes
  paramDescs : List Oid
  /-- The texts that have been put together. -/
  errMsg : List ErrorText
deriving DecidableEq, Repr

inductive PGAsyncStatusType where
  | idle
  | busy
  | ready
  | copyIn
  | copyOut
  | copyBoth
deriving DecidableEq, Repr

inductive PGTransactionStatusType where
  | idle
  | inTrans
  | inError
  | unknown
deriving DecidableEq, Repr

structure PGnotify where
  be_pid : Int32
  relname : Bytes
  extra : Bytes
deriving DecidableEq, Repr

inductive Notice where
  | server (fields : MessageFields)
  /-- "message type ... arrived from server while idle" -/
  | whileIdle (id : UInt8)
deriving DecidableEq, Repr

structure PGconn where
  /-- What has arrived and has not been taken off. -/
  inBuffer : Bytes
  /-- `CONNECTION_OK`; a connection that is not has no socket. -/
  statusOk : Bool
  asyncStatus : PGAsyncStatusType
  xactStatus : PGTransactionStatusType
  result : Option PGresult
  errorMessage : List ErrorText
  pstatus : List (Bytes × Bytes)
  notifies : List PGnotify
  notices : List Notice
deriving DecidableEq, Repr

/-- How reading comes to an end. -/
inductive ReadEnd where
  /-- The server has closed the connection in order. -/
  | closed
  /-- The connection has been reset, or cannot be waited for after a read of nothing. -/
  | reset
  | receiveFails
  | selectFails
deriving DecidableEq, Repr

namespace ReadEnd

/-- An orderly end leaves the text that there is. -/
def text : ReadEnd → Option ErrorText
  | closed => none
  | reset => some .connectionClosed
  | receiveFails => some .receiveFailed
  | selectFails => some .selectFailed

/-- After any other error the connection counts as open. -/
def lost : ReadEnd → Bool
  | closed | reset => true
  | receiveFails | selectFails => false

/-- The texts of the connection, if these were there before. -/
def texts (how : ReadEnd) (before : List ErrorText) : List ErrorText :=
  how.text.elim before fun text => [text]

end ReadEnd

/-! ### Taking values off the buffer -/

abbrev Get (α : Type) := Reader UInt8 α

def charOf (c : UInt8) : Char := Char.ofNat c.toNat

def pqGetc : Get UInt8
  | [] => none
  | c :: rest => some (c, rest)

/-- Up to a NUL, which is taken off too. -/
def pqGets : Get Bytes
  | [] => none
  | c :: rest => if c = 0 then some ([], rest) else (pqGets rest).map fun p => (c :: p.1, p.2)

def pqGetnchar (len : Nat) : Get Bytes := fun buffer =>
  if len > buffer.length then none else some (buffer.take len, buffer.drop len)

/-- Two bytes are an unsigned number, four a signed one. -/
def pqGetInt (bytes : Nat) : Get Int32 := do
  let digits ← pqGetnchar bytes
  pure (Int32.ofNat (ofBigEndian digits))

/-! ### Error results -/

def PQmakeEmptyPGresult (conn : PGconn) (status : ExecStatusType) : PGresult where
  resultStatus := status
  attDescs := []
  tuples := []
  cmdStatus := []
  paramDescs := []
  errMsg := if status = .fatalError then conn.errorMessage else []

/-- An error result that is there already keeps its texts. -/
def pqSaveErrorResult (conn : PGconn) : PGconn :=
  let empty := PQmakeEmptyPGresult conn .fatalError
  { conn with result := some (
      match conn.result with
      | none => empty
      | some res =>
        if res.resultStatus ≠ .fatalError ∨ res.errMsg = [] then empty
        else { res with errMsg := res.errMsg ++ conn.errorMessage }) }

/-- An error of libpq: the text replaces what was there. -/
def saveError (conn : PGconn) (text : ErrorText) : PGconn :=
  pqSaveErrorResult { conn with errorMessage := [text] }

def handleSyncLoss (conn : PGconn) (id : UInt8) (msgLength : Int32) : PGconn :=
  { saveError conn (.lostSynchronization id msgLength) with asyncStatus := .ready, statusOk := false }

/-! ### The messages -/

def getColumn : Get PGresAttDesc := do
  let name ← pqGets
  let tableid ← pqGetInt 4
  let columnid ← pqGetInt 2
  let typid ← pqGetInt 4
  let typlen ← pqGetInt 2
  let atttypmod ← pqGetInt 4
  let format ← pqGetInt 2
  pure {
    name
    tableid := tableid.toUInt32
    columnid := columnid.toInt16
    typid := typid.toUInt32
    typlen := typlen.toInt16
    atttypmod
    format := format.toInt16 }

def getRowDescriptions (conn : PGconn) : Get PGconn := do
  let nfields ← pqGetInt 2
  let attDescs ← times nfields.toInt.toNat getColumn
  pure { conn with result := some { PQmakeEmptyPGresult conn .tuplesOk with attDescs } }

def getParamDescriptions (conn : PGconn) : Get PGconn := do
  let nparams ← pqGetInt 2
  let types ← times nparams.toInt.toNat (pqGetInt 4)
  pure { conn with
    result := some { PQmakeEmptyPGresult conn .commandOk with
      paramDescs := types.map Int32.toUInt32 } }

/-- A length of -1 is NULL; any other negative length is 0. -/
def getValue : Get (Option Bytes) := do
  let vlen ← pqGetInt 4
  if vlen = -1 then pure none
  else do
    let value ← pqGetnchar vlen.toInt.toNat
    pure (some value)

def getAnotherTuple (conn : PGconn) (result : PGresult) (msgLength : Nat) : Get PGconn := fun body =>
  match pqGetInt 2 body with
  | none => none
  | some (tupnfields, values) =>
    if tupnfields.toInt.toNat ≠ result.attDescs.length then
      -- the failed message is skipped
      some (saveError conn .fieldCount, body.drop msgLength)
    else
      match times result.attDescs.length getValue values with
      | none => none
      | some (tup, rest) =>
        some ({ conn with result := some { result with tuples := result.tuples ++ [tup] } }, rest)

/-- Fields up to a code of 0; each takes up at least two bytes. -/
def getFields : Nat → Get MessageFields
  | 0 => fun _ => none
  | fuel + 1 => do
    let id ← pqGetc
    if id = 0 then pure []
    else do
      let value ← pqGets
      let fields ← getFields fuel
      pure ((id, value) :: fields)

def pqGetErrorNotice3 (conn : PGconn) (isError : Bool) : Get PGconn := fun body =>
  match getFields (body.length + 1) body with
  | none => none
  | some (fields, rest) =>
    if isError then
      some ({ conn with
        result := some { PQmakeEmptyPGresult conn .fatalError with errMsg := [.server fields] }
        errorMessage := conn.errorMessage ++ [.server fields] }, rest)
    else some ({ conn with notices := conn.notices ++ [.server fields] }, rest)

/-- What was known of the parameter is forgotten. -/
def pqSaveParameterStatus (conn : PGconn) (name value : Bytes) : PGconn :=
  { conn with pstatus := (name, value) :: conn.pstatus.eraseP fun pstatus => pstatus.1 = name }

def getParameterStatus (conn : PGconn) : Get PGconn := do
  let name ← pqGets
  let value ← pqGets
  pure (pqSaveParameterStatus conn name value)

def getNotify (conn : PGconn) : Get PGconn := do
  let be_pid ← pqGetInt 4
  let relname ← pqGets
  let extra ← pqGets
  pure { conn with notifies := conn.notifies ++ [{ be_pid, relname, extra }] }

/-- The columns of a copy have formats only. -/
def getCopyStart (conn : PGconn) (copytype : ExecStatusType) : Get PGconn := do
  let _copyIsBinary ← pqGetc
  let nfields ← pqGetInt 2
  let formats ← times nfields.toInt.toNat (pqGetInt 2)
  pure { conn with
    result := some { PQmakeEmptyPGresult conn copytype with
      attDescs := formats.map fun format => ⟨[], 0, 0, 0, 0, 0, format.toInt16⟩ } }

def transactionStatus (xact_status : UInt8) : PGTransactionStatusType :=
  match charOf xact_status with
  | 'I' => .idle
  | 'T' => .inTrans
  | 'E' => .inError
  | _ => .unknown

def getReadyForQuery (conn : PGconn) : Get PGconn := do
  let xact_status ← pqGetc
  pure { conn with xactStatus := transactionStatus xact_status }

def CMDSTATUS_LEN : Nat := 64

/-- A result that is finished: the one under way, or else an empty one. -/
def finishResult (conn : PGconn) (status : ExecStatusType) (cmdStatus : Option Bytes) : PGconn :=
  let res := conn.result.getD (PQmakeEmptyPGresult conn status)
  { conn with
    result := some { res with cmdStatus := cmdStatus.elim res.cmdStatus (List.take CMDSTATUS_LEN) }
    asyncStatus := .ready }

/-! ### One message -/

/-- What one turn of `pqParseInput3` comes to. -/
inductive Parsed where
  /-- It returns: more data is needed, or the result is to be fetched first. -/
  | returned (conn : PGconn)
  /-- The message is done with, and this is left of the buffer. -/
  | consumed (conn : PGconn) (rest : Bytes)
deriving DecidableEq, Repr

/-- Without enough data everything stays. -/
def Parsed.ofGet (conn : PGconn) (get : Get PGconn) (body : Bytes) : Parsed :=
  match get body with
  | none => .returned conn
  | some (conn, rest) => .consumed conn rest

/-- A message that is dropped. -/
def discard (conn : PGconn) (msgLength : Nat) : Get PGconn := fun body =>
  some (conn, body.drop msgLength)

def parseIdle (conn : PGconn) (id : UInt8) (msgLength : Nat) (body : Bytes) : Parsed :=
  match charOf id with
  | 'E' => .ofGet conn (pqGetErrorNotice3 conn false) body
  | 'S' => .ofGet conn (getParameterStatus conn) body
  | _ => .ofGet conn (discard { conn with notices := conn.notices ++ [.whileIdle id] } msgLength) body

def parseBusy (conn : PGconn) (id : UInt8) (msgLength : Nat) (body : Bytes) : Parsed :=
  match charOf id with
  | 'C' => .ofGet conn (do
      let cmdStatus ← pqGets
      pure (finishResult conn .commandOk (some cmdStatus))) body
  | 'E' => .ofGet conn (do
      let conn ← pqGetErrorNotice3 conn true
      pure { conn with asyncStatus := .ready }) body
  | 'Z' => .ofGet conn (do
      let conn ← getReadyForQuery conn
      pure { conn with asyncStatus := .idle }) body
  | 'I' => .consumed (finishResult conn .emptyQuery none) body
  | '1' | '2' | '3' => .consumed conn body
  | 'S' => .ofGet conn (getParameterStatus conn) body
  | 'K' => .ofGet conn (do
      let _be_pid ← pqGetInt 4
      let _be_key ← pqGetInt 4
      pure conn) body
  | 'T' =>
    if conn.result = none then .ofGet conn (getRowDescriptions conn) body
    else .returned { conn with asyncStatus := .ready }
  | 'n' => .consumed conn body
  | 't' => .ofGet conn (getParamDescriptions conn) body
  | 'D' =>
    match conn.result with
    | some result =>
      match result.resultStatus with
      | .tuplesOk => .ofGet conn (getAnotherTuple conn result msgLength) body
      | .fatalError => .ofGet conn (discard conn msgLength) body
      | _ => .ofGet conn (discard (saveError conn .noRowDescription) msgLength) body
    | none => .ofGet conn (discard (saveError conn .noRowDescription) msgLength) body
  | 'G' => .ofGet conn (do
      let conn ← getCopyStart conn .copyIn
      pure { conn with asyncStatus := .copyIn }) body
  | 'H' => .ofGet conn (do
      let conn ← getCopyStart conn .copyOut
      pure { conn with asyncStatus := .copyOut }) body
  | 'W' => .ofGet conn (do
      let conn ← getCopyStart conn .copyBoth
      pure { conn with asyncStatus := .copyBoth }) body
  | 'd' => .ofGet conn (discard conn msgLength) body
  | 'c' => .consumed conn body
  | _ =>
    .ofGet conn
      (discard { saveError conn (.unexpectedResponse id) with asyncStatus := .ready } msgLength) body

/-- Notices and notifications are dealt with at any time. -/
def parseBody (conn : PGconn) (id : UInt8) (msgLength : Nat) (body : Bytes) : Parsed :=
  if charOf id = 'A' then .ofGet conn (getNotify conn) body
  else if charOf id = 'N' then .ofGet conn (pqGetErrorNotice3 conn false) body
  else match conn.asyncStatus with
    | .busy => parseBusy conn id msgLength body
    | .idle => parseIdle conn id msgLength body
    | _ => .returned conn

/-- The types of messages that can be long. -/
def VALID_LONG_MESSAGE_TYPE (id : UInt8) : Bool :=
  charOf id ∈ ['T', 'D', 'd', 'V', 'E', 'N', 'A']

def getHeader : Get (UInt8 × Int32) := do
  let id ← pqGetc
  let msgLength ← pqGetInt 4
  pure (id, msgLength)

/-- Whether the length can be that of a message of this type. -/
def lengthInRange (id : UInt8) (msgLength : Int32) : Bool :=
  decide (4 ≤ msgLength.toInt) && (decide (msgLength.toInt ≤ 30000) || VALID_LONG_MESSAGE_TYPE id)

/-- A message that does not end where its length says is an error, and is skipped. -/
def checkLength (id : UInt8) (msgLength : Nat) (body : Bytes) : Parsed → Parsed
  | .returned conn => .returned conn
  | .consumed conn rest =>
    if rest.length + msgLength = body.length then .consumed conn rest
    else .consumed { saveError conn (.lengthMismatch id) with asyncStatus := .ready }
      (body.drop msgLength)

/-- One turn of the loop. -/
def parseMessage (conn : PGconn) : Parsed :=
  match getHeader conn.inBuffer with
  | none => .returned conn
  | some ((id, msgLength), body) =>
    if !lengthInRange id msgLength then .returned (handleSyncLoss conn id msgLength)
    else
      let msgLength := msgLength.toInt.toNat - 4
      if body.length < msgLength then .returned conn
      else checkLength id msgLength body (parseBody conn id msgLength body)

/-! ### What a turn takes off -/

theorem pqGetnchar_eq_some {len : Nat} {buffer value rest : Bytes} :
    pqGetnchar len buffer = some (value, rest) ↔
      len ≤ buffer.length ∧ value = buffer.take len ∧ rest = buffer.drop len := by
  unfold pqGetnchar
  split
  · rename_i short
    exact iff_of_false nofun fun h => absurd h.1 (Nat.not_le.mpr short)
  · rename_i enough
    rw [Option.some_inj, Prod.mk.injEq, eq_comm, @eq_comm _ _ rest]
    exact (and_iff_right (Nat.not_lt.mp enough)).symm

theorem pqGetnchar_length {len : Nat} {buffer value rest : Bytes}
    (h : pqGetnchar len buffer = some (value, rest)) : buffer.length = rest.length + len := by
  obtain ⟨enough, -, rfl⟩ := pqGetnchar_eq_some.mp h
  rw [List.length_drop, Nat.sub_add_cancel enough]

theorem pqGetInt_length {bytes : Nat} {buffer rest : Bytes} {i : Int32}
    (h : pqGetInt bytes buffer = some (i, rest)) : buffer.length = rest.length + bytes := by
  rw [show pqGetInt bytes buffer = _ from map_apply _ _ _] at h
  obtain ⟨p, hdigits, hpair⟩ := Option.map_eq_some_iff.mp h
  cases hpair
  exact pqGetnchar_length hdigits

theorem getHeader_length {buffer body : Bytes} {header : UInt8 × Int32}
    (h : getHeader buffer = some (header, body)) : buffer.length = body.length + 5 := by
  cases buffer with
  | nil => cases h
  | cons c buffer =>
    rw [show getHeader (c :: buffer) = _ from map_apply (pqGetInt 4) _ buffer] at h
    obtain ⟨p, hlength, hpair⟩ := Option.map_eq_some_iff.mp h
    cases hpair
    rw [List.length_cons, pqGetInt_length hlength]

theorem checkLength_length {id : UInt8} {msgLength : Nat} {body rest : Bytes} {parsed : Parsed}
    {conn : PGconn} (h : checkLength id msgLength body parsed = .consumed conn rest) :
    rest.length ≤ body.length := by
  cases parsed with
  | returned conn => cases h
  | consumed conn rest =>
    rw [checkLength] at h
    split at h
    · rename_i agree
      cases h
      exact Nat.le_of_add_right_le (Nat.le_of_eq agree)
    · cases h
      rw [List.length_drop]
      exact Nat.sub_le _ _

theorem rest_shorter {conn conn' : PGconn} {rest : Bytes}
    (h : parseMessage conn = .consumed conn' rest) : rest.length < conn.inBuffer.length := by
  unfold parseMessage at h
  split at h
  · cases h
  · rename_i id msgLength body header
    split at h
    · cases h
    · dsimp only at h
      split at h
      · cases h
      · have taken := checkLength_length h
        rw [getHeader_length header]
        omega

/-! ### The loops -/

/-- Takes off messages as long as there are any that can be dealt with. -/
def pqParseInput3 (conn : PGconn) : PGconn :=
  match _h : parseMessage conn with
  | .returned conn => conn
  | .consumed conn' rest => pqParseInput3 { conn' with inBuffer := rest }
termination_by conn.inBuffer.length
decreasing_by exact rest_shorter _h

/-- The result that has been put together is handed over. An empty one has the text of the
connection already. -/
def pqPrepareAsyncResult (conn : PGconn) : PGresult × PGconn :=
  let res := conn.result.getD (PQmakeEmptyPGresult conn .fatalError)
  (res, { conn with result := none, errorMessage := res.errMsg })

/-- `pqWait` or `pqReadData` fails. -/
def readFails (conn : PGconn) (how : ReadEnd) : PGconn :=
  if conn.statusOk then
    { conn with statusOk := !how.lost, errorMessage := how.texts conn.errorMessage }
  else { conn with errorMessage := [.socketNotOpen] }

/-- The error result that stands for what cannot be read. -/
def readFailed (conn : PGconn) (how : ReadEnd) : PGconn :=
  { pqSaveErrorResult (readFails conn how) with asyncStatus := .idle }

def copyResult (conn : PGconn) (status : ExecStatusType) : PGresult × PGconn :=
  if (conn.result.map PGresult.resultStatus) = some status then pqPrepareAsyncResult conn
  else (PQmakeEmptyPGresult conn status, conn)

/-- What is there for the caller, and the state it leaves behind. -/
def takeResult (conn : PGconn) : Option PGresult × PGconn :=
  match conn.asyncStatus with
  | .idle | .busy => (none, conn)
  | .ready =>
    let prepared := pqPrepareAsyncResult conn
    (some prepared.1, { prepared.2 with asyncStatus := .busy })
  | .copyIn => (some (copyResult conn .copyIn).1, (copyResult conn .copyIn).2)
  | .copyOut => (some (copyResult conn .copyOut).1, (copyResult conn .copyOut).2)
  | .copyBoth => (some (copyResult conn .copyBoth).1, (copyResult conn .copyBoth).2)

/-- The next result, if the query has one more, and what is left to read. Reads come as
they are listed, and then to their end. -/
def PQgetResult (conn : PGconn) (reads : List Bytes) (how : ReadEnd) :
    Option PGresult × PGconn × List Bytes :=
  let conn := pqParseInput3 conn
  if conn.asyncStatus = .busy then
    let failed := pqPrepareAsyncResult (readFailed conn how)
    if !conn.statusOk then (some failed.1, failed.2, reads)
    else match reads with
      | [] => (some failed.1, failed.2, [])
      | read :: reads => PQgetResult { conn with inBuffer := conn.inBuffer ++ read } reads how
  else
    let taken := takeResult conn
    (taken.1, taken.2, reads)

/-! ### Each result uses something up -/

section Progress

variable {conn conn' : PGconn}

theorem pqParseInput3_of_returned (h : parseMessage conn = .returned conn') :
    pqParseInput3 conn = conn' := by
  rw [pqParseInput3]
  split
  · rename_i same
    rw [h] at same
    cases same
    rfl
  · rename_i same
    rw [h] at same
    cases same

theorem pqParseInput3_of_consumed {rest : Bytes} (h : parseMessage conn = .consumed conn' rest) :
    pqParseInput3 conn = pqParseInput3 { conn' with inBuffer := rest } := by
  rw [pqParseInput3]
  split
  · rename_i same
    rw [h] at same
    cases same
  · rename_i same
    rw [h] at same
    cases same
    rfl

theorem ofGet_returned {get : Get PGconn} {body : Bytes}
    (h : Parsed.ofGet conn get body = .returned conn') : conn' = conn := by
  unfold Parsed.ofGet at h
  split at h
  · cases h
    rfl
  · cases h

/-- The only message that is left for later, and changes something: the columns of
another result. -/
theorem parseBusy_returned {id : UInt8} {msgLength : Nat} {body : Bytes}
    (h : parseBusy conn id msgLength body = .returned conn') :
    conn' = conn ∨ conn.result ≠ none ∧ conn' = { conn with asyncStatus := .ready } := by
  unfold parseBusy at h
  split at h <;> try first | exact .inl (ofGet_returned h) | cases h
  · split at h
    · exact .inl (ofGet_returned h)
    · rename_i some_result
      cases h
      exact .inr ⟨some_result, rfl⟩
  · split at h
    · split at h <;> exact .inl (ofGet_returned h)
    · exact .inl (ofGet_returned h)

/-- A result that is finished because the columns of another one have come. -/
structure HeldBack (conn conn' : PGconn) : Prop where
  busy : conn.asyncStatus = .busy
  some_result : conn.result ≠ none
  ready : conn' = { conn with asyncStatus := .ready }

theorem parseBody_returned {id : UInt8} {msgLength : Nat} {body : Bytes}
    (h : parseBody conn id msgLength body = .returned conn') :
    conn' = conn ∨ HeldBack conn conn' := by
  unfold parseBody at h
  split at h
  · exact .inl (ofGet_returned h)
  · split at h
    · exact .inl (ofGet_returned h)
    · split at h
      · rename_i busy
        exact (parseBusy_returned h).imp_right fun held => ⟨busy, held.1, held.2⟩
      · unfold parseIdle at h
        split at h <;> exact .inl (ofGet_returned h)
      · cases h
        exact .inl rfl

theorem parseMessage_returned (h : parseMessage conn = .returned conn') :
    conn' = conn ∨ HeldBack conn conn' ∨
      (conn'.statusOk = false ∧ conn'.inBuffer = conn.inBuffer) := by
  unfold parseMessage at h
  split at h
  · cases h
    exact .inl rfl
  · split at h
    · cases h
      exact .inr (.inr ⟨rfl, rfl⟩)
    · dsimp only at h
      split at h
      · cases h
        exact .inl rfl
      · rename_i id msgLength body _ _ _
        cases hbody : parseBody conn id (msgLength.toInt.toNat - 4) body with
        | returned =>
          rw [hbody] at h
          cases h
          exact (parseBody_returned hbody).imp_right .inl
        | consumed =>
          rw [hbody, checkLength] at h
          split at h <;> cases h

theorem pqParseInput3_length (conn : PGconn) :
    (pqParseInput3 conn).inBuffer.length ≤ conn.inBuffer.length := by
  induction conn using pqParseInput3.induct with
  | case1 conn conn' h =>
    rw [pqParseInput3_of_returned h]
    rcases parseMessage_returned h with rfl | ⟨-, -, rfl⟩ | ⟨-, same⟩
    · exact le_rfl
    · exact le_rfl
    · exact (congrArg List.length same).le
  | case2 conn conn' rest h ih =>
    rw [pqParseInput3_of_consumed h]
    exact ih.trans (rest_shorter h).le

/-- What parsing comes to: nothing; something is taken off; a result is held back for
another one; or the connection is lost. -/
theorem pqParseInput3_cases (conn : PGconn) :
    pqParseInput3 conn = conn ∨
      (pqParseInput3 conn).inBuffer.length < conn.inBuffer.length ∨
      HeldBack conn (pqParseInput3 conn) ∨
      (pqParseInput3 conn).statusOk = false := by
  cases h : parseMessage conn with
  | returned conn' =>
    rw [pqParseInput3_of_returned h]
    exact (parseMessage_returned h).imp_right fun changed => .inr (changed.imp_right And.left)
  | consumed conn' rest =>
    rw [pqParseInput3_of_consumed h]
    exact .inr (.inl ((pqParseInput3_length _).trans_lt (rest_shorter h)))

/-- An idle connection has no result to come but those that are begun in its buffer. -/
def PGAsyncStatusType.weight : PGAsyncStatusType → Nat
  | idle => 0
  | busy => 1
  | ready | copyIn | copyOut | copyBoth => 2

/-- A bound on how many results can still come. -/
def remaining (conn : PGconn) (reads : List Bytes) : Nat :=
  4 * (conn.inBuffer.length + reads.flatten.length) + (if conn.result = none then 0 else 1) +
    conn.asyncStatus.weight

theorem remaining_busy (conn : PGconn) (reads : List Bytes) :
    remaining { conn with asyncStatus := .busy } reads =
      4 * (conn.inBuffer.length + reads.flatten.length) +
        (if conn.result = none then 0 else 1) + 1 := rfl

theorem remaining_read (conn : PGconn) (read : Bytes) (reads : List Bytes) :
    remaining { conn with inBuffer := conn.inBuffer ++ read } reads =
      remaining conn (read :: reads) := by
  have bytes : (conn.inBuffer ++ read).length + reads.flatten.length =
      conn.inBuffer.length + (read :: reads).flatten.length := by
    rw [List.flatten_cons, List.length_append, List.length_append, Nat.add_assoc]
  unfold remaining
  rw [← bytes]

/-- Waiting for more uses nothing up. -/
theorem remaining_parsed {reads : List Bytes} (ok : (pqParseInput3 conn).statusOk = true)
    (busy : (pqParseInput3 conn).asyncStatus = .busy) :
    remaining (pqParseInput3 conn) reads ≤ remaining conn reads := by
  rcases pqParseInput3_cases conn with same | shorter | held | lost
  · rw [same]
  · have waiting : (pqParseInput3 conn).asyncStatus.weight = 1 := by
      rw [busy]
      rfl
    unfold remaining
    rw [waiting]
    split <;> omega
  · rw [held.ready] at busy
    cases busy
  · rw [lost] at ok
    cases ok

theorem remaining_ready {reads : List Bytes} (ok : (pqParseInput3 conn).statusOk = true)
    (ready : (pqParseInput3 conn).asyncStatus = .ready) :
    4 * ((pqParseInput3 conn).inBuffer.length + reads.flatten.length) + 1 <
      remaining conn reads := by
  unfold remaining
  rcases pqParseInput3_cases conn with same | shorter | held | lost
  · rw [same] at ready ⊢
    rw [ready, PGAsyncStatusType.weight]
    omega
  · omega
  · rw [held.ready, if_neg held.some_result, held.busy, PGAsyncStatusType.weight]
    exact Nat.lt_succ_self _
  · rw [lost] at ok
    cases ok

theorem remaining_copy {reads : List Bytes} (ok : (pqParseInput3 conn).statusOk = true)
    (copy : (pqParseInput3 conn).asyncStatus ∉ [.idle, .busy, .ready]) :
    remaining { pqParseInput3 conn with asyncStatus := .busy } reads < remaining conn reads := by
  rw [remaining_busy]
  unfold remaining
  rcases pqParseInput3_cases conn with same | shorter | held | lost
  · rw [same] at copy ⊢
    have pending : conn.asyncStatus.weight = 2 := by
      cases hstatus : conn.asyncStatus with
      | idle | busy | ready => exact absurd (by rw [hstatus]; simp) copy
      | copyIn | copyOut | copyBoth => rfl
    rw [pending]
    exact Nat.lt_succ_self _
  · split <;> omega
  · rw [held.ready] at copy
    exact absurd (by simp) copy
  · rw [lost] at ok
    cases ok

def isCopy (status : ExecStatusType) : Bool :=
  status = .copyIn || status = .copyOut || status = .copyBoth

/-- The connection in which a query goes on: it is busy again when a copy has been left. -/
def resumed (conn : PGconn) (result : PGresult) : PGconn :=
  if isCopy result.resultStatus then { conn with asyncStatus := .busy } else conn

theorem resumed_of_busy {result : PGresult} (busy : conn.asyncStatus = .busy) :
    resumed conn result = conn := by
  unfold resumed
  split
  · rw [← busy]
  · rfl

theorem copyResult_resultStatus (conn : PGconn) (status : ExecStatusType) :
    (copyResult conn status).1.resultStatus = status := by
  unfold copyResult
  split
  · rename_i there
    obtain ⟨res, hres, hstatus⟩ := Option.map_eq_some_iff.mp there
    rw [pqPrepareAsyncResult, hres]
    exact hstatus
  · rfl

theorem remaining_copyResult (conn : PGconn) (status : ExecStatusType) (reads : List Bytes) :
    remaining { (copyResult conn status).2 with asyncStatus := .busy } reads ≤
      remaining { conn with asyncStatus := .busy } reads := by
  unfold copyResult
  split
  · rw [remaining_busy, remaining_busy]
    exact Nat.add_le_add_right (Nat.add_le_add_left (Nat.zero_le _) _) _
  · exact le_rfl

theorem takeResult_progress {reads : List Bytes} {result : PGresult}
    (ok : (pqParseInput3 conn).statusOk = true)
    (h : takeResult (pqParseInput3 conn) = (some result, conn')) :
    remaining (resumed conn' result) reads < remaining conn reads := by
  have copy : ∀ status, isCopy status = true →
      (pqParseInput3 conn).asyncStatus ∉ [.idle, .busy, .ready] →
      (some (copyResult (pqParseInput3 conn) status).1, (copyResult (pqParseInput3 conn) status).2) =
        (some result, conn') →
      remaining (resumed conn' result) reads < remaining conn reads := by
    intro status hcopy pending same
    obtain ⟨hresult, rfl⟩ := Prod.mk.inj same
    obtain rfl := Option.some.inj hresult
    rw [resumed, copyResult_resultStatus, if_pos hcopy]
    exact (remaining_copyResult _ status reads).trans_lt (remaining_copy ok pending)
  unfold takeResult at h
  split at h
  · cases h
  · cases h
  · rename_i ready
    cases h
    rw [resumed_of_busy rfl]
    exact remaining_ready ok ready
  · rename_i status
    exact copy _ rfl (by rw [status]; simp) h
  · rename_i status
    exact copy _ rfl (by rw [status]; simp) h
  · rename_i status
    exact copy _ rfl (by rw [status]; simp) h

theorem takeResult_statusOk (conn : PGconn) : (takeResult conn).2.statusOk = conn.statusOk := by
  have copy : ∀ status, (copyResult conn status).2.statusOk = conn.statusOk := by
    intro status
    unfold copyResult
    split <;> rfl
  unfold takeResult
  split
  · rfl
  · rfl
  · rfl
  · exact copy _
  · exact copy _
  · exact copy _

theorem pqSaveErrorResult_fatal (conn : PGconn) :
    ∃ res, (pqSaveErrorResult conn).result = some res ∧ res.resultStatus = .fatalError := by
  unfold pqSaveErrorResult
  cases conn.result with
  | none => exact ⟨_, rfl, rfl⟩
  | some res =>
    refine ⟨_, rfl, ?_⟩
    dsimp only
    split
    · rfl
    · rename_i fatal
      exact not_not.mp (not_or.mp fatal).1

theorem readFails_inBuffer (conn : PGconn) (how : ReadEnd) :
    (readFails conn how).inBuffer = conn.inBuffer := by
  unfold readFails
  split <;> rfl

theorem readFailed_lost (how : ReadEnd) (closed : conn.statusOk = false) :
    (pqPrepareAsyncResult (readFailed conn how)).2.statusOk = false := by
  have same : (pqPrepareAsyncResult (readFailed conn how)).2.statusOk =
      (readFails conn how).statusOk := rfl
  rw [same, readFails, if_neg (by rw [closed]; decide)]
  exact closed

/-- When reading has failed, the connection is idle. -/
theorem readFailed_progress {reads : List Bytes} (how : ReadEnd) (busy : conn.asyncStatus = .busy) :
    remaining (resumed (pqPrepareAsyncResult (readFailed conn how)).2
      (pqPrepareAsyncResult (readFailed conn how)).1) reads < remaining conn reads := by
  obtain ⟨res, hres, fatal⟩ := pqSaveErrorResult_fatal (readFails conn how)
  have failed : (pqPrepareAsyncResult (readFailed conn how)).1 = res := by
    rw [pqPrepareAsyncResult, readFailed, hres]
    rfl
  have left : remaining (pqPrepareAsyncResult (readFailed conn how)).2 reads =
      4 * ((readFails conn how).inBuffer.length + reads.flatten.length) := rfl
  rw [resumed, failed, fatal, if_neg (by decide), left, readFails_inBuffer, remaining, busy,
    PGAsyncStatusType.weight]
  omega

/-- Fetching a result uses up some of what can still come. -/
theorem PQgetResult_progress {reads reads' : List Bytes} {how : ReadEnd} {result : PGresult}
    (h : PQgetResult conn reads how = (some result, conn', reads')) (ok : conn'.statusOk = true) :
    remaining (resumed conn' result) reads' < remaining conn reads := by
  have taken : ∀ {conn : PGconn} {reads : List Bytes},
      ((takeResult (pqParseInput3 conn)).1, (takeResult (pqParseInput3 conn)).2, reads) =
        (some result, conn', reads') →
      remaining (resumed conn' result) reads' < remaining conn reads := by
    intro conn reads same
    obtain ⟨hresult, hrest⟩ := Prod.mk.inj same
    obtain ⟨rfl, rfl⟩ := Prod.mk.inj hrest
    rw [takeResult_statusOk] at ok
    exact takeResult_progress ok (Prod.ext hresult rfl)
  induction reads generalizing conn with
  | nil =>
    unfold PQgetResult at h
    dsimp only at h
    split at h
    · rename_i busy
      split at h
      · rename_i closed
        cases h
        rw [readFailed_lost how ((Bool.not_eq_true' _).mp closed)] at ok
        cases ok
      · rename_i isOpen
        cases h
        rw [Bool.not_eq_true, Bool.not_eq_false'] at isOpen
        exact (readFailed_progress how busy).trans_le (remaining_parsed isOpen busy)
    · exact taken h
  | cons read reads ih =>
    unfold PQgetResult at h
    dsimp only at h
    split at h
    · rename_i busy
      split at h
      · rename_i closed
        cases h
        rw [readFailed_lost how ((Bool.not_eq_true' _).mp closed)] at ok
        cases ok
      · rename_i isOpen
        rw [Bool.not_eq_true, Bool.not_eq_false'] at isOpen
        exact ((ih h).trans_eq (remaining_read _ _ _)).trans_le (remaining_parsed isOpen busy)
    · exact taken h

end Progress

/-! ### A query -/

/-- `pqCatenateResultError` -/
def catenateResultError (lastResult result : PGresult) : PGresult :=
  { lastResult with errMsg := lastResult.errMsg ++ result.errMsg }

/-- The last of the results counts, but error texts are put together. -/
def mergeResult (lastResult : Option PGresult) (result : PGresult) : PGresult :=
  match lastResult with
  | none => result
  | some last =>
    if last.resultStatus = .fatalError ∧ result.resultStatus = .fatalError then
      catenateResultError last result
    else result

/-- The text of the connection follows a text that is put together. -/
def mergeErrors (lastResult : Option PGresult) (result : PGresult) (conn : PGconn) : PGconn :=
  match lastResult with
  | none => conn
  | some last =>
    if last.resultStatus = .fatalError ∧ result.resultStatus = .fatalError then
      { conn with errorMessage := (catenateResultError last result).errMsg }
    else conn

theorem isCopy_mergeResult {lastResult : Option PGresult} {result : PGresult}
    (h : isCopy result.resultStatus = true) :
    isCopy (mergeResult lastResult result).resultStatus = true := by
  unfold mergeResult
  split
  · exact h
  · split
    · rename_i fatal
      rw [fatal.2] at h
      cases h
    · exact h

theorem mergeErrors_eq (lastResult : Option PGresult) (result : PGresult) (conn : PGconn) :
    mergeErrors lastResult result conn =
      { conn with errorMessage := (mergeErrors lastResult result conn).errorMessage } := by
  unfold mergeErrors
  split
  · rfl
  · split <;> rfl

theorem remaining_mergeErrors {conn conn' : PGconn} {reads reads' : List Bytes} {how : ReadEnd}
    {lastResult : Option PGresult} {result : PGresult}
    (h : PQgetResult conn reads how = (some result, conn', reads'))
    (goes_on : ¬ (isCopy (mergeResult lastResult result).resultStatus = true ∨
      (mergeErrors lastResult result conn').statusOk = false)) :
    remaining (mergeErrors lastResult result conn') reads' < remaining conn reads := by
  obtain ⟨nocopy, isOpen⟩ := not_or.mp goes_on
  rw [mergeErrors_eq] at isOpen ⊢
  have less := PQgetResult_progress h (Bool.eq_true_of_not_eq_false isOpen)
  rw [resumed, if_neg fun copy => nocopy (isCopy_mergeResult copy)] at less
  exact less

/-- Waits for the results of a query, up to a copy or the end of the connection. -/
def PQexecFinish (conn : PGconn) (reads : List Bytes) (how : ReadEnd) (lastResult : Option PGresult) :
    Option PGresult × PGconn × List Bytes :=
  match _h : PQgetResult conn reads how with
  | (none, conn, reads) => (lastResult, conn, reads)
  | (some result, conn', reads') =>
    let merged := mergeResult lastResult result
    if _goes_on : isCopy merged.resultStatus = true ∨
        (mergeErrors lastResult result conn').statusOk = false then
      (some merged, mergeErrors lastResult result conn', reads')
    else PQexecFinish (mergeErrors lastResult result conn') reads' how (some merged)
termination_by remaining conn reads
decreasing_by exact remaining_mergeErrors _h _goes_on

/-- `PQputCopyEnd`, for the text "COPY terminated by new PQexec". -/
def PQputCopyEnd (conn : PGconn) : Bool × PGconn :=
  if conn.asyncStatus ≠ .copyIn then (false, { conn with errorMessage := [.noCopy] })
  else (conn.statusOk, { conn with
    asyncStatus := .busy
    errorMessage := if conn.statusOk then [] else [.connectionNotOpen] })

/-- What is done about a result that nobody has fetched. -/
def leaveCopy (result : PGresult) (conn : PGconn) : Bool × PGconn :=
  match result.resultStatus with
  | .copyIn => PQputCopyEnd conn
  | .copyOut => (true, { conn with asyncStatus := .busy })
  | .copyBoth => (false, { conn with errorMessage := [.duringCopyBoth] })
  | _ => (true, conn)

theorem PQputCopyEnd_cases (conn : PGconn) :
    (PQputCopyEnd conn).1 = false ∨
      (PQputCopyEnd conn).2 = { conn with
        asyncStatus := .busy, errorMessage := (PQputCopyEnd conn).2.errorMessage } := by
  unfold PQputCopyEnd
  split
  · exact .inl rfl
  · exact .inr rfl

/-- A copy is left, or fails to be; the connection is the one in which the query goes on. -/
theorem leaveCopy_cases (result : PGresult) (conn : PGconn) :
    (leaveCopy result conn).1 = false ∨
      (leaveCopy result conn).2 = { resumed conn result with
        errorMessage := (leaveCopy result conn).2.errorMessage } := by
  unfold leaveCopy resumed
  cases result.resultStatus with
  | copyIn => exact PQputCopyEnd_cases conn
  | copyOut => exact .inr rfl
  | copyBoth => exact .inl rfl
  | emptyQuery | commandOk | tuplesOk | fatalError => exact .inr rfl

theorem remaining_leaveCopy {conn conn' : PGconn} {reads reads' : List Bytes} {how : ReadEnd}
    {result : PGresult} (h : PQgetResult conn reads how = (some result, conn', reads'))
    (goes_on : ¬ ((leaveCopy result conn').1 = false ∨ (leaveCopy result conn').2.statusOk = false)) :
    remaining (leaveCopy result conn').2 reads' < remaining conn reads := by
  obtain ⟨left, isOpen⟩ := not_or.mp goes_on
  rcases leaveCopy_cases result conn' with fails | same
  · exact absurd fails left
  · have status : (resumed conn' result).statusOk = conn'.statusOk := by
      unfold resumed
      split <;> rfl
    rw [same] at isOpen ⊢
    dsimp only at isOpen
    rw [status] at isOpen
    exact PQgetResult_progress h (Bool.eq_true_of_not_eq_false isOpen)

/-- Results that nobody has fetched are dropped. -/
def PQexecStart (conn : PGconn) (reads : List Bytes) (how : ReadEnd) : Bool × PGconn × List Bytes :=
  match _h : PQgetResult conn reads how with
  | (none, conn, reads) => (true, conn, reads)
  | (some result, conn', reads') =>
    if _goes_on : (leaveCopy result conn').1 = false ∨ (leaveCopy result conn').2.statusOk = false then
      (false, (leaveCopy result conn').2, reads')
    else PQexecStart (leaveCopy result conn').2 reads' how
termination_by remaining conn reads
decreasing_by exact remaining_leaveCopy _h _goes_on

/-- The query goes out, if the connection is open and idle. -/
def PQsendQuery (conn : PGconn) : Bool × PGconn :=
  if !conn.statusOk then (false, { conn with errorMessage := [.noConnection] })
  else if conn.asyncStatus ≠ .idle then (false, { conn with errorMessage := [.alreadyBusy] })
  else (true, { conn with errorMessage := [], result := none, asyncStatus := .busy })

def PQexec (conn : PGconn) (reads : List Bytes) (how : ReadEnd) :
    Option PGresult × PGconn × List Bytes :=
  let started := PQexecStart conn reads how
  if !started.1 then (none, started.2.1, started.2.2)
  else
    let sent := PQsendQuery started.2.1
    if !sent.1 then (none, sent.2, started.2.2)
    else PQexecFinish sent.2 started.2.2 how none

end Libpq

end PointIPad
