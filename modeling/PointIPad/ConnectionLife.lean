import PointIPad.Conninfo
import PointIPad.DatabaseAccess

/-!
The life of a connection object: parameters are set, it connects, sends commands,
and closes.

A connection string is put together at the first connect and kept: parameters that
are set later are not looked at again. How the server answers is part of an event.

**Main results.** At every point of a run an object holds the one libpq connection
that it has left open, and says that it is connected exactly then
(`connection_coherent`). Until a connection string is set, every connect is made
with the same one (`connects_alike`).
-/

namespace PointIPad

/-! ### The object and libpq -/

/-- A connection object, and what libpq has done for it. -/
structure ConnectionState where
  isConnected : Bool
  errorDescription : Option String
  commandStatus : Option String
  pgconn : Option Nat
  parameters : ConnectionParameters
  connectionString : Option String
  sqlLog : String
  /-- How many connections libpq has made. -/
  made : Nat
  /-- The connections that are not finished. -/
  live : List Nat
  /-- The strings that libpq was given to connect with. -/
  conninfos : List String

/-- What becomes of `PQconnectdb`. -/
inductive ConnectReply where
  | connected
  | bad (message : String)
deriving DecidableEq

/-- What becomes of `PQexec` for a command. -/
inductive ExecReply where
  | noResponse
  | failed (message : String)
  | done (cmdStatus : String)
deriving DecidableEq

/-- What becomes of `PQexec` for a query. -/
inductive OpenReply where
  | tuples
  | commandOk
  | emptyQuery
  | failed (message : String)
deriving DecidableEq

namespace ConnectionState

def init : ConnectionState where
  isConnected := false
  errorDescription := none
  commandStatus := none
  pgconn := none
  parameters := .init
  connectionString := none
  sqlLog := ""
  made := 0
  live := []
  conninfos := []

def appendSQLLog (s : ConnectionState) (value : String) : ConnectionState :=
  { s with sqlLog := s.sqlLog ++ value }

def PQfinish (s : ConnectionState) (conn : Nat) : ConnectionState :=
  { s with live := s.live.erase conn }

def close (s : ConnectionState) : ConnectionState :=
  match s.pgconn with
  | none => s
  | some conn =>
    if s.isConnected = false then s
    else { (s.appendSQLLog "Disconnected from database.\n").PQfinish conn with
      pgconn := none
      isConnected := false }

/-- A string that is there already is used again. -/
def makeConnectionString (s : ConnectionState) : String :=
  match s.connectionString with
  | some connectionString => connectionString
  | none => s.parameters.makeConnectionString

def connect (s : ConnectionState) (reply : ConnectReply) : ConnectionState :=
  let s := s.close
  let connectionString := s.makeConnectionString
  let conn := s.made
  let s := { s with
    connectionString := some connectionString
    pgconn := some conn
    made := conn + 1
    live := conn :: s.live
    conninfos := s.conninfos ++ [connectionString] }
  match reply with
  | .bad message =>
    let s := { s with errorDescription := some message }
    let s := s.appendSQLLog ("Connection to database "
      ++ DatabaseAccess.stringOrNull s.parameters.dbName ++ " Failed.\n")
    let s := s.appendSQLLog ("Connection string: " ++ connectionString ++ "\n\n")
    { s.PQfinish conn with pgconn := none, isConnected := false }
  | .connected =>
    { s with
      errorDescription := none
      sqlLog := "Connected to database " ++ DatabaseAccess.stringOrNull s.parameters.dbName
        ++ ".\n"
      isConnected := true }

def execCommand (s : ConnectionState) (reply : ExecReply) : ConnectionState :=
  let s := { s with errorDescription := none, commandStatus := none }
  if s.pgconn = none then { s with errorDescription := some "Object is not Connected." }
  else match reply with
    | .noResponse =>
      { s with errorDescription := some "ERROR: No response (PGRES_FATAL_ERROR)" }
    | .failed message => { s with errorDescription := some message }
    | .done cmdStatus =>
      if cmdStatus.length = 0 then s
      else { s with commandStatus := some cmdStatus }.appendSQLLog (cmdStatus ++ "\n")

def openSelect (s : ConnectionState) (reply : OpenReply) : ConnectionState :=
  let s := { s with errorDescription := none }
  if s.pgconn = none then
    { s with errorDescription := some "Object is not Connected." }.appendSQLLog
      "Object is not Connected.\n"
  else match reply with
    | .tuples => s
    | .commandOk => s
    | .emptyQuery => s.appendSQLLog "Postgres reported Empty Query\n"
    | .failed message =>
      let errorDescription := "PostgreSQL Error: " ++ message
      { s with errorDescription := some errorDescription }.appendSQLLog (errorDescription ++ "\n")

end ConnectionState

inductive ConnectionEvent where
  | setServer (value : Option String)
  | setPort (value : Option String)
  | setDatabaseName (value : Option String)
  | setUserName (value : Option String)
  | setPassword (value : Option String)
  | setConnectionString (value : Option String)
  | connect (reply : ConnectReply)
  | close
  | execCommand (reply : ExecReply)
  | openSelect (reply : OpenReply)
deriving DecidableEq

namespace ConnectionEvent

/-- What the event sets of the parameters. -/
def set (p : ConnectionParameters) : ConnectionEvent → ConnectionParameters
  | .setServer value => { p with host := value }
  | .setPort value => { p with port := value }
  | .setDatabaseName value => { p with dbName := value }
  | .setUserName value => { p with userName := value }
  | .setPassword value => { p with password := value }
  | _ => p

def isConnect : ConnectionEvent → Bool
  | .connect _ => true
  | _ => false

def setsString : ConnectionEvent → Bool
  | .setConnectionString _ => true
  | _ => false

end ConnectionEvent

def connectionStep (s : ConnectionState) (e : ConnectionEvent) : ConnectionState :=
  match e with
  | .setConnectionString value => { s with connectionString := value }
  | .connect reply => s.connect reply
  | .close => s.close
  | .execCommand reply => s.execCommand reply
  | .openSelect reply => s.openSelect reply
  | _ => { s with parameters := e.set s.parameters }

/-! ### One connection at a time -/

/-- The object holds what libpq has left open, and knows whether it is connected. -/
structure ConnectionCoherent (s : ConnectionState) : Prop where
  connected : s.isConnected = s.pgconn.isSome
  live : s.live = s.pgconn.toList
  made : s.conninfos.length = s.made

namespace ConnectionState

variable {s : ConnectionState}

theorem close_eq (h : ConnectionCoherent s) : ∃ sqlLog, s.close = { s with
    pgconn := none, isConnected := false, live := [], sqlLog := sqlLog } := by
  have hconnected := h.connected
  have hlive := h.live
  obtain ⟨isConnected, errorDescription, commandStatus, pgconn, parameters, connectionString,
    sqlLog, made, live, conninfos⟩ := s
  cases pgconn with
  | none =>
    cases hconnected
    cases hlive
    exact ⟨sqlLog, rfl⟩
  | some conn =>
    cases hconnected
    cases hlive
    refine ⟨sqlLog ++ "Disconnected from database.\n", ?_⟩
    simp [close, appendSQLLog, PQfinish]

/-- Commands change neither the connection nor what libpq has been given. -/
theorem execCommand_frame (reply : ExecReply) : ∃ errorDescription commandStatus sqlLog,
    s.execCommand reply = { s with
      errorDescription := errorDescription, commandStatus := commandStatus, sqlLog := sqlLog } := by
  unfold execCommand
  dsimp only
  split
  · exact ⟨_, _, _, rfl⟩
  · cases reply with
    | noResponse => exact ⟨_, _, _, rfl⟩
    | failed message => exact ⟨_, _, _, rfl⟩
    | done cmdStatus =>
      dsimp only
      split <;> exact ⟨_, _, _, rfl⟩

theorem openSelect_frame (reply : OpenReply) : ∃ errorDescription sqlLog,
    s.openSelect reply = { s with errorDescription := errorDescription, sqlLog := sqlLog } := by
  unfold openSelect
  dsimp only
  split
  · exact ⟨_, _, rfl⟩
  · cases reply <;> exact ⟨_, _, rfl⟩

/-- A connect leaves one connection or none, and keeps the string. -/
theorem connect_eq (h : ConnectionCoherent s) (reply : ConnectReply) :
    ∃ isConnected errorDescription sqlLog, s.connect reply = { s with
      isConnected := isConnected
      errorDescription := errorDescription
      pgconn := if isConnected then some s.made else none
      connectionString := some s.makeConnectionString
      sqlLog := sqlLog
      made := s.made + 1
      live := if isConnected then [s.made] else []
      conninfos := s.conninfos ++ [s.makeConnectionString] } := by
  obtain ⟨sqlLog, hclose⟩ := close_eq h
  unfold connect
  rw [hclose]
  cases reply with
  | connected => exact ⟨true, none, _, rfl⟩
  | bad message =>
    refine ⟨false, some message, sqlLog
      ++ ("Connection to database " ++ DatabaseAccess.stringOrNull s.parameters.dbName ++ " Failed.\n")
      ++ ("Connection string: " ++ s.makeConnectionString ++ "\n\n"), ?_⟩
    simp only [appendSQLLog, PQfinish, List.erase_cons_head]
    rfl

end ConnectionState

open ConnectionState in
theorem ConnectionCoherent.step {s : ConnectionState} (h : ConnectionCoherent s)
    (e : ConnectionEvent) : ConnectionCoherent (connectionStep s e) := by
  cases e with
  | connect reply =>
    obtain ⟨isConnected, errorDescription, sqlLog, hconnect⟩ := connect_eq h reply
    rw [connectionStep, hconnect]
    refine ⟨?_, ?_, ?_⟩
    · cases isConnected <;> rfl
    · cases isConnected <;> rfl
    · rw [List.length_append, h.made]
      rfl
  | close =>
    obtain ⟨sqlLog, hclose⟩ := close_eq h
    rw [connectionStep, hclose]
    exact ⟨rfl, rfl, h.made⟩
  | execCommand reply =>
    obtain ⟨_, _, _, frame⟩ := execCommand_frame (s := s) reply
    rw [connectionStep, frame]
    exact ⟨h.connected, h.live, h.made⟩
  | openSelect reply =>
    obtain ⟨_, _, frame⟩ := openSelect_frame (s := s) reply
    rw [connectionStep, frame]
    exact ⟨h.connected, h.live, h.made⟩
  | setServer _ | setPort _ | setDatabaseName _ | setUserName _ | setPassword _
  | setConnectionString _ => exact ⟨h.connected, h.live, h.made⟩

theorem connectionCoherent_foldl (es : List ConnectionEvent) :
    ConnectionCoherent (es.foldl connectionStep .init) := by
  induction es using List.reverseRecOn with
  | nil => exact ⟨rfl, rfl, rfl⟩
  | append_singleton es e ih =>
    rw [List.foldl_append]
    exact ih.step e

/-- **Main result.** Whatever has been done, libpq has at most one connection open for the
object. It is the one that the object holds, and the object is connected exactly then. -/
theorem connection_coherent (es : List ConnectionEvent) :
    (es.foldl connectionStep .init).live = (es.foldl connectionStep .init).pgconn.toList ∧
      (es.foldl connectionStep .init).isConnected =
        (es.foldl connectionStep .init).pgconn.isSome :=
  ⟨(connectionCoherent_foldl es).live, (connectionCoherent_foldl es).connected⟩

/-! ### The string that is kept -/

section ConnectsAlike

open ConnectionState

variable {s : ConnectionState} {e : ConnectionEvent} {es : List ConnectionEvent}

theorem parameters_step (h : ConnectionCoherent s) (e : ConnectionEvent) :
    (connectionStep s e).parameters = e.set s.parameters := by
  cases e with
  | connect reply =>
    obtain ⟨_, _, _, hconnect⟩ := connect_eq h reply
    rw [connectionStep, hconnect]
    rfl
  | close =>
    obtain ⟨_, hclose⟩ := close_eq h
    rw [connectionStep, hclose]
    rfl
  | execCommand reply =>
    obtain ⟨_, _, _, frame⟩ := execCommand_frame (s := s) reply
    rw [connectionStep, frame]
    rfl
  | openSelect reply =>
    obtain ⟨_, _, frame⟩ := openSelect_frame (s := s) reply
    rw [connectionStep, frame]
    rfl
  | setServer _ | setPort _ | setDatabaseName _ | setUserName _ | setPassword _
  | setConnectionString _ => rfl

/-- Events that neither connect nor set the string leave it and what libpq was given. -/
theorem string_step (h : ConnectionCoherent s) (connect : e.isConnect = false)
    (sets : e.setsString = false) :
    (connectionStep s e).connectionString = s.connectionString ∧
      (connectionStep s e).conninfos = s.conninfos := by
  cases e with
  | connect reply => cases connect
  | setConnectionString value => cases sets
  | close =>
    obtain ⟨_, hclose⟩ := close_eq h
    rw [connectionStep, hclose]
    exact ⟨rfl, rfl⟩
  | execCommand reply =>
    obtain ⟨_, _, _, frame⟩ := execCommand_frame (s := s) reply
    rw [connectionStep, frame]
    exact ⟨rfl, rfl⟩
  | openSelect reply =>
    obtain ⟨_, _, frame⟩ := openSelect_frame (s := s) reply
    rw [connectionStep, frame]
    exact ⟨rfl, rfl⟩
  | setServer _ | setPort _ | setDatabaseName _ | setUserName _ | setPassword _ => exact ⟨rfl, rfl⟩

/-- The string that the connects of some events are made with: the one that is there, or
else that of the parameters at the first connect. -/
def target (s : ConnectionState) (es : List ConnectionEvent) : String :=
  s.connectionString.getD
    ((es.takeWhile fun e => !e.isConnect).foldl ConnectionEvent.set s.parameters).makeConnectionString

theorem conninfos_foldl (h : ConnectionCoherent s) (sets : ∀ e ∈ es, e.setsString = false) :
    (es.foldl connectionStep s).conninfos =
      s.conninfos ++ List.replicate (es.countP ConnectionEvent.isConnect) (target s es) := by
  induction es generalizing s with
  | nil => exact (List.append_nil _).symm
  | cons e es ih =>
    have later := ih (h.step e) fun f hf => sets f (List.mem_cons_of_mem e hf)
    rw [List.foldl_cons, later]
    cases hconnect : e.isConnect with
    | false =>
      obtain ⟨hstring, hconninfos⟩ := string_step h hconnect (sets e List.mem_cons_self)
      rw [hconninfos, List.countP_cons_of_neg (by rw [hconnect]; exact Bool.false_ne_true)]
      congr 2
      rw [target, target, hstring, parameters_step h,
        List.takeWhile_cons_of_pos (by rw [hconnect]; rfl), List.foldl_cons]
    | true =>
      cases e with
      | connect reply =>
        obtain ⟨_, _, _, hstep⟩ := connect_eq h reply
        have first : target s (.connect reply :: es) = s.makeConnectionString := by
          rw [target, List.takeWhile_cons_of_neg (by exact Bool.false_ne_true),
            ConnectionState.makeConnectionString]
          cases s.connectionString <;> rfl
        have kept : target (connectionStep s (.connect reply)) es = s.makeConnectionString := by
          rw [connectionStep, hstep]
          rfl
        rw [first, kept, List.countP_cons_of_pos rfl, connectionStep, hstep, List.append_assoc,
          List.replicate_succ, List.singleton_append]
      | setServer _ | setPort _ | setDatabaseName _ | setUserName _ | setPassword _
      | setConnectionString _ | close | execCommand _ | openSelect _ => cases hconnect

/-- **Main result.** After any run, as long as no connection string is set, all connects are
made with one string: the one that is there, or that of the parameters as they are at the
first of these connects. -/
theorem connects_alike (es later : List ConnectionEvent)
    (sets : ∀ e ∈ later, e.setsString = false) :
    ((es ++ later).foldl connectionStep .init).conninfos =
      (es.foldl connectionStep .init).conninfos ++
        List.replicate (later.countP ConnectionEvent.isConnect)
          (target (es.foldl connectionStep .init) later) := by
  rw [List.foldl_append]
  exact conninfos_foldl (connectionCoherent_foldl es) sets

/-- A server that is set after the first connect is never asked. -/
theorem connects_alike_setServer :
    ([ConnectionEvent.connect .connected, .setServer (some "10.0.0.1"), .close,
        .connect (.bad "timeout")].foldl connectionStep .init).conninfos =
      List.replicate 2 ConnectionParameters.init.makeConnectionString :=
  connects_alike [] [.connect .connected, .setServer (some "10.0.0.1"), .close,
    .connect (.bad "timeout")] (by decide)

end ConnectsAlike

end PointIPad
