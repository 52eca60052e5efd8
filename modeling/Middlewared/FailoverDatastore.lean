import Middlewared.TransitionSystem

/-!
# Replication of the database to the standby node

Every statement that the active node has executed is passed to the standby by a remote call.
-/

namespace Middlewared

/-- The database engine.  A statement can raise; one with `ha_sync` reads and
writes the part of the database that the nodes share, and another does not
write it. -/
structure HaEngine (Sql Db Shared : Type) where
  execute : Sql → Db → Option Db
  haSync : Sql → Bool
  shared : Db → Shared
  shared_congr : ∀ sql first second, haSync sql = true → shared first = shared second →
      (execute sql first).map shared = (execute sql second).map shared
  shared_eq : ∀ sql before after, haSync sql = false →
    execute sql before = some after → shared after = shared before

structure FailoverPair where
  licensed : Bool
  (version remoteVersion status remoteStatus alembicVersion : String)
  remoteAlembicVersion : String

structure FailoverPair.Healthy (pair : FailoverPair) : Prop where
  licensed : pair.licensed = true
  version : pair.remoteVersion = pair.version
  status : pair.status = "MASTER"
  remoteStatus : pair.remoteStatus = "BACKUP"
  alembicVersion : pair.remoteAlembicVersion = pair.alembicVersion

inductive LateCall (Sql Db : Type) where
  | sql (sql : Sql)
  | put (db : Db)
  | receive

/-- Whose call of `send` it is, and so who handles what it raises. -/
inductive SendCaller where
  | setFailure
  | retry
  | other

inductive DatastorePhase (Sql : Type) where
  | idle
  | replicating (sql : Sql)
  | settingFailure
  | sendingFile (caller : SendCaller)
  | receiving (caller : SendCaller)

structure FailoverState (Sql Db : Type) where
  db : Db
  failure : Bool
  phase : DatastorePhase Sql
  sleeping : ℕ
  retrying : ℕ
  remoteDb : Db
  replicated : Option Db
  late : List (LateCall Sql Db)

inductive FailoverAction (Sql : Type) where
  | executeWrite (sql : Sql)
  | sqlReturns
  | sqlRaises (late : Bool)
  | setFailure
  | statusReturns
  | statusRaises
  | send
  | retryWakes
  | retrySends
  | fileArrives
  | sendFileRaises (late : Bool)
  | receiveReturns
  | receiveRaises (late : Bool)
  | lateCall (n : ℕ)

namespace FailoverDatastore

variable {Sql Db Shared : Type} (engine : HaEngine Sql Db Shared)
  (pair : FailoverPair)

def sql (statement : Sql) (remoteDb : Db) : Option Db :=
  if pair.remoteVersion ≠ pair.version then some remoteDb
  else if pair.remoteStatus ≠ "BACKUP" then some remoteDb
  else engine.execute statement remoteDb

/-- `receive` raises where no file has been sent. -/
def receive (s : FailoverState Sql Db) : Option (FailoverState Sql Db) :=
  s.replicated.map fun file =>
    if pair.remoteAlembicVersion ≠ pair.alembicVersion then s
    else { s with remoteDb := file, replicated := none }

def makeLateCall (s : FailoverState Sql Db) :
    LateCall Sql Db → FailoverState Sql Db
  | .sql statement =>
    { s with remoteDb := (sql engine pair statement s.remoteDb).getD s.remoteDb }
  | .put db => { s with replicated := some db }
  | .receive => (receive pair s).getD s

def hookDatastoreExecuteWrite (statement : Sql) (s : FailoverState Sql Db) :
    FailoverState Sql Db :=
  if !engine.haSync statement then s
  else if !pair.licensed then s
  else if s.failure then s
  else { s with phase := .replicating statement }

def executeWrite (statement : Sql) (s : FailoverState Sql Db) :
    Option (FailoverState Sql Db) :=
  (engine.execute statement s.db).map fun db =>
    hookDatastoreExecuteWrite engine pair statement { s with db }

def setFailure (s : FailoverState Sql Db) : FailoverState Sql Db :=
  { s with failure := true, phase := .settingFailure }

def startSendRetry (s : FailoverState Sql Db) : FailoverState Sql Db :=
  { s with phase := .idle, sleeping := s.sleeping + 1 }

/-- The caller goes on after `send`: `set_failure` starts a thread where it has
raised, and a thread of `send_retry` sleeps again in any case. -/
def sendEnds (caller : SendCaller) (raised : Bool) (s : FailoverState Sql Db) :
    FailoverState Sql Db :=
  match caller with
  | .setFailure => if raised then startSendRetry s else { s with phase := .idle }
  | .retry => startSendRetry s
  | .other => { s with phase := .idle }

def retryWakes (s : FailoverState Sql Db) : FailoverState Sql Db :=
  if !s.failure then { s with sleeping := s.sleeping - 1 }
  else if pair.status ≠ "MASTER" then
    { s with sleeping := s.sleeping - 1, failure := false }
  else
    { s with sleeping := s.sleeping - 1, retrying := s.retrying + 1 }

def addLate (late : Bool) (call : LateCall Sql Db) (s : FailoverState Sql Db) :
    FailoverState Sql Db :=
  if late then { s with late := s.late ++ [call] } else s

def step (s : FailoverState Sql Db) (action : FailoverAction Sql) :
    Option (FailoverState Sql Db) :=
  match action, s.phase with
  | .executeWrite statement, .idle => executeWrite engine pair statement s
  | .sqlReturns, .replicating statement =>
    (sql engine pair statement s.remoteDb).map fun remoteDb =>
      { s with remoteDb, phase := .idle }
  | .sqlRaises late, .replicating statement =>
    some (setFailure (addLate late (.sql statement) s))
  | .setFailure, .idle => some (setFailure s)
  | .statusReturns, .settingFailure =>
    if pair.remoteStatus = "BACKUP" then
      some { s with phase := .sendingFile .setFailure }
    else some { s with phase := .idle, failure := false }
  | .statusRaises, .settingFailure => some (startSendRetry s)
  | .send, .idle => some { s with phase := .sendingFile .other }
  | .retryWakes, _ => if s.sleeping = 0 then none else some (retryWakes pair s)
  | .retrySends, .idle =>
    if s.retrying = 0 then none
    else
      some { s with phase := .sendingFile .retry, retrying := s.retrying - 1 }
  | .fileArrives, .sendingFile caller =>
    some { s with replicated := some s.db, phase := .receiving caller }
  | .sendFileRaises late, .sendingFile caller =>
    some (sendEnds caller true (addLate late (.put s.db) s))
  | .receiveReturns, .receiving caller =>
    (receive pair s).map fun received =>
      sendEnds caller false { received with failure := false }
  | .receiveRaises late, .receiving caller =>
    some (sendEnds caller true (addLate late .receive s))
  | .lateCall n, _ =>
    s.late[n]?.map fun call =>
      makeLateCall engine pair { s with late := s.late.eraseIdx n } call
  | _, _ => none

def run (s : FailoverState Sql Db) (actions : List (FailoverAction Sql)) :
    Option (FailoverState Sql Db) :=
  TransitionSystem.run (step engine pair) s actions

end FailoverDatastore

end Middlewared
