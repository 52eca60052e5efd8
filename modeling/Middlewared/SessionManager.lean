import Middlewared.Dict
import Middlewared.LoginEx

/-!
# Sessions and the connections they belong to

`SessionManager.login` opens a session for a connection and registers two callbacks with it; the
one for the end of the connection closes the session.
-/

namespace Middlewared

/-- The credentials of a session: those of a hook of `core.on_connect`, or
those of a `login_ex` call. -/
inductive SessionOwner where
  | unixSocket
  | truenasNode
  | login (credentials : SessionCredentials)

structure Session where
  credentials : SessionOwner

/-- `RpcWebSocketApp`.  Only the session manager registers callbacks, so each
list of callbacks is known by its length. -/
structure RpcWebSocketApp where
  sessionId : String
  authenticated : Bool := false
  authenticatedCredentials : Option SessionOwner := none
  messageCallbacks : ℕ := 0
  closeCallbacks : ℕ := 0

abbrev Sessions := Dict String Session

namespace SessionManager

/-- `login`, up to its first `await`; it raises `KeyError` when the app is
authenticated without a session. -/
def login (sessions : Sessions) (app : RpcWebSocketApp)
    (credentials : SessionOwner) : Option (Sessions × RpcWebSocketApp) :=
  if app.authenticated then
    (sessions.get? app.sessionId).map fun session =>
      (sessions.set app.sessionId { session with credentials },
        { app with authenticatedCredentials := some credentials })
  else
    some (sessions.set app.sessionId ⟨credentials⟩, { app with
        authenticated := true
        authenticatedCredentials := some credentials
        messageCallbacks := app.messageCallbacks + 1
        closeCallbacks := app.closeCallbacks + 1 })

def logout (sessions : Sessions) (app : RpcWebSocketApp) :
    Sessions × RpcWebSocketApp :=
  (sessions.erase app.sessionId, { app with authenticated := false })

/-- `_app_on_message`; `valid` is the answer of `is_valid`. -/
def appOnMessage (valid : Bool) (sessions : Sessions) (app : RpcWebSocketApp) :
    Sessions × RpcWebSocketApp :=
  match sessions.get? app.sessionId with
  | none => (sessions, { app with authenticated := false })
  | some _ => if !valid then logout sessions app else (sessions, app)

/-- `run_callback` for a message: the callback runs once for every time it was
registered, each time with an answer of its own. -/
def runMessageCallbacks (valid : ℕ → Bool) :
    ℕ → Sessions → RpcWebSocketApp → Sessions × RpcWebSocketApp
  | 0, sessions, app => (sessions, app)
  | count + 1, sessions, app =>
    let (sessions, app) := appOnMessage (valid count) sessions app
    runMessageCallbacks valid count sessions app

def runCloseCallbacks :
    ℕ → Sessions → RpcWebSocketApp → Sessions × RpcWebSocketApp
  | 0, sessions, app => (sessions, app)
  | count + 1, sessions, app =>
    let (sessions, app) := logout sessions app
    runCloseCallbacks count sessions app

end SessionManager

/-! ## One connection -/

/-- Where `process` stands: at the hooks, in its loop, at `unsubscribe_app`
after the callbacks for the end have run, and past `unregister_wsclient`. -/
inductive HandlerPhase where
  | connecting
  | serving
  | unsubscribing
  | finished
deriving DecidableEq

/-- `auth.logout` waits for `unsubscribe_app` before it ends the session. -/
inductive LogoutPhase where
  | idle
  | unsubscribing
  | finished
deriving DecidableEq

inductive Frame where
  | loginEx (id : CallId) (data : LoginData)
  | logout (id : CallId)
  | other

/-- `hooks` is whether the hooks of `core.on_connect` are still running; they
are shielded from the end of the connection. -/
structure SessionServer where
  conn : Connection
  app : RpcWebSocketApp
  sessions : Sessions
  hooks : Bool
  handler : HandlerPhase
  logouts : CallId → LogoutPhase

namespace SessionServer

def connect (level : AuthenticatorAssuranceLevel) (sessionId : String)
    (sessions : Sessions) : SessionServer where
  conn := Connection.init level
  app := { sessionId }
  sessions := sessions
  hooks := true
  handler := .connecting
  logouts := fun _ => .idle

inductive Action where
  | hookLogin (credentials : SessionOwner)
  | hooksDone
  | connected
  | message (valid : ℕ → Bool) (frame : Frame)
  | loginEx (action : Connection.Action)
  | loggedOut (id : CallId)
  | close
  | unsubscribed
  | otherConnection (sessionId : String) (session : Option Session)

/-- The login that a step of `login_ex` has made. -/
def newLogin (conn next : Connection) : Option (CallId × SessionCredentials) :=
  if conn.log.length < next.log.length then
    match next.log with
    | .login id credentials :: _ => some (id, credentials)
    | _ => none
  else none

def withSessions (s : SessionServer) (result : Sessions × RpcWebSocketApp) :
    SessionServer :=
  { s with sessions := result.1, app := result.2 }

def startTask (verify : String → String → Bool) (s : SessionServer) :
    Frame → Option SessionServer
  | .loginEx id data =>
    (s.conn.step verify (.call id data)).map fun conn =>
      { s with conn }
  | .logout id =>
    if s.logouts id = .idle then
      some { s with logouts := Function.update s.logouts id .unsubscribing }
    else none
  | .other => some s

def stepLogin (verify : String → String → Bool) (s : SessionServer)
    (action : Connection.Action) : Option SessionServer :=
  match s.conn.step verify action with
  | none => none
  | some conn =>
    match newLogin s.conn conn with
    | none => some { s with conn }
    | some (id, credentials) =>
      match SessionManager.login s.sessions s.app (.login credentials) with
      | some result => some { s.withSessions result with conn }
      | none => some { s with conn := conn.suspend id (.raised .keyError) }

def step (verify : String → String → Bool) (s : SessionServer) :
    Action → Option SessionServer
  | .hookLogin credentials =>
    if s.hooks then
      (SessionManager.login s.sessions s.app credentials).map s.withSessions
    else none
  | .hooksDone => if s.hooks then some { s with hooks := false } else none
  | .connected =>
    if s.handler = .connecting ∧ s.hooks = false then
      some { s with handler := .serving }
    else none
  | .message valid frame =>
    if s.handler = .serving then
      (s.withSessions (SessionManager.runMessageCallbacks valid
        s.app.messageCallbacks s.sessions s.app)).startTask verify frame
    else none
  | .loginEx action =>
    match action with
    | .call _ _ => none
    | action => s.stepLogin verify action
  | .loggedOut id =>
    if s.logouts id = .unsubscribing then
      some { s.withSessions (SessionManager.logout s.sessions s.app) with
          logouts := Function.update s.logouts id .finished }
    else none
  | .close =>
    if s.handler = .connecting ∨ s.handler = .serving then
      some { s.withSessions (SessionManager.runCloseCallbacks
            s.app.closeCallbacks s.sessions s.app) with
          handler := .unsubscribing }
    else none
  | .unsubscribed =>
    if s.handler = .unsubscribing then
      some { s with handler := .finished }
    else none
  | .otherConnection sessionId session =>
    if sessionId = s.app.sessionId then none
    else
      match session with
      | some session =>
        some { s with sessions := s.sessions.set sessionId session }
      | none => some { s with sessions := s.sessions.erase sessionId }

/-- The handler, its hooks and every call of the connection have come to an
end. -/
structure Finished (s : SessionServer) : Prop where
  handler : s.handler = .finished
  hooks : s.hooks = false
  calls : ∀ id, s.conn.calls id = .idle ∨ (∃ resp, s.conn.calls id = .answered resp) ∨
      ∃ error, s.conn.calls id = .raised error
  logouts : ∀ id, s.logouts id ≠ .unsubscribing

def HasSession (s : SessionServer) : Prop :=
  s.app.sessionId ∈ s.sessions

instance (s : SessionServer) : Decidable s.HasSession :=
  inferInstanceAs (Decidable (s.app.sessionId ∈ s.sessions))

end SessionServer

end Middlewared
