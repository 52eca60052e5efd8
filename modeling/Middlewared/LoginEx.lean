import Middlewared.TransitionSystem

/-!
# `auth.login_ex` on one connection

Every message of a websocket runs as a task of its own, so any number of `login_ex` calls share
the authentication context of their connection.
-/

namespace Middlewared

inductive AuthMech where
  | apiKeyPlain
  | passwordPlain
  | tokenPlain
  | otpToken
deriving DecidableEq

structure AuthenticatorAssuranceLevel where
  mechanisms : List AuthMech
  otpMandatory : Bool

def aaLevel1 : AuthenticatorAssuranceLevel where
  mechanisms := [.apiKeyPlain, .tokenPlain, .passwordPlain]
  otpMandatory := false

def aalAuthMechanismCheck (mechanism : AuthMech)
    (aal : AuthenticatorAssuranceLevel) : Bool :=
  match mechanism with
  | .otpToken => true
  | mechanism => mechanism ∈ aal.mechanisms

def maxOtpAttempts : ℕ := 3

structure UserData where
  username : String
  accountAttributes : List String := []
deriving DecidableEq

inductive PamError where
  | authErr
  | userUnknown
  | acctExpired
  | newAuthtokReqd
  | credExpired
  | authinfoUnavail
  | other
deriving DecidableEq

/-- The answer of `auth.authenticate_plain`; it has user data exactly when its
code is success. -/
inductive AuthenticatePlain where
  | success (userData : UserData)
  | failure (code : PamError)
deriving DecidableEq

structure LoginUser where
  resp : AuthenticatePlain
  (otpRequired otpwUsed : Bool)

def getLoginUser (mechanism : AuthMech) (twofactorEnabled : Bool)
    (resp : AuthenticatePlain) : LoginUser :=
  match mechanism, resp with
  | .passwordPlain, .success userData =>
    if "OTPW" ∈ userData.accountAttributes then ⟨resp, false, true⟩
    else ⟨resp, twofactorEnabled && "2FA" ∈ userData.accountAttributes, false⟩
  | _, resp => ⟨resp, false, false⟩

structure AuthData where
  cnt : ℕ
  user : UserData

structure AuthenticationContext where
  nextMech : Option AuthMech := none
  authData : Option AuthData := none

inductive LoginData where
  | passwordPlain (username password : String)
  | apiKeyPlain (username apiKey : String)
  | otpToken (token : String)
  | tokenPlain (token : String)

def LoginData.mechanism : LoginData → AuthMech
  | .passwordPlain _ _ => .passwordPlain
  | .apiKeyPlain _ _ => .apiKeyPlain
  | .otpToken _ => .otpToken
  | .tokenPlain _ => .tokenPlain

inductive AuthResp where
  | success
  | authErr
  | expired
  | otpRequired (username : String)
  | redirect

inductive LoginError where
  | einval
  | eopnotsupp
  | typeError
  | unboundLocalError
  | keyError

inductive SessionCredentials where
  | loginPassword (user : UserData)
  | loginOnetimePassword (user : UserData)
  | loginTwofactor (user : UserData)
  | apiKey (user : UserData)
  | token (token : String)
deriving DecidableEq

inductive LoginPhase where
  | idle
  | called (data : LoginData)
  | abandoning (data : LoginData) (level : AuthenticatorAssuranceLevel)
  | passwordCheck (username password : String)
  | apiKeyCheck (username apiKey : String) (again : Bool)
  | apiKeyQuery (resp : AuthenticatePlain)
  | verifying (username token : String)
  | otpRejected (authData : Option AuthData)
  | finishing (resp : AuthResp)
  | answered (resp : AuthResp)
  | raised (error : LoginError)

abbrev CallId := ℕ

inductive LoginEvent where
  | passwordAccepted (call : CallId) (user : UserData)
  | tokenVerified (call : CallId) (username token : String) (ok : Bool)
  | login (call : CallId) (credentials : SessionCredentials)
deriving DecidableEq

structure Connection where
  level : AuthenticatorAssuranceLevel
  authCtx : AuthenticationContext
  calls : CallId → LoginPhase
  log : List LoginEvent

namespace Connection

def init (level : AuthenticatorAssuranceLevel) : Connection where
  level := level
  authCtx := { }
  calls := fun _ => .idle
  log := []

def suspend (conn : Connection) (id : CallId) (phase : LoginPhase) :
    Connection :=
  { conn with calls := Function.update conn.calls id phase }

def record (conn : Connection) (event : LoginEvent) : Connection :=
  { conn with log := event :: conn.log }

def setContext (conn : Connection) (authCtx : AuthenticationContext) :
    Connection :=
  { conn with authCtx }

/-- `login_fn`, up to its first `await`. -/
def sessionLogin (conn : Connection) (id : CallId)
    (credentials : SessionCredentials) : Connection :=
  (conn.record (.login id credentials)).suspend id (.finishing .success)

inductive TokenLookup where
  | invalid
  | withAttributes
  | valid

def startMechanism (conn : Connection) (id : CallId) (data : LoginData)
    (level : AuthenticatorAssuranceLevel) (lookup : TokenLookup) :
    Connection :=
  if conn.authCtx.nextMech = none ∧ data.mechanism = .otpToken then
    conn.suspend id (.raised .einval)
  else if !aalAuthMechanismCheck data.mechanism level then
    conn.suspend id (.raised .eopnotsupp)
  else
    match data with
    | .passwordPlain username password =>
      conn.suspend id (.passwordCheck username password)
    | .apiKeyPlain username apiKey =>
      conn.suspend id (.apiKeyCheck username apiKey false)
    | .otpToken token =>
      match conn.authCtx.authData with
      | some authData =>
        conn.suspend id (.verifying authData.user.username token)
      | none => conn.suspend id (.raised .typeError)
    | .tokenPlain token =>
      match lookup with
      | .valid => conn.sessionLogin id (.token token)
      | .invalid | .withAttributes => conn.suspend id (.finishing .authErr)

/-- `check_auth_mechanism` from its beginning.  Giving up a login that waits
for its second factor is audited before the context is cleared; the level is
the one at the beginning. -/
def checkAuthMechanism (conn : Connection) (id : CallId) (data : LoginData)
    (lookup : TokenLookup) : Connection :=
  if conn.authCtx.nextMech.any (· ≠ data.mechanism) then
    if conn.authCtx.authData.isNone then conn.suspend id (.raised .typeError)
    else if conn.authCtx.nextMech = some .otpToken then
      conn.suspend id (.abandoning data conn.level)
    else (conn.setContext { }).startMechanism id data conn.level lookup
  else conn.startMechanism id data conn.level lookup

def pamErrorResponse : PamError → AuthResp
  | .authErr | .userUnknown => .authErr
  | .acctExpired | .newAuthtokReqd | .credExpired => .expired
  | .authinfoUnavail | .other => .authErr

def passwordChecked (conn : Connection) (id : CallId) (user : LoginUser) :
    Connection :=
  match user.resp with
  | .success userData =>
    let conn := conn.record (.passwordAccepted id userData)
    if user.otpRequired then
      (conn.setContext ⟨some .otpToken, some ⟨0, userData⟩⟩).suspend id
        (.answered (.otpRequired userData.username))
    else if user.otpwUsed then
      conn.sessionLogin id (.loginOnetimePassword userData)
    else if conn.level.otpMandatory then
      conn.suspend id (.raised .eopnotsupp)
    else conn.sessionLogin id (.loginPassword userData)
  | .failure code =>
    if conn.level.otpMandatory then conn.suspend id (.raised .eopnotsupp)
    else conn.suspend id (.finishing (pamErrorResponse code))

/-- `API_KEY_PLAIN`, after `get_login_user`; a damaged key file is generated
anew once. -/
def apiKeyChecked (conn : Connection) (id : CallId) (username apiKey : String)
    (again : Bool) (resp : AuthenticatePlain) : Connection :=
  if resp = .failure .authinfoUnavail ∧ again = false then
    conn.suspend id (.apiKeyCheck username apiKey true)
  else conn.suspend id (.apiKeyQuery resp)

/-- `API_KEY_PLAIN`, after the key has been looked up.  The hash of a key that
was not found is read all the same. -/
def apiKeyQueried (conn : Connection) (id : CallId) (found secure : Bool)
    (resp : AuthenticatePlain) : Connection :=
  match resp with
  | .success userData =>
    if !secure then conn.suspend id (.finishing .expired)
    else if !found then conn.suspend id (.raised .unboundLocalError)
    else conn.sessionLogin id (.apiKey userData)
  | .failure code => conn.suspend id (.finishing (pamErrorResponse code))

/-- `OTP_TOKEN`, after `user.verify_twofactor_token`: the context is read again,
and cleared. -/
def tokenVerified (conn : Connection) (id : CallId) (username token : String)
    (otpOk : Bool) : Connection :=
  let authData := conn.authCtx.authData
  let conn := (conn.record (.tokenVerified id username token otpOk)).setContext { }
  if otpOk then
    match authData with
    | some authData => conn.sessionLogin id (.loginTwofactor authData.user)
    | none => conn.suspend id (.raised .typeError)
  else conn.suspend id (.otpRejected authData)

def otpDelayed (conn : Connection) (id : CallId) (authData : Option AuthData) :
    Connection :=
  match authData with
  | none => conn.suspend id (.raised .typeError)
  | some authData =>
    if authData.cnt < maxOtpAttempts then
      (conn.setContext ⟨some .otpToken, some { authData with cnt := authData.cnt + 1 }⟩).suspend id
        (.answered (.otpRequired authData.user.username))
    else conn.suspend id (.answered .authErr)

inductive Action where
  | setLevel (level : AuthenticatorAssuranceLevel)
  | call (id : CallId) (data : LoginData)
  | failover (id : CallId) (backup : Bool) (lookup : TokenLookup)
  | abandoned (id : CallId) (lookup : TokenLookup)
  | passwordChecked (id : CallId) (twofactorEnabled : Bool) (resp : AuthenticatePlain)
  | apiKeyChecked (id : CallId) (resp : AuthenticatePlain)
  | apiKeyQueried (id : CallId) (found secure : Bool)
  | tokenVerified (id : CallId)
  | otpDelayed (id : CallId)
  | finished (id : CallId)

/-- `verify` is the oracle behind `user.verify_twofactor_token`. -/
def step (verify : String → String → Bool) (conn : Connection) :
    Action → Option Connection
  | .setLevel level => some { conn with level }
  | .call id data =>
    match conn.calls id with
    | .idle => some (conn.suspend id (.called data))
    | _ => none
  | .failover id backup lookup =>
    match conn.calls id with
    | .called data =>
      some (if backup then conn.suspend id (.answered .redirect)
        else conn.checkAuthMechanism id data lookup)
    | _ => none
  | .abandoned id lookup =>
    match conn.calls id with
    | .abandoning data level =>
      some ((conn.setContext { }).startMechanism id data level lookup)
    | _ => none
  | .passwordChecked id twofactorEnabled resp =>
    match conn.calls id with
    | .passwordCheck _ _ =>
      some (conn.passwordChecked id (getLoginUser .passwordPlain twofactorEnabled resp))
    | _ => none
  | .apiKeyChecked id resp =>
    match conn.calls id with
    | .apiKeyCheck username apiKey again =>
      some (conn.apiKeyChecked id username apiKey again resp)
    | _ => none
  | .apiKeyQueried id found secure =>
    match conn.calls id with
    | .apiKeyQuery resp => some (conn.apiKeyQueried id found secure resp)
    | _ => none
  | .tokenVerified id =>
    match conn.calls id with
    | .verifying username token =>
      some (conn.tokenVerified id username token (verify username token))
    | _ => none
  | .otpDelayed id =>
    match conn.calls id with
    | .otpRejected authData => some (conn.otpDelayed id authData)
    | _ => none
  | .finished id =>
    match conn.calls id with
    | .finishing resp => some (conn.suspend id (.answered resp))
    | _ => none

end Connection

end Middlewared
