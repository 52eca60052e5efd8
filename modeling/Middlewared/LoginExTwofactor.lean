import Middlewared.LoginEx
import Mathlib.Tactic

/-!
# The second factor and the user it was verified for

A call with a one-time token reads the name of the user from the context of the connection, waits
for the verification, and then reads the context again for the user to log in.
-/

namespace Middlewared.Connection

open Function List

/-- Every login with two factors comes after a successful verification by the
same call for the same user, and after a password of that user. -/
def SecondFactorBound : List LoginEvent → Prop
  | [] => True
  | event :: older =>
    (∀ id user, event = .login id (.loginTwofactor user) →
      (∃ token, .tokenVerified id user.username token true ∈ older) ∧
        ∃ other, .passwordAccepted other user ∈ older) ∧
      SecondFactorBound older

def writtenUser (conn : Connection) : Action → Option UserData
  | .passwordChecked _ twofactorEnabled (.success userData) =>
    if (getLoginUser .passwordPlain twofactorEnabled
        (.success userData)).otpRequired then some userData
    else none
  | .otpDelayed id =>
    match conn.calls id with
    | .otpRejected (some authData) =>
      if authData.cnt < maxOtpAttempts then some authData.user else none
    | _ => none
  | _ => none

/-- The context is not written for one user while a right token of another user
is being verified. -/
def LeavesVerification (verify : String → String → Bool) (conn : Connection)
    (action : Action) : Prop :=
  ∀ user, conn.writtenUser action = some user →
    ∀ id username token, conn.calls id = .verifying username token →
      verify username token = true → username = user.username

/-! ## What an action can do -/

def Quiet : LoginPhase → Prop
  | .verifying _ _ | .otpRejected _ => False
  | _ => True

inductive Move (verify : String → String → Bool) (conn : Connection)
    (action : Action) (next : Connection) : Prop
  | other (events : List LoginEvent)
      (hcalls : ∀ id, next.calls id = conn.calls id ∨ Quiet (next.calls id))
      (hctx : next.authCtx = conn.authCtx ∨ next.authCtx.authData = none)
      (hlog : next.log = events ++ conn.log)
      (hevents : ∀ event ∈ events, ∀ id user, event ≠ .login id (.loginTwofactor user))
  | demand (id : CallId) (user : UserData)
      (hcalls : ∀ id, next.calls id = conn.calls id ∨ Quiet (next.calls id))
      (hwritten : conn.writtenUser action = some user)
      (hctx : next.authCtx.authData = some ⟨0, user⟩)
      (hlog : next.log = .passwordAccepted id user :: conn.log)
  | retry (id : CallId) (authData : AuthData) (hcall : conn.calls id = .otpRejected (some authData))
      (hcalls : ∀ id, next.calls id = conn.calls id ∨ Quiet (next.calls id))
      (hwritten : conn.writtenUser action = some authData.user)
      (hctx : next.authCtx.authData = some { authData with cnt := authData.cnt + 1 })
      (hlog : next.log = conn.log)
  | submit (id : CallId) (authData : AuthData) (token : String)
      (hcontext : conn.authCtx.authData = some authData)
      (hcalls : next.calls = Function.update conn.calls id
        (.verifying authData.user.username token))
      (hctx : next.authCtx = conn.authCtx)
      (hlog : next.log = conn.log)
  | accept (id : CallId) (authData : AuthData) (username token : String)
      (hcall : conn.calls id = .verifying username token)
      (hverify : verify username token = true)
      (hcontext : conn.authCtx.authData = some authData)
      (hcalls : ∀ id, next.calls id = conn.calls id ∨ Quiet (next.calls id))
      (hctx : next.authCtx.authData = none)
      (hlog : next.log = .login id (.loginTwofactor authData.user) ::
        .tokenVerified id username token true :: conn.log)
  | reject (id : CallId) (username token : String)
      (hcalls : next.calls = Function.update conn.calls id (.otpRejected conn.authCtx.authData))
      (hctx : next.authCtx.authData = none)
      (hlog : next.log = .tokenVerified id username token false :: conn.log)

section

variable {verify : String → String → Bool} {conn base next : Connection}
  {action : Action} {id : CallId} {events : List LoginEvent}

def NoTwofactorLogin (events : List LoginEvent) : Prop :=
  ∀ event ∈ events, ∀ id user, event ≠ .login id (.loginTwofactor user)

theorem calls_suspend (conn : Connection) {phase : LoginPhase}
    (hphase : Quiet phase) (other : CallId) :
    (conn.suspend id phase).calls other = conn.calls other ∨
      Quiet ((conn.suspend id phase).calls other) := by
  by_cases heq : other = id
  · rw [heq]
    right
    simp only [suspend, update_self]
    exact hphase
  · left
    simp only [suspend]
    rw [update_of_ne heq]

theorem Move.of_suspend {phase : LoginPhase} (hphase : Quiet phase)
    (hcalls : base.calls = conn.calls)
    (hctx : base.authCtx = conn.authCtx ∨ base.authCtx.authData = none)
    (hlog : base.log = events ++ conn.log) (hevents : NoTwofactorLogin events) :
    Move verify conn action (base.suspend id phase) := by
  apply Move.other events
  · rw [← hcalls]
    exact calls_suspend base hphase
  · exact hctx
  · exact hlog
  · exact hevents

theorem Move.of_sessionLogin {credentials : SessionCredentials}
    (hcredentials : ∀ user, credentials ≠ .loginTwofactor user)
    (hcalls : base.calls = conn.calls)
    (hctx : base.authCtx = conn.authCtx ∨ base.authCtx.authData = none)
    (hlog : base.log = events ++ conn.log) (hevents : NoTwofactorLogin events) :
    Move verify conn action (base.sessionLogin id credentials) := by
  have hlogin : NoTwofactorLogin (.login id credentials :: events) := by
    intro event hevent other user heq
    rcases List.mem_cons.mp hevent with hfirst | hrest
    · rw [hfirst] at heq
      injection heq with _ heq
      exact hcredentials user heq
    · exact hevents event hrest other user heq
  refine Move.of_suspend trivial hcalls hctx ?_ hlogin
  simp only [record, hlog, cons_append]

theorem noTwofactorLogin_nil : NoTwofactorLogin [] := by
  intro event hevent
  cases hevent

/-- Most of the steps that end a call say nothing and change nothing else. -/
theorem Move.silent {phase : LoginPhase} (hphase : Quiet phase) :
    Move verify conn action (conn.suspend id phase) :=
  Move.of_suspend hphase rfl (Or.inl rfl) rfl noTwofactorLogin_nil

theorem noTwofactorLogin_singleton {event : LoginEvent}
    (hevent : ∀ id user, event ≠ .login id (.loginTwofactor user)) :
    NoTwofactorLogin [event] := by
  intro other hother id user
  rw [List.mem_singleton.mp hother]
  exact hevent id user

theorem startMechanism_cases (conn : Connection) (id : CallId) (data : LoginData)
    (level : AuthenticatorAssuranceLevel) (lookup : TokenLookup) :
    (∃ phase, Quiet phase ∧ conn.startMechanism id data level lookup = conn.suspend id phase) ∨
      (∃ token, conn.startMechanism id data level lookup = conn.sessionLogin id (.token token)) ∨
      ∃ authData token, conn.authCtx.authData = some authData ∧
        conn.startMechanism id data level lookup =
          conn.suspend id (.verifying authData.user.username token) := by
  unfold startMechanism
  split_ifs
  · exact Or.inl ⟨.raised .einval, trivial, rfl⟩
  · exact Or.inl ⟨.raised .eopnotsupp, trivial, rfl⟩
  · cases data with
    | passwordPlain username password =>
      exact Or.inl ⟨.passwordCheck username password, trivial, rfl⟩
    | apiKeyPlain username apiKey =>
      exact Or.inl ⟨.apiKeyCheck username apiKey false, trivial, rfl⟩
    | otpToken token =>
      cases hcontext : conn.authCtx.authData with
      | none => exact Or.inl ⟨.raised .typeError, trivial, rfl⟩
      | some authData => exact Or.inr (Or.inr ⟨authData, token, rfl, rfl⟩)
    | tokenPlain token =>
      cases lookup with
      | valid => exact Or.inr (Or.inl ⟨token, rfl⟩)
      | invalid => exact Or.inl ⟨.finishing .authErr, trivial, rfl⟩
      | withAttributes => exact Or.inl ⟨.finishing .authErr, trivial, rfl⟩

theorem move_startMechanism (data : LoginData)
    (level : AuthenticatorAssuranceLevel) (lookup : TokenLookup)
    (hcalls : base.calls = conn.calls) (hlog : base.log = conn.log)
    (hctx : base.authCtx = conn.authCtx ∨ base.authCtx.authData = none) :
    Move verify conn action (base.startMechanism id data level lookup) := by
  have hnoEvents : base.log = [] ++ conn.log := hlog
  rcases startMechanism_cases base id data level lookup with
    ⟨phase, hphase, hstarts⟩ | ⟨token, hstarts⟩ | ⟨authData, token, hcontext, hstarts⟩
  · rw [hstarts]
    exact Move.of_suspend hphase hcalls hctx hnoEvents noTwofactorLogin_nil
  · rw [hstarts]
    exact Move.of_sessionLogin nofun hcalls hctx hnoEvents noTwofactorLogin_nil
  · rcases hctx with hctx | hctx
    · rw [hstarts]
      rw [hctx] at hcontext
      apply Move.submit id authData token hcontext
      · simp only [suspend, hcalls]
      · exact hctx
      · exact hlog
    · rw [hctx] at hcontext
      cases hcontext

theorem move_checkAuthMechanism (data : LoginData) (lookup : TokenLookup) :
    Move verify conn action (conn.checkAuthMechanism id data lookup) := by
  unfold checkAuthMechanism
  split_ifs
  · exact Move.silent trivial
  · exact Move.silent trivial
  · exact move_startMechanism data conn.level lookup rfl rfl (Or.inr rfl)
  · exact move_startMechanism data conn.level lookup rfl rfl (Or.inl rfl)

theorem getLoginUser_resp (twofactorEnabled : Bool) (resp : AuthenticatePlain) :
    (getLoginUser .passwordPlain twofactorEnabled resp).resp = resp := by
  cases resp with
  | success userData =>
    simp only [getLoginUser]
    split_ifs <;> rfl
  | failure code => rfl

theorem move_passwordChecked (twofactorEnabled : Bool) (resp : AuthenticatePlain) :
    Move verify conn (.passwordChecked id twofactorEnabled resp) (conn.passwordChecked id
        (getLoginUser .passwordPlain twofactorEnabled resp)) := by
  unfold passwordChecked
  rw [getLoginUser_resp]
  cases resp with
  | failure code =>
    simp only
    split_ifs
    · exact Move.silent trivial
    · refine Move.silent ?_
      cases code <;> trivial
  | success userData =>
    have hevent : NoTwofactorLogin [.passwordAccepted id userData] :=
      noTwofactorLogin_singleton nofun
    simp only
    split_ifs with hotp _ _
    · apply Move.demand id userData
      · exact calls_suspend ((conn.record _).setContext ⟨some .otpToken, some ⟨0, userData⟩⟩)
          trivial
      · simp only [writtenUser, hotp, if_true]
      · rfl
      · rfl
    · exact Move.of_sessionLogin nofun rfl (Or.inl rfl) rfl hevent
    · exact Move.of_suspend trivial rfl (Or.inl rfl) rfl hevent
    · exact Move.of_sessionLogin nofun rfl (Or.inl rfl) rfl hevent

theorem move_apiKeyChecked (username apiKey : String) (again : Bool) (resp : AuthenticatePlain) :
    Move verify conn action (conn.apiKeyChecked id username apiKey again resp) := by
  unfold apiKeyChecked
  split_ifs
  · exact Move.silent trivial
  · exact Move.silent trivial

theorem move_apiKeyQueried (found secure : Bool) (resp : AuthenticatePlain) :
    Move verify conn action (conn.apiKeyQueried id found secure resp) := by
  unfold apiKeyQueried
  cases resp with
  | failure code =>
    exact Move.silent trivial
  | success userData =>
    split_ifs
    · exact Move.silent trivial
    · exact Move.silent trivial
    · exact Move.of_sessionLogin nofun rfl (Or.inl rfl) rfl noTwofactorLogin_nil

theorem move_tokenVerified {username token : String}
    (hcall : conn.calls id = .verifying username token) :
    Move verify conn action (conn.tokenVerified id username token (verify username token)) := by
  unfold tokenVerified
  cases hverify : verify username token with
  | false => exact Move.reject id username token rfl rfl rfl
  | true =>
    have hevent : NoTwofactorLogin [.tokenVerified id username token true] :=
      noTwofactorLogin_singleton nofun
    cases hcontext : conn.authCtx.authData with
    | none => exact Move.of_suspend trivial rfl (Or.inr rfl) rfl hevent
    | some authData =>
      apply Move.accept id authData username token hcall hverify hcontext
      · exact calls_suspend (((conn.record _).setContext { }).record _) trivial
      · rfl
      · rfl

theorem move_otpDelayed {authData : Option AuthData}
    (hcall : conn.calls id = .otpRejected authData) :
    Move verify conn (.otpDelayed id) (conn.otpDelayed id authData) := by
  unfold otpDelayed
  cases authData with
  | none =>
    exact Move.silent trivial
  | some authData =>
    simp only
    split_ifs with hcnt
    · apply Move.retry id authData hcall
      · exact calls_suspend (conn.setContext _) trivial
      · simp only [writtenUser, hcall, hcnt, if_true]
      · rfl
      · rfl
    · exact Move.silent trivial

theorem step_move (hstep : step verify conn action = some next) : Move verify conn action next := by
  cases action with
  | setLevel level =>
    injection hstep with hstep
    rw [← hstep]
    exact Move.other [] (fun _ => Or.inl rfl) (Or.inl rfl) rfl noTwofactorLogin_nil
  | call id data =>
    simp only [step] at hstep
    split at hstep
    next =>
      injection hstep with hstep
      rw [← hstep]
      exact Move.silent trivial
    next => cases hstep
  | failover id backup lookup =>
    simp only [step] at hstep
    split at hstep
    next data _ =>
      injection hstep with hstep
      rw [← hstep]
      split_ifs
      · exact Move.silent trivial
      · exact move_checkAuthMechanism data lookup
    next => cases hstep
  | abandoned id lookup =>
    simp only [step] at hstep
    split at hstep
    next data level _ =>
      injection hstep with hstep
      rw [← hstep]
      exact move_startMechanism data level lookup rfl rfl (Or.inr rfl)
    next => cases hstep
  | passwordChecked id twofactorEnabled resp =>
    simp only [step] at hstep
    split at hstep
    next =>
      injection hstep with hstep
      rw [← hstep]
      exact move_passwordChecked twofactorEnabled resp
    next => cases hstep
  | apiKeyChecked id resp =>
    simp only [step] at hstep
    split at hstep
    next username apiKey again _ =>
      injection hstep with hstep
      rw [← hstep]
      exact move_apiKeyChecked username apiKey again resp
    next => cases hstep
  | apiKeyQueried id found secure =>
    simp only [step] at hstep
    split at hstep
    next resp _ =>
      injection hstep with hstep
      rw [← hstep]
      exact move_apiKeyQueried found secure resp
    next => cases hstep
  | tokenVerified id =>
    simp only [step] at hstep
    split at hstep
    next username token hcall =>
      injection hstep with hstep
      rw [← hstep]
      exact move_tokenVerified hcall
    next => cases hstep
  | otpDelayed id =>
    simp only [step] at hstep
    split at hstep
    next authData hcall =>
      injection hstep with hstep
      rw [← hstep]
      exact move_otpDelayed hcall
    next => cases hstep
  | finished id =>
    simp only [step] at hstep
    split at hstep
    next resp _ =>
      injection hstep with hstep
      rw [← hstep]
      exact Move.silent trivial
    next => cases hstep

end

/-! ## The invariant -/

def PasswordSeen (log : List LoginEvent) (user : UserData) : Prop :=
  ∃ other, .passwordAccepted other user ∈ log

structure TwofactorInvariant (verify : String → String → Bool)
    (conn : Connection) : Prop where
  context : ∀ authData, conn.authCtx.authData = some authData → PasswordSeen conn.log authData.user
  rejected : ∀ id authData, conn.calls id = .otpRejected (some authData) →
    PasswordSeen conn.log authData.user
  verifying : ∀ id username token, conn.calls id = .verifying username token →
    verify username token = true → ∀ authData, conn.authCtx.authData = some authData →
      authData.user.username = username
  bound : SecondFactorBound conn.log

section

variable {verify : String → String → Bool} {conn next : Connection}
  {action : Action}

theorem PasswordSeen.append {log : List LoginEvent} {user : UserData}
    (hseen : PasswordSeen log user) (events : List LoginEvent) :
    PasswordSeen (events ++ log) user := by
  rcases hseen with ⟨other, hother⟩
  exact ⟨other, mem_append_right events hother⟩

theorem SecondFactorBound.append {log events : List LoginEvent}
    (hbound : SecondFactorBound log) (hevents : NoTwofactorLogin events) :
    SecondFactorBound (events ++ log) := by
  induction events with
  | nil => exact hbound
  | cons event rest ih =>
    constructor
    · intro id user heq
      exact absurd heq (hevents event mem_cons_self id user)
    · apply ih
      intro other hother
      exact hevents other (mem_cons_of_mem event hother)

theorem phase_before (hcalls : ∀ id, next.calls id = conn.calls id ∨ Quiet (next.calls id))
    {id : CallId} {phase : LoginPhase} (hphase : ¬ Quiet phase)
    (hcall : next.calls id = phase) : conn.calls id = phase := by
  rcases hcalls id with hsame | hquiet
  · rw [← hsame]
    exact hcall
  · rw [hcall] at hquiet
    exact absurd hquiet hphase

variable {authData : AuthData}

variable (hinv : TwofactorInvariant verify conn)

include hinv

theorem TwofactorInvariant.step_context (hmove : Move verify conn action next)
    (hauth : next.authCtx.authData = some authData) :
    PasswordSeen next.log authData.user := by
  cases hmove with
  | other events hcalls hctx hlog hevents =>
    rcases hctx with hsame | hnone
    · rw [hsame] at hauth
      rw [hlog]
      exact (hinv.context authData hauth).append events
    · rw [hnone] at hauth
      cases hauth
  | demand id user hcalls hwritten hctx hlog =>
    rw [hctx] at hauth
    injection hauth with hauth
    rw [hlog, ← hauth]
    exact ⟨id, mem_cons_self⟩
  | retry id data hcall hcalls hwritten hctx hlog =>
    rw [hctx] at hauth
    injection hauth with hauth
    rw [hlog, ← hauth]
    exact hinv.rejected id data hcall
  | submit id data token hcontext hcalls hctx hlog =>
    rw [hctx] at hauth
    rw [hlog]
    exact hinv.context authData hauth
  | accept id data username token hcall hverify hcontext hcalls hctx hlog =>
    rw [hctx] at hauth
    cases hauth
  | reject id username token hcalls hctx hlog =>
    rw [hctx] at hauth
    cases hauth

theorem TwofactorInvariant.step_rejected (hmove : Move verify conn action next)
    {other : CallId} (hother : next.calls other = .otpRejected (some authData)) :
    PasswordSeen next.log authData.user := by
  cases hmove with
  | other events hcalls hctx hlog hevents =>
    rw [hlog]
    exact (hinv.rejected other authData (phase_before hcalls (fun h => h) hother)).append events
  | demand id user hcalls hwritten hctx hlog =>
    rw [hlog]
    exact (hinv.rejected other authData (phase_before hcalls (fun h => h) hother)).append
        [.passwordAccepted id user]
  | retry id data hcall hcalls hwritten hctx hlog =>
    rw [hlog]
    exact hinv.rejected other authData (phase_before hcalls (fun h => h) hother)
  | submit id data token hcontext hcalls hctx hlog =>
    rw [hcalls, update_apply] at hother
    rw [hlog]
    split_ifs at hother
    exact hinv.rejected other authData hother
  | accept id data username token hcall hverify hcontext hcalls hctx hlog =>
    rw [hlog]
    exact (hinv.rejected other authData (phase_before hcalls (fun h => h) hother)).append [_, _]
  | reject id username token hcalls hctx hlog =>
    rw [hcalls, update_apply] at hother
    rw [hlog]
    split_ifs at hother
    · injection hother with hother
      exact (hinv.context authData hother).append [_]
    · exact (hinv.rejected other authData hother).append [_]

theorem TwofactorInvariant.step_verifying (hguard : LeavesVerification verify conn action)
    (hmove : Move verify conn action next) {other : CallId} {username token : String}
    (hother : next.calls other = .verifying username token)
    (htoken : verify username token = true)
    (hauth : next.authCtx.authData = some authData) :
    authData.user.username = username := by
  cases hmove with
  | other events hcalls hctx hlog hevents =>
    rcases hctx with hsame | hnone
    · rw [hsame] at hauth
      exact hinv.verifying other username token
        (phase_before hcalls (fun h => h) hother) htoken authData hauth
    · rw [hnone] at hauth
      cases hauth
  | demand id user hcalls hwritten hctx hlog =>
    rw [hctx] at hauth
    injection hauth with hauth
    rw [← hauth]
    exact (hguard user hwritten other username token
      (phase_before hcalls (fun h => h) hother) htoken).symm
  | retry id data hcall hcalls hwritten hctx hlog =>
    rw [hctx] at hauth
    injection hauth with hauth
    rw [← hauth]
    exact (hguard data.user hwritten other username token
      (phase_before hcalls (fun h => h) hother) htoken).symm
  | submit id data text hcontext hcalls hctx hlog =>
    rw [hctx] at hauth
    rw [hcalls, update_apply] at hother
    split_ifs at hother
    -- the call itself verifies for the user it read from the context
    · injection hother with hname _
      rw [hcontext] at hauth
      injection hauth with hauth
      rw [← hauth, hname]
    · exact hinv.verifying other username token hother htoken authData hauth
  | accept id data name text hcall hverify hcontext hcalls hctx hlog =>
    rw [hctx] at hauth
    cases hauth
  | reject id name text hcalls hctx hlog =>
    rw [hctx] at hauth
    cases hauth

theorem TwofactorInvariant.step_bound (hmove : Move verify conn action next) :
    SecondFactorBound next.log := by
  cases hmove with
  | other events hcalls hctx hlog hevents =>
    rw [hlog]
    exact hinv.bound.append hevents
  | demand id user hcalls hwritten hctx hlog =>
    have hevent : NoTwofactorLogin [.passwordAccepted id user] := noTwofactorLogin_singleton nofun
    rw [hlog]
    exact hinv.bound.append hevent
  | retry id authData hcall hcalls hwritten hctx hlog =>
    rw [hlog]
    exact hinv.bound
  | submit id authData token hcontext hcalls hctx hlog =>
    rw [hlog]
    exact hinv.bound
  | accept id authData username token hcall hverify hcontext hcalls hctx hlog =>
    -- the context is read again after the verification
    have hname := hinv.verifying id username token hcall hverify authData hcontext
    obtain ⟨other, hother⟩ := hinv.context authData hcontext
    rw [hlog]
    refine ⟨?_, ?_, hinv.bound⟩
    · intro call user heq
      injection heq with hid huser
      injection huser with huser
      rw [← hid, ← huser, hname]
      exact ⟨⟨token, mem_cons_self⟩, ⟨other, mem_cons_of_mem _ hother⟩⟩
    · intro call user heq
      cases heq
  | reject id username token hcalls hctx hlog =>
    have hevent : NoTwofactorLogin [.tokenVerified id username token false] :=
      noTwofactorLogin_singleton nofun
    rw [hlog]
    exact hinv.bound.append hevent

theorem TwofactorInvariant.step (hguard : LeavesVerification verify conn action)
    (hstep : Connection.step verify conn action = some next) :
    TwofactorInvariant verify next := by
  have hmove := step_move hstep
  constructor
  · intro authData hauth
    exact hinv.step_context hmove hauth
  · intro other authData hother
    exact hinv.step_rejected hmove hother
  · intro other username token hother htoken authData hauth
    exact hinv.step_verifying hguard hmove hother htoken hauth
  · exact hinv.step_bound hmove

omit hinv

theorem init_twofactorInvariant (level : AuthenticatorAssuranceLevel) :
    TwofactorInvariant verify (init level) := by
  constructor
  · intro authData hauth
    cases hauth
  · intro id authData hcall
    cases hcall
  · intro id username token hcall
    cases hcall
  · trivial

open TransitionSystem in
/-- In every interleaving of calls in which the context is never written for
one user during the verification of a right token of another. -/
theorem run_secondFactorBound {level : AuthenticatorAssuranceLevel} {actions : List Action}
    (hguard : EveryStep (Connection.step verify) (LeavesVerification verify) (init level) actions)
    (hrun : run (Connection.step verify) (init level) actions = some conn) :
    SecondFactorBound conn.log := by
  have hinv : TwofactorInvariant verify conn := by
    apply run_invariant_of_everyStep _ (init_twofactorInvariant level) hguard hrun
    intro conn action next hinv hguard hstep
    exact hinv.step hguard hstep
  exact hinv.bound

end

section

open TransitionSystem

def alice : UserData := ⟨"alice", ["LOCAL", "2FA"]⟩

def bob : UserData := ⟨"bob", ["LOCAL", "2FA"]⟩

def oneToken (username token : String) : Bool :=
  (username = "alice" && token = "111111") || (username = "bob" && token = "222222")

def aliceLogin : List Action :=
  [.call 0 (.passwordPlain "alice" "secret"), .failover 0 false .invalid,
    .passwordChecked 0 true (.success alice), .call 1 (.otpToken "111111"),
    .failover 1 false .invalid, .tokenVerified 1, .finished 1]

theorem leavesVerification_of_none {verify : String → String → Bool}
    {conn : Connection} {action : Action}
    (hnone : conn.writtenUser action = none) :
    LeavesVerification verify conn action := by
  intro user huser
  rw [hnone] at huser
  cases huser

theorem aliceLogin_bound : EveryStep (step oneToken) (LeavesVerification oneToken) (init aaLevel1)
      aliceLogin ∧
    ∃ conn, run (step oneToken) (init aaLevel1) aliceLogin = some conn ∧
      .login 1 (.loginTwofactor alice) ∈ conn.log ∧
      SecondFactorBound conn.log := by
  have hguard : EveryStep (step oneToken) (LeavesVerification oneToken)
      (init aaLevel1) aliceLogin := by
    apply everyStep_cons (leavesVerification_of_none rfl) rfl
    apply everyStep_cons (leavesVerification_of_none rfl) rfl
    apply everyStep_cons _ rfl
    · apply everyStep_cons (leavesVerification_of_none rfl) rfl
      apply everyStep_cons (leavesVerification_of_none rfl) rfl
      apply everyStep_cons (leavesVerification_of_none rfl) rfl
      apply everyStep_cons (leavesVerification_of_none rfl) rfl
      trivial
    · intro user _ id username token hcall
      change Function.update (Function.update (fun _ => LoginPhase.idle) 0
          (.called (.passwordPlain "alice" "secret"))) 0
        (.passwordCheck "alice" "secret") id = _ at hcall
      rw [update_apply, update_apply] at hcall
      split_ifs at hcall
  exact ⟨hguard, _, rfl, by decide, run_secondFactorBound hguard rfl⟩

def bobDuringVerification : List Action :=
  [.call 0 (.passwordPlain "alice" "secret"), .failover 0 false .invalid,
    .passwordChecked 0 true (.success alice), .call 1 (.otpToken "111111"),
    .failover 1 false .invalid, .call 2 (.passwordPlain "bob" "hunter2"),
    .failover 2 false .invalid, .abandoned 2 .invalid,
    .passwordChecked 2 true (.success bob), .tokenVerified 1]

/-- Bob comes in while alice's token is verified, and his session is let through by it. -/
theorem bobDuringVerification_not_bound :
    ∃ conn, run (step oneToken) (init aaLevel1) bobDuringVerification = some conn ∧
      .login 1 (.loginTwofactor bob) ∈ conn.log ∧
      (∀ token, .tokenVerified 1 "bob" token true ∉ conn.log) ∧
      ¬ SecondFactorBound conn.log := by
  have hnone : ∀ token, LoginEvent.tokenVerified 1 "bob" token true ∉
      [.login 1 (.loginTwofactor bob), .tokenVerified 1 "alice" "111111" true,
        .passwordAccepted 2 bob, .passwordAccepted 0 alice] := by
    intro token hmem
    simp at hmem
  refine ⟨_, rfl, ?_, hnone, ?_⟩
  · decide
  · intro hbound
    obtain ⟨⟨token, htoken⟩, _⟩ := hbound.1 1 bob rfl
    exact hnone token (mem_cons_of_mem _ htoken)

end

end Middlewared.Connection
