import Middlewared.LoginExTwofactor

/-!
# How often a second factor can be guessed

A password step that asks for a one-time token starts an attempt with a counter in the context of
the connection.
-/

namespace Middlewared.Connection

open TransitionSystem Function

/-- The user for whom the action submits a token to
`user.verify_twofactor_token`. -/
def submitted (verify : String → String → Bool) (conn : Connection)
    (action : Action) : Option String :=
  match action with
  | .failover id _ _ | .abandoned id _ =>
    match step verify conn action with
    | none => none
    | some next =>
      match next.calls id with
      | .verifying username _ => some username
      | _ => none
  | _ => none

def submissions (verify : String → String → Bool) (username : String) :
    Connection → List Action → ℕ
  | _, [] => 0
  | conn, action :: rest =>
    (if submitted verify conn action = some username then 1 else 0) +
      match step verify conn action with
      | none => 0
      | some next => submissions verify username next rest

/-- A token of the user is accepted, the user's attempt is discarded, or the
user's password is accepted again. -/
def AttemptEnds (verify : String → String → Bool) (username : String)
    (conn : Connection) (action : Action) : Prop :=
  match action with
  | .tokenVerified id =>
    ∃ token, conn.calls id = .verifying username token ∧ verify username token = true
  | .failover _ _ _ | .abandoned _ _ =>
    ∃ next, step verify conn action = some next ∧
      conn.authCtx.authData.any (·.user.username = username) = true ∧
      next.authCtx.authData = none
  | .passwordChecked _ _ (.success user) => user.username = username
  | _ => False

/-- A token is submitted only when no other token of the connection is being
verified or waits for its delay. -/
def Serial (verify : String → String → Bool) (conn : Connection)
    (action : Action) : Prop :=
  (submitted verify conn action).isSome → ∀ id, Quiet (conn.calls id)

section

variable {verify : String → String → Bool} {conn next : Connection}
  {action : Action} {id other : CallId}

def MovesQuietly (conn next : Connection) (id : CallId) : Prop :=
  ∃ phase, Quiet phase ∧ next.calls = Function.update conn.calls id phase

theorem movesQuietly_suspend {base : Connection} {phase : LoginPhase}
    (hphase : Quiet phase) (hcalls : base.calls = conn.calls) :
    MovesQuietly conn (base.suspend id phase) id :=
  ⟨phase, hphase, by rw [← hcalls]; rfl⟩

theorem quiet_pamErrorResponse (code : PamError) : Quiet (.finishing (pamErrorResponse code)) := by
  cases code <;> trivial

theorem movesQuietly_passwordChecked (conn : Connection) (id : CallId) (user : LoginUser) :
    MovesQuietly conn (conn.passwordChecked id user) id := by
  unfold passwordChecked
  cases user.resp with
  | success userData =>
    simp only
    split_ifs <;> exact movesQuietly_suspend trivial rfl
  | failure code =>
    simp only
    split_ifs
    · exact movesQuietly_suspend trivial rfl
    · exact movesQuietly_suspend (quiet_pamErrorResponse code) rfl

theorem movesQuietly_apiKeyChecked (username apiKey : String) (again : Bool)
    (resp : AuthenticatePlain) :
    MovesQuietly conn (conn.apiKeyChecked id username apiKey again resp) id := by
  unfold apiKeyChecked
  split_ifs <;> exact movesQuietly_suspend trivial rfl

theorem movesQuietly_apiKeyQueried (found secure : Bool) (resp : AuthenticatePlain) :
    MovesQuietly conn (conn.apiKeyQueried id found secure resp) id := by
  unfold apiKeyQueried
  cases resp with
  | success userData =>
    split_ifs <;> exact movesQuietly_suspend trivial rfl
  | failure code => exact movesQuietly_suspend (quiet_pamErrorResponse code) rfl

theorem movesQuietly_otpDelayed (conn : Connection) (id : CallId) (authData : Option AuthData) :
    MovesQuietly conn (conn.otpDelayed id authData) id := by
  unfold otpDelayed
  cases authData with
  | none => exact movesQuietly_suspend trivial rfl
  | some authData =>
    simp only
    split_ifs <;> exact movesQuietly_suspend trivial rfl

def Verifying (conn : Connection) : Prop :=
  ∃ id username token, conn.calls id = .verifying username token

def KeepsAttempt (conn next : Connection) : Prop :=
  next.authCtx.authData = none ∨ (next.authCtx.authData = conn.authCtx.authData ∧
      (conn.Verifying → next.Verifying))

inductive AttemptMove (verify : String → String → Bool) (conn : Connection)
    (action : Action) (next : Connection) : Prop
  | quiet (hcalls : next.calls = conn.calls ∨ ∃ id, MovesQuietly conn next id)
      (hctx : KeepsAttempt conn next)
  | demand (id : CallId) (twofactorEnabled : Bool) (user : UserData)
      (haction : action = .passwordChecked id twofactorEnabled (.success user))
      (hcalls : MovesQuietly conn next id)
      (hctx : next.authCtx.authData = some ⟨0, user⟩)
  | retry (id : CallId) (authData : AuthData) (hcall : conn.calls id = .otpRejected (some authData))
      (hcnt : authData.cnt < maxOtpAttempts)
      (hcalls : MovesQuietly conn next id)
      (hctx : next.authCtx.authData = some { authData with cnt := authData.cnt + 1 })
  | submit (id : CallId) (authData : AuthData) (token : String)
      (hcontext : conn.authCtx.authData = some authData)
      (hcalls : next.calls = Function.update conn.calls id
        (.verifying authData.user.username token))
      (hctx : next.authCtx.authData = some authData)
      (hsubmitted : submitted verify conn action = some authData.user.username)
  | reject (id : CallId) (hcall : ¬ Quiet (conn.calls id))
      (hcalls : next.calls = Function.update conn.calls id (.otpRejected conn.authCtx.authData))
      (hctx : next.authCtx.authData = none)

theorem MovesQuietly.keepsAttempt (hquiet : MovesQuietly conn next id)
    (hcall : ∀ username token, conn.calls id ≠ .verifying username token)
    (hctx : next.authCtx.authData = conn.authCtx.authData) :
    KeepsAttempt conn next := by
  right
  refine ⟨hctx, ?_⟩
  intro hverifying
  obtain ⟨other, username, token, hother⟩ := hverifying
  obtain ⟨phase, hphase, hcalls⟩ := hquiet
  refine ⟨other, username, token, ?_⟩
  rw [hcalls, update_of_ne, hother]
  intro heq
  rw [heq] at hother
  exact hcall username token hother

theorem AttemptMove.of_quiet (hquiet : MovesQuietly conn next id)
    (hcall : ∀ username token, conn.calls id ≠ .verifying username token)
    (hctx : next.authCtx.authData = conn.authCtx.authData) :
    AttemptMove verify conn action next :=
  .quiet (Or.inr ⟨id, hquiet⟩) (hquiet.keepsAttempt hcall hctx)

theorem AttemptMove.of_dropped (hquiet : MovesQuietly conn next id)
    (hctx : next.authCtx.authData = none) :
    AttemptMove verify conn action next :=
  .quiet (Or.inr ⟨id, hquiet⟩) (Or.inl hctx)

theorem attemptMove_startMechanism {base : Connection} {data : LoginData}
    {level : AuthenticatorAssuranceLevel} {lookup : TokenLookup}
    (hnext : base.startMechanism id data level lookup = next)
    (hcalls : base.calls = conn.calls)
    (hcall : ∀ username token, conn.calls id ≠ .verifying username token)
    (hctx : base.authCtx.authData = conn.authCtx.authData ∨ base.authCtx.authData = none)
    (hsubmitted : ∀ username token, next.calls id = .verifying username token →
      submitted verify conn action = some username) :
    AttemptMove verify conn action next := by
  have hsuspend : ∀ (other : Connection) (phase : LoginPhase), Quiet phase →
      other.calls = base.calls →
      other.authCtx = base.authCtx →
      AttemptMove verify conn action (other.suspend id phase) := by
    intro other phase hphase hother hotherCtx
    have hquiet : MovesQuietly conn (other.suspend id phase) id :=
      movesQuietly_suspend hphase (hother.trans hcalls)
    rcases hctx with hsame | hnone
    · apply AttemptMove.of_quiet hquiet hcall
      rw [← hsame, ← hotherCtx]
      rfl
    · apply AttemptMove.of_dropped hquiet
      rw [← hnone, ← hotherCtx]
      rfl
  rcases startMechanism_cases base id data level lookup with
    hquiet | hlogin | hverify
  · obtain ⟨phase, hphase, hstarts⟩ := hquiet
    rw [← hnext, hstarts]
    exact hsuspend base phase hphase rfl rfl
  · obtain ⟨token, hstarts⟩ := hlogin
    rw [← hnext, hstarts]
    exact hsuspend (base.record _) (.finishing .success) trivial rfl rfl
  · obtain ⟨authData, token, hbase, hstarts⟩ := hverify
    have hcontext : conn.authCtx.authData = some authData := by
      rcases hctx with hsame | hnone
      · rw [← hsame]
        exact hbase
      · rw [hnone] at hbase
        cases hbase
    have hcall : next.calls = Function.update conn.calls id
        (.verifying authData.user.username token) := by
      rw [← hnext, hstarts, ← hcalls]
      rfl
    apply AttemptMove.submit id authData token hcontext hcall
    · rw [← hnext, hstarts]
      exact hbase
    · apply hsubmitted authData.user.username token
      rw [hcall, update_self]

theorem attemptMove_passwordChecked {twofactorEnabled : Bool}
    {resp : AuthenticatePlain} {username password : String}
    (hcall : conn.calls id = .passwordCheck username password) :
    AttemptMove verify conn (.passwordChecked id twofactorEnabled resp) (conn.passwordChecked id
        (getLoginUser .passwordPlain twofactorEnabled resp)) := by
  have hquiet := movesQuietly_passwordChecked conn id
    (getLoginUser .passwordPlain twofactorEnabled resp)
  cases resp with
  | failure code =>
    apply AttemptMove.of_quiet hquiet (by simp [hcall])
    unfold passwordChecked
    split_ifs <;> rfl
  | success userData =>
    by_cases hotp : (getLoginUser .passwordPlain twofactorEnabled
        (.success userData)).otpRequired = true
    · apply AttemptMove.demand id twofactorEnabled userData rfl hquiet
      unfold passwordChecked
      rw [getLoginUser_resp]
      simp only [hotp, if_true]
      rfl
    · apply AttemptMove.of_quiet hquiet (by simp [hcall])
      unfold passwordChecked
      rw [getLoginUser_resp]
      simp only [hotp, Bool.false_eq_true, if_false]
      split_ifs <;> rfl

theorem attemptMove_tokenVerified {username token : String}
    (hcall : conn.calls id = .verifying username token) :
    AttemptMove verify conn action
      (conn.tokenVerified id username token (verify username token)) := by
  unfold tokenVerified
  cases verify username token with
  | false =>
    apply AttemptMove.reject id
    · simp [hcall, Quiet]
    · rfl
    · rfl
  | true =>
    cases conn.authCtx.authData with
    | none => exact .of_dropped (movesQuietly_suspend trivial rfl) rfl
    | some authData => exact .of_dropped (movesQuietly_suspend trivial rfl) rfl

theorem attemptMove_otpDelayed {authData : Option AuthData}
    (hcall : conn.calls id = .otpRejected authData) :
    AttemptMove verify conn action (conn.otpDelayed id authData) := by
  have hquiet := movesQuietly_otpDelayed conn id authData
  unfold otpDelayed at hquiet ⊢
  cases authData with
  | none => exact .of_quiet hquiet (by simp [hcall]) rfl
  | some authData =>
    simp only at hquiet ⊢
    split_ifs at hquiet ⊢ with hcnt
    · exact .retry id authData hcall hcnt hquiet rfl
    · exact .of_quiet hquiet (by simp [hcall]) rfl

theorem attemptMove_checkAuthMechanism {data : LoginData} {lookup : TokenLookup}
    (hcall : conn.calls id = .called data)
    (hnext : conn.checkAuthMechanism id data lookup = next)
    (hsubmitted : ∀ username token, next.calls id = .verifying username token →
      submitted verify conn action = some username) :
    AttemptMove verify conn action next := by
  have hphase : ∀ username token, conn.calls id ≠ .verifying username token := by
    simp [hcall]
  unfold checkAuthMechanism at hnext
  split_ifs at hnext
  · rw [← hnext]
    exact .of_quiet (movesQuietly_suspend trivial rfl) hphase rfl
  · rw [← hnext]
    exact .of_quiet (movesQuietly_suspend trivial rfl) hphase rfl
  · exact attemptMove_startMechanism hnext rfl hphase (Or.inr rfl) hsubmitted
  · exact attemptMove_startMechanism hnext rfl hphase (Or.inl rfl) hsubmitted

theorem step_attemptMove (hstep : step verify conn action = some next) :
    AttemptMove verify conn action next := by
  have hkept := hstep
  cases action with
  | setLevel level =>
    cases hstep
    exact .quiet (Or.inl rfl) (Or.inr ⟨rfl, fun hverifying => hverifying⟩)
  | call id data =>
    simp only [step] at hstep
    split at hstep <;> cases hstep
    rename_i hcall
    exact .of_quiet (movesQuietly_suspend trivial rfl) (by simp [hcall]) rfl
  | failover id backup lookup =>
    simp only [step] at hstep
    split at hstep
    case h_2 => cases hstep
    case h_1 data hcall =>
      injection hstep with hstep
      split_ifs at hstep
      · rw [← hstep]
        exact .of_quiet (movesQuietly_suspend trivial rfl) (by simp [hcall]) rfl
      · apply attemptMove_checkAuthMechanism hcall hstep
        intro username token hverifying
        simp [submitted, hkept, hverifying]
  | abandoned id lookup =>
    simp only [step] at hstep
    split at hstep
    case h_2 => cases hstep
    case h_1 data level hcall =>
      injection hstep with hstep
      refine attemptMove_startMechanism hstep rfl (by simp [hcall]) (Or.inr rfl) ?_
      intro username token hverifying
      simp [submitted, hkept, hverifying]
  | passwordChecked id twofactorEnabled resp =>
    simp only [step] at hstep
    split at hstep <;> cases hstep
    rename_i hcall
    exact attemptMove_passwordChecked hcall
  | apiKeyChecked id resp =>
    simp only [step] at hstep
    split at hstep <;> cases hstep
    rename_i hcall
    apply AttemptMove.of_quiet (movesQuietly_apiKeyChecked _ _ _ _) (by simp [hcall])
    unfold apiKeyChecked
    split_ifs <;> rfl
  | apiKeyQueried id found secure =>
    simp only [step] at hstep
    split at hstep
    case h_2 => cases hstep
    case h_1 resp hcall =>
      cases hstep
      apply AttemptMove.of_quiet (movesQuietly_apiKeyQueried _ _ _) (by simp [hcall])
      unfold apiKeyQueried
      cases resp with
      | failure code => rfl
      | success userData =>
        split_ifs <;> rfl
  | tokenVerified id =>
    simp only [step] at hstep
    split at hstep
    case h_2 => cases hstep
    case h_1 username token hcall =>
      injection hstep with hstep
      rw [← hstep]
      exact attemptMove_tokenVerified hcall
  | otpDelayed id =>
    simp only [step] at hstep
    split at hstep
    case h_2 => cases hstep
    case h_1 authData hcall =>
      injection hstep with hstep
      rw [← hstep]
      exact attemptMove_otpDelayed hcall
  | finished id =>
    simp only [step] at hstep
    split at hstep <;> cases hstep
    rename_i hcall
    exact .of_quiet (movesQuietly_suspend trivial rfl) (by simp [hcall]) rfl

end

/-! ## One token at a time -/

section

variable {verify : String → String → Bool} {conn next : Connection}
  {action : Action}

/-- At most one call is verifying a token or waits for its delay, and the
counter in the context is not above its limit. -/
structure SingleFlight (conn : Connection) : Prop where
  single : ∀ id other, ¬ Quiet (conn.calls id) → ¬ Quiet (conn.calls other) → id = other
  context : ∀ authData, conn.authCtx.authData = some authData → authData.cnt ≤ maxOtpAttempts

variable {id other : CallId}

theorem MovesQuietly.calls_eq (hquiet : MovesQuietly conn next id)
    (hother : ¬ Quiet (next.calls other)) :
    next.calls other = conn.calls other := by
  obtain ⟨phase, hphase, hcalls⟩ := hquiet
  rw [hcalls, update_apply] at hother ⊢
  split_ifs at hother ⊢
  · exact absurd hphase hother
  · rfl

theorem MovesQuietly.not_quiet (hquiet : MovesQuietly conn next id)
    (hother : ¬ Quiet (next.calls other)) : ¬ Quiet (conn.calls other) := by
  rw [← hquiet.calls_eq hother]
  exact hother

theorem SingleFlight.of_quiet (hflight : SingleFlight conn)
    (hquiet : ∀ id, ¬ Quiet (next.calls id) → ¬ Quiet (conn.calls id))
    (hcontext : ∀ authData, next.authCtx.authData = some authData →
      authData.cnt ≤ maxOtpAttempts) : SingleFlight next := by
  constructor
  · intro id other hid hother
    exact hflight.single id other (hquiet id hid) (hquiet other hother)
  · exact hcontext

theorem SingleFlight.of_only (id : CallId)
    (honly : ∀ other, ¬ Quiet (next.calls other) → other = id)
    (hcontext : ∀ authData, next.authCtx.authData = some authData →
      authData.cnt ≤ maxOtpAttempts) : SingleFlight next := by
  constructor
  · intro first second hfirst hsecond
    rw [honly first hfirst, honly second hsecond]
  · exact hcontext

theorem not_quiet_update {phase : LoginPhase}
    (hother : ¬ Quiet (Function.update conn.calls id phase other))
    (hne : other ≠ id) : ¬ Quiet (conn.calls other) := by
  rw [update_of_ne hne] at hother
  exact hother

theorem SingleFlight.step (hflight : SingleFlight conn) (hserial : Serial verify conn action)
    (hmove : AttemptMove verify conn action next) : SingleFlight next := by
  cases hmove with
  | quiet hcalls hctx =>
    apply hflight.of_quiet
    · intro id hid
      rcases hcalls with hsame | hquiet
      · rw [hsame] at hid
        exact hid
      · obtain ⟨call, hquiet⟩ := hquiet
        exact hquiet.not_quiet hid
    · intro authData hauth
      rcases hctx with hnone | hsame
      · rw [hnone] at hauth
        cases hauth
      · rw [hsame.1] at hauth
        exact hflight.context authData hauth
  | demand id twofactorEnabled user haction hcalls hctx =>
    apply hflight.of_quiet (fun _ => hcalls.not_quiet)
    intro authData hauth
    rw [hctx] at hauth
    cases hauth
    exact Nat.zero_le _
  | retry id data hcall hcnt hcalls hctx =>
    apply hflight.of_quiet (fun _ => hcalls.not_quiet)
    intro authData hauth
    rw [hctx] at hauth
    cases hauth
    exact hcnt
  | submit id data token hcontext hcalls hctx hsubmitted =>
    have hall := hserial (by rw [hsubmitted]; rfl)
    apply SingleFlight.of_only id
    · intro other hother
      by_contra hne
      rw [hcalls] at hother
      exact not_quiet_update hother hne (hall other)
    · intro authData hauth
      rw [hctx] at hauth
      cases hauth
      exact hflight.context data hcontext
  | reject id hcall hcalls hctx =>
    apply SingleFlight.of_only id
    · intro other hother
      by_contra hne
      rw [hcalls] at hother
      exact hne (hflight.single other id (not_quiet_update hother hne) hcall)
    · intro authData hauth
      rw [hctx] at hauth
      cases hauth

theorem init_singleFlight (level : AuthenticatorAssuranceLevel) : SingleFlight (init level) := by
  constructor
  · intro id other hid
    exact absurd trivial hid
  · intro authData hauth
    cases hauth

end

/-! ## Counting -/

section

variable {verify : String → String → Bool} {conn next : Connection}
  {action : Action} {username : String} {count : ℕ}

structure Counted (username : String) (count : ℕ) (conn : Connection) : Prop where
  bound : count ≤ maxOtpAttempts + 1
  context : ∀ authData, conn.authCtx.authData = some authData → authData.user.username = username →
      count ≤ authData.cnt + 1 ∧ (¬ conn.Verifying → count ≤ authData.cnt)
  rejected : ∀ id authData, conn.calls id = .otpRejected (some authData) →
    authData.user.username = username → count ≤ authData.cnt + 1

theorem exists_verifying_of_submitted (hstep : step verify conn action = some next)
    (hsubmitted : submitted verify conn action = some username) :
    ∃ id token, next.calls id = .verifying username token ∧ Quiet (conn.calls id) := by
  unfold submitted at hsubmitted
  split at hsubmitted
  case h_1 id backup lookup =>
    rw [hstep] at hsubmitted
    simp only at hsubmitted
    split at hsubmitted <;> cases hsubmitted
    rename_i token hcall
    refine ⟨id, token, hcall, ?_⟩
    simp only [step] at hstep
    split at hstep
    · rename_i hcalled
      rw [hcalled]
      trivial
    · cases hstep
  case h_2 id lookup =>
    rw [hstep] at hsubmitted
    simp only at hsubmitted
    split at hsubmitted <;> cases hsubmitted
    rename_i token hcall
    refine ⟨id, token, hcall, ?_⟩
    simp only [step] at hstep
    split at hstep
    · rename_i hcalled
      rw [hcalled]
      trivial
    · cases hstep
  case h_3 => cases hsubmitted

theorem not_submitted_of_calls (username : String) (hstep : step verify conn action = some next)
    (hcalls : ∀ id, ¬ Quiet (next.calls id) → ¬ Quiet (conn.calls id)) :
    submitted verify conn action ≠ some username := by
  intro hsubmitted
  obtain ⟨id, token, hcall, hquiet⟩ := exists_verifying_of_submitted hstep hsubmitted
  exact hcalls id (by simp [hcall, Quiet]) hquiet

theorem Counted.of_quiet (hcounted : Counted username count conn)
    (hcalls : ∀ id, ¬ Quiet (next.calls id) → next.calls id = conn.calls id)
    (hcontext : ∀ authData, next.authCtx.authData = some authData →
      authData.user.username = username →
        count ≤ authData.cnt + 1 ∧ (¬ next.Verifying → count ≤ authData.cnt)) :
    Counted username count next := by
  constructor
  · exact hcounted.bound
  · exact hcontext
  · intro id authData hcall
    apply hcounted.rejected id authData
    rw [← hcalls id (by simp [hcall, Quiet])]
    exact hcall

theorem Counted.step_of_calls (hcounted : Counted username count conn)
    (hstep : step verify conn action = some next)
    (hcalls : ∀ id, ¬ Quiet (next.calls id) → next.calls id = conn.calls id)
    (hcontext : ∀ authData, next.authCtx.authData = some authData →
      authData.user.username = username →
        count ≤ authData.cnt + 1 ∧ (¬ next.Verifying → count ≤ authData.cnt)) :
    Counted username ((if submitted verify conn action = some username then 1 else 0) + count)
      next := by
  have hnone := not_submitted_of_calls username hstep (fun id hid => hcalls id hid ▸ hid)
  rw [if_neg hnone, Nat.zero_add]
  exact hcounted.of_quiet hcalls hcontext

theorem Counted.step (hcounted : Counted username count conn)
    (hflight : SingleFlight conn) (hserial : Serial verify conn action)
    (hopen : ¬ AttemptEnds verify username conn action)
    (hstep : step verify conn action = some next) :
    Counted username ((if submitted verify conn action = some username then 1 else 0) + count)
      next := by
  cases step_attemptMove hstep with
  | quiet hcalls hctx =>
    have hkept : ∀ id, ¬ Quiet (next.calls id) → next.calls id = conn.calls id := by
      intro id hid
      rcases hcalls with hsame | hquiet
      · rw [hsame]
      · obtain ⟨call, hquiet⟩ := hquiet
        exact hquiet.calls_eq hid
    apply hcounted.step_of_calls hstep hkept
    intro authData hauth huser
    rcases hctx with hdropped | hsame
    · rw [hdropped] at hauth
      cases hauth
    · rw [hsame.1] at hauth
      have hbounds := hcounted.context authData hauth huser
      exact ⟨hbounds.1, fun hdone => hbounds.2 fun h => hdone (hsame.2 h)⟩
  | demand id twofactorEnabled user haction hcalls hctx =>
    apply hcounted.step_of_calls hstep (fun _ => hcalls.calls_eq)
    intro authData hauth huser
    rw [hctx] at hauth
    cases hauth
    rw [haction] at hopen
    exact absurd huser hopen
  | retry id data hcall hcnt hcalls hctx =>
    apply hcounted.step_of_calls hstep (fun _ => hcalls.calls_eq)
    intro authData hauth huser
    rw [hctx] at hauth
    cases hauth
    have hbound := hcounted.rejected id data hcall huser
    exact ⟨Nat.le_succ_of_le hbound, fun _ => hbound⟩
  | submit id data token hcontext hcalls hctx hsubmitted =>
    have hall := hserial (by rw [hsubmitted]; rfl)
    have hidle : ¬ conn.Verifying := by
      intro hverifying
      obtain ⟨call, user, other, hcall⟩ := hverifying
      have hquiet := hall call
      rw [hcall] at hquiet
      exact hquiet
    have hnext : next.Verifying := ⟨id, data.user.username, token, by rw [hcalls, update_self]⟩
    have hlimit := hflight.context data hcontext
    have hrejected : ∀ call authData, next.calls call ≠ .otpRejected (some authData) := by
      intro call authData hcall
      rw [hcalls, update_apply] at hcall
      split_ifs at hcall
      have hquiet := hall call
      rw [hcall] at hquiet
      exact hquiet
    rw [hsubmitted]
    by_cases huser : data.user.username = username
    · have hbound := (hcounted.context data hcontext huser).2 hidle
      rw [if_pos (by rw [huser])]
      constructor
      · omega
      · intro authData hauth _
        rw [hctx] at hauth
        cases hauth
        exact ⟨by omega, fun hdone => absurd hnext hdone⟩
      · intro call authData hcall
        exact absurd hcall (hrejected call authData)
    · rw [if_neg (by simpa using huser), Nat.zero_add]
      constructor
      · exact hcounted.bound
      · intro authData hauth hother
        rw [hctx] at hauth
        cases hauth
        exact absurd hother huser
      · intro call authData hcall
        exact absurd hcall (hrejected call authData)
  | reject id hcall hcalls hctx =>
    have hkept : ∀ other, ¬ Quiet (next.calls other) → ¬ Quiet (conn.calls other) := by
      intro other hother
      by_cases heq : other = id
      · rw [heq]
        exact hcall
      · rw [hcalls] at hother
        exact not_quiet_update hother heq
    have hnone := not_submitted_of_calls username hstep hkept
    rw [if_neg hnone, Nat.zero_add]
    constructor
    · exact hcounted.bound
    · intro authData hauth
      rw [hctx] at hauth
      cases hauth
    · intro other authData hother huser
      rw [hcalls, update_apply] at hother
      split_ifs at hother
      · injection hother with hdata
        exact (hcounted.context authData hdata huser).1
      · exact hcounted.rejected other authData hother huser

end

section

variable {verify : String → String → Bool} {conn start : Connection}
  {username : String}

theorem submissions_add_le {count : ℕ} {actions : List Action}
    (hcounted : Counted username count conn) (hflight : SingleFlight conn)
    (hserial : EveryStep (step verify) (Serial verify) conn actions)
    (hopen : EveryStep (step verify)
      (fun conn action => ¬ AttemptEnds verify username conn action) conn
      actions) :
    submissions verify username conn actions + count ≤ maxOtpAttempts + 1 := by
  induction actions generalizing conn count with
  | nil =>
    simp only [submissions, Nat.zero_add]
    exact hcounted.bound
  | cons action rest ih =>
    simp only [submissions]
    cases hstep : step verify conn action with
    | none =>
      have hnone : submitted verify conn action ≠ some username := by
        unfold submitted
        split <;> simp_all
      simp only [if_neg hnone, Nat.zero_add]
      exact hcounted.bound
    | some next =>
      have hnext := ih (hcounted.step hflight hserial.1 hopen.1 hstep)
        (hflight.step hserial.1 (step_attemptMove hstep))
        (hserial.2 next hstep) (hopen.2 next hstep)
      simp only
      omega

/-- A `PASSWORD_PLAIN` call is answered with `OTP_REQUIRED` for the user. -/
structure OtpDemanded (verify : String → String → Bool) (username : String)
    (conn : Connection) (action : Action) (start : Connection) : Prop where
  step_eq : step verify conn action = some start
  answered : ∃ id twofactorEnabled user,
    action = .passwordChecked id twofactorEnabled (.success user) ∧
      start.calls id = .answered (.otpRequired username)

theorem counted_zero (username : String) (conn : Connection) : Counted username 0 conn := by
  constructor
  · exact Nat.zero_le _
  · intro authData _ _
    exact ⟨Nat.zero_le _, fun _ => Nat.zero_le _⟩
  · intro id authData _ _
    exact Nat.zero_le _

/-- After a password step that asked for a token of the user, at most one token
more than `MAX_OTP_ATTEMPTS` is submitted for the user before one is accepted,
the attempt is discarded or the password is accepted again, as long as tokens
are submitted one after another. -/
theorem otp_submissions_le {level : AuthenticatorAssuranceLevel}
    {before actions : List Action} {demand : Action}
    (hbefore : run (step verify) (init level) before = some conn)
    (hdemand : OtpDemanded verify username conn demand start)
    (hserial : EveryStep (step verify) (Serial verify) (init level) (before ++ demand :: actions))
    (hopen : EveryStep (step verify)
      (fun conn action => ¬ AttemptEnds verify username conn action) start
      actions) :
    submissions verify username start actions ≤ maxOtpAttempts + 1 := by
  obtain ⟨hserialBefore, hserialAfter⟩ := hserial.of_append hbefore
  have hflight : SingleFlight conn := by
    apply run_invariant_of_everyStep _ (init_singleFlight level) hserialBefore hbefore
    intro conn action next hflight hserial hstep
    exact hflight.step hserial (step_attemptMove hstep)
  have hstart : SingleFlight start := hflight.step hserialAfter.1 (step_attemptMove hdemand.step_eq)
  exact submissions_add_le (counted_zero username start) hstart
    (hserialAfter.2 start hdemand.step_eq) hopen

end

/-! ## Guessing one token after another -/

section

/-- The connection waits for a token of `alice`, and nothing else goes on. -/
structure Waiting (cnt : ℕ) (conn : Connection) : Prop where
  level : conn.level = aaLevel1
  authCtx : conn.authCtx = ⟨some .otpToken, some ⟨cnt, alice⟩⟩
  quiet : ∀ id, Quiet (conn.calls id)

def submitGuess (id : CallId) : List Action :=
  [.call id (.otpToken "000000"), .failover id false .invalid]

def guess (id : CallId) : List Action :=
  submitGuess id ++ [.tokenVerified id, .otpDelayed id]

def guessing (conn : Connection) (id : CallId) : Connection :=
  (conn.suspend id (.called (.otpToken "000000"))).suspend id (.verifying "alice" "000000")

def guessed (conn : Connection) (id : CallId) (cnt : ℕ) : Connection :=
  ((guessing conn id).tokenVerified id "alice" "000000" false).otpDelayed id (some ⟨cnt, alice⟩)

variable {conn : Connection} {id : CallId} {cnt : ℕ}

theorem serial_of_none {verify : String → String → Bool} {action : Action}
    (hnone : submitted verify conn action = none) : Serial verify conn action := by
  intro hsome
  rw [hnone] at hsome
  cases hsome

theorem Waiting.failover (hwait : Waiting cnt conn) :
    step oneToken (conn.suspend id (.called (.otpToken "000000")))
        (.failover id false .invalid) = some (guessing conn id) := by
  simp [step, suspend, checkAuthMechanism, startMechanism, hwait.level,
    hwait.authCtx, guessing, LoginData.mechanism, alice,
    show aalAuthMechanismCheck .otpToken aaLevel1 = true from rfl]

/-- The actions take the connection to `next` and submit `count` tokens, one
after another, with the attempt of `alice` still going on. -/
structure Guesses (count : ℕ) (conn : Connection) (actions : List Action)
    (next : Connection) : Prop where
  run_eq : run (step oneToken) conn actions = some next
  serial : EveryStep (step oneToken) (Serial oneToken) conn actions
  goesOn : EveryStep (step oneToken)
    (fun conn action => ¬ AttemptEnds oneToken "alice" conn action) conn actions
  submissions_eq : submissions oneToken "alice" conn actions = count

theorem submissions_append {verify : String → String → Bool}
    {username : String} {middle : Connection} {first rest : List Action}
    (hrun : run (step verify) conn first = some middle) :
    submissions verify username conn (first ++ rest) = submissions verify username conn first +
        submissions verify username middle rest := by
  induction first generalizing conn with
  | nil =>
    simp only [run_nil, Option.some.injEq] at hrun
    subst middle
    simp [submissions]
  | cons action first ih =>
    obtain ⟨next, hnext, hrun⟩ := run_cons_eq_some_iff.mp hrun
    simp only [List.cons_append, submissions, hnext, ih hrun]
    exact (Nat.add_assoc _ _ _).symm

theorem Guesses.append {middle next : Connection} {first rest : List Action}
    {count more : ℕ} (hfirst : Guesses count conn first middle)
    (hrest : Guesses more middle rest next) :
    Guesses (count + more) conn (first ++ rest) next := by
  constructor
  · rw [run_append, hfirst.run_eq]
    exact hrest.run_eq
  · exact everyStep_append hfirst.serial hfirst.run_eq hrest.serial
  · exact everyStep_append hfirst.goesOn hfirst.run_eq hrest.goesOn
  · rw [submissions_append hfirst.run_eq, hfirst.submissions_eq, hrest.submissions_eq]

@[simp] theorem guessing_calls (conn : Connection) (id : CallId) :
    (guessing conn id).calls = Function.update conn.calls id (.verifying "alice" "000000") := by
  simp [guessing, suspend]

theorem Waiting.guesses_submit (hwait : Waiting cnt conn) (hidle : conn.calls id = .idle) :
    Guesses 1 conn (submitGuess id) (guessing conn id) := by
  have hcall : step oneToken conn (.call id (.otpToken "000000")) =
      some (conn.suspend id (.called (.otpToken "000000"))) := by
    simp [step, hidle]
  have hsubmitted : submitted oneToken (conn.suspend id (.called (.otpToken "000000")))
      (.failover id false .invalid) = some "alice" := by
    simp [submitted, hwait.failover]
  constructor
  · simp [submitGuess, run, hcall, hwait.failover]
  · apply everyStep_cons (serial_of_none rfl) hcall
    apply everyStep_cons ?_ hwait.failover ?_
    · intro _ other
      simp only [suspend, update_apply]
      split_ifs
      · trivial
      · exact hwait.quiet other
    · trivial
  · apply everyStep_cons (fun hends => hends) hcall
    apply everyStep_cons ?_ hwait.failover ?_
    · rintro ⟨next, hnext, _, hnone⟩
      rw [hwait.failover] at hnext
      cases hnext
      simp [guessing, suspend, hwait.authCtx] at hnone
    · trivial
  · have hnone : submitted oneToken conn (.call id (.otpToken "000000")) = none := rfl
    simp [submissions, submitGuess, hcall, hwait.failover, hsubmitted, hnone]

theorem Waiting.guesses (hwait : Waiting cnt conn) (hidle : conn.calls id = .idle) :
    Guesses 1 conn (guess id) (guessed conn id cnt) := by
  have hctx : (guessing conn id).authCtx.authData = some ⟨cnt, alice⟩ := by
    simp [guessing, suspend, hwait.authCtx]
  have hverified : step oneToken (guessing conn id) (.tokenVerified id) =
      some ((guessing conn id).tokenVerified id "alice" "000000" false) := by
    simp [step, oneToken]
  have hdelayed : step oneToken ((guessing conn id).tokenVerified id "alice" "000000" false)
      (.otpDelayed id) = some (guessed conn id cnt) := by
    simp [step, tokenVerified, suspend, guessed, hctx]
  have hrejected : Guesses 0 (guessing conn id)
      [.tokenVerified id, .otpDelayed id] (guessed conn id cnt) := by
    constructor
    · simp [run, hverified, hdelayed]
    · apply everyStep_cons (serial_of_none rfl) hverified
      exact everyStep_cons (serial_of_none rfl) hdelayed trivial
    · apply everyStep_cons ?_ hverified
      · exact everyStep_cons (fun hends => hends) hdelayed trivial
      · rintro ⟨token, hcall, haccepted⟩
        simp at hcall
        subst token
        cases haccepted
    · simp [submissions, submitted, hverified, hdelayed]
  exact (hwait.guesses_submit hidle).append hrejected

theorem guessed_calls (hcnt : cnt < maxOtpAttempts) : (guessed conn id cnt).calls =
    Function.update conn.calls id (.answered (.otpRequired "alice")) := by
  simp [guessed, otpDelayed, hcnt, tokenVerified, suspend, setContext, record, alice]

theorem Waiting.guessed (hwait : Waiting cnt conn) (hcnt : cnt < maxOtpAttempts) :
    Waiting (cnt + 1) (guessed conn id cnt) := by
  constructor
  · rw [← hwait.level]
    simp [Connection.guessed, otpDelayed, hcnt, tokenVerified, suspend,
      setContext, record, guessing]
  · simp [Connection.guessed, otpDelayed, hcnt, suspend, setContext]
  · intro other
    rw [guessed_calls hcnt, update_apply]
    split_ifs
    · trivial
    · exact hwait.quiet other

def wrongTokens : ℕ → List Action
  | 0 => []
  | count + 1 => wrongTokens count ++ guess (count + 1)

theorem Waiting.exists_guesses (hwait : Waiting 0 conn)
    (hidle : ∀ id, 0 < id → conn.calls id = .idle) (count : ℕ)
    (hcount : count ≤ maxOtpAttempts) :
    ∃ next, Guesses count conn (wrongTokens count) next ∧ Waiting count next ∧
      ∀ id, count < id → next.calls id = .idle := by
  induction count with
  | zero => exact ⟨conn, ⟨rfl, trivial, trivial, rfl⟩, hwait, hidle⟩
  | succ count ih =>
    obtain ⟨next, hguesses, hnext, hfresh⟩ := ih (Nat.le_of_succ_le hcount)
    have hround := hnext.guesses (hfresh (count + 1) (Nat.lt_succ_self count))
    refine ⟨_, hguesses.append hround, hnext.guessed hcount, ?_⟩
    intro id hid
    rw [guessed_calls hcount, update_of_ne (Nat.ne_of_gt hid)]
    exact hfresh id (Nat.lt_of_succ_lt hid)

def alicePassword : List Action :=
  [.call 0 (.passwordPlain "alice" "secret"), .failover 0 false .invalid]

def aliceDemand : Action := .passwordChecked 0 true (.success alice)

theorem serial_alicePassword {start : Connection} {actions : List Action}
    (hrun : run (step oneToken) (init aaLevel1) (alicePassword ++ [aliceDemand]) = some start)
    (hserial : EveryStep (step oneToken) (Serial oneToken) start actions) :
    EveryStep (step oneToken) (Serial oneToken) (init aaLevel1)
      (alicePassword ++ aliceDemand :: actions) := by
  apply everyStep_append _ hrun hserial
  apply everyStep_cons (serial_of_none rfl) rfl
  apply everyStep_cons (serial_of_none rfl) rfl
  exact everyStep_cons (serial_of_none rfl) rfl trivial

theorem exists_aliceDemand : ∃ conn start,
    run (step oneToken) (init aaLevel1) alicePassword = some conn ∧
    OtpDemanded oneToken "alice" conn aliceDemand start ∧
    run (step oneToken) (init aaLevel1) (alicePassword ++ [aliceDemand]) = some start ∧
    Waiting 0 start ∧ ∀ id, 0 < id → start.calls id = .idle := by
  refine ⟨_, _, rfl, ⟨rfl, 0, true, alice, rfl, rfl⟩, rfl, ⟨rfl, rfl, ?_⟩, ?_⟩
  · intro id
    cases id with
    | zero => trivial
    | succ id => trivial
  · intro id hid
    cases id with
    | zero => cases hid
    | succ id => rfl

theorem twoGuesses_submissions_le : ∃ conn start next,
    run (step oneToken) (init aaLevel1) alicePassword = some conn ∧
    OtpDemanded oneToken "alice" conn aliceDemand start ∧
    Guesses 2 start (wrongTokens 2) next ∧
    submissions oneToken "alice" start (wrongTokens 2) ≤ maxOtpAttempts + 1 := by
  obtain ⟨conn, start, hconn, hdemand, hrun, hwait, hidle⟩ := exists_aliceDemand
  obtain ⟨next, hguesses, _⟩ := hwait.exists_guesses hidle 2 (by decide)
  refine ⟨conn, start, next, hconn, hdemand, hguesses, ?_⟩
  exact otp_submissions_le hconn hdemand (serial_alicePassword hrun hguesses.serial) hguesses.goesOn

/-- Four wrong tokens one after another are all verified. -/
theorem fourGuesses_submissions_gt : ∃ conn start next,
    run (step oneToken) (init aaLevel1) alicePassword = some conn ∧
    OtpDemanded oneToken "alice" conn aliceDemand start ∧
    run (step oneToken) start (wrongTokens 3 ++ submitGuess 4) = some next ∧
    EveryStep (step oneToken)
      (fun conn action => ¬ AttemptEnds oneToken "alice" conn action) start
      (wrongTokens 3 ++ submitGuess 4) ∧
    maxOtpAttempts < submissions oneToken "alice" start (wrongTokens 3 ++ submitGuess 4) := by
  obtain ⟨conn, start, hconn, hdemand, _, hwait, hidle⟩ := exists_aliceDemand
  obtain ⟨middle, hguesses, hlast, hfresh⟩ := hwait.exists_guesses hidle 3 (by decide)
  have hall := hguesses.append (hlast.guesses_submit (hfresh 4 (by decide)))
  refine ⟨conn, start, _, hconn, hdemand, hall.run_eq, hall.goesOn, ?_⟩
  rw [hall.submissions_eq]
  decide

end

end Middlewared.Connection
