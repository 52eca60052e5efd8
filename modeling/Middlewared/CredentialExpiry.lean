import Mathlib.Tactic
import Middlewared.TokenManager

/-!
# Credentials that expire

The credentials of a user expire at a fixed time, and earlier when they are not used for a while.
-/

namespace Middlewared

open Option TransitionSystem

/-- What an `AuthenticatorAssuranceLevel` says about the age of a session, in
seconds. -/
structure SessionLimits where
  maxSessionAge : ℕ
  maxInactivity : Option ℕ

def aaLevel1Limits : SessionLimits := ⟨86400 * 30, none⟩

def aaLevel2Limits : SessionLimits := ⟨12 * 60 * 60, some (30 * 60)⟩

/-- `UserSessionManagerCredentials`; `allowlist` is `Allowlist.authorize` of the
user's privileges. -/
structure UserCredentials where
  assurance : Option SessionLimits
  createdAt : ℚ
  lastUsedAt : ℚ
  allowlist : String → String → Bool

namespace UserCredentials

def create (assurance : Option SessionLimits)
    (allowlist : String → String → Bool) (now : ℚ) : UserCredentials where
  assurance := assurance
  createdAt := now
  lastUsedAt := now
  allowlist := allowlist

def expiry (credentials : UserCredentials) (limits : SessionLimits) : ℚ :=
  credentials.createdAt + limits.maxSessionAge

def inactivityTimeout (limits : SessionLimits) : Option ℕ :=
  limits.maxInactivity.filter (· ≠ 0)

def isValid (credentials : UserCredentials) (now : ℚ) : Bool :=
  match credentials.assurance with
  | none => true
  | some limits =>
    if now > credentials.expiry limits then false
    else
      match inactivityTimeout limits with
      | none => true
      | some timeout => !(now > credentials.lastUsedAt + timeout)

def notifyUsed (credentials : UserCredentials) (now : ℚ) : UserCredentials :=
  match credentials.assurance.bind inactivityTimeout with
  | none => credentials
  | some timeout =>
    if now < credentials.lastUsedAt + timeout then
      { credentials with lastUsedAt := now }
    else credentials

def authorize (credentials : UserCredentials) (now : ℚ)
    (method resource : String) : Bool :=
  if !credentials.isValid now then false
  else credentials.allowlist method resource

end UserCredentials

/-- The credentials that can stand behind a token: those of a user, or those of
the other controller, which never expire and authorize everything. -/
inductive RootCredentials where
  | user (credentials : UserCredentials)
  | truenasNode

namespace RootCredentials

def isValid (root : RootCredentials) (now : ℚ) : Bool :=
  match root with
  | .user credentials => credentials.isValid now
  | .truenasNode => true

def notifyUsed (root : RootCredentials) (now : ℚ) : RootCredentials :=
  match root with
  | .user credentials => .user (credentials.notifyUsed now)
  | .truenasNode => .truenasNode

def authorize (root : RootCredentials) (now : ℚ) (method resource : String) :
    Bool :=
  match root with
  | .user credentials => credentials.authorize now method resource
  | .truenasNode => true

end RootCredentials

/-- A token and the object of its `parent_credentials`.  `TokenManager.create`
never makes a token the parent of a token, so the parent is the root. -/
structure SharedToken extends Token where
  parent : ℕ

inductive CredentialRef where
  | root (id : ℕ)
  | token (id : ℕ)
deriving DecidableEq

/-- The credential objects of all sessions.  `checked` are the sessions whose
message has passed `is_valid` and has not called `notify_used` yet. -/
structure CredentialHeap where
  clock : ℚ
  roots : ℕ → Option RootCredentials
  tokens : ℕ → Option SharedToken
  checked : List CredentialRef

namespace CredentialHeap

variable (s : CredentialHeap)

def rootOf : CredentialRef → Option ℕ
  | .root id => some id
  | .token id => (s.tokens id).map (·.parent)

def rootIsValid (id : ℕ) : Bool :=
  (s.roots id).any (·.isValid s.clock)

def tokenIsValid (id : ℕ) : Bool :=
  (s.tokens id).any (·.toToken.isValid s.clock)

def isValid (ref : CredentialRef) : Bool :=
  match ref with
  | .root id => s.rootIsValid id
  | .token id => (s.rootOf ref).any s.rootIsValid && s.tokenIsValid id

def rootAuthorize (id : ℕ) (method resource : String) : Bool :=
  (s.roots id).any (·.authorize s.clock method resource)

def authorize (ref : CredentialRef) (method resource : String) : Bool :=
  (s.rootOf ref).any (s.rootAuthorize · method resource)

def notifyRoot (id : ℕ) : CredentialHeap :=
  { s with
    roots := Function.update s.roots id
      ((s.roots id).map (·.notifyUsed s.clock)) }

def notifyToken (id : ℕ) : CredentialHeap :=
  { s with
    tokens := Function.update s.tokens id
      ((s.tokens id).map fun token => { token with lastUsedAt := s.clock }) }

def notifyUsed (ref : CredentialRef) : CredentialHeap :=
  match ref with
  | .root id => s.notifyRoot id
  | .token id =>
    match s.rootOf ref with
    | none => s
    | some root => (s.notifyRoot root).notifyToken id

def addRoot (id : ℕ) (root : RootCredentials) : Option CredentialHeap :=
  if (s.roots id).isNone then
    some { s with roots := Function.update s.roots id (some root) }
  else none

inductive Action where
  | tick (now : ℚ)
  | login (id : ℕ) (assurance : Option SessionLimits) (allowlist : String → String → Bool)
  | nodeLogin (id : ℕ)
  | generateToken (id : ℕ) (token : Token) (creator : CredentialRef)
  | message (ref : CredentialRef)
  | messageNotify (ref : CredentialRef)
  | notifyUsed (ref : CredentialRef)

/-- New objects are new: a login or a token never replaces an object that
exists.  `message` and `messageNotify` are the two halves of
`_app_on_message`. -/
def step : Action → Option CredentialHeap
  | .tick now => if s.clock ≤ now then some { s with clock := now } else none
  | .login id assurance allowlist => s.addRoot id
      (.user (UserCredentials.create assurance allowlist s.clock))
  | .nodeLogin id => s.addRoot id .truenasNode
  | .generateToken id token creator =>
    match s.tokens id, s.rootOf creator with
    | none, some parent =>
      some { s with
          tokens := Function.update s.tokens id
            (some ⟨{ token with lastUsedAt := s.clock }, parent⟩) }
    | _, _ => none
  | .message ref =>
    some (if s.isValid ref then { s with checked := ref :: s.checked } else s)
  | .messageNotify ref =>
    if ref ∈ s.checked then
      some { s.notifyUsed ref with checked := s.checked.erase ref }
    else none
  | .notifyUsed ref => some (s.notifyUsed ref)

structure ExpiryLaw (ref : CredentialRef) (s : CredentialHeap)
    (actions : List Action) : Prop where
  stays : ∀ i j u v, i ≤ j → run step s (actions.take i) = some u →
    run step s (actions.take j) = some v →
    u.isValid ref = false → v.isValid ref = false
  powerless : ∀ k u, run step s (actions.take k) = some u → u.isValid ref = false →
    ∀ method resource, u.authorize ref method resource = false

def Present (s : CredentialHeap) : CredentialRef → Prop
  | .root id => (s.roots id).isSome
  | .token id =>
    ∃ token, s.tokens id = some token ∧ (s.roots token.parent).isSome

def Lapsed (s : CredentialHeap) (id : ℕ) : Prop :=
  s.tokenIsValid id = false ∧ (s.rootOf (.token id)).any s.rootIsValid = true

def Action.notified : Action → Option CredentialRef
  | .messageNotify ref | .notifyUsed ref => some ref
  | .tick _ | .login _ _ _ | .nodeLogin _ | .generateToken _ _ _ | .message _ =>
    none

/-- A token that has lapsed is not used again; one whose time to live is not
positive is never valid anyway. -/
def NoRevival : CredentialRef → CredentialHeap → Action → Prop
  | .root _, _, _ => True
  | .token id, s, a =>
    a.notified = some (.token id) → s.Lapsed id → ∀ token, s.tokens id = some token → token.ttl ≤ 0

/-- Behind a lapsed token are the credentials of a user, with an allowlist that
allows nothing. -/
def NoLapsedPower : CredentialRef → CredentialHeap → Prop
  | .root _, _ => True
  | .token id, s =>
    s.Lapsed id → ∀ token ∈ s.tokens id, ∀ root ∈ s.roots token.parent,
      ∃ credentials, root = .user credentials ∧
        ∀ method resource, credentials.allowlist method resource = false

end CredentialHeap

namespace UserCredentials

variable {credentials : UserCredentials} {now later : ℚ}

theorem isValid_eq_false_iff : credentials.isValid now = false ↔
    ∃ limits, credentials.assurance = some limits ∧ (credentials.expiry limits < now ∨
        ∃ timeout, inactivityTimeout limits = some timeout ∧
          credentials.lastUsedAt + timeout < now) := by
  unfold isValid
  cases hlevel : credentials.assurance with
  | none => simp
  | some limits =>
    by_cases hage : now > credentials.expiry limits
    · simp [hage]
    · cases htimeout : inactivityTimeout limits with
      | none => simp [hage, htimeout]
      | some timeout => simp [hage, htimeout]

theorem isValid_mono (hinvalid : credentials.isValid now = false)
    (hle : now ≤ later) : credentials.isValid later = false := by
  rw [isValid_eq_false_iff] at hinvalid ⊢
  obtain ⟨limits, hlevel, hlate⟩ := hinvalid
  refine ⟨limits, hlevel, ?_⟩
  rcases hlate with hage | hidle
  · left
    exact lt_of_lt_of_le hage hle
  · right
    obtain ⟨timeout, htimeout, hidle⟩ := hidle
    exact ⟨timeout, htimeout, lt_of_lt_of_le hidle hle⟩

theorem notifyUsed_cases (credentials : UserCredentials) (now : ℚ) :
    credentials.notifyUsed now = credentials ∨
      ∃ limits timeout, credentials.assurance = some limits ∧
        inactivityTimeout limits = some timeout ∧
        now < credentials.lastUsedAt + timeout ∧
        credentials.notifyUsed now = { credentials with lastUsedAt := now } := by
  unfold notifyUsed
  cases hlevel : credentials.assurance with
  | none => simp
  | some limits =>
    cases htimeout : inactivityTimeout limits with
    | none => simp [htimeout]
    | some timeout =>
      by_cases hnow : now < credentials.lastUsedAt + timeout
      · right
        exact ⟨limits, timeout, rfl, htimeout, hnow, by simp [htimeout, hnow]⟩
      · left
        simp [htimeout, hnow]

theorem isValid_notifyUsed :
    (credentials.notifyUsed now).isValid now = credentials.isValid now := by
  rcases notifyUsed_cases credentials now with hsame | hused
  · rw [hsame]
  · obtain ⟨limits, timeout, hlevel, htimeout, hnow, hused⟩ := hused
    rw [hused]
    have hfresh : ¬ now > now + (timeout : ℚ) := by
      linarith
    have hstill : ¬ now > credentials.lastUsedAt + timeout := by linarith
    unfold isValid
    rw [hlevel]
    simp only [expiry, htimeout, hfresh, hstill]

end UserCredentials

namespace RootCredentials

variable {root : RootCredentials} {now later : ℚ}

theorem isValid_mono (hinvalid : root.isValid now = false)
    (hle : now ≤ later) : root.isValid later = false := by
  cases root with
  | user credentials => exact UserCredentials.isValid_mono hinvalid hle
  | truenasNode => cases hinvalid

theorem isValid_notifyUsed : (root.notifyUsed now).isValid now = root.isValid now := by
  cases root with
  | user credentials => exact UserCredentials.isValid_notifyUsed
  | truenasNode => rfl

theorem authorize_of_invalid (hinvalid : root.isValid now = false)
    (method resource : String) : root.authorize now method resource = false := by
  cases root with
  | user credentials =>
    simp only [isValid] at hinvalid
    simp [authorize, UserCredentials.authorize, hinvalid]
  | truenasNode => cases hinvalid

end RootCredentials

/-! ## What a step does -/

namespace CredentialHeap

variable {s next : CredentialHeap} {a : Action} {id : ℕ}

inductive Move (s : CredentialHeap) (a : Action) (next : CredentialHeap) : Prop
  | kept (hquiet : a.notified = none) (hclock : s.clock ≤ next.clock)
      (hroots : ∀ id root, s.roots id = some root → next.roots id = some root)
      (htokens : ∀ id token, s.tokens id = some token → next.tokens id = some token)
  | used (ref : CredentialRef) (hnotified : a.notified = some ref) (hclock : next.clock = s.clock)
      (hroots : next.roots = (s.notifyUsed ref).roots)
      (htokens : next.tokens = (s.notifyUsed ref).tokens)

theorem update_of_some {α : Type} {objects : ℕ → Option α} {new other : ℕ}
    {value object : α} (hnew : objects new = none)
    (hother : objects other = some object) :
    Function.update objects new (some value) other = some object := by
  rw [Function.update_of_ne, hother]
  intro heq
  rw [heq, hnew] at hother
  cases hother

theorem move_addRoot {root : RootCredentials} (hquiet : a.notified = none)
    (hnext : s.addRoot id root = some next) : Move s a next := by
  simp only [addRoot] at hnext
  split at hnext
  · rename_i hnew
    cases hnext
    refine Move.kept hquiet le_rfl ?_ ?_
    · intro other object hother
      exact update_of_some (isNone_iff_eq_none.mp hnew) hother
    · exact fun _ _ hkept => hkept
  · cases hnext

theorem notifyUsed_clock (ref : CredentialRef) : (s.notifyUsed ref).clock = s.clock := by
  unfold notifyUsed
  split
  · rfl
  · split <;> rfl

theorem step_move (hnext : s.step a = some next) : Move s a next := by
  cases a with
  | tick now =>
    simp only [step] at hnext
    split at hnext
    · rename_i hclock
      cases hnext
      exact Move.kept rfl hclock (fun _ _ => id) fun _ _ => id
    · cases hnext
  | login id assurance allowlist => exact move_addRoot rfl hnext
  | nodeLogin id => exact move_addRoot rfl hnext
  | generateToken id token creator =>
    simp only [step] at hnext
    split at hnext
    · rename_i hnew _
      cases hnext
      refine Move.kept rfl le_rfl ?_ ?_
      · exact fun _ _ hkept => hkept
      · intro other object hother
        exact update_of_some hnew hother
    · cases hnext
  | message ref =>
    simp only [step, some.injEq] at hnext
    rw [← hnext]
    split <;> exact Move.kept rfl le_rfl (fun _ _ => id) fun _ _ => id
  | messageNotify ref =>
    simp only [step] at hnext
    split at hnext
    · cases hnext
      exact Move.used ref rfl (notifyUsed_clock ref) rfl rfl
    · cases hnext
  | notifyUsed ref =>
    simp only [step, some.injEq] at hnext
    rw [← hnext]
    exact Move.used ref rfl (notifyUsed_clock ref) rfl rfl

theorem Move.clock_le (hmove : Move s a next) : s.clock ≤ next.clock := by
  cases hmove with
  | kept hquiet hclock hroots htokens => exact hclock
  | used ref hnotified hclock hroots htokens => exact hclock.ge

theorem notifyUsed_roots (ref : CredentialRef) {root : RootCredentials}
    (hroot : s.roots id = some root) :
    (s.notifyUsed ref).roots id =
      some (if s.rootOf ref = some id then root.notifyUsed s.clock else root) := by
  have hnotify : ∀ other, (s.notifyRoot other).roots id =
      some (if other = id then root.notifyUsed s.clock else root) := by
    intro other
    by_cases heq : other = id
    · subst heq
      simp [notifyRoot, hroot]
    · simp [notifyRoot, hroot, heq, Function.update_of_ne (Ne.symm heq)]
  cases ref with
  | root other => simpa [notifyUsed, rootOf] using hnotify other
  | token other =>
    unfold notifyUsed
    cases hparent : s.rootOf (.token other) with
    | none => simp [hroot]
    | some parent => simpa [notifyToken] using hnotify parent

theorem notifyUsed_tokens (ref : CredentialRef) {token : SharedToken}
    (htoken : s.tokens id = some token) :
    (s.notifyUsed ref).tokens id = some (if ref = .token id then
        { token with lastUsedAt := s.clock } else token) := by
  cases ref with
  | root other => simp [notifyUsed, notifyRoot, htoken]
  | token other =>
    by_cases heq : other = id
    · subst heq
      simp [notifyUsed, rootOf, notifyToken, notifyRoot, htoken]
    · unfold notifyUsed
      cases hparent : s.rootOf (.token other) with
      | none => simp [heq, htoken]
      | some parent =>
        simp [notifyToken, notifyRoot, heq, htoken, Function.update_of_ne (Ne.symm heq)]

theorem Move.root (hmove : Move s a next) {root : RootCredentials}
    (hroot : s.roots id = some root) :
    next.roots id = some root ∨ next.roots id = some (root.notifyUsed s.clock) ∧
        next.clock = s.clock := by
  cases hmove with
  | kept hquiet hclock hroots htokens => exact Or.inl (hroots id root hroot)
  | used ref hnotified hclock hroots htokens =>
    rw [hroots, notifyUsed_roots ref hroot]
    split
    · exact Or.inr ⟨rfl, hclock⟩
    · exact Or.inl rfl

theorem Move.token (hmove : Move s a next) {token : SharedToken}
    (htoken : s.tokens id = some token) :
    (a.notified ≠ some (.token id) ∧ next.tokens id = some token) ∨
      (a.notified = some (.token id) ∧ next.clock = s.clock ∧
        next.tokens id = some { token with lastUsedAt := s.clock }) := by
  cases hmove with
  | kept hquiet hclock hroots htokens =>
    left
    exact ⟨by simp [hquiet], htokens id token htoken⟩
  | used ref hnotified hclock hroots htokens =>
    rw [htokens, notifyUsed_tokens ref htoken, hnotified]
    by_cases heq : ref = .token id
    · right
      simp [heq, hclock]
    · left
      simp [heq]

/-! ## Steps and the law -/

theorem Move.rootIsValid (hmove : Move s a next)
    (hroot : (s.roots id).isSome) (hinvalid : s.rootIsValid id = false) :
    next.rootIsValid id = false := by
  obtain ⟨root, hroot⟩ := isSome_iff_exists.mp hroot
  simp only [CredentialHeap.rootIsValid, hroot, any_some] at hinvalid
  rcases hmove.root hroot with hkept | hused
  · simp only [CredentialHeap.rootIsValid, hkept, any_some]
    exact RootCredentials.isValid_mono hinvalid hmove.clock_le
  · simp only [CredentialHeap.rootIsValid, hused.1, hused.2, any_some]
    rw [RootCredentials.isValid_notifyUsed]
    exact hinvalid

theorem Move.present (hmove : Move s a next) {ref : CredentialRef}
    (hpresent : s.Present ref) : next.Present ref := by
  have hkeeps : ∀ id, (s.roots id).isSome → (next.roots id).isSome := by
    intro id hsome
    obtain ⟨root, hroot⟩ := isSome_iff_exists.mp hsome
    rcases hmove.root hroot with hkept | hused
    · simp [hkept]
    · simp [hused.1]
  cases ref with
  | root id => exact hkeeps id hpresent
  | token id =>
    obtain ⟨token, htoken, hroot⟩ := hpresent
    rcases hmove.token htoken with hkept | hused
    · exact ⟨token, hkept.2, hkeeps _ hroot⟩
    · exact ⟨_, hused.2.2, hkeeps _ hroot⟩

theorem isValid_token_eq_false_iff {token : SharedToken} (htoken : s.tokens id = some token) :
    s.isValid (.token id) = false ↔
      s.rootIsValid token.parent = false ∨ s.tokenIsValid id = false := by
  simp [isValid, rootOf, htoken, or_iff_not_imp_left]

theorem lapsed_iff {token : SharedToken} (htoken : s.tokens id = some token) : s.Lapsed id ↔
    s.tokenIsValid id = false ∧ s.rootIsValid token.parent = true := by
  simp [Lapsed, rootOf, htoken]

theorem Move.tokenIsValid_used (hmove : Move s a next) {token : SharedToken}
    (htoken : s.tokens id = some token)
    (hused : a.notified = some (.token id)) :
    next.tokenIsValid id = decide (0 < token.ttl) := by
  rcases hmove.token htoken with hkept | hnotified
  · exact absurd hused hkept.1
  · simp [tokenIsValid, hnotified.2.1, hnotified.2.2, Token.isValid]

theorem Move.tokenIsValid_kept (hmove : Move s a next) {token : SharedToken}
    (htoken : s.tokens id = some token)
    (hkept : a.notified ≠ some (.token id))
    (hinvalid : s.tokenIsValid id = false) : next.tokenIsValid id = false := by
  rcases hmove.token htoken with hsame | hused
  · simp only [tokenIsValid, htoken, any_some, Token.isValid,
      decide_eq_false_iff_not, not_lt] at hinvalid
    simp only [tokenIsValid, hsame.2, any_some, Token.isValid, decide_eq_false_iff_not, not_lt]
    exact hinvalid.trans hmove.clock_le
  · exact absurd hused.1 hkept

theorem Move.rootIsValid_used (hmove : Move s a next) {ref : CredentialRef}
    (hused : a.notified = some ref) (hroot : (s.roots id).isSome) :
    next.rootIsValid id = s.rootIsValid id := by
  obtain ⟨root, hroot⟩ := isSome_iff_exists.mp hroot
  cases hmove with
  | kept hquiet hclock hroots htokens =>
    rw [hused] at hquiet
    cases hquiet
  | used ref' hnotified hclock hroots htokens =>
    simp only [CredentialHeap.rootIsValid, hroots, hclock, hroot,
      notifyUsed_roots ref' hroot, any_some]
    split
    · exact RootCredentials.isValid_notifyUsed
    · rfl

theorem Move.stays_iff (hmove : Move s a next) {ref : CredentialRef} (hpresent : s.Present ref) :
    (s.isValid ref = false → next.isValid ref = false) ↔ NoRevival ref s a := by
  cases ref with
  | root id =>
    simp only [NoRevival, iff_true]
    exact hmove.rootIsValid hpresent
  | token id =>
    obtain ⟨token, htoken, hroot⟩ := hpresent
    obtain ⟨token', htoken', hparent⟩ : ∃ token', next.tokens id = some token' ∧
        token'.parent = token.parent := by
      rcases hmove.token htoken with hkept | hused
      · exact ⟨token, hkept.2, rfl⟩
      · exact ⟨_, hused.2.2, rfl⟩
    rw [isValid_token_eq_false_iff htoken, isValid_token_eq_false_iff htoken', hparent]
    simp only [NoRevival, lapsed_iff htoken]
    constructor
    · intro hstays hused hlapsed other hother
      have hsame : token = other := some.inj (htoken.symm.trans hother)
      rcases hstays (Or.inr hlapsed.1) with hdead | hdead
      · rw [hmove.rootIsValid_used hused hroot, hlapsed.2] at hdead
        cases hdead
      · rw [hmove.tokenIsValid_used htoken hused] at hdead
        rw [← hsame]
        simpa using hdead
    · intro hguard hinvalid
      by_cases hdead : s.rootIsValid token.parent = false
      · exact Or.inl (hmove.rootIsValid hroot hdead)
      · have hexpired := hinvalid.resolve_left hdead
        right
        by_cases hused : a.notified = some (.token id)
        · have hshort := hguard hused ⟨hexpired, by simpa using hdead⟩ token htoken
          rw [hmove.tokenIsValid_used htoken hused]
          simpa using hshort
        · exact hmove.tokenIsValid_kept htoken hused hexpired

theorem rootAuthorize_of_invalid (hinvalid : s.rootIsValid id = false)
    (method resource : String) : s.rootAuthorize id method resource = false := by
  cases hroot : s.roots id with
  | none => simp [rootAuthorize, hroot]
  | some root =>
    simp only [rootIsValid, hroot, any_some] at hinvalid
    simp only [rootAuthorize, hroot, any_some]
    exact RootCredentials.authorize_of_invalid hinvalid method resource

theorem powerless_of_valid_iff {token : SharedToken} (htoken : s.tokens id = some token)
    (hvalid : s.rootIsValid token.parent = true) :
    (∀ method resource, s.authorize (.token id) method resource = false) ↔
      ∀ root ∈ s.roots token.parent, ∃ credentials, root = .user credentials ∧
        ∀ method resource, credentials.allowlist method resource = false := by
  cases hroot : s.roots token.parent with
  | none => simp [rootIsValid, hroot] at hvalid
  | some root =>
    simp only [rootIsValid, hroot, any_some] at hvalid
    simp only [authorize, rootOf, htoken, map_some, any_some, rootAuthorize, hroot,
      Option.mem_def, some.injEq, forall_eq']
    cases root with
    | truenasNode => simp [RootCredentials.authorize]
    | user credentials =>
      have hvalid : credentials.isValid s.clock = true := hvalid
      simp [RootCredentials.authorize, UserCredentials.authorize, hvalid]

theorem powerless_iff {ref : CredentialRef} (hpresent : s.Present ref) : (s.isValid ref = false →
      ∀ method resource, s.authorize ref method resource = false) ↔
    NoLapsedPower ref s := by
  cases ref with
  | root id =>
    simp only [NoLapsedPower, iff_true]
    intro hinvalid method resource
    simpa [authorize, rootOf] using rootAuthorize_of_invalid hinvalid method resource
  | token id =>
    obtain ⟨token, htoken, hroot⟩ := hpresent
    rw [isValid_token_eq_false_iff htoken]
    simp only [NoLapsedPower, lapsed_iff htoken, htoken, Option.mem_def, some.injEq, forall_eq']
    constructor
    · intro hpowerless hlapsed
      exact (powerless_of_valid_iff htoken hlapsed.2).mp (hpowerless (Or.inr hlapsed.1))
    · intro hlapsed hinvalid
      cases hdead : s.rootIsValid token.parent with
      | false =>
        intro method resource
        simpa [authorize, rootOf, htoken] using rootAuthorize_of_invalid hdead method resource
      | true =>
        have hexpired := hinvalid.resolve_left (by simp [hdead])
        exact (powerless_of_valid_iff htoken hdead).mpr (hlapsed ⟨hexpired, hdead⟩)

/-- The credentials of a user obey the law in every run.  Those of a token
session obey it exactly when the token is not used after it has lapsed and its
root credentials authorize nothing while it is lapsed. -/
theorem expiryLaw_iff {ref : CredentialRef} {actions : List Action}
    {t : CredentialHeap} (hpresent : s.Present ref)
    (hrun : run step s actions = some t) :
    ExpiryLaw ref s actions ↔ EveryStep step (NoRevival ref) s actions ∧
        ∀ k u, run step s (actions.take k) = some u → NoLapsedPower ref u := by
  have hpresents : ∀ k u, run step s (actions.take k) = some u → u.Present ref := by
    intro k u hu
    exact run_invariant (p := fun s => s.Present ref)
      (fun s a next hs hnext => (step_move hnext).present hs) hpresent hu
  have hstays := TransitionSystem.everyStep_iff_stays (fun s => s.Present ref)
    (fun s a next hs hnext => (step_move hnext).present hs)
    (fun s a next hs hnext => (step_move hnext).stays_iff hs) hpresent hrun
  constructor
  · intro hlaw
    constructor
    · exact hstays.mpr hlaw.stays
    · intro k u hu
      exact (powerless_iff (hpresents k u hu)).mp (hlaw.powerless k u hu)
  · intro hcond
    constructor
    · exact hstays.mp hcond.1
    · intro k u hu
      exact (powerless_iff (hpresents k u hu)).mpr (hcond.2 k u hu)

def sharedHeap (limits : SessionLimits) (ttl : ℚ) : CredentialHeap where
  clock := 0
  roots := fun id =>
    if id = 0 then
      some (.user (UserCredentials.create (some limits) (fun _ _ => true) 0))
    else none
  tokens := fun id =>
    if id = 0 then
      some
        { token := "token", ttl, attributes := false
          matchOrigin := none, root := some ⟨some "admin", true⟩
          sessionIds := ["session"], singleUse := false, lastUsedAt := 0
          parent := 0 }
    else none
  checked := []

theorem sharedHeap_user_stays_expired : ∃ t, run step (sharedHeap aaLevel2Limits 3600)
      [.tick 1801, .notifyUsed (.token 0), .tick 1802] = some t ∧
    ExpiryLaw (.root 0) (sharedHeap aaLevel2Limits 3600)
      [.tick 1801, .notifyUsed (.token 0), .tick 1802] := by
  have hruns : (run step (sharedHeap aaLevel2Limits 3600)
      [.tick 1801, .notifyUsed (.token 0), .tick 1802]).isSome := by
    decide +kernel
  obtain ⟨t, hrun⟩ := isSome_iff_exists.mp hruns
  have hpresent : (sharedHeap aaLevel2Limits 3600).Present (.root 0) := by
    simp [Present, sharedHeap]
  refine ⟨t, hrun, (expiryLaw_iff hpresent hrun).mpr ⟨?_, fun _ _ _ => trivial⟩⟩
  exact everyStep_of_forall_mem fun _ _ _ => trivial

/-- A token that has lapsed still authorizes what its parent may do. -/
theorem sharedHeap_token_breaks_law :
    ¬ ExpiryLaw (.token 0) (sharedHeap aaLevel1Limits 600)
      [.tick 601, .notifyUsed (.token 0)] := by
  intro hlaw
  have hauthorized := hlaw.powerless 1
    { sharedHeap aaLevel1Limits 600 with clock := 601 } (by rfl) (by decide +kernel)
    "CALL" "system.reboot"
  revert hauthorized
  decide +kernel

end CredentialHeap

end Middlewared
