import Middlewared.ConnectionOrigin
import Middlewared.Dict
import Middlewared.PyString
import Middlewared.TransitionSystem

/-!
# Rate limiting of unauthenticated calls

A method that needs no authentication counts its callers: each method and remote address has an
entry in one global cache, and `authorizeMethodCall` refuses a call when its entry was used too
often or when the cache is full.
-/

namespace Middlewared.RateLimit

open Dict Option TransitionSystem

namespace RateLimitConfig

def maxCalls : ℕ := 20

def maxPeriod : ℕ := 60

def maxCacheEntries : ℕ := 100

def separator : String := "_##_"

end RateLimitConfig

open RateLimitConfig

structure RateLimitObject where
  numTimesCalled : ℕ
  lastReset : ℚ

abbrev RlCache := Dict String RateLimitObject

def cacheKey (methodName ip : String) : String :=
  methodName ++ separator ++ ip

def rateLimitExceeded (cache : RlCache) (now : ℚ) (methodName ip : String) :
    RlCache × Bool :=
  let key := cacheKey methodName ip
  match cache.get? key with
  | none => (cache, false)
  | some entry =>
    let entry : RateLimitObject :=
      if (maxPeriod : ℚ) - (now - entry.lastReset) ≤ 0 then ⟨0, now⟩
      else entry
    let entry := { entry with numTimesCalled := entry.numTimesCalled + 1 }
    (cache.set key entry, maxCalls < entry.numTimesCalled)

def countedAddress (origin : Option ConnectionOrigin) : Option String :=
  match origin with
  | none => none
  | some origin =>
    if origin.isHaConnection || origin.isUnixFamily ||
        origin.remAddr.isNone || origin.remPort.isNone then none
    else origin.remAddr

def add (cache : RlCache) (now : ℚ) (methodName : String)
    (origin : Option ConnectionOrigin) : RlCache × Option String :=
  match countedAddress origin with
  | none => (cache, none)
  | some address =>
    let key := cacheKey methodName address
    (if key ∈ cache then cache else cache.set key ⟨0, now⟩, some address)

def cachePop (cache : RlCache) (methodName ip : String) : RlCache :=
  cache.erase (cacheKey methodName ip)

def cacheClear (_cache : RlCache) : RlCache :=
  Dict.empty

def maxEntriesReached (cache : RlCache) : Bool :=
  cache.size = maxCacheEntries

inductive AuthorizeErrno where
  | ebusy
  | enotauthenticated
  | eacces

structure AuthorizeError where
  errmsg : String
  errno : AuthorizeErrno

/-- What `authorize_method_call` asks of the credentials of a session. -/
structure AppCredentials where
  isUserSession : Bool
  authorize : String → Bool
  isValid : Bool

structure App where
  authenticatedCredentials : Option AppCredentials
  origin : Option ConnectionOrigin

structure MethodObj where
  name : String
  noAuthRequired : Bool := false
  rateLimit : Bool := true
  noAuthzRequired : Bool := false

def rateLimitError : AuthorizeError where
  errmsg := "Rate Limit Exceeded"
  errno := .ebusy

def authorizeAuthenticated (app : App) (method : MethodObj) :
    Except AuthorizeError Unit :=
  match app.authenticatedCredentials with
  | none => .error ⟨"Not authenticated", .enotauthenticated⟩
  | some credentials =>
    if credentials.isUserSession && method.noAuthzRequired then .ok ()
    else if !credentials.authorize method.name then
      if credentials.isUserSession && !credentials.isValid then
        .error ⟨"Session is expired", .eacces⟩
      else .error ⟨"Not authorized", .eacces⟩
    else .ok ()

/-- Both elements of the tuple given to `any` are evaluated, so the call is
counted also when the cache is full.  The clock is read once by `add` and once
by `rateLimitExceeded`. -/
def authorizeMethodCall (cache : RlCache) (added tested : ℚ) (app : App)
    (method : MethodObj) : RlCache × Except AuthorizeError Unit :=
  if method.noAuthRequired then
    if app.authenticatedCredentials.isSome then (cache, .ok ())
    else if !method.rateLimit then (cache, .ok ())
    else
      match add cache added method.name app.origin with
      | (cache, none) => (cache, .ok ())
      | (cache, some ipAdded) =>
        let full := maxEntriesReached cache
        let (cache, exceeded) :=
          rateLimitExceeded cache tested method.name ipAdded
        if full || exceeded then (cache, .error rateLimitError)
        else (cache, .ok ())
  else (cache, authorizeAuthenticated app method)

def rateLimitedKey (app : App) (method : MethodObj) : Option String :=
  if method.noAuthRequired && app.authenticatedCredentials.isNone && method.rateLimit then
    (countedAddress app.origin).map (cacheKey method.name)
  else none

inductive Action where
  | request (added tested : ℚ) (app : App) (method : MethodObj)
  | cachePop (methodName ip : String)
  | cacheClear

structure State where
  cache : RlCache
  clock : ℚ

def initial (clock : ℚ) : State where
  cache := Dict.empty
  clock := clock

def step (s : State) : Action → Option State
  | .request added tested app method =>
    if s.clock ≤ added ∧ added ≤ tested then
      some { cache := (authorizeMethodCall s.cache added tested app method).1, clock := tested }
    else none
  | .cachePop methodName ip =>
    some { s with cache := RateLimit.cachePop s.cache methodName ip }
  | .cacheClear => some { s with cache := RateLimit.cacheClear s.cache }

/-- A request that is subject to rate limiting brings a new key only while
there is room for it. -/
def KeyFits (s : State) : Action → Prop
  | .request _ _ app method =>
    ∀ key, rateLimitedKey app method = some key → maxCacheEntries ≤ s.cache.size → key ∈ s.cache
  | .cachePop _ _ => True
  | .cacheClear => True

/-! ## The size of the cache -/

section

variable {cache : RlCache} {app : App} {method : MethodObj} {key : String}

theorem mem_rateLimitExceeded (cache : RlCache) (now : ℚ) (methodName ip : String) :
    key ∈ (rateLimitExceeded cache now methodName ip).1 ↔ key ∈ cache := by
  unfold rateLimitExceeded
  cases hget : cache.get? (cacheKey methodName ip) with
  | none => simp only [hget]
  | some entry =>
    simp only [hget, mem_set_iff, or_iff_right_iff_imp]
    intro hkey
    rw [hkey]
    exact mem_of_get?_eq_some hget

theorem size_rateLimitExceeded (cache : RlCache) (now : ℚ) (methodName ip : String) :
    (rateLimitExceeded cache now methodName ip).1.size = cache.size := by
  unfold rateLimitExceeded
  cases hget : cache.get? (cacheKey methodName ip) with
  | none => simp only [hget]
  | some entry =>
    simp only [hget]
    exact size_set_of_mem (mem_of_get?_eq_some hget) _

theorem authorizeMethodCall_of_none (hkey : rateLimitedKey app method = none) (added tested : ℚ) :
    (authorizeMethodCall cache added tested app method).1 = cache := by
  unfold rateLimitedKey at hkey
  unfold authorizeMethodCall
  cases hauth : method.noAuthRequired with
  | false => simp
  | true =>
    cases hcredentials : app.authenticatedCredentials with
    | some credentials => simp
    | none =>
      cases hlimit : method.rateLimit with
      | false => simp
      | true =>
        have hcounted : countedAddress app.origin = none := by
          simpa [hauth, hcredentials, hlimit] using hkey
        simp [add, hcounted]

theorem authorizeMethodCall_of_some (cache : RlCache)
    (hkey : rateLimitedKey app method = some key) (added tested : ℚ) :
    ∃ address entered, key = cacheKey method.name address ∧
      entered = (if key ∈ cache then cache else cache.set key ⟨0, added⟩) ∧
      authorizeMethodCall cache added tested app method =
        ((rateLimitExceeded entered tested method.name address).1, if maxEntriesReached entered ||
              (rateLimitExceeded entered tested method.name address).2 then
            .error rateLimitError
          else .ok ()) := by
  unfold rateLimitedKey at hkey
  split at hkey
  · rename_i hlimited
    simp only [Bool.and_eq_true, isNone_iff_eq_none] at hlimited
    obtain ⟨address, hcounted, hkey⟩ := map_eq_some_iff.mp hkey
    subst key
    refine ⟨address, _, rfl, rfl, ?_⟩
    simp only [authorizeMethodCall, add, hlimited, hcounted, if_true,
      isSome_none, Bool.not_true, Bool.false_eq_true, if_false]
    rw [apply_ite (Prod.mk _)]
  · cases hkey

variable (hkey : rateLimitedKey app method = some key)

include hkey

theorem authorizeMethodCall_size_of_some (added tested : ℚ) :
    (authorizeMethodCall cache added tested app method).1.size =
      if key ∈ cache then cache.size else cache.size + 1 := by
  obtain ⟨address, entered, -, hentered, hcall⟩ :=
    authorizeMethodCall_of_some cache hkey added tested
  rw [hcall, size_rateLimitExceeded, hentered]
  by_cases hmem : key ∈ cache
  · rw [if_pos hmem, if_pos hmem]
  · rw [if_neg hmem, if_neg hmem, size_set_of_not_mem hmem]

theorem mem_authorizeMethodCall_of_some {other : String} {added tested : ℚ} :
    other ∈ (authorizeMethodCall cache added tested app method).1 ↔
      other = key ∨ other ∈ cache := by
  obtain ⟨address, entered, -, hentered, hcall⟩ :=
    authorizeMethodCall_of_some cache hkey added tested
  rw [hcall, mem_rateLimitExceeded, hentered]
  by_cases hmem : key ∈ cache
  · rw [if_pos hmem, or_iff_right_of_imp]
    intro heq
    rw [heq]
    exact hmem
  · rw [if_neg hmem, mem_set_iff]

theorem authorizeMethodCall_refused (hmem : key ∈ cache)
    (hfull : cache.size = maxCacheEntries) (added tested : ℚ) :
    (authorizeMethodCall cache added tested app method).2 = .error rateLimitError := by
  obtain ⟨address, entered, -, hentered, hcall⟩ :=
    authorizeMethodCall_of_some cache hkey added tested
  rw [if_pos hmem] at hentered
  subst entered
  have hreached : maxEntriesReached cache = true := by
    simpa [maxEntriesReached] using hfull
  rw [hcall, hreached]
  simp

omit hkey in
theorem rateLimitExceeded_new (cache : RlCache) (added tested : ℚ) (methodName ip : String) :
    (rateLimitExceeded (cache.set (cacheKey methodName ip) ⟨0, added⟩) tested
      methodName ip).2 = false := by
  simp only [rateLimitExceeded, get?_set_self, decide_eq_false_iff_not, not_lt]
  split <;> simp [maxCalls]

theorem authorizeMethodCall_new (hmem : key ∉ cache) (added tested : ℚ) :
    (authorizeMethodCall cache added tested app method).2 =
      if cache.size + 1 = maxCacheEntries then .error rateLimitError
      else .ok () := by
  obtain ⟨address, entered, haddress, hentered, hcall⟩ :=
    authorizeMethodCall_of_some cache hkey added tested
  rw [if_neg hmem] at hentered
  subst entered
  rw [hcall]
  simp only [maxEntriesReached, size_set_of_not_mem hmem]
  rw [haddress, rateLimitExceeded_new]
  simp

end

theorem step_size_le_iff {s next : State} {a : Action}
    (hsize : s.cache.size ≤ maxCacheEntries) (hstep : step s a = some next) :
    next.cache.size ≤ maxCacheEntries ↔ KeyFits s a := by
  cases a with
  | request added tested app method =>
    obtain ⟨_, hnext⟩ := ite_some_none_eq_some.mp hstep
    subst next
    simp only [KeyFits]
    cases hkey : rateLimitedKey app method with
    | none =>
      rw [authorizeMethodCall_of_none hkey]
      simpa using hsize
    | some key =>
      rw [authorizeMethodCall_size_of_some hkey]
      simp only [some.injEq, forall_eq']
      by_cases hmem : key ∈ s.cache
      · simpa [hmem] using hsize
      · simp only [hmem, if_false, imp_false]
        omega
  | cachePop methodName ip =>
    simp only [step, some.injEq] at hstep
    subst next
    have hle := size_erase_le s.cache (cacheKey methodName ip)
    simpa [KeyFits, cachePop] using hle.trans hsize
  | cacheClear =>
    simp only [step, some.injEq] at hstep
    subst next
    simp [KeyFits, cacheClear]

def BoundedAlong (start : State) (actions : List Action) : Prop :=
  ∀ k u, run step start (actions.take k) = some u → u.cache.size ≤ maxCacheEntries

/-- Whenever a request that is subject to rate limiting meets a cache that
holds the maximal number of keys, it is refused. -/
def FailsClosedAlong (start : State) (actions : List Action) : Prop :=
  ∀ k u added tested app method key, run step start (actions.take k) = some u →
    actions[k]? = some (.request added tested app method) →
    rateLimitedKey app method = some key →
    maxCacheEntries ≤ u.cache.size →
    (authorizeMethodCall u.cache added tested app method).2 = .error rateLimitError

theorem boundedAlong_iff {clock : ℚ} {actions : List Action} {s : State}
    (hrun : run step (initial clock) actions = some s) :
    BoundedAlong (initial clock) actions ↔
      EveryStep step KeyFits (initial clock) actions := by
  symm
  apply everyStep_iff_forall_take (fun _ => True)
    (fun _ _ _ _ _ => trivial) _ trivial _ hrun
  · intro u a next _ hsize hstep
    exact step_size_le_iff hsize hstep
  · exact Nat.zero_le maxCacheEntries

/-- The cache stays bounded and fails closed in exactly the runs in which no
new key arrives at a full cache. -/
theorem bounded_and_failsClosed_iff {clock : ℚ} {actions : List Action} {s : State}
    (hrun : run step (initial clock) actions = some s) :
    BoundedAlong (initial clock) actions ∧ FailsClosedAlong (initial clock) actions ↔
      EveryStep step KeyFits (initial clock) actions := by
  rw [← boundedAlong_iff hrun]
  constructor
  · intro hboth
    exact hboth.1
  · intro hbounded
    constructor
    · exact hbounded
    · intro k u added tested app method key hu hget hkey hfull
      have hfits : KeyFits u (.request added tested app method) :=
        ((boundedAlong_iff hrun).mp hbounded).of_getElem? hu hget
      have hsize : u.cache.size = maxCacheEntries := by
        have hle := hbounded k u hu
        omega
      exact authorizeMethodCall_refused hkey (hfits key hkey hfull) hsize added tested

/-! ## How often a key is let through -/

section

variable {cache : RlCache} {app : App} {method : MethodObj} {key : String}
  {s next : State} {a : Action} {finish : ℚ}

def State.letsThrough (s : State) (key : String) : Action → Bool
  | .request added tested app method => rateLimitedKey app method = some key &&
      (authorizeMethodCall s.cache added tested app method).2.isOk
  | .cachePop _ _ | .cacheClear => false

/-- How many requests of a run are counted under the key and let through. -/
def letThrough (key : String) : State → List Action → ℕ
  | _, [] => 0
  | s, a :: rest => (step s a).elim 0 fun next =>
      (if s.letsThrough key a then 1 else 0) + letThrough key next rest

/-- The request comes before the given time, and the entry of the key is not
taken out of the cache. -/
def KeepsKey (key : String) (finish : ℚ) : Action → Prop
  | .request _ tested _ _ => tested < finish
  | .cachePop methodName ip => key ≠ cacheKey methodName ip
  | .cacheClear => False

/-- How many more requests an entry can let through before the given time: its
count may be set back once more. -/
def remaining (finish : ℚ) : Option RateLimitObject → ℕ
  | none => maxCalls
  | some entry => maxCalls - entry.numTimesCalled +
      if finish ≤ entry.lastReset + maxPeriod then 0 else maxCalls

theorem remaining_le (finish : ℚ) (entry : Option RateLimitObject) :
    remaining finish entry ≤ 2 * maxCalls := by
  cases entry with
  | none => simp [remaining, maxCalls]
  | some entry =>
    simp only [remaining]
    split <;> omega

theorem rateLimitExceeded_remaining {methodName ip : String} {tested : ℚ}
    {entry : RateLimitObject} (hentry : cache.get? (cacheKey methodName ip) = some entry)
    (hbefore : tested < finish) (hwindow : finish ≤ tested + maxPeriod) :
    (if (rateLimitExceeded cache tested methodName ip).2 then 0 else 1) + remaining finish
        ((rateLimitExceeded cache tested methodName ip).1.get? (cacheKey methodName ip)) ≤
      remaining finish (some entry) := by
  simp only [rateLimitExceeded, hentry, get?_set_self, remaining, decide_eq_true_eq]
  by_cases hreset : (maxPeriod : ℚ) - (tested - entry.lastReset) ≤ 0
  · -- the count is set back, for the last time before `finish`
    have hlate : ¬ finish ≤ entry.lastReset + maxPeriod := by linarith
    simp [hreset, hlate, hwindow, maxCalls]
  · simp only [hreset, if_false]
    split <;> omega

theorem get?_authorizeMethodCall_of_ne {added tested : ℚ} {other : String}
    (hkey : rateLimitedKey app method = some other) (hne : key ≠ other) :
    (authorizeMethodCall cache added tested app method).1.get? key = cache.get? key := by
  obtain ⟨address, entered, rfl, hentered, hcall⟩ :=
    authorizeMethodCall_of_some cache hkey added tested
  have hsame : entered.get? key = cache.get? key := by
    rw [hentered]
    split
    · rfl
    · exact get?_set_of_ne cache hne _
  rw [hcall, ← hsame]
  simp only [rateLimitExceeded]
  cases entered.get? (cacheKey method.name address) with
  | none => rfl
  | some entry => exact get?_set_of_ne entered hne _

theorem authorizeMethodCall_remaining {added tested : ℚ}
    (hkey : rateLimitedKey app method = some key) (hclock : added ≤ tested)
    (hbefore : tested < finish) (hwindow : finish ≤ added + maxPeriod) :
    (if (authorizeMethodCall cache added tested app method).2.isOk then 1 else 0) +
        remaining finish ((authorizeMethodCall cache added tested app method).1.get? key) ≤
      remaining finish (cache.get? key) := by
  obtain ⟨address, entered, rfl, hentered, hcall⟩ :=
    authorizeMethodCall_of_some cache hkey added tested
  have hlater : finish ≤ tested + maxPeriod := by linarith
  obtain ⟨entry, hentry, hle⟩ : ∃ entry,
      entered.get? (cacheKey method.name address) = some entry ∧
      remaining finish (some entry) ≤
        remaining finish (cache.get? (cacheKey method.name address)) := by
    by_cases hmem : cacheKey method.name address ∈ cache
    · rw [if_pos hmem] at hentered
      obtain ⟨entry, hentry⟩ := exists_get?_of_mem hmem
      exact ⟨entry, hentered ▸ hentry, by rw [hentry]⟩
    · rw [if_neg hmem] at hentered
      refine ⟨⟨0, added⟩, by rw [hentered, get?_set_self], ?_⟩
      rw [get?_eq_none_iff.mpr hmem]
      simp [remaining, hwindow]
  have hok : (if (authorizeMethodCall cache added tested app method).2.isOk then 1 else 0) ≤
      if (rateLimitExceeded entered tested method.name address).2 then 0 else 1 := by
    rw [hcall]
    split_ifs <;> simp_all [Except.isOk, Except.toBool]
  refine (Nat.add_le_add_right hok _).trans ?_
  rw [hcall]
  exact (rateLimitExceeded_remaining hentry hbefore hlater).trans hle

theorem step_remaining (hwindow : finish ≤ s.clock + maxPeriod) (hkeeps : KeepsKey key finish a)
    (hstep : step s a = some next) : finish ≤ next.clock + maxPeriod ∧
    (if s.letsThrough key a then 1 else 0) + remaining finish (next.cache.get? key) ≤
      remaining finish (s.cache.get? key) := by
  cases a with
  | request added tested app method =>
    obtain ⟨⟨hadded, htested⟩, rfl⟩ := ite_some_none_eq_some.mp hstep
    refine ⟨by simp only; linarith, ?_⟩
    simp only [State.letsThrough]
    rcases eq_none_or_eq_some (rateLimitedKey app method) with hlimited | ⟨other, hlimited⟩
    · simp [hlimited, authorizeMethodCall_of_none hlimited]
    · by_cases hother : key = other
      · subst other
        simpa [hlimited] using authorizeMethodCall_remaining hlimited htested hkeeps (by linarith)
      · have hne : ¬ other = key := Ne.symm hother
        simp [hlimited, hne, get?_authorizeMethodCall_of_ne hlimited hother]
  | cachePop methodName ip =>
    simp only [step, some.injEq] at hstep
    subst next
    have hne : key ≠ cacheKey methodName ip := hkeeps
    simp [State.letsThrough, cachePop, get?_erase, hne, hwindow]
  | cacheClear => exact hkeeps.elim

theorem letThrough_add_le {actions : List Action} (hwindow : finish ≤ s.clock + maxPeriod)
    (hkeeps : ∀ a ∈ actions, KeepsKey key finish a) :
    letThrough key s actions ≤ remaining finish (s.cache.get? key) := by
  induction actions generalizing s with
  | nil => exact Nat.zero_le _
  | cons a rest ih =>
    rw [List.forall_mem_cons] at hkeeps
    rw [letThrough]
    cases hstep : step s a with
    | none => exact Nat.zero_le _
    | some next =>
      obtain ⟨hnext, hstep⟩ := step_remaining hwindow hkeeps.1 hstep
      have hrest := ih hnext hkeeps.2
      simp only [elim_some]
      omega

/-- Within one period, and as long as its entry is left in the cache, a key is
let through at most twice as often as `max_calls` says, and no more often than
that if it is new. -/
theorem letThrough_le {actions : List Action}
    (hkeeps : ∀ a ∈ actions, KeepsKey key (s.clock + maxPeriod) a) :
    letThrough key s actions ≤ 2 * maxCalls ∧
      (key ∉ s.cache → letThrough key s actions ≤ maxCalls) := by
  have hle := letThrough_add_le le_rfl hkeeps
  refine ⟨hle.trans (remaining_le _ _), ?_⟩
  intro hnew
  rwa [get?_eq_none_iff.mpr hnew] at hle

end

def remoteApp (address : String) : App where
  authenticatedCredentials := none
  origin := some { family := .inet, remAddr := some address, remPort := some 50000 }

def loginMethod : MethodObj where
  name := "auth.login_ex"
  noAuthRequired := true

theorem letThrough_le_retry : letThrough (cacheKey "auth.login_ex" "10.0.0.1") (initial 0)
    [.request 1 2 (remoteApp "10.0.0.1") loginMethod,
      .request 3 3 (remoteApp "10.0.0.1") loginMethod] ≤ maxCalls := by
  have hkeeps : ∀ a ∈ [.request 1 2 (remoteApp "10.0.0.1") loginMethod,
      .request 3 3 (remoteApp "10.0.0.1") loginMethod],
      KeepsKey (cacheKey "auth.login_ex" "10.0.0.1") ((initial 0).clock + maxPeriod) a := by
    norm_num [KeepsKey, initial, maxPeriod]
  exact (letThrough_le hkeeps).2 (get?_eq_none_iff.mp rfl)

def hostAddress (host : ℕ) : String :=
  "10.0.0." ++ toString host

/-- One request from each of `n` different addresses. -/
def crowd (n : ℕ) : List Action :=
  (List.range n).map fun host =>
    .request 0 0 (remoteApp (hostAddress host)) loginMethod

theorem rateLimitedKey_host (host : ℕ) : rateLimitedKey (remoteApp (hostAddress host)) loginMethod =
    some (cacheKey "auth.login_ex" (hostAddress host)) := by
  simp [rateLimitedKey, loginMethod, remoteApp, countedAddress,
    ConnectionOrigin.isHaConnection, ConnectionOrigin.isUnixFamily]

theorem cacheKey_host_injective {host other : ℕ}
    (heq : cacheKey "auth.login_ex" (hostAddress host) =
      cacheKey "auth.login_ex" (hostAddress other)) : host = other := by
  have hsuffix : toString host = toString other := by
    simpa [cacheKey, hostAddress, String.append_assoc, String.append_right_inj] using heq
  exact PyString.toString_injective hsuffix

theorem run_crowd (n : ℕ) : ∃ s, run step (initial 0) (crowd n) = some s ∧
    s.clock = 0 ∧ s.cache.size = n ∧
    ∀ host, cacheKey "auth.login_ex" (hostAddress host) ∈ s.cache ↔ host < n := by
  induction n with
  | zero =>
    refine ⟨initial 0, rfl, rfl, rfl, ?_⟩
    intro host
    simp [initial, Dict.mem_def, Dict.keys, Dict.empty]
  | succ n ih =>
    obtain ⟨s, hrun, hclock, hsize, hmem⟩ := ih
    have hnew : cacheKey "auth.login_ex" (hostAddress n) ∉ s.cache := by
      rw [hmem n]
      exact lt_irrefl n
    refine ⟨⟨(authorizeMethodCall s.cache 0 0 (remoteApp (hostAddress n))
      loginMethod).1, 0⟩, ?_, rfl, ?_, ?_⟩
    · simp only [crowd, List.range_succ, List.map_append, run_append]
      rw [← crowd, hrun]
      simp [run, step, hclock]
    · rw [authorizeMethodCall_size_of_some (rateLimitedKey_host n), if_neg hnew, hsize]
    · intro host
      rw [mem_authorizeMethodCall_of_some (rateLimitedKey_host n), hmem host,
        Nat.lt_succ_iff_lt_or_eq, or_comm]
      refine or_congr_right ⟨cacheKey_host_injective, ?_⟩
      intro heq
      rw [heq]

theorem boundedAlong_crowd {n : ℕ} (hn : n ≤ maxCacheEntries) :
    BoundedAlong (initial 0) (crowd n) := by
  intro k u hu
  obtain ⟨s, hrun, -, hsize, -⟩ := run_crowd (min k n)
  have hsame : (crowd n).take k = crowd (min k n) := by
    rw [crowd, ← List.map_take, List.take_range]
    rfl
  rw [hsame, hrun, some.injEq] at hu
  rw [← hu, hsize]
  exact (Nat.min_le_right k n).trans hn

/-- The cache is full when an address of it asks again and is then forgotten. -/
def fullThenAgain : List Action :=
  crowd maxCacheEntries ++ [.request 1 2 (remoteApp (hostAddress 7)) loginMethod,
    .cachePop "auth.login_ex" (hostAddress 7)]

theorem bounded_and_failsClosed_full :
    (∃ s, run step (initial 0) (crowd maxCacheEntries) = some s ∧
      s.cache.size = maxCacheEntries) ∧
    BoundedAlong (initial 0) fullThenAgain ∧ FailsClosedAlong (initial 0) fullThenAgain := by
  obtain ⟨full, hfull, hclock, hsize, hmem⟩ := run_crowd maxCacheEntries
  have hready : full.clock ≤ 1 ∧ (1 : ℚ) ≤ 2 := by
    rw [hclock]
    decide
  have hrun : ∃ s, run step (initial 0) fullThenAgain = some s := by
    rw [fullThenAgain, run_append, hfull]
    simp [run, step, hready]
  obtain ⟨final, hrun⟩ := hrun
  refine ⟨⟨full, hfull, hsize⟩, (bounded_and_failsClosed_iff hrun).mpr ?_⟩
  refine everyStep_append ((boundedAlong_iff hfull).mp (boundedAlong_crowd le_rfl)) hfull ?_
  refine ⟨?_, fun _ _ => ⟨trivial, fun _ _ => trivial⟩⟩
  intro key hkey _
  rw [rateLimitedKey_host, some.injEq] at hkey
  rw [← hkey, hmem]
  decide

/-- The hundred and first address is let in, and the cache is over its maximum. -/
theorem crowd_overflows : ¬ BoundedAlong (initial 0) (crowd 101) ∧
    ¬ FailsClosedAlong (initial 0) (crowd 101) := by
  obtain ⟨full, hfull, -, hsize, hmem⟩ := run_crowd 100
  obtain ⟨crowded, hcrowded, -, hcrowdedSize, -⟩ := run_crowd 101
  constructor
  · intro hbounded
    have hle := hbounded 101 crowded
      (by rw [List.take_of_length_le (by simp [crowd])]; exact hcrowded)
    rw [hcrowdedSize] at hle
    exact absurd hle (by decide)
  · intro hclosed
    have hrefused := hclosed 100 full 0 0 (remoteApp (hostAddress 100))
      loginMethod _ (by simpa [crowd, ← List.map_take] using hfull)
      (by simp [crowd]) (rateLimitedKey_host 100) hsize.ge
    have hnew : cacheKey "auth.login_ex" (hostAddress 100) ∉ full.cache := by
      rw [hmem]
      exact lt_irrefl 100
    rw [authorizeMethodCall_new (rateLimitedKey_host 100) hnew, hsize] at hrefused
    cases hrefused

end Middlewared.RateLimit
