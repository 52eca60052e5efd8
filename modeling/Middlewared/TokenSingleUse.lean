import Middlewared.TokenManager

/-!
# Tokens for a single use

Between its lookup and its destruction a token can be looked up again.
-/

namespace Middlewared.TokenState

open Dict Option TransitionSystem

variable {tokenId : String} {s next : TokenState}

def Holds (s : TokenState) (call : ℕ) (tokenId : String) : Prop :=
  ∃ held, s.pending.get? call = some held ∧ held.token.token = tokenId

def NoHolder (tokenId : String) (s : TokenState) : Prop :=
  ∀ call, ¬ s.Holds call tokenId

/-- No call looks the token up while another call has it, and the audit of a
login with the token goes through. -/
def Undisturbed (tokenId : String) (s : TokenState) : Action → Prop
  | .begin _ wanted origin now =>
    wanted = tokenId → (s.manager.get now wanted origin).2.isSome → NoHolder tokenId s
  | .finish call ok =>
    ∀ internal token, s.pending.get? call = some ⟨.loginEx internal, token⟩ →
        token.token = tokenId → ok = true
  | .create _ | .logout _ | .destroyBySessionId _ | .notifyUsed _ _ => True

instance (tokenId : String) (s : TokenState) :
    Decidable (NoHolder tokenId s) :=
  decidable_of_iff (∀ entry ∈ s.pending.entries, entry.2.token.token ≠ tokenId) (by
      constructor
      · rintro hall call ⟨held, hget, htoken⟩
        exact hall (call, held) (Dict.mem_entries_iff.mpr hget) htoken
      · rintro hnone ⟨call, held⟩ hentry htoken
        exact hnone call ⟨held, Dict.mem_entries_iff.mp hentry, htoken⟩)

instance (tokenId : String) (s : TokenState) (a : Action) :
    Decidable (Undisturbed tokenId s a) :=
  match a with
  | .begin _ wanted origin now =>
    inferInstanceAs (Decidable (wanted = tokenId →
      (s.manager.get now wanted origin).2.isSome → NoHolder tokenId s))
  | .finish call ok =>
    match hget : s.pending.get? call with
    | none => isTrue (by simp [Undisturbed, hget])
    | some ⟨.loginEx internal, token⟩ =>
      decidable_of_iff (token.token = tokenId → ok = true) (by simp [Undisturbed, hget])
    | some ⟨.getToken, token⟩ => isTrue (by simp [Undisturbed, hget])
    | some ⟨.getTokenForAction, token⟩ => isTrue (by simp [Undisturbed, hget])
    | some ⟨.getTokenForShellApplication, token⟩ =>
      isTrue (by simp [Undisturbed, hget])
  | .create _ | .logout _ | .destroyBySessionId _ | .notifyUsed _ _ =>
    isTrue trivial

def Derives (first second : TokenManager) : Prop :=
  ∀ tokenId token, second.tokens.get? tokenId = some token →
    ∃ old, first.tokens.get? tokenId = some old ∧ old.singleUse = token.singleUse

theorem Derives.refl (manager : TokenManager) : Derives manager manager :=
  fun _ token htoken => ⟨token, htoken, rfl⟩

theorem derives_erase (manager : TokenManager) (wanted : String) :
    Derives manager (manager.erase wanted) := by
  intro tokenId token htoken
  simp only [TokenManager.erase, get?_erase] at htoken
  split at htoken
  · cases htoken
  · exact ⟨token, htoken, rfl⟩

theorem derives_destroyBySessionId (manager : TokenManager) (sessionId : String) :
    Derives manager (manager.destroyBySessionId sessionId) := by
  intro tokenId token htoken
  have hmem := List.mem_of_mem_filter (mem_entries_iff.mpr htoken)
  exact ⟨token, mem_entries_iff.mp hmem, rfl⟩

theorem derives_notifyUsed (manager : TokenManager) (wanted : String)
    (now : ℚ) : Derives manager (manager.notifyUsed wanted now) := by
  intro tokenId token htoken
  unfold TokenManager.notifyUsed at htoken
  cases hget : manager.tokens.get? wanted with
  | none =>
    rw [hget] at htoken
    exact ⟨token, htoken, rfl⟩
  | some old =>
    have hkey := manager.keyed (wanted, old) (mem_entries_iff.mpr hget)
    simp only [hget, TokenManager.insert, get?_set] at htoken
    split at htoken
    · rename_i hsame
      cases htoken
      rw [hsame, hkey]
      exact ⟨old, hget, rfl⟩
    · exact ⟨token, htoken, rfl⟩

theorem get_cases (manager : TokenManager) (now : ℚ) (wanted : String)
    (origin : Option ConnectionOrigin) :
    (∃ token, manager.get now wanted origin = (manager, some token) ∧
        manager.tokens.get? wanted = some token ∧ token.token = wanted) ∨
      (manager.get now wanted origin).2 = none ∧
        Derives manager (manager.get now wanted origin).1 := by
  unfold TokenManager.get
  cases hget : manager.tokens.get? wanted with
  | none => exact .inr ⟨rfl, .refl manager⟩
  | some token =>
    have hkey := manager.keyed (wanted, token) (mem_entries_iff.mpr hget)
    simp only
    split
    · exact .inr ⟨rfl, derives_erase manager token.token⟩
    · split
      · exact .inl ⟨token, rfl, rfl, hkey⟩
      · exact .inr ⟨rfl, .refl manager⟩
      · split
        · exact .inl ⟨token, rfl, rfl, hkey⟩
        · exact .inr ⟨rfl, .refl manager⟩

structure Tracked (tokenId : String) (s : TokenState) : Prop where
  stored : ∀ token, s.manager.tokens.get? tokenId = some token → token.singleUse = true
  held : ∀ call held, s.pending.get? call = some held →
    held.token.token = tokenId → held.token.singleUse = true
  calls : ∀ call ∈ s.pending, call < s.nextCall
  unissued : tokenId ∉ s.issued → tokenId ∉ s.manager.tokens ∧ NoHolder tokenId s ∧
      s.succeeded.count tokenId = 0

theorem Tracked.not_mem_of_derives {first second : TokenManager}
    (hderives : Derives first second) (habsent : tokenId ∉ first.tokens) :
    tokenId ∉ second.tokens := by
  intro hmem
  obtain ⟨token, htoken⟩ := exists_get?_of_mem hmem
  obtain ⟨old, hold, _⟩ := hderives tokenId token htoken
  exact habsent (mem_of_get?_eq_some hold)

theorem Tracked.derive (htracked : Tracked tokenId s)
    {manager : TokenManager} (hderives : Derives s.manager manager) :
    Tracked tokenId { s with manager } := by
  constructor
  · intro token htoken
    obtain ⟨old, hold, hsame⟩ := hderives tokenId token htoken
    rw [← hsame]
    exact htracked.stored old hold
  · exact htracked.held
  · exact htracked.calls
  · intro hunissued
    obtain ⟨habsent, hnone, hcount⟩ := htracked.unissued hunissued
    exact ⟨Tracked.not_mem_of_derives hderives habsent, hnone, hcount⟩

def OnlyHolder (tokenId : String) (s : TokenState) (call : ℕ) : Prop :=
  ∀ other, s.Holds other tokenId ↔ other = call

inductive UsePhase (tokenId : String) (s : TokenState) : Prop where
  | unused (hnone : NoHolder tokenId s) (hcount : s.succeeded.count tokenId = 0)
  | held (call : ℕ) (honly : OnlyHolder tokenId s call)
      (hkind : ∀ held, s.pending.get? call = some held → ∀ internal, held.call ≠ .loginEx internal)
      (hcount : s.succeeded.count tokenId = 0)
  | loggedIn (call : ℕ) (honly : OnlyHolder tokenId s call)
      (hkind : ∀ held, s.pending.get? call = some held → ∃ internal, held.call = .loginEx internal)
      (hcount : s.succeeded.count tokenId = 1)
  | used (hnone : NoHolder tokenId s) (hcount : s.succeeded.count tokenId = 1)
      (habsent : tokenId ∉ s.manager.tokens)

theorem UsePhase.count_le (hphase : UsePhase tokenId s) : s.succeeded.count tokenId ≤ 1 := by
  cases hphase with
  | unused hnone hcount => omega
  | held call honly hkind hcount => omega
  | loggedIn call honly hkind hcount => omega
  | used hnone hcount habsent => omega

structure Untouched (tokenId : String) (s next : TokenState) : Prop where
  pending : ∀ call held, held.token.token = tokenId →
    (next.pending.get? call = some held ↔ s.pending.get? call = some held)
  count : next.succeeded.count tokenId = s.succeeded.count tokenId
  absent : tokenId ∉ s.manager.tokens → tokenId ∉ next.manager.tokens

theorem Untouched.holds_iff (huntouched : Untouched tokenId s next)
    (call : ℕ) : next.Holds call tokenId ↔ s.Holds call tokenId := by
  constructor
  · rintro ⟨held, hget, htoken⟩
    exact ⟨held, (huntouched.pending call held htoken).mp hget, htoken⟩
  · rintro ⟨held, hget, htoken⟩
    exact ⟨held, (huntouched.pending call held htoken).mpr hget, htoken⟩

variable {call : ℕ}

theorem OnlyHolder.get? (honly : OnlyHolder tokenId s call) :
    ∃ held, s.pending.get? call = some held ∧ held.token.token = tokenId :=
  (honly call).mpr rfl

theorem UsePhase.untouched (hphase : UsePhase tokenId s)
    (huntouched : Untouched tokenId s next) : UsePhase tokenId next := by
  have hnone : NoHolder tokenId s → NoHolder tokenId next := by
    intro hnone call hholds
    exact hnone call ((huntouched.holds_iff call).mp hholds)
  have honly : ∀ call, OnlyHolder tokenId s call → OnlyHolder tokenId next call := by
    intro call honly other
    exact (huntouched.holds_iff other).trans (honly other)
  have hheld : ∀ call, OnlyHolder tokenId s call → ∀ held,
      next.pending.get? call = some held → s.pending.get? call = some held := by
    intro call honly held hget
    obtain ⟨old, hold, htoken⟩ := honly.get?
    have hsame := (huntouched.pending call old htoken).mpr hold
    rw [hget, some.injEq] at hsame
    rw [hsame]
    exact hold
  cases hphase with
  | unused h hcount => exact .unused (hnone h) (huntouched.count.trans hcount)
  | held call h hkind hcount =>
    exact .held call (honly call h) (fun held hget => hkind held (hheld call h held hget))
      (huntouched.count.trans hcount)
  | loggedIn call h hkind hcount =>
    exact .loggedIn call (honly call h) (fun held hget => hkind held (hheld call h held hget))
      (huntouched.count.trans hcount)
  | used h hcount habsent =>
    exact .used (hnone h) (huntouched.count.trans hcount) (huntouched.absent habsent)

/-! ## What a call can do -/

theorem proceed_cases (s : TokenState) (call : TokenCall) (token : Token) :
    proceed s call token = s ∨ (∃ internal, call = .loginEx internal ∧
        (proceed s call token = (s.succeed token).destroyIfSingleUse token ∨
          proceed s call token = (s.succeed token).hold call token)) ∨
      (∀ internal, call ≠ .loginEx internal) ∧ proceed s call token = s.hold call token := by
  cases call with
  | loginEx internal =>
    simp only [proceed]
    split
    · exact .inl rfl
    · split
      · exact .inr (.inl ⟨internal, rfl, .inl rfl⟩)
      · exact .inr (.inl ⟨internal, rfl, .inr rfl⟩)
  | getToken => exact .inr (.inr ⟨by simp, rfl⟩)
  | getTokenForAction =>
    simp only [proceed]
    split
    · exact .inl rfl
    · exact .inr (.inr ⟨by simp, rfl⟩)
  | getTokenForShellApplication =>
    simp only [proceed]
    split
    · exact .inl rfl
    · split
      · exact .inr (.inr ⟨by simp, rfl⟩)
      · exact .inl rfl

theorem complete_cases (s : TokenState) (held : HeldToken) (ok : Bool) :
    (∃ internal, held.call = .loginEx internal ∧
        complete s held ok = if ok then s.destroyIfSingleUse held.token else s) ∨
      (∀ internal, held.call ≠ .loginEx internal) ∧ (complete s held ok = s ∨ complete s held ok =
            (s.destroyIfSingleUse held.token).succeed held.token) := by
  unfold complete
  cases hcall : held.call with
  | loginEx internal => exact .inl ⟨internal, rfl, rfl⟩
  | getToken => exact .inr ⟨by simp, .inr rfl⟩
  | getTokenForShellApplication => exact .inr ⟨by simp, .inr rfl⟩
  | getTokenForAction =>
    right
    constructor
    · simp
    · cases ok
      · exact .inl rfl
      · exact .inr rfl

section

variable (s) (token : Token)

theorem derives_destroyIfSingleUse : Derives s.manager (s.destroyIfSingleUse token).manager := by
  unfold destroyIfSingleUse
  split
  · exact derives_erase s.manager token.token
  · exact .refl s.manager

@[simp] theorem destroyIfSingleUse_pending :
    (s.destroyIfSingleUse token).pending = s.pending := by
  unfold destroyIfSingleUse
  split <;> rfl

@[simp] theorem destroyIfSingleUse_succeeded :
    (s.destroyIfSingleUse token).succeeded = s.succeeded := by
  unfold destroyIfSingleUse
  split <;> rfl

@[simp] theorem destroyIfSingleUse_issued :
    (s.destroyIfSingleUse token).issued = s.issued := by
  unfold destroyIfSingleUse
  split <;> rfl

@[simp] theorem destroyIfSingleUse_nextCall :
    (s.destroyIfSingleUse token).nextCall = s.nextCall := by
  unfold destroyIfSingleUse
  split <;> rfl

variable {s} {token}

theorem destroyIfSingleUse_absent (hsingle : token.singleUse = true) :
    token.token ∉ (s.destroyIfSingleUse token).manager.tokens := by
  rw [destroyIfSingleUse, if_pos hsingle]
  simp [TokenManager.destroy, TokenManager.erase, mem_erase_iff]

theorem untouched_of_ne (htracked : Tracked tokenId s) (call : TokenCall)
    (hne : token.token ≠ tokenId) :
    Untouched tokenId s (proceed s call token) := by
  have hpending : ∀ other held, held.token.token = tokenId →
      ((s.hold call token).pending.get? other = some held ↔ s.pending.get? other = some held) := by
    intro other held hheld
    have hnew : s.nextCall ∉ s.pending := by
      intro hmem
      exact absurd (htracked.calls s.nextCall hmem) (by omega)
    simp only [hold, get?_set]
    by_cases hother : other = s.nextCall
    · rw [if_pos hother, hother, get?_eq_none_iff.mpr hnew]
      constructor
      · intro hsome
        cases hsome
        exact absurd hheld hne
      · intro hsome
        cases hsome
    · rw [if_neg hother]
  have hcount : (s.succeed token).succeeded.count tokenId = s.succeeded.count tokenId := by
    simp [succeed, hne]
  rcases proceed_cases s call token with
    hsame | ⟨internal, _, hdestroyed | hheld⟩ | ⟨_, hheld⟩
  · rw [hsame]
    exact ⟨fun _ _ _ => Iff.rfl, rfl, id⟩
  · rw [hdestroyed]
    constructor
    · intro other held _
      rw [destroyIfSingleUse_pending]
      rfl
    · rw [destroyIfSingleUse_succeeded]
      exact hcount
    · exact Tracked.not_mem_of_derives (derives_destroyIfSingleUse (s.succeed token) token)
  · rw [hheld]
    exact ⟨hpending, hcount, id⟩
  · rw [hheld]
    exact ⟨hpending, rfl, id⟩

theorem onlyHolder_hold (hnone : NoHolder token.token s) (call : TokenCall) :
    OnlyHolder token.token (s.hold call token) s.nextCall := by
  intro other
  simp only [Holds, hold, get?_set]
  constructor
  · rintro ⟨held, hget, hheld⟩
    by_cases hother : other = s.nextCall
    · exact hother
    · rw [if_neg hother] at hget
      exact absurd ⟨held, hget, hheld⟩ (hnone other)
  · intro hother
    exact ⟨⟨call, token⟩, by rw [if_pos hother], rfl⟩

theorem usePhase_proceed (hnone : NoHolder token.token s)
    (hcount : s.succeeded.count token.token = 0)
    (hsingle : token.singleUse = true) (call : TokenCall) :
    UsePhase token.token (proceed s call token) := by
  have hone : (s.succeed token).succeeded.count token.token = 1 := by
    simp [succeed, hcount]
  rcases proceed_cases s call token with
    hsame | ⟨internal, hcall, hdestroyed | hheld⟩ | ⟨hcall, hheld⟩
  · rw [hsame]
    exact .unused hnone hcount
  · rw [hdestroyed]
    apply UsePhase.used
    · intro other
      simp only [Holds, destroyIfSingleUse_pending]
      exact hnone other
    · rw [destroyIfSingleUse_succeeded]
      exact hone
    · exact destroyIfSingleUse_absent hsingle
  · rw [hheld]
    refine .loggedIn s.nextCall ?_ ?_ hone
    · exact onlyHolder_hold (s := s.succeed token) hnone call
    · intro held hget
      have hself : (⟨call, token⟩ : HeldToken) = held := by
        simpa [hold, succeed] using hget
      exact ⟨internal, by rw [← hself, hcall]⟩
  · rw [hheld]
    refine .held s.nextCall (onlyHolder_hold hnone call) ?_ hcount
    intro held hget
    have hself : (⟨call, token⟩ : HeldToken) = held := by
      simpa [hold] using hget
    rw [← hself]
    exact hcall

theorem usePhase_complete {held : HeldToken} {ok : Bool} (hnone : NoHolder held.token.token s)
    (hsingle : held.token.singleUse = true)
    (hlogin : (∃ internal, held.call = .loginEx internal) →
      ok = true ∧ s.succeeded.count held.token.token = 1)
    (hother : (∀ internal, held.call ≠ .loginEx internal) →
      s.succeeded.count held.token.token = 0) :
    UsePhase held.token.token (complete s held ok) := by
  have hdestroyed : NoHolder held.token.token (s.destroyIfSingleUse held.token) := by
    intro call
    simp only [Holds, destroyIfSingleUse_pending]
    exact hnone call
  rcases complete_cases s held ok with
    ⟨internal, hcall, hend⟩ | ⟨hcall, hsame | hend⟩
  · obtain ⟨hok, hcount⟩ := hlogin ⟨internal, hcall⟩
    rw [hend, if_pos hok]
    apply UsePhase.used hdestroyed _ (destroyIfSingleUse_absent hsingle)
    rw [destroyIfSingleUse_succeeded]
    exact hcount
  · rw [hsame]
    exact .unused hnone (hother hcall)
  · rw [hend]
    refine .used hdestroyed ?_ (destroyIfSingleUse_absent hsingle)
    simp [succeed, hother hcall]

end

/-! ## Every step -/

variable {token : Token} {held : HeldToken}

theorem proceed_pending {call : TokenCall} {other : ℕ}
    (hget : (proceed s call token).pending.get? other = some held) :
    s.pending.get? other = some held ∨ other = s.nextCall ∧ held = ⟨call, token⟩ := by
  have hhold : ∀ t : TokenState, t.nextCall = s.nextCall → t.pending = s.pending →
      (t.hold call token).pending.get? other = some held →
      s.pending.get? other = some held ∨ other = s.nextCall ∧ held = ⟨call, token⟩ := by
    intro t hnext hpending hheld
    simp only [hold, get?_set, hnext, hpending] at hheld
    split at hheld
    · rename_i hother
      cases hheld
      exact .inr ⟨hother, rfl⟩
    · exact .inl hheld
  rcases proceed_cases s call token with
    hsame | ⟨internal, _, hdestroyed | hheld⟩ | ⟨_, hheld⟩
  · rw [hsame] at hget
    exact .inl hget
  · rw [hdestroyed, destroyIfSingleUse_pending] at hget
    exact .inl hget
  · rw [hheld] at hget
    exact hhold (s.succeed token) rfl rfl hget
  · rw [hheld] at hget
    exact hhold s rfl rfl hget

theorem proceed_issued (s : TokenState) (call : TokenCall) (token : Token) :
    (proceed s call token).issued = s.issued := by
  rcases proceed_cases s call token with
    hsame | ⟨internal, _, hdestroyed | hheld⟩ | ⟨_, hheld⟩
  · rw [hsame]
  · rw [hdestroyed, destroyIfSingleUse_issued]
    rfl
  · rw [hheld]
    rfl
  · rw [hheld]
    rfl

theorem derives_proceed (s : TokenState) (call : TokenCall) (token : Token) :
    Derives s.manager (proceed s call token).manager := by
  rcases proceed_cases s call token with
    hsame | ⟨internal, _, hdestroyed | hheld⟩ | ⟨_, hheld⟩
  · rw [hsame]
    exact .refl s.manager
  · rw [hdestroyed]
    exact derives_destroyIfSingleUse (s.succeed token) token
  · rw [hheld]
    exact .refl s.manager
  · rw [hheld]
    exact .refl s.manager

theorem Tracked.proceed (htracked : Tracked tokenId s)
    (hget : s.manager.tokens.get? token.token = some token) (call : TokenCall) :
    Tracked tokenId { proceed s call token with nextCall := s.nextCall + 1 } := by
  constructor
  · intro stored hstored
    obtain ⟨old, hold, hsame⟩ := derives_proceed s call token tokenId stored hstored
    rw [← hsame]
    exact htracked.stored old hold
  · intro other held hheld htoken
    rcases proceed_pending hheld with hold | ⟨_, hnew⟩
    · exact htracked.held other held hold htoken
    · subst held
      subst tokenId
      exact htracked.stored token hget
  · intro other hmem
    obtain ⟨held, hheld⟩ := exists_get?_of_mem hmem
    rcases proceed_pending hheld with hold | ⟨hnew, _⟩
    · have hlt := htracked.calls other (mem_of_get?_eq_some hold)
      simp only
      omega
    · simp only
      omega
  · intro hunissued
    simp only [proceed_issued] at hunissued
    obtain ⟨habsent, hnone, hcount⟩ := htracked.unissued hunissued
    have hne : token.token ≠ tokenId := by
      rintro rfl
      exact habsent (mem_of_get?_eq_some hget)
    have huntouched := untouched_of_ne htracked call hne
    refine ⟨huntouched.absent habsent, ?_, huntouched.count.trans hcount⟩
    intro other hholds
    exact hnone other ((huntouched.holds_iff other).mp hholds)

structure CompleteFrame (s next : TokenState) (token : Token) : Prop where
  manager : Derives s.manager next.manager
  issued : next.issued = s.issued
  pending : next.pending = s.pending
  nextCall : next.nextCall = s.nextCall
  succeeded : ∀ tokenId, token.token ≠ tokenId →
    next.succeeded.count tokenId = s.succeeded.count tokenId

theorem completeFrame (s : TokenState) (held : HeldToken) (ok : Bool) :
    CompleteFrame s (complete s held ok) held.token := by
  have hself : CompleteFrame s s held.token := ⟨.refl s.manager, rfl, rfl, rfl, fun _ _ => rfl⟩
  have hdestroyed : CompleteFrame s (s.destroyIfSingleUse held.token) held.token := by
    constructor
    · exact derives_destroyIfSingleUse s held.token
    · simp
    · simp
    · simp
    · simp
  rcases complete_cases s held ok with ⟨internal, _, hend⟩ | ⟨_, hsame | hend⟩
  · rw [hend]
    split
    · exact hdestroyed
    · exact hself
  · rw [hsame]
    exact hself
  · rw [hend]
    refine { hdestroyed with succeeded := ?_ }
    intro tokenId hne
    simp [succeed, hne]

theorem noHolder_of_derived (hnone : NoHolder tokenId s) :
    NoHolder tokenId { s with pending := s.pending.erase call } := by
  rintro other ⟨held, hget, htoken⟩
  simp only [get?_erase] at hget
  split at hget
  · cases hget
  · exact hnone other ⟨held, hget, htoken⟩

theorem Tracked.complete (htracked : Tracked tokenId s)
    (hget : s.pending.get? call = some held) (ok : Bool) : Tracked tokenId
    (complete { s with pending := s.pending.erase call } held ok) := by
  have hframe := completeFrame { s with pending := s.pending.erase call } held ok
  constructor
  · intro stored hstored
    obtain ⟨old, hold, hsame⟩ := hframe.manager tokenId stored hstored
    rw [← hsame]
    exact htracked.stored old hold
  · intro other kept hkept htoken
    simp only [hframe.pending, get?_erase] at hkept
    split at hkept
    · cases hkept
    · exact htracked.held other kept hkept htoken
  · intro other hmem
    rw [hframe.pending, mem_erase_iff] at hmem
    rw [hframe.nextCall]
    exact htracked.calls other hmem.2
  · intro hunissued
    rw [hframe.issued] at hunissued
    obtain ⟨habsent, hnone, hcount⟩ := htracked.unissued hunissued
    have hne : held.token.token ≠ tokenId := by
      intro hsame
      exact hnone call ⟨held, hget, hsame⟩
    refine ⟨Tracked.not_mem_of_derives hframe.manager habsent, ?_,
      (hframe.succeeded tokenId hne).trans hcount⟩
    rintro other ⟨kept, hkept, htoken⟩
    rw [hframe.pending] at hkept
    exact noHolder_of_derived hnone other ⟨kept, hkept, htoken⟩

theorem untouched_complete (hget : s.pending.get? call = some held)
    (hne : held.token.token ≠ tokenId) (ok : Bool) : Untouched tokenId s
    (complete { s with pending := s.pending.erase call } held ok) := by
  have hframe := completeFrame { s with pending := s.pending.erase call } held ok
  constructor
  · intro other kept htoken
    simp only [hframe.pending, get?_erase]
    by_cases hother : other = call
    · rw [if_pos hother, hother, hget]
      constructor
      · intro hnone
        cases hnone
      · intro hsome
        cases hsome
        exact absurd htoken hne
    · rw [if_neg hother]
  · exact hframe.succeeded tokenId hne
  · exact Tracked.not_mem_of_derives hframe.manager

theorem UsePhase.complete {ok : Bool} (htracked : Tracked held.token.token s)
    (hphase : UsePhase held.token.token s)
    (hget : s.pending.get? call = some held)
    (hok : (∃ internal, held.call = .loginEx internal) → ok = true) :
    UsePhase held.token.token (complete { s with pending := s.pending.erase call } held ok) := by
  have hholds : s.Holds call held.token.token := ⟨held, hget, rfl⟩
  have hsingle := htracked.held call held hget rfl
  have hnone : ∀ only, OnlyHolder held.token.token s only → NoHolder held.token.token
        { s with pending := s.pending.erase call } := by
    rintro only honly other ⟨kept, hkept, htoken⟩
    simp only [get?_erase] at hkept
    split at hkept
    · cases hkept
    · rename_i hother
      have hfirst := (honly other).mp ⟨kept, hkept, htoken⟩
      have hsecond := (honly call).mp hholds
      exact hother (hfirst.trans hsecond.symm)
  cases hphase with
  | unused hno hcount => exact absurd hholds (hno call)
  | used hno hcount habsent => exact absurd hholds (hno call)
  | held only honly hkind hcount =>
    have hcall := (honly call).mp hholds
    subst only
    apply usePhase_complete (hnone call honly) hsingle
    · rintro ⟨internal, hlogin⟩
      exact absurd hlogin (hkind held hget internal)
    · intro _
      exact hcount
  | loggedIn only honly hkind hcount =>
    have hcall := (honly call).mp hholds
    subst only
    apply usePhase_complete (hnone call honly) hsingle
    · intro hlogin
      exact ⟨hok hlogin, hcount⟩
    · intro hother
      obtain ⟨internal, hlogin⟩ := hkind held hget
      exact absurd hlogin (hother internal)

structure SingleUse (tokenId : String) (s : TokenState) : Prop where
  tracked : Tracked tokenId s
  phase : UsePhase tokenId s

theorem SingleUse.initial (tokenId : String) : SingleUse tokenId TokenState.initial := by
  have hnone : NoHolder tokenId TokenState.initial := by
    rintro call ⟨held, hget, _⟩
    simp [TokenState.initial] at hget
  constructor
  · constructor
    · simp [TokenState.initial, TokenManager.empty]
    · simp [TokenState.initial]
    · simp [TokenState.initial, Dict.mem_def, Dict.keys, Dict.empty]
    · intro _
      refine ⟨?_, hnone, rfl⟩
      simp [TokenState.initial, TokenManager.empty, Dict.mem_def, Dict.keys, Dict.empty]
  · exact .unused hnone rfl

variable (hsingle : SingleUse tokenId s)

include hsingle

theorem SingleUse.derive {manager : TokenManager} (hderives : Derives s.manager manager) :
    SingleUse tokenId { s with manager } := by
  constructor
  · exact hsingle.tracked.derive hderives
  · apply hsingle.phase.untouched
    exact ⟨fun _ _ _ => Iff.rfl, rfl, Tracked.not_mem_of_derives hderives⟩

theorem SingleUse.nextCall : SingleUse tokenId { s with nextCall := s.nextCall + 1 } := by
  constructor
  · refine ⟨hsingle.tracked.stored, hsingle.tracked.held, ?_, hsingle.tracked.unissued⟩
    intro call hmem
    have hlt := hsingle.tracked.calls call hmem
    simp only
    omega
  · apply hsingle.phase.untouched
    exact ⟨fun _ _ _ => Iff.rfl, rfl, id⟩

theorem SingleUse.create (hfresh : token.token ∉ s.issued)
    (huse : token.token = tokenId → token.singleUse = true) : SingleUse tokenId { s with
    manager := s.manager.insert token
    issued := token.token :: s.issued } := by
  have hget : ∀ wanted, (s.manager.insert token).tokens.get? wanted =
      if wanted = token.token then some token
      else s.manager.tokens.get? wanted :=
    fun wanted => get?_set s.manager.tokens token.token wanted token
  constructor
  · constructor
    · intro stored hstored
      simp only [hget] at hstored
      split at hstored
      · rename_i hsame
        cases hstored
        exact huse hsame.symm
      · exact hsingle.tracked.stored stored hstored
    · exact hsingle.tracked.held
    · exact hsingle.tracked.calls
    · intro hunissued
      simp only [List.mem_cons, not_or] at hunissued
      obtain ⟨habsent, hnone, hcount⟩ := hsingle.tracked.unissued hunissued.2
      refine ⟨?_, hnone, hcount⟩
      rw [← get?_eq_none_iff, hget, if_neg hunissued.1, get?_eq_none_iff]
      exact habsent
  · by_cases hsame : token.token = tokenId
    · subst tokenId
      obtain ⟨_, hnone, hcount⟩ := hsingle.tracked.unissued hfresh
      exact .unused hnone hcount
    · apply hsingle.phase.untouched
      refine ⟨fun _ _ _ => Iff.rfl, rfl, ?_⟩
      intro habsent
      rw [← get?_eq_none_iff, hget, if_neg (Ne.symm hsame), get?_eq_none_iff]
      exact habsent

theorem SingleUse.proceed (hget : s.manager.tokens.get? token.token = some token)
    (hnone : token.token = tokenId → NoHolder tokenId s) (call : TokenCall) :
    SingleUse tokenId { proceed s call token with nextCall := s.nextCall + 1 } := by
  constructor
  · exact hsingle.tracked.proceed hget call
  · have hphase : UsePhase tokenId (TokenState.proceed s call token) := by
      by_cases hsame : token.token = tokenId
      · subst tokenId
        have hno := hnone rfl
        have huse := hsingle.tracked.stored token hget
        cases hsingle.phase with
        | unused _ hcount => exact usePhase_proceed hno hcount huse call
        | held only honly _ _ =>
          exact absurd ((honly only).mpr rfl) (hno only)
        | loggedIn only honly _ _ =>
          exact absurd ((honly only).mpr rfl) (hno only)
        | used _ _ habsent =>
          exact absurd (mem_of_get?_eq_some hget) habsent
      · exact hsingle.phase.untouched (untouched_of_ne hsingle.tracked call hsame)
    exact hphase.untouched ⟨fun _ _ _ => Iff.rfl, rfl, id⟩

theorem SingleUse.step {a : Action}
    (huse : ∀ token, a = .create token → token.token = tokenId → token.singleUse = true)
    (hundisturbed : Undisturbed tokenId s a) (hstep : step s a = some next) :
    SingleUse tokenId next := by
  cases a with
  | create token =>
    simp only [TokenState.step, ite_none_left_eq_some, some.injEq] at hstep
    obtain ⟨hfresh, rfl⟩ := hstep
    exact hsingle.create hfresh (huse token rfl)
  | begin call wanted origin now =>
    simp only [TokenState.step] at hstep
    rcases get_cases s.manager now wanted origin with
      ⟨token, hfound, hget, hkey⟩ | ⟨hnone, hderives⟩
    · rw [hfound] at hstep
      simp only [some.injEq] at hstep
      subst next
      subst wanted
      apply hsingle.proceed hget
      intro hsame
      exact hundisturbed hsame (by rw [hfound]; rfl)
    · rcases hmanager : s.manager.get now wanted origin with ⟨manager, found⟩
      rw [hmanager] at hstep hnone hderives
      simp only at hnone hderives
      subst found
      simp only [some.injEq] at hstep
      subst next
      exact (hsingle.derive hderives).nextCall
  | finish call ok =>
    simp only [TokenState.step] at hstep
    cases hget : s.pending.get? call with
    | none => simp [hget] at hstep
    | some held =>
      rw [hget] at hstep
      simp only [some.injEq] at hstep
      subst next
      constructor
      · exact hsingle.tracked.complete hget ok
      · by_cases hsame : held.token.token = tokenId
        · subst tokenId
          apply hsingle.phase.complete hsingle.tracked hget
          rintro ⟨internal, hlogin⟩
          rcases held with ⟨kind, token⟩
          simp only at hlogin
          subst kind
          exact hundisturbed internal token hget rfl
        · exact hsingle.phase.untouched (untouched_complete hget hsame ok)
  | logout wanted =>
    simp only [TokenState.step, some.injEq] at hstep
    subst next
    exact hsingle.derive (derives_erase s.manager wanted)
  | destroyBySessionId sessionId =>
    simp only [TokenState.step, some.injEq] at hstep
    subst next
    exact hsingle.derive (derives_destroyBySessionId s.manager sessionId)
  | notifyUsed wanted now =>
    simp only [TokenState.step, some.injEq] at hstep
    subst next
    exact hsingle.derive (derives_notifyUsed s.manager wanted now)

omit hsingle

/-- In an undisturbed run at most one call succeeds with a token that is for a
single use. -/
theorem single_use_at_most_once {actions : List Action}
    (hrun : run step initial actions = some s)
    (huse : ∀ token, .create token ∈ actions → token.token = tokenId → token.singleUse = true)
    (hundisturbed : EveryStep step (Undisturbed tokenId) initial actions) :
    s.succeeded.count tokenId ≤ 1 := by
  have hcreated : EveryStep step
      (fun _ a => ∀ token, a = .create token → token.token = tokenId →
        token.singleUse = true) initial actions := by
    apply everyStep_of_forall_mem
    intro _ a ha token hcreate
    exact huse token (hcreate ▸ ha)
  have hsingle : SingleUse tokenId s := by
    apply run_invariant_of_everyStep _
      (SingleUse.initial tokenId) (hcreated.and hundisturbed) hrun
    intro t a next hsingle hguard hstep
    exact hsingle.step hguard.1 hguard.2 hstep
  exact hsingle.phase.count_le

/-- A token of a user session, as `generate_token` creates it. -/
private def plainToken : Token where
  token := "t"
  ttl := 600
  attributes := false
  matchOrigin := none
  root := some ⟨some "root", true⟩
  sessionIds := ["session"]
  singleUse := true
  lastUsedAt := 0

private theorem exists_run_of_count {actions : List Action} {count : ℕ}
    (hcount : (run step initial actions).map
      (fun s => s.succeeded.count "t") = some count) :
    ∃ s, run step initial actions = some s ∧ s.succeeded.count "t" = count :=
  map_eq_some_iff.mp hcount

private def lateUse : List Action :=
  [.create plainToken, .begin (.loginEx false) "t" none 1, .finish 0 true,
    .begin .getToken "t" none 2]

theorem single_use_at_most_once_lateUse : ∃ s, run step initial lateUse = some s ∧
    s.succeeded.count "t" = 1 ∧ s.succeeded.count "t" ≤ 1 := by
  obtain ⟨s, hrun, hcount⟩ :=
    exists_run_of_count (show (run step initial lateUse).map
      (fun s => s.succeeded.count "t") = some 1 by decide +kernel)
  refine ⟨s, hrun, hcount, single_use_at_most_once hrun ?_ ?_⟩
  · intro token hmem _
    simp only [lateUse, List.mem_cons, Action.create.injEq, reduceCtorEq,
      List.not_mem_nil, or_false] at hmem
    rw [hmem]
    rfl
  · decide +kernel

/-- The second login comes before the first has destroyed the token. -/
theorem single_use_twice_of_overlap : ∃ s, run step initial
      [.create plainToken, .begin (.loginEx false) "t" none 1,
        .begin (.loginEx false) "t" none 2, .finish 0 true,
        .finish 1 true] = some s ∧
    s.succeeded.count "t" = 2 :=
  exists_run_of_count (by decide +kernel)

end Middlewared.TokenState
