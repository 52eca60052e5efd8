import Middlewared.CallWithAudit
import Mathlib.Tactic

/-!
# One audit message for each call

An invocation awaits its message from the moment its call returns a job until the callback is
called.
-/

namespace Middlewared.AuditedJobs

open TransitionSystem Function List Option

variable {App Params : Type*}

section

variable (s : AuditedJobs App Params) (id : InvocationId)

def brief : Option (Invocation App Params × CallPhase) :=
  (s.calls id).map fun call => (call.invocation, call.phase)

def count : ℕ := s.log.countP fun entry => entry.1 = id

def AwaitsAt : CallPhase → Prop
  | .raised => False
  | .returned _ => True
  | .attached job => s.onFinishCb job = some id ∧ s.callback job = .notCalled

def Awaits : Prop :=
  ∃ invocation phase, s.brief id = some (invocation, phase) ∧ s.AwaitsAt id phase

def Encodable : Prop :=
  ∃ invocation phase, s.brief id = some (invocation, phase) ∧ invocation.encodable = true

def Missed : Prop :=
  id < s.nextCall ∧ s.count id = 0 ∧ ¬ (s.Awaits id ∧ s.Encodable id)

end

structure Valid (s : AuditedJobs App Params) : Prop where
  brief_lt : ∀ id, s.brief id ≠ none ↔ id < s.nextCall
  slot : ∀ job id, s.onFinishCb job = some id →
    ∃ invocation, s.brief id = some (invocation, .attached job)
  count_of_le : ∀ id, s.nextCall ≤ id → s.count id = 0
  count_le : ∀ id, s.count id ≤ 1
  count_of_awaits : ∀ id, s.Awaits id → s.count id = 0
  content : ∀ id message, (id, message) ∈ s.log →
    ∃ invocation phase, s.brief id = some (invocation, phase) ∧
      message.app = invocation.app ∧ message.params = invocation.params

/-! ## The steps -/

section

variable {s next : AuditedJobs App Params} {action : Action App Params}

def Appends (s next : AuditedJobs App Params) (id : InvocationId)
    (invocation : Invocation App Params) : Prop :=
  ∃ call success, call.invocation = invocation ∧ next.log = s.log ++ auditMessages id call success

inductive Move (s : AuditedJobs App Params) (action : Action App Params)
    (next : AuditedJobs App Params) : Prop
  | quiet (haction : (∀ invocation, action ≠ .callWithAudit invocation) ∧
        ∀ id, action ≠ .setOnFinishCb id)
      (hnext : next.nextCall = s.nextCall) (hbrief : next.brief = s.brief)
      (hslot : next.onFinishCb = s.onFinishCb)
      (hcallback : ∀ job, next.callback job = .notCalled ↔ s.callback job = .notCalled)
      (hlog : next.log = s.log)
  | raised (invocation : Invocation App Params) (haction : action = .callWithAudit invocation)
      (hnext : next.nextCall = s.nextCall + 1)
      (hbrief : next.brief = Function.update s.brief s.nextCall (some (invocation, .raised)))
      (hslot : next.onFinishCb = s.onFinishCb)
      (hcallback : next.callback = s.callback)
      (hlog : Appends s next s.nextCall invocation)
  | returned (invocation : Invocation App Params) (job : JobId)
      (haction : action = .callWithAudit invocation)
      (hnext : next.nextCall = s.nextCall + 1)
      (hbrief : next.brief = Function.update s.brief s.nextCall (some (invocation, .returned job)))
      (hslot : next.onFinishCb = s.onFinishCb)
      (hcallback : next.callback = s.callback)
      (hlog : next.log = s.log)
  | attached (id : InvocationId) (invocation : Invocation App Params)
      (job : JobId) (haction : action = .setOnFinishCb id)
      (hold : s.brief id = some (invocation, .returned job))
      (hnext : next.nextCall = s.nextCall)
      (hbrief : next.brief = Function.update s.brief id (some (invocation, .attached job)))
      (hslot : next.onFinishCb = Function.update s.onFinishCb job (some id))
      (hcallback : next.callback = s.callback)
      (hlog : s.callback job = .called ∧ Appends s next id invocation ∨
        s.callback job ≠ .called ∧ next.log = s.log)
  | finished (job : JobId) (haction : action = .callOnFinishCb job)
      (hold : s.callback job = .notCalled)
      (hnext : next.nextCall = s.nextCall) (hbrief : next.brief = s.brief)
      (hslot : next.onFinishCb = s.onFinishCb)
      (hcallback : next.callback = Function.update s.callback job .calling)
      (hlog : (∃ id invocation, s.onFinishCb job = some id ∧
          s.brief id = some (invocation, .attached job) ∧
          Appends s next id invocation) ∨
        s.onFinishCb job = none ∧ next.log = s.log)

theorem brief_setCall (s : AuditedJobs App Params) (id : InvocationId)
    (call : AuditedCall App Params) :
    (s.setCall id call).brief =
      Function.update s.brief id (some (call.invocation, call.phase)) := by
  funext other
  unfold brief setCall
  by_cases hother : other = id
  · simp [hother]
  · simp [hother]

theorem move_callWithAudit (s : AuditedJobs App Params) (invocation : Invocation App Params) :
    Move s (.callWithAudit invocation) (s.callWithAudit invocation) := by
  unfold callWithAudit
  simp only
  split_ifs
  · exact .raised invocation rfl rfl (brief_setCall _ _ _) rfl rfl ⟨_, _, rfl, rfl⟩
  · split
    · exact .returned invocation _ rfl rfl (brief_setCall _ _ _) rfl rfl rfl
    · exact .returned invocation _ rfl rfl (brief_setCall _ _ _) rfl rfl rfl
    · exact .raised invocation rfl rfl (brief_setCall _ _ _) rfl rfl ⟨_, _, rfl, rfl⟩

theorem move_setOnFinishCb {id : InvocationId} {call : AuditedCall App Params}
    {job : JobId} (hcall : s.calls id = some call)
    (hphase : call.phase = .returned job) :
    Move s (.setOnFinishCb id) (s.setOnFinishCb id call job) := by
  have hold : s.brief id = some (call.invocation, .returned job) := by
    simp [brief, hcall, hphase]
  unfold setOnFinishCb
  simp only
  split_ifs with hcalled
  · apply Move.attached id call.invocation job rfl hold
    all_goals simp only [jobOnFinishCb, setCall, update_self]
    · rfl
    · exact brief_setCall s id { call with phase := .attached job }
    · rfl
    · rfl
    · exact Or.inl ⟨hcalled, _, _, rfl, rfl⟩
  · exact .attached id call.invocation job rfl hold rfl
      (brief_setCall s id { call with phase := .attached job }) rfl rfl
      (Or.inr ⟨hcalled, rfl⟩)

theorem brief_auditCallback (s : AuditedJobs App Params) (job : JobId)
    (message : String) : (s.auditCallback job message).brief = s.brief := by
  unfold auditCallback
  split
  · rfl
  · split
    · rfl
    · rename_i id call hcall
      rw [brief_setCall]
      funext other
      rw [update_apply]
      split_ifs with hother
      · simp [brief, hother, hcall]
      · rfl

theorem move_auditCallback (s : AuditedJobs App Params) (job : JobId) (message : String) :
    Move s (.auditCallback job message) (s.auditCallback job message) := by
  apply Move.quiet (by simp)
  · unfold auditCallback
    split
    · rfl
    · split <;> rfl
  · exact brief_auditCallback s job message
  · unfold auditCallback
    split
    · rfl
    · split <;> rfl
  · intro other
    unfold auditCallback
    split
    · rfl
    · split <;> rfl
  · unfold auditCallback
    split
    · rfl
    · split <;> rfl

theorem move_callOnFinishCb (hvalid : s.Valid) {job : JobId} (hold : s.callback job = .notCalled) :
    Move s (.callOnFinishCb job)
      ((s.jobOnFinishCb job (s.onFinishCb job)).setCallback job .calling) := by
  cases hslot : s.onFinishCb job with
  | none =>
    exact .finished job rfl hold rfl rfl rfl rfl (Or.inr ⟨hslot, rfl⟩)
  | some id =>
    obtain ⟨invocation, hbrief⟩ := hvalid.slot job id hslot
    obtain ⟨call, hcall, hcalled⟩ := map_eq_some_iff.mp hbrief
    have hinvocation : call.invocation = invocation := congrArg Prod.fst hcalled
    unfold jobOnFinishCb
    simp only [hcall]
    exact .finished job rfl hold rfl rfl rfl rfl
      (Or.inl ⟨id, invocation, hslot, hbrief, call, _, hinvocation, rfl⟩)

theorem step_move (hvalid : s.Valid) (hstep : s.step action = some next) : Move s action next := by
  cases action with
  | callWithAudit invocation =>
    cases hstep
    exact move_callWithAudit s invocation
  | setOnFinishCb id =>
    simp only [step] at hstep
    split at hstep
    · rename_i call hcall
      split at hstep <;> cases hstep
      rename_i job hphase
      exact move_setOnFinishCb hcall hphase
    · cases hstep
  | auditCallback job message =>
    simp only [step] at hstep
    split_ifs at hstep
    cases hstep
    exact move_auditCallback s job message
  | callOnFinishCb job =>
    simp only [step] at hstep
    split_ifs at hstep with hphase
    cases hstep
    exact move_callOnFinishCb hvalid hphase.2
  | onFinishCbCalled job =>
    simp only [step] at hstep
    split_ifs at hstep with hcalling
    cases hstep
    refine .quiet (by simp) rfl rfl rfl ?_ rfl
    intro other
    simp only [setCallback, update_apply]
    split_ifs with hother
    · simp [hother, hcalling]
    · rfl
  | queue coarse =>
    simp only [step] at hstep
    split_ifs at hstep
    obtain ⟨queue, _, hnext⟩ := map_eq_some_iff.mp hstep
    rw [← hnext]
    exact .quiet (by simp) rfl rfl rfl (fun _ => Iff.rfl) rfl

theorem Appends.count_eq {id : InvocationId} {invocation : Invocation App Params}
    (happends : Appends s next id invocation) (other : InvocationId) :
    next.count other = s.count other +
      if other = id ∧ invocation.encodable = true then 1 else 0 := by
  obtain ⟨call, success, hcall, hlog⟩ := happends
  unfold count
  rw [hlog, countP_append, Nat.add_left_cancel_iff]
  unfold auditMessages
  simp only [hcall]
  by_cases hencodable : invocation.encodable = true
  · by_cases hother : other = id
    · simp [hencodable, hother]
    · simp [hencodable, hother, Ne.symm hother]
  · simp [hencodable]

end

/-! ## Awaiting a message -/

section

variable {s next : AuditedJobs App Params} {action : Action App Params}
  {id : InvocationId} {invocation : Invocation App Params} {job : JobId}

variable {phase : CallPhase}

theorem awaits_iff (hbrief : s.brief id = some (invocation, phase)) :
    s.Awaits id ↔ s.AwaitsAt id phase := by
  constructor
  · rintro ⟨other, otherPhase, hother, hawaits⟩
    rw [hbrief] at hother
    cases hother
    exact hawaits
  · intro hawaits
    exact ⟨invocation, phase, hbrief, hawaits⟩

theorem encodable_iff (hbrief : s.brief id = some (invocation, phase)) :
    s.Encodable id ↔ invocation.encodable = true := by
  constructor
  · rintro ⟨other, otherPhase, hother, hencodable⟩
    rw [hbrief] at hother
    cases hother
    exact hencodable
  · intro hencodable
    exact ⟨invocation, phase, hbrief, hencodable⟩

theorem awaits_congr (hbrief : next.brief id = s.brief id)
    (hslot : ∀ job invocation, s.brief id = some (invocation, .attached job) →
      (next.AwaitsAt id (.attached job) ↔ s.AwaitsAt id (.attached job))) :
    next.Awaits id ↔ s.Awaits id := by
  cases hs : s.brief id with
  | none => simp [Awaits, hbrief, hs]
  | some pair =>
    obtain ⟨invocation, phase⟩ := pair
    rw [awaits_iff hs, awaits_iff (hbrief.trans hs)]
    cases phase with
    | raised => exact Iff.rfl
    | returned _ => exact Iff.rfl
    | attached job => exact hslot job invocation hs

def WritesOnce (s next : AuditedJobs App Params) : Prop :=
  next.log = s.log ∨ ∃ id invocation phase, Appends s next id invocation ∧
      next.brief id = some (invocation, phase) ∧
      (s.Awaits id ∨ s.nextCall ≤ id) ∧ ¬ next.Awaits id

theorem Valid.ne_nextCall (hvalid : s.Valid)
    {pair : Invocation App Params × CallPhase} (hbrief : s.brief id = some pair) :
    id ≠ s.nextCall := by
  have hlt := (hvalid.brief_lt id).mp (by simp [hbrief])
  exact Nat.ne_of_lt hlt

theorem Move.writesOnce (hmove : Move s action next) : WritesOnce s next := by
  cases hmove with
  | quiet _ _ _ _ _ hlog => exact Or.inl hlog
  | returned _ _ _ _ _ _ _ hlog => exact Or.inl hlog
  | raised invocation haction hnext hbrief hslot hcallback hlog =>
    right
    have hnew : next.brief s.nextCall = some (invocation, .raised) := by
      rw [hbrief, update_self]
    refine ⟨s.nextCall, invocation, .raised, hlog, hnew, Or.inr le_rfl, ?_⟩
    rw [awaits_iff hnew]
    exact id
  | attached id invocation job haction hold hnext hbrief hslot hcallback hlog =>
    rcases hlog with ⟨hcalled, happends⟩ | ⟨_, hlog⟩
    · right
      have hnew : next.brief id = some (invocation, .attached job) := by
        rw [hbrief, update_self]
      have hawaits : s.Awaits id := (awaits_iff hold).mpr trivial
      refine ⟨id, invocation, .attached job, happends, hnew, Or.inl hawaits, ?_⟩
      rw [awaits_iff hnew]
      rintro ⟨_, hnotCalled⟩
      rw [hcallback, hcalled] at hnotCalled
      cases hnotCalled
    · exact Or.inl hlog
  | finished job haction hold hnext hbrief hslot hcallback hlog =>
    rcases hlog with ⟨id, invocation, hid, hattached, happends⟩ | ⟨_, hlog⟩
    · right
      have hawaits : s.Awaits id := (awaits_iff hattached).mpr ⟨hid, hold⟩
      have hnew : next.brief id = some (invocation, .attached job) := by
        rw [hbrief, hattached]
      refine ⟨id, invocation, .attached job, happends, hnew, Or.inl hawaits, ?_⟩
      rw [awaits_iff hnew]
      rintro ⟨_, hnotCalled⟩
      rw [hcallback, update_self] at hnotCalled
      cases hnotCalled
    · exact Or.inl hlog

theorem awaits_quiet (hbrief : next.brief id = s.brief id) (hslot : next.onFinishCb = s.onFinishCb)
    (hcallback : ∀ job, next.callback job = .notCalled ↔
      s.callback job = .notCalled) : next.Awaits id ↔ s.Awaits id := by
  apply awaits_congr hbrief
  intro job _ _
  simp only [AwaitsAt, hslot, hcallback]

theorem awaits_pushed (hvalid : s.Valid) (hbrief : next.brief id = s.brief id)
    (hat : ¬ next.AwaitsAt id (.attached job))
    (hothers : ∀ other, other ≠ job →
      (next.AwaitsAt id (.attached other) ↔ s.AwaitsAt id (.attached other))) :
    next.Awaits id ↔ s.Awaits id ∧ s.onFinishCb job ≠ some id := by
  have hfree : ∀ {pair : Invocation App Params × CallPhase},
      s.brief id = some pair → pair.2 ≠ .attached job →
      s.onFinishCb job ≠ some id := by
    intro pair hpair hne hslot
    obtain ⟨invocation, hattached⟩ := hvalid.slot job id hslot
    rw [hpair] at hattached
    exact hne (congrArg Prod.snd (some.inj hattached))
  cases hs : s.brief id with
  | none => simp [Awaits, hbrief, hs]
  | some pair =>
    obtain ⟨invocation, phase⟩ := pair
    rw [awaits_iff hs, awaits_iff (hbrief.trans hs)]
    cases phase with
    | raised => simp [AwaitsAt]
    | returned other => simpa [AwaitsAt] using hfree hs (by simp)
    | attached other =>
      by_cases hother : other = job
      · rw [hother]
        simp only [hat, false_iff, not_and, not_not]
        exact fun hawaits => hawaits.1
      · rw [hothers other hother]
        have hne := hfree hs (by simpa using hother)
        exact ⟨fun hawaits => ⟨hawaits, hne⟩, fun hawaits => hawaits.1⟩

theorem awaits_attached {other : InvocationId} (hvalid : s.Valid)
    (hne : id ≠ other) (hbrief : next.brief id = s.brief id)
    (hslot : next.onFinishCb = Function.update s.onFinishCb job (some other))
    (hcallback : next.callback = s.callback) :
    next.Awaits id ↔ s.Awaits id ∧ s.onFinishCb job ≠ some id := by
  apply awaits_pushed hvalid hbrief
  · simp [AwaitsAt, hslot, Ne.symm hne]
  · intro another hanother
    simp [AwaitsAt, hslot, hcallback, hanother]

theorem awaits_finished (hvalid : s.Valid) (hbrief : next.brief id = s.brief id)
    (hslot : next.onFinishCb = s.onFinishCb)
    (hcallback : next.callback = Function.update s.callback job .calling) :
    next.Awaits id ↔ s.Awaits id ∧ s.onFinishCb job ≠ some id := by
  apply awaits_pushed hvalid hbrief
  · simp [AwaitsAt, hcallback]
  · intro another hanother
    simp [AwaitsAt, hslot, hcallback, hanother]

theorem Move.brief_kept (hvalid : s.Valid) (hmove : Move s action next)
    (hold : s.brief id = some (invocation, phase)) :
    ∃ phase', next.brief id = some (invocation, phase') := by
  cases hmove with
  | quiet _ _ hbrief => exact ⟨phase, by rw [hbrief, hold]⟩
  | finished _ _ _ _ hbrief => exact ⟨phase, by rw [hbrief, hold]⟩
  | raised _ _ _ hbrief =>
    refine ⟨phase, ?_⟩
    rw [hbrief, update_of_ne (hvalid.ne_nextCall hold), hold]
  | returned _ _ _ _ hbrief =>
    refine ⟨phase, ?_⟩
    rw [hbrief, update_of_ne (hvalid.ne_nextCall hold), hold]
  | attached other _ job _ hreturned _ hbrief =>
    by_cases hid : id = other
    · rw [← hid, hold] at hreturned
      cases hreturned
      exact ⟨.attached job, by rw [hbrief, hid, update_self]⟩
    · exact ⟨phase, by rw [hbrief, update_of_ne hid, hold]⟩

theorem Move.awaits_before (hvalid : s.Valid) (hmove : Move s action next)
    (hawaits : next.Awaits id) : s.Awaits id ∨ s.nextCall = id := by
  cases hmove with
  | quiet _ _ hbrief hslot hcallback =>
    exact Or.inl ((awaits_quiet (by rw [hbrief]) hslot hcallback).mp hawaits)
  | finished _ _ _ _ hbrief hslot hcallback =>
    left
    exact ((awaits_finished hvalid (by rw [hbrief]) hslot hcallback).mp hawaits).1
  | raised _ _ _ hbrief hslot hcallback =>
    by_cases hid : id = s.nextCall
    · exact Or.inr hid.symm
    · left
      apply (awaits_quiet _ hslot (by simp [hcallback])).mp hawaits
      rw [hbrief, update_of_ne hid]
  | returned _ _ _ _ hbrief hslot hcallback =>
    by_cases hid : id = s.nextCall
    · exact Or.inr hid.symm
    · left
      apply (awaits_quiet _ hslot (by simp [hcallback])).mp hawaits
      rw [hbrief, update_of_ne hid]
  | attached other _ job _ hreturned _ hbrief hslot hcallback =>
    left
    by_cases hid : id = other
    · rw [hid]
      exact (awaits_iff hreturned).mpr trivial
    · apply ((awaits_attached hvalid hid _ hslot hcallback).mp hawaits).1
      rw [hbrief, update_of_ne hid]

end

/-! ## The invariant -/

section

variable {s next : AuditedJobs App Params} {action : Action App Params}

theorem init_valid : (init : AuditedJobs App Params).Valid := by
  constructor
  · simp [init, brief]
  · simp [init]
  · simp [init, count]
  · simp [init, count]
  · simp [init, count]
  · simp [init]

theorem Valid.brief_lt_created (hvalid : s.Valid) {pair : Invocation App Params × CallPhase}
    (hnext : next.nextCall = s.nextCall + 1)
    (hbrief : next.brief = Function.update s.brief s.nextCall (some pair))
    (id : InvocationId) : next.brief id ≠ none ↔ id < next.nextCall := by
  rw [hnext, hbrief, update_apply, Nat.lt_succ_iff_lt_or_eq]
  split_ifs with hid
  · simp [hid]
  · rw [hvalid.brief_lt]
    simp [hid]

theorem Valid.brief_lt_step (hvalid : s.Valid) (hmove : Move s action next)
    (id : InvocationId) : next.brief id ≠ none ↔ id < next.nextCall := by
  cases hmove with
  | quiet _ hnext hbrief => rw [hnext, hbrief, hvalid.brief_lt]
  | finished _ _ _ hnext hbrief => rw [hnext, hbrief, hvalid.brief_lt]
  | raised _ _ hnext hbrief => exact hvalid.brief_lt_created hnext hbrief id
  | returned _ _ _ hnext hbrief => exact hvalid.brief_lt_created hnext hbrief id
  | attached other _ _ _ hold hnext hbrief =>
    rw [hnext, hbrief, ← hvalid.brief_lt, update_apply]
    split_ifs with hid
    · simp [hid, hold]
    · rfl

theorem Valid.slot_step (hvalid : s.Valid) (hmove : Move s action next)
    (job : JobId) (id : InvocationId) (hid : next.onFinishCb job = some id) :
    ∃ invocation, next.brief id = some (invocation, .attached job) := by
  cases hmove with
  | quiet _ _ hbrief hslot =>
    rw [hslot] at hid
    rw [hbrief]
    exact hvalid.slot job id hid
  | finished _ _ _ _ hbrief hslot =>
    rw [hslot] at hid
    rw [hbrief]
    exact hvalid.slot job id hid
  | raised _ _ _ hbrief hslot =>
    rw [hslot] at hid
    obtain ⟨invocation, hold⟩ := hvalid.slot job id hid
    rw [hbrief, update_of_ne (hvalid.ne_nextCall hold)]
    exact ⟨invocation, hold⟩
  | returned _ _ _ _ hbrief hslot =>
    rw [hslot] at hid
    obtain ⟨invocation, hold⟩ := hvalid.slot job id hid
    rw [hbrief, update_of_ne (hvalid.ne_nextCall hold)]
    exact ⟨invocation, hold⟩
  | attached other invocation target _ hold _ hbrief hslot =>
    rw [hslot, update_apply] at hid
    split_ifs at hid with hjob
    · cases hid
      rw [hbrief, update_self, hjob]
      exact ⟨invocation, rfl⟩
    · obtain ⟨known, hattached⟩ := hvalid.slot job id hid
      have hne : id ≠ other := by
        intro heq
        rw [heq, hold] at hattached
        cases hattached
      rw [hbrief, update_of_ne hne]
      exact ⟨known, hattached⟩

theorem Move.nextCall_le (hmove : Move s action next) : s.nextCall ≤ next.nextCall := by
  cases hmove with
  | quiet _ hnext => exact hnext.ge
  | finished _ _ _ hnext => exact hnext.ge
  | attached _ _ _ _ _ hnext => exact hnext.ge
  | raised _ _ hnext => omega
  | returned _ _ _ hnext => omega

theorem Valid.count_eq_zero (hvalid : s.Valid) {id : InvocationId}
    (hid : s.Awaits id ∨ s.nextCall ≤ id) : s.count id = 0 := by
  rcases hid with hawaits | hnew
  · exact hvalid.count_of_awaits id hawaits
  · exact hvalid.count_of_le id hnew

theorem Move.count_cases (hmove : Move s action next) (id : InvocationId) :
    next.count id = s.count id ∨ (next.count id = s.count id + 1 ∧ (s.Awaits id ∨ s.nextCall ≤ id) ∧
        next.Encodable id ∧ ¬ next.Awaits id) := by
  rcases hmove.writesOnce with
    hlog | ⟨other, invocation, phase, happends, hbrief, hbefore, hawaits⟩
  · left
    unfold count
    rw [hlog]
  · have hread := happends.count_eq id
    by_cases hid : id = other ∧ invocation.encodable = true
    · right
      rw [if_pos hid] at hread
      obtain ⟨hid, hencodable⟩ := hid
      subst hid
      exact ⟨hread, hbefore, ⟨invocation, phase, hbrief, hencodable⟩, hawaits⟩
    · left
      rw [if_neg hid] at hread
      exact hread

theorem Valid.content_step (hvalid : s.Valid) (hmove : Move s action next)
    (id : InvocationId) (message : AuditMessage App Params)
    (hmem : (id, message) ∈ next.log) :
    ∃ invocation phase, next.brief id = some (invocation, phase) ∧
      message.app = invocation.app ∧ message.params = invocation.params := by
  have hold : (id, message) ∈ s.log → ∃ invocation phase, next.brief id = some (invocation, phase) ∧
        message.app = invocation.app ∧ message.params = invocation.params := by
    intro hmem
    obtain ⟨invocation, phase, hold, hcontent⟩ := hvalid.content id message hmem
    obtain ⟨phase', hnew⟩ := hmove.brief_kept hvalid hold
    exact ⟨invocation, phase', hnew, hcontent⟩
  rcases hmove.writesOnce with
    hlog | ⟨other, invocation, phase, ⟨call, success, hcall, hlog⟩, hbrief, _⟩
  · rw [hlog] at hmem
    exact hold hmem
  · rw [hlog, mem_append] at hmem
    rcases hmem with hmem | hnew
    · exact hold hmem
    · unfold auditMessages at hnew
      simp only [hcall] at hnew
      split_ifs at hnew
      · simp only [mem_singleton, Prod.mk.injEq] at hnew
        obtain ⟨hid, hmessage⟩ := hnew
        rw [hid, hmessage]
        exact ⟨invocation, phase, hbrief, rfl, rfl⟩
      · simp at hnew

theorem Valid.step (hvalid : s.Valid) (hmove : Move s action next) : next.Valid := by
  have hlt := hvalid.brief_lt_step hmove
  constructor
  · exact hlt
  · exact hvalid.slot_step hmove
  · intro id hle
    rcases hmove.count_cases id with hsame | ⟨_, _, ⟨_, _, hbrief, _⟩, _⟩
    · rw [hsame]
      exact hvalid.count_of_le id (hmove.nextCall_le.trans hle)
    · have hid := (hlt id).mp (by simp [hbrief])
      exact absurd hle (Nat.not_le.mpr hid)
  · intro id
    rcases hmove.count_cases id with hsame | ⟨hone, hbefore, _⟩
    · rw [hsame]
      exact hvalid.count_le id
    · rw [hone, hvalid.count_eq_zero hbefore]
  · intro id hawaits
    rcases hmove.count_cases id with hsame | ⟨_, _, _, hnot⟩
    · rw [hsame]
      exact hvalid.count_eq_zero ((hmove.awaits_before hvalid hawaits).imp_right le_of_eq)
    · exact absurd hawaits hnot
  · exact hvalid.content_step hmove

theorem run_valid {actions : List (Action App Params)}
    (hrun : run step init actions = some s) : s.Valid := by
  apply run_invariant _ init_valid hrun
  intro s action next hvalid hstep
  exact hvalid.step (step_move hvalid hstep)

end

/-! ## Missing a message -/

section

variable {s next : AuditedJobs App Params} {action : Action App Params}
  {id : InvocationId}

/-- The parameters of a call can be written to the audit log, and a callback is
put into a slot that is empty, or whose job has come past
`call_on_finish_cb`. -/
def SlotFree (s : AuditedJobs App Params) : Action App Params → Prop
  | .callWithAudit invocation => invocation.encodable = true
  | .setOnFinishCb id => ∀ call job, s.calls id = some call → call.phase = .returned job →
        s.callback job = .called ∨ s.callback job = .notCalled ∧ s.onFinishCb job = none
  | _ => True

def NoneMissed (s : AuditedJobs App Params) : Prop := ∀ id, ¬ s.Missed id

theorem Move.encodable_iff (hvalid : s.Valid) (hmove : Move s action next)
    (hid : id < s.nextCall) : next.Encodable id ↔ s.Encodable id := by
  obtain ⟨⟨invocation, phase⟩, hold⟩ := ne_none_iff_exists'.mp ((hvalid.brief_lt id).mpr hid)
  obtain ⟨phase', hnew⟩ := hmove.brief_kept hvalid hold
  rw [AuditedJobs.encodable_iff hold, AuditedJobs.encodable_iff hnew]

theorem Missed.step (hvalid : s.Valid) (hmove : Move s action next)
    (hmissed : s.Missed id) : next.Missed id := by
  obtain ⟨hid, hzero, hnever⟩ := hmissed
  refine ⟨hid.trans_le hmove.nextCall_le, ?_, ?_⟩
  · rcases hmove.count_cases id with hsame | ⟨_, hbefore, hencodable, _⟩
    · rw [hsame, hzero]
    · rw [hmove.encodable_iff hvalid hid] at hencodable
      rcases hbefore with hawaits | hnew
      · exact absurd ⟨hawaits, hencodable⟩ hnever
      · exact absurd hnew (Nat.not_le.mpr hid)
  · rintro ⟨hawaits, hencodable⟩
    rw [hmove.encodable_iff hvalid hid] at hencodable
    rcases hmove.awaits_before hvalid hawaits with hbefore | hnew
    · exact hnever ⟨hbefore, hencodable⟩
    · exact Nat.ne_of_gt hid hnew

theorem NoneMissed.awaits_of_missed (hvalid : s.Valid) (hnone : s.NoneMissed)
    (hmove : Move s action next) (hmissed : next.Missed id)
    (hid : id < s.nextCall) :
    s.Awaits id ∧ next.Encodable id ∧ ¬ next.Awaits id ∧ next.count id = s.count id := by
  obtain ⟨_, hzero, hnever⟩ := hmissed
  have hsame : next.count id = s.count id := by
    rcases hmove.count_cases id with hsame | ⟨hone, _⟩
    · exact hsame
    · omega
  have hbefore : s.Awaits id ∧ s.Encodable id := by
    by_contra hnot
    exact hnone id ⟨hid, by omega, hnot⟩
  have hencodable := (hmove.encodable_iff hvalid hid).mpr hbefore.2
  exact ⟨hbefore.1, hencodable, fun hawaits => hnever ⟨hawaits, hencodable⟩, hsame⟩

variable {invocation : Invocation App Params}

theorem Appends.count_ne {phase : CallPhase} (happends : Appends s next id invocation)
    (hbrief : next.brief id = some (invocation, phase))
    (hencodable : next.Encodable id) : next.count id ≠ s.count id := by
  have hread := happends.count_eq id
  rw [if_pos ⟨rfl, (AuditedJobs.encodable_iff hbrief).mp hencodable⟩] at hread
  omega

theorem SlotFree.of_brief {job : JobId} (hfree : s.SlotFree (.setOnFinishCb id))
    (hbrief : s.brief id = some (invocation, .returned job)) :
    s.callback job = .called ∨ s.callback job = .notCalled ∧ s.onFinishCb job = none := by
  obtain ⟨call, hcall, hread⟩ := map_eq_some_iff.mp hbrief
  exact hfree call job hcall (congrArg Prod.snd hread)

theorem NoneMissed.of_slotFree (hvalid : s.Valid) (hnone : s.NoneMissed)
    (hmove : Move s action next) (hfree : s.SlotFree action)
    (hid : id < s.nextCall) : ¬ next.Missed id := by
  intro hmissed
  obtain ⟨hbefore, hencodable, hafter, hsame⟩ := hnone.awaits_of_missed hvalid hmove hmissed hid
  have hne := Nat.ne_of_lt hid
  cases hmove with
  | quiet _ _ hbrief hslot hcallback =>
    exact hafter ((awaits_quiet (by rw [hbrief]) hslot hcallback).mpr hbefore)
  | raised _ _ _ hbrief hslot hcallback =>
    apply hafter
    apply (awaits_quiet _ hslot (by simp [hcallback])).mpr hbefore
    rw [hbrief, update_of_ne hne]
  | returned _ _ _ _ hbrief hslot hcallback =>
    apply hafter
    apply (awaits_quiet _ hslot (by simp [hcallback])).mpr hbefore
    rw [hbrief, update_of_ne hne]
  | finished job _ hold _ hbrief hslot hcallback hlog =>
    have hslotId : s.onFinishCb job = some id := by
      by_contra hother
      exact hafter ((awaits_finished hvalid (by rw [hbrief]) hslot hcallback).mpr ⟨hbefore, hother⟩)
    rcases hlog with ⟨other, invocation, hother, hattached, happends⟩ | ⟨hempty, _⟩
    · rw [hslotId] at hother
      cases hother
      rw [← hbrief] at hattached
      exact happends.count_ne hattached hencodable hsame
    · rw [hslotId] at hempty
      cases hempty
  | attached other invocation job haction hold hnext hbrief hslot hcallback hlog =>
    rw [haction] at hfree
    have hslotFree := hfree.of_brief hold
    by_cases hother : id = other
    · have hnew : next.brief id = some (invocation, .attached job) := by
        rw [hbrief, hother, update_self]
      rw [← hother] at hlog
      rcases hlog with ⟨_, happends⟩ | ⟨hnotCalled, _⟩
      · exact happends.count_ne hnew hencodable hsame
      · have hopen := (hslotFree.resolve_left hnotCalled).1
        apply hafter
        rw [awaits_iff hnew]
        refine ⟨?_, by rw [hcallback, hopen]⟩
        rw [hslot, update_self, hother]
    · have hslotId : s.onFinishCb job = some id := by
        by_contra hnot
        apply hafter
        apply (awaits_attached hvalid hother _ hslot hcallback).mpr ⟨hbefore, hnot⟩
        rw [hbrief, update_of_ne hother]
      obtain ⟨known, hattached⟩ := hvalid.slot job id hslotId
      have hopen := ((awaits_iff hattached).mp hbefore).2
      rcases hslotFree with hcalled | ⟨_, hempty⟩
      · rw [hopen] at hcalled
        cases hcalled
      · rw [hslotId] at hempty
        cases hempty

theorem new_not_missed (hmove : Move s action next) (hfree : s.SlotFree action)
    (hid : s.nextCall ≤ id) : ¬ next.Missed id := by
  rintro ⟨hlt, hzero, hnever⟩
  cases hmove with
  | quiet _ hnext => exact absurd hlt (Nat.not_lt.mpr (hnext ▸ hid))
  | finished _ _ _ hnext => exact absurd hlt (Nat.not_lt.mpr (hnext ▸ hid))
  | attached _ _ _ _ _ hnext =>
    exact absurd hlt (Nat.not_lt.mpr (hnext ▸ hid))
  | raised invocation haction hnext hbrief hslot hcallback hlog =>
    rw [hnext] at hlt
    have hnew : id = s.nextCall := Nat.le_antisymm (Nat.lt_succ_iff.mp hlt) hid
    rw [haction] at hfree
    have hread := hlog.count_eq id
    rw [if_pos ⟨hnew, hfree⟩, hzero] at hread
    omega
  | returned invocation job haction hnext hbrief =>
    rw [hnext] at hlt
    have hnew : id = s.nextCall := Nat.le_antisymm (Nat.lt_succ_iff.mp hlt) hid
    rw [haction] at hfree
    have hread : next.brief id = some (invocation, .returned job) := by
      rw [hbrief, hnew, update_self]
    exact hnever ⟨(awaits_iff hread).mpr trivial, (AuditedJobs.encodable_iff hread).mpr hfree⟩

theorem encodable_of_noneMissed (hvalid : s.Valid) (hmove : Move s action next)
    (hnone : next.NoneMissed) {phase : CallPhase}
    (hbrief : next.brief s.nextCall = some (invocation, phase)) :
    invocation.encodable = true := by
  by_contra hnot
  have hnever : ¬ next.Encodable s.nextCall := by
    rw [AuditedJobs.encodable_iff hbrief]
    exact hnot
  have hlt := (hvalid.brief_lt_step hmove s.nextCall).mp (by simp [hbrief])
  apply hnone s.nextCall
  refine ⟨hlt, ?_, fun h => hnever h.2⟩
  rcases hmove.count_cases s.nextCall with hsame | ⟨_, _, hencodable, _⟩
  · rw [hsame, hvalid.count_of_le _ le_rfl]
  · exact absurd hencodable hnever

theorem slot_of_noneMissed (hvalid : s.Valid) (hmove : Move s action next)
    (hnone : next.NoneMissed) {job : JobId}
    (hold : s.brief id = some (invocation, .returned job))
    (hbrief : next.brief = Function.update s.brief id (some (invocation, .attached job)))
    (hslot : next.onFinishCb = Function.update s.onFinishCb job (some id))
    (hcallback : next.callback = s.callback)
    (hlog : s.callback job ≠ .called → next.log = s.log) :
    s.callback job = .called ∨ s.callback job = .notCalled ∧ s.onFinishCb job = none := by
  have hnext := hvalid.step hmove
  have hcount : s.callback job ≠ .called → ∀ other, next.count other = s.count other := by
    intro hnot other
    unfold count
    rw [hlog hnot]
  cases hphase : s.callback job with
  | called => exact Or.inl rfl
  | calling =>
    exfalso
    have hnew : next.brief id = some (invocation, .attached job) := by
      rw [hbrief, update_self]
    have hawaits : s.Awaits id := (awaits_iff hold).mpr trivial
    apply hnone id
    refine ⟨(hnext.brief_lt id).mp (by simp [hnew]), ?_, ?_⟩
    · rw [hcount (by simp [hphase]), hvalid.count_of_awaits id hawaits]
    · rintro ⟨hlater, _⟩
      rw [awaits_iff hnew] at hlater
      have hopen := hlater.2
      rw [hcallback, hphase] at hopen
      cases hopen
  | notCalled =>
    refine Or.inr ⟨rfl, ?_⟩
    by_contra hfull
    obtain ⟨other, hother⟩ := ne_none_iff_exists'.mp hfull
    obtain ⟨known, hattached⟩ := hvalid.slot job other hother
    have hne : other ≠ id := by
      intro heq
      rw [heq, hold] at hattached
      cases hattached
    have hkept : next.brief other = s.brief other := by
      rw [hbrief, update_of_ne hne]
    have hawaits : s.Awaits other := (awaits_iff hattached).mpr ⟨hother, hphase⟩
    apply hnone other
    refine ⟨(hnext.brief_lt other).mp (by simp [hkept, hattached]), ?_, ?_⟩
    · rw [hcount (by simp [hphase]), hvalid.count_of_awaits other hawaits]
    · rintro ⟨hlater, _⟩
      exact ((awaits_attached hvalid hne hkept hslot hcallback).mp hlater).2 hother

theorem slotFree_of_noneMissed (hvalid : s.Valid) (hmove : Move s action next)
    (hnone : next.NoneMissed) : s.SlotFree action := by
  have hkept := hmove
  cases hmove with
  | quiet haction =>
    cases action with
    | callWithAudit invocation => exact absurd rfl (haction.1 invocation)
    | setOnFinishCb id => exact absurd rfl (haction.2 id)
    | _ => trivial
  | finished job haction =>
    rw [haction]
    trivial
  | raised invocation haction hnext hbrief =>
    rw [haction]
    apply encodable_of_noneMissed hvalid hkept hnone
    rw [hbrief, update_self]
  | returned invocation job haction hnext hbrief =>
    rw [haction]
    apply encodable_of_noneMissed hvalid hkept hnone
    rw [hbrief, update_self]
  | attached id invocation job haction hold hnext hbrief hslot hcallback hlog =>
    rw [haction]
    intro call other hcall hphase
    have hread : s.brief id = some (call.invocation, .returned other) := by
      simp [brief, hcall, hphase]
    rw [hold] at hread
    cases hread
    apply slot_of_noneMissed hvalid hkept hnone hold hbrief hslot hcallback
    intro hnot
    exact (hlog.resolve_left fun h => hnot h.1).2

theorem step_noneMissed_iff (hvalid : s.Valid) (hnone : s.NoneMissed)
    (hstep : s.step action = some next) :
    next.NoneMissed ↔ s.SlotFree action := by
  have hmove := step_move hvalid hstep
  refine ⟨slotFree_of_noneMissed hvalid hmove, ?_⟩
  intro hfree id
  by_cases hid : id < s.nextCall
  · exact hnone.of_slotFree hvalid hmove hfree hid
  · exact new_not_missed hmove hfree (Nat.not_lt.mp hid)

end

/-! ## Runs -/

section

variable {s : AuditedJobs App Params} {actions : List (Action App Params)}

/-- Every call has raised, or its job has come past `call_on_finish_cb`. -/
def Settled (s : AuditedJobs App Params) : Prop :=
  ∀ id call, s.calls id = some call →
    match call.phase with
    | .raised => True
    | .returned _ => False
    | .attached job => s.callback job = .called

/-- There is exactly one audit message of every invocation, with its app and
its parameters. -/
def AuditedOnce (s : AuditedJobs App Params) : Prop :=
  ∀ id call, s.calls id = some call →
    ∃ message, s.log.filter (fun entry => entry.1 = id) = [(id, message)] ∧
      message.app = call.invocation.app ∧
      message.params = call.invocation.params

theorem run_noneMissed {u : AuditedJobs App Params}
    {rest : List (Action App Params)} (hvalid : u.Valid)
    (hrun : run step u rest = some s) (hnone : s.NoneMissed) :
    u.NoneMissed := by
  intro id hmissed
  apply hnone id
  have hboth : s.Valid ∧ s.Missed id := by
    apply run_invariant (p := fun s => s.Valid ∧ s.Missed id) _ ⟨hvalid, hmissed⟩ hrun
    rintro u action next ⟨hvalid, hmissed⟩ hstep
    have hmove := step_move hvalid hstep
    exact ⟨hvalid.step hmove, hmissed.step hvalid hmove⟩
  exact hboth.2

theorem Settled.not_awaits (hsettled : s.Settled) (id : InvocationId) : ¬ s.Awaits id := by
  rintro ⟨invocation, phase, hbrief, hawaits⟩
  obtain ⟨call, hcall, hread⟩ := map_eq_some_iff.mp hbrief
  have hphase : call.phase = phase := congrArg Prod.snd hread
  have hdone := hsettled id call hcall
  rw [hphase] at hdone
  cases phase with
  | raised => exact hawaits
  | returned job => exact hdone
  | attached job =>
    have hopen := hawaits.2
    rw [hdone] at hopen
    cases hopen

theorem count_eq_length (s : AuditedJobs App Params) (id : InvocationId) :
    s.count id = (s.log.filter fun entry => entry.1 = id).length :=
  countP_eq_length_filter

theorem Valid.exists_message (hvalid : s.Valid) {id : InvocationId}
    {call : AuditedCall App Params} (hcall : s.calls id = some call)
    (hone : s.count id = 1) :
    ∃ message, s.log.filter (fun entry => entry.1 = id) = [(id, message)] ∧
      message.app = call.invocation.app ∧
      message.params = call.invocation.params := by
  rw [count_eq_length] at hone
  obtain ⟨⟨other, message⟩, hfilter⟩ := List.length_eq_one_iff.mp hone
  have hmem : (other, message) ∈ s.log.filter (fun entry => entry.1 = id) := by
    simp [hfilter]
  obtain ⟨hlog, hother⟩ := List.mem_filter.mp hmem
  have hid : other = id := by simpa using hother
  rw [hid] at hfilter hlog
  obtain ⟨invocation, phase, hbrief, hcontent⟩ := hvalid.content id message hlog
  have hread : s.brief id = some (call.invocation, call.phase) := by
    simp [brief, hcall]
  rw [hread] at hbrief
  cases hbrief
  exact ⟨message, hfilter, hcontent⟩

theorem auditedOnce_iff_noneMissed (hvalid : s.Valid) (hsettled : s.Settled) :
    s.AuditedOnce ↔ s.NoneMissed := by
  constructor
  · rintro haudited id ⟨hid, hzero, _⟩
    have hbrief := (hvalid.brief_lt id).mpr hid
    cases hcall : s.calls id with
    | none => simp [brief, hcall] at hbrief
    | some call =>
      obtain ⟨message, hfilter, _⟩ := haudited id call hcall
      rw [count_eq_length, hfilter] at hzero
      cases hzero
  · intro hnone id call hcall
    have hid : id < s.nextCall := (hvalid.brief_lt id).mp (by simp [brief, hcall])
    have hsome : s.count id ≠ 0 := by
      intro hzero
      exact hnone id ⟨hid, hzero, fun h => hsettled.not_awaits id h.1⟩
    have hle := hvalid.count_le id
    exact hvalid.exists_message hcall (by omega)

/-- Once every call is settled, each of them is audited exactly once if and only
if every callback was put into a free slot. -/
theorem auditedOnce_iff (hrun : run step init actions = some s) (hsettled : s.Settled) :
    s.AuditedOnce ↔ EveryStep step SlotFree init actions := by
  have hinit : (init : AuditedJobs App Params).NoneMissed := by
    rintro id ⟨hid, _⟩
    exact absurd hid (Nat.not_lt_zero id)
  have halong := everyStep_iff_forall_take Valid
    (fun s action next hvalid hstep => hvalid.step (step_move hvalid hstep))
    (fun s action next hvalid hnone hstep =>
      step_noneMissed_iff hvalid hnone hstep) init_valid hinit hrun
  rw [auditedOnce_iff_noneMissed (run_valid hrun) hsettled, halong]
  constructor
  · intro hnone k u hu
    have hrest : run step u (actions.drop k) = some s := by
      rw [← take_append_drop k actions, run_append, hu] at hrun
      exact hrun
    exact run_noneMissed (run_valid hu) hrest hnone
  · intro hall
    apply hall actions.length s
    rw [take_length]
    exact hrun

/-- No call is audited twice, whatever becomes of its callback, and what is
audited is its own application and its own parameters. -/
theorem audited_atMostOnce (hrun : run step init actions = some s) :
    (∀ id, (s.log.filter fun entry => entry.1 = id).length ≤ 1) ∧
      ∀ id message, (id, message) ∈ s.log → ∃ call, s.calls id = some call ∧
        message.app = call.invocation.app ∧ message.params = call.invocation.params := by
  have hvalid := run_valid hrun
  constructor
  · intro id
    rw [← count_eq_length]
    exact hvalid.count_le id
  · intro id message hmem
    obtain ⟨invocation, phase, hbrief, hcontent⟩ := hvalid.content id message hmem
    obtain ⟨call, hcall, hread⟩ := map_eq_some_iff.mp hbrief
    cases hread
    exact ⟨call, hcall, hcontent⟩

end

def scrub (app : String) (pool : String) : Invocation String String where
  method := "pool.scrub"
  app := app
  params := pool
  audit := "Pool scrub"
  spec := { lockName := .ok (some "scrub"), lockQueueSize := some 1 }

def scrubRun (job : JobId) : List (Action String String) :=
  [.queue .nextWake, .queue .nextAcquired, .queue (.runJob job),
    .queue (.bodyFinished job .success), .queue (.logsClosed job false),
    .queue (.pipesClosed job false), .callOnFinishCb job, .onFinishCbCalled job]

def oneCall : List (Action String String) :=
  [.callWithAudit (scrub "alice" "tank"), .setOnFinishCb 0] ++ scrubRun 0

theorem slotFree_scrubRun (s : AuditedJobs String String) (job : JobId) :
    EveryStep step SlotFree s (scrubRun job) := by
  apply everyStep_of_forall_mem
  intro t action haction
  simp only [scrubRun, mem_cons, not_mem_nil, or_false] at haction
  rcases haction with rfl | rfl | rfl | rfl | rfl | rfl | rfl | rfl <;> trivial

theorem Valid.settled {s : AuditedJobs App Params} (hvalid : s.Valid)
    {job : JobId} (hcalled : s.callback job = .called)
    (hattached : ∀ id < s.nextCall, (s.brief id).map Prod.snd =
      some (.attached job)) : s.Settled := by
  intro id call hcall
  have hread : s.brief id = some (call.invocation, call.phase) := by
    simp [brief, hcall]
  have hid := hattached id ((hvalid.brief_lt id).mp (by simp [hread]))
  rw [hread] at hid
  simp only [map_some, some.injEq] at hid
  rw [hid]
  exact hcalled

theorem oneCall_auditedOnce : ∃ s, run step init oneCall = some s ∧ s.Settled ∧
    EveryStep step SlotFree init oneCall ∧ s.AuditedOnce := by
  have hencodable : SlotFree init (.callWithAudit (scrub "alice" "tank")) := rfl
  have hfree : EveryStep step SlotFree init oneCall := by
    apply everyStep_cons hencodable rfl
    apply everyStep_cons _ rfl (slotFree_scrubRun _ 0)
    intro call job hcall hphase
    cases hcall
    cases hphase
    exact Or.inr ⟨rfl, rfl⟩
  have hrun : ∃ s, run step init oneCall = some s ∧ s.nextCall = 1 ∧ s.callback 0 = .called ∧
      (s.brief 0).map Prod.snd = some (.attached 0) :=
    ⟨_, rfl, rfl, rfl, rfl⟩
  obtain ⟨s, hrun, hnext, hcalled, hfirst⟩ := hrun
  have hsettled : s.Settled := by
    apply (run_valid hrun).settled hcalled
    intro id hid
    rw [hnext, Nat.lt_one_iff] at hid
    rw [hid, hfirst]
  exact ⟨s, hrun, hsettled, hfree, (auditedOnce_iff hrun hsettled).mpr hfree⟩

def twoCalls : List (Action String String) :=
  [.callWithAudit (scrub "alice" "tank"), .setOnFinishCb 0,
    .callWithAudit (scrub "bob" "dozer"), .setOnFinishCb 1] ++ scrubRun 0

theorem twoCalls_audited_atMostOnce : ∃ s, run step init twoCalls = some s ∧
    s.log.map Prod.fst = [1] ∧ ∀ id, (s.log.filter fun entry => entry.1 = id).length ≤ 1 := by
  have hrun : ∃ s, run step init twoCalls = some s ∧ s.log.map Prod.fst = [1] := ⟨_, rfl, rfl⟩
  obtain ⟨s, hrun, hlog⟩ := hrun
  exact ⟨s, hrun, hlog, (audited_atMostOnce hrun).1⟩

/-- The second call is answered with the job of the first and takes its callback. -/
theorem twoCalls_not_auditedOnce : ∃ s, run step init twoCalls = some s ∧ s.Settled ∧
    s.log.filter (fun entry => entry.1 = 0) = [] ∧ ¬ s.AuditedOnce := by
  have hrun : ∃ s, run step init twoCalls = some s ∧ s.nextCall = 2 ∧ s.callback 0 = .called ∧
      (s.brief 0).map Prod.snd = some (.attached 0) ∧
      (s.brief 1).map Prod.snd = some (.attached 0) ∧
      s.log.map Prod.fst = [1] :=
    ⟨_, rfl, rfl, rfl, rfl, rfl, rfl⟩
  obtain ⟨s, hrun, hnext, hcalled, hfirst, hsecond, hlog⟩ := hrun
  have hsettled : s.Settled := by
    apply (run_valid hrun).settled hcalled
    intro id hid
    rw [hnext] at hid
    interval_cases id
    · exact hfirst
    · exact hsecond
  have hempty : s.log.filter (fun entry => entry.1 = 0) = [] := by
    rw [filter_eq_nil_iff]
    intro entry hentry
    have hid := List.mem_map_of_mem (f := Prod.fst) hentry
    rw [hlog, mem_singleton] at hid
    simp [hid]
  refine ⟨s, hrun, hsettled, hempty, ?_⟩
  intro haudited
  cases hcall : s.calls 0 with
  | none => simp [brief, hcall] at hfirst
  | some call =>
    obtain ⟨message, hfilter, _⟩ := haudited 0 call hcall
    rw [hempty] at hfilter
    cases hfilter

end Middlewared.AuditedJobs
