import Middlewared.TransitionSystem
import Mathlib.Data.Int.Notation

/-!
# Committing network changes

`commit` of `InterfaceService` with the rollback that it schedules.
-/

namespace Middlewared

open List Option

/-- `interface.commit` options. -/
structure CommitOptions where
  rollback : Bool
  checkinTimeout : ℤ

inductive CommitPhase where
  | validating
  | syncing
  | rollingBack

structure CommitCall where
  options : CommitOptions
  phase : CommitPhase

structure InterfaceTimers where
  commits : ℕ → Option CommitCall
  nextCommit : ℕ
  rollbackTimer : Option ℕ
  pending : List ℕ
  (created running : List ℕ)
  /-- The commits that had been called when the last `checkin` or
  `cancel_rollback` returned are those below. -/
  settled : ℕ

namespace InterfaceTimers

def init : InterfaceTimers where
  commits _ := none
  nextCommit := 0
  rollbackTimer := none
  pending := []
  created := []
  running := []
  settled := 0

def setCommit (s : InterfaceTimers) (commit : ℕ) (call : Option CommitCall) :
    InterfaceTimers :=
  { s with commits := Function.update s.commits commit call }

/-- `if self._rollback_timer: self._rollback_timer.cancel()` and the `None` that
follows it. -/
def cancelTimer (s : InterfaceTimers) : InterfaceTimers :=
  { s with
    rollbackTimer := none
    pending := s.pending.filter fun timer => some timer ≠ s.rollbackTimer }

/-- `checkin_impl`, which awaits nothing. -/
def checkinImpl (s : InterfaceTimers) : InterfaceTimers :=
  { s.cancelTimer with settled := s.nextCommit }

/-- `commit` from the end of `sync`. -/
def synced (s : InterfaceTimers) (commit : ℕ) (call : CommitCall)
    (succeeds : Bool) : InterfaceTimers :=
  if succeeds then
    if call.options.rollback ∧ call.options.checkinTimeout ≠ 0 then
      { s.setCommit commit none with rollbackTimer := some commit, pending := commit :: s.pending }
    else s.setCommit commit none
  else if call.options.rollback then
    s.cancelTimer.setCommit commit (some { call with phase := .rollingBack })
  else s.setCommit commit none

inductive Action where
  | commit (options : CommitOptions)
  | validated (commit : ℕ) (valid : Bool)
  | synced (commit : ℕ) (succeeds : Bool)
  | rolledBack (commit : ℕ)
  | checkin
  | cancelRollback
  | rollback
  | expire (commit : ℕ)
  | beginRollback (commit : ℕ)
  /-- It is resumed after an `await`, perhaps for the last time. -/
  | resumeRollback (commit : ℕ) (ends : Bool)

def step (s : InterfaceTimers) : Action → Option InterfaceTimers
  | .commit options =>
    some { s.setCommit s.nextCommit (some ⟨options, .validating⟩) with
      nextCommit := s.nextCommit + 1 }
  | .validated commit valid =>
    match s.commits commit with
    | some ⟨options, .validating⟩ =>
      some (s.setCommit commit (if valid then some ⟨options, .syncing⟩ else none))
    | _ => none
  | .synced commit succeeds =>
    match s.commits commit with
    | some ⟨options, .syncing⟩ =>
      some (s.synced commit ⟨options, .syncing⟩ succeeds)
    | _ => none
  | .rolledBack commit =>
    match s.commits commit with
    | some ⟨_, .rollingBack⟩ => some (s.setCommit commit none)
    | _ => none
  | .checkin | .cancelRollback => some s.checkinImpl
  | .rollback => some s.cancelTimer
  | .expire commit =>
    if commit ∈ s.pending then
      some { s with pending := s.pending.erase commit, created := commit :: s.created }
    else none
  | .beginRollback commit =>
    if commit ∈ s.created then
      some { s.cancelTimer with created := s.created.erase commit, running := commit :: s.running }
    else none
  | .resumeRollback commit ends =>
    if commit ∈ s.running then
      some { s with running := if ends then s.running.erase commit else s.running }
    else none

/-- A step of a scheduled rollback belongs to a commit that was called after the
last check-in. -/
def RunsLaterRollback (s : InterfaceTimers) : Action → Prop
  | .beginRollback commit | .resumeRollback commit _ => s.settled ≤ commit
  | _ => True

/-- No check-in comes between the expiry of a timer and the end of its
rollback, and a commit schedules a timer only if none is pending and no
check-in has come since it was called. -/
def Orderly (s : InterfaceTimers) : Action → Prop
  | .checkin | .cancelRollback => s.created = [] ∧ s.running = []
  | .synced commit succeeds =>
    ∀ call ∈ s.commits commit, succeeds = true →
      call.options.rollback = true → call.options.checkinTimeout ≠ 0 →
        s.pending = [] ∧ s.settled ≤ commit
  | _ => True

structure Tidy (s : InterfaceTimers) : Prop where
  pending : s.pending = [] ∨ ∃ timer, s.pending = [timer] ∧ s.rollbackTimer = some timer
  pendingLater : ∀ timer ∈ s.pending, s.settled ≤ timer
  createdLater : ∀ timer ∈ s.created, s.settled ≤ timer
  runningLater : ∀ timer ∈ s.running, s.settled ≤ timer

instance (s : InterfaceTimers) : DecidablePred s.RunsLaterRollback
  | .beginRollback commit => inferInstanceAs (Decidable (s.settled ≤ commit))
  | .resumeRollback commit _ => inferInstanceAs (Decidable (s.settled ≤ commit))
  | .commit _ | .validated _ _ | .synced _ _ | .rolledBack _ | .checkin
  | .cancelRollback | .rollback | .expire _ => isTrue trivial

open TransitionSystem

section

variable {s next : InterfaceTimers}

theorem tidy_init : init.Tidy where
  pending := Or.inl rfl
  pendingLater _ htimer := absurd htimer not_mem_nil
  createdLater _ htimer := absurd htimer not_mem_nil
  runningLater _ htimer := absurd htimer not_mem_nil

theorem Tidy.setCommit (htidy : s.Tidy) (commit : ℕ)
    (call : Option CommitCall) : (s.setCommit commit call).Tidy := { htidy with }

theorem Tidy.pending_cancelTimer (htidy : s.Tidy) : s.cancelTimer.pending = [] := by
  cases htidy.pending with
  | inl hnone => simp [cancelTimer, hnone]
  | inr hone =>
    obtain ⟨timer, hpending, hhandle⟩ := hone
    simp [cancelTimer, hpending, hhandle]

theorem Tidy.cancelTimer (htidy : s.Tidy) : s.cancelTimer.Tidy := { htidy with
  pending := Or.inl htidy.pending_cancelTimer
  pendingLater timer htimer := by
    rw [htidy.pending_cancelTimer] at htimer
    exact absurd htimer not_mem_nil }

theorem Tidy.length_pending (htidy : s.Tidy) : s.pending.length ≤ 1 := by
  cases htidy.pending with
  | inl hnone => simp [hnone]
  | inr hone =>
    obtain ⟨timer, hpending, _⟩ := hone
    simp [hpending]

end

/-! ## What a step keeps -/

section

variable {s next : InterfaceTimers}

variable (htidy : s.Tidy)

include htidy

theorem Tidy.checkinImpl (hcreated : s.created = []) (hrunning : s.running = []) :
    s.checkinImpl.Tidy where
  pending := Or.inl htidy.pending_cancelTimer
  pendingLater timer htimer := by
    have hnone : timer ∈ s.cancelTimer.pending := htimer
    rw [htidy.pending_cancelTimer] at hnone
    exact absurd hnone not_mem_nil
  createdLater timer htimer := by
    have hnone : timer ∈ s.created := htimer
    rw [hcreated] at hnone
    exact absurd hnone not_mem_nil
  runningLater timer htimer := by
    have hnone : timer ∈ s.running := htimer
    rw [hrunning] at hnone
    exact absurd hnone not_mem_nil

variable {commit : ℕ}

theorem Tidy.schedule (hpending : s.pending = []) (hlater : s.settled ≤ commit) :
    Tidy { s with rollbackTimer := some commit
                  pending := commit :: s.pending } := { htidy with
  pending := Or.inr ⟨commit, by simp [hpending], rfl⟩
  pendingLater timer htimer := by
    rw [hpending, mem_singleton] at htimer
    rw [htimer]
    exact hlater }

theorem Tidy.synced {call : CommitCall} {succeeds : Bool}
    (horderly : succeeds = true → call.options.rollback = true → call.options.checkinTimeout ≠ 0 →
        s.pending = [] ∧ s.settled ≤ commit) : (s.synced commit call succeeds).Tidy := by
  unfold InterfaceTimers.synced
  cases succeeds with
  | true =>
    by_cases hschedule : call.options.rollback = true ∧ call.options.checkinTimeout ≠ 0
    · rw [if_pos hschedule]
      have hfree := horderly rfl hschedule.1 hschedule.2
      exact (htidy.setCommit commit none).schedule hfree.1 hfree.2
    · rw [if_neg hschedule]
      exact htidy.setCommit commit none
  | false =>
    by_cases hrollback : call.options.rollback = true
    · rw [if_pos hrollback]
      exact htidy.cancelTimer.setCommit commit _
    · rw [if_neg hrollback]
      exact htidy.setCommit commit none

theorem Tidy.expire (hmem : commit ∈ s.pending) :
    Tidy { s with pending := s.pending.erase commit, created := commit :: s.created } where
  pending := by
    cases htidy.pending with
    | inl hnone => simp [hnone]
    | inr hone =>
      obtain ⟨timer, hpending, _⟩ := hone
      rw [hpending, mem_singleton] at hmem
      simp [hpending, hmem]
  pendingLater timer htimer := htidy.pendingLater timer (mem_of_mem_erase htimer)
  createdLater := by
    rw [forall_mem_cons]
    exact ⟨htidy.pendingLater commit hmem, htidy.createdLater⟩
  runningLater := htidy.runningLater

theorem Tidy.beginRollback (hmem : commit ∈ s.created) :
    Tidy { s.cancelTimer with created := s.created.erase commit
                              running := commit :: s.running } where
  pending := htidy.cancelTimer.pending
  pendingLater := htidy.cancelTimer.pendingLater
  createdLater timer htimer := htidy.createdLater timer (mem_of_mem_erase htimer)
  runningLater := by
    rw [forall_mem_cons]
    exact ⟨htidy.createdLater commit hmem, htidy.runningLater⟩

theorem Tidy.resumeRollback (commit : ℕ) (ends : Bool) : Tidy { s with
    running := if ends then s.running.erase commit else s.running } := { htidy with
  runningLater timer htimer := by
    cases ends with
    | true => exact htidy.runningLater timer (mem_of_mem_erase htimer)
    | false => exact htidy.runningLater timer htimer }

theorem Tidy.step {a : Action} (horderly : s.Orderly a) (hstep : step s a = some next) :
    next.Tidy := by
  cases a with
  | commit options =>
    cases hstep
    exact ⟨htidy.pending, htidy.pendingLater, htidy.createdLater, htidy.runningLater⟩
  | validated commit valid =>
    simp only [InterfaceTimers.step] at hstep
    split at hstep
    · cases hstep
      exact htidy.setCommit commit _
    · cases hstep
  | synced commit succeeds =>
    simp only [InterfaceTimers.step] at hstep
    split at hstep
    · rename_i options hcall
      cases hstep
      exact htidy.synced (horderly _ hcall)
    · cases hstep
  | rolledBack commit =>
    simp only [InterfaceTimers.step] at hstep
    split at hstep
    · cases hstep
      exact htidy.setCommit commit none
    · cases hstep
  | checkin =>
    cases hstep
    exact htidy.checkinImpl horderly.1 horderly.2
  | cancelRollback =>
    cases hstep
    exact htidy.checkinImpl horderly.1 horderly.2
  | rollback =>
    cases hstep
    exact htidy.cancelTimer
  | expire commit =>
    obtain ⟨hguard, rfl⟩ := ite_some_none_eq_some.mp hstep
    exact htidy.expire hguard
  | beginRollback commit =>
    obtain ⟨hguard, rfl⟩ := ite_some_none_eq_some.mp hstep
    exact htidy.beginRollback hguard
  | resumeRollback commit ends =>
    obtain ⟨_, rfl⟩ := ite_some_none_eq_some.mp hstep
    exact htidy.resumeRollback commit ends

theorem Tidy.runsLaterRollback {a : Action} (hstep : InterfaceTimers.step s a = some next) :
    s.RunsLaterRollback a := by
  cases a with
  | beginRollback commit =>
    simp only [InterfaceTimers.step, ite_none_right_eq_some] at hstep
    exact htidy.createdLater commit hstep.1
  | resumeRollback commit ends =>
    simp only [InterfaceTimers.step, ite_none_right_eq_some] at hstep
    exact htidy.runningLater commit hstep.1
  | commit options => trivial
  | validated commit valid => trivial
  | synced commit succeeds => trivial
  | rolledBack commit => trivial
  | checkin => trivial
  | cancelRollback => trivial
  | rollback => trivial
  | expire commit => trivial

end

theorem everyStep_runsLaterRollback {s t : InterfaceTimers} {actions : List Action} (htidy : s.Tidy)
    (hrun : run step s actions = some t)
    (horderly : EveryStep step Orderly s actions) :
    EveryStep step RunsLaterRollback s actions :=
  horderly.imp_of_invariant Tidy (fun _ _ _ ht hstepOrderly hnext => ht.step hstepOrderly hnext)
    (fun _ _ _ ht _ hnext => ht.runsLaterRollback hnext) htidy hrun

/-- In an orderly run no rollback that an earlier commit has scheduled runs
after a check-in, and at most one timer is ever pending. -/
theorem orderly_run_settles {s : InterfaceTimers} {actions : List Action}
    (hrun : run step init actions = some s)
    (horderly : EveryStep step Orderly init actions) :
    EveryStep step RunsLaterRollback init actions ∧ ∀ k u, run step init (actions.take k) = some u →
        u.pending.length ≤ 1 := by
  constructor
  · exact everyStep_runsLaterRollback tidy_init hrun horderly
  · intro k u hu
    have hfirst : EveryStep step Orderly init (actions.take k) := by
      rw [← take_append_drop k actions] at horderly
      exact (horderly.of_append hu).1
    have htidy : u.Tidy := run_invariant_of_everyStep (fun _ _ _ ht hg hs => Tidy.step ht hg hs)
        tidy_init hfirst hu
    exact htidy.length_pending

def defaultOptions : CommitOptions := ⟨true, 60⟩

def schedule (commit : ℕ) : List Action :=
  [.commit defaultOptions, .validated commit true, .synced commit true]

def expiry (commit : ℕ) : List Action :=
  [.expire commit, .beginRollback commit, .resumeRollback commit true]

def separateCommits : List Action :=
  schedule 0 ++ expiry 0 ++ schedule 1 ++ [.checkin]

theorem separateCommits_settle : EveryStep step RunsLaterRollback init separateCommits ∧
    ∀ k u, run step init (separateCommits.take k) = some u → u.pending.length ≤ 1 := by
  refine @orderly_run_settles _ separateCommits rfl ?_
  simp [separateCommits, schedule, expiry, EveryStep, step, Orderly, init,
    synced, setCommit, cancelTimer, defaultOptions]

def twoCommits : List Action :=
  schedule 0 ++ schedule 1 ++ [.checkin] ++ expiry 0

/-- The timer of the first commit survives the check-in of the second. -/
theorem twoCommits_rolled_back_after_checkin : (run step init twoCommits).isSome = true ∧
    ¬ EveryStep step RunsLaterRollback init twoCommits ∧
    (run step init (twoCommits.take 6)).map (·.pending) = some [1, 0] := by
  decide

end InterfaceTimers

end Middlewared
