import Middlewared.JobCredentials

/-!
# Submitting a job from a thread

A thread that submits a job schedules a callback on the event loop and waits for an event that the
callback sets.
-/

namespace Middlewared.JobHandoff

open TransitionSystem Option

inductive ThreadPhase where
  | waiting
  | finished (result : Except JobError JobId)

/-- `pending` while the callback has not been run, `job` once it has set it. -/
structure Handoff where
  queue : JobsQueue
  pending : Bool
  job : Option JobId
  event : Bool
  thread : ThreadPhase

/-- What a direct call of `add` gives. -/
def result : JobsQueue.AddOutcome → Except JobError JobId
  | .added job => .ok job
  | .replaced job => .ok job
  | .raised error => .error error

/-- After `call_soon_threadsafe`. -/
def scheduled (queue : JobsQueue) : Handoff where
  queue := queue
  pending := true
  job := none
  event := false
  thread := .waiting

/-- `cb`.  Where `add` raises, the exception ends the callback and goes to the
exception handler of the loop. -/
def runCallback (spec : JobSpec) (state : Handoff) : Handoff :=
  let called := { state with queue := (state.queue.add spec).1, pending := false }
  match result (state.queue.add spec).2 with
  | .ok job => { called with job := some job, event := true }
  | .error _ => called

inductive HandoffAction where
  | loop (action : JobsQueue.Action)
  | callback
  | wake

def step (spec : JobSpec) (state : Handoff) : HandoffAction → Option Handoff
  | .loop action =>
    (state.queue.step action).map fun queue => { state with queue }
  | .callback => if state.pending then some (runCallback spec state) else none
  | .wake =>
    match state.event, state.thread, state.job with
    | true, .waiting, some job =>
      some { state with thread := .finished (.ok job) }
    | _, _, _ => none

/-- The thread has returned or raised this result, or does so as soon as it
runs. -/
def Released (spec : JobSpec) (state : Handoff)
    (result : Except JobError JobId) : Prop :=
  state.thread = .finished result ∨ state.thread = .waiting ∧
      step spec state .wake = some { state with thread := .finished result }

def NothingToReuse (q : JobsQueue) (spec : JobSpec) : Prop :=
  ∃ credential user, spec.credentials = some credential ∧
    credentialIsLimitedToOwnJobs (some credential) = true ∧
    credential.user = some user ∧
    ∀ job, q.searchEnd user (q.competitors spec) = some job → q.isInternal job = true

/-- The lock has no name, or its queue is full and nothing can be given back, or
the job is queued and cannot be encoded. -/
def Refused (q : JobsQueue) (spec : JobSpec) : Prop :=
  (∃ error, spec.lockName = .error error) ∨
    (q.isFull spec = true ∧ (spec.lockQueueSize = some 0 ∨ NothingToReuse q spec)) ∨
    (q.isFull spec = false ∧ spec.encodeError.isSome = true)

variable {spec : JobSpec} {q : JobsQueue}

theorem not_nothingToReuse_of_not_limited
    (hlimited : credentialIsLimitedToOwnJobs spec.credentials = false) :
    ¬NothingToReuse q spec := by
  rintro ⟨credential, user, hcredentials, hcontra, -, -⟩
  rw [hcredentials, hcontra] at hlimited
  cases hlimited

theorem replacement_raises_iff (hne : q.competitors spec ≠ []) :
    (∃ error, q.replacement spec.credentials (q.competitors spec) =
      .error error) ↔ NothingToReuse q spec := by
  cases hlimited : credentialIsLimitedToOwnJobs spec.credentials with
  | false =>
    obtain ⟨job, rest, hjobs⟩ := List.exists_cons_of_ne_nil hne
    rw [hjobs, JobsQueue.replacement_of_not_limited hlimited]
    simp [not_nothingToReuse_of_not_limited hlimited]
  | true =>
    cases hcredentials : spec.credentials with
    | none =>
      rw [hcredentials] at hlimited
      cases hlimited
    | some credential =>
      rw [hcredentials] at hlimited
      obtain ⟨user, huser⟩ := JobsQueue.exists_user_of_limited hlimited
      have hreuse : NothingToReuse q spec ↔
          ∀ job, q.searchEnd user (q.competitors spec) = some job → q.isInternal job = true := by
        simp [NothingToReuse, hcredentials, hlimited, huser]
      rw [JobsQueue.replacement_of_limited hlimited huser, hreuse]
      cases q.searchEnd user (q.competitors spec) with
      | none => simp
      | some job => cases hinternal : q.isInternal job <;> simp [hinternal]

theorem add_raises_iff (hsound : q.Sound) (hcreated : q.DequeCreated) (spec : JobSpec) :
    (∃ error, (q.add spec).2 = .raised error) ↔ Refused q spec := by
  rw [JobsQueue.add_outcome hsound hcreated]
  unfold Refused
  cases hname : spec.lockName with
  | error error => simp
  | ok name =>
    cases hfull : q.isFull spec with
    | false => cases spec.encodeError <;> simp
    | true =>
      cases hsize : spec.lockQueueSize with
      | none =>
        rw [JobsQueue.isFull, hsize] at hfull
        cases hfull
      | some size =>
        cases size with
        | zero => simp
        | succ size =>
          have hne : q.competitors spec ≠ [] := by
            rw [JobsQueue.isFull, hsize, JobsQueue.lockFull, decide_eq_true_eq] at hfull
            apply List.ne_nil_of_length_pos
            rw [JobsQueue.competitors, List.length_reverse]
            omega
          have hraises := replacement_raises_iff hne
          simp only [if_true, true_and, reduceCtorEq, exists_false, false_or, false_and, or_false,
            some.injEq, Nat.succ_ne_zero, ← hraises]
          cases q.replacement spec.credentials (q.competitors spec) <;> simp

/-! ## Runs -/

structure Waiting (state : Handoff) : Prop where
  thread : state.thread = .waiting
  event : state.event = false

variable {state next : Handoff} {action : HandoffAction}

theorem waiting_step (hpending : state.pending = false)
    (hwaiting : Waiting state) (hnext : step spec state action = some next) :
    next.pending = false ∧ Waiting next := by
  cases action with
  | loop action =>
    rcases map_eq_some_iff.mp hnext with ⟨queue, -, rfl⟩
    exact ⟨hpending, hwaiting.thread, hwaiting.event⟩
  | callback =>
    simp only [step, hpending, Bool.false_eq_true, if_false] at hnext
    cases hnext
  | wake =>
    simp only [step, hwaiting.event] at hnext
    cases hnext

theorem waiting_run {last : Handoff} {actions : List HandoffAction}
    (hpending : state.pending = false) (hwaiting : Waiting state)
    (hrun : run (step spec) state actions = some last) : Waiting last :=
  (run_invariant (p := fun state : Handoff => state.pending = false ∧ Waiting state)
    (fun _ _ _ hinv hnext => waiting_step hinv.1 hinv.2 hnext)
    ⟨hpending, hwaiting⟩ hrun).2

theorem not_released_of_waiting (hwaiting : Waiting state)
    (result : Except JobError JobId) : ¬Released spec state result := by
  rintro (hfinished | ⟨-, hwake⟩)
  · rw [hwaiting.thread] at hfinished
    cases hfinished
  · simp only [step, hwaiting.event] at hwake
    cases hwake

structure Answered (job : JobId) (state : Handoff) : Prop where
  pending : state.pending = false
  answer : state.job = some job
  event : state.event = true
  thread : state.thread = .waiting ∨ state.thread = .finished (.ok job)

theorem answered_step {job : JobId} (hanswered : Answered job state)
    (hnext : step spec state action = some next) : Answered job next := by
  cases action with
  | loop action =>
    rcases map_eq_some_iff.mp hnext with ⟨queue, -, rfl⟩
    exact ⟨hanswered.pending, hanswered.answer, hanswered.event, hanswered.thread⟩
  | callback =>
    simp only [step, hanswered.pending, Bool.false_eq_true, if_false] at hnext
    cases hnext
  | wake =>
    simp only [step, hanswered.event, hanswered.answer] at hnext
    split at hnext
    · rename_i hjob
      cases hjob
      cases hnext
      exact ⟨hanswered.pending, rfl, rfl, Or.inr rfl⟩
    · cases hnext

theorem released_of_answered {job : JobId} (hanswered : Answered job state) :
    Released spec state (.ok job) := by
  rcases hanswered.thread with hwaiting | hfinished
  · refine Or.inr ⟨hwaiting, ?_⟩
    simp only [step, hanswered.event, hwaiting, hanswered.answer]
  · exact Or.inl hfinished

theorem pending_runCallback (spec : JobSpec) (state : Handoff) :
    (runCallback spec state).pending = false := by
  unfold runCallback
  cases result (state.queue.add spec).2 <;> rfl

theorem queue_runCallback (spec : JobSpec) (state : Handoff) :
    (runCallback spec state).queue = (state.queue.add spec).1 := by
  unfold runCallback
  cases result (state.queue.add spec).2 <;> rfl

structure Scheduled (state : Handoff) : Prop where
  sound : state.queue.Sound
  created : state.queue.DequeCreated
  waiting : state.pending = true → Waiting state

theorem scheduled_step (hscheduled : Scheduled state)
    (hnext : step spec state action = some next) : Scheduled next := by
  cases action with
  | loop action =>
    rcases map_eq_some_iff.mp hnext with ⟨queue, hqueue, rfl⟩
    exact {
      sound := JobsQueue.step_sound hscheduled.sound hqueue
      created := JobsQueue.step_dequeCreated hscheduled.sound
        hscheduled.created hqueue
      waiting := fun hpending =>
        ⟨(hscheduled.waiting hpending).thread,
          (hscheduled.waiting hpending).event⟩ }
  | callback =>
    simp only [step] at hnext
    split at hnext
    · cases hnext
      refine ⟨?_, ?_, ?_⟩
      · rw [queue_runCallback]
        exact hscheduled.sound.add spec
      · rw [queue_runCallback]
        exact hscheduled.created.add spec
      · rw [pending_runCallback]
        intro hpending
        cases hpending
    · cases hnext
  | wake =>
    simp only [step] at hnext
    split at hnext
    · rename_i hevent _ _
      cases hnext
      refine ⟨hscheduled.sound, hscheduled.created, ?_⟩
      intro hpending
      rw [(hscheduled.waiting hpending).event] at hevent
      cases hevent
    · cases hnext

theorem scheduled_run {actions : List HandoffAction} (hsound : q.Sound) (hcreated : q.DequeCreated)
    (hrun : run (step spec) (scheduled q) actions = some state) :
    Scheduled state :=
  run_invariant (p := Scheduled) (fun _ _ _ => scheduled_step)
    ⟨hsound, hcreated, fun _ => ⟨rfl, rfl⟩⟩ hrun

theorem run_callback_cons {last : Handoff} {later : List HandoffAction}
    (hpending : state.pending = true) :
    run (step spec) state (.callback :: later) = some last ↔
      run (step spec) (runCallback spec state) later = some last := by
  rw [run_cons_eq_some_iff]
  simp [step, hpending]

/-- Whatever the loop does before and after the callback, a job that is
submitted from a thread gives what `add` gives exactly when `add` does not
refuse it. -/
theorem submitted_iff {queueActions : List JobsQueue.Action} {q : JobsQueue}
    (hqueue : run JobsQueue.step JobsQueue.init queueActions = some q)
    {spec : JobSpec} {before : List HandoffAction} {state : Handoff}
    (hbefore : run (step spec) (scheduled q) before = some state)
    (hpending : state.pending = true) :
    (∀ later last, run (step spec) state (.callback :: later) = some last →
        Released spec last (result (state.queue.add spec).2)) ↔
      ¬Refused state.queue spec := by
  obtain ⟨hsound, hcreated⟩ := JobsQueue.run_sound_and_created hqueue
  have hscheduled := scheduled_run hsound hcreated hbefore
  have hraises := add_raises_iff hscheduled.sound hscheduled.created spec
  have hwaiting := hscheduled.waiting hpending
  constructor
  · intro hreleased hrefused
    rcases hraises.mpr hrefused with ⟨error, herror⟩
    have hlost : Waiting (runCallback spec state) := by
      unfold runCallback
      rw [herror]
      exact ⟨hwaiting.thread, hwaiting.event⟩
    exact not_released_of_waiting hlost _ (hreleased [] (runCallback spec state)
      ((run_callback_cons hpending).mpr rfl))
  · intro haccepted later last hrun
    rw [run_callback_cons hpending] at hrun
    have hjob : ∃ job, result (state.queue.add spec).2 = .ok job := by
      cases houtcome : (state.queue.add spec).2 with
      | added job => exact ⟨job, rfl⟩
      | replaced job => exact ⟨job, rfl⟩
      | raised error => exact absurd (hraises.mp ⟨error, houtcome⟩) haccepted
    rcases hjob with ⟨job, hjob⟩
    have hanswered : Answered job (runCallback spec state) := by
      unfold runCallback
      rw [hjob]
      exact ⟨rfl, rfl, rfl, Or.inl hwaiting.thread⟩
    have hlast := run_invariant (p := Answered job) (fun _ _ _ => answered_step) hanswered hrun
    rw [hjob]
    exact released_of_answered hlast

/-- A user who submits from a thread while a job of the same user waits in the
queue is given that job. -/
theorem submitted_bobWaits : ∃ q,
    run JobsQueue.step JobsQueue.init JobsQueue.bobWaits = some q ∧ ∀ later last,
      run (step JobsQueue.scrubByBob) (scheduled q) (.callback :: later) = some last →
        Released JobsQueue.scrubByBob last (.ok 1) := by
  have hrun : ∃ q, run JobsQueue.step JobsQueue.init JobsQueue.bobWaits = some q ∧
      result (q.add JobsQueue.scrubByBob).2 = .ok 1 ∧ q.isFull JobsQueue.scrubByBob = true ∧
      q.searchEnd JobsQueue.restrictedUser (q.competitors JobsQueue.scrubByBob) = some 1 ∧
      q.isInternal 1 = false := ⟨_, rfl, rfl, by decide, by decide, rfl⟩
  obtain ⟨q, hq, hresult, hfull, hsearch, hinternal⟩ := hrun
  have haccepted : ¬Refused q JobsQueue.scrubByBob := by
    rintro (⟨error, herror⟩ | ⟨-, hsize | ⟨credential, user, hcredential, -, huser, hall⟩⟩ |
      ⟨hroom, -⟩)
    · cases herror
    · cases hsize
    · cases hcredential
      cases huser
      rw [hall 1 hsearch] at hinternal
      cases hinternal
    · rw [hfull] at hroom
      cases hroom
  have hbefore : run (step JobsQueue.scrubByBob) (scheduled q) [] = some (scheduled q) := rfl
  refine ⟨q, hq, ?_⟩
  rw [← hresult]
  exact (submitted_iff hq hbefore rfl).mpr haccepted

/-- A method whose `lock` callable raises for the arguments of the call. -/
def unlockable : JobSpec where
  lockName := JobsQueue.getLockName (.callable none)

/-- When `add` raises, the event of the waiting thread is never set. -/
theorem thread_never_released : (∃ error, (JobsQueue.init.add unlockable).2 = .raised error) ∧
    ∀ later last, run (step unlockable) (scheduled JobsQueue.init) (.callback :: later) =
          some last →
        last.thread = .waiting := by
  refine ⟨⟨_, rfl⟩, ?_⟩
  intro later last hrun
  have hlast := @waiting_run unlockable
    (runCallback unlockable (scheduled JobsQueue.init)) last later rfl
    ⟨rfl, rfl⟩ ((run_callback_cons rfl).mp hrun)
  exact hlast.thread

end Middlewared.JobHandoff
