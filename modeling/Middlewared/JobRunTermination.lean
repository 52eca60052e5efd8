import Middlewared.JobRun
import Middlewared.JobsQueueLocks

/-!
# Every started job terminates

A task that has been started goes through its phases in order and stops after at most six of them.
-/

namespace Middlewared

open Function

section

variable {state new next : JobState} {raised : Option Raised}

theorem JobState.setState_of_isFinal (hfinal : state.isFinal = true)
    (new : JobState) : state.setState new = none := by
  cases state <;> simp_all [setState, isFinal]

namespace RunOutcomes

theorem exceptClauses_of_isFinal (hfinal : state.isFinal = true)
    (raised : Option Raised) : exceptClauses state raised = state := by
  cases raised with
  | none => rfl
  | some raised =>
    cases raised <;> simp [exceptClauses, JobState.setState_of_isFinal hfinal]

theorem runBody_of_isFinal (outcomes : RunOutcomes)
    (hfinal : state.isFinal = true) : (outcomes.runBody state).1 = state := by
  unfold runBody
  rw [JobState.setState_of_isFinal hfinal]
  cases outcomes.method <;> rfl

variable {job : Job}

theorem beginTry_of_isFinal (outcomes : RunOutcomes) (hfinal : job.state.isFinal = true) :
    (outcomes.beginTry job).state = job.state := by
  unfold beginTry
  rw [JobState.setState_of_isFinal hfinal]
  split_ifs
  · exact exceptClauses_of_isFinal hfinal (some .cancelledError)
  · exact exceptClauses_of_isFinal hfinal (some .exception)

theorem endBody_of_isFinal (outcomes : RunOutcomes) (hfinal : job.state.isFinal = true) :
    (outcomes.endBody job).state = job.state := by
  unfold endBody leaveTry
  rw [runBody_of_isFinal outcomes hfinal]
  exact exceptClauses_of_isFinal hfinal _

theorem beginTry_of_waiting (outcomes : RunOutcomes)
    (hwaiting : job.state = .waiting) : ((outcomes.beginTry job).phase = .body ∧
      (outcomes.beginTry job).state = .running) ∨
    ((outcomes.beginTry job).phase = .closingLogs ∧
      (outcomes.beginTry job).state.isFinal = true) := by
  unfold beginTry
  rw [hwaiting]
  split_ifs
  · exact Or.inr ⟨rfl, rfl⟩
  · cases outcomes.runningEvent with
    | none => exact Or.inl ⟨rfl, rfl⟩
    | some raised => cases raised <;> exact Or.inr ⟨rfl, rfl⟩

theorem beginTry_phase (outcomes : RunOutcomes) (job : Job) :
    (outcomes.beginTry job).phase = .body ∨ (outcomes.beginTry job).phase = .closingLogs := by
  unfold beginTry leaveTry
  split_ifs
  · exact Or.inr rfl
  · split
    · exact Or.inr rfl
    · split
      · exact Or.inr rfl
      · exact Or.inl rfl

theorem endBody_of_running (outcomes : RunOutcomes) (hrunning : job.state = .running) :
    (outcomes.endBody job).state.isFinal = true := by
  unfold endBody leaveTry runBody
  rw [hrunning]
  cases outcomes.method with
  | some raised => cases raised <;> rfl
  | none =>
    cases outcomes.progress with
    | none => rfl
    | some raised => cases raised <;> rfl

theorem beginTry_kept (outcomes : RunOutcomes) (job : Job) :
    (outcomes.beginTry job).logs = job.logs ∧ (outcomes.beginTry job).lock = job.lock ∧
      (outcomes.beginTry job).lockName = job.lockName := by
  unfold beginTry leaveTry
  split_ifs
  · exact ⟨rfl, rfl, rfl⟩
  · split
    · exact ⟨rfl, rfl, rfl⟩
    · split <;> exact ⟨rfl, rfl, rfl⟩

end RunOutcomes

end

namespace JobsQueue

variable {q : JobsQueue}

theorem add_jobs_of_ne {spec : JobSpec} {job : JobId} (hne : job ≠ q.nextJob) :
    (q.add spec).1.jobs job = q.jobs job := by
  have hcreated : (q.create spec).jobs job = q.jobs job := by
    simp [create, setJob, hne]
  apply @add_of_steps q (fun next => next.jobs job = q.jobs job) spec hcreated
  intro registered hhandle
  obtain ⟨_, _, _, hothers, _⟩ := handleLock_frame hhandle
  have hregistered := (hothers job hne).trans hcreated
  refine ⟨hregistered, ?_⟩
  rw [enqueue_state, ← hregistered]
  simp [dequeAdd, setJob, hne]

theorem add_jobs_nextJob (q : JobsQueue) (spec : JobSpec) :
    ((q.add spec).1.jobs q.nextJob).phase = .idle ∧
      ((q.add spec).1.jobs q.nextJob).state = .waiting := by
  have hcreated : ((q.create spec).jobs q.nextJob).phase = .idle ∧
      ((q.create spec).jobs q.nextJob).state = .waiting := by
    simp [create, setJob]
  apply @add_of_steps q (fun next => (next.jobs q.nextJob).phase = .idle ∧
    (next.jobs q.nextJob).state = .waiting) spec hcreated
  intro registered hhandle
  have hregistered : (registered.jobs q.nextJob).phase = .idle ∧
      (registered.jobs q.nextJob).state = .waiting := by
    rcases handleLock_cases hhandle with
      ⟨_, hsame⟩ | ⟨name, lock, _, ⟨_, hregister⟩ | ⟨_, _, hregister⟩⟩
    · rw [hsame]
      exact hcreated
    · rw [hregister]
      simpa [register, setJob, setLock] using hcreated
    · rw [hregister]
      simpa [register, makeLock, setJob, setLock] using hcreated
  refine ⟨hregistered, ?_⟩
  rw [enqueue_state]
  simpa [dequeAdd, setJob] using hregistered

inductive Scheduled (q next : JobsQueue) (job : JobId) : Prop
  | kept (hphase : (next.jobs job).phase = (q.jobs job).phase)
      (hstate : (next.jobs job).state = (q.jobs job).state)
      (hlogs : (next.jobs job).logs = (q.jobs job).logs)
  | created (hjob : job = q.nextJob) (hphase : (next.jobs job).phase = .idle)
      (hstate : (next.jobs job).state = .waiting)
  | handedOut (hqueued : job ∈ q.queue) (hphase : (next.jobs job).phase = .started)
      (hstate : (next.jobs job).state = (q.jobs job).state)

theorem Scheduled.of_jobs_eq {next : JobsQueue} {job : JobId}
    (hjobs : next.jobs job = q.jobs job) : Scheduled q next job :=
  .kept (by rw [hjobs]) (by rw [hjobs]) (by rw [hjobs])

theorem scheduled_add (q : JobsQueue) (spec : JobSpec) (job : JobId) :
    Scheduled q (q.add spec).1 job := by
  by_cases hjob : job = q.nextJob
  · rw [hjob]
    obtain ⟨hphase, hstate⟩ := add_jobs_nextJob q spec
    exact .created rfl hphase hstate
  · exact .of_jobs_eq (add_jobs_of_ne hjob)

theorem scheduled_returnJob {found : JobId} (hqueued : found ∈ q.queue)
    (job : JobId) : Scheduled q (q.returnJob found) job := by
  by_cases hjob : job = found
  · rw [hjob]
    exact .handedOut hqueued (by simp [returnJob, setJob]) (by simp [returnJob, setJob])
  · exact .of_jobs_eq (by simp [returnJob, setJob, hjob])

theorem scheduled_nextWake (q : JobsQueue) (job : JobId) : Scheduled q q.nextWake job := by
  rcases nextWake_cases q with ⟨_, hnext⟩ | ⟨found, hqueued, hfound⟩
  · rw [hnext]
    exact .of_jobs_eq rfl
  · rcases hfound with ⟨_, hnext⟩ | ⟨lock, _, _, hnext⟩
    · rw [hnext]
      exact scheduled_returnJob hqueued job
    · rw [hnext]
      exact .of_jobs_eq rfl

theorem scheduled_abort (q : JobsQueue) (target job : JobId) :
    Scheduled q (q.abort target) job := by
  unfold abort
  split_ifs
  · by_cases hjob : job = target
    · rw [hjob]
      exact .kept (by simp [setJob]) (by simp [setJob]) (by simp [setJob])
    · exact .of_jobs_eq (by simp [setJob, hjob])
  · exact .of_jobs_eq rfl

end JobsQueue

/-! ## Where a task stands -/

namespace RunOutcomes

/-- What the phase of a job tells about its state, its `_finished` event and
what its task has come past. -/
def Fits (outcomes : RunOutcomes) (job : Job) (finished : Prop) : Prop :=
  match job.phase with
  | .idle | .started => job.state = .waiting ∧ ¬ finished
  | .logging => job.state = .waiting ∧ job.logs = true ∧ ¬ finished
  | .body =>
    job.state = .running ∧ (job.logs = true → outcomes.startLogging = none) ∧ ¬ finished
  | .closingLogs =>
    job.state.isFinal = true ∧ (job.logs = true → outcomes.startLogging = none) ∧ ¬ finished
  | .closingPipes =>
    job.state.isFinal = true ∧ (job.logs = true →
        outcomes.startLogging = none ∧ outcomes.closeLogs = none) ∧
      ¬ finished
  | .released | .done =>
    job.state.isFinal = true ∧ outcomes.ReachesRelease job.logs ∧ finished
  | .crashed => ¬ outcomes.ReachesRelease job.logs ∧ ¬ finished

theorem Fits.congr {outcomes : RunOutcomes} {job other : Job}
    {finished : Prop} (hfits : outcomes.Fits job finished)
    (hphase : other.phase = job.phase) (hstate : other.state = job.state)
    (hlogs : other.logs = job.logs) : outcomes.Fits other finished := by
  unfold Fits at hfits ⊢
  rw [hphase, hstate, hlogs]
  exact hfits

end RunOutcomes

def RunPhase.remaining : RunPhase → ℕ
  | .idle => 7
  | .started => 6
  | .logging => 5
  | .body => 4
  | .closingLogs => 3
  | .closingPipes => 2
  | .released => 1
  | .done | .crashed => 0

namespace RunOutcomes

structure Advances (outcomes : RunOutcomes) (job next : Job) : Prop where
  logs : next.logs = job.logs
  lock : next.lock = job.lock
  lockName : next.lockName = job.lockName
  stage : next.phase.stage = job.phase.stage
  final : job.state.isFinal = true → next.state = job.state
  remaining : next.phase.remaining < job.phase.remaining
  fits : ∀ {finished : Prop}, outcomes.Fits job finished → outcomes.Fits next finished

section

variable {outcomes : RunOutcomes} {job : Job}

theorem advances_phase {phase : RunPhase} (hstage : phase.stage = job.phase.stage)
    (hremaining : phase.remaining < job.phase.remaining)
    (hfits : ∀ {finished : Prop}, outcomes.Fits job finished →
      outcomes.Fits { job with phase } finished) :
    outcomes.Advances job { job with phase } where
  logs := rfl
  lock := rfl
  lockName := rfl
  stage := hstage
  final := fun _ => rfl
  remaining := hremaining
  fits := hfits

theorem advances_beginTry (hphase : job.phase = .started ∧ job.logs = false ∨
      job.phase = .logging ∧ outcomes.startLogging = none) :
    outcomes.Advances job (outcomes.beginTry job) := by
  obtain ⟨hlogs, hlock, hlockName⟩ := outcomes.beginTry_kept job
  have hstage : job.phase.stage = .holding ∧ 5 ≤ job.phase.remaining := by
    rcases hphase with ⟨hphase, _⟩ | ⟨hphase, _⟩ <;> rw [hphase] <;> decide
  constructor
  · exact hlogs
  · exact hlock
  · exact hlockName
  · rw [hstage.1]
    rcases outcomes.beginTry_phase job with hnext | hnext <;> rw [hnext] <;> rfl
  · exact outcomes.beginTry_of_isFinal
  · apply Nat.lt_of_lt_of_le _ hstage.2
    rcases outcomes.beginTry_phase job with hnext | hnext <;> rw [hnext] <;> decide
  · intro finished hfits
    have hold : job.state = .waiting ∧
        (job.logs = true → outcomes.startLogging = none) ∧ ¬ finished := by
      rcases hphase with ⟨hphase, hnone⟩ | ⟨hphase, hnone⟩
      · simp only [Fits, hphase] at hfits
        exact ⟨hfits.1, fun hlogs => absurd hlogs (by simp [hnone]), hfits.2⟩
      · simp only [Fits, hphase] at hfits
        exact ⟨hfits.1, fun _ => hnone, hfits.2.2⟩
    unfold Fits
    rw [hlogs]
    rcases outcomes.beginTry_of_waiting hold.1 with
      ⟨hnext, hstate⟩ | ⟨hnext, hstate⟩
    · rw [hnext]
      exact ⟨hstate, hold.2⟩
    · rw [hnext]
      exact ⟨hstate, hold.2⟩

theorem advances_endBody (hphase : job.phase = .body) :
    outcomes.Advances job (outcomes.endBody job) := by
  constructor
  · rfl
  · rfl
  · rfl
  · rw [hphase]
    rfl
  · exact outcomes.endBody_of_isFinal
  · have hnext : (outcomes.endBody job).phase = .closingLogs := rfl
    rw [hphase, hnext]
    decide
  · intro finished hfits
    simp only [Fits, hphase] at hfits
    obtain ⟨hrunning, hlogs, hopen⟩ := hfits
    exact ⟨outcomes.endBody_of_running hrunning, hlogs, hopen⟩

theorem advances_started (hphase : job.phase = .started) (hlogs : job.logs = true) :
    outcomes.Advances job { job with phase := .logging } := by
  apply advances_phase
  · rw [hphase]
    rfl
  · rw [hphase]
    decide
  · intro finished hfits
    simp only [Fits, hphase] at hfits
    exact ⟨hfits.1, hlogs, hfits.2⟩

theorem advances_crashed (hphase : job.phase = .logging ∨ job.phase = .closingLogs ∨
      job.phase = .closingPipes)
    (hmissed : ∀ {finished : Prop}, outcomes.Fits job finished →
      ¬ outcomes.ReachesRelease job.logs) :
    outcomes.Advances job { job with phase := .crashed } := by
  apply advances_phase
  · rcases hphase with hphase | hphase | hphase <;> rw [hphase] <;> rfl
  · rcases hphase with hphase | hphase | hphase <;> rw [hphase] <;> decide
  · intro finished hfits
    refine ⟨hmissed hfits, ?_⟩
    rcases hphase with hphase | hphase | hphase
    · simp only [Fits, hphase] at hfits
      exact hfits.2.2
    · simp only [Fits, hphase] at hfits
      exact hfits.2.2
    · simp only [Fits, hphase] at hfits
      exact hfits.2.2

theorem advances_loggingRaised (hphase : job.phase = .logging)
    (hraises : outcomes.startLogging.isSome = true) :
    outcomes.Advances job { job with phase := .crashed } := by
  apply advances_crashed (Or.inl hphase)
  intro finished hfits hreaches
  simp only [Fits, hphase] at hfits
  rw [(hreaches.1 hfits.2.1).1] at hraises
  cases hraises

theorem advances_logsRaised (hphase : job.phase = .closingLogs)
    (hlogs : job.logs = true) (hraises : outcomes.closeLogs.isSome = true) :
    outcomes.Advances job { job with phase := .crashed } := by
  apply advances_crashed (Or.inr (Or.inl hphase))
  intro finished _ hreaches
  rw [(hreaches.1 hlogs).2] at hraises
  cases hraises

theorem advances_pipesRaised (hphase : job.phase = .closingPipes)
    (hraises : outcomes.closePipes.isSome = true) :
    outcomes.Advances job { job with phase := .crashed } := by
  apply advances_crashed (Or.inr (Or.inr hphase))
  intro finished _ hreaches
  rw [hreaches.2] at hraises
  cases hraises

theorem advances_logsClosed (hphase : job.phase = .closingLogs)
    (hlogs : job.logs = true → outcomes.closeLogs = none) :
    outcomes.Advances job { job with phase := .closingPipes } := by
  apply advances_phase
  · rw [hphase]
    rfl
  · rw [hphase]
    decide
  · intro finished hfits
    simp only [Fits, hphase] at hfits
    obtain ⟨hfinal, hlogging, hopen⟩ := hfits
    exact ⟨hfinal, fun h => ⟨hlogging h, hlogs h⟩, hopen⟩

theorem advances_done (hphase : job.phase = .released) :
    outcomes.Advances job { job with phase := .done } := by
  apply advances_phase
  · rw [hphase]
    rfl
  · rw [hphase]
    decide
  · intro finished hfits
    simp only [Fits, hphase] at hfits
    exact hfits

end

end RunOutcomes

namespace JobRuns

open TransitionSystem

/-! ## One piece of a task -/

section

variable {outcomes : RunOutcomes} {runs next : JobRuns} {job : JobId}

structure Advanced (outcomes : RunOutcomes) (runs next : JobRuns)
    (job : JobId) (value : Job) : Prop where
  advances : outcomes.Advances (runs.queue.jobs job) value
  jobs : next.queue.jobs = Function.update runs.queue.jobs job value
  finished : next.finished = runs.finished
  sameLocks : runs.queue.Sound → runs.queue.SameLocks next.queue

theorem advanced_setJob {value : Job} (hadvances : outcomes.Advances (runs.queue.jobs job) value) :
    Advanced outcomes runs (runs.setJob job value) job value where
  advances := hadvances
  jobs := rfl
  finished := rfl
  sameLocks := fun hsound =>
    JobsQueue.sameLocks_setJob hsound hadvances.lock hadvances.stage hadvances.lockName

theorem advanced_complete (hphase : (runs.queue.jobs job).phase = .released) :
    Advanced outcomes runs { runs with queue := runs.queue.complete job } job
      { runs.queue.jobs job with phase := .done } where
  advances := RunOutcomes.advances_done hphase
  jobs := by
    unfold JobsQueue.complete
    simp only
    split_ifs <;> rfl
  finished := rfl
  sameLocks := by
    intro hsound
    apply JobsQueue.sameLocks_complete hsound
    unfold JobsQueue.stage
    rw [hphase]
    rfl

theorem resume_cases (hresume : runs.resume outcomes job = some next) :
    (∃ value, Advanced outcomes runs next job value) ∨
      ((runs.queue.jobs job).phase = .closingPipes ∧
        outcomes.closePipes = none ∧ next = runs.release job) := by
  unfold resume at hresume
  simp only at hresume
  split at hresume
  case h_1 hphase =>
    left
    injection hresume with hnext
    rw [← hnext]
    split_ifs with hlogs
    · exact ⟨_, advanced_setJob (RunOutcomes.advances_started hphase hlogs)⟩
    · exact ⟨_, advanced_setJob (RunOutcomes.advances_beginTry
        (Or.inl ⟨hphase, by simpa using hlogs⟩))⟩
  case h_2 hphase =>
    left
    injection hresume with hnext
    rw [← hnext]
    split_ifs with hraises
    · exact ⟨_, advanced_setJob (RunOutcomes.advances_loggingRaised hphase hraises)⟩
    · exact ⟨_, advanced_setJob (RunOutcomes.advances_beginTry
        (Or.inr ⟨hphase, by simpa using hraises⟩))⟩
  case h_3 hphase =>
    left
    injection hresume with hnext
    rw [← hnext]
    exact ⟨_, advanced_setJob (RunOutcomes.advances_endBody hphase)⟩
  case h_4 hphase =>
    left
    injection hresume with hnext
    rw [← hnext]
    split_ifs with hraises
    · rw [Bool.and_eq_true] at hraises
      exact ⟨_, advanced_setJob (RunOutcomes.advances_logsRaised hphase hraises.1 hraises.2)⟩
    · exact ⟨_, advanced_setJob (RunOutcomes.advances_logsClosed hphase (by simpa using hraises))⟩
  case h_5 hphase =>
    injection hresume with hnext
    rw [← hnext]
    split_ifs with hraises
    · left
      exact ⟨_, advanced_setJob (RunOutcomes.advances_pipesRaised hphase hraises)⟩
    · right
      exact ⟨hphase, by simpa using hraises, rfl⟩
  case h_6 hphase =>
    left
    injection hresume with hnext
    rw [← hnext]
    split_ifs
    · exact ⟨_, advanced_setJob (RunOutcomes.advances_done hphase)⟩
    · exact ⟨_, advanced_complete hphase⟩
  all_goals cases hresume

theorem release_eq (hsound : runs.queue.Sound)
    (hphase : (runs.queue.jobs job).phase = .closingPipes) :
    runs.release job =
      { queue := (runs.queue.dropLock job).setPhase job .released
        finished := insert job runs.finished } := by
  have hstage : runs.queue.stage job = .holding := by
    unfold JobsQueue.stage
    rw [hphase]
    rfl
  unfold release
  rw [JobsQueue.releaseLock_eq hsound hstage]

end

/-! ## The invariant -/

structure Valid (outcomes : JobId → RunOutcomes) (runs : JobRuns) : Prop where
  sound : runs.queue.Sound
  fits : ∀ job, (outcomes job).Fits (runs.queue.jobs job) (job ∈ runs.finished)

section

variable {outcomes : JobId → RunOutcomes} {runs next : JobRuns}
  {action : Action} {job : JobId}

theorem init_valid : Valid outcomes init where
  sound := JobsQueue.init_sound
  fits := fun _ => ⟨rfl, Finset.notMem_empty _⟩

theorem Valid.phase_nextJob (hvalid : Valid outcomes runs) :
    (runs.queue.jobs runs.queue.nextJob).phase = .idle := by
  have hstage := hvalid.sound.stage_nextJob
  unfold JobsQueue.stage at hstage
  cases hphase : (runs.queue.jobs runs.queue.nextJob).phase <;> simp_all [RunPhase.stage]

theorem Valid.phase_of_queued (hvalid : Valid outcomes runs) (hqueued : job ∈ runs.queue.queue) :
    (runs.queue.jobs job).phase = .idle := by
  have hstage := hvalid.sound.queue_before job hqueued
  unfold JobsQueue.stage at hstage
  cases hphase : (runs.queue.jobs job).phase <;> simp_all [RunPhase.stage]

theorem Valid.fits_of_idle (hvalid : Valid outcomes runs)
    (hidle : (runs.queue.jobs job).phase = .idle) :
    (runs.queue.jobs job).state = .waiting ∧ job ∉ runs.finished := by
  have hfits := hvalid.fits job
  simp only [RunOutcomes.Fits, hidle] at hfits
  exact hfits

theorem Valid.fits_scheduled (hvalid : Valid outcomes runs)
    {queue : JobsQueue} (hscheduled : JobsQueue.Scheduled runs.queue queue job) :
    (outcomes job).Fits (queue.jobs job) (job ∈ runs.finished) := by
  cases hscheduled with
  | kept hphase hstate hlogs => exact (hvalid.fits job).congr hphase hstate hlogs
  | created hjob hphase hstate =>
    have hold := hvalid.fits_of_idle hvalid.phase_nextJob
    simp only [RunOutcomes.Fits, hphase]
    exact ⟨hstate, hjob ▸ hold.2⟩
  | handedOut hqueued hphase hstate =>
    have hold := hvalid.fits_of_idle (hvalid.phase_of_queued hqueued)
    simp only [RunOutcomes.Fits, hphase]
    exact ⟨hstate.trans hold.1, hold.2⟩

theorem schedule_cases {coarse : JobsQueue.Action} (hvalid : Valid outcomes runs)
    (hstep : runs.schedule coarse = some next)
    (hscheduled : ∀ queue, runs.queue.step coarse = some queue →
      ∀ job, JobsQueue.Scheduled runs.queue queue job) :
    next.finished = runs.finished ∧ next.queue.Sound ∧
      ∀ job, JobsQueue.Scheduled runs.queue next.queue job := by
  obtain ⟨queue, hqueue, hnext⟩ := Option.map_eq_some_iff.mp hstep
  rw [← hnext]
  exact ⟨rfl, JobsQueue.step_sound hvalid.sound hqueue, hscheduled queue hqueue⟩

theorem step_cases (hvalid : Valid outcomes runs) (hstep : step outcomes runs action = some next) :
    (∃ job, action = .resume job ∧ runs.resume (outcomes job) job = some next) ∨
      ((∀ job, action ≠ .resume job) ∧ next.finished = runs.finished ∧ next.queue.Sound ∧
        ∀ job, JobsQueue.Scheduled runs.queue next.queue job) := by
  cases action with
  | resume job => exact Or.inl ⟨job, rfl, hstep⟩
  | add spec =>
    refine Or.inr ⟨nofun, schedule_cases hvalid hstep ?_⟩
    intro queue hqueue job
    cases hqueue
    exact JobsQueue.scheduled_add _ spec job
  | nextWake =>
    refine Or.inr ⟨nofun, schedule_cases hvalid hstep ?_⟩
    intro queue hqueue job
    simp only [JobsQueue.step] at hqueue
    split_ifs at hqueue
    cases hqueue
    exact JobsQueue.scheduled_nextWake _ job
  | nextAcquired =>
    refine Or.inr ⟨nofun, schedule_cases hvalid hstep ?_⟩
    intro queue hqueue job
    simp only [JobsQueue.step] at hqueue
    split at hqueue
    · cases hqueue
    · rename_i found hfound
      cases hqueue
      exact JobsQueue.scheduled_returnJob (hvalid.sound.acquired found hfound).1 job
  | abort target =>
    refine Or.inr ⟨nofun, schedule_cases hvalid hstep ?_⟩
    intro queue hqueue job
    cases hqueue
    exact JobsQueue.scheduled_abort _ target job

theorem Advanced.valid {value : Job} (hvalid : Valid outcomes runs)
    (hadvanced : Advanced (outcomes job) runs next job value) :
    Valid outcomes next := by
  constructor
  · exact hvalid.sound.of_sameLocks (hadvanced.sameLocks hvalid.sound)
  · intro other
    rw [hadvanced.jobs, hadvanced.finished, update_apply]
    split_ifs with hother
    · rw [hother]
      exact hadvanced.advances.fits (hvalid.fits job)
    · exact hvalid.fits other

theorem release_jobs (hvalid : Valid outcomes runs)
    (hphase : (runs.queue.jobs job).phase = .closingPipes) :
    (runs.release job).queue.jobs = Function.update runs.queue.jobs job
      { runs.queue.jobs job with phase := .released } := by
  rw [release_eq hvalid.sound hphase]
  rfl

theorem Valid.release (hvalid : Valid outcomes runs)
    (hphase : (runs.queue.jobs job).phase = .closingPipes)
    (hpipes : (outcomes job).closePipes = none) :
    Valid outcomes (runs.release job) := by
  have hstage : runs.queue.stage job = .holding := by
    unfold JobsQueue.stage
    rw [hphase]
    rfl
  constructor
  · rw [release_eq hvalid.sound hphase]
    exact hvalid.sound.release hstage
  · intro other
    rw [release_jobs hvalid hphase, update_apply]
    rw [release_eq hvalid.sound hphase, Finset.mem_insert]
    split_ifs with hother
    · rw [hother]
      have hfits := hvalid.fits job
      simp only [RunOutcomes.Fits, hphase] at hfits
      exact ⟨hfits.1, ⟨hfits.2.1, hpipes⟩, Or.inl rfl⟩
    · simpa [hother] using hvalid.fits other

theorem step_valid (hvalid : Valid outcomes runs)
    (hstep : step outcomes runs action = some next) : Valid outcomes next := by
  rcases step_cases hvalid hstep with
    ⟨job, _, hresume⟩ | ⟨_, hfinished, hsound, hscheduled⟩
  · rcases resume_cases hresume with
      ⟨value, hadvanced⟩ | ⟨hphase, hpipes, hnext⟩
    · exact hadvanced.valid hvalid
    · rw [hnext]
      exact hvalid.release hphase hpipes
  · constructor
    · exact hsound
    · intro job
      rw [hfinished]
      exact hvalid.fits_scheduled (hscheduled job)

theorem run_valid {actions : List Action} (hrun : run (step outcomes) init actions = some runs) :
    Valid outcomes runs :=
  run_invariant (fun _ _ _ => step_valid) init_valid hrun

end

/-! ## One job along a run -/

section

variable {outcomes : JobId → RunOutcomes} {runs next : JobRuns}
  {action : Action} {job : JobId}

structure TaskStep (runs next : JobRuns) (action : Action) (job : JobId) :
    Prop where
  started : (next.queue.jobs job).phase ≠ .idle
  logs : (next.queue.jobs job).logs = (runs.queue.jobs job).logs
  final : (runs.queue.jobs job).state.isFinal = true →
    (next.queue.jobs job).state = (runs.queue.jobs job).state
  resumed : action = .resume job → (next.queue.jobs job).phase.remaining <
      (runs.queue.jobs job).phase.remaining
  waits : action ≠ .resume job → (next.queue.jobs job).phase = (runs.queue.jobs job).phase

theorem taskStep_of_scheduled (hvalid : Valid outcomes runs)
    (hstarted : (runs.queue.jobs job).phase ≠ .idle)
    (hother : action ≠ .resume job)
    (hscheduled : JobsQueue.Scheduled runs.queue next.queue job) :
    TaskStep runs next action job := by
  cases hscheduled with
  | kept hphase hstate hlogs =>
    exact ⟨hphase ▸ hstarted, hlogs, fun _ => hstate,
      fun hresume => absurd hresume hother, fun _ => hphase⟩
  | created hjob _ _ =>
    rw [hjob] at hstarted
    exact absurd hvalid.phase_nextJob hstarted
  | handedOut hqueued _ _ =>
    exact absurd (hvalid.phase_of_queued hqueued) hstarted

theorem ne_idle_of_remaining_lt {phase other : RunPhase}
    (hlt : phase.remaining < other.remaining) : phase ≠ .idle := by
  intro hidle
  rw [hidle] at hlt
  cases other <;> simp [RunPhase.remaining] at hlt

theorem resume_jobs (hvalid : Valid outcomes runs)
    (hresume : runs.resume (outcomes job) job = some next) :
    ∃ value, next.queue.jobs = Function.update runs.queue.jobs job value ∧
      value.logs = (runs.queue.jobs job).logs ∧
      ((runs.queue.jobs job).state.isFinal = true → value.state = (runs.queue.jobs job).state) ∧
      value.phase.remaining < (runs.queue.jobs job).phase.remaining := by
  rcases resume_cases hresume with
    ⟨value, hadvanced⟩ | ⟨hphase, _, hnext⟩
  · exact ⟨value, hadvanced.jobs, hadvanced.advances.logs,
      hadvanced.advances.final, hadvanced.advances.remaining⟩
  · refine ⟨{ runs.queue.jobs job with phase := .released },
      hnext ▸ release_jobs hvalid hphase, rfl, fun _ => rfl, ?_⟩
    rw [hphase]
    exact Nat.one_lt_two

theorem step_task (hvalid : Valid outcomes runs) (hstarted : (runs.queue.jobs job).phase ≠ .idle)
    (hstep : step outcomes runs action = some next) :
    TaskStep runs next action job := by
  rcases step_cases hvalid hstep with
    ⟨target, haction, hresume⟩ | ⟨hother, _, _, hscheduled⟩
  · obtain ⟨value, hjobs, hlogs, hfinal, hremaining⟩ := resume_jobs hvalid hresume
    by_cases hjob : target = job
    · rw [hjob] at hjobs hlogs hfinal hremaining
      have hvalue : next.queue.jobs job = value := by
        rw [hjobs, update_self]
      rw [← hvalue] at hlogs hfinal hremaining
      rw [haction, hjob]
      exact ⟨ne_idle_of_remaining_lt hremaining, hlogs, hfinal,
        fun _ => hremaining, fun hne => absurd rfl hne⟩
    · apply taskStep_of_scheduled hvalid hstarted
      · rw [haction]
        simpa using hjob
      · apply JobsQueue.Scheduled.of_jobs_eq
        rw [hjobs, update_of_ne (Ne.symm hjob)]
  · exact taskStep_of_scheduled hvalid hstarted (hother job) (hscheduled job)

def Action.isResume (job : JobId) : Action → Bool
  | .resume target => target = job
  | _ => false

theorem run_task {actions : List Action} (hvalid : Valid outcomes runs)
    (hstarted : (runs.queue.jobs job).phase ≠ .idle)
    (hrun : run (step outcomes) runs actions = some next) :
    (next.queue.jobs job).phase ≠ .idle ∧ (next.queue.jobs job).logs = (runs.queue.jobs job).logs ∧
      ((runs.queue.jobs job).state.isFinal = true →
        (next.queue.jobs job).state = (runs.queue.jobs job).state) ∧
      actions.countP (Action.isResume job) + (next.queue.jobs job).phase.remaining ≤
        (runs.queue.jobs job).phase.remaining := by
  induction actions generalizing runs with
  | nil =>
    cases hrun
    exact ⟨hstarted, rfl, fun _ => rfl, by simp⟩
  | cons action rest ih =>
    obtain ⟨middle, hmiddle, hrest⟩ := run_cons_eq_some_iff.mp hrun
    have htask := step_task hvalid hstarted hmiddle
    obtain ⟨hlater, hlogs, hfinal, hcount⟩ := ih (step_valid hvalid hmiddle) htask.started hrest
    refine ⟨hlater, hlogs.trans htask.logs, ?_, ?_⟩
    · intro hold
      have hstate := htask.final hold
      rw [← hstate] at hold
      exact (hfinal hold).trans hstate
    · by_cases haction : action = .resume job
      · have hless := htask.resumed haction
        rw [haction, List.countP_cons_of_pos (by simp [Action.isResume])]
        omega
      · have hkept := htask.waits haction
        rw [List.countP_cons_of_neg, ← hkept]
        · exact hcount
        · cases action <;> simp_all [Action.isResume]

/-- The task has ended, with `_finished` set or not. -/
def TaskEnded (runs : JobRuns) (job : JobId) : Prop :=
  (runs.queue.jobs job).phase = .done ∨ (runs.queue.jobs job).phase = .crashed

theorem exists_resume (outcomes : JobId → RunOutcomes)
    (hstarted : (runs.queue.jobs job).phase ≠ .idle)
    (hrunning : ¬ TaskEnded runs job) :
    ∃ next, step outcomes runs (.resume job) = some next := by
  unfold TaskEnded at hrunning
  simp only [step, resume]
  cases hphase : (runs.queue.jobs job).phase <;> simp_all

theorem exists_taskEnded (hvalid : Valid outcomes runs)
    (hstarted : (runs.queue.jobs job).phase ≠ .idle) :
    ∃ count next, count ≤ (runs.queue.jobs job).phase.remaining ∧
      run (step outcomes) runs (List.replicate count (.resume job)) = some next ∧
      TaskEnded next job := by
  induction hleft : (runs.queue.jobs job).phase.remaining using
    Nat.strong_induction_on generalizing runs with
  | _ left ih =>
    by_cases hended : TaskEnded runs job
    · exact ⟨0, runs, Nat.zero_le _, rfl, hended⟩
    · obtain ⟨middle, hmiddle⟩ := exists_resume outcomes hstarted hended
      have htask := step_task hvalid hstarted hmiddle
      have hless := htask.resumed rfl
      rw [hleft] at hless
      obtain ⟨count, next, hcount, hrun, hend⟩ :=
        ih _ hless (step_valid hvalid hmiddle) htask.started rfl
      refine ⟨count + 1, next, by omega, ?_, hend⟩
      exact run_cons_eq_some_iff.mpr ⟨middle, hmiddle, hrun⟩

end

/-! ## Clean termination -/

section

variable {outcomes : JobId → RunOutcomes} {runs next : JobRuns}
  {action : Action} {actions : List Action} {job : JobId}

/-- The state of the job is final, its lock is released and `_finished` is
set. -/
structure Clean (runs : JobRuns) (job : JobId) : Prop where
  final : (runs.queue.jobs job).state.isFinal = true
  released : ∀ lock, runs.queue.lockOf job = some lock →
    job ∉ (runs.queue.locks lock).jobs ∧ (runs.queue.locks lock).locked = false
  finished : job ∈ runs.finished

def ReachesClean (outcomes : JobId → RunOutcomes) (actions : List Action)
    (job : JobId) : Prop :=
  ∃ first rest runs, actions = first ++ rest ∧
    run (step outcomes) init first = some runs ∧ Clean runs job

theorem clean_release (hvalid : Valid outcomes runs)
    (hphase : (runs.queue.jobs job).phase = .closingPipes) :
    Clean (runs.release job) job := by
  have hfits := hvalid.fits job
  simp only [RunOutcomes.Fits, hphase] at hfits
  rw [release_eq hvalid.sound hphase]
  constructor
  · simpa [JobsQueue.setPhase, JobsQueue.setJob, JobsQueue.dropLock] using
      hfits.1
  · intro lock hlock
    rw [JobsQueue.released_lockOf] at hlock
    have hread : (((runs.queue.dropLock job).setPhase job .released).locks
        lock) = (runs.queue.dropLock job).locks lock := rfl
    rw [hread, JobsQueue.dropLock_locks, if_pos hlock]
    exact ⟨Finset.notMem_erase _ _, rfl⟩
  · exact Finset.mem_insert_self _ _

theorem step_clean (hvalid : Valid outcomes runs) (hstep : step outcomes runs action = some next)
    (hbefore : job ∉ runs.finished) (hafter : job ∈ next.finished) :
    Clean next job := by
  rcases step_cases hvalid hstep with
    ⟨target, _, hresume⟩ | ⟨_, hfinished, _⟩
  · rcases resume_cases hresume with
      ⟨value, hadvanced⟩ | ⟨hphase, _, hnext⟩
    · rw [hadvanced.finished] at hafter
      exact absurd hafter hbefore
    · rw [hnext, release_eq hvalid.sound hphase] at hafter
      rcases Finset.mem_insert.mp hafter with hjob | hold
      · rw [hnext, hjob]
        exact clean_release hvalid hphase
      · exact absurd hold hbefore
  · rw [hfinished] at hafter
    exact absurd hafter hbefore

theorem reachesClean_of_finished (hrun : run (step outcomes) init actions = some runs)
    (hfinished : job ∈ runs.finished) : ReachesClean outcomes actions job := by
  induction actions using List.reverseRecOn generalizing runs with
  | nil =>
    cases hrun
    exact absurd hfinished (Finset.notMem_empty _)
  | append_singleton actions action ih =>
    have hwhole := hrun
    rw [run_append, Option.bind_eq_some_iff] at hrun
    obtain ⟨middle, hmiddle, hlast⟩ := hrun
    obtain ⟨next, hstep, hnext⟩ := run_cons_eq_some_iff.mp hlast
    cases hnext
    by_cases hearlier : job ∈ middle.finished
    · obtain ⟨first, rest, u, hactions, hu, hclean⟩ := ih hmiddle hearlier
      refine ⟨first, rest ++ [action], u, ?_, hu, hclean⟩
      rw [hactions, List.append_assoc]
    · exact ⟨actions ++ [action], [], runs, by simp, hwhole,
        step_clean (run_valid hmiddle) hstep hearlier hfinished⟩

/-- What every continuation of a run owes to a job that has been started. -/
structure TerminatesCleanly (outcomes : JobId → RunOutcomes)
    (actions : List Action) (runs : JobRuns) (job : JobId) : Prop where
  goesOn : ∀ rest next, run (step outcomes) runs rest = some next → ¬ TaskEnded next job →
      ∃ later, step outcomes next (.resume job) = some later
  bounded : ∀ rest next, run (step outcomes) runs rest = some next →
    rest.countP (Action.isResume job) ≤ 6
  clean : ∀ rest next, run (step outcomes) runs rest = some next →
    TaskEnded next job → ReachesClean outcomes (actions ++ rest) job
  stays : ∀ rest next, run (step outcomes) runs rest = some next →
    (runs.queue.jobs job).state.isFinal = true →
      (next.queue.jobs job).state = (runs.queue.jobs job).state

theorem started_of_returned (hvalid : Valid outcomes runs) (hreturned : job ∈ runs.queue.returned) :
    (runs.queue.jobs job).phase ≠ .idle := by
  intro hidle
  apply (hvalid.sound.returned_iff job).mp hreturned
  unfold JobsQueue.stage
  rw [hidle]
  rfl

theorem remaining_le_six {phase : RunPhase} (hphase : phase ≠ .idle) : phase.remaining ≤ 6 := by
  cases phase <;> simp_all [RunPhase.remaining]

theorem Valid.reachesRelease_of_finished (hvalid : Valid outcomes runs)
    (hfinished : job ∈ runs.finished) :
    (runs.queue.jobs job).phase ≠ .idle ∧
      (outcomes job).ReachesRelease (runs.queue.jobs job).logs := by
  have hfits := hvalid.fits job
  unfold RunOutcomes.Fits at hfits
  split at hfits <;> simp_all

theorem Valid.not_reachesRelease_of_crashed (hvalid : Valid outcomes runs)
    (hcrashed : (runs.queue.jobs job).phase = .crashed) :
    ¬ (outcomes job).ReachesRelease (runs.queue.jobs job).logs := by
  have hfits := hvalid.fits job
  simp only [RunOutcomes.Fits, hcrashed] at hfits
  exact hfits.1

theorem Valid.finished_of_done (hvalid : Valid outcomes runs)
    (hdone : (runs.queue.jobs job).phase = .done) : job ∈ runs.finished := by
  have hfits := hvalid.fits job
  simp only [RunOutcomes.Fits, hdone] at hfits
  exact hfits.2.2

theorem ReachesClean.reachesRelease (hclean : ReachesClean outcomes actions job)
    (hrun : run (step outcomes) init actions = some runs) :
    (outcomes job).ReachesRelease (runs.queue.jobs job).logs := by
  obtain ⟨first, rest, middle, hactions, hmiddle, hclean⟩ := hclean
  have hvalid := run_valid hmiddle
  obtain ⟨hstarted, hreaches⟩ := hvalid.reachesRelease_of_finished hclean.finished
  rw [hactions, run_append, hmiddle] at hrun
  rw [(run_task hvalid hstarted hrun).2.1]
  exact hreaches

/-- Every job that `next` has returned terminates cleanly, exactly when its
task does not raise before its `try` block or, in the `finally` block, before
the lock is released. -/
theorem terminatesCleanly_iff (hrun : run (step outcomes) init actions = some runs)
    (hreturned : job ∈ runs.queue.returned) :
    TerminatesCleanly outcomes actions runs job ↔
      (outcomes job).ReachesRelease (runs.queue.jobs job).logs := by
  have hvalid := run_valid hrun
  have hstarted := started_of_returned hvalid hreturned
  constructor
  · intro hclean
    obtain ⟨count, next, _, hrest, hended⟩ := exists_taskEnded hvalid hstarted
    have hwhole : run (step outcomes) init
        (actions ++ List.replicate count (.resume job)) = some next := by
      rw [run_append, hrun]
      exact hrest
    rw [← (run_task hvalid hstarted hrest).2.1]
    exact (hclean.clean _ next hrest hended).reachesRelease hwhole
  · intro hreaches
    constructor
    · intro rest next hrest hrunning
      exact exists_resume outcomes (run_task hvalid hstarted hrest).1 hrunning
    · intro rest next hrest
      have hcount := (run_task hvalid hstarted hrest).2.2.2
      have hsix := remaining_le_six hstarted
      omega
    · intro rest next hrest hended
      have hwhole : run (step outcomes) init (actions ++ rest) = some next := by
        rw [run_append, hrun]
        exact hrest
      have hlater := run_valid hwhole
      rcases hended with hdone | hcrashed
      · exact reachesClean_of_finished hwhole (hlater.finished_of_done hdone)
      · apply absurd _ (hlater.not_reachesRelease_of_crashed hcrashed)
        rw [(run_task hvalid hstarted hrest).2.1]
        exact hreaches
    · intro rest next hrest
      exact (run_task hvalid hstarted hrest).2.2.1

end

def loggedJob : JobSpec :=
  { lockName := .ok (some "pool.scrub"), logs := true }

def handedOut : List Action := [.add loggedJob, .nextWake, .nextAcquired]

def failingMethod : JobId → RunOutcomes :=
  fun _ => { method := some .exception }

theorem failingMethod_terminatesCleanly :
    ∃ runs, run (step failingMethod) init handedOut = some runs ∧ 0 ∈ runs.queue.returned ∧
      TerminatesCleanly failingMethod handedOut runs 0 :=
  ⟨_, rfl, by decide, (terminatesCleanly_iff rfl (by decide)).mpr (by decide)⟩

def failingLog : JobId → RunOutcomes :=
  fun _ => { startLogging := some .exception }

/-- A log that cannot be opened ends the task before the `try`, with the lock held. -/
theorem failingLog_keeps_lock : ∃ runs next, run (step failingLog) init handedOut = some runs ∧
    0 ∈ runs.queue.returned ∧
    run (step failingLog) runs [.resume 0, .resume 0] = some next ∧
    TaskEnded next 0 ∧
    (next.queue.jobs 0).state = .waiting ∧
    (next.queue.locks 0).locked = true ∧ 0 ∉ next.finished ∧
    ¬ TerminatesCleanly failingLog handedOut runs 0 := by
  refine ⟨_, _, rfl, by decide, rfl, Or.inr rfl, rfl, rfl, by decide, ?_⟩
  intro hterminates
  have hclean := hterminates.clean [.resume 0, .resume 0] _ rfl (Or.inr rfl)
  have hreaches := hclean.reachesRelease rfl
  revert hreaches
  decide

end JobRuns

end Middlewared
