import Middlewared.JobsQueueAdmission

/-!
# One running job per lock name, and no lost wake-up

Lock objects are dropped and made again under the same name, so that two jobs of one name may
refer to different objects.  A job that is queued without the event being set waits for the next
one that sets it.
-/

namespace Middlewared.JobsQueue

open Function TransitionSystem

def Named (q : JobsQueue) : Prop :=
  ∀ job name, q.Live job → (q.jobs job).lockName = .ok (some name) →
    ∃ lock, q.lockOf job = some lock ∧ (q.locks lock).name = name

structure NamesKept (q next : JobsQueue) : Prop where
  live : ∀ job, next.Live job → q.Live job
  lockOf : ∀ job, q.Live job → next.lockOf job = q.lockOf job
  lockName : ∀ job, q.Live job → (next.jobs job).lockName = (q.jobs job).lockName
  name : ∀ lock, lock < q.nextLock → (next.locks lock).name = (q.locks lock).name

variable {q next : JobsQueue}

theorem Named.of_namesKept (hnamed : q.Named) (hsound : q.Sound)
    (hkept : q.NamesKept next) : next.Named := by
  intro job name hlive hname
  have hold := hkept.live job hlive
  rw [hkept.lockName job hold] at hname
  obtain ⟨lock, hlock, hlockName⟩ := hnamed job name hold hname
  refine ⟨lock, ?_, ?_⟩
  · rw [hkept.lockOf job hold]
    exact hlock
  · rw [hkept.name lock (hsound.lock_lt job lock hlock)]
    exact hlockName

theorem SameLocks.namesKept (hsame : q.SameLocks next) : q.NamesKept next := { hsame with
  live := fun job => (hsame.live_iff job).mp
  name := by
    intro lock _
    rw [hsame.locks] }

/-! ## The steps -/

variable {job : JobId}

theorem register_lockName {lock : LockId} (other : JobId) :
    ((q.register job lock).jobs other).lockName = (q.jobs other).lockName := by
  unfold register
  rw [setJob_jobs, update_apply]
  split_ifs with hother
  · rw [hother]
  · rfl

theorem namesKept_register {lock : LockId} (hunused : q.Unused job) :
    q.NamesKept (q.register job lock) where
  live := fun other => (register_live_iff other).mp
  lockOf := by
    intro other hlive
    rw [register_lockOf, if_neg]
    intro heq
    exact hunused.not_live (heq ▸ hlive)
  lockName := fun other _ => register_lockName other
  name := fun other _ => register_lock_name other

theorem namesKept_makeLock (name : String) : q.NamesKept (q.makeLock name) where
  live := fun _ hlive => hlive
  lockOf := fun _ _ => rfl
  lockName := fun _ _ => rfl
  name := by
    intro lock hlt
    rw [makeLock_locks_of_lt hlt]

theorem Named.handleLock {registered : JobsQueue} (hnamed : q.Named)
    (hsound : q.Sound) (hunused : q.Unused job)
    (hhandle : q.handleLock job = .ok registered) : registered.Named := by
  rcases handleLock_cases hhandle with
    ⟨_, hsame⟩ | ⟨name, lock, _, ⟨_, hregister⟩ | ⟨hget, _, hregister⟩⟩
  · rw [hsame]
    exact hnamed
  · rw [hregister]
    exact hnamed.of_namesKept hsound (namesKept_register hunused)
  · have hunused' : (q.makeLock name).Unused job := hunused
    have hnamed' := hnamed.of_namesKept hsound (namesKept_makeLock name)
    rw [hregister]
    exact hnamed'.of_namesKept (hsound.makeLock hget) (namesKept_register hunused')

theorem handleLock_named {registered : JobsQueue} (hsound : q.Sound)
    (hhandle : q.handleLock job = .ok registered) {name : String}
    (hname : (registered.jobs job).lockName = .ok (some name)) :
    ∃ lock, registered.lockOf job = some lock ∧ (registered.locks lock).name = name := by
  rcases handleLock_cases hhandle with
    ⟨hnone, hsame⟩ |
      ⟨asked, lock, hasked, ⟨hget, hregister⟩ | ⟨_, hlock, hregister⟩⟩
  · rw [hsame, hnone] at hname
    simp at hname
  · rw [hregister, register_lockName, hasked] at hname
    have hsameName : asked = name := by simpa using hname
    refine ⟨lock, ?_, ?_⟩
    · rw [hregister, register_lockOf, if_pos rfl]
    · rw [hregister, register_lock_name, ← hsameName]
      exact (hsound.jobLocks_name asked lock hget).2
  · have hread : ((q.makeLock asked).jobs job).lockName = .ok (some asked) := hasked
    rw [hregister, register_lockName, hread] at hname
    have hsameName : asked = name := by simpa using hname
    refine ⟨lock, ?_, ?_⟩
    · rw [hregister, register_lockOf, if_pos rfl]
    · rw [hregister, register_lock_name, ← hsameName, hlock]
      simp [makeLock, setLock]

theorem Named.enqueue (hnamed : q.Named) (hjob : ∀ name, (q.jobs job).lockName = .ok (some name) →
      ∃ lock, q.lockOf job = some lock ∧ (q.locks lock).name = name) :
    (q.enqueue job).1.Named := by
  have hread : ∀ other, ((q.enqueue job).1.jobs other).lockName = (q.jobs other).lockName ∧
      (q.enqueue job).1.lockOf other = q.lockOf other ∧
      (q.enqueue job).1.stage other = q.stage other := by
    intro other
    rw [enqueue_state]
    unfold dequeAdd lockOf stage
    simp only [setJob_jobs, update_apply]
    split_ifs with hother
    · subst hother
      exact ⟨rfl, rfl, rfl⟩
    · exact ⟨rfl, rfl, rfl⟩
  intro other name hlive hname
  obtain ⟨hlockName, hlockOf, hstage⟩ := hread other
  rw [hlockName] at hname
  rw [hlockOf]
  have hname' : ((q.enqueue job).1.locks = q.locks) := by
    rw [enqueue_state]
    rfl
  rw [hname']
  rcases (enqueue_live_iff other).mp hlive with hold | hnew
  · exact hnamed other name hold hname
  · subst other
    exact hjob name hname

theorem Named.add (hnamed : q.Named) (hsound : q.Sound) (spec : JobSpec) :
    (q.add spec).1.Named := by
  have hsame := sameLocks_create hsound spec
  have hcreated := hsound.of_sameLocks hsame
  have hunused := create_unused hsound spec
  have hnamed' := hnamed.of_namesKept hsound hsame.namesKept
  apply add_of_steps hnamed'
  intro registered hhandle
  have hregistered := hnamed'.handleLock hcreated hunused hhandle
  refine ⟨hregistered, hregistered.enqueue ?_⟩
  intro name hname
  exact handleLock_named hcreated hhandle hname

theorem returnJob_lockName (other : JobId) :
    ((q.returnJob job).jobs other).lockName = (q.jobs other).lockName := by
  unfold returnJob
  simp only [setJob_jobs, update_apply]
  split_ifs with hother
  · rw [hother]
  · rfl

theorem namesKept_returnJob (hqueued : job ∈ q.queue) : q.NamesKept (q.returnJob job) where
  live := fun _ hlive => returnJob_live hqueued hlive
  lockOf := fun other _ => returnJob_lockOf other
  lockName := fun other _ => returnJob_lockName other
  name := fun _ _ => rfl

theorem namesKept_nextWake (q : JobsQueue) : q.NamesKept q.nextWake := by
  rcases nextWake_cases q with ⟨_, hwake⟩ | ⟨job, hqueued, hfound⟩
  · rw [hwake]
    exact ⟨fun _ hlive => hlive, fun _ _ => rfl, fun _ _ => rfl, fun _ _ => rfl⟩
  · rcases hfound with ⟨_, hwake⟩ | ⟨lock, _, _, hwake⟩
    · rw [hwake]
      exact namesKept_returnJob hqueued
    · rw [hwake]
      exact ⟨fun _ hlive => hlive, fun _ _ => rfl, fun _ _ => rfl,
        fun other _ => grab_lock_name other⟩

theorem namesKept_release (hsound : q.Sound) (hstage : q.stage job = .holding) :
    q.NamesKept ((q.dropLock job).setPhase job .released) where
  live := fun _ hlive => (released_live hsound hstage hlive).2
  lockOf := fun other _ => released_lockOf other
  lockName := by
    intro other _
    unfold setPhase
    rw [setJob_jobs, update_apply]
    split_ifs with hother
    · rw [hother]
      rfl
    · rfl
  name := fun other _ => dropLock_lock_name other

theorem step_named {action : Action} (hsound : q.Sound) (hnamed : q.Named)
    (hstep : q.step action = some next) : next.Named := by
  rcases step_cases hsound hstep with ⟨spec, _, hadd⟩ | ⟨_, hwake⟩ |
    ⟨job, hacquired, hreturn⟩ | ⟨job, hstage, hfinish⟩ | hsame
  · rw [hadd]
    exact hnamed.add hsound spec
  · rw [hwake]
    exact hnamed.of_namesKept hsound (namesKept_nextWake q)
  · rw [hreturn]
    exact hnamed.of_namesKept hsound (namesKept_returnJob (hsound.acquired job hacquired).1)
  · rw [hfinish, finishRun_eq hsound hstage]
    exact hnamed.of_namesKept hsound (namesKept_release hsound hstage)
  · exact hnamed.of_namesKept hsound hsame.namesKept

theorem init_named : init.Named := by
  intro job name _ hname
  simp [init] at hname

theorem lockOf_eq_of_lockName_eq (hsound : q.Sound) (hnamed : q.Named)
    {job' : JobId} {name : String} (hlive : q.Live job) (hlive' : q.Live job')
    (hname : (q.jobs job).lockName = .ok (some name))
    (hname' : (q.jobs job').lockName = .ok (some name)) :
    ∃ lock, q.lockOf job = some lock ∧ q.lockOf job' = some lock := by
  have hentry : ∀ known, q.Live known → (q.jobs known).lockName = .ok (some name) →
      ∃ lock, q.lockOf known = some lock ∧ q.jobLocks.get? name = some lock := by
    intro known hknown hknownName
    obtain ⟨lock, hlock, hlockName⟩ := hnamed known name hknown hknownName
    have hmem := hsound.registered known lock hknown hlock
    have hget := hsound.jobLocks_of_jobs lock
      (hsound.lock_lt known lock hlock) (Finset.ne_empty_of_mem hmem)
    rw [hlockName] at hget
    exact ⟨lock, hlock, hget⟩
  obtain ⟨lock, hlock, hget⟩ := hentry job hlive hname
  obtain ⟨lock', hlock', hget'⟩ := hentry job' hlive' hname'
  have hsame : lock = lock' := Option.some.inj (hget.symm.trans hget')
  exact ⟨lock, hlock, hsame ▸ hlock'⟩

/-! ## Waking up -/

/-- When the event is cleared, every queued job waits for a lock that is held. -/
def Wakeful (q : JobsQueue) : Prop :=
  q.queueEvent = false → ∀ job ∈ q.queue, ∃ lock,
    q.lockOf job = some lock ∧ (q.locks lock).locked = true

/-- The condition on one action: an added job can be encoded, or is not queued at
all, or the event is set already, or the lock of the job is held. -/
def AddWakes (q : JobsQueue) : Action → Prop
  | .add spec =>
    spec.encodeError = none ∨ (∃ error, spec.lockName = .error error) ∨ q.isFull spec = true ∨
      q.queueEvent = true ∨ ∃ name lock, spec.lockName = .ok (some name) ∧
        q.jobLocks.get? name = some lock ∧ (q.locks lock).locked = true
  | _ => True

theorem Wakeful.of_sameLocks (hwakeful : q.Wakeful) (hsame : q.SameLocks next) :
    next.Wakeful := by
  intro hevent job hjob
  rw [hsame.queueEvent] at hevent
  rw [hsame.queue] at hjob
  rw [hsame.lockOf job (Or.inl hjob), hsame.locks]
  exact hwakeful hevent job hjob

theorem Wakeful.makeLock (hwakeful : q.Wakeful) (hsound : q.Sound) (name : String) :
    (q.makeLock name).Wakeful := by
  intro hevent job hjob
  obtain ⟨lock, hlock, hlocked⟩ := hwakeful hevent job hjob
  refine ⟨lock, hlock, ?_⟩
  rw [makeLock_locks_of_lt (hsound.lock_lt job lock hlock)]
  exact hlocked

theorem Wakeful.register {lock : LockId} (hwakeful : q.Wakeful) (hunused : q.Unused job) :
    (q.register job lock).Wakeful := by
  intro hevent other hother
  obtain ⟨held, hheld, hlocked⟩ := hwakeful hevent other hother
  have hne : other ≠ job := by
    intro heq
    exact hunused.2.1 (heq ▸ hother)
  refine ⟨held, ?_, ?_⟩
  · rw [register_lockOf, if_neg hne]
    exact hheld
  · rw [register_lock_locked]
    exact hlocked

theorem Wakeful.handleLock {registered : JobsQueue} (hwakeful : q.Wakeful) (hsound : q.Sound)
    (hunused : q.Unused job) (hhandle : q.handleLock job = .ok registered) :
    registered.Wakeful := by
  rcases handleLock_cases hhandle with
    ⟨_, hsame⟩ | ⟨name, lock, _, ⟨_, hregister⟩ | ⟨_, _, hregister⟩⟩
  · rw [hsame]
    exact hwakeful
  · rw [hregister]
    exact hwakeful.register hunused
  · have hunused' : (q.makeLock name).Unused job := hunused
    rw [hregister]
    exact (hwakeful.makeLock hsound name).register hunused'

theorem enqueue_wakeful_iff (hwakeful : q.Wakeful) : (q.enqueue job).1.Wakeful ↔
    (q.jobs job).encodeError = none ∨ q.queueEvent = true ∨
      ∃ lock, q.lockOf job = some lock ∧ (q.locks lock).locked = true := by
  have hread : (q.enqueue job).1.queueEvent = (q.queueEvent || (q.jobs job).encodeError.isNone) ∧
      (q.enqueue job).1.queue = q.queue ++ [job] ∧ (q.enqueue job).1.locks = q.locks := by
    rw [enqueue_state]
    exact ⟨rfl, rfl, rfl⟩
  obtain ⟨hevent, hqueue, hlocks⟩ := hread
  unfold Wakeful
  simp only [hevent, hqueue, hlocks, enqueue_lockOf, Bool.or_eq_false_iff, List.forall_mem_append,
    List.forall_mem_singleton]
  cases herror : (q.jobs job).encodeError with
  | none => simp
  | some error =>
    cases hold : q.queueEvent with
    | true => simp
    | false => simpa using fun _ _ _ => hwakeful hold

/-- The lock of a registered job is held exactly when there was one of its name,
and it was held. -/
theorem registered_locked_iff {registered : JobsQueue} {spec : JobSpec}
    (hhandle : (q.create spec).handleLock q.nextJob = .ok registered) :
    (∃ lock, registered.lockOf q.nextJob = some lock ∧ (registered.locks lock).locked = true) ↔
      ∃ name lock, spec.lockName = .ok (some name) ∧ q.jobLocks.get? name = some lock ∧
        (q.locks lock).locked = true := by
  have hspec : ((q.create spec).jobs q.nextJob).lockName = spec.lockName := by
    simp [create, setJob]
  rcases handleLock_cases hhandle with
    ⟨hname, hsame⟩ | ⟨name, lock, hname, ⟨hget, hregister⟩ | ⟨hget, hfresh, hregister⟩⟩
  · rw [hspec] at hname
    rw [hsame, create_lockOf, if_pos rfl, hname]
    simp
  · rw [hspec] at hname
    change q.jobLocks.get? name = some lock at hget
    rw [hregister, register_lockOf, if_pos rfl, hname]
    have hheld : (q.create spec).locks lock = q.locks lock := rfl
    simp [register_lock_locked, hget, hheld]
  · rw [hspec] at hname
    change q.jobLocks.get? name = none at hget
    have hfree : (((q.create spec).makeLock name).locks lock).locked = false := by
      rw [hfresh]
      simp [JobsQueue.makeLock, setLock]
    rw [hregister, register_lockOf, if_pos rfl, hname]
    simp [register_lock_locked, hget, hfree]

theorem add_wakeful_iff (hsound : q.Sound) (hcreated : q.DequeCreated) (hwakeful : q.Wakeful)
    (spec : JobSpec) : (q.add spec).1.Wakeful ↔ q.AddWakes (.add spec) := by
  have hsame := sameLocks_create hsound spec
  have hcreatedSound := hsound.of_sameLocks hsame
  have hcreatedWakeful := hwakeful.of_sameLocks hsame
  rcases add_cases q spec with ⟨⟨error, herror⟩, hraised⟩ | ⟨registered, hhandle, hadd⟩
  · rw [hraised]
    exact iff_of_true hcreatedWakeful
      (Or.inr (Or.inl ⟨error, handleLock_create_eq_error_iff.mp herror⟩))
  · have hregistered := hcreatedWakeful.handleLock hcreatedSound (create_unused hsound spec) hhandle
    obtain ⟨hlock, -, hencode⟩ := handleLock_create_lock hhandle
    have hfull := registered_lockFull hsound hcreated hhandle (q.lockFor spec)
    have hname : ¬∃ error, spec.lockName = .error error := by
      rintro ⟨error, herror⟩
      rw [handleLock_create_eq_error_iff.mpr herror] at hhandle
      cases hhandle
    have hevent : registered.queueEvent = q.queueEvent := by
      rcases handleLock_cases hhandle with
        ⟨_, rfl⟩ | ⟨name, lock, _, ⟨_, rfl⟩ | ⟨_, _, rfl⟩⟩ <;> rfl
    rw [hadd]
    cases hroom : q.isFull spec with
    | true =>
      rw [admission_of_lockFull (by rw [lockOf, hlock, hfull]; exact hroom)]
      exact iff_of_true hregistered (Or.inr (Or.inr (Or.inl hroom)))
    | false =>
      rw [admission_of_not_lockFull (by rw [lockOf, hlock, hfull]; exact hroom),
        enqueue_wakeful_iff hregistered, registered_locked_iff hhandle, hencode, hevent]
      simp [AddWakes, hname, hroom]

theorem Wakeful.returnJob (hwakeful : q.Wakeful) : (q.returnJob job).Wakeful := by
  intro hevent other hother
  change (if q.queue.erase job = [] then false else q.queueEvent) = false at hevent
  change other ∈ q.queue.erase job at hother
  rw [if_neg (List.ne_nil_of_mem hother)] at hevent
  rw [returnJob_lockOf]
  exact hwakeful hevent other (List.mem_of_mem_erase hother)

theorem Wakeful.nextWake (hwakeful : q.Wakeful) : q.nextWake.Wakeful := by
  rcases nextWake_cases q with ⟨hready, hwake⟩ | ⟨job, _, hfound⟩
  · rw [hwake]
    intro _ job hjob
    exact isReady_eq_false_iff.mp (hready job hjob)
  · rcases hfound with ⟨_, hwake⟩ | ⟨lock, _, _, hwake⟩
    · rw [hwake]
      exact hwakeful.returnJob
    · rw [hwake]
      intro hevent other hother
      obtain ⟨held, hheld, hlocked⟩ := hwakeful hevent other hother
      exact ⟨held, hheld, grab_locked_of_locked hlocked⟩

theorem Wakeful.release (hwakeful : q.Wakeful) :
    ((q.dropLock job).setPhase job .released).Wakeful := by
  intro hevent other hother
  obtain ⟨hold, hfree⟩ := dropLock_queueEvent hevent
  obtain ⟨lock, hlock, hlocked⟩ := hwakeful hold other hother
  refine ⟨lock, ?_, ?_⟩
  · rw [released_lockOf]
    exact hlock
  · change ((q.dropLock job).locks lock).locked = true
    rw [dropLock_locks, hfree]
    exact hlocked

theorem step_wakeful_iff {action : Action} (hsound : q.Sound) (hcreated : q.DequeCreated)
    (hwakeful : q.Wakeful) (hstep : q.step action = some next) :
    next.Wakeful ↔ q.AddWakes action := by
  have hadds : ∀ spec, action = .add spec → (next.Wakeful ↔ q.AddWakes action) := by
    rintro spec rfl
    rw [← Option.some.inj hstep]
    exact add_wakeful_iff hsound hcreated hwakeful spec
  rcases step_cases hsound hstep with ⟨spec, haction, _⟩ | hother
  · exact hadds spec haction
  · have hnext : next.Wakeful := by
      rcases hother with ⟨_, rfl⟩ | ⟨job, _, rfl⟩ | ⟨job, hstage, rfl⟩ | hsame
      · exact hwakeful.nextWake
      · exact hwakeful.returnJob
      · rw [finishRun_eq hsound hstage]
        exact hwakeful.release
      · exact hwakeful.of_sameLocks hsame
    cases action with
    | add spec => exact hadds spec rfl
    | _ => exact iff_of_true hnext trivial

/-- What the queue is for: one job of a lock name at a time, each job once, and
none forgotten. -/
structure Serves (q : JobsQueue) : Prop where
  exclusive : ∀ name job job', q.stage job = .holding → q.stage job' = .holding →
    (q.jobs job).lockName = .ok (some name) →
    (q.jobs job').lockName = .ok (some name) → job = job'
  returned_nodup : q.returned.Nodup
  wakeful : q.Wakeful

theorem serves_iff_wakeful (hsound : q.Sound) (hnamed : q.Named) : q.Serves ↔ q.Wakeful := by
  refine ⟨Serves.wakeful, fun hwakeful => ⟨?_, hsound.returned_nodup, hwakeful⟩⟩
  intro name job job' hstage hstage' hname hname'
  obtain ⟨lock, hlock, hlock'⟩ := lockOf_eq_of_lockName_eq hsound hnamed
    (Or.inr hstage) (Or.inr hstage') hname hname'
  exact hsound.holder_unique job job' lock (Or.inl hstage) (Or.inl hstage') hlock hlock'

/-- In every run, at most one job of a lock name is between its return by `next` and
its `release_lock` in every state reached, no job is returned twice, and a cleared
event means that every queued job waits for a held lock, exactly when no job that
cannot be encoded is queued unnoticed. -/
theorem run_serves_iff {q : JobsQueue} {actions : List Action}
    (hrun : run step init actions = some q) :
    EveryStep step AddWakes init actions ↔ ∀ k reached,
        run step init (actions.take k) = some reached → reached.Serves := by
  refine everyStep_iff_forall_take
    (fun q => q.Sound ∧ q.DequeCreated ∧ q.Named) ?_ ?_ ?_ ?_ hrun
  · intro q action next ⟨hsound, hcreated, hnamed⟩ hstep
    exact ⟨step_sound hsound hstep, step_dequeCreated hsound hcreated hstep,
      step_named hsound hnamed hstep⟩
  · intro q action next ⟨hsound, hcreated, hnamed⟩ hserves hstep
    rw [serves_iff_wakeful (step_sound hsound hstep) (step_named hsound hnamed hstep)]
    exact step_wakeful_iff hsound hcreated hserves.wakeful hstep
  · exact ⟨init_sound, init_dequeCreated, init_named⟩
  · rw [serves_iff_wakeful init_sound init_named]
    intro _ job hjob
    cases hjob

def scrub : JobSpec :=
  { lockName := .ok (some "pool.scrub") }

/-- A job with an argument too many for its method. -/
def tooManyArguments : JobSpec :=
  { lockName := .ok (some "pool.scrub")
    encodeError := some (.callError "Too many arguments" .einval) }

def jobsOnOneLock : List Action :=
  [.add scrub, .add tooManyArguments, .nextWake, .nextAcquired, .runJob 0, .nextWake, .add scrub]

/-- Jobs that share a lock, one of which cannot be encoded and is queued behind
another. -/
theorem jobsOnOneLock_serves : ∃ q, run step init jobsOnOneLock = some q ∧
    q.queue = [1, 2] ∧ ∀ k reached,
      run step init (jobsOnOneLock.take k) = some reached → reached.Serves := by
  have hevery : EveryStep step AddWakes init jobsOnOneLock := by
    refine ⟨Or.inl rfl, fun q₁ h₁ => ⟨?_, fun q₂ h₂ => ⟨trivial, fun q₃ h₃ => ⟨trivial,
      fun q₄ h₄ => ⟨trivial, fun q₅ h₅ => ⟨trivial, fun q₆ h₆ => ⟨Or.inl rfl,
      fun _ _ => trivial⟩⟩⟩⟩⟩⟩⟩
    cases h₁
    exact Or.inr (Or.inr (Or.inr (Or.inl rfl)))
  have hrun : ∃ q, run step init jobsOnOneLock = some q ∧ q.queue = [1, 2] := ⟨_, rfl, rfl⟩
  obtain ⟨q, hq, hqueue⟩ := hrun
  exact ⟨q, hq, hqueue, (run_serves_iff hq).mp hevery⟩

/-- On an idle queue such a job is queued, and nobody is told. -/
theorem tooManyArguments_forgotten : ∃ q, run step init [.add tooManyArguments] = some q ∧
    q.queueEvent = false ∧ q.queue = [0] ∧ q.isReady 0 = true ∧ ¬q.Serves := by
  have hrun : ∃ q, run step init [.add tooManyArguments] = some q ∧
      q.queueEvent = false ∧ q.queue = [0] ∧ q.isReady 0 = true := ⟨_, rfl, rfl, rfl, rfl⟩
  obtain ⟨q, hq, hevent, hqueue, hready⟩ := hrun
  refine ⟨q, hq, hevent, hqueue, hready, ?_⟩
  intro hserves
  have hwaits := hserves.wakeful hevent 0 (by simp [hqueue])
  rw [← isReady_eq_false_iff, hready] at hwaits
  cases hwaits

/-! ## The order of the jobs of a lock -/

/-- No job that shares its lock, or has none either, is queued before the job. -/
def FirstOfLock (q : JobsQueue) (job : JobId) : Prop :=
  ∃ before after, q.queue = before ++ job :: after ∧
    ∀ other ∈ before, q.lockOf other ≠ q.lockOf job

theorem FirstOfLock.kept {tail : List JobId} (hfirst : q.FirstOfLock job)
    (hqueue : next.queue = q.queue ++ tail)
    (hlock : ∀ other ∈ q.queue, next.lockOf other = q.lockOf other) : next.FirstOfLock job := by
  obtain ⟨before, after, hsplit, hbefore⟩ := hfirst
  refine ⟨before, after ++ tail, by simp [hqueue, hsplit], ?_⟩
  intro other hother
  rw [hlock other (by simp [hsplit, hother]), hlock job (by simp [hsplit])]
  exact hbefore other hother

theorem firstOfLock_of_find (hfind : q.queue.find? q.isReady = some job) : q.FirstOfLock job := by
  obtain ⟨hready, before, after, hsplit, hbefore⟩ := List.find?_eq_some_iff_append.mp hfind
  refine ⟨before, after, hsplit, ?_⟩
  intro other hother heq
  have hsame : q.isReady other = q.isReady job := by
    unfold lockOf at heq
    simp only [isReady, heq]
  simpa [hsame, hready] using hbefore other hother

/-- The job whose lock `next` has acquired. -/
def AcquiredFirst (q : JobsQueue) : Prop :=
  ∀ job, q.next = .acquired job → q.FirstOfLock job

/-- What is queued stays queued, in its order and with its locks. -/
structure Extends (q q' : JobsQueue) : Prop where
  next : q'.next = q.next
  returned : q'.returned = q.returned
  queue : ∃ tail, q'.queue = q.queue ++ tail
  lockOf : ∀ other ∈ q.queue, q'.lockOf other = q.lockOf other

theorem add_extends (hsound : q.Sound) (spec : JobSpec) : q.Extends (q.add spec).1 := by
  have hsame := sameLocks_create hsound spec
  have hcreated : ∀ other ∈ q.queue, (q.create spec).lockOf other = q.lockOf other :=
    fun other hother => hsame.lockOf other (.inl hother)
  have hkept : ∀ lock, ∀ other ∈ q.queue,
      ((q.create spec).register q.nextJob lock).lockOf other = q.lockOf other := by
    intro lock other hother
    rw [register_lockOf, if_neg (hsound.queue_lt other hother).ne]
    exact hcreated other hother
  apply add_of_steps ⟨rfl, rfl, ⟨[], by simp [hsame.queue]⟩, hcreated⟩
  intro registered hhandle
  have hregistered : registered.next = q.next ∧ registered.returned = q.returned ∧
      registered.queue = q.queue ∧
        ∀ other ∈ q.queue, registered.lockOf other = q.lockOf other := by
    rcases handleLock_cases hhandle with
      ⟨_, rfl⟩ | ⟨name, lock, _, ⟨_, rfl⟩ | ⟨_, _, rfl⟩⟩
    · exact ⟨rfl, rfl, rfl, hcreated⟩
    · exact ⟨rfl, rfl, rfl, hkept lock⟩
    · exact ⟨rfl, rfl, rfl, hkept lock⟩
  obtain ⟨hnext, hreturned, hqueue, hlock⟩ := hregistered
  refine ⟨⟨hnext, hreturned, ⟨[], by simp [hqueue]⟩, hlock⟩, ?_⟩
  constructor
  · rw [enqueue_state]
    exact hnext
  · rw [enqueue_state]
    exact hreturned
  · exact ⟨[q.nextJob], by rw [enqueue_state, ← hqueue]⟩
  · intro other hother
    rw [enqueue_lockOf]
    exact hlock other hother

theorem nextWake_firstOfLock (hwaiting : q.next = .waiting) : q.nextWake.AcquiredFirst ∧
    ∀ job, q.nextWake.returned = q.returned ++ [job] → q.FirstOfLock job := by
  unfold nextWake
  cases hfind : q.queue.find? q.isReady with
  | none => simp [AcquiredFirst, hwaiting]
  | some found =>
    have hfirst := firstOfLock_of_find hfind
    cases hlock : (q.jobs found).lock with
    | none => simp_all [AcquiredFirst, returnJob, setJob]
    | some lock =>
      have hkept : ({ q.setLock lock { q.locks lock with locked := true } with
          next := .acquired found } : JobsQueue).FirstOfLock found :=
        hfirst.kept (List.append_nil _).symm fun _ _ => rfl
      simp_all [AcquiredFirst, setLock]

theorem step_acquiredFirst {action : Action} (hsound : q.Sound) (hfirst : q.AcquiredFirst)
    (hstep : q.step action = some next) : next.AcquiredFirst ∧
    ∀ job, next.returned = q.returned ++ [job] → q.FirstOfLock job := by
  have hstay : ∀ tail, next.next = q.next → next.returned = q.returned →
      next.queue = q.queue ++ tail → (∀ other ∈ q.queue, next.lockOf other = q.lockOf other) →
      next.AcquiredFirst ∧ ∀ job, next.returned = q.returned ++ [job] → q.FirstOfLock job := by
    intro tail hnext hreturned hqueue hlock
    constructor
    · intro job hacquired
      exact (hfirst job (hnext ▸ hacquired)).kept hqueue hlock
    · intro job hjob
      simp [hreturned] at hjob
  rcases step_cases hsound hstep with ⟨spec, _, rfl⟩ | ⟨hwaiting, rfl⟩ |
    ⟨job, hacquired, rfl⟩ | ⟨job, hstage, rfl⟩ | hsame
  · obtain ⟨hnext, hreturned, ⟨tail, hqueue⟩, hlock⟩ := add_extends hsound spec
    exact hstay tail hnext hreturned hqueue hlock
  · exact nextWake_firstOfLock hwaiting
  · constructor
    · intro other hother
      cases hother
    · intro other hother
      simp only [returnJob, setJob, List.append_cancel_left_eq, List.cons.injEq, and_true] at hother
      exact hother ▸ hfirst job hacquired
  · rw [finishRun_eq hsound hstage] at hstay ⊢
    exact hstay [] rfl rfl (List.append_nil _).symm fun other _ => released_lockOf other
  · exact hstay [] hsame.nextPhase hsame.returned (by simp [hsame.queue])
      fun other hother => hsame.lockOf other (.inl hother)

/-- Whenever `next` returns a job, it is the first of the queue among the jobs that
share its lock: none of them is overtaken. -/
theorem returned_firstOfLock (actions : List Action) :
    EveryStep step (fun q action => ∀ next job, q.step action = some next →
      next.returned = q.returned ++ [job] → q.FirstOfLock job) init actions := by
  refine everyStep_of_invariant (fun q => q.Sound ∧ q.AcquiredFirst) ?_ ?_
    ⟨init_sound, by simp [AcquiredFirst, init]⟩
  · intro q action next hq hstep
    exact ⟨step_sound hq.1 hstep, (step_acquiredFirst hq.1 hq.2 hstep).1⟩
  · intro q action hq next job hstep
    exact (step_acquiredFirst hq.1 hq.2 hstep).2 job

end Middlewared.JobsQueue
