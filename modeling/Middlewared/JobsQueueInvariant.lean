import Middlewared.JobsQueue
import Mathlib.Tactic

/-!
# Who holds the locks

`Sound` relates the queue, the jobs, the lock objects and the table of locks in every state that
can be reached.
-/

namespace Middlewared

open Dict List Option

inductive RunStage where
  | before
  | holding
  | after
deriving DecidableEq

/-- A job holds its lock from being handed out until `release_lock`; a task
that crashed never released it. -/
def RunPhase.stage : RunPhase → RunStage
  | .idle => .before
  | .started | .logging | .body | .closingLogs | .closingPipes | .crashed =>
    .holding
  | .released | .done => .after

namespace JobsQueue

def stage (q : JobsQueue) (job : JobId) : RunStage :=
  (q.jobs job).phase.stage

def lockOf (q : JobsQueue) (job : JobId) : Option LockId :=
  (q.jobs job).lock

def Live (q : JobsQueue) (job : JobId) : Prop :=
  job ∈ q.queue ∨ q.stage job = .holding

/-- The job holds its lock, possibly before `next` has returned it. -/
def Holds (q : JobsQueue) (job : JobId) : Prop :=
  q.stage job = .holding ∨ q.next = .acquired job

structure Sound (q : JobsQueue) : Prop where
  queue_lt : ∀ job ∈ q.queue, job < q.nextJob
  queue_nodup : q.queue.Nodup
  queue_before : ∀ job ∈ q.queue, q.stage job = .before
  created_of_stage : ∀ job, q.stage job ≠ .before → job < q.nextJob
  returned_nodup : q.returned.Nodup
  returned_iff : ∀ job, job ∈ q.returned ↔ q.stage job ≠ .before
  lock_lt : ∀ job lock, q.lockOf job = some lock → lock < q.nextLock
  registered : ∀ job lock, q.Live job → q.lockOf job = some lock → job ∈ (q.locks lock).jobs
  jobLocks_name : ∀ name lock, q.jobLocks.get? name = some lock →
    lock < q.nextLock ∧ (q.locks lock).name = name
  jobLocks_of_jobs : ∀ lock, lock < q.nextLock → (q.locks lock).jobs ≠ ∅ →
    q.jobLocks.get? (q.locks lock).name = some lock
  holder_locked : ∀ job lock, q.Holds job → q.lockOf job = some lock → (q.locks lock).locked = true
  holder_unique : ∀ job job' lock, q.Holds job → q.Holds job' →
    q.lockOf job = some lock → q.lockOf job' = some lock → job = job'
  acquired : ∀ job, q.next = .acquired job → job ∈ q.queue ∧ (q.lockOf job).isSome

theorem init_sound : init.Sound := by
  constructor <;> simp [init, stage, lockOf, Live, Holds, RunPhase.stage]

variable {q : JobsQueue} {job : JobId}

theorem Sound.live_of_holds (hsound : q.Sound) (hholds : q.Holds job) : q.Live job := by
  rcases hholds with hstage | hacquired
  · exact Or.inr hstage
  · exact Or.inl (hsound.acquired job hacquired).1

theorem Sound.not_mem_queue_of_stage (hsound : q.Sound)
    (hstage : q.stage job ≠ .before) : job ∉ q.queue := by
  intro hmem
  exact hstage (hsound.queue_before job hmem)

section

variable (q : JobsQueue) (job other : JobId) (value : Job)

theorem setJob_jobs : (q.setJob job value).jobs = Function.update q.jobs job value := rfl

theorem setJob_stage : (q.setJob job value).stage other =
    if other = job then value.phase.stage else q.stage other := by
  unfold stage
  rw [setJob_jobs]
  by_cases hother : other = job
  · simp [hother]
  · simp [hother]

theorem setJob_lockOf : (q.setJob job value).lockOf other =
    if other = job then value.lock else q.lockOf other := by
  unfold lockOf
  rw [setJob_jobs]
  by_cases hother : other = job
  · simp [hother]
  · simp [hother]

end

/-! ## Steps that leave the locks alone -/

/-- A change of the job objects that no lock can see: stages stay, and so do
the locks of the jobs that are queued or running. -/
structure SameLocks (q next : JobsQueue) : Prop where
  nextJob_le : q.nextJob ≤ next.nextJob
  locks : next.locks = q.locks
  nextLock : next.nextLock = q.nextLock
  queue : next.queue = q.queue
  queueEvent : next.queueEvent = q.queueEvent
  jobLocks : next.jobLocks = q.jobLocks
  nextPhase : next.next = q.next
  returned : next.returned = q.returned
  stage : ∀ job, next.stage job = q.stage job
  lockOf : ∀ job, q.Live job → next.lockOf job = q.lockOf job
  lockName : ∀ job, q.Live job → (next.jobs job).lockName = (q.jobs job).lockName
  lock_lt : ∀ job lock, next.lockOf job = some lock → lock < q.nextLock

variable {next : JobsQueue}

theorem SameLocks.live_iff (hsame : q.SameLocks next) (job : JobId) :
    next.Live job ↔ q.Live job := by
  unfold Live
  rw [hsame.queue, hsame.stage]

theorem SameLocks.holds_iff (hsame : q.SameLocks next) (job : JobId) :
    next.Holds job ↔ q.Holds job := by
  unfold Holds
  rw [hsame.nextPhase, hsame.stage]

theorem Sound.of_sameLocks (hsound : q.Sound) (hsame : q.SameLocks next) : next.Sound where
  queue_lt := by
    intro job hjob
    rw [hsame.queue] at hjob
    exact (hsound.queue_lt job hjob).trans_le hsame.nextJob_le
  queue_nodup := by
    rw [hsame.queue]
    exact hsound.queue_nodup
  queue_before := by
    intro job hjob
    rw [hsame.queue] at hjob
    rw [hsame.stage]
    exact hsound.queue_before job hjob
  created_of_stage := by
    intro job hstage
    rw [hsame.stage] at hstage
    exact (hsound.created_of_stage job hstage).trans_le hsame.nextJob_le
  returned_nodup := by
    rw [hsame.returned]
    exact hsound.returned_nodup
  returned_iff := by
    intro job
    rw [hsame.returned, hsame.stage]
    exact hsound.returned_iff job
  lock_lt := by
    intro job lock hlock
    rw [hsame.nextLock]
    exact hsame.lock_lt job lock hlock
  registered := by
    intro job lock hlive hlock
    rw [hsame.live_iff] at hlive
    rw [hsame.lockOf job hlive] at hlock
    rw [hsame.locks]
    exact hsound.registered job lock hlive hlock
  jobLocks_name := by
    intro name lock hget
    rw [hsame.jobLocks] at hget
    rw [hsame.nextLock, hsame.locks]
    exact hsound.jobLocks_name name lock hget
  jobLocks_of_jobs := by
    intro lock hlt hjobs
    rw [hsame.nextLock] at hlt
    rw [hsame.locks] at hjobs ⊢
    rw [hsame.jobLocks]
    exact hsound.jobLocks_of_jobs lock hlt hjobs
  holder_locked := by
    intro job lock hholds hlock
    rw [hsame.holds_iff] at hholds
    rw [hsame.lockOf job (hsound.live_of_holds hholds)] at hlock
    rw [hsame.locks]
    exact hsound.holder_locked job lock hholds hlock
  holder_unique := by
    intro job job' lock hholds hholds' hlock hlock'
    rw [hsame.holds_iff] at hholds hholds'
    rw [hsame.lockOf job (hsound.live_of_holds hholds)] at hlock
    rw [hsame.lockOf job' (hsound.live_of_holds hholds')] at hlock'
    exact hsound.holder_unique job job' lock hholds hholds' hlock hlock'
  acquired := by
    intro job hnext
    rw [hsame.nextPhase] at hnext
    have hqueued := (hsound.acquired job hnext).1
    rw [hsame.queue, hsame.lockOf job (Or.inl hqueued)]
    exact hsound.acquired job hnext

theorem Sound.sameLocks_self (hsound : q.Sound) : q.SameLocks q where
  nextJob_le := le_rfl
  locks := rfl
  nextLock := rfl
  queue := rfl
  queueEvent := rfl
  jobLocks := rfl
  nextPhase := rfl
  returned := rfl
  stage := fun _ => rfl
  lockOf := fun _ _ => rfl
  lockName := fun _ _ => rfl
  lock_lt := hsound.lock_lt

theorem sameLocks_setJob (hsound : q.Sound) {value : Job} (hlock : value.lock = q.lockOf job)
    (hstage : value.phase.stage = q.stage job)
    (hname : value.lockName = (q.jobs job).lockName) :
    q.SameLocks (q.setJob job value) where
  nextJob_le := le_rfl
  locks := rfl
  nextLock := rfl
  queue := rfl
  queueEvent := rfl
  jobLocks := rfl
  nextPhase := rfl
  returned := rfl
  stage := by
    intro other
    rw [setJob_stage]
    split_ifs with hother
    · rw [hother, hstage]
    · rfl
  lockOf := by
    intro other _
    rw [setJob_lockOf]
    split_ifs with hother
    · rw [hother, hlock]
    · rfl
  lockName := by
    intro other _
    rw [setJob_jobs, Function.update_apply]
    split_ifs with hother
    · rw [hother, hname]
    · rfl
  lock_lt := by
    intro other lock hother
    rw [setJob_lockOf] at hother
    split_ifs at hother with heq
    · exact hsound.lock_lt job lock (hlock ▸ hother)
    · exact hsound.lock_lt other lock hother

theorem SameLocks.withDeque (hsame : q.SameLocks next) (deque : JobsDeque) :
    q.SameLocks { next with deque } := { hsame with }

/-! ## Adding a job -/

def Unused (q : JobsQueue) (job : JobId) : Prop :=
  job < q.nextJob ∧ job ∉ q.queue ∧ q.stage job = .before

theorem Unused.not_live (hunused : q.Unused job) : ¬ q.Live job := by
  intro hlive
  rcases hlive with hqueued | hstage
  · exact hunused.2.1 hqueued
  · rw [hunused.2.2] at hstage
    simp at hstage

theorem Sound.not_live_nextJob (hsound : q.Sound) : ¬ q.Live q.nextJob := by
  intro hlive
  rcases hlive with hqueued | hstage
  · exact (hsound.queue_lt q.nextJob hqueued).false
  · exact (hsound.created_of_stage q.nextJob (by rw [hstage]; simp)).false

theorem Sound.stage_nextJob (hsound : q.Sound) : q.stage q.nextJob = .before := by
  by_contra hstage
  exact (hsound.created_of_stage q.nextJob hstage).false

theorem create_stage (hsound : q.Sound) (spec : JobSpec) (job : JobId) :
    (q.create spec).stage job = q.stage job := by
  have hread : (q.create spec).stage job = (q.setJob q.nextJob { spec with }).stage job := rfl
  rw [hread, setJob_stage]
  split_ifs with hjob
  · rw [hjob, hsound.stage_nextJob]
    rfl
  · rfl

theorem create_lockOf (spec : JobSpec) (job : JobId) : (q.create spec).lockOf job =
    if job = q.nextJob then none else q.lockOf job := by
  have hread : (q.create spec).lockOf job = (q.setJob q.nextJob { spec with }).lockOf job := rfl
  rw [hread, setJob_lockOf]

theorem sameLocks_create (hsound : q.Sound) (spec : JobSpec) : q.SameLocks (q.create spec) where
  nextJob_le := Nat.le_succ q.nextJob
  locks := rfl
  nextLock := rfl
  queue := rfl
  queueEvent := rfl
  jobLocks := rfl
  nextPhase := rfl
  returned := rfl
  stage := create_stage hsound spec
  lockOf := by
    intro job hlive
    rw [create_lockOf, if_neg]
    intro hjob
    exact hsound.not_live_nextJob (hjob ▸ hlive)
  lockName := by
    intro job hlive
    have hjob : job ≠ q.nextJob := by
      intro heq
      exact hsound.not_live_nextJob (heq ▸ hlive)
    simp [create, setJob, hjob]
  lock_lt := by
    intro job lock hlock
    rw [create_lockOf] at hlock
    split_ifs at hlock
    exact hsound.lock_lt job lock hlock

theorem create_unused (hsound : q.Sound) (spec : JobSpec) : (q.create spec).Unused q.nextJob := by
  refine ⟨Nat.lt_succ_self q.nextJob, ?_, ?_⟩
  · intro hqueued
    exact (hsound.queue_lt q.nextJob hqueued).false
  · rw [create_stage hsound spec]
    exact hsound.stage_nextJob

def makeLock (q : JobsQueue) (name : String) : JobsQueue :=
  { q.setLock q.nextLock { name } with
    nextLock := q.nextLock + 1
    jobLocks := q.jobLocks.set name q.nextLock }

theorem makeLock_locks_of_lt {name : String} {lock : LockId} (hlt : lock < q.nextLock) :
    (q.makeLock name).locks lock = q.locks lock := by
  have hne : lock ≠ q.nextLock := hlt.ne
  simp [makeLock, setLock, hne]

theorem Sound.makeLock (hsound : q.Sound) {name : String}
    (hname : q.jobLocks.get? name = none) : (q.makeLock name).Sound := { hsound with
  lock_lt := by
    intro job lock hlock
    exact (hsound.lock_lt job lock hlock).trans (Nat.lt_succ_self q.nextLock)
  registered := by
    intro job lock hlive hlock
    rw [makeLock_locks_of_lt (hsound.lock_lt job lock hlock)]
    exact hsound.registered job lock hlive hlock
  jobLocks_name := by
    intro other lock hget
    change (q.jobLocks.set name q.nextLock).get? other = some lock at hget
    rw [get?_set] at hget
    split_ifs at hget with hother
    · rw [some.injEq] at hget
      subst lock
      simp [JobsQueue.makeLock, setLock, hother]
    · have hold := hsound.jobLocks_name other lock hget
      rw [makeLock_locks_of_lt hold.1]
      exact ⟨hold.1.trans (Nat.lt_succ_self q.nextLock), hold.2⟩
  jobLocks_of_jobs := by
    intro lock hlt hjobs
    change lock < q.nextLock + 1 at hlt
    change (q.jobLocks.set name q.nextLock).get? _ = some lock
    by_cases hlock : lock = q.nextLock
    · subst hlock
      simp [JobsQueue.makeLock, setLock] at hjobs
    · have hold : lock < q.nextLock := by omega
      rw [makeLock_locks_of_lt hold] at hjobs ⊢
      have hget := hsound.jobLocks_of_jobs lock hold hjobs
      rw [get?_set, if_neg]
      · exact hget
      · intro hsameName
        rw [hsameName, hname] at hget
        simp at hget
  holder_locked := by
    intro job lock hholds hlock
    rw [makeLock_locks_of_lt (hsound.lock_lt job lock hlock)]
    exact hsound.holder_locked job lock hholds hlock }

def register (q : JobsQueue) (job : JobId) (lock : LockId) : JobsQueue :=
  (q.setLock lock { q.locks lock with jobs := insert job (q.locks lock).jobs }).setJob job
      { q.jobs job with lock := some lock }

section

variable {q : JobsQueue} {job : JobId} {lock : LockId}

theorem register_locks (other : LockId) : (q.register job lock).locks other = if other = lock then
      { q.locks lock with jobs := insert job (q.locks lock).jobs }
    else q.locks other := by
  by_cases hother : other = lock
  · simp [register, setLock, setJob, hother]
  · simp [register, setLock, setJob, hother]

theorem register_lock_name (other : LockId) :
    ((q.register job lock).locks other).name = (q.locks other).name := by
  rw [register_locks]
  split_ifs with hother
  · rw [hother]
  · rfl

theorem register_lock_locked (other : LockId) :
    ((q.register job lock).locks other).locked = (q.locks other).locked := by
  rw [register_locks]
  split_ifs with hother
  · rw [hother]
  · rfl

theorem register_stage (other : JobId) : (q.register job lock).stage other = q.stage other := by
  have hread : (q.register job lock).stage other = ((q.setLock lock
        { q.locks lock with jobs := insert job (q.locks lock).jobs }).setJob
          job { q.jobs job with lock := some lock }).stage other := rfl
  rw [hread, setJob_stage]
  split_ifs with hother
  · rw [hother]
    rfl
  · rfl

theorem register_lockOf (other : JobId) : (q.register job lock).lockOf other =
    if other = job then some lock else q.lockOf other := by
  have hread : (q.register job lock).lockOf other = ((q.setLock lock
        { q.locks lock with jobs := insert job (q.locks lock).jobs }).setJob
          job { q.jobs job with lock := some lock }).lockOf other := rfl
  rw [hread, setJob_lockOf]
  rfl

theorem register_live_iff (other : JobId) : (q.register job lock).Live other ↔ q.Live other := by
  unfold Live
  rw [register_stage]
  rfl

theorem register_holds_iff (other : JobId) : (q.register job lock).Holds other ↔ q.Holds other := by
  unfold Holds
  rw [register_stage]
  rfl

theorem mem_register_jobs_of_mem {other : LockId} {known : JobId}
    (hmem : known ∈ (q.locks other).jobs) :
    known ∈ ((q.register job lock).locks other).jobs := by
  rw [register_locks]
  split_ifs with hother
  · subst hother
    exact Finset.mem_insert_of_mem hmem
  · exact hmem

theorem Sound.register (hsound : q.Sound) (hunused : q.Unused job)
    {name : String} (hname : q.jobLocks.get? name = some lock) :
    (q.register job lock).Sound := { hsound with
  queue_before := by
    intro other hother
    rw [register_stage]
    exact hsound.queue_before other hother
  created_of_stage := by
    intro other hstage
    rw [register_stage] at hstage
    exact hsound.created_of_stage other hstage
  returned_iff := by
    intro other
    rw [register_stage]
    exact hsound.returned_iff other
  lock_lt := by
    intro other lock' hlock'
    rw [register_lockOf] at hlock'
    split_ifs at hlock' with hother
    · rw [some.injEq] at hlock'
      subst lock'
      exact (hsound.jobLocks_name name lock hname).1
    · exact hsound.lock_lt other lock' hlock'
  registered := by
    intro other lock' hlive hlock'
    rw [register_live_iff] at hlive
    rw [register_lockOf] at hlock'
    split_ifs at hlock' with hother
    · exact absurd (hother ▸ hlive) hunused.not_live
    · exact mem_register_jobs_of_mem (hsound.registered other lock' hlive hlock')
  jobLocks_name := by
    intro other lock' hget
    rw [register_lock_name]
    exact hsound.jobLocks_name other lock' hget
  jobLocks_of_jobs := by
    intro other hlt hjobs
    rw [register_lock_name]
    by_cases hother : other = lock
    · subst hother
      rw [(hsound.jobLocks_name name other hname).2]
      exact hname
    · rw [register_locks, if_neg hother] at hjobs
      exact hsound.jobLocks_of_jobs other hlt hjobs
  holder_locked := by
    intro other lock' hholds hlock'
    rw [register_holds_iff] at hholds
    rw [register_lockOf] at hlock'
    rw [register_lock_locked]
    split_ifs at hlock' with hother
    · exact absurd (hother ▸ hsound.live_of_holds hholds) hunused.not_live
    · exact hsound.holder_locked other lock' hholds hlock'
  holder_unique := by
    intro other other' lock' hholds hholds' hlock' hlock''
    rw [register_holds_iff] at hholds hholds'
    rw [register_lockOf] at hlock' hlock''
    split_ifs at hlock' with hother
    · exact absurd (hother ▸ hsound.live_of_holds hholds) hunused.not_live
    · split_ifs at hlock'' with hother'
      · exact absurd (hother' ▸ hsound.live_of_holds hholds') hunused.not_live
      · exact hsound.holder_unique other other' lock' hholds hholds' hlock' hlock''
  acquired := by
    intro other hnext
    have hold := hsound.acquired other hnext
    refine ⟨hold.1, ?_⟩
    rw [register_lockOf]
    split_ifs
    · rfl
    · exact hold.2 }

end

variable {registered : JobsQueue}

theorem handleLock_cases (hhandle : q.handleLock job = .ok registered) :
    ((q.jobs job).lockName = .ok none ∧ registered = q) ∨
      ∃ name lock, (q.jobs job).lockName = .ok (some name) ∧ ((q.jobLocks.get? name = some lock ∧
          registered = q.register job lock) ∨
        (q.jobLocks.get? name = none ∧ lock = q.nextLock ∧
          registered = (q.makeLock name).register job lock)) := by
  unfold handleLock at hhandle
  cases hlockName : (q.jobs job).lockName with
  | error error => simp [hlockName] at hhandle
  | ok option =>
    cases option with
    | none =>
      simp only [hlockName, Except.ok.injEq] at hhandle
      exact Or.inl ⟨rfl, hhandle.symm⟩
    | some name =>
      right
      simp only [hlockName, findLock, Except.ok.injEq] at hhandle
      cases hget : q.jobLocks.get? name with
      | some lock =>
        rw [hget] at hhandle
        exact ⟨name, lock, rfl, Or.inl ⟨hget, hhandle.symm⟩⟩
      | none =>
        rw [hget] at hhandle
        exact ⟨name, q.nextLock, rfl, Or.inr ⟨hget, rfl, hhandle.symm⟩⟩

theorem Sound.handleLock (hsound : q.Sound) (hunused : q.Unused job)
    (hhandle : q.handleLock job = .ok registered) : registered.Sound := by
  rcases handleLock_cases hhandle with
    ⟨_, hsame⟩ |
      ⟨name, lock, _, ⟨hget, hregister⟩ | ⟨hget, hlock, hregister⟩⟩
  · rw [hsame]
    exact hsound
  · rw [hregister]
    exact hsound.register hunused hget
  · have hmade : (q.makeLock name).jobLocks.get? name = some lock := by
      rw [hlock]
      exact get?_set_self _ _ _
    have hunused' : (q.makeLock name).Unused job := hunused
    rw [hregister]
    exact (hsound.makeLock hget).register hunused' hmade

theorem handleLock_unused (hunused : q.Unused job)
    (hhandle : q.handleLock job = .ok registered) : registered.Unused job := by
  rcases handleLock_cases hhandle with
    ⟨_, hsame⟩ | ⟨name, lock, _, ⟨_, hregister⟩ | ⟨_, _, hregister⟩⟩
  · rw [hsame]
    exact hunused
  · rw [hregister]
    refine ⟨hunused.1, hunused.2.1, ?_⟩
    rw [register_stage]
    exact hunused.2.2
  · rw [hregister]
    refine ⟨hunused.1, hunused.2.1, ?_⟩
    rw [register_stage]
    exact hunused.2.2

theorem handleLock_registered (hfree : q.lockOf job = none)
    (hhandle : q.handleLock job = .ok registered) :
    ∀ lock, registered.lockOf job = some lock → job ∈ (registered.locks lock).jobs := by
  intro lock' hlock'
  rcases handleLock_cases hhandle with
    ⟨_, hsame⟩ | ⟨name, lock, _, ⟨_, hregister⟩ | ⟨_, _, hregister⟩⟩
  · rw [hsame, hfree] at hlock'
    simp at hlock'
  · rw [hregister, register_lockOf, if_pos rfl, some.injEq] at hlock'
    subst lock'
    rw [hregister, register_locks, if_pos rfl]
    exact Finset.mem_insert_self _ _
  · rw [hregister, register_lockOf, if_pos rfl, some.injEq] at hlock'
    subst lock'
    rw [hregister, register_locks, if_pos rfl]
    exact Finset.mem_insert_self _ _

theorem sameLocks_dequeAdd (hsound : q.Sound) (job : JobId) : q.SameLocks (q.dequeAdd job) := by
  have hsame : q.SameLocks (q.setJob job { q.jobs job with id := q.deque.count + 1 }) :=
    sameLocks_setJob hsound rfl rfl rfl
  exact hsame.withDeque (q.dequeAdd job).deque

theorem Sound.append (hsound : q.Sound) (hunused : q.Unused job)
    (hregistered : ∀ lock, q.lockOf job = some lock → job ∈ (q.locks lock).jobs) (event : Bool) :
    Sound { q with queue := q.queue ++ [job], queueEvent := event } := { hsound with
  queue_lt := by
    intro other hother
    rcases List.mem_append.mp hother with hold | hnew
    · exact hsound.queue_lt other hold
    · rw [mem_singleton] at hnew
      rw [hnew]
      exact hunused.1
  queue_nodup := by
    rw [nodup_append]
    refine ⟨hsound.queue_nodup, nodup_singleton job, ?_⟩
    intro other hother other' hother' heq
    rw [mem_singleton] at hother'
    exact hunused.2.1 (hother' ▸ heq ▸ hother)
  queue_before := by
    intro other hother
    rcases List.mem_append.mp hother with hold | hnew
    · exact hsound.queue_before other hold
    · rw [mem_singleton] at hnew
      rw [hnew]
      exact hunused.2.2
  registered := by
    intro other lock hlive hlock
    rcases hlive with hqueued | hstage
    · rcases List.mem_append.mp hqueued with hold | hnew
      · exact hsound.registered other lock (Or.inl hold) hlock
      · rw [mem_singleton] at hnew
        subst other
        exact hregistered lock hlock
    · exact hsound.registered other lock (Or.inr hstage) hlock
  acquired := by
    intro other hnext
    have hold := hsound.acquired other hnext
    exact ⟨mem_append_left [job] hold.1, hold.2⟩ }

theorem enqueue_eq (q : JobsQueue) (job : JobId) : q.enqueue job =
    ({ q.dequeAdd job with
        queue := q.queue ++ [job]
        queueEvent := q.queueEvent || (q.jobs job).encodeError.isNone },
      (q.jobs job).encodeError.elim (.added job) .raised) := by
  have hread : ((q.dequeAdd job).jobs job).encodeError = (q.jobs job).encodeError := by
    simp [dequeAdd, setJob]
  unfold JobsQueue.enqueue
  simp only [hread]
  cases (q.jobs job).encodeError with
  | none => simp [dequeAdd, setJob]
  | some error => simp [dequeAdd, setJob]

theorem enqueue_state (q : JobsQueue) (job : JobId) : (q.enqueue job).1 =
    { q.dequeAdd job with
      queue := q.queue ++ [job]
      queueEvent := q.queueEvent || (q.jobs job).encodeError.isNone } := by
  rw [enqueue_eq]

theorem Sound.enqueue (hsound : q.Sound) (hunused : q.Unused job)
    (hregistered : ∀ lock, q.lockOf job = some lock → job ∈ (q.locks lock).jobs) :
    (q.enqueue job).1.Sound := by
  have hsame := sameLocks_dequeAdd hsound job
  have hunused' : (q.dequeAdd job).Unused job := by
    refine ⟨hunused.1, hunused.2.1, ?_⟩
    rw [hsame.stage]
    exact hunused.2.2
  have hlockOf : (q.dequeAdd job).lockOf job = q.lockOf job := by
    have hread : (q.dequeAdd job).lockOf job =
        (q.setJob job { q.jobs job with id := q.deque.count + 1 }).lockOf job :=
      rfl
    rw [hread, setJob_lockOf, if_pos rfl]
    rfl
  rw [enqueue_state]
  refine (hsound.of_sameLocks hsame).append hunused' ?_ _
  intro lock hlock
  rw [hlockOf] at hlock
  exact hregistered lock hlock

theorem admission_cases (q : JobsQueue) (job : JobId) :
    q.admission job = q.enqueue job ∨ (q.admission job).1 = q := by
  unfold admission
  cases (q.jobs job).lockQueueSize with
  | none => exact Or.inl rfl
  | some size =>
    cases size with
    | zero =>
      by_cases hbusy : q.lockBusy (q.jobs job).lock
      · simp [hbusy]
      · simp [hbusy]
    | succ size =>
      by_cases hfull : size + 1 ≤ (q.queuedWith (q.jobs job).lock).length
      · right
        simp only [hfull, if_true]
        cases q.replacement (q.jobs job).credentials (q.queuedWith (q.jobs job).lock).reverse with
        | ok other => rfl
        | error error => rfl
      · simp [hfull]

theorem add_cases (q : JobsQueue) (spec : JobSpec) :
    ((∃ error, (q.create spec).handleLock q.nextJob = .error error) ∧
        (q.add spec).1 = q.create spec) ∨
      ∃ registered, (q.create spec).handleLock q.nextJob = .ok registered ∧
        q.add spec = registered.admission q.nextJob := by
  unfold JobsQueue.add
  cases hhandle : (q.create spec).handleLock q.nextJob with
  | error error =>
    left
    refine ⟨⟨error, rfl⟩, ?_⟩
    simp only [hhandle]
  | ok registered =>
    right
    refine ⟨registered, rfl, ?_⟩
    simp only [hhandle]

/-- `add` keeps what its steps keep, whichever of them raises. -/
theorem add_of_steps {p : JobsQueue → Prop} {spec : JobSpec} (hcreate : p (q.create spec))
    (hsteps : ∀ registered, (q.create spec).handleLock q.nextJob = .ok registered →
      p registered ∧ p (registered.enqueue q.nextJob).1) : p (q.add spec).1 := by
  rcases add_cases q spec with ⟨_, hraised⟩ | ⟨registered, hhandle, hadd⟩
  · rw [hraised]
    exact hcreate
  · rw [hadd]
    rcases admission_cases registered q.nextJob with henqueue | hsame
    · rw [henqueue]
      exact (hsteps registered hhandle).2
    · rw [hsame]
      exact (hsteps registered hhandle).1

theorem Sound.add (hsound : q.Sound) (spec : JobSpec) : (q.add spec).1.Sound := by
  have hcreated := hsound.of_sameLocks (sameLocks_create hsound spec)
  have hunused := create_unused hsound spec
  apply add_of_steps hcreated
  intro registered hhandle
  have hsound' := hcreated.handleLock hunused hhandle
  refine ⟨hsound', hsound'.enqueue (handleLock_unused hunused hhandle) ?_⟩
  refine handleLock_registered ?_ hhandle
  rw [create_lockOf, if_pos rfl]

/-! ## Scheduling -/

theorem isReady_eq_false_iff : q.isReady job = false ↔
    ∃ lock, q.lockOf job = some lock ∧ (q.locks lock).locked = true := by
  unfold isReady lockOf
  cases (q.jobs job).lock with
  | none => simp
  | some lock => simp

def grab (q : JobsQueue) (job : JobId) (lock : LockId) : JobsQueue :=
  { q.setLock lock { q.locks lock with locked := true } with next := .acquired job }

theorem nextWake_cases (q : JobsQueue) : ((∀ job ∈ q.queue, q.isReady job = false) ∧
      q.nextWake = { q with queueEvent := false }) ∨
    ∃ job ∈ q.queue, (q.lockOf job = none ∧ q.nextWake = q.returnJob job) ∨
      ∃ lock, q.lockOf job = some lock ∧ (q.locks lock).locked = false ∧
        q.nextWake = q.grab job lock := by
  unfold nextWake
  cases hfind : q.queue.find? q.isReady with
  | none =>
    left
    refine ⟨?_, rfl⟩
    intro job hjob
    have hready := List.find?_eq_none.mp hfind job hjob
    simpa using hready
  | some job =>
    right
    refine ⟨job, mem_of_find?_eq_some hfind, ?_⟩
    have hready : q.isReady job = true := find?_some hfind
    cases hlock : (q.jobs job).lock with
    | none =>
      left
      refine ⟨hlock, ?_⟩
      simp only [hlock]
    | some lock =>
      right
      unfold isReady at hready
      rw [hlock] at hready
      refine ⟨lock, hlock, by simpa using hready, ?_⟩
      simp only [hlock]
      rfl

section

variable {q : JobsQueue} {job : JobId} {lock : LockId}

theorem grab_locks (other : LockId) : (q.grab job lock).locks other =
    if other = lock then { q.locks lock with locked := true }
    else q.locks other := by
  by_cases hother : other = lock
  · simp [grab, setLock, hother]
  · simp [grab, setLock, hother]

theorem grab_lock_name (other : LockId) :
    ((q.grab job lock).locks other).name = (q.locks other).name := by
  rw [grab_locks]
  split_ifs with hother
  · rw [hother]
  · rfl

theorem grab_lock_jobs (other : LockId) :
    ((q.grab job lock).locks other).jobs = (q.locks other).jobs := by
  rw [grab_locks]
  split_ifs with hother
  · rw [hother]
  · rfl

theorem grab_locked_of_locked {other : LockId} (hlocked : (q.locks other).locked = true) :
    ((q.grab job lock).locks other).locked = true := by
  rw [grab_locks]
  split_ifs
  · rfl
  · exact hlocked

theorem grab_holds_iff (hnext : q.next = .waiting) (other : JobId) :
    (q.grab job lock).Holds other ↔ other = job ∨ q.Holds other := by
  change q.stage other = .holding ∨ NextPhase.acquired job = .acquired other ↔
    other = job ∨ q.stage other = .holding ∨ q.next = .acquired other
  rw [hnext]
  simp only [NextPhase.acquired.injEq, reduceCtorEq, or_false]
  rw [or_comm, eq_comm]

theorem Sound.grab (hsound : q.Sound) (hnext : q.next = .waiting)
    (hqueued : job ∈ q.queue) (hlock : q.lockOf job = some lock)
    (hfree : (q.locks lock).locked = false) : (q.grab job lock).Sound := { hsound with
  registered := by
    intro other lock' hlive hlock'
    rw [grab_lock_jobs]
    exact hsound.registered other lock' hlive hlock'
  jobLocks_name := by
    intro name lock' hget
    rw [grab_lock_name]
    exact hsound.jobLocks_name name lock' hget
  jobLocks_of_jobs := by
    intro lock' hlt hjobs
    rw [grab_lock_jobs] at hjobs
    rw [grab_lock_name]
    exact hsound.jobLocks_of_jobs lock' hlt hjobs
  holder_locked := by
    intro other lock' hholds hlock'
    rw [grab_holds_iff hnext] at hholds
    rcases hholds with heq | hold
    · subst other
      have hsame : lock' = lock := some.inj (hlock'.symm.trans hlock)
      rw [hsame, grab_locks, if_pos rfl]
    · exact grab_locked_of_locked (hsound.holder_locked other lock' hold hlock')
  holder_unique := by
    have hnobody : ∀ other, q.Holds other → q.lockOf other ≠ some lock := by
      intro other hholds hlock'
      have hlocked := hsound.holder_locked other lock hholds hlock'
      rw [hfree] at hlocked
      simp at hlocked
    intro other other' lock' hholds hholds' hlock' hlock''
    rw [grab_holds_iff hnext] at hholds hholds'
    have hread : ∀ known, known = job →
        (q.grab job lock).lockOf known = some lock' → lock' = lock := by
      intro known heq hknown
      subst known
      exact some.inj (hknown.symm.trans hlock)
    rcases hholds with heq | hold
    · rcases hholds' with heq' | hold'
      · rw [heq, heq']
      · rw [hread other heq hlock'] at hlock''
        exact absurd hlock'' (hnobody other' hold')
    · rcases hholds' with heq' | hold'
      · rw [hread other' heq' hlock''] at hlock'
        exact absurd hlock' (hnobody other hold)
      · exact hsound.holder_unique other other' lock' hold hold' hlock' hlock''
  acquired := by
    intro other hother
    change NextPhase.acquired job = .acquired other at hother
    rw [NextPhase.acquired.injEq] at hother
    subst other
    refine ⟨hqueued, ?_⟩
    change (q.lockOf job).isSome
    rw [hlock]
    rfl }

theorem returnJob_stage (other : JobId) : (q.returnJob job).stage other =
    if other = job then .holding else q.stage other := by
  have hread : (q.returnJob job).stage other =
      (q.setJob job { q.jobs job with phase := .started }).stage other := rfl
  rw [hread, setJob_stage]
  rfl

theorem returnJob_lockOf (other : JobId) : (q.returnJob job).lockOf other = q.lockOf other := by
  have hread : (q.returnJob job).lockOf other =
      (q.setJob job { q.jobs job with phase := .started }).lockOf other := rfl
  rw [hread, setJob_lockOf]
  split_ifs with hother
  · rw [hother]
    rfl
  · rfl

theorem returnJob_stage_holding_iff (other : JobId) : (q.returnJob job).stage other = .holding ↔
    other = job ∨ q.stage other = .holding := by
  rw [returnJob_stage]
  split_ifs with hother
  · simp [hother]
  · simp [hother]

theorem returnJob_live {other : JobId} (hqueued : job ∈ q.queue)
    (hlive : (q.returnJob job).Live other) : q.Live other := by
  rcases hlive with hother | hstage
  · exact Or.inl (mem_of_mem_erase hother)
  · rcases (returnJob_stage_holding_iff other).mp hstage with heq | hold
    · rw [heq]
      exact Or.inl hqueued
    · exact Or.inr hold

theorem returnJob_holds {other : JobId} {lock : LockId}
    (hheld : q.lockOf job = none ∨ q.next = .acquired job)
    (hlock : q.lockOf other = some lock)
    (hholds : (q.returnJob job).Holds other) : q.Holds other := by
  rcases hholds with hstage | hnext
  · rcases (returnJob_stage_holding_iff other).mp hstage with heq | hold
    · subst other
      rcases hheld with hfree | hacquired
      · rw [hfree] at hlock
        simp at hlock
      · exact Or.inr hacquired
    · exact Or.inl hold
  · change NextPhase.waiting = .acquired other at hnext
    simp at hnext

theorem Sound.returnJob (hsound : q.Sound) (hqueued : job ∈ q.queue)
    (hheld : q.lockOf job = none ∨ q.next = .acquired job) :
    (q.returnJob job).Sound := { hsound with
  queue_lt := by
    intro other hother
    exact hsound.queue_lt other (mem_of_mem_erase hother)
  queue_nodup := hsound.queue_nodup.erase job
  queue_before := by
    intro other hother
    obtain ⟨hne, hold⟩ := (hsound.queue_nodup.mem_erase_iff).mp hother
    rw [returnJob_stage, if_neg hne]
    exact hsound.queue_before other hold
  created_of_stage := by
    intro other hstage
    rw [returnJob_stage] at hstage
    split_ifs at hstage with hother
    · rw [hother]
      exact hsound.queue_lt job hqueued
    · exact hsound.created_of_stage other hstage
  returned_nodup := by
    change (q.returned ++ [job]).Nodup
    rw [nodup_append]
    refine ⟨hsound.returned_nodup, nodup_singleton job, ?_⟩
    intro other hother other' hother' heq
    rw [mem_singleton] at hother'
    subst other' heq
    exact (hsound.returned_iff other).mp hother (hsound.queue_before other hqueued)
  returned_iff := by
    intro other
    change other ∈ q.returned ++ [job] ↔ _
    rw [mem_append, mem_singleton, hsound.returned_iff, returnJob_stage]
    by_cases hother : other = job
    · simp [hother]
    · simp [hother]
  lock_lt := by
    intro other lock hlock
    rw [returnJob_lockOf] at hlock
    exact hsound.lock_lt other lock hlock
  registered := by
    intro other lock hlive hlock
    rw [returnJob_lockOf] at hlock
    exact hsound.registered other lock (returnJob_live hqueued hlive) hlock
  holder_locked := by
    intro other lock hholds hlock
    rw [returnJob_lockOf] at hlock
    exact hsound.holder_locked other lock (returnJob_holds hheld hlock hholds) hlock
  holder_unique := by
    intro other other' lock hholds hholds' hlock hlock'
    rw [returnJob_lockOf] at hlock hlock'
    exact hsound.holder_unique other other' lock (returnJob_holds hheld hlock hholds)
      (returnJob_holds hheld hlock' hholds') hlock hlock'
  acquired := by
    intro other hnext
    change NextPhase.waiting = .acquired other at hnext
    simp at hnext }

end

theorem Sound.nextWake (hsound : q.Sound) (hnext : q.next = .waiting) : q.nextWake.Sound := by
  rcases nextWake_cases q with ⟨_, hwake⟩ | ⟨job, hqueued, hfound⟩
  · rw [hwake]
    exact { hsound with }
  · rcases hfound with ⟨hnone, hwake⟩ | ⟨lock, hlock, hfree, hwake⟩
    · rw [hwake]
      exact hsound.returnJob hqueued (Or.inl hnone)
    · rw [hwake]
      exact hsound.grab hnext hqueued hlock hfree

/-! ## Releasing a lock -/

def dropEntry (q : JobsQueue) (job : JobId) : Dict String LockId :=
  match q.lockOf job with
  | none => q.jobLocks
  | some lock =>
    if (q.locks lock).jobs.erase job = ∅ then
      q.jobLocks.erase (q.locks lock).name
    else q.jobLocks

def dropLock (q : JobsQueue) (job : JobId) : JobsQueue :=
  { q with
    locks := fun lock =>
      if q.lockOf job = some lock then
        { q.locks lock with jobs := (q.locks lock).jobs.erase job, locked := false }
      else q.locks lock
    jobLocks := q.dropEntry job
    queueEvent := q.queueEvent || (q.lockOf job).isSome }

section

variable {q : JobsQueue} {job : JobId}

theorem dropLock_locks (other : LockId) : (q.dropLock job).locks other =
    if q.lockOf job = some other then
      { q.locks other with jobs := (q.locks other).jobs.erase job, locked := false }
    else q.locks other := rfl

variable {lock : LockId}

theorem setLock_eq_dropLock_locks (hlock : q.lockOf job = some lock) :
    (q.setLock lock { q.locks lock with
      jobs := (q.locks lock).jobs.erase job, locked := false }).locks = (q.dropLock job).locks := by
  funext other
  rw [dropLock_locks]
  by_cases hother : other = lock
  · subst hother
    simp [setLock, hlock]
  · have hne : ¬ q.lockOf job = some other := by
      rw [hlock]
      simpa using fun heq => hother heq.symm
    simp [setLock, hother, hne]

theorem releaseLock_eq (hsound : q.Sound) (hstage : q.stage job = .holding) :
    q.releaseLock job = (q.dropLock job, false) := by
  unfold releaseLock
  cases hlock : q.lockOf job with
  | none =>
    have hread : (q.jobs job).lock = none := hlock
    simp [hread, dropLock, dropEntry, hlock]
  | some lock =>
    have hread : (q.jobs job).lock = some lock := hlock
    have hlocked := hsound.holder_locked job lock (Or.inl hstage) hlock
    have hmem := hsound.registered job lock (Or.inr hstage) hlock
    have hget := hsound.jobLocks_of_jobs lock
      (hsound.lock_lt job lock hlock) (Finset.ne_empty_of_mem hmem)
    have hname : (q.locks lock).name ∈ q.jobLocks := mem_of_get?_eq_some hget
    have hlocks := setLock_eq_dropLock_locks hlock
    have hentry : q.dropEntry job = if (q.locks lock).jobs.erase job = ∅ then
          q.jobLocks.erase (q.locks lock).name
        else q.jobLocks := by
      unfold dropEntry
      rw [hlock]
    have hdrop : q.dropLock job = { q with
          locks := (q.dropLock job).locks
          jobLocks := q.dropEntry job
          queueEvent := true } := by
      unfold dropLock
      simp [hlock]
    rw [hdrop, hentry, ← hlocks]
    simp only [hread, hlocked, if_true]
    split_ifs with hempty
    · rfl
    · contradiction
    · rfl

theorem dropLock_lock_name (other : LockId) :
    ((q.dropLock job).locks other).name = (q.locks other).name := by
  rw [dropLock_locks]
  split_ifs
  · rfl
  · rfl

theorem dropLock_queueEvent (hevent : (q.dropLock job).queueEvent = false) :
    q.queueEvent = false ∧ q.lockOf job = none := by
  change (q.queueEvent || (q.lockOf job).isSome) = false at hevent
  simpa using hevent

theorem get?_of_dropEntry {name : String} (hget : (q.dropEntry job).get? name = some lock) :
    q.jobLocks.get? name = some lock := by
  unfold dropEntry at hget
  cases hlock : q.lockOf job with
  | none => simpa only [hlock] using hget
  | some held =>
    simp only [hlock] at hget
    split_ifs at hget
    · rw [get?_erase] at hget
      split_ifs at hget
      exact hget
    · exact hget

theorem get?_dropEntry {name : String} (hget : q.jobLocks.get? name = some lock)
    (hunique : ∀ held, q.lockOf job = some held → (q.locks held).name = name → held = lock)
    (hjobs : ((q.dropLock job).locks lock).jobs ≠ ∅) :
    (q.dropEntry job).get? name = some lock := by
  rw [dropLock_locks] at hjobs
  unfold dropEntry
  cases hlock : q.lockOf job with
  | none => exact hget
  | some held =>
    simp only
    split_ifs with hempty
    · rw [get?_erase, if_neg]
      · exact hget
      · intro hname
        have hsame := hunique held hlock hname.symm
        rw [if_pos (hsame ▸ hlock), ← hsame] at hjobs
        exact hjobs hempty
    · exact hget

theorem finishRun_eq (hsound : q.Sound) (hstage : q.stage job = .holding) :
    q.finishRun job = (q.dropLock job).setPhase job .released := by
  unfold finishRun
  rw [releaseLock_eq hsound hstage]
  rfl

theorem released_stage (other : JobId) : ((q.dropLock job).setPhase job .released).stage other =
    if other = job then .after else q.stage other := by
  unfold setPhase
  rw [setJob_stage]
  rfl

theorem released_lockOf (other : JobId) : ((q.dropLock job).setPhase job .released).lockOf other =
    q.lockOf other := by
  unfold setPhase
  rw [setJob_lockOf]
  split_ifs with hother
  · rw [hother]
    rfl
  · rfl

theorem released_live (hsound : q.Sound) (hstage : q.stage job = .holding) {other : JobId}
    (hlive : ((q.dropLock job).setPhase job .released).Live other) :
    other ≠ job ∧ q.Live other := by
  rcases hlive with hqueued | hother
  · refine ⟨?_, Or.inl hqueued⟩
    intro heq
    subst other
    exact hsound.not_mem_queue_of_stage (by rw [hstage]; simp) hqueued
  · rw [released_stage] at hother
    split_ifs at hother with heq
    exact ⟨heq, Or.inr hother⟩

theorem released_holds (hsound : q.Sound) (hstage : q.stage job = .holding) {other : JobId}
    (hholds : ((q.dropLock job).setPhase job .released).Holds other) :
    other ≠ job ∧ q.Holds other := by
  rcases hholds with hother | hnext
  · rw [released_stage] at hother
    split_ifs at hother with heq
    exact ⟨heq, Or.inl hother⟩
  · refine ⟨?_, Or.inr hnext⟩
    intro heq
    subst other
    exact hsound.not_mem_queue_of_stage (by rw [hstage]; simp) (hsound.acquired job hnext).1

theorem Sound.release (hsound : q.Sound) (hstage : q.stage job = .holding) :
    ((q.dropLock job).setPhase job .released).Sound := { hsound with
  queue_before := by
    intro other hother
    obtain ⟨hne, _⟩ := released_live hsound hstage (Or.inl hother)
    rw [released_stage, if_neg hne]
    exact hsound.queue_before other hother
  created_of_stage := by
    intro other hother
    rw [released_stage] at hother
    split_ifs at hother with heq
    · rw [heq]
      exact hsound.created_of_stage job (by rw [hstage]; simp)
    · exact hsound.created_of_stage other hother
  returned_iff := by
    intro other
    change other ∈ q.returned ↔ _
    rw [hsound.returned_iff, released_stage]
    by_cases hother : other = job
    · simp [hother, hstage]
    · simp [hother]
  lock_lt := by
    intro other lock hlock
    rw [released_lockOf] at hlock
    exact hsound.lock_lt other lock hlock
  registered := by
    intro other lock hlive hlock
    obtain ⟨hne, hold⟩ := released_live hsound hstage hlive
    rw [released_lockOf] at hlock
    have hmem := hsound.registered other lock hold hlock
    change other ∈ ((q.dropLock job).locks lock).jobs
    rw [dropLock_locks]
    split_ifs
    · exact Finset.mem_erase.mpr ⟨hne, hmem⟩
    · exact hmem
  jobLocks_name := by
    intro name lock hget
    have hold := hsound.jobLocks_name name lock (get?_of_dropEntry hget)
    change lock < q.nextLock ∧ ((q.dropLock job).locks lock).name = name
    rw [dropLock_lock_name]
    exact hold
  jobLocks_of_jobs := by
    intro lock hlt hjobs
    have hold : (q.locks lock).jobs ≠ ∅ := by
      intro hempty
      change ((q.dropLock job).locks lock).jobs ≠ ∅ at hjobs
      rw [dropLock_locks] at hjobs
      split_ifs at hjobs
      · simp [hempty] at hjobs
      · exact hjobs hempty
    have hget := hsound.jobLocks_of_jobs lock hlt hold
    change (q.dropEntry job).get? ((q.dropLock job).locks lock).name = _
    rw [dropLock_lock_name]
    refine get?_dropEntry hget ?_ hjobs
    intro held hheld hname
    have hmem := hsound.registered job held (Or.inr hstage) hheld
    have hget' := hsound.jobLocks_of_jobs held
      (hsound.lock_lt job held hheld) (Finset.ne_empty_of_mem hmem)
    rw [hname, hget] at hget'
    exact (some.inj hget').symm
  holder_locked := by
    intro other lock hholds hlock
    obtain ⟨hne, hold⟩ := released_holds hsound hstage hholds
    rw [released_lockOf] at hlock
    change ((q.dropLock job).locks lock).locked = true
    rw [dropLock_locks, if_neg]
    · exact hsound.holder_locked other lock hold hlock
    · intro hheld
      exact hne (hsound.holder_unique other job lock hold (Or.inl hstage) hlock hheld)
  holder_unique := by
    intro other other' lock hholds hholds' hlock hlock'
    have hold := (released_holds hsound hstage hholds).2
    have hold' := (released_holds hsound hstage hholds').2
    rw [released_lockOf] at hlock hlock'
    exact hsound.holder_unique other other' lock hold hold' hlock hlock'
  acquired := by
    intro other hnext
    rw [released_lockOf]
    exact hsound.acquired other hnext }

theorem sameLocks_setPhase (hsound : q.Sound) {phase : RunPhase}
    (hstage : phase.stage = q.stage job) :
    q.SameLocks (q.setPhase job phase) :=
  sameLocks_setJob hsound rfl hstage rfl

theorem sameLocks_beginBody (hsound : q.Sound)
    (hstage : q.stage job = .holding) : q.SameLocks (q.beginBody job) := by
  unfold beginBody
  split_ifs <;> exact sameLocks_setJob hsound rfl hstage.symm rfl

theorem sameLocks_complete (hsound : q.Sound)
    (hstage : q.stage job = .after) : q.SameLocks (q.complete job) := by
  have hphase : q.SameLocks (q.setPhase job .done) := sameLocks_setPhase hsound hstage.symm
  unfold complete
  simp only
  split_ifs
  · exact hphase.withDeque _
  · exact hphase

theorem sameLocks_abort (hsound : q.Sound) : q.SameLocks (q.abort job) := by
  unfold abort
  split_ifs
  · exact sameLocks_setJob hsound rfl rfl rfl
  · exact hsound.sameLocks_self

end

theorem stage_of_atPhase {result : JobsQueue} {phase : RunPhase}
    (hat : q.atPhase job phase result = some next) :
    next = result ∧ q.stage job = phase.stage := by
  unfold atPhase at hat
  split_ifs at hat with hphase
  refine ⟨(some.inj hat).symm, ?_⟩
  unfold stage
  rw [hphase]

theorem step_cases (hsound : q.Sound) {action : Action} (hstep : q.step action = some next) :
    (∃ spec, action = .add spec ∧ next = (q.add spec).1) ∨ (q.next = .waiting ∧ next = q.nextWake) ∨
      (∃ job, q.next = .acquired job ∧ next = q.returnJob job) ∨
      (∃ job, q.stage job = .holding ∧ next = q.finishRun job) ∨
      q.SameLocks next := by
  cases action with
  | add spec =>
    left
    exact ⟨spec, rfl, (some.inj hstep).symm⟩
  | nextWake =>
    right; left
    unfold step at hstep
    split_ifs at hstep with hwake
    exact ⟨hwake.1, (some.inj hstep).symm⟩
  | nextAcquired =>
    right; right; left
    unfold step at hstep
    cases hnext : q.next with
    | waiting => simp [hnext] at hstep
    | acquired job =>
      rw [hnext] at hstep
      exact ⟨job, rfl, (some.inj hstep).symm⟩
  | runJob job =>
    right; right; right; right
    obtain ⟨hnext, hstage⟩ := stage_of_atPhase hstep
    rw [hnext]
    split_ifs
    · exact sameLocks_setPhase hsound hstage.symm
    · exact sameLocks_beginBody hsound hstage
  | loggingStarted job raises =>
    right; right; right; right
    obtain ⟨hnext, hstage⟩ := stage_of_atPhase hstep
    rw [hnext]
    split_ifs
    · exact sameLocks_setPhase hsound hstage.symm
    · exact sameLocks_beginBody hsound hstage
  | bodyFinished job outcome =>
    right; right; right; right
    obtain ⟨hnext, hstage⟩ := stage_of_atPhase hstep
    rw [hnext]
    exact sameLocks_setJob hsound rfl hstage.symm rfl
  | logsClosed job raises =>
    right; right; right; right
    obtain ⟨hnext, hstage⟩ := stage_of_atPhase hstep
    rw [hnext]
    split_ifs
    · exact sameLocks_setPhase hsound hstage.symm
    · exact sameLocks_setPhase hsound hstage.symm
  | pipesClosed job raises =>
    right; right; right
    obtain ⟨hnext, hstage⟩ := stage_of_atPhase hstep
    cases raises with
    | true =>
      right
      rw [hnext]
      exact sameLocks_setPhase hsound hstage.symm
    | false =>
      left
      exact ⟨job, hstage, hnext⟩
  | finishCallback job =>
    right; right; right; right
    obtain ⟨hnext, hstage⟩ := stage_of_atPhase hstep
    rw [hnext]
    exact sameLocks_complete hsound hstage
  | abort job =>
    right; right; right; right
    rw [(some.inj hstep).symm]
    exact sameLocks_abort hsound

theorem step_sound {action : Action} (hsound : q.Sound)
    (hstep : q.step action = some next) : next.Sound := by
  rcases step_cases hsound hstep with ⟨spec, _, hadd⟩ | ⟨hwaiting, hwake⟩ |
    ⟨job, hacquired, hreturn⟩ | ⟨job, hstage, hfinish⟩ | hsame
  · rw [hadd]
    exact hsound.add spec
  · rw [hwake]
    exact hsound.nextWake hwaiting
  · rw [hreturn]
    exact hsound.returnJob (hsound.acquired job hacquired).1 (Or.inr hacquired)
  · rw [hfinish, finishRun_eq hsound hstage]
    exact hsound.release hstage
  · exact hsound.of_sameLocks hsame

theorem run_sound {actions : List Action}
    (hrun : TransitionSystem.run step init actions = some q) : q.Sound :=
  TransitionSystem.run_invariant (fun _ _ _ => step_sound) init_sound hrun

end JobsQueue

end Middlewared
