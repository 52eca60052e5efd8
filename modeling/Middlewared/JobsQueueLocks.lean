import Middlewared.JobsQueueInvariant

/-!
# Which jobs a lock knows

A lock should know exactly the jobs that are queued on it or run under it, and the table of locks
should hold exactly the locks that know some job.
-/

namespace Middlewared.JobsQueue

open List Dict TransitionSystem

structure Bookkeeping (q : JobsQueue) : Prop where
  jobs_iff : ∀ lock, lock < q.nextLock → ∀ job,
    job ∈ (q.locks lock).jobs ↔ q.lockOf job = some lock ∧ q.Live job
  jobLocks_iff : ∀ lock, lock < q.nextLock →
    ((∃ name, q.jobLocks.get? name = some lock) ↔ (q.locks lock).jobs ≠ ∅)

def lockFull (q : JobsQueue) (lock : Option LockId) : Option ℕ → Bool
  | none => false
  | some 0 => q.lockBusy lock
  | some (size + 1) => decide (size + 1 ≤ (q.queuedWith lock).length)

/-- The condition on one action: a job is not added to a registered lock whose
queue is full. -/
def AddFits (q : JobsQueue) : Action → Prop
  | .add spec => ∀ name lock, spec.lockName = .ok (some name) → q.jobLocks.get? name = some lock →
      q.lockFull (some lock) spec.lockQueueSize = false
  | _ => True

variable {q : JobsQueue}

theorem bookkeeping_of_sound (hsound : q.Sound) (hjobs : ∀ lock, lock < q.nextLock → ∀ job,
      job ∈ (q.locks lock).jobs ↔ q.lockOf job = some lock ∧ q.Live job)
    (hentry : ∀ name lock, q.jobLocks.get? name = some lock →
      (q.locks lock).jobs ≠ ∅) : q.Bookkeeping where
  jobs_iff := hjobs
  jobLocks_iff := by
    intro lock hlt
    refine ⟨?_, ?_⟩
    · intro hget
      rcases hget with ⟨name, hname⟩
      exact hentry name lock hname
    · intro hne
      exact ⟨_, hsound.jobLocks_of_jobs lock hlt hne⟩

variable {lock : LockId}

theorem Bookkeeping.jobs_of_entry (hbook : q.Bookkeeping) (hsound : q.Sound)
    {name : String} (hget : q.jobLocks.get? name = some lock) :
    (q.locks lock).jobs ≠ ∅ :=
  (hbook.jobLocks_iff lock (hsound.jobLocks_name name lock hget).1).mp ⟨name, hget⟩

theorem init_bookkeeping : init.Bookkeeping := by
  constructor <;> simp [init]

/-! ## Steps that add no job -/

variable {next : JobsQueue}

theorem Bookkeeping.of_sameLocks (hbook : q.Bookkeeping) (hsound : q.Sound)
    (hsame : q.SameLocks next) : next.Bookkeeping := by
  refine bookkeeping_of_sound (hsound.of_sameLocks hsame) ?_ ?_
  · intro lock hlt job
    rw [hsame.nextLock] at hlt
    rw [hsame.locks, hbook.jobs_iff lock hlt, hsame.live_iff]
    constructor
    · intro hold
      rw [hsame.lockOf job hold.2]
      exact hold
    · intro hnew
      rw [hsame.lockOf job hnew.2] at hnew
      exact hnew
  · intro name lock hget
    rw [hsame.jobLocks] at hget
    rw [hsame.locks]
    exact hbook.jobs_of_entry hsound hget

variable {job : JobId}

theorem returnJob_live_iff (hqueued : job ∈ q.queue) (other : JobId) :
    (q.returnJob job).Live other ↔ q.Live other := by
  refine ⟨returnJob_live hqueued, ?_⟩
  intro hlive
  by_cases hother : other = job
  · right
    rw [returnJob_stage, if_pos hother]
  · rcases hlive with hmem | hstage
    · left
      exact (mem_erase_of_ne hother).mpr hmem
    · right
      rw [returnJob_stage, if_neg hother]
      exact hstage

theorem Bookkeeping.returnJob (hbook : q.Bookkeeping) (hqueued : job ∈ q.queue) :
    (q.returnJob job).Bookkeeping where
  jobs_iff := by
    intro lock hlt other
    rw [returnJob_lockOf, returnJob_live_iff hqueued]
    exact hbook.jobs_iff lock hlt other
  jobLocks_iff := hbook.jobLocks_iff

theorem Bookkeeping.grab (hbook : q.Bookkeeping) : (q.grab job lock).Bookkeeping where
  jobs_iff := by
    intro other hlt known
    rw [grab_lock_jobs]
    exact hbook.jobs_iff other hlt known
  jobLocks_iff := by
    intro other hlt
    rw [grab_lock_jobs]
    exact hbook.jobLocks_iff other hlt

theorem Bookkeeping.nextWake (hbook : q.Bookkeeping) : q.nextWake.Bookkeeping := by
  rcases nextWake_cases q with ⟨_, hwake⟩ | ⟨job, hqueued, hfound⟩
  · rw [hwake]
    exact ⟨hbook.jobs_iff, hbook.jobLocks_iff⟩
  · rcases hfound with ⟨_, hwake⟩ | ⟨lock, _, _, hwake⟩
    · rw [hwake]
      exact hbook.returnJob hqueued
    · rw [hwake]
      exact hbook.grab

theorem released_live_iff (hsound : q.Sound) (hstage : q.stage job = .holding)
    (other : JobId) : ((q.dropLock job).setPhase job .released).Live other ↔
    other ≠ job ∧ q.Live other := by
  refine ⟨released_live hsound hstage, ?_⟩
  intro hold
  rcases hold.2 with hqueued | hother
  · exact Or.inl hqueued
  · right
    rw [released_stage, if_neg hold.1]
    exact hother

theorem mem_dropLock_jobs_iff (lock : LockId) (other : JobId) :
    other ∈ ((q.dropLock job).locks lock).jobs ↔ other ∈ (q.locks lock).jobs ∧
        (q.lockOf job = some lock → other ≠ job) := by
  rw [dropLock_locks]
  split_ifs with hheld
  · rw [Finset.mem_erase]
    tauto
  · tauto

theorem dropEntry_jobs (hsound : q.Sound) (hbook : q.Bookkeeping)
    {name : String} (hget : (q.dropEntry job).get? name = some lock) :
    ((q.dropLock job).locks lock).jobs ≠ ∅ := by
  have hold := get?_of_dropEntry hget
  rw [dropLock_locks]
  split_ifs with hheld
  · intro hempty
    change (q.locks lock).jobs.erase job = ∅ at hempty
    unfold dropEntry at hget
    simp only [hheld, hempty, if_true] at hget
    rw [(hsound.jobLocks_name name lock hold).2, get?_erase] at hget
    simp at hget
  · exact hbook.jobs_of_entry hsound hold

theorem Bookkeeping.release (hbook : q.Bookkeeping) (hsound : q.Sound)
    (hstage : q.stage job = .holding) :
    ((q.dropLock job).setPhase job .released).Bookkeeping := by
  refine bookkeeping_of_sound (hsound.release hstage) ?_ ?_
  · intro lock hlt other
    change other ∈ ((q.dropLock job).locks lock).jobs ↔ _
    rw [mem_dropLock_jobs_iff, hbook.jobs_iff lock hlt, released_lockOf,
      released_live_iff hsound hstage]
    constructor
    · intro hold
      refine ⟨hold.1.1, ?_, hold.1.2⟩
      intro heq
      exact hold.2 (heq ▸ hold.1.1) heq
    · intro hnew
      exact ⟨⟨hnew.1, hnew.2.2⟩, fun _ => hnew.2.1⟩
  · intro name lock hget
    exact dropEntry_jobs hsound hbook hget

/-! ## Adding a job -/

/-- The bookkeeping is right, except that `job` is entered in its lock and not
yet queued. -/
structure Pending (q : JobsQueue) (job : JobId) : Prop where
  jobs_iff : ∀ lock, lock < q.nextLock → ∀ other, other ∈ (q.locks lock).jobs ↔
      q.lockOf other = some lock ∧ (q.Live other ∨ other = job)
  jobs_of_entry : ∀ name lock, q.jobLocks.get? name = some lock → (q.locks lock).jobs ≠ ∅

theorem Bookkeeping.pending_of_lockOf_none (hbook : q.Bookkeeping)
    (hsound : q.Sound) (hfree : q.lockOf job = none) : q.Pending job where
  jobs_iff := by
    intro lock hlt other
    rw [hbook.jobs_iff lock hlt]
    constructor
    · intro hold
      exact ⟨hold.1, Or.inl hold.2⟩
    · intro hnew
      refine ⟨hnew.1, ?_⟩
      rcases hnew.2 with hlive | heq
      · exact hlive
      · rw [heq, hfree] at hnew
        simp at hnew
  jobs_of_entry := fun _ _ hget => hbook.jobs_of_entry hsound hget

section

variable {q : JobsQueue} {job : JobId} {lock : LockId}

theorem pending_register (hfree : q.lockOf job = none) (hunused : q.Unused job)
    (hjobs : ∀ other, other < q.nextLock → ∀ known, known ∈ (q.locks other).jobs ↔
        q.lockOf known = some other ∧ q.Live known)
    (hentry : ∀ name other, q.jobLocks.get? name = some other →
      other ≠ lock → (q.locks other).jobs ≠ ∅) :
    (q.register job lock).Pending job where
  jobs_iff := by
    intro other hlt known
    rw [register_live_iff, register_lockOf, register_locks]
    by_cases hknown : known = job
    · subst hknown
      by_cases hother : other = lock
      · subst hother
        simp
      · have hne : ¬ lock = other := fun heq => hother heq.symm
        rw [if_neg hother, hjobs other hlt known, hfree, if_pos rfl]
        simp [hne]
    · have hold := hjobs other hlt known
      split_ifs with hother
      · subst hother
        rw [Finset.mem_insert, hold]
        simp [hknown]
      · rw [hold]
        simp [hknown]
  jobs_of_entry := by
    intro name other hget
    rw [register_locks]
    split_ifs with hother
    · exact Finset.insert_ne_empty _ _
    · exact hentry name other hget hother

theorem makeLock_jobs_iff (hbook : q.Bookkeeping) (hsound : q.Sound) (name : String) :
    ∀ other, other < (q.makeLock name).nextLock → ∀ known,
      known ∈ ((q.makeLock name).locks other).jobs ↔ (q.makeLock name).lockOf known = some other ∧
          (q.makeLock name).Live known := by
  intro other hlt known
  change known ∈ ((q.makeLock name).locks other).jobs ↔ q.lockOf known = some other ∧ q.Live known
  change other < q.nextLock + 1 at hlt
  by_cases hother : other = q.nextLock
  · subst hother
    have hlock : q.lockOf known ≠ some q.nextLock := by
      intro hknown
      exact (hsound.lock_lt known q.nextLock hknown).false
    simp [makeLock, setLock, hlock]
  · have hold : other < q.nextLock := by omega
    rw [makeLock_locks_of_lt hold]
    exact hbook.jobs_iff other hold known

theorem makeLock_jobs_of_entry (hbook : q.Bookkeeping) (hsound : q.Sound) (name : String) :
    ∀ other lock', (q.makeLock name).jobLocks.get? other = some lock' →
      lock' ≠ q.nextLock → ((q.makeLock name).locks lock').jobs ≠ ∅ := by
  intro other lock' hget hne
  change (q.jobLocks.set name q.nextLock).get? other = some lock' at hget
  rw [get?_set] at hget
  split_ifs at hget with hother
  · exact absurd (Option.some.inj hget).symm hne
  · rw [makeLock_locks_of_lt (hsound.jobLocks_name other lock' hget).1]
    exact hbook.jobs_of_entry hsound hget

theorem Bookkeeping.handleLock {registered : JobsQueue}
    (hbook : q.Bookkeeping) (hsound : q.Sound) (hunused : q.Unused job)
    (hfree : q.lockOf job = none)
    (hhandle : q.handleLock job = .ok registered) :
    registered.Pending job := by
  rcases handleLock_cases hhandle with
    ⟨_, hsame⟩ |
      ⟨name, lock, _, ⟨hget, hregister⟩ | ⟨_, hlock, hregister⟩⟩
  · rw [hsame]
    exact hbook.pending_of_lockOf_none hsound hfree
  · rw [hregister]
    exact pending_register hfree hunused hbook.jobs_iff
      (fun _ _ hother _ => hbook.jobs_of_entry hsound hother)
  · have hunused' : (q.makeLock name).Unused job := hunused
    rw [hregister, hlock]
    exact pending_register hfree hunused' (makeLock_jobs_iff hbook hsound name)
      (makeLock_jobs_of_entry hbook hsound name)

theorem enqueue_lockOf (other : JobId) : (q.enqueue job).1.lockOf other = q.lockOf other := by
  have hread : (q.enqueue job).1.lockOf other =
      (q.setJob job { q.jobs job with id := q.deque.count + 1 }).lockOf other := by
    rw [enqueue_state]
    rfl
  rw [hread, setJob_lockOf]
  split_ifs with hother
  · rw [hother]
    rfl
  · rfl

theorem enqueue_live_iff (other : JobId) :
    (q.enqueue job).1.Live other ↔ q.Live other ∨ other = job := by
  have hstage : (q.enqueue job).1.stage other = q.stage other := by
    have hread : (q.enqueue job).1.stage other = (q.setJob job { q.jobs job with
          id := q.deque.count + 1 }).stage other := by
      rw [enqueue_state]
      rfl
    rw [hread, setJob_stage]
    split_ifs with hother
    · rw [hother]
      rfl
    · rfl
  have hqueue : (q.enqueue job).1.queue = q.queue ++ [job] := by
    rw [enqueue_state]
  unfold Live
  rw [hstage, hqueue, mem_append, mem_singleton]
  tauto

theorem Pending.enqueue (hpending : q.Pending job)
    (hsound : (q.enqueue job).1.Sound) : (q.enqueue job).1.Bookkeeping := by
  have hread : (q.enqueue job).1.nextLock = q.nextLock ∧ (q.enqueue job).1.locks = q.locks ∧
      (q.enqueue job).1.jobLocks = q.jobLocks := by
    rw [enqueue_state]
    exact ⟨rfl, rfl, rfl⟩
  obtain ⟨hnextLock, hlocks, hjobLocks⟩ := hread
  refine bookkeeping_of_sound hsound ?_ ?_
  · intro lock hlt other
    rw [enqueue_lockOf, enqueue_live_iff, hlocks]
    exact hpending.jobs_iff lock (hnextLock ▸ hlt) other
  · intro name lock hget
    rw [hlocks]
    exact hpending.jobs_of_entry name lock (hjobLocks ▸ hget)

theorem Pending.bookkeeping_iff (hpending : q.Pending job)
    (hunused : q.Unused job) (hsound : q.Sound) :
    q.Bookkeeping ↔ q.lockOf job = none := by
  constructor
  · intro hbook
    cases hlock : q.lockOf job with
    | none => rfl
    | some lock =>
      have hlt := hsound.lock_lt job lock hlock
      have hmem : job ∈ (q.locks lock).jobs :=
        (hpending.jobs_iff lock hlt job).mpr ⟨hlock, Or.inr rfl⟩
      -- the lock knows the job, which neither waits nor runs
      exact absurd ((hbook.jobs_iff lock hlt job).mp hmem).2 hunused.not_live
  · intro hfree
    refine bookkeeping_of_sound hsound ?_ hpending.jobs_of_entry
    intro lock hlt other
    rw [hpending.jobs_iff lock hlt]
    constructor
    · intro hold
      refine ⟨hold.1, ?_⟩
      rcases hold.2 with hlive | heq
      · exact hlive
      · rw [heq, hfree] at hold
        simp at hold
    · intro hnew
      exact ⟨hnew.1, Or.inl hnew.2⟩

end

theorem admission_of_lockFull
    (hfull : q.lockFull (q.lockOf job) (q.jobs job).lockQueueSize = true) :
    (q.admission job).1 = q := by
  unfold admission
  cases hsize : (q.jobs job).lockQueueSize with
  | none => simp [lockFull, hsize] at hfull
  | some size =>
    rw [hsize] at hfull
    cases size with
    | zero =>
      have hbusy : q.lockBusy (q.jobs job).lock = true := hfull
      simp [hbusy]
    | succ size =>
      have hlength : size + 1 ≤ (q.queuedWith (q.jobs job).lock).length := of_decide_eq_true hfull
      simp only [hlength, if_true]
      cases q.replacement (q.jobs job).credentials (q.queuedWith (q.jobs job).lock).reverse with
      | ok other => rfl
      | error error => rfl

theorem admission_of_not_lockFull
    (hfull : q.lockFull (q.lockOf job) (q.jobs job).lockQueueSize = false) :
    q.admission job = q.enqueue job := by
  unfold admission
  cases hsize : (q.jobs job).lockQueueSize with
  | none => rfl
  | some size =>
    rw [hsize] at hfull
    cases size with
    | zero =>
      have hbusy : q.lockBusy (q.jobs job).lock = false := hfull
      simp [hbusy]
    | succ size =>
      have hlength : ¬ size + 1 ≤ (q.queuedWith (q.jobs job).lock).length :=
        of_decide_eq_false hfull
      simp [hlength]

/-! ## The jobs of the deque -/

def DequeCreated (q : JobsQueue) : Prop :=
  ∀ id job, q.deque.jobs.get? id = some job → job < q.nextJob

theorem DequeCreated.erase (hdeque : q.DequeCreated) {id : ℕ} (hnextJob : next.nextJob = q.nextJob)
    (hjobs : next.deque.jobs = q.deque.jobs.erase id) : next.DequeCreated := by
  intro other job hget
  rw [hjobs, get?_erase] at hget
  rw [hnextJob]
  split_ifs at hget
  exact hdeque other job hget

theorem DequeCreated.enqueue (hdeque : q.DequeCreated) (hjob : job < q.nextJob) :
    (q.enqueue job).1.DequeCreated := by
  have hset : ∀ jobs : Dict ℕ JobId, (∀ id other, jobs.get? id = some other → other < q.nextJob) →
      ∀ id other, (jobs.set (q.deque.count + 1) job).get? id = some other → other < q.nextJob := by
    intro jobs hjobs id other hget
    rw [get?_set] at hget
    split_ifs at hget
    · rw [Option.some.injEq] at hget
      exact hget ▸ hjob
    · exact hjobs id other hget
  have herase : ∀ key id other, (q.deque.jobs.erase key).get? id = some other →
      other < q.nextJob := by
    intro key id other hget
    rw [get?_erase] at hget
    split_ifs at hget
    exact hdeque id other hget
  rw [enqueue_state]
  refine hset _ ?_
  split_ifs
  · split
    · exact herase _
    · exact hdeque
  · exact hdeque

variable {action : Action}

theorem step_deque (hsound : q.Sound) (hstep : q.step action = some next) :
    (∃ spec, action = .add spec) ∨ (next.nextJob = q.nextJob ∧ (next.deque = q.deque ∨
        ∃ id, next.deque.jobs = q.deque.jobs.erase id)) := by
  cases action with
  | add spec => exact Or.inl ⟨spec, rfl⟩
  | nextWake =>
    right
    unfold step at hstep
    split_ifs at hstep
    rw [← Option.some.inj hstep]
    rcases nextWake_cases q with ⟨_, hwake⟩ | ⟨job, _, hfound⟩
    · rw [hwake]
      exact ⟨rfl, Or.inl rfl⟩
    · rcases hfound with ⟨_, hwake⟩ | ⟨lock, _, _, hwake⟩
      · rw [hwake]
        exact ⟨rfl, Or.inl rfl⟩
      · rw [hwake]
        exact ⟨rfl, Or.inl rfl⟩
  | nextAcquired =>
    right
    unfold step at hstep
    cases hnext : q.next with
    | waiting => simp [hnext] at hstep
    | acquired job =>
      rw [hnext] at hstep
      rw [← Option.some.inj hstep]
      exact ⟨rfl, Or.inl rfl⟩
  | runJob job =>
    right
    rw [(stage_of_atPhase hstep).1]
    unfold beginBody
    split_ifs <;> exact ⟨rfl, Or.inl rfl⟩
  | loggingStarted job raises =>
    right
    rw [(stage_of_atPhase hstep).1]
    unfold beginBody
    split_ifs <;> exact ⟨rfl, Or.inl rfl⟩
  | bodyFinished job outcome =>
    right
    rw [(stage_of_atPhase hstep).1]
    exact ⟨rfl, Or.inl rfl⟩
  | logsClosed job raises =>
    right
    rw [(stage_of_atPhase hstep).1]
    exact ⟨rfl, Or.inl rfl⟩
  | pipesClosed job raises =>
    right
    obtain ⟨hnext, hstage⟩ := stage_of_atPhase hstep
    rw [hnext, finishRun_eq hsound hstage]
    split_ifs <;> exact ⟨rfl, Or.inl rfl⟩
  | finishCallback job =>
    right
    rw [(stage_of_atPhase hstep).1]
    unfold complete
    simp only
    split_ifs
    · exact ⟨rfl, Or.inr ⟨_, rfl⟩⟩
    · exact ⟨rfl, Or.inl rfl⟩
  | abort job =>
    right
    rw [← Option.some.inj hstep]
    unfold abort
    split_ifs <;> exact ⟨rfl, Or.inl rfl⟩

theorem handleLock_frame {registered : JobsQueue} (hhandle : q.handleLock job = .ok registered) :
    registered.deque = q.deque ∧ registered.queue = q.queue ∧ registered.nextJob = q.nextJob ∧
      (∀ other, other ≠ job → registered.jobs other = q.jobs other) ∧
      (registered.jobs job).lockQueueSize = (q.jobs job).lockQueueSize := by
  rcases handleLock_cases hhandle with
    ⟨_, hsame⟩ | ⟨name, lock, _, ⟨_, hregister⟩ | ⟨_, _, hregister⟩⟩
  · rw [hsame]
    exact ⟨rfl, rfl, rfl, fun _ _ => rfl, rfl⟩
  · rw [hregister]
    refine ⟨rfl, rfl, rfl, ?_, ?_⟩
    · intro other hother
      simp [register, setJob, setLock, hother]
    · simp [register, setJob, setLock]
  · rw [hregister]
    refine ⟨rfl, rfl, rfl, ?_, ?_⟩
    · intro other hother
      simp [register, makeLock, setJob, setLock, hother]
    · simp [register, makeLock, setJob, setLock]

theorem DequeCreated.add (hdeque : q.DequeCreated) (spec : JobSpec) :
    (q.add spec).1.DequeCreated := by
  have hcreated : (q.create spec).DequeCreated := by
    intro id job hget
    exact (hdeque id job hget).trans (Nat.lt_succ_self q.nextJob)
  apply add_of_steps hcreated
  intro registered hhandle
  obtain ⟨hsameDeque, _, hnextJob, _, _⟩ := handleLock_frame hhandle
  have hregistered : registered.DequeCreated := by
    intro id job hget
    rw [hsameDeque] at hget
    rw [hnextJob]
    exact hcreated id job hget
  refine ⟨hregistered, hregistered.enqueue ?_⟩
  rw [hnextJob]
  exact Nat.lt_succ_self q.nextJob

theorem step_dequeCreated (hsound : q.Sound) (hdeque : q.DequeCreated)
    (hstep : q.step action = some next) : next.DequeCreated := by
  rcases step_deque hsound hstep with ⟨spec, hadd⟩ | ⟨hnextJob, hsame⟩
  · subst hadd
    rw [← Option.some.inj hstep]
    exact hdeque.add spec
  · rcases hsame with hsame | ⟨id, herase⟩
    · intro other job hget
      rw [hsame] at hget
      rw [hnextJob]
      exact hdeque other job hget
    · exact hdeque.erase hnextJob herase

section

variable {q : JobsQueue}

theorem lockFull_congr (hsound : q.Sound) (hcreated : q.DequeCreated)
    (hdeque : next.deque = q.deque) (hqueue : next.queue = q.queue)
    (hjobs : ∀ job, job < q.nextJob → next.jobs job = q.jobs job)
    (lock : Option LockId) (size : Option ℕ) :
    next.lockFull lock size = q.lockFull lock size := by
  have hbusy : next.lockBusy lock = q.lockBusy lock := by
    unfold lockBusy
    rw [hdeque, Bool.eq_iff_iff, List.any_eq_true, List.any_eq_true]
    refine exists_congr fun entry => and_congr_right fun hentry => ?_
    have hget : q.deque.jobs.get? entry.1 = some entry.2 := Dict.mem_entries_iff.mp hentry
    rw [hjobs entry.2 (hcreated entry.1 entry.2 hget)]
  have hqueued : next.queuedWith lock = q.queuedWith lock := by
    unfold queuedWith
    rw [hqueue]
    refine filter_congr ?_
    intro job hjob
    rw [hjobs job (hsound.queue_lt job hjob)]
  unfold lockFull
  rw [hbusy, hqueued]

theorem lockFull_of_unused (hunused : ∀ job, q.lockOf job ≠ some lock)
    (size : Option ℕ) : q.lockFull (some lock) size = false := by
  have hbusy : q.lockBusy (some lock) = false := by
    unfold lockBusy
    rw [List.any_eq_false]
    intro entry _
    have hentry : (q.jobs entry.2).lock ≠ some lock := hunused entry.2
    simp [hentry]
  have hqueued : q.queuedWith (some lock) = [] := by
    unfold queuedWith
    rw [filter_eq_nil_iff]
    intro job _
    have hjob : (q.jobs job).lock ≠ some lock := hunused job
    simp [hjob]
  unfold lockFull
  rw [hbusy, hqueued]
  cases size with
  | none => rfl
  | some size =>
    cases size with
    | zero => rfl
    | succ size => rfl

theorem registered_lockFull {registered : JobsQueue} {spec : JobSpec}
    (hsound : q.Sound) (hcreated : q.DequeCreated)
    (hhandle : (q.create spec).handleLock q.nextJob = .ok registered)
    (lock : Option LockId) :
    registered.lockFull lock (registered.jobs q.nextJob).lockQueueSize =
      q.lockFull lock spec.lockQueueSize := by
  obtain ⟨hdeque, hqueue, _, hjobs, hsize⟩ := handleLock_frame hhandle
  have hspec : ((q.create spec).jobs q.nextJob).lockQueueSize = spec.lockQueueSize := by
    simp [create, setJob]
  rw [hsize, hspec]
  refine lockFull_congr hsound hcreated hdeque hqueue ?_ lock _
  intro job hlt
  rw [hjobs job hlt.ne]
  simp [create, setJob, hlt.ne]

end

/-! ## The exact condition -/

theorem addFits_of_lockName_ne {spec : JobSpec} (hname : ∀ name, spec.lockName ≠ .ok (some name)) :
    q.AddFits (.add spec) := by
  intro name _ hspec _
  exact absurd hspec (hname name)

theorem addFits_iff_of_registered {registered : JobsQueue} {spec : JobSpec} (hsound : q.Sound)
    (hhandle : (q.create spec).handleLock q.nextJob = .ok registered)
    (hlock : registered.lockOf q.nextJob = some lock) : q.AddFits (.add spec) ↔
    q.lockFull (some lock) spec.lockQueueSize = false := by
  have hspec : ((q.create spec).jobs q.nextJob).lockName = spec.lockName := by
    simp [create, setJob]
  rcases handleLock_cases hhandle with
    ⟨_, hsame⟩ |
      ⟨name, lock', hname, ⟨hget, hregister⟩ | ⟨hget, hfresh, hregister⟩⟩
  · rw [hsame, create_lockOf, if_pos rfl] at hlock
    simp at hlock
  · rw [hregister, register_lockOf, if_pos rfl, Option.some.injEq] at hlock
    subst hlock
    rw [hspec] at hname
    constructor
    · intro hfits
      exact hfits name lock' hname hget
    · intro hroom name' lock'' hname' hget'
      have hsameName : name = name' := by
        simpa using hname.symm.trans hname'
      have hsameLock : lock' = lock'' := Option.some.inj (hget.symm.trans (hsameName ▸ hget'))
      rw [← hsameLock]
      exact hroom
  · rw [hregister, register_lockOf, if_pos rfl, Option.some.injEq] at hlock
    subst hlock
    rw [hspec] at hname
    constructor
    · intro _
      refine lockFull_of_unused ?_ _
      intro job hjob
      have hlt := hsound.lock_lt job lock' hjob
      rw [hfresh] at hlt
      exact hlt.false
    · intro _ name' lock'' hname' hget'
      have hsameName : name = name' := by
        simpa using hname.symm.trans hname'
      change q.jobLocks.get? name = none at hget
      rw [hsameName, hget'] at hget
      simp at hget

theorem add_bookkeeping_iff (hsound : q.Sound) (hbook : q.Bookkeeping)
    (hdeque : q.DequeCreated) (spec : JobSpec) :
    (q.add spec).1.Bookkeeping ↔ q.AddFits (.add spec) := by
  have hsame := sameLocks_create hsound spec
  have hcreated := hsound.of_sameLocks hsame
  have hbook' := hbook.of_sameLocks hsound hsame
  have hunused := create_unused hsound spec
  have hfree : (q.create spec).lockOf q.nextJob = none := by
    rw [create_lockOf, if_pos rfl]
  rcases add_cases q spec with
    ⟨⟨error, herror⟩, hraised⟩ | ⟨registered, hhandle, hadd⟩
  · rw [hraised]
    refine iff_of_true hbook' (addFits_of_lockName_ne ?_)
    intro name hname
    simp [handleLock, create, setJob, hname] at herror
  · have hsound' := hcreated.handleLock hunused hhandle
    have hunused' := handleLock_unused hunused hhandle
    have hpending := hbook'.handleLock hcreated hunused hfree hhandle
    have henqueued : (registered.enqueue q.nextJob).1.Bookkeeping :=
      hpending.enqueue (hsound'.enqueue hunused' (handleLock_registered hfree hhandle))
    have hrejected := hpending.bookkeeping_iff hunused' hsound'
    rw [hadd]
    cases hlock : registered.lockOf q.nextJob with
    | none =>
      have hfits : q.AddFits (.add spec) := by
        refine addFits_of_lockName_ne ?_
        intro name hname
        rcases handleLock_cases hhandle with ⟨hnone, _⟩ |
          ⟨_, _, _, ⟨_, hregister⟩ | ⟨_, _, hregister⟩⟩
        · simp [create, setJob, hname] at hnone
        · simp [hregister, register_lockOf] at hlock
        · simp [hregister, register_lockOf] at hlock
      refine iff_of_true ?_ hfits
      rcases admission_cases registered q.nextJob with hadmission | hadmission
      · rw [hadmission]
        exact henqueued
      · rw [hadmission]
        exact hrejected.mpr hlock
    | some lock =>
      rw [addFits_iff_of_registered hsound hhandle hlock]
      have hfull := registered_lockFull hsound hdeque hhandle (some lock)
      rw [← hlock] at hfull
      cases hroom : q.lockFull (some lock) spec.lockQueueSize with
      | false =>
        rw [← hlock] at hroom
        rw [admission_of_not_lockFull (hfull.trans hroom)]
        exact iff_of_true henqueued rfl
      | true =>
        rw [← hlock] at hroom
        rw [admission_of_lockFull (hfull.trans hroom), hrejected, hlock]
        simp

theorem step_bookkeeping_iff (hinv : q.Sound ∧ q.DequeCreated)
    (hbook : q.Bookkeeping) (hstep : q.step action = some next) :
    next.Bookkeeping ↔ q.AddFits action := by
  rcases hinv with ⟨hsound, hdeque⟩
  rcases step_cases hsound hstep with ⟨spec, haction, hadd⟩ | hother
  · rw [haction, hadd]
    exact add_bookkeeping_iff hsound hbook hdeque spec
  · have hnext : next.Bookkeeping := by
      rcases hother with ⟨_, hwake⟩ | ⟨job, hacquired, hreturn⟩ |
        ⟨job, hstage, hfinish⟩ | hsame
      · rw [hwake]
        exact hbook.nextWake
      · rw [hreturn]
        exact hbook.returnJob (hsound.acquired job hacquired).1
      · rw [hfinish, finishRun_eq hsound hstage]
        exact hbook.release hsound hstage
      · exact hbook.of_sameLocks hsound hsame
    refine iff_of_true hnext ?_
    cases action with
    | add spec =>
      have hadd : next = (q.add spec).1 := (Option.some.inj hstep).symm
      rw [hadd] at hnext
      exact (add_bookkeeping_iff hsound hbook hdeque spec).mp hnext
    | nextWake => trivial
    | nextAcquired => trivial
    | runJob job => trivial
    | loggingStarted job raises => trivial
    | bodyFinished job outcome => trivial
    | logsClosed job raises => trivial
    | pipesClosed job raises => trivial
    | finishCallback job => trivial
    | abort job => trivial

theorem init_dequeCreated : init.DequeCreated := by
  intro id job hget
  simp [init] at hget

theorem run_sound_and_created {actions : List Action} (hrun : run step init actions = some q) :
    q.Sound ∧ q.DequeCreated := by
  refine run_invariant (p := fun q : JobsQueue => q.Sound ∧ q.DequeCreated) ?_
    ⟨init_sound, init_dequeCreated⟩ hrun
  intro before action after hinv hstep
  exact ⟨step_sound hinv.1 hstep, step_dequeCreated hinv.1 hinv.2 hstep⟩

/-- In every run, the bookkeeping is right in every state reached exactly when
no job is added to a lock whose queue is full. -/
theorem run_bookkeeping_iff {q : JobsQueue} {actions : List Action}
    (hrun : run step init actions = some q) :
    EveryStep step AddFits init actions ↔ ∀ k reached,
        run step init (actions.take k) = some reached →
        reached.Bookkeeping := by
  refine everyStep_iff_forall_take
    (fun q => q.Sound ∧ q.DequeCreated) ?_ ?_ ?_ init_bookkeeping hrun
  · intro q action next hinv hstep
    exact ⟨step_sound hinv.1 hstep, step_dequeCreated hinv.1 hinv.2 hstep⟩
  · intro q action next hinv hbook hstep
    exact step_bookkeeping_iff hinv hbook hstep
  · exact ⟨init_sound, init_dequeCreated⟩

def snapshotTask : JobSpec :=
  { lockName := .ok (some "run_snapshot"), lockQueueSize := some 1 }

def acceptedJobs : List Action :=
  [.add snapshotTask, .nextWake, .nextAcquired, .add snapshotTask]

theorem acceptedJobs_bookkeeping : ∃ q, run step init acceptedJobs = some q ∧
    q.queue = [1] ∧
    ∀ k reached, run step init (acceptedJobs.take k) = some reached →
      reached.Bookkeeping := by
  have hevery : EveryStep step AddFits init acceptedJobs := by
    refine ⟨?_, fun q₁ h₁ => ⟨trivial, fun q₂ h₂ => ⟨trivial, fun q₃ h₃ =>
      ⟨?_, fun _ _ => trivial⟩⟩⟩⟩
    · intro name lock _ hget
      simp [init] at hget
    · cases h₁
      cases h₂
      cases h₃
      intro name lock _ _
      rfl
  have hrun : ∃ q, run step init acceptedJobs = some q ∧
      q.queue = [1] := ⟨_, rfl, rfl⟩
  rcases hrun with ⟨q, hq, hqueue⟩
  exact ⟨q, hq, hqueue, (run_bookkeeping_iff hq).mp hevery⟩

def replacedJob : List Action :=
  [.add snapshotTask, .add snapshotTask, .nextWake, .nextAcquired, .runJob 0,
    .bodyFinished 0 .success, .logsClosed 0 false, .pipesClosed 0 false]

/-- The job that was answered with a queued one stays in the lock. -/
theorem replacedJob_breaks_bookkeeping : ∃ q, run step init replacedJob = some q ∧
    q.queue = [] ∧ q.stage 0 = .after ∧ q.stage 1 = .before ∧
    (q.locks 0).jobs = {1} ∧ q.jobLocks.get? "run_snapshot" = some 0 ∧
    ¬ q.Bookkeeping := by
  have hrun : ∃ q, run step init replacedJob = some q ∧
      q.queue = [] ∧ q.stage 0 = .after ∧ q.stage 1 = .before ∧
      0 < q.nextLock ∧ (q.locks 0).jobs = {1} ∧
      q.jobLocks.get? "run_snapshot" = some 0 :=
    ⟨_, rfl, rfl, rfl, rfl, by decide, by decide, by decide⟩
  rcases hrun with ⟨q, hq, hqueue, hfirst, hsecond, hlt, hjobs, hget⟩
  refine ⟨q, hq, hqueue, hfirst, hsecond, hjobs, hget, ?_⟩
  intro hbook
  have hmem : 1 ∈ (q.locks 0).jobs := by simp [hjobs]
  have hlive := ((hbook.jobs_iff 0 hlt 1).mp hmem).2
  rcases hlive with hqueued | hstage
  · simp [hqueue] at hqueued
  · rw [hsecond] at hstage
    simp at hstage

end Middlewared.JobsQueue
