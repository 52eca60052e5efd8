import Middlewared.JobsQueueLocks

/-!
# What adding a job gives

`add` registers a job in its lock, looks whether the queue of that lock is full, and then enqueues
the job, gives back a queued one in its place or raises.  Encoding the enqueued job may raise too.
-/

namespace Middlewared.JobsQueue

/-- What the `lock` option of a method is, with what a callable gives for the
arguments of the call, or nothing where it raises. -/
inductive LockOption where
  | constant (name : Option String)
  | callable (name : Option (Option String))

def getLockName : LockOption → Except JobError (Option String)
  | .constant name => .ok name
  | .callable (some name) => .ok name
  | .callable none =>
    .error (.callError ("Error handling job lock. This is most likely caused by invalid " ++
        "call arguments.") .einval)

def lockFor (q : JobsQueue) (spec : JobSpec) : Option LockId :=
  match spec.lockName with
  | .ok (some name) => some ((q.jobLocks.get? name).getD q.nextLock)
  | .ok none => none
  | .error _ => none

def competitors (q : JobsQueue) (spec : JobSpec) : List JobId :=
  (q.queuedWith (q.lockFor spec)).reverse

def isFull (q : JobsQueue) (spec : JobSpec) : Bool :=
  q.lockFull (q.lockFor spec) spec.lockQueueSize

def isOwnedBy (q : JobsQueue) (user : SessionUser) (job : JobId) : Bool :=
  (q.jobs job).credentials.any fun credential =>
    credential.user.any fun owner => user.username = owner.username

def isInternal (q : JobsQueue) (job : JobId) : Bool :=
  (q.jobs job).credentials.isNone

def searchEnd (q : JobsQueue) (user : SessionUser) (jobs : List JobId) :
    Option JobId :=
  jobs.find? fun job => q.isInternal job || q.isOwnedBy user job

variable {q : JobsQueue} {spec : JobSpec}

theorem exists_user_of_limited {credential : Credential}
    (hlimited : credentialIsLimitedToOwnJobs (some credential) = true) :
    ∃ user, credential.user = some user := by
  rw [credentialIsLimitedToOwnJobs, Bool.and_eq_true] at hlimited
  exact Option.isSome_iff_exists.mp hlimited.1

theorem replacement_of_not_limited {credentials : Option Credential}
    (hlimited : credentialIsLimitedToOwnJobs credentials = false)
    (job : JobId) (rest : List JobId) :
    q.replacement credentials (job :: rest) = .ok job := by
  simp [replacement, hlimited]

theorem replacement_of_limited {credential : Credential} {user : SessionUser}
    (hlimited : credentialIsLimitedToOwnJobs (some credential) = true)
    (huser : credential.user = some user) (jobs : List JobId) :
    q.replacement (some credential) jobs =
      match q.searchEnd user jobs with
      | none => .error (.callError "This job is already being performed by another user" .ebusy)
      | some job =>
        if q.isInternal job then .error .attributeError else .ok job := by
  induction jobs with
  | nil => rfl
  | cons job rest ih =>
    unfold replacement searchEnd
    simp only [hlimited, Option.bind_some, huser]
    cases hcredentials : (q.jobs job).credentials with
    | none =>
      have hinternal : q.isInternal job = true := by
        simp [isInternal, hcredentials]
      simp [hinternal]
    | some other =>
      have hinternal : q.isInternal job = false := by
        simp [isInternal, hcredentials]
      cases howner : other.user with
      | none =>
        have hnot : q.isOwnedBy user job = false := by
          simp [isOwnedBy, hcredentials, howner]
        simpa [hinternal, hnot, searchEnd, howner] using ih
      | some owner =>
        by_cases hsame : user.username = owner.username
        · have howned : q.isOwnedBy user job = true := by
            simp [isOwnedBy, hcredentials, howner, hsame]
          simp [hinternal, howned, howner, hsame]
        · have hnot : q.isOwnedBy user job = false := by
            simp [isOwnedBy, hcredentials, howner, hsame]
          simpa [hinternal, hnot, searchEnd, howner, hsame] using ih

/-! ## The state after registration -/

theorem handleLock_create_lock {registered : JobsQueue}
    (hhandle : (q.create spec).handleLock q.nextJob = .ok registered) :
    (registered.jobs q.nextJob).lock = q.lockFor spec ∧
      (registered.jobs q.nextJob).credentials = spec.credentials ∧
      (registered.jobs q.nextJob).encodeError = spec.encodeError := by
  have hspec : (q.create spec).jobs q.nextJob = { spec with } := by
    simp [create, setJob]
  unfold lockFor
  rcases handleLock_cases hhandle with
    ⟨hname, hsame⟩ |
      ⟨name, lock, hname, ⟨hget, hregister⟩ | ⟨hget, hfresh, hregister⟩⟩
  · rw [hspec] at hname
    rw [hsame, hspec, hname]
    exact ⟨rfl, rfl, rfl⟩
  · rw [hspec] at hname
    change q.jobLocks.get? name = some lock at hget
    rw [hregister, hname]
    simp [register, setJob, hspec, hget]
  · rw [hspec] at hname
    change q.jobLocks.get? name = none at hget
    rw [hregister, hname, hfresh]
    simp [register, setJob, setLock, makeLock, create, hget]

theorem replacement_congr {registered : JobsQueue}
    {credentials : Option Credential} {jobs : List JobId}
    (hjobs : ∀ job ∈ jobs, registered.jobs job = q.jobs job) :
    registered.replacement credentials jobs = q.replacement credentials jobs := by
  induction jobs with
  | nil => rfl
  | cons job rest ih =>
    rw [List.forall_mem_cons] at hjobs
    simp only [replacement, hjobs.1, ih hjobs.2]

theorem handleLock_create_eq_error_iff {error : JobError} :
    (q.create spec).handleLock q.nextJob = .error error ↔ spec.lockName = .error error := by
  have hspec : ((q.create spec).jobs q.nextJob).lockName = spec.lockName := by
    simp [create, setJob]
  unfold handleLock
  rw [hspec]
  cases spec.lockName with
  | error other => simp
  | ok name => cases name <;> simp

theorem add_outcome (hsound : q.Sound) (hcreated : q.DequeCreated) (spec : JobSpec) :
    (q.add spec).2 =
      match spec.lockName with
      | .error error => .raised error
      | .ok _ =>
        if q.isFull spec then
          match spec.lockQueueSize with
          | some (_ + 1) =>
            match q.replacement spec.credentials (q.competitors spec) with
            | .ok job => .replaced job
            | .error error => .raised error
          | _ => .raised (.callError "This job is already being performed" .ebusy)
        else spec.encodeError.elim (.added q.nextJob) .raised := by
  unfold JobsQueue.add
  cases hhandle : (q.create spec).handleLock q.nextJob with
  | error error =>
    have hname := handleLock_create_eq_error_iff.mp hhandle
    simp [hhandle, hname]
  | ok registered =>
    obtain ⟨hdeque, hqueue, -, hjobs, hsize⟩ := handleLock_frame hhandle
    obtain ⟨hlock, hcredentials, hencode⟩ := handleLock_create_lock hhandle
    have henqueued : (registered.enqueue q.nextJob).2 =
        spec.encodeError.elim (.added q.nextJob) .raised := by
      rw [enqueue_eq, hencode]
    have hfull := registered_lockFull hsound hcreated hhandle (q.lockFor spec)
    have hspecSize : (registered.jobs q.nextJob).lockQueueSize = spec.lockQueueSize := by
      rw [hsize]
      simp [create, setJob]
    have hsame : ∀ job, job < q.nextJob → registered.jobs job = q.jobs job := by
      intro job hlt
      rw [hjobs job hlt.ne]
      simp [create, setJob, hlt.ne]
    have hqueued : ∀ lock, registered.queuedWith lock = q.queuedWith lock := by
      intro lock
      unfold queuedWith
      rw [hqueue]
      apply List.filter_congr
      intro job hmem
      rw [hsame job (hsound.queue_lt job hmem)]
    have hsearch : registered.replacement spec.credentials (q.competitors spec) =
          q.replacement spec.credentials (q.competitors spec) := by
      apply replacement_congr
      intro job hmem
      have hmemQueue : job ∈ q.queue := List.mem_of_mem_filter (List.mem_reverse.mp hmem)
      exact hsame job (hsound.queue_lt job hmemQueue)
    have hname : ∃ name, spec.lockName = .ok name := by
      cases hname : spec.lockName with
      | error error =>
        rw [handleLock_create_eq_error_iff.mpr hname] at hhandle
        cases hhandle
      | ok name => exact ⟨name, rfl⟩
    rcases hname with ⟨name, hname⟩
    rw [hspecSize] at hfull
    simp only [hhandle, hname]
    unfold admission isFull
    rw [hlock, hcredentials, hspecSize, ← hfull]
    cases spec.lockQueueSize with
    | none => exact henqueued
    | some size =>
      cases size with
      | zero =>
        change _ = if registered.lockBusy (q.lockFor spec) then _ else _
        simp only
        split
        · rfl
        · exact henqueued
      | succ size =>
        simp only [lockFull, decide_eq_true_eq]
        split
        · rw [hqueued]
          change (match registered.replacement spec.credentials
              (q.competitors spec) with
            | .ok other => (registered, AddOutcome.replaced other)
            | .error error => (registered, .raised error)).2 = _
          rw [hsearch]
          cases q.replacement spec.credentials (q.competitors spec) <;> rfl
        · exact henqueued

end Middlewared.JobsQueue
