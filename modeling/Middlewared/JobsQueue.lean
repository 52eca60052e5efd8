import Middlewared.Dict
import Middlewared.TransitionSystem
import Mathlib.Data.Finset.Basic

/-!
# The job queue

Jobs that name a lock share one lock object for as long as some job is registered in it.
-/

namespace Middlewared

structure SessionUser where
  username : String
  roles : Finset String

/-- `SessionManagerCredentials`.  A credential is a user session when it has a
user; `allowlistFullAdmin` is absent when the credential has no allowlist. -/
structure Credential where
  user : Option SessionUser
  truenasNode : Bool := false
  allowlistFullAdmin : Option Bool := none

def Credential.isUserSession (credential : Credential) : Bool :=
  credential.user.isSome

def credentialHasFullAdmin (credential : Credential) : Bool :=
  if credential.user.elim false (fun user => "FULL_ADMIN" ∈ user.roles) then
    true
  else if credential.truenasNode then true
  else credential.allowlistFullAdmin.getD false

def credentialIsLimitedToOwnJobs : Option Credential → Bool
  | none => false
  | some credential =>
    credential.isUserSession && !credentialHasFullAdmin credential

abbrev JobId := ℕ

abbrev LockId := ℕ

inductive JobState where
  | waiting
  | running
  | success
  | failed
  | aborted
deriving DecidableEq

def JobState.isFinal : JobState → Bool
  | .success | .failed | .aborted => true
  | .waiting | .running => false

/-- Where the task of a job stands.  From `logging` to `released` each phase is
an `await` of `Job.run`; a job has `crashed` when its task ended before the
lock was released. -/
inductive RunPhase where
  | idle
  | started
  | logging
  | body
  | closingLogs
  | closingPipes
  | released
  | done
  | crashed
deriving DecidableEq

inductive Errno where
  | ebusy
  | einval
deriving DecidableEq

inductive JobError where
  | callError (message : String) (errno : Errno)
  | attributeError
  | exception (name : String)
deriving DecidableEq

/-- What a call brings along: the name its `lock` option evaluates to (or the
error of a `lock` callable), what `dump_args` raises for its arguments each time
the job is encoded, and the options and credentials it was made with. -/
structure JobSpec where
  lockName : Except JobError (Option String)
  encodeError : Option JobError := none
  lockQueueSize : Option ℕ := some 5
  logs : Bool := false
  transient : Bool := false
  credentials : Option Credential := none
  readRoles : List String := []

structure Job extends JobSpec where
  id : ℕ := 0
  lock : Option LockId := none
  state : JobState := .waiting
  aborted : Bool := false
  phase : RunPhase := .idle

structure JobSharedLock where
  name : String
  jobs : Finset JobId := ∅
  locked : Bool := false

structure JobsDeque where
  maxlen : ℕ := 1000
  count : ℕ := 0
  jobs : Dict ℕ JobId := Dict.empty

/-- Where `next` stands: at `queue_event.wait()`, or past the acquisition of
the lock of the job it found. -/
inductive NextPhase where
  | waiting
  | acquired (job : JobId)
deriving DecidableEq

/-- The queue together with the objects it refers to.  `returned` lists the
jobs `next` has handed out, in order. -/
structure JobsQueue where
  jobs : JobId → Job
  nextJob : ℕ
  locks : LockId → JobSharedLock
  nextLock : ℕ
  deque : JobsDeque
  queue : List JobId
  queueEvent : Bool
  jobLocks : Dict String LockId
  next : NextPhase
  returned : List JobId

namespace JobsQueue

def init : JobsQueue where
  jobs := fun _ => { lockName := .ok none }
  nextJob := 0
  locks := fun _ => { name := "" }
  nextLock := 0
  deque := { }
  queue := []
  queueEvent := false
  jobLocks := Dict.empty
  next := .waiting
  returned := []

def setJob (q : JobsQueue) (job : JobId) (value : Job) : JobsQueue :=
  { q with jobs := Function.update q.jobs job value }

def setLock (q : JobsQueue) (lock : LockId) (value : JobSharedLock) :
    JobsQueue :=
  { q with locks := Function.update q.locks lock value }

def create (q : JobsQueue) (spec : JobSpec) : JobsQueue :=
  { q.setJob q.nextJob { spec with } with nextJob := q.nextJob + 1 }

def findLock (q : JobsQueue) (name : String) : JobsQueue × LockId :=
  match q.jobLocks.get? name with
  | some lock => (q, lock)
  | none =>
    ({ q.setLock q.nextLock { name } with
        nextLock := q.nextLock + 1
        jobLocks := q.jobLocks.set name q.nextLock },
      q.nextLock)

def handleLock (q : JobsQueue) (job : JobId) : Except JobError JobsQueue :=
  match (q.jobs job).lockName with
  | .error error => .error error
  | .ok none => .ok q
  | .ok (some name) =>
    let (q, lock) := q.findLock name
    let q := q.setLock lock
      { q.locks lock with jobs := insert job (q.locks lock).jobs }
    .ok (q.setJob job { q.jobs job with lock := some lock })

/-- `JobsDeque.add`: one finished job makes room when there are too many. -/
def dequeAdd (q : JobsQueue) (job : JobId) : JobsQueue :=
  let id := q.deque.count + 1
  let jobs :=
    if q.deque.jobs.size > q.deque.maxlen then
      match q.deque.jobs.entries.find?
          (fun entry => (q.jobs entry.2).state.isFinal) with
      | some entry => q.deque.jobs.erase entry.1
      | none => q.deque.jobs
    else q.deque.jobs
  { q.setJob job { q.jobs job with id } with
    deque := { q.deque with count := id, jobs := jobs.set id job } }

def lockBusy (q : JobsQueue) (lock : Option LockId) : Bool :=
  q.deque.jobs.entries.any fun entry =>
    decide ((q.jobs entry.2).state = .running ∧ (q.jobs entry.2).lock = lock)

def queuedWith (q : JobsQueue) (lock : Option LockId) : List JobId :=
  q.queue.filter fun other => (q.jobs other).lock = lock

def replacement (q : JobsQueue) (credentials : Option Credential) :
    List JobId → Except JobError JobId
  | [] =>
    .error (.callError "This job is already being performed by another user" .ebusy)
  | queued :: rest =>
    if !credentialIsLimitedToOwnJobs credentials then .ok queued
    else
      match credentials.bind (·.user), (q.jobs queued).credentials with
      | none, _ => q.replacement credentials rest
      -- a queued job without credentials: `None.is_user_session`
      | some _, none => .error .attributeError
      | some user, some other =>
        if (other.user.elim false fun owner =>
            user.username = owner.username) then .ok queued
        else q.replacement credentials rest

inductive AddOutcome where
  | added (job : JobId)
  | replaced (job : JobId)
  | raised (error : JobError)
deriving DecidableEq

/-- The end of `add`.  A job that cannot be encoded for the `ADDED` event stays in
the queue, and the scheduler is not told. -/
def enqueue (q : JobsQueue) (job : JobId) : JobsQueue × AddOutcome :=
  let q := q.dequeAdd job
  let q := { q with queue := q.queue ++ [job] }
  match (q.jobs job).encodeError with
  | some error => (q, .raised error)
  | none => ({ q with queueEvent := true }, .added job)

def admission (q : JobsQueue) (job : JobId) : JobsQueue × AddOutcome :=
  match (q.jobs job).lockQueueSize with
  | none => q.enqueue job
  | some 0 =>
    if q.lockBusy (q.jobs job).lock then
      (q, .raised (.callError "This job is already being performed" .ebusy))
    else q.enqueue job
  | some (size + 1) =>
    let queued := q.queuedWith (q.jobs job).lock
    if size + 1 ≤ queued.length then
      match q.replacement (q.jobs job).credentials queued.reverse with
      | .ok other => (q, .replaced other)
      | .error error => (q, .raised error)
    else q.enqueue job

/-- `add`, with the state it leaves behind on every exit. -/
def add (q : JobsQueue) (spec : JobSpec) : JobsQueue × AddOutcome :=
  let job := q.nextJob
  let created := q.create spec
  match created.handleLock job with
  | .error error => (created, .raised error)
  | .ok registered => registered.admission job

def isReady (q : JobsQueue) (job : JobId) : Bool :=
  match (q.jobs job).lock with
  | none => true
  | some lock => !(q.locks lock).locked

def returnJob (q : JobsQueue) (job : JobId) : JobsQueue :=
  let queue := q.queue.erase job
  { q.setJob job { q.jobs job with phase := .started } with
    queue
    queueEvent := if queue = [] then false else q.queueEvent
    next := .waiting
    returned := q.returned ++ [job] }

/-- `next` from its wait for the event to its next `await`. -/
def nextWake (q : JobsQueue) : JobsQueue :=
  match q.queue.find? q.isReady with
  | none => { q with queueEvent := false }
  | some job =>
    match (q.jobs job).lock with
    | none => q.returnJob job
    | some lock =>
      { q.setLock lock { q.locks lock with locked := true } with next := .acquired job }

/-- How the body of a job ends.  In the last two cases something raised after
the body had set its result, and `set_state` refuses to leave `SUCCESS`. -/
inductive BodyOutcome where
  | success
  | failed
  | cancelled
  | failedAfterSuccess
  | cancelledAfterSuccess

def BodyOutcome.finalState : BodyOutcome → JobState
  | .success | .failedAfterSuccess | .cancelledAfterSuccess => .success
  | .failed => .failed
  | .cancelled => .aborted

/-- `release_lock`.  The flag tells whether it raised. -/
def releaseLock (q : JobsQueue) (job : JobId) : JobsQueue × Bool :=
  match (q.jobs job).lock with
  | none => (q, false)
  | some lock =>
    let value := q.locks lock
    let jobs := value.jobs.erase job
    if value.locked then
      let q := q.setLock lock { value with jobs, locked := false }
      if jobs = ∅ then
        if value.name ∈ q.jobLocks then
          ({ q with jobLocks := q.jobLocks.erase value.name, queueEvent := true }, false)
        -- the lock is free again, and `pop` raises
        else (q, true)
      else ({ q with queueEvent := true }, false)
    -- `asyncio.Lock.release` raises when the lock is not held; the job has left
    -- the set by then
    else (q.setLock lock { value with jobs }, true)

/-- The first piece of the `try` block: an aborted job never runs its body, nor
does one whose `CHANGED` event raises. -/
def beginBody (q : JobsQueue) (job : JobId) : JobsQueue :=
  if (q.jobs job).aborted then
    q.setJob job { q.jobs job with state := .aborted, phase := .closingLogs }
  else if (q.jobs job).encodeError.isSome then
    q.setJob job { q.jobs job with state := .failed, phase := .closingLogs }
  else q.setJob job { q.jobs job with state := .running, phase := .body }

def setPhase (q : JobsQueue) (job : JobId) (phase : RunPhase) : JobsQueue :=
  q.setJob job { q.jobs job with phase }

def finishRun (q : JobsQueue) (job : JobId) : JobsQueue :=
  let (q, raised) := q.releaseLock job
  q.setPhase job (if raised then .crashed else .released)

/-- The end of the `finally` block, with the last `CHANGED` event. -/
def complete (q : JobsQueue) (job : JobId) : JobsQueue :=
  let q := q.setPhase job .done
  if (q.jobs job).transient && (q.jobs job).encodeError.isNone then
    { q with deque :=
      { q.deque with jobs := q.deque.jobs.erase (q.jobs job).id } }
  else q

/-- `Job.abort`.  Cancelling a body that runs shows up as the way it ends. -/
def abort (q : JobsQueue) (job : JobId) : JobsQueue :=
  if (q.jobs job).state = .waiting then
    q.setJob job { q.jobs job with aborted := true }
  else q

inductive Action where
  | add (spec : JobSpec)
  | nextWake
  | nextAcquired
  | runJob (job : JobId)
  | loggingStarted (job : JobId) (raises : Bool)
  | bodyFinished (job : JobId) (outcome : BodyOutcome)
  | logsClosed (job : JobId) (raises : Bool)
  | pipesClosed (job : JobId) (raises : Bool)
  | finishCallback (job : JobId)
  | abort (job : JobId)

/-- A piece of the code of one job's task, which must stand at `phase`. -/
def atPhase (q : JobsQueue) (job : JobId) (phase : RunPhase)
    (next : JobsQueue) : Option JobsQueue :=
  if (q.jobs job).phase = phase then some next else none

def step (q : JobsQueue) : Action → Option JobsQueue
  | .add spec => some (q.add spec).1
  | .nextWake =>
    if q.next = .waiting ∧ q.queueEvent = true then some q.nextWake else none
  | .nextAcquired =>
    match q.next with
    | .waiting => none
    | .acquired job => some (q.returnJob job)
  | .runJob job =>
    q.atPhase job .started (if (q.jobs job).logs then q.setPhase job .logging else q.beginBody job)
  | .loggingStarted job raises =>
    q.atPhase job .logging (if raises then q.setPhase job .crashed else q.beginBody job)
  | .bodyFinished job outcome =>
    q.atPhase job .body (q.setJob job { q.jobs job with
        state := outcome.finalState, phase := .closingLogs })
  | .logsClosed job raises =>
    q.atPhase job .closingLogs (q.setPhase job (if raises then .crashed else .closingPipes))
  | .pipesClosed job raises =>
    q.atPhase job .closingPipes (if raises then q.setPhase job .crashed else q.finishRun job)
  | .finishCallback job => q.atPhase job .released (q.complete job)
  | .abort job => some (q.abort job)

end JobsQueue

end Middlewared
