import Middlewared.JobsQueue

/-!
# The task of a job

`Job.run`, piece by piece between its awaits, with everything that can raise in it: the log file
that is opened before the `try` block, the event that announces the job, the method, the progress
sent after it, and the closing of logs and pipes in the `finally` block, ahead of `release_lock`.
-/

namespace Middlewared

inductive Raised where
  | exception
  | cancelledError

/-- `Job.set_state`; nothing when one of its assertions fails. -/
def JobState.setState (state new : JobState) : Option JobState :=
  if state = .waiting ∧ (new = .waiting ∨ new = .success) then none
  else if state = .running ∧ (new = .waiting ∨ new = .running) then none
  else if state.isFinal then none
  else some new

structure RunOutcomes where
  startLogging : Option Raised := none
  runningEvent : Option Raised := none
  method : Option Raised := none
  /-- `set_progress(100, '')`, where the progress is not complete yet. -/
  progress : Option Raised := none
  closeLogs : Option Raised := none
  closePipes : Option Raised := none
  finishedEvent : Option Raised := none

namespace RunOutcomes

variable (outcomes : RunOutcomes)

/-- The `except` clauses of `run`.  A failed assertion of `set_state` goes on
to the caller, after the `finally` block. -/
def exceptClauses (state : JobState) : Option Raised → JobState
  | none => state
  | some .cancelledError => (state.setState .aborted).getD state
  | some .exception => (state.setState .failed).getD state

/-- `__run_body`: the state it leaves behind, and what it raises. -/
def runBody (state : JobState) : JobState × Option Raised :=
  match outcomes.method with
  | some raised => (state, some raised)
  | none =>
    match state.setState .success with
    | none => (state, some .exception)
    | some next => (next, outcomes.progress)

/-- The end of the `try` block. -/
def leaveTry (job : Job) (state : JobState) (raised : Option Raised) : Job :=
  { job with state := exceptClauses state raised, phase := .closingLogs }

/-- The `try` block up to `await self.future`. -/
def beginTry (job : Job) : Job :=
  if job.aborted then leaveTry job job.state (some .cancelledError)
  else
    match job.state.setState .running with
    | none => leaveTry job job.state (some .exception)
    | some next =>
      match outcomes.runningEvent with
      | some raised => leaveTry job next (some raised)
      | none => { job with state := next, phase := .body }

/-- The `try` block from the end of the body. -/
def endBody (job : Job) : Job :=
  leaveTry job (outcomes.runBody job.state).1 (outcomes.runBody job.state).2

/-- None of the steps outside the `try` block and ahead of `release_lock`
raises.  Without the `logs` option there is no log to open or to close. -/
def ReachesRelease (logs : Bool) : Prop :=
  (logs = true → outcomes.startLogging = none ∧ outcomes.closeLogs = none) ∧
    outcomes.closePipes = none

instance (logs : Bool) : Decidable (outcomes.ReachesRelease logs) :=
  inferInstanceAs (Decidable (_ ∧ _))

end RunOutcomes

/-- The queue together with the jobs whose `_finished` event is set. -/
structure JobRuns where
  queue : JobsQueue
  finished : Finset JobId

namespace JobRuns

def init : JobRuns where
  queue := JobsQueue.init
  finished := ∅

def setJob (runs : JobRuns) (job : JobId) (value : Job) : JobRuns :=
  { runs with queue := runs.queue.setJob job value }

def setPhase (runs : JobRuns) (job : JobId) (phase : RunPhase) : JobRuns :=
  { runs with queue := runs.queue.setPhase job phase }

/-- `queue.release_lock(self)` and `self._finished.set()`. -/
def release (runs : JobRuns) (job : JobId) : JobRuns :=
  match runs.queue.releaseLock job with
  | (queue, true) => { runs with queue := queue.setPhase job .crashed }
  | (queue, false) =>
    { queue := queue.setPhase job .released, finished := insert job runs.finished }

/-- The task of the job runs to its next `await`. -/
def resume (outcomes : RunOutcomes) (runs : JobRuns) (job : JobId) :
    Option JobRuns :=
  let value := runs.queue.jobs job
  match value.phase with
  | .started =>
    some (if value.logs then runs.setPhase job .logging
      else runs.setJob job (outcomes.beginTry value))
  | .logging =>
    some (if outcomes.startLogging.isSome then runs.setPhase job .crashed
      else runs.setJob job (outcomes.beginTry value))
  | .body => some (runs.setJob job (outcomes.endBody value))
  | .closingLogs =>
    some (if value.logs && outcomes.closeLogs.isSome then
      runs.setPhase job .crashed else runs.setPhase job .closingPipes)
  | .closingPipes =>
    some (if outcomes.closePipes.isSome then runs.setPhase job .crashed
      else runs.release job)
  | .released =>
    some (if outcomes.finishedEvent.isSome then runs.setPhase job .done
      else { runs with queue := runs.queue.complete job })
  | .idle | .done | .crashed => none

inductive Action where
  | add (spec : JobSpec)
  | nextWake
  | nextAcquired
  | resume (job : JobId)
  | abort (job : JobId)

def schedule (runs : JobRuns) (action : JobsQueue.Action) : Option JobRuns :=
  (runs.queue.step action).map fun queue => { runs with queue }

def step (outcomes : JobId → RunOutcomes) (runs : JobRuns) :
    Action → Option JobRuns
  | .add spec => runs.schedule (.add spec)
  | .nextWake => runs.schedule .nextWake
  | .nextAcquired => runs.schedule .nextAcquired
  | .resume job => runs.resume (outcomes job) job
  | .abort job => runs.schedule (.abort job)

end JobRuns

end Middlewared
