import Middlewared.JobsQueue
import Middlewared.PyString

/-!
# The history of jobs

`JobsDeque` gives out the ids of the jobs and keeps the jobs themselves, finished ones included.
-/

namespace Middlewared

namespace JobsDeque

def oldestFinal (states : JobId → JobState) (deque : JobsDeque) :
    Option (ℕ × JobId) :=
  deque.jobs.entries.find? fun entry => (states entry.2).isFinal

def remove (deque : JobsDeque) (id : ℕ) : JobsDeque :=
  { deque with jobs := deque.jobs.erase id }

def nextId (deque : JobsDeque) : ℕ := deque.count + 1

def countUp (deque : JobsDeque) : JobsDeque :=
  { deque with count := deque.nextId }

def makeRoom (states : JobId → JobState) (deque : JobsDeque) : JobsDeque :=
  if deque.jobs.size > deque.maxlen then
    match deque.oldestFinal states with
    | some entry => deque.remove entry.1
    | none => deque
  else deque

def keep (deque : JobsDeque) (id : ℕ) (job : JobId) : JobsDeque :=
  { deque with jobs := deque.jobs.set id job }

def add (states : JobId → JobState) (deque : JobsDeque) (job : JobId) :
    JobsDeque :=
  (deque.countUp.makeRoom states).keep deque.nextId job

end JobsDeque

structure JobMethodOptions where
  checkPipes : Bool := true
  pipes : List String := []

abbrev JobServices := Dict String (Dict String (Option JobMethodOptions))

structure JobDict where
  (method state : String)

inductive ReceiveError where
  | valueError (message : String)
  | keyError (key : String)
  | attributeError (name : String)
deriving DecidableEq

def JobState.members : List (String × JobState) :=
  [("WAITING", .waiting), ("RUNNING", .running), ("SUCCESS", .success),
    ("FAILED", .failed), ("ABORTED", .aborted)]

namespace JobDict

/-- `text.rsplit(".", 1)` unpacked into two names. -/
def serviceAndMethod (text : String) : Option (String × String) :=
  let method := text.toList.reverse.takeWhile (· ≠ '.')
  match text.toList.reverse.dropWhile (· ≠ '.') with
  | [] => none
  | _ :: service =>
    some (String.ofList service.reverse, String.ofList method.reverse)

def checkPipes (options : JobMethodOptions) : Except ReceiveError Unit :=
  if options.checkPipes then
    match options.pipes with
    | [] => .ok ()
    | pipe :: _ =>
      if pipe = "input" ∨ pipe = "output" then
        .error (.valueError ("Pipe " ++ PyString.repr pipe ++ " is not open"))
      else .error (.attributeError pipe)
  else .ok ()

/-- `Job.receive` up to the writing of the logs, with the state of the job it
makes. -/
def receive (services : JobServices) (jobDict : JobDict) :
    Except ReceiveError JobState := do
  let (serviceName, methodName) ←
    match serviceAndMethod jobDict.method with
    | some names => .ok names
    | none => .error (.valueError "not enough values to unpack (expected 2, got 1)")
  let methods ←
    match services.get? serviceName with
    | some methods => .ok methods
    | none => .error (.keyError serviceName)
  let options ←
    match methods.get? methodName with
    | some (some options) => .ok options
    | some none => .error (.attributeError "_job")
    | none => .error (.attributeError methodName)
  checkPipes options
  match JobState.members.lookup jobDict.state with
  | some state => .ok state
  | none => .error (.keyError jobDict.state)

end JobDict

structure HistoryJob where
  id : Option ℕ := none
  state : JobState := .waiting

/-- `set_state`, with its assertions. -/
def JobState.mayBecome : JobState → JobState → Bool
  | .waiting, next => next ≠ .waiting && next ≠ .success
  | .running, next => next ≠ .waiting && next ≠ .running
  | .success, _ | .failed, _ | .aborted, _ => false

/-- The deque together with the job objects.  `assigned` lists the ids that
were given out, in order, and `receiving` has the received jobs whose logs are
being written. -/
structure JobHistory where
  deque : JobsDeque
  jobs : JobId → HistoryJob
  nextJob : ℕ
  receiving : Dict ℕ JobId
  assigned : List ℕ

namespace JobHistory

inductive Action where
  | create
  | add (job : JobId)
  | remove (id : ℕ)
  | setState (job : JobId) (state : JobState)
  | receive (jobDict : JobDict) (logs : Bool)
  | logsWritten (id : ℕ) (raises : Bool)

def init (maxlen : ℕ) : JobHistory where
  deque := { maxlen }
  jobs := fun _ => { }
  nextJob := 0
  receiving := Dict.empty
  assigned := []

def states (s : JobHistory) (job : JobId) : JobState := (s.jobs job).state

def setJob (s : JobHistory) (job : JobId) (value : HistoryJob) : JobHistory :=
  { s with jobs := Function.update s.jobs job value }

def create (s : JobHistory) (value : HistoryJob) : JobHistory :=
  { s.setJob s.nextJob value with nextJob := s.nextJob + 1 }

def isReceiving (s : JobHistory) (job : JobId) : Bool :=
  s.receiving.entries.any fun entry => entry.2 = job

def add (s : JobHistory) (job : JobId) : JobHistory :=
  { s.setJob job { s.jobs job with id := some s.deque.nextId } with
    deque := s.deque.add s.states job
    assigned := s.assigned ++ [s.deque.nextId] }

def keepReceived (s : JobHistory) (id : ℕ) (job : JobId) : JobHistory :=
  { s with deque := s.deque.keep id job }

def assign (s : JobHistory) : JobHistory :=
  { s with deque := s.deque.countUp, assigned := s.assigned ++ [s.deque.nextId] }

def receive (services : JobServices) (s : JobHistory) (jobDict : JobDict)
    (logs : Bool) : JobHistory :=
  match jobDict.receive services with
  | .error _ => s.assign
  | .ok state =>
    let id := s.deque.nextId
    let made := s.assign.create { id := some id, state }
    if logs then
      { made with receiving := made.receiving.set id s.nextJob }
    else made.keepReceived id s.nextJob

def logsWritten (s : JobHistory) (id : ℕ) (job : JobId) (raises : Bool) :
    JobHistory :=
  let s := { s with receiving := s.receiving.erase id }
  if raises then s else s.keepReceived id job

def setState (s : JobHistory) (job : JobId) (state : JobState) : JobHistory :=
  if (s.states job).mayBecome state then
    s.setJob job { s.jobs job with state }
  else s

def step (services : JobServices) (s : JobHistory) :
    Action → Option JobHistory
  | .create => some (s.create { })
  | .add job =>
    -- nothing refers to a received job before it is kept
    if job < s.nextJob ∧ s.isReceiving job = false then some (s.add job)
    else none
  | .remove id => some { s with deque := s.deque.remove id }
  | .setState job state => some (s.setState job state)
  | .receive jobDict logs => some (s.receive services jobDict logs)
  | .logsWritten id raises =>
    (s.receiving.get? id).map fun job => s.logsWritten id job raises

def finishedCount (s : JobHistory) : ℕ :=
  s.deque.jobs.entries.countP fun entry => (s.states entry.2).isFinal

def IdsIncrease (s : JobHistory) : Prop :=
  s.assigned.Pairwise (· < ·) ∧ s.assigned.Nodup ∧ ∀ id ∈ s.deque.jobs, id ∈ s.assigned

def KeepsLive (s next : JobHistory) : Prop :=
  ∀ id job, s.deque.jobs.get? id = some job → (s.states job).isFinal = false →
    next.deque.jobs.get? id = some job

def Action.isAddOrReceive : Action → Bool
  | .add _ | .receive _ _ | .logsWritten _ _ => true
  | .create | .remove _ | .setState _ _ => false

/-- With this action a call of `add` or `receive` ends, be it with an
exception. -/
def Action.endsCall (services : JobServices) : Action → Bool
  | .add _ | .logsWritten _ _ => true
  | .receive jobDict logs =>
    !logs || (jobDict.receive services).toOption.isNone
  | .create | .remove _ | .setState _ _ => false

/-- The ids increase, adding and receiving drop no job that waits or runs, and
the number of finished jobs is bounded after each of the two. -/
def KeepsHistory (services : JobServices) (s : JobHistory) (a : Action) :
    Prop :=
  ∀ next, step services s a = some next →
    next.IdsIncrease ∧ (a.isAddOrReceive = true → s.KeepsLive next) ∧ (a.endsCall services = true →
        next.finishedCount ≤ next.deque.maxlen + 1)

def incoming (services : JobServices) (s : JobHistory) : Action → ℕ
  | .add job => if (s.states job).isFinal then 1 else 0
  | .receive jobDict _ =>
    if (jobDict.receive services).toOption.any JobState.isFinal then 1 else 0
  | .logsWritten id raises =>
    if !raises && (s.receiving.get? id).any (fun job => (s.states job).isFinal) then 1 else 0
  | .create | .remove _ | .setState _ _ => 0

def Action.slack : Action → ℕ
  | .add _ => 1
  | _ => 0

/-- There is room for what an action puts in, where `add` makes room for
one. -/
def HasRoom (services : JobServices) (s : JobHistory) (a : Action) : Prop :=
  a.endsCall services = true → s.finishedCount + s.incoming services a ≤
      s.deque.maxlen + 1 + a.slack

instance (services : JobServices) (s : JobHistory) (a : Action) :
    Decidable (HasRoom services s a) :=
  inferInstanceAs (Decidable (_ → _))

end JobHistory

end Middlewared
