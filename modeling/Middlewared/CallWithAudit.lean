import Middlewared.JobsQueue

/-!
# Calling an audited job

`call_with_audit` calls the method and leaves the audit message of a job to a callback, which it
puts into the one slot the job has for it.
-/

namespace Middlewared

/-- A call of an audited job method that has been authorized.  `auditExtended`
is what the method's function of that name makes of the parameters;
`encodable` tells whether they can be written to the audit log, and
`prepareRaises` whether `_call_prepare` raises before the job is added. -/
structure Invocation (App Params : Type*) where
  method : String
  app : App
  params : Params
  audit : String
  auditExtended : Option String := none
  encodable : Bool := true
  prepareRaises : Bool := false
  spec : JobSpec

structure AuditMessage (App Params : Type*) where
  app : App
  method : String
  params : Params
  description : String
  (authenticated authorized success : Bool)

abbrev InvocationId := ℕ

/-- How far `call_with_audit` has come: the call has raised, the call has
returned a job, the callback is in the slot of the job. -/
inductive CallPhase where
  | raised
  | returned (job : JobId)
  | attached (job : JobId)

/-- How far the task of a job has come with `call_on_finish_cb`.  Only in the
last phase `on_finish_cb_called` is set. -/
inductive CallbackPhase where
  | notCalled
  | calling
  | called
deriving DecidableEq

structure AuditedCall (App Params : Type*) where
  invocation : Invocation App Params
  phase : CallPhase
  /-- `audit_callback_messages`; no job method sends more than one. -/
  callbackMessage : Option String := none

/-- The queue, the calls, the callback slots of the jobs and the audit log,
which also tells which invocation a message comes from. -/
structure AuditedJobs (App Params : Type*) where
  queue : JobsQueue
  calls : InvocationId → Option (AuditedCall App Params)
  nextCall : ℕ
  (creator onFinishCb : JobId → Option InvocationId)
  callback : JobId → CallbackPhase
  log : List (InvocationId × AuditMessage App Params)

namespace AuditedJobs

variable {App Params : Type*}

def init : AuditedJobs App Params where
  queue := JobsQueue.init
  calls := fun _ => none
  nextCall := 0
  creator := fun _ => none
  onFinishCb := fun _ => none
  callback := fun _ => .notCalled
  log := []

def setCall (s : AuditedJobs App Params) (id : InvocationId)
    (call : AuditedCall App Params) : AuditedJobs App Params :=
  { s with calls := Function.update s.calls id (some call) }

/-- The messages `log_audit_message_for_method` writes for an invocation. -/
def auditMessages (id : InvocationId) (call : AuditedCall App Params)
    (success : Bool) : List (InvocationId × AuditMessage App Params) :=
  let invocation := call.invocation
  let description :=
    match call.callbackMessage, invocation.auditExtended with
    | some message, _ => invocation.audit ++ " " ++ message
    | none, some extended => invocation.audit ++ " " ++ extended
    | none, none => invocation.audit
  if invocation.encodable then
    [(id,
      { app := invocation.app
        method := invocation.method
        params := invocation.params
        description
        authenticated := true
        authorized := true
        success })]
  else []

def logAuditMessage (s : AuditedJobs App Params) (id : InvocationId)
    (call : AuditedCall App Params) (success : Bool) :
    AuditedJobs App Params :=
  { s with log := s.log ++ auditMessages id call success }

/-- `job_on_finish_cb`, for the invocation whose callback it is. -/
def jobOnFinishCb (s : AuditedJobs App Params) (job : JobId) :
    Option InvocationId → AuditedJobs App Params
  | none => s
  | some id =>
    match s.calls id with
    | none => s
    | some call =>
      s.logAuditMessage id call ((s.queue.jobs job).state = .success)

/-- `call_with_audit` up to the return of `_call`. -/
def callWithAudit (s : AuditedJobs App Params)
    (invocation : Invocation App Params) : AuditedJobs App Params :=
  let id := s.nextCall
  let s := { s with nextCall := id + 1 }
  if invocation.prepareRaises then
    (s.setCall id ⟨invocation, .raised, none⟩).logAuditMessage id
      ⟨invocation, .raised, none⟩ false
  else
    let s' := { s with queue := (s.queue.add invocation.spec).1 }
    match (s.queue.add invocation.spec).2 with
    | .added job =>
      { s'.setCall id ⟨invocation, .returned job, none⟩ with
        creator := Function.update s'.creator job (some id) }
    | .replaced job => s'.setCall id ⟨invocation, .returned job, none⟩
    | .raised _ =>
      (s'.setCall id ⟨invocation, .raised, none⟩).logAuditMessage id
        ⟨invocation, .raised, none⟩ false

def setOnFinishCb (s : AuditedJobs App Params) (id : InvocationId)
    (call : AuditedCall App Params) (job : JobId) : AuditedJobs App Params :=
  let s := s.setCall id { call with phase := .attached job }
  let s := { s with onFinishCb := Function.update s.onFinishCb job (some id) }
  if s.callback job = .called then s.jobOnFinishCb job (s.onFinishCb job)
  else s

/-- The method of the job has called its `audit_callback` before. -/
def messageSent (s : AuditedJobs App Params) (job : JobId) : Bool :=
  ((s.creator job).bind s.calls).any (·.callbackMessage.isSome)

/-- The method of the job calls its `audit_callback`. -/
def auditCallback (s : AuditedJobs App Params) (job : JobId)
    (message : String) : AuditedJobs App Params :=
  match s.creator job with
  | none => s
  | some id =>
    match s.calls id with
    | none => s
    | some call => s.setCall id { call with callbackMessage := some message }

def setCallback (s : AuditedJobs App Params) (job : JobId)
    (phase : CallbackPhase) : AuditedJobs App Params :=
  { s with callback := Function.update s.callback job phase }

inductive Action (App Params : Type*) where
  | callWithAudit (invocation : Invocation App Params)
  | setOnFinishCb (id : InvocationId)
  | auditCallback (job : JobId) (message : String)
  | callOnFinishCb (job : JobId)
  | onFinishCbCalled (job : JobId)
  /-- Any other call of a job method, the scheduler, or a piece of a task ahead
  of `call_on_finish_cb`. -/
  | queue (action : JobsQueue.Action)

def ownsAction : JobsQueue.Action → Bool
  | .finishCallback _ => true
  | _ => false

def step (s : AuditedJobs App Params) :
    Action App Params → Option (AuditedJobs App Params)
  | .callWithAudit invocation => some (s.callWithAudit invocation)
  | .setOnFinishCb id =>
    match s.calls id with
    | some call =>
      match call.phase with
      | .returned job => some (s.setOnFinishCb id call job)
      | _ => none
    | none => none
  | .auditCallback job message =>
    if (s.queue.jobs job).phase = .body ∧ s.messageSent job = false then
      some (s.auditCallback job message)
    else none
  | .callOnFinishCb job =>
    if (s.queue.jobs job).phase = .released ∧ s.callback job = .notCalled then
      some ((s.jobOnFinishCb job (s.onFinishCb job)).setCallback job .calling)
    else none
  | .onFinishCbCalled job =>
    if s.callback job = .calling then
      some ({ s with queue := s.queue.complete job }.setCallback job .called)
    else none
  | .queue action =>
    if ownsAction action then none
    else (s.queue.step action).map fun queue => { s with queue }

end AuditedJobs

end Middlewared
