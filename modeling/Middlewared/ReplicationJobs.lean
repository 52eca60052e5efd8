import Middlewared.TransitionSystem
import Mathlib.Data.List.Induction
import Mathlib.Data.List.Nodup
import Mathlib.Tactic.IntervalCases

/-!
# Jobs of replication tasks

`run_replication_task` and `run_onetime_replication_task` of `ZettareplService` with the two
queues that join the service to the zettarepl process.  A job leaves its `try` only with a message
that ends it; that an exception (an abort of the job) leads to its `finally` is left out.
-/

namespace Middlewared

open Option Function

/-- `task_{id}` and `job_{job.id}`. -/
inductive ReplicationTaskId where
  | task (id : ℕ)
  | job (id : ℕ)
deriving DecidableEq

inductive ZettareplTaskClass where
  | periodicSnapshotTask
  | replicationTask
deriving DecidableEq

structure ZettareplTask where
  className : ZettareplTaskClass
  id : ReplicationTaskId
deriving DecidableEq

inductive ZettareplCommand where
  | tasks (definition : List ZettareplTask)
  | runTask (task : ZettareplTask)

inductive ReplicationTaskEvent where
  | scheduled
  | start
  | log
  | snapshotStart
  | snapshotProgress
  | snapshotSuccess
  | dataProgress
  | success
  | error (error : String)

/-- What ends `_run_replication_task_job`. -/
def ReplicationTaskEvent.isEnd : ReplicationTaskEvent → Bool
  | .success | .error _ => true
  | .scheduled | .start | .log | .snapshotStart | .snapshotProgress
  | .snapshotSuccess | .dataProgress => false

structure ReplicationTaskMessage where
  taskId : ReplicationTaskId
  event : ReplicationTaskEvent
  number : ℕ

inductive ReplicationJobPhase where
  | called
  | subscribing
  | waiting
  | leaving
  | ended
deriving DecidableEq

structure ReplicationJob where
  taskId : ReplicationTaskId
  phase : ReplicationJobPhase
  /-- How many messages had been produced when its `run_task` command was
  queued. -/
  sent : Option ℕ
  channel : List ReplicationTaskEvent

structure ReplicationJobs where
  jobs : ℕ → Option ReplicationJob
  nextJob : ℕ
  channels : ReplicationTaskId → List ℕ
  commandQueue : List ZettareplCommand
  tasks : List ZettareplTask
  observerQueue : List ReplicationTaskMessage
  produced : ℕ

namespace ReplicationJobs

def init : ReplicationJobs where
  jobs _ := none
  nextJob := 0
  channels _ := []
  commandQueue := []
  tasks := []
  observerQueue := []
  produced := 0

def setJob (s : ReplicationJobs) (j : ℕ) (job : ReplicationJob) :
    ReplicationJobs :=
  { s with jobs := Function.update s.jobs j (some job) }

def addJob (s : ReplicationJobs) (taskId : ReplicationTaskId)
    (phase : ReplicationJobPhase) : ReplicationJobs :=
  { s.setJob s.nextJob ⟨taskId, phase, none, []⟩ with nextJob := s.nextJob + 1 }

/-- A call of `replication.run`; one that does not `really_run` has nothing to
queue. -/
def runReplicationTask (s : ReplicationJobs) (id : ℕ) (reallyRun : Bool) :
    ReplicationJobs :=
  s.addJob (.task id) (if reallyRun then .called else .subscribing)

def putCommand (s : ReplicationJobs) (command : ZettareplCommand) :
    ReplicationJobs :=
  { s with commandQueue := s.commandQueue ++ [command] }

def putMessage (s : ReplicationJobs) (taskId : ReplicationTaskId)
    (event : ReplicationTaskEvent) : ReplicationJobs :=
  { s with
    observerQueue := s.observerQueue ++ [⟨taskId, event, s.produced⟩]
    produced := s.produced + 1 }

/-- A turn of `_process_command_queue`.  Whatever the class of a task that is
not found, the error is that of a replication task. -/
def processCommand (s : ReplicationJobs) : ZettareplCommand → ReplicationJobs
  | .tasks definition => { s with tasks := definition }
  | .runTask task =>
    if task ∈ s.tasks then s
    else s.putMessage task.id (.error "Task not found")

/-- `int(message.task_id[5:])`. -/
def fakeJobTask : ReplicationTaskId → Option ℕ
  | .task id => some id
  | .job id => (String.ofList ((toString id).toList.drop 1)).toNat?

def putChannels (s : ReplicationJobs) (taskId : ReplicationTaskId)
    (event : ReplicationTaskEvent) : ReplicationJobs :=
  { s with
    jobs := fun j => (s.jobs j).map fun job =>
      if j ∈ s.channels taskId then
        { job with channel := job.channel ++ [event] }
      else job }

/-- A turn of `_observer_queue_reader`. -/
def dispatch (s : ReplicationJobs) (message : ReplicationTaskMessage) :
    ReplicationJobs :=
  match message.event with
  | .scheduled => s
  | .start =>
    if s.channels message.taskId = [] then
      match fakeJobTask message.taskId with
      | some id => s.runReplicationTask id false
      | none => s
    else s
  | event => s.putChannels message.taskId event

inductive Action where
  | run (id : ℕ) (reallyRun : Bool)
  /-- `run_onetime_replication_task` and its `update_tasks`, which queues no
  command when the definition is empty or cannot be had. -/
  | runOnetime (definition : Option (List ZettareplTask))
  | reject (j : ℕ)
  | queueRunTask (j : ℕ)
  | register (j : ℕ)
  | receive (j : ℕ)
  | leave (j : ℕ)
  | updateTasks (definition : List ZettareplTask)
  | runPeriodicSnapshotTask (id : ℕ)
  | processCommand
  | observe (taskId : ReplicationTaskId) (event : ReplicationTaskEvent)
  | dispatch

def stepJob (s : ReplicationJobs) (j : ℕ) (job : ReplicationJob) :
    Action → Option ReplicationJobs
  | .reject _ =>
    if job.phase = .called then some (s.setJob j { job with phase := .ended })
    else none
  | .queueRunTask _ =>
    if job.phase = .called then
      some ((s.setJob j { job with phase := .subscribing, sent := some s.produced }).putCommand
        (.runTask ⟨.replicationTask, job.taskId⟩))
    else none
  | .register _ =>
    if job.phase = .subscribing then
      some { s.setJob j { job with phase := .waiting } with
        channels := Function.update s.channels job.taskId
          (s.channels job.taskId ++ [j]) }
    else none
  | .receive _ =>
    if job.phase = .waiting then
      match job.channel with
      | [] => none
      | event :: rest =>
        some (s.setJob j { job with
          phase := if event.isEnd then .leaving else .waiting
          channel := rest })
    else none
  | .leave _ =>
    if job.phase = .leaving then
      some { s.setJob j { job with phase := .ended } with
        channels := Function.update s.channels job.taskId
          ((s.channels job.taskId).erase j) }
    else none
  | _ => none

def step (s : ReplicationJobs) : Action → Option ReplicationJobs
  | .run id reallyRun => some (s.runReplicationTask id reallyRun)
  | .runOnetime definition =>
    let added := s.addJob (.job s.nextJob) .called
    match definition with
    | none => some added
    | some definition => some (added.putCommand (.tasks definition))
  | .updateTasks definition => some (s.putCommand (.tasks definition))
  | .runPeriodicSnapshotTask id =>
    some (s.putCommand (.runTask ⟨.periodicSnapshotTask, .task id⟩))
  | .processCommand =>
    match s.commandQueue with
    | [] => none
    | command :: rest =>
      some ({ s with commandQueue := rest }.processCommand command)
  | .observe taskId event => some (s.putMessage taskId event)
  | .dispatch =>
    match s.observerQueue with
    | [] => none
    | message :: rest =>
      some ({ s with observerQueue := rest }.dispatch message)
  | .reject j => (s.jobs j).bind fun job => s.stepJob j job (.reject j)
  | .queueRunTask j =>
    (s.jobs j).bind fun job => s.stepJob j job (.queueRunTask j)
  | .register j => (s.jobs j).bind fun job => s.stepJob j job (.register j)
  | .receive j => (s.jobs j).bind fun job => s.stepJob j job (.receive j)
  | .leave j => (s.jobs j).bind fun job => s.stepJob j job (.leave j)

def IsAnswerTo (message : ReplicationTaskMessage) (job : ReplicationJob) :
    Prop :=
  message.event.isEnd = true ∧ message.taskId = job.taskId ∧
    ∃ sent ∈ job.sent, sent ≤ message.number

/-- A message that ends a run is dispatched while the channels of the jobs that
asked for the run are registered. -/
def IsHeard (s : ReplicationJobs) : Action → Prop
  | .dispatch =>
    ∀ message ∈ s.observerQueue.head?, ∀ j, ∀ job ∈ s.jobs j,
      IsAnswerTo message job → j ∈ s.channels message.taskId
  | _ => True

/-- `registered` are the jobs that have appended their channel and `removed`
those that have removed it since. -/
structure Sound (registered removed : ℕ → Prop) (s : ReplicationJobs) : Prop where
  fresh : ∀ j, s.nextJob ≤ j → s.jobs j = none
  mem_channels : ∀ taskId j, j ∈ s.channels taskId ↔
    ∃ job ∈ s.jobs j, job.taskId = taskId ∧ registered j ∧ ¬ removed j
  nodup : ∀ taskId, (s.channels taskId).Nodup
  of_registered : ∀ j, registered j →
    ∃ job ∈ s.jobs j, job.phase ≠ .called ∧ job.phase ≠ .subscribing
  of_removed : ∀ j, removed j → ∃ job ∈ s.jobs j, job.phase = .ended

open TransitionSystem

/-! ## The channels are those of the jobs between `append` and `remove` -/

section

variable {registered removed : ℕ → Prop} {s : ReplicationJobs} {j : ℕ} {old job : ReplicationJob}

theorem sound_init : init.Sound (fun _ => False) fun _ => False where
  fresh _ _ := rfl
  mem_channels taskId j := by simp [init]
  nodup _ := List.nodup_nil
  of_registered _ := nofun
  of_removed _ := nofun

variable (hsound : s.Sound registered removed) (hold : s.jobs j = some old)

include hsound hold

theorem Sound.lt_nextJob : j < s.nextJob := by
  by_contra hle
  have hnone := hsound.fresh j (Nat.le_of_not_lt hle)
  rw [hold] at hnone
  cases hnone

theorem Sound.mem_channels_iff (taskId : ReplicationTaskId) :
    j ∈ s.channels taskId ↔ old.taskId = taskId ∧ registered j ∧ ¬ removed j := by
  simp [hsound.mem_channels, hold]

theorem Sound.phase_of_registered (hj : registered j) :
    old.phase ≠ .called ∧ old.phase ≠ .subscribing := by
  simpa [hold] using hsound.of_registered j hj

theorem Sound.phase_of_removed (hj : removed j) : old.phase = .ended := by
  simpa [hold] using hsound.of_removed j hj

theorem Sound.setJobChannels {registered' removed' : ℕ → Prop} (htask : job.taskId = old.taskId)
    (hother : ∀ k, k ≠ j → (registered' k ↔ registered k) ∧ (removed' k ↔ removed k))
    (hregistered : registered' j → job.phase ≠ .called ∧ job.phase ≠ .subscribing)
    (hremoved : removed' j → job.phase = .ended) {channels : List ℕ} (hnodup : channels.Nodup)
    (hchannels : ∀ k, k ∈ channels ↔
      if k = j then registered' j ∧ ¬ removed' j else k ∈ s.channels old.taskId) :
    Sound registered' removed' { s.setJob j job with
      channels := Function.update s.channels old.taskId channels } where
  fresh k hk := by
    have hne : k ≠ j := Nat.ne_of_gt (Nat.lt_of_lt_of_le (hsound.lt_nextJob hold) hk)
    exact (update_of_ne hne _ _).trans (hsound.fresh k hk)
  mem_channels taskId k := by
    have hbefore := hsound.mem_channels taskId k
    by_cases hk : k = j
    · subst hk
      by_cases htaskId : taskId = old.taskId
      · simp [ReplicationJobs.setJob, htaskId, hchannels, htask]
      · simp [ReplicationJobs.setJob, htaskId, hsound.mem_channels_iff hold, htask,
          Ne.symm htaskId]
    · by_cases htaskId : taskId = old.taskId
      · subst htaskId
        simp [ReplicationJobs.setJob, hk, hchannels, hbefore, hother k hk]
      · simp [ReplicationJobs.setJob, hk, htaskId, hbefore, hother k hk]
  nodup taskId := by
    by_cases htaskId : taskId = old.taskId
    · subst htaskId
      simp [hnodup]
    · simp [htaskId, hsound.nodup]
  of_registered k hk := by
    by_cases hkj : k = j
    · subst hkj
      simpa [ReplicationJobs.setJob] using hregistered hk
    · simpa [ReplicationJobs.setJob, hkj] using
        hsound.of_registered k ((hother k hkj).1.mp hk)
  of_removed k hk := by
    by_cases hkj : k = j
    · subst hkj
      simpa [ReplicationJobs.setJob] using hremoved hk
    · simpa [ReplicationJobs.setJob, hkj] using hsound.of_removed k ((hother k hkj).2.mp hk)

theorem Sound.setJob (htask : job.taskId = old.taskId) (hphase : old.phase ≠ .ended)
    (hearly : registered j → job.phase ≠ .called ∧ job.phase ≠ .subscribing) :
    (s.setJob j job).Sound registered removed := by
  have hchannels : ∀ k, k ∈ s.channels old.taskId ↔
      if k = j then registered j ∧ ¬ removed j else k ∈ s.channels old.taskId := by
    intro k
    split
    · rename_i hk
      subst hk
      simp [hsound.mem_channels_iff hold]
    · rfl
  have hsame := hsound.setJobChannels hold htask (fun _ _ => ⟨Iff.rfl, Iff.rfl⟩) hearly
    (fun hj => absurd (hsound.phase_of_removed hold hj) hphase) (hsound.nodup old.taskId)
    hchannels
  rw [update_eq_self] at hsame
  exact hsame

theorem Sound.register (hphase : old.phase = .subscribing) :
    Sound (fun k => registered k ∨ k = j) removed { s.setJob j { old with phase := .waiting } with
      channels := Function.update s.channels old.taskId
        (s.channels old.taskId ++ [j]) } := by
  have hnotRemoved : ¬ removed j := by
    intro hj
    have hended := hsound.phase_of_removed hold hj
    rw [hphase] at hended
    cases hended
  have hnotMem : j ∉ s.channels old.taskId := by
    rw [hsound.mem_channels_iff hold]
    exact fun hmem => (hsound.phase_of_registered hold hmem.2.1).2 hphase
  apply hsound.setJobChannels hold
  · rfl
  · simp +contextual
  · simp
  · exact fun hj => absurd hj hnotRemoved
  · rw [List.nodup_append_comm]
    exact List.nodup_cons.mpr ⟨hnotMem, hsound.nodup old.taskId⟩
  · intro k
    by_cases hk : k = j
    · simp [hk, hnotRemoved]
    · simp [hk]

theorem Sound.leave :
    Sound registered (fun k => removed k ∨ k = j) { s.setJob j { old with phase := .ended } with
      channels := Function.update s.channels old.taskId
        ((s.channels old.taskId).erase j) } := by
  apply hsound.setJobChannels hold
  · rfl
  · simp +contextual
  · simp
  · simp
  · exact (hsound.nodup old.taskId).erase j
  · intro k
    rw [(hsound.nodup old.taskId).mem_erase_iff]
    by_cases hk : k = j
    · simp [hk]
    · simp [hk]

omit hold

theorem Sound.addJob (taskId : ReplicationTaskId) (phase : ReplicationJobPhase) :
    (s.addJob taskId phase).Sound registered removed := by
  have hnone := hsound.fresh s.nextJob (Nat.le_refl _)
  have hregistered : ¬ registered s.nextJob := by
    intro hj
    simpa [hnone] using hsound.of_registered _ hj
  have hremoved : ¬ removed s.nextJob := by
    intro hj
    simpa [hnone] using hsound.of_removed _ hj
  constructor
  · intro k hk
    have hle : s.nextJob + 1 ≤ k := hk
    have hne : k ≠ s.nextJob := by omega
    exact (update_of_ne hne _ _).trans (hsound.fresh k (by omega))
  · intro other k
    have hbefore := hsound.mem_channels other k
    by_cases hk : k = s.nextJob
    · subst hk
      simpa [ReplicationJobs.addJob, ReplicationJobs.setJob, hnone, hregistered] using hbefore
    · simp [ReplicationJobs.addJob, ReplicationJobs.setJob, hk, hbefore]
  · exact hsound.nodup
  · intro k hk
    have hne : k ≠ s.nextJob := fun heq => hregistered (heq ▸ hk)
    simpa [ReplicationJobs.addJob, ReplicationJobs.setJob, hne] using hsound.of_registered k hk
  · intro k hk
    have hne : k ≠ s.nextJob := fun heq => hremoved (heq ▸ hk)
    simpa [ReplicationJobs.addJob, ReplicationJobs.setJob, hne] using hsound.of_removed k hk

theorem Sound.putChannels (taskId : ReplicationTaskId) (event : ReplicationTaskEvent) :
    (s.putChannels taskId event).Sound registered removed := by
  have hjobs : ∀ k, ∀ job ∈ s.jobs k, ∃ put ∈ (s.putChannels taskId event).jobs k,
      put.taskId = job.taskId ∧ put.phase = job.phase := by
    intro k job hjob
    rw [Option.mem_def] at hjob
    simp only [ReplicationJobs.putChannels, hjob, map_some, mem_some_iff, exists_eq_left']
    split <;> exact ⟨rfl, rfl⟩
  constructor
  · intro k hk
    simp [ReplicationJobs.putChannels, hsound.fresh k hk]
  · intro other k
    change k ∈ s.channels other ↔ _
    have hbefore := hsound.mem_channels other k
    cases hjob : s.jobs k with
    | none =>
      simp [ReplicationJobs.putChannels, hjob, hbefore]
    | some old =>
      obtain ⟨put, hput, htask, -⟩ := hjobs k old hjob
      rw [Option.mem_def] at hput
      simpa [hput, htask, hjob] using hbefore
  · exact hsound.nodup
  · intro k hk
    obtain ⟨job, hjob, hphase⟩ := hsound.of_registered k hk
    obtain ⟨put, hput, -, hsame⟩ := hjobs k job hjob
    exact ⟨put, hput, by rwa [hsame]⟩
  · intro k hk
    obtain ⟨job, hjob, hphase⟩ := hsound.of_removed k hk
    obtain ⟨put, hput, -, hsame⟩ := hjobs k job hjob
    exact ⟨put, hput, hsame.trans hphase⟩

theorem Sound.of_same {next : ReplicationJobs} (hjobs : next.jobs = s.jobs)
    (hnext : next.nextJob = s.nextJob) (hchannels : next.channels = s.channels) :
    next.Sound registered removed := by
  obtain ⟨hfresh, hmem, hnodup, hregistered, hremoved⟩ := hsound
  constructor
  · rwa [hjobs, hnext]
  · rwa [hjobs, hchannels]
  · rwa [hchannels]
  · rwa [hjobs]
  · rwa [hjobs]

theorem Sound.putCommand (command : ZettareplCommand) :
    (s.putCommand command).Sound registered removed :=
  hsound.of_same rfl rfl rfl

theorem Sound.putMessage (taskId : ReplicationTaskId) (event : ReplicationTaskEvent) :
    (s.putMessage taskId event).Sound registered removed :=
  hsound.of_same rfl rfl rfl

theorem Sound.dispatch (message : ReplicationTaskMessage) :
    (s.dispatch message).Sound registered removed := by
  unfold ReplicationJobs.dispatch
  split
  · exact hsound
  · split
    · split
      · exact hsound.addJob _ _
      · exact hsound
    · exact hsound
  · exact hsound.putChannels message.taskId _

theorem Sound.processCommand (command : ZettareplCommand) :
    (s.processCommand command).Sound registered removed := by
  cases command with
  | tasks definition => exact hsound.of_same rfl rfl rfl
  | runTask task =>
    simp only [ReplicationJobs.processCommand]
    split
    · exact hsound
    · exact hsound.putMessage task.id _

end

/-! ## What a step keeps -/

/-- The channels after the actions of `past`. -/
def Follows (past : List Action) : ReplicationJobs → Prop :=
  Sound (.register · ∈ past) (.leave · ∈ past)

section

variable {past : List Action} {s next : ReplicationJobs}

theorem Follows.quiet {a : Action} (hregister : ∀ j, .register j ≠ a)
    (hleave : ∀ j, .leave j ≠ a) (hsound : s.Follows past) : s.Follows (past ++ [a]) := by
  simpa [Follows, hregister, hleave] using hsound

theorem Follows.step (hsound : s.Follows past) {a : Action} (hstep : step s a = some next) :
    next.Follows (past ++ [a]) := by
  cases a with
  | run id reallyRun =>
    cases hstep
    exact .quiet (by simp) (by simp) (hsound.addJob _ _)
  | runOnetime definition =>
    refine .quiet (by simp) (by simp) ?_
    have hadded := hsound.addJob (.job s.nextJob) .called
    cases definition with
    | none =>
      cases hstep
      exact hadded
    | some definition =>
      cases hstep
      exact hadded.putCommand (.tasks definition)
  | updateTasks definition =>
    cases hstep
    exact .quiet (by simp) (by simp) (hsound.putCommand _)
  | runPeriodicSnapshotTask id =>
    cases hstep
    exact .quiet (by simp) (by simp) (hsound.putCommand _)
  | processCommand =>
    refine .quiet (by simp) (by simp) ?_
    simp only [ReplicationJobs.step] at hstep
    split at hstep
    · cases hstep
    · cases hstep
      apply Sound.processCommand
      exact hsound.of_same rfl rfl rfl
  | observe taskId event =>
    cases hstep
    exact .quiet (by simp) (by simp) (hsound.putMessage _ _)
  | dispatch =>
    refine .quiet (by simp) (by simp) ?_
    simp only [ReplicationJobs.step] at hstep
    split at hstep
    · cases hstep
    · cases hstep
      apply Sound.dispatch
      exact hsound.of_same rfl rfl rfl
  | reject j =>
    obtain ⟨job, hjob, hstep⟩ := bind_eq_some_iff.mp hstep
    obtain ⟨hguard, rfl⟩ := ite_some_none_eq_some.mp hstep
    refine .quiet (by simp) (by simp) ?_
    apply Sound.setJob hsound hjob
    · rfl
    · simp [hguard]
    · simp
  | queueRunTask j =>
    obtain ⟨job, hjob, hstep⟩ := bind_eq_some_iff.mp hstep
    obtain ⟨hguard, rfl⟩ := ite_some_none_eq_some.mp hstep
    refine .quiet (by simp) (by simp) ?_
    apply Sound.putCommand
    apply Sound.setJob hsound hjob
    · rfl
    · simp [hguard]
    · intro hj
      exact absurd hguard (hsound.phase_of_registered hjob hj).1
  | register j =>
    obtain ⟨job, hjob, hstep⟩ := bind_eq_some_iff.mp hstep
    obtain ⟨hguard, rfl⟩ := ite_some_none_eq_some.mp hstep
    simpa [Follows] using hsound.register hjob hguard
  | receive j =>
    obtain ⟨job, hjob, hstep⟩ := bind_eq_some_iff.mp hstep
    simp only [ReplicationJobs.stepJob, ite_none_right_eq_some] at hstep
    obtain ⟨hphase, hstep⟩ := hstep
    refine .quiet (by simp) (by simp) ?_
    split at hstep
    · cases hstep
    · rename_i event rest hchannel
      cases hstep
      apply Sound.setJob hsound hjob
      · rfl
      · simp [hphase]
      · cases event.isEnd <;> simp
  | leave j =>
    obtain ⟨job, hjob, hstep⟩ := bind_eq_some_iff.mp hstep
    obtain ⟨_, rfl⟩ := ite_some_none_eq_some.mp hstep
    simpa [Follows] using hsound.leave hjob

theorem run_follows (hrun : run step init past = some s) : s.Follows past := by
  induction past using List.reverseRecOn generalizing s with
  | nil =>
    cases hrun
    simpa [Follows] using sound_init
  | append_singleton past a ih =>
    rw [run_append, bind_eq_some_iff] at hrun
    obtain ⟨middle, hpast, hlast⟩ := hrun
    obtain ⟨_, hstep, hend⟩ := run_cons_eq_some_iff.mp hlast
    cases hend
    exact (ih hpast).step hstep

end

/-- In the schedule an end of a run comes after the `channels.append` of every
job that it answers, and before the `channels.remove`. -/
def IsTimely (actions : List Action) : Prop :=
  ∀ k s, run step init (actions.take k) = some s → actions[k]? = some .dispatch →
    ∀ message ∈ s.observerQueue.head?, ∀ j, ∀ job ∈ s.jobs j, IsAnswerTo message job →
      .register j ∈ actions.take k ∧ .leave j ∉ actions.take k

def answeredRun : List Action :=
  [.updateTasks [⟨.replicationTask, .task 1⟩], .processCommand, .run 1 true,
    .queueRunTask 0, .register 0, .processCommand, .observe (.task 1) .success,
    .dispatch, .receive 0, .leave 0]

def earlyAnswer : List Action :=
  [.run 1 true, .queueRunTask 0, .processCommand, .dispatch, .register 0]

end ReplicationJobs

end Middlewared
