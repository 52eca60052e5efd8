import Middlewared.CallSequence
import Middlewared.FailoverEvents

/-!
# Pausing VRRP events in the failover jobs

Both jobs pause the VRRP threads while they change what keepalived does.
-/

namespace Middlewared

open CallSequence

structure RunCall where
  method : String
  args : List String := []

structure VrrpThread where
  (isAlive pauseEvent : Bool)

structure VrrpObjs where
  (fifoThread eventThread : Option VrrpThread)

inductive JobExit where
  | ignoreFailoverEvent
  | fencedError
  | raised (call : RunCall)
  | rebooted

structure JobCalls where
  raises : RunCall → Bool := fun _ => false
  masters : List String := []
  backups : List String := []
  fencedStart : ℕ → ℕ := fun _ => 0
  exportTimesOut : Bool := false
  srvEnable : Bool := false
  aluaEnabled : Bool := false
  startedOrEnabled : Bool := false
  isKernelModuleLoaded : Bool := false
  /-- How `vrrp_master` ends after it has unpaused the events: what it calls
  there does not touch the threads. -/
  masterRest : Option JobExit := none

abbrev JobM := CallM VrrpObjs JobExit

namespace VrrpThread

def setPause (paused : Bool) (thread : VrrpThread) : VrrpThread :=
  if thread.isAlive then { thread with pauseEvent := paused } else thread

def isPaused (thread : VrrpThread) : Bool := thread.isAlive && thread.pauseEvent

end VrrpThread

namespace VrrpObjs

def setPause (paused : Bool) (objs : VrrpObjs) : VrrpObjs where
  fifoThread := objs.fifoThread.map (VrrpThread.setPause paused)
  eventThread := objs.eventThread.map (VrrpThread.setPause paused)

def isPaused (objs : VrrpObjs) : Bool :=
  objs.fifoThread.any VrrpThread.isPaused || objs.eventThread.any VrrpThread.isPaused

def isAlive (objs : VrrpObjs) : Bool :=
  objs.fifoThread.any VrrpThread.isAlive || objs.eventThread.any VrrpThread.isAlive

end VrrpObjs

namespace FailoverJobs

variable (calls : JobCalls)

def runCall (call : RunCall) : JobM Unit :=
  makeCall calls.raises JobExit.raised call

/-- The call stands in a `try` that logs every exception. -/
def tryRunCall (call : RunCall) : JobM Unit :=
  tryCall calls.raises JobExit.raised call

def pauseEvents : JobM Unit := do
  runCall calls ⟨"vrrpthread.pause_events", []⟩
  modify (VrrpObjs.setPause true)

def unpauseEvents : JobM Unit := do
  runCall calls ⟨"vrrpthread.unpause_events", []⟩
  modify (VrrpObjs.setPause false)

/-- `fenced_start_loop` with the attempts that are left. -/
def fencedStartLoop (attempt : ℕ) : ℕ → JobM ℕ
  | 0 => pure 2
  | left + 1 => do
    runCall calls ⟨"failover.fenced.start", [toString attempt]⟩
    if calls.fencedStart attempt ≠ 2 then pure (calls.fencedStart attempt)
    else fencedStartLoop (attempt + 1) left

def startFenced (event : VrrpEvent) : JobM ℕ :=
  if event = .forcetakeover then do
    runCall calls ⟨"failover.fenced.stop", []⟩
    runCall calls ⟨"failover.fenced.start", ["True"]⟩
    pure (calls.fencedStart 0)
  else do
    runCall calls ⟨"failover.vip.check_failover_group", []⟩
    if calls.backups ≠ [] then throw .ignoreFailoverEvent
    else do
      runCall calls ⟨"failover.fenced.stop", []⟩
      fencedStartLoop calls 1 4

/-- `vrrp_master` up to the pause. -/
def enterMaster (event : VrrpEvent) : JobM Unit := do
  tryRunCall calls ⟨"jbof.configure_job", ["True"]⟩
  let fencedError ← startFenced calls event
  if fencedError ≠ 0 then throw .fencedError
  else pure ()

def restOfMaster : JobM Unit :=
  match calls.masterRest with
  | none => pure ()
  | some exit => throw exit

def vrrpMaster (event : VrrpEvent) : JobM Unit := do
  enterMaster calls event
  pauseEvents calls
  runCall calls ⟨"service.reload", ["keepalived"]⟩
  unpauseEvents calls
  restOfMaster calls

/-- `vrrp_backup` up to the pause. -/
def enterBackup : JobM Unit := do
  runCall calls ⟨"failover.vip.check_failover_group", []⟩
  if calls.masters ≠ [] then throw .ignoreFailoverEvent
  else do
    runCall calls ⟨"service.stop", ["netdata"]⟩
    runCall calls ⟨"failover.firewall.drop_all", []⟩

def exportZpools : JobM Unit :=
  if calls.exportTimesOut then do
    set (⟨none, none⟩ : VrrpObjs)
    throw .rebooted
  else pure ()

def restartSsh : JobM Unit := do
  runCall calls ⟨"datastore.query", ["services.services"]⟩
  if calls.srvEnable then runCall calls ⟨"service.restart", ["ssh"]⟩
  else pure ()

def startIscsiForAlua : JobM Unit := do
  runCall calls ⟨"iscsi.global.alua_enabled", []⟩
  if calls.aluaEnabled then do
    runCall calls ⟨"service.started_or_enabled", ["iscsitarget"]⟩
    if calls.startedOrEnabled then do
      runCall calls ⟨"iscsi.alua.standby_write_empty_config", ["True"]⟩
      runCall calls ⟨"etc.generate", ["scst"]⟩
      runCall calls ⟨"iscsi.scst.is_kernel_module_loaded", []⟩
      if calls.isKernelModuleLoaded then
        runCall calls ⟨"service.restart", ["iscsitarget"]⟩
      else runCall calls ⟨"service.start", ["iscsitarget"]⟩
    else pure ()
  else pure ()

/-- What `vrrp_backup` does between the export of the pools and the start of
keepalived. -/
def afterExport : JobM Unit := do
  runCall calls ⟨"failover.fenced.stop", []⟩
  tryRunCall calls ⟨"failover.call_remote", ["failover.send_small_file"]⟩
  tryRunCall calls ⟨"jbof.configure_job", []⟩
  runCall calls ⟨"failover.status_refresh", []⟩
  runCall calls ⟨"systemdataset.setup", []⟩
  runCall calls ⟨"etc.generate", ["cron"]⟩
  runCall calls ⟨"truecommand.stop_truecommand_service", []⟩
  runCall calls ⟨"service.stop", ["mountd"]⟩
  restartSsh calls
  startIscsiForAlua calls
  tryRunCall calls ⟨"failover.call_remote", ["failover.sync_keys_to_remote_node"]⟩
  tryRunCall calls ⟨"failover.call_remote", ["interface.persist_link_addresses"]⟩
  runCall calls ⟨"service.start", ["keepalived"]⟩

def vrrpBackup : JobM Unit := do
  enterBackup calls
  pauseEvents calls
  runCall calls ⟨"service.stop", ["keepalived"]⟩
  exportZpools calls
  afterExport calls
  unpauseEvents calls
  runCall calls ⟨"disk.retaste", []⟩

structure FailoverJob where
  event : VrrpEvent
  calls : JobCalls

def runJob (objs : VrrpObjs) (job : FailoverJob) : VrrpObjs :=
  finalState (if job.event.isMaster then vrrpMaster job.calls job.event
      else vrrpBackup job.calls)
    objs

def step (objs : VrrpObjs) (job : FailoverJob) : Option VrrpObjs :=
  some (runJob objs job)

abbrev run : VrrpObjs → List FailoverJob → Option VrrpObjs :=
  TransitionSystem.run step

def fencedResult (attempt : ℕ) : ℕ → Option ℕ
  | 0 => some 2
  | left + 1 =>
    if calls.raises ⟨"failover.fenced.start", [toString attempt]⟩ then none
    else if calls.fencedStart attempt ≠ 2 then
      some (calls.fencedStart attempt)
    else fencedResult (attempt + 1) left

def startsFenced (event : VrrpEvent) : Bool :=
  if event = .forcetakeover then
    !calls.raises ⟨"failover.fenced.stop", []⟩ &&
      !calls.raises ⟨"failover.fenced.start", ["True"]⟩ &&
      calls.fencedStart 0 = 0
  else
    !calls.raises ⟨"failover.vip.check_failover_group", []⟩ &&
      calls.backups = [] && !calls.raises ⟨"failover.fenced.stop", []⟩ &&
      fencedResult calls 1 4 = some 0

def stopsServices : Bool :=
  !calls.raises ⟨"failover.vip.check_failover_group", []⟩ &&
    calls.masters = [] && !calls.raises ⟨"service.stop", ["netdata"]⟩ &&
    !calls.raises ⟨"failover.firewall.drop_all", []⟩

def pauses (event : VrrpEvent) : Bool :=
  (if event.isMaster then startsFenced calls event else stopsServices calls) &&
    !calls.raises ⟨"vrrpthread.pause_events", []⟩

def sshCalls : List RunCall :=
  ⟨"datastore.query", ["services.services"]⟩ ::
    if calls.srvEnable then [⟨"service.restart", ["ssh"]⟩] else []

def iscsiCalls : List RunCall :=
  ⟨"iscsi.global.alua_enabled", []⟩ :: if calls.aluaEnabled then
      ⟨"service.started_or_enabled", ["iscsitarget"]⟩ :: if calls.startedOrEnabled then
          [⟨"iscsi.alua.standby_write_empty_config", ["True"]⟩, ⟨"etc.generate", ["scst"]⟩,
            ⟨"iscsi.scst.is_kernel_module_loaded", []⟩,
            if calls.isKernelModuleLoaded then
              ⟨"service.restart", ["iscsitarget"]⟩
            else ⟨"service.start", ["iscsitarget"]⟩]
        else []
    else []

/-- The calls of `afterExport` that stand in no `try`. -/
def afterExportCalls : List RunCall :=
  [⟨"failover.fenced.stop", []⟩, ⟨"failover.status_refresh", []⟩,
    ⟨"systemdataset.setup", []⟩, ⟨"etc.generate", ["cron"]⟩,
    ⟨"truecommand.stop_truecommand_service", []⟩,
    ⟨"service.stop", ["mountd"]⟩] ++
    (sshCalls calls ++ (iscsiCalls calls ++ [⟨"service.start", ["keepalived"]⟩]))

/-- What a job calls, in no `try`, from the pause to the end of it; a node that
reboots calls nothing more. -/
def pausedCalls (event : VrrpEvent) : List RunCall :=
  if event.isMaster then
    [⟨"service.reload", ["keepalived"]⟩, ⟨"vrrpthread.unpause_events", []⟩]
  else
    ⟨"service.stop", ["keepalived"]⟩ :: if calls.exportTimesOut then []
      else afterExportCalls calls ++ [⟨"vrrpthread.unpause_events", []⟩]

/-- A job that pauses a thread raises nothing until it has unpaused it. -/
def RaisesNothingPaused (objs : VrrpObjs) (job : FailoverJob) : Prop :=
  objs.isAlive = true → pauses job.calls job.event = true →
    ∀ call ∈ pausedCalls job.calls job.event, job.calls.raises call = false

instance (objs : VrrpObjs) (job : FailoverJob) :
    Decidable (RaisesNothingPaused objs job) :=
  inferInstanceAs (Decidable (_ → _ → _))

/-! ## What the parts of a job do -/

variable {calls}

theorem makes_runCall (call : RunCall) :
    Makes calls.raises JobExit.raised (runCall calls call) [call] :=
  makes_makeCall call

theorem makes_tryRunCall (call : RunCall) :
    Makes calls.raises JobExit.raised (tryRunCall calls call) [] :=
  makes_tryCall call

theorem yields_runCall_bind {α : Type} {call : RunCall}
    {next : Unit → JobM α} {value : Option α} (hnext : Yields (next ()) value) :
    Yields (runCall calls call >>= next) (if calls.raises call then none else value) := by
  have hcall : Yields (runCall calls call) (if calls.raises call then none else some ()) :=
    yields_makeCall call
  have hbind := hcall.bind fun _ => hnext
  split at hbind
  · rename_i hraises
    rwa [if_pos hraises]
  · rename_i hraises
    rwa [if_neg hraises]

theorem yields_fencedStartLoop (attempt left : ℕ) : Yields (fencedStartLoop calls attempt left)
    (fencedResult calls attempt left) := by
  induction left generalizing attempt with
  | zero => exact yields_pure 2
  | succ left ih =>
    exact yields_runCall_bind ((yields_pure _).ite (ih (attempt + 1)))

theorem yields_startFenced (event : VrrpEvent) : ∃ value, Yields (startFenced calls event) value ∧
    (value = some 0 ↔ startsFenced calls event = true) := by
  unfold startFenced startsFenced
  by_cases hforce : event = .forcetakeover
  · simp only [hforce, if_true]
    refine ⟨_, yields_runCall_bind (yields_runCall_bind (yields_pure _)), ?_⟩
    simp [and_assoc]
  · simp only [hforce, if_false]
    refine ⟨_, yields_runCall_bind ((yields_throw _).ite
      (yields_runCall_bind (yields_fencedStartLoop 1 4))), ?_⟩
    simp [and_assoc]

theorem yields_enterMaster (event : VrrpEvent) : Yields (enterMaster calls event)
    (if startsFenced calls event then some () else none) := by
  obtain ⟨value, hfenced, hstarts⟩ := @yields_startFenced calls event
  have htry : Yields (tryRunCall calls ⟨"jbof.configure_job", ["True"]⟩) (some ()) :=
    yields_tryCall _
  have hbind := htry.bind fun _ => hfenced.bind fun fencedError =>
    @Yields.ite _ _ _ (fencedError ≠ 0) _ _ _ _ _
      (yields_throw JobExit.fencedError) (yields_pure ())
  have hvalue : (if startsFenced calls event then some () else none) =
      ((some ()).bind fun _ => value.bind fun fencedError =>
        if fencedError ≠ 0 then none else some ()) := by
    cases value with
    | none =>
      have hfalse : ¬startsFenced calls event = true := by
        rw [← hstarts]
        simp
      simp [hfalse]
    | some fencedError =>
      by_cases hzero : fencedError = 0
      · rw [if_pos (hstarts.mp (by rw [hzero]))]
        simp [hzero]
      · rw [if_neg fun h => hzero (Option.some.inj (hstarts.mpr h))]
        simp [hzero]
  rw [hvalue]
  exact hbind

theorem yields_enterBackup : Yields (enterBackup calls)
    (if stopsServices calls then some () else none) := by
  have hvalue : (if stopsServices calls then some () else none) =
      if calls.raises ⟨"failover.vip.check_failover_group", []⟩ then none
      else if calls.masters ≠ [] then none
      else if calls.raises ⟨"service.stop", ["netdata"]⟩ then none
      else if calls.raises ⟨"failover.firewall.drop_all", []⟩ then none
      else some () := by
    unfold stopsServices
    split_ifs <;> simp_all
  rw [hvalue]
  exact yields_runCall_bind ((yields_throw _).ite (yields_runCall_bind (yields_makeCall _)))

theorem makes_restartSsh : Makes calls.raises JobExit.raised (restartSsh calls) (sshCalls calls) :=
  (makes_runCall _).bind ((makes_runCall _).ite makes_pure)

theorem makes_startIscsiForAlua : Makes calls.raises JobExit.raised (startIscsiForAlua calls)
    (iscsiCalls calls) := by
  have hlast : Makes calls.raises JobExit.raised (if calls.isKernelModuleLoaded then
        runCall calls ⟨"service.restart", ["iscsitarget"]⟩
      else runCall calls ⟨"service.start", ["iscsitarget"]⟩)
      [if calls.isKernelModuleLoaded then ⟨"service.restart", ["iscsitarget"]⟩
        else ⟨"service.start", ["iscsitarget"]⟩] := by
    split
    · exact makes_runCall _
    · exact makes_runCall _
  exact (makes_runCall _).bind (((makes_runCall _).bind
    (((makes_runCall _).bind ((makes_runCall _).bind
      ((makes_runCall _).bind hlast))).ite makes_pure)).ite makes_pure)

theorem makes_afterExport : Makes calls.raises JobExit.raised (afterExport calls)
    (afterExportCalls calls) :=
  (makes_runCall _).bind ((makes_tryRunCall _).bind ((makes_tryRunCall _).bind
    ((makes_runCall _).bind ((makes_runCall _).bind ((makes_runCall _).bind
      ((makes_runCall _).bind ((makes_runCall _).bind
        (makes_restartSsh.bind (makes_startIscsiForAlua.bind
          ((makes_tryRunCall _).bind ((makes_tryRunCall _).bind (makes_runCall _))))))))))))

/-! ## Jobs and the pause -/

theorem isPaused_setPause (paused : Bool) (objs : VrrpObjs) :
    (objs.setPause paused).isPaused = (paused && objs.isAlive) := by
  have hthread : ∀ thread : Option VrrpThread,
      (thread.map (VrrpThread.setPause paused)).any VrrpThread.isPaused =
        (paused && thread.any VrrpThread.isAlive) := by
    intro thread
    cases thread with
    | none => simp
    | some thread =>
      cases halive : thread.isAlive <;> simp [VrrpThread.setPause, VrrpThread.isPaused, halive]
  unfold VrrpObjs.isPaused VrrpObjs.isAlive VrrpObjs.setPause
  rw [hthread, hthread, Bool.and_or_distrib_left]

theorem finalState_pauseEvents_bind (next : JobM Unit) (objs : VrrpObjs) :
    finalState (pauseEvents calls >>= fun _ => next) objs =
      if calls.raises ⟨"vrrpthread.pause_events", []⟩ then objs
      else finalState next (objs.setPause true) := by
  unfold pauseEvents runCall makeCall
  split <;> rfl

theorem finalState_unpauseEvents_bind (next : JobM Unit) (objs : VrrpObjs) :
    finalState (unpauseEvents calls >>= fun _ => next) objs =
      if calls.raises ⟨"vrrpthread.unpause_events", []⟩ then objs
      else finalState next (objs.setPause false) := by
  unfold unpauseEvents runCall makeCall
  split <;> rfl

theorem finalState_runCall_bind (call : RunCall) (next : JobM Unit) (objs : VrrpObjs) :
    finalState (runCall calls call >>= fun _ => next) objs =
      if calls.raises call then objs else finalState next objs := by
  unfold runCall makeCall
  split <;> rfl

variable {objs : VrrpObjs}

theorem isPaused_vrrpMaster {event : VrrpEvent} (hevent : event.isMaster = true)
    (hobjs : objs.isPaused = false) :
    (finalState (vrrpMaster calls event) objs).isPaused = (objs.isAlive && pauses calls event &&
        (pausedCalls calls event).any calls.raises) := by
  have hrest : ∀ objs : VrrpObjs, finalState (restOfMaster calls) objs = objs := by
    intro objs
    unfold restOfMaster
    cases calls.masterRest <;> rfl
  unfold vrrpMaster
  rw [(yields_enterMaster event).finalState_bind]
  unfold pauses pausedCalls
  simp only [hevent, if_true]
  cases startsFenced calls event with
  | false => simp [hobjs]
  | true =>
    simp only [if_true, Option.elim_some, finalState_pauseEvents_bind,
      finalState_runCall_bind, finalState_unpauseEvents_bind, hrest]
    cases calls.raises ⟨"vrrpthread.pause_events", []⟩ with
    | true => simp [hobjs]
    | false =>
      cases hreload : calls.raises ⟨"service.reload", ["keepalived"]⟩ <;>
      cases hunpause : calls.raises ⟨"vrrpthread.unpause_events", []⟩ <;>
      simp [isPaused_setPause, hreload, hunpause]

theorem isPaused_vrrpBackup {event : VrrpEvent}
    (hevent : event.isMaster = false) (hobjs : objs.isPaused = false) :
    (finalState (vrrpBackup calls) objs).isPaused = (objs.isAlive && pauses calls event &&
        (pausedCalls calls event).any calls.raises) := by
  have hretaste : ∀ objs : VrrpObjs, finalState (runCall calls ⟨"disk.retaste", []⟩) objs = objs :=
    (makes_runCall _).yields.finalState
  unfold vrrpBackup
  rw [yields_enterBackup.finalState_bind]
  unfold pauses pausedCalls
  simp only [hevent, Bool.false_eq_true, if_false]
  cases stopsServices calls with
  | false => simp [hobjs]
  | true =>
    simp only [if_true, Option.elim_some, finalState_pauseEvents_bind, finalState_runCall_bind]
    cases calls.raises ⟨"vrrpthread.pause_events", []⟩ with
    | true => simp [hobjs]
    | false =>
      cases hstop : calls.raises ⟨"service.stop", ["keepalived"]⟩ with
      | true => simp [isPaused_setPause, hstop]
      | false =>
        unfold exportZpools
        cases calls.exportTimesOut with
        | true =>
          -- the node reboots and starts its threads anew
          simp only [if_true, List.any_cons, List.any_nil, hstop,
            Bool.or_false, Bool.and_false, Bool.false_eq_true, if_false]
          rfl
        | false =>
          have hexport : ∀ (next : JobM Unit) (objs : VrrpObjs),
              finalState (pure () >>= fun _ => next) objs = finalState next objs :=
            fun _ _ => rfl
          simp only [Bool.false_eq_true, if_false, hexport]
          rw [makes_afterExport.yields.finalState_bind]
          cases hafter : (afterExportCalls calls).any calls.raises with
          | true =>
            simp [isPaused_setPause, hstop, hafter]
          | false =>
            simp only [Bool.false_eq_true, if_false, Option.elim_some,
              finalState_unpauseEvents_bind, hretaste]
            cases hunpause : calls.raises ⟨"vrrpthread.unpause_events", []⟩ <;>
            simp [isPaused_setPause, hstop, hafter, hunpause]

theorem isPaused_runJob_iff {job : FailoverJob} (hobjs : objs.isPaused = false) :
    (runJob objs job).isPaused = false ↔ RaisesNothingPaused objs job := by
  have hpaused : (runJob objs job).isPaused = (objs.isAlive && pauses job.calls job.event &&
        (pausedCalls job.calls job.event).any job.calls.raises) := by
    unfold runJob
    cases hevent : job.event.isMaster with
    | true => exact isPaused_vrrpMaster hevent hobjs
    | false => exact isPaused_vrrpBackup hevent hobjs
  rw [hpaused]
  unfold RaisesNothingPaused
  cases objs.isAlive <;> cases pauses job.calls job.event <;> simp

/-- After every job of a run events are processed, exactly when no job that
pauses them raises before it has ended the pause. -/
theorem notPaused_iff_raisesNothingPaused {start final : VrrpObjs}
    {jobs : List FailoverJob} (hstart : start.isPaused = false)
    (hrun : run start jobs = some final) :
    TransitionSystem.EveryStep step RaisesNothingPaused start jobs ↔
      ∀ k objs, run start (jobs.take k) = some objs → objs.isPaused = false := by
  have hstep : ∀ objs job next, True → objs.isPaused = false → step objs job = some next →
      (next.isPaused = false ↔ RaisesNothingPaused objs job) := by
    intro objs job next _ hobjs hnext
    rw [← Option.some.inj hnext]
    exact isPaused_runJob_iff hobjs
  exact TransitionSystem.everyStep_iff_forall_take (fun _ => True)
    (fun _ _ _ _ _ => trivial) hstep trivial hstart hrun

def runningThreads : VrrpObjs :=
  ⟨some ⟨true, false⟩, some ⟨true, false⟩⟩

def raising (method : String) : JobCalls where
  raises := fun call => call.method = method

/-- An exception between the two calls leaves both threads paused. -/
theorem stays_paused : (run runningThreads [⟨.backup, raising "systemdataset.setup"⟩]).any
      VrrpObjs.isPaused = true ∧
    (run runningThreads [⟨.master, raising "service.reload"⟩]).any VrrpObjs.isPaused = true := by
  decide

def failingJobs : List FailoverJob :=
  [⟨.backup, raising "failover.firewall.drop_all"⟩,
    ⟨.master, { masterRest := some (.raised ⟨"disk.sync_all", []⟩) }⟩,
    ⟨.backup, raising "jbof.configure_job"⟩]

theorem notPaused_failingJobs : ∃ final, run runningThreads failingJobs = some final ∧
    final.isPaused = false := by
  have hevery : TransitionSystem.EveryStep step RaisesNothingPaused runningThreads failingJobs := by
    decide
  obtain ⟨final, hfinal⟩ : ∃ final, run runningThreads failingJobs = some final := ⟨_, rfl⟩
  exact ⟨final, hfinal, (notPaused_iff_raisesNothingPaused (by decide)
    hfinal).mp hevery 3 final hfinal⟩

end FailoverJobs

end Middlewared
