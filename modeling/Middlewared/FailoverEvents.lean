import Middlewared.TransitionSystem

/-!
# The role that failover events give a node

An event that `failover.events.event` does not ignore becomes a job behind those that wait for the
lock `vrrp_event`.
-/

namespace Middlewared

open List Option TransitionSystem

inductive VrrpEvent where
  | master
  | backup
  | forcetakeover
deriving DecidableEq

/-- The job is `vrrp_master`, or else it is `vrrp_backup`. -/
def VrrpEvent.isMaster : VrrpEvent → Bool
  | .master | .forcetakeover => true
  | .backup => false

/-- A pool as `pool.query` selects it. -/
structure HaVolume where
  (name status : String)

structure HaInterface where
  id : String
  failoverCritical : Bool

structure FailoverHost where
  disabled : Bool
  interfaces : List HaInterface

structure FailoverData where
  disabled : Bool
  volumes : List HaVolume
  nonCritInterfaces : List String

structure VrrpJob where
  ifname : String
  event : VrrpEvent

/-- How far `_event` has come. -/
inductive EventDispatch where
  | generated (fobj : FailoverData) (ifname : String) (event : VrrpEvent)
  | accepted (ifname : String) (event : VrrpEvent)
  | validated (ifname : String) (event : VrrpEvent)

/-- The jobs that wait for the lock are in the order in which they get it.  The
last event is not stored by the code. -/
structure FailoverEvents where
  volumes : List HaVolume
  running : Option VrrpJob := none
  waiting : List VrrpJob := []
  dispatch : Option EventDispatch := none
  lastEvent : Option VrrpEvent := none

namespace FailoverEvents

def generateFailoverData (host : FailoverHost) (volumes : List HaVolume) :
    FailoverData where
  disabled := host.disabled
  volumes := volumes
  nonCritInterfaces := (host.interfaces.filter fun i => i.failoverCritical ≠ true).map
      HaInterface.id

def notForNode (fobj : FailoverData) (ifname : String) (event : VrrpEvent) :
    Bool :=
  event ≠ .forcetakeover && (fobj.disabled || fobj.nonCritInterfaces.contains ifname)

def needsImported (volumes : List HaVolume) (fobj : FailoverData) : Bool :=
  (volumes.filter fun i => i.name ∈ fobj.volumes.map HaVolume.name).any
    fun pool => pool.status = "OFFLINE"

def alreadyImported (volumes : List HaVolume) (fobj : FailoverData)
    (event : VrrpEvent) : Bool :=
  fobj.volumes ≠ [] && event = .master && !needsImported volumes fobj

/-- The comparison of `validate`, for which a waiting job does not count. -/
def isDuplicate (running : Option VrrpJob) (event : VrrpEvent) : Bool :=
  running.any fun i => i.event = event

inductive Action where
  | event (ifname : String) (event : VrrpEvent)
  | queryPools
  | validate
  | callJob
  | jobStarts
  | jobEnds (status : String → String)

def Action.isJob : Action → Bool
  | .jobStarts | .jobEnds _ => true
  | .event _ _ | .queryPools | .validate | .callJob => false

def imported (status : String → String) (volumes : List HaVolume) :
    List HaVolume :=
  volumes.map fun vol => { vol with status := status vol.name }

def exported (volumes : List HaVolume) : List HaVolume :=
  imported (fun _ => "OFFLINE") volumes

/-- `vrrp_master` imports every volume, or fails before the end; `vrrp_backup`
is taken to export every volume, also one imported after the `fobj` by which
`_export_zpools` skips the offline ones. -/
def endJob (status : String → String) (job : VrrpJob)
    (volumes : List HaVolume) : Option (List HaVolume) :=
  if job.event.isMaster then
    if ∀ vol ∈ volumes, status vol.name ≠ "OFFLINE" then
      some (imported status volumes)
    else none
  else some (exported volumes)

def step (host : FailoverHost) (s : FailoverEvents) :
    Action → Option FailoverEvents
  | .event ifname event =>
    match s.dispatch with
    | none =>
      let fobj := generateFailoverData host s.volumes
      some { s with
        lastEvent := some event
        dispatch :=
          if notForNode fobj ifname event then none
          else some (.generated fobj ifname event) }
    | some _ => none
  | .queryPools =>
    match s.dispatch with
    | some (.generated fobj ifname event) =>
      some { s with
        dispatch :=
          if alreadyImported s.volumes fobj event then none
          else some (.accepted ifname event) }
    | _ => none
  | .validate =>
    match s.dispatch with
    | some (.accepted ifname event) =>
      some { s with
        dispatch :=
          if isDuplicate s.running event then none
          else some (.validated ifname event) }
    | _ => none
  | .callJob =>
    match s.dispatch with
    | some (.validated ifname event) =>
      some { s with dispatch := none, waiting := s.waiting ++ [⟨ifname, event⟩] }
    | _ => none
  | .jobStarts =>
    match s.running, s.waiting with
    | none, job :: rest => some { s with running := some job, waiting := rest }
    | _, _ => none
  | .jobEnds status =>
    s.running.bind fun job =>
      (endJob status job s.volumes).map fun volumes =>
        { s with volumes, running := none }

abbrev run (host : FailoverHost) :
    FailoverEvents → List Action → Option FailoverEvents :=
  TransitionSystem.run (step host)

def InRole (volumes : List HaVolume) (event : VrrpEvent) : Prop :=
  if event.isMaster then ∀ vol ∈ volumes, vol.status ≠ "OFFLINE"
  else ∀ vol ∈ volumes, vol.status = "OFFLINE"

instance (volumes : List HaVolume) (event : VrrpEvent) :
    Decidable (InRole volumes event) :=
  inferInstanceAs (Decidable (ite _ _ _))

/-- No event is being dispatched, and no job is queued or running. -/
def Settled (s : FailoverEvents) : Prop :=
  s.dispatch = none ∧ s.running = none ∧ s.waiting = []

instance (s : FailoverEvents) : Decidable (Settled s) :=
  inferInstanceAs (Decidable (_ ∧ _))

def InLastRole (s : FailoverEvents) : Prop :=
  ∀ event ∈ s.lastEvent, InRole s.volumes event

instance (s : FailoverEvents) : Decidable (InLastRole s) :=
  inferInstanceAs (Decidable (∀ event ∈ s.lastEvent, _))

/-- Whenever no job is left, now or after the jobs there are, the node has the
role of the last event. -/
def EndsInLastRole (host : FailoverHost) (s : FailoverEvents) : Prop :=
  ∀ jobs final, (∀ action ∈ jobs, action.isJob = true) →
    run host s jobs = some final → Settled final → InLastRole final

def jobs (s : FailoverEvents) : List VrrpJob :=
  s.running.toList ++ s.waiting

def AgreesWithLastJob (s : FailoverEvents) (event : VrrpEvent) : Prop :=
  s.volumes = [] ∨ ∀ job ∈ s.jobs.getLast?, job.event.isMaster = event.isMaster

/-- An event is not ignored when the last of the jobs is for the other role. -/
def IgnoredRightly (s : FailoverEvents) (action : Action) : Prop :=
  match action, s.dispatch with
  | .queryPools, some (.generated fobj _ event) =>
    alreadyImported s.volumes fobj event = true → AgreesWithLastJob s event
  | .validate, some (.accepted _ event) =>
    isDuplicate s.running event = true → AgreesWithLastJob s event
  | _, _ => True

instance (s : FailoverEvents) (event : VrrpEvent) :
    Decidable (AgreesWithLastJob s event) :=
  inferInstanceAs (Decidable (_ ∨ ∀ job ∈ s.jobs.getLast?, _))

instance (s : FailoverEvents) (action : Action) :
    Decidable (IgnoredRightly s action) := by
  unfold IgnoredRightly
  split <;> infer_instance

def Action.IsCritical (host : FailoverHost) : Action → Prop
  | .event ifname _ =>
    ∀ i ∈ host.interfaces, i.id = ifname → i.failoverCritical = true
  | .queryPools | .validate | .callJob | .jobStarts | .jobEnds _ => True

instance (host : FailoverHost) (action : Action) :
    Decidable (action.IsCritical host) := by
  unfold Action.IsCritical
  split <;> infer_instance

/-! ## Runs of the jobs -/

variable {host : FailoverHost} {s next final : FailoverEvents}

variable {status : String → String} {job : VrrpJob}
  {volumes after : List HaVolume}

variable (hend : endJob status job volumes = some after)

include hend

theorem inRole_endJob (event : VrrpEvent) : InRole after event ↔
    volumes = [] ∨ job.event.isMaster = event.isMaster := by
  unfold endJob at hend
  unfold InRole
  cases volumes with
  | nil =>
    have hafter : after = [] := by
      split at hend
      · simpa [imported] using hend.symm
      · simpa [exported, imported] using hend.symm
    simp [hafter]
  | cons vol rest =>
    cases hjob : job.event.isMaster with
    | true =>
      simp only [hjob, if_true] at hend
      split at hend
      · rename_i hstatus
        rw [← some.inj hend]
        cases event.isMaster with
        | true => simpa [imported] using hstatus
        | false =>
          rw [forall_mem_cons] at hstatus
          simp [imported, hstatus.1]
      · cases hend
    | false =>
      simp only [hjob, Bool.false_eq_true, if_false, Option.some.injEq] at hend
      rw [← hend]
      cases event.isMaster <;> simp [exported, imported]

theorem endJob_eq_nil_iff : after = [] ↔ volumes = [] := by
  unfold endJob at hend
  split at hend
  · split at hend
    · simp [← some.inj hend, imported]
    · cases hend
  · simp [← some.inj hend, exported, imported]

theorem names_endJob : after.map HaVolume.name = volumes.map HaVolume.name := by
  unfold endJob at hend
  split at hend
  · split at hend
    · rw [← some.inj hend, imported, List.map_map]
      rfl
    · cases hend
  · rw [← some.inj hend, exported, imported, List.map_map]
    rfl

omit hend

variable {action : Action}

theorem jobStep_cases (hjob : action.isJob = true) (hstep : step host s action = some next) :
    (∃ job rest, s.running = none ∧ s.waiting = job :: rest ∧
      next = { s with running := some job, waiting := rest }) ∨
    (∃ status job volumes, s.running = some job ∧ endJob status job s.volumes = some volumes ∧
      next = { s with volumes, running := none }) := by
  cases action with
  | event _ _ | queryPools | validate | callJob => cases hjob
  | jobStarts =>
    unfold step at hstep
    simp only at hstep
    split at hstep
    · rename_i job rest hrunning hwaiting
      exact Or.inl ⟨job, rest, hrunning, hwaiting, (some.inj hstep).symm⟩
    · cases hstep
  | jobEnds status =>
    obtain ⟨job, hrunning, hend⟩ := Option.bind_eq_some_iff.mp hstep
    obtain ⟨volumes, hvolumes, hnext⟩ := Option.map_eq_some_iff.mp hend
    exact Or.inr ⟨status, job, volumes, hrunning, hvolumes, hnext.symm⟩

def WillBeInRole (s : FailoverEvents) (event : VrrpEvent) : Prop :=
  match s.jobs.getLast? with
  | none => InRole s.volumes event
  | some job => s.volumes = [] ∨ job.event.isMaster = event.isMaster

theorem willBeInRole_jobStep (hjob : action.isJob = true)
    (hstep : step host s action = some next) (event : VrrpEvent) :
    WillBeInRole next event ↔ WillBeInRole s event := by
  unfold WillBeInRole jobs
  rcases jobStep_cases hjob hstep with
    ⟨job, rest, hrunning, hwaiting, rfl⟩ |
    ⟨status, job, volumes, hrunning, hend, rfl⟩
  · rw [hrunning, hwaiting]
    rfl
  · rw [hrunning]
    cases hwaiting : s.waiting.getLast? with
    | none =>
      rw [getLast?_eq_none_iff] at hwaiting
      simp only [hwaiting, toList_none, toList_some, append_nil, getLast?_nil, getLast?_singleton]
      exact inRole_endJob hend event
    | some last =>
      simp only [toList_none, toList_some, nil_append, getLast?_append, hwaiting, some_or]
      rw [endJob_eq_nil_iff hend]

theorem dispatch_jobStep (hjob : action.isJob = true) (hstep : step host s action = some next) :
    next.dispatch = s.dispatch ∧ next.lastEvent = s.lastEvent := by
  rcases jobStep_cases hjob hstep with ⟨_, _, _, _, rfl⟩ | ⟨_, _, _, _, _, rfl⟩
  · exact ⟨rfl, rfl⟩
  · exact ⟨rfl, rfl⟩

theorem willBeInRole_run {actions : List Action} (hjobs : ∀ action ∈ actions, action.isJob = true)
    (hrun : run host s actions = some final) :
    final.dispatch = s.dispatch ∧ final.lastEvent = s.lastEvent ∧
      ∀ event, WillBeInRole final event ↔ WillBeInRole s event := by
  refine @run_invariant_of_mem _ _ _
    (fun t => t.dispatch = s.dispatch ∧ t.lastEvent = s.lastEvent ∧
      ∀ event, WillBeInRole t event ↔ WillBeInRole s event)
    (fun action => action.isJob = true) ?_ s final actions hjobs
    ⟨rfl, rfl, fun _ => Iff.rfl⟩ hrun
  intro t action next hjob ht hstep
  obtain ⟨hdispatch, hlast⟩ := dispatch_jobStep hjob hstep
  exact ⟨hdispatch.trans ht.1, hlast.trans ht.2.1, fun event =>
    (willBeInRole_jobStep hjob hstep event).trans (ht.2.2 event)⟩

theorem exists_endJob (job : VrrpJob) (volumes : List HaVolume) :
    ∃ after, endJob (fun _ => "ONLINE") job volumes = some after := by
  unfold endJob
  split
  · have honline : "ONLINE" ≠ "OFFLINE" := by decide
    rw [if_pos fun _ _ => honline]
    exact ⟨_, rfl⟩
  · exact ⟨_, rfl⟩

theorem exists_jobEnds (job : VrrpJob) (hrunning : s.running = some job) :
    ∃ volumes, step host s (.jobEnds fun _ => "ONLINE") =
      some { s with volumes, running := none } := by
  obtain ⟨volumes, hend⟩ := exists_endJob job s.volumes
  refine ⟨volumes, ?_⟩
  simp only [step, hrunning, bind_some, hend, map_some]

theorem exists_drain_waiting (hrunning : s.running = none) :
    ∃ actions final, (∀ action ∈ actions, action.isJob = true) ∧
      run host s actions = some final ∧ final.running = none ∧
      final.waiting = [] := by
  induction hwaiting : s.waiting generalizing s with
  | nil => exact ⟨[], s, forall_mem_nil _, rfl, hrunning, hwaiting⟩
  | cons job rest ih =>
    let started := { s with running := some job, waiting := rest }
    have hstarts : step host s .jobStarts = some started := by
      simp only [step, hrunning, hwaiting, started]
    obtain ⟨volumes, hends⟩ := @exists_jobEnds host started job rfl
    obtain ⟨actions, final, hjobs, hrun, hfinal⟩ :=
      @ih { started with volumes, running := none } rfl rfl
    refine ⟨.jobStarts :: .jobEnds (fun _ => "ONLINE") :: actions, final, ?_, ?_, hfinal⟩
    · simpa [Action.isJob] using hjobs
    · rw [run, run_cons_eq_some_iff]
      refine ⟨started, hstarts, ?_⟩
      rw [run_cons_eq_some_iff]
      exact ⟨_, hends, hrun⟩

theorem exists_drain (host : FailoverHost) (s : FailoverEvents) :
    ∃ actions final, (∀ action ∈ actions, action.isJob = true) ∧
      run host s actions = some final ∧ final.running = none ∧
      final.waiting = [] := by
  cases hrunning : s.running with
  | none => exact exists_drain_waiting hrunning
  | some job =>
    obtain ⟨volumes, hends⟩ := @exists_jobEnds host s job hrunning
    obtain ⟨actions, final, hjobs, hrun, hfinal⟩ := @exists_drain_waiting host
        { s with volumes, running := none } rfl
    refine ⟨.jobEnds (fun _ => "ONLINE") :: actions, final, ?_, ?_, hfinal⟩
    · simpa [Action.isJob] using hjobs
    · exact TransitionSystem.run_cons_eq_some_iff.mpr ⟨_, hends, hrun⟩

theorem willBeInRole_of_settled (hrunning : s.running = none)
    (hwaiting : s.waiting = []) (event : VrrpEvent) :
    WillBeInRole s event ↔ InRole s.volumes event := by
  unfold WillBeInRole jobs
  rw [hrunning, hwaiting]
  rfl

theorem endsInLastRole_iff (hdispatch : s.dispatch = none) :
    EndsInLastRole host s ↔ ∀ event ∈ s.lastEvent, WillBeInRole s event := by
  constructor
  · intro hends event hevent
    obtain ⟨actions, final, hjobs, hrun, hrunning, hwaiting⟩ := exists_drain host s
    obtain ⟨hsame, hlast, hrole⟩ := willBeInRole_run hjobs hrun
    rw [← hrole, willBeInRole_of_settled hrunning hwaiting]
    exact hends actions final hjobs hrun
      ⟨hsame.trans hdispatch, hrunning, hwaiting⟩ event (hlast ▸ hevent)
  · intro hwill actions final hjobs hrun hsettled event hevent
    obtain ⟨_, hlast, hrole⟩ := willBeInRole_run hjobs hrun
    rw [← willBeInRole_of_settled hsettled.2.1 hsettled.2.2, hrole]
    exact hwill event (hlast ▸ hevent)

theorem endsInLastRole_of_dispatch (hdispatch : s.dispatch ≠ none) : EndsInLastRole host s := by
  intro actions final hjobs hrun hsettled
  have hsame := (willBeInRole_run hjobs hrun).1
  exact absurd (hsame.symm.trans hsettled.1) hdispatch

theorem EndsInLastRole.jobStep (hends : EndsInLastRole host s)
    (hjob : action.isJob = true) (hstep : step host s action = some next) :
    EndsInLastRole host next := by
  intro actions final hjobs hrun hsettled
  exact hends (action :: actions) final (List.forall_mem_cons.mpr ⟨hjob, hjobs⟩)
    (TransitionSystem.run_cons_eq_some_iff.mpr ⟨next, hstep, hrun⟩) hsettled

/-! ## Runs of the node -/

def Fits (s : FailoverEvents) : EventDispatch → Prop
  | .generated fobj _ event => s.lastEvent = some event ∧
      fobj.volumes.map HaVolume.name = s.volumes.map HaVolume.name
  | .accepted _ event | .validated _ event => s.lastEvent = some event

def DispatchFits (s : FailoverEvents) : Prop :=
  ∀ dispatch ∈ s.dispatch, Fits s dispatch

theorem DispatchFits.jobStep (hs : DispatchFits s) (hjob : action.isJob = true)
    (hstep : step host s action = some next) : DispatchFits next := by
  obtain ⟨hdispatch, hlast⟩ := dispatch_jobStep hjob hstep
  have hnames : next.volumes.map HaVolume.name = s.volumes.map HaVolume.name := by
    rcases jobStep_cases hjob hstep with
      ⟨_, _, _, _, rfl⟩ | ⟨_, _, _, _, hend, rfl⟩
    · rfl
    · exact names_endJob hend
  intro dispatch hmem
  have hfits := hs dispatch (hdispatch ▸ hmem)
  cases dispatch with
  | generated fobj ifname event =>
    exact ⟨hlast.trans hfits.1, hfits.2.trans hnames.symm⟩
  | accepted ifname event => exact hlast.trans hfits
  | validated ifname event => exact hlast.trans hfits

/-! What an action that dispatches has found, and what it leaves. -/

variable {event : VrrpEvent}

theorem step_event_eq_some {ifname : String}
    (hstep : step host s (.event ifname event) = some next) :
    s.dispatch = none ∧ next = { s with
        lastEvent := some event
        dispatch :=
          if notForNode (generateFailoverData host s.volumes) ifname event then
            none
          else
            some (.generated (generateFailoverData host s.volumes) ifname
              event) } := by
  unfold step at hstep
  cases hdispatch : s.dispatch with
  | none =>
    simp only [hdispatch] at hstep
    exact ⟨rfl, (some.inj hstep).symm⟩
  | some dispatch =>
    simp only [hdispatch] at hstep
    cases hstep

theorem step_queryPools_eq_some (hstep : step host s .queryPools = some next) :
    ∃ fobj ifname event, s.dispatch = some (.generated fobj ifname event) ∧ next = { s with
        dispatch :=
          if alreadyImported s.volumes fobj event then none
          else some (.accepted ifname event) } := by
  unfold step at hstep
  simp only at hstep
  split at hstep
  · rename_i fobj ifname event hdispatch
    exact ⟨fobj, ifname, event, hdispatch, (some.inj hstep).symm⟩
  · cases hstep

theorem step_validate_eq_some (hstep : step host s .validate = some next) :
    ∃ ifname event, s.dispatch = some (.accepted ifname event) ∧ next = { s with
        dispatch :=
          if isDuplicate s.running event then none
          else some (.validated ifname event) } := by
  unfold step at hstep
  simp only at hstep
  split at hstep
  · rename_i ifname event hdispatch
    exact ⟨ifname, event, hdispatch, (some.inj hstep).symm⟩
  · cases hstep

theorem step_callJob_eq_some (hstep : step host s .callJob = some next) :
    ∃ ifname event, s.dispatch = some (.validated ifname event) ∧ next = { s with
        dispatch := none
        waiting := s.waiting ++ [⟨ifname, event⟩] } := by
  unfold step at hstep
  simp only at hstep
  split at hstep
  · rename_i ifname event hdispatch
    exact ⟨ifname, event, hdispatch, (some.inj hstep).symm⟩
  · cases hstep

theorem dispatchFits_step (hs : DispatchFits s)
    (hstep : step host s action = some next) : DispatchFits next := by
  cases action with
  | jobStarts => exact hs.jobStep rfl hstep
  | jobEnds status => exact hs.jobStep rfl hstep
  | event ifname event =>
    rw [(step_event_eq_some hstep).2]
    intro dispatch hmem
    split at hmem
    · cases hmem
    · rw [← some.inj hmem]
      exact ⟨rfl, rfl⟩
  | queryPools =>
    obtain ⟨fobj, ifname, event, hdispatch, rfl⟩ := step_queryPools_eq_some hstep
    intro dispatch hmem
    split at hmem
    · cases hmem
    · rw [← some.inj hmem]
      exact (hs _ hdispatch).1
  | validate =>
    obtain ⟨ifname, event, hdispatch, rfl⟩ := step_validate_eq_some hstep
    intro dispatch hmem
    split at hmem
    · cases hmem
    · rw [← some.inj hmem]
      exact hs _ hdispatch
  | callJob =>
    obtain ⟨ifname, event, hdispatch, rfl⟩ := step_callJob_eq_some hstep
    intro dispatch hmem
    cases hmem

theorem needsImported_eq_false_iff {fobj : FailoverData} (hnames : fobj.volumes.map HaVolume.name =
      s.volumes.map HaVolume.name) :
    needsImported s.volumes fobj = false ↔ InRole s.volumes .master := by
  unfold needsImported InRole
  rw [hnames, List.filter_eq_self.mpr]
  · simp [VrrpEvent.isMaster]
  · intro vol hvol
    exact decide_eq_true (List.mem_map_of_mem hvol)

theorem willBeInRole_iff_agrees (hrole : s.jobs = [] → InRole s.volumes event) :
    WillBeInRole s event ↔ AgreesWithLastJob s event := by
  unfold WillBeInRole AgreesWithLastJob
  cases hlast : s.jobs.getLast? with
  | none =>
    rw [getLast?_eq_none_iff] at hlast
    simp [hrole hlast]
  | some job => simp

theorem endsInLastRole_ignored (hlast : s.lastEvent = some event)
    (hrole : s.jobs = [] → InRole s.volumes event) :
    EndsInLastRole host { s with dispatch := none } ↔ AgreesWithLastJob s event := by
  rw [endsInLastRole_iff rfl]
  simp only [hlast, mem_some_iff, forall_eq']
  exact willBeInRole_iff_agrees hrole

theorem endsInLastRole_step_iff (henabled : host.disabled = false)
    (hcritical : action.IsCritical host) (hs : DispatchFits s)
    (hends : EndsInLastRole host s) (hstep : step host s action = some next) :
    EndsInLastRole host next ↔ IgnoredRightly s action := by
  cases action with
  | jobStarts => exact iff_of_true (hends.jobStep rfl hstep) trivial
  | jobEnds status => exact iff_of_true (hends.jobStep rfl hstep) trivial
  | event ifname event =>
    refine iff_of_true ?_ trivial
    rw [(step_event_eq_some hstep).2]
    apply endsInLastRole_of_dispatch
    have hnode : notForNode (generateFailoverData host s.volumes) ifname event = false := by
      unfold notForNode generateFailoverData
      simp only [henabled, Bool.false_or, Bool.and_eq_false_iff]
      right
      rw [contains_eq_mem, decide_eq_false_iff_not, List.mem_map]
      rintro ⟨i, hi, hid⟩
      rw [mem_filter] at hi
      exact of_decide_eq_true hi.2 (hcritical i hi.1 hid)
    simp [hnode]
  | callJob =>
    refine iff_of_true ?_ trivial
    obtain ⟨ifname, event, hdispatch, rfl⟩ := step_callJob_eq_some hstep
    rw [endsInLastRole_iff rfl]
    intro last hlast
    have hsame : last = event := some.inj (hlast.symm.trans (hs _ hdispatch))
    unfold WillBeInRole jobs
    simp only [← append_assoc, getLast?_concat]
    exact Or.inr (by rw [hsame])
  | queryPools =>
    obtain ⟨fobj, ifname, event, hdispatch, rfl⟩ := step_queryPools_eq_some hstep
    obtain ⟨hlast, hnames⟩ := hs _ hdispatch
    unfold IgnoredRightly
    simp only [hdispatch]
    cases hignored : alreadyImported s.volumes fobj event with
    | false =>
      refine iff_of_true (endsInLastRole_of_dispatch ?_) (by simp)
      simp
    | true =>
      simp only [alreadyImported, Bool.and_eq_true, Bool.not_eq_true',
        decide_eq_true_eq] at hignored
      simp only [if_true, true_imp_iff]
      apply endsInLastRole_ignored hlast
      intro _
      rw [hignored.1.2]
      exact (needsImported_eq_false_iff hnames).mp hignored.2
  | validate =>
    obtain ⟨ifname, event, hdispatch, rfl⟩ := step_validate_eq_some hstep
    unfold IgnoredRightly
    simp only [hdispatch]
    cases hignored : isDuplicate s.running event with
    | false =>
      refine iff_of_true (endsInLastRole_of_dispatch ?_) (by simp)
      simp
    | true =>
      simp only [if_true, true_imp_iff]
      apply endsInLastRole_ignored (hs _ hdispatch)
      intro hnone
      unfold jobs at hnone
      rw [append_eq_nil_iff, toList_eq_nil_iff] at hnone
      rw [hnone.1] at hignored
      cases hignored

def eno1Host : FailoverHost := ⟨false, [⟨"eno1", true⟩, ⟨"eno2", false⟩]⟩

def tankStatus (status : String) : FailoverEvents where
  volumes := [⟨"tank", status⟩]

def addEvent (event : VrrpEvent) : List Action :=
  [.event "eno1" event, .queryPools, .validate, .callJob]

def onlyJob : List Action := [.jobStarts, .jobEnds fun _ => "ONLINE"]

def masterWhileExporting : List Action :=
  addEvent .backup ++ [.jobStarts, .event "eno1" .master, .queryPools, .jobEnds fun _ => "ONLINE"]

def masterBackupMaster : List Action :=
  addEvent .master ++ [.jobStarts] ++ addEvent .backup ++
    [.event "eno1" .master, .queryPools, .validate, .jobEnds fun _ => "ONLINE"] ++ onlyJob

/-- The second of two backup events is ignored while the job of the first runs. -/
def failback : List Action :=
  addEvent .backup ++ [.jobStarts, .event "eno1" .backup, .queryPools, .validate,
      .jobEnds fun _ => "ONLINE"] ++
    addEvent .master ++ onlyJob

end FailoverEvents

end Middlewared
