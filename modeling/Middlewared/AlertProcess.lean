import Middlewared.AlertRun
import Middlewared.TransitionSystem

/-!
# Processing alerts while a user dismisses them

`process_alerts` copies the alerts, lets the sources take their turns, expires alerts and then
asks once more whether it should have run at all; if not, it puts the copy back.
-/

namespace Middlewared

open List Option TransitionSystem

inductive ProcessPhase where
  | waiting
  | running (validAlerts : List Alert) (remaining : List (String × AlertSource))
  | expired (validAlerts : List Alert)
  | finished

def ProcessPhase.validAlerts : ProcessPhase → Option (List Alert)
  | .running alerts _ | .expired alerts => some alerts
  | .waiting | .finished => none

structure ProcessState where
  service : AlertState
  phase : ProcessPhase

/-- `ready` is what `__should_run_or_send_alerts` answers. -/
inductive ProcessAction where
  | firstCheck (ready : Bool)
  | turn
  | expire (now : DateTime)
  | secondCheck (ready : Bool)
  | dismiss (uuid : ℕ)

def AlertClass.dismissedByFlag (klass : AlertClass) : Bool :=
  !klass.dismissable && !klass.deletedOnDismiss

section

variable (env : AlertEnvironment) (sources : Dict String AlertSource)
  (left : List Alert → Alert → List Alert)

def processStep (s : ProcessState) : ProcessAction → Option ProcessState
  | .firstCheck ready =>
    match s.phase with
    | .waiting =>
      if ready then
        some { s with phase := .running s.service.alerts sources.entries }
      else some { s with phase := .finished }
    | .running _ _ | .expired _ | .finished => none
  | .turn =>
    match s.phase with
    | .running valid ((name, source) :: rest) =>
      some { service := runTurn env s.service name source, phase := .running valid rest }
    | .running _ [] | .waiting | .expired _ | .finished => none
  | .expire now =>
    match s.phase with
    | .running valid [] =>
      some { service := expireAlerts now s.service, phase := .expired valid }
    | .running _ (_ :: _) | .waiting | .expired _ | .finished => none
  | .secondCheck ready =>
    match s.phase with
    | .expired valid =>
      if ready then some { s with phase := .finished }
      else
        some { service := { s.service with alerts := valid }, phase := .finished }
    | .waiting | .running _ _ | .finished => none
  | .dismiss uuid =>
    if (alertByUuid s.service.alerts uuid).elim true (fun alert => alert.klass.dismissedByFlag) then
      some { s with service := dismissAlert left uuid s.service }
    else none

end

/-! ## The alerts stay well-formed -/

section

variable {s : AlertState}

theorem AlertState.WellFormed.sublist (hwf : s.WellFormed)
    {alerts : List Alert} (hsub : alerts.Sublist s.alerts) {next : ℕ}
    (hnext : s.nextUuid ≤ next) : AlertState.WellFormed ⟨alerts, next⟩ := by
  constructor
  · intro alert hmem
    obtain ⟨uuid, huuid, hlt⟩ := hwf.issued alert (hsub.subset hmem)
    exact ⟨uuid, huuid, by simpa using hlt.trans_le hnext⟩
  · exact hwf.uuids.sublist (hsub.map Alert.uuid)
  · exact hwf.identities.sublist (hsub.map Alert.identity)

theorem map_markDismissed {γ : Type*} {f : Alert → γ}
    (hf : ∀ alert : Alert, f { alert with dismissed := some true } = f alert)
    (uuid : ℕ) (alerts : List Alert) :
    (markDismissed uuid alerts).map f = alerts.map f := by
  induction alerts with
  | nil => rfl
  | cons alert rest ih =>
    unfold markDismissed
    split
    · simp [hf]
    · simp [ih]

theorem AlertState.WellFormed.markDismissed (hwf : s.WellFormed) (uuid : ℕ) :
    AlertState.WellFormed ⟨markDismissed uuid s.alerts, s.nextUuid⟩ := by
  have huuids : (Middlewared.markDismissed uuid s.alerts).map Alert.uuid =
      s.alerts.map Alert.uuid := map_markDismissed (fun _ => rfl) uuid s.alerts
  constructor
  · intro alert hmem
    have huuid := List.mem_map_of_mem (f := Alert.uuid) hmem
    rw [huuids] at huuid
    obtain ⟨old, hold, hsame⟩ := List.mem_map.mp huuid
    rw [← hsame]
    exact hwf.issued old hold
  · rw [huuids]
    exact hwf.uuids
  · rw [map_markDismissed (fun _ => rfl) uuid s.alerts]
    exact hwf.identities

theorem markDismissed_of_not_found {uuid : ℕ} {alerts : List Alert}
    (hfound : alertByUuid alerts uuid = none) :
    markDismissed uuid alerts = alerts := by
  have hnone := find?_eq_none.mp hfound
  induction alerts with
  | nil => rfl
  | cons alert rest ih =>
    have hhead : ¬ alert.uuid = some uuid := by
      simpa using hnone alert mem_cons_self
    have hrest : ∀ other ∈ rest, ¬ decide (other.uuid = some uuid) = true := by
      intro other hother
      exact hnone other (mem_cons_of_mem alert hother)
    rw [markDismissed, if_neg hhead, ih (find?_eq_none.mpr hrest) hrest]

theorem dismissAlert_of_flag {left : List Alert → Alert → List Alert} {uuid : ℕ}
    (hflag : (alertByUuid s.alerts uuid).elim true
      (fun alert => alert.klass.dismissedByFlag) = true) :
    dismissAlert left uuid s = { s with alerts := markDismissed uuid s.alerts } := by
  unfold dismissAlert
  cases hfound : alertByUuid s.alerts uuid with
  | none => simp [markDismissed_of_not_found hfound]
  | some alert =>
    rw [hfound] at hflag
    simp only [elim_some, AlertClass.dismissedByFlag,
      Bool.and_eq_true, Bool.not_eq_true'] at hflag
    simp [hflag.1, hflag.2]

theorem AlertState.WellFormed.dismissAlert (hwf : s.WellFormed)
    (left : List Alert → Alert → List Alert) (uuid : ℕ) :
    (dismissAlert left uuid s).WellFormed := by
  unfold Middlewared.dismissAlert
  split
  · exact hwf
  · split
    · exact hwf.sublist filter_sublist (le_refl s.nextUuid)
    · split
      · exact hwf.sublist eraseP_sublist (le_refl s.nextUuid)
      · exact hwf.markDismissed uuid

theorem AlertState.WellFormed.oneshotCreate (hwf : s.WellFormed)
    (node : AlertNode) (now : DateTime) (created : Alert) :
    (oneshotCreate node now created s).WellFormed := by
  simp only [Middlewared.oneshotCreate]
  generalize { created with source := some "", node := some node } = given
  have hnext := handleAlert_next_le s.alerts now s.nextUuid given
  have hcontinues := handleAlert_continues s.alerts now s.nextUuid given
  generalize handleAlert s.alerts now s.nextUuid given = handled at hnext hcontinues
  rcases handled with ⟨alert, next⟩
  have hkept : AlertState.WellFormed
      ⟨s.alerts.filter (fun other => other.uuid ≠ alert.uuid), next⟩ :=
    hwf.sublist filter_sublist hnext
  have hissued : ∃ uuid, alert.uuid = some uuid ∧ uuid < next := hcontinues.issued hwf hnext
  constructor
  · intro other hmem
    rcases mem_append.mp hmem with hother | hnew
    · exact hkept.issued other hother
    · rw [mem_singleton.mp hnew]
      exact hissued
  · rw [map_append]
    apply hkept.uuids.append (by simp)
    intro uuid hold hnew
    obtain ⟨other, hother, rfl⟩ := List.mem_map.mp hold
    simp only [mem_filter, decide_eq_true_eq] at hother
    exact hother.2 (by simpa using hnew)
  · rw [map_append]
    apply hkept.identities.append (by simp)
    intro identity hold hnew
    obtain ⟨other, hother, rfl⟩ := List.mem_map.mp hold
    simp only [mem_filter, decide_eq_true_eq] at hother
    have hsame : other.identity = alert.identity := by simpa using hnew
    unfold Continues at hcontinues
    rw [existingAlert_of_mem hwf.identities hother.1 hsame] at hcontinues
    exact hother.2 hcontinues.1.symm

end

inductive AlertCall where
  | runAlerts (env : AlertEnvironment) (sources : Dict String AlertSource)
  | expireAlerts (now : DateTime)
  | dismiss (left : List Alert → Alert → List Alert) (uuid : ℕ)
  | oneshotCreate (node : AlertNode) (now : DateTime) (created : Alert)

def AlertCall.apply (s : AlertState) : AlertCall → AlertState
  | .runAlerts env sources => Middlewared.runAlerts env sources s
  | .expireAlerts now => Middlewared.expireAlerts now s
  | .dismiss left uuid => dismissAlert left uuid s
  | .oneshotCreate node now created =>
    Middlewared.oneshotCreate node now created s

theorem AlertCall.apply_wellFormed {s : AlertState} (hwf : s.WellFormed)
    (c : AlertCall) : (c.apply s).WellFormed := by
  cases c with
  | runAlerts env sources => exact hwf.runTurns
  | expireAlerts now =>
    exact hwf.sublist filter_sublist (le_refl s.nextUuid)
  | dismiss left uuid => exact hwf.dismissAlert left uuid
  | oneshotCreate node now created => exact hwf.oneshotCreate node now created

theorem calls_wellFormed (calls : List AlertCall) :
    (calls.foldl AlertCall.apply ⟨[], 0⟩).WellFormed := by
  have hkeep : ∀ s : AlertState, s.WellFormed → (calls.foldl AlertCall.apply s).WellFormed := by
    induction calls with
    | nil =>
      intro s hwf
      exact hwf
    | cons c rest ih =>
      intro s hwf
      exact ih (c.apply s) (c.apply_wellFormed hwf)
  exact hkeep ⟨[], 0⟩ ⟨by simp, by simp, by simp⟩

/-! ## The steps of the job -/

inductive ProcessMove (env : AlertEnvironment)
    (sources : Dict String AlertSource) (s : ProcessState) :
    ProcessAction → ProcessState → Prop where
  | start (hphase : s.phase = .waiting) : ProcessMove env sources s (.firstCheck true)
        ⟨s.service, .running s.service.alerts sources.entries⟩
  | skip (hphase : s.phase = .waiting) :
      ProcessMove env sources s (.firstCheck false) ⟨s.service, .finished⟩
  | turn {valid name source rest} (hphase : s.phase = .running valid ((name, source) :: rest)) :
      ProcessMove env sources s .turn ⟨runTurn env s.service name source, .running valid rest⟩
  | expire {now valid} (hphase : s.phase = .running valid []) :
      ProcessMove env sources s (.expire now) ⟨expireAlerts now s.service, .expired valid⟩
  | keep {valid} (hphase : s.phase = .expired valid) :
      ProcessMove env sources s (.secondCheck true) ⟨s.service, .finished⟩
  | rollback {valid} (hphase : s.phase = .expired valid) :
      ProcessMove env sources s (.secondCheck false) ⟨⟨valid, s.service.nextUuid⟩, .finished⟩
  | dismiss {uuid} : ProcessMove env sources s (.dismiss uuid)
        ⟨⟨markDismissed uuid s.service.alerts, s.service.nextUuid⟩, s.phase⟩

section

variable {env : AlertEnvironment} {sources : Dict String AlertSource}
  {left : List Alert → Alert → List Alert} {s next : ProcessState}
  {a : ProcessAction}

theorem processMove_of_step (hstep : processStep env sources left s a = some next) :
    ProcessMove env sources s a next := by
  obtain ⟨service, phase⟩ := s
  cases a with
  | firstCheck ready =>
    cases phase <;> cases ready <;> simp [processStep] at hstep
    · subst next
      exact .skip rfl
    · subst next
      exact .start rfl
  | turn =>
    rcases phase with _ | ⟨valid, _ | ⟨⟨name, source⟩, rest⟩⟩ | _ | _ <;>
      simp [processStep] at hstep
    subst next
    exact .turn rfl
  | expire now =>
    rcases phase with _ | ⟨valid, _ | ⟨entry, rest⟩⟩ | _ | _ <;> simp [processStep] at hstep
    subst next
    exact .expire rfl
  | secondCheck ready =>
    cases phase <;> cases ready <;> simp [processStep] at hstep
    · subst next
      exact .rollback rfl
    · subst next
      exact .keep rfl
  | dismiss uuid =>
    obtain ⟨hflag, rfl⟩ := ite_some_none_eq_some.mp hstep
    rw [dismissAlert_of_flag hflag]
    exact .dismiss

structure ProcessState.WellFormed (s : ProcessState) : Prop where
  service : s.service.WellFormed
  validAlerts : ∀ valid, s.phase.validAlerts = some valid →
    AlertState.WellFormed ⟨valid, s.service.nextUuid⟩

theorem runTurn_nextUuid_le (t : AlertState) (name : String)
    (source : AlertSource) : t.nextUuid ≤ (runTurn env t name source).nextUuid := by
  cases hselects : env.selects name source with
  | false => rw [runTurn_of_not_selects hselects]
  | true =>
    rw [runTurn_of_selects hselects]
    exact handleAlerts_next_le _ _ _ _

theorem ProcessState.WellFormed.step (hwf : s.WellFormed)
    (hstep : processStep env sources left s a = some next) :
    next.WellFormed := by
  cases processMove_of_step hstep with
  | start hphase =>
    constructor
    · exact hwf.service
    · intro valid hvalid
      cases hvalid
      exact hwf.service
  | skip hphase => exact ⟨hwf.service, by simp [ProcessPhase.validAlerts]⟩
  | @turn valid name source rest hphase =>
    constructor
    · exact hwf.service.runTurn
    · intro other hother
      cases hother
      have hvalid := hwf.validAlerts valid (by rw [hphase]; rfl)
      exact hvalid.sublist (List.Sublist.refl valid) (runTurn_nextUuid_le s.service name source)
  | @expire now valid hphase =>
    constructor
    · exact hwf.service.sublist filter_sublist (le_refl _)
    · intro other hother
      cases hother
      exact hwf.validAlerts valid (by rw [hphase]; rfl)
  | keep hphase => exact ⟨hwf.service, by simp [ProcessPhase.validAlerts]⟩
  | @rollback valid hphase =>
    exact ⟨hwf.validAlerts valid (by rw [hphase]; rfl), by simp [ProcessPhase.validAlerts]⟩
  | dismiss => exact ⟨hwf.service.markDismissed _, hwf.validAlerts⟩

/-! ## Dismissals -/

def DismissedIn (uuid : ℕ) (alerts : List Alert) : Prop :=
  ∀ alert ∈ alerts, alert.uuid = some uuid → alert.dismissed = some true

variable {uuid : ℕ} {alerts : List Alert}

theorem mem_of_mem_markDismissed {alert : Alert} (hmem : alert ∈ markDismissed uuid alerts) :
    alert ∈ alerts ∨ alert.dismissed = some true := by
  induction alerts with
  | nil => simp [markDismissed] at hmem
  | cons head rest ih =>
    unfold markDismissed at hmem
    split at hmem
    · rcases mem_cons.mp hmem with heq | hrest
      · exact .inr (by rw [heq])
      · exact .inl (mem_cons_of_mem head hrest)
    · rcases mem_cons.mp hmem with heq | hrest
      · exact .inl (by simp [heq])
      · exact (ih hrest).imp_left (mem_cons_of_mem head)

theorem mem_markDismissed_of_ne {other : ℕ} {alert : Alert}
    (hmem : alert ∈ alerts) (huuid : alert.uuid = some uuid)
    (hne : uuid ≠ other) : alert ∈ markDismissed other alerts := by
  induction alerts with
  | nil => simp at hmem
  | cons head rest ih =>
    unfold markDismissed
    rcases mem_cons.mp hmem with heq | hrest
    · subst head
      rw [if_neg (by simpa [huuid] using hne)]
      exact mem_cons_self
    · split
      · exact mem_cons_of_mem _ hrest
      · exact mem_cons_of_mem head (ih hrest)

theorem DismissedIn.markDismissed (hdismissed : DismissedIn uuid alerts)
    (other : ℕ) : DismissedIn uuid (markDismissed other alerts) := by
  intro alert hmem huuid
  rcases mem_of_mem_markDismissed hmem with hold | hflag
  · exact hdismissed alert hold huuid
  · exact hflag

theorem dismissedIn_markDismissed (hnodup : (alerts.map Alert.uuid).Nodup) :
    DismissedIn uuid (markDismissed uuid alerts) := by
  induction alerts with
  | nil => simp [DismissedIn, markDismissed]
  | cons head rest ih =>
    rw [map_cons, nodup_cons] at hnodup
    intro alert hmem huuid
    unfold markDismissed at hmem
    split at hmem
    · rename_i hhead
      rcases mem_cons.mp hmem with heq | hrest
      · rw [heq]
      · -- a second alert of this identifier
        have hmemUuid := List.mem_map_of_mem (f := Alert.uuid) hrest
        rw [huuid, ← hhead] at hmemUuid
        exact absurd hmemUuid hnodup.1
    · rename_i hhead
      rcases mem_cons.mp hmem with heq | hrest
      · rw [heq] at huuid
        exact absurd huuid hhead
      · exact ih hnodup.2 alert hrest huuid

theorem DismissedIn.runTurn {t : AlertState} {name : String}
    {source : AlertSource} (hdismissed : DismissedIn uuid t.alerts)
    (hissued : uuid < t.nextUuid) :
    DismissedIn uuid (runTurn env t name source).alerts := by
  intro alert hmem huuid
  cases hselects : env.selects name source with
  | false =>
    rw [runTurn_of_not_selects hselects] at hmem
    exact hdismissed alert hmem huuid
  | true =>
    rcases (mem_runTurn_iff hselects).mp hmem with ⟨hold, _⟩ | hhandled
    · exact hdismissed alert hold huuid
    · have hcontinues := turnHandled_continues hhandled
      unfold Continues at hcontinues
      cases hold : existingAlert t.alerts alert with
      | some old =>
        rw [hold] at hcontinues
        rw [hcontinues.2.2]
        apply hdismissed old (existingAlert_eq_some hold).1
        rw [← hcontinues.1, huuid]
      | none =>
        rw [hold] at hcontinues
        obtain ⟨fresh, hfresh, hle, _⟩ := hcontinues
        rw [huuid, some.injEq] at hfresh
        omega

structure Flagged (uuid : ℕ) (s : ProcessState) : Prop where
  alerts : DismissedIn uuid s.service.alerts
  issued : uuid < s.service.nextUuid

theorem Flagged.step (hflagged : Flagged uuid s) (hrollback : a = .secondCheck false →
      ∀ valid, s.phase.validAlerts = some valid → DismissedIn uuid valid)
    (hstep : processStep env sources left s a = some next) :
    Flagged uuid next := by
  cases processMove_of_step hstep with
  | start hphase => exact ⟨hflagged.alerts, hflagged.issued⟩
  | skip hphase => exact ⟨hflagged.alerts, hflagged.issued⟩
  | @turn valid name source rest hphase =>
    exact ⟨hflagged.alerts.runTurn hflagged.issued,
      hflagged.issued.trans_le (runTurn_nextUuid_le s.service name source)⟩
  | expire hphase =>
    constructor
    · intro alert hmem
      exact hflagged.alerts alert (mem_of_mem_filter hmem)
    · exact hflagged.issued
  | keep hphase => exact ⟨hflagged.alerts, hflagged.issued⟩
  | @rollback valid hphase =>
    exact ⟨hrollback rfl valid (by rw [hphase]; rfl), hflagged.issued⟩
  | dismiss => exact ⟨hflagged.alerts.markDismissed _, hflagged.issued⟩

structure FlaggedWithCopy (uuid : ℕ) (s : ProcessState) : Prop where
  flagged : Flagged uuid s
  copy : ∀ valid, s.phase.validAlerts = some valid → DismissedIn uuid valid

theorem FlaggedWithCopy.step (hflagged : FlaggedWithCopy uuid s)
    (hstep : processStep env sources left s a = some next) :
    FlaggedWithCopy uuid next := by
  constructor
  · exact hflagged.flagged.step (fun _ => hflagged.copy) hstep
  · have hphase : ∀ valid, next.phase.validAlerts = some valid →
        s.phase.validAlerts = some valid ∨ valid = s.service.alerts := by
      intro valid hvalid
      cases processMove_of_step hstep with
      | start hphase => simp_all [ProcessPhase.validAlerts]
      | skip hphase => simp [ProcessPhase.validAlerts] at hvalid
      | turn hphase => simp_all [ProcessPhase.validAlerts]
      | expire hphase => simp_all [ProcessPhase.validAlerts]
      | keep hphase => simp [ProcessPhase.validAlerts] at hvalid
      | rollback hphase => simp [ProcessPhase.validAlerts] at hvalid
      | dismiss => exact .inl hvalid
    intro valid hvalid
    rcases hphase valid hvalid with hold | hcopied
    · exact hflagged.copy valid hold
    · rw [hcopied]
      exact hflagged.flagged.alerts

theorem run_of_finished (uuid : ℕ) {final : ProcessState}
    {actions : List ProcessAction} (hphase : s.phase = .finished)
    (hrun : run (processStep env sources left) s actions = some final) :
    .secondCheck false ∉ actions ∧ (.dismiss uuid ∉ actions → ¬ DismissedIn uuid s.service.alerts →
        ¬ DismissedIn uuid final.service.alerts) := by
  induction actions generalizing s with
  | nil =>
    simp only [run_nil, some.injEq] at hrun
    subst final
    simp
  | cons a rest ih =>
    obtain ⟨next, hstep, hrest⟩ := TransitionSystem.run_cons_eq_some_iff.mp hrun
    cases processMove_of_step hstep with
    | start hother => simp [hphase] at hother
    | skip hother => simp [hphase] at hother
    | turn hother => simp [hphase] at hother
    | expire hother => simp [hphase] at hother
    | keep hother => simp [hphase] at hother
    | rollback hother => simp [hphase] at hother
    | @dismiss other =>
      have hfinished : ({ service := ⟨markDismissed other
          s.service.alerts, s.service.nextUuid⟩, phase := s.phase } :
            ProcessState).phase = .finished := hphase
      have hlater := ih hfinished hrest
      constructor
      · simpa using hlater.1
      · intro hlast hlost
        simp only [mem_cons, not_or] at hlast
        apply hlater.2 hlast.2
        intro hdismissed
        apply hlost
        intro alert hmem huuid
        have hne : uuid ≠ other := by
          rintro rfl
          exact hlast.1 rfl
        exact hdismissed alert (mem_markDismissed_of_ne hmem huuid hne) huuid

theorem rollback_loses {final : ProcessState} {valid : List Alert}
    {actions : List ProcessAction} (hvalid : s.phase.validAlerts = some valid)
    (hrun : run (processStep env sources left) s actions =
      some final) (hrollback : .secondCheck false ∈ actions)
    (hlast : .dismiss uuid ∉ actions) (hlost : ¬ DismissedIn uuid valid) :
    ¬ DismissedIn uuid final.service.alerts := by
  induction actions generalizing s with
  | nil => simp at hrollback
  | cons a rest ih =>
    obtain ⟨next, hstep, hrest⟩ := TransitionSystem.run_cons_eq_some_iff.mp hrun
    simp only [mem_cons, not_or] at hlast
    cases processMove_of_step hstep with
    | start hphase => simp [hphase, ProcessPhase.validAlerts] at hvalid
    | skip hphase => simp [hphase, ProcessPhase.validAlerts] at hvalid
    | turn hphase =>
      rw [hphase] at hvalid
      exact ih hvalid hrest (by simpa using hrollback) hlast.2
    | expire hphase =>
      rw [hphase] at hvalid
      exact ih hvalid hrest (by simpa using hrollback) hlast.2
    | keep hphase =>
      -- the second check is made once
      have hnone := (run_of_finished uuid rfl hrest).1
      simp [hnone] at hrollback
    | rollback hphase =>
      rw [hphase] at hvalid
      cases hvalid
      exact (run_of_finished uuid rfl hrest).2 hlast.2 hlost
    | @dismiss other =>
      have hcopy : ({ service := ⟨markDismissed other s.service.alerts,
          s.service.nextUuid⟩, phase := s.phase } :
            ProcessState).phase.validAlerts = some valid := hvalid
      exact ih hcopy hrest (by simpa using hrollback) hlast.2

theorem flagged_of_dismiss (hwf : s.WellFormed) (hissued : uuid < s.service.nextUuid)
    (hstep : processStep env sources left s (.dismiss uuid) = some next) :
    Flagged uuid next ∧ next.phase = s.phase := by
  cases processMove_of_step hstep with
  | dismiss =>
    exact ⟨⟨dismissedIn_markDismissed hwf.service.uuids, hissued⟩, rfl⟩

/-- A dismissal is lost exactly when it falls between the copy and a second
check that fails, and the copy has the alert without the flag. -/
theorem dismissal_kept_iff {uuid : ℕ} {start mid final : ProcessState}
    {before after : List ProcessAction} (hwf : start.service.WellFormed)
    (hstart : start.phase = .waiting)
    (hbefore : run (processStep env sources left) start before = some mid)
    (hafter : run (processStep env sources left) mid
      (.dismiss uuid :: after) = some final)
    (hissued : uuid < mid.service.nextUuid)
    (hlast : .dismiss uuid ∉ after) :
    DismissedIn uuid final.service.alerts ↔ ¬ ∃ valid, mid.phase.validAlerts = some valid ∧
        .secondCheck false ∈ after ∧ ¬ DismissedIn uuid valid := by
  have hstartWf : start.WellFormed := ⟨hwf, by simp [hstart, ProcessPhase.validAlerts]⟩
  have hmid : mid.WellFormed :=
    run_invariant (fun _ _ _ h hstep => h.step hstep) hstartWf hbefore
  obtain ⟨next, hstep, hrest⟩ := TransitionSystem.run_cons_eq_some_iff.mp hafter
  obtain ⟨hflagged, hphase⟩ := flagged_of_dismiss hmid hissued hstep
  constructor
  · rintro hdismissed ⟨valid, hvalid, hrollback, hlost⟩
    rw [← hphase] at hvalid
    exact rollback_loses hvalid hrest hrollback hlast hlost hdismissed
  · intro hnotLost
    by_cases hcopy : ∀ valid, mid.phase.validAlerts = some valid → DismissedIn uuid valid
    · have hwithCopy : FlaggedWithCopy uuid next := ⟨hflagged, by rwa [hphase]⟩
      have hfinal : FlaggedWithCopy uuid final :=
        run_invariant (fun _ _ _ h hstep => h.step hstep) hwithCopy hrest
      exact hfinal.flagged.alerts
    · simp only [not_forall] at hcopy
      obtain ⟨valid, hvalid, hlost⟩ := hcopy
      have hkept : ∀ t : ProcessState, ∀ a ∈ after, a ≠ ProcessAction.secondCheck false := by
        rintro t a ha rfl
        exact hnotLost ⟨valid, hvalid, ha, hlost⟩
      have hfinal : Flagged uuid final := run_invariant_of_everyStep
          (fun _ _ _ h hne hstep => h.step (fun heq => absurd heq hne) hstep)
          hflagged (everyStep_of_forall_mem hkept) hrest
      exact hfinal.alerts

def keepAll (related : List Alert) (_alert : Alert) : List Alert :=
  related

def tankActive : ProcessState where
  service := { tankDismissed with
      alerts := tankDismissed.alerts.map fun alert =>
        { alert with dismissed := some false } }
  phase := .waiting

def tankChecked : List ProcessAction :=
  [.firstCheck true, .turn]

def tankProcess : ProcessState → ProcessAction → Option ProcessState :=
  processStep (aloneOnNodeA (.several [tankWarning])) (enterpriseSource "ZpoolCapacity") keepAll

theorem tankActive_wellFormed : tankActive.service.WellFormed := by
  constructor <;> simp [tankActive, tankDismissed]

theorem dismissal_kept_when_ready :
    ∃ mid final, run tankProcess tankActive tankChecked = some mid ∧
      run tankProcess mid
        [.dismiss 0, .expire ⟨2000, false⟩, .secondCheck true] = some final ∧
      DismissedIn 0 final.service.alerts := by
  have hmid : (run tankProcess tankActive tankChecked).map
      (fun s => s.service.nextUuid) = some 1 := by
    decide +kernel
  obtain ⟨mid, hmid, hissued⟩ := map_eq_some_iff.mp hmid
  have hfinal : ((run tankProcess tankActive tankChecked).bind
      fun mid => run tankProcess mid
        [.dismiss 0, .expire ⟨2000, false⟩, .secondCheck true]).isSome := by
    decide +kernel
  rw [hmid, bind_some] at hfinal
  obtain ⟨final, hfinal⟩ := isSome_iff_exists.mp hfinal
  refine ⟨mid, final, hmid, hfinal, ?_⟩
  apply (dismissal_kept_iff tankActive_wellFormed rfl hmid hfinal (by omega) (by simp)).mpr
  rintro ⟨valid, _, hrollback, _⟩
  simp at hrollback

/-- What is put back at the end is from before the user dismissed the alert. -/
theorem dismissal_rolled_back : ∃ final, run tankProcess tankActive (tankChecked ++
        [.dismiss 0, .expire ⟨2000, false⟩, .secondCheck false]) =
      some final ∧
    ∃ alert ∈ final.service.alerts, alert.uuid = some 0 ∧ alert.klass.dismissedByFlag = true ∧
        alert.dismissed = some false := by
  have hfinal : (run tankProcess tankActive (tankChecked ++
        [.dismiss 0, .expire ⟨2000, false⟩, .secondCheck false])).elim false
      (fun final => final.service.alerts.any fun alert =>
        alert.uuid = some 0 ∧ alert.klass.dismissedByFlag = true ∧
          alert.dismissed = some false) = true := by
    decide +kernel
  cases hrun : run tankProcess tankActive (tankChecked ++
        [.dismiss 0, .expire ⟨2000, false⟩, .secondCheck false]) with
  | none => simp [hrun] at hfinal
  | some final =>
    rw [hrun] at hfinal
    exact ⟨final, rfl, by simpa using hfinal⟩

end

end Middlewared
