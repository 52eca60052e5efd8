import Middlewared.AlertService
import Middlewared.ExceptRules

/-!
# The identity of alerts across checks

Three notions of sameness meet in one turn of a source: `__run_source` drops alerts by their key
alone, `__handle_alert` looks for an older alert with the same node, source, class and key, and
the new list replaces the old alerts by their source.
-/

namespace Middlewared

open List Function Option

structure AlertState.WellFormed (s : AlertState) : Prop where
  issued : ∀ alert ∈ s.alerts, ∃ uuid, alert.uuid = some uuid ∧ uuid < s.nextUuid
  uuids : (s.alerts.map Alert.uuid).Nodup
  identities : (s.alerts.map Alert.identity).Nodup

/-! ## What a source answers -/

/-- The alerts that a source gives for one node: they carry its name, their
keys differ, and every key that the check returned is among them. -/
structure SourceAnswers (name : String) (returned given : List Alert) : Prop where
  source : ∀ alert ∈ given, alert.source = some name
  keys : (given.map Alert.key).Nodup
  covers : ∀ alert ∈ returned, ∃ kept ∈ given, kept.key = alert.key ∧
    ∃ origin ∈ returned, origin.key = kept.key ∧ origin.klass = kept.klass

variable {alert : Alert} {alerts : List Alert}

theorem mem_of_mem_uniqueAlerts {keys : List String} (hmem : alert ∈ uniqueAlerts keys alerts) :
    alert ∈ alerts ∧ alert.key ∉ keys := by
  induction alerts generalizing keys with
  | nil => simp [uniqueAlerts] at hmem
  | cons head rest ih =>
    unfold uniqueAlerts at hmem
    by_cases hkey : head.key ∈ keys
    · rw [if_pos hkey] at hmem
      exact ⟨mem_cons_of_mem head (ih hmem).1, (ih hmem).2⟩
    · rw [if_neg hkey] at hmem
      rcases mem_cons.mp hmem with heq | hrest
      · rw [heq]
        exact ⟨mem_cons_self, hkey⟩
      · have hfound := ih hrest
        constructor
        · exact mem_cons_of_mem head hfound.1
        · intro hold
          exact hfound.2 (mem_cons_of_mem head.key hold)

theorem nodup_keys_uniqueAlerts (keys : List String) (alerts : List Alert) :
    ((uniqueAlerts keys alerts).map Alert.key).Nodup := by
  induction alerts generalizing keys with
  | nil => simp [uniqueAlerts]
  | cons head rest ih =>
    unfold uniqueAlerts
    by_cases hkey : head.key ∈ keys
    · rw [if_pos hkey]
      exact ih keys
    · rw [if_neg hkey, map_cons, nodup_cons]
      constructor
      · intro hmem
        obtain ⟨other, hother, hsame⟩ := List.mem_map.mp hmem
        exact (mem_of_mem_uniqueAlerts hother).2 (by simp [hsame])
      · exact ih (head.key :: keys)

theorem exists_mem_uniqueAlerts (keys : List String) (hmem : alert ∈ alerts)
    (hkey : alert.key ∉ keys) :
    ∃ kept ∈ uniqueAlerts keys alerts, kept.key = alert.key := by
  induction alerts generalizing keys with
  | nil => simp at hmem
  | cons head rest ih =>
    unfold uniqueAlerts
    by_cases hhead : head.key ∈ keys
    · rw [if_pos hhead]
      rcases mem_cons.mp hmem with heq | hrest
      · rw [heq] at hkey
        exact absurd hhead hkey
      · exact ih keys hrest hkey
    · rw [if_neg hhead]
      by_cases hsame : head.key = alert.key
      · exact ⟨head, mem_cons_self, hsame⟩
      · rcases mem_cons.mp hmem with heq | hrest
        · rw [heq] at hsame
          exact absurd rfl hsame
        · have hnew : alert.key ∉ head.key :: keys := by
            simpa [Ne.symm hsame] using hkey
          obtain ⟨kept, hkept, hkeptKey⟩ := ih (head.key :: keys) hrest hnew
          exact ⟨kept, mem_cons_of_mem head hkept, hkeptKey⟩

theorem takeSource_answers (name : String) (returned : List Alert) :
    SourceAnswers name returned (takeSource name returned) := by
  constructor
  · intro alert hmem
    obtain ⟨kept, _, heq⟩ := List.mem_map.mp hmem
    rw [← heq]
  · have hkeys := nodup_keys_uniqueAlerts [] returned
    simpa [takeSource, comp_def] using hkeys
  · intro alert hmem
    obtain ⟨kept, hkept, hkey⟩ := exists_mem_uniqueAlerts [] hmem (by simp)
    refine ⟨{ kept with source := some name },
      List.mem_map.mpr ⟨kept, hkept, rfl⟩, hkey, kept, ?_, rfl, rfl⟩
    exact (mem_of_mem_uniqueAlerts hkept).1

theorem runSourceAlerts_answers (name : String) (check : CheckOutcome) :
    SourceAnswers name check.returned ((runSourceAlerts name check).getD []) := by
  cases check with
  | nothing => exact ⟨by simp [runSourceAlerts], by simp [runSourceAlerts],
      by simp [CheckOutcome.returned]⟩
  | single alert => exact takeSource_answers name [alert]
  | several alerts => exact takeSource_answers name alerts
  | unavailable => exact ⟨by simp [runSourceAlerts], by simp [runSourceAlerts],
      by simp [CheckOutcome.returned]⟩
  | raised message =>
    have hfailed := takeSource_answers name
      [.init alertSourceRunFailedClass (runFailedArgs name message) none
        none none none none none none none none none]
    exact ⟨hfailed.source, hfailed.keys, by simp [CheckOutcome.returned]⟩

variable {classes : Dict String AlertClass}

theorem remoteAlert_eq_ok {rebuilt : Alert} (hok : remoteAlert classes alert = .ok rebuilt) :
    classes.get? alert.klass.name = some rebuilt.klass ∧
      rebuilt.source = alert.source ∧ rebuilt.key = alert.key := by
  unfold remoteAlert at hok
  split at hok
  · cases hok
  · rename_i klass hklass
    cases hok
    exact ⟨hklass, rfl, rfl⟩

theorem SourceAnswers.failure (name : String) (message : String) :
    SourceAnswers name [] [remoteFailure name message] := by
  constructor
  · intro alert hmem
    rw [mem_singleton.mp hmem]
    rfl
  · simp
  · simp

variable {returned : List Alert}

theorem SourceAnswers.of_nil {name : String} {given : List Alert}
    (hanswers : SourceAnswers name returned given) :
    SourceAnswers name [] given :=
  ⟨hanswers.source, hanswers.keys, by simp⟩

theorem SourceAnswers.rebuild {name : String} {given rebuilt : List Alert}
    (hanswers : SourceAnswers name returned given)
    (hregistered : ∀ alert ∈ returned, classes.get? alert.klass.name = some alert.klass)
    (hrebuilt : given.mapM (remoteAlert classes) = .ok rebuilt) :
    SourceAnswers name returned rebuilt := by
  constructor
  · intro alert hmem
    obtain ⟨old, hold, hok⟩ := exists_of_mem_mapM_results hrebuilt hmem
    rw [(remoteAlert_eq_ok hok).2.1]
    exact hanswers.source old hold
  · rw [map_mapM_results hrebuilt fun _ _ hok => (remoteAlert_eq_ok hok).2.2]
    exact hanswers.keys
  · intro alert hmem
    obtain ⟨kept, hkept, hkey, origin, horigin, horiginKey, horiginKlass⟩ :=
      hanswers.covers alert hmem
    obtain ⟨new, hnew, hok⟩ := exists_mem_mapM_results hrebuilt hkept
    obtain ⟨hklass, _, hnewKey⟩ := remoteAlert_eq_ok hok
    rw [← horiginKlass, hregistered origin horigin, some.injEq] at hklass
    exact ⟨new, hnew, hnewKey.trans hkey, origin, horigin, horiginKey.trans hnewKey.symm, hklass⟩

def returnedOn (env : AlertEnvironment) (name : String) (source : AlertSource)
    (node : AlertNode) : List Alert :=
  if node = env.failover.thisNode then (env.turns name).check.returned
  else if env.runsRemote source then
    match (env.turns name).remote with
    | .answered check => check.returned
    | .networkError | .reserveFdException | .raised _ => []
  else []

/-- The alert classes of the other node are known here under their names. -/
def AlertEnvironment.Registered (env : AlertEnvironment) : Prop :=
  ∀ name check, (env.turns name).remote = .answered check → ∀ alert ∈ check.returned,
      env.classes.get? alert.klass.name = some alert.klass

theorem takeSource_rebuilt (name : String) (hregistered : ∀ alert ∈ returned,
      classes.get? alert.klass.name = some alert.klass) :
    ∃ rebuilt, (takeSource name returned).mapM (remoteAlert classes) =
        .ok rebuilt ∧ SourceAnswers name returned rebuilt := by
  have hall : ∀ alert ∈ takeSource name returned, ∃ new, remoteAlert classes alert = .ok new := by
    intro alert hmem
    obtain ⟨kept, hkept, rfl⟩ := List.mem_map.mp hmem
    have hklass := hregistered kept (mem_of_mem_uniqueAlerts hkept).1
    simp [remoteAlert, hklass]
  obtain ⟨rebuilt, hrebuilt⟩ := exists_mapM_eq_ok hall
  exact ⟨rebuilt, hrebuilt, (takeSource_answers name returned).rebuild hregistered hrebuilt⟩

theorem runOtherNodeAlertSource_answers (name : String) (check : CheckOutcome)
    (hregistered : ∀ alert ∈ check.returned, classes.get? alert.klass.name = some alert.klass) :
    SourceAnswers name check.returned (runOtherNodeAlertSource classes name (.answered check)) := by
  cases check with
  | nothing => exact runSourceAlerts_answers name .nothing
  | unavailable => exact runSourceAlerts_answers name .unavailable
  | single alert =>
    obtain ⟨rebuilt, hrebuilt, hanswers⟩ := takeSource_rebuilt name hregistered
    simp only [CheckOutcome.returned] at hrebuilt hanswers ⊢
    simpa [runOtherNodeAlertSource, runSourceAlerts, hrebuilt] using hanswers
  | several alerts =>
    obtain ⟨rebuilt, hrebuilt, hanswers⟩ := takeSource_rebuilt name hregistered
    simp only [CheckOutcome.returned] at hrebuilt hanswers ⊢
    simpa [runOtherNodeAlertSource, runSourceAlerts, hrebuilt] using hanswers
  | raised message =>
    simp only [runOtherNodeAlertSource, runSourceAlerts]
    split
    · rename_i rebuilt hrebuilt
      exact (takeSource_answers name _).of_nil.rebuild (by simp) hrebuilt
    · exact .failure name _

section

variable {env : AlertEnvironment} {name : String} {source : AlertSource}
  {alerts : List Alert}

theorem thisNodeAlerts_answers (hblocked : (env.turns name).blocked = false) :
    SourceAnswers name (returnedOn env name source env.failover.thisNode)
      (thisNodeAlerts env alerts name) := by
  simpa [returnedOn, thisNodeAlerts, hblocked] using
    runSourceAlerts_answers name (env.turns name).check

theorem AlertNode.other_ne (node : AlertNode) : node.other ≠ node := by
  cases node <;> simp [AlertNode.other]

theorem otherNodeAlerts_answers (hregistered : env.Registered)
    (hblocked : (env.turns name).blocked = false) :
    SourceAnswers name (returnedOn env name source env.failover.otherNode)
      (otherNodeAlerts env alerts name source) := by
  have hnode : env.failover.otherNode ≠ env.failover.thisNode := AlertNode.other_ne _
  simp only [returnedOn, otherNodeAlerts, hblocked, hnode, if_false, Bool.false_eq_true]
  have hnil : SourceAnswers name [] [] := ⟨by simp, by simp, by simp⟩
  split
  · cases hremote : (env.turns name).remote with
    | answered check =>
      exact runOtherNodeAlertSource_answers name check (hregistered name check hremote)
    | networkError => exact hnil
    | reserveFdException => exact hnil
    | raised message => exact .failure name message
  · exact hnil

end

/-! ## Handling a list of alerts -/

theorem handleAlert_identity (alerts : List Alert) (now : DateTime) (next : ℕ) (alert : Alert) :
    (handleAlert alerts now next alert).1.identity = alert.identity := by
  unfold handleAlert
  split <;> rfl

theorem existingAlert_congr {other : Alert} (hsame : alert.identity = other.identity) :
    existingAlert alerts alert = existingAlert alerts other := by
  simp [existingAlert, hsame]

theorem existingAlert_eq_some {existing : Alert}
    (hfound : existingAlert alerts alert = some existing) :
    existing ∈ alerts ∧ existing.identity = alert.identity :=
  ⟨mem_of_find?_eq_some hfound, by simpa using find?_some hfound⟩

theorem existingAlert_of_mem (hnodup : (alerts.map Alert.identity).Nodup)
    {existing : Alert} (hmem : existing ∈ alerts)
    (hsame : existing.identity = alert.identity) :
    existingAlert alerts alert = some existing := by
  cases hfound : existingAlert alerts alert with
  | none =>
    have hnone := find?_eq_none.mp hfound existing hmem
    simp [hsame] at hnone
  | some other =>
    obtain ⟨hother, hidentity⟩ := existingAlert_eq_some hfound
    rw [inj_on_of_nodup_map hnodup hother hmem (hidentity.trans hsame.symm)]

def Continues (alerts : List Alert) (low high : ℕ) (alert : Alert) : Prop :=
  match existingAlert alerts alert with
  | some existing =>
    alert.uuid = existing.uuid ∧ alert.datetime = existing.datetime ∧
      alert.dismissed = existing.dismissed
  | none => ∃ uuid, alert.uuid = some uuid ∧ low ≤ uuid ∧ uuid < high

theorem Continues.mono {low low' high high' : ℕ} (hlow : low' ≤ low)
    (hhigh : high ≤ high') (hcontinues : Continues alerts low high alert) :
    Continues alerts low' high' alert := by
  unfold Continues at hcontinues ⊢
  split at hcontinues
  · exact hcontinues
  · obtain ⟨uuid, huuid, hle, hlt⟩ := hcontinues
    exact ⟨uuid, huuid, by omega, by omega⟩

theorem handleAlert_next_le (alerts : List Alert) (now : DateTime) (next : ℕ) (alert : Alert) :
    next ≤ (handleAlert alerts now next alert).2 := by
  unfold handleAlert
  split <;> simp

theorem handleAlert_continues (alerts : List Alert) (now : DateTime) (next : ℕ) (alert : Alert) :
    Continues alerts next (handleAlert alerts now next alert).2
      (handleAlert alerts now next alert).1 := by
  unfold Continues
  rw [existingAlert_congr (handleAlert_identity alerts now next alert)]
  unfold handleAlert
  cases existingAlert alerts alert with
  | none => exact ⟨next, rfl, le_refl next, Nat.lt_succ_self next⟩
  | some existing => exact ⟨rfl, rfl, rfl⟩

section

variable (alerts : List Alert) (now : DateTime)

theorem handleAlerts_identity (next : ℕ) (order : List Alert) :
    (handleAlerts alerts now next order).1.map Alert.identity = order.map Alert.identity := by
  induction order generalizing next with
  | nil => rfl
  | cons alert rest ih =>
    simp only [handleAlerts, map_cons, handleAlert_identity, ih]

theorem handleAlerts_next_le (next : ℕ) (order : List Alert) :
    next ≤ (handleAlerts alerts now next order).2 := by
  induction order generalizing next with
  | nil => exact le_refl next
  | cons alert rest ih =>
    exact (handleAlert_next_le alerts now next alert).trans (ih _)

theorem handleAlerts_continues (next : ℕ) (order : List Alert) :
    ∀ alert ∈ (handleAlerts alerts now next order).1,
      Continues alerts next (handleAlerts alerts now next order).2 alert := by
  induction order generalizing next with
  | nil => simp [handleAlerts]
  | cons alert rest ih =>
    intro handled hmem
    have hnext := handleAlert_next_le alerts now next alert
    simp only [handleAlerts, mem_cons] at hmem ⊢
    rcases hmem with heq | hlater
    · rw [heq]
      exact (handleAlert_continues alerts now next alert).mono (le_refl next)
        (handleAlerts_next_le alerts now _ rest)
    · exact (ih _ handled hlater).mono hnext (le_refl _)

variable {alerts}

theorem Continues.uuid_ne {low middle high : ℕ} {first second : Alert}
    (hissued : ∀ alert ∈ alerts, ∃ uuid, alert.uuid = some uuid ∧ uuid < low)
    (huuids : (alerts.map Alert.uuid).Nodup)
    (hfirst : Continues alerts low middle first)
    (hsecond : Continues alerts middle high second) (hle : low ≤ middle)
    (hidentity : first.identity ≠ second.identity) :
    first.uuid ≠ second.uuid := by
  unfold Continues at hfirst hsecond
  intro huuid
  cases hold : existingAlert alerts first with
  | some old =>
    rw [hold] at hfirst
    obtain ⟨hmem, hsame⟩ := existingAlert_eq_some hold
    cases hold' : existingAlert alerts second with
    | some old' =>
      rw [hold'] at hsecond
      obtain ⟨hmem', hsame'⟩ := existingAlert_eq_some hold'
      have heq : old.uuid = old'.uuid := by
        rw [← hfirst.1, ← hsecond.1, huuid]
      have holdEq := inj_on_of_nodup_map huuids hmem hmem' heq
      rw [← hsame, ← hsame', holdEq] at hidentity
      exact hidentity rfl
    | none =>
      rw [hold'] at hsecond
      obtain ⟨uuid, hsome, hlow, _⟩ := hsecond
      obtain ⟨uuid', hsome', hlt⟩ := hissued old hmem
      have heq : uuid = uuid' := by
        rw [← some.injEq, ← hsome, ← hsome', ← huuid, hfirst.1]
      omega
  | none =>
    rw [hold] at hfirst
    obtain ⟨uuid, hsome, hlow, hhigh⟩ := hfirst
    cases hold' : existingAlert alerts second with
    | some old' =>
      rw [hold'] at hsecond
      obtain ⟨hmem', _⟩ := existingAlert_eq_some hold'
      obtain ⟨uuid', hsome', hlt⟩ := hissued old' hmem'
      have heq : uuid = uuid' := by
        rw [← some.injEq, ← hsome, ← hsome', huuid, hsecond.1]
      omega
    | none =>
      rw [hold'] at hsecond
      obtain ⟨uuid', hsome', hlow', _⟩ := hsecond
      have heq : uuid = uuid' := by
        rw [← some.injEq, ← hsome, ← hsome', huuid]
      omega

theorem handleAlerts_uuids {next : ℕ} {order : List Alert}
    (hissued : ∀ alert ∈ alerts, ∃ uuid, alert.uuid = some uuid ∧ uuid < next)
    (huuids : (alerts.map Alert.uuid).Nodup)
    (hidentities : (order.map Alert.identity).Nodup) :
    ((handleAlerts alerts now next order).1.map Alert.uuid).Nodup := by
  induction order generalizing next with
  | nil => simp [handleAlerts]
  | cons alert rest ih =>
    rw [map_cons, nodup_cons] at hidentities
    have hnext := handleAlert_next_le alerts now next alert
    have hissued' : ∀ old ∈ alerts, ∃ uuid, old.uuid = some uuid ∧
        uuid < (handleAlert alerts now next alert).2 := by
      intro old hold
      obtain ⟨uuid, hsome, hlt⟩ := hissued old hold
      exact ⟨uuid, hsome, by omega⟩
    simp only [handleAlerts, map_cons, nodup_cons]
    constructor
    · intro hmem
      obtain ⟨later, hlater, huuid⟩ := List.mem_map.mp hmem
      have hne : (handleAlert alerts now next alert).1.identity ≠ later.identity := by
        rw [handleAlert_identity]
        intro hsame
        apply hidentities.1
        rw [hsame, ← handleAlerts_identity alerts now (handleAlert alerts now next alert).2 rest]
        exact List.mem_map_of_mem hlater
      exact Continues.uuid_ne hissued huuids (handleAlert_continues alerts now next alert)
        (handleAlerts_continues alerts now _ rest later hlater) hnext hne
        huuid.symm
    · exact ih hissued' hidentities.2

end

/-! ## One turn keeps the alerts well-formed -/

section

variable {env : AlertEnvironment} {s : AlertState} {name : String}
  {source : AlertSource}

def turnOrder (env : AlertEnvironment) (s : AlertState) (name : String)
    (source : AlertSource) : List Alert :=
  handlingOrder ((thisNodeAlerts env s.alerts name).map (Alert.onNode env.failover.thisNode))
    ((otherNodeAlerts env s.alerts name source).map (Alert.onNode env.failover.otherNode))

def turnHandled (env : AlertEnvironment) (s : AlertState) (name : String)
    (source : AlertSource) : List Alert × ℕ :=
  handleAlerts s.alerts (env.turns name).now s.nextUuid (turnOrder env s name source)

theorem runTurn_of_selects (hselects : env.selects name source = true) : runTurn env s name source =
    { alerts :=
        s.alerts.filter (fun alert => alert.source ≠ some name) ++
          (turnHandled env s name source).1.filter
            (fun alert => alert.node = some env.failover.thisNode) ++
          (turnHandled env s name source).1.filter
            (fun alert => alert.node = some env.failover.otherNode)
      nextUuid := (turnHandled env s name source).2 } := by
  simp [runTurn, hselects, turnHandled, turnOrder]

theorem handlingOrder_perm (alerts others : List Alert) :
    (handlingOrder alerts others).Perm (alerts ++ others) := by
  induction alerts, others using handlingOrder.induct with
  | case1 others => simp [handlingOrder]
  | case2 alert rest => simp [handlingOrder]
  | case3 alert rest other others ih =>
    apply List.Perm.cons
    exact (ih.cons other).trans perm_middle.symm

theorem nodup_identities_of_keys (hkeys : (alerts.map Alert.key).Nodup) :
    (alerts.map Alert.identity).Nodup := by
  apply List.Nodup.of_map (fun identity => identity.2.2.2)
  simpa [Alert.identity, comp_def] using hkeys

theorem SourceAnswers.identities {given : List Alert}
    (hanswers : SourceAnswers name returned given) (node : AlertNode) :
    ((given.map (Alert.onNode node)).map Alert.identity).Nodup := by
  apply nodup_identities_of_keys
  simpa [Alert.onNode, comp_def] using hanswers.keys

variable {node : AlertNode}

theorem mem_sourceAlertsOn : alert ∈ sourceAlertsOn alerts name node ↔
    alert ∈ alerts ∧ alert.source = some name ∧ alert.node = some node := by
  simp [sourceAlertsOn]

theorem sourceAlertsOn_identities
    (hidentities : (alerts.map Alert.identity).Nodup) (node : AlertNode) :
    (((sourceAlertsOn alerts name node).map (Alert.onNode node)).map Alert.identity).Nodup := by
  have hsame : (sourceAlertsOn alerts name node).map (Alert.onNode node) =
      sourceAlertsOn alerts name node := by
    have hself : ∀ alert ∈ sourceAlertsOn alerts name node, alert.onNode node = alert := by
      intro alert hmem
      simp [Alert.onNode, ← (mem_sourceAlertsOn.mp hmem).2.2]
    rw [map_congr_left hself]
    exact List.map_id _
  rw [hsame]
  exact hidentities.sublist (filter_sublist.map Alert.identity)

theorem runOtherNodeAlertSource_answers_nil (classes : Dict String AlertClass)
    (name : String) (remote : RemoteOutcome) :
    SourceAnswers name [] (runOtherNodeAlertSource classes name remote) := by
  have hnil : SourceAnswers name [] [] := ⟨by simp, by simp, by simp⟩
  cases remote with
  | networkError => exact hnil
  | reserveFdException => exact hnil
  | raised message => exact .failure name message
  | answered check =>
    have hlocal := (runSourceAlerts_answers name check).of_nil
    simp only [runOtherNodeAlertSource]
    cases hrun : runSourceAlerts name check with
    | none => exact hnil
    | some given =>
      rw [hrun, getD_some] at hlocal
      cases hrebuilt : given.mapM (remoteAlert classes) with
      | ok rebuilt =>
        simp only [hrebuilt]
        exact hlocal.rebuild (by simp) hrebuilt
      | error message =>
        simp only [hrebuilt]
        exact .failure name message

theorem thisNodeAlerts_source (hmem : alert ∈ thisNodeAlerts env s.alerts name) :
    alert.source = some name := by
  unfold thisNodeAlerts at hmem
  split at hmem
  · exact (mem_sourceAlertsOn.mp hmem).2.1
  · exact (runSourceAlerts_answers name _).source alert hmem

theorem otherNodeAlerts_source (hmem : alert ∈ otherNodeAlerts env s.alerts name source) :
    alert.source = some name := by
  unfold otherNodeAlerts at hmem
  split at hmem
  · exact (mem_sourceAlertsOn.mp hmem).2.1
  · split at hmem
    · exact (runOtherNodeAlertSource_answers_nil _ name _).source alert hmem
    · simp at hmem

theorem thisNodeAlerts_identities (hidentities : (s.alerts.map Alert.identity).Nodup) :
    (((thisNodeAlerts env s.alerts name).map
      (Alert.onNode env.failover.thisNode)).map Alert.identity).Nodup := by
  unfold thisNodeAlerts
  split
  · exact sourceAlertsOn_identities hidentities _
  · exact (runSourceAlerts_answers name _).identities _

theorem otherNodeAlerts_identities (hidentities : (s.alerts.map Alert.identity).Nodup) :
    (((otherNodeAlerts env s.alerts name source).map
      (Alert.onNode env.failover.otherNode)).map Alert.identity).Nodup := by
  unfold otherNodeAlerts
  split
  · exact sourceAlertsOn_identities hidentities _
  · split
    · exact (runOtherNodeAlertSource_answers_nil _ name _).identities _
    · simp

theorem mem_turnOrder : alert ∈ turnOrder env s name source ↔
    (∃ given ∈ thisNodeAlerts env s.alerts name, given.onNode env.failover.thisNode = alert) ∨
    ∃ given ∈ otherNodeAlerts env s.alerts name source,
      given.onNode env.failover.otherNode = alert := by
  simp [turnOrder, (handlingOrder_perm _ _).mem_iff]

theorem turnOrder_source (hmem : alert ∈ turnOrder env s name source) :
    alert.source = some name := by
  rcases mem_turnOrder.mp hmem with ⟨given, hgiven, rfl⟩ | ⟨given, hgiven, rfl⟩
  · have hsource := thisNodeAlerts_source hgiven
    simpa [Alert.onNode] using hsource
  · have hsource := otherNodeAlerts_source hgiven
    simpa [Alert.onNode] using hsource

theorem turnOrder_node (hmem : alert ∈ turnOrder env s name source) :
    alert.node = some env.failover.thisNode ∨ alert.node = some env.failover.otherNode := by
  rcases mem_turnOrder.mp hmem with ⟨given, _, rfl⟩ | ⟨given, _, rfl⟩
  · exact .inl rfl
  · exact .inr rfl

theorem turnOrder_identities (hidentities : (s.alerts.map Alert.identity).Nodup) :
    ((turnOrder env s name source).map Alert.identity).Nodup := by
  rw [turnOrder, ((handlingOrder_perm _ _).map Alert.identity).nodup_iff, map_append, nodup_append']
  refine ⟨thisNodeAlerts_identities hidentities, otherNodeAlerts_identities hidentities, ?_⟩
  intro identity hthis hother
  simp only [List.map_map, List.mem_map, comp_apply] at hthis hother
  obtain ⟨first, _, rfl⟩ := hthis
  obtain ⟨second, _, hsame⟩ := hother
  have hnode : env.failover.otherNode = env.failover.thisNode := by
    simpa [Alert.identity, Alert.onNode] using congrArg Prod.fst hsame
  exact AlertNode.other_ne _ hnode

theorem exists_order_of_mem_handled (hmem : alert ∈ (turnHandled env s name source).1) :
    ∃ given ∈ turnOrder env s name source, given.identity = alert.identity := by
  have hidentity := List.mem_map_of_mem (f := Alert.identity) hmem
  rw [turnHandled, handleAlerts_identity] at hidentity
  exact List.mem_map.mp hidentity

theorem turnHandled_source (hmem : alert ∈ (turnHandled env s name source).1) :
    alert.source = some name := by
  obtain ⟨given, hgiven, hsame⟩ := exists_order_of_mem_handled hmem
  have hsource : given.source = alert.source := congrArg (fun identity => identity.2.1) hsame
  rw [← hsource]
  exact turnOrder_source hgiven

theorem turnHandled_node (hmem : alert ∈ (turnHandled env s name source).1) :
    alert.node = some env.failover.otherNode ↔ ¬ alert.node = some env.failover.thisNode := by
  obtain ⟨given, hgiven, hsame⟩ := exists_order_of_mem_handled hmem
  have hnode : given.node = alert.node := congrArg Prod.fst hsame
  have hne : env.failover.otherNode ≠ env.failover.thisNode := AlertNode.other_ne _
  rw [← hnode]
  rcases turnOrder_node hgiven with hthis | hother
  · simp [hthis, hne.symm]
  · simp [hother, hne]

theorem runTurn_perm (hselects : env.selects name source = true) :
    (runTurn env s name source).alerts.Perm
      (s.alerts.filter (fun alert => alert.source ≠ some name) ++
        (turnHandled env s name source).1) := by
  rw [runTurn_of_selects hselects, append_assoc]
  apply List.Perm.append_left
  have hother : (turnHandled env s name source).1.filter
        (fun alert => alert.node = some env.failover.otherNode) =
      (turnHandled env s name source).1.filter
        (fun alert => !decide (alert.node = some env.failover.thisNode)) := by
    apply filter_congr
    intro alert hmem
    simp [turnHandled_node hmem]
  rw [hother]
  exact filter_append_perm _ _

theorem mem_runTurn_iff (hselects : env.selects name source = true) :
    alert ∈ (runTurn env s name source).alerts ↔ (alert ∈ s.alerts ∧ alert.source ≠ some name) ∨
        alert ∈ (turnHandled env s name source).1 := by
  simp [(runTurn_perm hselects).mem_iff]

theorem runTurn_of_not_selects (hselects : env.selects name source = false) :
    runTurn env s name source = s := by
  simp [runTurn, hselects]

theorem turnHandled_continues (hmem : alert ∈ (turnHandled env s name source).1) :
    Continues s.alerts s.nextUuid (turnHandled env s name source).2 alert :=
  handleAlerts_continues _ _ _ _ alert hmem

theorem Continues.issued {next : ℕ}
    (hcontinues : Continues s.alerts s.nextUuid next alert) (hwf : s.WellFormed)
    (hnext : s.nextUuid ≤ next) :
    ∃ uuid, alert.uuid = some uuid ∧ uuid < next := by
  unfold Continues at hcontinues
  cases hold : existingAlert s.alerts alert with
  | none =>
    rw [hold] at hcontinues
    obtain ⟨uuid, huuid, _, hlt⟩ := hcontinues
    exact ⟨uuid, huuid, hlt⟩
  | some old =>
    rw [hold] at hcontinues
    obtain ⟨uuid, huuid, hlt⟩ := hwf.issued old (existingAlert_eq_some hold).1
    exact ⟨uuid, hcontinues.1.trans huuid, by omega⟩

theorem turnHandled_issued (hwf : s.WellFormed) (hmem : alert ∈ (turnHandled env s name source).1) :
    ∃ uuid, alert.uuid = some uuid ∧ uuid < (turnHandled env s name source).2 :=
  (turnHandled_continues hmem).issued hwf (handleAlerts_next_le _ _ _ _)

theorem turnHandled_uuid_ne (hwf : s.WellFormed) {other : Alert}
    (hmem : alert ∈ (turnHandled env s name source).1)
    (hother : other ∈ s.alerts) (hsource : other.source ≠ some name) :
    other.uuid ≠ alert.uuid := by
  intro huuid
  have hcontinues := turnHandled_continues hmem
  unfold Continues at hcontinues
  cases hold : existingAlert s.alerts alert with
  | none =>
    rw [hold] at hcontinues
    obtain ⟨uuid, hsome, hle, _⟩ := hcontinues
    obtain ⟨uuid', hsome', hlt⟩ := hwf.issued other hother
    have heq : uuid = uuid' := by
      rw [← some.injEq, ← hsome, ← hsome', huuid]
    omega
  | some old =>
    rw [hold] at hcontinues
    obtain ⟨hmemOld, hsame⟩ := existingAlert_eq_some hold
    have heq : other = old := inj_on_of_nodup_map hwf.uuids hother hmemOld
        (huuid.trans hcontinues.1)
    have holdSource : old.source = alert.source := congrArg (fun identity => identity.2.1) hsame
    rw [heq, holdSource, turnHandled_source hmem] at hsource
    exact hsource rfl

theorem AlertState.WellFormed.runTurn (hwf : s.WellFormed) :
    (runTurn env s name source).WellFormed := by
  cases hselects : env.selects name source with
  | false =>
    rw [runTurn_of_not_selects hselects]
    exact hwf
  | true =>
    have hperm := runTurn_perm (s := s) hselects
    have hnext : (Middlewared.runTurn env s name source).nextUuid =
        (turnHandled env s name source).2 := by
      rw [runTurn_of_selects hselects]
    have hle : s.nextUuid ≤ (turnHandled env s name source).2 := handleAlerts_next_le _ _ _ _
    constructor
    · intro alert hmem
      rw [hnext]
      rcases (mem_runTurn_iff hselects).mp hmem with ⟨hold, _⟩ | hhandled
      · obtain ⟨uuid, huuid, hlt⟩ := hwf.issued alert hold
        exact ⟨uuid, huuid, by omega⟩
      · exact turnHandled_issued hwf hhandled
    · rw [(hperm.map Alert.uuid).nodup_iff, map_append, nodup_append']
      refine ⟨hwf.uuids.sublist (filter_sublist.map Alert.uuid),
        handleAlerts_uuids _ hwf.issued hwf.uuids (turnOrder_identities hwf.identities), ?_⟩
      intro uuid hkept hhandled
      obtain ⟨old, hold, rfl⟩ := List.mem_map.mp hkept
      obtain ⟨alert, halert, huuid⟩ := List.mem_map.mp hhandled
      simp only [mem_filter, decide_eq_true_eq] at hold
      exact turnHandled_uuid_ne hwf halert hold.1 hold.2 huuid.symm
    · rw [(hperm.map Alert.identity).nodup_iff, map_append, nodup_append']
      refine ⟨hwf.identities.sublist (filter_sublist.map Alert.identity), ?_, ?_⟩
      · rw [turnHandled, handleAlerts_identity]
        exact turnOrder_identities hwf.identities
      · intro identity hkept hhandled
        obtain ⟨old, hold, rfl⟩ := List.mem_map.mp hkept
        obtain ⟨alert, halert, hsame⟩ := List.mem_map.mp hhandled
        simp only [mem_filter, decide_eq_true_eq] at hold
        apply hold.2
        rw [← turnHandled_source halert]
        exact (congrArg (fun identity => identity.2.1) hsame).symm

/-! ## What one turn does for its own and for other sources -/

theorem mem_runTurn_of_source_ne (hsource : alert.source ≠ some name) :
    alert ∈ (runTurn env s name source).alerts ↔ alert ∈ s.alerts := by
  cases hselects : env.selects name source with
  | false => rw [runTurn_of_not_selects hselects]
  | true =>
    rw [mem_runTurn_iff hselects]
    constructor
    · rintro (⟨hmem, _⟩ | hhandled)
      · exact hmem
      · exact absurd (turnHandled_source hhandled) hsource
    · intro hmem
      exact .inl ⟨hmem, hsource⟩

theorem runTurn_keeps (hwf : s.WellFormed) {old : Alert} (hold : old ∈ s.alerts)
    (hmem : alert ∈ (runTurn env s name source).alerts)
    (hsame : old.identity = alert.identity) :
    alert.uuid = old.uuid ∧ alert.datetime = old.datetime ∧ alert.dismissed = old.dismissed := by
  have hunchanged : alert ∈ s.alerts → alert = old := by
    intro halert
    exact inj_on_of_nodup_map hwf.identities halert hold hsame.symm
  cases hselects : env.selects name source with
  | false =>
    rw [runTurn_of_not_selects hselects] at hmem
    simp [hunchanged hmem]
  | true =>
    rcases (mem_runTurn_iff hselects).mp hmem with ⟨halert, _⟩ | hhandled
    · simp [hunchanged halert]
    · have hcontinues := turnHandled_continues hhandled
      unfold Continues at hcontinues
      rw [existingAlert_of_mem hwf.identities hold hsame] at hcontinues
      exact hcontinues

theorem mem_identities_runTurn_iff_order
    (hselects : env.selects name source = true) {klass : AlertClass}
    {key : String} : (some node, some name, klass, key) ∈
      (runTurn env s name source).alerts.map Alert.identity ↔
    ∃ given ∈ turnOrder env s name source,
      given.identity = (some node, some name, klass, key) := by
  rw [((runTurn_perm hselects).map Alert.identity).mem_iff, map_append,
    mem_append, turnHandled, handleAlerts_identity, List.mem_map]
  constructor
  · rintro (⟨old, hold, hidentity⟩ | hgiven)
    · simp only [mem_filter, decide_eq_true_eq] at hold
      exact absurd (congrArg (fun identity => identity.2.1) hidentity) hold.2
    · exact List.mem_map.mp hgiven
  · intro hgiven
    exact .inr (List.mem_map.mpr hgiven)

def givenOn (env : AlertEnvironment) (s : AlertState) (name : String)
    (source : AlertSource) (node : AlertNode) : List Alert :=
  if node = env.failover.thisNode then thisNodeAlerts env s.alerts name
  else otherNodeAlerts env s.alerts name source

theorem AlertNode.eq_other_of_ne {this : AlertNode} (hne : node ≠ this) : node = this.other := by
  cases node <;> cases this <;> simp_all [AlertNode.other]

theorem givenOn_answers (hregistered : env.Registered)
    (hblocked : (env.turns name).blocked = false) (node : AlertNode) :
    SourceAnswers name (returnedOn env name source node) (givenOn env s name source node) := by
  unfold givenOn
  split
  · rename_i hnode
    rw [hnode]
    exact thisNodeAlerts_answers hblocked
  · rename_i hnode
    rw [AlertNode.eq_other_of_ne hnode]
    exact otherNodeAlerts_answers hregistered hblocked

theorem mem_identities_runTurn_iff (hselects : env.selects name source = true)
    {klass : AlertClass} {key : String} : (some node, some name, klass, key) ∈
      (runTurn env s name source).alerts.map Alert.identity ↔
    ∃ given ∈ givenOn env s name source node, given.klass = klass ∧ given.key = key := by
  rw [mem_identities_runTurn_iff_order hselects]
  have hother : env.failover.otherNode ≠ env.failover.thisNode := AlertNode.other_ne _
  constructor
  · rintro ⟨alert, halert, hidentity⟩
    simp only [Alert.identity, Prod.mk.injEq] at hidentity
    rcases mem_turnOrder.mp halert with
      ⟨given, hgiven, rfl⟩ | ⟨given, hgiven, rfl⟩
    · have hnode : env.failover.thisNode = node := by
        simpa [Alert.onNode] using hidentity.1
      exact ⟨given, by simpa [givenOn, hnode] using hgiven, hidentity.2.2⟩
    · have hnode : env.failover.otherNode = node := by
        simpa [Alert.onNode] using hidentity.1
      subst node
      exact ⟨given, by simpa [givenOn, hother] using hgiven, hidentity.2.2⟩
  · rintro ⟨given, hgiven, hklass, hkey⟩
    unfold givenOn at hgiven
    split at hgiven
    · rename_i hnode
      refine ⟨given.onNode env.failover.thisNode, mem_turnOrder.mpr (.inl ⟨given, hgiven, rfl⟩), ?_⟩
      simp [Alert.identity, Alert.onNode, hnode, hklass, hkey, thisNodeAlerts_source hgiven]
    · rename_i hnode
      refine ⟨given.onNode env.failover.otherNode,
        mem_turnOrder.mpr (.inr ⟨given, hgiven, rfl⟩), ?_⟩
      simp [Alert.identity, Alert.onNode, AlertNode.eq_other_of_ne hnode,
        hklass, hkey, otherNodeAlerts_source hgiven,
        AlertFailoverInfo.otherNode]

theorem runTurn_returned_iff (hregistered : env.Registered)
    (hselects : env.selects name source = true)
    (hblocked : (env.turns name).blocked = false) (node : AlertNode) :
    (∀ alert ∈ returnedOn env name source node, (some node, some name, alert.klass, alert.key) ∈
          (runTurn env s name source).alerts.map Alert.identity) ↔
      ∀ first ∈ returnedOn env name source node, ∀ second ∈ returnedOn env name source node,
          first.key = second.key → first.klass = second.klass := by
  have hanswers : SourceAnswers name (returnedOn env name source node)
      (givenOn env s name source node) := givenOn_answers hregistered hblocked node
  constructor
  · intro hall first hfirst second hsecond hkey
    obtain ⟨given, hgiven, hklass, hgivenKey⟩ :=
      (mem_identities_runTurn_iff hselects).mp (hall first hfirst)
    obtain ⟨given', hgiven', hklass', hgivenKey'⟩ :=
      (mem_identities_runTurn_iff hselects).mp (hall second hsecond)
    have hsame : given = given' := inj_on_of_nodup_map hanswers.keys hgiven hgiven'
        (by rw [hgivenKey, hgivenKey', hkey])
    rw [← hklass, ← hklass', hsame]
  · intro hone alert halert
    obtain ⟨kept, hkept, hkey, origin, horigin, horiginKey, horiginKlass⟩ :=
      hanswers.covers alert halert
    have hklass := hone origin horigin alert halert (horiginKey.trans hkey)
    exact (mem_identities_runTurn_iff hselects).mpr
      ⟨kept, hkept, horiginKlass.symm.trans hklass, hkey⟩

end

end Middlewared
