import Middlewared.AlertIdentity

/-!
# Runs of the alert sources

The sources take their turns one after another, and a turn leaves the alerts of other sources
alone.
-/

namespace Middlewared

open List

variable {env : AlertEnvironment} {s : AlertState} {name : String}
  {source : AlertSource} {entries : List (String × AlertSource)}

theorem AlertState.WellFormed.runTurns (hwf : s.WellFormed) :
    (runTurns env s entries).WellFormed := by
  induction entries generalizing s with
  | nil => exact hwf
  | cons entry rest ih => exact ih hwf.runTurn

theorem mem_runTurns_of_source {alert : Alert}
    (hsource : ∀ entry ∈ entries, alert.source ≠ some entry.1) :
    alert ∈ (runTurns env s entries).alerts ↔ alert ∈ s.alerts := by
  induction entries generalizing s with
  | nil => rfl
  | cons entry rest ih =>
    have hrest : ∀ other ∈ rest, alert.source ≠ some other.1 := by
      intro other hother
      exact hsource other (mem_cons_of_mem entry hother)
    exact (ih hrest).trans (mem_runTurn_of_source_ne (hsource entry mem_cons_self))

theorem exists_own_turn (env : AlertEnvironment) (s : AlertState)
    (hnodup : (entries.map Prod.fst).Nodup)
    (hmem : (name, source) ∈ entries) :
    ∃ before : AlertState, (s.WellFormed → before.WellFormed) ∧
      ∀ alert : Alert, alert.source = some name → (alert ∈ before.alerts ↔ alert ∈ s.alerts) ∧
        (alert ∈ (runTurns env s entries).alerts ↔
          alert ∈ (runTurn env before name source).alerts) := by
  induction entries generalizing s with
  | nil => simp at hmem
  | cons entry rest ih =>
    rw [map_cons, nodup_cons] at hnodup
    rcases List.mem_cons.mp hmem with heq | hrest
    · subst entry
      refine ⟨s, id, ?_⟩
      intro alert hsource
      constructor
      · rfl
      · rw [runTurns]
        apply mem_runTurns_of_source
        intro other hother hsame
        have hother' : other.1 ∈ rest.map Prod.fst := mem_map_of_mem hother
        rw [hsource, Option.some.injEq] at hsame
        rw [← hsame] at hother'
        exact hnodup.1 hother'
    · obtain ⟨before, hwf, hown⟩ := ih (runTurn env s entry.1 entry.2) hnodup.2 hrest
      refine ⟨before, fun h => hwf h.runTurn, ?_⟩
      intro alert hsource
      have hne : alert.source ≠ some entry.1 := by
        intro hsame
        apply hnodup.1
        rw [hsource, Option.some.injEq] at hsame
        rw [← hsame]
        exact mem_map_of_mem (f := Prod.fst) hrest
      constructor
      · exact (hown alert hsource).1.trans (mem_runTurn_of_source_ne hne)
      · exact (hown alert hsource).2

def AlertEnvironment.Runs (env : AlertEnvironment) (name : String)
    (source : AlertSource) : Prop :=
  env.selects name source = true ∧ (env.turns name).blocked = false

/-- Alerts keep their identity: what the checks returned is there once for its
node, no two alerts share their identity or their identifier, and an alert
that was there before goes on. -/
structure IdentityPreserved (env : AlertEnvironment)
    (sources : Dict String AlertSource) (s : AlertState) : Prop where
  returned : ∀ name source, (name, source) ∈ sources.entries →
    env.Runs name source → ∀ node, ∀ alert ∈ returnedOn env name source node,
      ((runAlerts env sources s).alerts.map Alert.identity).count
        (some node, some name, alert.klass, alert.key) = 1
  identities : ((runAlerts env sources s).alerts.map Alert.identity).Nodup
  uuids : ((runAlerts env sources s).alerts.map Alert.uuid).Nodup
  keeps : ∀ old ∈ s.alerts, ∀ alert ∈ (runAlerts env sources s).alerts,
    old.identity = alert.identity → alert.uuid = old.uuid ∧ alert.datetime = old.datetime ∧
        alert.dismissed = old.dismissed

/-- No check that is run returns two alerts of one key and different
classes. -/
def OneClassPerKey (env : AlertEnvironment)
    (sources : Dict String AlertSource) : Prop :=
  ∀ name source, (name, source) ∈ sources.entries → env.Runs name source →
    ∀ node, ∀ first ∈ returnedOn env name source node, ∀ second ∈ returnedOn env name source node,
        first.key = second.key → first.klass = second.klass

variable {sources : Dict String AlertSource}

theorem runAlerts_returned_iff (hregistered : env.Registered)
    (hmem : (name, source) ∈ sources.entries) (hruns : env.Runs name source)
    (node : AlertNode) : (∀ alert ∈ returnedOn env name source node,
      (some node, some name, alert.klass, alert.key) ∈
        (runAlerts env sources s).alerts.map Alert.identity) ↔
    ∀ first ∈ returnedOn env name source node, ∀ second ∈ returnedOn env name source node,
        first.key = second.key → first.klass = second.klass := by
  obtain ⟨before, _, hown⟩ := exists_own_turn env s sources.nodup hmem
  rw [← runTurn_returned_iff (s := before) hregistered hruns.1 hruns.2 node]
  have hiff : ∀ klass key, (some node, some name, klass, key) ∈
        (runAlerts env sources s).alerts.map Alert.identity ↔
      (some node, some name, klass, key) ∈
        (runTurn env before name source).alerts.map Alert.identity := by
    intro klass key
    simp only [mem_map]
    constructor
    · rintro ⟨alert, halert, hidentity⟩
      have hsource : alert.source = some name := congrArg (fun identity => identity.2.1) hidentity
      exact ⟨alert, (hown alert hsource).2.mp halert, hidentity⟩
    · rintro ⟨alert, halert, hidentity⟩
      have hsource : alert.source = some name := congrArg (fun identity => identity.2.1) hidentity
      exact ⟨alert, (hown alert hsource).2.mpr halert, hidentity⟩
  simp only [hiff]

theorem runAlerts_keeps (hwf : s.WellFormed) {old alert : Alert}
    (hold : old ∈ s.alerts) (hmem : alert ∈ (runAlerts env sources s).alerts)
    (hsame : old.identity = alert.identity) :
    alert.uuid = old.uuid ∧ alert.datetime = old.datetime ∧ alert.dismissed = old.dismissed := by
  have hsource : old.source = alert.source := congrArg (fun identity => identity.2.1) hsame
  by_cases hentry : ∃ entry ∈ sources.entries, alert.source = some entry.1
  · obtain ⟨⟨name, source⟩, hentry, hname⟩ := hentry
    obtain ⟨before, hbefore, hown⟩ := exists_own_turn env s sources.nodup hentry
    exact runTurn_keeps (hbefore hwf) ((hown old (hsource.trans hname)).1.mpr hold)
      ((hown alert hname).2.mp hmem) hsame
  · have hnone : ∀ entry ∈ sources.entries, alert.source ≠ some entry.1 := by
      intro entry hmemEntry hname
      exact hentry ⟨entry, hmemEntry, hname⟩
    have hunchanged := (mem_runTurns_of_source hnone).mp hmem
    have heq := inj_on_of_nodup_map hwf.identities hold hunchanged hsame
    simp [heq]

/-- A run keeps the identity of alerts exactly when no check returns two
alerts of one key and different classes: the second of them is dropped. -/
theorem runAlerts_identityPreserved_iff {sources : Dict String AlertSource}
    (hwf : s.WellFormed) (hregistered : env.Registered) :
    IdentityPreserved env sources s ↔ OneClassPerKey env sources := by
  have hafter : (runAlerts env sources s).WellFormed := hwf.runTurns
  constructor
  · intro hpreserved name source hmem hruns node
    apply (runAlerts_returned_iff (s := s) hregistered hmem hruns node).mp
    intro alert halert
    apply List.count_pos_iff.mp
    rw [hpreserved.returned name source hmem hruns node alert halert]
    exact Nat.one_pos
  · intro hone
    constructor
    · intro name source hmem hruns node alert halert
      apply count_eq_one_of_mem hafter.identities
      exact (runAlerts_returned_iff hregistered hmem hruns node).mpr
        (hone name source hmem hruns node) alert halert
    · exact hafter.identities
    · exact hafter.uuids
    · intro old hold alert halert hsame
      exact runAlerts_keeps hwf hold halert hsame

/-! ### Two checks -/

def aloneOnNodeA (check : CheckOutcome) : AlertEnvironment where
  productType := "ENTERPRISE"
  failover := { thisNode := .A, runOnBackupNode := false, runFailoverRelated := false }
  classes := Dict.empty
  turns := fun _ =>
    { due := true, blocked := false, check, remote := .networkError, now := ⟨1000, false⟩ }

def enterpriseSource (name : String) : Dict String AlertSource :=
  Dict.ofEntries [(name, { products := ["ENTERPRISE"] })]

theorem enterpriseSource_entries (name : String) :
    (name, ({ products := ["ENTERPRISE"] } : AlertSource)) ∈ (enterpriseSource name).entries := by
  rw [Dict.mem_entries_iff, enterpriseSource, Dict.get?_ofEntries]
  simp

theorem aloneOnNodeA_registered (check : CheckOutcome) : (aloneOnNodeA check).Registered := by
  intro name other hremote
  simp [aloneOnNodeA] at hremote

theorem aloneOnNodeA_runs (check : CheckOutcome) (name : String) :
    (aloneOnNodeA check).Runs name { products := ["ENTERPRISE"] } := by
  constructor <;> rfl

def zpoolCapacityClass (level title : String) : AlertClass where
  name := "ZpoolCapacity" ++ level
  title := title

def zpoolAlert (level title pool : String) : Alert :=
  .init (zpoolCapacityClass level title) (.obj [("volume", .str pool), ("capacity", .number "85")])
    (some (.arr [.str pool])) none none none none none none none none none

def tankWarning : Alert :=
  zpoolAlert "Warning" "Pool Space Usage Is Above 80%" "tank"

def dozerNotice : Alert :=
  zpoolAlert "Notice" "Pool Space Usage Is Above 70%" "dozer"

def tankDismissed : AlertState where
  alerts := [{ tankWarning with
        uuid := some 0
        source := some "ZpoolCapacity"
        node := some .A
        datetime := some ⟨10, false⟩
        lastOccurrence := some ⟨500, false⟩
        dismissed := some true }]
  nextUuid := 1

theorem tankDismissed_identityPreserved :
    IdentityPreserved (aloneOnNodeA (.several [tankWarning, dozerNotice]))
      (enterpriseSource "ZpoolCapacity") tankDismissed := by
  apply (runAlerts_identityPreserved_iff _ (aloneOnNodeA_registered _)).mpr
  · intro name source _ _ node first hfirst second hsecond hkey
    have hkeys : tankWarning.key ≠ dozerNotice.key := by decide +kernel
    have hreturned : ∀ alert ∈ returnedOn
        (aloneOnNodeA (.several [tankWarning, dozerNotice])) name source node,
        alert = tankWarning ∨ alert = dozerNotice := by
      intro alert halert
      by_cases hnode : node = .A
      · simpa [returnedOn, aloneOnNodeA, CheckOutcome.returned, hnode] using halert
      · simp [returnedOn, aloneOnNodeA, AlertEnvironment.runsRemote, hnode] at halert
    rcases hreturned first hfirst with rfl | rfl <;> rcases hreturned second hsecond with rfl | rfl
    · rfl
    · exact absurd hkey hkeys
    · exact absurd hkey.symm hkeys
    · rfl
  · constructor <;> simp [tankDismissed]

def nvdimmAlert (name : String) : Alert :=
  .init { name, title := "NVDIMM" }
    (.obj [("dev", .str "nmem0"), ("value", .number "15")]) none none none
    none none none none none none none

def nvdimmCheck : CheckOutcome :=
  .several [nvdimmAlert "NVDIMMMemoryModLifetimeWarning", nvdimmAlert "NVDIMMESLifetimeWarning"]

/-- Two warnings of one module have one key, and the second is dropped. -/
theorem nvdimm_lifetime_dropped : ¬ IdentityPreserved (aloneOnNodeA nvdimmCheck)
    (enterpriseSource "NVDIMMAndBIOS") ⟨[], 0⟩ := by
  intro hpreserved
  have hmem := enterpriseSource_entries "NVDIMMAndBIOS"
  have hruns := aloneOnNodeA_runs nvdimmCheck "NVDIMMAndBIOS"
  have hklass := (runAlerts_returned_iff (s := ⟨[], 0⟩)
    (aloneOnNodeA_registered nvdimmCheck) hmem hruns .A).mp (by
      intro alert halert
      apply List.count_pos_iff.mp
      rw [hpreserved.returned _ _ hmem hruns .A alert halert]
      exact Nat.one_pos)
    (nvdimmAlert "NVDIMMMemoryModLifetimeWarning") (by
      simp [returnedOn, aloneOnNodeA, nvdimmCheck, CheckOutcome.returned])
    (nvdimmAlert "NVDIMMESLifetimeWarning") (by
      simp [returnedOn, aloneOnNodeA, nvdimmCheck, CheckOutcome.returned]) rfl
  exact absurd (congrArg AlertClass.name hklass) (by decide)

/-- The check raised `UnavailableException` on this node, or the run on the
other node failed in one of the ways that are not an answer. -/
def UnavailableOn (env : AlertEnvironment) (name : String)
    (source : AlertSource) (node : AlertNode) : Prop :=
  if node = env.failover.thisNode then (env.turns name).check = .unavailable
  else env.runsRemote source = true ∧ ((env.turns name).remote = .networkError ∨
      (env.turns name).remote = .answered .unavailable)

def Alert.record (alert : Alert) :
    Option ℕ × Option DateTime × Option Bool :=
  (alert.uuid, alert.datetime, alert.dismissed)

theorem givenOn_of_unavailable (hblocked : (env.turns name).blocked = false)
    {node : AlertNode} (hunavailable : UnavailableOn env name source node) :
    givenOn env s name source node = [] := by
  unfold UnavailableOn at hunavailable
  unfold givenOn
  split at hunavailable
  · rename_i hnode
    simp [hnode, thisNodeAlerts, hblocked, hunavailable, runSourceAlerts]
  · rename_i hnode
    rcases hunavailable with ⟨hremote, hnetwork | hanswer⟩
    · simp [hnode, otherNodeAlerts, hblocked, hremote, hnetwork, runOtherNodeAlertSource]
    · simp [hnode, otherNodeAlerts, hblocked, hremote, hanswer,
        runOtherNodeAlertSource, runSourceAlerts]

theorem runAlerts_clears_unavailable (hmem : (name, source) ∈ sources.entries)
    (hruns : env.Runs name source) {node : AlertNode}
    (hunavailable : UnavailableOn env name source node) :
    sourceAlertsOn (runAlerts env sources s).alerts name node = [] := by
  obtain ⟨before, _, hown⟩ := exists_own_turn env s sources.nodup hmem
  apply List.eq_nil_iff_forall_not_mem.mpr
  intro alert halert
  obtain ⟨hafter, hsource, hnode⟩ := mem_sourceAlertsOn.mp halert
  have hidentity : (some node, some name, alert.klass, alert.key) ∈
      (runTurn env before name source).alerts.map Alert.identity := by
    apply mem_map.mpr
    exact ⟨alert, (hown alert hsource).2.mp hafter, by simp [Alert.identity, hsource, hnode]⟩
  obtain ⟨given, hgiven, _⟩ := (mem_identities_runTurn_iff hruns.1).mp hidentity
  rw [givenOn_of_unavailable hruns.2 hunavailable] at hgiven
  simp at hgiven

/-- An unavailable check leaves the alerts of its source as they were only
where there were none. -/
theorem runAlerts_unavailable_iff {sources : Dict String AlertSource}
    (hmem : (name, source) ∈ sources.entries) (hruns : env.Runs name source)
    {node : AlertNode} (hunavailable : UnavailableOn env name source node) :
    (sourceAlertsOn (runAlerts env sources s).alerts name node).map Alert.record =
        (sourceAlertsOn s.alerts name node).map Alert.record ↔
      sourceAlertsOn s.alerts name node = [] := by
  rw [runAlerts_clears_unavailable hmem hruns hunavailable, map_nil, eq_comm, map_eq_nil_iff]

theorem aloneOnNodeA_unavailable (name : String) (source : AlertSource) :
    UnavailableOn (aloneOnNodeA .unavailable) name source .A := by
  simp [UnavailableOn, aloneOnNodeA]

/-- Alerts of the source on the other node, and of another source on this one. -/
def alertsElsewhere : AlertState where
  alerts := tankDismissed.alerts.map (fun alert => { alert with node := some .B }) ++
    tankDismissed.alerts.map fun alert =>
      { alert with uuid := some 1, source := some "VolumeStatus" }
  nextUuid := 2

theorem unavailable_without_alerts :
    (sourceAlertsOn alertsElsewhere.alerts "ZpoolCapacity" .B).length = 1 ∧
    (sourceAlertsOn alertsElsewhere.alerts "VolumeStatus" .A).length = 1 ∧
    (sourceAlertsOn (runAlerts (aloneOnNodeA .unavailable) (enterpriseSource "ZpoolCapacity")
        alertsElsewhere).alerts "ZpoolCapacity" .A).map Alert.record =
      (sourceAlertsOn alertsElsewhere.alerts "ZpoolCapacity" .A).map Alert.record := by
  refine ⟨by decide, by decide, ?_⟩
  exact (runAlerts_unavailable_iff (enterpriseSource_entries "ZpoolCapacity")
    (aloneOnNodeA_runs .unavailable "ZpoolCapacity")
    (aloneOnNodeA_unavailable "ZpoolCapacity" _)).mpr (by decide)

/-- A check that is unavailable takes the dismissed alert away. -/
theorem unavailable_clears_dismissed : UnavailableOn (aloneOnNodeA .unavailable) "ZpoolCapacity"
      { products := ["ENTERPRISE"] } .A ∧
    (sourceAlertsOn (runAlerts (aloneOnNodeA .unavailable)
        (enterpriseSource "ZpoolCapacity") tankDismissed).alerts
        "ZpoolCapacity" .A).map Alert.record ≠
      (sourceAlertsOn tankDismissed.alerts "ZpoolCapacity" .A).map Alert.record := by
  constructor
  · exact aloneOnNodeA_unavailable "ZpoolCapacity" _
  · rw [runAlerts_clears_unavailable (enterpriseSource_entries "ZpoolCapacity")
      (aloneOnNodeA_runs .unavailable "ZpoolCapacity")
      (aloneOnNodeA_unavailable "ZpoolCapacity" _)]
    simp [sourceAlertsOn, tankDismissed]

end Middlewared
