import Middlewared.AlertProcess

/-!
# Alerts across a restart

`flush_alerts` writes the alerts to a table and `initialize` reads them back: it drops the alerts
of sources and classes that are no longer known, rebuilds the others from their rows and groups
them by class.
-/

namespace Middlewared

open Option List Dict

/-- A row of `system.alert`; the mail of an alert is not stored. -/
structure AlertRow where
  node : Option AlertNode
  source : Option String
  key : String
  (datetime lastOccurrence : Option DateTime)
  text : String
  args : Json
  dismissed : Option Bool
  uuid : Option ℕ
  klass : String

def Alert.toRow (alert : Alert) : AlertRow where
  node := alert.node
  source := alert.source
  key := alert.key
  datetime := alert.datetime
  lastOccurrence := alert.lastOccurrence
  text := alert.text
  args := alert.args
  dismissed := alert.dismissed
  uuid := alert.uuid
  klass := alert.klass.name

/-- `flush_alerts`: the standby node of a licensed pair writes nothing. -/
def flushAlerts (licensed backup : Bool) (alerts : List Alert)
    (stored : List AlertRow) : List AlertRow :=
  if licensed && backup then stored else alerts.map Alert.toRow

/-- What is registered when the service starts; `load` are the `load` methods
of the one-shot classes. -/
structure AlertRegistry where
  sources : Dict String AlertSource
  classes : Dict String AlertClass
  load : AlertClass → List Alert → List Alert

variable (registry : AlertRegistry)

def rowToAlert (row : AlertRow) : Option Alert :=
  if row.source.elim false (fun source => source ≠ "" && decide (source ∉ registry.sources)) then
    none
  else
    match registry.classes.get? row.klass with
    | none => none
    | some klass =>
      some (.init klass row.args none row.datetime row.lastOccurrence
        row.node row.dismissed none row.uuid row.source (some row.key)
        (some row.text))

abbrev AlertGroups := Dict String (List Alert)

def AlertGroups.append (groups : AlertGroups) (alert : Alert) : AlertGroups :=
  groups.set alert.klass.name ((groups.get? alert.klass.name).getD [] ++ [alert])

/-- The loop over the rows: `seen` are the identifiers so far. -/
def collectAlerts : List (Option ℕ) → AlertGroups → List AlertRow → AlertGroups
  | _, groups, [] => groups
  | seen, groups, row :: rest =>
    match rowToAlert registry row with
    | none => collectAlerts seen groups rest
    | some alert =>
      if alert.uuid ∈ seen then collectAlerts seen groups rest
      else collectAlerts (alert.uuid :: seen) (groups.append alert) rest

/-- `isinstance(klass, OneShotAlertClass)` is asked of the class itself.  A
class is an instance of its metaclass, never of a class it inherits from. -/
def isinstanceOneShot (_klass : AlertClass) : Bool :=
  false

def loadGroup (alerts : List Alert) : List Alert :=
  match alerts with
  | [] => []
  | first :: rest =>
    if isinstanceOneShot first.klass then
      registry.load first.klass (first :: rest)
    else first :: rest

/-- `initialize(load=True)`, as far as the alerts go. -/
def initializeAlerts (stored : List AlertRow) : List Alert :=
  (collectAlerts registry [] Dict.empty stored).entries.flatMap fun entry =>
    loadGroup registry entry.2

/-! ## Reading back what was written -/

/-- What the constructor of an alert sees to, and no later assignment
undoes. -/
structure Alert.Built (alert : Alert) : Prop where
  text : alert.text = "" → orText alert.klass.text alert.klass.title = ""
  lastOccurrence : alert.lastOccurrence = none → alert.datetime = none

theorem Alert.init_built (klass : AlertClass) (args : Json) (key : Option Json)
    (datetime lastOccurrence : Option DateTime) (node : Option AlertNode)
    (dismissed : Option Bool) (mail : Option Json) (uuid : Option ℕ)
    (source dumpedKey text : Option String) :
    (Alert.init klass args key datetime lastOccurrence node dismissed mail uuid
      source dumpedKey text).Built := by
  constructor
  · intro htext
    simp only [Alert.init, orText] at htext ⊢
    split at htext
    · split at htext
      · exact htext
      · rename_i hne
        exact absurd htext hne
    · exact htext
  · intro hlast
    simp only [Alert.init, or_eq_none_iff] at hlast
    exact hlast.2

def Alert.withoutMail (alert : Alert) : Alert :=
  { alert with mail := none }

def AlertRegistry.Knows (registry : AlertRegistry) (alert : Alert) : Prop :=
  (∀ source, alert.source = some source → source ≠ "" → source ∈ registry.sources) ∧
  registry.classes.get? alert.klass.name = some alert.klass

variable {registry : AlertRegistry}

theorem rowToAlert_toRow {alert : Alert} (hknows : registry.Knows alert) (hbuilt : alert.Built) :
    rowToAlert registry alert.toRow = some alert.withoutMail := by
  have hsource : alert.toRow.source.elim false
      (fun source => source ≠ "" && decide (source ∉ registry.sources)) = false := by
    cases hsome : alert.source with
    | none => simp [Alert.toRow, hsome]
    | some source =>
      have hregistered := hknows.1 source hsome
      simp only [Alert.toRow, hsome, elim_some]
      simpa using hregistered
  have htext : orText (some alert.text)
      (orText alert.klass.text alert.klass.title) = alert.text := by
    unfold orText
    split
    · split
      · rename_i text htext hempty
        cases htext
        rw [hempty]
        exact hbuilt.text hempty
      · rename_i text htext _
        cases htext
        rfl
    · rename_i hnone
      cases hnone
  have hlast : alert.lastOccurrence.or alert.datetime = alert.lastOccurrence := by
    cases hsome : alert.lastOccurrence with
    | none => simp [hbuilt.lastOccurrence hsome]
    | some last => rfl
  unfold rowToAlert
  rw [hsource]
  simp [Alert.toRow, hknows.2, Alert.init, Alert.withoutMail, htext, hlast]

theorem collectAlerts_cons (seen : List (Option ℕ)) (groups : AlertGroups)
    (row : AlertRow) (rest : List AlertRow) :
    collectAlerts registry seen groups (row :: rest) =
      match rowToAlert registry row with
      | none => collectAlerts registry seen groups rest
      | some alert =>
        if alert.uuid ∈ seen then collectAlerts registry seen groups rest
        else collectAlerts registry (alert.uuid :: seen) (groups.append alert) rest :=
  rfl

theorem collectAlerts_map_toRow {alerts : List Alert} (hrow : ∀ alert ∈ alerts,
      rowToAlert registry alert.toRow = some alert.withoutMail)
    (hnodup : (alerts.map Alert.uuid).Nodup) (seen : List (Option ℕ))
    (hseen : ∀ alert ∈ alerts, alert.uuid ∉ seen) (groups : AlertGroups) :
    collectAlerts registry seen groups (alerts.map Alert.toRow) =
      (alerts.map Alert.withoutMail).foldl AlertGroups.append groups := by
  induction alerts generalizing seen groups with
  | nil => rfl
  | cons alert rest ih =>
    rw [map_cons, nodup_cons] at hnodup
    have hnew : alert.withoutMail.uuid ∉ seen := hseen alert mem_cons_self
    have hrest : ∀ other ∈ rest, rowToAlert registry other.toRow = some other.withoutMail := by
      intro other hother
      exact hrow other (mem_cons_of_mem alert hother)
    have hseen' : ∀ other ∈ rest, other.uuid ∉ alert.withoutMail.uuid :: seen := by
      intro other hother
      simp only [mem_cons, not_or]
      constructor
      · intro hsame
        apply hnodup.1
        rw [show alert.uuid = other.uuid from hsame.symm]
        exact List.mem_map_of_mem hother
      · exact hseen other (mem_cons_of_mem alert hother)
    rw [map_cons, map_cons, foldl_cons, collectAlerts_cons, hrow alert mem_cons_self]
    simp only [hnew, if_false]
    exact ih hrest hnodup.2 _ hseen' (groups.append alert.withoutMail)

theorem get?_foldl_append (alerts : List Alert) (groups : AlertGroups) (name : String) :
    ((alerts.foldl AlertGroups.append groups).get? name).getD [] = (groups.get? name).getD [] ++
        alerts.filter fun alert => alert.klass.name = name := by
  induction alerts generalizing groups with
  | nil => simp
  | cons alert rest ih =>
    rw [foldl_cons, ih, AlertGroups.append, get?_set]
    by_cases hname : alert.klass.name = name
    · simp [hname]
    · have hne : ¬ name = alert.klass.name := Ne.symm hname
      simp [hname, hne]

@[simp] theorem loadGroup_eq (alerts : List Alert) :
    loadGroup registry alerts = alerts := by
  cases alerts <;> simp [loadGroup, isinstanceOneShot]

theorem name_of_mem_foldl_append (alerts : List Alert) (groups : AlertGroups)
    (hgroups : ∀ entry ∈ groups.entries, ∀ alert ∈ entry.2, alert.klass.name = entry.1) :
    ∀ entry ∈ (alerts.foldl AlertGroups.append groups).entries,
      ∀ alert ∈ entry.2, alert.klass.name = entry.1 := by
  induction alerts generalizing groups with
  | nil => exact hgroups
  | cons first rest ih =>
    apply ih (groups.append first)
    rintro ⟨name, group⟩ hentry alert hmem
    rw [mem_entries_iff, AlertGroups.append, get?_set] at hentry
    split at hentry
    · rename_i hname
      cases hentry
      rcases mem_append.mp hmem with hold | hnew
      · cases hget : groups.get? first.klass.name with
        | none => simp [hget] at hold
        | some old =>
          rw [hget, getD_some] at hold
          rw [hname]
          exact hgroups (first.klass.name, old) (Dict.mem_entries_iff.mpr hget) alert hold
      · rw [mem_singleton.mp hnew, hname]
    · exact hgroups (name, group) (Dict.mem_entries_iff.mpr hentry) alert hmem

theorem initializeAlerts_filter {alerts : List Alert} (hnodup : (alerts.map Alert.uuid).Nodup)
    (hknows : ∀ alert ∈ alerts, registry.Knows alert)
    (hbuilt : ∀ alert ∈ alerts, alert.Built) (klass : AlertClass) :
    (initializeAlerts registry (alerts.map Alert.toRow)).filter (fun alert => alert.klass = klass) =
      (alerts.filter fun alert => alert.klass = klass).map Alert.withoutMail := by
  have hrow : ∀ alert ∈ alerts, rowToAlert registry alert.toRow = some alert.withoutMail := by
    intro alert hmem
    exact rowToAlert_toRow (hknows alert hmem) (hbuilt alert hmem)
  have hnames := name_of_mem_foldl_append (alerts.map Alert.withoutMail)
    Dict.empty (by simp [Dict.empty])
  unfold initializeAlerts
  rw [collectAlerts_map_toRow hrow hnodup [] (by simp)]
  simp only [loadGroup_eq]
  rw [filter_flatMap_entries (k := klass.name)]
  · rw [get?_foldl_append, get?_empty, getD_none, nil_append, List.filter_filter, List.filter_map]
    congr 1
    apply filter_congr
    intro alert _
    by_cases hklass : alert.klass = klass <;> simp [Alert.withoutMail, hklass]
  · intro entry hentry hne
    apply filter_eq_nil_iff.mpr
    intro alert hmem hklass
    apply hne
    rw [← hnames entry hentry alert hmem]
    exact congrArg AlertClass.name (by simpa using hklass)

/-- The alerts of a one-shot class that its `load` method lets through, all
alerts of the other classes, and no others. -/
structure SurvivesRestart (load : AlertClass → List Alert → List Alert)
    (alerts after : List Alert) : Prop where
  ofClass : ∀ klass ∈ alerts.map Alert.klass,
    ((after.filter fun alert => alert.klass = klass).map Alert.toRow).Perm ((if klass.oneShot then
          load klass ((alerts.filter fun alert => alert.klass = klass).map Alert.withoutMail)
        else alerts.filter fun alert => alert.klass = klass).map Alert.toRow)
  noOther : ∀ alert ∈ after, alert.klass ∈ alerts.map Alert.klass

/-- No `load` method drops, adds or changes an alert. -/
def LoadKeepsAll (load : AlertClass → List Alert → List Alert)
    (alerts : List Alert) : Prop :=
  ∀ klass ∈ alerts.map Alert.klass, klass.oneShot = true →
    ((alerts.filter fun alert => alert.klass = klass).map Alert.toRow).Perm
      ((load klass ((alerts.filter fun alert => alert.klass = klass).map
        Alert.withoutMail)).map Alert.toRow)

theorem map_toRow_withoutMail (alerts : List Alert) :
    (alerts.map Alert.withoutMail).map Alert.toRow = alerts.map Alert.toRow := by
  rw [List.map_map]
  rfl

/-- The `load` methods are never asked, so the alerts survive a restart as
they should exactly when asking would not have changed anything. -/
theorem flush_initialize_survives_iff {alerts : List Alert}
    {stored : List AlertRow} {licensed backup : Bool}
    (hnodup : (alerts.map Alert.uuid).Nodup)
    (hknows : ∀ alert ∈ alerts, registry.Knows alert)
    (hbuilt : ∀ alert ∈ alerts, alert.Built)
    (hactive : (licensed && backup) = false) :
    SurvivesRestart registry.load alerts (initializeAlerts registry
          (flushAlerts licensed backup alerts stored)) ↔
      LoadKeepsAll registry.load alerts := by
  have hfilter := initializeAlerts_filter hnodup hknows hbuilt
  simp only [flushAlerts, hactive, Bool.false_eq_true, if_false]
  constructor
  · intro hsurvives klass hklass honeShot
    have hclass := hsurvives.ofClass klass hklass
    rw [hfilter klass, map_toRow_withoutMail, if_pos honeShot] at hclass
    exact hclass
  · intro hload
    constructor
    · intro klass hklass
      rw [hfilter klass, map_toRow_withoutMail]
      split
      · rename_i honeShot
        exact hload klass hklass honeShot
      · exact List.Perm.refl _
    · intro alert hmem
      have hself : alert ∈ (initializeAlerts registry (alerts.map Alert.toRow)).filter
            (fun other => other.klass = alert.klass) := by
        simp [hmem]
      rw [hfilter alert.klass] at hself
      obtain ⟨old, hold, rfl⟩ := List.mem_map.mp hself
      have hklass : old.klass ∈ alerts.map Alert.klass :=
        List.mem_map_of_mem (mem_of_mem_filter hold)
      exact hklass

def cloudSyncTaskFailedClass : AlertClass where
  name := "CloudSyncTaskFailed"
  title := "Cloud Sync Task Failed"
  text := some "Cloud sync task \"%(name)s\" failed."
  oneShot := true

def zpoolCapacityWarningClass : AlertClass where
  name := "ZpoolCapacityWarning"
  title := "Pool Space Usage Is Above 80%"

def cloudSyncRegistry (taskIds : List String) : AlertRegistry where
  sources := Dict.ofEntries [("ZpoolCapacity", ⟨["COMMUNITY_EDITION"], false, true⟩)]
  classes := Dict.ofEntries [("CloudSyncTaskFailed", cloudSyncTaskFailedClass),
    ("ZpoolCapacityWarning", zpoolCapacityWarningClass)]
  load := fun klass alerts =>
    if klass = cloudSyncTaskFailedClass then
      alerts.filter fun alert => alert.key ∈ taskIds
    else alerts

def cloudSyncAlert : Alert :=
  .init cloudSyncTaskFailedClass
    (.obj [("id", .number "3"), ("name", .str "Backup")]) none (some ⟨10, false⟩)
    (some ⟨20, false⟩) (some .A) (some false) none (some 7) (some "")
    (some "3") none

def zpoolCapacityAlert : Alert :=
  .init zpoolCapacityWarningClass (.obj [("volume", .str "tank"), ("capacity", .number "81")])
    (some (.arr [.str "tank"])) (some ⟨15, false⟩) none (some .A) (some true) none (some 8)
    (some "ZpoolCapacity") none none

theorem cloudSyncRegistry_knows (taskIds : List String) :
    ∀ alert ∈ [cloudSyncAlert, zpoolCapacityAlert], (cloudSyncRegistry taskIds).Knows alert := by
  intro alert hmem
  simp only [mem_cons, not_mem_nil, or_false] at hmem
  rcases hmem with h | h
  · rw [h]
    exact ⟨fun source hsource hne => absurd (some.inj hsource).symm hne, rfl⟩
  · rw [h]
    refine ⟨fun source hsource _ => ?_, rfl⟩
    rw [← some.inj hsource]
    exact mem_cons_self ..

theorem cloudSyncAlert_built : cloudSyncAlert.Built := Alert.init_built _ _ _ _ _ _ _ _ _ _ _ _

theorem cloudSync_task_survives :
    SurvivesRestart (cloudSyncRegistry ["3"]).load [cloudSyncAlert, zpoolCapacityAlert]
      (initializeAlerts (cloudSyncRegistry ["3"])
        (flushAlerts false false [cloudSyncAlert, zpoolCapacityAlert] [])) := by
  apply (flush_initialize_survives_iff (by decide) (cloudSyncRegistry_knows ["3"]) (by
    simp [cloudSyncAlert_built, zpoolCapacityAlert, Alert.init_built]) rfl).mpr
  intro klass hklass honeShot
  simp only [List.map_cons, List.map_nil, mem_cons, not_mem_nil, or_false] at hklass
  rcases hklass with h | h
  · rw [h]
    exact List.Perm.of_eq rfl
  · rw [h] at honeShot
    cases honeShot

/-- The alert of a task that has been deleted is there after the restart. -/
theorem cloudSync_deleted_task_survives :
    ¬ SurvivesRestart (cloudSyncRegistry ["1"]).load [cloudSyncAlert]
      (initializeAlerts (cloudSyncRegistry ["1"])
        (flushAlerts false false [cloudSyncAlert] [])) := by
  intro hsurvives
  have hclass := (hsurvives.ofClass cloudSyncTaskFailedClass (by
    simp [cloudSyncAlert, Alert.init])).length_eq
  have hfilter := initializeAlerts_filter (by simp)
    (fun alert hmem => cloudSyncRegistry_knows ["1"] alert (by simp [mem_singleton.mp hmem]))
    (fun alert hmem => mem_singleton.mp hmem ▸ cloudSyncAlert_built)
  simp only [flushAlerts, Bool.and_self, Bool.false_eq_true, if_false, hfilter] at hclass
  simp [cloudSyncRegistry, cloudSyncAlert, Alert.init, Alert.withoutMail,
    cloudSyncTaskFailedClass] at hclass

end Middlewared
