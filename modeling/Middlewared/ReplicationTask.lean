import Middlewared.PoolDataset
import Middlewared.ValidationErrors

/-!
# Replication tasks and periodic snapshot tasks

The entries of `pool.snapshottask` and `replication`, and what their `_validate` says against an
entry.
-/

namespace Middlewared

open List

-- Named once: every definition below uses it.
local instance lawfulExcludes : LawfulBEq DatasetName := inferInstance

/-- A row of `storage.task`. -/
structure SnapshotTask where
  dataset : DatasetName
  recursive : Bool
  exclude : List DatasetName
  enabled : Bool

inductive ReplicationDirection where
  | push
  | pull
deriving DecidableEq

inductive ReplicationTransport where
  | ssh
  | sshNetcat
  | localhost
deriving DecidableEq

inductive RetentionPolicy where
  | source
  | custom
  | none
deriving DecidableEq

/-- A row of `storage.replication`. -/
structure ReplicationRow where
  name : String
  direction : ReplicationDirection
  transport : ReplicationTransport
  sshCredentials : Option ℕ
  (netcatActiveSide netcatActiveSideListenAddress : Option String)
  (netcatActiveSidePortMin netcatActiveSidePortMax : Option ℕ)
  netcatPassiveSideConnectAddress : Option String
  sourceDatasets : List DatasetName
  recursive : Bool
  exclude : List DatasetName
  (properties replicate encryption : Bool)
  encryptionInherit : Option Bool
  (encryptionKey encryptionKeyFormat encryptionKeyLocation : Option String)
  namingSchema : List String
  nameRegex : Option String
  auto : Bool
  schedule : Option String
  (onlyMatchingSchedule holdPendingSnapshots : Bool)
  retentionPolicy : RetentionPolicy
  lifetimeValue : Option ℕ
  lifetimeUnit : Option String
  lifetimes : List String
  compression : Option String
  speedLimit : Option ℕ
  enabled : Bool

structure ReplicationData extends ReplicationRow where
  alsoIncludeNamingSchema : List String
  periodicSnapshotTasks : List ℕ

namespace ReplicationData

def compress (data : ReplicationData) : ReplicationRow :=
  { data.toReplicationRow with
    namingSchema :=
      if data.direction = .push then data.alsoIncludeNamingSchema
      else data.namingSchema }

theorem compress_namingSchema {data : ReplicationData} (hpush : data.direction = .push) :
    data.compress.namingSchema = data.alsoIncludeNamingSchema :=
  if_pos hpush

end ReplicationData

def ReplicationRow.extend (row : ReplicationRow)
    (periodicSnapshotTasks : List ℕ) : ReplicationData :=
  { row with
    namingSchema := if row.direction = .push then [] else row.namingSchema
    alsoIncludeNamingSchema :=
      if row.direction = .push then row.namingSchema else []
    periodicSnapshotTasks }

/-- `is_child` of names without empty components, `.` and `..`. -/
def DatasetName.isChild (child parent : DatasetName) : Bool :=
  decide (parent <+: child) && ((child.drop parent.length).head?.all fun component =>
      !PyString.startsWith component "..")

/-- `repr` of a dataset name. -/
def DatasetName.pyRepr (name : DatasetName) : String :=
  PyString.repr ("/".intercalate name)

/-- `_validate` of `PeriodicSnapshotTaskService`. -/
def SnapshotTask.validate (data : SnapshotTask)
    (filesystemChoices : List DatasetName) : List VerrorEntry :=
  errorIf (data.dataset ∉ filesystemChoices) "dataset" "Dataset not found" ++
  errorIf (!data.recursive && data.exclude ≠ []) "exclude"
    ("Excluding datasets is not necessary for non-recursive periodic " ++ "snapshot tasks") ++
  data.exclude.zipIdx.flatMap fun entry =>
    errorIf (!decide (entry.1.IsBelow data.dataset)) ("exclude." ++ toString entry.2)
      ("Excluded dataset should be a child or other descendant of the " ++ "selected dataset")

/-- What `_validate` of `ReplicationService` asks of others. -/
structure ReplicationChecks where
  hasRole : String → Bool
  getOfType : ℕ → Option String
  reCompile : String → Option String

namespace ReplicationData

variable (tasks : Dict ℕ SnapshotTask) (data : ReplicationData)

/-- The tasks that `_query_periodic_snapshot_tasks` finds. -/
def snapshotTasks (ids : List ℕ) : List SnapshotTask :=
  ids.filterMap tasks.get?

/-- The errors of `_query_periodic_snapshot_tasks`. -/
def missingSnapshotTasks (ids : List ℕ) : List VerrorEntry :=
  ids.zipIdx.flatMap fun entry =>
    errorIf (entry.1 ∉ tasks) (toString entry.2) "This snapshot task does not exist"

def validatePush : List VerrorEntry :=
  addChild "periodic_snapshot_tasks" (missingSnapshotTasks tasks data.periodicSnapshotTasks) ++
  errorIf (data.namingSchema ≠ []) "naming_schema" "This field has no sense for push replication" ++
  errorIf (snapshotTasks tasks data.periodicSnapshotTasks = [] &&
      data.alsoIncludeNamingSchema = [] && (truthy data.nameRegex).isNone)
    "periodic_snapshot_tasks"
    ("You must at least either bind a periodic snapshot task or provide " ++
      "\"Also Include Naming Schema\" or \"Name Regex\" for push replication " ++
      "task") ++
  errorIf (data.schedule.isNone && data.auto && data.periodicSnapshotTasks = []) "auto"
    ("Push replication that runs automatically must be either " ++
      "bound to a periodic snapshot task or have a schedule")

def validatePull (checks : ReplicationChecks) : List VerrorEntry :=
  errorIf (data.schedule.isNone && data.auto) "auto"
    "Pull replication that runs automatically must have a schedule" ++
  errorIf (data.periodicSnapshotTasks ≠ []) "periodic_snapshot_tasks"
    "Pull replication can't be bound to a periodic snapshot task" ++
  errorIf (data.namingSchema = [] && (truthy data.nameRegex).isNone) "naming_schema"
    "Naming schema or Name regex are required for pull replication" ++
  errorIf (data.alsoIncludeNamingSchema ≠ []) "also_include_naming_schema"
    "This field has no sense for pull replication" ++
  errorIf data.holdPendingSnapshots "hold_pending_snapshots"
    ("Pull replication tasks can't hold pending snapshots because " ++
      "they don't do source retention") ++
  errorIf (checks.hasRole "REPLICATION_TASK_WRITE" &&
      !checks.hasRole "REPLICATION_TASK_WRITE_PULL") "direction"
    "You don't have permissions to use PULL replication"

def validateTransport (checks : ReplicationChecks) : List VerrorEntry :=
  (if data.transport = .sshNetcat then
    errorIf data.netcatActiveSide.isNone "netcat_active_side"
      "You must choose active side for SSH+netcat replication" ++
    errorIf (decide (∃ low ∈ data.netcatActiveSidePortMin,
        ∃ high ∈ data.netcatActiveSidePortMax, high < low))
      "netcat_active_side_port_max"
      ("Please specify value greater than or equal to " ++ "netcat_active_side_port_min") ++
    errorIf data.compression.isSome "compression"
      "Compression is not supported for SSH+netcat replication" ++
    errorIf data.speedLimit.isSome "speed_limit"
      "Speed limit is not supported for SSH+netcat replication"
  else
    [("netcat_active_side", data.netcatActiveSide.isSome), ("netcat_active_side_listen_address",
        data.netcatActiveSideListenAddress.isSome),
      ("netcat_active_side_port_min", data.netcatActiveSidePortMin.isSome),
      ("netcat_active_side_port_max", data.netcatActiveSidePortMax.isSome),
      ("netcat_passive_side_connect_address",
        data.netcatPassiveSideConnectAddress.isSome)].flatMap fun k =>
      errorIf k.2 k.1 "This field only has sense for SSH+netcat replication") ++
  if data.transport = .localhost then
    errorIf data.sshCredentials.isSome "ssh_credentials"
      "Remote credentials have no sense for local replication" ++
    errorIf data.compression.isSome "compression"
      "Compression has no sense for local replication" ++
    errorIf data.speedLimit.isSome "speed_limit" "Speed limit has no sense for local replication"
  else
    match data.sshCredentials with
    | none =>
      [("ssh_credentials", "SSH Credentials are required for non-local replication")]
    | some id =>
      match checks.getOfType id with
      | none => []
      | some error => [("ssh_credentials", error)]

def validateExclude (snapshotTasks : List SnapshotTask) : List VerrorEntry :=
  (data.sourceDatasets.zipIdx.flatMap fun source =>
    snapshotTasks.flatMap fun task =>
      if !source.1.isChild task.dataset then []
      else if data.recursive then
        task.exclude.flatMap fun exclude =>
          errorIf (exclude.isChild source.1 && exclude ∉ data.exclude) "exclude"
            ("You should exclude " ++ exclude.pyRepr ++ " as bound periodic " ++
              "snapshot task dataset " ++ task.dataset.pyRepr ++ " does")
      else
        errorIf (source.1 ∈ task.exclude) ("source_datasets." ++ toString source.2)
          ("Dataset " ++ source.1.pyRepr ++ " is excluded by bound " ++
            "periodic snapshot task for dataset " ++ task.dataset.pyRepr)) ++
  errorIf (!data.recursive && data.exclude ≠ []) "exclude"
    "Excluding child datasets is only supported for recursive replication" ++
  data.exclude.zipIdx.flatMap fun exclude =>
    errorIf (!decide (∃ source ∈ data.sourceDatasets, exclude.1.IsBelow source))
      ("exclude." ++ toString exclude.2)
      "This dataset is not a child of any of source datasets"

def validateReplicate (snapshotTasks : List SnapshotTask) : List VerrorEntry :=
  if !data.replicate then [] else
  errorIf (!data.recursive) "recursive" "This option is required for full filesystem replication" ++
  errorIf (data.exclude ≠ []) "exclude"
    "This option is not supported for full filesystem replication" ++
  errorIf (!data.properties) "properties"
    "This option is required for full filesystem replication" ++
  errorIf (data.retentionPolicy ≠ .source) "retention_policy"
    ("Only `Same as Source` retention policy can be used for full " ++ "filesystem replication") ++
  (data.sourceDatasets.zipIdx.flatMap fun source =>
    data.sourceDatasets.zipIdx.flatMap fun another =>
      errorIf (source.2 ≠ another.2 && source.1.isChild another.1)
        ("source_datasets." ++ toString source.2)
        ("Replication task that replicates the entire filesystem can't " ++
          "replicate both " ++ another.1.pyRepr ++ " and its child " ++
          source.1.pyRepr)) ++
  snapshotTasks.zipIdx.flatMap fun task =>
    errorIf (!data.sourceDatasets.any (fun source => source.isChild task.1.dataset) ||
        !task.1.recursive)
      ("periodic_snapshot_tasks." ++ toString task.2)
      ("Replication tasks that replicate the entire filesystem can only use " ++
        "periodic snapshot tasks that take recursive snapshots of the " ++
        "dataset being replicated (or its ancestor)")

def validateEncryption : List VerrorEntry :=
  if data.encryption && data.encryptionInherit ≠ some true then
    [("encryption_key", data.encryptionKey.isNone),
      ("encryption_key_format", data.encryptionKeyFormat.isNone),
      ("encryption_key_location", data.encryptionKeyLocation.isNone)].flatMap fun k =>
      errorIf k.2 k.1 "This property is required when remote dataset encryption is enabled"
  else []

def validateSchedule : List VerrorEntry :=
  if data.schedule.isSome then
    errorIf (!data.auto) "schedule" ("You can't have schedule for replication that does not run " ++
        "automatically")
  else
    errorIf data.onlyMatchingSchedule "only_matching_schedule"
      "You can't have only-matching-schedule without schedule"

def validateNameRegex (checks : ReplicationChecks) : List VerrorEntry :=
  match truthy data.nameRegex with
  | none => []
  | some nameRegex =>
    (match checks.reCompile ("(" ++ nameRegex ++ ")$") with
    | none => []
    | some error => [("name_regex", "Invalid regex: " ++ error)]) ++
    errorIf (data.namingSchema ≠ [] || data.alsoIncludeNamingSchema ≠ [])
      "name_regex" "Naming regex can't be used with Naming schema" ++
    errorIf (data.retentionPolicy = .custom) "retention_policy"
      ("Only `Same as Source` and `None` retention policies can be used " ++ "with Naming regex")

def validateRetention : List VerrorEntry :=
  if data.retentionPolicy = .custom then
    errorIf data.lifetimeValue.isNone "lifetime_value"
      "This field is required for custom retention policy" ++
    errorIf data.lifetimeUnit.isNone "lifetime_value"
      "This field is required for custom retention policy"
  else
    errorIf data.lifetimeValue.isSome "lifetime_value"
      "This field has no sense for specified retention policy" ++
    errorIf data.lifetimeUnit.isSome "lifetime_unit"
      "This field has no sense for specified retention policy" ++
    errorIf (data.lifetimes ≠ []) "lifetimes"
      "This field has no sense for specified retention policy"

def validateEnabled (snapshotTasks : List SnapshotTask) : List VerrorEntry :=
  if data.enabled then
    snapshotTasks.zipIdx.flatMap fun task =>
      errorIf (!task.1.enabled) ("periodic_snapshot_tasks." ++ toString task.2)
        ("You can't bind disabled periodic snapshot task to enabled " ++ "replication task")
  else []

/-- `_validate` of `ReplicationService`. -/
def validate (replications : Dict ℕ ReplicationRow) (checks : ReplicationChecks)
    (id : Option ℕ) : List VerrorEntry :=
  let snapshotTasks :=
    if data.direction = .push then
      snapshotTasks tasks data.periodicSnapshotTasks
    else []
  errorIf (replications.entries.any fun entry =>
      decide (entry.2.name = data.name) && some entry.1 ≠ id)
    "name" "Object with this name already exists" ++
  (match data.direction with
    | .push => data.validatePush tasks
    | .pull => data.validatePull checks) ++
  data.validateTransport checks ++
  data.validateExclude snapshotTasks ++
  data.validateReplicate snapshotTasks ++
  data.validateEncryption ++
  data.validateSchedule ++
  data.validateNameRegex checks ++
  data.validateRetention ++
  data.validateEnabled snapshotTasks

section

variable {tasks : Dict ℕ SnapshotTask} {data : ReplicationData}

variable {t : ℕ}

theorem mem_tasks_of_missing_nil {ids : List ℕ}
    (hmissing : missingSnapshotTasks tasks ids = []) (ht : t ∈ ids) :
    t ∈ tasks := by
  obtain ⟨i, hi⟩ := flatMap_zipIdx_eq_nil hmissing ht
  rw [errorIf_eq_nil_iff] at hi
  simpa using hi

theorem mem_snapshotTasks {ids : List ℕ} {task : SnapshotTask} (ht : t ∈ ids)
    (htask : tasks.get? t = some task) : task ∈ snapshotTasks tasks ids :=
  List.mem_filterMap.mpr ⟨t, ht, htask⟩

variable {replications : Dict ℕ ReplicationRow} {checks : ReplicationChecks}
  {id : Option ℕ}

variable (hvalid : data.validate tasks replications checks id = [])

include hvalid

theorem mem_tasks_of_validate (ht : t ∈ data.periodicSnapshotTasks) :
    data.direction = .push ∧ t ∈ tasks := by
  simp only [validate, append_eq_nil_iff] at hvalid
  have hdirection := hvalid.1.1.1.1.1.1.1.1.2
  cases hcase : data.direction with
  | push =>
    simp only [hcase, validatePush, append_eq_nil_iff, addChild, map_eq_nil_iff] at hdirection
    exact ⟨rfl, mem_tasks_of_missing_nil hdirection.1.1.1 ht⟩
  | pull =>
    simp only [hcase, validatePull, append_eq_nil_iff, errorIf_eq_nil_iff] at hdirection
    have hnone : data.periodicSnapshotTasks = [] := by
      simpa using hdirection.1.1.1.1.2
    rw [hnone] at ht
    exact absurd ht not_mem_nil

theorem enabled_of_validate (henabled : data.enabled = true) (ht : t ∈ data.periodicSnapshotTasks) :
    ∃ task ∈ tasks.get? t, task.enabled = true := by
  obtain ⟨hpush, hmem⟩ := mem_tasks_of_validate hvalid ht
  obtain ⟨task, htask⟩ := Dict.exists_get?_of_mem hmem
  simp only [validate, append_eq_nil_iff] at hvalid
  have hnone := hvalid.2
  rw [validateEnabled, if_pos henabled, if_pos hpush] at hnone
  obtain ⟨i, hi⟩ := flatMap_zipIdx_eq_nil hnone (mem_snapshotTasks ht htask)
  rw [errorIf_eq_nil_iff] at hi
  exact ⟨task, htask, by simpa using hi⟩

theorem source_of_validate (hpush : data.direction = .push) :
    data.periodicSnapshotTasks ≠ [] ∨ data.alsoIncludeNamingSchema ≠ [] ∨
      (truthy data.nameRegex).isSome := by
  simp only [validate, append_eq_nil_iff] at hvalid
  have hdirection := hvalid.1.1.1.1.1.1.1.1.2
  simp only [hpush, validatePush, append_eq_nil_iff, errorIf_eq_nil_iff] at hdirection
  have hsource := hdirection.1.2
  by_contra hnone
  simp only [not_or, not_not, Bool.not_eq_true, Option.isSome_eq_false_iff] at hnone
  simp [hnone, snapshotTasks] at hsource

end

end ReplicationData

end Middlewared
