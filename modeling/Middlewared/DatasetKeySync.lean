import Middlewared.PoolDataset

/-!
# Cleaning up stored dataset keys

`sync_db_keys` checks the stored keys in bulk and deletes rows.
-/

namespace Middlewared

open List

/-- A status of `bulk_process`. -/
structure CheckStatus where
  result : Option Bool
  error : Option String

def bulkProcess {α : Type*} (f : α → Except String Bool) (params : List α) :
    List CheckStatus :=
  params.map fun i =>
    match f i with
    | .ok result => { result := some result, error := none }
    | .error error => { result := none, error := some error }

/-- What `sync_db_keys` finds: the rows, the keys KMIP has in memory, the
datasets, the pools, and how `check_key` ends. -/
structure DatasetKeys where
  rows : List EncryptedDatasetRow
  zfsKeys : Dict DatasetName String
  datasets : List Dataset
  pools : List String
  checkKey : DatasetName → String → Except String Bool
  isSingleMasterNode : Bool

namespace DatasetKeys

def notImported (s : DatasetKeys) : List DatasetName :=
  (s.pools.map fun pool => [pool]).filter fun root =>
    decide (root ∉ (poolDatasetQuery s.datasets).map Dataset.name)

def filters (s : DatasetKeys) (name : Option DatasetName)
    (dataset : DatasetName) : Bool :=
  decide (∀ root ∈ name, dataset = root ∨ dataset.IsBelow root) &&
    decide (∀ root ∈ s.notImported, dataset ≠ root ∧ ¬ dataset.IsBelow root)

def dbDatasets (s : DatasetKeys) (name : Option DatasetName) :
    Dict DatasetName String :=
  queryEncryptedRootsKeys s.rows (s.filters name) s.zfsKeys

def encryptedRoots (s : DatasetKeys) (name : Option DatasetName) :
    List DatasetName :=
  ((poolDatasetQuery s.datasets).filter fun dataset =>
    s.filters name dataset.name && dataset.isEncryptionRoot).map Dataset.name

/-- Whether a dataset goes into `to_remove`. -/
def isRemoved (encryptedRoots : List DatasetName) (dataset : DatasetName)
    (status : CheckStatus) : Bool :=
  if status.result.getD false = false then true
  else if (truthy status.error).isSome then
    decide (dataset ∉ encryptedRoots)
  else false

def toRemove (s : DatasetKeys) (name : Option DatasetName) :
    List DatasetName :=
  let params := (s.dbDatasets name).entries
  let statuses := bulkProcess (fun i => s.checkKey i.1 i.2) params
  (params.zip statuses).filterMap fun entry =>
    if isRemoved (s.encryptedRoots name) entry.1.1 entry.2 then
      some entry.1.1
    else none

/-- The rows that are left, and the `kmip.reset_zfs_key` tasks. -/
structure Deletion where
  rows : List EncryptedDatasetRow
  resets : List (DatasetName × String)

def deleteEncryptedDatasetsFromDb (rows : List EncryptedDatasetRow)
    (names : List DatasetName) : Deletion where
  rows := rows.filter fun row => decide (row.name ∉ names)
  resets := (rows.filter fun row => decide (row.name ∈ names)).filterMap
    fun row => (truthy row.kmipUid).map fun uid => (row.name, uid)

/-- `jobError` says whether the bulk job itself fails. -/
def syncDbKeys (s : DatasetKeys) (name : Option DatasetName)
    (jobError : Bool) : Deletion :=
  if s.isSingleMasterNode ∧ jobError = false then
    deleteEncryptedDatasetsFromDb s.rows (s.toRemove name)
  else { rows := s.rows, resets := [] }

variable {s : DatasetKeys} {name : Option DatasetName} {dataset : DatasetName}

theorem zip_bulkProcess {α : Type*} (f : α → Except String Bool) (params : List α) :
    params.zip (bulkProcess f params) = params.map fun i =>
      (i, match f i with
        | .ok result => { result := some result, error := none }
        | .error error => { result := none, error := some error }) := by
  unfold bulkProcess
  induction params with
  | nil => rfl
  | cons i rest ih => simp [ih]

theorem mem_toRemove_iff : dataset ∈ s.toRemove name ↔
    ∃ key, (s.dbDatasets name).get? dataset = some key ∧ s.checkKey dataset key ≠ .ok true := by
  unfold toRemove
  simp only [zip_bulkProcess, mem_filterMap, mem_map]
  constructor
  · rintro ⟨_, ⟨⟨found, key⟩, hentry, rfl⟩, hremoved⟩
    obtain ⟨hremoved, rfl⟩ := Option.ite_some_none_eq_some.mp hremoved
    refine ⟨key, Dict.mem_entries_iff.mp hentry, ?_⟩
    intro htrue
    simp [htrue, isRemoved, truthy] at hremoved
  · rintro ⟨key, hkey, hcheck⟩
    refine ⟨_, ⟨(dataset, key), Dict.mem_entries_iff.mpr hkey, rfl⟩, ?_⟩
    cases hresult : s.checkKey dataset key with
    | error error => simp [isRemoved]
    | ok result =>
      cases result with
      | false => simp [isRemoved]
      | true => exact absurd hresult hcheck

theorem notMem_toRemove_of_notImported {root : DatasetName} (hroot : root ∈ s.notImported)
    (hdataset : dataset = root ∨ dataset.IsBelow root) :
    dataset ∉ s.toRemove name := by
  rw [mem_toRemove_iff]
  rintro ⟨key, hkey, _⟩
  obtain ⟨_, _, _, hfilters⟩ := exists_row_of_mem_rootsKeys (Dict.mem_of_get?_eq_some hkey)
  simp only [filters, Bool.and_eq_true, decide_eq_true_eq] at hfilters
  have hapart := hfilters.2 root hroot
  tauto

/-! ## No usable key is deleted -/

def IsEncryptionRoot (s : DatasetKeys) (dataset : DatasetName) : Prop :=
  ∃ d ∈ s.datasets, d.name = dataset ∧ d.isEncryptionRoot = true

def CheckEnds (s : DatasetKeys) (name : Option DatasetName)
    (dataset : DatasetName) (outcome : Except String Bool) : Prop :=
  ∃ key, (s.dbDatasets name).get? dataset = some key ∧ s.checkKey dataset key = outcome

/-- Which rows a clean-up that leaves `rows` has spared. -/
structure SparesUsableKeys (s : DatasetKeys) (name : Option DatasetName)
    (rows : List EncryptedDatasetRow) : Prop where
  deleted : ∀ row ∈ s.rows, row ∉ rows →
    s.CheckEnds name row.name (.ok false) ∨ ¬ s.IsEncryptionRoot row.name
  errored : ∀ row ∈ s.rows, ∀ error,
    s.CheckEnds name row.name (.error error) → s.IsEncryptionRoot row.name → row ∈ rows
  notImported : ∀ row ∈ s.rows, ∀ root ∈ s.notImported,
    row.name = root ∨ row.name.IsBelow root → row ∈ rows

theorem sparesUsableKeys_self : s.SparesUsableKeys name s.rows where
  deleted _ hrow hdeleted := absurd hrow hdeleted
  errored _ hrow _ _ _ := hrow
  notImported _ hrow _ _ _ := hrow

/-- A clean-up that takes place spares every usable key exactly when no check
of an encryption root's key ends with an error. -/
theorem syncDbKeys_spares_iff (s : DatasetKeys) (name : Option DatasetName) (jobError : Bool) :
    s.SparesUsableKeys name (s.syncDbKeys name jobError).rows ↔
      (s.isSingleMasterNode = true → jobError = false →
        ∀ dataset error, s.CheckEnds name dataset (.error error) →
          ¬ s.IsEncryptionRoot dataset) := by
  by_cases htakes : s.isSingleMasterNode = true ∧ jobError = false
  · have hrows : (s.syncDbKeys name jobError).rows =
        s.rows.filter fun row => decide (row.name ∉ s.toRemove name) := by
      rw [syncDbKeys, if_pos htakes]
      rfl
    rw [hrows]
    constructor
    · rintro hspares _ _ dataset error ⟨key, hkey, hcheck⟩ hroot
      obtain ⟨row, hrow, rfl, _⟩ := exists_row_of_mem_rootsKeys (Dict.mem_of_get?_eq_some hkey)
      have hleft := hspares.errored row hrow error ⟨key, hkey, hcheck⟩ hroot
      have hremoved : row.name ∈ s.toRemove name :=
        mem_toRemove_iff.mpr ⟨key, hkey, by simp [hcheck]⟩
      simp [hremoved] at hleft
    · intro hno
      have hspared := hno htakes.1 htakes.2
      constructor
      · intro row hrow hdeleted
        have hremoved : row.name ∈ s.toRemove name := by
          simpa [hrow] using hdeleted
        obtain ⟨key, hkey, hcheck⟩ := mem_toRemove_iff.mp hremoved
        cases hresult : s.checkKey row.name key with
        | error error =>
          exact Or.inr (hspared row.name error ⟨key, hkey, hresult⟩)
        | ok result =>
          cases result with
          | false => exact Or.inl ⟨key, hkey, hresult⟩
          | true => exact absurd hresult hcheck
      · intro row _ error herror hroot
        exact absurd hroot (hspared row.name error herror)
      · intro row hrow root hroot hunder
        rw [mem_filter, decide_eq_true_eq]
        exact ⟨hrow, notMem_toRemove_of_notImported hroot hunder⟩
  · have hrows : (s.syncDbKeys name jobError).rows = s.rows := by
      rw [syncDbKeys, if_neg htakes]
    rw [hrows]
    apply iff_of_true sparesUsableKeys_self
    intro hmaster hjob
    exact absurd ⟨hmaster, hjob⟩ htakes

def vaultRow : EncryptedDatasetRow where
  id := 1
  name := ["tank", "vault"]
  encryptionKey := some "c0ffee"
  kmipUid := none

def vault : Dataset where
  name := ["tank", "vault"]
  encrypted := true
  encryptionRoot := some ["tank", "vault"]
  keyFormat := some .hex
  keyLoaded := true

def tank : Dataset where
  name := ["tank"]
  encrypted := false
  encryptionRoot := none
  keyFormat := none
  keyLoaded := false

/-- The check of the key of `tank/vault` raises. -/
def busyVault : DatasetKeys where
  rows := [vaultRow]
  zfsKeys := Dict.empty
  datasets := [tank, vault]
  pools := ["tank"]
  checkKey := fun _ _ => .error "Failed to check key for tank/vault"
  isSingleMasterNode := true

/-- A check that raises has no result, and the stored key is deleted. -/
theorem busyVault_not_spared :
    ¬ busyVault.SparesUsableKeys none (busyVault.syncDbKeys none false).rows := by
  intro hspares
  have hroot : busyVault.IsEncryptionRoot ["tank", "vault"] :=
    ⟨vault, mem_cons_of_mem tank mem_cons_self, rfl, by decide⟩
  have hleft := hspares.errored vaultRow mem_cons_self
    "Failed to check key for tank/vault" ⟨"c0ffee", by decide, rfl⟩ hroot
  exact absurd hleft (by decide)

end DatasetKeys

end Middlewared
