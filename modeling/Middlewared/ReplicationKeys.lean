import Middlewared.DatasetChangeKey
import Middlewared.ReplicationTask

/-!
# Keys of replicated datasets

`export_keys_for_replication_internal` finds the stored keys below each source,
gives them to every dataset that inherits them if these are not replicated
raw, and replaces the name of the source in the names of the datasets.
-/

namespace Middlewared

open List Dict Option

structure KeyExportTask where
  direction : ReplicationDirection
  sourceDatasets : List DatasetName
  targetDataset : List Char
  recursive : Bool
  replicate : Bool

structure KeyStore where
  datasets : List Dataset
  rows : List EncryptedDatasetRow
  zfsKeys : Dict DatasetName String

/-- `get_source_target_datasets_mapping` -/
abbrev SourceMapping := List DatasetName → List Char → DatasetName → List Char

/-- `text.replace(old, new, 1)` -/
def replaceFirst (old new : List Char) : List Char → List Char
  | [] => if old = [] then new else []
  | c :: rest =>
    if old.isPrefixOf (c :: rest) then new ++ (c :: rest).drop old.length
    else c :: replaceFirst old new rest

namespace KeyStore

/-- `f'{name}'` -/
def chars (name : DatasetName) : List Char := name.text.toList

def AtOrBelow (name ancestor : DatasetName) : Prop :=
  name = ancestor ∨ name.IsBelow ancestor

instance (name ancestor : DatasetName) : Decidable (AtOrBelow name ancestor) :=
  inferInstanceAs (Decidable (_ ∨ _))

def shown (s : KeyStore) : List Dataset := poolDatasetQuery s.datasets

def sourceFilters (s : KeyStore) (task : KeyExportTask) (source name : DatasetName) :
    Bool :=
  let own := decide (name = source) ||
    (task.recursive && decide (name.IsBelow source))
  match s.shown.find? fun dataset => dataset.name = source with
  | none => own
  | some dataset =>
    if dataset.encryptionRoot ≠ some source then
      decide (dataset.encryptionRoot = some name)
    else own

def sourceKeys (s : KeyStore) (task : KeyExportTask) (source : DatasetName) :
    Dict DatasetName String :=
  queryEncryptedRootsKeys s.rows (s.sourceFilters task source) s.zfsKeys

def includeEncryptionRootChildren (task : KeyExportTask) : Bool :=
  !task.replicate && task.recursive

/-- `dataset_encryption_root_mapping` -/
def datasetsOfRoot (s : KeyStore) (root : DatasetName) : List DatasetName :=
  (s.shown.filter fun dataset => dataset.encryptionRoot = some root).map Dataset.name

def replacedName (source : DatasetName) (target : List Char)
    (name : DatasetName) : List Char :=
  replaceFirst (if (chars source).length ≤ (chars name).length then chars source
      else chars name) target (chars name)

def exportedNames (s : KeyStore) (task : KeyExportTask) (root : DatasetName) :
    List DatasetName :=
  if includeEncryptionRootChildren task then s.datasetsOfRoot root else [root]

def assignments (s : KeyStore) (task : KeyExportTask)
    (mapping : SourceMapping) (source : DatasetName) :
    List (List Char × String) :=
  (s.sourceKeys task source).entries.flatMap fun entry =>
    (s.exportedNames task entry.1).map fun name =>
      (replacedName source (mapping task.sourceDatasets task.targetDataset source) name, entry.2)

def exportKeysForReplication (s : KeyStore) (task : KeyExportTask)
    (mapping : SourceMapping) : Except String (Dict (List Char) String) :=
  if task.direction ≠ .push then
    .error "Only push replication tasks are supported."
  else if task.sourceDatasets.all fun source =>
      (s.sourceKeys task source).entries.isEmpty then .ok Dict.empty
  else
    .ok (Dict.ofEntries (task.sourceDatasets.flatMap (s.assignments task mapping)))

def storedKey (s : KeyStore) (name : DatasetName) : Option String :=
  (queryEncryptedRootsKeys s.rows (fun _ => true) s.zfsKeys).get? name

def Replicated (s : KeyStore) (task : KeyExportTask) (source : DatasetName)
    (dataset : Dataset) : Prop :=
  dataset ∈ s.shown ∧ (dataset.name = source ∨ (task.recursive ∧ dataset.name.IsBelow source))

def targetName (task : KeyExportTask) (mapping : SourceMapping)
    (source name : DatasetName) : List Char :=
  mapping task.sourceDatasets task.targetDataset source ++ (chars name).drop (chars source).length

def HasKey (s : KeyStore) (dataset : Dataset) (key : String) : Prop :=
  ∃ root, dataset.encryptionRoot = some root ∧ s.storedKey root = some key

structure KeysExact (s : KeyStore) (task : KeyExportTask)
    (mapping : SourceMapping) (result : Dict (List Char) String) : Prop where
  sound : ∀ name key, result.get? name = some key → ∃ source ∈ task.sourceDatasets, ∃ dataset,
      s.Replicated task source dataset ∧
      name = targetName task mapping source dataset.name ∧
      s.HasKey dataset key
  complete : ∀ source ∈ task.sourceDatasets, ∀ dataset,
    s.Replicated task source dataset → dataset.isEncryptionRoot →
      ∀ key, s.storedKey dataset.name = some key →
        result.get? (targetName task mapping source dataset.name) = some key

/-- The names are those of datasets, and an encryption root is a dataset from
which those that have it inherit. -/
structure IsSetting (s : KeyStore) (task : KeyExportTask) : Prop where
  source_ne : ∀ source ∈ task.sourceDatasets, source ≠ []
  dataset_ne : ∀ dataset ∈ s.shown, dataset.name ≠ []
  nodup : (s.shown.map Dataset.name).Nodup
  root : ∀ dataset ∈ s.shown, ∀ name, dataset.encryptionRoot = some name →
    AtOrBelow dataset.name name ∧
      ∃ root ∈ s.shown, root.name = name ∧ root.encryptionRoot = some name

def OwnsKey (s : KeyStore) (source : DatasetName) : Prop :=
  ∀ dataset ∈ s.shown, dataset.name = source → dataset.encryptionRoot = some source

/-- The stored keys of a source that has a key of its own are those of
encryption roots.  A source without one has no such root below it, and what
inherits its key outside of it has a shorter name, unless only roots are
exported. -/
structure Covered (s : KeyStore) (task : KeyExportTask)
    (source : DatasetName) : Prop where
  stored : s.OwnsKey source → includeEncryptionRootChildren task = false →
    ∀ name, name = source ∨ (task.recursive ∧ name.IsBelow source) → (s.storedKey name).isSome →
        ∃ dataset ∈ s.shown, dataset.name = name ∧ dataset.isEncryptionRoot
  below : ¬s.OwnsKey source → task.recursive → ∀ dataset ∈ s.shown,
    dataset.isEncryptionRoot → dataset.name.IsBelow source → s.storedKey dataset.name = none
  outside : ¬s.OwnsKey source → includeEncryptionRootChildren task →
    ∀ dataset ∈ s.shown, dataset.name = source →
    ∀ other ∈ s.shown, ∀ root, dataset.encryptionRoot = some root →
      other.encryptionRoot = some root → (s.storedKey root).isSome → AtOrBelow other.name source ∨
          (chars other.name).length < (chars source).length

def NoClash (s : KeyStore) (task : KeyExportTask) (mapping : SourceMapping) :
    Prop :=
  ∀ first ∈ task.sourceDatasets, ∀ second ∈ task.sourceDatasets, ∀ d e,
    s.Replicated task first d → s.Replicated task second e →
    targetName task mapping first d.name = targetName task mapping second e.name →
    ∀ k l, s.HasKey d k → s.HasKey e l → k = l

def Known (s : KeyStore) (task : KeyExportTask) (name : DatasetName) : Prop :=
  name ∈ task.sourceDatasets ∨ name ∈ s.shown.map Dataset.name ∨ (s.storedKey name).isSome

structure NoAccident (s : KeyStore) (task : KeyExportTask)
    (mapping : SourceMapping) : Prop where
  target : ∀ first ∈ task.sourceDatasets, ∀ second ∈ task.sourceDatasets,
    ∀ d e, s.Known task d → s.Known task e → AtOrBelow d first → AtOrBelow e second →
      targetName task mapping first d = targetName task mapping second e → first = second ∧ d = e
  replaced : ∀ first ∈ task.sourceDatasets, ∀ second ∈ task.sourceDatasets,
    ∀ d e, s.Known task d → s.Known task e →
      ¬AtOrBelow d first → (chars first).length ≤ (chars d).length →
      AtOrBelow e second → replacedName first
          (mapping task.sourceDatasets task.targetDataset first) d ≠
            targetName task mapping second e
  key : ∀ first second key, s.storedKey first = some key →
    s.storedKey second = some key → first = second

theorem replaceFirst_append (old new rest : List Char) :
    replaceFirst old new (old ++ rest) = new ++ rest := by
  cases old with
  | nil => cases rest <;> simp [replaceFirst]
  | cons c old =>
    have hmatch : (c :: old).isPrefixOf (c :: (old ++ rest)) = true := by
      rw [ isPrefixOf_iff_prefix]
      exact ⟨rest, rfl⟩
    rw [cons_append, replaceFirst, if_pos hmatch]
    simp

theorem replaceFirst_self (name new : List Char) : replaceFirst name new name = new := by
  have happend := replaceFirst_append name new []
  simpa using happend

theorem chars_append {first rest : DatasetName} (hfirst : first ≠ []) (hrest : rest ≠ []) :
    chars (first ++ rest) = chars first ++ '/' :: chars rest := by
  unfold chars DatasetName.text
  rw [String.intercalate_append_of_ne_nil hfirst hrest]
  simp

theorem chars_of_atOrBelow {name source : DatasetName} (hne : source ≠ [])
    (hbelow : AtOrBelow name source) :
    ∃ rest, chars name = chars source ++ rest := by
  rcases hbelow with heq | hbelow
  · exact ⟨[], by rw [heq, append_nil]⟩
  · obtain ⟨rest, heq⟩ := hbelow.1
    have hrest : rest ≠ [] := by
      intro hnil
      rw [hnil, append_nil] at heq
      exact hbelow.2 heq
    rw [← heq, chars_append hne hrest]
    exact ⟨_, rfl⟩

theorem length_chars_of_isBelow {name ancestor : DatasetName}
    (hne : ancestor ≠ []) (hbelow : name.IsBelow ancestor) :
    (chars ancestor).length < (chars name).length := by
  obtain ⟨rest, heq⟩ := hbelow.1
  have hrest : rest ≠ [] := by
    intro hnil
    rw [hnil, append_nil] at heq
    exact hbelow.2 heq
  rw [← heq, chars_append hne hrest, length_append, length_cons]
  omega

theorem replacedName_of_atOrBelow {name source : DatasetName}
    (hne : source ≠ []) (hbelow : AtOrBelow name source) (target : List Char) :
    replacedName source target name = target ++ (chars name).drop (chars source).length := by
  obtain ⟨rest, heq⟩ := chars_of_atOrBelow hne hbelow
  unfold replacedName
  have hle : (chars source).length ≤ (chars name).length := by
    rw [heq, length_append]
    omega
  rw [if_pos hle, heq, drop_left]
  exact replaceFirst_append _ target rest

theorem replacedName_of_shorter {name source : DatasetName}
    (hlt : (chars name).length < (chars source).length) (target : List Char) :
    replacedName source target name = target := by
  unfold replacedName
  rw [if_neg (by omega)]
  exact replaceFirst_self _ _

/-! ## Assignments -/

variable {s : KeyStore} {task : KeyExportTask} {mapping : SourceMapping}
  {source name : DatasetName} {key : String}

theorem get?_addRootsKey {zfsKeys keys keys' : Dict DatasetName String}
    (hkeys : keys.get? name = keys'.get? name) (row : EncryptedDatasetRow) :
    (addRootsKey zfsKeys keys row).get? name = (addRootsKey zfsKeys keys' row).get? name := by
  unfold addRootsKey
  split
  · rw [get?_set, get?_set, hkeys]
  · exact hkeys

theorem get?_addRootsKey_of_ne {zfsKeys keys : Dict DatasetName String}
    {row : EncryptedDatasetRow} (hne : row.name ≠ name) :
    (addRootsKey zfsKeys keys row).get? name = keys.get? name := by
  unfold addRootsKey
  split
  · exact get?_set_of_ne keys hne.symm _
  · rfl

theorem get?_foldl_filter {zfsKeys : Dict DatasetName String}
    {filters : DatasetName → Bool} (hname : filters name)
    (rows : List EncryptedDatasetRow) {keys keys' : Dict DatasetName String}
    (hkeys : keys.get? name = keys'.get? name) :
    ((rows.filter fun row => filters row.name).foldl (addRootsKey zfsKeys) keys).get? name =
      (rows.foldl (addRootsKey zfsKeys) keys').get? name := by
  induction rows generalizing keys keys' with
  | nil => exact hkeys
  | cons row rows ih =>
    cases hrow : filters row.name with
    | true =>
      rw [filter_cons, if_pos hrow, foldl_cons, foldl_cons]
      exact ih (get?_addRootsKey hkeys row)
    | false =>
      have hne : row.name ≠ name := by
        intro heq
        rw [heq, hname] at hrow
        cases hrow
      rw [filter_cons, if_neg (by simp [hrow]), foldl_cons]
      apply ih
      rw [get?_addRootsKey_of_ne hne]
      exact hkeys

theorem get?_sourceKeys : (s.sourceKeys task source).get? name = some key ↔
    s.sourceFilters task source name ∧ s.storedKey name = some key := by
  unfold sourceKeys storedKey queryEncryptedRootsKeys
  cases hfilter : s.sourceFilters task source name with
  | true =>
    have hfold := @get?_foldl_filter name s.zfsKeys _ hfilter s.rows Dict.empty Dict.empty rfl
    rw [hfold]
    simp
  | false =>
    constructor
    · intro hget
      obtain ⟨_, _, _, htrue⟩ := exists_row_of_mem_rootsKeys (mem_of_get?_eq_some hget)
      rw [hfilter] at htrue
      cases htrue
    · intro hboth
      cases hboth.1

theorem mem_assignments {entry : List Char × String} : entry ∈ s.assignments task mapping source ↔
    ∃ root, s.sourceFilters task source root ∧ s.storedKey root = some entry.2 ∧
      ∃ name ∈ s.exportedNames task root, entry.1 = replacedName source
          (mapping task.sourceDatasets task.targetDataset source) name := by
  unfold assignments
  rw [mem_flatMap]
  constructor
  · intro hmem
    obtain ⟨⟨root, key⟩, hroot, hmem⟩ := hmem
    obtain ⟨name, hname, heq⟩ := List.mem_map.mp hmem
    obtain ⟨hfilter, hkey⟩ := get?_sourceKeys.mp (mem_entries_iff.mp hroot)
    rw [← heq]
    exact ⟨root, hfilter, hkey, name, hname, rfl⟩
  · intro hmem
    obtain ⟨root, hfilter, hkey, name, hname, heq⟩ := hmem
    have hroot := mem_entries_iff.mpr (get?_sourceKeys.mpr ⟨hfilter, hkey⟩)
    refine ⟨_, hroot, List.mem_map.mpr ⟨name, hname, ?_⟩⟩
    rw [← heq]

def allAssignments (s : KeyStore) (task : KeyExportTask)
    (mapping : SourceMapping) : List (List Char × String) :=
  task.sourceDatasets.flatMap (s.assignments task mapping)

theorem exportKeys_eq (hpush : task.direction = .push) : s.exportKeysForReplication task mapping =
    .ok (Dict.ofEntries (s.allAssignments task mapping)) := by
  unfold exportKeysForReplication
  rw [if_neg (by simp [hpush])]
  split
  · rename_i hnone
    have hnil : s.allAssignments task mapping = [] := by
      unfold allAssignments
      rw [flatMap_eq_nil_iff]
      intro source hsource
      have hempty := List.all_eq_true.mp hnone source hsource
      unfold assignments
      rw [List.isEmpty_iff.mp hempty, flatMap_nil]
    rw [hnil]
    rfl
  · rfl

section

variable {entries : List (List Char × String)} {target : List Char}

theorem mem_of_get?_ofEntries (hget : (Dict.ofEntries entries).get? target = some key) :
    (target, key) ∈ entries := by
  rw [get?_ofEntries] at hget
  exact mem_reverse.mp (mem_of_lookup_eq_some hget)

theorem exists_get?_ofEntries (hmem : (target, key) ∈ entries) :
    ∃ other, (Dict.ofEntries entries).get? target = some other := by
  rw [get?_ofEntries, ← isSome_iff_exists, Dict.lookup_isSome_iff, List.mem_map]
  exact ⟨_, mem_reverse.mpr hmem, rfl⟩

end

theorem find?_shown (hset : s.IsSetting task) {dataset : Dataset}
    (hmem : dataset ∈ s.shown) (hname : dataset.name = source) :
    s.shown.find? (fun dataset => dataset.name = source) = some dataset := by
  cases hfind : s.shown.find? fun dataset => dataset.name = source with
  | none =>
    have hnone := find?_eq_none.mp hfind dataset hmem
    simp [hname] at hnone
  | some other =>
    have hother := find?_some hfind
    have hsame := inj_on_of_nodup_map hset.nodup (mem_of_find?_eq_some hfind) hmem
      (by rw [hname]; simpa using hother)
    rw [hsame]

theorem sourceFilters_of_ownsKey (howns : s.OwnsKey source) : s.sourceFilters task source name ↔
    name = source ∨ (task.recursive ∧ name.IsBelow source) := by
  unfold sourceFilters
  split
  · simp
  · rename_i dataset hfind
    have hname : dataset.name = source := by
      simpa using find?_some hfind
    have hroot := howns dataset (mem_of_find?_eq_some hfind) hname
    simp [hroot]

theorem sourceFilters_of_inherits (hset : s.IsSetting task)
    {dataset : Dataset} (hmem : dataset ∈ s.shown)
    (hname : dataset.name = source)
    (hroot : dataset.encryptionRoot ≠ some source) :
    s.sourceFilters task source name ↔ dataset.encryptionRoot = some name := by
  unfold sourceFilters
  rw [find?_shown hset hmem hname]
  simp [hroot]

theorem exists_of_not_ownsKey (howns : ¬s.OwnsKey source) :
    ∃ dataset ∈ s.shown, dataset.name = source ∧ dataset.encryptionRoot ≠ some source := by
  by_contra hnone
  apply howns
  intro dataset hmem hname
  by_contra hroot
  exact hnone ⟨dataset, hmem, hname, hroot⟩

theorem mem_datasetsOfRoot {root : DatasetName} : name ∈ s.datasetsOfRoot root ↔
    ∃ dataset ∈ s.shown, dataset.name = name ∧ dataset.encryptionRoot = some root := by
  unfold datasetsOfRoot
  rw [List.mem_map]
  constructor
  · intro hmem
    obtain ⟨dataset, hdataset, hname⟩ := hmem
    rw [mem_filter] at hdataset
    exact ⟨dataset, hdataset.1, hname, by simpa using hdataset.2⟩
  · intro hmem
    obtain ⟨dataset, hdataset, hname, hroot⟩ := hmem
    exact ⟨dataset, mem_filter.mpr ⟨hdataset, by simpa using hroot⟩, hname⟩

theorem atOrBelow_trans {a b c : DatasetName} (hab : AtOrBelow a b)
    (hbc : AtOrBelow b c) : AtOrBelow a c := by
  rcases hab with heq | hab
  · rw [heq]
    exact hbc
  · rcases hbc with heq | hbc
    · rw [← heq]
      exact Or.inr hab
    · exact Or.inr (hab.trans hbc)

/-! ## What is exported is what should be -/

def Entitled (s : KeyStore) (task : KeyExportTask) (mapping : SourceMapping)
    (target : List Char) (key : String) : Prop :=
  ∃ source ∈ task.sourceDatasets, ∃ dataset, s.Replicated task source dataset ∧
    target = targetName task mapping source dataset.name ∧
    s.HasKey dataset key

theorem targetName_self (task : KeyExportTask) (mapping : SourceMapping) (source : DatasetName) :
    targetName task mapping source source =
      mapping task.sourceDatasets task.targetDataset source := by
  simp [targetName]

theorem entitled_source (hsource : source ∈ task.sourceDatasets) {dataset : Dataset}
    (hmem : dataset ∈ s.shown) (hname : dataset.name = source)
    (hkey : s.HasKey dataset key) :
    s.Entitled task mapping (mapping task.sourceDatasets task.targetDataset source) key := by
  refine ⟨source, hsource, dataset, ⟨hmem, Or.inl hname⟩, ?_, hkey⟩
  rw [hname, targetName_self]

theorem recursive_of_include (hinclude : includeEncryptionRootChildren task = true) :
    task.recursive = true := by
  unfold includeEncryptionRootChildren at hinclude
  rw [Bool.and_eq_true] at hinclude
  exact hinclude.2

theorem entitled_of_ownsKey (hset : s.IsSetting task) (hcovered : s.Covered task source)
    (hsource : source ∈ task.sourceDatasets) (howns : s.OwnsKey source)
    {entry : List Char × String}
    (hmem : entry ∈ s.assignments task mapping source) :
    s.Entitled task mapping entry.1 entry.2 := by
  obtain ⟨root, hfilter, hkey, name, hname, htarget⟩ := mem_assignments.mp hmem
  rw [sourceFilters_of_ownsKey howns] at hfilter
  have hne := hset.source_ne source hsource
  have hroot : AtOrBelow root source := hfilter.imp_right fun hbelow => hbelow.2
  unfold exportedNames at hname
  cases hinclude : includeEncryptionRootChildren task with
  | true =>
    rw [hinclude, if_pos rfl, mem_datasetsOfRoot] at hname
    obtain ⟨dataset, hdataset, heq, hencrypted⟩ := hname
    have habove := (hset.root dataset hdataset root hencrypted).1
    have hbelow := atOrBelow_trans habove hroot
    rw [← heq, replacedName_of_atOrBelow hne hbelow] at htarget
    have hrecursive := recursive_of_include hinclude
    have hreplicated : s.Replicated task source dataset :=
      ⟨hdataset, hbelow.imp_right fun h => ⟨hrecursive, h⟩⟩
    exact ⟨source, hsource, dataset, hreplicated, htarget, root, hencrypted, hkey⟩
  | false =>
    rw [hinclude, if_neg Bool.false_ne_true, mem_singleton] at hname
    obtain ⟨dataset, hdataset, heq, hencrypted⟩ :=
      hcovered.stored howns hinclude root hfilter (by simp [hkey])
    rw [hname, replacedName_of_atOrBelow hne hroot, ← heq] at htarget
    have hreplicated : s.Replicated task source dataset := ⟨hdataset, by rwa [heq]⟩
    have hown : dataset.encryptionRoot = some root := by
      rw [← heq]
      simpa [Dataset.isEncryptionRoot] using hencrypted
    exact ⟨source, hsource, dataset, hreplicated, htarget, root, hown, hkey⟩

theorem entitled_of_inherits (hset : s.IsSetting task) (hcovered : s.Covered task source)
    (hsource : source ∈ task.sourceDatasets) (hinherits : ¬s.OwnsKey source)
    {entry : List Char × String}
    (hmem : entry ∈ s.assignments task mapping source) :
    s.Entitled task mapping entry.1 entry.2 := by
  obtain ⟨root, hfilter, hkey, name, hname, htarget⟩ := mem_assignments.mp hmem
  obtain ⟨dataset, hdataset, heq, hother⟩ := exists_of_not_ownsKey hinherits
  rw [sourceFilters_of_inherits hset hdataset heq hother] at hfilter
  have hne := hset.source_ne source hsource
  have hhas : s.HasKey dataset entry.2 := ⟨root, hfilter, hkey⟩
  -- a shorter name is replaced as a whole, and stands for the source itself
  have hshorter : (chars name).length < (chars source).length →
      s.Entitled task mapping entry.1 entry.2 := by
    intro hlt
    rw [replacedName_of_shorter hlt] at htarget
    rw [htarget]
    exact entitled_source hsource hdataset heq hhas
  unfold exportedNames at hname
  cases hinclude : includeEncryptionRootChildren task with
  | true =>
    rw [hinclude, if_pos rfl, mem_datasetsOfRoot] at hname
    obtain ⟨other, hmem, hotherName, hencrypted⟩ := hname
    rcases hcovered.outside hinherits hinclude dataset hdataset heq other hmem
      root hfilter hencrypted (by simp [hkey]) with hbelow | hlt
    · rw [hotherName] at hbelow
      rw [replacedName_of_atOrBelow hne hbelow, ← hotherName] at htarget
      have hrecursive := recursive_of_include hinclude
      have hreplicated : s.Replicated task source other := ⟨hmem, by
          rw [hotherName]
          exact hbelow.imp_right fun h => ⟨hrecursive, h⟩⟩
      exact ⟨source, hsource, other, hreplicated, htarget, root, hencrypted, hkey⟩
    · rw [hotherName] at hlt
      exact hshorter hlt
  | false =>
    rw [hinclude, if_neg Bool.false_ne_true, mem_singleton] at hname
    obtain ⟨habove, rootDataset, hrootDataset, hrootName, _⟩ :=
      hset.root dataset hdataset root hfilter
    have hrootNe : root ≠ [] := by
      rw [← hrootName]
      exact hset.dataset_ne rootDataset hrootDataset
    rw [heq] at habove
    rcases habove with hsame | hbelow
    · rw [← hsame] at hfilter
      exact absurd hfilter hother
    · rw [hname] at hshorter
      exact hshorter (length_chars_of_isBelow hrootNe hbelow)

theorem entitled_of_covered (hset : s.IsSetting task)
    (hcovered : ∀ source ∈ task.sourceDatasets, s.Covered task source)
    {target : List Char} (hmem : (target, key) ∈ s.allAssignments task mapping) :
    s.Entitled task mapping target key := by
  obtain ⟨source, hsource, hmem⟩ := mem_flatMap.mp hmem
  by_cases howns : s.OwnsKey source
  · exact entitled_of_ownsKey hset (hcovered source hsource) hsource howns hmem
  · exact entitled_of_inherits hset (hcovered source hsource) hsource howns hmem

theorem assigned_of_root (hset : s.IsSetting task) (hcovered : s.Covered task source)
    (hsource : source ∈ task.sourceDatasets) {dataset : Dataset}
    (hreplicated : s.Replicated task source dataset)
    (hroot : dataset.isEncryptionRoot)
    (hkey : s.storedKey dataset.name = some key) :
    (targetName task mapping source dataset.name, key) ∈ s.allAssignments task mapping := by
  have hne := hset.source_ne source hsource
  have hown : dataset.encryptionRoot = some dataset.name := by
    simpa [Dataset.isEncryptionRoot] using hroot
  by_cases howns : s.OwnsKey source
  · have hbelow : AtOrBelow dataset.name source := hreplicated.2.imp_right fun h => h.2
    rw [allAssignments, mem_flatMap]
    refine ⟨source, hsource, mem_assignments.mpr ⟨dataset.name, ?_, hkey, dataset.name, ?_, ?_⟩⟩
    · rw [sourceFilters_of_ownsKey howns]
      exact hreplicated.2
    · unfold exportedNames
      split
      · exact mem_datasetsOfRoot.mpr ⟨dataset, hreplicated.1, rfl, hown⟩
      · exact mem_singleton_self _
    · rw [replacedName_of_atOrBelow hne hbelow]
      rfl
  · rcases hreplicated.2 with heq | hbelow
    · exfalso
      obtain ⟨other, hother, hname, hne⟩ := exists_of_not_ownsKey howns
      have hsame := inj_on_of_nodup_map hset.nodup hreplicated.1 hother (heq.trans hname.symm)
      rw [← hsame, ← heq] at hne
      exact hne hown
    · have hnone := hcovered.below howns hbelow.1 dataset hreplicated.1 hroot hbelow.2
      rw [hnone] at hkey
      cases hkey

theorem keysExact_of_covered (hset : s.IsSetting task)
    (hcovered : ∀ source ∈ task.sourceDatasets, s.Covered task source)
    (hclash : s.NoClash task mapping) :
    s.KeysExact task mapping (Dict.ofEntries (s.allAssignments task mapping)) where
  sound target key hget := entitled_of_covered hset hcovered (mem_of_get?_ofEntries hget)
  complete source hsource dataset hreplicated hroot key hkey := by
    have hassigned := @assigned_of_root s task mapping source key hset
      (hcovered source hsource) hsource dataset hreplicated hroot hkey
    obtain ⟨other, hother⟩ := exists_get?_ofEntries hassigned
    obtain ⟨source', hsource', dataset', hreplicated', htarget, hkey'⟩ :=
      entitled_of_covered hset hcovered (mem_of_get?_ofEntries hother)
    have hown : dataset.encryptionRoot = some dataset.name := by
      simpa [Dataset.isEncryptionRoot] using hroot
    have hsame := hclash source hsource source' hsource' dataset dataset'
      hreplicated hreplicated' htarget key other ⟨_, hown, hkey⟩ hkey'
    rw [hother, hsame]

theorem mem_allAssignments (hsource : source ∈ task.sourceDatasets)
    {root : DatasetName} (hfilter : s.sourceFilters task source root)
    (hkey : s.storedKey root = some key)
    (hname : name ∈ s.exportedNames task root) :
    (replacedName source (mapping task.sourceDatasets task.targetDataset source) name, key) ∈
      s.allAssignments task mapping := by
  rw [allAssignments, mem_flatMap]
  exact ⟨source, hsource, mem_assignments.mpr ⟨root, hfilter, hkey, name, hname, rfl⟩⟩

theorem Replicated.atOrBelow {dataset : Dataset} (hreplicated : s.Replicated task source dataset) :
    AtOrBelow dataset.name source :=
  hreplicated.2.imp_right fun h => h.2

theorem known_of_shown {dataset : Dataset} (hmem : dataset ∈ s.shown) : s.Known task dataset.name :=
  Or.inr (Or.inl (List.mem_map_of_mem hmem))

theorem known_of_exported {root : DatasetName} (hkey : s.storedKey root = some key)
    (hname : name ∈ s.exportedNames task root) : s.Known task name := by
  unfold exportedNames at hname
  split at hname
  · obtain ⟨dataset, hmem, heq, _⟩ := mem_datasetsOfRoot.mp hname
    rw [← heq]
    exact known_of_shown hmem
  · have heq := mem_singleton.mp hname
    rw [heq]
    exact Or.inr (Or.inr (by simp [hkey]))

/-- Without accidents, what is assigned to the name of a dataset's target is
assigned for the dataset's source, and for the dataset itself or for one that
has a shorter name than the source. -/
theorem origin (hset : s.IsSetting task) (haccident : s.NoAccident task mapping)
    (hsource : source ∈ task.sourceDatasets) (hknown : s.Known task name)
    (hbelow : AtOrBelow name source)
    (hmem : (targetName task mapping source name, key) ∈ s.allAssignments task mapping) :
    ∃ root, s.sourceFilters task source root ∧ s.storedKey root = some key ∧
      ∃ exported ∈ s.exportedNames task root, exported = name ∨
          (chars exported).length < (chars source).length := by
  obtain ⟨first, hfirst, hmem⟩ := mem_flatMap.mp hmem
  obtain ⟨root, hfilter, hkey, exported, hexported, htarget⟩ := mem_assignments.mp hmem
  have hknown' := known_of_exported hkey hexported
  have hne := hset.source_ne first hfirst
  by_cases habove : AtOrBelow exported first
  · rw [replacedName_of_atOrBelow hne habove] at htarget
    have hsame := haccident.target source hsource first hfirst name exported
      hknown hknown' hbelow habove htarget
    rw [hsame.1]
    exact ⟨root, hfilter, hkey, exported, hexported, Or.inl hsame.2.symm⟩
  · by_cases hlength : (chars first).length ≤ (chars exported).length
    · exact absurd htarget.symm (haccident.replaced first hfirst source hsource
        exported name hknown' hknown habove hlength hbelow)
    · have hlt : (chars exported).length < (chars first).length := by omega
      have hself : targetName task mapping source name = targetName task mapping first first := by
        rw [targetName_self]
        exact htarget.trans (replacedName_of_shorter hlt _)
      have hsame := haccident.target source hsource first hfirst name first
        hknown (Or.inl hfirst) hbelow (Or.inl rfl) hself
      rw [hsame.1]
      exact ⟨root, hfilter, hkey, exported, hexported, Or.inr hlt⟩

/-! ## No more is exported right -/

theorem noClash_of_noAccident (hset : s.IsSetting task)
    (haccident : s.NoAccident task mapping) : s.NoClash task mapping := by
  intro first hfirst second hsecond d e hd he htarget k l hk hl
  have hsame := haccident.target first hfirst second hsecond d.name e.name
    (known_of_shown hd.1) (known_of_shown he.1) hd.atOrBelow he.atOrBelow htarget
  have heq := inj_on_of_nodup_map hset.nodup hd.1 he.1 hsame.2
  obtain ⟨root, hroot, hk⟩ := hk
  obtain ⟨root', hroot', hl⟩ := hl
  rw [heq, hroot'] at hroot
  rw [some.inj hroot, hk] at hl
  exact some.inj hl

section

variable (hset : s.IsSetting task) (haccident : s.NoAccident task mapping)
  (hexact : s.KeysExact task mapping (Dict.ofEntries (s.allAssignments task mapping)))
  (hsource : source ∈ task.sourceDatasets)
include hset haccident hexact hsource

theorem stored_of_keysExact (howns : s.OwnsKey source)
    (hinclude : includeEncryptionRootChildren task = false)
    (hname : name = source ∨ (task.recursive ∧ name.IsBelow source))
    (hkey : s.storedKey name = some key) :
    ∃ dataset ∈ s.shown, dataset.name = name ∧ dataset.isEncryptionRoot := by
  have hne := hset.source_ne source hsource
  have hbelow : AtOrBelow name source := hname.imp_right fun h => h.2
  have hknown : s.Known task name := Or.inr (Or.inr (by simp [hkey]))
  have hself : ∀ root, s.exportedNames task root = [root] := by
    simp [exportedNames, hinclude]
  have hexportedName : name ∈ s.exportedNames task name := by
    rw [hself]
    exact mem_singleton_self _
  have hassigned := @mem_allAssignments s task mapping source name key hsource
    name ((sourceFilters_of_ownsKey howns).mpr hname) hkey hexportedName
  rw [replacedName_of_atOrBelow hne hbelow] at hassigned
  obtain ⟨other, hget⟩ := exists_get?_ofEntries hassigned
  obtain ⟨root, hfilter, hroot, exported, hexported, horigin⟩ :=
    origin hset haccident hsource hknown hbelow (mem_of_get?_ofEntries hget)
  -- a source with its own key exports no name shorter than its own
  have hsame : root = name := by
    rw [hself, mem_singleton] at hexported
    rcases horigin with heq | hlt
    · rw [← hexported]
      exact heq
    · exfalso
      rw [hexported] at hlt
      rcases (sourceFilters_of_ownsKey howns).mp hfilter with heq | habove
      · rw [heq] at hlt
        omega
      · have hlength := length_chars_of_isBelow hne habove.2
        omega
  obtain ⟨second, hsecond, dataset, hreplicated, htarget, root', hroot',
    hkey'⟩ := hexact.sound _ _ hget
  have heq := (haccident.target source hsource second hsecond name dataset.name
    hknown (known_of_shown hreplicated.1) hbelow hreplicated.atOrBelow htarget).2
  have hrootEq := haccident.key root' root other hkey' hroot
  rw [hrootEq, hsame, heq] at hroot'
  exact ⟨dataset, hreplicated.1, heq.symm, by simp [Dataset.isEncryptionRoot, hroot']⟩

theorem below_of_keysExact (hinherits : ¬s.OwnsKey source)
    (hrecursive : task.recursive) {dataset : Dataset}
    (hmem : dataset ∈ s.shown) (hroot : dataset.isEncryptionRoot)
    (hbelow : dataset.name.IsBelow source) :
    s.storedKey dataset.name = none := by
  rw [eq_none_iff_forall_ne_some]
  intro key hkey
  have hget := hexact.complete source hsource dataset
    ⟨hmem, Or.inr ⟨hrecursive, hbelow⟩⟩ hroot key hkey
  obtain ⟨root, hfilter, hkey', _⟩ := origin hset haccident hsource
    (known_of_shown hmem) (Or.inr hbelow) (mem_of_get?_ofEntries hget)
  have hsame := haccident.key root dataset.name key hkey' hkey
  obtain ⟨other, hother, hname, hne⟩ := exists_of_not_ownsKey hinherits
  rw [sourceFilters_of_inherits hset hother hname hne, hsame] at hfilter
  -- the root of the source would be above it and below it
  have habove := (hset.root other hother _ hfilter).1
  rw [hname] at habove
  have hlength := length_chars_of_isBelow (hset.source_ne source hsource) hbelow
  rcases habove with heq | habove
  · rw [← heq] at hlength
    omega
  · have hlength' := length_chars_of_isBelow (hset.dataset_ne dataset hmem) habove
    omega

theorem outside_of_keysExact (hinherits : ¬s.OwnsKey source)
    (hinclude : includeEncryptionRootChildren task)
    {dataset other : Dataset} (hmem : dataset ∈ s.shown)
    (hname : dataset.name = source) (hother : other ∈ s.shown)
    {root : DatasetName} (hroot : dataset.encryptionRoot = some root)
    (hsame : other.encryptionRoot = some root)
    (hkey : s.storedKey root = some key) :
    AtOrBelow other.name source ∨ (chars other.name).length < (chars source).length := by
  by_contra hcontra
  rw [not_or, not_lt] at hcontra
  obtain ⟨dataset', hmem', hname', hne⟩ := exists_of_not_ownsKey hinherits
  have heq := inj_on_of_nodup_map hset.nodup hmem hmem' (hname.trans hname'.symm)
  rw [← heq] at hne
  have hexported : other.name ∈ s.exportedNames task root := by
    rw [exportedNames, if_pos hinclude, mem_datasetsOfRoot]
    exact ⟨other, hother, rfl, hsame⟩
  have hassigned := @mem_allAssignments s task mapping source other.name key
    hsource root ((sourceFilters_of_inherits hset hmem hname hne).mpr hroot) hkey
    hexported
  obtain ⟨key', hget⟩ := exists_get?_ofEntries hassigned
  obtain ⟨second, hsecond, replicated, hreplicated, htarget, _⟩ := hexact.sound _ _ hget
  exact haccident.replaced source hsource second hsecond other.name
    replicated.name (known_of_shown hother) (known_of_shown hreplicated.1)
    hcontra.1 hcontra.2 hreplicated.atOrBelow htarget

theorem covered_of_keysExact : s.Covered task source where
  stored howns hinclude name hname hstored := by
    obtain ⟨key, hkey⟩ := isSome_iff_exists.mp hstored
    exact stored_of_keysExact hset haccident hexact hsource howns hinclude hname hkey
  below hinherits hrecursive dataset hmem hroot hbelow :=
    below_of_keysExact hset haccident hexact hsource hinherits hrecursive hmem hroot hbelow
  outside hinherits hinclude dataset hmem hname other hother root hroot hsame hstored := by
    obtain ⟨key, hkey⟩ := isSome_iff_exists.mp hstored
    exact outside_of_keysExact hset haccident hexact hsource hinherits hinclude
      hmem hname hother hroot hsame hkey

end

/-- The keys that are exported are those of the replicated datasets when every
source is covered and no names clash, and, without accidents, only then. -/
theorem exportKeysForReplication_exact (hset : s.IsSetting task) (hpush : task.direction = .push) :
    ∃ result, s.exportKeysForReplication task mapping = .ok result ∧
      ((∀ source ∈ task.sourceDatasets, s.Covered task source) →
        s.NoClash task mapping → s.KeysExact task mapping result) ∧
      (s.NoAccident task mapping → (s.KeysExact task mapping result ↔
          ∀ source ∈ task.sourceDatasets, s.Covered task source)) := by
  refine ⟨_, exportKeys_eq hpush, keysExact_of_covered hset, ?_⟩
  intro haccident
  constructor
  · intro hexact source hsource
    exact covered_of_keysExact hset haccident hexact hsource
  · intro hcovered
    exact keysExact_of_covered hset hcovered (noClash_of_noAccident hset haccident)

/-! ## Instances -/

def childMapping : SourceMapping := fun sources target source =>
  if sources.length = 1 then target
  else target ++ '/' :: (source.getLastD "").toList

def tankTask (source : DatasetName) : KeyExportTask where
  direction := .push
  sourceDatasets := [source]
  targetDataset := "dest".toList
  recursive := true
  replicate := false

def tankDataset (name : DatasetName) (root : Option DatasetName) : Dataset where
  name := name
  encrypted := root.isSome
  encryptionRoot := root
  keyFormat := root.map fun _ => .hex
  keyLoaded := true

def tank : KeyStore where
  datasets := [tankDataset ["tank"] none, tankDataset ["tank", "enc"] (some ["tank", "enc"]),
      tankDataset ["tank", "enc", "child"] (some ["tank", "enc"])]
  rows := [{
    id := 1
    name := ["tank", "enc"]
    encryptionKey := some "aa"
    kmipUid := none }]
  zfsKeys := Dict.empty

theorem storedKey_tank (name : DatasetName) :
    tank.storedKey name = if name = ["tank", "enc"] then some "aa" else none := by
  have hkeys : queryEncryptedRootsKeys tank.rows (fun _ => true) tank.zfsKeys =
      Dict.empty.set ["tank", "enc"] "aa" := by
    rfl
  rw [storedKey, hkeys, get?_set]
  simp

theorem isSetting_tank : tank.IsSetting (tankTask ["tank", "enc"]) where
  source_ne := by decide
  dataset_ne := by decide
  nodup := by decide
  root dataset hmem name hroot := by
    have hall : ∀ dataset ∈ tank.shown, dataset.encryptionRoot.all fun name =>
          decide (AtOrBelow dataset.name name) && tank.shown.any fun root =>
            decide (root.name = name ∧ root.encryptionRoot = some name) := by
      decide
    have hdataset := hall dataset hmem
    rw [hroot, all_some, Bool.and_eq_true, List.any_eq_true] at hdataset
    simpa using hdataset

theorem ownsKey_tank : tank.OwnsKey ["tank", "enc"] := by
  unfold OwnsKey
  decide

theorem known_tank {name : DatasetName} (hknown : tank.Known (tankTask ["tank", "enc"]) name) :
    name ∈ [["tank"], ["tank", "enc"], ["tank", "enc", "child"]] := by
  rcases hknown with hsource | hshown | hstored
  · have heq := mem_singleton.mp hsource
    rw [heq]
    decide
  · exact hshown
  · rw [storedKey_tank] at hstored
    split at hstored
    · rename_i heq
      rw [heq]
      decide
    · cases hstored

theorem noAccident_tank : tank.NoAccident (tankTask ["tank", "enc"]) childMapping where
  target first hfirst second hsecond d e hd he := by
    have hall : ∀ d ∈ [["tank"], ["tank", "enc"], ["tank", "enc", "child"]],
        ∀ e ∈ [["tank"], ["tank", "enc"], ["tank", "enc", "child"]],
          AtOrBelow d ["tank", "enc"] → AtOrBelow e ["tank", "enc"] →
            targetName (tankTask ["tank", "enc"]) childMapping ["tank", "enc"] d =
              targetName (tankTask ["tank", "enc"]) childMapping ["tank", "enc"] e →
            ["tank", "enc"] = ["tank", "enc"] ∧ d = e := by
      decide
    have hfirst := mem_singleton.mp hfirst
    have hsecond := mem_singleton.mp hsecond
    rw [hfirst, hsecond]
    exact hall d (known_tank hd) e (known_tank he)
  replaced first hfirst second hsecond d e hd he := by
    have hall : ∀ d ∈ [["tank"], ["tank", "enc"], ["tank", "enc", "child"]],
        AtOrBelow d ["tank", "enc"] ∨ ¬(chars ["tank", "enc"]).length ≤ (chars d).length := by
      decide
    intro habove hlength
    rw [mem_singleton.mp hfirst] at habove hlength
    rcases hall d (known_tank hd) with h | h
    · exact absurd h habove
    · exact absurd hlength h
  key first second key hfirst hsecond := by
    rw [storedKey_tank] at hfirst hsecond
    grind

theorem covered_tank : ∀ source ∈ (tankTask ["tank", "enc"]).sourceDatasets,
    tank.Covered (tankTask ["tank", "enc"]) source := by
  intro source hsource
  rw [mem_singleton.mp hsource]
  exact {
    stored := fun _ hinclude => absurd hinclude (by decide)
    below := fun hinherits => absurd ownsKey_tank hinherits
    outside := fun hinherits => absurd ownsKey_tank hinherits }

theorem tank_enc_keysExact : ∃ result, tank.exportKeysForReplication (tankTask ["tank", "enc"])
      childMapping = .ok result ∧
    tank.KeysExact (tankTask ["tank", "enc"]) childMapping result ∧
    ∀ source ∈ (tankTask ["tank", "enc"]).sourceDatasets,
      tank.Covered (tankTask ["tank", "enc"]) source := by
  obtain ⟨result, hresult, hexact, hiff⟩ := exportKeysForReplication_exact isSetting_tank
      (show (tankTask ["tank", "enc"]).direction = .push from rfl)
  have hkeys := hexact covered_tank (noClash_of_noAccident isSetting_tank noAccident_tank)
  exact ⟨result, hresult, hkeys, (hiff noAccident_tank).mp hkeys⟩

/-- No key below an unencrypted source is exported. -/
theorem tank_not_keysExact :
    ∃ result, tank.exportKeysForReplication (tankTask ["tank"]) childMapping = .ok result ∧
      ¬tank.KeysExact (tankTask ["tank"]) childMapping result := by
  refine ⟨Dict.empty, rfl, ?_⟩
  intro hexact
  have hget := hexact.complete ["tank"] (by decide)
    (tankDataset ["tank", "enc"] (some ["tank", "enc"])) ⟨by decide, by decide⟩
    (by decide) "aa" (by rw [storedKey_tank]; rfl)
  cases hget

end KeyStore

end Middlewared
