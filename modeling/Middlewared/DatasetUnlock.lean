import Middlewared.DatasetChangeKey

/-!
# Unlocking datasets

`unlock` of `PoolDatasetService`, up to what it does for the datasets that it
has unlocked.  The immutable flag of a mount path can always be changed.
-/

namespace Middlewared

namespace DatasetName

/-- `name.rsplit('/', i)[0]` for `i` from `first` to the number of slashes. -/
def rsplits (name : DatasetName) (first : ℕ) : List DatasetName :=
  (List.range' first (name.length - first)).map fun i =>
    name.take (name.length - i)

/-- `name.count('/')`. -/
def slashes (name : DatasetName) : ℕ :=
  name.length - 1

end DatasetName

inductive MountPath where
  | absent
  | file
  | emptyDirectory
  | directory
  | other

namespace MountPath

def IsFree (path : MountPath) : Prop :=
  path = .absent ∨ path = .emptyDirectory

def makeWay : MountPath → MountPath
  | .emptyDirectory => .emptyDirectory
  | .absent | .file | .directory | .other => .absent

end MountPath

/-- `dataset_can_be_mounted`, with the path under `/mnt`. -/
def datasetCanBeMounted (name : DatasetName) (path : MountPath) :
    Option String :=
  let mountpoint := PyString.repr ("/mnt/" ++ name.text)
  let check :=
    match path with
    | .file => some ("A file exists at " ++ mountpoint ++ " and " ++
        name.text ++ " cannot be mounted")
    | .directory => some (mountpoint ++ " directory is not empty")
    | .absent | .emptyDirectory | .other => none
  check.map fun text => text ++ " (please provide \"force\" flag to override this error and " ++
    "file/directory will be renamed once the dataset is unlocked)"

inductive ZfsKey where
  | text (key : String)
  | bytes (key : List UInt8)
deriving DecidableEq

def ZfsKey.isEmpty : ZfsKey → Bool
  | .text key => decide (key = "")
  | .bytes key => key.isEmpty

def hexDigit (c : Char) : Option ℕ :=
  "0123456789abcdef".toList.idxOf? c.toLower

def isAsciiSpace (c : Char) : Bool :=
  decide (c.toNat = 32 ∨ 9 ≤ c.toNat ∧ c.toNat ≤ 13)

/-- `bytes.fromhex`, which skips white space between bytes. -/
def fromhex : List Char → Option (List UInt8)
  | [] => some []
  | [c] => if isAsciiSpace c then some [] else none
  | c :: d :: rest =>
    if isAsciiSpace c then fromhex (d :: rest)
    else
      (hexDigit c).bind fun high =>
        (hexDigit d).bind fun low =>
          (fromhex rest).map fun bytes =>
            UInt8.ofNat (16 * high + low) :: bytes

inductive LoadKeyError where
  | incorrectKeyProvided
  | other (message : String)

structure Zfs where
  checkKey : DatasetName → Option ZfsKey → Bool
  loadKey : DatasetName → ZfsKey → Option LoadKeyError
  mount : DatasetName → MountPath → Option String

structure Zfs.Lawful (zfs : Zfs) : Prop where
  loadKey : ∀ name key, zfs.loadKey name key = none ↔ zfs.checkKey name (some key) = true
  mount : ∀ name path, path.IsFree → zfs.mount name path = none

/-- The datasets, the stored keys, and the mount paths: before the request, and
when the turn of the dataset comes. -/
structure EncryptedPool where
  datasets : List Dataset
  rows : List EncryptedDatasetRow
  zfsKeys : Dict DatasetName String
  (mountPath mountPathAtTurn : DatasetName → MountPath)
  nodup : (datasets.map Dataset.name).Nodup
  nonempty : ∀ d ∈ datasets, d.name ≠ []
  keyFormat : ∀ d ∈ datasets, d.encrypted → d.keyFormat.isSome

/-- An entry of `query_encrypted_datasets`. -/
structure EncryptedDataset where
  name : DatasetName
  keyFormat : Option ZFSKeyFormat
  locked : Bool
  encryptionKey : Option String

namespace EncryptedPool

def rootsKeys (s : EncryptedPool) (name : DatasetName) :
    Dict DatasetName String :=
  queryEncryptedRootsKeys s.rows (fun other => decide (name <+: other)) s.zfsKeys

def normalize (dbResults : Dict DatasetName String) (d : Dataset) :
    EncryptedDataset where
  name := d.name
  keyFormat := d.keyFormat
  locked := d.locked
  encryptionKey := if d.keyFormat = some .passphrase then none else dbResults.get? d.name

/-- `query_encrypted_datasets`; the names are distinct. -/
def queryEncryptedDatasets (s : EncryptedPool) (name : DatasetName)
    (all keyLoaded : Bool) : List EncryptedDataset :=
  ((poolDatasetQuery s.datasets).filter fun d =>
    d.isEncryptionRoot && d.encrypted && decide (name <+: d.name) &&
      (all || (d.keyLoaded && keyLoaded) || (!d.keyLoaded && !keyLoaded))).map
    (normalize (s.rootsKeys name))

end EncryptedPool

/-! ## `unlock` -/

/-- An item of `datasets`. -/
structure UnlockDataset where
  force : Bool
  name : DatasetName
  (key passphrase : Option String)
  recursive : Bool

/-- `unlock_options`, with what is read of the key file. -/
structure UnlockOptions where
  force : Bool
  keyFile : Option (List (DatasetName × String))
  recursive : Bool
  datasets : List UnlockDataset

structure UnlockFailure where
  error : Option String
  skipped : List DatasetName

structure UnlockResult where
  unlocked : List DatasetName
  failed : Dict DatasetName UnlockFailure

/-- `ds.get('key') or ds.get('passphrase')`. -/
def keyOrPassphrase (key passphrase : Option String) : Option String :=
  (truthy key).or passphrase

def bothGivenError (i : ℕ) (name : DatasetName) : VerrorEntry :=
  ("unlock_options.datasets." ++ toString i ++ ".dataset.key",
    "Must not be specified when passphrase for " ++ name.text ++ " is supplied")

namespace EncryptedPool

def keysSupplied (options : UnlockOptions) :
    Dict DatasetName (Option String) :=
  options.datasets.foldl (fun keys ds => keys.set ds.name (keyOrPassphrase ds.key ds.passphrase))
    (Dict.ofEntries ((options.keyFile.getD []).map fun entry =>
      (entry.1, some entry.2)))

def keyErrors (i : ℕ) (ds : UnlockDataset) : List VerrorEntry :=
  match truthy ds.key, truthy ds.passphrase with
  | some _, some _ => [bothGivenError i ds.name]
  | none, none =>
    [("unlock_options.datasets." ++ toString i ++ ".dataset",
      "Passphrase or key must be specified for " ++ ds.name.text)]
  | some _, none | none, some _ => []

def pathErrors (s : EncryptedPool) (i : ℕ) (ds : UnlockDataset) :
    Except DatasetError (List VerrorEntry) := do
  let d ← ZFSDatasets.getInstance s.datasets ds.name
  if d.locked then
    return ((datasetCanBeMounted ds.name (s.mountPath ds.name)).map fun error =>
      ("unlock_options.datasets." ++ toString i ++ ".force", error)).toList
  else
    return []

def datasetErrors (s : EncryptedPool) (options : UnlockOptions)
    (entry : UnlockDataset × ℕ) : Except DatasetError (List VerrorEntry) := do
  if options.force || entry.1.force then
    return keyErrors entry.2 entry.1
  else
    return keyErrors entry.2 entry.1 ++ (← s.pathErrors entry.2 entry.1)

/-- The checks of `id`; without `recursive`, or below the pool, it has to be a
locked root with a key. -/
def idErrors (s : EncryptedPool) (id : DatasetName) (options : UnlockOptions)
    (dataset : Dataset) : List VerrorEntry :=
  if 0 < id.slashes || !options.recursive then
    if !dataset.locked then
      [("id", id.text ++ " dataset is not locked")]
    else if dataset.encryptionRoot ≠ some id then
      [("id", "Only encryption roots can be unlocked")]
    else if (queryEncryptedRootsKeys s.rows (fun name => decide (name = id))
        s.zfsKeys).entries.isEmpty && decide (id ∉ keysSupplied options) then
      [("unlock_options.datasets", "Please specify key for " ++ id.text)]
    else []
  else []

def assignSuppliedRecursiveKeys (requestDatasets : List UnlockDataset)
    (keysSupplied : Dict DatasetName (Option String))
    (queriedDatasets : List DatasetName) :
    Dict DatasetName (Option String) :=
  let request := Dict.ofEntries (requestDatasets.map fun ds => (ds.name, ds))
  queriedDatasets.foldl (fun keys name =>
    if name ∈ keys then keys
    else
      match (name.rsplits 1 ++ [["."]]).find? (fun parent =>
          (request.get? parent).any UnlockDataset.recursive && decide (parent ∈ keys)) with
      | some parent => keys.set name (keys.get? parent).join
      | none => keys) keysSupplied

def unlockKey (keysSupplied : Dict DatasetName (Option String))
    (ds : EncryptedDataset) : Option ZfsKey :=
  let dsKey := (truthy (keysSupplied.get? ds.name).join).or ds.encryptionKey
  match ds.keyFormat, truthy dsKey with
  | some .raw, some key => (fromhex key.toList).map .bytes
  | _, _ => dsKey.map .text

def fail (state : UnlockResult) (name : DatasetName) (error : String) :
    UnlockResult :=
  { state with failed := state.failed.set name ⟨some error, []⟩ }

def skip (state : UnlockResult) (check name : DatasetName) : UnlockResult :=
  let failure := (state.failed.get? check).getD ⟨none, []⟩
  let skipped := { failure with skipped := failure.skipped ++ [name] }
  { state with failed := state.failed.set check skipped }

def unlockDataset (zfs : Zfs) (s : EncryptedPool) (key : Option ZfsKey)
    (name : DatasetName) (state : UnlockResult) : UnlockResult :=
  match (name.rsplits 0).find? fun check => decide (check ∈ state.failed) with
  | some check => skip state check name
  | none =>
    match key.filter fun key => !key.isEmpty with
    | none => fail state name "Missing key"
    | some key =>
      match zfs.loadKey name key with
      | some .incorrectKeyProvided => fail state name "Invalid Key"
      | some (.other message) => fail state name message
      | none =>
        match zfs.mount name (s.mountPathAtTurn name).makeWay with
        | some error =>
          fail state name ("Failed to mount dataset: " ++ error)
        | none => { state with unlocked := state.unlocked ++ [name] }

def lockedParents (datasets : List EncryptedDataset) (id : DatasetName) :
    List DatasetName :=
  (datasets.filter fun ds =>
    ds.locked && decide (id.IsBelow ds.name)).map EncryptedDataset.name

def unlockNames (datasets : List EncryptedDataset) (id : DatasetName)
    (recursive : Bool) : List EncryptedDataset :=
  (datasets.filter fun ds =>
    (recursive || decide (ds.name = id)) && decide (ds.name ≠ []) &&
      decide (id <+: ds.name) && ds.locked).mergeSort fun a b =>
        decide (a.name.slashes ≤ b.name.slashes)

def unlock (zfs : Zfs) (s : EncryptedPool) (id : DatasetName)
    (options : UnlockOptions) : Except DatasetError UnlockResult := do
  let dataset ← ZFSDatasets.getInstance s.datasets id
  let errors ← options.datasets.zipIdx.mapM (s.datasetErrors options)
  verrorsCheck (errors.flatten ++ s.idErrors id options dataset)
  let datasets := s.queryEncryptedDatasets (id.take 1) false false
  let keys := assignSuppliedRecursiveKeys options.datasets
    (keysSupplied options) (datasets.map EncryptedDataset.name)
  let parents := lockedParents datasets id
  raiseIf (!parents.isEmpty) (id.text ++ " has locked parents " ++
      ",".intercalate (parents.map DatasetName.text) ++
      " which must be unlocked first")
  return (unlockNames datasets id options.recursive).foldl
    (fun state ds => s.unlockDataset zfs (unlockKey keys ds) ds.name state)
    ⟨[], Dict.empty⟩

end EncryptedPool

/-! ## The encryption summary -/

/-- An item of `datasets`. -/
structure SummaryDataset where
  force : Bool
  name : DatasetName
  (key passphrase : Option String)

/-- `encryption_root_summary_options`, with what is read of the key file. -/
structure SummaryOptions where
  force : Bool
  keyFile : Option (List (DatasetName × String))
  datasets : List SummaryDataset

def SummaryOptions.unlockOptions (options : SummaryOptions) :
    UnlockOptions where
  force := options.force
  keyFile := options.keyFile
  recursive := true
  datasets := options.datasets.map fun ds =>
    { force := ds.force
      name := ds.name
      key := ds.key
      passphrase := ds.passphrase
      recursive := false }

structure SuppliedKey where
  key : Option String
  force : Bool

structure SummaryEntry where
  name : DatasetName
  keyFormat : Option ZFSKeyFormat
  (keyPresentInDatabase validKey locked : Bool)
  unlockError : Option String
  unlockSuccessful : Bool

/-- The entries that have been worked through, and the set `failed`. -/
structure SummaryState where
  done : List SummaryEntry
  failed : List DatasetName

namespace EncryptedPool

-- Named once: every definition below uses it.
local instance lawfulFailed : LawfulBEq DatasetName := inferInstance

def summaryKeysSupplied (options : SummaryOptions) :
    Dict DatasetName SuppliedKey :=
  options.datasets.foldl (fun keys ds => keys.set ds.name
      ⟨keyOrPassphrase ds.key ds.passphrase, ds.force⟩)
    (Dict.ofEntries ((options.keyFile.getD []).map fun entry =>
      (entry.1, ⟨some entry.2, false⟩)))

def summaryErrors (options : SummaryOptions) : List VerrorEntry :=
  options.datasets.zipIdx.flatMap fun entry =>
    match truthy entry.1.key, truthy entry.1.passphrase with
    | some _, some _ => [bothGivenError entry.2 entry.1.name]
    | _, _ => []

def summaryKey (keysSupplied : Dict DatasetName SuppliedKey)
    (ds : EncryptedDataset) : Option ZfsKey :=
  let dsKey := (truthy ((keysSupplied.get? ds.name).bind SuppliedKey.key)).or
    ds.encryptionKey
  match ds.keyFormat, truthy dsKey with
  | some .raw, some key =>
    some (((fromhex key.toList).map .bytes).getD (.text key))
  | _, _ => dsKey.map .text

def summaryEntry (zfs : Zfs) (keysSupplied : Dict DatasetName SuppliedKey)
    (ds : EncryptedDataset) : SummaryEntry where
  name := ds.name
  keyFormat := ds.keyFormat
  keyPresentInDatabase := (truthy ds.encryptionKey).isSome
  validKey := zfs.checkKey ds.name (summaryKey keysSupplied ds)
  locked := ds.locked
  unlockError := none
  unlockSuccessful := false

/-- `force`, for all datasets or for this one. -/
def isForced (options : SummaryOptions) (name : DatasetName) : Bool :=
  options.force || ((summaryKeysSupplied options).get? name).any SuppliedKey.force

def pendingError (s : EncryptedPool) (options : SummaryOptions)
    (failed : List DatasetName) (ds : SummaryEntry) : Option String :=
  let parentError := ((ds.name.rsplits 1).filter fun check =>
      decide (check ∈ failed)).getLast?.map fun check =>
    "Child cannot be unlocked when parent \"" ++ check.text ++ "\" is locked"
  let mountError :=
    if ds.locked && !isForced options ds.name then
      datasetCanBeMounted ds.name (s.mountPath ds.name)
    else none
  match parentError, mountError with
  | some parent, some mount => some (parent ++ " and " ++ mount)
  | some error, none | none, some error => some error
  | none, none => none

def invalidKeyError (options : SummaryOptions) (ds : SummaryEntry)
    (pending : Option String) : String :=
  let keyProvided := decide (ds.name ∈ summaryKeysSupplied options) ||
    ds.keyPresentInDatabase
  match keyProvided, pending with
  | true, some error => error ++ " and provided key is invalid"
  | true, none => "Provided key is invalid"
  | false, some error => error
  | false, none => "Key not provided"

def summarize (s : EncryptedPool) (options : SummaryOptions)
    (state : SummaryState) (ds : SummaryEntry) : SummaryState :=
  let below := (ds.name.rsplits 1).any fun check =>
    decide (check ∈ state.failed)
  let failed := if below then state.failed ++ [ds.name] else state.failed
  let error := s.pendingError options state.failed ds
  if ds.validKey then
    ⟨state.done ++ [{ ds with unlockError := error, unlockSuccessful := error.isNone }], failed⟩
  else if !ds.locked then
    ⟨state.done ++ [{ ds with unlockError := error, unlockSuccessful := true }], failed⟩
  else
    ⟨state.done ++ [{ ds with unlockError := some (invalidKeyError options ds error) }],
      failed ++ [ds.name]⟩

def summaryResults (zfs : Zfs) (s : EncryptedPool) (id : DatasetName)
    (options : SummaryOptions) : List SummaryEntry :=
  (s.queryEncryptedDatasets id true true).map (summaryEntry zfs (summaryKeysSupplied options))

def sortBySlashes (results : List SummaryEntry) : List SummaryEntry :=
  results.mergeSort fun a b => decide (a.name.slashes ≤ b.name.slashes)

def encryptionSummary (zfs : Zfs) (s : EncryptedPool) (id : DatasetName)
    (options : SummaryOptions) : Except DatasetError (List SummaryEntry) := do
  verrorsCheck (summaryErrors options)
  let results := summaryResults zfs s id options
  let final := (sortBySlashes results).foldl (s.summarize options) ⟨[], []⟩
  return results.filterMap fun ds =>
    final.done.find? fun other => decide (other.name = ds.name)

end EncryptedPool

end Middlewared
