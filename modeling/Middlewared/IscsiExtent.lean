import Middlewared.Dict
import Middlewared.PyString
import Middlewared.ValidationErrors

/-!
# iSCSI extents

An extent of type `FILE` is a file with a recorded size.
-/

namespace Middlewared

open PyString

abbrev FileId := ℕ

inductive FsNode where
  | file (id : FileId)
  | other

structure FileSystem where
  lookup : String → Option FsNode
  length : FileId → Option ℕ
  length_isSome : ∀ path id, lookup path = some (.file id) → (length id).isSome = true

/-- The length after `truncate -s size`: a sign makes the size relative. -/
def truncatedLength (size : ℤ) (length : ℕ) : ℕ :=
  if size < 0 then length - size.natAbs else size.toNat

namespace FileSystem

def isFile (files : FileSystem) (path : String) : Bool :=
  match files.lookup path with
  | some (.file _) => true
  | _ => false

def setLength (files : FileSystem) (id : FileId) (length : ℕ) :
    FileSystem where
  lookup := files.lookup
  length := Function.update files.length id (some length)
  length_isSome := by
    intro path other hlookup
    have hsome := files.length_isSome path other hlookup
    by_cases hsame : other = id
    · simp [hsame]
    · simpa [hsame] using hsome

/-- `truncate -s size` of something that exists. -/
def truncate (files : FileSystem) (node : FsNode) (size : ℤ) : FileSystem :=
  match node with
  | .file id =>
    match files.length id with
    | some length => files.setLength id (truncatedLength size length)
    | none => files
  | .other => files

def Keeps (files next : FileSystem) : Prop :=
  ∀ id length, files.length id = some length → next.length id = some length

def NeverShrinks (files next : FileSystem) : Prop :=
  ∀ id length, files.length id = some length →
    ∃ longer, length ≤ longer ∧ next.length id = some longer

end FileSystem

inductive ExtentType where
  | disk
  | file

structure ExtentSize where
  value : ℤ
  isText : Bool

/-- The fields of an extent that the checks and `save` look at. -/
structure Extent where
  name : String
  type : ExtentType
  disk : Option String := none
  serial : Option String := none
  path : Option String := none
  filesize : ExtentSize := ⟨0, true⟩
  blocksize : ℕ := 512
  naa : Option String := none
  ro : Bool := false

/-- A field is `none` when it is left out, and `some none` when it is null. -/
structure ExtentUpdate where
  name : Option String := none
  type : Option ExtentType := none
  disk : Option (Option String) := none
  serial : Option (Option String) := none
  path : Option (Option String) := none
  filesize : Option ExtentSize := none
  blocksize : Option ℕ := none
  ro : Option Bool := none

inductive ExtentError where
  | validationErrors (errors : List VerrorEntry)
  | callError (errmsg : String)
  | instanceNotFound (errmsg : String)
  | raised (errmsg : String)

/-- What the service finds and calls outside: a random serial that is not in
use, a random NAA, the checks of paths, the system calls on files that leave
every file alone, and the calls that follow when the file has been saved. -/
structure ExtentCalls where
  serial : Option String
  naa : String
  (pathErrors zvolErrors : String → String → List VerrorEntry)
  mkdir : FileSystem → String → FileSystem × Option String
  create : FileSystem → String → ℤ → FileSystem
  resync : String → Option String
  setReadonly : String → Bool → Option String
  storeRow : Extent → Option String
  mkdir_keeps : ∀ (files : FileSystem) dirs, files.Keeps (mkdir files dirs).1
  create_keeps : ∀ (files : FileSystem) path size, files.Keeps (create files path size)

structure ExtentWorld where
  files : FileSystem
  extents : Dict ℤ Extent

namespace Extent

def updated (old : Extent) (data : ExtentUpdate) : Extent where
  name := data.name.getD old.name
  type := data.type.getD old.type
  disk := data.disk.getD old.disk
  serial := data.serial.getD old.serial
  path := data.path.getD old.path
  filesize := data.filesize.getD old.filesize
  blocksize := data.blocksize.getD old.blocksize
  naa := old.naa
  ro := data.ro.getD old.ro

def extend (data : Extent) : Extent :=
  { data with
    disk := match data.type with
      | .disk => data.path
      | .file => none
    filesize := { data.filesize with isText := true } }

variable (calls : ExtentCalls) (world : ExtentWorld)

def extentSerial (serial : Option String) : Except ExtentError String :=
  if serial.getD "" = "" then
    match calls.serial with
    | some serial => .ok serial
    | none => .error (.callError "Failed to generate a random extent serial")
  else .ok (serial.getD "")

def extentNaa (naa : Option String) : String := naa.getD calls.naa

def validate (data : Extent) : Except ExtentError Extent := do
  let serial ← extentSerial calls data.serial
  .ok { data with serial := some serial, naa := some (extentNaa calls data.naa) }

def cleanName (data : Extent) (schemaName : String) (old : Option Extent) :
    List VerrorEntry :=
  errorIf (decide ('"' ∈ data.name.toList)) (schemaName ++ ".name")
    "Double quotes are not allowed" ++
  errorIf (decide (old.map Extent.name ≠ some data.name) &&
      world.extents.entries.any fun entry => entry.2.name = data.name)
    (schemaName ++ ".name") "Extent name must be unique"

def cleanSerial (data : Extent) (schemaName : String) (old : Option Extent) :
    List VerrorEntry :=
  let serial := data.serial.getD ""
  errorIf (decide ('"' ∈ serial.toList)) (schemaName ++ ".serial")
    "Double quotes are not allowed" ++
  errorIf (decide (20 < serial.length)) (schemaName ++ ".serial")
    "Extent serial can not exceed 20 characters" ++
  errorIf (decide (old.map Extent.serial ≠ some data.serial) &&
      world.extents.entries.any fun entry => entry.2.serial = data.serial)
    (schemaName ++ ".serial") "Serial number must be unique"

/-- `zvol_path_to_name` of the device of a disk. -/
def zvolName (disk : String) : String :=
  String.ofList ((disk.toList.drop "zvol/".length).map fun c => if c = '+' then ' ' else c)

def cleanTypeAndPath (data : Extent) (schemaName : String) :
    List VerrorEntry × Bool :=
  match data.type with
  | .disk =>
    let disk := data.disk.getD ""
    if disk = "" then
      ([(schemaName ++ ".disk", "This field is required")], true)
    else if !startsWith disk "zvol/" then
      ([(schemaName ++ ".disk", "Disk name must start with \"zvol/\"")], true)
    else
      let device := "/dev/" ++ disk
      (errorIf (world.files.lookup device).isNone (schemaName ++ ".disk")
        ("Device " ++ PyString.repr device ++ " for volume " ++
          PyString.repr (zvolName disk) ++ " does not exist") ++
      calls.zvolErrors (schemaName ++ ".disk") device ++
      errorIf (decide ('@' ∈ (zvolName disk).toList) && !data.ro)
        (schemaName ++ ".ro") "Must be set when disk is a ZFS Snapshot",
      false)
  | .file =>
    let path := data.path.getD ""
    if path = "" then
      ([(schemaName ++ ".path", "This field is required")], true)
    else
      (errorIf ((world.files.lookup path).isSome && (!world.files.isFile path || endsWith path "/"))
        (schemaName ++ ".path")
        "You need to specify a filepath not a directory" ++
      calls.pathErrors (schemaName ++ ".path") path, false)

/-- The remainder of the size by the block size is taken of a float, which is
exact below `2 ^ 53` and for every multiple of the block size. -/
def cleanSize (data : Extent) (schemaName : String) : List VerrorEntry :=
  match data.type with
  | .disk => []
  | .file =>
    let path := data.path.getD ""
    if path = "" then [(schemaName ++ ".path", "This field is required")]
    else if data.filesize.value = 0 ∧ data.filesize.isText = false then
      errorIf (!world.files.isFile path) (schemaName ++ ".path")
        "The file must exist if the extent size is set to auto (0)"
    else
      errorIf (decide (data.filesize.value % data.blocksize ≠ 0)) (schemaName ++ ".filesize")
        ("File size (" ++ toString data.filesize.value ++ ") must be a multiple of block size (" ++
          toString data.blocksize ++ ")")

def clean (data : Extent) (schemaName : String) (old : Option Extent) :
    List VerrorEntry :=
  let named := cleanName world data schemaName old ++
    cleanSerial world data schemaName old
  match cleanTypeAndPath calls world data schemaName with
  | (errors, true) => named ++ errors
  | (errors, false) => named ++ errors ++ cleanSize world data schemaName

/-- `'/'.join(path.split('/')[:-1])` -/
def parentDirs (path : String) : String :=
  String.ofList (['/'].intercalate (path.toList.splitOn '/').dropLast)

/-- `save`, with the file system it leaves behind, also when it raises. -/
def save (files : FileSystem) (data : Extent) (schemaName : String)
    (old : Option Extent) :
    FileSystem × Except ExtentError (Extent × List VerrorEntry) :=
  match data.type with
  | .disk => (files, .ok ({ data with path := data.disk, disk := none }, []))
  | .file =>
    let path := data.path.getD ""
    let saved := { data with disk := none }
    match calls.mkdir files (parentDirs path) with
    | (made, some error) =>
      (made, .error (.callError ("Failed to create " ++ parentDirs path ++ " with error: " ++
          error)))
    | (made, none) =>
      match made.lookup path, old with
      | none, _ =>
        (calls.create made path data.filesize.value, .ok (saved, []))
      | some _, none => (made, .ok (saved, []))
      | some node, some old =>
        if old.filesize.value < data.filesize.value then
          let resized := made.truncate node data.filesize.value
          match calls.resync path with
          | some error => (resized, .error (.raised error))
          | none => (resized, .ok (saved, []))
        else
          (made, .ok (saved, errorIf (decide (data.filesize.value < old.filesize.value))
            (schemaName ++ ".filesize")
            ("Shrinking an extent is not allowed. This can lead to " ++ "data loss.")))

def finish (id : ℤ) (saved : Extent) (errors : List VerrorEntry) :
    ExtentWorld × Except ExtentError Extent :=
  let path := saved.path.getD ""
  if errors ≠ [] then (world, .error (.validationErrors errors))
  else
    let raised :=
      (if startsWith path "zvol/" then calls.setReadonly path saved.ro
        else none).or (calls.storeRow saved)
    match raised with
    | some error => (world, .error (.raised error))
    | none =>
      ({ world with extents := world.extents.set id saved.extend }, .ok saved.extend)

def doUpdate (id : ℤ) (data : ExtentUpdate) :
    ExtentWorld × Except ExtentError Extent :=
  match world.extents.get? id with
  | none =>
    (world, .error (.instanceNotFound ("iSCSITargetExtent " ++ toString id ++ " does not exist")))
  | some old =>
    match validate calls (old.updated data) with
    | .error error => (world, .error error)
    | .ok new =>
      let errors := clean calls world new "iscsi_extent_update" (some old)
      if errors ≠ [] then (world, .error (.validationErrors errors))
      else
        match save calls world.files new "iscsi_extent_create" (some old) with
        | (files, .error error) => ({ world with files }, .error error)
        | (files, .ok (saved, errors)) =>
          finish calls { world with files } id saved errors

end Extent

end Middlewared
