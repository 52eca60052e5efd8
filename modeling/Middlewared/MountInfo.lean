import Middlewared.Dict
import Middlewared.ExceptRules
import Middlewared.PyText
import Middlewared.Sid

/-!
# Mounts

`getmntinfo` reads the lines of /proc/self/mountinfo.  The lines are texts: what the kernel writes
is taken to be decodable.
-/

namespace Middlewared

open PyString PyText

inductive MountError where
  | valueError
  | indexError
  | keyError
  | overflowError
  | unboundLocalError
deriving DecidableEq

/-- The decimal digits of `int`, of which no letter is one, and `upper`. -/
structure MountRuntime where
  digits : DecimalDigits
  letter : digits.value 'r' = none
  upper : List Char → List Char

structure MountEntry where
  (mountId parentId major minor : ℤ)
  devT : ℕ
  (root mountpoint : List Char)
  mountOpts : List (List Char)
  (fsType mountSource : List Char)
  superOpts : List (List Char)
deriving DecidableEq

namespace DecimalDigits

variable (digits : DecimalDigits)

def readDigits (number : ℕ) : List Char → Option ℕ
  | [] => some number
  | c :: rest =>
    if c = '_' then
      match rest with
      | [] => none
      | d :: rest =>
        (digits.addDigit number d).bind fun number => readDigits number rest
    else (digits.addDigit number c).bind fun number => readDigits number rest

def readMagnitude : List Char → Option ℤ
  | [] => none
  | c :: rest =>
    ((digits.addDigit 0 c).bind fun number => digits.readDigits number rest).map Int.ofNat

/-- `int(text)` for any text. -/
def toInt? (text : List Char) : Option ℤ :=
  match stripChars text with
  | '-' :: rest => (digits.readMagnitude rest).map fun n => -n
  | '+' :: rest => digits.readMagnitude rest
  | text => digits.readMagnitude text

end DecimalDigits

/-- `f'{number}'` -/
def decimal (number : ℕ) : List Char := Nat.toDigits 10 number

namespace DeviceNumber

/-- A C `int` as an `unsigned int`. -/
def unsigned (number : ℤ) : ℕ := (number % 2 ^ 32).toNat

/-- `makedev` of the C library. -/
def pack (major minor : ℕ) : ℕ :=
  minor % 2 ^ 8 + major % 2 ^ 12 * 2 ^ 8 + minor / 2 ^ 8 * 2 ^ 20 + major / 2 ^ 12 * 2 ^ 44

/-- `os.major` -/
def major (device : ℕ) : ℕ :=
  device / 2 ^ 8 % 2 ^ 12 + device / 2 ^ 44 * 2 ^ 12

/-- `os.minor` -/
def minor (device : ℕ) : ℕ :=
  device % 2 ^ 8 + device / 2 ^ 20 % 2 ^ 24 * 2 ^ 8

def IsInt (number : ℤ) : Prop := -2 ^ 31 ≤ number ∧ number < 2 ^ 31

instance (number : ℤ) : Decidable (IsInt number) :=
  inferInstanceAs (Decidable (_ ∧ _))

/-- `os.makedev` -/
def makedev (major minor : ℤ) : Except MountError ℕ :=
  if IsInt major ∧ IsInt minor then .ok (pack (unsigned major) (unsigned minor))
  else .error .overflowError

/-- `f'{os.major(dev_id)}:{os.minor(dev_id)}'` -/
def majMin (device : ℕ) : List Char :=
  decimal (major device) ++ ':' :: decimal (minor device)

end DeviceNumber

variable (rt : MountRuntime)

namespace MountInfo

/-- `text.replace('\\040', ' ')` -/
def unescape (text : List Char) : List Char :=
  replaceAll ['\\', '0', '4', '0'] [' '] text

def toInt (text : List Char) : Except MountError ℤ :=
  match rt.digits.toInt? text with
  | some number => .ok number
  | none => .error .valueError

def options (text : List Char) : List (List Char) :=
  (rt.upper text).splitOn ','

/-- The entry of the parts of a line, once `extra` has been taken apart. -/
def entryOfParts (mntId parentId majMin root mp opts fstype mntSrc superOpts :
    List Char) : Except MountError MountEntry :=
  match majMin.splitOn ':' with
  | [major, minor] => do
    let major ← toInt rt major
    let minor ← toInt rt minor
    let devid ← DeviceNumber.makedev major minor
    let mntId ← toInt rt mntId
    let parentId ← toInt rt parentId
    return {
      mountId := mntId
      parentId
      major
      minor
      devT := devid
      root := unescape root
      mountpoint := unescape mp
      mountOpts := options rt opts
      fsType := fstype
      mountSource := unescape mntSrc
      superOpts := options rt superOpts }
  | _ => .error .valueError

def mntentDict (line : List Char) : Except MountError MountEntry :=
  match splitLimit ' ' 6 line with
  | [mntId, parentId, majMin, root, mp, opts, extra] =>
    match (splitText [' ', '-', ' '] extra)[1]? with
    | none => .error .indexError
    | some fields =>
      match words fields with
      | [fstype, mntSrc, superOpts] =>
        entryOfParts rt mntId parentId majMin root mp opts fstype mntSrc superOpts
      | _ => .error .valueError
  | _ => .error .valueError

def parseToDev (outDict : Dict ℤ MountEntry) (line : List Char) :
    Except MountError (Dict ℤ MountEntry) := do
  let entry ← mntentDict rt line
  return outDict.set entry.devT entry

def parseToMntId (outDict : Dict ℤ MountEntry) (line : List Char) :
    Except MountError (Dict ℤ MountEntry) := do
  let entry ← mntentDict rt line
  return outDict.set entry.mountId entry

def truthy (number : Option ℕ) : Option ℕ := number.filter (· ≠ 0)

section

variable (callback : Dict ℤ MountEntry → List Char →
  Except MountError (Dict ℤ MountEntry)) (lines : List (List Char))

def parseFirst (selected : List Char → Bool) :
    Except MountError (Dict ℤ MountEntry) :=
  match lines.find? selected with
  | some line => callback Dict.empty line
  | none => .ok Dict.empty

/-- `__iter_mountinfo`, which has no text for `mnt_id` zero. -/
def iterMountinfo (devId mntId : Option ℕ) :
    Except MountError (Dict ℤ MountEntry) :=
  match truthy devId with
  | some device =>
    if 2 ^ 64 ≤ device then .error .overflowError
    else parseFirst callback lines fun line =>
      decide (DeviceNumber.majMin device <:+: line)
  | none =>
    match mntId with
    | none => lines.foldlM callback Dict.empty
    | some mount =>
      if mount ≠ 0 then
        parseFirst callback lines (decimal mount ++ [' ']).isPrefixOf
      else if lines = [] then .ok Dict.empty
      else .error .unboundLocalError

end

def getmntinfo (text : List Char) (devId mntId : Option ℕ) :
    Except MountError (Dict ℤ MountEntry) :=
  match truthy mntId with
  | some mount =>
    iterMountinfo (parseToMntId rt) (readLines text) none (some mount)
  | none => iterMountinfo (parseToDev rt) (readLines text) devId none

structure Tree where
  info : Dict ℤ MountEntry
  children : Dict ℤ (List ℤ)
  top : ℤ

structure Links where
  rootId : Option ℤ
  children : Dict ℤ (List ℤ)

def childrenOf (children : Dict ℤ (List ℤ)) (id : ℤ) : List ℤ :=
  (children.get? id).getD []

/-- One step of the loop in `__create_tree`. -/
def link (info : Dict ℤ MountEntry) (links : Links) (entry : MountEntry) :
    Except MountError Links :=
  let children :=
    if childrenOf links.children entry.mountId = [] then
      links.children.set entry.mountId []
    else links.children
  if entry.parentId = 1 then .ok ⟨some entry.mountId, children⟩
  else if (info.get? entry.parentId).isNone then .error .keyError
  else
    .ok ⟨links.rootId, children.set entry.parentId
      (childrenOf children entry.parentId ++ [entry.mountId])⟩

def createTree (info : Dict ℤ MountEntry) (mountId : Option ℕ) :
    Except MountError Tree := do
  let links ← (info.entries.map Prod.snd).foldlM (link info) ⟨none, Dict.empty⟩
  match ((truthy mountId).map Int.ofNat).or links.rootId with
  | none => .error .keyError
  | some top =>
    if (info.get? top).isNone then .error .keyError
    else .ok ⟨info, links.children, top⟩

def getmnttree (text : List Char) (mountId : Option ℕ) :
    Except MountError Tree := do
  let info ← iterMountinfo (parseToMntId rt) (readLines text) none none
  createTree info mountId

end MountInfo

def octal (c : Char) : List Char :=
  ['\\', (c.toNat / 64 % 8).digitChar, (c.toNat / 8 % 8).digitChar, (c.toNat % 8).digitChar]

def escape (escaped : Char → Bool) (text : List Char) : List Char :=
  text.flatMap fun c => if escaped c then octal c else [c]

def pathEscaped (c : Char) : Bool :=
  c = ' ' || c = '\t' || c = '\n' || c = '\\'

def sourceEscaped (c : Char) : Bool := pathEscaped c || c = '#'

def IsWord (text : List Char) : Prop :=
  text ≠ [] ∧ ∀ c ∈ text, isSpace c = false

structure Mount where
  (mountId parentId major minor : ℕ)
  (root mountpoint : List Char)
  readOnly : Bool
  options : List Char
  optional : List (List Char)
  (fsType source : List Char)
  superReadOnly : Bool
  superOptions : List Char
  device_lt : major < 2 ^ 31 ∧ minor < 2 ^ 31
  options_word : ∀ c ∈ options, isSpace c = false
  optional_word : ∀ field ∈ optional, IsWord field ∧ field ≠ ['-']
  fsType_word : IsWord fsType ∧ fsType ≠ ['-']
  superOptions_word : ∀ c ∈ superOptions, isSpace c = false

namespace Mount

def access (readOnly : Bool) : List Char :=
  ['r', if readOnly then 'o' else 'w']

variable (mount : Mount)

def opts : List Char := access mount.readOnly ++ mount.options

def superOpts : List Char := access mount.superReadOnly ++ mount.superOptions

def numbers : List Char := decimal mount.major ++ ':' :: decimal mount.minor

def extra : List Char :=
  (mount.optional.flatMap fun field => field ++ [' ']) ++ '-' :: ' ' :: (mount.fsType ++
      ' ' :: (escape sourceEscaped mount.source ++ ' ' :: mount.superOpts))

/-- What is written of a mount, but for the `\n` at the end. -/
def body : List Char :=
  decimal mount.mountId ++ ' ' :: (decimal mount.parentId ++ ' ' :: (mount.numbers ++
        ' ' :: (escape pathEscaped mount.root ++ ' ' :: (escape pathEscaped mount.mountpoint ++
            ' ' :: (mount.opts ++ ' ' :: mount.extra)))))

end Mount

/-- The mounts of a namespace; a number is that of one mount. -/
structure MountTable where
  mounts : List Mount
  nodup : (mounts.map Mount.mountId).Nodup

def MountTable.text (table : MountTable) : List Char :=
  table.mounts.flatMap fun mount => mount.body ++ ['\n']

end Middlewared
