import Middlewared.AccountService
import Middlewared.DictSpelling
import Middlewared.Sid

/-!
# Samba's group mapping

`group_mapping.tdb` maps the SID of a group to its gid and name. The ACLs of shares, the records of
the foreign members of the built-in groups and the file of winbind, which it maintains as well, are
left out.
-/

namespace Middlewared

open PyString

/-! ## The records of the file -/

inductive LsaSidtype where
  | useNone
  | user
  | domGrp
  | domain
  | alias
  | wknGrp
  | deleted
  | invalid
  | unknown
  | computer
  | label

namespace LsaSidtype

def value : LsaSidtype → ℕ
  | .useNone => 0
  | .user => 1
  | .domGrp => 2
  | .domain => 3
  | .alias => 4
  | .wknGrp => 5
  | .deleted => 6
  | .invalid => 7
  | .unknown => 8
  | .computer => 9
  | .label => 10

def all : List LsaSidtype :=
  [.useNone, .user, .domGrp, .domain, .alias, .wknGrp, .deleted, .invalid,
    .unknown, .computer, .label]

def ofValue? (n : ℕ) : Option LsaSidtype :=
  all.find? (·.value = n)

end LsaSidtype

structure SMBGroupMap where
  sid : String
  gid : ℤ
  sidType : LsaSidtype
  (name comment : String)

/-- What is stored under the key `UNIXGROUP/` and a SID: two numbers of four
bytes each, in the order of the host, and two null-terminated strings. -/
structure UnixgroupData where
  (gid sidType : UInt32)
  text : List Char
deriving DecidableEq

inductive GroupmapError where
  | account (error : AccountError)
  | sid (error : SidError)
  | extraInputs (field : String)
  | callError (errmsg : String)
  | valueError
  | overflowError
  | runtimeError
  | typeError (errmsg : String)
  | keyError
  | matchNotFound

def nul : Char := Char.ofNat 0

def parseUnixgroup (sid : String) (data : UnixgroupData) :
    Except GroupmapError SMBGroupMap :=
  match LsaSidtype.ofValue? data.sidType.toNat,
      data.text.dropLast.splitOn nul with
  | some sidType, [name, comment] =>
    .ok ⟨sid, data.gid.toNat, sidType, String.ofList name, String.ofList comment⟩
  | _, _ => .error .valueError

def groupmapToTdbVal (groupMap : SMBGroupMap) :
    Except GroupmapError UnixgroupData :=
  if 0 ≤ groupMap.gid ∧ groupMap.gid < 2 ^ 32 then
    .ok {
      gid := UInt32.ofNat groupMap.gid.toNat
      sidType := UInt32.ofNat groupMap.sidType.value
      text := groupMap.name.toList ++
        nul :: (groupMap.comment.toList ++ [nul]) }
  else .error .overflowError

structure GroupmapFiles where
  (mapping reject : Dict String UnixgroupData)

def queryGroupmapEntries (file : Dict String UnixgroupData) :
    Except GroupmapError (List SMBGroupMap) :=
  file.entries.mapM fun entry => parseUnixgroup entry.1 entry.2

def packOperation (groupMap : SMBGroupMap) :
    Except GroupmapError (String × UnixgroupData) := do
  let data ← groupmapToTdbVal groupMap
  .ok (groupMap.sid, data)

def insertGroupmapEntries (file : Dict String UnixgroupData)
    (entries : List SMBGroupMap) :
    Except GroupmapError (Dict String UnixgroupData) := do
  let batchOps ← entries.mapM packOperation
  .ok (file.update batchOps)

/-- `delete_groupmap_entry` with the SID given under the name `keyword`. -/
def deleteGroupmapEntry (keyword sid : String)
    (file : Dict String UnixgroupData) :
    Except GroupmapError (Dict String UnixgroupData) :=
  if keyword ≠ "entry_sid" then
    .error (.typeError ("delete_groupmap_entry() got an unexpected keyword " ++
      "argument '" ++ keyword ++ "'"))
  else if sid ∈ file then .ok (file.erase sid)
  else .error .runtimeError

def dbIdToRid (dbId : ℕ) : Except GroupmapError ℕ :=
  if baseSyntheticDatastoreId ≤ dbId then
    .error (.sid (.valueError "Not valid for users and groups from directory services"))
  else .ok (dbId + baseRidGroup)

section

variable {digits : DecimalDigits} (server : ServerSid digits)

/-- The `sid` of a group, as `group_extend` gives it. -/
def groupSid (pk : ℕ) (group : GroupRow) :
    Except GroupmapError (Option String) :=
  if group.group = "builtin_administrators" then
    .ok (some (server.sid ridAdmins))
  else if group.group = "builtin_guests" then
    .ok (some (server.sid ridGuests))
  else if group.smb then do
    let rid ← dbIdToRid pk
    .ok (some (server.sid rid))
  else .ok none

def addGroupmap (pk : ℕ) (group : GroupRow)
    (file : Dict String UnixgroupData) :
    Except GroupmapError (Dict String UnixgroupData) := do
  let rid ← dbIdToRid pk
  insertGroupmapEntries file [⟨server.sid rid, group.gid, .alias, group.group, ""⟩]

def delGroupmap (pk : ℕ) (file : Dict String UnixgroupData) :
    Except GroupmapError (Dict String UnixgroupData) := do
  let rid ← dbIdToRid pk
  deleteGroupmapEntry "entry_sid" (server.sid rid) file

/-! ## Group calls -/

structure GroupEnv extends AccountEnv where
  isConfigured : Bool
  (upper casefold : String → String)

def smbBuiltinNames : List String := ["ADMINISTRATORS", "GUESTS", "USERS"]

/-- The checks of `common_validation` that have to do with SMB. -/
def smbGroupErrors (env : GroupEnv) (store : AccountStore) (schema : String)
    (pk : Option ℕ) (name : Option String) (smb : Option Bool) :
    List ValidationError :=
  addError (smb.getD false && !env.isConfigured) (schema ++ ".smb")
    ("SMB groups may not be configured while SMB service backend is " ++ "unitialized.") ++
  addError (smb.getD false && name.any fun name =>
      env.upper name ∈ smbBuiltinNames)
    (schema ++ ".name")
    ("Group name \"" ++ name.getD "" ++ "\" conflicts with existing SMB " ++
      "Builtin entry. SMB group mapping is not permitted for this group.") ++
  addError (smb.getD false && name.any fun name =>
      store.groups.entries.any fun entry => entry.2.smb &&
        pk ≠ some entry.1 && env.casefold entry.2.group = env.casefold name)
    (schema ++ ".name")
    ("Group name \"" ++ name.getD "" ++ "\" conflicts with existing " ++
      "groupmap entry. SMB group mapping is not permitted for this group. " ++
      "Note that SMB group names are case-insensitive.")

def GroupEnv.withSmbErrors (env : GroupEnv)
    (errors : AccountStore → Option ℕ → List ValidationError) : AccountEnv :=
  { env.toAccountEnv with
    groupErrors := fun store pk => errors store pk ++ env.groupErrors store pk }

def localUidMax : ℕ := 90000000

structure GroupmapState where
  store : AccountStore
  mapping : Dict String UnixgroupData

inductive GroupCall where
  | create (data : GroupCreate)
  | update (pk : ℕ) (gid : Option ℕ) (data : GroupUpdate)
  | delete (pk : ℕ) (deleteUsers : Bool)

def liftAccount {α : Type} : Except AccountError α → Except GroupmapError α
  | .ok a => .ok a
  | .error error => .error (.account error)

namespace GroupmapState

variable (env : GroupEnv) (state : GroupmapState)

def createInternal (data : GroupCreate) :
    Except GroupmapError GroupmapState := do
  if data.gid.any (localUidMax < ·) then
    .error (.account (.validationErrors [⟨"group_create.gid",
      "Input should be less than or equal to 90000000"⟩]))
  else do
    let pk := AccountStore.nextId state.store.groups
    let gid := data.gid.getD state.store.getNextGid
    let store ← liftAccount (state.store.groupCreate (env.withSmbErrors
      fun store pk => smbGroupErrors env store "group_create" pk
        (some data.name) (some data.smb)) data)
    if data.smb then do
      let mapping ← addGroupmap server pk { gid, group := data.name }
        state.mapping
      .ok ⟨store, mapping⟩
    else .ok ⟨store, state.mapping⟩

/-- What `do_update` does to the mapping of the group. -/
def updateGroupmap (pk : ℕ) (group : GroupRow) (data : GroupUpdate)
    (mapping : Dict String UnixgroupData) :
    Except GroupmapError (Dict String UnixgroupData) :=
  let oldSmb := group.smb
  let newSmb := data.smb.getD group.smb
  if data.name.any (· ≠ group.group) then
    if newSmb then
      addGroupmap server pk { group with group := data.name.getD group.group } mapping
    else .ok mapping
  else if newSmb && !oldSmb then addGroupmap server pk group mapping
  else if oldSmb && !newSmb then delGroupmap server pk mapping
  else .ok mapping

/-- A `gid` is not among the fields of an update. -/
def doUpdate (pk : ℕ) (gid : Option ℕ) (data : GroupUpdate) :
    Except GroupmapError GroupmapState :=
  if gid.isSome then .error (.extraInputs "group_update.gid")
  else do
    let store ← liftAccount (state.store.groupUpdate (env.withSmbErrors
      fun store pk => smbGroupErrors env store "group_update" pk data.name data.smb) pk data)
    let group ← liftAccount (AccountStore.getRow state.store.groups pk)
    let mapping ← updateGroupmap server pk group data state.mapping
    .ok ⟨store, mapping⟩

def doDelete (pk : ℕ) (deleteUsers : Bool) :
    Except GroupmapError GroupmapState := do
  let store ← liftAccount (state.store.groupDelete pk deleteUsers)
  let group ← liftAccount (AccountStore.getRow state.store.groups pk)
  if group.smb then do
    let mapping ← delGroupmap server pk state.mapping
    .ok ⟨store, mapping⟩
  else .ok ⟨store, state.mapping⟩

def perform : GroupCall → Except GroupmapError GroupmapState
  | .create data => state.createInternal server env data
  | .update pk gid data => state.doUpdate server env pk gid data
  | .delete pk deleteUsers => state.doDelete server pk deleteUsers

def step (call : GroupEnv × GroupCall) : Option GroupmapState :=
  (state.perform server call.1 call.2).toOption

end GroupmapState

/-! ## Synchronization -/

inductive GroupmapKey where
  | builtins
  | localBuiltins
  | locals
  | toFix
deriving DecidableEq

def localBuiltinGids : List ℤ := [544, 546]

/-- Where `groupmap_list` puts an entry. -/
def groupmapKey (g : SMBGroupMap) : Except GroupmapError GroupmapKey :=
  if g.gid = -1 then .ok .toFix
  else if startsWith g.sid "S-1-5-32" then .ok .builtins
  else if startsWith g.sid server.text && decide (g.gid ∈ localBuiltinGids) then
    .ok .localBuiltins
  else if startsWith g.sid server.text then
    match getDomainRid digits g.sid with
    | .error error => .error (.sid error)
    | .ok rid => if rid < baseRidUser then .ok .toFix else .ok .locals
  else .ok .toFix

def entriesByGid (key : GroupmapKey) (keyed : List (SMBGroupMap × GroupmapKey)) :
    Dict ℤ SMBGroupMap :=
  Dict.ofEntries ((keyed.filter (·.2 = key)).map fun g => (g.1.gid, g.1))

structure Groupmap where
  (builtins locals localBuiltins : Dict ℤ SMBGroupMap)

def fixEntry (files : GroupmapFiles) (entry : SMBGroupMap) :
    Except GroupmapError GroupmapFiles := do
  let reject ← if entry.gid ≠ -1 then
      insertGroupmapEntries files.reject [{ entry with sidType := .alias }]
    else .ok files.reject
  match deleteGroupmapEntry "entry_sid" entry.sid files.mapping with
  | .ok mapping => .ok ⟨mapping, reject⟩
  | .error _ => .ok ⟨files.mapping, reject⟩

def keyEntry (g : SMBGroupMap) :
    Except GroupmapError (SMBGroupMap × GroupmapKey) := do
  let key ← groupmapKey server g
  .ok (g, key)

def groupmapList (files : GroupmapFiles) :
    Except GroupmapError (Groupmap × GroupmapFiles) := do
  let entries ← queryGroupmapEntries files.mapping
  let keyed ← entries.mapM (keyEntry server)
  let files ← ((keyed.filter (·.2 = .toFix)).map Prod.fst).foldlM fixEntry files
  .ok (⟨entriesByGid .builtins keyed, entriesByGid .locals keyed,
    entriesByGid .localBuiltins keyed⟩, files)

/-- What a synchronization finds outside the tables: the state of failover and
of the service, and what the idmap backend of the default domain is. -/
structure GroupmapHost where
  failoverStatus : String
  isConfigured : Bool
  idmapBackend : String
  idmapLow : Option ℕ

structure QueriedGroup where
  row : GroupRow
  sid : Option String

def extendGroup (entry : ℕ × GroupRow) : Except GroupmapError QueriedGroup := do
  let sid ← groupSid server entry.1 entry.2
  .ok ⟨entry.2, sid⟩

def queryGroups (groups : Dict ℕ GroupRow) :
    Except GroupmapError (List QueriedGroup) :=
  groups.entries.mapM (extendGroup server)

def findGid (gid : ℕ) (groups : List QueriedGroup) :
    Except GroupmapError QueriedGroup :=
  match groups.find? (·.row.gid = gid) with
  | some group => .ok group
  | none => .error .matchNotFound

def QueriedGroup.entry (group : QueriedGroup) : SMBGroupMap where
  sid := group.sid.getD "None"
  gid := group.row.gid
  sidType := .alias
  name := group.row.group
  comment := ""

def deleteLocals (gidSet : List ℤ) (locals : List SMBGroupMap)
    (mapping : Dict String UnixgroupData) : Dict String UnixgroupData :=
  locals.foldl (fun mapping entry =>
    if entry.gid ∈ gidSet then mapping
    else match deleteGroupmapEntry "sid" entry.sid mapping with
      | .ok mapping => mapping
      | .error _ => mapping) mapping

def syncBuiltins (host : GroupmapHost) :
    Except GroupmapError (List SMBGroupMap) :=
  if host.idmapBackend ≠ "tdb" then .ok []
  else
    match host.idmapLow with
    | none => .error .valueError
    | some low => .ok [⟨"S-1-5-32-544", low, .alias, "Administrators", ""⟩,
        ⟨"S-1-5-32-545", low + 1, .alias, "Users", ""⟩,
        ⟨"S-1-5-32-546", low + 2, .alias, "Guests", ""⟩]

/-- `sync_foreign_groups` takes the SID of `builtin_users` from a new list of the
mapping. -/
def syncForeignGroups (files : GroupmapFiles) : Except GroupmapError GroupmapFiles := do
  let (groupmap, files) ← groupmapList server files
  if 545 ∈ groupmap.locals then .ok files else .error .keyError

def synchronizeGroupMappings (host : GroupmapHost) (bypass : Bool)
    (groups : Dict ℕ GroupRow) (files : GroupmapFiles) :
    Except GroupmapError GroupmapFiles := do
  if host.failoverStatus ∉ ["SINGLE", "MASTER"] then .ok files
  else if !bypass && !host.isConfigured then
    .error (.callError ("SMB server configuration is not complete. " ++
      "This may indicate system dataset setup failure."))
  else do
    let (groupmap, files) ← groupmapList server files
    let queried ← queryGroups server groups
    let administrators ← findGid 544 queried
    let groups := queried.filter (·.row.smb) ++ [administrators]
    let entries := groups.map QueriedGroup.entry
    let mapping := deleteLocals (entries.map SMBGroupMap.gid)
      (groupmap.locals.entries.map Prod.snd) files.mapping
    let builtins ← syncBuiltins host
    let mapping ← insertGroupmapEntries mapping (entries ++ builtins)
    syncForeignGroups server ⟨mapping, files.reject⟩

end

end Middlewared
