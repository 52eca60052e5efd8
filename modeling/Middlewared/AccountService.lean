import Middlewared.AccountStore

/-!
# User, group and privilege calls

What the calls that change local accounts check and write. Checks that do not look at the tables
(names, home directories, shells, sudo commands, SMB and two-factor settings, the name service,
directory services) are answered by the environment of the call; so are the file system operations
of an update.
-/

namespace Middlewared

/-- The fields of a `user.update` request that bear on these tables; a field
that is not given is `none`. -/
structure UserUpdate where
  username : Option String := none
  password : Option (Option String) := none
  randomPassword : Bool := false
  passwordDisabled : Option Bool := none
  locked : Option Bool := none
  smb : Option Bool := none
  group : Option (Option ℕ) := none
  groups : Option (List ℕ) := none

structure GroupCreate where
  name : String
  gid : Option ℕ := none
  smb : Bool := true
  users : List ℕ := []

structure GroupUpdate where
  name : Option String := none
  smb : Option Bool := none
  users : Option (List ℕ) := none

structure PrivilegeUpdate where
  name : Option String := none
  localGroups : Option (List ℕ) := none
  dsGroups : Option (List DsGroup) := none
  roles : Option (List String) := none
  webShell : Option Bool := none

structure AccountEnv where
  cryptedPassword : String → String
  cryptedPassword_valid : ∀ password, unixhashIsValid (cryptedPassword password) = true
  randomPassword : String
  randomPassword_ne : randomPassword ≠ ""
  activeUser : Option String := none
  userErrors : AccountStore → ℕ → UserUpdate → List ValidationError
  homeError : AccountStore → ℕ → UserUpdate → Option AccountError
  groupErrors : AccountStore → Option ℕ → List ValidationError
  groupWithGid : ℕ → Option String
  dsGids : List ℕ
  entryDsGroups : List DsGroup → List DsGroup
  privilegeErrors : Privilege → List ValidationError

def addError (condition : Bool) (field errmsg : String) :
    List ValidationError :=
  if condition then [⟨field, errmsg⟩] else []

def checkErrors (errors : List ValidationError) : Except AccountError Unit :=
  if errors.isEmpty then .ok () else .error (.validationErrors errors)

namespace AccountStore

variable (env : AccountEnv) (store : AccountStore)

/-! ## `user.update` -/

def passwordGiven (data : UserUpdate) : Bool :=
  match data.password with
  | some (some password) => password ≠ ""
  | _ => false

def withRandomPassword (data : UserUpdate) : UserUpdate :=
  if data.randomPassword && !passwordGiven data then
    { data with password := some (some env.randomPassword) }
  else data

def setPassword (data : UserUpdate) (unixhash : String) : String :=
  match data.password with
  | none => unixhash
  | some none => "*"
  | some (some password) =>
    if password = "" then "*" else env.cryptedPassword password

/-- The part of `common_validation` that looks at users and groups.  `smb` is the
one of the row; `user_extend` shows it as false under `enable_gpos_stig`. -/
def commonValidation (pk : ℕ) (user : UserRow) (data : UserUpdate) :
    List ValidationError :=
  addError (data.randomPassword && passwordGiven data) "user_update.random_password"
    ("Requesting a randomized password while simultaneously supplying " ++
      "an explicit password is not permitted.") ++
  addError (data.username.any fun username =>
      store.users.entries.any fun entry =>
        entry.1 ≠ pk && entry.2.username = username)
    "user_update.username"
    ("The username \"" ++ data.username.getD "" ++ "\" already exists.") ++
  addError (data.smb.getD user.smb && data.passwordDisabled.getD user.passwordDisabled)
    "user_update.password_disabled"
    "Password authentication may not be disabled for SMB users." ++
  addError (data.passwordDisabled.getD false && (passwordGiven data || data.randomPassword))
    "user_update.password_disabled"
    "Leave \"Password\" blank when \"Disable password login\" is checked." ++
  addError (data.groups.any fun groups => 64 < groups.length) "user_update.groups"
    "A user cannot belong to more than 64 auxiliary groups." ++
  (((data.groups.getD []).zipIdx.map fun (group, idx) =>
    addError (decide (group ∉ store.groups))
      ("user_update.groups." ++ toString idx) "This group does not exist." ++
    addError (baseSyntheticDatastoreId ≤ group) ("user_update.groups." ++ toString idx)
      "Local users may not be members of directory services groups.").flatten)

def immutableErrors (user : UserRow) (data : UserUpdate) :
    List ValidationError :=
  if user.immutable then
    addError data.group.isSome "user_update.group" "This attribute cannot be changed" ++
    addError (data.username.any (· ≠ user.username)) "user_update.username"
      "This attribute cannot be changed" ++
    addError (data.smb.any (· ≠ user.smb)) "user_update.smb" "This attribute cannot be changed"
  else []

def passwordDisableErrors (pk : ℕ) (data : UserUpdate) :
    List ValidationError :=
  if data.passwordDisabled = some true then
    match store.beforeUserPasswordDisable pk with
    | .error (.callError errmsg _) =>
      [⟨"user_update.password_disabled", errmsg⟩]
    | _ => []
  else []

def userUpdateErrors (pk : ℕ) (user : UserRow) (data : UserUpdate) :
    List ValidationError :=
  store.passwordDisableErrors pk data ++ env.userErrors store pk data ++
  store.commonValidation pk user data ++ immutableErrors user data ++
  addError (!user.smb && data.smb.getD false && !passwordGiven data && !data.randomPassword)
    "user_update.smb"
    "Password must be reset in order to enable SMB authentication"

def updatedUser (user : UserRow) (group : ℕ) (data : UserUpdate) : UserRow :=
  { user with
    username := data.username.getD user.username
    unixhash := setPassword env data user.unixhash
    smb := data.smb.getD user.smb
    passwordDisabled := data.passwordDisabled.getD user.passwordDisabled
    locked := data.locked.getD user.locked
    group }

def primaryGroup (user : UserRow) (data : UserUpdate) :
    Except AccountError ℕ :=
  match data.group with
  | none => .ok user.group
  | some none => .error .indexError
  | some (some group) =>
    if group ∈ store.groups then .ok group else .error .indexError

def checkLocal (pk : ℕ) (errmsg : String) : Except AccountError Unit :=
  if baseSyntheticDatastoreId < pk then .error (.callError errmsg .eperm)
  else .ok ()

def getRow {α : Type} (rows : Dict ℕ α) (pk : ℕ) : Except AccountError α :=
  match rows.get? pk with
  | some row => .ok row
  | none => .error .matchNotFound

def userUpdate (pk : ℕ) (data : UserUpdate) :
    Except AccountError AccountStore := do
  checkLocal pk ("Users provided by a directory service must be modified " ++
    "through the identity provider (LDAP server or domain controller).")
  let user ← getRow store.users pk
  let group ← store.primaryGroup user data
  checkErrors (store.userUpdateErrors env pk user data)
  match env.homeError store pk data with
  | some error => .error error
  | none =>
    let data := withRandomPassword env data
    let store := store.setUser pk (updatedUser env user group data)
    .ok (match data.groups with
      | some groups => store.setGroupsOfUser pk groups
      | none => store)

/-! ## Groups -/

def groupNameErrors (schema : String) (pk : Option ℕ)
    (name : Option String) : List ValidationError :=
  addError (name.any fun name => store.groups.entries.any fun entry =>
      pk ≠ some entry.1 && entry.2.group = name)
    (schema ++ ".name")
    ("A Group with the name \"" ++ name.getD "" ++ "\" already exists.")

def usernames (users : List ℕ) : List String :=
  users.filterMap fun user => (store.users.get? user).map UserRow.username

def groupUsersErrors (schema : String) (pk : Option ℕ) (users : List ℕ) :
    List ValidationError :=
  match users.findIdx? (baseSyntheticDatastoreId ≤ ·) with
  | some idx =>
    [⟨schema ++ ".users." ++ toString idx,
      "Directory services users may not be added as members of local groups."⟩]
  | none =>
    let notFound := users.filter (· ∉ store.users)
    let removed := (pk.elim [] store.primaryUsers).filter (· ∉ users)
    addError (!notFound.isEmpty) (schema ++ ".users")
      ("Following users do not exist: " ++
        ", ".intercalate (notFound.map toString)) ++
    addError (!removed.isEmpty) (schema ++ ".users")
      ("This group is primary for the following users: " ++
        ", ".intercalate (store.usernames removed) ++
        ". You can't remove them.")

def nextId {α : Type} (rows : Dict ℕ α) : ℕ :=
  rows.keys.foldr max 0 + 1

/-- `get_next_gid`, looking at no more ids than there are used ones. -/
def nextGidLoop (used : List ℕ) : ℕ → ℕ → ℕ
  | 0, gid => gid
  | fuel + 1, gid => if gid ∈ used then nextGidLoop used fuel (gid + 1) else gid

def getNextGid : ℕ :=
  let used := store.groups.entries.map (·.2.gid) ++
    store.privileges.entries.flatMap (·.2.localGroups)
  nextGidLoop used used.length 3000

def gidErrors (gid : Option ℕ) : List ValidationError :=
  match gid with
  | none => []
  | some gid =>
    addError (env.groupWithGid gid).isSome "group_create.gid"
      ("Gid " ++ toString gid ++ " is already used (group " ++
        (env.groupWithGid gid).getD "" ++ " has it)") ++
    match store.usedLocalGids gid with
    | some privilege =>
      [⟨"group_create.gid", "A privilege '" ++ privilege.name ++ "' already uses this group ID."⟩]
    | none => []

def groupCreate (data : GroupCreate) : Except AccountError AccountStore := do
  checkErrors (env.groupErrors store none ++
    store.groupNameErrors "group_create" none (some data.name) ++
    store.gidErrors env data.gid ++
    store.groupUsersErrors "group_create" none data.users)
  let pk := nextId store.groups
  let gid := data.gid.getD store.getNextGid
  let row : GroupRow := { gid, group := data.name, smb := data.smb }
  .ok ({ store with groups := store.groups.set pk row }.setUsersOfGroup pk data.users)

def writtenUsers (pk : ℕ) (data : GroupUpdate) : List ℕ :=
  (data.users.getD (store.members pk ++ store.primaryUsers pk)).filter (· ∉ store.primaryUsers pk)

def groupUpdate (pk : ℕ) (data : GroupUpdate) :
    Except AccountError AccountStore := do
  checkLocal pk ("Groups provided by a directory service must be modified " ++
    "through the identity provider (LDAP server or domain controller).")
  let group ← getRow store.groups pk
  checkErrors (env.groupErrors store (some pk) ++
    store.groupNameErrors "group_update" (some pk) data.name ++
    data.users.elim [] (store.groupUsersErrors "group_update" (some pk)))
  let row := { group with group := data.name.getD group.group, smb := data.smb.getD group.smb }
  .ok ({ store with groups := store.groups.set pk row }.setUsersOfGroup pk
    (store.writtenUsers pk data))

def releaseUsers (deleteUsers : Bool) (nogroup : ℕ) :
    AccountStore → List ℕ → AccountStore
  | store, [] => store
  | store, user :: rest =>
    releaseUsers deleteUsers nogroup (if deleteUsers then store.deleteUserRow user
        else store.modifyUser user fun row => { row with group := nogroup })
      rest

def nogroup : Except AccountError ℕ :=
  match store.groups.entries.find? (·.2.group = "nogroup") with
  | some entry => .ok entry.1
  | none => .error .matchNotFound

def groupDelete (pk : ℕ) (deleteUsers : Bool) :
    Except AccountError AccountStore := do
  checkLocal pk ("Groups provided by a directory service must be deleted " ++
    "from the identity provider (LDAP server or domain controller).")
  let group ← getRow store.groups pk
  if group.builtin then
    .error (.callError "A built-in group cannot be deleted." .eacces)
  else do
    store.beforeGroupDelete group
    let nogroup ← store.nogroup
    .ok ((releaseUsers deleteUsers nogroup store (store.primaryUsers pk)).deleteGroupRow pk)

def deletePrimaryGroup (pk : ℕ) (user : UserRow) : AccountStore :=
  match store.groups.get? user.group with
  | some group =>
    if !group.builtin && (store.members user.group).isEmpty &&
        (store.primaryUsers user.group).all (· = pk) then
      match store.groupDelete user.group false with
      | .ok store => store
      | .error _ => store
    else store
  | none => store

def userDelete (pk : ℕ) (deleteGroup : Bool) :
    Except AccountError AccountStore := do
  checkLocal pk ("Users provided by a directory service must be deleted " ++
    "from the identity provider (LDAP server or domain controller).")
  let user ← getRow store.users pk
  if env.activeUser = some user.username then
    .error (.callError "Cannot delete the currently active user" .einval)
  else if user.builtin then
    .error (.callError "Cannot delete a built-in user" .einval)
  else if user.immutable then
    .error (.callError "Cannot delete an immutable user" .einval)
  else do
    store.beforeUserDelete pk
    let store := if deleteGroup then store.deletePrimaryGroup pk user else store
    .ok (store.deleteUserRow pk)

def entryLocalGroups (gids : List ℕ) : List ℕ :=
  gids.filter (· ∉ env.dsGids)

def builtinErrors (old new : Privilege) : List ValidationError :=
  match new.builtinName with
  | none => []
  | some builtin =>
    addError (new.name ≠ old.name) "privilege_update.name"
      "This field is read-only for built-in privileges" ++
    addError (new.roles ≠ old.roles) "privilege_update.roles"
      "This field is read-only for built-in privileges" ++
    match builtin with
    | .localAdministrator =>
      addError (builtinAdministrators ∉ new.localGroups) "privilege_update.local_groups"
        ("The group builtin_administrators must be among grantees of " ++
          "the \"Local Administrator\" privilege.") ++
      addError (!store.hasPasswordEnabledUser new.localGroups []) "privilege_update.local_groups"
        ("None of the members of these groups has password login " ++
          "enabled. At least one grantee of the \"Local " ++
          "Administrator\" privilege must have password login enabled.")
    | .readonlyAdministrator =>
      addError new.webShell "privilege_update.web_shell"
        ("Web shell access may not be enabled for the built-in group " ++
          "for read-only administrators.")
    | .sharingAdministrator => []

def privilegeValidation (id : ℕ) (new : Privilege) : List ValidationError :=
  addError (store.privileges.entries.any fun entry =>
      entry.1 ≠ id && entry.2.name = new.name)
    "privilege_update.name" "Object with this name already exists" ++
  (new.localGroups.zipIdx.map fun (gid, idx) =>
    addError (decide (gid ∈ env.dsGids) || (store.groupIds [gid]).isEmpty)
      ("privilege_update.local_groups." ++ toString idx)
      (toString gid ++ ": local group does not exist. This error may be " ++
        "addressed by either re-creating the missing group with the " ++
        "specified group id or removing this entry from the " ++
        "privilege.")).flatten ++
  env.privilegeErrors new

def privilegeUpdate (id : ℕ) (data : PrivilegeUpdate) :
    Except AccountError AccountStore := do
  let old ← getRow store.privileges id
  let new := { old with
    name := data.name.getD old.name
    localGroups := data.localGroups.getD (entryLocalGroups env old.localGroups)
    dsGroups := data.dsGroups.getD (env.entryDsGroups old.dsGroups)
    roles := data.roles.getD old.roles
    webShell := data.webShell.getD old.webShell }
  checkErrors (store.builtinErrors old new)
  checkErrors (store.privilegeValidation env id new)
  .ok { store with privileges := store.privileges.set id new }

inductive Call where
  | userUpdate (pk : ℕ) (data : UserUpdate)
  | userDelete (pk : ℕ) (deleteGroup : Bool)
  | groupCreate (data : GroupCreate)
  | groupUpdate (pk : ℕ) (data : GroupUpdate)
  | groupDelete (pk : ℕ) (deleteUsers : Bool)
  | privilegeUpdate (id : ℕ) (data : PrivilegeUpdate)

def perform : Call → Except AccountError AccountStore
  | .userUpdate pk data => store.userUpdate env pk data
  | .userDelete pk deleteGroup => store.userDelete env pk deleteGroup
  | .groupCreate data => store.groupCreate env data
  | .groupUpdate pk data => store.groupUpdate env pk data
  | .groupDelete pk deleteUsers => store.groupDelete pk deleteUsers
  | .privilegeUpdate id data => store.privilegeUpdate env id data

def step (call : AccountEnv × Call) : Option AccountStore :=
  (store.perform call.1 call.2).toOption

end AccountStore

end Middlewared
