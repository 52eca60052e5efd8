import Middlewared.ExceptRules
import Middlewared.Privilege

/-!
# Local accounts

The tables behind local users and groups: `account.bsdusers`, `account.bsdgroups`, the memberships
between them and `account.privilege`.
-/

namespace Middlewared

structure UserRow where
  uid : ℕ
  (username unixhash : String)
  builtin : Bool := false
  smb : Bool := false
  passwordDisabled : Bool := false
  locked : Bool := false
  group : ℕ

structure GroupRow where
  gid : ℕ
  group : String
  builtin : Bool := false
  smb : Bool := false

structure Membership where
  (group user : ℕ)
deriving DecidableEq

structure AccountStore where
  users : Dict ℕ UserRow
  groups : Dict ℕ GroupRow
  memberships : List Membership
  privileges : Dict ℕ Privilege

inductive AccountErrno where
  | eperm
  | einval
  | eacces
  | eexist

structure ValidationError where
  (field errmsg : String)

inductive AccountError where
  | callError (errmsg : String) (errno : AccountErrno)
  | validationErrors (errors : List ValidationError)
  | matchNotFound
  | indexError

def adminUid : ℕ := 950

def baseSyntheticDatastoreId : ℕ := 100000000

def builtinAdministrators : ℕ := 544

def unixhashIsValid (unixhash : String) : Bool :=
  unixhash ∉ ["x", "*"]

namespace UserRow

def immutable (user : UserRow) : Bool :=
  user.builtin || user.uid = adminUid

/-- The checks of `get_password_enabled_users` on a member. -/
def passwordEnabled (user : UserRow) : Bool :=
  !user.locked && !user.passwordDisabled && unixhashIsValid user.unixhash

end UserRow

namespace AccountStore

variable (store : AccountStore)

def passwordEnabled (user : ℕ) : Bool :=
  (store.users.get? user).any UserRow.passwordEnabled

def passwordEnabledLoop (groups excludeUserIds : List ℕ) :
    List Membership → List ℕ → List ℕ
  | [], result => result
  | membership :: rest, result =>
    if membership.group ∈ groups ∧ membership.user ∉ excludeUserIds ∧ membership.user ∉ result ∧
        store.passwordEnabled membership.user = true then
      passwordEnabledLoop groups excludeUserIds rest (result ++ [membership.user])
    else passwordEnabledLoop groups excludeUserIds rest result

def groupIds (gids : List ℕ) : List ℕ :=
  (store.groups.entries.filter (·.2.gid ∈ gids)).map Prod.fst

def getPasswordEnabledUsers (gids excludeUserIds : List ℕ) : List ℕ :=
  store.passwordEnabledLoop (store.groupIds gids) excludeUserIds store.memberships []

def hasPasswordEnabledUser (gids excludeUserIds : List ℕ) : Bool :=
  !(store.getPasswordEnabledUsers gids excludeUserIds).isEmpty

def localAdministratorPrivilege : Option (ℕ × Privilege) :=
  store.privileges.entries.find? (·.2.builtinName = some .localAdministrator)

def rootUser : Option (ℕ × UserRow) :=
  store.users.entries.find? (·.2.username = "root")

def localAdministrators (excludeUserIds : List ℕ) :
    Except AccountError (List ℕ) :=
  match store.localAdministratorPrivilege with
  | none => .error .matchNotFound
  | some (_, privilege) =>
    let administrators :=
      store.getPasswordEnabledUsers privilege.localGroups excludeUserIds
    if administrators.isEmpty then
      match store.rootUser with
      | none => .error .matchNotFound
      | some (id, root) =>
        if id ∉ excludeUserIds ∧ unixhashIsValid root.unixhash = true then
          .ok [id]
        else .ok []
    else .ok administrators

def hasLocalAdministratorSetUp : Except AccountError Bool := do
  let administrators ← store.localAdministrators []
  .ok (!administrators.isEmpty)

/-- `setup_local_administrator`.  The setup itself is done by a script and is
left open. -/
def setupLocalAdministrator
    (setup : AccountStore → Except AccountError AccountStore) :
    Except AccountError AccountStore := do
  let isSetUp ← store.hasLocalAdministratorSetUp
  if isSetUp then
    .error (.callError "Local administrator is already set up" .eexist)
  else setup store

def beforeUserDeactivation (user : ℕ) (errorText : String) :
    Except AccountError Unit :=
  (store.privileges.entries.filter (·.2.builtinName = some .localAdministrator)).forM fun entry =>
    if store.hasPasswordEnabledUser entry.2.localGroups [user] then .ok ()
    else
      .error (.callError (errorText ++ " will have built-in privilege '" ++
        entry.2.name ++ "'.") .eacces)

def beforeUserPasswordDisable (user : ℕ) : Except AccountError Unit :=
  store.beforeUserDeactivation user
    "After disabling password for this user no password-enabled local user"

def beforeUserDelete (user : ℕ) : Except AccountError Unit :=
  store.beforeUserDeactivation user "After deleting this user no local user"

def beforeGroupDelete (group : GroupRow) : Except AccountError Unit :=
  store.privileges.entries.forM fun entry =>
    if group.gid ∈ entry.2.localGroups then
      .error (.callError ("This group is used by privilege '" ++
        entry.2.name ++ "'. Please remove it from that privilege first, " ++
        "then delete the group.") .eacces)
    else .ok ()

/-- `used_local_gids`: the first privilege that names a group id. -/
def usedLocalGids (gid : ℕ) : Option Privilege :=
  (store.privileges.entries.find? (gid ∈ ·.2.localGroups)).map Prod.snd

def setUser (id : ℕ) (user : UserRow) : AccountStore :=
  { store with users := store.users.set id user }

def modifyUser (id : ℕ) (f : UserRow → UserRow) : AccountStore :=
  match store.users.get? id with
  | some user => store.setUser id (f user)
  | none => store

def deleteUserRow (id : ℕ) : AccountStore :=
  { store with
    users := store.users.erase id
    memberships := store.memberships.filter (·.user ≠ id) }

def deleteGroupRow (id : ℕ) : AccountStore :=
  { store with
    groups := store.groups.erase id
    memberships := store.memberships.filter (·.group ≠ id) }

def setGroupsOfUser (id : ℕ) (groups : List ℕ) : AccountStore :=
  { store with
    memberships := store.memberships.filter (·.user ≠ id) ++
      groups.map fun group => ⟨group, id⟩ }

def setUsersOfGroup (id : ℕ) (users : List ℕ) : AccountStore :=
  { store with
    memberships := store.memberships.filter (·.group ≠ id) ++
      users.map fun user => ⟨id, user⟩ }

def primaryUsers (group : ℕ) : List ℕ :=
  (store.users.entries.filter (·.2.group = group)).map Prod.fst

def members (group : ℕ) : List ℕ :=
  (store.memberships.filter (·.group = group)).map Membership.user

end AccountStore

end Middlewared
