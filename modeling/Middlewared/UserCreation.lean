import Middlewared.AccountAdministrator
import Middlewared.DictSpelling

/-!
# Creating a user

`user.create` may create a group first, and then writes the user with its memberships and its
two-factor record.
-/

namespace Middlewared.UserCreation

open AccountStore List Dict

/-- A row of `account.twofactor_user_auth`. -/
structure TwofactorRow where
  secret : Option String
  user : ℕ
deriving DecidableEq

structure UserTables where
  accounts : AccountStore
  twofactor : List TwofactorRow

structure Linked (tables : UserTables) : Prop where
  members : ∀ membership ∈ tables.accounts.memberships,
    membership.user ∈ tables.accounts.users ∧ membership.group ∈ tables.accounts.groups
  primary : ∀ id user, tables.accounts.users.get? id = some user →
    user.group ∈ tables.accounts.groups
  twofactor : ∀ row ∈ tables.twofactor, row.user ∈ tables.accounts.users

structure UserDatabase extends UserTables where
  linked : Linked toUserTables

structure UserCreate where
  username : String
  uid : Option ℕ := none
  home : String := "/var/empty"
  homeMode : String := "700"
  homeCreate : Bool := false
  password : Option String := none
  randomPassword : Bool := false
  passwordDisabled : Bool := false
  locked : Bool := false
  smb : Bool := true
  group : Option ℕ := none
  groupCreate : Bool := false
  groups : List ℕ := []
  sshpubkey : Option String := none
deriving DecidableEq

inductive CreateError where
  | account (error : AccountError)
  | callError (errmsg : String)
  | raised (exception : String)

inductive CreateStep where
  | commonValidation
  | queryGroup
  | createGroup
  | readGroup
  | queryBuiltinUsers
  | nextUid
  | setPassword
  | insertUser
  | insertTwofactor
deriving DecidableEq

structure CreateEnv where
  accounts : AccountEnv
  raises : CreateStep → Option CreateError
  userErrors : UserTables → UserCreate → List ValidationError
  dsGroup : ℕ → Option GroupRow
  setupHomedir : (path username mode : String) → (uid gid : ℕ) → (create : Bool) →
    Except CreateError String

def defaultHomePaths : List String := ["/var/empty", "/nonexistent"]

variable (env : CreateEnv)

def call (step : CreateStep) : Except CreateError Unit :=
  match env.raises step with
  | some error => .error error
  | none => .ok ()

def liftAccount {α : Type} : Except AccountError α → Except CreateError α
  | .ok value => .ok value
  | .error error => .error (.account error)

def validationErrors (tables : UserTables) (data : UserCreate) : List ValidationError :=
  addError (data.group.getD 0 = 0 && !data.groupCreate || data.group.isSome && data.groupCreate)
    "user_create.group" "Enter either a group name or create a new group to continue." ++
  env.userErrors tables data ++
  addError (data.sshpubkey.any (· ≠ "") && !PyString.startsWith data.home "/mnt")
    "user_create.sshpubkey" "The home directory is not writable. Leave this field blank."

def validate (tables : UserTables) (data : UserCreate) : Except CreateError Unit := do
  call env .commonValidation
  liftAccount (checkErrors (validationErrors env tables data))

def groupNamed (accounts : AccountStore) (name : String) : Option (ℕ × GroupRow) :=
  accounts.groups.entries.find? (·.2.group = name)

/-- `group.create_internal` for the group of a user. -/
def createInternal (accounts : AccountStore) (username : String) :
    Except CreateError AccountStore := do
  call env .createGroup
  liftAccount (accounts.groupCreate env.accounts { name := username, smb := false })

structure UserGroup where
  (pk gid : ℕ)
  created : Bool
deriving DecidableEq

def givenGroup (accounts : AccountStore) (group : ℕ) : Except CreateError UserGroup := do
  call env .queryGroup
  match accounts.groups.get? group <|> env.dsGroup group with
  | some row => .ok ⟨group, row.gid, false⟩
  | none => .error (.callError ("Group " ++ toString group ++ " not found"))

def chooseGroup (tables : UserTables) (data : UserCreate) :
    Except CreateError UserGroup × UserTables :=
  if data.groupCreate then
    match call env .queryGroup, groupNamed tables.accounts data.username with
    | .error error, _ => (.error error, tables)
    | .ok (), some entry => (.ok ⟨entry.1, entry.2.gid, false⟩, tables)
    | .ok (), none =>
      match createInternal env tables.accounts data.username with
      | .error error => (.error error, tables)
      | .ok accounts =>
        let pk := nextId tables.accounts.groups
        (do
          call env .readGroup
          let row ← liftAccount (getRow accounts.groups pk)
          return ⟨pk, row.gid, true⟩,
        { tables with accounts })
  else (givenGroup env tables.accounts (data.group.getD 0), tables)

def auxiliaryGroups (accounts : AccountStore) (data : UserCreate) :
    Except CreateError (List ℕ) :=
  if data.smb then do
    call env .queryBuiltinUsers
    match groupNamed accounts "builtin_users" with
    | some entry => .ok (data.groups ++ [entry.1])
    | none => .error (.account .matchNotFound)
  else .ok data.groups

def nextUidLoop (lastUid : ℕ) : List ℕ → ℕ
  | [] => lastUid + 1
  | uid :: rest =>
    if lastUid + 1 < uid then lastUid + 1 else nextUidLoop (max lastUid uid) rest

def getNextUid (accounts : AccountStore) : ℕ :=
  nextUidLoop 2999 (((accounts.users.entries.filter fun entry => !entry.2.builtin).map
    fun entry => entry.2.uid).mergeSort (· ≤ ·))

def chooseUid (accounts : AccountStore) (data : UserCreate) : Except CreateError ℕ :=
  match data.uid with
  | some uid => .ok uid
  | none => do
    call env .nextUid
    return getNextUid accounts

def homeDirectory (data : UserCreate) (uid gid : ℕ) : Except CreateError String :=
  if data.home ≠ "" ∧ data.home ∉ defaultHomePaths then
    env.setupHomedir data.home data.username data.homeMode uid gid data.homeCreate
  else .ok data.home

def setPassword (data : UserCreate) : Except CreateError String := do
  call env .setPassword
  let password := if data.randomPassword && data.password.getD "" = "" then
    env.accounts.randomPassword else data.password.getD ""
  return if password = "" then "*" else env.accounts.cryptedPassword password

def userRow (data : UserCreate) (uid group : ℕ) (unixhash : String) : UserRow where
  uid := uid
  username := data.username
  unixhash := unixhash
  smb := data.smb
  passwordDisabled := data.passwordDisabled
  locked := data.locked
  group := group

namespace UserTables

variable (tables : UserTables)

def insertUser (row : UserRow) (groups : List ℕ) : UserTables :=
  let pk := nextId tables.accounts.users
  { tables with accounts := (tables.accounts.setUser pk row).setGroupsOfUser pk groups }

def deleteUser (pk : ℕ) : UserTables where
  accounts := tables.accounts.deleteUserRow pk
  twofactor := tables.twofactor.filter (·.user ≠ pk)

def insertTwofactor (pk : ℕ) : UserTables :=
  { tables with twofactor := tables.twofactor ++ [⟨none, pk⟩] }

end UserTables

/-- The part of `do_create` that undoes the insertion of the user. -/
def insertRecords (tables : UserTables) (data : UserCreate) (group uid : ℕ) (groups : List ℕ) :
    Except CreateError ℕ × UserTables :=
  match setPassword env data, call env .insertUser with
  | .error error, _ => (.error error, tables)
  | .ok _, .error error => (.error error, tables)
  | .ok unixhash, .ok () =>
    let pk := nextId tables.accounts.users
    let inserted := tables.insertUser (userRow data uid group unixhash) groups
    match call env .insertTwofactor with
    | .error error => (.error error, inserted.deleteUser pk)
    | .ok () => (.ok pk, inserted.insertTwofactor pk)

def deleteGroup (tables : UserTables) (group : UserGroup) : Except CreateError UserTables :=
  if group.created then do
    let accounts ← liftAccount (tables.accounts.groupDelete group.pk false)
    return { tables with accounts }
  else .ok tables

def createInGroup (tables : UserTables) (data : UserCreate) (group : UserGroup) :
    Except CreateError ℕ × UserTables :=
  match auxiliaryGroups env tables.accounts data, chooseUid env tables.accounts data with
  | .error error, _ => (.error error, tables)
  | .ok _, .error error => (.error error, tables)
  | .ok groups, .ok uid =>
    match homeDirectory env data uid group.gid with
    | .error error =>
      match deleteGroup tables group with
      | .error error => (.error error, tables)
      | .ok tables => (.error error, tables)
    | .ok _ => insertRecords env tables data group.pk uid groups

def doCreate (tables : UserTables) (data : UserCreate) : Except CreateError ℕ × UserTables :=
  match validate env tables data with
  | .error error => (.error error, tables)
  | .ok () =>
    match chooseGroup env tables data with
    | (.error error, tables) => (.error error, tables)
    | (.ok group, tables) => createInGroup env tables data group

/-! ## What is left after an error -/

def AllOrNothing (tables : UserTables) (data : UserCreate) : Prop :=
  ∀ error, (doCreate env tables data).1 = .error error → (doCreate env tables data).2 = tables

def CreatesGroup (tables : UserTables) (data : UserCreate) (created : AccountStore) : Prop :=
  validate env tables data = .ok () ∧ data.groupCreate = true ∧
    call env .queryGroup = .ok () ∧ groupNamed tables.accounts data.username = none ∧
    createInternal env tables.accounts data.username = .ok created

/-- Nothing raises once the group is there, or setting up the home directory
does before anything else, and the group can be deleted. -/
def Recovers (tables : UserTables) (data : UserCreate) (created : AccountStore) : Prop :=
  call env .readGroup = .ok () ∧ ∃ groups uid,
    auxiliaryGroups env created data = .ok groups ∧ chooseUid env created data = .ok uid ∧
    match homeDirectory env data uid tables.accounts.getNextGid with
    | .error _ => nextId tables.accounts.groups ≤ baseSyntheticDatastoreId ∧
        (data.username = "nogroup" ∨ (groupNamed tables.accounts "nogroup").isSome = true)
    | .ok _ => ∀ step ∈ [CreateStep.setPassword, .insertUser, .insertTwofactor],
        env.raises step = none

theorem nextId_notMem {α : Type} (rows : Dict ℕ α) : nextId rows ∉ rows := by
  intro hmem
  have hle := le_foldr_max (Dict.mem_def.mp hmem)
  unfold nextId at hle
  omega

theorem erase_set_of_notMem {α : Type} {rows : Dict ℕ α} {pk : ℕ} (hpk : pk ∉ rows) (row : α) :
    (rows.set pk row).erase pk = rows := by
  have hentries := entries_set_of_notMem hpk row
  have hkeep : rows.entries.filter (fun entry => entry.1 ≠ pk) = rows.entries := by
    apply filter_eq_self.mpr
    intro entry hentry
    have hmem : entry.1 ∈ rows := List.mem_map_of_mem hentry
    have hne : entry.1 ≠ pk := by
      intro heq
      rw [heq] at hmem
      exact hpk hmem
    simpa using hne
  have heq : ((rows.set pk row).erase pk).entries = rows.entries := by
    change (rows.set pk row).entries.filter (fun entry => entry.1 ≠ pk) = rows.entries
    rw [hentries, filter_append, hkeep]
    simp
  cases hrows : (rows.set pk row).erase pk
  cases rows
  rw [hrows] at heq
  cases heq
  rfl

theorem nextGidLoop_notMem {used : List ℕ} {fuel gid : ℕ}
    (hfuel : (used.filter (gid ≤ ·)).length ≤ fuel) : nextGidLoop used fuel gid ∉ used := by
  induction fuel generalizing gid with
  | zero =>
    intro hmem
    have hfilter : gid ∈ used.filter (gid ≤ ·) := mem_filter.mpr ⟨hmem, by simp⟩
    have hpos := length_pos_of_mem hfilter
    omega
  | succ fuel ih =>
    rw [nextGidLoop]
    split
    · rename_i hmem
      apply ih
      -- the id that is taken no longer counts
      have hfilter : gid ∈ used.filter (gid ≤ ·) := mem_filter.mpr ⟨hmem, by simp⟩
      have hlt : ((used.filter (gid ≤ ·)).filter (gid + 1 ≤ ·)).length <
          (used.filter (gid ≤ ·)).length :=
        length_filter_lt_length_iff_exists.mpr ⟨gid, hfilter, by simp⟩
      have hsame : (used.filter (gid ≤ ·)).filter (gid + 1 ≤ ·) = used.filter (gid + 1 ≤ ·) := by
        rw [List.filter_filter]
        apply filter_congr
        intro other _
        have hiff : gid + 1 ≤ other ∧ gid ≤ other ↔ gid + 1 ≤ other := by omega
        rw [← Bool.decide_and]
        exact decide_eq_decide.mpr hiff
      rw [hsame] at hlt
      omega
    · assumption

theorem getNextGid_notMem (accounts : AccountStore) : ∀ entry ∈ accounts.privileges.entries,
    accounts.getNextGid ∉ entry.2.localGroups := by
  intro entry hentry hmem
  apply nextGidLoop_notMem (length_filter_le _ _)
  exact mem_append_right _ (mem_flatMap.mpr ⟨entry, hentry, hmem⟩)

section

variable {env} {db : UserDatabase} {data : UserCreate} {created : AccountStore}

def groupRow (tables : UserTables) (data : UserCreate) : GroupRow where
  gid := tables.accounts.getNextGid
  group := data.username

def withGroup (tables : UserTables) (data : UserCreate) : AccountStore :=
  { tables.accounts with
    groups := tables.accounts.groups.set (nextId tables.accounts.groups) (groupRow tables data) }

theorem memberships_filter (db : UserDatabase) :
    db.accounts.memberships.filter (·.group ≠ nextId db.accounts.groups) =
      db.accounts.memberships := by
  apply filter_eq_self.mpr
  intro membership hmem
  have hne : membership.group ≠ nextId db.accounts.groups := by
    intro heq
    have hgroup := (db.linked.members membership hmem).2
    rw [heq] at hgroup
    exact nextId_notMem _ hgroup
  simpa using hne

theorem createInternal_eq (hcreate : createInternal env db.accounts data.username = .ok created) :
    created = withGroup db.toUserTables data := by
  obtain ⟨_, _, hlift⟩ := bind_eq_ok_iff.mp hcreate
  cases hgroup : db.accounts.groupCreate env.accounts { name := data.username, smb := false } with
  | error error =>
    rw [hgroup] at hlift
    cases hlift
  | ok accounts =>
    rw [hgroup] at hlift
    obtain ⟨_, _, hok⟩ := bind_eq_ok_iff.mp hgroup
    rw [← Except.ok.inj hlift, ← Except.ok.inj hok]
    unfold withGroup setUsersOfGroup
    rw [map_nil, append_nil, memberships_filter]
    rfl

theorem withGroup_ne (db : UserDatabase) (data : UserCreate) (twofactor : List TwofactorRow) :
    (⟨withGroup db.toUserTables data, twofactor⟩ : UserTables) ≠ db.toUserTables := by
  intro heq
  have hgroups : (withGroup db.toUserTables data).groups = db.accounts.groups :=
    congrArg (fun tables => tables.accounts.groups) heq
  have hmem : nextId db.accounts.groups ∈ (withGroup db.toUserTables data).groups :=
    mem_set_iff.mpr (Or.inl rfl)
  rw [hgroups] at hmem
  exact nextId_notMem _ hmem

theorem linked_withGroup (db : UserDatabase) (data : UserCreate) :
    Linked ⟨withGroup db.toUserTables data, db.twofactor⟩ where
  members := by
    intro membership hmem
    have hlinked := db.linked.members membership hmem
    exact ⟨hlinked.1, mem_set_iff.mpr (Or.inr hlinked.2)⟩
  primary := by
    intro id user huser
    exact mem_set_iff.mpr (Or.inr (db.linked.primary id user huser))
  twofactor := db.linked.twofactor

theorem nogroup_withGroup (tables : UserTables) (data : UserCreate) :
    (∃ nogroup, (withGroup tables data).nogroup = .ok nogroup) ↔
      data.username = "nogroup" ∨ (groupNamed tables.accounts "nogroup").isSome = true := by
  have hentries : (withGroup tables data).groups.entries = tables.accounts.groups.entries ++
      [(nextId tables.accounts.groups, groupRow tables data)] :=
    entries_set_of_notMem (nextId_notMem _) _
  have hnogroup : (∃ nogroup, (withGroup tables data).nogroup = .ok nogroup) ↔
      ((withGroup tables data).groups.entries.find? (·.2.group = "nogroup")).isSome = true := by
    unfold nogroup
    cases (withGroup tables data).groups.entries.find? (·.2.group = "nogroup") with
    | none => simp
    | some entry => simp
  rw [hnogroup, hentries, find?_append]
  unfold groupNamed
  cases tables.accounts.groups.entries.find? (·.2.group = "nogroup") with
  | none => simp [groupRow]
  | some entry => simp

theorem deleteGroupRow_withGroup (db : UserDatabase) (data : UserCreate) :
    (withGroup db.toUserTables data).deleteGroupRow (nextId db.accounts.groups) = db.accounts := by
  unfold deleteGroupRow withGroup
  rw [erase_set_of_notMem (nextId_notMem _), memberships_filter]

theorem primaryUsers_withGroup (db : UserDatabase) (data : UserCreate) :
    (withGroup db.toUserTables data).primaryUsers (nextId db.accounts.groups) = [] := by
  unfold primaryUsers
  rw [map_eq_nil_iff, filter_eq_nil_iff]
  intro entry hentry hprimary
  have hgroup := db.linked.primary entry.1 entry.2 (mem_entries_iff.mp hentry)
  rw [of_decide_eq_true hprimary] at hgroup
  exact nextId_notMem _ hgroup

theorem groupDelete_withGroup (db : UserDatabase) (data : UserCreate) (accounts : AccountStore) :
    (withGroup db.toUserTables data).groupDelete (nextId db.accounts.groups) false = .ok accounts ↔
      (nextId db.accounts.groups ≤ baseSyntheticDatastoreId ∧ (data.username = "nogroup" ∨
        (groupNamed db.accounts "nogroup").isSome = true)) ∧ accounts = db.accounts := by
  rw [← nogroup_withGroup]
  have hrow : getRow (withGroup db.toUserTables data).groups (nextId db.accounts.groups) =
      .ok (groupRow db.toUserTables data) :=
    getRow_eq_ok_iff.mpr (get?_set_self _ _ _)
  have hbefore : (withGroup db.toUserTables data).beforeGroupDelete
      (groupRow db.toUserTables data) = .ok () := by
    apply forM_eq_ok_iff.mpr
    intro entry hentry
    exact if_neg (getNextGid_notMem db.accounts entry hentry)
  unfold groupDelete checkLocal
  by_cases hpk : baseSyntheticDatastoreId < nextId db.accounts.groups
  · rw [if_pos hpk, error_bind]
    simp [Nat.not_le_of_lt hpk]
  · rw [if_neg hpk, ok_bind, hrow, ok_bind, if_neg (by simp [groupRow]), hbefore, ok_bind]
    cases hnogroup : (withGroup db.toUserTables data).nogroup with
    | error error => simp
    | ok nogroup =>
      rw [ok_bind, primaryUsers_withGroup, releaseUsers, deleteGroupRow_withGroup]
      simp [Nat.le_of_not_lt hpk, eq_comm]

end

section

variable {env} {tables : UserTables} {data : UserCreate} {uid gid group : ℕ} {groups : List ℕ}
  {error : CreateError}

theorem deleteUser_insertUser (hlinked : Linked tables) (row : UserRow) (groups : List ℕ) :
    (tables.insertUser row groups).deleteUser (nextId tables.accounts.users) = tables := by
  have hne : ∀ user ∈ tables.accounts.users, user ≠ nextId tables.accounts.users := by
    intro user huser heq
    rw [heq] at huser
    exact nextId_notMem _ huser
  have hmembers : tables.accounts.memberships.filter
      (·.user ≠ nextId tables.accounts.users) = tables.accounts.memberships := by
    apply filter_eq_self.mpr
    intro membership hmem
    simpa using hne _ (hlinked.members membership hmem).1
  have htwofactor : tables.twofactor.filter (·.user ≠ nextId tables.accounts.users) =
      tables.twofactor := by
    apply filter_eq_self.mpr
    intro row hrow
    simpa using hne _ (hlinked.twofactor row hrow)
  unfold UserTables.insertUser UserTables.deleteUser deleteUserRow setGroupsOfUser setUser
  dsimp only
  rw [erase_set_of_notMem (nextId_notMem _), htwofactor, hmembers, filter_append, hmembers]
  simp [List.filter_map, Function.comp_def]

theorem insertRecords_of_error (hlinked : Linked tables)
    (herror : (insertRecords env tables data group uid groups).1 = .error error) :
    (insertRecords env tables data group uid groups).2 = tables := by
  revert herror
  unfold insertRecords
  split
  · exact fun _ => rfl
  · exact fun _ => rfl
  · dsimp only
    split
    · exact fun _ => deleteUser_insertUser hlinked _ _
    · nofun

theorem call_eq_ok_iff {step : CreateStep} : call env step = .ok () ↔ env.raises step = none := by
  unfold call
  cases env.raises step with
  | none => simp
  | some error => simp

theorem insertRecords_raises_iff :
    (∃ error, (insertRecords env tables data group uid groups).1 = .error error) ↔
      ¬ ∀ step ∈ [CreateStep.setPassword, .insertUser, .insertTwofactor],
        env.raises step = none := by
  unfold insertRecords setPassword
  simp only [forall_mem_cons, not_mem_nil, ← call_eq_ok_iff]
  cases call env .setPassword with
  | error error => simp
  | ok =>
    cases call env .insertUser with
    | error error => simp
    | ok =>
      cases call env .insertTwofactor with
      | error error => simp
      | ok => simp

theorem createInGroup_of_error {group : UserGroup} (hlinked : Linked tables)
    (hcreated : group.created = false)
    (herror : (createInGroup env tables data group).1 = .error error) :
    (createInGroup env tables data group).2 = tables := by
  revert herror
  unfold createInGroup
  split
  · exact fun _ => rfl
  · exact fun _ => rfl
  · split
    · rw [deleteGroup, if_neg (by simp [hcreated])]
      exact fun _ => rfl
    · exact insertRecords_of_error hlinked

end

section

variable {env} {db : UserDatabase} {data : UserCreate}

def afterGroup (env : CreateEnv) (db : UserDatabase) (data : UserCreate) :
    Except CreateError ℕ × UserTables :=
  match call env .readGroup with
  | .error error => (.error error, ⟨withGroup db.toUserTables data, db.twofactor⟩)
  | .ok () => createInGroup env ⟨withGroup db.toUserTables data, db.twofactor⟩ data
      ⟨nextId db.accounts.groups, db.accounts.getNextGid, true⟩

theorem doCreate_of_createsGroup {created : AccountStore}
    (hcreates : CreatesGroup env db.toUserTables data created) :
    created = withGroup db.toUserTables data ∧
      doCreate env db.toUserTables data = afterGroup env db data := by
  obtain ⟨hvalid, hgroupCreate, hquery, hnamed, hcreate⟩ := hcreates
  have hcreated := createInternal_eq hcreate
  refine ⟨hcreated, ?_⟩
  have hrow : getRow (withGroup db.toUserTables data).groups (nextId db.accounts.groups) =
      .ok (groupRow db.toUserTables data) :=
    getRow_eq_ok_iff.mpr (get?_set_self _ _ _)
  unfold doCreate chooseGroup afterGroup
  rw [hvalid, if_pos hgroupCreate, hquery, hnamed, hcreate, hcreated]
  cases call env .readGroup with
  | error error => rfl
  | ok =>
    simp only [ok_bind, hrow, liftAccount]
    rfl

theorem allOrNothing_of_not_createsGroup
    (hcreates : ¬ ∃ created, CreatesGroup env db.toUserTables data created) :
    AllOrNothing env db.toUserTables data := by
  intro error
  unfold doCreate
  cases hvalid : validate env db.toUserTables data with
  | error => exact fun _ => rfl
  | ok =>
    unfold chooseGroup
    split_ifs with hgroupCreate
    · cases hquery : call env .queryGroup with
      | error => exact fun _ => rfl
      | ok =>
        cases hnamed : groupNamed db.accounts data.username with
        | some entry => exact createInGroup_of_error db.linked rfl
        | none =>
          cases hcreate : createInternal env db.accounts data.username with
          | error => exact fun _ => rfl
          | ok created =>
            exact absurd ⟨created, hvalid, hgroupCreate, hquery, hnamed, hcreate⟩ hcreates
    · cases hgiven : givenGroup env db.accounts (data.group.getD 0) with
      | error => exact fun _ => rfl
      | ok group =>
        apply createInGroup_of_error db.linked
        obtain ⟨_, _, hgiven⟩ := bind_eq_ok_iff.mp hgiven
        split at hgiven
        · rw [← Except.ok.inj hgiven]
        · cases hgiven

theorem afterGroup_iff : (∀ error, (afterGroup env db data).1 = .error error →
    (afterGroup env db data).2 = db.toUserTables) ↔
    Recovers env db.toUserTables data (withGroup db.toUserTables data) := by
  have hne := withGroup_ne db data db.twofactor
  have hlinked := linked_withGroup db data
  unfold afterGroup Recovers
  cases call env .readGroup with
  | error error => simpa using hne
  | ok =>
    simp only [true_and]
    unfold createInGroup
    cases auxiliaryGroups env (withGroup db.toUserTables data) data with
    | error error => simpa using hne
    | ok groups =>
      cases chooseUid env (withGroup db.toUserTables data) data with
      | error error => simpa using hne
      | ok uid =>
        simp only [Except.ok.injEq, exists_and_left, exists_eq_left']
        cases homeDirectory env data uid db.accounts.getNextGid with
        | ok home =>
          constructor
          · intro hall
            by_contra hraises
            obtain ⟨error, herror⟩ := insertRecords_raises_iff.mpr hraises
            exact hne ((insertRecords_of_error hlinked herror).symm.trans (hall error herror))
          · intro hquiet error herror
            exact absurd hquiet (insertRecords_raises_iff.mp ⟨error, herror⟩)
        | error raised =>
          have hdelete := groupDelete_withGroup db data
          simp only [deleteGroup, if_true]
          cases hgroup : (withGroup db.toUserTables data).groupDelete
              (nextId db.accounts.groups) false with
          | error error =>
            constructor
            · exact fun hall => absurd (hall _ rfl) hne
            · intro hundone
              have hok := (hdelete db.accounts).mpr ⟨hundone, rfl⟩
              rw [hgroup] at hok
              cases hok
          | ok accounts =>
            obtain ⟨hundone, heq⟩ := (hdelete accounts).mp hgroup
            rw [heq]
            exact iff_of_true (fun _ _ => rfl) hundone

/-- Creating a user is all or nothing when no group is created for it, or what
raises later lets the group be removed. -/
theorem allOrNothing_iff (env : CreateEnv) (db : UserDatabase) (data : UserCreate) :
    AllOrNothing env db.toUserTables data ↔
      ∀ created, CreatesGroup env db.toUserTables data created →
        Recovers env db.toUserTables data created := by
  constructor
  · intro hall created hcreates
    obtain ⟨hcreated, hafter⟩ := doCreate_of_createsGroup hcreates
    rw [hcreated, ← afterGroup_iff]
    rw [AllOrNothing, hafter] at hall
    exact hall
  · intro hrecovers
    by_cases hcreates : ∃ created, CreatesGroup env db.toUserTables data created
    · obtain ⟨created, hcreates⟩ := hcreates
      obtain ⟨hcreated, hafter⟩ := doCreate_of_createsGroup hcreates
      rw [AllOrNothing, hafter, afterGroup_iff, ← hcreated]
      exact hrecovers created hcreates
    · exact allOrNothing_of_not_createsGroup hcreates

end

/-! ## A password that cannot be hashed -/

def noHash : CreateEnv where
  accounts := {
    cryptedPassword := fun _ => "$6$"
    cryptedPassword_valid := fun _ => rfl
    randomPassword := "secret"
    randomPassword_ne := by decide
    userErrors := fun _ _ _ => []
    homeError := fun _ _ _ => none
    groupErrors := fun _ _ => []
    groupWithGid := fun _ => none
    dsGids := []
    entryDsGroups := id
    privilegeErrors := fun _ => [] }
  raises step := if step = .setPassword then some (.raised "ValueError") else none
  userErrors _ _ := []
  dsGroup _ := none
  setupHomedir _ _ _ _ _ _ := .ok "/mnt/tank"

def emptyDatabase : UserDatabase where
  accounts := ⟨Dict.empty, Dict.empty, [], Dict.empty⟩
  twofactor := []
  linked := ⟨nofun, nofun, nofun⟩

def bob : UserCreate :=
  { username := "bob", smb := false, password := some "x", groupCreate := true }

/-- The hash raises after the group has been inserted. -/
theorem noHash_not_allOrNothing : ¬ AllOrNothing noHash emptyDatabase.toUserTables bob := by
  intro hall
  have hgroups := congrArg (fun tables => tables.accounts.groups.keys) (hall _ rfl)
  cases hgroups

end Middlewared.UserCreation
