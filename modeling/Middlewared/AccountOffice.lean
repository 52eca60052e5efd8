import Middlewared.AccountService

/-!
# The office of the administrator

Who is in office, what writing a row does to an administrator, and what an
accepted call has checked.
-/

namespace Middlewared.AccountStore

open List Dict Option

inductive Administrator where
  | member (group user : ℕ)
  | root (user : ℕ)

def Administrator.user : Administrator → ℕ
  | .member _ user => user
  | .root user => user

def IsAdminGroup (store : AccountStore) (group : ℕ) : Prop :=
  ∃ row entry, store.groups.get? group = some row ∧ store.localAdministratorPrivilege = some entry ∧
    row.gid ∈ entry.2.localGroups

def InOffice (store : AccountStore) : Administrator → Prop
  | .member group user => store.IsAdminGroup group ∧
      ⟨group, user⟩ ∈ store.memberships ∧ store.passwordEnabled user = true
  | .root user => ∃ row, store.rootUser = some (user, row) ∧ unixhashIsValid row.unixhash = true

def EmptiesPassword (data : UserUpdate) : Prop :=
  data.randomPassword = false ∧ (data.password = some none ∨ data.password = some (some ""))

def Deprives (store : AccountStore) (data : UserUpdate) : Administrator → Prop
  | .member _ _ => data.locked = some true ∨ EmptiesPassword data ∨
      ∃ groups, data.groups = some groups ∧ ∀ group ∈ groups, ¬ store.IsAdminGroup group
  | .root _ => EmptiesPassword data ∨ ∃ username, data.username = some username ∧ username ≠ "root"

/-! ## Administrators and `has_local_administrator_set_up` -/

section

variable {store : AccountStore} {gids excludeUserIds groups : List ℕ}
  {user group : ℕ}

theorem mem_passwordEnabledLoop_iff {memberships : List Membership} {result : List ℕ} :
    user ∈ store.passwordEnabledLoop groups excludeUserIds memberships result ↔
      user ∈ result ∨ ((∃ group ∈ groups, ⟨group, user⟩ ∈ memberships) ∧
        user ∉ excludeUserIds ∧ store.passwordEnabled user = true) := by
  induction memberships generalizing result with
  | nil => simp [passwordEnabledLoop]
  | cons membership rest ih =>
    have hsplit : (∃ group ∈ groups, (⟨group, user⟩ : Membership) ∈ membership :: rest) ↔
        (membership.group ∈ groups ∧ membership.user = user) ∨
          ∃ group ∈ groups, (⟨group, user⟩ : Membership) ∈ rest := by
      constructor
      · intro hexists
        rcases hexists with ⟨group, hgroup, hmem⟩
        rcases mem_cons.mp hmem with heq | hrest
        · left
          rw [← heq]
          exact ⟨hgroup, rfl⟩
        · exact Or.inr ⟨group, hgroup, hrest⟩
      · intro hcases
        rcases hcases with ⟨hgroup, huser⟩ | ⟨group, hgroup, hrest⟩
        · refine ⟨membership.group, hgroup, ?_⟩
          rw [← huser]
          exact mem_cons_self
        · exact ⟨group, hgroup, mem_cons_of_mem membership hrest⟩
    rw [passwordEnabledLoop, hsplit]
    split_ifs with hadd
    · rw [ih, mem_append, mem_singleton]
      rcases hadd with ⟨hgroup, hexclude, hnew, henabled⟩
      constructor
      · intro hcases
        rcases hcases with (hresult | heq) | hrest
        · exact Or.inl hresult
        · right
          rw [heq]
          exact ⟨Or.inl ⟨hgroup, rfl⟩, hexclude, henabled⟩
        · exact Or.inr ⟨Or.inr hrest.1, hrest.2⟩
      · intro hcases
        rcases hcases with hresult | ⟨⟨_, heq⟩ | hrest, hflags⟩
        · exact Or.inl (Or.inl hresult)
        · exact Or.inl (Or.inr heq.symm)
        · exact Or.inr ⟨hrest, hflags⟩
    · rw [ih]
      constructor
      · intro hcases
        rcases hcases with hresult | hrest
        · exact Or.inl hresult
        · exact Or.inr ⟨Or.inr hrest.1, hrest.2⟩
      · intro hcases
        rcases hcases with hresult | ⟨⟨hgroup, heq⟩ | hrest, hflags⟩
        · exact Or.inl hresult
        · left
          -- the guard only fails on a user who was found before
          by_contra hnew
          apply hadd
          rw [heq]
          exact ⟨hgroup, hflags.1, hnew, hflags.2⟩
        · exact Or.inr ⟨hrest, hflags⟩

theorem mem_groupIds_iff : group ∈ store.groupIds gids ↔
    ∃ row, store.groups.get? group = some row ∧ row.gid ∈ gids := by
  unfold groupIds
  rw [List.mem_map]
  constructor
  · intro hexists
    rcases hexists with ⟨entry, hentry, hfst⟩
    obtain ⟨hmem, hgid⟩ := mem_filter.mp hentry
    refine ⟨entry.2, ?_, by simpa using hgid⟩
    rw [← hfst]
    exact Dict.mem_entries_iff.mp hmem
  · intro hexists
    rcases hexists with ⟨row, hrow, hgid⟩
    refine ⟨(group, row), mem_filter.mpr ⟨?_, by simpa using hgid⟩, rfl⟩
    exact Dict.mem_entries_iff.mpr hrow

theorem mem_getPasswordEnabledUsers_iff : user ∈ store.getPasswordEnabledUsers gids excludeUserIds ↔
    (∃ group row, store.groups.get? group = some row ∧ row.gid ∈ gids ∧
      ⟨group, user⟩ ∈ store.memberships) ∧
    user ∉ excludeUserIds ∧ store.passwordEnabled user = true := by
  unfold getPasswordEnabledUsers
  rw [mem_passwordEnabledLoop_iff]
  constructor
  · intro hcases
    rcases hcases with hnil | ⟨⟨group, hgroup, hmem⟩, hflags⟩
    · cases hnil
    · obtain ⟨row, hrow, hgid⟩ := mem_groupIds_iff.mp hgroup
      exact ⟨⟨group, row, hrow, hgid, hmem⟩, hflags⟩
  · intro hboth
    rcases hboth with ⟨⟨group, row, hrow, hgid, hmem⟩, hflags⟩
    exact Or.inr ⟨⟨group, mem_groupIds_iff.mpr ⟨row, hrow, hgid⟩, hmem⟩, hflags⟩

theorem hasPasswordEnabledUser_iff : store.hasPasswordEnabledUser gids excludeUserIds = true ↔
    ∃ user, user ∈ store.getPasswordEnabledUsers gids excludeUserIds := by
  unfold hasPasswordEnabledUser
  cases store.getPasswordEnabledUsers gids excludeUserIds with
  | nil => simp
  | cons user rest =>
    simp only [isEmpty_cons, Bool.not_false, true_iff]
    exact ⟨user, mem_cons_self⟩

theorem exists_member_iff (user : ℕ) {entry : ℕ × Privilege}
    (hentry : store.localAdministratorPrivilege = some entry) :
    (∃ group, store.InOffice (.member group user)) ↔
      user ∈ store.getPasswordEnabledUsers entry.2.localGroups [] := by
  rw [mem_getPasswordEnabledUsers_iff]
  constructor
  · intro hexists
    rcases hexists with ⟨group, ⟨row, other, hrow, hother, hgid⟩, hmem, henabled⟩
    have hsame : entry = other := some.inj (hentry.symm.trans hother)
    rw [hsame]
    exact ⟨⟨group, row, hrow, hgid, hmem⟩, not_mem_nil, henabled⟩
  · intro hboth
    rcases hboth with ⟨⟨group, row, hrow, hgid, hmem⟩, _, henabled⟩
    exact ⟨group, ⟨row, entry, hrow, hentry, hgid⟩, hmem, henabled⟩

theorem hasLocalAdministratorSetUp_iff : store.hasLocalAdministratorSetUp = .ok true ↔
    store.localAdministratorPrivilege.isSome = true ∧ ∃ admin, store.InOffice admin := by
  unfold hasLocalAdministratorSetUp localAdministrators
  cases hentry : store.localAdministratorPrivilege with
  | none => simp
  | some entry =>
    have hmembers := fun user => exists_member_iff user hentry
    simp only [isSome_some, true_and]
    cases hlist : store.getPasswordEnabledUsers entry.2.localGroups [] with
    | cons user rest =>
      have hmem : user ∈ store.getPasswordEnabledUsers entry.2.localGroups [] := by
        rw [hlist]
        exact mem_cons_self
      obtain ⟨group, hoffice⟩ := (hmembers user).mpr hmem
      simp only [isEmpty_cons, Bool.false_eq_true, if_false, ok_bind, Bool.not_false, true_iff]
      exact ⟨.member group user, hoffice⟩
    | nil =>
      have hnone : ∀ group user, ¬ store.InOffice (.member group user) := by
        intro group user hoffice
        have hmem := (hmembers user).mp ⟨group, hoffice⟩
        rw [hlist] at hmem
        cases hmem
      simp only [isEmpty_nil, if_true, not_mem_nil, not_false_eq_true, true_and]
      cases hroot : store.rootUser with
      | none =>
        simp only [error_bind, reduceCtorEq, false_iff, not_exists]
        intro admin hoffice
        cases admin with
        | member group user => exact hnone group user hoffice
        | root user =>
          rcases hoffice with ⟨row, hrow, _⟩
          rw [hroot] at hrow
          cases hrow
      | some found =>
        have hvalid : (∃ admin, store.InOffice admin) ↔
            unixhashIsValid found.2.unixhash = true := by
          constructor
          · intro hexists
            rcases hexists with ⟨admin, hoffice⟩
            cases admin with
            | member group user => exact absurd hoffice (hnone group user)
            | root user =>
              rcases hoffice with ⟨row, hrow, hhash⟩
              rw [hroot, some.injEq] at hrow
              rw [hrow]
              exact hhash
          · intro hhash
            exact ⟨.root found.1, found.2, hroot, hhash⟩
        rw [hvalid]
        by_cases hhash : unixhashIsValid found.2.unixhash = true
        · simp [hhash]
        · simp [hhash]

end

/-! ## Staying in office when rows are written -/

section

variable {store : AccountStore} {admin : Administrator} {id : ℕ}
  {row old : UserRow}

theorem passwordEnabled_setUser (user : ℕ) : (store.setUser id row).passwordEnabled user =
    if user = id then row.passwordEnabled
    else store.passwordEnabled user := by
  unfold passwordEnabled setUser
  simp only [get?_set]
  split_ifs
  · rfl
  · rfl

variable (hoffice : store.InOffice admin)

include hoffice

theorem InOffice.setUser (hold : store.users.get? id = some old)
    (hother : ∀ user, admin = .root user → user ≠ id →
      row.username = "root" → old.username = "root")
    (hmember : ∀ group, admin = .member group id → row.passwordEnabled = true)
    (hroot : admin = .root id → row.username = "root" ∧ unixhashIsValid row.unixhash = true) :
    (store.setUser id row).InOffice admin := by
  cases admin with
  | member group user =>
    rcases hoffice with ⟨hgroup, hmem, henabled⟩
    refine ⟨hgroup, hmem, ?_⟩
    rw [passwordEnabled_setUser]
    split_ifs with heq
    · exact hmember group (by rw [heq])
    · exact henabled
  | root user =>
    rcases hoffice with ⟨found, hfound, hhash⟩
    by_cases heq : user = id
    · obtain ⟨hrootName, hrootHash⟩ := hroot (by rw [heq])
      refine ⟨row, ?_, hrootHash⟩
      rw [heq] at hfound ⊢
      exact find?_set_self hfound (by simpa using hrootName)
    · refine ⟨found, ?_, hhash⟩
      apply find?_set_of_ne hfound heq
      intro other hget hrow
      rw [hold, some.injEq] at hget
      rw [← hget]
      have hsame := hother user rfl heq (by simpa using hrow)
      simpa using hsame

theorem InOffice.modifyUser {f : UserRow → UserRow} (hname : ∀ row, (f row).username = row.username)
    (hhash : ∀ row, (f row).unixhash = row.unixhash)
    (henabled : ∀ row, (f row).passwordEnabled = row.passwordEnabled) :
    (store.modifyUser id f).InOffice admin := by
  unfold AccountStore.modifyUser
  cases hold : store.users.get? id with
  | none => exact hoffice
  | some old =>
    apply hoffice.setUser hold
    · intro user _ _ hroot
      rw [← hname old]
      exact hroot
    · intro group heq
      rw [heq] at hoffice
      have henabledOld := hoffice.2.2
      unfold passwordEnabled at henabledOld
      rw [hold] at henabledOld
      rw [henabled]
      exact henabledOld
    · intro heq
      rw [heq] at hoffice
      rcases hoffice with ⟨found, hfound, hfoundHash⟩
      have hentry : store.users.get? id = some found :=
        Dict.mem_entries_iff.mp (mem_of_find?_eq_some hfound)
      rw [hold, some.injEq] at hentry
      rw [hname, hhash, hentry]
      have hrootName := find?_some hfound
      exact ⟨by simpa using hrootName, hfoundHash⟩

theorem InOffice.deleteUserRow (hne : admin.user ≠ id) :
    (store.deleteUserRow id).InOffice admin := by
  cases admin with
  | member group user =>
    rcases hoffice with ⟨hgroup, hmem, henabled⟩
    change user ≠ id at hne
    refine ⟨hgroup, ?_, ?_⟩
    · exact mem_filter.mpr ⟨hmem, by simpa using hne⟩
    · unfold passwordEnabled AccountStore.deleteUserRow
      simp only [get?_erase]
      rw [if_neg hne]
      exact henabled
  | root user =>
    rcases hoffice with ⟨found, hfound, hhash⟩
    exact ⟨found, find?_erase_of_ne hfound hne, hhash⟩

theorem InOffice.deleteGroupRow (hgroup : ¬ store.IsAdminGroup id) :
    (store.deleteGroupRow id).InOffice admin := by
  cases admin with
  | root user => exact hoffice
  | member group user =>
    rcases hoffice with ⟨hadmin, hmem, henabled⟩
    have hne : group ≠ id := by
      intro heq
      rw [heq] at hadmin
      exact hgroup hadmin
    rcases hadmin with ⟨row, entry, hrow, hentry, hgid⟩
    refine ⟨⟨row, entry, ?_, hentry, hgid⟩, ?_, henabled⟩
    · change (store.groups.erase id).get? group = some row
      rw [get?_erase, if_neg hne]
      exact hrow
    · exact mem_filter.mpr ⟨hmem, by simpa using hne⟩

theorem InOffice.releaseUsers {deleteUsers : Bool} {nogroup : ℕ} {users : List ℕ}
    (hspared : deleteUsers = true → admin.user ∉ users) :
    (AccountStore.releaseUsers deleteUsers nogroup store users).InOffice admin := by
  induction users generalizing store with
  | nil => exact hoffice
  | cons user rest ih =>
    have hrest : deleteUsers = true → admin.user ∉ rest := by
      intro hdelete hmem
      exact hspared hdelete (mem_cons_of_mem user hmem)
    apply ih _ hrest
    split_ifs with hdelete
    · apply hoffice.deleteUserRow
      intro heq
      apply hspared hdelete
      rw [heq]
      exact mem_cons_self
    · exact hoffice.modifyUser (fun _ => rfl) (fun _ => rfl) (fun _ => rfl)

end

section

variable {store : AccountStore}

theorem releaseUsers_privileges (deleteUsers : Bool) (nogroup : ℕ) (users : List ℕ) :
    (releaseUsers deleteUsers nogroup store users).privileges = store.privileges := by
  induction users generalizing store with
  | nil => rfl
  | cons user rest ih =>
    rw [releaseUsers, ih]
    split_ifs
    · rfl
    · unfold modifyUser
      split
      · rfl
      · rfl

theorem releaseUsers_groups (deleteUsers : Bool) (nogroup : ℕ) (users : List ℕ) :
    (releaseUsers deleteUsers nogroup store users).groups = store.groups := by
  induction users generalizing store with
  | nil => rfl
  | cons user rest ih =>
    rw [releaseUsers, ih]
    split_ifs
    · rfl
    · unfold modifyUser
      split
      · rfl
      · rfl

theorem isAdminGroup_releaseUsers {deleteUsers : Bool} {nogroup : ℕ} {users : List ℕ} {group : ℕ} :
    (releaseUsers deleteUsers nogroup store users).IsAdminGroup group ↔
      store.IsAdminGroup group := by
  unfold IsAdminGroup localAdministratorPrivilege
  rw [releaseUsers_privileges, releaseUsers_groups]

theorem exists_other_of_beforeUserDeactivation {user : ℕ} {errorText : String}
    (hprivilege : store.localAdministratorPrivilege.isSome = true)
    (hguard : store.beforeUserDeactivation user errorText = .ok ()) :
    ∃ group other, store.InOffice (.member group other) ∧ other ≠ user := by
  obtain ⟨entry, hentry⟩ := isSome_iff_exists.mp hprivilege
  have hfind : store.privileges.entries.find?
      (·.2.builtinName = some .localAdministrator) = some entry := hentry
  have hbuiltin := find?_some hfind
  have hmem : entry ∈ store.privileges.entries.filter
      (·.2.builtinName = some .localAdministrator) :=
    mem_filter.mpr ⟨mem_of_find?_eq_some hfind, hbuiltin⟩
  have hchecked := forM_eq_ok_iff.mp hguard entry hmem
  have henabled : store.hasPasswordEnabledUser entry.2.localGroups [user] = true := by
    by_contra hmissing
    rw [if_neg hmissing] at hchecked
    cases hchecked
  obtain ⟨other, hother⟩ := hasPasswordEnabledUser_iff.mp henabled
  obtain ⟨⟨group, row, hrow, hgid, hmember⟩, hexclude, hflags⟩ :=
    mem_getPasswordEnabledUsers_iff.mp hother
  refine ⟨group, other, ⟨⟨row, entry, hrow, hentry, hgid⟩, hmember, hflags⟩, ?_⟩
  intro heq
  exact hexclude (by rw [heq]; exact mem_singleton_self user)

theorem not_isAdminGroup_of_beforeGroupDelete {pk : ℕ} {group : GroupRow}
    (hgroup : store.groups.get? pk = some group)
    (hguard : store.beforeGroupDelete group = .ok ()) :
    ¬ store.IsAdminGroup pk := by
  intro hadmin
  rcases hadmin with ⟨row, entry, hrow, hentry, hgid⟩
  have hchecked := forM_eq_ok_iff.mp hguard entry (mem_of_find?_eq_some hentry)
  rw [hgroup, some.injEq] at hrow
  rw [← hrow] at hgid
  rw [if_pos hgid] at hchecked
  cases hchecked

end

/-! ## What an accepted call has checked -/

section

variable {env : AccountEnv} {store next : AccountStore} {pk : ℕ}

theorem addError_eq_nil_iff {condition : Bool} {field errmsg : String} :
    addError condition field errmsg = [] ↔ condition = false := by
  cases condition with
  | true => simp [addError]
  | false => simp [addError]

theorem checkErrors_eq_ok_iff {errors : List ValidationError} :
    checkErrors errors = .ok () ↔ errors = [] := by
  cases errors with
  | nil => simp [checkErrors]
  | cons error rest => simp [checkErrors]

theorem getRow_eq_ok_iff {α : Type} {rows : Dict ℕ α} {row : α} :
    getRow rows pk = .ok row ↔ rows.get? pk = some row := by
  unfold getRow
  cases rows.get? pk with
  | none => simp
  | some found => simp

def updated (env : AccountEnv) (store : AccountStore) (pk : ℕ)
    (user : UserRow) (group : ℕ) (data : UserUpdate) : AccountStore :=
  let written := store.setUser pk
    (updatedUser env user group (withRandomPassword env data))
  match data.groups with
  | some groups => written.setGroupsOfUser pk groups
  | none => written

theorem withRandomPassword_groups (data : UserUpdate) :
    (withRandomPassword env data).groups = data.groups := by
  unfold withRandomPassword
  split_ifs
  · rfl
  · rfl

variable {data : UserUpdate}

theorem userUpdate_accepted (hupdate : store.userUpdate env pk data = .ok next) :
    ∃ user group, store.users.get? pk = some user ∧ store.userUpdateErrors env pk user data = [] ∧
      next = updated env store pk user group data := by
  obtain ⟨_, _, hupdate⟩ := bind_eq_ok_iff.mp hupdate
  obtain ⟨user, huser, hupdate⟩ := bind_eq_ok_iff.mp hupdate
  obtain ⟨group, _, hupdate⟩ := bind_eq_ok_iff.mp hupdate
  obtain ⟨_, herrors, hupdate⟩ := bind_eq_ok_iff.mp hupdate
  refine ⟨user, group, getRow_eq_ok_iff.mp huser, checkErrors_eq_ok_iff.mp herrors, ?_⟩
  split at hupdate
  next => cases hupdate
  next =>
    injection hupdate with hupdate
    rw [withRandomPassword_groups] at hupdate
    rw [← hupdate]
    rfl

theorem beforeUserPasswordDisable_of_errors (hdisabled : data.passwordDisabled = some true)
    (herrors : store.passwordDisableErrors pk data = []) :
    store.beforeUserPasswordDisable pk = .ok () := by
  unfold passwordDisableErrors at herrors
  rw [if_pos hdisabled] at herrors
  cases hguard : store.beforeUserPasswordDisable pk with
  | ok done => rfl
  | error error =>
    obtain ⟨entry, _, hentry⟩ := exists_of_forM_eq_error hguard
    rw [hguard] at herrors
    split_ifs at hentry
    rw [← hentry] at herrors
    cases herrors

theorem username_free_of_errors {user row : UserRow} {username : String}
    {other : ℕ} (herrors : store.commonValidation pk user data = [])
    (hname : data.username = some username)
    (hother : store.users.get? other = some row) (hne : other ≠ pk) :
    row.username ≠ username := by
  unfold commonValidation at herrors
  simp only [append_eq_nil_iff, addError_eq_nil_iff] at herrors
  have htaken := herrors.1.1.1.1.2
  intro heq
  rw [hname] at htaken
  have hmem : (other, row) ∈ store.users.entries := Dict.mem_entries_iff.mpr hother
  have hany : (store.users.entries.any fun entry =>
      entry.1 ≠ pk && entry.2.username = username) = true := by
    rw [List.any_eq_true]
    exact ⟨(other, row), hmem, by simp [hne, heq]⟩
  simp only [any_some] at htaken
  rw [hany] at htaken
  cases htaken

theorem setPassword_valid {unixhash : String} (hkept : ¬ EmptiesPassword data)
    (hvalid : unixhashIsValid unixhash = true) :
    unixhashIsValid (setPassword env (withRandomPassword env data) unixhash) = true := by
  unfold withRandomPassword
  split_ifs with hrandom
  · simp only [setPassword, env.randomPassword_ne, if_false]
    exact env.cryptedPassword_valid env.randomPassword
  · unfold setPassword
    cases hpassword : data.password with
    | none => exact hvalid
    | some given =>
      have hgiven : ∃ password, given = some password ∧ password ≠ "" := by
        by_contra hempty
        have hnot : passwordGiven data = false := by
          unfold passwordGiven
          rw [hpassword]
          cases given with
          | none => rfl
          | some password =>
            have hblank : password = "" := by
              by_contra hne
              exact hempty ⟨password, rfl, hne⟩
            simp [hblank]
        apply hkept
        constructor
        · simpa [hnot] using hrandom
        · rw [hpassword]
          cases given with
          | none => exact Or.inl rfl
          | some password =>
            right
            have hblank : password = "" := by
              by_contra hne
              exact hempty ⟨password, rfl, hne⟩
            rw [hblank]
      rcases hgiven with ⟨password, heq, hne⟩
      rw [heq]
      simp only [hne, if_false]
      exact env.cryptedPassword_valid password

end

end Middlewared.AccountStore
