import Middlewared.AccountOffice
import Middlewared.TransitionSystem

/-!
# Losing the last administrator

Disabling a password, deleting a user and changing the groups of a privilege all make sure that an
administrator is left.
-/

namespace Middlewared.AccountStore

open List Dict Option

/-- Someone who is in office before the call is spared by it, or the users that
are written to a group of the privilege have an administrator among them. -/
def KeepsAdministrator (store : AccountStore) : Call → Prop
  | .userUpdate pk data => ∃ admin, store.InOffice admin ∧
      (admin.user = pk → ¬ store.Deprives data admin)
  | .groupUpdate pk data =>
    (∃ admin, store.InOffice admin ∧ ∀ user, admin ≠ .member pk user) ∨
      (store.IsAdminGroup pk ∧ ∃ user ∈ data.users.getD (store.members pk),
        user ∉ store.primaryUsers pk ∧ store.passwordEnabled user = true)
  | .groupDelete pk true => ∃ admin, store.InOffice admin ∧ admin.user ∉ store.primaryUsers pk
  | _ => True

/-! ## Users -/

def HasAdministrator (store : AccountStore) : Prop :=
  store.localAdministratorPrivilege.isSome = true ∧ ∃ admin, store.InOffice admin

section

variable {env : AccountEnv} {store next : AccountStore} {pk : ℕ}

theorem InOffice.setGroupsOfUser {admin : Administrator} {groups : List ℕ}
    (hoffice : store.InOffice admin)
    (hmember : ∀ group, admin = .member group pk → group ∈ groups) :
    (store.setGroupsOfUser pk groups).InOffice admin := by
  cases admin with
  | root user => exact hoffice
  | member group user =>
    rcases hoffice with ⟨hgroup, hmem, henabled⟩
    refine ⟨hgroup, mem_append.mpr ?_, henabled⟩
    by_cases heq : user = pk
    · right
      rw [heq]
      exact List.mem_map.mpr ⟨group, hmember group (by rw [heq]), rfl⟩
    · left
      exact mem_filter.mpr ⟨hmem, by simpa using heq⟩

variable {data : UserUpdate} {user : UserRow} {primary : ℕ}

theorem InOffice.updated_of_ne {group other : ℕ}
    (hoffice : store.InOffice (.member group other)) (hne : other ≠ pk)
    (huser : store.users.get? pk = some user) :
    (updated env store pk user primary data).InOffice (.member group other) := by
  have hwritten : (store.setUser pk (updatedUser env user primary
      (withRandomPassword env data))).InOffice (.member group other) := by
    apply hoffice.setUser huser
    · intro root heq
      cases heq
    · intro own heq
      injection heq with _ heq
      exact absurd heq hne
    · intro heq
      cases heq
  unfold updated
  cases data.groups with
  | none => exact hwritten
  | some groups =>
    apply hwritten.setGroupsOfUser
    intro own heq
    injection heq with _ heq
    exact absurd heq hne

theorem updatedUser_passwordEnabled (henabled : user.passwordEnabled = true)
    (hdisabled : data.passwordDisabled ≠ some true)
    (hlocked : data.locked ≠ some true) (hpassword : ¬ EmptiesPassword data) :
    (updatedUser env user primary (withRandomPassword env data)).passwordEnabled = true := by
  have hsame : (withRandomPassword env data).locked = data.locked ∧
      (withRandomPassword env data).passwordDisabled = data.passwordDisabled := by
    unfold withRandomPassword
    split_ifs
    · exact ⟨rfl, rfl⟩
    · exact ⟨rfl, rfl⟩
  simp only [UserRow.passwordEnabled, Bool.and_eq_true, Bool.not_eq_true'] at henabled ⊢
  rcases henabled with ⟨⟨hunlocked, hallowed⟩, hhash⟩
  refine ⟨⟨?_, ?_⟩, setPassword_valid hpassword hhash⟩
  · simp only [updatedUser, hsame.1]
    cases hvalue : data.locked with
    | none => exact hunlocked
    | some value =>
      cases value with
      | false => rfl
      | true => exact absurd hvalue hlocked
  · simp only [updatedUser, hsame.2]
    cases hvalue : data.passwordDisabled with
    | none => exact hallowed
    | some value =>
      cases value with
      | false => rfl
      | true => exact absurd hvalue hdisabled

theorem exists_inOffice_updated_self {group : ℕ} (hoffice : store.InOffice (.member group pk))
    (huser : store.users.get? pk = some user)
    (hdisabled : data.passwordDisabled ≠ some true)
    (hspared : ¬ store.Deprives data (.member group pk)) :
    ∃ admin, (updated env store pk user primary data).InOffice admin := by
  simp only [Deprives, not_or, not_exists, not_and, not_forall, not_not] at hspared
  rcases hspared with ⟨hlocked, hpassword, hgroups⟩
  rcases hoffice with ⟨hadmin, hmem, henabled⟩
  have hrow : user.passwordEnabled = true := by
    unfold passwordEnabled at henabled
    rw [huser] at henabled
    exact henabled
  have hnew : (store.setUser pk (updatedUser env user primary
      (withRandomPassword env data))).passwordEnabled pk = true := by
    rw [passwordEnabled_setUser, if_pos rfl]
    exact updatedUser_passwordEnabled hrow hdisabled hlocked hpassword
  unfold updated
  cases hgiven : data.groups with
  | none => exact ⟨.member group pk, hadmin, hmem, hnew⟩
  | some groups =>
    obtain ⟨other, hother, hotherAdmin⟩ := hgroups groups hgiven
    refine ⟨.member other pk, hotherAdmin, ?_, hnew⟩
    apply mem_append_right
    exact List.mem_map.mpr ⟨other, hother, rfl⟩

theorem InOffice.updated_root {root : ℕ} (hoffice : store.InOffice (.root root))
    (huser : store.users.get? pk = some user)
    (herrors : store.commonValidation pk user data = [])
    (hspared : root = pk → ¬ store.Deprives data (.root root)) :
    (updated env store pk user primary data).InOffice (.root root) := by
  rcases hoffice with ⟨found, hfound, hhash⟩
  have hget : store.users.get? root = some found :=
    Dict.mem_entries_iff.mp (mem_of_find?_eq_some hfound)
  have hrootName : found.username = "root" := by
    simpa using find?_some hfound
  have hname : (withRandomPassword env data).username = data.username := by
    unfold withRandomPassword
    split_ifs
    · rfl
    · rfl
  have hwritten : (store.setUser pk (updatedUser env user primary
      (withRandomPassword env data))).InOffice (.root root) := by
    have hoffice : store.InOffice (.root root) := ⟨found, hfound, hhash⟩
    apply hoffice.setUser huser
    · intro other heq hne hroot
      injection heq with heq
      rw [← heq] at hne
      simp only [updatedUser, hname] at hroot
      cases hgiven : data.username with
      | none =>
        rw [hgiven] at hroot
        exact hroot
      | some username =>
        rw [hgiven] at hroot
        -- a second row named root could come before the first in the query
        have hfree := username_free_of_errors herrors hgiven hget hne
        rw [hrootName] at hfree
        exact absurd hroot.symm hfree
    · intro group heq
      cases heq
    · intro heq
      injection heq with heq
      have hkept := hspared heq
      simp only [Deprives, not_or, not_exists, not_and, not_not] at hkept
      rw [heq, huser, some.injEq] at hget
      rw [← hget] at hhash hrootName
      refine ⟨?_, setPassword_valid hkept.1 hhash⟩
      simp only [updatedUser, hname]
      cases hgiven : data.username with
      | none => exact hrootName
      | some username => exact hkept.2 username hgiven
  unfold updated
  cases data.groups with
  | none => exact hwritten
  | some groups =>
    apply hwritten.setGroupsOfUser
    intro group heq
    cases heq

theorem updated_privilege : (updated env store pk user primary data).localAdministratorPrivilege =
    store.localAdministratorPrivilege := by
  unfold updated
  cases data.groups with
  | none => rfl
  | some groups => rfl

theorem HasAdministrator.userUpdate (hadmin : store.HasAdministrator)
    (hkeeps : store.KeepsAdministrator (.userUpdate pk data))
    (hupdate : store.userUpdate env pk data = .ok next) :
    next.HasAdministrator := by
  obtain ⟨user, primary, huser, herrors, hnext⟩ := userUpdate_accepted hupdate
  simp only [userUpdateErrors, append_eq_nil_iff] at herrors
  rw [hnext]
  refine ⟨by rw [updated_privilege]; exact hadmin.1, ?_⟩
  by_cases hdisabled : data.passwordDisabled = some true
  · have hguard := beforeUserPasswordDisable_of_errors hdisabled herrors.1.1.1.1
    obtain ⟨group, other, hoffice, hne⟩ := exists_other_of_beforeUserDeactivation hadmin.1 hguard
    exact ⟨.member group other, hoffice.updated_of_ne hne huser⟩
  · rcases hkeeps with ⟨admin, hoffice, hspared⟩
    cases admin with
    | root root =>
      exact ⟨.root root, hoffice.updated_root huser herrors.1.1.2 hspared⟩
    | member group other =>
      by_cases heq : other = pk
      · subst heq
        exact exists_inOffice_updated_self hoffice huser hdisabled (hspared rfl)
      · exact ⟨.member group other, hoffice.updated_of_ne heq huser⟩

end

/-! ## Groups -/

section

variable {env : AccountEnv} {store next : AccountStore} {pk : ℕ}

variable {deleteUsers : Bool}

theorem groupDelete_accepted (hdelete : store.groupDelete pk deleteUsers = .ok next) :
    ∃ nogroup, ¬ store.IsAdminGroup pk ∧ next = (releaseUsers deleteUsers nogroup store
        (store.primaryUsers pk)).deleteGroupRow pk := by
  obtain ⟨_, _, hdelete⟩ := bind_eq_ok_iff.mp hdelete
  obtain ⟨group, hgroup, hdelete⟩ := bind_eq_ok_iff.mp hdelete
  split_ifs at hdelete
  obtain ⟨_, hguard, hdelete⟩ := bind_eq_ok_iff.mp hdelete
  obtain ⟨nogroup, _, hdelete⟩ := bind_eq_ok_iff.mp hdelete
  injection hdelete with hdelete
  exact ⟨nogroup, not_isAdminGroup_of_beforeGroupDelete
    (getRow_eq_ok_iff.mp hgroup) hguard, hdelete.symm⟩

theorem groupDelete_privilege (hdelete : store.groupDelete pk deleteUsers = .ok next) :
    next.localAdministratorPrivilege = store.localAdministratorPrivilege := by
  obtain ⟨nogroup, _, hnext⟩ := groupDelete_accepted hdelete
  rw [hnext]
  unfold localAdministratorPrivilege deleteGroupRow
  rw [releaseUsers_privileges]

theorem InOffice.groupDelete {admin : Administrator} (hoffice : store.InOffice admin)
    (hspared : deleteUsers = true → admin.user ∉ store.primaryUsers pk)
    (hdelete : store.groupDelete pk deleteUsers = .ok next) :
    next.InOffice admin := by
  obtain ⟨nogroup, hgroup, hnext⟩ := groupDelete_accepted hdelete
  rw [hnext]
  apply (hoffice.releaseUsers hspared).deleteGroupRow
  rw [isAdminGroup_releaseUsers]
  exact hgroup

theorem HasAdministrator.groupDelete (hadmin : store.HasAdministrator)
    (hkeeps : store.KeepsAdministrator (.groupDelete pk deleteUsers))
    (hdelete : store.groupDelete pk deleteUsers = .ok next) :
    next.HasAdministrator := by
  refine ⟨by rw [groupDelete_privilege hdelete]; exact hadmin.1, ?_⟩
  cases deleteUsers with
  | false =>
    rcases hadmin.2 with ⟨admin, hoffice⟩
    exact ⟨admin, hoffice.groupDelete (by simp) hdelete⟩
  | true =>
    rcases hkeeps with ⟨admin, hoffice, hspared⟩
    exact ⟨admin, hoffice.groupDelete (fun _ => hspared) hdelete⟩

theorem deletePrimaryGroup_cases (store : AccountStore) (pk : ℕ) (user : UserRow) :
    store.deletePrimaryGroup pk user = store ∨ store.groupDelete user.group false =
        .ok (store.deletePrimaryGroup pk user) := by
  unfold deletePrimaryGroup
  cases store.groups.get? user.group with
  | none => exact Or.inl rfl
  | some group =>
    simp only
    split_ifs
    · cases store.groupDelete user.group false with
      | ok other => exact Or.inr rfl
      | error error => exact Or.inl rfl
    · exact Or.inl rfl

theorem HasAdministrator.userDelete {deleteGroup : Bool}
    (hadmin : store.HasAdministrator)
    (hdelete : store.userDelete env pk deleteGroup = .ok next) :
    next.HasAdministrator := by
  obtain ⟨_, _, hdelete⟩ := bind_eq_ok_iff.mp hdelete
  obtain ⟨user, _, hdelete⟩ := bind_eq_ok_iff.mp hdelete
  split_ifs at hdelete
  all_goals
    obtain ⟨_, hguard, hdelete⟩ := bind_eq_ok_iff.mp hdelete
    injection hdelete with hdelete
    obtain ⟨group, other, hoffice, hne⟩ :=
      exists_other_of_beforeUserDeactivation hadmin.1 hguard
    rw [← hdelete]
  · rcases deletePrimaryGroup_cases store pk user with hsame | hgroup
    · rw [hsame]
      exact ⟨hadmin.1, .member group other, hoffice.deleteUserRow hne⟩
    · have hkept := hoffice.groupDelete (by simp) hgroup
      refine ⟨?_, .member group other, hkept.deleteUserRow hne⟩
      change (store.deletePrimaryGroup pk user).localAdministratorPrivilege.isSome
      rw [groupDelete_privilege hgroup]
      exact hadmin.1
  · exact ⟨hadmin.1, .member group other, hoffice.deleteUserRow hne⟩

theorem le_foldr_max {keys : List ℕ} {key : ℕ} (hmem : key ∈ keys) : key ≤ keys.foldr max 0 := by
  induction keys with
  | nil => cases hmem
  | cons head rest ih =>
    rw [foldr_cons]
    rcases mem_cons.mp hmem with heq | hrest
    · omega
    · have hle := ih hrest
      omega

theorem InOffice.setGroup {admin : Administrator} {row : GroupRow}
    {users : List ℕ} (hoffice : store.InOffice admin)
    (hother : ∀ user, admin ≠ .member pk user) :
    ({ store with groups := store.groups.set pk row }.setUsersOfGroup pk users).InOffice admin := by
  cases admin with
  | root user => exact hoffice
  | member group user =>
    have hne : group ≠ pk := by
      intro heq
      exact hother user (by rw [heq])
    rcases hoffice with ⟨⟨found, entry, hfound, hentry, hgid⟩, hmem, henabled⟩
    refine ⟨⟨found, entry, ?_, hentry, hgid⟩, ?_, henabled⟩
    · change (store.groups.set pk row).get? group = some found
      rw [get?_set_of_ne store.groups hne]
      exact hfound
    · apply mem_append_left
      exact mem_filter.mpr ⟨hmem, by simpa using hne⟩

theorem HasAdministrator.groupCreate {data : GroupCreate} (hadmin : store.HasAdministrator)
    (hcreate : store.groupCreate env data = .ok next) :
    next.HasAdministrator := by
  obtain ⟨_, _, hcreate⟩ := bind_eq_ok_iff.mp hcreate
  injection hcreate with hcreate
  rcases hadmin.2 with ⟨admin, hoffice⟩
  rw [← hcreate]
  refine ⟨hadmin.1, admin, hoffice.setGroup ?_⟩
  intro user heq
  rw [heq] at hoffice
  rcases hoffice with ⟨⟨row, entry, hrow, _⟩, _⟩
  have hle := le_foldr_max (Dict.mem_def.mp (mem_of_get?_eq_some hrow))
  unfold nextId at hle
  omega

theorem HasAdministrator.groupUpdate {data : GroupUpdate} (hadmin : store.HasAdministrator)
    (hkeeps : store.KeepsAdministrator (.groupUpdate pk data))
    (hupdate : store.groupUpdate env pk data = .ok next) :
    next.HasAdministrator := by
  obtain ⟨_, _, hupdate⟩ := bind_eq_ok_iff.mp hupdate
  obtain ⟨group, hgroup, hupdate⟩ := bind_eq_ok_iff.mp hupdate
  obtain ⟨_, _, hupdate⟩ := bind_eq_ok_iff.mp hupdate
  injection hupdate with hupdate
  rw [← hupdate]
  refine ⟨hadmin.1, ?_⟩
  rcases hkeeps with ⟨admin, hoffice, hother⟩ |
    ⟨hgroupAdmin, user, huser, hprimary, henabled⟩
  · exact ⟨admin, hoffice.setGroup hother⟩
  · rcases hgroupAdmin with ⟨row, entry, hrow, hentry, hgid⟩
    have hsame : group = row := some.inj ((getRow_eq_ok_iff.mp hgroup).symm.trans hrow)
    refine ⟨.member pk user, ⟨{ group with
      group := data.name.getD group.group
      smb := data.smb.getD group.smb }, entry, ?_, hentry, ?_⟩, ?_, henabled⟩
    · exact get?_set_self store.groups pk _
    · rw [hsame]
      exact hgid
    · apply mem_append_right
      refine List.mem_map.mpr ⟨user, mem_filter.mpr ⟨?_, ?_⟩, rfl⟩
      · cases hgiven : data.users with
        | none =>
          rw [hgiven] at huser
          exact mem_append_left _ huser
        | some users =>
          rw [hgiven] at huser
          exact huser
      · simpa using hprimary

end

section

variable {env : AccountEnv} {store next : AccountStore} {id : ℕ}

theorem hasPasswordEnabledUser_of_builtinErrors {old new : Privilege}
    (hbuiltin : new.builtinName = some .localAdministrator)
    (herrors : store.builtinErrors old new = []) :
    store.hasPasswordEnabledUser new.localGroups [] = true := by
  unfold builtinErrors at herrors
  rw [hbuiltin] at herrors
  simp only [append_eq_nil_iff, addError_eq_nil_iff] at herrors
  simpa using herrors.2.2

theorem HasAdministrator.setPrivilege {old new : Privilege} (hadmin : store.HasAdministrator)
    (hold : store.privileges.get? id = some old)
    (hname : new.builtinName = old.builtinName)
    (herrors : store.builtinErrors old new = []) :
    ({ store with privileges := store.privileges.set id new } : AccountStore).HasAdministrator := by
  obtain ⟨entry, hentry⟩ := isSome_iff_exists.mp hadmin.1
  have hfind : store.privileges.entries.find?
      (·.2.builtinName = some .localAdministrator) = some entry := hentry
  by_cases heq : entry.1 = id
  · have hentryOld : entry.2 = old := by
      have hget : store.privileges.get? entry.1 = some entry.2 :=
        Dict.mem_entries_iff.mp (mem_of_find?_eq_some hfind)
      rw [heq, hold, some.injEq] at hget
      exact hget.symm
    have hbuiltin : new.builtinName = some .localAdministrator := by
      rw [hname, ← hentryOld]
      simpa using find?_some hfind
    have hprivilege : ({ store with privileges := store.privileges.set id new } :
        AccountStore).localAdministratorPrivilege = some (id, new) := by
      have hself : store.privileges.entries.find? (·.2.builtinName = some .localAdministrator) =
            some (id, entry.2) := by
        rw [hfind, ← heq]
      exact find?_set_self hself (by simpa using hbuiltin)
    obtain ⟨user, huser⟩ := hasPasswordEnabledUser_iff.mp
      (hasPasswordEnabledUser_of_builtinErrors hbuiltin herrors)
    obtain ⟨⟨group, row, hrow, hgid, hmem⟩, _, henabled⟩ := mem_getPasswordEnabledUsers_iff.mp huser
    refine ⟨by rw [hprivilege]; rfl, .member group user, ?_, hmem, henabled⟩
    exact ⟨row, (id, new), hrow, hprivilege, hgid⟩
  · have hprivilege : ({ store with privileges := store.privileges.set id new } :
        AccountStore).localAdministratorPrivilege = some entry := by
      apply find?_set_of_ne hfind heq
      intro other hother hnew
      rw [hold, some.injEq] at hother
      rw [← hother]
      simpa [hname] using hnew
    rcases hadmin.2 with ⟨admin, hoffice⟩
    refine ⟨by rw [hprivilege]; rfl, admin, ?_⟩
    cases admin with
    | root user => exact hoffice
    | member group user =>
      rcases hoffice with ⟨⟨row, other, hrow, hother, hgid⟩, hmem, henabled⟩
      rw [hentry] at hother
      exact ⟨⟨row, other, hrow, hprivilege.trans hother, hgid⟩, hmem, henabled⟩

theorem HasAdministrator.privilegeUpdate {data : PrivilegeUpdate} (hadmin : store.HasAdministrator)
    (hupdate : store.privilegeUpdate env id data = .ok next) :
    next.HasAdministrator := by
  obtain ⟨old, hold, hupdate⟩ := bind_eq_ok_iff.mp hupdate
  obtain ⟨_, herrors, hupdate⟩ := bind_eq_ok_iff.mp hupdate
  obtain ⟨_, _, hupdate⟩ := bind_eq_ok_iff.mp hupdate
  injection hupdate with hupdate
  rw [← hupdate]
  exact hadmin.setPrivilege (getRow_eq_ok_iff.mp hold) rfl (checkErrors_eq_ok_iff.mp herrors)

end

section

variable {store next : AccountStore}

theorem HasAdministrator.step {call : AccountEnv × Call} (hadmin : store.HasAdministrator)
    (hkeeps : store.KeepsAdministrator call.2)
    (hstep : store.step call = some next) : next.HasAdministrator := by
  rcases call with ⟨env, request⟩
  have hperform : store.perform env request = .ok next := by
    unfold AccountStore.step at hstep
    cases hresult : store.perform env request with
    | error error =>
      rw [hresult] at hstep
      cases hstep
    | ok other =>
      rw [hresult] at hstep
      injection hstep with hstep
      rw [hstep]
  cases request with
  | userUpdate pk data => exact hadmin.userUpdate hkeeps hperform
  | userDelete pk deleteGroup => exact hadmin.userDelete hperform
  | groupCreate data => exact hadmin.groupCreate hperform
  | groupUpdate pk data => exact hadmin.groupUpdate hkeeps hperform
  | groupDelete pk deleteUsers => exact hadmin.groupDelete hkeeps hperform
  | privilegeUpdate id data => exact hadmin.privilegeUpdate hperform

open TransitionSystem in
/-- After every sequence of accepted calls that each keep an administrator,
there is one, and setting one up without authentication is refused. -/
theorem run_administrator_kept {calls : List (AccountEnv × Call)}
    (hstart : store.hasLocalAdministratorSetUp = .ok true)
    (hkeeps : EveryStep AccountStore.step
      (fun store call => store.KeepsAdministrator call.2) store calls)
    (hrun : run AccountStore.step store calls = some next) :
    next.hasLocalAdministratorSetUp = .ok true ∧ ∀ setup, next.setupLocalAdministrator setup =
        .error (.callError "Local administrator is already set up" .eexist) := by
  have hfilled : store.HasAdministrator := hasLocalAdministratorSetUp_iff.mp hstart
  have hadmin : next.HasAdministrator := by
    apply run_invariant_of_everyStep _ hfilled hkeeps hrun
    intro store call next hadmin hguard hstep
    exact hadmin.step hguard hstep
  have hset : next.hasLocalAdministratorSetUp = .ok true :=
    hasLocalAdministratorSetUp_iff.mpr hadmin
  refine ⟨hset, ?_⟩
  intro setup
  unfold setupLocalAdministrator
  rw [hset, ok_bind, if_pos rfl]

end

section

open TransitionSystem

def freshEnv : AccountEnv where
  cryptedPassword := fun password => "$6$" ++ password
  cryptedPassword_valid := by
    intro password
    have hne : ∀ other ∈ ["x", "*"], "$6$" ++ password ≠ other := by
      intro other hother heq
      have hlist := congrArg String.toList heq
      rw [String.toList_append] at hlist
      simp only [List.mem_cons, List.not_mem_nil, or_false] at hother
      rcases hother with h | h
      · rw [h] at hlist
        simp at hlist
      · rw [h] at hlist
        simp at hlist
    simp only [unixhashIsValid, decide_eq_true_eq]
    intro hmem
    exact hne _ hmem rfl
  randomPassword := "Xq7"
  randomPassword_ne := by decide
  userErrors := fun _ _ _ => []
  homeError := fun _ _ _ => none
  groupErrors := fun _ _ => []
  groupWithGid := fun _ => none
  dsGids := []
  entryDsGroups := fun groups => groups
  privilegeErrors := fun _ => []

def oneAdministrator : AccountStore where
  users := Dict.ofEntries [(1, {
        uid := 0
        username := "root"
        unixhash := "*"
        builtin := true
        group := 1 }),
      (2, { uid := 3000, username := "ann", unixhash := "$6$k", group := 3 })]
  groups := Dict.ofEntries [(1, { gid := 0, group := "root", builtin := true }),
      (2, { gid := 544, group := "builtin_administrators", builtin := true }),
      (3, { gid := 3000, group := "ann" }),
      (4, { gid := 65534, group := "nogroup", builtin := true })]
  memberships := [⟨2, 2⟩]
  privileges := Dict.ofEntries [(1, {
        id := 1
        builtinName := some .localAdministrator
        name := "Local Administrator"
        localGroups := [544]
        dsGroups := []
        roles := ["FULL_ADMIN"]
        webShell := true })]

def newPasswordAndGroup : List (AccountEnv × Call) :=
  [(freshEnv, .userUpdate 2 { password := some (some "q") }),
    (freshEnv, .groupCreate { name := "ops" })]

theorem newPasswordAndGroup_kept : oneAdministrator.hasLocalAdministratorSetUp = .ok true ∧
    EveryStep step (fun store call => store.KeepsAdministrator call.2)
      oneAdministrator newPasswordAndGroup ∧
    ∃ next, run step oneAdministrator newPasswordAndGroup = some next ∧
      next.hasLocalAdministratorSetUp = .ok true := by
  have hkeeps : EveryStep step (fun store call => store.KeepsAdministrator call.2)
      oneAdministrator newPasswordAndGroup := by
    apply everyStep_cons _ rfl
    · exact everyStep_cons trivial rfl trivial
    · refine ⟨.member 2 2, ⟨⟨_, _, rfl, rfl, by decide⟩, by decide, rfl⟩, ?_⟩
      intro _ hdeprives
      simp [Deprives, EmptiesPassword] at hdeprives
  exact ⟨rfl, hkeeps, _, rfl, (run_administrator_kept rfl hkeeps rfl).1⟩

/-- Locking the only administrator with a password leaves none. -/
theorem oneAdministrator_lost :
    oneAdministrator.hasLocalAdministratorSetUp = .ok true ∧
      ∀ call ∈ [Call.userUpdate 2 { locked := some true },
          .userUpdate 2 { password := some none },
          .userUpdate 2 { groups := some [] },
          .groupUpdate 2 { users := some [] },
          .groupDelete 3 true],
        ∃ next, oneAdministrator.step (freshEnv, call) = some next ∧
          next.hasLocalAdministratorSetUp = .ok false ∧
          ∀ setup, next.setupLocalAdministrator setup = setup next := by
  refine ⟨rfl, ?_⟩
  intro call hcall
  simp only [mem_cons, not_mem_nil, or_false] at hcall
  rcases hcall with h | h | h | h | h
  all_goals
    rw [h]
    exact ⟨_, rfl, rfl, fun setup => rfl⟩

end

end Middlewared.AccountStore
