import Middlewared.Privilege
import Middlewared.RoleExpansion

/-!
# Roles under a security guide

With a guide enabled, `rolesForRole` tests every included role before it follows it, and turns
full administrator into all allowed roles.
-/

namespace Middlewared

open List Option

def StigPermits (roles : RoleTable) (enabledStig : STIGType) (name : String) :
    Prop :=
  roleStigCheck roles name enabledStig = .ok true

theorem stigPermits_iff {roles : RoleTable} {enabledStig : STIGType} {name : String} :
    StigPermits roles enabledStig name ↔ ∃ entry, roles.get? name = some entry ∧
        entry.stigAllowed enabledStig = true := by
  unfold StigPermits roleStigCheck
  cases roles.get? name with
  | none => simp
  | some entry => simp

theorem mem_stigAllowedRoles_iff {roles : RoleTable} {enabledStig : STIGType} {name : String} :
    name ∈ stigAllowedRoles roles enabledStig ↔ StigPermits roles enabledStig name := by
  rw [stigPermits_iff]
  unfold stigAllowedRoles
  simp only [List.mem_toFinset, List.mem_map, mem_filter, Prod.exists, Dict.mem_entries_iff]
  constructor
  · intro hlisted
    rcases hlisted with ⟨other, entry, ⟨hget, hallowed⟩, rfl⟩
    exact ⟨entry, hget, hallowed⟩
  · intro hlisted
    rcases hlisted with ⟨entry, hget, hallowed⟩
    exact ⟨name, entry, ⟨hget, hallowed⟩, rfl⟩

theorem activeStig_of_ne_zero {stig : STIGType} (hstig : stig ≠ 0) :
    activeStig (some stig) = some stig := by
  simp [activeStig, hstig]

/-! ## One role -/

section

variable {roles : RoleTable} {stig : STIGType} (hstig : stig ≠ 0)

include hstig

variable {limit : ℕ} {role : String} {result : Finset String}

theorem rolesForRole_permits_or_eq (hok : rolesForRole roles (some stig) limit role = .ok result) :
    ∀ name ∈ result, StigPermits roles stig name ∨ name = role := by
  induction limit generalizing role result with
  | zero => simp [rolesForRole] at hok
  | succ limit ih =>
    rw [rolesForRole, activeStig_of_ne_zero hstig] at hok
    cases hentry : roles.get? role with
    | none =>
      simp only [hentry, Except.ok.injEq] at hok
      subst result
      simp
    | some entry =>
      simp only [hentry] at hok
      intro name hname
      by_cases hfull : entry.fullAdmin = true
      · simp only [hfull, if_true, Except.ok.injEq] at hok
        subst result
        exact Or.inl (mem_stigAllowedRoles_iff.mp hname)
      · simp only [hfull] at hok
        obtain ⟨included, hincluded, hresult⟩ := bind_eq_ok_iff.mp hok
        simp only [Except.ok.injEq] at hresult
        subst result
        rcases Finset.mem_union.mp hname with hself | hrest
        · exact Or.inr (Finset.mem_singleton.mp hself)
        · rw [unionOver_mem hincluded] at hrest
          rcases hrest with ⟨child, _, part, hpart, hmem⟩
          obtain ⟨allowed, hallowed, hbranch⟩ := bind_eq_ok_iff.mp hpart
          cases allowed with
          | false =>
            simp only [Bool.false_eq_true, if_false, Except.ok.injEq] at hbranch
            subst part
            simp at hmem
          | true =>
            left
            rcases ih hbranch name hmem with hpermits | hchild
            · exact hpermits
            · rw [hchild]
              exact hallowed

theorem mem_rolesForRole_self {entry : Role}
    (hentry : roles.get? role = some entry) (hfull : entry.fullAdmin = false)
    (hok : rolesForRole roles (some stig) limit role = .ok result) :
    role ∈ result := by
  cases limit with
  | zero => simp [rolesForRole] at hok
  | succ limit =>
    rw [rolesForRole, activeStig_of_ne_zero hstig] at hok
    simp only [hentry, hfull, Bool.false_eq_true, if_false] at hok
    obtain ⟨included, _, hresult⟩ := bind_eq_ok_iff.mp hok
    simp only [Except.ok.injEq] at hresult
    subst result
    exact Finset.mem_union_left _ (Finset.mem_singleton_self role)

def StartPermitted (roles : RoleTable) (stig : STIGType) (role : String) :
    Prop :=
  ∀ entry, roles.get? role = some entry → entry.fullAdmin = true ∨ entry.stigAllowed stig = true

theorem rolesForRole_permits_iff (hok : rolesForRole roles (some stig) limit role = .ok result) :
    (∀ name ∈ result, StigPermits roles stig name) ↔ StartPermitted roles stig role := by
  constructor
  · intro hall entry hentry
    cases hfull : entry.fullAdmin with
    | true => exact Or.inl rfl
    | false =>
      right
      have hself := hall role (mem_rolesForRole_self hstig hentry hfull hok)
      obtain ⟨entry', hentry', hallowed⟩ := stigPermits_iff.mp hself
      rw [hentry, some.injEq] at hentry'
      rw [hentry']
      exact hallowed
  · intro hstart name hname
    rcases rolesForRole_permits_or_eq hstig hok name hname with hpermits | hself
    · exact hpermits
    · subst hself
      cases limit with
      | zero => simp [rolesForRole] at hok
      | succ limit =>
        rw [rolesForRole, activeStig_of_ne_zero hstig] at hok
        cases hentry : roles.get? name with
        | none =>
          simp only [hentry, Except.ok.injEq] at hok
          subst result
          simp at hname
        | some entry =>
          rcases hstart entry hentry with hfull | hallowed
          · simp only [hentry, hfull, if_true, Except.ok.injEq] at hok
            subst result
            exact mem_stigAllowedRoles_iff.mp hname
          · exact stigPermits_iff.mpr ⟨entry, hentry, hallowed⟩

omit hstig in
theorem mem_allowlistForRole {manager : RoleManager} (hstig : stig ≠ 0)
    {allowlist : List AllowlistEntry}
    (hok : manager.allowlistForRole (some stig) limit role = .ok allowlist) :
    ∃ result, rolesForRole manager.roles (some stig) limit role = .ok result ∧
      ∀ item ∈ allowlist, ∃ name ∈ result, item ∈ manager.registeredFor name := by
  unfold RoleManager.allowlistForRole at hok
  rw [activeStig_of_ne_zero hstig] at hok
  simp only [isNone_some, Bool.false_eq_true, and_false, if_false] at hok
  obtain ⟨result, hresult, hallowlist⟩ := bind_eq_ok_iff.mp hok
  simp only [Except.ok.injEq] at hallowlist
  subst allowlist
  refine ⟨result, hresult, ?_⟩
  simp [RoleManager.registeredForAll]

end

/-! ## A list of privileges -/

/-- Nothing in the composition goes beyond what the guide permits. -/
structure ComposedPrivilege.RespectsStig
    (compose : ComposedPrivilege) (manager : RoleManager) (stig : STIGType) :
    Prop where
  roles : ∀ name ∈ compose.roles, StigPermits manager.roles stig name
  allowlist : ∀ item ∈ compose.allowlist, ∃ name,
    StigPermits manager.roles stig name ∧ item ∈ manager.registeredFor name

section

variable {manager : RoleManager} {stig : STIGType} (hstig : stig ≠ 0)
  {limit : ℕ}

include hstig

variable {compose : ComposedPrivilege}

theorem composeRoles_respects_iff {result : ComposedPrivilege} {names : List String}
    (hok : manager.composeRoles (some stig) limit compose names = .ok result) :
    result.RespectsStig manager stig ↔ compose.RespectsStig manager stig ∧
        ∀ name ∈ names, StartPermitted manager.roles stig name := by
  induction names generalizing compose with
  | nil =>
    simp only [RoleManager.composeRoles, Except.ok.injEq] at hok
    subst result
    simp
  | cons name rest ih =>
    obtain ⟨roles, hroles, hnext⟩ := bind_eq_ok_iff.mp hok
    obtain ⟨allowlist, hallowlist, hrest⟩ := bind_eq_ok_iff.mp hnext
    have hexpansion := rolesForRole_permits_iff hstig hroles
    obtain ⟨roles', hroles', hitems⟩ := mem_allowlistForRole hstig hallowlist
    rw [hroles, Except.ok.injEq] at hroles'
    subst roles'
    rw [ih hrest, forall_mem_cons, ← and_assoc]
    apply and_congr_left
    intro _
    constructor
    · intro hboth
      refine ⟨⟨?_, ?_⟩, ?_⟩
      · intro other hother
        exact hboth.roles other (Finset.mem_union_left _ hother)
      · intro item hitem
        exact hboth.allowlist item (mem_append_left _ hitem)
      · rw [← hexpansion]
        intro other hother
        exact hboth.roles other (Finset.mem_union_right _ hother)
    · intro hboth
      have hpermits := hexpansion.mpr hboth.2
      constructor
      · intro other hother
        rcases Finset.mem_union.mp hother with hold | hnew
        · exact hboth.1.roles other hold
        · exact hpermits other hnew
      · intro item hitem
        rcases mem_append.mp hitem with hold | hnew
        · exact hboth.1.allowlist item hold
        · obtain ⟨other, hother, hregistered⟩ := hitems item hnew
          exact ⟨other, hpermits other hother, hregistered⟩

omit hstig in
theorem respectsStig_congr {compose' : ComposedPrivilege} (hroles : compose.roles = compose'.roles)
    (hallowlist : compose.allowlist = compose'.allowlist) :
    compose.RespectsStig manager stig ↔ compose'.RespectsStig manager stig := by
  constructor
  · intro hgood
    exact ⟨hroles ▸ hgood.roles, hallowlist ▸ hgood.allowlist⟩
  · intro hgood
    exact ⟨hroles ▸ hgood.roles, hallowlist ▸ hgood.allowlist⟩

theorem composePrivileges_respects_iff {result : ComposedPrivilege} {privileges : List Privilege}
    (hok : manager.composePrivileges (some stig) limit compose privileges =
      .ok result) : result.RespectsStig manager stig ↔
    compose.RespectsStig manager stig ∧ ∀ privilege ∈ privileges, ∀ name ∈ privilege.roles,
        StartPermitted manager.roles stig name := by
  induction privileges generalizing compose with
  | nil =>
    simp only [RoleManager.composePrivileges, Except.ok.injEq] at hok
    subst result
    simp
  | cons privilege rest ih =>
    obtain ⟨middle, hmiddle, hnext⟩ := bind_eq_ok_iff.mp hok
    obtain ⟨webuiAccess, _, hrest⟩ := bind_eq_ok_iff.mp hnext
    rw [ih hrest, forall_mem_cons, ← and_assoc, ← composeRoles_respects_iff hstig hmiddle]
    apply and_congr_left
    intro _
    exact respectsStig_congr rfl rfl

end

theorem empty_respectsStig (manager : RoleManager) (stig : STIGType) :
    ({ } : ComposedPrivilege).RespectsStig manager stig := by
  constructor <;> simp

/-- With a guide enabled, a composition respects the guide if and only if
every role that a privilege lists is unknown, full administrator, or itself
permitted. -/
theorem composePrivilege_respectsStig_iff
    (manager : RoleManager) (stig : STIGType) (hstig : stig ≠ 0)
    (limit : ℕ) (privileges : List Privilege) (compose : ComposedPrivilege)
    (hok : manager.composePrivilege (some stig) limit privileges = .ok compose) :
    compose.RespectsStig manager stig ↔ ∀ privilege ∈ privileges, ∀ name ∈ privilege.roles,
        StartPermitted manager.roles stig name := by
  obtain ⟨middle, hmiddle, hlast⟩ := bind_eq_ok_iff.mp hok
  rw [activeStig_of_ne_zero hstig] at hlast
  simp only [isSome_some, if_true, Except.ok.injEq] at hlast
  have hsame : compose.RespectsStig manager stig ↔ middle.RespectsStig manager stig := by
    subst compose
    exact respectsStig_congr rfl rfl
  rw [hsame, composePrivileges_respects_iff hstig hmiddle]
  simp [empty_respectsStig]

def virtualizationPrivilege : Privilege where
  id := 4
  builtinName := none
  name := "Virtualization Administrators"
  localGroups := [3000]
  dsGroups := []
  roles := ["VIRT_GLOBAL_WRITE"]
  webShell := false

theorem virtGlobalWrite_get? : shippedRoles.get? "VIRT_GLOBAL_WRITE" =
    some { includes := ["VIRT_GLOBAL_READ"], stig := none } := by
  rw [shippedRoles_get?_of_ne (by decide)]
  rfl

theorem virtGlobalRead_get? : shippedRoles.get? "VIRT_GLOBAL_READ" = some { } := by
  rw [shippedRoles_get?_of_ne (by decide)]
  rfl

theorem virtGlobalRead_expansion :
    rolesForRole shippedRoles (some STIGType.gpos) 1 "VIRT_GLOBAL_READ" =
      .ok {"VIRT_GLOBAL_READ"} := by
  rw [rolesForRole, virtGlobalRead_get?]
  simp [activeStig, STIGType.gpos, unionOver]

theorem virtGlobalWrite_expansion :
    rolesForRole shippedRoles (some STIGType.gpos) 2 "VIRT_GLOBAL_WRITE" =
      .ok ({"VIRT_GLOBAL_WRITE"} ∪ {"VIRT_GLOBAL_READ"}) := by
  have hcheck : roleStigCheck shippedRoles "VIRT_GLOBAL_READ" STIGType.gpos = .ok true := by
    rw [roleStigCheck, virtGlobalRead_get?]
    rfl
  rw [rolesForRole, virtGlobalWrite_get?]
  simp [activeStig_of_ne_zero (show STIGType.gpos ≠ 0 by decide), unionOver,
    hcheck, virtGlobalRead_expansion]

theorem virtualizationPrivilege_composes : ∃ compose,
    (RoleManager.init shippedRoles).composePrivilege (some STIGType.gpos) 2
        [virtualizationPrivilege] = .ok compose ∧
      "VIRT_GLOBAL_WRITE" ∈ compose.roles := by
  simp [RoleManager.composePrivilege, RoleManager.composePrivileges,
    RoleManager.composeRoles, virtualizationPrivilege,
    RoleManager.allowlistForRole, RoleManager.init,
    privilegeHasWebuiAccess, virtGlobalWrite_expansion, virtGlobalWrite_get?,
    activeStig_of_ne_zero (show STIGType.gpos ≠ 0 by decide)]

/-- The role that the privilege starts from is never checked. -/
theorem composePrivilege_grants_forbidden_role : ¬ ∀ compose,
    (RoleManager.init shippedRoles).composePrivilege (some STIGType.gpos) 2
        [virtualizationPrivilege] = .ok compose →
      compose.RespectsStig (RoleManager.init shippedRoles) STIGType.gpos := by
  intro hall
  rcases virtualizationPrivilege_composes with ⟨compose, hok, hmem⟩
  have hpermits := (hall compose hok).roles "VIRT_GLOBAL_WRITE" hmem
  rw [RoleManager.init_roles] at hpermits
  obtain ⟨entry, hentry, hallowed⟩ := stigPermits_iff.mp hpermits
  rw [virtGlobalWrite_get?, some.injEq] at hentry
  subst entry
  exact absurd hallowed (by decide)

def virtualizationReader : Privilege :=
  { virtualizationPrivilege with roles := ["VIRT_GLOBAL_READ"] }

theorem composePrivilege_respectsStig_reader : ∃ compose,
    (RoleManager.init shippedRoles).composePrivilege (some STIGType.gpos) 1
        [virtualizationReader] = .ok compose ∧
      compose.RespectsStig (RoleManager.init shippedRoles) STIGType.gpos := by
  obtain ⟨compose, hok⟩ : ∃ compose, (RoleManager.init shippedRoles).composePrivilege
      (some STIGType.gpos) 1 [virtualizationReader] = .ok compose := by
    simp [RoleManager.composePrivilege, RoleManager.composePrivileges, RoleManager.composeRoles,
      virtualizationReader, RoleManager.allowlistForRole, RoleManager.init,
      privilegeHasWebuiAccess, virtGlobalRead_expansion, virtGlobalRead_get?,
      activeStig_of_ne_zero (show STIGType.gpos ≠ 0 by decide)]
  refine ⟨compose, hok, (composePrivilege_respectsStig_iff _ STIGType.gpos (by decide) 1
    [virtualizationReader] compose hok).mpr ?_⟩
  intro privilege hprivilege name hname entry hentry
  rw [mem_singleton.mp hprivilege, virtualizationReader, mem_singleton] at hname
  rw [hname, RoleManager.init_roles, virtGlobalRead_get?] at hentry
  rw [← some.inj hentry]
  decide

end Middlewared
