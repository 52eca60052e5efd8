import Middlewared.RoleExpansion

/-!
# The two views of an authorization agree

`allowlistForRole` goes down from a role to the methods registered for the roles it includes.
-/

namespace Middlewared

open Relation FiniteReachability Dict List Option

/-! ## Registration writes both tables -/

/-- The allowlists and the registered resources tell the same story. -/
structure ResourceManager.Consistent (manager : ResourceManager) : Prop where
  allowlist_iff : ∀ role entry, entry ∈ manager.allowlistFor role ↔
      entry.method = manager.resourceMethod ∧ ∃ registered,
          manager.resources.get? entry.resource = some registered ∧ role ∈ registered
  known : ∀ name registered, manager.resources.get? name = some registered →
      ∀ role ∈ registered, role ∈ manager.roles

theorem ResourceManager.init_consistent (title method : String) (roles : RoleTable) :
    (ResourceManager.init title method roles).Consistent := by
  constructor
  · intro role entry
    simp [ResourceManager.init, ResourceManager.allowlistFor]
  · intro name registered hget
    simp [ResourceManager.init] at hget

variable {manager : ResourceManager} {resourceName : String}
  {roles : List String}

theorem ResourceManager.checkRoles_known (hcheck : manager.checkRoles resourceName roles = .ok ()) :
    ∀ role ∈ roles, role ∈ manager.roles := by
  induction roles with
  | nil => simp
  | cons role rest ih =>
    rw [ResourceManager.checkRoles] at hcheck
    by_cases hknown : role ∉ manager.roles
    · simp [hknown] at hcheck
    · rw [if_neg hknown] at hcheck
      split_ifs at hcheck
      intro other hother
      rcases List.mem_cons.mp hother with rfl | hother
      · exact not_not.mp hknown
      · exact ih hcheck other hother

theorem appendToAllowlists_mem (entry : AllowlistEntry) (lists : Dict String (List AllowlistEntry))
    (roles : List String) (role : String) (other : AllowlistEntry) :
    other ∈ ((ResourceManager.appendToAllowlists entry lists roles).get? role).getD [] ↔
      other ∈ (lists.get? role).getD [] ∨ (role ∈ roles ∧ other = entry) := by
  unfold ResourceManager.appendToAllowlists
  induction roles generalizing lists with
  | nil => simp
  | cons first rest ih =>
    rw [foldl_cons, ih, get?_set, mem_cons]
    by_cases hrole : role = first
    · subst hrole
      simp only [if_true, getD_some, mem_append, mem_singleton, true_or, true_and]
      tauto
    · simp [hrole]

variable {next : ResourceManager}

theorem ResourceManager.addRolesToResource_cases
    (hadd : manager.addRolesToResource resourceName roles = .ok next) :
    ∃ registered, manager.resources.get? resourceName = some registered ∧
      (∀ role ∈ roles, role ∈ manager.roles) ∧
      next = { manager with
        resources := manager.resources.set resourceName (registered ++ roles)
        allowlistsForRoles := ResourceManager.appendToAllowlists
          { method := manager.resourceMethod, resource := resourceName }
          manager.allowlistsForRoles roles } := by
  unfold ResourceManager.addRolesToResource at hadd
  cases hregistered : manager.resources.get? resourceName with
  | none => simp [hregistered] at hadd
  | some registered =>
    rw [hregistered] at hadd
    obtain ⟨_, hcheck, hnext⟩ := bind_eq_ok_iff.mp hadd
    simp only [Except.ok.injEq] at hnext
    exact ⟨registered, rfl, ResourceManager.checkRoles_known hcheck, hnext.symm⟩

theorem ResourceManager.Consistent.addRolesToResource (hgood : manager.Consistent)
    (hadd : manager.addRolesToResource resourceName roles = .ok next) :
    next.Consistent := by
  obtain ⟨registered, hregistered, hknown, hnext⟩ := ResourceManager.addRolesToResource_cases hadd
  subst next
  constructor
  · intro role entry
    have hold := hgood.allowlist_iff role entry
    simp only [ResourceManager.allowlistFor] at hold ⊢
    rw [appendToAllowlists_mem, hold, get?_set]
    by_cases hname : entry.resource = resourceName
    · have hentry : entry = ⟨manager.resourceMethod, resourceName⟩ ↔
          entry.method = manager.resourceMethod := by
        rw [AllowlistEntry.mk.injEq]
        simp [hname]
      rw [hname, hregistered, hentry]
      simp only [some.injEq, exists_eq_left', if_true, mem_append]
      tauto
    · have hentry : entry ≠ ⟨manager.resourceMethod, resourceName⟩ := by
        intro heq
        exact hname (by rw [heq])
      simp [hname, hentry]
  · intro name names hget role hrole
    simp only [get?_set] at hget
    by_cases hname : name = resourceName
    · rw [if_pos hname, some.injEq] at hget
      subst names
      rcases List.mem_append.mp hrole with hold | hnew
      · exact hgood.known resourceName registered hregistered role hold
      · exact hknown role hnew
    · rw [if_neg hname] at hget
      exact hgood.known name names hget role hrole

theorem ResourceManager.Consistent.setEmpty (hgood : manager.Consistent)
    (hnew : resourceName ∉ manager.resources) : ({ manager with
    resources := manager.resources.set resourceName [] } : ResourceManager).Consistent := by
  constructor
  · intro role entry
    have hold := hgood.allowlist_iff role entry
    simp only [ResourceManager.allowlistFor] at hold ⊢
    rw [hold, get?_set]
    by_cases hname : entry.resource = resourceName
    · simp [hname, Dict.get?_eq_none_iff.mpr hnew]
    · simp [hname]
  · intro name names hget role hrole
    simp only [get?_set] at hget
    by_cases hname : name = resourceName
    · rw [if_pos hname, some.injEq] at hget
      subst names
      simp at hrole
    · rw [if_neg hname] at hget
      exact hgood.known name names hget role hrole

theorem ResourceManager.Consistent.registerResource (hgood : manager.Consistent) {existOk : Bool}
    (hregister : manager.registerResource resourceName roles existOk = .ok next) :
    next.Consistent := by
  unfold ResourceManager.registerResource at hregister
  split_ifs at hregister with hmem hexist
  · exact hgood.addRolesToResource hregister
  · exact (hgood.setEmpty hmem).addRolesToResource hregister

theorem ResourceManager.addRolesToResource_header
    (hadd : manager.addRolesToResource resourceName roles = .ok next) :
    next.roles = manager.roles ∧ next.resourceMethod = manager.resourceMethod := by
  obtain ⟨_, _, _, hnext⟩ := ResourceManager.addRolesToResource_cases hadd
  subst next
  exact ⟨rfl, rfl⟩

theorem ResourceManager.registerResource_header {existOk : Bool}
    (hregister : manager.registerResource resourceName roles existOk = .ok next) :
    next.roles = manager.roles ∧ next.resourceMethod = manager.resourceMethod := by
  unfold ResourceManager.registerResource at hregister
  split_ifs at hregister
  · exact ResourceManager.addRolesToResource_header hregister
  · have hheader := ResourceManager.addRolesToResource_header hregister
    exact hheader

inductive RoleCall where
  | registerMethod (name : String) (roles : List String) (existOk : Bool)
  | addRolesToMethod (name : String) (roles : List String)
  | registerEvent (name : String) (roles : List String) (existOk : Bool)

def RoleManager.apply (manager : RoleManager) :
    RoleCall → Except RoleError RoleManager
  | .registerMethod name roles existOk =>
    manager.registerMethod name roles existOk
  | .addRolesToMethod name roles => manager.addRolesToMethod name roles
  | .registerEvent name roles existOk =>
    manager.registerEvent name roles existOk

def RoleManager.applyAll (manager : RoleManager) :
    List RoleCall → Except RoleError RoleManager
  | [] => .ok manager
  | call :: rest => do
    let next ← manager.apply call
    next.applyAll rest

/-- The invariant of a role manager over the table it was built from. -/
structure RoleManager.Registered (manager : RoleManager) (roles : RoleTable) :
    Prop where
  table : manager.roles = roles
  methodsTable : manager.methods.roles = roles
  methodsMethod : manager.methods.resourceMethod = "CALL"
  eventsMethod : manager.events.resourceMethod = "SUBSCRIBE"
  methods : manager.methods.Consistent
  events : manager.events.Consistent

theorem RoleManager.init_registered (roles : RoleTable) :
    (RoleManager.init roles).Registered roles where
  table := rfl
  methodsTable := rfl
  methodsMethod := rfl
  eventsMethod := rfl
  methods := ResourceManager.init_consistent _ _ _
  events := ResourceManager.init_consistent _ _ _

theorem RoleManager.Registered.withMethods {manager : RoleManager} {roles : RoleTable}
    (hgood : manager.Registered roles) {methods : ResourceManager}
    (hconsistent : methods.Consistent)
    (hheader : methods.roles = manager.methods.roles ∧
      methods.resourceMethod = manager.methods.resourceMethod) :
    ({ manager with methods } : RoleManager).Registered roles := { hgood with
  methodsTable := hheader.1.trans hgood.methodsTable
  methodsMethod := hheader.2.trans hgood.methodsMethod
  methods := hconsistent }

theorem RoleManager.Registered.apply {manager next : RoleManager} {roles : RoleTable}
    (hgood : manager.Registered roles) {call : RoleCall}
    (happly : manager.apply call = .ok next) :
    next.Registered roles := by
  cases call with
  | registerMethod name names existOk =>
    obtain ⟨methods, hmethods, hnext⟩ := bind_eq_ok_iff.mp happly
    simp only [Except.ok.injEq] at hnext
    subst next
    exact hgood.withMethods (hgood.methods.registerResource hmethods)
      (ResourceManager.registerResource_header hmethods)
  | addRolesToMethod name names =>
    obtain ⟨methods, hmethods, hnext⟩ := bind_eq_ok_iff.mp happly
    simp only [Except.ok.injEq] at hnext
    subst next
    exact hgood.withMethods (hgood.methods.addRolesToResource hmethods)
      (ResourceManager.addRolesToResource_header hmethods)
  | registerEvent name names existOk =>
    obtain ⟨events, hevents, hnext⟩ := bind_eq_ok_iff.mp happly
    simp only [Except.ok.injEq] at hnext
    subst next
    have hheader := ResourceManager.registerResource_header hevents
    exact {
      table := hgood.table
      methodsTable := hgood.methodsTable
      methodsMethod := hgood.methodsMethod
      eventsMethod := hheader.2.trans hgood.eventsMethod
      methods := hgood.methods
      events := hgood.events.registerResource hevents }

theorem RoleManager.Registered.applyAll {manager next : RoleManager} {roles : RoleTable}
    (hgood : manager.Registered roles) {calls : List RoleCall}
    (happly : manager.applyAll calls = .ok next) :
    next.Registered roles := by
  induction calls generalizing manager with
  | nil =>
    simp only [RoleManager.applyAll, Except.ok.injEq] at happly
    subst next
    exact hgood
  | cons call rest ih =>
    obtain ⟨middle, hcall, hrest⟩ := bind_eq_ok_iff.mp happly
    exact ih (hgood.apply hcall) hrest

/-! ## The upward saturation -/

namespace ResourceManager

def Joins (names : Finset String) (entry : String × Role) : Prop :=
  entry.1 ∉ names ∧ ∃ child ∈ entry.2.includes, child ∈ names

variable {state : Finset String × Bool}

theorem saturateStep_of_joins {entry : String × Role} (hjoins : Joins state.1 entry) :
    saturateStep state entry = (insert entry.1 state.1, true) :=
  if_pos hjoins

theorem saturateStep_of_not_joins {entry : String × Role}
    (hjoins : ¬ Joins state.1 entry) : saturateStep state entry = state :=
  if_neg hjoins

theorem saturateStep_subset (state : Finset String × Bool) (entry : String × Role) :
    state.1 ⊆ (saturateStep state entry).1 := by
  by_cases hjoins : Joins state.1 entry
  · rw [saturateStep_of_joins hjoins]
    exact Finset.subset_insert _ _
  · rw [saturateStep_of_not_joins hjoins]

theorem foldl_saturateStep_subset (entries : List (String × Role)) (state : Finset String × Bool) :
    state.1 ⊆ (entries.foldl saturateStep state).1 := by
  induction entries generalizing state with
  | nil => exact Finset.Subset.refl _
  | cons entry rest ih =>
    exact (saturateStep_subset state entry).trans (ih _)

theorem foldl_saturateStep_changed (entries : List (String × Role)) (hchanged : state.2 = true) :
    (entries.foldl saturateStep state).2 = true := by
  induction entries generalizing state with
  | nil => exact hchanged
  | cons entry rest ih =>
    apply ih
    by_cases hjoins : Joins state.1 entry
    · rw [saturateStep_of_joins hjoins]
    · rw [saturateStep_of_not_joins hjoins]
      exact hchanged

theorem foldl_saturateStep_unchanged (entries : List (String × Role)) (state : Finset String × Bool)
    (hchanged : (entries.foldl saturateStep state).2 = false) :
    entries.foldl saturateStep state = state ∧ ∀ entry ∈ entries, ∀ child ∈ entry.2.includes,
        child ∈ state.1 → entry.1 ∈ state.1 := by
  induction entries generalizing state with
  | nil => simp
  | cons entry rest ih =>
    rw [foldl_cons] at hchanged ⊢
    have hnot : ¬ Joins state.1 entry := by
      intro hjoins
      rw [saturateStep_of_joins hjoins, foldl_saturateStep_changed rest rfl] at hchanged
      simp at hchanged
    rw [saturateStep_of_not_joins hnot] at hchanged ⊢
    obtain ⟨hrest, hclosed⟩ := ih state hchanged
    refine ⟨hrest, ?_⟩
    intro other hother child hchild hmem
    rcases List.mem_cons.mp hother with rfl | hother
    · by_contra hmissing
      exact hnot ⟨hmissing, child, hchild, hmem⟩
    · exact hclosed other hother child hchild hmem

theorem foldl_saturateStep_grows (entries : List (String × Role)) (names : Finset String)
    (hchanged : (entries.foldl saturateStep (names, false)).2 = true) :
    ∃ name ∈ entries.map Prod.fst, name ∉ names ∧
      name ∈ (entries.foldl saturateStep (names, false)).1 := by
  induction entries with
  | nil => simp at hchanged
  | cons entry rest ih =>
    rw [foldl_cons] at hchanged ⊢
    by_cases hjoins : Joins names entry
    · refine ⟨entry.1, by simp, hjoins.1, ?_⟩
      apply foldl_saturateStep_subset
      rw [saturateStep_of_joins hjoins]
      exact Finset.mem_insert_self _ _
    · rw [saturateStep_of_not_joins hjoins] at hchanged ⊢
      obtain ⟨name, hname, hnew, hadded⟩ := ih hchanged
      exact ⟨name, mem_cons_of_mem entry.1 hname, hnew, hadded⟩

theorem foldl_saturateStep_invariant {p : String → Prop} (entries : List (String × Role))
    (state : Finset String × Bool)
    (hstart : ∀ name ∈ state.1, p name)
    (hinherit : ∀ entry ∈ entries, ∀ child ∈ entry.2.includes, p child → p entry.1) :
    ∀ name ∈ (entries.foldl saturateStep state).1, p name := by
  induction entries generalizing state with
  | nil => exact hstart
  | cons entry rest ih =>
    apply ih
    · intro name hname
      by_cases hjoins : Joins state.1 entry
      · rw [saturateStep_of_joins hjoins] at hname
        rcases Finset.mem_insert.mp hname with rfl | hold
        · rcases hjoins with ⟨_, child, hchild, hmem⟩
          exact hinherit entry mem_cons_self child hchild (hstart child hmem)
        · exact hstart name hold
      · rw [saturateStep_of_not_joins hjoins] at hname
        exact hstart name hname
    · intro other hother
      exact hinherit other (mem_cons_of_mem entry hother)

def missing (roles : RoleTable) (names : Finset String) : ℕ :=
  (roles.keys.toFinset \ names).card

theorem missing_saturatePass_lt {roles : RoleTable} {names : Finset String}
    (hchanged : (saturatePass roles names).2 = true) :
    missing roles (saturatePass roles names).1 < missing roles names := by
  obtain ⟨name, hname, hnew, hadded⟩ := foldl_saturateStep_grows roles.entries names hchanged
  apply Finset.card_lt_card
  rw [Finset.ssubset_iff_of_subset]
  · refine ⟨name, ?_, ?_⟩
    · exact Finset.mem_sdiff.mpr ⟨List.mem_toFinset.mpr hname, hnew⟩
    · intro hmem
      exact (Finset.mem_sdiff.mp hmem).2 hadded
  · exact Finset.sdiff_subset_sdiff (Finset.Subset.refl _)
      (foldl_saturateStep_subset roles.entries (names, false))

theorem saturate_returns (roles : RoleTable) (fuel : ℕ) (names : Finset String)
    (hfuel : missing roles names < fuel) :
    ∃ result, saturate roles fuel names = some result := by
  induction fuel generalizing names with
  | zero => omega
  | succ fuel ih =>
    rw [saturate]
    by_cases hchanged : (saturatePass roles names).2 = true
    · have hless := missing_saturatePass_lt hchanged
      simp only [hchanged, if_true]
      exact ih _ (by omega)
    · simp [hchanged]

theorem saturate_spec {roles : RoleTable} {fuel : ℕ} {names result : Finset String}
    (hsaturate : saturate roles fuel names = some result) :
    names ⊆ result ∧ (∀ entry ∈ roles.entries, ∀ child ∈ entry.2.includes,
        child ∈ result → entry.1 ∈ result) ∧
      ∀ p : String → Prop, (∀ name ∈ names, p name) →
        (∀ entry ∈ roles.entries, ∀ child ∈ entry.2.includes, p child → p entry.1) →
        ∀ name ∈ result, p name := by
  induction fuel generalizing names with
  | zero => simp [saturate] at hsaturate
  | succ fuel ih =>
    rw [saturate] at hsaturate
    by_cases hchanged : (saturatePass roles names).2 = true
    · simp only [hchanged, if_true] at hsaturate
      obtain ⟨hsubset, hclosed, hleast⟩ := ih hsaturate
      refine ⟨?_, hclosed, ?_⟩
      · exact (foldl_saturateStep_subset roles.entries (names, false)).trans hsubset
      · intro p hstart hinherit
        exact hleast p (foldl_saturateStep_invariant roles.entries (names, false)
            hstart hinherit) hinherit
    -- the last pass: it adds nothing, so the roles are closed already
    · have hfalse : (saturatePass roles names).2 = false := by
        simpa using hchanged
      simp only [hfalse] at hsaturate
      obtain ⟨hsame, hclosed⟩ := foldl_saturateStep_unchanged roles.entries (names, false) hfalse
      have hresult : names = result := by
        have hpass : (saturatePass roles names).1 = names := by
          unfold saturatePass
          rw [hsame]
        simpa [hpass] using hsaturate
      subst result
      exact ⟨Finset.Subset.refl _, hclosed, fun p hstart _ => hstart⟩

end ResourceManager

theorem mem_saturate_iff_reaches {roles : RoleTable} {fuel : ℕ} {names result : Finset String}
    (hnames : ∀ name ∈ names, name ∈ roles)
    (hsaturate : ResourceManager.saturate roles fuel names = some result)
    (role : String) :
    role ∈ result ↔ ∃ name ∈ names, Reaches roles role name := by
  obtain ⟨hsubset, hclosed, hleast⟩ := ResourceManager.saturate_spec hsaturate
  constructor
  · have hsound : ∀ role ∈ result, role ∈ roles ∧ ∃ name ∈ names, Reaches roles role name := by
      apply hleast
      · intro name hname
        exact ⟨hnames name hname, name, hname, ReflTransGen.refl⟩
      · rintro ⟨parent, entry⟩ hentry child hchild ⟨hknown, name, hname, hreach⟩
        have hget := Dict.mem_entries_iff.mp hentry
        have hstep : Includes roles parent child := ⟨entry, hget, hchild, hknown⟩
        exact ⟨mem_of_get?_eq_some hget, name, hname, ReflTransGen.head hstep hreach⟩
    intro hrole
    exact (hsound role hrole).2
  · rintro ⟨name, hname, hreach⟩
    induction hreach using ReflTransGen.head_induction_on with
    | refl => exact hsubset hname
    | head hstep _ ih =>
      rcases hstep with ⟨entry, hget, hchild, _⟩
      exact hclosed _ (Dict.mem_entries_iff.mpr hget) _ hchild ih

theorem rolesForResource_spec (hgood : manager.Consistent) {registered : List String}
    (hregistered : manager.resources.get? resourceName = some registered) :
    ∃ names, manager.rolesForResource resourceName = some names ∧ ∀ role, role ∈ names ↔
        ∃ name ∈ registered, Reaches manager.roles role name := by
  have hfuel : ResourceManager.missing manager.roles registered.toFinset <
      manager.roles.size + 1 := by
    have hcard : (manager.roles.keys.toFinset \ registered.toFinset).card ≤
          manager.roles.keys.length :=
      (Finset.card_le_card Finset.sdiff_subset).trans (toFinset_card_le _)
    have hlength : manager.roles.keys.length = manager.roles.size := by
      simp [Dict.keys, Dict.size]
    unfold ResourceManager.missing
    omega
  obtain ⟨result, hresult⟩ := ResourceManager.saturate_returns
    manager.roles _ registered.toFinset hfuel
  refine ⟨result.sort (· ≤ ·), ?_, ?_⟩
  · simp [ResourceManager.rolesForResource, hregistered, hresult]
  · intro role
    have hknown : ∀ name ∈ registered.toFinset, name ∈ manager.roles := by
      intro name hname
      exact hgood.known resourceName registered hregistered name (List.mem_toFinset.mp hname)
    rw [Finset.mem_sort, mem_saturate_iff_reaches hknown hresult]
    simp

/-! ## Agreement -/

def RoleTable.Acyclic (roles : RoleTable) : Prop :=
  ∀ role, ¬ TransGen (Includes roles) role role

theorem RoleTable.Acyclic.not_cycleReachable
    {roles : RoleTable} (hacyclic : roles.Acyclic) (role : String) :
    ¬ CycleReachable (Includes roles) role := by
  rintro ⟨name, _, hloop⟩
  exact hacyclic name hloop

theorem RoleManager.Registered.mem_registeredForAll_call_iff
    {manager : RoleManager} {roles : RoleTable}
    (hgood : manager.Registered roles) {methodName : String}
    {registered : List String}
    (hregistered : manager.methods.resources.get? methodName = some registered)
    (names : Finset String) :
    (⟨"CALL", methodName⟩ : AllowlistEntry) ∈ manager.registeredForAll names ↔
      ∃ name ∈ registered, name ∈ names := by
  simp only [RoleManager.registeredForAll, RoleManager.registeredFor,
    mem_flatMap, Finset.mem_sort, mem_append,
    hgood.methods.allowlist_iff, hgood.events.allowlist_iff,
    hgood.methodsMethod, hgood.eventsMethod, hregistered, some.injEq,
    exists_eq_left', true_and]
  constructor
  · rintro ⟨role, hrole, hmethod | ⟨hcall, _⟩⟩
    · exact ⟨role, hmethod, hrole⟩
    · exact absurd hcall (by decide)
  · rintro ⟨role, hmethod, hrole⟩
    exact ⟨role, hrole, Or.inl hmethod⟩

/-- On an acyclic table, after any sequence of successful registrations, a
method is in the allowlist of a role that is not full administrator if and only
if the role is among the roles of the method. -/
theorem allowlistForRole_iff_rolesForMethod (roles : RoleTable) (hacyclic : roles.Acyclic)
    (calls : List RoleCall) (manager : RoleManager)
    (hcalls : (RoleManager.init roles).applyAll calls = .ok manager)
    (role : String) (hrole : manager.isFullAdmin role = false)
    (methodName : String) (hmethod : methodName ∈ manager.methods.resources) :
    ∃ names, manager.rolesForMethod methodName = some names ∧ ∃ allowlist limit,
        (∀ limit', limit ≤ limit' → manager.allowlistForRole none limit' role = .ok allowlist) ∧
        ((⟨"CALL", methodName⟩ : AllowlistEntry) ∈ allowlist ↔ role ∈ names) := by
  have hgood := (RoleManager.init_registered roles).applyAll hcalls
  obtain ⟨registered, hregistered⟩ := exists_get?_of_mem hmethod
  obtain ⟨names, hnames, hmemNames⟩ := rolesForResource_spec hgood.methods hregistered
  obtain ⟨limit, result, hok⟩ := rolesForRole_returns_iff.mpr (hacyclic.not_cycleReachable role)
  refine ⟨names, hnames, manager.registeredForAll result, limit, ?_, ?_⟩
  · intro limit' hle
    have hok' := rolesForRole_mono hle hok
    rw [← hgood.table] at hok'
    simp [RoleManager.allowlistForRole, hrole, hok']
  · rw [hgood.mem_registeredForAll_call_iff hregistered, hmemNames, hgood.methodsTable]
    have hknown := hgood.methods.known methodName registered hregistered
    rw [hgood.methodsTable] at hknown
    by_cases hmem : role ∈ roles
    · simp only [mem_rolesForRole_iff hmem hok]
    · have hempty : result = ∅ := by
        cases limit with
        | zero => simp [rolesForRole] at hok
        | succ limit =>
          rw [rolesForRole_of_not_mem hmem, Except.ok.injEq] at hok
          exact hok.symm
      subst result
      constructor
      · rintro ⟨name, _, habsurd⟩
        simp at habsurd
      · rintro ⟨name, hname, hreach⟩
        rcases reflTransGen_iff_eq_or_step.mp hreach with rfl | ⟨_, hstep, _⟩
        · exact absurd (hknown name hname) hmem
        · rcases hstep with ⟨entry, hget, _⟩
          exact absurd (mem_of_get?_eq_some hget) hmem

def accountRoles : RoleTable :=
  Dict.ofEntries [("ACCOUNT_READ", { }), ("ACCOUNT_WRITE", { includes := ["ACCOUNT_READ"] })]

theorem accountRoles_includes {a b : String} (hstep : Includes accountRoles a b) :
    a = "ACCOUNT_WRITE" ∧ b = "ACCOUNT_READ" := by
  rcases hstep with ⟨entry, hget, hchild, _⟩
  have hmem := Dict.mem_entries_iff.mpr hget
  have hentries : accountRoles.entries = [("ACCOUNT_READ", { }),
      ("ACCOUNT_WRITE", { includes := ["ACCOUNT_READ"] })] := rfl
  rw [hentries] at hmem
  simp only [mem_cons, Prod.mk.injEq, not_mem_nil, or_false] at hmem
  rcases hmem with ⟨rfl, rfl⟩ | ⟨rfl, rfl⟩
  · simp at hchild
  · simpa using hchild

theorem accountRoles_acyclic : accountRoles.Acyclic := by
  intro role hloop
  obtain ⟨name, hfirst, hback⟩ := TransGen.head'_iff.mp hloop
  obtain ⟨rfl, rfl⟩ := accountRoles_includes hfirst
  rcases reflTransGen_iff_eq_or_step.mp hback with heq | ⟨_, hstep, _⟩
  · exact absurd heq (by decide)
  · exact absurd (accountRoles_includes hstep).1 (by decide)

theorem allowlistForRole_agrees_accountWrite : ∃ manager, (RoleManager.init accountRoles).applyAll
        [.registerMethod "user.query" ["ACCOUNT_READ"] false] =
      .ok manager ∧
    manager.isFullAdmin "ACCOUNT_WRITE" = false ∧
    "user.query" ∈ manager.methods.resources ∧
    ∃ names, manager.rolesForMethod "user.query" = some names ∧ ∃ allowlist limit,
        (∀ limit', limit ≤ limit' → manager.allowlistForRole none limit' "ACCOUNT_WRITE" =
            .ok allowlist) ∧
        ((⟨"CALL", "user.query"⟩ : AllowlistEntry) ∈ allowlist ↔ "ACCOUNT_WRITE" ∈ names) := by
  refine ⟨_, rfl, rfl, by decide, ?_⟩
  exact allowlistForRole_iff_rolesForMethod accountRoles accountRoles_acyclic
    [.registerMethod "user.query" ["ACCOUNT_READ"] false] _ rfl
    "ACCOUNT_WRITE" rfl "user.query" (by decide)

end Middlewared
