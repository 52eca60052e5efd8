import Middlewared.RoleManager
import Middlewared.FiniteReachability
import Middlewared.ExceptRules

/-!
# Expansion of a role is reachability

Without a security guide, `rolesForRole` follows `includes` from the given role.
-/

namespace Middlewared

open Relation FiniteReachability List Dict

def Includes (roles : RoleTable) (a b : String) : Prop :=
  ∃ entry, roles.get? a = some entry ∧ b ∈ entry.includes ∧ b ∈ roles

def Reaches (roles : RoleTable) : String → String → Prop :=
  ReflTransGen (Includes roles)

theorem reaches_finite (roles : RoleTable) (role : String) :
    {name | ReflTransGen (Includes roles) role name}.Finite := by
  apply Set.Finite.subset (finite_toSet (role :: roles.keys))
  intro name hreach
  change name ∈ role :: roles.keys
  rw [mem_cons]
  rcases ReflTransGen.cases_tail hreach with heq | ⟨_, _, _, _, _, hmem⟩
  · exact Or.inl heq
  · exact Or.inr hmem

variable {result : Finset String}
  {call : String → Except RoleError (Finset String)} {names : List String}

theorem unionOver_mem (hunion : unionOver call names = .ok result) (role : String) : role ∈ result ↔
    ∃ name ∈ names, ∃ part, call name = .ok part ∧ role ∈ part := by
  induction names generalizing result with
  | nil =>
    simp only [unionOver, Except.ok.injEq] at hunion
    subst result
    simp
  | cons name rest ih =>
    obtain ⟨here, hhere, hrest⟩ := bind_eq_ok_iff.mp hunion
    obtain ⟨there, hthere, hresult⟩ := bind_eq_ok_iff.mp hrest
    simp only [Except.ok.injEq] at hresult
    subst result
    rw [Finset.mem_union, ih hthere]
    constructor
    · rintro (hmem | ⟨other, hother, part, hpart, hmem⟩)
      · exact ⟨name, mem_cons_self, here, hhere, hmem⟩
      · exact ⟨other, mem_cons_of_mem name hother, part, hpart, hmem⟩
    · rintro ⟨other, hother, part, hpart, hmem⟩
      rcases List.mem_cons.mp hother with rfl | hother
      · rw [hhere, Except.ok.injEq] at hpart
        subst part
        exact Or.inl hmem
      · exact Or.inr ⟨other, hother, part, hpart, hmem⟩

theorem unionOver_returns_iff : (∃ result, unionOver call names = .ok result) ↔
    ∀ name ∈ names, ∃ part, call name = .ok part := by
  induction names with
  | nil => simp [unionOver]
  | cons name rest ih =>
    rw [forall_mem_cons, ← ih]
    constructor
    · rintro ⟨result, hunion⟩
      obtain ⟨here, hhere, hrest⟩ := bind_eq_ok_iff.mp hunion
      obtain ⟨there, hthere, _⟩ := bind_eq_ok_iff.mp hrest
      exact ⟨⟨here, hhere⟩, ⟨there, hthere⟩⟩
    · rintro ⟨⟨here, hhere⟩, ⟨there, hthere⟩⟩
      refine ⟨here ∪ there, ?_⟩
      simp only [unionOver, hhere, hthere, ok_bind]

theorem unionOver_congr_ok {call' : String → Except RoleError (Finset String)}
    (hcall : ∀ name ∈ names, ∀ part, call name = .ok part → call' name = .ok part)
    (hunion : unionOver call names = .ok result) :
    unionOver call' names = .ok result := by
  induction names generalizing result with
  | nil => exact hunion
  | cons name rest ih =>
    obtain ⟨here, hhere, hrest⟩ := bind_eq_ok_iff.mp hunion
    obtain ⟨there, hthere, hresult⟩ := bind_eq_ok_iff.mp hrest
    have hhere' := hcall name mem_cons_self here hhere
    have hthere' := ih (fun other hother => hcall other (mem_cons_of_mem name hother)) hthere
    simp only [unionOver, hhere', hthere', ok_bind]
    exact hresult

variable {roles : RoleTable} {role : String}

theorem rolesForRole_of_not_mem (hrole : role ∉ roles) (enabledStig : Option STIGType) (limit : ℕ) :
    rolesForRole roles enabledStig (limit + 1) role = .ok ∅ := by
  rw [rolesForRole, get?_eq_none_iff.mpr hrole]

theorem rolesForRole_noStig_succ {entry : Role}
    (hentry : roles.get? role = some entry) (limit : ℕ) :
    rolesForRole roles none (limit + 1) role =
      (unionOver (rolesForRole roles none limit) entry.includes >>=
        fun included => .ok ({role} ∪ included)) := by
  rw [rolesForRole, hentry]
  rfl

variable {limit : ℕ}

theorem rolesForRole_succ_of_ok {enabledStig : Option STIGType}
    (hok : rolesForRole roles enabledStig limit role = .ok result) :
    rolesForRole roles enabledStig (limit + 1) role = .ok result := by
  induction limit generalizing role result with
  | zero => simp [rolesForRole] at hok
  | succ limit ih =>
    rw [rolesForRole] at hok ⊢
    cases hentry : roles.get? role with
    | none => simpa [hentry] using hok
    | some entry =>
      simp only [hentry] at hok ⊢
      cases hstig : activeStig enabledStig with
      | none =>
        simp only [hstig] at hok ⊢
        obtain ⟨included, hincluded, hresult⟩ := bind_eq_ok_iff.mp hok
        rw [unionOver_congr_ok (fun _ _ _ => ih) hincluded]
        exact hresult
      | some stig =>
        simp only [hstig] at hok ⊢
        by_cases hfull : entry.fullAdmin = true
        · simpa [hfull] using hok
        · simp only [if_neg hfull] at hok ⊢
          obtain ⟨included, hincluded, hresult⟩ := bind_eq_ok_iff.mp hok
          rw [unionOver_congr_ok (fun name _ part hpart => ?_) hincluded]
          · exact hresult
          · obtain ⟨allowed, hallowed, hbranch⟩ := bind_eq_ok_iff.mp hpart
            rw [hallowed, ok_bind]
            cases allowed with
            | false => exact hbranch
            | true => exact ih hbranch

theorem rolesForRole_mono {enabledStig : Option STIGType} {limit' : ℕ} (hle : limit ≤ limit')
    (hok : rolesForRole roles enabledStig limit role = .ok result) :
    rolesForRole roles enabledStig limit' role = .ok result := by
  induction hle with
  | refl => exact hok
  | step _ ih => exact rolesForRole_succ_of_ok ih

theorem mem_rolesForRole_iff (hrole : role ∈ roles)
    (hok : rolesForRole roles none limit role = .ok result) (name : String) :
    name ∈ result ↔ Reaches roles role name := by
  induction limit generalizing role result with
  | zero => simp [rolesForRole] at hok
  | succ limit ih =>
    obtain ⟨entry, hentry⟩ := exists_get?_of_mem hrole
    rw [rolesForRole_noStig_succ hentry] at hok
    obtain ⟨included, hincluded, hresult⟩ := bind_eq_ok_iff.mp hok
    simp only [Except.ok.injEq] at hresult
    subst result
    rw [Finset.mem_union, Finset.mem_singleton, unionOver_mem hincluded,
      Reaches, reflTransGen_iff_eq_or_step]
    apply or_congr Iff.rfl
    constructor
    · rintro ⟨child, hchild, part, hpart, hmem⟩
      by_cases hknown : child ∈ roles
      · exact ⟨child, ⟨entry, hentry, hchild, hknown⟩, (ih hknown hpart).mp hmem⟩
      · cases limit with
        | zero => simp [rolesForRole] at hpart
        | succ limit =>
          rw [rolesForRole_of_not_mem hknown, Except.ok.injEq] at hpart
          subst part
          simp at hmem
    · rintro ⟨child, ⟨entry', hentry', hchild, hknown⟩, hreach⟩
      rw [hentry, Option.some.injEq] at hentry'
      subst entry'
      obtain ⟨part, hpart⟩ := unionOver_returns_iff.mp ⟨included, hincluded⟩ child hchild
      exact ⟨child, hchild, part, hpart, (ih hknown hpart).mpr hreach⟩

/-- The expansion answers `result` for every large enough recursion limit. -/
def ExpandsTo (roles : RoleTable) (role : String) (result : Finset String) :
    Prop :=
  ∃ limit, ∀ limit', limit ≤ limit' → rolesForRole roles none limit' role = .ok result

theorem expandsTo_of_ok (hok : rolesForRole roles none limit role = .ok result) :
    ExpandsTo roles role result :=
  ⟨limit, fun _ hle => rolesForRole_mono hle hok⟩

theorem acc_of_rolesForRole_ok (hok : rolesForRole roles none limit role = .ok result) :
    Acc (fun a b => Includes roles b a) role := by
  induction limit generalizing role result with
  | zero => simp [rolesForRole] at hok
  | succ limit ih =>
    refine ⟨role, ?_⟩
    rintro child ⟨entry, hentry, hchild, _⟩
    rw [rolesForRole_noStig_succ hentry] at hok
    obtain ⟨included, hincluded, _⟩ := bind_eq_ok_iff.mp hok
    obtain ⟨part, hpart⟩ := unionOver_returns_iff.mp ⟨included, hincluded⟩ child hchild
    exact ih hpart

theorem rolesForRole_returns_of_acc (hacc : Acc (fun a b => Includes roles b a) role) :
    ∃ limit result, rolesForRole roles none limit role = .ok result := by
  induction hacc with
  | intro role _ ih =>
    cases hentry : roles.get? role with
    | none =>
      exact ⟨1, ∅, rolesForRole_of_not_mem (get?_eq_none_iff.mp hentry) none 0⟩
    | some entry =>
      have hchildren : ∀ child ∈ entry.includes, ∃ limit part,
          rolesForRole roles none limit child = .ok part := by
        intro child hchild
        by_cases hknown : child ∈ roles
        · exact ih child ⟨entry, hentry, hchild, hknown⟩
        · exact ⟨1, ∅, rolesForRole_of_not_mem hknown none 0⟩
      obtain ⟨limit, hlimit⟩ := exists_bound_of_forall_mem (fun _ _ _ hle ⟨part, hpart⟩ =>
          ⟨part, rolesForRole_mono hle hpart⟩)
        entry.includes hchildren
      obtain ⟨included, hincluded⟩ := unionOver_returns_iff.mpr hlimit
      refine ⟨limit + 1, {role} ∪ included, ?_⟩
      rw [rolesForRole_noStig_succ hentry, hincluded, ok_bind]

theorem rolesForRole_returns_iff :
    (∃ limit result, rolesForRole roles none limit role = .ok result) ↔
      ¬ CycleReachable (Includes roles) role := by
  rw [← acc_iff_not_cycleReachable (reaches_finite roles role)]
  constructor
  · rintro ⟨limit, result, hok⟩
    exact acc_of_rolesForRole_ok hok
  · exact rolesForRole_returns_of_acc

/-- For every table and every role of it, the expansion returns the roles
within reach if and only if no cycle is within reach. -/
theorem rolesForRole_reachability_iff_no_cycle
    (roles : RoleTable) (role : String) (hrole : role ∈ roles) :
    (∃ result, ExpandsTo roles role result ∧ ∀ name, name ∈ result ↔ Reaches roles role name) ↔
      ¬ CycleReachable (Includes roles) role := by
  rw [← rolesForRole_returns_iff]
  constructor
  · rintro ⟨result, ⟨limit, hlimit⟩, _⟩
    exact ⟨limit, result, hlimit limit le_rfl⟩
  · rintro ⟨limit, result, hok⟩
    exact ⟨result, expandsTo_of_ok hok, mem_rolesForRole_iff hrole hok⟩

theorem shippedRoles_alertWrite : shippedRoles.get? "ALERT_WRITE" =
    some { includes := ["ALERT_LIST_WRITE", "ALERT_READ"] } := by
  rw [shippedRoles_get?_of_ne (by decide)]
  rfl

theorem rolesForRole_alertWrite :
    ∃ result, rolesForRole shippedRoles none 3 "ALERT_WRITE" = .ok result := by
  have hlistRead : shippedRoles.get? "ALERT_LIST_READ" = some { } := by
    rw [shippedRoles_get?_of_ne (by decide)]
    rfl
  have hlistWrite : shippedRoles.get? "ALERT_LIST_WRITE" =
      some { includes := ["ALERT_LIST_READ"] } := by
    rw [shippedRoles_get?_of_ne (by decide)]
    rfl
  have hread : shippedRoles.get? "ALERT_READ" = some { includes := ["ALERT_LIST_READ"] } := by
    rw [shippedRoles_get?_of_ne (by decide)]
    rfl
  simp only [rolesForRole_noStig_succ shippedRoles_alertWrite, rolesForRole_noStig_succ hlistWrite,
    rolesForRole_noStig_succ hread, rolesForRole_noStig_succ hlistRead, unionOver, ok_bind,
    Except.ok.injEq, exists_eq']

theorem rolesForRole_reachability_alertWrite :
    ∃ result, ExpandsTo shippedRoles "ALERT_WRITE" result ∧
      ∀ name, name ∈ result ↔ Reaches shippedRoles "ALERT_WRITE" name := by
  have hmem := mem_of_get?_eq_some shippedRoles_alertWrite
  exact (rolesForRole_reachability_iff_no_cycle shippedRoles _ hmem).mpr
    (rolesForRole_returns_iff.mp ⟨3, rolesForRole_alertWrite⟩)

theorem privilegeWrite_cycleReachable :
    CycleReachable (Includes shippedRoles) "PRIVILEGE_WRITE" := by
  have hself : Includes shippedRoles "PRIVILEGE_WRITE" "PRIVILEGE_WRITE" :=
    ⟨_, shippedRoles_privilegeWrite, mem_singleton_self _,
      mem_of_get?_eq_some shippedRoles_privilegeWrite⟩
  exact ⟨"PRIVILEGE_WRITE", ReflTransGen.refl, TransGen.single hself⟩

/-- `PRIVILEGE_WRITE` includes itself. -/
theorem shippedRoles_expansion_not_total : ¬ ∀ role ∈ shippedRoles, ∃ result,
    ExpandsTo shippedRoles role result ∧
      ∀ name, name ∈ result ↔ Reaches shippedRoles role name := by
  intro htotal
  obtain ⟨result, ⟨limit, hlimit⟩, _⟩ := htotal "PRIVILEGE_WRITE"
    (mem_of_get?_eq_some shippedRoles_privilegeWrite)
  exact rolesForRole_returns_iff.mp ⟨limit, result, hlimit limit le_rfl⟩
    privilegeWrite_cycleReachable

end Middlewared
