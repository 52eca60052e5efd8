import Middlewared.Buckets

/-!
# NFSv4 access control lists

`canonicalize_nfs4_acl` deals the entries of an ACL into a dictionary of four buckets and joins
the buckets in the order in which the dictionary display names them.
-/

namespace Middlewared.Nfs4Acl

open List Option

inductive Nfs4AceType where
  | allow
  | deny

inductive Nfs4AceTag where
  | specialOwner
  | specialGroup
  | specialEveryone
  | user
  | group

inductive Nfs4AceFlag where
  | fileInherit
  | directoryInherit
  | noPropagateInherit
  | inheritOnly
  | inherited
deriving DecidableEq

inductive Nfs4AceFlagSimple where
  | inherit
  | noinherit

/-- The `flags` of an entry: `BASIC` with a simplified flag set, or the five
flags by name, some of which may be missing. -/
inductive Nfs4AceFlags where
  | simplified (basic : Nfs4AceFlagSimple)
  | advanced (flags : Dict Nfs4AceFlag Bool)

/-- `id` and `who` are `none` where the key is null or missing. -/
structure Nfs4Ace (Perms : Type*) where
  tag : Nfs4AceTag
  id : Option ℤ
  who : Option String
  type : Nfs4AceType
  perms : Perms
  flags : Nfs4AceFlags

variable {Perms : Type*}

def aceIsInheritedNfs4 (ace : Nfs4Ace Perms) : Bool :=
  match ace.flags with
  | .simplified _ => false
  | .advanced flags => (flags.get? .inherited).getD false

/-- The keys of `acl_groups`. -/
inductive AclGroup where
  | denyNoinherit
  | denyInherit
  | allowNoinherit
  | allowInherit
deriving DecidableEq

def aclGroup (ace : Nfs4Ace Perms) : AclGroup :=
  match ace.type, aceIsInheritedNfs4 ace with
  | .deny, false => .denyNoinherit
  | .deny, true => .denyInherit
  | .allow, false => .allowNoinherit
  | .allow, true => .allowInherit

def aclGroups : Dict AclGroup (List (Nfs4Ace Perms)) where
  entries := [(.denyNoinherit, []), (.denyInherit, []), (.allowNoinherit, []), (.allowInherit, [])]
  nodup := by simp

def canonicalizeNfs4Acl (theacl : List (Nfs4Ace Perms)) :
    Option (List (Nfs4Ace Perms)) :=
  (Buckets.deal aclGroup aclGroups theacl).map fun groups =>
    groups.entries.flatMap fun entry => entry.2

def bucketOrder : List AclGroup :=
  [.denyNoinherit, .denyInherit, .allowNoinherit, .allowInherit]

theorem mem_bucketOrder (group : AclGroup) : group ∈ bucketOrder := by
  cases group <;> decide

theorem nodup_bucketOrder : bucketOrder.Nodup := by decide

theorem canonicalizeNfs4Acl_eq (theacl : List (Nfs4Ace Perms)) : canonicalizeNfs4Acl theacl =
    some (Buckets.joined aclGroup bucketOrder theacl) := by
  have hempty : ∀ entry ∈ (@aclGroups Perms).entries, entry.2 = [] := by
    intro entry hentry
    simp only [aclGroups, mem_cons, not_mem_nil, or_false] at hentry
    rcases hentry with hentry | hentry | hentry | hentry
    all_goals rw [hentry]
  have hcover : ∀ ace ∈ theacl, aclGroup ace ∈ (@aclGroups Perms).keys :=
    fun ace _ => mem_bucketOrder (aclGroup ace)
  obtain ⟨groups, hdeal, hvalues⟩ := Buckets.deal_values hempty hcover
  unfold canonicalizeNfs4Acl
  rw [hdeal, map_some, hvalues]
  rfl

/-! ## The documented order -/

/-- The order that the docstring of `canonicalize_nfs4_acl` lists. -/
def documentedOrder : List AclGroup :=
  [.denyNoinherit, .allowNoinherit, .denyInherit, .allowInherit]

def NotAfter (group group' : AclGroup) : Prop :=
  documentedOrder.idxOf group ≤ documentedOrder.idxOf group'

instance (group group' : AclGroup) : Decidable (NotAfter group group') :=
  inferInstanceAs (Decidable (_ ≤ _))

theorem notAfter_refl (group : AclGroup) : NotAfter group group := le_rfl

/-- `out` has the entries of `theacl` in the documented order of their groups,
and the entries of one group in the order they had. -/
structure Canonical (theacl out : List (Nfs4Ace Perms)) : Prop where
  perm : out.Perm theacl
  ordered : out.Pairwise fun ace ace' => NotAfter (aclGroup ace) (aclGroup ace')
  stable : ∀ group, (out.filter fun ace => aclGroup ace = group) =
    theacl.filter fun ace => aclGroup ace = group

/-- An inherited `DENY` entry beside an `ALLOW` entry of the object's own. -/
def DenyInheritedBesideAllow (theacl : List (Nfs4Ace Perms)) : Prop :=
  (∃ ace ∈ theacl, ace.type = .deny ∧ aceIsInheritedNfs4 ace = true) ∧
    ∃ ace ∈ theacl, ace.type = .allow ∧ aceIsInheritedNfs4 ace = false

theorem aclGroup_eq_denyInherit_iff {ace : Nfs4Ace Perms} : aclGroup ace = .denyInherit ↔
    ace.type = .deny ∧ aceIsInheritedNfs4 ace = true := by
  unfold aclGroup
  cases ace.type <;> cases aceIsInheritedNfs4 ace <;> simp

theorem aclGroup_eq_allowNoinherit_iff {ace : Nfs4Ace Perms} : aclGroup ace = .allowNoinherit ↔
    ace.type = .allow ∧ aceIsInheritedNfs4 ace = false := by
  unfold aclGroup
  cases ace.type <;> cases aceIsInheritedNfs4 ace <;> simp

variable {theacl out : List (Nfs4Ace Perms)}

variable (hout : canonicalizeNfs4Acl theacl = some out)

include hout

theorem canonicalizeNfs4Acl_perm : out.Perm theacl := by
  rw [canonicalizeNfs4Acl_eq, some.injEq] at hout
  subst hout
  exact Buckets.joined_perm nodup_bucketOrder fun ace _ =>
    mem_bucketOrder (aclGroup ace)

theorem canonicalizeNfs4Acl_stable (group : AclGroup) :
    (out.filter fun ace => aclGroup ace = group) =
      theacl.filter fun ace => aclGroup ace = group := by
  rw [canonicalizeNfs4Acl_eq, some.injEq] at hout
  subst hout
  exact Buckets.filter_joined nodup_bucketOrder (mem_bucketOrder group)

theorem canonicalizeNfs4Acl_idempotent : canonicalizeNfs4Acl out = some out := by
  rw [canonicalizeNfs4Acl_eq, some.injEq] at hout
  subst hout
  rw [canonicalizeNfs4Acl_eq, Buckets.joined_joined nodup_bucketOrder]

theorem canonicalizeNfs4Acl_ordered_iff :
    (out.Pairwise fun ace ace' => NotAfter (aclGroup ace) (aclGroup ace')) ↔
      ¬ DenyInheritedBesideAllow theacl := by
  rw [canonicalizeNfs4Acl_eq, some.injEq] at hout
  subst hout
  rw [Buckets.joined_pairwise_iff notAfter_refl]
  have hdeny : (∃ ace ∈ theacl, aclGroup ace = .denyInherit) ↔
      ∃ ace ∈ theacl, ace.type = .deny ∧ aceIsInheritedNfs4 ace = true := by
    simp only [aclGroup_eq_denyInherit_iff]
  have hallow : (∃ ace ∈ theacl, aclGroup ace = .allowNoinherit) ↔
      ∃ ace ∈ theacl, ace.type = .allow ∧ aceIsInheritedNfs4 ace = false := by
    simp only [aclGroup_eq_allowNoinherit_iff]
  unfold DenyInheritedBesideAllow
  rw [← hdeny, ← hallow]
  have hwrong : ¬ NotAfter .denyInherit .allowNoinherit := by decide
  have hfirst : ∀ group, NotAfter .denyNoinherit group := by
    intro group
    cases group <;> decide
  have hlast : ∀ group, NotAfter group .allowInherit := by
    intro group
    cases group <;> decide
  simp only [bucketOrder, pairwise_cons, mem_cons, not_mem_nil,
    or_false, forall_eq_or_imp, forall_eq, false_implies, implies_true,
    List.Pairwise.nil, and_true, hfirst, hlast, hwrong, true_and, not_and]

omit hout

/-- `canonicalize_nfs4_acl` gives the order that it documents exactly when the
ACL does not have an inherited `DENY` entry and an `ALLOW` entry that is not
inherited. -/
theorem canonical_iff_not_denyInheritedBesideAllow (theacl : List (Nfs4Ace Perms)) :
    (∃ out, canonicalizeNfs4Acl theacl = some out ∧ Canonical theacl out ∧
      canonicalizeNfs4Acl out = some out) ↔
      ¬ DenyInheritedBesideAllow theacl := by
  constructor
  · intro hcanonical
    obtain ⟨out, hout, hcanonical, _⟩ := hcanonical
    exact (canonicalizeNfs4Acl_ordered_iff hout).mp hcanonical.ordered
  · intro hbeside
    have hout := canonicalizeNfs4Acl_eq theacl
    refine ⟨_, hout, ?_, canonicalizeNfs4Acl_idempotent hout⟩
    exact {
      perm := canonicalizeNfs4Acl_perm hout
      ordered := (canonicalizeNfs4Acl_ordered_iff hout).mpr hbeside
      stable := canonicalizeNfs4Acl_stable hout }

/-- `EVERYONE` is denied by the parent directory and user 1000 is allowed on
the object itself. -/
def deniedByParent : List (Nfs4Ace Unit) := [
  { tag := .specialEveryone
    id := some (-1)
    who := none
    type := .deny
    perms := ()
    flags := .advanced (Dict.ofEntries [(.inherited, true)]) },
  { tag := .user
    id := some 1000
    who := none
    type := .allow
    perms := ()
    flags := .simplified .noinherit }]

/-- An inherited deny is put before an allow that is not inherited. -/
theorem inherited_deny_first : ¬ ∃ out, canonicalizeNfs4Acl deniedByParent = some out ∧
    Canonical deniedByParent out ∧ canonicalizeNfs4Acl out = some out := by
  intro hcanonical
  obtain ⟨out, hout, hcanonical, _⟩ := hcanonical
  have hgroups : (canonicalizeNfs4Acl deniedByParent).map (fun out => out.map aclGroup) =
        some [.denyInherit, .allowNoinherit] := by decide
  rw [hout, map_some, some.injEq] at hgroups
  have hordered := List.pairwise_map.mpr hcanonical.ordered
  rw [hgroups] at hordered
  exact absurd hordered (by decide)

end Middlewared.Nfs4Acl
