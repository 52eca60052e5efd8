import Middlewared.Nfs4Acl
import Middlewared.PosixAcl

/-!
# Built-in entries of ACL templates

`append_builtins_internal` adds entries for the built-in users and administrators to the ACL of a
template.
-/

namespace Middlewared.AclTemplate

open Nfs4Acl PosixAcl List

inductive Nfs4MaskSimple where
  | fullControl
  | modify
  | read
  | traverse

/-- The `perms` of an NFSv4 entry: `BASIC` with a permission set, or
permissions by name. -/
inductive Nfs4Perms where
  | simplified (basic : Nfs4MaskSimple)
  | advanced (perms : Dict String Bool)

inductive TemplateAcl where
  | nfs4 (acl : List (Nfs4Ace Nfs4Perms))
  | posix1e (acl : List PosixAce)

/-- `bu_id` and `ba_id`. -/
structure BuiltinIds where
  (users administrators : ℤ)

def alreadyGranted (ids : BuiltinIds) (aclIds : List (Option ℤ)) : Bool :=
  (ids.users ≠ -1 && some ids.users ∈ aclIds) ||
    (ids.administrators ≠ -1 && some ids.administrators ∈ aclIds)

def nfs4Entry (id : ℤ) (permset : Nfs4MaskSimple) :
    List (Nfs4Ace Nfs4Perms) :=
  if id = -1 then []
  else
    [{ tag := .group
       id := some id
       who := none
       type := .allow
       perms := .simplified permset
       flags := .simplified .inherit }]

def allPerms : PosixPerms where
  read := true
  write := true
  execute := true

def posixEntries (id : ℤ) : List PosixAce :=
  if id = -1 then []
  else
    [⟨.group, allPerms, false, some id, none⟩, ⟨.group, allPerms, true, some id, none⟩]

def maskEntry (default : Bool) : PosixAce where
  tag := .mask
  perms := allPerms
  default := default
  id := some (-1)
  who := none

def hasDefaultMask (acl : List PosixAce) : Bool :=
  acl.any (PosixAce.marks true .mask)

-- the source looks at `default` here as well, not at its absence
def hasAccessMask (acl : List PosixAce) : Bool :=
  acl.any (PosixAce.marks true .mask)

def addedEntries (ids : BuiltinIds) (acl : List PosixAce) : List PosixAce :=
  posixEntries ids.users ++ posixEntries ids.administrators ++
    (if hasDefaultMask acl then [] else [maskEntry false]) ++
    (if hasAccessMask acl then [] else [maskEntry true])

def appendBuiltinsInternal (ids : BuiltinIds) : TemplateAcl → TemplateAcl
  | .nfs4 acl =>
    if alreadyGranted ids (acl.map (·.id)) then .nfs4 acl
    else
      .nfs4 (acl ++ nfs4Entry ids.users .modify ++ nfs4Entry ids.administrators .fullControl)
  | .posix1e acl =>
    if alreadyGranted ids (acl.map (·.id)) then .posix1e acl
    else .posix1e (acl ++ addedEntries ids acl)

variable {ids : BuiltinIds} {acl : List PosixAce}

variable {ace : PosixAce}

theorem mem_posixEntries {id : ℤ} : ace ∈ posixEntries id ↔
    id ≠ -1 ∧ ∃ default, ace = ⟨.group, allPerms, default, some id, none⟩ := by
  unfold posixEntries
  split
  · simp [*]
  · rename_i hid
    simp [hid]

variable {tag : PosixAceTag}

theorem countP_posixEntries {default : Bool} (hspecial : tag.isNamed = false)
    (id : ℤ) : (posixEntries id).countP (PosixAce.marks default tag) = 0 := by
  rw [countP_eq_zero]
  intro ace hmem
  obtain ⟨-, given, rfl⟩ := mem_posixEntries.mp hmem
  cases tag <;> simp_all [PosixAce.marks, PosixAceTag.isNamed]

theorem countP_addedEntries (hspecial : tag.isNamed = false) (default : Bool) :
    (addedEntries ids acl).countP (PosixAce.marks default tag) =
      if tag = .mask ∧ hasDefaultMask acl = false then 1 else 0 := by
  have hmasks : hasAccessMask acl = hasDefaultMask acl := rfl
  unfold addedEntries
  rw [countP_append, countP_append, countP_append,
    countP_posixEntries hspecial, countP_posixEntries hspecial, hmasks]
  cases hasDefaultMask acl with
  | true => simp
  | false =>
    cases default <;> cases tag <;> simp [PosixAce.marks, maskEntry]

theorem any_marks_append_addedEntries (hspecial : tag.isNamed = false) (default : Bool) :
    (acl ++ addedEntries ids acl).any (PosixAce.marks default tag) = true ↔
      acl.any (PosixAce.marks default tag) = true ∨ tag = .mask ∧ hasDefaultMask acl = false := by
  have hadded : (addedEntries ids acl).any (PosixAce.marks default tag) = true ↔
      tag = .mask ∧ hasDefaultMask acl = false := by
    rw [any_eq_true, ← countP_pos_iff, countP_addedEntries hspecial]
    split <;> simp [*]
  rw [any_append, Bool.or_eq_true, hadded]

theorem mem_addedEntries_named (hmem : ace ∈ addedEntries ids acl)
    (hnamed : ace.tag.isNamed = true) :
    ids.users ≠ -1 ∨ ids.administrators ≠ -1 := by
  have hnotMask : ∀ default, ace ≠ maskEntry default := by
    rintro default rfl
    cases hnamed
  unfold addedEntries at hmem
  rw [mem_append, mem_append, mem_append] at hmem
  rcases hmem with ((husers | hadmins) | hmask) | hmask
  · exact Or.inl (mem_posixEntries.mp husers).1
  · exact Or.inr (mem_posixEntries.mp hadmins).1
  · split at hmask
    · cases hmask
    · exact absurd (mem_singleton.mp hmask) (hnotMask false)
  · split at hmask
    · cases hmask
    · exact absurd (mem_singleton.mp hmask) (hnotMask true)

theorem hasWho_of_mem_addedEntries (hmem : ace ∈ addedEntries ids acl) : ace.hasWho = false := by
  have hwho : ∀ default, (maskEntry default).hasWho = false := fun _ => rfl
  unfold addedEntries at hmem
  rw [mem_append, mem_append, mem_append] at hmem
  rcases hmem with ((husers | hadmins) | hmask) | hmask
  · obtain ⟨-, default, rfl⟩ := mem_posixEntries.mp husers
    rfl
  · obtain ⟨-, default, rfl⟩ := mem_posixEntries.mp hadmins
    rfl
  · split at hmask
    · cases hmask
    · rw [mem_singleton.mp hmask, hwho]
  · split at hmask
    · cases hmask
    · rw [mem_singleton.mp hmask, hwho]

theorem exists_accessEntry (hids : ids.users ≠ -1 ∨ ids.administrators ≠ -1) :
    ∃ ace ∈ addedEntries ids acl, ace.tag.isNamed = true ∧ ace.default = false := by
  rcases hids with husers | hadmins
  · refine ⟨⟨.group, allPerms, false, some ids.users, none⟩, ?_, rfl, rfl⟩
    have hmem := mem_posixEntries.mpr
      ⟨husers, false, Eq.refl (PosixAce.mk .group allPerms false _ none)⟩
    simp [addedEntries, hmem]
  · refine ⟨⟨.group, allPerms, false, some ids.administrators, none⟩, ?_, rfl, rfl⟩
    have hmem := mem_posixEntries.mpr
      ⟨hadmins, false, Eq.refl (PosixAce.mk .group allPerms false _ none)⟩
    simp [addedEntries, hmem]

/-! ## The ACL afterwards -/

/-- The masks are such that neither is missing or there twice afterwards. -/
def MasksFit (ids : BuiltinIds) (acl : List PosixAce) : Prop :=
  acl.any (PosixAce.marks true .mask) = acl.any (PosixAce.marks false .mask) ∨
    acl.any (PosixAce.marks true .mask) = true ∧ ids.users = -1 ∧ ids.administrators = -1

theorem Accepted.of_not_recursive {recursive : Bool}
    (haccepted : Accepted recursive acl) : Accepted false acl :=
  { haccepted with recursive := nofun }

theorem accepted_append_iff {recursive : Bool} (haccepted : Accepted recursive acl)
    (hdefaults : ∀ tag ∈ requiredEntries, acl.any (PosixAce.marks true tag) = true) :
    Accepted false (acl ++ addedEntries ids acl) ↔ MasksFit ids acl := by
  constructor
  · intro hafter
    cases hdefault : acl.any (PosixAce.marks true .mask) with
    | false =>
      -- both masks are added, so there was no access mask
      have honce := hafter.once false .mask rfl
      rw [countP_append, countP_addedEntries rfl, if_pos ⟨rfl, hdefault⟩] at honce
      have hnone : acl.countP (PosixAce.marks false .mask) = 0 := by omega
      left
      rw [hdefault, eq_comm, List.any_eq_false]
      intro ace hmem hmarks
      exact countP_eq_zero.mp hnone ace hmem hmarks
    | true =>
      by_cases hids : ids.users ≠ -1 ∨ ids.administrators ≠ -1
      · obtain ⟨ace, hmem, hnamed, haccess⟩ := @exists_accessEntry ids acl hids
        have hmask := hafter.masked ace (mem_append_right _ hmem) hnamed
        rw [haccess, any_marks_append_addedEntries rfl] at hmask
        left
        rw [hdefault]
        rcases hmask with hthere | ⟨-, hmissing⟩
        · exact hthere.symm
        · rw [hasDefaultMask, hdefault] at hmissing
          cases hmissing
      · push Not at hids
        exact Or.inr ⟨hdefault, hids⟩
  · intro hfit
    have hmasks : ∀ default, (acl ++ addedEntries ids acl).any (PosixAce.marks default .mask) =
            true ∨
          ids.users = -1 ∧ ids.administrators = -1 ∧ hasDefaultMask acl = true := by
      intro default
      rw [any_marks_append_addedEntries rfl]
      rcases hfit with heq | ⟨hthere, husers, hadmins⟩
      · cases hmissing : hasDefaultMask acl with
        | false => simp
        | true =>
          cases default with
          | true => exact Or.inl (Or.inl hmissing)
          | false => exact Or.inl (Or.inl (heq ▸ hmissing))
      · exact Or.inr ⟨husers, hadmins, hthere⟩
    exact {
      who := by
        intro ace hmem
        rcases mem_append.mp hmem with hold | hadded
        · exact haccepted.who ace hold
        · rw [hasWho_of_mem_addedEntries hadded, Bool.false_and]
      once := by
        intro default tag hspecial
        have honce := haccepted.once default tag hspecial
        rw [countP_append, countP_addedEntries hspecial]
        split
        · rename_i hmissing
          obtain ⟨rfl, hmissing⟩ := hmissing
          have hnone : acl.any (PosixAce.marks default .mask) = false := by
            rw [hasDefaultMask] at hmissing
            rcases hfit with heq | ⟨hthere, -⟩
            · cases default with
              | true => exact hmissing
              | false => rw [← heq, hmissing]
            · rw [hthere] at hmissing
              cases hmissing
          have hzero : acl.countP (PosixAce.marks default .mask) = 0 := by
            rw [countP_eq_zero]
            exact List.any_eq_false.mp hnone
          omega
        · omega
      masked := by
        intro ace hmem hnamed
        rcases hmasks ace.default with hmask | ⟨husers, hadmins, -⟩
        · exact hmask
        · rcases mem_append.mp hmem with hold | hadded
          · rw [any_marks_append_addedEntries rfl]
            exact Or.inl (haccepted.masked ace hold hnamed)
          · rcases mem_addedEntries_named hadded hnamed with hid | hid
            · exact absurd husers hid
            · exact absurd hadmins hid
      recursive := nofun
      required := by
        intro tag htag
        rw [any_marks_append_addedEntries
          (isNamed_of_mem_requiredEntries htag)]
        exact Or.inl (haccepted.required tag htag)
      defaults := by
        intro _ tag htag
        rw [any_marks_append_addedEntries
          (isNamed_of_mem_requiredEntries htag)]
        exact Or.inl (hdefaults tag htag) }

/-- A valid template ACL with the three default entries is valid afterwards
exactly when an id was there already or its masks fit. -/
theorem appendBuiltinsInternal_valid_iff {recursive : Bool}
    (hvalid : (genAclstringPosix1e acl recursive).2 = [])
    (hdefaults : ∀ tag ∈ requiredEntries, acl.any (PosixAce.marks true tag) = true) :
    ∃ after, appendBuiltinsInternal ids (.posix1e acl) = .posix1e after ∧
      ((genAclstringPosix1e after false).2 = [] ↔
        alreadyGranted ids (acl.map (·.id)) = true ∨ MasksFit ids acl) := by
  have haccepted := genAclstringPosix1e_accepts_iff.mp hvalid
  cases hgranted : alreadyGranted ids (acl.map (·.id)) with
  | true =>
    refine ⟨acl, by simp [appendBuiltinsInternal, hgranted], ?_⟩
    rw [genAclstringPosix1e_accepts_iff]
    simp [Accepted.of_not_recursive haccepted]
  | false =>
    refine ⟨acl ++ addedEntries ids acl, by simp [appendBuiltinsInternal, hgranted], ?_⟩
    rw [genAclstringPosix1e_accepts_iff, accepted_append_iff haccepted hdefaults]
    simp

def trivialEntries (default : Bool) : List PosixAce :=
  [⟨.userObj, allPerms, default, some (-1), none⟩, ⟨.groupObj, allPerms, default, some (-1), none⟩,
    ⟨.other, ⟨true, false, true⟩, default, some (-1), none⟩]

theorem appendBuiltinsInternal_valid_trivial : ∃ after, appendBuiltinsInternal ⟨545, 544⟩
      (.posix1e (trivialEntries false ++ trivialEntries true)) = .posix1e after ∧
    (genAclstringPosix1e after false).2 = [] := by
  obtain ⟨after, hafter, hvalid⟩ := @appendBuiltinsInternal_valid_iff ⟨545, 544⟩
    (trivialEntries false ++ trivialEntries true) true (by decide) (by decide)
  exact ⟨after, hafter, hvalid.mpr (.inr (.inl (by decide)))⟩

/-- A template with an access mask and no default mask gets a second access mask. -/
theorem access_mask_twice : ∃ acl : List PosixAce, (∀ ace ∈ acl, ace.isValid = true) ∧
    (genAclstringPosix1e acl true).2 = [] ∧
    (∀ tag ∈ requiredEntries, acl.any (PosixAce.marks true tag) = true) ∧
    ∃ after, appendBuiltinsInternal ⟨545, 544⟩ (.posix1e acl) = .posix1e after ∧
        (genAclstringPosix1e after false).2 ≠ [] :=
  ⟨trivialEntries false ++ maskEntry false :: trivialEntries true,
    by decide, by decide, by decide, _, rfl, by decide⟩

end Middlewared.AclTemplate
