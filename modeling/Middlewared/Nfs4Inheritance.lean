import Middlewared.Nfs4Acl

/-!
# Inheritance of access control lists

What a new file or directory receives from the ACL of the directory it is created in.
-/

namespace Middlewared.Nfs4Acl

open Option List Dict

variable {Perms : Type*}

/-- `flags.get(flag, False)` -/
def flagSet (flags : Dict Nfs4AceFlag Bool) (flag : Nfs4AceFlag) : Bool :=
  (flags.get? flag).getD false

/-- The flags of the entry that a child receives, where it receives one.
`none` stands for the missing key in `flags[NO_PROPAGATE_INHERIT]`. -/
def inheritedFlags (isdir : Bool) (flags : Dict Nfs4AceFlag Bool) :
    Option (Option (Dict Nfs4AceFlag Bool)) :=
  if isdir then
    if !flagSet flags .directoryInherit then
      (flags.get? .noPropagateInherit).map fun noPropagate =>
        if noPropagate then none else some (flags.set .inheritOnly true)
    else if flagSet flags .inheritOnly then
      some (some (flags.set .inheritOnly false))
    else if flagSet flags .noPropagateInherit then
      some (some (((flags.set .directoryInherit false).set
        .fileInherit false).set .noPropagateInherit false))
    else some (some flags)
  else
    some (some ((((flags.set .directoryInherit false).set
      .fileInherit false).set .noPropagateInherit false).set
      .inheritOnly false))

/-- The dictionary that is built for the child has no `who`. -/
def inheritedAce (entry : Nfs4Ace Perms) (flags : Dict Nfs4AceFlag Bool) :
    Nfs4Ace Perms where
  tag := entry.tag
  id := entry.id
  who := none
  type := entry.type
  perms := entry.perms
  flags := .advanced (flags.set .inherited true)

/-- One pass through the loop of `__calculate_inherited_nfs4`. -/
def contribution (isdir : Bool) (entry : Nfs4Ace Perms) :
    Option (Option (Nfs4Ace Perms)) :=
  match entry.flags with
  | .simplified .noinherit => some none
  -- the changed copy of the flags is dropped here
  | .simplified .inherit => some (some entry)
  | .advanced flags =>
    if flags.size = 0 then some none
    else if !flagSet flags .fileInherit && !flagSet flags .directoryInherit then
      some none
    else if !isdir && !flagSet flags .fileInherit then some none
    else (inheritedFlags isdir flags).map fun given =>
      given.map (inheritedAce entry)

def calculateInheritedNfs4 (acl : List (Nfs4Ace Perms)) (isdir : Bool) :
    Option (List (Nfs4Ace Perms)) :=
  acl.foldlM (fun inherited entry =>
    (contribution isdir entry).map fun given => inherited ++ given.toList) []

structure PosixAce (Perms : Type*) where
  tag : String
  id : Option ℤ
  perms : Perms
  default : Bool

def calculateInheritedPosix1e (acl : List (PosixAce Perms)) (isdir : Bool) :
    List (PosixAce Perms) :=
  acl.flatMap fun entry =>
    if entry.default = false then []
    else { entry with default := false } :: if isdir then [entry] else []

inductive FsAcl (Perms : Type*) where
  | nfs4 (acl : List (Nfs4Ace Perms))
  | posix1e (acl : List (PosixAce Perms))
  | disabled

inductive InheritedAcl (Perms : Type*) where
  | nfs4 (acl : List (Nfs4Ace Perms))
  | posix1e (acl : List (PosixAce Perms))
  | nothing

def calculateInheritedAcl (theacl : FsAcl Perms) (isdir : Bool) :
    Option (InheritedAcl Perms) :=
  match theacl with
  | .posix1e acl => some (.posix1e (calculateInheritedPosix1e acl isdir))
  | .nfs4 acl => (calculateInheritedNfs4 acl isdir).map .nfs4
  | .disabled => some .nothing

def Nfs4Ace.has (entry : Nfs4Ace Perms) (flag : Nfs4AceFlag) : Bool :=
  match entry.flags with
  | .simplified _ => false
  | .advanced flags => flagSet flags flag

def Nfs4Ace.NonSimplified (entry : Nfs4Ace Perms) : Prop :=
  ∃ flags, entry.flags = .advanced flags ∧ ∀ flag, flag ∈ flags

def given (isdir : Bool) (entry : Nfs4Ace Perms) : Option (Nfs4Ace Perms) :=
  (contribution isdir entry).join

theorem flagSet_set (flags : Dict Nfs4AceFlag Bool) (flag other : Nfs4AceFlag) (value : Bool) :
    flagSet (flags.set flag value) other = if other = flag then value else flagSet flags other := by
  unfold flagSet
  rw [get?_set]
  by_cases heq : other = flag
  · rw [if_pos heq, if_pos heq, getD_some]
  · rw [if_neg heq, if_neg heq]

variable {flags : Dict Nfs4AceFlag Bool}

theorem get?_eq_flagSet {flag : Nfs4AceFlag} (hmem : flag ∈ flags) :
    flags.get? flag = some (flagSet flags flag) := by
  obtain ⟨value, hvalue⟩ := exists_get?_of_mem hmem
  unfold flagSet
  rw [hvalue, getD_some]

theorem size_ne_zero {flag : Nfs4AceFlag} (hmem : flag ∈ flags) : flags.size ≠ 0 := by
  intro hsize
  have hnil : flags.entries = [] := List.length_eq_zero_iff.mp hsize
  rw [Dict.mem_def, Dict.keys, hnil] at hmem
  exact not_mem_nil hmem

@[simp] theorem inheritedAce_has (entry : Nfs4Ace Perms)
    (flags : Dict Nfs4AceFlag Bool) (flag : Nfs4AceFlag) :
    (inheritedAce entry flags).has flag = if flag = .inherited then true else flagSet flags flag :=
  flagSet_set flags .inherited flag true

theorem nonSimplified_inheritedAce (entry : Nfs4Ace Perms) (hflags : ∀ flag, flag ∈ flags) :
    (inheritedAce entry flags).NonSimplified :=
  ⟨flags.set .inherited true, rfl, fun flag =>
    mem_set_iff.mpr (Or.inr (hflags flag))⟩

/-! ## What one entry gives -/

def directoryFlags (flags : Dict Nfs4AceFlag Bool) : Dict Nfs4AceFlag Bool :=
  if flagSet flags .inheritOnly then flags.set .inheritOnly false
  else if flagSet flags .noPropagateInherit then
    ((flags.set .directoryInherit false).set .fileInherit false).set .noPropagateInherit false
  else flags

def fileFlags (flags : Dict Nfs4AceFlag Bool) : Dict Nfs4AceFlag Bool :=
  (((flags.set .directoryInherit false).set
    .fileInherit false).set .noPropagateInherit false).set .inheritOnly false

section

variable {entry : Nfs4Ace Perms} {flags : Dict Nfs4AceFlag Bool}

theorem contribution_directory (hentry : entry.flags = .advanced flags)
    (hflags : ∀ flag, flag ∈ flags) :
    contribution true entry = some (if flagSet flags .directoryInherit then
        some (inheritedAce entry (directoryFlags flags))
      else if flagSet flags .fileInherit ∧ ¬ flagSet flags .noPropagateInherit then
        some (inheritedAce entry (flags.set .inheritOnly true))
      else none) := by
  have hsize : flags.size ≠ 0 := size_ne_zero (hflags .inherited)
  unfold contribution inheritedFlags directoryFlags
  rw [hentry]
  simp only [hsize, if_false, get?_eq_flagSet (hflags .noPropagateInherit)]
  cases flagSet flags .directoryInherit with
  | true =>
    cases flagSet flags .inheritOnly with
    | true => simp
    | false => cases flagSet flags .noPropagateInherit <;> simp
  | false =>
    cases flagSet flags .fileInherit with
    | true => cases flagSet flags .noPropagateInherit <;> simp
    | false => simp

theorem contribution_file (hentry : entry.flags = .advanced flags) (hflags : ∀ flag, flag ∈ flags) :
    contribution false entry = some (if flagSet flags .fileInherit then
        some (inheritedAce entry (fileFlags flags))
      else none) := by
  have hsize : flags.size ≠ 0 := size_ne_zero (hflags .inherited)
  unfold contribution inheritedFlags fileFlags
  rw [hentry]
  simp only [hsize, if_false]
  cases flagSet flags .fileInherit with
  | true => simp
  | false => cases flagSet flags .directoryInherit <;> simp

theorem mem_directoryFlags (hflags : ∀ flag, flag ∈ flags)
    (flag : Nfs4AceFlag) : flag ∈ directoryFlags flags := by
  unfold directoryFlags
  split
  · exact mem_set_iff.mpr (Or.inr (hflags flag))
  · split
    · simp only [mem_set_iff, hflags flag, or_true]
    · exact hflags flag

variable (hentry : entry.NonSimplified)

include hentry

theorem contribution_isSome (isdir : Bool) :
    ∃ contributed, contribution isdir entry = some contributed := by
  obtain ⟨flags, hadvanced, hflags⟩ := hentry
  cases isdir with
  | true => exact ⟨_, contribution_directory hadvanced hflags⟩
  | false => exact ⟨_, contribution_file hadvanced hflags⟩

omit hentry in
theorem has_eq_flagSet (hentry : entry.flags = .advanced flags)
    (flag : Nfs4AceFlag) : entry.has flag = flagSet flags flag := by
  unfold Nfs4Ace.has
  rw [hentry]

theorem given_directory_isSome_iff : (given true entry).isSome ↔
    entry.has .directoryInherit ∨ (entry.has .fileInherit ∧ ¬ entry.has .noPropagateInherit) := by
  obtain ⟨flags, hadvanced, hflags⟩ := hentry
  unfold given
  rw [contribution_directory hadvanced hflags, join_some]
  simp only [has_eq_flagSet hadvanced]
  by_cases hdirectory : flagSet flags .directoryInherit
  · simp [hdirectory]
  · by_cases hfile : flagSet flags .fileInherit ∧ ¬ flagSet flags .noPropagateInherit
    · simp [hdirectory, hfile]
    · rw [if_neg hdirectory, if_neg hfile]
      exact iff_of_false (by simp) (not_or.mpr ⟨hdirectory, hfile⟩)

theorem given_file_isSome_iff : (given false entry).isSome ↔ entry.has .fileInherit := by
  obtain ⟨flags, hadvanced, hflags⟩ := hentry
  unfold given
  rw [contribution_file hadvanced hflags, join_some]
  simp only [has_eq_flagSet hadvanced]
  by_cases hfile : flagSet flags .fileInherit <;> simp [hfile]

variable {copy : Nfs4Ace Perms}

theorem given_file (hgiven : given false entry = some copy) :
    copy.NonSimplified ∧ (∀ flag, copy.has flag = decide (flag = .inherited)) ∧
      copy.tag = entry.tag ∧ copy.id = entry.id ∧ copy.type = entry.type ∧
        copy.perms = entry.perms := by
  obtain ⟨flags, hadvanced, hflags⟩ := hentry
  unfold given at hgiven
  rw [contribution_file hadvanced hflags, join_some] at hgiven
  by_cases hfile : flagSet flags .fileInherit
  · rw [if_pos hfile, some.injEq] at hgiven
    subst hgiven
    refine ⟨nonSimplified_inheritedAce entry ?_, ?_, rfl, rfl, rfl, rfl⟩
    · intro flag
      simp only [fileFlags, mem_set_iff, hflags flag, or_true]
    · intro flag
      rw [inheritedAce_has]
      unfold fileFlags
      simp only [flagSet_set]
      cases flag <;> simp
  · rw [if_neg hfile] at hgiven
    cases hgiven

theorem given_directory (hgiven : given true entry = some copy) :
    copy.NonSimplified ∧ copy.has .inherited := by
  obtain ⟨flags, hadvanced, hflags⟩ := hentry
  unfold given at hgiven
  rw [contribution_directory hadvanced hflags, join_some] at hgiven
  by_cases hdirectory : flagSet flags .directoryInherit
  · rw [if_pos hdirectory, some.injEq] at hgiven
    subst hgiven
    exact ⟨nonSimplified_inheritedAce entry (mem_directoryFlags hflags), by simp⟩
  · rw [if_neg hdirectory] at hgiven
    split at hgiven
    · rw [some.injEq] at hgiven
      subst hgiven
      refine ⟨nonSimplified_inheritedAce entry ?_, by simp⟩
      intro flag
      exact mem_set_iff.mpr (Or.inr (hflags flag))
    · cases hgiven

theorem given_directory_of_noPropagate (hkeep : entry.has .noPropagateInherit)
    (hgiven : given true entry = some copy) :
    entry.has .directoryInherit ∧ copy.has .directoryInherit = entry.has .inheritOnly ∧
      copy.has .fileInherit = (entry.has .inheritOnly && entry.has .fileInherit) ∧
      copy.has .noPropagateInherit = entry.has .inheritOnly := by
  have hentry' := hentry
  obtain ⟨flags, hadvanced, hflags⟩ := hentry
  simp only [has_eq_flagSet hadvanced] at hkeep ⊢
  have hsome : (given true entry).isSome := by
    rw [hgiven, isSome_some]
  rw [given_directory_isSome_iff hentry'] at hsome
  simp only [has_eq_flagSet hadvanced, hkeep, not_true_eq_false, and_false, or_false] at hsome
  unfold given at hgiven
  rw [contribution_directory hadvanced hflags, join_some, if_pos hsome, some.injEq] at hgiven
  subst hgiven
  refine ⟨hsome, ?_⟩
  simp only [inheritedAce_has, reduceCtorEq, if_false]
  unfold directoryFlags
  by_cases honly : flagSet flags .inheritOnly
  · simp only [honly, if_true, flagSet_set, reduceCtorEq, if_false, hsome, hkeep,
      Bool.true_and, and_self]
  · simp [honly, hkeep, flagSet_set]

end

/-! ## What an ACL gives -/

section

variable {acl : List (Nfs4Ace Perms)} {isdir : Bool}

variable (hacl : ∀ entry ∈ acl, entry.NonSimplified)

include hacl

theorem foldlM_contribution (inherited : List (Nfs4Ace Perms)) : acl.foldlM (fun inherited entry =>
    (contribution isdir entry).map fun given => inherited ++ given.toList) inherited =
    some (inherited ++ acl.filterMap (given isdir)) := by
  induction acl generalizing inherited with
  | nil => simp
  | cons entry rest ih =>
    obtain ⟨contributed, hcontribution⟩ := contribution_isSome (hacl entry mem_cons_self) isdir
    have hgiven : given isdir entry = contributed := by
      unfold given
      rw [hcontribution, join_some]
    have hrest := ih fun other hmem =>
      hacl other (mem_cons_of_mem entry hmem)
    rw [foldlM_cons, hcontribution, map_some, bind_eq_bind,
      bind_some, hrest, filterMap_cons, hgiven]
    cases contributed <;> simp

theorem calculateInheritedAcl_nfs4 :
    calculateInheritedAcl (.nfs4 acl) isdir = some (.nfs4 (acl.filterMap (given isdir))) := by
  unfold calculateInheritedAcl calculateInheritedNfs4
  simp only [foldlM_contribution hacl, map_some, nil_append]

theorem nonSimplified_of_mem_filterMap {copy : Nfs4Ace Perms}
    (hmem : copy ∈ acl.filterMap (given true)) :
    copy.NonSimplified ∧ copy.has .inherited := by
  obtain ⟨entry, hentry, hgiven⟩ := List.mem_filterMap.mp hmem
  exact given_directory (hacl entry hentry) hgiven

end

/-- An entry with `NO_PROPAGATE_INHERIT` reaches the second level exactly when
it has `DIRECTORY_INHERIT` and `INHERIT_ONLY`, and a file there only with
`FILE_INHERIT` as well. -/
theorem reaches_second_level_iff {entry : Nfs4Ace Perms}
    (hentry : entry.NonSimplified) (hkeep : entry.has .noPropagateInherit)
    (isdir : Bool) :
    (∃ copy, given true entry = some copy ∧ (given isdir copy).isSome) ↔
      entry.has .directoryInherit ∧ entry.has .inheritOnly ∧ (isdir ∨ entry.has .fileInherit) := by
  have hsecond : ∀ copy, given true entry = some copy → ((given isdir copy).isSome ↔
        entry.has .inheritOnly ∧ (isdir ∨ entry.has .fileInherit)) := by
    intro copy hgiven
    have hcopy := (given_directory hentry hgiven).1
    have hflags := (given_directory_of_noPropagate hentry hkeep hgiven).2
    cases isdir with
    | true =>
      rw [given_directory_isSome_iff hcopy, hflags.1, hflags.2.1, hflags.2.2]
      cases entry.has .inheritOnly <;> simp
    | false =>
      rw [given_file_isSome_iff hcopy, hflags.2.1]
      simp
  constructor
  · intro hreaches
    obtain ⟨copy, hgiven, hcopy⟩ := hreaches
    exact ⟨(given_directory_of_noPropagate hentry hkeep hgiven).1, (hsecond copy hgiven).mp hcopy⟩
  · intro hflags
    have hsome : (given true entry).isSome :=
      (given_directory_isSome_iff hentry).mpr (Or.inl hflags.1)
    obtain ⟨copy, hgiven⟩ := isSome_iff_exists.mp hsome
    exact ⟨copy, hgiven, (hsecond copy hgiven).mpr hflags.2⟩

/-- Inheritance from `P` by a directory, whose ACL is then `D`, by a file, whose
ACL is then `F`, and by what is created inside the directory. -/
structure InheritsByFlags (P D F : List (Nfs4Ace Perms)) : Prop where
  directory : calculateInheritedAcl (.nfs4 P) true = some (.nfs4 D)
  directory_eq : D = P.filterMap (given true)
  inherited : ∀ copy ∈ D, copy.has .inherited
  second : ∀ isdir, calculateInheritedAcl (.nfs4 D) isdir = some (.nfs4 (D.filterMap (given isdir)))
  noPropagate : ∀ entry ∈ P, entry.has .noPropagateInherit → ∀ isdir : Bool,
    ((∃ copy, given true entry = some copy ∧ (given isdir copy).isSome) ↔
      entry.has .directoryInherit ∧ entry.has .inheritOnly ∧ (isdir ∨ entry.has .fileInherit))
  file : calculateInheritedAcl (.nfs4 P) false = some (.nfs4 F)
  file_eq : F = P.filterMap (given false)
  fileInherit : ∀ entry ∈ P, (given false entry).isSome ↔ entry.has .fileInherit
  cleared : ∀ entry ∈ P, ∀ copy, given false entry = some copy → copy.NonSimplified ∧
      (∀ flag, copy.has flag = decide (flag = .inherited)) ∧
      copy.tag = entry.tag ∧ copy.id = entry.id ∧
      copy.type = entry.type ∧ copy.perms = entry.perms

/-- What the next two levels inherit from an entry is decided by its flags. -/
theorem inheritsByFlags (P : List (Nfs4Ace Perms)) (hP : ∀ entry ∈ P, entry.NonSimplified) :
    ∃ D F, InheritsByFlags P D F := by
  have hcopies : ∀ copy ∈ P.filterMap (given true), copy.NonSimplified ∧ copy.has .inherited :=
    fun _ hmem => nonSimplified_of_mem_filterMap hP hmem
  exact ⟨P.filterMap (given true), P.filterMap (given false), {
    directory := calculateInheritedAcl_nfs4 hP
    directory_eq := rfl
    inherited := fun copy hmem => (hcopies copy hmem).2
    second := fun isdir => calculateInheritedAcl_nfs4 fun copy hmem =>
      (hcopies copy hmem).1
    noPropagate := fun entry hmem hkeep isdir =>
      reaches_second_level_iff (hP entry hmem) hkeep isdir
    file := calculateInheritedAcl_nfs4 hP
    file_eq := rfl
    fileInherit := fun entry hmem => given_file_isSome_iff (hP entry hmem)
    cleared := fun entry hmem _ hgiven => given_file (hP entry hmem) hgiven }⟩

/-- All flags but `INHERITED`. -/
def inheritOnlyFlags : Dict Nfs4AceFlag Bool :=
  Dict.ofEntries [(.fileInherit, true), (.directoryInherit, true), (.inheritOnly, true),
    (.noPropagateInherit, true),
    (.inherited, false)]

def inheritOnlyAce : Nfs4Ace Unit where
  tag := .group
  id := some 400
  who := none
  type := .allow
  perms := ()
  flags := .advanced inheritOnlyFlags

theorem inheritsByFlags_inheritOnly : ∃ D F, InheritsByFlags [inheritOnlyAce] D F := by
  apply inheritsByFlags
  intro entry hmem
  rw [List.mem_singleton.mp hmem]
  refine ⟨inheritOnlyFlags, rfl, ?_⟩
  intro flag
  cases flag <;> decide

/-- An entry for children only carries its flag past the first level. -/
theorem noPropagate_reaches_second_level : inheritOnlyAce.has .noPropagateInherit = true ∧
    ∃ copy copy', calculateInheritedAcl (.nfs4 [inheritOnlyAce]) true = some (.nfs4 [copy]) ∧
      calculateInheritedAcl (.nfs4 [copy]) true = some (.nfs4 [copy']) :=
  ⟨by decide, _, _, rfl, rfl⟩

end Middlewared.Nfs4Acl
