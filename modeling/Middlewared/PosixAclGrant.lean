import Middlewared.PosixAcl

/-!
# Granting access through a POSIX.1e access control list

`add_to_acl_posix` goes through the ACL once for every entry that is asked for, and appends what
it did not find.
-/

namespace Middlewared.PosixAcl

open List

/-! ## `add_to_acl_posix` -/

inductive SimplifiedAccess where
  | read
  | modify
  | fullControl

/-- `id_type`, `id` and `access`. -/
structure SimplifiedAclEntry where
  isGroup : Bool
  id : ℤ
  access : SimplifiedAccess

namespace SimplifiedAclEntry

def idType (entry : SimplifiedAclEntry) : PosixAceTag :=
  if entry.isGroup then .group else .user

end SimplifiedAclEntry

/-- `READ` gives read and execute. -/
def convertPerm : SimplifiedAccess → PosixPerms
  | .modify => ⟨true, true, true⟩
  | .fullControl => ⟨true, true, true⟩
  | .read => ⟨true, false, true⟩

/-- A value of `canonical_entries`. -/
structure CanonicalEntry where
  hasDefault : Bool
  entry : Option PosixAce

structure EntryScan where
  canonical : Dict PosixAceTag CanonicalEntry
  hasDefault : Bool
  hasAccess : Bool
  hasAccessMask : Bool
  hasDefaultMask : Bool

namespace EntryScan

def start : EntryScan where
  canonical := {
    entries := [
      (.userObj, ⟨false, none⟩),
      (.groupObj, ⟨false, none⟩),
      (.other, ⟨false, none⟩)]
    nodup := by simp }
  hasDefault := false
  hasAccess := false
  hasAccessMask := false
  hasDefaultMask := false

def visit (entry : SimplifiedAclEntry) (scan : EntryScan) (ace : PosixAce) :
    EntryScan :=
  match scan.canonical.get? ace.tag with
  | some centry =>
    { scan with
      canonical := scan.canonical.set ace.tag
        (if ace.default then { centry with hasDefault := true }
          else { centry with entry := some ace }) }
  | none =>
    if ace.tag = .mask then
      if ace.default then { scan with hasDefaultMask := true }
      else { scan with hasAccessMask := true }
    else if ace.tag ≠ entry.idType ∨ ace.id ≠ some entry.id then scan
    else if ace.perms ≠ convertPerm entry.access then scan
    else if ace.default then { scan with hasDefault := true }
    else { scan with hasAccess := true }

end EntryScan

def scanForEntry (entry : SimplifiedAclEntry) (acl : List PosixAce) :
    EntryScan :=
  acl.foldl (EntryScan.visit entry) .start

/-- The default entry that a canonical entry lacks, copied from its access
entry.  `none` stands for the `TypeError` when there is no such entry. -/
def missingDefault (canonical : PosixAceTag × CanonicalEntry) :
    Option (List PosixAce) :=
  if canonical.2.hasDefault then some []
  else
    canonical.2.entry.map fun ace =>
      [{ tag := canonical.1, perms := ace.perms, default := true, id := ace.id, who := none }]

def grantedEntry (entry : SimplifiedAclEntry) (default : Bool) : PosixAce where
  tag := entry.idType
  perms := convertPerm entry.access
  default := default
  id := some entry.id
  who := none

def grantedMask (default : Bool) : PosixAce where
  tag := .mask
  perms := ⟨true, true, true⟩
  default := default
  id := some (-1)
  who := none

/-- One pass through the loop over the entries, with `changed`. -/
def addEntry (state : List PosixAce × Bool) (entry : SimplifiedAclEntry) :
    Option (List PosixAce × Bool) :=
  let scan := scanForEntry entry state.1
  (scan.canonical.entries.mapM missingDefault).map fun defaults =>
    (state.1 ++ defaults.flatten ++ (if scan.hasDefault then [] else [grantedEntry entry true]) ++
        (if scan.hasAccess then [] else [grantedEntry entry false]) ++
        (if scan.hasAccessMask then [] else [grantedMask false]) ++
        (if scan.hasDefaultMask then [] else [grantedMask true]),
      state.2 || !(scan.hasDefault && scan.hasAccess && scan.hasAccessMask && scan.hasDefaultMask))

def addToAclPosix (acl : List PosixAce) (entries : List SimplifiedAclEntry) :
    Option (List PosixAce × Bool) :=
  entries.foldlM addEntry (acl, false)

/-! ## What a scan finds -/

def grants (entry : SimplifiedAclEntry) (default : Bool) (ace : PosixAce) :
    Bool :=
  ace.tag = entry.idType && ace.id = some entry.id &&
    ace.perms = convertPerm entry.access && ace.default = default

theorem idType_ne_mask (entry : SimplifiedAclEntry) : entry.idType ≠ .mask := by
  unfold SimplifiedAclEntry.idType
  split <;> simp

theorem idType_notMem (entry : SimplifiedAclEntry) : entry.idType ∉ requiredEntries := by
  unfold SimplifiedAclEntry.idType
  split <;> decide

theorem scanForEntry_append_singleton (entry : SimplifiedAclEntry)
    (acl : List PosixAce) (ace : PosixAce) :
    scanForEntry entry (acl ++ [ace]) = (scanForEntry entry acl).visit entry ace := by
  simp [scanForEntry]

def canonicalOf (acl : List PosixAce) (tag : PosixAceTag) : CanonicalEntry where
  hasDefault := acl.any (PosixAce.marks true tag)
  entry := (acl.filter (PosixAce.marks false tag)).getLast?

theorem canonicalOf_append_singleton (acl : List PosixAce) (ace : PosixAce) (tag : PosixAceTag) :
    canonicalOf (acl ++ [ace]) tag = if tag = ace.tag then
        if ace.default then { canonicalOf acl tag with hasDefault := true }
        else { canonicalOf acl tag with entry := some ace }
      else canonicalOf acl tag := by
  unfold canonicalOf
  by_cases htag : tag = ace.tag
  · cases hdefault : ace.default <;> simp [PosixAce.marks, htag, hdefault]
  · have hne : ¬ace.tag = tag := Ne.symm htag
    simp [PosixAce.marks, htag, hne]

theorem lookup_requiredEntries {β : Type*} (f : PosixAceTag → β) (tag : PosixAceTag) :
    (requiredEntries.map fun tag => (tag, f tag)).lookup tag =
      if tag ∈ requiredEntries then some (f tag) else none := by
  cases tag <;> rfl

theorem canonical_scanForEntry (entry : SimplifiedAclEntry) (acl : List PosixAce) :
    (scanForEntry entry acl).canonical.entries =
      requiredEntries.map fun tag => (tag, canonicalOf acl tag) := by
  induction acl using List.reverseRecOn with
  | nil => rfl
  | append_singleton acl ace ih =>
    rw [scanForEntry_append_singleton]
    unfold EntryScan.visit Dict.get?
    rw [ih, lookup_requiredEntries]
    by_cases hmem : ace.tag ∈ requiredEntries
    · have hkey : ace.tag ∈ (scanForEntry entry acl).canonical.keys := by
        rw [Dict.keys, ih]
        simpa using hmem
      rw [if_pos hmem]
      simp only [Dict.set, dif_pos hkey, Dict.setEntries, ih, map_map]
      apply map_congr_left
      intro tag _
      rw [canonicalOf_append_singleton]
      by_cases htag : tag = ace.tag
      · rw [← htag]
        simp
      · simp [htag]
    · have hsame : ((requiredEntries.map fun tag =>
          (tag, canonicalOf (acl ++ [ace]) tag))) =
          requiredEntries.map fun tag => (tag, canonicalOf acl tag) := by
        apply map_congr_left
        intro tag htag
        have hne : tag ≠ ace.tag := by
          rintro rfl
          exact hmem htag
        rw [canonicalOf_append_singleton, if_neg hne]
      rw [if_neg hmem, hsame, ← ih]
      split_ifs <;> rfl

theorem get?_canonical (entry : SimplifiedAclEntry) (acl : List PosixAce) (tag : PosixAceTag) :
    (scanForEntry entry acl).canonical.get? tag =
      if tag ∈ requiredEntries then some (canonicalOf acl tag) else none := by
  unfold Dict.get?
  rw [canonical_scanForEntry, lookup_requiredEntries]

theorem flags_scanForEntry (entry : SimplifiedAclEntry) (acl : List PosixAce) :
    (scanForEntry entry acl).hasDefault = acl.any (grants entry true) ∧
      (scanForEntry entry acl).hasAccess = acl.any (grants entry false) ∧
      (scanForEntry entry acl).hasAccessMask = acl.any (PosixAce.marks false .mask) ∧
      (scanForEntry entry acl).hasDefaultMask = acl.any (PosixAce.marks true .mask) := by
  induction acl using List.reverseRecOn with
  | nil => exact ⟨rfl, rfl, rfl, rfl⟩
  | append_singleton acl ace ih =>
    obtain ⟨hdefault, haccess, haccessMask, hdefaultMask⟩ := ih
    have htype := idType_ne_mask entry
    simp only [any_append, any_cons, any_nil, Bool.or_false,
      ← hdefault, ← haccess, ← haccessMask, ← hdefaultMask]
    rw [scanForEntry_append_singleton]
    unfold EntryScan.visit
    rw [get?_canonical]
    by_cases hmem : ace.tag ∈ requiredEntries
    · -- a canonical entry changes none of the flags
      have hnotMask : ace.tag ≠ .mask := by
        intro heq
        rw [heq] at hmem
        revert hmem
        decide
      have hnotType : ace.tag ≠ entry.idType := by
        intro heq
        exact idType_notMem entry (heq ▸ hmem)
      rw [if_pos hmem]
      simp [grants, PosixAce.marks, hnotMask, hnotType]
    · rw [if_neg hmem]
      by_cases hmask : ace.tag = .mask
      · cases hkind : ace.default <;> simp [grants, PosixAce.marks, hmask, hkind, Ne.symm htype]
      · by_cases hprincipal : ace.tag = entry.idType ∧ ace.id = some entry.id
        · obtain ⟨htag, hid⟩ := hprincipal
          by_cases hperms : ace.perms = convertPerm entry.access
          · cases hkind : ace.default <;>
              simp [grants, PosixAce.marks, htag, hid, hperms, hkind, htype]
          · simp [grants, PosixAce.marks, htag, hid, hperms, htype]
        · have hother : ace.tag ≠ entry.idType ∨ ace.id ≠ some entry.id := by
            tauto
          have hnot : ∀ default, grants entry default ace = false := by
            unfold grants
            simp only [Bool.and_eq_false_iff, decide_eq_false_iff_not]
            tauto
          simp [hmask, hother, hnot, PosixAce.marks]

/-! ## What one request adds -/

def Complete (acl : List PosixAce) : Prop :=
  ∀ tag ∈ requiredEntries, acl.any (PosixAce.marks false tag) = true

def defaultCopy (tag : PosixAceTag) (ace : PosixAce) : PosixAce where
  tag := tag
  perms := ace.perms
  default := true
  id := ace.id
  who := none

def missingDefaults (acl : List PosixAce) : List PosixAce :=
  requiredEntries.flatMap fun tag =>
    if acl.any (PosixAce.marks true tag) then []
    else
      ((acl.filter (PosixAce.marks false tag)).getLast?.map (defaultCopy tag)).toList

def addedFor (entry : SimplifiedAclEntry) (acl : List PosixAce) :
    List PosixAce :=
  missingDefaults acl ++ (if acl.any (grants entry true) then [] else [grantedEntry entry true]) ++
    (if acl.any (grants entry false) then [] else [grantedEntry entry false]) ++
    (if acl.any (PosixAce.marks false .mask) then [] else [grantedMask false]) ++
    (if acl.any (PosixAce.marks true .mask) then [] else [grantedMask true])

structure Granted (entry : SimplifiedAclEntry) (acl : List PosixAce) : Prop where
  entries : ∀ default, acl.any (grants entry default) = true
  masks : ∀ default, acl.any (PosixAce.marks default .mask) = true
  defaults : ∀ tag ∈ requiredEntries, acl.any (PosixAce.marks true tag) = true

theorem any_append_left {p : PosixAce → Bool} {acl added : List PosixAce}
    (hany : acl.any p = true) : (acl ++ added).any p = true := by
  rw [any_append, hany, Bool.true_or]

theorem Complete.append {acl : List PosixAce} (hcomplete : Complete acl)
    (added : List PosixAce) : Complete (acl ++ added) :=
  fun tag htag => any_append_left (hcomplete tag htag)

theorem Granted.append {entry : SimplifiedAclEntry} {acl : List PosixAce}
    (hgranted : Granted entry acl) (added : List PosixAce) :
    Granted entry (acl ++ added) where
  entries := fun default => any_append_left (hgranted.entries default)
  masks := fun default => any_append_left (hgranted.masks default)
  defaults := fun tag htag => any_append_left (hgranted.defaults tag htag)

theorem mapM_eq_some_map {α β : Type*} {f : α → Option β} {g : α → β}
    {l : List α} (heach : ∀ a ∈ l, f a = some (g a)) :
    l.mapM f = some (l.map g) := by
  induction l with
  | nil => rfl
  | cons a rest ih =>
    rw [forall_mem_cons] at heach
    rw [mapM_cons, heach.1, ih heach.2]
    rfl

theorem mapM_missingDefault {acl : List PosixAce} (hcomplete : Complete acl)
    (entry : SimplifiedAclEntry) :
    ((scanForEntry entry acl).canonical.entries.mapM missingDefault).map
      List.flatten = some (missingDefaults acl) := by
  have heach : ∀ tag ∈ requiredEntries, missingDefault (tag, canonicalOf acl tag) =
        some (if acl.any (PosixAce.marks true tag) then []
          else ((acl.filter (PosixAce.marks false tag)).getLast?.map
            (defaultCopy tag)).toList) := by
    intro tag htag
    have hfound : acl.filter (PosixAce.marks false tag) ≠ [] := by
      intro hnil
      have hnone := filter_eq_nil_iff.mp hnil
      have hany := hcomplete tag htag
      rw [any_eq_true] at hany
      rcases hany with ⟨ace, hmem, hmarks⟩
      exact hnone ace hmem hmarks
    unfold missingDefault canonicalOf
    rw [getLast?_eq_some_getLast hfound]
    cases acl.any (PosixAce.marks true tag) <;> rfl
  have hall := mapM_eq_some_map heach
  rw [canonical_scanForEntry, mapM_map, Function.comp_def, hall]
  rfl

theorem addEntry_eq {acl : List PosixAce} (hcomplete : Complete acl)
    (changed : Bool) (entry : SimplifiedAclEntry) :
    addEntry (acl, changed) entry = some (acl ++ addedFor entry acl,
        changed || !(acl.any (grants entry true) && acl.any (grants entry false) &&
          acl.any (PosixAce.marks false .mask) &&
          acl.any (PosixAce.marks true .mask))) := by
  have hmissing := mapM_missingDefault hcomplete entry
  obtain ⟨hdefault, haccess, haccessMask, hdefaultMask⟩ := flags_scanForEntry entry acl
  rw [Option.map_eq_some_iff] at hmissing
  rcases hmissing with ⟨defaults, hdefaults, hflatten⟩
  unfold addEntry addedFor
  simp only [hdefaults, hdefault, haccess, haccessMask, hdefaultMask, hflatten,
    Option.map_some, append_assoc]

theorem addedFor_eq_nil {entry : SimplifiedAclEntry} {acl : List PosixAce}
    (hgranted : Granted entry acl) : addedFor entry acl = [] := by
  have hmissing : missingDefaults acl = [] := by
    unfold missingDefaults
    rw [flatMap_eq_nil_iff]
    intro tag htag
    rw [if_pos (hgranted.defaults tag htag)]
  simp [addedFor, hmissing, hgranted.entries, hgranted.masks]

theorem addEntry_of_granted {acl : List PosixAce} (hcomplete : Complete acl)
    {entry : SimplifiedAclEntry} (hgranted : Granted entry acl)
    (changed : Bool) :
    addEntry (acl, changed) entry = some (acl, changed) := by
  rw [addEntry_eq hcomplete, addedFor_eq_nil hgranted]
  simp [hgranted.entries, hgranted.masks]

theorem mem_missingDefaults {acl : List PosixAce} {ace : PosixAce} : ace ∈ missingDefaults acl ↔
    ∃ tag ∈ requiredEntries, acl.any (PosixAce.marks true tag) = false ∧
      ∃ access, (acl.filter (PosixAce.marks false tag)).getLast? =
        some access ∧ ace = defaultCopy tag access := by
  unfold missingDefaults
  rw [mem_flatMap]
  apply exists_congr
  intro tag
  cases acl.any (PosixAce.marks true tag) <;> simp [eq_comm]

theorem mem_addedFor {entry : SimplifiedAclEntry} {acl : List PosixAce} {ace : PosixAce} :
    ace ∈ addedFor entry acl ↔ ace ∈ missingDefaults acl ∨
        (∃ default, acl.any (grants entry default) = false ∧ ace = grantedEntry entry default) ∨
        ∃ default, acl.any (PosixAce.marks default .mask) = false ∧ ace = grantedMask default := by
  have hif : ∀ (b : Bool) (given : PosixAce),
      ace ∈ (if b then [] else [given]) ↔ b = false ∧ ace = given := by
    intro b given
    cases b <;> simp
  unfold addedFor
  rw [mem_append, mem_append, mem_append, mem_append, hif,
    hif, hif, hif, Bool.exists_bool, Bool.exists_bool]
  tauto

theorem granted_append_addedFor {acl : List PosixAce}
    (hcomplete : Complete acl) (entry : SimplifiedAclEntry) :
    Granted entry (acl ++ addedFor entry acl) := by
  have hnew : ∀ (p : PosixAce → Bool) (ace : PosixAce),
      (acl.any p = false → ace ∈ addedFor entry acl) → p ace = true →
        (acl ++ addedFor entry acl).any p = true := by
    intro p ace hadded hp
    cases hold : acl.any p with
    | true => exact any_append_left hold
    | false =>
      rw [any_append, Bool.or_eq_true, any_eq_true, any_eq_true]
      exact Or.inr ⟨ace, hadded hold, hp⟩
  constructor
  · intro default
    apply hnew _ (grantedEntry entry default)
    · intro hnone
      exact mem_addedFor.mpr (Or.inr (Or.inl ⟨default, hnone, rfl⟩))
    · simp [grants, grantedEntry]
  · intro default
    apply hnew _ (grantedMask default)
    · intro hnone
      exact mem_addedFor.mpr (Or.inr (Or.inr ⟨default, hnone, rfl⟩))
    · simp [PosixAce.marks, grantedMask]
  · intro tag htag
    have hany := hcomplete tag htag
    rw [any_eq_true] at hany
    rcases hany with ⟨found, hmem, hmarks⟩
    have hne : acl.filter (PosixAce.marks false tag) ≠ [] :=
      ne_nil_of_mem (mem_filter.mpr ⟨hmem, hmarks⟩)
    apply hnew _ (defaultCopy tag (List.getLast _ hne))
    · intro hnone
      exact mem_addedFor.mpr (Or.inl (mem_missingDefaults.mpr
        ⟨tag, htag, hnone, _, getLast?_eq_some_getLast hne, rfl⟩))
    · simp [PosixAce.marks, defaultCopy]

theorem addToAclPosix_run {entries : List SimplifiedAclEntry}
    {acl : List PosixAce} (hcomplete : Complete acl) (changed : Bool) :
    ∃ after changedAfter, entries.foldlM addEntry (acl, changed) = some (after, changedAfter) ∧
        acl <+: after ∧ Complete after ∧
        ∀ entry ∈ entries, Granted entry after := by
  induction entries generalizing acl changed with
  | nil => exact ⟨acl, changed, rfl, prefix_rfl, hcomplete, by simp⟩
  | cons entry rest ih =>
    obtain ⟨after, changedAfter, hrun, ⟨later, rfl⟩, hcompleteAfter, hrest⟩ :=
      ih (hcomplete.append (addedFor entry acl)) (changed ||
        !(acl.any (grants entry true) && acl.any (grants entry false) &&
          acl.any (PosixAce.marks false .mask) &&
          acl.any (PosixAce.marks true .mask)))
    refine ⟨_, changedAfter, ?_, ?_, hcompleteAfter, ?_⟩
    · rw [foldlM_cons, addEntry_eq hcomplete]
      exact hrun
    · exact (prefix_append _ _).trans (prefix_append _ _)
    · intro other hother
      rcases mem_cons.mp hother with rfl | hlater
      · exact (granted_append_addedFor hcomplete other).append later
      · exact hrest other hlater

theorem foldlM_addEntry_of_granted {entries : List SimplifiedAclEntry}
    {acl : List PosixAce} (hcomplete : Complete acl)
    (hgranted : ∀ entry ∈ entries, Granted entry acl) (changed : Bool) :
    entries.foldlM addEntry (acl, changed) = some (acl, changed) := by
  induction entries with
  | nil => rfl
  | cons entry rest ih =>
    rw [forall_mem_cons] at hgranted
    rw [foldlM_cons, addEntry_of_granted hcomplete hgranted.1]
    exact ih hgranted.2

/-! ## Triples that occur once -/

def aceKey (ace : PosixAce) : PosixAceTag × Option ℤ × Bool :=
  (ace.tag, ace.id, ace.default)

/-- No triple of tag, id and `default` occurs twice, and the three canonical
entries are there. -/
structure ValidAcl (acl : List PosixAce) : Prop where
  distinct : (acl.map aceKey).Nodup
  complete : Complete acl

/-- Entries of the ACL for the principal of a request have the permissions
that it asks for. -/
def Agrees (entry : SimplifiedAclEntry) (acl : List PosixAce) : Prop :=
  ∀ ace ∈ acl, ace.tag = entry.idType → ace.id = some entry.id →
    ace.perms = convertPerm entry.access

/-- Requests for one principal ask for the same permissions. -/
def SamePerms (first second : SimplifiedAclEntry) : Prop :=
  first.idType = second.idType → first.id = second.id →
    convertPerm first.access = convertPerm second.access

theorem map_missingDefaults_sublist (acl : List PosixAce) :
    ((missingDefaults acl).map fun ace => (ace.tag, ace.default)).Sublist
      (requiredEntries.map fun tag => (tag, true)) := by
  have hone : ∀ tag, ((if acl.any (PosixAce.marks true tag) then []
        else ((acl.filter (PosixAce.marks false tag)).getLast?.map (defaultCopy tag)).toList).map
            fun ace => (ace.tag, ace.default)).Sublist [(tag, true)] := by
    intro tag
    cases acl.any (PosixAce.marks true tag) with
    | true => simp
    | false =>
      cases (acl.filter (PosixAce.marks false tag)).getLast? <;> simp [defaultCopy]
  unfold missingDefaults
  induction requiredEntries with
  | nil => exact List.Sublist.refl []
  | cons tag rest ih =>
    rw [flatMap_cons, map_append]
    exact (hone tag).append ih

theorem nodup_addedFor (entry : SimplifiedAclEntry) (acl : List PosixAce) :
    ((addedFor entry acl).map aceKey).Nodup := by
  have hif : ∀ (b : Bool) (ace : PosixAce),
      ((if b then [] else [ace]).map fun ace => (ace.tag, ace.default)).Sublist
        [(ace.tag, ace.default)] := by
    intro b ace
    cases b <;> simp
  have hsublist : ((addedFor entry acl).map fun ace => (ace.tag, ace.default)).Sublist
        (requiredEntries.map (fun tag => (tag, true)) ++
          [(entry.idType, true)] ++ [(entry.idType, false)] ++
          [(PosixAceTag.mask, false)] ++ [(PosixAceTag.mask, true)]) := by
    unfold addedFor
    rw [map_append, map_append, map_append, map_append]
    exact ((((map_missingDefaults_sublist acl).append (hif _ _)).append
      (hif _ _)).append (hif _ _)).append (hif _ _)
  have hnodup : (requiredEntries.map (fun tag => (tag, true)) ++
      [(entry.idType, true)] ++ [(entry.idType, false)] ++
      [(PosixAceTag.mask, false)] ++ [(PosixAceTag.mask, true)]).Nodup := by
    unfold SimplifiedAclEntry.idType
    cases entry.isGroup <;> decide
  have hpairs := hsublist.nodup hnodup
  apply List.Nodup.of_map (fun key : PosixAceTag × Option ℤ × Bool =>
    (key.1, key.2.2))
  rw [map_map]
  exact hpairs

theorem aceKey_addedFor_notMem {entry : SimplifiedAclEntry}
    {acl : List PosixAce} (hagrees : Agrees entry acl) {added : PosixAce}
    (hadded : added ∈ addedFor entry acl) : aceKey added ∉ acl.map aceKey := by
  intro hmem
  rcases mem_map.mp hmem with ⟨ace, hace, hkey⟩
  simp only [aceKey, Prod.mk.injEq] at hkey
  rcases mem_addedFor.mp hadded with hmissing | hentry | hmask
  · obtain ⟨tag, -, hnone, access, -, rfl⟩ := mem_missingDefaults.mp hmissing
    have hnot := List.any_eq_false.mp hnone ace hace
    simp [PosixAce.marks, hkey, defaultCopy] at hnot
  · obtain ⟨default, hnone, rfl⟩ := hentry
    have hnot := List.any_eq_false.mp hnone ace hace
    have hperms := hagrees ace hace hkey.1 hkey.2.1
    simp [grants, hkey, hperms, grantedEntry] at hnot
  · obtain ⟨default, hnone, rfl⟩ := hmask
    have hnot := List.any_eq_false.mp hnone ace hace
    simp [PosixAce.marks, hkey, grantedMask] at hnot

theorem nodup_append_addedFor {entry : SimplifiedAclEntry}
    {acl : List PosixAce} (hdistinct : (acl.map aceKey).Nodup)
    (hagrees : Agrees entry acl) :
    ((acl ++ addedFor entry acl).map aceKey).Nodup := by
  rw [map_append, nodup_append']
  refine ⟨hdistinct, nodup_addedFor entry acl, ?_⟩
  intro key hold hnew
  rcases mem_map.mp hnew with ⟨added, hadded, rfl⟩
  exact aceKey_addedFor_notMem hagrees hadded hold

theorem agrees_append_addedFor {entry other : SimplifiedAclEntry}
    {acl : List PosixAce} (hagrees : Agrees other acl)
    (hsame : SamePerms entry other) :
    Agrees other (acl ++ addedFor entry acl) := by
  intro ace hmem htag hid
  rcases mem_append.mp hmem with hold | hnew
  · exact hagrees ace hold htag hid
  · rcases mem_addedFor.mp hnew with hmissing | hentry | hmask
    · obtain ⟨tag, hrequired, -, access, -, rfl⟩ := mem_missingDefaults.mp hmissing
      have heq : tag = other.idType := htag
      exact absurd (heq ▸ hrequired) (idType_notMem other)
    · obtain ⟨default, -, rfl⟩ := hentry
      exact hsame htag (Option.some.inj hid)
    · obtain ⟨default, -, rfl⟩ := hmask
      exact absurd htag.symm (idType_ne_mask other)

theorem nodup_of_agrees {entries : List SimplifiedAclEntry}
    {acl after : List PosixAce} {changed changedAfter : Bool}
    (hcomplete : Complete acl) (hdistinct : (acl.map aceKey).Nodup)
    (hagrees : ∀ entry ∈ entries, Agrees entry acl)
    (hsame : ∀ first ∈ entries, ∀ second ∈ entries, SamePerms first second)
    (hrun : entries.foldlM addEntry (acl, changed) = some (after, changedAfter)) :
    (after.map aceKey).Nodup := by
  induction entries generalizing acl changed with
  | nil =>
    obtain ⟨rfl, -⟩ : acl = after ∧ changed = changedAfter := by
      simpa using hrun
    exact hdistinct
  | cons entry rest ih =>
    rw [foldlM_cons, addEntry_eq hcomplete] at hrun
    apply ih (hcomplete.append _) _ _ _ hrun
    · exact nodup_append_addedFor hdistinct (hagrees entry mem_cons_self)
    · intro other hother
      exact agrees_append_addedFor (hagrees other (mem_cons_of_mem entry hother))
        (hsame entry mem_cons_self other (mem_cons_of_mem entry hother))
    · intro first hfirst second hsecond
      exact hsame first (mem_cons_of_mem entry hfirst) second
        (mem_cons_of_mem entry hsecond)

theorem perms_eq_of_nodup {acl : List PosixAce}
    (hdistinct : (acl.map aceKey).Nodup) {entry : SimplifiedAclEntry}
    (hgranted : Granted entry acl) {ace : PosixAce} (hmem : ace ∈ acl)
    (htag : ace.tag = entry.idType) (hid : ace.id = some entry.id) :
    ace.perms = convertPerm entry.access := by
  have hany := hgranted.entries ace.default
  rw [any_eq_true] at hany
  rcases hany with ⟨found, hfound, hgrants⟩
  simp only [grants, Bool.and_eq_true, decide_eq_true_eq] at hgrants
  have hkey : aceKey found = aceKey ace := by
    simp [aceKey, hgrants, htag, hid]
  have heq := inj_on_of_nodup_map hdistinct hfound hmem hkey
  rw [← heq]
  exact hgrants.1.2

/-- A call appends, a second call changes nothing, and a triple occurs twice
afterwards only where a principal is asked for, or is there, with different
permissions. -/
theorem addToAclPosix_grantsOnce {acl : List PosixAce} (hvalid : ValidAcl acl)
    (entries : List SimplifiedAclEntry) :
    ∃ after changed, addToAclPosix acl entries = some (after, changed) ∧ acl <+: after ∧
      addToAclPosix after entries = some (after, false) ∧
      ((after.map aceKey).Nodup ↔ (∀ entry ∈ entries, Agrees entry acl) ∧
          ∀ first ∈ entries, ∀ second ∈ entries, SamePerms first second) := by
  obtain ⟨after, changed, hrun, hprefix, hcomplete, hgranted⟩ :=
    @addToAclPosix_run entries acl hvalid.complete false
  refine ⟨after, changed, hrun, hprefix, foldlM_addEntry_of_granted hcomplete hgranted false, ?_⟩
  constructor
  · intro hdistinct
    constructor
    · intro entry hentry ace hmem
      exact perms_eq_of_nodup hdistinct (hgranted entry hentry) ( hprefix.subset hmem)
    · intro first hfirst second hsecond htype hid
      have hany := (hgranted first hfirst).entries false
      rw [any_eq_true] at hany
      rcases hany with ⟨ace, hmem, hgrants⟩
      simp only [grants, Bool.and_eq_true, decide_eq_true_eq] at hgrants
      obtain ⟨⟨⟨htag, hace⟩, hperms⟩, -⟩ := hgrants
      rw [← hperms]
      exact perms_eq_of_nodup hdistinct (hgranted second hsecond) hmem
        (htag.trans htype) (hace.trans (congrArg some hid))
  · rintro ⟨hagrees, hsame⟩
    exact nodup_of_agrees hvalid.complete hvalid.distinct hagrees hsame hrun

instance (acl : List PosixAce) : Decidable (Complete acl) :=
  inferInstanceAs (Decidable (∀ tag ∈ requiredEntries, acl.any (PosixAce.marks false tag) = true))

def ownerAcl : List PosixAce :=
  [⟨.userObj, ⟨true, true, true⟩, false, some (-1), none⟩,
    ⟨.groupObj, ⟨true, false, true⟩, false, some (-1), none⟩,
    ⟨.group, ⟨true, false, true⟩, false, some 545, none⟩,
    ⟨.mask, ⟨true, true, true⟩, false, some (-1), none⟩,
    ⟨.other, ⟨false, false, false⟩, false, some (-1), none⟩]

theorem addToAclPosix_grantsOnce_user : ∃ after changed,
    addToAclPosix ownerAcl [⟨false, 3000, .modify⟩] = some (after, changed) ∧ ownerAcl <+: after ∧
      addToAclPosix after [⟨false, 3000, .modify⟩] = some (after, false) ∧
      (after.map aceKey).Nodup := by
  obtain ⟨after, changed, hgrants, hkeeps, hagain, honce⟩ :=
    @addToAclPosix_grantsOnce ownerAcl ⟨by decide, by decide⟩ [⟨false, 3000, .modify⟩]
  refine ⟨after, changed, hgrants, hkeeps, hagain, honce.mpr ⟨?_, ?_⟩⟩
  · unfold Agrees
    decide
  · unfold SamePerms
    decide

/-- A grant with other permissions is added beside the one that is there. -/
theorem group_granted_twice : ValidAcl ownerAcl ∧
    ∃ after, addToAclPosix ownerAcl [⟨true, 545, .modify⟩] = some (after, true) ∧
      ¬(after.map aceKey).Nodup :=
  ⟨⟨by decide, by decide⟩, _, rfl, by decide⟩

end Middlewared.PosixAcl
