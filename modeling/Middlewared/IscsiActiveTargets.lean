import Middlewared.DictSpelling
import Middlewared.TargetToExtent

/-!
# The active targets of iSCSI

A target is active when it has extents and none of them is disabled or locked.
-/

namespace Middlewared

open List Dict

namespace Dict

variable {κ ν : Type*} [DecidableEq κ]

def without (d : Dict κ ν) (keys : List κ) : Dict κ ν where
  entries := d.entries.filter fun entry => entry.1 ∉ keys
  nodup := d.nodup.sublist (List.filter_sublist.map Prod.fst)

@[simp] theorem without_nil (d : Dict κ ν) : d.without [] = d := by
  simp [without]

theorem erase_without (d : Dict κ ν) (k : κ) (keys : List κ) :
    (d.erase k).without keys = d.without (k :: keys) := by
  unfold without erase
  simp [Bool.and_comm]

theorem foldl_erase (d : Dict κ ν) (keys : List κ) : keys.foldl erase d = d.without keys := by
  induction keys generalizing d with
  | nil => rw [foldl_nil, without_nil]
  | cons k keys ih => rw [foldl_cons, ih, erase_without]

end Dict

structure IscsiTarget where
  id : ℤ
  name : String

structure IscsiExtentState where
  id : ℤ
  (enabled locked : Bool)

structure IscsiConfig where
  targets : List IscsiTarget
  extents : List IscsiExtentState
  targetExtents : List TargetToExtent
  targets_nodup : (targets.map IscsiTarget.id).Nodup
  extents_nodup : (extents.map IscsiExtentState.id).Nodup

/-- `del` of a key that is not there. -/
inductive ActiveTargetsError where
  | keyError (key : ℤ)
deriving DecidableEq

namespace IscsiConfig

def IsBad (extent : IscsiExtentState) : Prop :=
  extent.enabled = false ∨ extent.locked = true

instance (extent : IscsiExtentState) : Decidable (IsBad extent) :=
  inferInstanceAs (Decidable (_ ∨ _))

def badExtents (config : IscsiConfig) : List ℤ :=
  (config.extents.filter fun extent => IsBad extent).map IscsiExtentState.id

def targetNames (config : IscsiConfig) : Dict ℤ String :=
  Dict.ofEntries (config.targets.map fun t => (t.id, t.name))

def assoc (config : IscsiConfig) : Dict ℤ ℤ :=
  Dict.ofEntries (config.targetExtents.map fun row => (row.extent, row.target))

/-- `del targets[assoc[bad_extent]]` -/
def deleteTarget (assoc : Dict ℤ ℤ) (targets : Dict ℤ String)
    (badExtent : ℤ) : Except ActiveTargetsError (Dict ℤ String) :=
  match assoc.get? badExtent with
  | none => .error (.keyError badExtent)
  | some target =>
    if target ∈ targets then .ok (targets.erase target)
    else .error (.keyError target)

def discount (assoc : Dict ℤ ℤ) (targets : Dict ℤ String) : Dict ℤ String :=
  targets.keys.foldl (fun targets target =>
      if target ∈ assoc.entries.map Prod.snd then targets
      else targets.erase target)
    targets

def activeTargets (config : IscsiConfig) :
    Except ActiveTargetsError (List String) := do
  let targets ← config.badExtents.foldlM (deleteTarget config.assoc)
    config.targetNames
  .ok ((discount config.assoc targets).entries.map Prod.snd)

def IsActive (config : IscsiConfig) (target : IscsiTarget) : Prop :=
  (∃ row ∈ config.targetExtents, row.target = target.id) ∧
    ∀ row ∈ config.targetExtents, row.target = target.id →
      ∀ extent ∈ config.extents, extent.id = row.extent →
        extent.enabled = true ∧ extent.locked = false

instance (config : IscsiConfig) (target : IscsiTarget) :
    Decidable (config.IsActive target) :=
  inferInstanceAs (Decidable (_ ∧ _))

def activeNames (config : IscsiConfig) : List String :=
  (config.targets.filter fun target => config.IsActive target).map IscsiTarget.name

def MapsOnce (config : IscsiConfig) : Prop :=
  (config.targetExtents.map TargetToExtent.extent).Nodup

instance (config : IscsiConfig) : Decidable config.MapsOnce :=
  inferInstanceAs (Decidable (List.Nodup _))

/-- Each disabled or locked extent is mapped to a target, and no two of them to
one target. -/
def BadExtentsApart (config : IscsiConfig) : Prop :=
  (∀ extent ∈ config.extents, IsBad extent → ∃ row ∈ config.targetExtents, row.extent = extent.id ∧
      row.target ∈ config.targets.map IscsiTarget.id) ∧
  ∀ row ∈ config.targetExtents, ∀ other ∈ config.targetExtents,
    row.extent ∈ config.badExtents → other.extent ∈ config.badExtents →
      row.target = other.target → row.extent = other.extent

instance (config : IscsiConfig) : Decidable config.BadExtentsApart :=
  inferInstanceAs (Decidable (_ ∧ _))

variable {config : IscsiConfig} {assoc : Dict ℤ ℤ} {targets : Dict ℤ String}

theorem deleteTarget_eq_ok_iff {bad : ℤ} {next : Dict ℤ String} :
    deleteTarget assoc targets bad = .ok next ↔
      ∃ target, assoc.get? bad = some target ∧ target ∈ targets ∧ targets.erase target = next := by
  unfold deleteTarget
  cases assoc.get? bad with
  | none => simp
  | some target =>
    by_cases hmem : target ∈ targets <;> simp [hmem]

theorem foldlM_deleteTarget_eq_ok_iff {bads : List ℤ} {result : Dict ℤ String} :
    bads.foldlM (deleteTarget assoc) targets = .ok result ↔
      ∃ deleted, bads.map assoc.get? = deleted.map some ∧ deleted.Nodup ∧
        (∀ target ∈ deleted, target ∈ targets) ∧
        targets.without deleted = result := by
  induction bads generalizing targets with
  | nil =>
    constructor
    · intro hok
      exact ⟨[], rfl, nodup_nil, by simp,
        by simpa [pure, Except.pure] using hok⟩
    · rintro ⟨deleted, hmap, _, _, hresult⟩
      rw [map_nil, eq_comm, map_eq_nil_iff] at hmap
      subst deleted
      rw [← hresult, Dict.without_nil]
      rfl
  | cons bad rest ih =>
    rw [foldlM_cons, bind_eq_ok_iff]
    constructor
    · rintro ⟨next, hnext, hrest⟩
      obtain ⟨target, hget, hmem, rfl⟩ := deleteTarget_eq_ok_iff.mp hnext
      obtain ⟨deleted, hmap, hnodup, hall, hresult⟩ := ih.mp hrest
      have hnew : target ∉ deleted := by
        intro hdeleted
        exact (mem_erase_iff.mp (hall target hdeleted)).1 rfl
      refine ⟨target :: deleted, ?_, List.nodup_cons.mpr ⟨hnew, hnodup⟩, ?_, ?_⟩
      · rw [map_cons, map_cons, hget, hmap]
      · rw [forall_mem_cons]
        exact ⟨hmem, fun other hother =>
          (mem_erase_iff.mp (hall other hother)).2⟩
      · rw [← hresult, Dict.erase_without]
    · rintro ⟨deleted, hmap, hnodup, hall, hresult⟩
      cases deleted with
      | nil => simp at hmap
      | cons target deleted =>
        rw [map_cons, map_cons, List.cons.injEq] at hmap
        rw [nodup_cons] at hnodup
        rw [forall_mem_cons] at hall
        refine ⟨targets.erase target, deleteTarget_eq_ok_iff.mpr ⟨target, hmap.1, hall.1, rfl⟩,
          ih.mpr ⟨deleted, hmap.2, hnodup.2, ?_, ?_⟩⟩
        · intro other hother
          refine mem_erase_iff.mpr ⟨?_, hall.2 other hother⟩
          rintro rfl
          exact hnodup.1 hother
        · rw [Dict.erase_without, hresult]

theorem discount_eq (assoc : Dict ℤ ℤ) (targets : Dict ℤ String) : discount assoc targets =
    targets.without (targets.keys.filter fun target =>
        target ∉ assoc.entries.map Prod.snd) := by
  rw [← Dict.foldl_erase, foldl_filter, discount]
  congr 1
  funext kept target
  by_cases hmem : target ∈ assoc.entries.map Prod.snd <;> simp [hmem]

theorem entries_assoc (honce : config.MapsOnce) : config.assoc.entries =
    config.targetExtents.map fun row => (row.extent, row.target) := by
  apply entries_ofEntries_of_nodup
  rw [List.map_map]
  exact honce

variable {target : ℤ}

theorem assoc_get?_eq_some_iff (honce : config.MapsOnce) {extent : ℤ} :
    config.assoc.get? extent = some target ↔ ∃ row ∈ config.targetExtents, row.extent = extent ∧
        row.target = target := by
  rw [← mem_entries_iff, entries_assoc honce]
  simp

theorem mem_values_assoc_iff (honce : config.MapsOnce) :
    target ∈ config.assoc.entries.map Prod.snd ↔
      ∃ row ∈ config.targetExtents, row.target = target := by
  rw [entries_assoc honce]
  simp

theorem entries_targetNames (config : IscsiConfig) :
    config.targetNames.entries = config.targets.map fun t => (t.id, t.name) := by
  apply entries_ofEntries_of_nodup
  rw [List.map_map]
  exact config.targets_nodup

theorem mem_targetNames_iff : target ∈ config.targetNames ↔
    target ∈ config.targets.map IscsiTarget.id := by
  rw [Dict.mem_def, Dict.keys, entries_targetNames, List.map_map]
  exact Iff.rfl

theorem mem_badExtents_iff {extent : ℤ} : extent ∈ config.badExtents ↔
    ∃ row ∈ config.extents, IsBad row ∧ row.id = extent := by
  simp [badExtents, and_assoc]

theorem badExtents_nodup (config : IscsiConfig) : config.badExtents.Nodup :=
  config.extents_nodup.sublist (List.filter_sublist.map _)

def Deletes (config : IscsiConfig) (deleted : List ℤ) : Prop :=
  config.badExtents.map config.assoc.get? = deleted.map some ∧
    deleted.Nodup ∧ ∀ target ∈ deleted, target ∈ config.targetNames

variable {deleted : List ℤ}

theorem Deletes.mem_iff (hdeletes : config.Deletes deleted) : target ∈ deleted ↔
    ∃ extent ∈ config.badExtents, config.assoc.get? extent = some target := by
  have hsome : target ∈ deleted ↔ some target ∈ deleted.map some := by simp
  rw [hsome, ← hdeletes.1, List.mem_map]

theorem badExtentsApart_of_deletes (honce : config.MapsOnce)
    (hdeletes : config.Deletes deleted) : config.BadExtentsApart := by
  have hnodup : (config.badExtents.map config.assoc.get?).Nodup := by
    rw [hdeletes.1]
    exact hdeletes.2.1.map (Option.some_injective ℤ)
  constructor
  · intro extent hextent hbad
    have hmem : extent.id ∈ config.badExtents := mem_badExtents_iff.mpr ⟨extent, hextent, hbad, rfl⟩
    have hfound : config.assoc.get? extent.id ∈ deleted.map some := by
      rw [← hdeletes.1]
      exact List.mem_map_of_mem hmem
    obtain ⟨target, htarget, hget⟩ := List.mem_map.mp hfound
    obtain ⟨row, hrow, hrowExtent, hrowTarget⟩ := (assoc_get?_eq_some_iff honce).mp hget.symm
    refine ⟨row, hrow, hrowExtent, ?_⟩
    rw [hrowTarget]
    exact mem_targetNames_iff.mp (hdeletes.2.2 target htarget)
  · intro row hrow other hother hbad hotherBad hsame
    have hget := (assoc_get?_eq_some_iff honce).mpr ⟨row, hrow, rfl, rfl⟩
    have hotherGet := (assoc_get?_eq_some_iff honce).mpr ⟨other, hother, rfl, rfl⟩
    apply inj_on_of_nodup_map hnodup hbad hotherBad
    rw [hget, hotherGet, hsame]

theorem exists_deletes_of_badExtentsApart (honce : config.MapsOnce)
    (hapart : config.BadExtentsApart) :
    ∃ deleted, config.Deletes deleted := by
  have hrows : ∀ extent ∈ config.badExtents, ∃ row ∈ config.targetExtents, row.extent = extent ∧
        row.target ∈ config.targets.map IscsiTarget.id := by
    intro extent hmem
    obtain ⟨state, hstate, hbad, rfl⟩ := mem_badExtents_iff.mp hmem
    exact hapart.1 state hstate hbad
  have hget : ∀ extent ∈ config.badExtents,
      config.assoc.get? extent = some ((config.assoc.get? extent).getD 0) := by
    intro extent hmem
    obtain ⟨row, hrow, hextent, _⟩ := hrows extent hmem
    rw [(assoc_get?_eq_some_iff honce).mpr ⟨row, hrow, hextent, rfl⟩]
    rfl
  refine ⟨config.badExtents.map fun extent =>
    (config.assoc.get? extent).getD 0, ?_, ?_, ?_⟩
  · rw [List.map_map]
    exact map_congr_left hget
  · apply (badExtents_nodup config).map_on
    intro extent hmem other hother hsame
    have hextent := hget extent hmem
    have hotherExtent := hget other hother
    rw [hsame] at hextent
    obtain ⟨row, hrow, rfl, hrowTarget⟩ := (assoc_get?_eq_some_iff honce).mp hextent
    obtain ⟨otherRow, hotherRow, rfl, hotherTarget⟩ :=
      (assoc_get?_eq_some_iff honce).mp hotherExtent
    exact hapart.2 row hrow otherRow hotherRow hmem hother (hrowTarget.trans hotherTarget.symm)
  · intro target htarget
    obtain ⟨extent, hmem, rfl⟩ := List.mem_map.mp htarget
    obtain ⟨row, hrow, hextent, htargets⟩ := hrows extent hmem
    rw [(assoc_get?_eq_some_iff honce).mpr ⟨row, hrow, hextent, rfl⟩]
    exact mem_targetNames_iff.mpr htargets

/-! ## What is left -/

theorem isActive_iff (config : IscsiConfig) (target : IscsiTarget) : config.IsActive target ↔
    (∃ row ∈ config.targetExtents, row.target = target.id) ∧
      ¬ ∃ row ∈ config.targetExtents, row.target = target.id ∧
        row.extent ∈ config.badExtents := by
  apply and_congr_right'
  constructor
  · rintro hall ⟨row, hrow, htarget, hmem⟩
    obtain ⟨extent, hextent, hbad, hid⟩ := mem_badExtents_iff.mp hmem
    have hgood := hall row hrow htarget extent hextent hid
    unfold IsBad at hbad
    rw [hgood.1, hgood.2] at hbad
    simp at hbad
  · intro hnone row hrow htarget extent hextent hid
    have hgood : ¬ IsBad extent := by
      intro hbad
      exact hnone ⟨row, hrow, htarget, mem_badExtents_iff.mpr ⟨extent, hextent, hbad, hid⟩⟩
    simpa [IsBad] using hgood

theorem Deletes.values_eq (honce : config.MapsOnce)
    (hdeletes : config.Deletes deleted) : (discount config.assoc
    (config.targetNames.without deleted)).entries.map Prod.snd = config.activeNames := by
  have hkept : ∀ target ∈ config.targets,
      ((target.id ∉ (config.targetNames.without deleted).keys.filter
          fun id => id ∉ config.assoc.entries.map Prod.snd) ∧
        target.id ∉ deleted) ↔ config.IsActive target := by
    intro target htarget
    have hdeleted : target.id ∈ deleted ↔ ∃ row ∈ config.targetExtents, row.target = target.id ∧
          row.extent ∈ config.badExtents := by
      rw [hdeletes.mem_iff]
      simp only [assoc_get?_eq_some_iff honce]
      constructor
      · rintro ⟨extent, hmem, row, hrow, rfl, hrowTarget⟩
        exact ⟨row, hrow, hrowTarget, hmem⟩
      · rintro ⟨row, hrow, hrowTarget, hmem⟩
        exact ⟨row.extent, hmem, row, hrow, rfl, hrowTarget⟩
    have hkey : target.id ∈ (config.targetNames.without deleted).keys ↔ target.id ∉ deleted := by
      have hname : (target.id, target.name) ∈ config.targetNames.entries := by
        rw [entries_targetNames]
        exact List.mem_map_of_mem (f := fun t => (t.id, t.name)) htarget
      simp only [Dict.keys, Dict.without, List.mem_map, mem_filter, decide_eq_true_eq]
      constructor
      · rintro ⟨entry, ⟨_, hnot⟩, hid⟩
        exact hid ▸ hnot
      · intro hnot
        exact ⟨_, ⟨hname, hnot⟩, rfl⟩
    rw [isActive_iff, ← hdeleted, mem_filter, hkey, decide_eq_true_eq, mem_values_assoc_iff honce]
    by_cases hmem : target.id ∈ deleted <;> simp [hmem]
  rw [discount_eq]
  change (((config.targetNames.entries.filter _).filter _).map Prod.snd) = _
  rw [List.filter_filter, entries_targetNames, List.filter_map, List.map_map]
  have hfilter : config.targets.filter ((fun entry : ℤ × String =>
        decide (entry.1 ∉ (config.targetNames.without deleted).keys.filter
          fun id => decide (id ∉ config.assoc.entries.map Prod.snd)) &&
            decide (entry.1 ∉ deleted)) ∘ fun t => (t.id, t.name)) =
      config.targets.filter fun target => config.IsActive target := by
    apply filter_congr
    intro target htarget
    rw [Bool.eq_iff_iff]
    simpa using hkept target htarget
  rw [hfilter]
  rfl

theorem activeTargets_eq_ok_iff (honce : config.MapsOnce) {names : List String} :
    config.activeTargets = .ok names ↔ config.BadExtentsApart ∧ names = config.activeNames := by
  unfold activeTargets
  rw [bind_eq_ok_iff]
  simp only [foldlM_deleteTarget_eq_ok_iff, Except.ok.injEq]
  constructor
  · rintro ⟨targets, ⟨deleted, hmap, hnodup, hall, rfl⟩, rfl⟩
    have hdeletes : config.Deletes deleted := ⟨hmap, hnodup, hall⟩
    exact ⟨badExtentsApart_of_deletes honce hdeletes, hdeletes.values_eq honce⟩
  · rintro ⟨hapart, rfl⟩
    obtain ⟨deleted, hdeletes⟩ := exists_deletes_of_badExtentsApart honce hapart
    exact ⟨_, ⟨deleted, hdeletes.1, hdeletes.2.1, hdeletes.2.2, rfl⟩, hdeletes.values_eq honce⟩

/-- The active targets are found exactly where the disabled and locked extents
belong to different targets, and to one each. -/
theorem activeTargets_exact_iff (honce : config.MapsOnce) :
    config.activeTargets = .ok config.activeNames ↔ config.BadExtentsApart := by
  rw [activeTargets_eq_ok_iff honce]
  exact and_iff_left rfl

theorem activeTargets_exact_iff_one_locked :
    IscsiConfig.activeTargets
      { targets := [⟨1, "disk"⟩, ⟨2, "backup"⟩, ⟨3, "spare"⟩]
        extents := [⟨1, true, false⟩, ⟨2, true, true⟩]
        targetExtents := [⟨1, 1, 1, 0⟩, ⟨2, 2, 2, 0⟩]
        targets_nodup := by decide
        extents_nodup := by decide } =
      .ok (IscsiConfig.activeNames
        { targets := [⟨1, "disk"⟩, ⟨2, "backup"⟩, ⟨3, "spare"⟩]
          extents := [⟨1, true, false⟩, ⟨2, true, true⟩]
          targetExtents := [⟨1, 1, 1, 0⟩, ⟨2, 2, 2, 0⟩]
          targets_nodup := by decide
          extents_nodup := by decide }) :=
  (activeTargets_exact_iff (by decide)).mpr (by decide)

/-- A disabled extent without a target, and a target with two bad extents. -/
theorem activeTargets_not_exact :
    (¬ ∀ config : IscsiConfig, config.MapsOnce →
      config.targetExtents = [] →
        config.activeTargets = .ok config.activeNames) ∧
    (¬ ∀ config : IscsiConfig, config.MapsOnce →
      (∀ extent ∈ config.extents,
        extent.id ∈ config.targetExtents.map TargetToExtent.extent) →
        config.activeTargets = .ok config.activeNames) := by
  constructor
  · intro hall
    have hunmapped := hall
      { targets := [⟨1, "disk"⟩]
        extents := [⟨1, false, false⟩]
        targetExtents := []
        targets_nodup := by decide
        extents_nodup := by decide } (by decide) rfl
    revert hunmapped
    decide
  · intro hall
    have htwice := hall
      { targets := [⟨1, "disk"⟩]
        extents := [⟨1, false, false⟩, ⟨2, true, true⟩]
        targetExtents := [⟨1, 1, 1, 0⟩, ⟨2, 1, 2, 1⟩]
        targets_nodup := by decide
        extents_nodup := by decide } (by decide) (by decide)
    revert htwice
    decide

end IscsiConfig

end Middlewared
