import Middlewared.UnlockedRoots

/-!
# What the summary says of the unlock

Both loops find a failed parent of a dataset exactly when a locked root above it has no good key,
so the outcome of each is a matter of the keys.
-/

namespace Middlewared

open List

namespace EncryptedPool

open AncestorsFirst

/-! ## The loop of `encryption_summary` -/

section

variable {s : EncryptedPool} {options : SummaryOptions}
  {state : SummaryState} {ds : SummaryEntry} {failed : List DatasetName}

def MayMount (s : EncryptedPool) (options : SummaryOptions)
    (name : DatasetName) : Prop :=
  isForced options name = true ∨ datasetCanBeMounted name (s.mountPath name) = none

theorem pendingError_eq_none_iff : s.pendingError options failed ds = none ↔
    (∀ check ∈ ds.name.rsplits 1, check ∉ failed) ∧
      (ds.locked = true → s.MayMount options ds.name) := by
  have hparent : ((ds.name.rsplits 1).filter fun check =>
      decide (check ∈ failed)).getLast? = none ↔ ∀ check ∈ ds.name.rsplits 1, check ∉ failed := by
    rw [getLast?_eq_none_iff, filter_eq_nil_iff]
    simp only [decide_eq_true_eq]
  have hmount : (if ds.locked && !isForced options ds.name then
      datasetCanBeMounted ds.name (s.mountPath ds.name) else none) = none ↔
        (ds.locked = true → s.MayMount options ds.name) := by
    unfold MayMount
    cases ds.locked <;> cases isForced options ds.name <;> simp
  rw [← hparent, ← hmount]
  unfold pendingError
  generalize ((ds.name.rsplits 1).filter fun check =>
    decide (check ∈ failed)).getLast? = parent
  generalize (if ds.locked && !isForced options ds.name then
    datasetCanBeMounted ds.name (s.mountPath ds.name) else none) = mount
  cases parent <;> cases mount <;> simp

def Succeeds (s : EncryptedPool) (options : SummaryOptions)
    (ds : SummaryEntry) (failedAbove : Prop) : Prop :=
  (ds.validKey = true ∧ ¬ failedAbove ∧ (ds.locked = true → s.MayMount options ds.name)) ∨
  (ds.validKey = false ∧ ds.locked = false)

theorem summarize_done (hds : ds.unlockSuccessful = false) :
    ∃ e, (s.summarize options state ds).done = state.done ++ [e] ∧ e.name = ds.name ∧
      (e.unlockSuccessful = true ↔ s.Succeeds options ds
        (∃ check ∈ ds.name.rsplits 1, check ∈ state.failed)) := by
  have hpending := @pendingError_eq_none_iff s options ds state.failed
  unfold summarize Succeeds
  cases hvalid : ds.validKey with
  | true =>
    simp [hpending]
  | false =>
    cases hlocked : ds.locked with
    | false => exact ⟨_, rfl, rfl, by simp⟩
    | true =>
      simp [hds]

theorem mem_summarize_failed {m : DatasetName} :
    m ∈ (s.summarize options state ds).failed ↔ m ∈ state.failed ∨
      m = ds.name ∧ ((∃ check ∈ ds.name.rsplits 1, check ∈ state.failed) ∨
        ds.locked = true ∧ ds.validKey = false) := by
  have hfailed : (m ∈ if (ds.name.rsplits 1).any fun check =>
        decide (check ∈ state.failed) then state.failed ++ [ds.name]
      else state.failed) ↔ m ∈ state.failed ∨
        m = ds.name ∧ ∃ check ∈ ds.name.rsplits 1, check ∈ state.failed := by
    split <;> simp_all
  unfold summarize
  cases ds.validKey with
  | true => simpa using hfailed
  | false =>
    cases ds.locked with
    | false => simpa using hfailed
    | true =>
      simp only [Bool.false_eq_true, if_false, Bool.not_true]
      rw [mem_append, hfailed, mem_singleton]
      simp only [and_true, or_true]
      rw [or_assoc, or_iff_right_of_imp And.left]

def FailedAbove (l : List SummaryEntry) (ds : SummaryEntry) : Prop :=
  ∃ a ∈ l, (a.locked = true ∧ a.validKey = false) ∧ ds.name.HasParent a.name

/-- The loop of `encryption_summary` over `l` after some of its entries. -/
structure Summarizing (s : EncryptedPool) (options : SummaryOptions)
    (l processed : List SummaryEntry) (state : SummaryState) : Prop where
  marks : Marks SummaryEntry.name DatasetName.HasParent
    (fun ds => ds.locked = true ∧ ds.validKey = false) processed
    (· ∈ state.failed)
  done : ∀ ds ∈ processed, ∃ e ∈ state.done, e.name = ds.name
  outcome : ∀ e ∈ state.done, ∃ ds ∈ processed, e.name = ds.name ∧ (e.unlockSuccessful = true ↔
      s.Succeeds options ds (FailedAbove l ds))

theorem Summarizing.step {l processed rest : List SummaryEntry}
    {x : SummaryEntry} (hfirst : ParentsFirst SummaryEntry.name l)
    (hl : l = processed ++ x :: rest) (hx : x.unlockSuccessful = false)
    (hloop : s.Summarizing options l processed state) :
    s.Summarizing options l (processed ++ [x]) (s.summarize options state x) := by
  have hfailed : (∃ check ∈ x.name.rsplits 1, check ∈ state.failed) ↔ FailedAbove l x := by
    subst hl
    unfold FailedAbove
    rw [← exists_failed_iff hloop.marks hfirst.order]
    apply exists_congr
    intro check
    rw [DatasetName.mem_rsplits_one, and_comm]
    rfl
  obtain ⟨entry, hdone, hname, hsuccess⟩ := @summarize_done s options state x hx
  rw [hfailed] at hsuccess
  constructor
  · simp only [mem_summarize_failed]
    apply hloop.marks.step DatasetName.HasParent.trans fun m hm => Or.inl hm
    · intro m hm
      rcases hm with hold | ⟨heq, hcause⟩
      · exact Or.inl hold
      · refine Or.inr ⟨heq, ?_⟩
        rcases hcause with habove | hbad
        · obtain ⟨check, hcheck, hmem⟩ := habove
          exact Or.inr ⟨check, hmem, DatasetName.mem_rsplits_one.mp hcheck⟩
        · exact Or.inl hbad
    · exact fun hbad => Or.inl (Or.inr ⟨rfl, Or.inr hbad⟩)
  · intro ds hds
    rw [hdone]
    rw [mem_append, mem_singleton] at hds
    rcases hds with hbefore | heq
    · obtain ⟨e, he, heName⟩ := hloop.done ds hbefore
      exact ⟨e, mem_append_left _ he, heName⟩
    · rw [heq]
      exact ⟨entry, by simp, hname⟩
  · intro e he
    rw [hdone, mem_append, mem_singleton] at he
    rcases he with hbefore | heq
    · obtain ⟨ds, hds, hdsOutcome⟩ := hloop.outcome e hbefore
      exact ⟨ds, mem_append_left _ hds, hdsOutcome⟩
    · rw [heq]
      exact ⟨x, by simp, hname, hsuccess⟩

theorem exists_done {l : List SummaryEntry} (hfirst : ParentsFirst SummaryEntry.name l)
    (hfresh : ∀ ds ∈ l, ds.unlockSuccessful = false) (hds : ds ∈ l) :
    ∃ e, (l.foldl (s.summarize options) ⟨[], []⟩).done.find? (fun other =>
        decide (other.name = ds.name)) = some e ∧ e.name = ds.name ∧
      (e.unlockSuccessful = true ↔ s.Succeeds options ds (FailedAbove l ds)) := by
  have hstart : s.Summarizing options l [] ⟨[], []⟩ := by
    constructor
    · exact marks_nil fun m hm => not_mem_nil hm
    · exact fun _ hmem => absurd hmem not_mem_nil
    · exact fun _ hmem => absurd hmem not_mem_nil
  have hloop := foldl_invariant (s.Summarizing options l) hstart
    fun processed x rest state hl hinv =>
      hinv.step hfirst hl (hfresh x (by simp [hl]))
  obtain ⟨found, hfound, hname⟩ := hloop.done ds hds
  cases hfind : (l.foldl (s.summarize options) ⟨[], []⟩).done.find?
      fun other => decide (other.name = ds.name) with
  | none =>
    rw [find?_eq_none] at hfind
    exact absurd (by simpa using hname) (hfind found hfound)
  | some e =>
    have heName : e.name = ds.name := by
      simpa using find?_some hfind
    obtain ⟨x, hx, hxName, houtcome⟩ := hloop.outcome e (mem_of_find?_eq_some hfind)
    have hsame : x = ds := inj_on_of_nodup_map hfirst.nodup hx hds (hxName.symm.trans heName)
    rw [hsame] at houtcome
    exact ⟨e, rfl, heName, houtcome⟩

end

/-! ## What is reported -/

section

variable {zfs : Zfs} {s : EncryptedPool} {id : DatasetName}
  {options : SummaryOptions} {d : Dataset}

/-- The summary reports the dataset with `unlock_successful`. -/
def Reports (zfs : Zfs) (s : EncryptedPool) (id : DatasetName)
    (options : SummaryOptions) (name : DatasetName) : Prop :=
  ∃ results, s.encryptionSummary zfs id options = .ok results ∧
    ∃ e ∈ results, e.name = name ∧ e.unlockSuccessful = true

def OneKeyEach (options : SummaryOptions) : Prop :=
  ∀ ds ∈ options.datasets, truthy ds.key = none ∨ truthy ds.passphrase = none

/-- `check_key` takes the key that the summary has for the dataset. -/
def ChecksFor (zfs : Zfs) (s : EncryptedPool) (options : SummaryOptions)
    (d : Dataset) : Prop :=
  zfs.checkKey d.name (summaryKey (summaryKeysSupplied options) (s.entryOf d)) = true

theorem OpensFor.checksFor (hopens : OpensFor zfs s options d) : ChecksFor zfs s options d :=
  Opens.checkKey hopens

theorem bothGiven_eq_nil_iff (i : ℕ) (ds : SummaryDataset) :
    (match truthy ds.key, truthy ds.passphrase with
      | some _, some _ => [bothGivenError i ds.name]
      | _, _ => []) = [] ↔
      truthy ds.key = none ∨ truthy ds.passphrase = none := by
  cases truthy ds.key <;> cases truthy ds.passphrase <;> simp

theorem summaryErrors_eq_nil_iff : summaryErrors options = [] ↔ OneKeyEach options := by
  unfold summaryErrors OneKeyEach
  rw [flatMap_eq_nil_iff]
  constructor
  · intro hnil ds hds
    obtain ⟨i, hi⟩ := getElem?_of_mem hds
    exact (bothGiven_eq_nil_iff i ds).mp (hnil (ds, i) (List.mem_zipIdx_iff_getElem?.mpr hi))
  · intro hone entry hentry
    exact (bothGiven_eq_nil_iff entry.2 entry.1).mpr (hone entry.1 (fst_mem_of_mem_zipIdx hentry))

def rootEntry (zfs : Zfs) (s : EncryptedPool) (options : SummaryOptions)
    (d : Dataset) : SummaryEntry :=
  summaryEntry zfs (summaryKeysSupplied options) (s.entryOf d)

theorem mem_summaryResults {ds : SummaryEntry} : ds ∈ summaryResults zfs s id options ↔
    ∃ d, s.IsRootUnder id d ∧ rootEntry zfs s options d = ds := by
  simp only [summaryResults, mem_map, mem_queryEncryptedDatasets]
  constructor
  · intro hmem
    obtain ⟨entry, ⟨d, hroot, _, heq⟩, hds⟩ := hmem
    rw [← heq] at hds
    exact ⟨d, hroot, hds⟩
  · intro hmem
    obtain ⟨d, hroot, hds⟩ := hmem
    exact ⟨s.entryOf d, ⟨d, hroot, rfl, rfl⟩, hds⟩

theorem mem_sortBySlashes {results : List SummaryEntry} {ds : SummaryEntry} :
    ds ∈ sortBySlashes results ↔ ds ∈ results :=
  mem_mergeSort

theorem parentsFirst_summaryResults (zfs : Zfs) (s : EncryptedPool)
    (id : DatasetName) (options : SummaryOptions) :
    ParentsFirst SummaryEntry.name (sortBySlashes (summaryResults zfs s id options)) := by
  apply parentsFirst_mergeSort
  · rw [summaryResults, map_map]
    exact s.nodup_queryEncryptedDatasets id true true
  · intro ds hds
    obtain ⟨d, hroot, heq⟩ := mem_summaryResults.mp hds
    rw [← heq]
    exact hroot.name_ne_nil

theorem failedAbove_iff : FailedAbove (sortBySlashes (summaryResults zfs s id options))
      (rootEntry zfs s options d) ↔
    ¬ ∀ a, s.IsRootUnder id a → a.locked = true →
      d.name.IsBelow a.name → ChecksFor zfs s options a := by
  unfold FailedAbove
  simp only [mem_sortBySlashes, mem_summaryResults, not_forall]
  constructor
  · intro habove
    obtain ⟨entry, ⟨a, ha, heq⟩, ⟨hlocked, hinvalid⟩, hparent⟩ := habove
    rw [← heq] at hlocked hinvalid hparent
    refine ⟨a, ha, hlocked, hparent.1, ?_⟩
    intro hchecks
    exact absurd (hchecks.symm.trans hinvalid) (by decide)
  · intro habove
    obtain ⟨a, ha, hlocked, hbelow, hinvalid⟩ := habove
    refine ⟨rootEntry zfs s options a, ⟨a, ha, rfl⟩, ⟨hlocked, ?_⟩, hbelow, ha.name_ne_nil⟩
    exact Bool.eq_false_iff.mpr hinvalid

def IsReported (zfs : Zfs) (s : EncryptedPool) (id : DatasetName)
    (options : SummaryOptions) (d : Dataset) : Prop :=
  if d.locked then
    s.GoodDownTo id (ChecksFor zfs s options) d ∧ s.MayMount options d.name
  else
    ChecksFor zfs s options d → s.GoodDownTo id (ChecksFor zfs s options) d

theorem succeeds_iff : s.Succeeds options (rootEntry zfs s options d)
    (FailedAbove (sortBySlashes (summaryResults zfs s id options)) (rootEntry zfs s options d)) ↔
    IsReported zfs s id options d := by
  rw [failedAbove_iff]
  have hvalid : (rootEntry zfs s options d).validKey = true ↔ ChecksFor zfs s options d := Iff.rfl
  have hlocked : (rootEntry zfs s options d).locked = d.locked := rfl
  have hname : (rootEntry zfs s options d).name = d.name := rfl
  unfold Succeeds IsReported GoodDownTo
  rw [hlocked, hname, not_not, Bool.eq_false_iff, ne_eq, hvalid]
  cases d.locked with
  | true => simp [and_assoc]
  | false =>
    by_cases hchecks : ChecksFor zfs s options d <;> simp [hchecks]

theorem exists_summary (hone : OneKeyEach options) :
    ∃ results, s.encryptionSummary zfs id options = .ok results ∧
      ∀ d, s.IsRootUnder id d → (∃ e ∈ results, e.name = d.name) ∧ ∀ e ∈ results, e.name = d.name →
          (e.unlockSuccessful = true ↔ IsReported zfs s id options d) := by
  have hfresh : ∀ ds ∈ sortBySlashes (summaryResults zfs s id options),
      ds.unlockSuccessful = false := by
    intro ds hds
    obtain ⟨e, _, heq⟩ := mem_summaryResults.mp (mem_sortBySlashes.mp hds)
    rw [← heq]
    rfl
  have hfirst := parentsFirst_summaryResults zfs s id options
  unfold encryptionSummary
  rw [summaryErrors_eq_nil_iff.mpr hone]
  refine ⟨_, rfl, ?_⟩
  intro d hroot
  have hentry : rootEntry zfs s options d ∈ summaryResults zfs s id options :=
    mem_summaryResults.mpr ⟨d, hroot, rfl⟩
  obtain ⟨e, hfind, hname, hsuccess⟩ := exists_done (s := s) hfirst hfresh
    (mem_sortBySlashes.mpr hentry)
  rw [succeeds_iff] at hsuccess
  refine ⟨⟨e, List.mem_filterMap.mpr ⟨_, hentry, hfind⟩, hname⟩, ?_⟩
  intro other hother hotherName
  obtain ⟨ds, _, hdsFind⟩ := List.mem_filterMap.mp hother
  have hdsName : other.name = ds.name := by
    simpa using find?_some hdsFind
  -- the two entries have been looked up under one name
  have hsame : ds.name = (rootEntry zfs s options d).name := hdsName.symm.trans hotherName
  rw [hsame, hfind, Option.some.injEq] at hdsFind
  rw [← hdsFind]
  exact hsuccess

theorem oneKeyEach_of_summary {results : List SummaryEntry}
    (hok : s.encryptionSummary zfs id options = .ok results) :
    OneKeyEach options := by
  obtain ⟨_, hcheck, _⟩ := bind_eq_ok_iff.mp hok
  exact summaryErrors_eq_nil_iff.mp (ZFSDatasets.verrorsCheck_eq_ok hcheck)

theorem reports_iff (hroot : s.IsRootUnder id d) : Reports zfs s id options d.name ↔
    OneKeyEach options ∧ IsReported zfs s id options d := by
  constructor
  · intro hreports
    obtain ⟨results, hok, e, he, hname, hsuccess⟩ := hreports
    have hone := oneKeyEach_of_summary hok
    obtain ⟨found, hfound, hall⟩ := @exists_summary zfs s id options hone
    rw [hok, Except.ok.injEq] at hfound
    rw [hfound] at he
    exact ⟨hone, ((hall d hroot).2 e he hname).mp hsuccess⟩
  · intro hboth
    obtain ⟨results, hok, hall⟩ := exists_summary hboth.1
    obtain ⟨e, he, hname⟩ := (hall d hroot).1
    exact ⟨results, hok, e, he, hname, ((hall d hroot).2 e he hname).mpr hboth.2⟩

end

/-! ## When the summary predicts the unlock -/

section

variable {zfs : Zfs} {s : EncryptedPool} {id : DatasetName}
  {options : SummaryOptions} {d : Dataset}

/-- A locked root is reported exactly when a recursive unlock unlocks it, and a
summary reports every unlocked root. -/
structure Predicts (zfs : Zfs) (s : EncryptedPool) (id : DatasetName)
    (options : SummaryOptions) : Prop where
  locked : ∀ d, s.IsRootUnder id d → d.locked = true →
    (Reports zfs s id options d.name ↔ Unlocks zfs s id options d.name)
  unlocked : ∀ d, s.IsRootUnder id d → d.locked = false →
    ∀ results, s.encryptionSummary zfs id options = .ok results → Reports zfs s id options d.name

/-- The inputs on which nothing that the two treat differently matters. -/
structure Foreseen (zfs : Zfs) (s : EncryptedPool) (id : DatasetName)
    (options : SummaryOptions) : Prop where
  path : s.Accepted id options.unlockOptions → ∀ d, s.IsRootUnder id d →
    d.locked = true → s.GoodDownTo id (OpensFor zfs s options) d → s.MayMount options d.name
  /-- Where keys are valid and nothing is in the way, the request is accepted,
  and the keys are keys that `unlock` takes. -/
  request : OneKeyEach options → ∀ d, s.IsRootUnder id d → d.locked = true →
    s.GoodDownTo id (ChecksFor zfs s options) d → s.MayMount options d.name →
      s.Accepted id options.unlockOptions ∧ s.GoodDownTo id (OpensFor zfs s options) d
  above : OneKeyEach options → ∀ d, s.IsRootUnder id d → d.locked = false →
    ChecksFor zfs s options d → s.GoodDownTo id (ChecksFor zfs s options) d

theorem Accepted.oneKeyEach (haccepted : s.Accepted id options.unlockOptions) :
    OneKeyEach options := by
  intro ds hds
  have hentry := haccepted.entries _ (mem_map_of_mem hds)
  have hkey := hentry.key
  cases hsome : truthy ds.key with
  | none => exact Or.inl rfl
  | some key =>
    simpa [hsome] using hkey

theorem GoodDownTo.checks (hgood : s.GoodDownTo id (OpensFor zfs s options) d) :
    s.GoodDownTo id (ChecksFor zfs s options) d :=
  ⟨hgood.1.checksFor, fun a ha hlocked hbelow =>
    (hgood.2 a ha hlocked hbelow).checksFor⟩

/-- The summary predicts the unlock exactly when the keys and the mount paths are as
it foresees. -/
theorem predicts_iff_foreseen (hzfs : zfs.Lawful) :
    Predicts zfs s id options ↔ Foreseen zfs s id options := by
  constructor
  · intro hpredicts
    constructor
    · intro haccepted d hroot hlocked hopens
      have hreports := (hpredicts.locked d hroot hlocked).mpr
        ((unlocks_iff hzfs hroot hlocked).mpr ⟨haccepted, hopens⟩)
      have hreported := ((reports_iff hroot).mp hreports).2
      rw [IsReported, if_pos hlocked] at hreported
      exact hreported.2
    · intro hone d hroot hlocked hchecks hmount
      have hreported : IsReported zfs s id options d := by
        rw [IsReported, if_pos hlocked]
        exact ⟨hchecks, hmount⟩
      have hunlocks := (hpredicts.locked d hroot hlocked).mp
        ((reports_iff hroot).mpr ⟨hone, hreported⟩)
      exact (unlocks_iff hzfs hroot hlocked).mp hunlocks
    · intro hone d hroot hunlocked
      obtain ⟨results, hok, _⟩ := @exists_summary zfs s id options hone
      have hreports := hpredicts.unlocked d hroot hunlocked results hok
      have hreported := ((reports_iff hroot).mp hreports).2
      rw [IsReported, if_neg (by simp [hunlocked])] at hreported
      exact hreported
  · intro hforeseen
    constructor
    · intro d hroot hlocked
      rw [reports_iff hroot, unlocks_iff hzfs hroot hlocked, IsReported, if_pos hlocked]
      constructor
      · intro hreported
        exact hforeseen.request hreported.1 d hroot hlocked hreported.2.1 hreported.2.2
      · intro hunlocks
        exact ⟨hunlocks.1.oneKeyEach, hunlocks.2.checks,
          hforeseen.path hunlocks.1 d hroot hlocked hunlocks.2⟩
    · intro d hroot hunlocked results hok
      have hone := oneKeyEach_of_summary hok
      rw [reports_iff hroot, IsReported, if_neg (by simp [hunlocked])]
      exact ⟨hone, hforeseen.above hone d hroot hunlocked⟩

/-! Pools of locked roots; only the key of `tank` is in the database. -/

def oneKeyZfs : Zfs where
  checkKey _ key := decide (key = some (.text "6b"))
  loadKey _ key := if key = .text "6b" then none else some .incorrectKeyProvided
  mount _ _ := none

theorem oneKeyZfs_lawful : oneKeyZfs.Lawful where
  loadKey name key := by simp [oneKeyZfs]
  mount _ _ _ := rfl

def lockedRoot (name : DatasetName) : Dataset where
  name := name
  encrypted := true
  encryptionRoot := some name
  keyFormat := some .hex
  keyLoaded := false

def lockedPoolAt (path : MountPath) : EncryptedPool where
  datasets := [lockedRoot ["tank"]]
  rows := [⟨1, ["tank"], some "6b", none⟩]
  zfsKeys := Dict.empty
  mountPath _ := path
  mountPathAtTurn _ := path
  nodup := by decide
  nonempty := by decide
  keyFormat := by decide

def lockedTree : EncryptedPool where
  datasets := [["tank"], ["tank", "a"], ["tank", "c"], ["tank", "a", "b"],
    ["tank", "c", "d"]].map lockedRoot
  rows := [⟨1, ["tank"], some "6b", none⟩]
  zfsKeys := Dict.empty
  mountPath _ := .absent
  mountPathAtTurn _ := .absent
  nodup := by decide
  nonempty := by decide
  keyFormat := by decide

def noOptions : SummaryOptions where
  force := false
  keyFile := none
  datasets := []

def hexKey (name : DatasetName) (key : String) : SummaryDataset where
  force := false
  name := name
  key := some key
  passphrase := none

/-- The key of `tank/a` is a wrong one, and `tank/c/d` has none. -/
def threeKeys : SummaryOptions where
  force := false
  keyFile := none
  datasets := [hexKey ["tank", "a"] "00", hexKey ["tank", "c"] "6b", hexKey ["tank", "a", "b"] "6b"]

theorem pool_accepted (hmem : lockedRoot ["tank"] ∈ poolDatasetQuery s.datasets)
    (hentries : ∀ ds ∈ options.unlockOptions.datasets,
      s.EntryAccepted options.unlockOptions ds) : s.Accepted ["tank"] options.unlockOptions where
  entries := hentries
  target := ⟨lockedRoot ["tank"], hmem, rfl, by
    simp [DatasetName.slashes, SummaryOptions.unlockOptions]⟩
  parents d hroot _ hbelow := hbelow.2 (hbelow.1.eq_of_length_le hroot.under.length_le)

theorem threeKeys_opens (hd : d ∈ lockedTree.datasets)
    (hchecks : ChecksFor oneKeyZfs lockedTree threeKeys d) :
    OpensFor oneKeyZfs lockedTree threeKeys d := by
  simp only [lockedTree, map_cons, map_nil, mem_cons, not_mem_nil, or_false] at hd
  rcases hd with h | h | h | h | h
  · rw [h]
    exact ⟨.text "6b", rfl, rfl, rfl⟩
  · rw [h] at hchecks
    cases hchecks
  · rw [h]
    exact ⟨.text "6b", rfl, rfl, rfl⟩
  · rw [h]
    exact ⟨.text "6b", rfl, rfl, rfl⟩
  · rw [h] at hchecks
    cases hchecks

theorem threeKeys_accepted : lockedTree.Accepted ["tank"] threeKeys.unlockOptions := by
  apply pool_accepted (mem_cons_self ..)
  intro ds hds
  simp only [threeKeys, SummaryOptions.unlockOptions, map_cons, map_nil, mem_cons,
    not_mem_nil, or_false] at hds
  refine ⟨?_, Or.inr (Or.inr ⟨lockedRoot ds.name, ?_, rfl, fun _ => rfl⟩)⟩
  · rcases hds with h | h | h <;> rw [h] <;> decide
  · rcases hds with h | h | h <;> rw [h] <;> unfold lockedTree <;> decide

theorem threeKeys_predicts : Predicts oneKeyZfs lockedTree ["tank"] threeKeys := by
  refine (predicts_iff_foreseen oneKeyZfs_lawful).mpr ⟨?_, ?_, ?_⟩
  · exact fun _ d _ _ _ => Or.inr rfl
  · intro _ d hroot _ hchecks _
    exact ⟨threeKeys_accepted, threeKeys_opens (mem_datasets hroot) hchecks.1,
      fun a ha hlocked hbelow =>
        threeKeys_opens (mem_datasets ha) (hchecks.2 a ha hlocked hbelow)⟩
  · intro _ d hroot hunlocked
    have hmem := mem_datasets hroot
    rw [lockedTree, mem_map] at hmem
    obtain ⟨name, _, rfl⟩ := hmem
    cases hunlocked

/-- The summary counts an occupied mount path as a failure, the unlock moves it away. -/
theorem occupied_notPredicted :
    ¬ Predicts oneKeyZfs (lockedPoolAt .directory) ["tank"] noOptions := by
  intro hpredicts
  have hroot : (lockedPoolAt .directory).IsRootUnder ["tank"] (lockedRoot ["tank"]) :=
    ⟨mem_cons_self .., rfl, rfl, prefix_refl _⟩
  have hopens : (lockedPoolAt .directory).GoodDownTo ["tank"]
      (OpensFor oneKeyZfs (lockedPoolAt .directory) noOptions) (lockedRoot ["tank"]) :=
    ⟨⟨.text "6b", rfl, rfl, rfl⟩, fun a ha _ hbelow =>
      absurd (hbelow.1.eq_of_length_le ha.under.length_le) hbelow.2⟩
  have hunlocks : Unlocks oneKeyZfs (lockedPoolAt .directory) ["tank"] noOptions ["tank"] :=
    (unlocks_iff oneKeyZfs_lawful hroot rfl).mpr ⟨pool_accepted (mem_cons_self ..) nofun, hopens⟩
  have hreports := (hpredicts.locked _ hroot rfl).mpr hunlocks
  have hreported := ((reports_iff hroot).mp hreports).2
  rcases hreported.2 with hforced | hfree
  · cases hforced
  · cases hfree

end

end EncryptedPool

end Middlewared
