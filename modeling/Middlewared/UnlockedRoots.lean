import Middlewared.AncestorsFirst
import Middlewared.DatasetUnlock

/-!
# What a recursive unlock unlocks

A request that is accepted unlocks the locked roots that their keys open, down
from the topmost ones, whatever is at their mount paths.
-/

namespace Middlewared

open List Dict

namespace DatasetName

variable {name a : DatasetName}

theorem mem_rsplits_one : a ∈ name.rsplits 1 ↔ name.IsBelow a ∧ a ≠ [] := by
  simp only [rsplits, List.mem_map, mem_range'_1]
  constructor
  · intro hmem
    obtain ⟨i, hi, heq⟩ := hmem
    have hlength : a.length = name.length - i := by
      rw [← heq, length_take]
      omega
    refine ⟨⟨?_, ?_⟩, ?_⟩
    · rw [← heq]
      exact take_prefix _ _
    · intro hsame
      rw [hsame] at hlength
      omega
    · intro hnil
      rw [hnil, length_nil] at hlength
      omega
  · intro hbelow
    have hlt := hbelow.1.length_lt
    have hpos := length_pos_of_ne_nil hbelow.2
    refine ⟨name.length - a.length, by omega, ?_⟩
    have hindex : name.length - (name.length - a.length) = a.length := by omega
    rw [hindex]
    exact (List.prefix_iff_eq_take.mp hbelow.1.1).symm

theorem mem_rsplits_zero (hname : name ≠ []) :
    a ∈ name.rsplits 0 ↔ a = name ∨ (name.IsBelow a ∧ a ≠ []) := by
  have hpos := length_pos_of_ne_nil hname
  have hsplit : name.rsplits 0 = name :: name.rsplits 1 := by
    unfold rsplits
    rw [Nat.sub_zero]
    obtain ⟨n, hn⟩ := Nat.exists_eq_succ_of_ne_zero hpos.ne'
    rw [hn, range'_succ, map_cons]
    have hfull : name.take (n.succ - 0) = name := by
      rw [Nat.sub_zero, ← hn]
      exact take_length
    rw [hfull]
    rfl
  rw [hsplit, mem_cons, mem_rsplits_one]

theorem IsBelow.slashes_lt (hbelow : name.IsBelow a) (ha : a ≠ []) : a.slashes < name.slashes := by
  have hlt := hbelow.length_lt
  have hpos := length_pos_of_ne_nil ha
  unfold slashes
  omega

def HasParent (name a : DatasetName) : Prop :=
  name.IsBelow a ∧ a ≠ []

theorem HasParent.trans (a b c : DatasetName) (hab : a.HasParent b)
    (hbc : b.HasParent c) : a.HasParent c :=
  ⟨hab.1.trans hbc.1, hbc.2⟩

theorem not_hasParent_self (a : DatasetName) : ¬ a.HasParent a := fun hself => hself.1.2 rfl

end DatasetName

namespace EncryptedPool

open AncestorsFirst

/-! ## The loop of `unlock` -/

section

variable {zfs : Zfs} {s : EncryptedPool} {name : DatasetName}
  {state : UnlockResult} {key : Option ZfsKey}

def Opens (zfs : Zfs) (name : DatasetName) (key : Option ZfsKey) : Prop :=
  ∃ k ∈ key, k.isEmpty = false ∧ zfs.checkKey name (some k) = true

theorem makeWay_isFree (path : MountPath) : path.makeWay.IsFree := by
  cases path <;> simp [MountPath.makeWay, MountPath.IsFree]

theorem mem_skip_failed {check n : DatasetName} (hcheck : check ∈ state.failed) :
    n ∈ (skip state check name).failed ↔ n ∈ state.failed := by
  rw [skip, mem_set_iff]
  constructor
  · intro hmem
    rcases hmem with heq | hmem
    · rw [heq]
      exact hcheck
    · exact hmem
  · exact Or.inr

theorem mem_fail_failed {error : String} {n : DatasetName} :
    n ∈ (fail state name error).failed ↔ n = name ∨ n ∈ state.failed :=
  mem_set_iff

theorem unlockDataset_cases (hzfs : zfs.Lawful) :
    ((∃ check ∈ name.rsplits 0, check ∈ state.failed) ∧
      (s.unlockDataset zfs key name state).unlocked = state.unlocked ∧
      ∀ n, n ∈ (s.unlockDataset zfs key name state).failed ↔ n ∈ state.failed) ∨
    ((∀ check ∈ name.rsplits 0, check ∉ state.failed) ∧ ¬ Opens zfs name key ∧
      (s.unlockDataset zfs key name state).unlocked = state.unlocked ∧
      ∀ n, n ∈ (s.unlockDataset zfs key name state).failed ↔ n = name ∨ n ∈ state.failed) ∨
    ((∀ check ∈ name.rsplits 0, check ∉ state.failed) ∧ Opens zfs name key ∧
      (s.unlockDataset zfs key name state).unlocked = state.unlocked ++ [name] ∧
      ∀ n, n ∈ (s.unlockDataset zfs key name state).failed ↔ n ∈ state.failed) := by
  unfold unlockDataset
  split
  · rename_i check hfind
    have hcheck := find?_some hfind
    rw [decide_eq_true_eq] at hcheck
    exact Or.inl ⟨⟨check, mem_of_find?_eq_some hfind, hcheck⟩, rfl, fun n => mem_skip_failed hcheck⟩
  · rename_i hfind
    have hnone : ∀ check ∈ name.rsplits 0, check ∉ state.failed := by
      intro check hcheck
      simpa using List.find?_eq_none.mp hfind check hcheck
    refine Or.inr ?_
    split
    · rename_i hkey
      refine Or.inl ⟨hnone, ?_, rfl, fun n => mem_fail_failed⟩
      intro hopens
      obtain ⟨k, hk, hfull, _⟩ := hopens
      rw [Option.filter_eq_none_iff] at hkey
      exact hkey k hk (by simp [hfull])
    · rename_i k hkey
      rw [Option.filter_eq_some_iff] at hkey
      have hclosed : zfs.loadKey name k ≠ none → ¬ Opens zfs name key := by
        intro hload hopens
        obtain ⟨other, hother, _, hcheck⟩ := hopens
        rw [Option.mem_def, hkey.1, Option.some.injEq] at hother
        rw [← hother, ← hzfs.loadKey] at hcheck
        exact hload hcheck
      split
      · rename_i hload
        exact Or.inl ⟨hnone, hclosed (by simp [hload]), rfl, fun n => mem_fail_failed⟩
      · rename_i message hload
        exact Or.inl ⟨hnone, hclosed (by simp [hload]), rfl, fun n => mem_fail_failed⟩
      · rename_i hload
        rw [hzfs.mount name _ (makeWay_isFree _)]
        refine Or.inr ⟨hnone, ⟨k, hkey.1, by simpa using hkey.2, ?_⟩, rfl, fun n => Iff.rfl⟩
        exact (hzfs.loadKey name k).mp hload

theorem exists_failed_iff {failed : DatasetName → Prop} {α : Type*}
    {node : α → DatasetName} {bad : α → Prop} {processed rest : List α} {x : α}
    (hmarks : Marks node DatasetName.HasParent bad processed failed)
    (horder : (processed ++ x :: rest).Pairwise fun a b =>
      ¬ (node a).HasParent (node b)) :
    (∃ m, failed m ∧ (node x).HasParent m) ↔
      ∃ a ∈ processed ++ x :: rest, bad a ∧ (node x).HasParent (node a) := by
  rw [hmarks.exists_above_iff DatasetName.HasParent.trans]
  rw [exists_above_append_iff horder DatasetName.not_hasParent_self]

structure ParentsFirst {α : Type*} (node : α → DatasetName) (l : List α) :
    Prop where
  nodup : (l.map node).Nodup
  nonempty : ∀ x ∈ l, node x ≠ []
  order : l.Pairwise fun a b => ¬ (node a).HasParent (node b)

theorem ParentsFirst.not_marked {α : Type*} {node : α → DatasetName}
    {bad : α → Prop} {failed : DatasetName → Prop} {processed rest : List α}
    {x : α} (hfirst : ParentsFirst node (processed ++ x :: rest))
    (hmarks : Marks node DatasetName.HasParent bad processed failed) :
    ¬ failed (node x) := by
  intro hfailed
  obtain ⟨y, hy, hsame⟩ := hmarks.mem _ hfailed
  have hnodup := hfirst.nodup
  rw [map_append, map_cons, nodup_append] at hnodup
  exact hnodup.2.2 (node y) (List.mem_map_of_mem hy) (node x) mem_cons_self hsame

def LockedAbove (zfs : Zfs) (keyOf : EncryptedDataset → Option ZfsKey)
    (l : List EncryptedDataset) (ds : EncryptedDataset) : Prop :=
  ∃ a ∈ l, ¬ Opens zfs a.name (keyOf a) ∧ ds.name.HasParent a.name

/-- The loop of `unlock` over `l` after some of its datasets. -/
structure Unlocking (zfs : Zfs) (keyOf : EncryptedDataset → Option ZfsKey)
    (l processed : List EncryptedDataset) (state : UnlockResult) : Prop where
  marks : Marks EncryptedDataset.name DatasetName.HasParent
    (fun ds => ¬ Opens zfs ds.name (keyOf ds)) processed (· ∈ state.failed)
  unlocked : ∀ n, n ∈ state.unlocked ↔
    ∃ ds ∈ processed, ds.name = n ∧ Opens zfs ds.name (keyOf ds) ∧ ¬ LockedAbove zfs keyOf l ds

variable {l : List EncryptedDataset}

theorem Unlocking.failed_iff {processed rest : List EncryptedDataset}
    {x : EncryptedDataset} {keyOf : EncryptedDataset → Option ZfsKey}
    (hfirst : ParentsFirst EncryptedDataset.name l)
    (hl : l = processed ++ x :: rest)
    (hloop : Unlocking zfs keyOf l processed state) :
    (∃ check ∈ x.name.rsplits 0, check ∈ state.failed) ↔ LockedAbove zfs keyOf l x := by
  subst hl
  have habove := exists_failed_iff hloop.marks hfirst.order
  have hfresh : x.name ∉ state.failed := hfirst.not_marked hloop.marks
  have hname : x.name ≠ [] := hfirst.nonempty x (by simp)
  unfold LockedAbove
  rw [← habove]
  constructor
  · intro hexists
    obtain ⟨check, hcheck, hmem⟩ := hexists
    rw [DatasetName.mem_rsplits_zero hname] at hcheck
    rcases hcheck with heq | hparent
    · rw [heq] at hmem
      exact absurd hmem hfresh
    · exact ⟨check, hmem, hparent⟩
  · intro hexists
    obtain ⟨m, hmem, hparent⟩ := hexists
    refine ⟨m, ?_, hmem⟩
    rw [DatasetName.mem_rsplits_zero hname]
    exact Or.inr hparent

theorem Unlocking.step (hzfs : zfs.Lawful)
    {processed rest : List EncryptedDataset} {x : EncryptedDataset}
    {keyOf : EncryptedDataset → Option ZfsKey}
    (hfirst : ParentsFirst EncryptedDataset.name l)
    (hl : l = processed ++ x :: rest)
    (hloop : Unlocking zfs keyOf l processed state) :
    Unlocking zfs keyOf l (processed ++ [x]) (s.unlockDataset zfs (keyOf x) x.name state) := by
  have hfailed := hloop.failed_iff hfirst hl
  have hname : x.name ≠ [] := hfirst.nonempty x (by simp [hl])
  have hsame : ∀ {next : UnlockResult}, (LockedAbove zfs keyOf l x ∨ ¬ Opens zfs x.name (keyOf x)) →
      next.unlocked = state.unlocked →
      ∀ n, n ∈ next.unlocked ↔ ∃ ds ∈ processed ++ [x], ds.name = n ∧
        Opens zfs ds.name (keyOf ds) ∧ ¬ LockedAbove zfs keyOf l ds := by
    intro next hshut hunlocked n
    rw [hunlocked, hloop.unlocked n]
    simp only [mem_append, mem_singleton, or_and_right, exists_or, exists_eq_left]
    rw [or_iff_left]
    intro hx
    rcases hshut with habove | hclosed
    · exact hx.2.2 habove
    · exact hclosed hx.2.1
  rcases unlockDataset_cases (s := s) hzfs with
    ⟨hskip, hunlocked, hmem⟩ | ⟨hnone, hclosed, hunlocked, hmem⟩ |
      ⟨hnone, hopens, hunlocked, hmem⟩
  · -- passed over, below what has failed
    have habove := hfailed.mp hskip
    refine ⟨?_, hsame (Or.inl habove) hunlocked⟩
    simp only [hmem]
    apply hloop.marks.step DatasetName.HasParent.trans (fun m hm => hm)
    · exact fun m hm => Or.inl hm
    · intro _
      obtain ⟨check, hcheck, hcheckFailed⟩ := hskip
      rw [DatasetName.mem_rsplits_zero hname] at hcheck
      rcases hcheck with heq | hparent
      · exact Or.inl (heq ▸ hcheckFailed)
      · exact Or.inr ⟨check, hcheckFailed, hparent⟩
  · refine ⟨?_, hsame (Or.inr hclosed) hunlocked⟩
    simp only [hmem]
    apply hloop.marks.step DatasetName.HasParent.trans (fun m hm => Or.inr hm)
    · intro m hm
      rcases hm with heq | hold
      · exact Or.inr ⟨heq, Or.inl hclosed⟩
      · exact Or.inl hold
    · exact fun _ => Or.inl (Or.inl rfl)
  · have hfree : ¬ LockedAbove zfs keyOf l x := by
      rw [← hfailed]
      intro hexists
      obtain ⟨check, hcheck, hcheckFailed⟩ := hexists
      exact hnone check hcheck hcheckFailed
    constructor
    · simp only [hmem]
      apply hloop.marks.step DatasetName.HasParent.trans (fun m hm => hm)
      · exact fun m hm => Or.inl hm
      · exact fun hclosed => absurd hopens hclosed
    · intro n
      rw [hunlocked, mem_append, hloop.unlocked n]
      simp [hopens, hfree, eq_comm]

theorem mem_unlocked_iff (hzfs : zfs.Lawful) (hfirst : ParentsFirst EncryptedDataset.name l)
    (keyOf : EncryptedDataset → Option ZfsKey) (n : DatasetName) :
    n ∈ (l.foldl (fun state ds =>
        s.unlockDataset zfs (keyOf ds) ds.name state)
        ⟨[], Dict.empty⟩).unlocked ↔
      ∃ ds ∈ l, ds.name = n ∧ Opens zfs ds.name (keyOf ds) ∧ ¬ LockedAbove zfs keyOf l ds := by
  have hstart : Unlocking zfs keyOf l [] ⟨[], Dict.empty⟩ := by
    constructor
    · exact marks_nil nofun
    · simp
  have hloop := foldl_invariant (Unlocking zfs keyOf l) hstart fun processed x rest state hl hinv =>
      hinv.step (s := s) hzfs hfirst hl
  exact hloop.unlocked n

end

/-! ## The roots and their keys -/

section

variable {s : EncryptedPool} {id name : DatasetName} {d : Dataset}

structure IsRootUnder (s : EncryptedPool) (id : DatasetName) (d : Dataset) :
    Prop where
  mem : d ∈ poolDatasetQuery s.datasets
  isRoot : d.isEncryptionRoot = true
  encrypted : d.encrypted = true
  under : id <+: d.name

def entryOf (s : EncryptedPool) (d : Dataset) : EncryptedDataset :=
  normalize (queryEncryptedRootsKeys s.rows (fun _ => true) s.zfsKeys) d

theorem get?_queryEncryptedRootsKeys {rows : List EncryptedDatasetRow}
    {filters : DatasetName → Bool} {zfsKeys : Dict DatasetName String}
    (hname : filters name = true) :
    (queryEncryptedRootsKeys rows filters zfsKeys).get? name =
      (queryEncryptedRootsKeys rows (fun _ => true) zfsKeys).get? name := by
  suffices hfold : ∀ (later : List EncryptedDatasetRow)
      (first second : Dict DatasetName String),
      first.get? name = second.get? name →
      ((later.filter fun row => filters row.name).foldl (addRootsKey zfsKeys) first).get? name =
        (later.foldl (addRootsKey zfsKeys) second).get? name by
    unfold queryEncryptedRootsKeys
    rw [filter_true]
    exact hfold rows Dict.empty Dict.empty rfl
  intro later
  induction later with
  | nil => exact fun _ _ hsame => hsame
  | cons row rest ih =>
    intro first second hsame
    have hadd : ∀ keys : Dict DatasetName String, row.name ≠ name →
        (addRootsKey zfsKeys keys row).get? name = keys.get? name := by
      intro keys hne
      unfold addRootsKey
      split
      · exact get?_set_of_ne keys hne.symm _
      · rfl
    by_cases hrow : row.name = name
    · rw [filter_cons, if_pos (by rw [hrow]; exact hname), foldl_cons]
      apply ih
      unfold addRootsKey
      split
      · rw [hrow, get?_set_self, get?_set_self]
      · exact hsame
    · by_cases hfilter : filters row.name = true
      · rw [filter_cons, if_pos hfilter, foldl_cons]
        apply ih
        rw [hadd first hrow, hadd second hrow, hsame]
      · rw [filter_cons, if_neg hfilter]
        apply ih
        rw [hadd second hrow, hsame]

theorem normalize_rootsKeys (hname : name <+: d.name) :
    normalize (s.rootsKeys name) d = s.entryOf d := by
  unfold normalize entryOf normalize rootsKeys
  rw [get?_queryEncryptedRootsKeys (by simpa using hname)]

theorem mem_queryEncryptedDatasets {all keyLoaded : Bool} {ds : EncryptedDataset} :
    ds ∈ s.queryEncryptedDatasets name all keyLoaded ↔
      ∃ d, s.IsRootUnder name d ∧ (all || decide (d.keyLoaded = keyLoaded)) ∧ s.entryOf d = ds := by
  simp only [queryEncryptedDatasets, List.mem_map, mem_filter, Bool.and_eq_true, decide_eq_true_eq]
  apply exists_congr
  intro d
  constructor
  · intro hmem
    obtain ⟨⟨hquery, ⟨⟨hroot, hencrypted⟩, hunder⟩, hloaded⟩, heq⟩ := hmem
    refine ⟨⟨hquery, hroot, hencrypted, hunder⟩, ?_, ?_⟩
    · cases all with
      | true => rfl
      | false => cases keyLoaded <;> simpa using hloaded
    · rw [← heq, normalize_rootsKeys hunder]
  · intro hroot
    obtain ⟨hunder, hloaded, heq⟩ := hroot
    refine ⟨⟨hunder.mem, ⟨⟨hunder.isRoot, hunder.encrypted⟩, hunder.under⟩, ?_⟩, ?_⟩
    · cases all with
      | true => rfl
      | false => cases keyLoaded <;> simpa using hloaded
    · rw [← heq, normalize_rootsKeys hunder.under]

theorem mem_datasets (hroot : s.IsRootUnder id d) : d ∈ s.datasets := mem_of_mem_filter hroot.mem

theorem eq_of_name {e : Dataset} (hd : d ∈ s.datasets) (he : e ∈ s.datasets)
    (hname : d.name = e.name) : d = e :=
  inj_on_of_nodup_map s.nodup hd he hname

theorem nodup_queryEncryptedDatasets (s : EncryptedPool) (name : DatasetName)
    (all keyLoaded : Bool) :
    ((s.queryEncryptedDatasets name all keyLoaded).map EncryptedDataset.name).Nodup := by
  unfold queryEncryptedDatasets poolDatasetQuery
  rw [List.map_map, List.filter_filter]
  exact s.nodup.sublist (List.Sublist.map Dataset.name filter_sublist)

theorem parentsFirst_mergeSort {α : Type*} {node : α → DatasetName}
    {l : List α} (hnodup : (l.map node).Nodup)
    (hnonempty : ∀ x ∈ l, node x ≠ []) :
    ParentsFirst node (l.mergeSort fun a b =>
      decide ((node a).slashes ≤ (node b).slashes)) := by
  have hsorted : (l.mergeSort fun a b =>
      decide ((node a).slashes ≤ (node b).slashes)).Pairwise
        fun a b => decide ((node a).slashes ≤ (node b).slashes) = true := by
    apply pairwise_mergeSort
    · intro a b c
      simp only [decide_eq_true_eq]
      omega
    · intro a b
      simp only [Bool.or_eq_true, decide_eq_true_eq]
      omega
  constructor
  · have hperm := mergeSort_perm l fun a b : α =>
      decide ((node a).slashes ≤ (node b).slashes)
    exact (hperm.map node).nodup_iff.mpr hnodup
  · intro x hx
    exact hnonempty x (List.mem_mergeSort.mp hx)
  · apply hsorted.imp
    intro a b hle hparent
    have hlt := hparent.1.slashes_lt hparent.2
    rw [decide_eq_true_eq] at hle
    omega

end

section

variable {zfs : Zfs} {options : SummaryOptions} {name : DatasetName}
  {ds : EncryptedDataset}

theorem get?_foldl_set_map {α κ ν μ : Type*} [DecidableEq κ] (g : ν → μ)
    (k : α → κ) (f : α → ν) (l : List α) {first : Dict κ μ} {second : Dict κ ν}
    (hsame : ∀ n, first.get? n = (second.get? n).map g) (n : κ) :
    (l.foldl (fun d a => d.set (k a) (g (f a))) first).get? n =
      ((l.foldl (fun d a => d.set (k a) (f a)) second).get? n).map g := by
  induction l generalizing first second with
  | nil => exact hsame n
  | cons a rest ih =>
    apply ih
    intro n
    rw [get?_set, get?_set]
    split
    · rfl
    · exact hsame n

theorem get?_keysSupplied (options : SummaryOptions) (name : DatasetName) :
    (keysSupplied options.unlockOptions).get? name =
      ((summaryKeysSupplied options).get? name).map SuppliedKey.key := by
  unfold keysSupplied summaryKeysSupplied SummaryOptions.unlockOptions
  rw [foldl_map]
  apply get?_foldl_set_map SuppliedKey.key SummaryDataset.name
    fun ds => ⟨keyOrPassphrase ds.key ds.passphrase, ds.force⟩
  unfold Dict.ofEntries
  rw [foldl_map, foldl_map]
  exact get?_foldl_set_map SuppliedKey.key Prod.fst
    (fun entry => ⟨some entry.2, false⟩) _ fun _ => rfl

theorem assignSuppliedRecursiveKeys_eq {request : List UnlockDataset}
    (hrequest : ∀ ds ∈ request, ds.recursive = false)
    (keys : Dict DatasetName (Option String)) (names : List DatasetName) :
    assignSuppliedRecursiveKeys request keys names = keys := by
  have hnone : ∀ parent, ((Dict.ofEntries (request.map fun ds =>
      (ds.name, ds))).get? parent).any UnlockDataset.recursive = false := by
    intro parent
    cases hget : (Dict.ofEntries (request.map fun ds =>
        (ds.name, ds))).get? parent with
    | none => rfl
    | some ds =>
      rw [get?_ofEntries] at hget
      have hmem := mem_of_lookup_eq_some hget
      rw [mem_reverse, List.mem_map] at hmem
      obtain ⟨other, hother, heq⟩ := hmem
      cases heq
      exact hrequest ds hother
  unfold assignSuppliedRecursiveKeys
  induction names with
  | nil => rfl
  | cons name rest ih =>
    rw [foldl_cons]
    have hstep : ∀ keys : Dict DatasetName (Option String),
        (name.rsplits 1 ++ [["."]]).find? (fun parent =>
          ((Dict.ofEntries (request.map fun ds => (ds.name, ds))).get?
            parent).any UnlockDataset.recursive &&
            decide (parent ∈ keys)) = none := by
      simp [find?_eq_none, hnone]
    simp only [hstep, ite_self]
    exact ih

theorem Opens.checkKey (hopens : Opens zfs name
      (unlockKey (keysSupplied options.unlockOptions) ds)) :
    zfs.checkKey name (summaryKey (summaryKeysSupplied options) ds) = true := by
  obtain ⟨k, hk, _, hcheck⟩ := hopens
  have hsame : ((keysSupplied options.unlockOptions).get? ds.name).join =
      ((summaryKeysSupplied options).get? ds.name).bind SuppliedKey.key := by
    rw [get?_keysSupplied]
    cases (summaryKeysSupplied options).get? ds.name <;> rfl
  suffices hkey : summaryKey (summaryKeysSupplied options) ds = some k by
    rw [hkey]
    exact hcheck
  unfold unlockKey at hk
  rw [hsame] at hk
  unfold summaryKey
  generalize (truthy (((summaryKeysSupplied options).get? ds.name).bind
    SuppliedKey.key)).or ds.encryptionKey = dsKey at hk ⊢
  generalize ds.keyFormat = keyFormat at hk ⊢
  cases keyFormat with
  | none => exact hk
  | some format =>
    cases format with
    | hex => exact hk
    | passphrase => exact hk
    | raw =>
      cases htruthy : truthy dsKey with
      | none =>
        simp only [htruthy] at hk ⊢
        exact hk
      | some key =>
        simp only [htruthy] at hk ⊢
        rw [Option.mem_def, Option.map_eq_some_iff] at hk
        obtain ⟨bytes, hbytes, heq⟩ := hk
        rw [hbytes, ← heq]
        rfl

end

/-! ## Requests that `unlock` accepts -/

section

variable {zfs : Zfs} {s : EncryptedPool} {id name : DatasetName}

theorem getInstance_eq_ok_iff {d : Dataset} : ZFSDatasets.getInstance s.datasets name = .ok d ↔
    d ∈ poolDatasetQuery s.datasets ∧ d.name = name := by
  unfold ZFSDatasets.getInstance
  constructor
  · intro hok
    split at hok
    · rename_i found hfind
      cases hok
      exact ⟨mem_of_find?_eq_some hfind, by simpa using find?_some hfind⟩
    · cases hok
  · intro hd
    obtain ⟨hmem, hname⟩ := hd
    split
    · rename_i found hfind
      have hfound := mem_of_find?_eq_some hfind
      have hfoundName : found.name = name := by
        simpa using find?_some hfind
      rw [eq_of_name (mem_of_mem_filter hfound)
        (mem_of_mem_filter hmem) (hfoundName.trans hname.symm)]
    · rename_i hnone
      rw [find?_eq_none] at hnone
      exact absurd (by simpa using hname) (hnone d hmem)

/-- An item with a key or a passphrase, but not both, and a mount path that the
mount of a locked dataset can have. -/
structure EntryAccepted (s : EncryptedPool) (options : UnlockOptions)
    (ds : UnlockDataset) : Prop where
  key : (truthy ds.key).isSome ↔ truthy ds.passphrase = none
  path : options.force = true ∨ ds.force = true ∨
    ∃ d ∈ poolDatasetQuery s.datasets, d.name = ds.name ∧ (d.locked = true →
        datasetCanBeMounted ds.name (s.mountPath ds.name) = none)

variable {i : ℕ} {ds : UnlockDataset}

theorem keyErrors_eq_nil_iff : keyErrors i ds = [] ↔
    ((truthy ds.key).isSome ↔ truthy ds.passphrase = none) := by
  unfold keyErrors
  cases truthy ds.key <;> cases truthy ds.passphrase <;> simp

theorem pathErrors_eq_nil_iff : s.pathErrors i ds = .ok [] ↔
    ∃ d ∈ poolDatasetQuery s.datasets, d.name = ds.name ∧ (d.locked = true →
        datasetCanBeMounted ds.name (s.mountPath ds.name) = none) := by
  unfold pathErrors
  rw [bind_eq_ok_iff]
  apply exists_congr
  intro d
  rw [getInstance_eq_ok_iff, and_assoc]
  cases d.locked with
  | false => simp [pure, Except.pure]
  | true =>
    cases datasetCanBeMounted ds.name (s.mountPath ds.name) <;> simp [pure, Except.pure]

variable {options : UnlockOptions}

theorem datasetErrors_eq_nil_iff : s.datasetErrors options (ds, i) = .ok [] ↔
    s.EntryAccepted options ds := by
  have hboth : s.EntryAccepted options ds ↔
      keyErrors i ds = [] ∧ ((options.force || ds.force) = true ∨ s.pathErrors i ds = .ok []) := by
    rw [keyErrors_eq_nil_iff, pathErrors_eq_nil_iff, Bool.or_eq_true, or_assoc]
    exact ⟨fun haccepted => ⟨haccepted.key, haccepted.path⟩, fun hboth => ⟨hboth.1, hboth.2⟩⟩
  rw [hboth]
  unfold datasetErrors
  cases options.force || ds.force with
  | true => simp [pure, Except.pure]
  | false =>
    simp only [Bool.false_eq_true, if_false, false_or]
    rw [bind_eq_ok_iff]
    constructor
    · intro hok
      obtain ⟨errors, herrors, happend⟩ := hok
      have hnil := List.append_eq_nil_iff.mp (Except.ok.inj happend)
      rw [hnil.2] at herrors
      exact ⟨hnil.1, herrors⟩
    · intro hnil
      refine ⟨[], hnil.2, ?_⟩
      rw [hnil.1]
      rfl

/-- `id` is the root of a pool, or a locked root with a key. -/
structure IdAccepted (s : EncryptedPool) (id : DatasetName)
    (options : UnlockOptions) (d : Dataset) : Prop where
  locked : d.locked = true
  isRoot : d.encryptionRoot = some id
  key : (queryEncryptedRootsKeys s.rows (fun name => decide (name = id))
      s.zfsKeys).entries ≠ [] ∨ id ∈ keysSupplied options

theorem idErrors_eq_nil_iff {d : Dataset} : s.idErrors id options d = [] ↔
    (0 < id.slashes ∨ options.recursive = false → s.IdAccepted id options d) := by
  have haccepted : s.IdAccepted id options d ↔ d.locked = true ∧ d.encryptionRoot = some id ∧
      ((queryEncryptedRootsKeys s.rows (fun name => decide (name = id))
        s.zfsKeys).entries ≠ [] ∨ id ∈ keysSupplied options) :=
    ⟨fun haccepted => ⟨haccepted.locked, haccepted.isRoot, haccepted.key⟩,
      fun hall => ⟨hall.1, hall.2.1, hall.2.2⟩⟩
  rw [haccepted]
  unfold idErrors
  by_cases hchecked : 0 < id.slashes ∨ options.recursive = false
  · rw [if_pos (by simpa using hchecked)]
    simp only [hchecked, true_imp_iff]
    cases d.locked with
    | false => simp
    | true =>
      by_cases hroot : d.encryptionRoot = some id
      · simp [hroot, or_iff_not_imp_left]
      · simp [hroot]
  · rw [if_neg (by simpa using hchecked)]
    simp [hchecked]

/-- What `unlock` asks of a request. -/
structure Accepted (s : EncryptedPool) (id : DatasetName)
    (options : UnlockOptions) : Prop where
  entries : ∀ ds ∈ options.datasets, s.EntryAccepted options ds
  target : ∃ d ∈ poolDatasetQuery s.datasets, d.name = id ∧
    (0 < id.slashes ∨ options.recursive = false → s.IdAccepted id options d)
  parents : ∀ d, s.IsRootUnder (id.take 1) d → d.locked = true → ¬ id.IsBelow d.name

theorem mapM_datasetErrors_iff (l : List (UnlockDataset × ℕ)) :
    (∃ errors, l.mapM (s.datasetErrors options) = .ok errors ∧ errors.flatten = []) ↔
      ∀ entry ∈ l, s.EntryAccepted options entry.1 := by
  constructor
  · intro hok entry hentry
    obtain ⟨errors, hmap, hflat⟩ := hok
    obtain ⟨found, hfound, hentryOk⟩ := exists_mem_mapM_results hmap hentry
    rw [flatten_eq_nil_iff] at hflat
    rw [hflat found hfound] at hentryOk
    exact datasetErrors_eq_nil_iff.mp hentryOk
  · intro haccepted
    have hall : ∀ entry ∈ l, s.datasetErrors options entry = .ok [] :=
      fun entry hentry => datasetErrors_eq_nil_iff.mpr (haccepted entry hentry)
    obtain ⟨errors, hmap⟩ := exists_mapM_eq_ok fun entry hentry => ⟨[], hall entry hentry⟩
    refine ⟨errors, hmap, ?_⟩
    rw [flatten_eq_nil_iff]
    intro found hfound
    obtain ⟨entry, hentry, hok⟩ := exists_of_mem_mapM_results hmap hfound
    rw [hall entry hentry] at hok
    exact (Except.ok.inj hok).symm

theorem lockedParents_isEmpty_iff :
    (lockedParents (s.queryEncryptedDatasets (id.take 1) false false) id).isEmpty = true ↔
      ∀ d, s.IsRootUnder (id.take 1) d → d.locked = true → ¬ id.IsBelow d.name := by
  rw [List.isEmpty_iff, lockedParents, map_eq_nil_iff, filter_eq_nil_iff]
  simp only [mem_queryEncryptedDatasets, Bool.and_eq_true, decide_eq_true_eq, not_and]
  constructor
  · intro hnone d hroot hlocked
    have hloaded : d.keyLoaded = false := by
      simpa [Dataset.locked, hroot.encrypted] using hlocked
    exact hnone (s.entryOf d) ⟨d, hroot, by simpa using hloaded, rfl⟩ hlocked
  · intro hall ds hds
    obtain ⟨d, hroot, _, heq⟩ := hds
    rw [← heq]
    exact hall d hroot

theorem unlock_eq_ok_iff {result : UnlockResult}
    (hrecursive : ∀ ds ∈ options.datasets, ds.recursive = false) :
    s.unlock zfs id options = .ok result ↔ s.Accepted id options ∧
        result = (unlockNames (s.queryEncryptedDatasets (id.take 1) false false)
          id options.recursive).foldl (fun state ds =>
            s.unlockDataset zfs (unlockKey (keysSupplied options) ds) ds.name
              state) ⟨[], Dict.empty⟩ := by
  have hentries : (∀ ds ∈ options.datasets, s.EntryAccepted options ds) ↔
      ∀ entry ∈ options.datasets.zipIdx, s.EntryAccepted options entry.1 := by
    constructor
    · intro hall entry hentry
      exact hall entry.1 (fst_mem_of_mem_zipIdx hentry)
    · intro hall ds hds
      obtain ⟨i, hi⟩ := getElem?_of_mem hds
      exact hall (ds, i) (List.mem_zipIdx_iff_getElem?.mpr hi)
  unfold unlock
  simp only [assignSuppliedRecursiveKeys_eq hrecursive]
  constructor
  · intro hok
    obtain ⟨dataset, hget, hok⟩ := bind_eq_ok_iff.mp hok
    obtain ⟨errors, hmap, hok⟩ := bind_eq_ok_iff.mp hok
    obtain ⟨_, hcheck, hok⟩ := bind_eq_ok_iff.mp hok
    obtain ⟨_, hraise, hok⟩ := bind_eq_ok_iff.mp hok
    have hnil := List.append_eq_nil_iff.mp (ZFSDatasets.verrorsCheck_eq_ok hcheck)
    rw [getInstance_eq_ok_iff] at hget
    refine ⟨⟨?_, ⟨dataset, hget.1, hget.2, idErrors_eq_nil_iff.mp hnil.2⟩, ?_⟩,
      (Except.ok.inj hok).symm⟩
    · rw [hentries, ← mapM_datasetErrors_iff]
      exact ⟨errors, hmap, hnil.1⟩
    · rw [← lockedParents_isEmpty_iff]
      simpa using ZFSDatasets.raiseIf_eq_ok hraise
  · intro hboth
    obtain ⟨haccepted, hresult⟩ := hboth
    obtain ⟨dataset, hmem, hname, hid⟩ := haccepted.target
    have hmap := haccepted.entries
    rw [hentries, ← mapM_datasetErrors_iff] at hmap
    obtain ⟨errors, hmap, hflat⟩ := hmap
    have hparents := lockedParents_isEmpty_iff.mpr haccepted.parents
    rw [getInstance_eq_ok_iff.mpr ⟨hmem, hname⟩, ok_bind, hmap, ok_bind, hflat,
      idErrors_eq_nil_iff.mpr hid]
    simp only [append_nil, hparents, Bool.not_true]
    rw [hresult]
    rfl

end

/-! ## What a recursive unlock unlocks -/

section

variable {zfs : Zfs} {s : EncryptedPool} {id : DatasetName}
  {options : SummaryOptions} {d : Dataset}

/-- With the keys of the options, `unlock` opens the dataset. -/
def OpensFor (zfs : Zfs) (s : EncryptedPool) (options : SummaryOptions)
    (d : Dataset) : Prop :=
  Opens zfs d.name (unlockKey (keysSupplied options.unlockOptions) (s.entryOf d))

def GoodDownTo (s : EncryptedPool) (id : DatasetName) (good : Dataset → Prop)
    (d : Dataset) : Prop :=
  good d ∧ ∀ a, s.IsRootUnder id a → a.locked = true → d.name.IsBelow a.name → good a

/-- A recursive unlock ends with the dataset in `unlocked`. -/
def Unlocks (zfs : Zfs) (s : EncryptedPool) (id : DatasetName)
    (options : SummaryOptions) (name : DatasetName) : Prop :=
  ∃ result, s.unlock zfs id options.unlockOptions = .ok result ∧ name ∈ result.unlocked

theorem IsRootUnder.name_ne_nil (hroot : s.IsRootUnder id d) : d.name ≠ [] :=
  s.nonempty d (mem_datasets hroot)

theorem mem_unlockNames {ds : EncryptedDataset} :
    ds ∈ unlockNames (s.queryEncryptedDatasets (id.take 1) false false) id true ↔
      ∃ d, s.IsRootUnder id d ∧ d.locked = true ∧ s.entryOf d = ds := by
  simp only [unlockNames, mem_mergeSort, mem_filter,
    mem_queryEncryptedDatasets, Bool.true_or, Bool.true_and, Bool.and_eq_true,
    decide_eq_true_eq]
  constructor
  · intro hmem
    obtain ⟨⟨d, hroot, _, heq⟩, ⟨_, hunder⟩, hlocked⟩ := hmem
    rw [← heq] at hunder hlocked
    exact ⟨d, ⟨hroot.mem, hroot.isRoot, hroot.encrypted, hunder⟩, hlocked, heq⟩
  · intro hmem
    obtain ⟨d, hroot, hlocked, heq⟩ := hmem
    have hloaded : d.keyLoaded = false := by
      simpa [Dataset.locked, hroot.encrypted] using hlocked
    rw [← heq]
    refine ⟨⟨d, ⟨hroot.mem, hroot.isRoot, hroot.encrypted, ?_⟩, ?_, rfl⟩,
      ⟨hroot.name_ne_nil, hroot.under⟩, hlocked⟩
    · exact ( take_prefix 1 id).trans hroot.under
    · simpa using hloaded

theorem parentsFirst_unlockNames (s : EncryptedPool) (id : DatasetName) :
    ParentsFirst EncryptedDataset.name
      (unlockNames (s.queryEncryptedDatasets (id.take 1) false false) id true) := by
  apply parentsFirst_mergeSort
  · have hnodup := s.nodup_queryEncryptedDatasets (id.take 1) false false
    exact hnodup.sublist (List.filter_sublist.map EncryptedDataset.name)
  · intro ds hds
    have hmem := mem_of_mem_filter hds
    rw [mem_queryEncryptedDatasets] at hmem
    obtain ⟨d, hroot, _, heq⟩ := hmem
    rw [← heq]
    exact hroot.name_ne_nil

theorem unlocks_iff (hzfs : zfs.Lawful) (hroot : s.IsRootUnder id d) (hlocked : d.locked = true) :
    Unlocks zfs s id options d.name ↔ s.Accepted id options.unlockOptions ∧
        s.GoodDownTo id (OpensFor zfs s options) d := by
  have hrecursive : ∀ ds ∈ options.unlockOptions.datasets, ds.recursive = false := by
    intro ds hds
    obtain ⟨entry, _, heq⟩ := List.mem_map.mp hds
    rw [← heq]
  have hmem : d.name ∈ ((unlockNames
      (s.queryEncryptedDatasets (id.take 1) false false) id true).foldl
        (fun state ds => s.unlockDataset zfs
          (unlockKey (keysSupplied options.unlockOptions) ds) ds.name state)
        ⟨[], Dict.empty⟩).unlocked ↔
      s.GoodDownTo id (OpensFor zfs s options) d := by
    rw [mem_unlocked_iff hzfs (parentsFirst_unlockNames s id)]
    constructor
    · intro hexists
      obtain ⟨ds, hds, hname, hopens, habove⟩ := hexists
      obtain ⟨e, heRoot, _, heq⟩ := mem_unlockNames.mp hds
      rw [← heq] at hname hopens habove
      have hed : e = d := eq_of_name (mem_datasets heRoot) (mem_datasets hroot) hname
      subst hed
      refine ⟨hopens, ?_⟩
      intro a ha haLocked hbelow
      by_contra hclosed
      exact habove ⟨s.entryOf a, mem_unlockNames.mpr ⟨a, ha, haLocked, rfl⟩,
        hclosed, hbelow, ha.name_ne_nil⟩
    · intro hgood
      refine ⟨s.entryOf d, mem_unlockNames.mpr ⟨d, hroot, hlocked, rfl⟩, rfl, hgood.1, ?_⟩
      intro habove
      obtain ⟨ds, hds, hclosed, hparent⟩ := habove
      obtain ⟨a, ha, haLocked, heq⟩ := mem_unlockNames.mp hds
      rw [← heq] at hclosed hparent
      exact hclosed (hgood.2 a ha haLocked hparent.1)
  constructor
  · intro hunlocks
    obtain ⟨result, hok, hname⟩ := hunlocks
    rw [unlock_eq_ok_iff hrecursive] at hok
    rw [hok.2] at hname
    exact ⟨hok.1, hmem.mp hname⟩
  · intro hboth
    refine ⟨_, (unlock_eq_ok_iff hrecursive).mpr ⟨hboth.1, rfl⟩, ?_⟩
    exact hmem.mpr hboth.2

end

end EncryptedPool

end Middlewared
