import Middlewared.UnlockPrediction

/-!
# Where each root ends after an unlock

Whatever ZFS answers, every root that `unlock` considers ends in one place: among the unlocked
ones, as a failure of its own, or in the skipped list of the nearest root above it that failed.
-/

namespace Middlewared

open Dict Option List

namespace EncryptedPool

open AncestorsFirst

def attempt (zfs : Zfs) (s : EncryptedPool) (key : Option ZfsKey)
    (name : DatasetName) : Option String :=
  match key.filter fun key => !key.isEmpty with
  | none => some "Missing key"
  | some key =>
    match zfs.loadKey name key with
    | some .incorrectKeyProvided => some "Invalid Key"
    | some (.other message) => some message
    | none =>
      (zfs.mount name (s.mountPathAtTurn name).makeWay).map fun error =>
        "Failed to mount dataset: " ++ error

/-- The dataset is a key of `failed`, with this error. -/
def FailedWith (state : UnlockResult) (name : DatasetName) (error : String) :
    Prop :=
  ∃ failure, state.failed.get? name = some failure ∧ failure.error = some error

def SkippedUnder (state : UnlockResult) (root name : DatasetName) : Prop :=
  ∃ failure, state.failed.get? root = some failure ∧ name ∈ failure.skipped

/-- Of the datasets above `name` that failed, `root` is the nearest. -/
def NearestFailed (state : UnlockResult) (root name : DatasetName) : Prop :=
  name.HasParent root ∧ root ∈ state.failed ∧ ∀ other ∈ state.failed, name.HasParent other →
      other = root ∨ root.HasParent other

structure EndsUnlocked (state : UnlockResult) (name : DatasetName) : Prop where
  unlocked : name ∈ state.unlocked
  notFailed : name ∉ state.failed
  notSkipped : ∀ root, ¬ SkippedUnder state root name

structure EndsFailed (state : UnlockResult) (name : DatasetName)
    (error : String) : Prop where
  notUnlocked : name ∉ state.unlocked
  failed : FailedWith state name error
  notSkipped : ∀ root, ¬ SkippedUnder state root name

structure EndsSkipped (state : UnlockResult) (name : DatasetName) : Prop where
  notUnlocked : name ∉ state.unlocked
  notFailed : name ∉ state.failed
  skipped : ∃ root, SkippedUnder state root name ∧ NearestFailed state root name ∧
    ∀ other, SkippedUnder state other name → other = root

/-- The place of a dataset for which `error` is what its key gives. -/
def EndsOnce (state : UnlockResult) (name : DatasetName)
    (error : Option String) : Prop :=
  match error with
  | none => EndsUnlocked state name ∨ EndsSkipped state name
  | some error => EndsFailed state name error ∨ EndsSkipped state name

def UnlockedBefore (state : UnlockResult) (above name : DatasetName) : Prop :=
  ∃ before after, state.unlocked = before ++ name :: after ∧ above ∈ before

section

variable {zfs : Zfs} {s : EncryptedPool} {name : DatasetName}
  {state : UnlockResult} {key : Option ZfsKey}

theorem unlockDataset_eq : s.unlockDataset zfs key name state =
      match (name.rsplits 0).find? fun check =>
        decide (check ∈ state.failed) with
      | some check => skip state check name
      | none =>
        match s.attempt zfs key name with
        | some error => fail state name error
        | none => { state with unlocked := state.unlocked ++ [name] } := by
  unfold unlockDataset attempt
  cases (name.rsplits 0).find? fun check => decide (check ∈ state.failed) with
  | some check => rfl
  | none =>
    cases key.filter fun key => !key.isEmpty with
    | none => rfl
    | some key =>
      simp only
      cases zfs.loadKey name key with
      | none =>
        cases zfs.mount name (s.mountPathAtTurn name).makeWay <;> rfl
      | some error => cases error <;> rfl

variable {n check root : DatasetName}

theorem skippedUnder_skip (hcheck : check ∈ state.failed) :
    SkippedUnder (skip state check name) root n ↔
      SkippedUnder state root n ∨ root = check ∧ n = name := by
  obtain ⟨failure, hget⟩ := exists_get?_of_mem hcheck
  unfold SkippedUnder skip
  simp only [get?_set, hget, getD_some]
  by_cases hroot : root = check
  · subst hroot
    simp [hget]
  · simp [hroot]

variable {error : String}

theorem failedWith_skip (hcheck : check ∈ state.failed) :
    FailedWith (skip state check name) n error ↔ FailedWith state n error := by
  obtain ⟨failure, hget⟩ := exists_get?_of_mem hcheck
  unfold FailedWith skip
  simp only [get?_set, hget, getD_some]
  by_cases hroot : n = check
  · subst hroot
    simp [hget]
  · simp [hroot]

theorem skippedUnder_fail : SkippedUnder (fail state name error) root n ↔
    root ≠ name ∧ SkippedUnder state root n := by
  unfold SkippedUnder fail
  simp only [get?_set]
  by_cases hroot : root = name
  · simp [hroot]
  · simp [hroot]

theorem failedWith_fail {other : String} : FailedWith (fail state name error) n other ↔
    if n = name then error = other else FailedWith state n other := by
  unfold FailedWith fail
  simp only [get?_set]
  by_cases hroot : n = name
  · simp [hroot]
  · simp [hroot]

theorem FailedWith.mem (hfailed : FailedWith state n error) : n ∈ state.failed := by
  obtain ⟨failure, hget, _⟩ := hfailed
  exact mem_of_get?_eq_some hget

theorem SkippedUnder.mem (hskipped : SkippedUnder state root n) : root ∈ state.failed := by
  obtain ⟨failure, hget, _⟩ := hskipped
  exact mem_of_get?_eq_some hget

theorem pairwise_rsplits (name : DatasetName) (first : ℕ) :
    (name.rsplits first).Pairwise fun a b => b.length < a.length := by
  unfold DatasetName.rsplits
  rw [pairwise_map]
  refine List.Pairwise.imp_of_mem ?_ pairwise_lt_range'
  intro i j _ hj hlt
  rw [mem_range'_1] at hj
  simp only [length_take]
  omega

theorem nearestFailed_of_find (hname : name ≠ []) (hfresh : name ∉ state.failed)
    (hfind : (name.rsplits 0).find? (fun check =>
      decide (check ∈ state.failed)) = some check) :
    NearestFailed state check name := by
  obtain ⟨hcheck, longer, shorter, hsplit, hlonger⟩ := find?_eq_some_iff_append.mp hfind
  rw [decide_eq_true_eq] at hcheck
  have hmem : check ∈ name.rsplits 0 := mem_of_find?_eq_some hfind
  rw [DatasetName.mem_rsplits_zero hname] at hmem
  have hparent : name.HasParent check := by
    rcases hmem with heq | hparent
    · exact absurd (heq ▸ hcheck) hfresh
    · exact hparent
  refine ⟨hparent, hcheck, ?_⟩
  intro other hother habove
  have hotherMem : other ∈ name.rsplits 0 := (DatasetName.mem_rsplits_zero hname).mpr (.inr habove)
  rw [hsplit] at hotherMem
  rcases mem_append.mp hotherMem with hbefore | hafter
  · have hnot := hlonger other hbefore
    simp [hother] at hnot
  · rcases mem_cons.mp hafter with heq | hshorter
    · exact .inl heq
    · have hpairwise := pairwise_rsplits name 0
      rw [hsplit, pairwise_append, pairwise_cons] at hpairwise
      have hlt := hpairwise.2.1.1 other hshorter
      refine .inr ⟨⟨?_, ?_⟩, habove.2⟩
      · exact prefix_of_prefix_length_le habove.1.1 hparent.1.1 hlt.le
      · intro heq
        rw [heq] at hlt
        omega

end

/-! ## The loop -/

structure Partitioned (errorOf : EncryptedDataset → Option String)
    (processed : List EncryptedDataset) (state : UnlockResult) : Prop where
  ends : ∀ ds ∈ processed, EndsOnce state ds.name (errorOf ds)
  unlocked : ∀ n ∈ state.unlocked, ∃ ds ∈ processed, ds.name = n
  failed : ∀ n ∈ state.failed, ∃ ds ∈ processed, ds.name = n
  skipped : ∀ root n, SkippedUnder state root n → ∃ ds ∈ processed, ds.name = n
  before : ∀ ds ∈ processed, ds.name ∈ state.unlocked → ∀ a ∈ processed,
    ds.name.HasParent a.name → UnlockedBefore state a.name ds.name

section

variable {errorOf : EncryptedDataset → Option String}
  {processed rest : List EncryptedDataset} {x : EncryptedDataset}
  {state : UnlockResult}

theorem Partitioned.fresh (hloop : Partitioned errorOf processed state)
    (hx : ∀ ds ∈ processed, ds.name ≠ x.name) :
    x.name ∉ state.unlocked ∧ x.name ∉ state.failed ∧ ∀ root, ¬ SkippedUnder state root x.name := by
  refine ⟨?_, ?_, ?_⟩
  · intro hmem
    obtain ⟨ds, hds, hname⟩ := hloop.unlocked x.name hmem
    exact hx ds hds hname
  · intro hmem
    obtain ⟨ds, hds, hname⟩ := hloop.failed x.name hmem
    exact hx ds hds hname
  · intro root hskipped
    obtain ⟨ds, hds, hname⟩ := hloop.skipped root x.name hskipped
    exact hx ds hds hname

theorem EndsOnce.of_same {next : UnlockResult} {n : DatasetName}
    {error : Option String} (hends : EndsOnce state n error)
    (hunlocked : n ∈ next.unlocked ↔ n ∈ state.unlocked)
    (hfailed : n ∈ next.failed ↔ n ∈ state.failed)
    (herror : ∀ e, FailedWith state n e → FailedWith next n e)
    (hskipped : ∀ root, SkippedUnder next root n ↔ SkippedUnder state root n)
    (habove : ∀ root, n.HasParent root → (root ∈ next.failed ↔ root ∈ state.failed)) :
    EndsOnce next n error := by
  have hskip (hold : EndsSkipped state n) : EndsSkipped next n := by
    obtain ⟨root, hroot, hnearest, honly⟩ := hold.skipped
    refine ⟨fun hmem => hold.notUnlocked (hunlocked.mp hmem),
      fun hmem => hold.notFailed (hfailed.mp hmem), root,
      (hskipped root).mpr hroot, ⟨hnearest.1, (habove root hnearest.1).mpr hnearest.2.1, ?_⟩, ?_⟩
    · intro other hother hparent
      exact hnearest.2.2 other ((habove other hparent).mp hother) hparent
    · intro other hother
      exact honly other ((hskipped other).mp hother)
  cases error with
  | none =>
    rcases hends with hends | hends
    · exact .inl ⟨hunlocked.mpr hends.unlocked, fun hmem => hends.notFailed (hfailed.mp hmem),
        fun root hroot => hends.notSkipped root ((hskipped root).mp hroot)⟩
    · exact .inr (hskip hends)
  | some error =>
    rcases hends with hends | hends
    · exact .inl ⟨fun hmem => hends.notUnlocked (hunlocked.mp hmem), herror error hends.failed,
        fun root hroot => hends.notSkipped root ((hskipped root).mp hroot)⟩
    · exact .inr (hskip hends)

theorem Partitioned.unlocked_above (hloop : Partitioned errorOf processed state)
    (hnone : ∀ root, x.name.HasParent root → root ∉ state.failed)
    {a : EncryptedDataset} (ha : a ∈ processed)
    (hparent : x.name.HasParent a.name) : a.name ∈ state.unlocked := by
  have hnotSkipped : ¬ EndsSkipped state a.name := by
    intro hskipped
    obtain ⟨root, _, hnearest, _⟩ := hskipped.skipped
    exact hnone root (DatasetName.HasParent.trans x.name a.name root hparent hnearest.1)
      hnearest.2.1
  have hends := hloop.ends a ha
  cases herror : errorOf a with
  | none =>
    rw [herror] at hends
    rcases hends with hends | hends
    · exact hends.unlocked
    · exact absurd hends hnotSkipped
  | some error =>
    rw [herror] at hends
    rcases hends with hends | hends
    · exact absurd hends.failed.mem (hnone a.name hparent)
    · exact absurd hends hnotSkipped

section

variable (hloop : Partitioned errorOf processed state)
  (hname : x.name ≠ []) (hx : ∀ ds ∈ processed, ds.name ≠ x.name)
  (horder : ∀ ds ∈ processed, ¬ ds.name.HasParent x.name)

include hloop hx horder

theorem Partitioned.extend {next : UnlockResult} (hends : EndsOnce next x.name (errorOf x))
    (hunlocked : ∃ later, next.unlocked = state.unlocked ++ later ∧ ∀ n ∈ later, n = x.name)
    (hfailed : ∀ n, n ≠ x.name → (n ∈ next.failed ↔ n ∈ state.failed))
    (herror : ∀ n e, n ≠ x.name → FailedWith state n e → FailedWith next n e)
    (hskipped : ∀ root n, n ≠ x.name → (SkippedUnder next root n ↔ SkippedUnder state root n))
    (hbefore : x.name ∈ next.unlocked → ∀ a ∈ processed,
      x.name.HasParent a.name → UnlockedBefore next a.name x.name) :
    Partitioned errorOf (processed ++ [x]) next := by
  obtain ⟨later, happend, hlater⟩ := hunlocked
  have hold (n : DatasetName) (hn : n ≠ x.name) : n ∈ next.unlocked ↔ n ∈ state.unlocked := by
    rw [happend, mem_append]
    constructor
    · intro hmem
      rcases hmem with hmem | hmem
      · exact hmem
      · exact absurd (hlater n hmem) hn
    · exact Or.inl
  have hprocessed (n : DatasetName) (hn : n ≠ x.name → ∃ ds ∈ processed, ds.name = n) :
      ∃ ds ∈ processed ++ [x], ds.name = n := by
    by_cases heq : n = x.name
    · exact ⟨x, by simp, heq.symm⟩
    · obtain ⟨ds, hds, hname⟩ := hn heq
      exact ⟨ds, mem_append_left _ hds, hname⟩
  constructor
  · intro ds hds
    rcases mem_append.mp hds with hmem | hlast
    · have hne := hx ds hmem
      apply (hloop.ends ds hmem).of_same (hold ds.name hne)
        (hfailed ds.name hne) (fun e => herror ds.name e hne)
        (fun root => hskipped root ds.name hne)
      intro root hparent
      apply hfailed root
      intro heq
      exact horder ds hmem (heq ▸ hparent)
    · rw [mem_singleton.mp hlast]
      exact hends
  · intro n hn
    exact hprocessed n fun hne => hloop.unlocked n ((hold n hne).mp hn)
  · intro n hn
    exact hprocessed n fun hne => hloop.failed n ((hfailed n hne).mp hn)
  · intro root n hn
    exact hprocessed n fun hne =>
      hloop.skipped root n ((hskipped root n hne).mp hn)
  · intro ds hds hmem a ha hparent
    rcases mem_append.mp hds with hdsOld | hlast
    · have hne := hx ds hdsOld
      have haOld : a ∈ processed := by
        rcases mem_append.mp ha with haOld | haLast
        · exact haOld
        · rw [mem_singleton.mp haLast] at hparent
          exact absurd hparent (horder ds hdsOld)
      obtain ⟨before, after, hsplit, habove⟩ :=
        hloop.before ds hdsOld ((hold ds.name hne).mp hmem) a haOld hparent
      refine ⟨before, after ++ later, ?_, habove⟩
      rw [happend, hsplit, append_assoc, cons_append]
    · rw [mem_singleton.mp hlast] at hmem hparent ⊢
      rcases mem_append.mp ha with haOld | haLast
      · exact hbefore hmem a haOld hparent
      · rw [mem_singleton.mp haLast] at hparent
        exact absurd hparent (DatasetName.not_hasParent_self x.name)

include hname

theorem Partitioned.step {zfs : Zfs} {s : EncryptedPool} {key : Option ZfsKey}
    (herrorOf : errorOf x = s.attempt zfs key x.name) :
    Partitioned errorOf (processed ++ [x]) (s.unlockDataset zfs key x.name state) := by
  obtain ⟨hnew, hfresh, hnotSkipped⟩ := hloop.fresh hx
  rw [unlockDataset_eq]
  cases hfind : (x.name.rsplits 0).find? fun check =>
      decide (check ∈ state.failed) with
  | some check =>
    have hnearest := nearestFailed_of_find hname hfresh hfind
    have hcheck := hnearest.2.1
    have hfailed (n : DatasetName) : n ∈ (skip state check x.name).failed ↔ n ∈ state.failed :=
      mem_skip_failed hcheck
    have hends : EndsSkipped (skip state check x.name) x.name := by
      refine ⟨hnew, fun hmem => hfresh ((hfailed x.name).mp hmem), check,
        (skippedUnder_skip hcheck).mpr (.inr ⟨rfl, rfl⟩), ⟨hnearest.1,
          (hfailed check).mpr hcheck, ?_⟩, ?_⟩
      · intro other hother hparent
        exact hnearest.2.2 other ((hfailed other).mp hother) hparent
      · intro other hother
        rcases (skippedUnder_skip hcheck).mp hother with hbefore | hthis
        · exact absurd hbefore (hnotSkipped other)
        · exact hthis.1
    apply hloop.extend hx horder
    · cases errorOf x with
      | none => exact .inr hends
      | some error => exact .inr hends
    · exact ⟨[], (append_nil _).symm, nofun⟩
    · intro n _
      exact hfailed n
    · intro n e _ he
      exact (failedWith_skip hcheck).mpr he
    · intro root n hne
      rw [skippedUnder_skip hcheck]
      simp [hne]
    · intro hmem
      exact absurd hmem hnew
  | none =>
    have hnone : ∀ root, x.name.HasParent root → root ∉ state.failed := by
      intro root hparent
      have hmem : root ∈ x.name.rsplits 0 := (DatasetName.mem_rsplits_zero hname).mpr (.inr hparent)
      simpa using find?_eq_none.mp hfind root hmem
    rw [← herrorOf]
    cases herror : errorOf x with
    | some error =>
      apply hloop.extend hx horder
      · rw [herror]
        refine .inl ⟨hnew, ?_, ?_⟩
        · rw [failedWith_fail, if_pos rfl]
        · intro root hskipped
          exact hnotSkipped root (skippedUnder_fail.mp hskipped).2
      · exact ⟨[], (append_nil _).symm, nofun⟩
      · intro n hne
        rw [mem_fail_failed]
        simp [hne]
      · intro n e hne he
        rw [failedWith_fail, if_neg hne]
        exact he
      · intro root n _
        rw [skippedUnder_fail]
        constructor
        · exact And.right
        · intro hskipped
          exact ⟨fun heq => hfresh (heq ▸ hskipped.mem), hskipped⟩
      · intro hmem
        exact absurd hmem hnew
    | none =>
      apply hloop.extend hx horder
      · rw [herror]
        exact .inl ⟨by simp, hfresh, hnotSkipped⟩
      · exact ⟨[x.name], rfl, fun n hn => mem_singleton.mp hn⟩
      · intro n _
        exact Iff.rfl
      · intro n e _ he
        exact he
      · intro root n _
        exact Iff.rfl
      · intro _ a ha hparent
        exact ⟨state.unlocked, [], rfl, hloop.unlocked_above hnone ha hparent⟩

end

theorem partitioned_foldl {zfs : Zfs} {s : EncryptedPool}
    {l : List EncryptedDataset} (hfirst : ParentsFirst EncryptedDataset.name l)
    (keyOf : EncryptedDataset → Option ZfsKey) :
    Partitioned (fun ds => s.attempt zfs (keyOf ds) ds.name) l
      (l.foldl (fun state ds => s.unlockDataset zfs (keyOf ds) ds.name state)
        ⟨[], Dict.empty⟩) := by
  apply foldl_invariant
  · constructor
    · nofun
    · nofun
    · nofun
    · intro root n hskipped
      obtain ⟨failure, hget, _⟩ := hskipped
      cases hget
    · nofun
  · intro processed x rest state hl hloop
    have hnodup := hfirst.nodup
    have horder := hfirst.order
    rw [hl, map_append, map_cons, nodup_append] at hnodup
    rw [hl, pairwise_append] at horder
    apply hloop.step (hfirst.nonempty x (by rw [hl]; simp))
    · intro ds hds heq
      exact hnodup.2.2 ds.name (List.mem_map_of_mem hds) x.name mem_cons_self heq
    · intro ds hds
      exact horder.2.2 ds hds x mem_cons_self
    · rfl

end

/-! ## The key of each root -/

def requestOf (options : UnlockOptions) (name : DatasetName) :
    Option UnlockDataset :=
  (Dict.ofEntries (options.datasets.map fun ds => (ds.name, ds))).get? name

def SuppliedRecursive (options : UnlockOptions) (name : DatasetName) : Prop :=
  ∃ ds, requestOf options name = some ds ∧ ds.recursive = true

/-- The nearest dataset above that was supplied with `recursive`; as the last
of the parents of a path, `.` is above all. -/
structure NearestRecursive (options : UnlockOptions)
    (name parent : DatasetName) : Prop where
  supplied : SuppliedRecursive options parent
  above : name.HasParent parent ∨ parent = ["."]
  nearest : ∀ other, SuppliedRecursive options other → name.HasParent other →
    other = parent ∨ parent.HasParent other

structure TriedText (options : UnlockOptions) (ds : EncryptedDataset)
    (text : Option String) : Prop where
  own : ∀ key, (keysSupplied options).get? ds.name = some key →
    text = (truthy key).or ds.encryptionKey
  inherited : ds.name ∉ keysSupplied options → ∀ parent, NearestRecursive options ds.name parent →
      ∃ key, (keysSupplied options).get? parent = some (some key) ∧ key ≠ "" ∧ text = some key
  stored : ds.name ∉ keysSupplied options → (∀ parent, ¬ NearestRecursive options ds.name parent) →
    text = ds.encryptionKey

def keyOfText (format : Option ZFSKeyFormat) (text : Option String) :
    Option ZfsKey :=
  match format, truthy text with
  | some .raw, some key => (fromhex key.toList).map .bytes
  | _, _ => text.map .text

section

variable {options : UnlockOptions} {name parent : DatasetName}

theorem lookup_map_snd {α κ ν μ : Type*} [DecidableEq κ] (g : ν → μ)
    (k : α → κ) (f : α → ν) (l : List α) (n : κ) :
    (l.map fun a => (k a, g (f a))).lookup n = ((l.map fun a => (k a, f a)).lookup n).map g := by
  induction l with
  | nil => rfl
  | cons a rest ih =>
    simp only [map_cons, lookup_cons_ite]
    split
    · rfl
    · exact ih

variable {ds : UnlockDataset}

theorem get?_keysSupplied_of_requestOf (hrequest : requestOf options name = some ds) :
    (keysSupplied options).get? name = some (keyOrPassphrase ds.key ds.passphrase) := by
  unfold requestOf at hrequest
  rw [get?_ofEntries, ← map_reverse] at hrequest
  have hlookup := lookup_map_snd (fun ds : UnlockDataset => keyOrPassphrase ds.key ds.passphrase)
    UnlockDataset.name id options.datasets.reverse name
  simp only [id_eq, hrequest] at hlookup
  have hfold := get?_foldl_set (options.datasets.map fun ds =>
      (ds.name, keyOrPassphrase ds.key ds.passphrase))
    (Dict.ofEntries ((options.keyFile.getD []).map fun entry =>
      (entry.1, some entry.2))) name
  rw [foldl_map, ← map_reverse, hlookup] at hfold
  exact hfold

theorem mem_of_requestOf (hrequest : requestOf options name = some ds) : ds ∈ options.datasets := by
  unfold requestOf at hrequest
  rw [get?_ofEntries] at hrequest
  have hmem := mem_of_lookup_eq_some hrequest
  rw [mem_reverse, List.mem_map] at hmem
  obtain ⟨other, hother, heq⟩ := hmem
  cases heq
  exact hother

theorem SuppliedRecursive.mem (hsupplied : SuppliedRecursive options name) :
    name ∈ keysSupplied options := by
  obtain ⟨ds, hds, _⟩ := hsupplied
  exact mem_of_get?_eq_some (get?_keysSupplied_of_requestOf hds)

def inheritedFrom (options : UnlockOptions) (name : DatasetName) :
    Option DatasetName :=
  (name.rsplits 1 ++ [["."]]).find? fun parent =>
    (requestOf options parent).any UnlockDataset.recursive

theorem any_recursive_iff : (requestOf options name).any UnlockDataset.recursive = true ↔
    SuppliedRecursive options name := by
  rw [SuppliedRecursive, Option.any_eq_true]

theorem get?_assignSuppliedRecursiveKeys (names : List DatasetName) (n : DatasetName) :
    (assignSuppliedRecursiveKeys options.datasets (keysSupplied options) names).get? n =
      ((keysSupplied options).get? n).or
        (if n ∈ names then (inheritedFrom options n).map fun parent =>
          ((keysSupplied options).get? parent).join else none) := by
  apply foldl_invariant (fun processed (keys : Dict DatasetName
    (Option String)) => ∀ n, keys.get? n = ((keysSupplied options).get? n).or
      (if n ∈ processed then (inheritedFrom options n).map fun parent =>
        ((keysSupplied options).get? parent).join else none))
  · intro n
    simp
  · intro processed x rest keys _ hkeys n
    have hsame (p : DatasetName) (hp : SuppliedRecursive options p) :
        p ∈ keys ∧ keys.get? p = (keysSupplied options).get? p := by
      obtain ⟨key, hkey⟩ := exists_get?_of_mem hp.mem
      have hget : keys.get? p = some key := by
        rw [hkeys p, hkey, some_or]
      exact ⟨mem_of_get?_eq_some hget, by rw [hget, hkey]⟩
    have hfind : (x.rsplits 1 ++ [["."]]).find? (fun parent =>
        ((Dict.ofEntries (options.datasets.map fun ds =>
          (ds.name, ds))).get? parent).any UnlockDataset.recursive &&
          decide (parent ∈ keys)) = inheritedFrom options x := by
      congr
      funext p
      change ((requestOf options p).any UnlockDataset.recursive && decide (p ∈ keys)) = _
      cases hany : (requestOf options p).any UnlockDataset.recursive with
      | false => rfl
      | true => simp [(hsame p (any_recursive_iff.mp hany)).1]
    simp only [hfind]
    have hother (hne : n ≠ x) : keys.get? n =
        ((keysSupplied options).get? n).or (if n ∈ processed ++ [x] then
          (inheritedFrom options n).map fun parent =>
            ((keysSupplied options).get? parent).join else none) := by
      rw [hkeys n]
      simp [hne]
    by_cases hx : x ∈ keys
    · rw [if_pos hx]
      by_cases hn : n = x
      · subst hn
        obtain ⟨key, hkey⟩ := exists_get?_of_mem hx
        have hbefore := hkeys n
        cases hown : (keysSupplied options).get? n with
        | some own =>
          rw [hown] at hbefore
          rw [hbefore]
          rfl
        | none =>
          rw [hown, none_or, hkey] at hbefore
          rw [hkey, none_or, if_pos (by simp)]
          split at hbefore
          · exact hbefore
          · cases hbefore
      · exact hother hn
    · rw [if_neg hx]
      have hnone := hkeys x
      rw [Dict.get?_eq_none_iff.mpr hx] at hnone
      have hown : (keysSupplied options).get? x = none := by
        cases hown : (keysSupplied options).get? x with
        | none => rfl
        | some own =>
          rw [hown] at hnone
          cases hnone
      cases hinherited : inheritedFrom options x with
      | none =>
        by_cases hn : n = x
        · subst hn
          rw [Dict.get?_eq_none_iff.mpr hx, hown, hinherited]
          simp
        · exact hother hn
      | some parent =>
        have hparent : SuppliedRecursive options parent := by
          have hany := find?_some hinherited
          exact any_recursive_iff.mp hany
        simp only [get?_set, (hsame parent hparent).2]
        by_cases hn : n = x
        · subst hn
          simp [hown, hinherited]
        · rw [if_neg hn]
          exact hother hn

theorem inheritedFrom_eq_some (hfind : inheritedFrom options name = some parent) :
    NearestRecursive options name parent := by
  obtain ⟨hany, nearer, farther, hsplit, hnearer⟩ := find?_eq_some_iff_append.mp hfind
  have hmem : parent ∈ name.rsplits 1 ++ [["."]] := mem_of_find?_eq_some hfind
  have habove : name.HasParent parent ∨ parent = ["."] := by
    rcases mem_append.mp hmem with hmem | hmem
    · exact .inl (DatasetName.mem_rsplits_one.mp hmem)
    · exact .inr (mem_singleton.mp hmem)
  refine ⟨any_recursive_iff.mp hany, habove, ?_⟩
  intro other hother hparent
  have hotherMem : other ∈ name.rsplits 1 := DatasetName.mem_rsplits_one.mpr hparent
  have hnot : other ∉ nearer := by
    intro hbefore
    have hfalse := hnearer other hbefore
    simp [any_recursive_iff.mpr hother] at hfalse
  rcases eq_nil_or_concat farther with hnil | ⟨between, last, hconcat⟩
  · subst hnil
    have hall := append_inj_left' hsplit rfl
    exact absurd (hall ▸ hotherMem) hnot
  · rw [hconcat, concat_eq_append, ← cons_append, ← append_assoc] at hsplit
    have hall := append_inj_left' hsplit rfl
    rw [hall] at hotherMem
    rcases mem_append.mp hotherMem with hbefore | hafter
    · exact absurd hbefore hnot
    · rcases mem_cons.mp hafter with heq | hbetween
      · exact .inl heq
      · have hpairwise := pairwise_rsplits name 1
        rw [hall, pairwise_append, pairwise_cons] at hpairwise
        have hlt := hpairwise.2.1.1 other hbetween
        have hparentMem : parent ∈ name.rsplits 1 := by
          rw [hall]
          simp
        have habove := DatasetName.mem_rsplits_one.mp hparentMem
        refine .inr ⟨⟨?_, ?_⟩, hparent.2⟩
        · exact prefix_of_prefix_length_le hparent.1.1 habove.1.1 hlt.le
        · intro heq
          rw [heq] at hlt
          omega

theorem NearestRecursive.eq {other : DatasetName} (hparent : NearestRecursive options name parent)
    (hother : NearestRecursive options name other) : other = parent := by
  have hdot (n : DatasetName) : ¬ DatasetName.HasParent ["."] n := by
    intro habove
    have hlt := habove.1.length_lt
    have hpos := length_pos_of_ne_nil habove.2
    simp only [length_singleton] at hlt
    omega
  rcases hother.above with habove | heq
  · rcases hparent.nearest other hother.supplied habove with heq | hunder
    · exact heq
    · rcases hparent.above with habove' | heq'
      · rcases hother.nearest parent hparent.supplied habove' with heq | hover
        · exact heq.symm
        · exact absurd (DatasetName.HasParent.trans _ _ _ hunder hover)
            (DatasetName.not_hasParent_self parent)
      · rw [heq'] at hunder
        exact absurd hunder (hdot other)
  · rcases hparent.above with habove' | heq'
    · rcases hother.nearest parent hparent.supplied habove' with heq' | hover
      · exact heq'.symm
      · rw [heq] at hover
        exact absurd hover (hdot parent)
    · rw [heq, heq']

theorem inheritedFrom_of_nearest (hnearest : NearestRecursive options name parent) :
    inheritedFrom options name = some parent := by
  have hmem : parent ∈ name.rsplits 1 ++ [["."]] := by
    rcases hnearest.above with habove | heq
    · exact mem_append_left _ (DatasetName.mem_rsplits_one.mpr habove)
    · exact mem_append_right _ (mem_singleton.mpr heq)
  cases hfind : inheritedFrom options name with
  | none =>
    have hnone := find?_eq_none.mp hfind parent hmem
    exact absurd (any_recursive_iff.mpr hnearest.supplied) hnone
  | some found =>
    rw [hnearest.eq (inheritedFrom_eq_some hfind)]

theorem EntryAccepted.exists_key {s : EncryptedPool} (haccepted : s.EntryAccepted options ds) :
    ∃ key, keyOrPassphrase ds.key ds.passphrase = some key ∧ key ≠ "" := by
  have htruthy (text : Option String) (key : String)
      (hkey : truthy text = some key) : text = some key ∧ key ≠ "" := by
    unfold truthy at hkey
    rw [filter_eq_some_iff] at hkey
    exact ⟨hkey.1, by simpa using hkey.2⟩
  unfold keyOrPassphrase
  cases hkey : truthy ds.key with
  | some key => exact ⟨key, rfl, (htruthy ds.key key hkey).2⟩
  | none =>
    have hpassphrase : truthy ds.passphrase ≠ none := by
      intro hnone
      have hsome := haccepted.key.mpr hnone
      rw [hkey] at hsome
      cases hsome
    obtain ⟨key, hsome⟩ := Option.ne_none_iff_exists'.mp hpassphrase
    obtain ⟨heq, hne⟩ := htruthy ds.passphrase key hsome
    exact ⟨key, by rw [heq]; rfl, hne⟩

theorem exists_triedText {s : EncryptedPool} {ds : EncryptedDataset}
    {names : List DatasetName} (hmem : ds.name ∈ names)
    (haccepted : ∀ entry ∈ options.datasets, s.EntryAccepted options entry) :
    ∃ text, TriedText options ds text ∧ unlockKey (assignSuppliedRecursiveKeys options.datasets
        (keysSupplied options) names) ds = keyOfText ds.keyFormat text := by
  have hget := @get?_assignSuppliedRecursiveKeys options names ds.name
  rw [if_pos hmem] at hget
  have hkey (text : Option String) (htext : (truthy ((assignSuppliedRecursiveKeys options.datasets
        (keysSupplied options) names).get? ds.name).join).or ds.encryptionKey = text) :
      unlockKey (assignSuppliedRecursiveKeys options.datasets
        (keysSupplied options) names) ds = keyOfText ds.keyFormat text := by
    rw [← htext]
    rfl
  refine ⟨_, ?_, hkey _ rfl⟩
  rw [hget]
  constructor
  · intro key hown
    rw [hown]
    rfl
  · intro hnot parent hnearest
    obtain ⟨entry, hentry, _⟩ := hnearest.supplied
    obtain ⟨key, hkey, hne⟩ := (haccepted entry (mem_of_requestOf hentry)).exists_key
    have hsupplied := get?_keysSupplied_of_requestOf hentry
    rw [hkey] at hsupplied
    rw [Dict.get?_eq_none_iff.mpr hnot, inheritedFrom_of_nearest hnearest,
      none_or, map_some, hsupplied]
    simp [truthy, hne]
  · intro hnot hnone
    have hinherited : inheritedFrom options ds.name = none := by
      cases hfind : inheritedFrom options ds.name with
      | none => rfl
      | some parent => exact absurd (inheritedFrom_eq_some hfind) (hnone parent)
    rw [Dict.get?_eq_none_iff.mpr hnot, hinherited]
    rfl

end

/-- The roots that `unlock` considers, parents first. -/
def consideredRoots (s : EncryptedPool) (id : DatasetName)
    (options : UnlockOptions) : List EncryptedDataset :=
  unlockNames (s.queryEncryptedDatasets (id.take 1) false false) id options.recursive

/-- Each root is tried with the key that its place in the request asks for and
ends in one place, an unlocked root after all that was considered above it;
nothing else is in the result. -/
structure PartitionsRoots (zfs : Zfs) (s : EncryptedPool) (id : DatasetName)
    (options : UnlockOptions) (result : UnlockResult) : Prop where
  ends : ∀ ds ∈ s.consideredRoots id options, ∃ text, TriedText options ds text ∧
      EndsOnce result ds.name (s.attempt zfs (keyOfText ds.keyFormat text) ds.name)
  before : ∀ ds ∈ s.consideredRoots id options, ds.name ∈ result.unlocked →
    ∀ a ∈ s.consideredRoots id options, ds.name.HasParent a.name →
      UnlockedBefore result a.name ds.name
  only : ∀ n, (n ∈ result.unlocked ∨ n ∈ result.failed ∨ ∃ root, SkippedUnder result root n) →
      ∃ ds ∈ s.consideredRoots id options, ds.name = n

section

variable {zfs : Zfs} {s : EncryptedPool} {id : DatasetName}
  {options : UnlockOptions} {result : UnlockResult}

theorem parentsFirst_consideredRoots :
    ParentsFirst EncryptedDataset.name (s.consideredRoots id options) := by
  apply parentsFirst_mergeSort
  · have hnodup := s.nodup_queryEncryptedDatasets (id.take 1) false false
    exact hnodup.sublist (filter_sublist.map EncryptedDataset.name)
  · intro ds hds
    have hmem := mem_of_mem_filter hds
    rw [mem_queryEncryptedDatasets] at hmem
    obtain ⟨d, hroot, _, heq⟩ := hmem
    rw [← heq]
    exact hroot.name_ne_nil

theorem unlock_eq_ok (hunlock : s.unlock zfs id options = .ok result) :
    (∀ entry ∈ options.datasets, s.EntryAccepted options entry) ∧
      result = (s.consideredRoots id options).foldl (fun state ds =>
        s.unlockDataset zfs (unlockKey (assignSuppliedRecursiveKeys
          options.datasets (keysSupplied options)
          ((s.queryEncryptedDatasets (id.take 1) false false).map
            EncryptedDataset.name)) ds) ds.name state) ⟨[], Dict.empty⟩ := by
  obtain ⟨dataset, hget, hunlock⟩ := bind_eq_ok_iff.mp hunlock
  obtain ⟨errors, hmap, hunlock⟩ := bind_eq_ok_iff.mp hunlock
  obtain ⟨_, hcheck, hunlock⟩ := bind_eq_ok_iff.mp hunlock
  obtain ⟨_, hraise, hunlock⟩ := bind_eq_ok_iff.mp hunlock
  have hnil := append_eq_nil_iff.mp (ZFSDatasets.verrorsCheck_eq_ok hcheck)
  refine ⟨?_, (Except.ok.inj hunlock).symm⟩
  intro entry hentry
  obtain ⟨i, hi⟩ := getElem?_of_mem hentry
  exact (mapM_datasetErrors_iff options.datasets.zipIdx).mp
    ⟨errors, hmap, hnil.1⟩ (entry, i) (mem_zipIdx_iff_getElem?.mpr hi)

/-- Whatever ZFS answers, an unlock partitions the roots it considers. -/
theorem unlock_partitions (hunlock : s.unlock zfs id options = .ok result) :
    s.PartitionsRoots zfs id options result := by
  obtain ⟨haccepted, hresult⟩ := unlock_eq_ok hunlock
  have hloop := @partitioned_foldl zfs s _ (@parentsFirst_consideredRoots s id options)
    (unlockKey (assignSuppliedRecursiveKeys options.datasets
      (keysSupplied options) ((s.queryEncryptedDatasets (id.take 1) false
        false).map EncryptedDataset.name)))
  rw [← hresult] at hloop
  constructor
  · intro ds hds
    have hmem : ds.name ∈ (s.queryEncryptedDatasets (id.take 1) false
        false).map EncryptedDataset.name := by
      unfold consideredRoots unlockNames at hds
      rw [mem_mergeSort] at hds
      exact List.mem_map_of_mem (mem_of_mem_filter hds)
    obtain ⟨text, htext, hkey⟩ := exists_triedText hmem haccepted
    have hends := hloop.ends ds hds
    rw [hkey] at hends
    exact ⟨text, htext, hends⟩
  · exact hloop.before
  · intro n hn
    rcases hn with hn | hn | ⟨root, hn⟩
    · exact hloop.unlocked n hn
    · exact hloop.failed n hn
    · exact hloop.skipped root n hn

/-- A wrong key for `tank/a` and what is below it, and the right one for `tank/c`. -/
def recursiveKeys : UnlockOptions where
  force := false
  keyFile := none
  recursive := true
  datasets := [⟨false, ["tank", "a"], some "00", none, true⟩,
    ⟨false, ["tank", "c"], some "6b", none, true⟩]

def recursiveResult : UnlockResult where
  unlocked := [["tank"], ["tank", "c"], ["tank", "c", "d"]]
  failed := Dict.ofEntries [(["tank", "a"], ⟨some "Invalid Key", [["tank", "a", "b"]]⟩)]

theorem lockedTree_unlock :
    lockedTree.unlock oneKeyZfs ["tank"] recursiveKeys = .ok recursiveResult := by
  have hunlock : lockedTree.unlock oneKeyZfs ["tank"] recursiveKeys = .ok _ := rfl
  rw [hunlock, unlockNames, mergeSort_of_pairwise (by decide)]
  rfl

theorem lockedTree_partitions :
    lockedTree.PartitionsRoots oneKeyZfs ["tank"] recursiveKeys recursiveResult :=
  unlock_partitions lockedTree_unlock

end

end EncryptedPool

end Middlewared
