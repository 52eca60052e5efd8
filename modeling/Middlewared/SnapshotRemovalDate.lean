import Middlewared.Dict
import Middlewared.PyString
import Middlewared.TransitionSystem

/-!
# Removal dates of snapshots

The removal dates that are recorded as ZFS properties, and the cache of them in
`ZettareplService`: its first key is the pool, which `load_removal_dates` takes from the name of
the snapshot and `fixate_removal_date` from the name of its dataset.
-/

namespace Middlewared

variable {Date Lifetime : Type*}

/-- A snapshot; no dataset has `@` in its name, and no snapshot `/`. -/
structure Snapshot where
  dataset : String
  name : String
  dataset_atSign : '@' ∉ dataset.toList
  name_slash : '/' ∉ name.toList
deriving DecidableEq

def Snapshot.fullName (snapshot : Snapshot) : String :=
  snapshot.dataset ++ "@" ++ snapshot.name

/-- The removal date property, as `isodate` reads it. -/
inductive RemovalDate (Date : Type*) where
  /-- `-` in the output of `zfs list`. -/
  | unset
  | invalid (text : String)
  | date (date : Date)

def RemovalDate.date? : RemovalDate Date → Option Date
  | .date value => some value
  | .unset | .invalid _ => none

structure PeriodicSnapshotTask (Lifetime : Type*) where
  namingSchema : String
  lifetime : Lifetime

/-- The snapshots with their properties, in the order of `zfs list`, and the
state of the service. -/
structure ZettareplService (Date : Type*) where
  snapshots : Dict String (RemovalDate Date)
  removalDates : Dict String (Dict String Date)

namespace ZettareplService

def init (snapshots : Dict String (RemovalDate Date)) :
    ZettareplService Date where
  snapshots := snapshots
  removalDates := Dict.empty

/-- `removal_dates.get(k1, {}).get(k2)`. -/
def getRemovalDate (removalDates : Dict String (Dict String Date))
    (k1 k2 : String) : Option Date :=
  (removalDates.get? k1).bind fun dates => dates.get? k2

/-- `removal_dates[k1][k2] = date` of a `defaultdict`. -/
def setRemovalDate (removalDates : Dict String (Dict String Date))
    (k1 k2 : String) (date : Date) : Dict String (Dict String Date) :=
  removalDates.set k1 (((removalDates.get? k1).getD Dict.empty).set k2 date)

/-- A line of `zfs list`. -/
def loadLine (removalDates : Dict String (Dict String Date))
    (line : String × RemovalDate Date) : Dict String (Dict String Date) :=
  match line.2 with
  | .unset | .invalid _ => removalDates
  | .date date =>
    setRemovalDate removalDates (PyString.splitFirst line.1 '/') line.1 date

/-- What `zfs list -r pool` lists. -/
def isUnder (pool name : String) : Bool :=
  PyString.startsWith name (pool ++ "/") || PyString.startsWith name (pool ++ "@")

def loadRemovalDates (s : ZettareplService Date) (pool : Option String) :
    ZettareplService Date :=
  let lines :=
    match pool with
    | none => s.snapshots.entries
    | some pool => s.snapshots.entries.filter fun line => isUnder pool line.1
  let removalDates :=
    match pool with
    | none => Dict.empty
    | some pool => s.removalDates.set pool Dict.empty
  { s with removalDates := lines.foldl loadLine removalDates }

section

variable [LinearOrder Date] [HAdd Date Lifetime Date]
  (parseSnapshotName : String → String → Option Date)

/-- One snapshot in the loops of `fixate_removal_date`; `zfsSet` says whether
`zfs set` succeeds. -/
def fixateSnapshot (task : PeriodicSnapshotTask Lifetime)
    (zfsSet : Snapshot → Bool) (s : ZettareplService Date)
    (snapshot : Snapshot) : ZettareplService Date :=
  match parseSnapshotName snapshot.name task.namingSchema with
  | none => s
  | some datetime =>
    let destroyAt := datetime + task.lifetime
    let k1 := PyString.splitFirst snapshot.dataset '/'
    let k2 := snapshot.fullName
    if ∃ existing ∈ getRemovalDate s.removalDates k1 k2, destroyAt ≤ existing then s
    else if zfsSet snapshot then
      { s with
        snapshots := s.snapshots.set k2 (.date destroyAt)
        removalDates := setRemovalDate s.removalDates k1 k2 destroyAt }
    else s

def fixateRemovalDate (s : ZettareplService Date) (datasets : List Snapshot)
    (task : PeriodicSnapshotTask Lifetime) (zfsSet : Snapshot → Bool) :
    ZettareplService Date :=
  datasets.foldl (fixateSnapshot parseSnapshotName task zfsSet) s

inductive Action (Lifetime : Type*) where
  | loadRemovalDates (pool : Option String)
  | fixateRemovalDate (datasets : List Snapshot)
      (task : PeriodicSnapshotTask Lifetime) (zfsSet : Snapshot → Bool)

def step (s : ZettareplService Date) :
    Action Lifetime → Option (ZettareplService Date)
  | .loadRemovalDates pool => some (s.loadRemovalDates pool)
  | .fixateRemovalDate datasets task zfsSet =>
    some (s.fixateRemovalDate parseSnapshotName datasets task zfsSet)

end

def recorded (s : ZettareplService Date) (snapshot : Snapshot) : Option Date :=
  (s.snapshots.get? snapshot.fullName).bind RemovalDate.date?

/-- The removal date that `fixate_removal_date` finds for a snapshot. -/
def cached (s : ZettareplService Date) (snapshot : Snapshot) : Option Date :=
  getRemovalDate s.removalDates (PyString.splitFirst snapshot.dataset '/') snapshot.fullName

end ZettareplService

namespace Snapshot

theorem toList_fullName (x : Snapshot) :
    x.fullName.toList = x.dataset.toList ++ '@' :: x.name.toList := by
  simp [fullName]

theorem takeWhile_eq_self {l : List Char} {c : Char} (hl : c ∉ l) : l.takeWhile (· ≠ c) = l := by
  rw [List.takeWhile_eq_self_iff]
  intro d hd
  exact decide_eq_true (ne_of_mem_of_not_mem hd hl)

theorem fullName_injective : Function.Injective fullName := by
  intro x y heq
  have hchars := congrArg String.toList heq
  rw [toList_fullName, toList_fullName] at hchars
  have hdataset : x.dataset = y.dataset := by
    have htake := congrArg (List.takeWhile (· ≠ '@')) hchars
    rw [(PyString.takeWhile_append_cons x.dataset_atSign).1,
      (PyString.takeWhile_append_cons y.dataset_atSign).1] at htake
    exact String.toList_injective htake
  rw [hdataset, List.append_cancel_left_eq, List.cons.injEq] at hchars
  have hname : x.name = y.name := String.toList_injective hchars.2
  cases x
  cases y
  simp_all

variable {x : Snapshot}

theorem splitFirst_fullName (hchild : '/' ∈ x.dataset.toList) : PyString.splitFirst x.fullName '/' =
    PyString.splitFirst x.dataset '/' := by
  unfold PyString.splitFirst
  rw [toList_fullName, List.takeWhile_append, if_neg]
  intro hlength
  have hself := List.IsPrefix.eq_of_length ( List.takeWhile_prefix (· ≠ '/')) hlength
  rw [List.takeWhile_eq_self_iff] at hself
  exact absurd rfl (of_decide_eq_true (hself '/' hchild))

theorem splitFirst_dataset (hroot : '/' ∉ x.dataset.toList) :
    PyString.splitFirst x.dataset '/' = x.dataset := by
  rw [PyString.splitFirst, takeWhile_eq_self hroot, String.ofList_toList]

theorem splitFirst_fullName_ne (hroot : '/' ∉ x.dataset.toList) :
    PyString.splitFirst x.fullName '/' ≠ PyString.splitFirst x.dataset '/' := by
  have hslash : '/' ∉ x.fullName.toList := by
    simp [toList_fullName, hroot, x.name_slash]
  rw [splitFirst_dataset hroot, PyString.splitFirst, takeWhile_eq_self hslash, String.ofList_toList]
  intro heq
  have hlength := congrArg (fun text => text.toList.length) heq
  simp [toList_fullName] at hlength

end Snapshot

namespace ZettareplService

open TransitionSystem

/-! ## Loading -/

section

theorem getRemovalDate_setRemovalDate
    (removalDates : Dict String (Dict String Date)) (k1 k2 : String)
    (date : Date) (j1 j2 : String) :
    getRemovalDate (setRemovalDate removalDates k1 k2 date) j1 j2 =
      if j1 = k1 ∧ j2 = k2 then some date
      else getRemovalDate removalDates j1 j2 := by
  unfold getRemovalDate setRemovalDate
  rw [Dict.get?_set]
  by_cases h1 : j1 = k1
  · subst h1
    rw [if_pos rfl, Option.bind_some, Dict.get?_set]
    by_cases h2 : j2 = k2
    · simp [h2]
    · cases removalDates.get? j1 <;> simp [h2]
  · simp [h1]

theorem getRemovalDate_loadLine (removalDates : Dict String (Dict String Date))
    (line : String × RemovalDate Date) (k1 k2 : String) :
    getRemovalDate (loadLine removalDates line) k1 k2 =
      if k2 = line.1 ∧ PyString.splitFirst k2 '/' = k1 then
        line.2.date?.or (getRemovalDate removalDates k1 k2)
      else getRemovalDate removalDates k1 k2 := by
  unfold loadLine
  cases line.2 with
  | unset => simp [RemovalDate.date?]
  | invalid text => simp [RemovalDate.date?]
  | date value =>
    simp only [getRemovalDate_setRemovalDate, RemovalDate.date?, Option.some_or]
    grind

theorem getRemovalDate_foldl_loadLine {lines : List (String × RemovalDate Date)}
    (hlines : (lines.map Prod.fst).Nodup)
    (removalDates : Dict String (Dict String Date)) (k1 k2 : String) :
    getRemovalDate (lines.foldl loadLine removalDates) k1 k2 =
      if PyString.splitFirst k2 '/' = k1 then
        ((lines.lookup k2).bind RemovalDate.date?).or (getRemovalDate removalDates k1 k2)
      else getRemovalDate removalDates k1 k2 := by
  induction lines generalizing removalDates with
  | nil => simp
  | cons line rest ih =>
    obtain ⟨name, value⟩ := line
    rw [List.map_cons, List.nodup_cons] at hlines
    rw [List.foldl_cons, ih hlines.2, getRemovalDate_loadLine, Dict.lookup_cons_ite]
    by_cases hpool : PyString.splitFirst k2 '/' = k1
    · by_cases hname : k2 = name
      · subst hname
        have hrest : rest.lookup k2 = none := by
          rw [← Option.not_isSome_iff_eq_none, Dict.lookup_isSome_iff]
          exact hlines.1
        simp [hpool, hrest]
      · simp [hpool, hname]
    · simp [hpool]

/-- The cache has what is recorded, or nothing for a snapshot of a pool's root
dataset. -/
def Agrees (s : ZettareplService Date) : Prop :=
  ∀ x : Snapshot, s.cached x = s.recorded x ∨ '/' ∉ x.dataset.toList ∧ s.cached x = none

variable {s : ZettareplService Date}

theorem agrees_load_all (s : ZettareplService Date) : (s.loadRemovalDates none).Agrees := by
  intro x
  by_cases hchild : '/' ∈ x.dataset.toList
  · refine Or.inl ?_
    simp only [cached, loadRemovalDates]
    rw [getRemovalDate_foldl_loadLine s.snapshots.nodup,
      if_pos (Snapshot.splitFirst_fullName hchild)]
    exact Option.or_none
  · refine Or.inr ⟨hchild, ?_⟩
    simp only [cached, loadRemovalDates]
    rw [getRemovalDate_foldl_loadLine s.snapshots.nodup,
      if_neg (Snapshot.splitFirst_fullName_ne hchild)]
    simp [getRemovalDate]

theorem getRemovalDate_set_empty
    (removalDates : Dict String (Dict String Date)) (pool k1 k2 : String) :
    getRemovalDate (removalDates.set pool Dict.empty) k1 k2 =
      if k1 = pool then none else getRemovalDate removalDates k1 k2 := by
  unfold getRemovalDate
  rw [Dict.get?_set]
  split <;> simp

theorem isUnder_pool {x : Snapshot} (hchild : '/' ∈ x.dataset.toList) :
    isUnder (PyString.splitFirst x.dataset '/') x.fullName = true := by
  obtain ⟨pool, rest, hdataset, hpool⟩ := List.eq_append_cons_of_mem hchild
  rw [isUnder, Bool.or_eq_true]
  rw [PyString.startsWith_iff, PyString.splitFirst, hdataset,
    (PyString.takeWhile_append_cons hpool).1, Snapshot.toList_fullName, hdataset]
  simp [List.prefix_append_right_inj]

theorem Agrees.load_pool (hagrees : s.Agrees) (pool : String) :
    (s.loadRemovalDates (some pool)).Agrees := by
  intro x
  have hlines : ((s.snapshots.entries.filter fun line =>
      isUnder pool line.1).map Prod.fst).Nodup :=
    s.snapshots.nodup.sublist (List.filter_sublist.map Prod.fst)
  have hcached : (s.loadRemovalDates (some pool)).cached x = if '/' ∈ x.dataset.toList then
        (if isUnder pool x.fullName then s.recorded x else none).or
          (if PyString.splitFirst x.dataset '/' = pool then none
            else s.cached x)
      else if PyString.splitFirst x.dataset '/' = pool then none
        else s.cached x := by
    simp only [cached, loadRemovalDates]
    rw [getRemovalDate_foldl_loadLine hlines, Dict.lookup_filter_key, getRemovalDate_set_empty]
    by_cases hchild : '/' ∈ x.dataset.toList
    · rw [if_pos (Snapshot.splitFirst_fullName hchild), if_pos hchild]
      split <;> rfl
    · rw [if_neg (Snapshot.splitFirst_fullName_ne hchild), if_neg hchild]
  rw [hcached]
  change _ = s.recorded x ∨ _
  rcases hagrees x with hold | ⟨hroot, hnone⟩
  · by_cases hchild : '/' ∈ x.dataset.toList
    · refine Or.inl ?_
      by_cases hpool : PyString.splitFirst x.dataset '/' = pool
      · have hunder := isUnder_pool hchild
        rw [hpool] at hunder
        simp [hchild, hpool, hunder]
      · rw [if_pos hchild, if_neg hpool, hold]
        cases isUnder pool x.fullName <;> simp
    · by_cases hpool : PyString.splitFirst x.dataset '/' = pool
      · exact Or.inr ⟨hchild, by simp [hchild, hpool]⟩
      · exact Or.inl (by simp [hchild, hpool, hold])
  · exact Or.inr ⟨hroot, by simp [hroot, hnone]⟩

end

/-! ## Fixating -/

section

variable [LinearOrder Date] [HAdd Date Lifetime Date]
  {parseSnapshotName : String → String → Option Date}
  {task : PeriodicSnapshotTask Lifetime} {zfsSet : Snapshot → Bool}
  {s next : ZettareplService Date}

def destroyAt (parseSnapshotName : String → String → Option Date)
    (task : PeriodicSnapshotTask Lifetime) (x : Snapshot) : Option Date :=
  (parseSnapshotName x.name task.namingSchema).map (· + task.lifetime)

def view (s : ZettareplService Date) (x : Snapshot) :
    Option Date × Option Date :=
  (s.recorded x, s.cached x)

def fixated (parseSnapshotName : String → String → Option Date)
    (task : PeriodicSnapshotTask Lifetime) (zfsSet : Snapshot → Bool)
    (x : Snapshot) (dates : Option Date × Option Date) :
    Option Date × Option Date :=
  match destroyAt parseSnapshotName task x with
  | none => dates
  | some date =>
    if (∃ existing ∈ dates.2, date ≤ existing) ∨ zfsSet x = false then dates
    else (some date, some date)

omit [LinearOrder Date] in
theorem view_set (s : ZettareplService Date) (x y : Snapshot) (date : Date) : view { s with
      snapshots := s.snapshots.set y.fullName (.date date)
      removalDates := setRemovalDate s.removalDates
        (PyString.splitFirst y.dataset '/') y.fullName date } x =
    if x = y then (some date, some date) else s.view x := by
  simp only [view, recorded, cached, Dict.get?_set,
    getRemovalDate_setRemovalDate, Snapshot.fullName_injective.eq_iff]
  by_cases hx : x = y
  · subst hx
    simp [RemovalDate.date?]
  · simp [hx]

theorem fixateSnapshot_eq (y : Snapshot) : fixateSnapshot parseSnapshotName task zfsSet s y =
      match destroyAt parseSnapshotName task y with
      | none => s
      | some date =>
        if (∃ existing ∈ s.cached y, date ≤ existing) ∨ zfsSet y = false then s
        else { s with
          snapshots := s.snapshots.set y.fullName (.date date)
          removalDates := setRemovalDate s.removalDates
            (PyString.splitFirst y.dataset '/') y.fullName date } := by
  unfold fixateSnapshot destroyAt cached
  cases parseSnapshotName y.name task.namingSchema with
  | none => rfl
  | some datetime =>
    by_cases hexisting : ∃ existing ∈ getRemovalDate s.removalDates
        (PyString.splitFirst y.dataset '/') y.fullName,
        datetime + task.lifetime ≤ existing
    · simp only [hexisting, if_true, true_or, Option.map_some]
    · cases zfsSet y <;> simp only [hexisting, if_false, if_true, or_true,
        or_self, Bool.false_eq_true, Bool.true_eq_false, Option.map_some]

theorem view_fixateSnapshot (x y : Snapshot) :
    (fixateSnapshot parseSnapshotName task zfsSet s y).view x =
      if x = y then fixated parseSnapshotName task zfsSet x (s.view x)
      else s.view x := by
  rw [fixateSnapshot_eq]
  unfold fixated
  by_cases hx : x = y
  · subst hx
    cases destroyAt parseSnapshotName task x with
    | none => simp
    | some date =>
      change view (if (∃ existing ∈ (s.view x).2, date ≤ existing) ∨
        zfsSet x = false then s else _) x = _
      rw [apply_ite (fun t => view t x), view_set, if_pos rfl, if_pos rfl]
  · rw [if_neg hx]
    cases destroyAt parseSnapshotName task y with
    | none => rfl
    | some date =>
      dsimp only
      split_ifs
      · rfl
      · rw [view_set, if_neg hx]

theorem fixated_fixated (x : Snapshot) (dates : Option Date × Option Date) :
    fixated parseSnapshotName task zfsSet x (fixated parseSnapshotName task zfsSet x dates) =
      fixated parseSnapshotName task zfsSet x dates := by
  unfold fixated
  cases destroyAt parseSnapshotName task x with
  | none => rfl
  | some date =>
    by_cases hkept : (∃ existing ∈ dates.2, date ≤ existing) ∨ zfsSet x = false
    · simp only [if_pos hkept]
    · simp only [if_neg hkept]
      exact ite_self _

theorem view_fixateRemovalDate (datasets : List Snapshot) (x : Snapshot) :
    (s.fixateRemovalDate parseSnapshotName datasets task zfsSet).view x =
      if x ∈ datasets then fixated parseSnapshotName task zfsSet x (s.view x)
      else s.view x := by
  unfold fixateRemovalDate
  induction datasets generalizing s with
  | nil => simp
  | cons y rest ih =>
    rw [List.foldl_cons, ih, view_fixateSnapshot]
    by_cases hx : x = y
    · subst hx
      simp [fixated_fixated]
    · simp [hx]

/-- Each snapshot's recorded removal date is equal to or later than it
was. -/
def KeepsDates (s next : ZettareplService Date) : Prop :=
  ∀ x, ∀ date ∈ s.recorded x, ∃ later ∈ next.recorded x, date ≤ later

/-- No snapshot of a pool's root dataset that the cache does not know is given
an earlier date than is recorded for it. -/
def Action.SparesRootDatasets
    (parseSnapshotName : String → String → Option Date)
    (s : ZettareplService Date) : Action Lifetime → Prop
  | .loadRemovalDates _ => True
  | .fixateRemovalDate datasets task zfsSet =>
    ∀ x ∈ datasets, '/' ∉ x.dataset.toList → s.cached x = none →
      zfsSet x = true → ∀ date ∈ s.recorded x,
        ∀ later ∈ destroyAt parseSnapshotName task x, date ≤ later

omit [LinearOrder Date] in
theorem Agrees.eq_of_cached (hagrees : s.Agrees) {x : Snapshot} {date : Date}
    (hcached : s.cached x = some date) : s.recorded x = some date := by
  rcases hagrees x with heq | ⟨_, hnone⟩
  · rw [← heq, hcached]
  · rw [hnone] at hcached
    cases hcached

omit [LinearOrder Date] in
theorem Agrees.root_of_cached_none (hagrees : s.Agrees) {x : Snapshot}
    {date : Date} (hcached : s.cached x = none)
    (hrecorded : s.recorded x = some date) : '/' ∉ x.dataset.toList := by
  rcases hagrees x with heq | ⟨hroot, _⟩
  · rw [← heq, hcached] at hrecorded
    cases hrecorded
  · exact hroot

theorem Agrees.fixateRemovalDate (hagrees : s.Agrees) (datasets : List Snapshot) :
    (s.fixateRemovalDate parseSnapshotName datasets task zfsSet).Agrees := by
  intro x
  have hview := @view_fixateRemovalDate _ _ _ _ parseSnapshotName task zfsSet s datasets x
  have hsame : ∀ dates : Option Date × Option Date,
      (dates.2 = dates.1 ∨ '/' ∉ x.dataset.toList ∧ dates.2 = none) →
      (fixated parseSnapshotName task zfsSet x dates).2 =
          (fixated parseSnapshotName task zfsSet x dates).1 ∨
        '/' ∉ x.dataset.toList ∧ (fixated parseSnapshotName task zfsSet x dates).2 = none := by
    intro dates hdates
    unfold fixated
    split
    · exact hdates
    · split
      · exact hdates
      · exact Or.inl rfl
  change (view _ x).2 = (view _ x).1 ∨ _ ∧ (view _ x).2 = none
  rw [hview]
  split
  · exact hsame _ (hagrees x)
  · exact hagrees x

theorem agrees_step {action : Action Lifetime} (hagrees : s.Agrees)
    (hstep : s.step parseSnapshotName action = some next) : next.Agrees := by
  cases action with
  | loadRemovalDates pool =>
    cases hstep
    cases pool with
    | none => exact agrees_load_all s
    | some pool => exact hagrees.load_pool pool
  | fixateRemovalDate datasets task zfsSet =>
    cases hstep
    exact hagrees.fixateRemovalDate datasets

theorem Agrees.fixated_keeps_iff (hagrees : s.Agrees) (x : Snapshot) : (∀ date ∈ s.recorded x,
      ∃ later ∈ (fixated parseSnapshotName task zfsSet x (s.view x)).1, date ≤ later) ↔
    ('/' ∉ x.dataset.toList → s.cached x = none → zfsSet x = true → ∀ date ∈ s.recorded x,
        ∀ later ∈ destroyAt parseSnapshotName task x, date ≤ later) := by
  have hself : ∀ date ∈ s.recorded x, ∃ later ∈ s.recorded x,
      date ≤ later := fun date hdate => ⟨date, hdate, le_refl date⟩
  unfold fixated
  cases destroyAt parseSnapshotName task x with
  | none => exact iff_of_true hself fun _ _ _ _ _ _ hlater => nomatch hlater
  | some later =>
    dsimp only
    by_cases hset : zfsSet x = false
    · rw [if_pos (Or.inr hset)]
      apply iff_of_true hself
      simp [hset]
    · cases hcached : s.cached x with
      | none =>
        have hset' : zfsSet x = true := by simpa using hset
        have hroot : ∀ date ∈ s.recorded x, '/' ∉ x.dataset.toList :=
          fun date hdate => hagrees.root_of_cached_none hcached hdate
        have hkept : ¬ ((∃ existing ∈ (s.view x).2, later ≤ existing) ∨ zfsSet x = false) := by
          simp [view, hcached, hset']
        rw [if_neg hkept]
        constructor
        · intro hkeeps _ _ _ date hdate other hother
          cases hother
          obtain ⟨_, heq, hle⟩ := hkeeps date hdate
          cases heq
          exact hle
        · intro hspares date hdate
          exact ⟨later, rfl, hspares (hroot date hdate) rfl hset' date hdate later rfl⟩
      | some existing =>
        have hrecorded := hagrees.eq_of_cached hcached
        apply iff_of_true _ fun _ hnone => nomatch hnone
        by_cases hkept : (∃ existing ∈ (s.view x).2, later ≤ existing) ∨ zfsSet x = false
        · rw [if_pos hkept]
          exact hself
        · rw [if_neg hkept]
          intro date hdate
          rw [hrecorded] at hdate
          cases hdate
          rw [not_or, not_exists] at hkept
          have hlt : ¬ later ≤ existing := fun hle => hkept.1 existing ⟨hcached, hle⟩
          exact ⟨later, rfl, (not_le.mp hlt).le⟩

theorem keepsDates_iff {action : Action Lifetime} (hagrees : s.Agrees)
    (hstep : s.step parseSnapshotName action = some next) :
    s.KeepsDates next ↔ action.SparesRootDatasets parseSnapshotName s := by
  cases action with
  | loadRemovalDates pool =>
    cases hstep
    simp only [Action.SparesRootDatasets, iff_true]
    exact fun x date hdate => ⟨date, hdate, le_refl date⟩
  | fixateRemovalDate datasets task zfsSet =>
    cases hstep
    have hrecorded : ∀ x, (s.fixateRemovalDate parseSnapshotName datasets task zfsSet).recorded x =
          if x ∈ datasets then
            (fixated parseSnapshotName task zfsSet x (s.view x)).1
          else s.recorded x := by
      intro x
      change (view _ x).1 = _
      rw [view_fixateRemovalDate, apply_ite Prod.fst]
      rfl
    simp only [KeepsDates, hrecorded, Action.SparesRootDatasets]
    apply forall_congr'
    intro x
    by_cases hx : x ∈ datasets
    · simp only [hx, if_true, true_implies]
      exact hagrees.fixated_keeps_iff x
    · simp only [hx, if_false, false_implies, iff_true]
      exact fun date hdate => ⟨date, hdate, le_refl date⟩

/-- After the removal dates have been loaded, every call keeps all dates
exactly when each keeps those of root datasets that the cache misses. -/
theorem removalDates_kept_iff (parseSnapshotName : String → String → Option Date)
    (snapshots : Dict String (RemovalDate Date))
    {actions : List (Action Lifetime)}
    (hrun : run (step parseSnapshotName)
      ((init snapshots).loadRemovalDates none) actions = some s) :
    EveryStep (step parseSnapshotName)
        (fun t action => action.SparesRootDatasets parseSnapshotName t)
        ((init snapshots).loadRemovalDates none) actions ↔
      EveryStep (step parseSnapshotName) (fun t action => ∀ after,
          t.step parseSnapshotName action = some after → t.KeepsDates after)
        ((init snapshots).loadRemovalDates none) actions := by
  apply everyStep_congr Agrees _ _ (agrees_load_all _) hrun
  · exact fun _ _ _ hagrees hstep => agrees_step hagrees hstep
  · intro t action after hagrees hstep
    rw [← keepsDates_iff hagrees hstep]
    constructor
    · intro hkeeps other hother
      rw [hstep] at hother
      cases hother
      exact hkeeps
    · exact fun hkeeps => hkeeps after hstep

end

/-! ## A snapshot of a root dataset, and one of a child

Dates are days since 1970. -/

def rootSnapshot : Snapshot where
  dataset := "tank"
  name := "auto-2025-01-01_00-00"
  dataset_atSign := by decide
  name_slash := by decide

def childSnapshot : Snapshot where
  dataset := "tank/work"
  name := "auto-2025-01-01_00-00"
  dataset_atSign := by decide
  name_slash := by decide

def newYearNames (name namingSchema : String) : Option ℕ :=
  if name = "auto-2025-01-01_00-00" ∧ namingSchema = "auto-%Y-%m-%d_%H-%M" then
    some 20089
  else none

def twoWeeks : PeriodicSnapshotTask ℕ where
  namingSchema := "auto-%Y-%m-%d_%H-%M"
  lifetime := 14

def newYearSnapshots : Dict String (RemovalDate ℕ) :=
  Dict.ofEntries [(rootSnapshot.fullName, .date 20453), (childSnapshot.fullName, .date 20453)]

theorem childSnapshot_kept :
    ∃ after, ((init newYearSnapshots).loadRemovalDates none).step newYearNames
        (.fixateRemovalDate [childSnapshot] twoWeeks fun _ => true) = some after ∧
      KeepsDates ((init newYearSnapshots).loadRemovalDates none) after := by
  have hspares : EveryStep (step newYearNames)
      (fun t action => action.SparesRootDatasets newYearNames t)
      ((init newYearSnapshots).loadRemovalDates none)
      [.fixateRemovalDate [childSnapshot] twoWeeks fun _ => true] := by
    refine everyStep_cons ?_ rfl trivial
    intro x hx hroot
    rw [List.mem_singleton.mp hx] at hroot
    exact absurd (by decide) hroot
  have hkept := (removalDates_kept_iff newYearNames newYearSnapshots rfl).mp hspares
  exact ⟨_, rfl, hkept.1 _ rfl⟩

/-- The date of a snapshot of the root dataset is looked up under another name. -/
theorem rootSnapshot_not_kept :
    ∃ after, ((init newYearSnapshots).loadRemovalDates none).step newYearNames
        (.fixateRemovalDate [rootSnapshot] twoWeeks fun _ => true) = some after ∧
      ¬ KeepsDates ((init newYearSnapshots).loadRemovalDates none) after := by
  refine ⟨_, rfl, ?_⟩
  intro hkeeps
  obtain ⟨later, hlater, hle⟩ := hkeeps rootSnapshot 20453 rfl
  have hset : later = 20103 := (Option.some.inj hlater).symm
  omega

end ZettareplService

end Middlewared
