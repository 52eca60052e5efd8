import Middlewared.ReplicationTask
import Middlewared.TransitionSystem

/-!
# Bindings of replication tasks

The tables of periodic snapshot tasks and of replication tasks, the rows that
bind them, and the calls that write them: `create`, `update` and `delete` of the
two services, and `toggle` and `delete` of their filesystem attachment
delegates, which write the tables without a check.
-/

namespace Middlewared

structure ReplicationBindings where
  tasks : Dict ℕ SnapshotTask
  replications : Dict ℕ ReplicationRow
  links : List (ℕ × ℕ)

namespace ReplicationBindings

def init : ReplicationBindings where
  tasks := Dict.empty
  replications := Dict.empty
  links := []

/-- `periodic_snapshot_tasks` of a replication task: the ids are those of a
set. -/
def boundTasks (s : ReplicationBindings) (r : ℕ) : List ℕ :=
  ((s.links.filter fun link => link.1 = r).map Prod.snd).dedup.filter fun t => t ∈ s.tasks

def setTask (s : ReplicationBindings) (t : ℕ) (task : SnapshotTask) :
    ReplicationBindings :=
  { s with tasks := s.tasks.set t task }

/-- `datastore.delete` of a periodic snapshot task, with what cascades. -/
def deleteTask (s : ReplicationBindings) (t : ℕ) : ReplicationBindings :=
  { s with tasks := s.tasks.erase t, links := s.links.filter fun link => link.2 ≠ t }

def deleteReplication (s : ReplicationBindings) (r : ℕ) :
    ReplicationBindings :=
  { s with replications := s.replications.erase r, links := s.links.filter fun link => link.1 ≠ r }

/-- The row of a replication task and `_set_periodic_snapshot_tasks`. -/
def writeReplication (s : ReplicationBindings) (r : ℕ)
    (data : ReplicationData) : ReplicationBindings :=
  { s with
    replications := s.replications.set r data.compress
    links := (s.links.filter fun link => link.1 ≠ r) ++
      data.periodicSnapshotTasks.map fun t => (r, t) }

def createTask (s : ReplicationBindings) (t : ℕ) (data : SnapshotTask)
    (filesystemChoices : List DatasetName) : Option ReplicationBindings :=
  if t ∉ s.tasks ∧ data.validate filesystemChoices = [] then
    some (s.setTask t data)
  else none

def boundEnabled (s : ReplicationBindings) (t : ℕ) : Bool :=
  s.replications.entries.any fun entry =>
    entry.2.enabled && decide (t ∈ s.boundTasks entry.1)

def updateTask (s : ReplicationBindings) (t : ℕ)
    (update : SnapshotTask → SnapshotTask)
    (filesystemChoices : List DatasetName) : Option ReplicationBindings :=
  match s.tasks.get? t with
  | none => none
  | some old =>
    let new := update old
    if new.validate filesystemChoices = [] ∧ (new.enabled = true ∨ s.boundEnabled t = false) then
      some (s.setTask t new)
    else none

/-- An enabled push replication task without `also_include_naming_schema` for
which the task is the last one. -/
def lastTask (s : ReplicationBindings) (t : ℕ) : Bool :=
  s.replications.entries.any fun entry =>
    decide (entry.2.direction = .push) && decide (entry.2.namingSchema = []) &&
      entry.2.enabled && decide (s.boundTasks entry.1 = [t])

/-- `do_delete` of `PeriodicSnapshotTaskService`. -/
def removeTask (s : ReplicationBindings) (t : ℕ) :
    Option ReplicationBindings :=
  if s.lastTask t then none else some (s.deleteTask t)

def createReplication (s : ReplicationBindings) (r : ℕ)
    (data : ReplicationData) (checks : ReplicationChecks) :
    Option ReplicationBindings :=
  if r ∉ s.replications ∧ data.validate s.tasks s.replications checks none = [] then
    some (s.writeReplication r data)
  else none

def updateReplication (s : ReplicationBindings) (r : ℕ)
    (update : ReplicationData → ReplicationData) (checks : ReplicationChecks) :
    Option ReplicationBindings :=
  match s.replications.get? r with
  | none => none
  | some old =>
    let new := update (old.extend (s.boundTasks r))
    if new.validate s.tasks s.replications checks (some r) = [] then
      some (s.writeReplication r new)
    else none

/-- `do_delete` of `ReplicationService`. -/
def removeReplication (s : ReplicationBindings) (r : ℕ) :
    Option ReplicationBindings :=
  if r ∈ s.replications then some (s.deleteReplication r) else none

/-- `toggle` of `PeriodicSnapshotTaskFSAttachmentDelegate`: the update of a task
that is no longer there raises, and the rest is left as it is. -/
def toggleTasks (s : ReplicationBindings) (enabled : Bool) :
    List ℕ → ReplicationBindings
  | [] => s
  | t :: rest =>
    match s.tasks.get? t with
    | none => s
    | some task =>
      (s.setTask t { task with enabled }).toggleTasks enabled rest

/-- `toggle` of `ReplicationFSAttachmentDelegate`. -/
def toggleReplications (s : ReplicationBindings) (enabled : Bool) :
    List ℕ → ReplicationBindings
  | [] => s
  | r :: rest =>
    match s.replications.get? r with
    | none => s
    | some row =>
      { s with
        replications := s.replications.set r
          { row with enabled } }.toggleReplications enabled rest

inductive Action where
  /-- The id is one that `datastore.insert` may give. -/
  | createTask (t : ℕ) (data : SnapshotTask) (filesystemChoices : List DatasetName)
  | updateTask (t : ℕ) (update : SnapshotTask → SnapshotTask) (filesystemChoices : List DatasetName)
  | removeTask (t : ℕ)
  | createReplication (r : ℕ) (data : ReplicationData) (checks : ReplicationChecks)
  | updateReplication (r : ℕ) (update : ReplicationData → ReplicationData)
      (checks : ReplicationChecks)
  | removeReplication (r : ℕ)
  | deleteTasks (attachments : List ℕ)
  | toggleTasks (attachments : List ℕ) (enabled : Bool)
  | deleteReplications (attachments : List ℕ)
  | toggleReplications (attachments : List ℕ) (enabled : Bool)

def step (s : ReplicationBindings) : Action → Option ReplicationBindings
  | .createTask t data filesystemChoices =>
    s.createTask t data filesystemChoices
  | .updateTask t update filesystemChoices =>
    s.updateTask t update filesystemChoices
  | .removeTask t => s.removeTask t
  | .createReplication r data checks => s.createReplication r data checks
  | .updateReplication r update checks => s.updateReplication r update checks
  | .removeReplication r => s.removeReplication r
  | .deleteTasks attachments => some (attachments.foldl deleteTask s)
  | .toggleTasks attachments enabled =>
    some (s.toggleTasks enabled attachments)
  | .deleteReplications attachments =>
    some (attachments.foldl deleteReplication s)
  | .toggleReplications attachments enabled =>
    some (s.toggleReplications enabled attachments)

/-! ## A property of a state, and what keeps it -/

structure SoundRow (s : ReplicationBindings) (r : ℕ) (row : ReplicationRow) :
    Prop where
  enabled : ∀ t, (r, t) ∈ s.links → ∃ task ∈ s.tasks.get? t, task.enabled = true
  source : row.direction = .push → s.boundTasks r ≠ [] ∨ row.namingSchema ≠ [] ∨
      (truthy row.nameRegex).isSome

def Sound (s : ReplicationBindings) : Prop :=
  ∀ r, ∀ row ∈ s.replications.get? r, row.enabled = true → s.SoundRow r row

def Respects (s : ReplicationBindings) : Action → Prop
  | .deleteTasks attachments =>
    ∀ r, ∀ row ∈ s.replications.get? r, row.enabled = true →
      row.direction = .push → row.namingSchema = [] → truthy row.nameRegex = none →
          ∃ t ∈ s.boundTasks r, t ∉ attachments
  | .toggleTasks attachments false =>
    ∀ t ∈ attachments.takeWhile (· ∈ s.tasks),
      ∀ r, ∀ row ∈ s.replications.get? r, row.enabled = true → t ∉ s.boundTasks r
  | .toggleReplications attachments true =>
    ∀ r ∈ attachments.takeWhile (· ∈ s.replications),
      ∀ row ∈ s.replications.get? r, s.SoundRow r row
  | _ => True

theorem forall_get?_iff {κ ν : Type*} [DecidableEq κ] {d : Dict κ ν} {p : κ → ν → Prop} :
    (∀ k, ∀ v ∈ d.get? k, p k v) ↔ ∀ entry ∈ d.entries, p entry.1 entry.2 := by
  constructor
  · intro hall entry hentry
    exact hall entry.1 entry.2 (Dict.mem_entries_iff.mp hentry)
  · intro hall k v hget
    exact hall (k, v) (Dict.mem_entries_iff.mpr hget)

instance {κ ν : Type*} [DecidableEq κ] {d : Dict κ ν} {p : κ → ν → Prop}
    [∀ k v, Decidable (p k v)] : Decidable (∀ k, ∀ v ∈ d.get? k, p k v) :=
  decidable_of_iff _ forall_get?_iff.symm

instance (s : ReplicationBindings) (r : ℕ) (row : ReplicationRow) :
    Decidable (s.SoundRow r row) :=
  decidable_of_iff ((∀ link ∈ s.links, link.1 = r →
        ∃ task ∈ s.tasks.get? link.2, task.enabled = true) ∧
      (row.direction = .push → s.boundTasks r ≠ [] ∨ row.namingSchema ≠ [] ∨
        (truthy row.nameRegex).isSome))
    ⟨fun hrow => ⟨fun t ht => hrow.1 (r, t) ht rfl, hrow.2⟩,
      fun hrow => ⟨fun link hlink hr => hrow.enabled link.2 (hr ▸ hlink), hrow.source⟩⟩

instance (s : ReplicationBindings) : Decidable s.Sound :=
  inferInstanceAs (Decidable (∀ r, ∀ row ∈ s.replications.get? r,
    row.enabled = true → s.SoundRow r row))

instance (s : ReplicationBindings) : DecidablePred s.Respects
  | .deleteTasks attachments =>
    inferInstanceAs (Decidable (∀ r, ∀ row ∈ s.replications.get? r,
      row.enabled = true → row.direction = .push → row.namingSchema = [] →
        truthy row.nameRegex = none → ∃ t ∈ s.boundTasks r, t ∉ attachments))
  | .toggleTasks attachments false =>
    inferInstanceAs (Decidable (∀ t ∈ attachments.takeWhile (· ∈ s.tasks),
        ∀ r, ∀ row ∈ s.replications.get? r, row.enabled = true → t ∉ s.boundTasks r))
  | .toggleReplications attachments true =>
    inferInstanceAs (Decidable (∀ r ∈ attachments.takeWhile (· ∈ s.replications),
        ∀ row ∈ s.replications.get? r, s.SoundRow r row))
  | .toggleTasks _ true | .toggleReplications _ false
  | .createTask _ _ _ | .updateTask _ _ _ | .removeTask _
  | .createReplication _ _ _ | .updateReplication _ _ _
  | .removeReplication _ | .deleteReplications _ => isTrue trivial

def Refers (s : ReplicationBindings) : Prop :=
  ∀ link ∈ s.links, link.1 ∈ s.replications ∧ link.2 ∈ s.tasks

open TransitionSystem

section

variable {s next : ReplicationBindings} {r t : ℕ}

theorem mem_boundTasks_iff : t ∈ s.boundTasks r ↔ (r, t) ∈ s.links ∧ t ∈ s.tasks := by
  simp [boundTasks]

theorem Refers.mem_boundTasks_iff (hrefers : s.Refers) : t ∈ s.boundTasks r ↔ (r, t) ∈ s.links := by
  rw [ReplicationBindings.mem_boundTasks_iff, and_iff_left_iff_imp]
  intro hlink
  exact (hrefers (r, t) hlink).2

theorem Refers.boundTasks_ne_nil_iff (hrefers : s.Refers) :
    s.boundTasks r ≠ [] ↔ ∃ t, (r, t) ∈ s.links := by
  constructor
  · intro hne
    obtain ⟨t, ht⟩ := List.exists_mem_of_ne_nil _ hne
    exact ⟨t, hrefers.mem_boundTasks_iff.mp ht⟩
  · intro hexists
    obtain ⟨t, ht⟩ := hexists
    exact List.ne_nil_of_mem (hrefers.mem_boundTasks_iff.mpr ht)

theorem refers_init : init.Refers := by
  intro link hlink
  exact absurd hlink List.not_mem_nil

theorem sound_init : init.Sound := by
  intro r row hrow
  simp [init] at hrow

theorem Refers.soundRow_iff (hrefers : s.Refers) {row : ReplicationRow} : s.SoundRow r row ↔
    (∀ t, (r, t) ∈ s.links → ∃ task ∈ s.tasks.get? t, task.enabled = true) ∧
      (row.direction = .push → (∃ t, (r, t) ∈ s.links) ∨
        row.namingSchema ≠ [] ∨ (truthy row.nameRegex).isSome) := by
  rw [← hrefers.boundTasks_ne_nil_iff]
  exact ⟨fun hrow => ⟨hrow.enabled, hrow.source⟩, fun hrow => ⟨hrow.1, hrow.2⟩⟩

/-! ## Writes of periodic snapshot tasks -/

theorem Sound.iff_of_tasks (hsound : s.Sound) (hrefers : s.Refers)
    (hnext : next.Refers) (hreplications : next.replications = s.replications)
    (hlinks : next.links = s.links) :
    next.Sound ↔ ∀ r, ∀ row ∈ s.replications.get? r, row.enabled = true → ∀ t, (r, t) ∈ s.links →
        ∃ task ∈ next.tasks.get? t, task.enabled = true := by
  unfold Sound
  rw [hreplications]
  constructor
  · intro hall r row hrow henabled
    have hsoundRow := hall r row hrow henabled
    rw [hnext.soundRow_iff, hlinks] at hsoundRow
    exact hsoundRow.1
  · intro hall r row hrow henabled
    have hbefore := hsound r row hrow henabled
    rw [hrefers.soundRow_iff] at hbefore
    rw [hnext.soundRow_iff, hlinks]
    exact ⟨hall r row hrow henabled, hbefore.2⟩

theorem Refers.setTask (hrefers : s.Refers) (t : ℕ) (task : SnapshotTask) :
    (s.setTask t task).Refers := by
  intro link hlink
  have hold := hrefers link hlink
  exact ⟨hold.1, Dict.mem_set_iff.mpr (Or.inr hold.2)⟩

theorem Sound.setTask (hsound : s.Sound) (hrefers : s.Refers) {task : SnapshotTask}
    (htask : task.enabled = true ∨ ∀ r, ∀ row ∈ s.replications.get? r,
      row.enabled = true → (r, t) ∉ s.links) :
    (s.setTask t task).Sound := by
  rw [hsound.iff_of_tasks hrefers (hrefers.setTask t task) rfl rfl]
  intro r row hrow henabled u hu
  have hbefore := (hsound r row hrow henabled).enabled u hu
  simp only [ReplicationBindings.setTask, Dict.get?_set]
  by_cases hut : u = t
  · subst hut
    rcases htask with htask | hfree
    · simpa using htask
    · exact absurd hu (hfree r row hrow henabled)
  · simpa [hut] using hbefore

theorem refers_toggleTasks (hrefers : s.Refers) (enabled : Bool)
    (ids : List ℕ) : (s.toggleTasks enabled ids).Refers := by
  induction ids generalizing s with
  | nil => exact hrefers
  | cons t rest ih =>
    unfold toggleTasks
    split
    · exact hrefers
    · exact ih (hrefers.setTask t _)

theorem toggleTasks_replications (enabled : Bool) (ids : List ℕ) :
    (s.toggleTasks enabled ids).replications = s.replications := by
  induction ids generalizing s with
  | nil => rfl
  | cons t rest ih =>
    unfold toggleTasks
    split
    · rfl
    · exact ih

theorem toggleTasks_links (enabled : Bool) (ids : List ℕ) :
    (s.toggleTasks enabled ids).links = s.links := by
  induction ids generalizing s with
  | nil => rfl
  | cons t rest ih =>
    unfold toggleTasks
    split
    · rfl
    · exact ih

theorem get?_toggleTasks (enabled : Bool) (ids : List ℕ) (t : ℕ) :
    (s.toggleTasks enabled ids).tasks.get? t = if t ∈ ids.takeWhile (· ∈ s.tasks) then
        (s.tasks.get? t).map fun task => { task with enabled }
      else s.tasks.get? t := by
  induction ids generalizing s with
  | nil => rfl
  | cons u rest ih =>
    unfold toggleTasks
    split
    · rename_i hnone
      have hmem : u ∉ s.tasks := Dict.get?_eq_none_iff.mp hnone
      simp [hmem]
    · rename_i task htask
      have hmem : u ∈ s.tasks := Dict.mem_of_get?_eq_some htask
      have hsame : ∀ v, v ∈ (s.setTask u { task with enabled }).tasks ↔ v ∈ s.tasks := by
        intro v
        rw [setTask, Dict.mem_set_iff]
        exact ⟨fun hv => hv.elim (fun h => h ▸ hmem) id, Or.inr⟩
      rw [ih, List.takeWhile_cons_of_pos (by simpa using hmem)]
      simp only [hsame, List.mem_cons]
      by_cases htu : t = u
      · subst htu
        simp [setTask, htask]
      · simp [setTask, Dict.get?_set, htu]

theorem Sound.toggleTasks_iff (hsound : s.Sound) (hrefers : s.Refers)
    (enabled : Bool) (ids : List ℕ) :
    (s.toggleTasks enabled ids).Sound ↔ s.Respects (.toggleTasks ids enabled) := by
  rw [hsound.iff_of_tasks hrefers (refers_toggleTasks hrefers enabled ids)
    (toggleTasks_replications enabled ids) (toggleTasks_links enabled ids)]
  simp only [get?_toggleTasks]
  cases enabled with
  | true =>
    refine ⟨fun _ => trivial, ?_⟩
    intro _ r row hrow henabled t ht
    obtain ⟨task, htask, htaskEnabled⟩ := (hsound r row hrow henabled).enabled t ht
    rw [Option.mem_def] at htask
    split <;> simp [htask, htaskEnabled]
  | false =>
    constructor
    · intro hall t ht r row hrow henabled hbound
      rw [hrefers.mem_boundTasks_iff] at hbound
      obtain ⟨task, htask, htaskEnabled⟩ := hall r row hrow henabled t hbound
      rw [if_pos ht, Option.mem_def, Option.map_eq_some_iff] at htask
      obtain ⟨old, _, hold⟩ := htask
      rw [← hold] at htaskEnabled
      cases htaskEnabled
    · intro hfree r row hrow henabled t ht
      have hnotMem : t ∉ ids.takeWhile (· ∈ s.tasks) := by
        intro hmem
        apply hfree t hmem r row hrow henabled
        rw [hrefers.mem_boundTasks_iff]
        exact ht
      rw [if_neg hnotMem]
      exact (hsound r row hrow henabled).enabled t ht

theorem refers_deleteTask (hrefers : s.Refers) (t : ℕ) : (s.deleteTask t).Refers := by
  intro link hlink
  simp only [deleteTask, List.mem_filter, decide_eq_true_eq] at hlink
  have hold := hrefers link hlink.1
  exact ⟨hold.1, Dict.mem_erase_iff.mpr ⟨hlink.2, hold.2⟩⟩

theorem refers_deleteTasks (hrefers : s.Refers) (ids : List ℕ) :
    (ids.foldl deleteTask s).Refers := by
  induction ids generalizing s with
  | nil => exact hrefers
  | cons t rest ih => exact ih (refers_deleteTask hrefers t)

theorem deleteTasks_replications (ids : List ℕ) :
    (ids.foldl deleteTask s).replications = s.replications := by
  induction ids generalizing s with
  | nil => rfl
  | cons t rest ih => exact ih

theorem mem_deleteTasks_links (ids : List ℕ) (link : ℕ × ℕ) :
    link ∈ (ids.foldl deleteTask s).links ↔ link ∈ s.links ∧ link.2 ∉ ids := by
  induction ids generalizing s with
  | nil => simp
  | cons t rest ih =>
    rw [List.foldl_cons, ih]
    simp only [deleteTask, List.mem_filter, decide_eq_true_eq, List.mem_cons, not_or, and_assoc]

theorem get?_deleteTasks (ids : List ℕ) {t : ℕ} (ht : t ∉ ids) :
    (ids.foldl deleteTask s).tasks.get? t = s.tasks.get? t := by
  induction ids generalizing s with
  | nil => rfl
  | cons u rest ih =>
    rw [List.mem_cons, not_or] at ht
    rw [List.foldl_cons, ih ht.2, deleteTask, Dict.get?_erase, if_neg ht.1]

theorem Sound.deleteTasks_iff (hsound : s.Sound) (hrefers : s.Refers) (ids : List ℕ) :
    (ids.foldl deleteTask s).Sound ↔ s.Respects (.deleteTasks ids) := by
  have hnext := refers_deleteTasks hrefers ids
  unfold Sound Respects
  rw [deleteTasks_replications]
  constructor
  · intro hall r row hrow henabled hpush hnaming hregex
    have hsource := (hall r row hrow henabled).source hpush
    rw [hnext.boundTasks_ne_nil_iff] at hsource
    simp only [mem_deleteTasks_links, hnaming, ne_eq, not_true_eq_false,
      hregex, Option.isSome_none, Bool.false_eq_true, or_self, or_false]
      at hsource
    obtain ⟨t, hlink, ht⟩ := hsource
    exact ⟨t, hrefers.mem_boundTasks_iff.mpr hlink, ht⟩
  · intro hrespects r row hrow henabled
    have hbefore := hsound r row hrow henabled
    rw [hnext.soundRow_iff]
    simp only [mem_deleteTasks_links]
    constructor
    · intro t ht
      rw [get?_deleteTasks ids ht.2]
      exact hbefore.enabled t ht.1
    · intro hpush
      by_cases hnaming : row.namingSchema = []
      · cases hregex : truthy row.nameRegex with
        | some regex => simp
        | none =>
          obtain ⟨t, hbound, ht⟩ := hrespects r row hrow henabled hpush hnaming hregex
          exact Or.inl ⟨t, hrefers.mem_boundTasks_iff.mp hbound, ht⟩
      · exact Or.inr (Or.inl hnaming)

theorem Sound.deleteTask (hsound : s.Sound) (hrefers : s.Refers)
    (hlast : s.lastTask t = false) : (s.deleteTask t).Sound := by
  refine (hsound.deleteTasks_iff hrefers [t]).mpr ?_
  intro r row hrow henabled hpush hnaming hregex
  have hsource := (hsound r row hrow henabled).source hpush
  simp only [hnaming, ne_eq, not_true_eq_false, hregex, Option.isSome_none,
    Bool.false_eq_true, or_self, or_false] at hsource
  have hne : s.boundTasks r ≠ [t] := by
    have hmem := Dict.mem_entries_iff.mpr hrow
    simp only [lastTask, List.any_eq_false] at hlast
    simpa [hpush, hnaming, henabled] using hlast (r, row) hmem
  have hnodup : (s.boundTasks r).Nodup := (List.nodup_dedup _).filter _
  by_contra hnone
  simp only [List.mem_singleton, not_exists, not_and, not_not] at hnone
  apply hne
  rw [List.eq_replicate_of_mem hnone] at hnodup hsource ⊢
  rw [List.nodup_replicate] at hnodup
  have hlength : (s.boundTasks r).length = 1 := by
    have hpos : (s.boundTasks r).length ≠ 0 := by
      intro hzero
      exact hsource (by rw [hzero]; rfl)
    omega
  rw [hlength]
  rfl

/-! ## Writes of replication tasks -/

theorem refers_writeReplication (hrefers : s.Refers) {data : ReplicationData}
    (hexists : ∀ t ∈ data.periodicSnapshotTasks, t ∈ s.tasks) (r : ℕ) :
    (s.writeReplication r data).Refers := by
  intro link hlink
  simp only [writeReplication, List.mem_append, List.mem_filter,
    decide_eq_true_eq, List.mem_map] at hlink
  rcases hlink with hold | hnew
  · have hlinkOld := hrefers link hold.1
    exact ⟨Dict.mem_set_iff.mpr (Or.inr hlinkOld.1), hlinkOld.2⟩
  · obtain ⟨t, ht, hlink⟩ := hnew
    subst hlink
    exact ⟨Dict.mem_set_iff.mpr (Or.inl rfl), hexists t ht⟩

theorem mem_writeReplication_links (data : ReplicationData) (r u t : ℕ) :
    (u, t) ∈ (s.writeReplication r data).links ↔
      if u = r then t ∈ data.periodicSnapshotTasks else (u, t) ∈ s.links := by
  by_cases hu : u = r
  · simp [writeReplication, hu]
  · simp [writeReplication, hu, Ne.symm hu]

theorem Sound.writeReplication (hsound : s.Sound) (hrefers : s.Refers)
    {data : ReplicationData} {checks : ReplicationChecks} {id : Option ℕ}
    (hvalid : data.validate s.tasks s.replications checks id = []) (r : ℕ) :
    (s.writeReplication r data).Sound := by
  have hnext : (s.writeReplication r data).Refers := by
    apply refers_writeReplication hrefers
    intro t ht
    exact (ReplicationData.mem_tasks_of_validate hvalid ht).2
  intro u row hrow henabled
  rw [hnext.soundRow_iff]
  simp only [mem_writeReplication_links]
  simp only [ReplicationBindings.writeReplication, Dict.get?_set] at hrow ⊢
  by_cases hu : u = r
  · rw [if_pos hu, Option.mem_some_iff] at hrow
    subst hrow
    simp only [if_pos hu]
    constructor
    · intro t ht
      exact ReplicationData.enabled_of_validate hvalid henabled ht
    · intro hpush
      have hsource := ReplicationData.source_of_validate hvalid hpush
      rw [← ReplicationData.compress_namingSchema hpush] at hsource
      rcases hsource with hbound | hsource
      · exact Or.inl (List.exists_mem_of_ne_nil _ hbound)
      · exact Or.inr hsource
  · rw [if_neg hu] at hrow
    simp only [if_neg hu]
    exact hrefers.soundRow_iff.mp (hsound u row hrow henabled)

theorem mem_deleteReplication_links (r u t : ℕ) :
    (u, t) ∈ (s.deleteReplication r).links ↔ (u, t) ∈ s.links ∧ u ≠ r := by
  simp [deleteReplication]

theorem refers_deleteReplication (hrefers : s.Refers) (r : ℕ) : (s.deleteReplication r).Refers := by
  intro link hlink
  rw [mem_deleteReplication_links] at hlink
  have hold := hrefers link hlink.1
  exact ⟨Dict.mem_erase_iff.mpr ⟨hlink.2, hold.1⟩, hold.2⟩

theorem Sound.deleteReplication (hsound : s.Sound) (hrefers : s.Refers)
    (r : ℕ) : (s.deleteReplication r).Sound := by
  intro u row hrow henabled
  rw [(refers_deleteReplication hrefers r).soundRow_iff]
  simp only [mem_deleteReplication_links]
  simp only [ReplicationBindings.deleteReplication, Dict.get?_erase] at hrow ⊢
  by_cases hu : u = r
  · simp [hu] at hrow
  · rw [if_neg hu] at hrow
    have hbefore := hsound u row hrow henabled
    rw [hrefers.soundRow_iff] at hbefore
    simp only [hu, ne_eq, not_false_eq_true, and_true]
    exact hbefore

theorem refers_deleteReplications (hrefers : s.Refers) (ids : List ℕ) :
    (ids.foldl deleteReplication s).Refers := by
  induction ids generalizing s with
  | nil => exact hrefers
  | cons r rest ih => exact ih (refers_deleteReplication hrefers r)

theorem Sound.deleteReplications (hsound : s.Sound) (hrefers : s.Refers) (ids : List ℕ) :
    (ids.foldl ReplicationBindings.deleteReplication s).Sound := by
  induction ids generalizing s with
  | nil => exact hsound
  | cons r rest ih =>
    exact ih (hsound.deleteReplication hrefers r) (refers_deleteReplication hrefers r)

theorem toggleReplications_tasks (enabled : Bool) (ids : List ℕ) :
    (s.toggleReplications enabled ids).tasks = s.tasks := by
  induction ids generalizing s with
  | nil => rfl
  | cons r rest ih =>
    unfold toggleReplications
    split
    · rfl
    · exact ih

theorem toggleReplications_links (enabled : Bool) (ids : List ℕ) :
    (s.toggleReplications enabled ids).links = s.links := by
  induction ids generalizing s with
  | nil => rfl
  | cons r rest ih =>
    unfold toggleReplications
    split
    · rfl
    · exact ih

theorem get?_toggleReplications (enabled : Bool) (ids : List ℕ) (r : ℕ) :
    (s.toggleReplications enabled ids).replications.get? r =
      if r ∈ ids.takeWhile (· ∈ s.replications) then
        (s.replications.get? r).map fun row => { row with enabled }
      else s.replications.get? r := by
  induction ids generalizing s with
  | nil => rfl
  | cons u rest ih =>
    unfold toggleReplications
    split
    · rename_i hnone
      have hmem : u ∉ s.replications := Dict.get?_eq_none_iff.mp hnone
      simp [hmem]
    · rename_i row hrow
      have hmem : u ∈ s.replications := Dict.mem_of_get?_eq_some hrow
      have hsame : ∀ v, v ∈ s.replications.set u
          { row with enabled } ↔ v ∈ s.replications := by
        intro v
        rw [Dict.mem_set_iff]
        exact ⟨fun hv => hv.elim (fun h => h ▸ hmem) id, Or.inr⟩
      rw [ih, List.takeWhile_cons_of_pos (by simpa using hmem)]
      simp only [hsame, List.mem_cons]
      by_cases hru : r = u
      · subst hru
        simp [hrow]
      · simp [Dict.get?_set, hru]

theorem refers_toggleReplications (hrefers : s.Refers) (enabled : Bool)
    (ids : List ℕ) : (s.toggleReplications enabled ids).Refers := by
  intro link hlink
  rw [toggleReplications_links] at hlink
  have hold := hrefers link hlink
  refine ⟨?_, (toggleReplications_tasks (s := s) enabled ids).symm ▸ hold.2⟩
  rw [← Dict.get?_isSome_iff, get?_toggleReplications]
  rw [← Dict.get?_isSome_iff] at hold
  split
  · rw [Option.isSome_map]
    exact hold.1
  · exact hold.1

theorem soundRow_toggleReplications (enabled : Bool) (ids : List ℕ) (r : ℕ)
    (row : ReplicationRow) (b : Bool) :
    (s.toggleReplications enabled ids).SoundRow r { row with enabled := b } ↔ s.SoundRow r row := by
  have hbound : (s.toggleReplications enabled ids).boundTasks r = s.boundTasks r := by
    simp only [boundTasks, toggleReplications_links, toggleReplications_tasks]
  constructor
  · intro hrow
    have henabled := hrow.enabled
    have hsource := hrow.source
    rw [toggleReplications_links, toggleReplications_tasks] at henabled
    rw [hbound] at hsource
    exact ⟨henabled, hsource⟩
  · intro hrow
    constructor
    · rw [toggleReplications_links, toggleReplications_tasks]
      exact hrow.enabled
    · rw [hbound]
      exact hrow.source

theorem Sound.toggleReplications_iff (hsound : s.Sound) (enabled : Bool) (ids : List ℕ) :
    (s.toggleReplications enabled ids).Sound ↔ s.Respects (.toggleReplications ids enabled) := by
  unfold Sound
  simp only [get?_toggleReplications]
  cases enabled with
  | false =>
    refine ⟨fun _ => trivial, ?_⟩
    intro _ r row hrow henabled
    split at hrow
    · rw [Option.mem_def, Option.map_eq_some_iff] at hrow
      obtain ⟨old, _, hold⟩ := hrow
      rw [← hold] at henabled
      cases henabled
    · exact (soundRow_toggleReplications false ids r row row.enabled).mpr
        (hsound r row hrow henabled)
  | true =>
    constructor
    · intro hall r hr row hrow
      have hnext := hall r { row with enabled := true } ?_ rfl
      · exact (soundRow_toggleReplications true ids r row true).mp hnext
      · rw [if_pos hr, hrow]
        rfl
    · intro hrespects r row hrow henabled
      split at hrow
      · rename_i hr
        rw [Option.mem_def, Option.map_eq_some_iff] at hrow
        obtain ⟨old, hget, hold⟩ := hrow
        rw [← hold]
        exact (soundRow_toggleReplications true ids r old true).mpr (hrespects r hr old hget)
      · exact (soundRow_toggleReplications true ids r row row.enabled).mpr
          (hsound r row hrow henabled)

end

/-! ## What a step keeps -/

section

variable {s next : ReplicationBindings} {a : Action}

theorem refers_step (hrefers : s.Refers) (hstep : step s a = some next) : next.Refers := by
  cases a with
  | createTask t data filesystemChoices =>
    obtain ⟨_, rfl⟩ := Option.ite_some_none_eq_some.mp hstep
    exact hrefers.setTask t data
  | updateTask t update filesystemChoices =>
    simp only [step, updateTask] at hstep
    split at hstep
    · cases hstep
    · obtain ⟨_, rfl⟩ := Option.ite_some_none_eq_some.mp hstep
      exact hrefers.setTask t _
  | removeTask t =>
    simp only [step, removeTask, Option.ite_none_left_eq_some] at hstep
    cases hstep.2
    exact refers_deleteTask hrefers t
  | createReplication r data checks =>
    obtain ⟨hguard, rfl⟩ := Option.ite_some_none_eq_some.mp hstep
    apply refers_writeReplication hrefers
    intro t ht
    exact (ReplicationData.mem_tasks_of_validate hguard.2 ht).2
  | updateReplication r update checks =>
    simp only [step, updateReplication] at hstep
    split at hstep
    · cases hstep
    · obtain ⟨hguard, rfl⟩ := Option.ite_some_none_eq_some.mp hstep
      apply refers_writeReplication hrefers
      intro t ht
      exact (ReplicationData.mem_tasks_of_validate hguard ht).2
  | removeReplication r =>
    obtain ⟨_, rfl⟩ := Option.ite_some_none_eq_some.mp hstep
    exact refers_deleteReplication hrefers r
  | deleteTasks attachments =>
    cases hstep
    exact refers_deleteTasks hrefers attachments
  | toggleTasks attachments enabled =>
    cases hstep
    exact refers_toggleTasks hrefers enabled attachments
  | deleteReplications attachments =>
    cases hstep
    exact refers_deleteReplications hrefers attachments
  | toggleReplications attachments enabled =>
    cases hstep
    exact refers_toggleReplications hrefers enabled attachments

theorem notMem_links_of_boundEnabled (hrefers : s.Refers) {t : ℕ}
    (hfree : s.boundEnabled t = false) :
    ∀ r, ∀ row ∈ s.replications.get? r, row.enabled = true → (r, t) ∉ s.links := by
  intro r row hrow henabled hlink
  have hmem := Dict.mem_entries_iff.mpr hrow
  simp only [boundEnabled, List.any_eq_false] at hfree
  have hbound := hfree (r, row) hmem
  rw [henabled, Bool.true_and, decide_eq_true_eq, hrefers.mem_boundTasks_iff] at hbound
  exact hbound hlink

theorem Sound.step_iff (hsound : s.Sound) (hrefers : s.Refers)
    (hstep : step s a = some next) : next.Sound ↔ s.Respects a := by
  cases a with
  | createTask t data filesystemChoices =>
    obtain ⟨hguard, rfl⟩ := Option.ite_some_none_eq_some.mp hstep
    refine iff_of_true (hsound.setTask hrefers (Or.inr ?_)) trivial
    intro r row _ _ hlink
    exact hguard.1 (hrefers (r, t) hlink).2
  | updateTask t update filesystemChoices =>
    simp only [step, updateTask] at hstep
    split at hstep
    · cases hstep
    · obtain ⟨hguard, rfl⟩ := Option.ite_some_none_eq_some.mp hstep
      refine iff_of_true (hsound.setTask hrefers ?_) trivial
      exact hguard.2.imp id (notMem_links_of_boundEnabled hrefers)
  | removeTask t =>
    simp only [step, removeTask, Option.ite_none_left_eq_some] at hstep
    cases hstep.2
    refine iff_of_true (hsound.deleteTask hrefers ?_) trivial
    simpa using hstep.1
  | createReplication r data checks =>
    obtain ⟨hguard, rfl⟩ := Option.ite_some_none_eq_some.mp hstep
    exact iff_of_true (hsound.writeReplication hrefers hguard.2 r) trivial
  | updateReplication r update checks =>
    simp only [step, updateReplication] at hstep
    split at hstep
    · cases hstep
    · obtain ⟨hguard, rfl⟩ := Option.ite_some_none_eq_some.mp hstep
      exact iff_of_true (hsound.writeReplication hrefers hguard r) trivial
  | removeReplication r =>
    obtain ⟨_, rfl⟩ := Option.ite_some_none_eq_some.mp hstep
    exact iff_of_true (hsound.deleteReplication hrefers r) trivial
  | deleteTasks attachments =>
    cases hstep
    exact hsound.deleteTasks_iff hrefers attachments
  | toggleTasks attachments enabled =>
    cases hstep
    exact hsound.toggleTasks_iff hrefers enabled attachments
  | deleteReplications attachments =>
    cases hstep
    exact iff_of_true (hsound.deleteReplications hrefers attachments) trivial
  | toggleReplications attachments enabled =>
    cases hstep
    exact hsound.toggleReplications_iff enabled attachments

end

/-- In every run the bindings are sound throughout exactly when the calls of
the delegates respect them. -/
theorem bindings_sound_iff {s : ReplicationBindings} {actions : List Action}
    (hrun : run step init actions = some s) :
    EveryStep step Respects init actions ↔
      ∀ k u, run step init (actions.take k) = some u → u.Sound :=
  everyStep_iff_forall_take Refers (fun _ _ _ hrefers => refers_step hrefers)
    (fun _ _ _ hrefers hsound => hsound.step_iff hrefers) refers_init
    sound_init hrun

/-- Every binding names a replication task and a periodic snapshot task that are
there, also after the calls of the delegates, so none is passed over by a query. -/
theorem run_refers {s : ReplicationBindings} {actions : List Action}
    (hrun : run step init actions = some s) :
    s.Refers ∧ ∀ r t, t ∈ s.boundTasks r ↔ (r, t) ∈ s.links := by
  have hrefers := run_invariant (fun _ _ _ hrefers => refers_step hrefers) refers_init hrun
  exact ⟨hrefers, fun r t => hrefers.mem_boundTasks_iff⟩

def nightlyTask : SnapshotTask where
  dataset := ["tank", "work"]
  recursive := false
  exclude := []
  enabled := true

def backupReplication : ReplicationData where
  name := "backup"
  direction := .push
  transport := .localhost
  sshCredentials := none
  netcatActiveSide := none
  netcatActiveSideListenAddress := none
  netcatActiveSidePortMin := none
  netcatActiveSidePortMax := none
  netcatPassiveSideConnectAddress := none
  sourceDatasets := [["tank", "work"]]
  recursive := false
  exclude := []
  properties := true
  replicate := false
  encryption := false
  encryptionInherit := none
  encryptionKey := none
  encryptionKeyFormat := none
  encryptionKeyLocation := none
  namingSchema := []
  nameRegex := none
  auto := true
  schedule := none
  onlyMatchingSchedule := false
  holdPendingSnapshots := false
  retentionPolicy := .none
  lifetimeValue := none
  lifetimeUnit := none
  lifetimes := []
  compression := none
  speedLimit := none
  enabled := true
  alsoIncludeNamingSchema := []
  periodicSnapshotTasks := [1]

def everyRole : ReplicationChecks where
  hasRole _ := true
  getOfType _ := none
  reCompile _ := none

def pairThen (toggles : List Action) : List Action :=
  [.createTask 1 nightlyTask [["tank", "work"]],
    .createReplication 1 backupReplication everyRole] ++ toggles

def replicationFirst : List Action :=
  pairThen [.toggleReplications [1] false, .toggleTasks [1] false,
    .toggleTasks [1] true, .toggleReplications [1] true]

def taskFirst : List Action :=
  pairThen [.toggleTasks [1] false, .toggleReplications [1] false]

theorem replicationFirst_sound : (run step init replicationFirst).isSome = true ∧
    ∀ k u, run step init (replicationFirst.take k) = some u → u.Sound := by
  refine ⟨rfl, ?_⟩
  refine (@bindings_sound_iff _ replicationFirst rfl).mp ?_
  decide

theorem taskFirst_refers : ∃ s, run step init taskFirst = some s ∧ s.Refers := by
  obtain ⟨s, hrun⟩ := Option.isSome_iff_exists.mp (by decide +kernel :
    (run step init taskFirst).isSome = true)
  exact ⟨s, hrun, (run_refers hrun).1⟩

/-- The delegate of the task disables it while the replication is still bound to it. -/
theorem taskFirst_not_sound : (run step init taskFirst).isSome = true ∧
    ¬ ∀ k u, run step init (taskFirst.take k) = some u → u.Sound := by
  constructor
  · rfl
  · intro hall
    have hsound := hall 3 _ rfl
    revert hsound
    decide

end ReplicationBindings

end Middlewared
