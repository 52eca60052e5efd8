import Middlewared.JobsDeque

/-!
# How many finished jobs are kept

`add` drops at most one finished job for the one it keeps, and a received job is kept without
dropping any, so jobs that finish together or arrive from the other node can pile up.
-/

namespace Middlewared

open List Dict Function

namespace Dict

variable {κ ν : Type*} [DecidableEq κ] {p : κ × ν → Bool}

variable {d : Dict κ ν}

theorem countP_set_of_not_mem {k : κ} (hnew : k ∉ d) (v : ν) :
    (d.set k v).entries.countP p = d.entries.countP p + if p (k, v) then 1 else 0 := by
  unfold set
  rw [dif_neg (mt mem_def.mpr hnew), countP_append, countP_singleton]

theorem countP_filter_key {entries : List (κ × ν)}
    (hnodup : (entries.map Prod.fst).Nodup) {entry : κ × ν}
    (hmem : entry ∈ entries) (hp : p entry = true) :
    (entries.filter fun other => other.1 ≠ entry.1).countP p + 1 = entries.countP p := by
  induction entries with
  | nil => cases hmem
  | cons head rest ih =>
    rw [map_cons, nodup_cons] at hnodup
    rcases mem_cons.mp hmem with rfl | hrest
    · have hkeep : (rest.filter fun other => other.1 ≠ entry.1) = rest := by
        apply filter_eq_self.mpr
        intro other hother
        have hne : other.1 ≠ entry.1 := by
          intro heq
          exact hnodup.1 (heq ▸ List.mem_map_of_mem hother)
        simpa using hne
      rw [filter_cons_of_neg (by simp), hkeep, countP_cons_of_pos hp]
    · have hne : head.1 ≠ entry.1 := by
        intro heq
        exact hnodup.1 (heq ▸ List.mem_map_of_mem hrest)
      have hcount := ih hnodup.2 hrest
      rw [filter_cons_of_pos (by simpa using hne), countP_cons, countP_cons]
      omega

theorem countP_erase {entry : κ × ν} (hmem : entry ∈ d.entries) (hp : p entry = true) :
    (d.erase entry.1).entries.countP p + 1 = d.entries.countP p :=
  countP_filter_key d.nodup hmem hp

theorem get?_of_get?_erase {k j : κ} {v : ν}
    (hget : (d.erase k).get? j = some v) : d.get? j = some v := by
  rw [get?_erase] at hget
  split at hget
  · cases hget
  · exact hget

end Dict

/-! ## What `add` does to the deque -/

namespace JobsDeque

variable {states : JobId → JobState} {deque : JobsDeque}

def finishedCount (states : JobId → JobState) (deque : JobsDeque) : ℕ :=
  deque.jobs.entries.countP fun entry => (states entry.2).isFinal

theorem finishedCount_le_size : deque.finishedCount states ≤ deque.jobs.size := countP_le_length

theorem makeRoom_cases (states : JobId → JobState) (deque : JobsDeque) :
    (deque.makeRoom states = deque ∧ deque.finishedCount states ≤ deque.maxlen) ∨
      ∃ entry ∈ deque.jobs.entries, (states entry.2).isFinal = true ∧
        deque.makeRoom states = deque.remove entry.1 := by
  unfold makeRoom
  by_cases hfull : deque.jobs.size > deque.maxlen
  · rw [if_pos hfull]
    cases hfind : deque.oldestFinal states with
    | none =>
      left
      have hnone : deque.finishedCount states = 0 :=
        countP_eq_zero.mpr (find?_eq_none.mp hfind)
      exact ⟨rfl, by omega⟩
    | some entry =>
      right
      have hfinal := find?_some hfind
      exact ⟨entry, mem_of_find?_eq_some hfind, hfinal, rfl⟩
  · rw [if_neg hfull]
    have hle : deque.finishedCount states ≤ deque.jobs.size := finishedCount_le_size
    exact Or.inl ⟨rfl, by omega⟩

variable {id : ℕ} {job : JobId}

theorem get?_of_makeRoom (hget : (deque.makeRoom states).jobs.get? id = some job) :
    deque.jobs.get? id = some job := by
  rcases makeRoom_cases states deque with ⟨hsame, _⟩ | ⟨entry, _, _, hremove⟩
  · rw [hsame] at hget
    exact hget
  · rw [hremove] at hget
    exact get?_of_get?_erase hget

theorem makeRoom_get?_of_live (hget : deque.jobs.get? id = some job)
    (hlive : (states job).isFinal = false) :
    (deque.makeRoom states).jobs.get? id = some job := by
  rcases makeRoom_cases states deque with ⟨hsame, _⟩ | ⟨entry, hmem, hfinal, hremove⟩
  · rw [hsame]
    exact hget
  · have hne : id ≠ entry.1 := by
      intro heq
      have hentry : deque.jobs.get? id = some entry.2 := by
        rw [heq]
        exact mem_entries_iff.mp hmem
      rw [hget, Option.some.injEq] at hentry
      rw [hentry, hfinal] at hlive
      cases hlive
    rw [hremove, remove, get?_erase, if_neg hne]
    exact hget

theorem finishedCount_keep (hnew : id ∉ deque.jobs) (job : JobId) :
    (deque.keep id job).finishedCount states =
      deque.finishedCount states + if (states job).isFinal then 1 else 0 :=
  Dict.countP_set_of_not_mem hnew job

theorem finishedCount_remove {entry : ℕ × JobId} (hmem : entry ∈ deque.jobs.entries)
    (hfinal : (states entry.2).isFinal = true) :
    (deque.remove entry.1).finishedCount states + 1 = deque.finishedCount states :=
  Dict.countP_erase hmem hfinal

@[simp] theorem makeRoom_maxlen :
    (deque.makeRoom states).maxlen = deque.maxlen := by
  unfold makeRoom
  split
  · split <;> rfl
  · rfl

@[simp] theorem makeRoom_count :
    (deque.makeRoom states).count = deque.count := by
  unfold makeRoom
  split
  · split <;> rfl
  · rfl

@[simp] theorem add_maxlen : (deque.add states job).maxlen = deque.maxlen := by
  simp [add, keep, countUp]

theorem finishedCount_add_le_iff (hnew : deque.nextId ∉ deque.jobs) (job : JobId) :
    (deque.add states job).finishedCount states ≤ deque.maxlen + 1 ↔
      deque.finishedCount states + (if (states job).isFinal then 1 else 0) ≤
        deque.maxlen + 1 + 1 := by
  have hnewRoom : deque.nextId ∉ (deque.countUp.makeRoom states).jobs := by
    intro hmem
    obtain ⟨kept, hget⟩ := exists_get?_of_mem hmem
    have hold : deque.countUp.jobs.get? deque.nextId = some kept := get?_of_makeRoom hget
    exact hnew (mem_of_get?_eq_some hold)
  have hcount : deque.countUp.finishedCount states = deque.finishedCount states := rfl
  have hmaxlen : deque.countUp.maxlen = deque.maxlen := rfl
  rw [add, finishedCount_keep hnewRoom job]
  have hone : (if (states job).isFinal then 1 else 0) ≤ 1 := by
    split <;> omega
  rcases makeRoom_cases states deque.countUp with ⟨hsame, hle⟩ |
    ⟨entry, hmem, hfinal, hremove⟩
  · rw [hsame]
    omega
  · have hdrop := finishedCount_remove hmem hfinal
    rw [hremove]
    omega

end JobsDeque

namespace JobHistory

open TransitionSystem

variable {services : JobServices} {s next : JobHistory}

/-- Every id in use was given out, once, and every job in use is an object that
was made. -/
structure Sound (s : JobHistory) : Prop where
  assigned_le : ∀ id ∈ s.assigned, id ≤ s.deque.count
  increasing : s.assigned.Pairwise (· < ·)
  kept_assigned : ∀ id ∈ s.deque.jobs, id ∈ s.assigned
  receiving_assigned : ∀ id ∈ s.receiving, id ∈ s.assigned
  receiving_not_kept : ∀ id ∈ s.receiving, id ∉ s.deque.jobs
  kept_lt : ∀ id job, s.deque.jobs.get? id = some job → job < s.nextJob
  receiving_lt : ∀ id job, s.receiving.get? id = some job → job < s.nextJob

theorem init_sound (maxlen : ℕ) : (init maxlen).Sound := by
  constructor <;> simp [init, Dict.empty, Dict.mem_def, Dict.keys, Dict.get?]

variable (hsound : s.Sound)

include hsound

theorem Sound.idsIncrease : s.IdsIncrease :=
  ⟨hsound.increasing, hsound.increasing.imp ne_of_lt, hsound.kept_assigned⟩

theorem Sound.nextId_not_assigned : s.deque.nextId ∉ s.assigned := by
  intro hmem
  have hle := hsound.assigned_le _ hmem
  unfold JobsDeque.nextId at hle
  omega

theorem Sound.nextId_not_kept : s.deque.nextId ∉ s.deque.jobs :=
  mt (hsound.kept_assigned _) hsound.nextId_not_assigned

/-! ### The pieces of a step keep the invariant -/

theorem Sound.create (value : HistoryJob) : (s.create value).Sound := { hsound with
  kept_lt := fun id job hget => Nat.lt_succ_of_lt (hsound.kept_lt id job hget)
  receiving_lt := fun id job hget =>
    Nat.lt_succ_of_lt (hsound.receiving_lt id job hget) }

theorem Sound.setJob (job : JobId) (value : HistoryJob) :
    (s.setJob job value).Sound := { hsound with }

theorem Sound.assign : s.assign.Sound := { hsound with
  assigned_le := by
    intro id hid
    rcases mem_append.mp hid with hold | hnew
    · exact Nat.le_succ_of_le (hsound.assigned_le id hold)
    · exact le_of_eq (mem_singleton.mp hnew)
  increasing := by
    refine pairwise_append.mpr ⟨hsound.increasing, pairwise_singleton _ _, ?_⟩
    intro id hid new hnew
    rw [mem_singleton] at hnew
    have hle := hsound.assigned_le id hid
    unfold JobsDeque.nextId at hnew
    omega
  kept_assigned := fun id hid =>
    mem_append_left _ (hsound.kept_assigned id hid)
  receiving_assigned := fun id hid =>
    mem_append_left _ (hsound.receiving_assigned id hid) }

variable {id : ℕ} {job : JobId}

theorem Sound.keepReceived (hid : id ∈ s.assigned) (hother : id ∉ s.receiving)
    (hjob : job < s.nextJob) : (s.keepReceived id job).Sound := { hsound with
  kept_assigned := by
    intro kept hkept
    rcases mem_set_iff.mp hkept with rfl | hold
    · exact hid
    · exact hsound.kept_assigned kept hold
  receiving_not_kept := by
    intro other hreceiving hkept
    rcases mem_set_iff.mp hkept with rfl | hold
    · exact hother hreceiving
    · exact hsound.receiving_not_kept other hreceiving hold
  kept_lt := by
    intro kept object hget
    change (s.deque.jobs.set id job).get? kept = some object at hget
    rw [get?_set] at hget
    split at hget
    · rw [← Option.some.inj hget]
      exact hjob
    · exact hsound.kept_lt kept object hget }

theorem Sound.shrink {deque : JobsDeque} (hcount : deque.count = s.deque.count)
    (hsub : ∀ id job, deque.jobs.get? id = some job → s.deque.jobs.get? id = some job) :
    Sound { s with deque } := by
  have hmem : ∀ id ∈ deque.jobs, id ∈ s.deque.jobs := by
    intro id hid
    obtain ⟨job, hget⟩ := exists_get?_of_mem hid
    exact mem_of_get?_eq_some (hsub id job hget)
  exact {
    assigned_le := fun id hid => hcount ▸ hsound.assigned_le id hid
    increasing := hsound.increasing
    kept_assigned := fun id hid => hsound.kept_assigned id (hmem id hid)
    receiving_assigned := hsound.receiving_assigned
    receiving_not_kept := fun id hid hkept =>
      hsound.receiving_not_kept id hid (hmem id hkept)
    kept_lt := fun id job hget => hsound.kept_lt id job (hsub id job hget)
    receiving_lt := hsound.receiving_lt }

theorem Sound.remove (id : ℕ) : Sound { s with deque := s.deque.remove id } :=
  hsound.shrink rfl fun _ _ hget => get?_of_get?_erase hget

theorem Sound.eraseReceiving (id : ℕ) :
    Sound { s with receiving := s.receiving.erase id } := { hsound with
  receiving_assigned := fun other hother =>
    hsound.receiving_assigned other (mem_erase_iff.mp hother).2
  receiving_not_kept := fun other hother =>
    hsound.receiving_not_kept other (mem_erase_iff.mp hother).2
  receiving_lt := fun other job hget =>
    hsound.receiving_lt other job (get?_of_get?_erase hget) }

theorem Sound.setReceiving (hid : id ∈ s.assigned) (hnew : id ∉ s.deque.jobs)
    (hjob : job < s.nextJob) :
    Sound { s with receiving := s.receiving.set id job } := { hsound with
  receiving_assigned := by
    intro other hother
    rcases mem_set_iff.mp hother with rfl | hold
    · exact hid
    · exact hsound.receiving_assigned other hold
  receiving_not_kept := by
    intro other hother
    rcases mem_set_iff.mp hother with rfl | hold
    · exact hnew
    · exact hsound.receiving_not_kept other hold
  receiving_lt := by
    intro other object hget
    rw [get?_set] at hget
    split at hget
    · rw [← Option.some.inj hget]
      exact hjob
    · exact hsound.receiving_lt other object hget }

omit hsound in
theorem add_states (job : JobId) : (s.add job).states = s.states := by
  funext other
  change (Function.update s.jobs job _ other).state = (s.jobs other).state
  by_cases hsame : other = job
  · subst other
    rw [update_self]
  · rw [update_of_ne hsame]

theorem Sound.add (hjob : job < s.nextJob) : (s.add job).Sound := by
  have hcount : (s.deque.countUp.makeRoom s.states).count =
      s.deque.countUp.count := JobsDeque.makeRoom_count
  have hroom := hsound.assign.shrink hcount fun _ _ hget => JobsDeque.get?_of_makeRoom hget
  have hother : s.deque.nextId ∉ s.receiving :=
    mt (hsound.receiving_assigned _) hsound.nextId_not_assigned
  have hassigned : s.deque.nextId ∈ s.assigned ++ [s.deque.nextId] :=
    mem_append_right _ (mem_singleton_self _)
  have hkept := hroom.keepReceived hassigned hother hjob
  exact hkept.setJob job _

variable {jobDict : JobDict} {logs : Bool}

omit hsound in
theorem receive_of_error {error : ReceiveError} (herror : jobDict.receive services = .error error) :
    s.receive services jobDict logs = s.assign := by
  unfold receive
  rw [herror]

variable {state : JobState}

omit hsound in
theorem receive_of_ok (hok : jobDict.receive services = .ok state) :
    s.receive services jobDict logs =
      let made := s.assign.create { id := some s.deque.nextId, state }
      if logs then
        { made with receiving := made.receiving.set s.deque.nextId s.nextJob }
      else made.keepReceived s.deque.nextId s.nextJob := by
  unfold receive
  rw [hok]

theorem Sound.receive (jobDict : JobDict) (logs : Bool) :
    (s.receive services jobDict logs).Sound := by
  cases hreceive : jobDict.receive services with
  | error error =>
    rw [receive_of_error hreceive]
    exact hsound.assign
  | ok state =>
    rw [receive_of_ok hreceive]
    have hmade := hsound.assign.create { id := some s.deque.nextId, state }
    have hassigned : s.deque.nextId ∈ s.assigned ++ [s.deque.nextId] :=
      mem_append_right _ (mem_singleton_self _)
    cases logs with
    | true =>
      exact hmade.setReceiving hassigned hsound.nextId_not_kept (Nat.lt_succ_self _)
    | false =>
      have hother : s.deque.nextId ∉ s.receiving :=
        mt (hsound.receiving_assigned _) hsound.nextId_not_assigned
      exact hmade.keepReceived hassigned hother (Nat.lt_succ_self _)

theorem Sound.logsWritten (hget : s.receiving.get? id = some job) (raises : Bool) :
    (s.logsWritten id job raises).Sound := by
  have herased := hsound.eraseReceiving id
  cases raises with
  | true => exact herased
  | false =>
    apply herased.keepReceived
    · exact hsound.receiving_assigned id (mem_of_get?_eq_some hget)
    · simp [mem_erase_iff]
    · exact hsound.receiving_lt id job hget

theorem Sound.setState (job : JobId) (state : JobState) : (s.setState job state).Sound := by
  unfold JobHistory.setState
  split
  · exact hsound.setJob job _
  · exact hsound

omit hsound in
theorem step_add_iff : step services s (.add job) = some next ↔
    (job < s.nextJob ∧ s.isReceiving job = false) ∧ s.add job = next := by
  simp [step]

omit hsound in
theorem step_logsWritten_iff {raises : Bool} :
    step services s (.logsWritten id raises) = some next ↔ ∃ job, s.receiving.get? id = some job ∧
        s.logsWritten id job raises = next := by
  simp [step]

variable {a : Action}

theorem step_sound (hstep : step services s a = some next) : next.Sound := by
  cases a with
  | create => exact Option.some.inj hstep ▸ hsound.create _
  | add job =>
    obtain ⟨⟨hjob, _⟩, rfl⟩ := step_add_iff.mp hstep
    exact hsound.add hjob
  | remove id => exact Option.some.inj hstep ▸ hsound.remove id
  | setState job state =>
    exact Option.some.inj hstep ▸ hsound.setState job state
  | receive jobDict logs =>
    exact Option.some.inj hstep ▸ hsound.receive jobDict logs
  | logsWritten id raises =>
    obtain ⟨job, hget, rfl⟩ := step_logsWritten_iff.mp hstep
    exact hsound.logsWritten hget raises

omit hsound in
theorem keepReceived_get? {other : ℕ} {kept : JobId} (hnew : id ∉ s.deque.jobs)
    (hget : s.deque.jobs.get? other = some kept) :
    (s.keepReceived id job).deque.jobs.get? other = some kept := by
  have hne : other ≠ id := by
    rintro rfl
    exact hnew (mem_of_get?_eq_some hget)
  exact (get?_set_of_ne _ hne _).trans hget

theorem Sound.keepsLive_add (job : JobId) : s.KeepsLive (s.add job) := by
  intro id kept hget hlive
  have hne : id ≠ s.deque.nextId := by
    rintro rfl
    exact hsound.nextId_not_kept (mem_of_get?_eq_some hget)
  have hroom : (s.deque.countUp.makeRoom s.states).jobs.get? id =
      some kept := JobsDeque.makeRoom_get?_of_live hget hlive
  exact (get?_set_of_ne _ hne _).trans hroom

theorem Sound.keepsLive_receive (jobDict : JobDict) (logs : Bool) :
    s.KeepsLive (s.receive services jobDict logs) := by
  intro id kept hget _
  cases hreceive : jobDict.receive services with
  | error error =>
    rw [receive_of_error hreceive]
    exact hget
  | ok state =>
    rw [receive_of_ok hreceive]
    cases logs with
    | true => exact hget
    | false => exact keepReceived_get? hsound.nextId_not_kept hget

theorem Sound.keepsLive_logsWritten (hreceiving : s.receiving.get? id = some job)
    (raises : Bool) : s.KeepsLive (s.logsWritten id job raises) := by
  intro other kept hget _
  have hnew : id ∉ s.deque.jobs := hsound.receiving_not_kept id (mem_of_get?_eq_some hreceiving)
  cases raises with
  | true => exact hget
  | false => exact keepReceived_get? hnew hget

theorem Sound.keepsLive (hstep : step services s a = some next)
    (hkind : a.isAddOrReceive = true) : s.KeepsLive next := by
  cases a with
  | create => cases hkind
  | add job =>
    obtain ⟨_, rfl⟩ := step_add_iff.mp hstep
    exact hsound.keepsLive_add job
  | remove id => cases hkind
  | setState job state => cases hkind
  | receive jobDict logs =>
    exact Option.some.inj hstep ▸ hsound.keepsLive_receive jobDict logs
  | logsWritten id raises =>
    obtain ⟨job, hget, rfl⟩ := step_logsWritten_iff.mp hstep
    exact hsound.keepsLive_logsWritten hget raises

/-! ### The number of finished jobs -/

theorem finishedCount_create (value : HistoryJob) :
    (s.create value).finishedCount = s.finishedCount := by
  apply countP_congr
  intro entry hentry
  have hlt := hsound.kept_lt _ _ (mem_entries_iff.mp hentry)
  have hstates : (s.create value).states entry.2 = s.states entry.2 := by
    change (Function.update s.jobs s.nextJob value entry.2).state = _
    rw [update_of_ne (ne_of_lt hlt)]
    rfl
  rw [hstates]

omit hsound in
theorem finishedCount_keepReceived (hnew : id ∉ s.deque.jobs) (job : JobId) :
    (s.keepReceived id job).finishedCount =
      s.finishedCount + if (s.states job).isFinal then 1 else 0 :=
  JobsDeque.finishedCount_keep hnew job

theorem finishedCount_add_le_iff (job : JobId) :
    (s.add job).finishedCount ≤ (s.add job).deque.maxlen + 1 ↔
      s.finishedCount + (if (s.states job).isFinal then 1 else 0) ≤ s.deque.maxlen + 1 + 1 := by
  have hdeque : (s.deque.add s.states job).finishedCount s.states ≤ s.deque.maxlen + 1 ↔
        s.deque.finishedCount s.states +
          (if (s.states job).isFinal then 1 else 0) ≤ s.deque.maxlen + 1 + 1 :=
    JobsDeque.finishedCount_add_le_iff hsound.nextId_not_kept job
  have hcount : (s.add job).finishedCount = (s.deque.add s.states job).finishedCount s.states := by
    unfold finishedCount
    rw [add_states]
    rfl
  have hmaxlen : (s.add job).deque.maxlen = s.deque.maxlen := JobsDeque.add_maxlen
  rw [hcount, hmaxlen]
  exact hdeque

theorem finishedCount_receive_of_ok (hok : jobDict.receive services = .ok state) :
    (s.receive services jobDict false).finishedCount =
      s.finishedCount + if state.isFinal then 1 else 0 := by
  have hkeep := finishedCount_keepReceived
    (s := s.assign.create { id := some s.deque.nextId, state })
    hsound.nextId_not_kept s.nextJob
  have hcreate := finishedCount_create hsound.assign { id := some s.deque.nextId, state }
  have hstate : (s.assign.create { id := some s.deque.nextId, state }).states s.nextJob =
        state := by
    change (Function.update s.jobs s.nextJob _ s.nextJob).state = state
    rw [update_self]
  have hassign : s.assign.finishedCount = s.finishedCount := rfl
  rw [hstate, hcreate, hassign] at hkeep
  rw [receive_of_ok hok]
  exact hkeep

theorem finishedCount_receive_le_iff
    (hends : (Action.receive jobDict logs).endsCall services = true) :
    (s.receive services jobDict logs).finishedCount ≤
        (s.receive services jobDict logs).deque.maxlen + 1 ↔
      s.finishedCount + s.incoming services (.receive jobDict logs) ≤ s.deque.maxlen + 1 := by
  cases hreceive : jobDict.receive services with
  | error error =>
    rw [receive_of_error hreceive, incoming, hreceive]
    exact Iff.rfl
  | ok state =>
    have hlogs : logs = false := by
      simpa [Action.endsCall, hreceive, Except.toOption] using hends
    subst hlogs
    have hcount := finishedCount_receive_of_ok hsound hreceive
    have hmaxlen : (s.receive services jobDict false).deque.maxlen = s.deque.maxlen := by
      rw [receive_of_ok hreceive]
      rfl
    rw [hcount, hmaxlen, incoming, hreceive]
    exact Iff.rfl

theorem finishedCount_logsWritten_le_iff (hget : s.receiving.get? id = some job) (raises : Bool) :
    (s.logsWritten id job raises).finishedCount ≤ (s.logsWritten id job raises).deque.maxlen + 1 ↔
      s.finishedCount + s.incoming services (.logsWritten id raises) ≤ s.deque.maxlen + 1 := by
  rw [incoming, hget]
  cases raises with
  | true => exact Iff.rfl
  | false =>
    have hnew : id ∉ s.deque.jobs := hsound.receiving_not_kept id (mem_of_get?_eq_some hget)
    have hkeep := finishedCount_keepReceived
      (s := { s with receiving := s.receiving.erase id }) hnew job
    change (JobHistory.keepReceived _ id job).finishedCount ≤ _ ↔ _
    rw [hkeep]
    exact Iff.rfl

theorem finishedCount_le_iff (hstep : step services s a = some next)
    (hends : a.endsCall services = true) :
    next.finishedCount ≤ next.deque.maxlen + 1 ↔ s.finishedCount + s.incoming services a ≤
        s.deque.maxlen + 1 + a.slack := by
  cases a with
  | create => cases hends
  | add job =>
    obtain ⟨_, rfl⟩ := step_add_iff.mp hstep
    exact finishedCount_add_le_iff hsound job
  | remove id => cases hends
  | setState job state => cases hends
  | receive jobDict logs =>
    rw [← Option.some.inj hstep]
    exact finishedCount_receive_le_iff hsound hends
  | logsWritten id raises =>
    obtain ⟨job, hget, rfl⟩ := step_logsWritten_iff.mp hstep
    exact finishedCount_logsWritten_le_iff hsound hget raises

theorem hasRoom_iff_keepsHistory (hstep : step services s a = some next) :
    HasRoom services s a ↔ KeepsHistory services s a := by
  have hbound : a.endsCall services = true → (next.finishedCount ≤ next.deque.maxlen + 1 ↔
        s.finishedCount + s.incoming services a ≤
          s.deque.maxlen + 1 + a.slack) := finishedCount_le_iff hsound hstep
  constructor
  · intro hroom other hother
    rw [hstep, Option.some.injEq] at hother
    subst other
    have hnext := step_sound hsound hstep
    exact ⟨hnext.idsIncrease, hsound.keepsLive hstep, fun hends => (hbound hends).mpr (hroom hends)⟩
  · intro hkeeps hends
    exact (hbound hends).mp ((hkeeps next hstep).2.2 hends)

omit hsound

/-- The history is kept as it should be in exactly the runs in which every call
has room for what it puts in. -/
theorem history_kept_iff_hasRoom {maxlen : ℕ} {actions : List Action} {s : JobHistory}
    (hrun : run (step services) (init maxlen) actions = some s) :
    EveryStep (step services) (HasRoom services) (init maxlen) actions ↔
      EveryStep (step services) (KeepsHistory services) (init maxlen) actions :=
  everyStep_congr Sound (fun _ _ _ hsound hstep => step_sound hsound hstep)
    (fun _ _ _ hsound hstep => hasRoom_iff_keepsHistory hsound hstep)
    (init_sound maxlen) hrun

/-- Whether there is room or not, ids are given out once and in increasing order,
and no call of `add` or `receive` drops a job that is waiting or running. -/
theorem run_idsIncrease_keepsLive (maxlen : ℕ) (actions : List Action) :
    EveryStep (step services) (fun s a => ∀ next, step services s a = some next →
        next.IdsIncrease ∧ (a.isAddOrReceive = true → s.KeepsLive next))
      (init maxlen) actions := by
  refine everyStep_of_invariant Sound (fun _ _ _ hsound hstep => step_sound hsound hstep) ?_
    (init_sound maxlen)
  intro s a hsound next hstep
  exact ⟨(step_sound hsound hstep).idsIncrease, hsound.keepsLive hstep⟩

/-- The `core` service of this node, with one job. -/
def bulkServices : JobServices :=
  Dict.ofEntries [("core", Dict.ofEntries [("bulk", some { })])]

def finishedBulk : JobDict where
  method := "core.bulk"
  state := "SUCCESS"

theorem history_kept_iff_hasRoom_takeover :
    EveryStep (step bulkServices) (KeepsHistory bulkServices) (init 1000)
      [.create, .add 0, .setState 0 .running, .receive finishedBulk true,
        .setState 0 .success, .receive finishedBulk false,
        .logsWritten 2 false, .remove 1] := by
  have hruns : (run (step bulkServices) (init 1000)
      [.create, .add 0, .setState 0 .running, .receive finishedBulk true,
        .setState 0 .success, .receive finishedBulk false,
        .logsWritten 2 false, .remove 1]).isSome := by
    decide
  exact (history_kept_iff_hasRoom (Option.some_get hruns).symm).mp (by decide)

theorem run_replicate_receive (hok : jobDict.receive services = .ok state)
    (hfinal : state.isFinal = true) (hsound : s.Sound) (count : ℕ) :
    ∃ t, run (step services) s (List.replicate count (.receive jobDict false)) = some t ∧
      t.Sound ∧ t.deque.maxlen = s.deque.maxlen ∧ t.finishedCount = s.finishedCount + count := by
  induction count generalizing s with
  | zero => exact ⟨s, rfl, hsound, rfl, rfl⟩
  | succ count ih =>
    have hnext : (s.receive services jobDict false).Sound := hsound.receive jobDict false
    have hcount := finishedCount_receive_of_ok hsound hok
    obtain ⟨t, hrun, ht, hmaxlen, hfinished⟩ := ih hnext
    rw [if_pos hfinal] at hcount
    rw [receive_of_ok hok] at hmaxlen
    have hcons : run (step services) s (.receive jobDict false ::
          List.replicate count (.receive jobDict false)) = some t :=
      run_cons_eq_some_iff.mpr ⟨_, rfl, hrun⟩
    exact ⟨t, hcons, ht, hmaxlen, by omega⟩

/-- Received jobs are never evicted, so that a thousand and two stay. -/
theorem history_not_kept : ¬ ∀ (actions : List Action) (s : JobHistory),
    run (step bulkServices) (init 1000) actions = some s →
      EveryStep (step bulkServices) (KeepsHistory bulkServices) (init 1000) actions := by
  intro hall
  have hok : finishedBulk.receive bulkServices = .ok .success := by decide
  obtain ⟨s, hrun, hsound, hmaxlen, hfinished⟩ :=
    run_replicate_receive hok rfl (init_sound 1000) 1001
  obtain ⟨t, hlonger, _⟩ := run_replicate_receive hok rfl (init_sound 1000) 1002
  have hevery := hall _ t hlonger
  have hkeeps := hevery.of_getElem? (k := 1001) (u := s) (a := .receive finishedBulk false)
    (by rw [take_replicate]; exact hrun)
    (by rw [getElem?_replicate, if_pos (by omega)])
  have hbound := (hkeeps _ rfl).2.2 rfl
  rw [finishedCount_receive_of_ok hsound hok, receive_of_ok hok] at hbound
  change s.finishedCount + 1 ≤ s.deque.maxlen + 1 at hbound
  rw [hfinished, hmaxlen] at hbound
  change 0 + 1001 + 1 ≤ 1000 + 1 at hbound
  omega

end JobHistory

end Middlewared
