import Middlewared.AlertBase
import Middlewared.Dict
import Middlewared.TransitionSystem

/-!
# Notification policies

A policy decides when changes of the alert set are reported: it compares the alerts with the ones
it saw at its last report, but only when the key it computes from the time has changed.
-/

namespace Middlewared

open List TransitionSystem

/-- `key` computes what must change between two reports, `None` included;
the alerts of the last report are stored under their identifiers. -/
structure AlertPolicy (κ : Type*) where
  key : DateTime → Option κ
  lastKeyValue : Option κ
  lastKeyValueAlerts : Dict (Option ℕ) Alert
  keyed : ∀ entry ∈ lastKeyValueAlerts.entries, entry.2.uuid = entry.1

namespace AlertPolicy

variable {κ : Type*} [DecidableEq κ]

def init (key : DateTime → Option κ) : AlertPolicy κ where
  key := key
  lastKeyValue := none
  lastKeyValueAlerts := Dict.empty
  keyed := by simp [Dict.empty]

def byUuid (alerts : List Alert) : Dict (Option ℕ) Alert :=
  Dict.ofEntries (alerts.map fun alert => (alert.uuid, alert))

theorem uuid_of_mem_byUuid (alerts : List Alert) :
    ∀ entry ∈ (byUuid alerts).entries, entry.2.uuid = entry.1 := by
  rintro ⟨uuid, alert⟩ hentry
  rw [Dict.mem_entries_iff, byUuid, Dict.get?_ofEntries, ← map_reverse] at hentry
  have hmem := Dict.mem_of_lookup_eq_some hentry
  simp only [mem_map, Prod.mk.injEq] at hmem
  obtain ⟨_, _, huuid, rfl⟩ := hmem
  exact huuid

/-- `receive_alerts`: the policy afterwards, the alerts that are gone and the
ones that are new. -/
def receiveAlerts (policy : AlertPolicy κ) (now : DateTime)
    (alerts : List Alert) : AlertPolicy κ × List Alert × List Alert :=
  let current := byUuid alerts
  let key := policy.key now
  if key ≠ policy.lastKeyValue then
    let last := policy.lastKeyValueAlerts
    ({ policy with
        lastKeyValue := key
        lastKeyValueAlerts := current
        keyed := uuid_of_mem_byUuid alerts },
      (last.entries.map Prod.snd).filter (fun alert => alert.uuid ∉ current),
      (current.entries.map Prod.snd).filter fun alert => alert.uuid ∉ last)
  else (policy, [], [])

def deleteAlert (policy : AlertPolicy κ) (alert : Alert) : AlertPolicy κ :=
  { policy with
    lastKeyValueAlerts := policy.lastKeyValueAlerts.erase alert.uuid
    keyed := by
      intro entry hentry
      exact policy.keyed entry (List.mem_of_mem_filter hentry) }

/-! ## Reports -/

inductive Call where
  | receive (now : DateTime) (alerts : List Alert)
  | delete (alert : Alert)

inductive Event where
  | gone (uuid : Option ℕ)
  | new (uuid : Option ℕ)
  | deleted (uuid : Option ℕ)
deriving DecidableEq

def call (policy : AlertPolicy κ) : Call → AlertPolicy κ × List Event
  | .receive now alerts =>
    let (policy, gone, new) := policy.receiveAlerts now alerts
    (policy, gone.map (fun alert => .gone alert.uuid) ++ new.map fun alert => .new alert.uuid)
  | .delete alert => (policy.deleteAlert alert, [.deleted alert.uuid])

def history (policy : AlertPolicy κ) : List Call → AlertPolicy κ × List Event
  | [] => (policy, [])
  | c :: rest =>
    let (next, events) := policy.call c
    let (last, later) := next.history rest
    (last, events ++ later)

def Event.apply (present : Finset (Option ℕ)) :
    Event → Finset (Option ℕ)
  | .gone uuid => present.erase uuid
  | .new uuid => insert uuid present
  | .deleted uuid => present.erase uuid

def replay (present : Finset (Option ℕ)) (events : List Event) :
    Finset (Option ℕ) :=
  events.foldl Event.apply present

/-- A listener learns of an alert that it does not know, or loses one that it
knows. -/
def Event.Fits (present : Finset (Option ℕ)) : Event → Prop
  | .gone uuid => uuid ∈ present
  | .new uuid => uuid ∉ present
  | .deleted _ => True

abbrev Consistent (present : Finset (Option ℕ)) (events : List Event) :
    Prop :=
  EveryStep (fun known event => some (event.apply known)) Event.Fits present events

theorem run_apply (present : Finset (Option ℕ)) (events : List Event) :
    run (fun known event => some (Event.apply known event))
      present events = some (replay present events) := by
  induction events generalizing present with
  | nil => rfl
  | cons event rest ih =>
    simpa [run, replay] using ih (event.apply present)

@[simp] theorem replay_append (present : Finset (Option ℕ))
    (events later : List Event) :
    replay present (events ++ later) = replay (replay present events) later :=
  foldl_append

variable {present : Finset (Option ℕ)} {events : List Event}

theorem Consistent.append {later : List Event} (hevents : Consistent present events)
    (hlater : Consistent (replay present events) later) :
    Consistent present (events ++ later) :=
  TransitionSystem.everyStep_append hevents (run_apply present events) hlater

theorem consistent_gone {uuids : List (Option ℕ)} (hnodup : uuids.Nodup)
    (hknown : ∀ uuid ∈ uuids, uuid ∈ present) :
    Consistent present (uuids.map .gone) ∧
      replay present (uuids.map .gone) = present \ uuids.toFinset := by
  induction uuids generalizing present with
  | nil => simp [EveryStep, replay]
  | cons uuid rest ih =>
    rw [nodup_cons] at hnodup
    have hrest : ∀ other ∈ rest, other ∈ present.erase uuid := by
      intro other hother
      apply Finset.mem_erase.mpr
      constructor
      · rintro rfl
        exact hnodup.1 hother
      · exact hknown other (mem_cons_of_mem uuid hother)
    have hlater := ih hnodup.2 hrest
    constructor
    · exact everyStep_cons (hknown uuid mem_cons_self) rfl hlater.1
    · simp only [replay, map_cons, foldl_cons] at hlater ⊢
      simp only [Event.apply, hlater.2]
      ext other
      simp only [Finset.mem_sdiff, Finset.mem_erase, List.mem_toFinset, mem_cons]
      tauto

theorem consistent_new {uuids : List (Option ℕ)} (hnodup : uuids.Nodup)
    (hunknown : ∀ uuid ∈ uuids, uuid ∉ present) :
    Consistent present (uuids.map .new) ∧
      replay present (uuids.map .new) = present ∪ uuids.toFinset := by
  induction uuids generalizing present with
  | nil => simp [EveryStep, replay]
  | cons uuid rest ih =>
    rw [nodup_cons] at hnodup
    have hrest : ∀ other ∈ rest, other ∉ insert uuid present := by
      intro other hother hmem
      rcases Finset.mem_insert.mp hmem with heq | hold
      · rw [heq] at hother
        exact hnodup.1 hother
      · exact hunknown other (mem_cons_of_mem uuid hother) hold
    have hlater := ih hnodup.2 hrest
    constructor
    · exact everyStep_cons (hunknown uuid mem_cons_self) rfl hlater.1
    · simp only [replay, map_cons, foldl_cons] at hlater ⊢
      simp only [Event.apply, hlater.2]
      ext other
      simp only [Finset.mem_union, Finset.mem_insert, List.mem_toFinset, mem_cons]
      tauto

theorem consistent_difference {old current : Finset (Option ℕ)}
    {gone new : List (Option ℕ)} (hgoneNodup : gone.Nodup)
    (hnewNodup : new.Nodup)
    (hgone : ∀ uuid, uuid ∈ gone ↔ uuid ∈ old ∧ uuid ∉ current)
    (hnew : ∀ uuid, uuid ∈ new ↔ uuid ∈ current ∧ uuid ∉ old) :
    Consistent old (gone.map .gone ++ new.map .new) ∧
      replay old (gone.map .gone ++ new.map .new) = current := by
  have hfirst := consistent_gone hgoneNodup (fun uuid huuid => ((hgone uuid).mp huuid).1)
  have hunknown : ∀ uuid ∈ new, uuid ∉ old \ gone.toFinset := by
    intro uuid huuid hpresent
    exact ((hnew uuid).mp huuid).2 (Finset.mem_sdiff.mp hpresent).1
  have hsecond := consistent_new hnewNodup hunknown
  rw [replay_append, hfirst.2]
  constructor
  · apply hfirst.1.append
    rw [hfirst.2]
    exact hsecond.1
  · rw [hsecond.2]
    ext uuid
    simp only [Finset.mem_union, Finset.mem_sdiff, List.mem_toFinset, hgone, hnew]
    tauto

def uuids (policy : AlertPolicy κ) : Finset (Option ℕ) :=
  policy.lastKeyValueAlerts.keys.toFinset

variable {uuid : Option ℕ}

omit [DecidableEq κ] in
@[simp] theorem mem_uuids {policy : AlertPolicy κ} :
    uuid ∈ policy.uuids ↔ uuid ∈ policy.lastKeyValueAlerts := by
  simp [uuids, Dict.mem_def]

theorem map_uuid_filter {d : Dict (Option ℕ) Alert}
    (hkeyed : ∀ entry ∈ d.entries, entry.2.uuid = entry.1)
    (p : Option ℕ → Bool) :
    ((d.entries.map Prod.snd).filter fun alert => p alert.uuid).map
        Alert.uuid = d.keys.filter p := by
  have hkeys : d.keys = (d.entries.map Prod.snd).map Alert.uuid := by
    rw [Dict.keys, map_map]
    apply map_congr_left
    intro entry hentry
    exact (hkeyed entry hentry).symm
  simp [hkeys, filter_map, Function.comp_def]

theorem call_receive_of_ne {policy : AlertPolicy κ} {now : DateTime}
    (hkey : policy.key now ≠ policy.lastKeyValue) (alerts : List Alert) :
    (policy.call (.receive now alerts)).2 =
        (policy.lastKeyValueAlerts.keys.filter (· ∉ byUuid alerts)).map .gone ++
          ((byUuid alerts).keys.filter (· ∉ policy.lastKeyValueAlerts)).map .new ∧
      (policy.call (.receive now alerts)).1.lastKeyValueAlerts = byUuid alerts := by
  rw [← map_uuid_filter policy.keyed, ← map_uuid_filter (uuid_of_mem_byUuid alerts)]
  constructor
  · simp [call, receiveAlerts, hkey, Function.comp_def]
  · simp [call, receiveAlerts, hkey]

theorem call_consistent (policy : AlertPolicy κ) (c : Call) :
    Consistent policy.uuids (policy.call c).2 ∧
      replay policy.uuids (policy.call c).2 = (policy.call c).1.uuids := by
  cases c with
  | delete alert =>
    constructor
    · simp [call, EveryStep, Event.Fits]
    · ext uuid
      simp [call, replay, Event.apply, deleteAlert, Dict.mem_erase_iff]
  | receive now alerts =>
    by_cases hkey : policy.key now = policy.lastKeyValue
    · simp [call, receiveAlerts, hkey, EveryStep, replay]
    · have hcall := call_receive_of_ne hkey alerts
      rw [hcall.1]
      apply consistent_difference (policy.lastKeyValueAlerts.nodup_keys.filter _)
        ((byUuid alerts).nodup_keys.filter _)
      · intro uuid
        simp [hcall.2, Dict.mem_def]
      · intro uuid
        simp [hcall.2, Dict.mem_def]

/-! ## What a whole history reports -/

theorem history_consistent (policy : AlertPolicy κ) (calls : List Call) :
    Consistent policy.uuids (policy.history calls).2 ∧
      replay policy.uuids (policy.history calls).2 = (policy.history calls).1.uuids := by
  induction calls generalizing policy with
  | nil => simp [history, EveryStep, replay]
  | cons c rest ih =>
    have hcall := policy.call_consistent c
    have hrest := ih (policy.call c).1
    rw [← hcall.2] at hrest
    constructor
    · exact hcall.1.append hrest.1
    · exact (replay_append _ _ _).trans hrest.2

theorem Consistent.fits {event : Event} {before after : List Event}
    (hevents : Consistent present (before ++ event :: after)) :
    event.Fits (replay present before) := by
  have htake : (before ++ event :: after).take before.length = before := take_left
  have hget : (before ++ event :: after)[before.length]? = some event := by
    simp
  have hrun := run_apply present before
  nth_rewrite 1 [← htake] at hrun
  exact hevents.of_getElem? hrun hget

theorem new_mem_of_mem_replay (hmem : uuid ∈ replay present events)
    (hstart : uuid ∉ present) : .new uuid ∈ events := by
  induction events generalizing present with
  | nil => exact absurd hmem hstart
  | cons event rest ih =>
    by_cases hnext : uuid ∈ event.apply present
    · cases event with
      | new other =>
        have heq : uuid = other := by
          simpa [Event.apply, hstart] using hnext
        simp [heq]
      | gone other => simp [Event.apply, hstart] at hnext
      | deleted other => simp [Event.apply, hstart] at hnext
    · exact mem_cons_of_mem event (ih hmem hnext)

theorem removal_mem_of_not_mem_replay (hmem : uuid ∉ replay present events)
    (hstart : uuid ∈ present) :
    .gone uuid ∈ events ∨ .deleted uuid ∈ events := by
  induction events generalizing present with
  | nil => exact absurd hstart hmem
  | cons event rest ih =>
    by_cases hnext : uuid ∈ event.apply present
    · rcases ih hmem hnext with hgone | hdeleted
      · exact .inl (mem_cons_of_mem event hgone)
      · exact .inr (mem_cons_of_mem event hdeleted)
    · cases event with
      | new other => simp [Event.apply, hstart] at hnext
      | gone other =>
        have heq : uuid = other := by
          simpa [Event.apply, hstart] using hnext
        simp [heq]
      | deleted other =>
        have heq : uuid = other := by
          simpa [Event.apply, hstart] using hnext
        simp [heq]

/-- The reports add up to what the policy stores.  A new report is followed by
a gone report or a deletion before the next new report of the same alert, and
a gone report always has a new report before it that no other gone report
answers. -/
theorem history_replays (key : DateTime → Option κ) (calls : List Call) :
    replay ∅ ((init key).history calls).2 = ((init key).history calls).1.uuids ∧
      (∀ (uuid : Option ℕ) (before between after : List Event), ((init key).history calls).2 =
            before ++ .new uuid :: (between ++ .new uuid :: after) →
          .gone uuid ∈ between ∨ .deleted uuid ∈ between) ∧
      (∀ (uuid : Option ℕ) (before between after : List Event), ((init key).history calls).2 =
            before ++ .gone uuid :: (between ++ .gone uuid :: after) →
          .new uuid ∈ between) ∧
      ∀ (uuid : Option ℕ) (before after : List Event),
        ((init key).history calls).2 = before ++ .gone uuid :: after → .new uuid ∈ before := by
  obtain ⟨hconsistent, hreplay⟩ := (init key).history_consistent calls
  refine ⟨hreplay, ?_, ?_, ?_⟩
  · intro uuid before between after hsplit
    rw [hsplit, ← cons_append, ← append_assoc] at hconsistent
    have habsent : uuid ∉ replay ∅ (before ++ .new uuid :: between) := hconsistent.fits
    rw [replay_append] at habsent
    exact removal_mem_of_not_mem_replay habsent (Finset.mem_insert_self uuid (replay ∅ before))
  · intro uuid before between after hsplit
    rw [hsplit, ← cons_append, ← append_assoc] at hconsistent
    have hpresent : uuid ∈ replay ∅ (before ++ .gone uuid :: between) := hconsistent.fits
    rw [replay_append] at hpresent
    exact new_mem_of_mem_replay hpresent (Finset.notMem_erase uuid (replay ∅ before))
  · intro uuid before after hsplit
    rw [hsplit] at hconsistent
    exact new_mem_of_mem_replay hconsistent.fits (Finset.notMem_empty uuid)

def smartClass : AlertClass where
  name := "SMART"
  title := "SMART error"

def smartAlert : Alert :=
  .init smartClass .null none none none (some .A) (some false) none (some 1)
    (some "SMART") none none

def deleteBetween : List Call :=
  [.receive ⟨0, false⟩ [smartAlert], .delete smartAlert, .receive ⟨60, false⟩ [smartAlert]]

theorem history_deleteBetween : ((init fun now => some now.micros).history deleteBetween).2 =
    [.new (some 1), .deleted (some 1), .new (some 1)] := by
  decide +kernel

/-- An alert deleted between two receives is reported as new twice. -/
theorem deleted_alert_reported_twice : ¬ ∀ (key : DateTime → Option ℤ) (calls : List Call),
    replay ∅ ((init key).history calls).2 = ((init key).history calls).1.uuids ∧
      ∀ (uuid : Option ℕ) (before between after : List Event), ((init key).history calls).2 =
            before ++ .new uuid :: (between ++ .new uuid :: after) →
          .gone uuid ∈ between := by
  intro hall
  have hgone := (hall (fun now => some now.micros) deleteBetween).2 (some 1) []
    [.deleted (some 1)] [] history_deleteBetween
  simp at hgone

end AlertPolicy

end Middlewared
