import Middlewared.Dict
import Mathlib.Tactic

/-!
# Sorting into buckets

Elements are dealt into the buckets of a dictionary, one bucket for each group, and the buckets
are then joined in the order of their keys.
-/

namespace Middlewared.Buckets

open List

variable {α κ : Type*} [DecidableEq κ]

/-- The elements of one group after the other, in the order of `keys`. -/
def joined (group : α → κ) (keys : List κ) (l : List α) : List α :=
  keys.flatMap fun k => l.filter fun x => group x = k

/-- `groups[k].append(x)`; `none` stands for the missing key. -/
def append (groups : Dict κ (List α)) (k : κ) (x : α) :
    Option (Dict κ (List α)) :=
  (groups.get? k).map fun bucket => groups.set k (bucket ++ [x])

def deal (group : α → κ) (groups : Dict κ (List α)) (l : List α) :
    Option (Dict κ (List α)) :=
  l.foldlM (fun groups x => append groups (group x) x) groups

section

variable {group : α → κ} {keys : List κ} {l : List α} {k : κ}

@[simp] theorem joined_nil : joined group [] l = [] := rfl

@[simp] theorem joined_cons :
    joined group (k :: keys) l = (l.filter fun x => group x = k) ++ joined group keys l := by
  unfold joined
  rw [flatMap_cons]

theorem joined_congr {l' : List α} (hsame : ∀ k ∈ keys, (l.filter fun x => group x = k) =
      l'.filter fun x => group x = k) :
    joined group keys l = joined group keys l' :=
  flatMap_congr hsame

theorem mem_joined {x : α} : x ∈ joined group keys l ↔ x ∈ l ∧ group x ∈ keys := by
  simp [joined, and_comm]

theorem filter_joined_of_notMem (hmem : k ∉ keys) :
    (joined group keys l).filter (fun x => group x = k) = [] := by
  rw [filter_eq_nil_iff]
  intro x hx
  have hgroup := (mem_joined.mp hx).2
  rw [decide_eq_true_eq]
  intro heq
  exact hmem (heq ▸ hgroup)

theorem filter_joined (hkeys : keys.Nodup) (hmem : k ∈ keys) :
    (joined group keys l).filter (fun x => group x = k) = l.filter fun x => group x = k := by
  induction keys with
  | nil => cases hmem
  | cons first rest ih =>
    rw [nodup_cons] at hkeys
    rw [joined_cons, filter_append, filter_filter]
    by_cases hfirst : k = first
    · subst hfirst
      rw [filter_joined_of_notMem hkeys.1, append_nil]
      simp
    · have hrest := ih hkeys.2 ((mem_cons.mp hmem).resolve_left hfirst)
      have hnone : (l.filter fun x => decide (group x = k) && decide (group x = first)) = [] := by
        rw [filter_eq_nil_iff]
        intro x _ hboth
        simp only [Bool.and_eq_true, decide_eq_true_eq] at hboth
        exact hfirst (hboth.1.symm.trans hboth.2)
      rw [hnone, nil_append, hrest]

theorem joined_filter_ne (hmem : k ∉ keys) :
    joined group keys (l.filter fun x => !decide (group x = k)) = joined group keys l := by
  apply joined_congr
  intro k' hk'
  rw [filter_filter]
  apply filter_congr
  intro x _
  by_cases hgroup : group x = k'
  · have hne : k' ≠ k := fun heq => hmem (heq ▸ hk')
    simp [hgroup, hne]
  · simp [hgroup]

theorem joined_perm (hkeys : keys.Nodup) (hcover : ∀ x ∈ l, group x ∈ keys) :
    (joined group keys l).Perm l := by
  induction keys generalizing l with
  | nil =>
    have hnil : l = [] := eq_nil_iff_forall_not_mem.mpr fun x hx =>
        not_mem_nil (hcover x hx)
    rw [hnil, joined_nil]
  | cons first rest ih =>
    rw [nodup_cons] at hkeys
    have hrest : ∀ x ∈ l.filter (fun x => !decide (group x = first)), group x ∈ rest := by
      intro x hx
      rw [mem_filter] at hx
      have hne : group x ≠ first := by simpa using hx.2
      exact (mem_cons.mp (hcover x hx.1)).resolve_left hne
    have hperm := ih hkeys.2 hrest
    rw [joined_filter_ne hkeys.1] at hperm
    exact (List.Perm.append_left _ hperm).trans
      (filter_append_perm (fun x => decide (group x = first)) l)

theorem joined_joined (hkeys : keys.Nodup) :
    joined group keys (joined group keys l) = joined group keys l :=
  joined_congr fun _ hmem => filter_joined hkeys hmem

theorem joined_pairwise_iff {le : κ → κ → Prop} (hrefl : ∀ k, le k k) :
    (joined group keys l).Pairwise (fun x y => le (group x) (group y)) ↔ keys.Pairwise fun k k' =>
        (∃ x ∈ l, group x = k) → (∃ y ∈ l, group y = k') → le k k' := by
  unfold joined
  rw [pairwise_flatMap]
  constructor
  · intro hpairs
    refine hpairs.2.imp ?_
    intro k k' hle hx hy
    obtain ⟨x, hx, rfl⟩ := hx
    obtain ⟨y, hy, rfl⟩ := hy
    exact hle x (by simpa using hx) y (by simpa using hy)
  · intro hpairs
    constructor
    · intro k _
      apply pairwise_of_forall_mem_list
      intro x hx y hy
      have hgroup : group x = k := by simpa using (mem_filter.mp hx).2
      have hgroup' : group y = k := by simpa using (mem_filter.mp hy).2
      rw [hgroup, hgroup']
      exact hrefl k
    · refine hpairs.imp ?_
      intro k k' hle x hx y hy
      have hgroup : group x = k := by simpa using (mem_filter.mp hx).2
      have hgroup' : group y = k' := by simpa using (mem_filter.mp hy).2
      have hkeys := hle ⟨x, (mem_filter.mp hx).1, hgroup⟩
        ⟨y, (mem_filter.mp hy).1, hgroup'⟩
      rw [hgroup, hgroup']
      exact hkeys

variable {groups : Dict κ (List α)}

theorem append_eq_some {k : κ} (x : α) (hmem : k ∈ groups.keys) :
    ∃ groups', append groups k x = some groups' ∧ groups'.entries = groups.entries.map fun entry =>
        (entry.1, entry.2 ++ if k = entry.1 then [x] else []) := by
  obtain ⟨bucket, hget⟩ := Dict.exists_get?_of_mem hmem
  refine ⟨groups.set k (bucket ++ [x]), ?_, ?_⟩
  · unfold append
    rw [hget, Option.map_some]
  · unfold Dict.set Dict.setEntries
    rw [dif_pos hmem]
    apply map_congr_left
    intro entry hentry
    by_cases hkey : entry.1 = k
    · have hvalue : groups.get? k = some entry.2 := by
        rw [← hkey]
        exact Dict.lookup_eq_some_of_mem groups.nodup hentry
      rw [hget, Option.some.injEq] at hvalue
      rw [if_pos hkey, if_pos hkey.symm, hvalue, hkey]
    · rw [if_neg hkey, if_neg (Ne.symm hkey), append_nil]

theorem deal_eq_some {l : List α} (hcover : ∀ x ∈ l, group x ∈ groups.keys) :
    ∃ groups', deal group groups l = some groups' ∧
      groups'.entries = groups.entries.map fun entry =>
        (entry.1, entry.2 ++ l.filter fun x => group x = entry.1) := by
  induction l generalizing groups with
  | nil => exact ⟨groups, rfl, by simp⟩
  | cons x rest ih =>
    obtain ⟨next, hnext, hentries⟩ := append_eq_some x (hcover x mem_cons_self)
    have hkeys : next.keys = groups.keys := by
      unfold Dict.keys
      rw [hentries, map_map]
      rfl
    have hrest : ∀ y ∈ rest, group y ∈ next.keys := by
      intro y hy
      rw [hkeys]
      exact hcover y (mem_cons_of_mem x hy)
    obtain ⟨last, hlast, hlastEntries⟩ := ih hrest
    refine ⟨last, ?_, ?_⟩
    · unfold deal at hlast ⊢
      rw [foldlM_cons, hnext]
      exact hlast
    · rw [hlastEntries, hentries, map_map]
      apply map_congr_left
      intro entry _
      by_cases hgroup : group x = entry.1
      · simp [hgroup]
      · simp [hgroup]

theorem deal_values {l : List α} (hempty : ∀ entry ∈ groups.entries, entry.2 = [])
    (hcover : ∀ x ∈ l, group x ∈ groups.keys) :
    ∃ groups', deal group groups l = some groups' ∧ (groups'.entries.flatMap fun entry => entry.2) =
        joined group groups.keys l := by
  obtain ⟨groups', hdeal, hentries⟩ := deal_eq_some hcover
  refine ⟨groups', hdeal, ?_⟩
  unfold joined Dict.keys
  rw [hentries, flatMap_map, flatMap_map]
  apply flatMap_congr
  intro entry hentry
  rw [hempty entry hentry, nil_append]

end

end Middlewared.Buckets
