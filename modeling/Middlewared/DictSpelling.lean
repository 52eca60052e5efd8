import Middlewared.Dict
import Mathlib.Data.List.TakeWhile
import Mathlib.Tactic

/-!
# Dictionaries read up to spelling

A reader may take several keys of a dictionary for one: it looks for the last entry whose key
meets a test.
-/

namespace Middlewared.Dict

open List Option

variable {κ ν : Type*}

def lastMatch (p : κ → Bool) (entries : List (κ × ν)) : Option ν :=
  ((entries.filter fun entry => p entry.1).getLast?).map Prod.snd

theorem lastMatch_append (p : κ → Bool) (first rest : List (κ × ν)) :
    lastMatch p (first ++ rest) = (lastMatch p rest).or (lastMatch p first) := by
  unfold lastMatch
  rw [filter_append, getLast?_append]
  cases (rest.filter fun entry => p entry.1).getLast? <;> rfl

theorem lastMatch_cons (p : κ → Bool) (entry : κ × ν) (rest : List (κ × ν)) :
    lastMatch p (entry :: rest) =
      (lastMatch p rest).or (if p entry.1 then some entry.2 else none) := by
  rw [← singleton_append, lastMatch_append]
  unfold lastMatch
  cases hentry : p entry.1 <;> simp [hentry]

theorem lastMatch_eq_none_iff {p : κ → Bool} {entries : List (κ × ν)} :
    lastMatch p entries = none ↔ ∀ entry ∈ entries, p entry.1 = false := by
  simp [lastMatch]

variable {v : ν}

theorem lastMatch_eq_some {p : κ → Bool} {entries : List (κ × ν)}
    {entry : κ × ν} (hentry : entry ∈ entries) (hp : p entry.1 = true)
    (hall : ∀ other ∈ entries, p other.1 = true → other.2 = v) :
    lastMatch p entries = some v := by
  have hmem : entry ∈ entries.filter fun entry => p entry.1 := mem_filter.mpr ⟨hentry, hp⟩
  unfold lastMatch
  cases hlast : (entries.filter fun entry => p entry.1).getLast? with
  | none =>
    rw [getLast?_eq_none_iff.mp hlast] at hmem
    cases hmem
  | some last =>
    obtain ⟨hlast, hmatch⟩ := mem_filter.mp (mem_of_getLast? hlast)
    rw [map_some, hall last hlast hmatch]

theorem lastMatch_filter {p : κ → Bool} {q : κ × ν → Bool} {entries : List (κ × ν)}
    (hq : ∀ entry ∈ entries, p entry.1 = true → q entry = true) :
    lastMatch p (entries.filter q) = lastMatch p entries := by
  unfold lastMatch
  rw [List.filter_filter]
  congr 2
  apply filter_congr
  intro entry hentry
  cases hp : p entry.1 with
  | false => simp
  | true => simp [hq entry hentry hp]

theorem lastMatch_congr {p q : κ → Bool} {entries : List (κ × ν)}
    (hpq : ∀ entry ∈ entries, p entry.1 = q entry.1) :
    lastMatch p entries = lastMatch q entries := by
  unfold lastMatch
  rw [filter_congr hpq]

theorem lastMatch_map {p : κ → Bool} {f : κ × ν → ν} {entries : List (κ × ν)}
    (hf : ∀ entry ∈ entries, p entry.1 = true → f entry = entry.2) :
    lastMatch p (entries.map fun entry => (entry.1, f entry)) = lastMatch p entries := by
  induction entries with
  | nil => rfl
  | cons entry rest ih =>
    rw [forall_mem_cons] at hf
    rw [map_cons, lastMatch_cons, lastMatch_cons, ih hf.2]
    cases hp : p entry.1 with
    | false => rfl
    | true => rw [hf.1 hp]

theorem ext_entries {d e : Dict κ ν} (hentries : d.entries = e.entries) : d = e := by
  cases d
  cases e
  cases hentries
  rfl

variable [DecidableEq κ]

def update (d : Dict κ ν) (entries : List (κ × ν)) : Dict κ ν :=
  entries.foldl (fun d entry => d.set entry.1 entry.2) d

theorem update_append (d : Dict κ ν) (first rest : List (κ × ν)) :
    d.update (first ++ rest) = (d.update first).update rest :=
  foldl_append

@[simp] theorem update_nil (d : Dict κ ν) : d.update [] = d := rfl

theorem update_singleton (d : Dict κ ν) (k : κ) (v : ν) : d.update [(k, v)] = d.set k v := rfl

theorem mem_update_iff {d : Dict κ ν} {entries : List (κ × ν)} {k : κ} :
    k ∈ d.update entries ↔ k ∈ d ∨ k ∈ entries.map Prod.fst := by
  induction entries generalizing d with
  | nil => simp
  | cons entry rest ih =>
    change k ∈ (d.set entry.1 entry.2).update rest ↔ _
    rw [ih, mem_set_iff, map_cons, mem_cons]
    tauto

theorem get?_update_of_notMem {d : Dict κ ν} {entries : List (κ × ν)} {k : κ}
    (hk : k ∉ entries.map Prod.fst) : (d.update entries).get? k = d.get? k := by
  have hlookup : entries.reverse.lookup k = none := by
    apply not_isSome_iff_eq_none.mp
    rw [lookup_isSome_iff, map_reverse, mem_reverse]
    exact hk
  unfold update
  rw [get?_foldl_set, hlookup]
  rfl

theorem get?_update_eq_some {d : Dict κ ν} {entries : List (κ × ν)} {k : κ}
    (hget : (d.update entries).get? k = some v) :
    (k, v) ∈ entries ∨ k ∉ entries.map Prod.fst ∧ d.get? k = some v := by
  by_cases hk : k ∈ entries.map Prod.fst
  · left
    rw [← mem_reverse, ← map_reverse, ← lookup_isSome_iff] at hk
    obtain ⟨w, hfound⟩ := isSome_iff_exists.mp hk
    unfold update at hget
    rw [get?_foldl_set, hfound] at hget
    have hsame : w = v := some.inj hget
    rw [← hsame]
    exact mem_reverse.mp (mem_of_lookup_eq_some hfound)
  · right
    rw [get?_update_of_notMem hk] at hget
    exact ⟨hk, hget⟩

theorem get?_update_of_mem {d : Dict κ ν} {entries : List (κ × ν)} {k : κ} (hmem : (k, v) ∈ entries)
    (hall : ∀ entry ∈ entries, entry.1 = k → entry.2 = v) :
    (d.update entries).get? k = some v := by
  have hk : k ∈ entries.map Prod.fst := List.mem_map_of_mem hmem
  obtain ⟨w, hw⟩ := exists_get?_of_mem (mem_update_iff.mpr (Or.inr hk) : k ∈ d.update entries)
  rcases get?_update_eq_some hw with hentry | hold
  · rw [hw]
    exact congrArg some (hall (k, w) hentry rfl)
  · exact absurd hk hold.1

theorem mem_ofEntries_iff {entries : List (κ × ν)} {k : κ} :
    k ∈ ofEntries entries ↔ k ∈ entries.map Prod.fst := by
  have hempty : k ∉ (empty : Dict κ ν) := by simp [mem_def, keys, empty]
  change k ∈ (empty : Dict κ ν).update entries ↔ _
  rw [mem_update_iff]
  exact or_iff_right hempty

theorem entries_set_of_mem {d : Dict κ ν} {k : κ} (hk : k ∈ d) (v : ν) : (d.set k v).entries =
    d.entries.map fun entry => (entry.1, if entry.1 = k then v else entry.2) := by
  unfold set
  rw [dif_pos (mem_def.mp hk)]
  apply map_congr_left
  intro entry _
  split
  · rename_i heq
    rw [heq]
  · rfl

theorem entries_set_of_notMem {d : Dict κ ν} {k : κ} (hk : k ∉ d) (v : ν) :
    (d.set k v).entries = d.entries ++ [(k, v)] := by
  unfold set
  rw [dif_neg (mt mem_def.mpr hk)]

theorem ofEntries_concat (entries : List (κ × ν)) (k : κ) (v : ν) :
    ofEntries (entries ++ [(k, v)]) = (ofEntries entries).set k v := by
  simp [ofEntries]

theorem entries_ofEntries_of_nodup {entries : List (κ × ν)}
    (hnodup : (entries.map Prod.fst).Nodup) :
    (ofEntries entries).entries = entries := by
  induction entries using List.reverseRecOn with
  | nil => rfl
  | append_singleton entries entry ih =>
    rw [map_append, nodup_append] at hnodup
    have hnew : entry.1 ∉ ofEntries entries := by
      rw [mem_ofEntries_iff]
      intro hmem
      exact hnodup.2.2 entry.1 hmem entry.1 (by simp) rfl
    rw [ofEntries_concat, entries_set_of_notMem hnew, ih hnodup.1]

theorem update_empty_entries (d : Dict κ ν) : (empty : Dict κ ν).update d.entries = d :=
  ext_entries (entries_ofEntries_of_nodup d.nodup)

theorem set_set (d : Dict κ ν) (k : κ) (v w : ν) : (d.set k v).set k w = d.set k w := by
  apply ext_entries
  rw [entries_set_of_mem (mem_set_iff.mpr (Or.inl rfl))]
  by_cases hk : k ∈ d
  · rw [entries_set_of_mem hk, entries_set_of_mem hk, List.map_map]
    apply map_congr_left
    intro entry _
    by_cases heq : entry.1 = k <;> simp [heq]
  · rw [entries_set_of_notMem hk, entries_set_of_notMem hk, map_append, map_singleton, if_pos rfl]
    congr 1
    calc d.entries.map (fun entry =>
          (entry.1, if entry.1 = k then w else entry.2))
        = d.entries.map id := by
          apply map_congr_left
          intro entry hentry
          have hne : entry.1 ≠ k := by
            rintro rfl
            exact hk (List.mem_map_of_mem hentry)
          rw [if_neg hne]
          rfl
      _ = d.entries := List.map_id _

theorem map_set_eq_self {entries : List (κ × ν)} {k : κ}
    (hne : ∀ entry ∈ entries, entry.1 ≠ k) (v : ν) :
    (entries.map fun entry => (entry.1, if entry.1 = k then v else entry.2)) = entries := by
  induction entries with
  | nil => rfl
  | cons entry rest ih =>
    rw [forall_mem_cons] at hne
    rw [map_cons, if_neg hne.1, ih hne.2]

theorem get?_ofEntries_eq_some {entries : List (κ × ν)} {k : κ} (hmem : (k, v) ∈ entries)
    (hall : ∀ entry ∈ entries, entry.1 = k → entry.2 = v) :
    (ofEntries entries).get? k = some v := by
  obtain ⟨w, hw⟩ := exists_get?_of_mem (mem_ofEntries_iff.mpr (List.mem_map_of_mem hmem))
  have hfound := hw
  rw [get?_ofEntries] at hfound
  have hentry := mem_reverse.mp (mem_of_lookup_eq_some hfound)
  rw [hw]
  exact congrArg some (hall (k, w) hentry rfl)

theorem filter_entries_set_of_mem {d aux : Dict κ ν} {k : κ} (hk : k ∈ d) (v : ν) :
    ((aux.set k v).entries.filter fun entry => entry.1 ∉ d) =
      aux.entries.filter fun entry => entry.1 ∉ d := by
  by_cases haux : k ∈ aux
  · rw [entries_set_of_mem haux, List.filter_map]
    apply map_set_eq_self
    intro entry hentry heq
    rw [← heq] at hk
    simp [hk] at hentry
  · rw [entries_set_of_notMem haux]
    simp [hk]

theorem filter_entries_set_of_notMem {d aux : Dict κ ν} {k : κ} (hk : k ∉ d) (v : ν) :
    ((aux.set k v).entries.filter fun entry => entry.1 ∉ d) = if k ∈ aux then
        (aux.entries.filter fun entry => entry.1 ∉ d).map fun entry =>
          (entry.1, if entry.1 = k then v else entry.2)
      else (aux.entries.filter fun entry => entry.1 ∉ d) ++ [(k, v)] := by
  split
  · rename_i haux
    rw [entries_set_of_mem haux, List.filter_map]
    rfl
  · rename_i haux
    rw [entries_set_of_notMem haux]
    simp [hk]

theorem map_getD_set {d : Dict κ ν} {k : κ} (entries : List (κ × ν)) : ((entries.map fun entry =>
      (entry.1, (d.get? entry.1).getD entry.2)).map fun entry =>
      (entry.1, if entry.1 = k then v else entry.2)) =
    entries.map fun entry =>
      (entry.1, ((d.set k v).get? entry.1).getD entry.2) := by
  rw [List.map_map]
  apply map_congr_left
  intro entry _
  simp only [Function.comp_apply, get?_set]
  split <;> rfl

theorem entries_update (d : Dict κ ν) (entries : List (κ × ν)) : (d.update entries).entries =
    (d.entries.map fun entry =>
      (entry.1, ((ofEntries entries).get? entry.1).getD entry.2)) ++
    (ofEntries entries).entries.filter fun entry => entry.1 ∉ d := by
  induction entries using List.reverseRecOn with
  | nil =>
    change d.entries = (d.entries.map fun entry => entry) ++ []
    rw [List.map_id', append_nil]
  | append_singleton entries entry ih =>
    obtain ⟨k, v⟩ := entry
    rw [update_append, update_singleton, ofEntries_concat]
    by_cases hd : k ∈ d
    · have hmem : k ∈ d.update entries := mem_update_iff.mpr (Or.inl hd)
      rw [entries_set_of_mem hmem, ih, map_append, map_getD_set, filter_entries_set_of_mem hd]
      congr 1
      apply map_set_eq_self
      intro entry hentry heq
      rw [← heq] at hd
      simp [hd] at hentry
    · have hkept : ∀ entry ∈ d.entries, entry.1 ≠ k := by
        rintro entry hentry rfl
        exact hd (List.mem_map_of_mem hentry)
      rw [filter_entries_set_of_notMem hd, ← map_getD_set]
      by_cases haux : k ∈ ofEntries entries
      · have hmem : k ∈ d.update entries := mem_update_iff.mpr (Or.inr (mem_ofEntries_iff.mp haux))
        rw [if_pos haux, entries_set_of_mem hmem, ih, map_append]
      · have hmem : k ∉ d.update entries := by
          rw [mem_update_iff, ← mem_ofEntries_iff]
          exact not_or_intro hd haux
        rw [if_neg haux, entries_set_of_notMem hmem, ih, ← append_assoc]
        rw [map_set_eq_self]
        rintro entry hentry rfl
        obtain ⟨old, hold, rfl⟩ := List.mem_map.mp hentry
        exact hkept old hold rfl

/-! ## The last match after an update -/

variable {p : κ → Bool} {d : Dict κ ν} {k : κ} {entries : List (κ × ν)}

theorem lastMatch_update_of_noMatch (hentries : ∀ entry ∈ entries, p entry.1 = false) :
    lastMatch p (d.update entries).entries = lastMatch p d.entries := by
  have hset : ∀ key ∈ ofEntries entries, p key = false := by
    intro key hkey
    obtain ⟨entry, hentry, rfl⟩ := List.mem_map.mp (mem_ofEntries_iff.mp hkey)
    exact hentries entry hentry
  rw [entries_update, lastMatch_append]
  have hnew : lastMatch p ((ofEntries entries).entries.filter fun entry => entry.1 ∉ d) = none := by
    rw [lastMatch_eq_none_iff]
    intro entry hentry
    exact hset entry.1 (List.mem_map_of_mem (mem_of_mem_filter hentry))
  rw [hnew, none_or]
  apply lastMatch_map
  intro entry _ hp
  have hnone : (ofEntries entries).get? entry.1 = none := by
    rw [get?_eq_none_iff]
    intro hmem
    rw [hset entry.1 hmem] at hp
    cases hp
  rw [hnone]
  rfl

def SpelledAs (p : κ → Bool) (k : κ) (entries : List (κ × ν)) : Prop :=
  ∀ entry ∈ entries, p entry.1 = true → entry.1 = k

theorem lastMatch_update_of_notMem (hspelled : SpelledAs p k d.entries)
    (hk : k ∉ entries.map Prod.fst) :
    lastMatch p (d.update entries).entries =
      (lastMatch p (ofEntries entries).entries).or (lastMatch p d.entries) := by
  rw [← mem_ofEntries_iff] at hk
  rw [entries_update, lastMatch_append]
  congr 1
  · apply lastMatch_filter
    intro entry hentry hp
    rw [decide_eq_true_eq]
    intro hmem
    obtain ⟨old, hold, hkey⟩ := List.mem_map.mp hmem
    have heq := hspelled old hold (by rw [hkey]; exact hp)
    rw [← heq, hkey] at hk
    exact hk (List.mem_map_of_mem hentry)
  · apply lastMatch_map
    intro entry hentry hp
    rw [hspelled entry hentry hp, get?_eq_none_iff.mpr hk]
    rfl

theorem lastMatch_set_of_notMem (hk : k ∉ d) (hp : p k = true) (v : ν) :
    lastMatch p (d.set k v).entries = some v := by
  rw [entries_set_of_notMem hk, lastMatch_append, lastMatch_cons, hp]
  rfl

theorem lastMatch_update_of_new (hk : k ∉ d) (hp : p k = true)
    (hspelled : SpelledAs p k (ofEntries entries).entries)
    (hget : (ofEntries entries).get? k = some v) :
    lastMatch p (d.update entries).entries = some v := by
  have hentry : (k, v) ∈ (ofEntries entries).entries.filter fun entry => entry.1 ∉ d :=
    mem_filter.mpr ⟨mem_entries_iff.mpr hget, by simpa using hk⟩
  rw [entries_update, lastMatch_append, lastMatch_eq_some hentry hp]
  · rfl
  · intro other hother hmatch
    have hmem := mem_of_mem_filter hother
    have hkey := hspelled other hmem hmatch
    rw [← Prod.mk.eta (p := other), hkey, mem_entries_iff, hget] at hmem
    exact (some.inj hmem).symm

def entriesAfter (d : Dict κ ν) (k : κ) : List (κ × ν) :=
  (d.entries.dropWhile fun entry => entry.1 ≠ k).tail

theorem lastMatch_set (hp : p k = true) (v : ν) : lastMatch p (d.set k v).entries =
    (lastMatch p (d.entriesAfter k)).or (some v) := by
  by_cases hk : k ∈ d
  · obtain ⟨before, after, heq, hbefore⟩ := eq_append_cons_of_mem (mem_def.mp hk)
    obtain ⟨first, rest, hentries, hfirst, hrest⟩ := map_eq_append_iff.mp heq
    obtain ⟨entry, later, hlater, hkey, hafter⟩ := map_eq_cons_iff.mp hrest
    subst hlater
    have hnodup := d.nodup_keys
    rw [heq, nodup_append, nodup_cons] at hnodup
    have hlaterNe : ∀ other ∈ later, other.1 ≠ k := by
      rintro other hother rfl
      apply hnodup.2.1.1
      rw [← hafter]
      exact List.mem_map_of_mem hother
    have hfirstNe : ∀ other ∈ first, decide (other.1 ≠ k) = true := by
      intro other hother
      rw [decide_eq_true_eq]
      rintro rfl
      apply hbefore
      rw [← hfirst]
      exact List.mem_map_of_mem hother
    have hdrop : d.entriesAfter k = later := by
      rw [entriesAfter, hentries, dropWhile_append_of_pos hfirstNe]
      simp [hkey]
    rw [hdrop, entries_set_of_mem hk, hentries, map_append,
      map_cons, lastMatch_append, lastMatch_cons,
      map_set_eq_self hlaterNe, hkey, if_pos rfl, hp]
    cases lastMatch p later <;> rfl
  · have hnil : d.entriesAfter k = [] := by
      have hall : ∀ entry ∈ d.entries, decide (entry.1 ≠ k) = true := by
        intro entry hentry
        rw [decide_eq_true_eq]
        rintro rfl
        exact hk (List.mem_map_of_mem hentry)
      rw [entriesAfter, dropWhile_eq_nil_iff.mpr hall]
      rfl
    rw [hnil, lastMatch_set_of_notMem hk hp]
    rfl

theorem lastMatch_update_set_of_mem (hspelled : SpelledAs p k d.entries)
    (hk : k ∈ d) (hp : p k = true) (v : ν) :
    lastMatch p ((d.update entries).set k v).entries =
      (lastMatch (fun key => p key && decide (key ≠ k))
        (ofEntries entries).entries).or (some v) := by
  rw [← update_singleton, ← update_append, entries_update, ofEntries_concat,
    lastMatch_append, filter_entries_set_of_mem hk]
  congr 1
  · have hnew : ∀ entry ∈ (ofEntries entries).entries.filter fun entry => entry.1 ∉ d,
        p entry.1 = (p entry.1 && decide (entry.1 ≠ k)) := by
      intro entry hentry
      have hne : entry.1 ≠ k := by
        rintro rfl
        simp [hk] at hentry
      simp [hne]
    rw [@lastMatch_congr _ _ p (fun key => p key && decide (key ≠ k)) _ hnew]
    apply lastMatch_filter
    intro entry _ hother
    rw [Bool.and_eq_true, decide_eq_true_eq] at hother
    rw [decide_eq_true_eq]
    intro hmem
    obtain ⟨old, hold, hkey⟩ := List.mem_map.mp hmem
    apply hother.2
    rw [← hkey]
    exact hspelled old hold (by rw [hkey]; exact hother.1)
  · obtain ⟨old, hold⟩ := exists_get?_of_mem hk
    have hentry := List.mem_map_of_mem (f := fun entry : κ × ν =>
        (entry.1, (((ofEntries entries).set k v).get? entry.1).getD entry.2))
      (mem_entries_iff.mpr hold)
    apply lastMatch_eq_some hentry hp
    intro other hother hmatch
    obtain ⟨entry, hmem, rfl⟩ := List.mem_map.mp hother
    rw [hspelled entry hmem hmatch, get?_set_self]
    rfl

theorem lastMatch_update_set_of_notMem (hspelled : SpelledAs p k d.entries) (hk : k ∉ d) (v : ν) :
    lastMatch p ((d.update entries).set k v).entries =
      lastMatch p ((ofEntries entries).set k v).entries := by
  have hnone : ∀ entry ∈ d.entries, p entry.1 = false := by
    intro entry hentry
    by_contra hp
    rw [Bool.not_eq_false] at hp
    apply hk
    rw [← hspelled entry hentry hp]
    exact List.mem_map_of_mem hentry
  rw [← update_singleton, ← update_append, entries_update, ofEntries_concat, lastMatch_append]
  have hold : lastMatch p (d.entries.map fun entry =>
      (entry.1, (((ofEntries entries).set k v).get? entry.1).getD entry.2)) = none := by
    rw [lastMatch_eq_none_iff]
    intro entry hentry
    obtain ⟨old, hold, rfl⟩ := List.mem_map.mp hentry
    exact hnone old hold
  rw [hold, or_none]
  apply lastMatch_filter
  intro entry _ hp
  rw [decide_eq_true_eq]
  intro hmem
  obtain ⟨old, hold, hkey⟩ := List.mem_map.mp hmem
  have hfalse := hnone old hold
  rw [hkey, hp] at hfalse
  cases hfalse

end Middlewared.Dict
