import Mathlib.Data.List.Lookmap
import Mathlib.Data.List.Nodup

/-!
# Insertion-ordered dictionaries

The finite maps of this development iterate in the order in which their keys were first set:
overwriting a key keeps its place, and a new key goes last.
-/

namespace Middlewared

open List Option

/-- A finite map that remembers the order in which its keys were first
set. -/
structure Dict (κ : Type*) (ν : Type*) where
  entries : List (κ × ν)
  nodup : (entries.map Prod.fst).Nodup

namespace Dict

variable {κ ν : Type*}

def empty : Dict κ ν where
  entries := []
  nodup := List.nodup_nil

def keys (d : Dict κ ν) : List κ :=
  d.entries.map Prod.fst

def size (d : Dict κ ν) : ℕ :=
  d.entries.length

instance : Membership κ (Dict κ ν) where
  mem d k := k ∈ d.keys

variable {k : κ} {d : Dict κ ν}

theorem mem_def : k ∈ d ↔ k ∈ d.keys := Iff.rfl

theorem nodup_keys (d : Dict κ ν) : d.keys.Nodup := d.nodup

@[simp] theorem size_empty : (empty : Dict κ ν).size = 0 := rfl

variable [DecidableEq κ]

instance (d : Dict κ ν) (k : κ) : Decidable (k ∈ d) :=
  inferInstanceAs (Decidable (k ∈ d.keys))

def get? (d : Dict κ ν) (k : κ) : Option ν :=
  d.entries.lookup k

def setEntries (k : κ) (v : ν) (entries : List (κ × ν)) : List (κ × ν) :=
  entries.map fun entry => if entry.1 = k then (k, v) else entry

theorem map_fst_setEntries (k : κ) (v : ν) (entries : List (κ × ν)) :
    (setEntries k v entries).map Prod.fst = entries.map Prod.fst := by
  induction entries with
  | nil => rfl
  | cons entry rest ih =>
    simp only [setEntries, map_cons, List.map_map] at ih ⊢
    by_cases hkey : entry.1 = k
    · simp [hkey, ih]
    · simp [hkey, ih]

def set (d : Dict κ ν) (k : κ) (v : ν) : Dict κ ν :=
  if hmem : k ∈ d.keys then
    { entries := setEntries k v d.entries
      nodup := by
        rw [map_fst_setEntries]
        exact d.nodup }
  else
    { entries := d.entries ++ [(k, v)]
      nodup := by
        rw [List.map_append, List.map_cons, List.map_nil]
        exact d.nodup.append (List.nodup_singleton k)
          (List.disjoint_singleton.mpr hmem) }

def erase (d : Dict κ ν) (k : κ) : Dict κ ν where
  entries := d.entries.filter fun entry => entry.1 ≠ k
  nodup := d.nodup.sublist ((List.filter_sublist).map Prod.fst)

def ofEntries (entries : List (κ × ν)) : Dict κ ν :=
  entries.foldl (fun d entry => d.set entry.1 entry.2) empty

@[simp] theorem get?_empty (k : κ) : (empty : Dict κ ν).get? k = none := rfl

theorem lookup_cons_ite (entry : κ × ν) (rest : List (κ × ν)) (k : κ) : (entry :: rest).lookup k =
    if k = entry.1 then some entry.2 else rest.lookup k := by
  rw [lookup_cons]
  by_cases hkey : k = entry.1
  · simp [hkey]
  · have hbeq : (k == entry.1) = false := by simpa using hkey
    simp [hkey, hbeq]

theorem lookup_isSome_iff (entries : List (κ × ν)) (k : κ) :
    (entries.lookup k).isSome ↔ k ∈ entries.map Prod.fst := by
  induction entries with
  | nil => simp
  | cons entry rest ih =>
    rw [lookup_cons_ite, map_cons, mem_cons]
    by_cases hkey : k = entry.1
    · simp [hkey]
    · simp only [hkey, false_or]
      exact ih

theorem get?_isSome_iff : (d.get? k).isSome ↔ k ∈ d := lookup_isSome_iff d.entries k

theorem get?_eq_none_iff : d.get? k = none ↔ k ∉ d := by
  rw [← get?_isSome_iff, not_isSome_iff_eq_none]

variable {v : ν}

theorem mem_of_get?_eq_some (hget : d.get? k = some v) : k ∈ d :=
  get?_isSome_iff.mp (by rw [hget]; rfl)

theorem exists_get?_of_mem (hmem : k ∈ d) : ∃ v, d.get? k = some v :=
  isSome_iff_exists.mp (get?_isSome_iff.mpr hmem)

variable {entries : List (κ × ν)}

theorem lookup_eq_some_of_mem (hnodup : (entries.map Prod.fst).Nodup)
    (hmem : (k, v) ∈ entries) : entries.lookup k = some v := by
  induction entries with
  | nil => simp at hmem
  | cons entry rest ih =>
    rw [map_cons, nodup_cons] at hnodup
    rw [lookup_cons_ite]
    rcases List.mem_cons.mp hmem with heq | hrest
    · simp [← heq]
    · have hne : k ≠ entry.1 := by
        rintro rfl
        exact hnodup.1 (List.mem_map.mpr ⟨_, hrest, rfl⟩)
      rw [if_neg hne]
      exact ih hnodup.2 hrest

theorem mem_of_lookup_eq_some (hlookup : entries.lookup k = some v) : (k, v) ∈ entries := by
  induction entries with
  | nil => simp at hlookup
  | cons entry rest ih =>
    rw [lookup_cons_ite] at hlookup
    by_cases hkey : k = entry.1
    · rw [if_pos hkey, some.injEq] at hlookup
      subst hkey hlookup
      exact mem_cons_self
    · rw [if_neg hkey] at hlookup
      exact mem_cons_of_mem entry (ih hlookup)

theorem mem_entries_iff : (k, v) ∈ d.entries ↔ d.get? k = some v :=
  ⟨lookup_eq_some_of_mem d.nodup, mem_of_lookup_eq_some⟩

theorem lookup_setEntries (k j : κ) (v : ν) (entries : List (κ × ν)) :
    (setEntries k v entries).lookup j = if j = k then (entries.lookup k).map fun _ => v
      else entries.lookup j := by
  induction entries with
  | nil => simp [setEntries]
  | cons entry rest ih =>
    simp only [setEntries, map_cons] at ih ⊢
    rw [lookup_cons_ite, lookup_cons_ite, lookup_cons_ite, ih]
    by_cases hkey : entry.1 = k
    · subst hkey
      by_cases hj : j = entry.1 <;> simp [hj]
    · have hkey' : ¬ k = entry.1 := fun h => hkey h.symm
      by_cases hj : j = k
      · subst hj
        simp [hkey, hkey']
      · simp [hkey, hj]

theorem get?_set (d : Dict κ ν) (k j : κ) (v : ν) :
    (d.set k v).get? j = if j = k then some v else d.get? j := by
  unfold set get?
  by_cases hmem : k ∈ d.keys
  · rw [dif_pos hmem]
    obtain ⟨w, hw⟩ : ∃ w, d.entries.lookup k = some w := exists_get?_of_mem hmem
    rw [lookup_setEntries, hw, map_some]
  · rw [dif_neg hmem]
    have hnone : d.entries.lookup k = none := get?_eq_none_iff.mpr hmem
    rw [lookup_append, lookup_cons_ite, lookup_nil]
    by_cases hj : j = k
    · simp [hj, hnone]
    · simp [hj]

@[simp] theorem get?_set_self (d : Dict κ ν) (k : κ) (v : ν) :
    (d.set k v).get? k = some v := by
  simp [get?_set]

variable {j : κ}

theorem get?_set_of_ne (d : Dict κ ν) (hne : j ≠ k) (v : ν) : (d.set k v).get? j = d.get? j := by
  simp [get?_set, hne]

theorem lookup_filter_key (p : κ → Bool) (entries : List (κ × ν)) (j : κ) :
    (entries.filter fun entry => p entry.1).lookup j =
      if p j then entries.lookup j else none := by
  induction entries with
  | nil => simp
  | cons entry rest ih =>
    rw [filter_cons, lookup_cons_ite]
    by_cases hj : j = entry.1
    · subst hj
      cases hp : p entry.1 <;> simp [hp, ih, lookup_cons_ite]
    · cases p entry.1 <;> simp [hj, ih, lookup_cons_ite]

theorem get?_erase (d : Dict κ ν) (k j : κ) :
    (d.erase k).get? j = if j = k then none else d.get? j := by
  change (d.entries.filter fun entry => entry.1 ≠ k).lookup j = _
  rw [lookup_filter_key fun key => decide (key ≠ k)]
  by_cases hj : j = k <;> simp [hj, get?]

theorem forall_get?_set {p : ν → Prop} (hall : ∀ k v, d.get? k = some v → p v)
    {key : κ} {new : ν} (hnew : p new) :
    ∀ k v, (d.set key new).get? k = some v → p v := by
  intro k v hget
  rw [get?_set] at hget
  split at hget
  · rw [← some.inj hget]
    exact hnew
  · exact hall k v hget

theorem forall_get?_erase {p : ν → Prop} (hall : ∀ k v, d.get? k = some v → p v)
    (key : κ) : ∀ k v, (d.erase key).get? k = some v → p v := by
  intro k v hget
  rw [get?_erase] at hget
  split at hget
  · cases hget
  · exact hall k v hget

theorem mem_erase_iff : j ∈ d.erase k ↔ j ≠ k ∧ j ∈ d := by
  rw [← get?_isSome_iff, ← get?_isSome_iff, get?_erase]
  by_cases hj : j = k <;> simp [hj]

theorem mem_set_iff : j ∈ d.set k v ↔ j = k ∨ j ∈ d := by
  rw [← get?_isSome_iff, ← get?_isSome_iff, get?_set]
  by_cases hj : j = k <;> simp [hj]

@[simp] theorem size_set_of_mem (hmem : k ∈ d) (v : ν) :
    (d.set k v).size = d.size := by
  unfold set
  rw [dif_pos (mem_def.mp hmem)]
  simp [size, setEntries]

@[simp] theorem size_set_of_not_mem (hmem : k ∉ d) (v : ν) :
    (d.set k v).size = d.size + 1 := by
  unfold set
  rw [dif_neg (mt mem_def.mpr hmem)]
  simp [size]

theorem size_erase_le (d : Dict κ ν) (k : κ) : (d.erase k).size ≤ d.size :=
  length_filter_le _ d.entries

theorem filter_flatMap_entries {β : Type*} {d : Dict κ (List β)} {p : β → Bool}
    (hother : ∀ entry ∈ d.entries, entry.1 ≠ k → entry.2.filter p = []) :
    (d.entries.flatMap fun entry => entry.2).filter p = ((d.get? k).getD []).filter p := by
  rcases d with ⟨entries, hnodup⟩
  simp only [get?] at hother ⊢
  induction entries with
  | nil => rfl
  | cons entry rest ih =>
    rw [map_cons, nodup_cons] at hnodup
    have hrest := ih hnodup.2 fun other hmem =>
      hother other (mem_cons_of_mem entry hmem)
    rw [flatMap_cons, filter_append, hrest, lookup_cons_ite]
    by_cases hkey : k = entry.1
    · have hnone : rest.lookup k = none := by
        rw [← not_isSome_iff_eq_none, lookup_isSome_iff, hkey]
        exact hnodup.1
      rw [if_pos hkey, hnone]
      simp
    · rw [if_neg hkey, hother entry mem_cons_self (Ne.symm hkey), nil_append]

/-! ## The first entry with a property -/

section

variable {p : κ × ν → Bool} {k : κ} {v : ν} {entry : κ × ν}

theorem find?_setEntries_of_ne (hfind : entries.find? p = some entry) (hne : entry.1 ≠ k)
    (hp : ∀ old, (k, old) ∈ entries → p (k, v) = true → p (k, old) = true) :
    (setEntries k v entries).find? p = some entry := by
  induction entries with
  | nil => simp at hfind
  | cons head rest ih =>
    have hrest : ∀ old, (k, old) ∈ rest → p (k, v) = true → p (k, old) = true := by
      intro old hold
      exact hp old (mem_cons_of_mem head hold)
    simp only [setEntries, map_cons] at ih ⊢
    cases hhead : p head with
    | true =>
      rw [find?_cons_of_pos hhead, some.injEq] at hfind
      have hkey : head.1 ≠ k := by
        rw [hfind]
        exact hne
      rw [if_neg hkey, find?_cons_of_pos hhead, hfind]
    | false =>
      have hmiss : ¬ p head = true := by simp [hhead]
      rw [find?_cons_of_neg hmiss] at hfind
      have hnew : ¬ p (if head.1 = k then (k, v) else head) = true := by
        by_cases hkey : head.1 = k
        · rw [if_pos hkey]
          intro hpk
          apply hmiss
          have hold := hp head.2 (by simp [← hkey]) hpk
          rw [← hkey] at hold
          exact hold
        · rw [if_neg hkey]
          exact hmiss
      rw [find?_cons_of_neg hnew]
      exact ih hfind hrest

theorem find?_set_of_ne (hfind : d.entries.find? p = some entry) (hne : entry.1 ≠ k)
    (hp : ∀ old, d.get? k = some old → p (k, v) = true → p (k, old) = true) :
    (d.set k v).entries.find? p = some entry := by
  unfold set
  by_cases hmem : k ∈ d.keys
  · rw [dif_pos hmem]
    apply find?_setEntries_of_ne hfind hne
    intro old hold
    exact hp old (mem_entries_iff.mp hold)
  · rw [dif_neg hmem]
    simp [find?_append, hfind]

theorem find?_set_self {old : ν} (hfind : d.entries.find? p = some (k, old))
    (hp : p (k, v) = true) : (d.set k v).entries.find? p = some (k, v) := by
  have hmem : k ∈ d.keys := List.mem_map.mpr ⟨(k, old), mem_of_find?_eq_some hfind, rfl⟩
  unfold set
  rw [dif_pos hmem]
  change (setEntries k v d.entries).find? p = some (k, v)
  generalize d.entries = entries at hfind ⊢
  induction entries with
  | nil => simp at hfind
  | cons head rest ih =>
    simp only [setEntries, map_cons] at ih ⊢
    by_cases hkey : head.1 = k
    · rw [if_pos hkey, find?_cons_of_pos hp]
    · have hmiss : ¬ p head = true := by
        intro hhead
        rw [find?_cons_of_pos hhead, some.injEq] at hfind
        rw [hfind] at hkey
        exact hkey rfl
      rw [find?_cons_of_neg hmiss] at hfind
      rw [if_neg hkey, find?_cons_of_neg hmiss]
      exact ih hfind

theorem find?_erase_of_ne (hfind : d.entries.find? p = some entry)
    (hne : entry.1 ≠ k) : (d.erase k).entries.find? p = some entry := by
  change (d.entries.filter fun entry => entry.1 ≠ k).find? p = some entry
  generalize d.entries = entries at hfind ⊢
  induction entries with
  | nil => simp at hfind
  | cons head rest ih =>
    cases hhead : p head with
    | true =>
      rw [find?_cons_of_pos hhead, some.injEq] at hfind
      have hkey : head.1 ≠ k := by
        rw [hfind]
        exact hne
      rw [filter_cons_of_pos (by simpa using hkey), find?_cons_of_pos hhead, hfind]
    | false =>
      have hmiss : ¬ p head = true := by simp [hhead]
      rw [find?_cons_of_neg hmiss] at hfind
      by_cases hkey : head.1 = k
      · rw [filter_cons_of_neg (by simpa using hkey)]
        exact ih hfind
      · rw [filter_cons_of_pos (by simpa using hkey), find?_cons_of_neg hmiss]
        exact ih hfind

end

theorem get?_foldl_set (entries : List (κ × ν)) (d : Dict κ ν) (k : κ) :
    (entries.foldl (fun d entry => d.set entry.1 entry.2) d).get? k =
      (entries.reverse.lookup k).or (d.get? k) := by
  induction entries generalizing d with
  | nil => simp
  | cons entry rest ih =>
    rw [foldl_cons, ih, get?_set, reverse_cons, lookup_append, lookup_cons_ite, lookup_nil]
    by_cases hk : k = entry.1
    · cases rest.reverse.lookup k <;> simp [hk]
    · cases rest.reverse.lookup k <;> simp [hk]

theorem get?_ofEntries (entries : List (κ × ν)) (k : κ) :
    (ofEntries entries).get? k = entries.reverse.lookup k := by
  unfold ofEntries
  rw [get?_foldl_set]
  simp

end Dict

end Middlewared
