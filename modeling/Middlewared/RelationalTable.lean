import Mathlib.Tactic

/-!
# Tables with references

A table is the list of its rows.  A column can be unique, and a column can refer to the rows of
another table, or to none where it is null.
-/

namespace Middlewared.Relational

open List

variable {ρ τ κ : Type*}

def Distinct (column : ρ → κ) (rows : List ρ) : Prop :=
  (rows.map column).Nodup

def Refer (reference : ρ → Option κ) (key : τ → κ) (rows : List ρ)
    (targets : List τ) : Prop :=
  ∀ row ∈ rows, ∀ target, reference row = some target → target ∈ targets.map key

/-- `ON DELETE CASCADE`: what is left when the rows with these keys are
deleted. -/
def cascade [DecidableEq κ] (reference : ρ → Option κ) (deleted : List κ)
    (rows : List ρ) : List ρ :=
  rows.filter fun row =>
    match reference row with
    | none => true
    | some target => decide (target ∉ deleted)

section

variable {column : ρ → κ} {rows : List ρ}

variable (hrows : Distinct column rows)

include hrows

theorem distinct_concat {row : ρ} (hrow : column row ∉ rows.map column) :
    Distinct column (rows ++ [row]) := by
  unfold Distinct
  rw [map_append, nodup_append]
  refine ⟨hrows, nodup_singleton _, ?_⟩
  intro value hvalue other hother
  rw [map_singleton, mem_singleton] at hother
  rintro rfl
  exact hrow (hother ▸ hvalue)

theorem Distinct.sublist {fewer : List ρ} (hsub : fewer.Sublist rows) : Distinct column fewer :=
  List.Nodup.sublist (hsub.map column) hrows

theorem Distinct.filter (p : ρ → Bool) : Distinct column (rows.filter p) :=
  hrows.sublist filter_sublist

theorem Distinct.map {f : ρ → ρ} (hf : ∀ row, column (f row) = column row) :
    Distinct column (rows.map f) := by
  unfold Distinct
  rw [map_map, show column ∘ f = column from funext hf]
  exact hrows

omit hrows

theorem Distinct.replace {ι : Type*} [DecidableEq ι] {key : ρ → ι} {k : ι}
    {new : ρ} (hkey : Distinct key rows) (hrows : Distinct column rows)
    (hnew : ∀ row ∈ rows, key row ≠ k → column row ≠ column new) :
    Distinct column (rows.map fun row => if key row = k then new else row) := by
  unfold Distinct at *
  induction rows with
  | nil => exact nodup_nil
  | cons first rest ih =>
    rw [map_cons, nodup_cons] at hkey hrows
    rw [forall_mem_cons] at hnew
    rw [map_cons, map_cons, nodup_cons]
    refine ⟨?_, ih hkey.2 hrows.2 hnew.2⟩
    intro hmem
    obtain ⟨_, hmap, hvalue⟩ := mem_map.mp hmem
    obtain ⟨other, hother, heq⟩ := mem_map.mp hmap
    subst heq
    by_cases hfirst : key first = k
    · have hne : key other ≠ k := by
        rw [← hfirst]
        intro hsame
        exact hkey.1 (mem_map.mpr ⟨other, hother, hsame⟩)
      rw [if_pos hfirst, if_neg hne] at hvalue
      exact hnew.2 other hother hne hvalue
    · rw [if_neg hfirst] at hvalue
      split at hvalue
      · exact hnew.1 hfirst hvalue.symm
      · exact hrows.1 (mem_map.mpr ⟨other, hother, hvalue⟩)

theorem Distinct.of_key {ι : Type*} {key : ρ → ι} (hkey : Distinct key rows)
    (hcolumn : ∀ first ∈ rows, ∀ second ∈ rows,
      column first = column second → key first = key second) :
    Distinct column rows := by
  unfold Distinct at *
  rw [nodup_map_iff_inj_on (List.Nodup.of_map key hkey)]
  intro first hfirst second hsecond heq
  exact inj_on_of_nodup_map hkey hfirst hsecond (hcolumn first hfirst second hsecond heq)

theorem Distinct.notMem_before {before later : List ρ} {row : ρ}
    (hrows : Distinct column (before ++ row :: later)) :
    column row ∉ before.map column := by
  unfold Distinct at hrows
  rw [map_append, nodup_append] at hrows
  intro hmem
  exact hrows.2.2 _ hmem _ (mem_map_of_mem mem_cons_self) rfl

end

section

variable {reference : ρ → Option κ} {key : τ → κ} {rows : List ρ}
  {targets : List τ}

variable (hrefer : Refer reference key rows targets)

include hrefer

theorem Refer.concat {row : ρ}
    (hrow : ∀ target, reference row = some target → target ∈ targets.map key) :
    Refer reference key (rows ++ [row]) targets := by
  intro other hother
  rcases mem_append.mp hother with hother | hother
  · exact hrefer other hother
  · rw [mem_singleton.mp hother]
    exact hrow

theorem Refer.filter (p : ρ → Bool) : Refer reference key (rows.filter p) targets :=
  fun row hrow => hrefer row (mem_of_mem_filter hrow)

theorem Refer.map {f : ρ → ρ} (hf : ∀ row, reference (f row) = reference row) :
    Refer reference key (rows.map f) targets := by
  intro other hother
  obtain ⟨row, hrow, rfl⟩ := mem_map.mp hother
  rw [hf]
  exact hrefer row hrow

theorem Refer.mono {more : List τ} (hmore : ∀ target ∈ targets.map key, target ∈ more.map key) :
    Refer reference key rows more :=
  fun row hrow target htarget => hmore target (hrefer row hrow target htarget)

theorem Refer.concat_targets (target : τ) : Refer reference key rows (targets ++ [target]) := by
  apply hrefer.mono
  intro value hvalue
  rw [map_append]
  exact mem_append_left _ hvalue

theorem Refer.map_targets {f : τ → τ} (hf : ∀ target, key (f target) = key target) :
    Refer reference key rows (targets.map f) := by
  apply hrefer.mono
  intro value hvalue
  rw [map_map, show key ∘ f = key from funext hf]
  exact hvalue

variable [DecidableEq κ]

omit hrefer in
@[simp] theorem cascade_nil (reference : ρ → Option κ) (deleted : List κ) :
    cascade reference deleted [] = [] := rfl

omit hrefer in
theorem cascade_some (target : ρ → κ) (deleted : List κ) (rows : List ρ) :
    cascade (fun row => some (target row)) deleted rows =
      rows.filter fun row => !decide (target row ∈ deleted) := by
  simp [cascade]

theorem Refer.cascade (p : τ → Bool) :
    Refer reference key (cascade reference ((targets.filter p).map key) rows)
      (targets.filter fun target => !p target) := by
  intro row hrow target htarget
  obtain ⟨hrow, hkept⟩ := mem_filter.mp hrow
  simp only [htarget, decide_eq_true_eq] at hkept
  obtain ⟨found, hfound, hkey⟩ := mem_map.mp (hrefer row hrow target htarget)
  refine mem_map.mpr ⟨found, mem_filter.mpr ⟨hfound, ?_⟩, hkey⟩
  cases hp : p found with
  | false => rfl
  | true =>
    have hdeleted : target ∈ (targets.filter p).map key :=
      mem_map.mpr ⟨found, mem_filter.mpr ⟨hfound, hp⟩, hkey⟩
    exact absurd hdeleted hkept

theorem Refer.cascade_all : Relational.cascade reference (targets.map key) rows =
    rows.filter fun row => (reference row).isNone := by
  apply filter_congr
  intro row hrow
  cases hreference : reference row with
  | none => rfl
  | some target => simpa using hrefer row hrow target hreference

end

end Middlewared.Relational
