import Middlewared.ApiModel

/-!
# Walks through nested values

A walk starts at a value of some model and decides for each key of a dictionary whether it goes
on: to the value of the key, read as a value of a nested model, or to the items of a list of such
values.
-/

namespace Middlewared

variable {M : Type}

theorem ApiValue.walkInduction {motive : ApiValue → Prop}
    (leaf : ∀ value, (∀ entries, value ≠ .dict entries) → motive value)
    (dict : ∀ entries, (∀ entry ∈ entries, motive entry.2) →
      (∀ entry ∈ entries, ∀ items, entry.2 = .list items →
        ∀ item ∈ items, motive item) → motive (.dict entries))
    (value : ApiValue) : motive value := by
  have hboth : motive value ∧ ∀ items, value = .list items → ∀ item ∈ items, motive item := by
    induction value with
    | undefined => exact ⟨leaf _ (by simp), by simp⟩
    | scalar value => exact ⟨leaf _ (by simp), by simp⟩
    | list items ih =>
      refine ⟨leaf _ (by simp), ?_⟩
      intro others hsame item hitem
      cases hsame
      exact (ih item hitem).1
    | dict entries ih =>
      refine ⟨dict entries ?_ ?_, by simp⟩
      · intro entry hentry
        exact (ih entry hentry).1
      · intro entry hentry items hlist
        exact (ih entry hentry).2 items hlist
  exact hboth.1

inductive Visit (M : Type) where
  | stop
  | value (m : M)
  | items (m : M)

section

variable (visit : M → String → ApiValue → Visit M) (p : M → ApiValue → Prop)

mutual

def Everywhere : ApiValue → M → Prop
  | .dict entries, m => p m (.dict entries) ∧ EverywhereEntries entries m
  | .undefined, m => p m .undefined
  | .scalar value, m => p m (.scalar value)
  | .list items, m => p m (.list items)

def EverywhereEntries : ApiEntries → M → Prop
  | [], _ => True
  | (key, value) :: rest, m =>
    (match visit m key value with
      | .stop => True
      | .value nested => Everywhere value nested
      | .items nested => EverywhereList value nested) ∧
      EverywhereEntries rest m

def EverywhereList : ApiValue → M → Prop
  | .list items, m => EverywhereItems items m
  | .undefined, _ | .scalar _, _ | .dict _, _ => True

def EverywhereItems : List ApiValue → M → Prop
  | [], _ => True
  | item :: rest, m => Everywhere item m ∧ EverywhereItems rest m

end

variable {visit p}

variable {m : M}

theorem everywhereItems_iff {items : List ApiValue} : EverywhereItems visit p items m ↔
    ∀ item ∈ items, Everywhere visit p item m := by
  induction items with
  | nil => simp [EverywhereItems]
  | cons item rest ih => simp [EverywhereItems, ih]

structure EverywhereAt (visit : M → String → ApiValue → Visit M)
    (p : M → ApiValue → Prop) (m : M) (key : String) (v : ApiValue) :
    Prop where
  value : ∀ nested, visit m key v = .value nested → Everywhere visit p v nested
  items : ∀ nested items, visit m key v = .items nested →
    v = .list items → ∀ item ∈ items, Everywhere visit p item nested

variable {key : String} {value : ApiValue}

theorem EverywhereAt.of_stop (hstop : visit m key value = .stop) :
    EverywhereAt visit p m key value := by
  constructor
  · intro nested hvisit
    cases hstop.symm.trans hvisit
  · intro nested items hvisit
    cases hstop.symm.trans hvisit

theorem EverywhereAt.of_value {nested : M} (hvalue : visit m key value = .value nested)
    (hall : Everywhere visit p value nested) :
    EverywhereAt visit p m key value := by
  constructor
  · intro other hvisit
    cases hvalue.symm.trans hvisit
    exact hall
  · intro other items hvisit
    cases hvalue.symm.trans hvisit

theorem EverywhereAt.of_items {nested : M} {items : List ApiValue}
    (hitems : visit m key (.list items) = .items nested)
    (hall : ∀ item ∈ items, Everywhere visit p item nested) :
    EverywhereAt visit p m key (.list items) := by
  constructor
  · intro other hvisit
    cases hitems.symm.trans hvisit
  · intro other others hvisit hsame
    cases hitems.symm.trans hvisit
    cases hsame
    exact hall

theorem everywhereEntries_iff {entries : ApiEntries} : EverywhereEntries visit p entries m ↔
    ∀ entry ∈ entries, EverywhereAt visit p m entry.1 entry.2 := by
  induction entries with
  | nil => simp [EverywhereEntries]
  | cons entry rest ih =>
    rcases entry with ⟨key, value⟩
    rw [EverywhereEntries, ih, List.forall_mem_cons]
    apply and_congr_left
    intro _
    cases hvisit : visit m key value with
    | stop => exact iff_of_true trivial (.of_stop hvisit)
    | value nested =>
      exact ⟨.of_value hvisit, fun hat => hat.value nested hvisit⟩
    | items nested =>
      cases value with
      | list items =>
        simp only [EverywhereList, everywhereItems_iff]
        exact ⟨.of_items hvisit, fun hat => hat.items nested items hvisit rfl⟩
      | undefined | scalar _ | dict _ =>
        simp only [EverywhereList, true_iff]
        constructor
        · intro other hother
          cases hvisit.symm.trans hother
        · intro other items _ hsame
          cases hsame

theorem everywhere_dict_iff {entries : ApiEntries} : Everywhere visit p (.dict entries) m ↔
    p m (.dict entries) ∧ ∀ entry ∈ entries, EverywhereAt visit p m entry.1 entry.2 := by
  rw [Everywhere, everywhereEntries_iff]

theorem Everywhere.and {q : M → ApiValue → Prop}
    (hp : Everywhere visit p value m) (hq : Everywhere visit q value m) :
    Everywhere visit (fun m value => p m value ∧ q m value) value m := by
  induction value using ApiValue.walkInduction generalizing m with
  | leaf value hleaf =>
    cases value with
    | dict entries => exact absurd rfl (hleaf entries)
    | undefined => exact ⟨hp, hq⟩
    | scalar _ => exact ⟨hp, hq⟩
    | list _ => exact ⟨hp, hq⟩
  | dict entries ihvalue ihitems =>
    rw [everywhere_dict_iff] at hp hq ⊢
    refine ⟨⟨hp.1, hq.1⟩, ?_⟩
    intro entry hentry
    have hatp := hp.2 entry hentry
    have hatq := hq.2 entry hentry
    constructor
    · intro nested hvisit
      exact ihvalue entry hentry (hatp.value nested hvisit) (hatq.value nested hvisit)
    · intro nested items hvisit hlist item hitem
      exact ihitems entry hentry items hlist item hitem
        (hatp.items nested items hvisit hlist item hitem)
        (hatq.items nested items hvisit hlist item hitem)

end

end Middlewared
