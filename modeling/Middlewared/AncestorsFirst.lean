import Mathlib.Data.List.Basic

/-!
# Passes over a tree, ancestors first

A loop works through nodes in an order in which none comes before one above it, and marks some of
the nodes that are bad or below a marked one.
-/

namespace Middlewared.AncestorsFirst

open List

theorem foldl_invariant {β σ : Type*} {step : σ → β → σ}
    (inv : List β → σ → Prop) {s : σ} {l : List β} (hnil : inv [] s)
    (hstep : ∀ processed x rest t, l = processed ++ x :: rest →
      inv processed t → inv (processed ++ [x]) (step t x)) :
    inv l (l.foldl step s) := by
  suffices hfold : ∀ (later processed : List β) (t : σ),
      l = processed ++ later → inv processed t → inv (processed ++ later) (later.foldl step t) by
    simpa using hfold l [] s rfl hnil
  intro later
  induction later with
  | nil =>
    intro processed t hl ht
    simpa using ht
  | cons x rest ih =>
    intro processed t hl ht
    have hnext := hstep processed x rest t hl ht
    have hfold := ih (processed ++ [x]) (step t x) (by simpa using hl) hnext
    simpa using hfold

variable {α β : Type*} {node : β → α} {below : α → α → Prop}
  {bad : β → Prop} {processed : List β} {marked : α → Prop}

structure Marks (node : β → α) (below : α → α → Prop) (bad : β → Prop)
    (processed : List β) (marked : α → Prop) : Prop where
  mem : ∀ m, marked m → ∃ x ∈ processed, node x = m
  cause : ∀ m, marked m → ∃ a ∈ processed, bad a ∧ (m = node a ∨ below m (node a))
  covered : ∀ a ∈ processed, bad a → ∃ m, marked m ∧ (node a = m ∨ below (node a) m)

theorem marks_nil (hnone : ∀ m, ¬ marked m) : Marks node below bad [] marked where
  mem m hm := absurd hm (hnone m)
  cause m hm := absurd hm (hnone m)
  covered _ ha := absurd ha not_mem_nil

theorem Marks.exists_above_iff (hmarks : Marks node below bad processed marked)
    (htrans : ∀ a b c, below a b → below b c → below a c) (k : α) :
    (∃ m, marked m ∧ below k m) ↔ ∃ a ∈ processed, bad a ∧ below k (node a) := by
  constructor
  · intro habove
    obtain ⟨m, hm, hbelow⟩ := habove
    obtain ⟨a, ha, hbad, hcause⟩ := hmarks.cause m hm
    refine ⟨a, ha, hbad, ?_⟩
    rcases hcause with heq | hunder
    · rw [← heq]
      exact hbelow
    · exact htrans k m (node a) hbelow hunder
  · intro habove
    obtain ⟨a, ha, hbad, hbelow⟩ := habove
    obtain ⟨m, hm, hcovered⟩ := hmarks.covered a ha hbad
    refine ⟨m, hm, ?_⟩
    rcases hcovered with heq | hunder
    · rw [← heq]
      exact hbelow
    · exact htrans k (node a) m hbelow hunder

theorem Marks.step (hmarks : Marks node below bad processed marked)
    (htrans : ∀ a b c, below a b → below b c → below a c) {x : β}
    {marked' : α → Prop} (hkept : ∀ m, marked m → marked' m)
    (hnew : ∀ m, marked' m → marked m ∨ m = node x ∧ (bad x ∨ ∃ k, marked k ∧ below (node x) k))
    (hbad : bad x → marked' (node x) ∨ ∃ k, marked k ∧ below (node x) k) :
    Marks node below bad (processed ++ [x]) marked' := by
  have hmem : x ∈ processed ++ [x] := by simp
  have hold : ∀ a ∈ processed, a ∈ processed ++ [x] := fun a ha => mem_append_left [x] ha
  constructor
  · intro m hm
    rcases hnew m hm with hbefore | ⟨heq, _⟩
    · obtain ⟨y, hy, hnode⟩ := hmarks.mem m hbefore
      exact ⟨y, hold y hy, hnode⟩
    · exact ⟨x, hmem, heq.symm⟩
  · intro m hm
    rcases hnew m hm with hbefore | ⟨heq, hcause⟩
    · obtain ⟨a, ha, hfound⟩ := hmarks.cause m hbefore
      exact ⟨a, hold a ha, hfound⟩
    · rcases hcause with hself | habove
      · exact ⟨x, hmem, hself, Or.inl heq⟩
      · rw [hmarks.exists_above_iff htrans] at habove
        obtain ⟨a, ha, habad, hbelow⟩ := habove
        exact ⟨a, hold a ha, habad, Or.inr (heq ▸ hbelow)⟩
  · intro a ha habad
    rw [mem_append, mem_singleton] at ha
    rcases ha with hbefore | heq
    · obtain ⟨m, hm, hcovered⟩ := hmarks.covered a hbefore habad
      exact ⟨m, hkept m hm, hcovered⟩
    · subst heq
      rcases hbad habad with hmark | ⟨k, hk, hbelow⟩
      · exact ⟨node a, hmark, Or.inl rfl⟩
      · exact ⟨k, hkept k hk, Or.inr hbelow⟩

theorem exists_above_append_iff {x : β} {rest : List β}
    (horder : (processed ++ x :: rest).Pairwise fun a b =>
      ¬ below (node a) (node b))
    (hirrefl : ∀ a, ¬ below a a) :
    (∃ a ∈ processed ++ x :: rest, bad a ∧ below (node x) (node a)) ↔
      ∃ a ∈ processed, bad a ∧ below (node x) (node a) := by
  rw [pairwise_append, pairwise_cons] at horder
  constructor
  · intro habove
    obtain ⟨a, ha, hbad, hbelow⟩ := habove
    rw [mem_append, mem_cons] at ha
    rcases ha with hbefore | heq | hlater
    · exact ⟨a, hbefore, hbad, hbelow⟩
    · rw [heq] at hbelow
      exact absurd hbelow (hirrefl (node x))
    · exact absurd hbelow (horder.2.1.1 a hlater)
  · intro habove
    obtain ⟨a, ha, hbad, hbelow⟩ := habove
    exact ⟨a, mem_append_left _ ha, hbad, hbelow⟩

end Middlewared.AncestorsFirst
