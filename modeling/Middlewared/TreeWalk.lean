import Mathlib.Tactic

/-!
# Walks over a tree that is given by its children

A recursive function visits a node and everything below it, and puts together what each node
contributes before and after its children.
-/

namespace Middlewared.TreeWalk

open Relation List

variable {ι β : Type*}

/-- What `a` and the nodes below it contribute, at most `fuel` calls deep. -/
def gather (children : ι → List ι) (before after : ι → List β) :
    ℕ → ι → Option (List β)
  | 0, _ => none
  | fuel + 1, a =>
    ((children a).mapM (gather children before after fuel)).map fun below =>
      before a ++ below.flatten ++ after a

/-- `b` is `a` or below `a`. -/
def Below (children : ι → List ι) (a b : ι) : Prop :=
  ReflTransGen (fun a b => b ∈ children a) a b

variable {children : ι → List ι} {before after : ι → List β}

theorem Below.refl (a : ι) : Below children a a := ReflTransGen.refl

theorem Below.child {a b c : ι} (hchild : b ∈ children a)
    (hbelow : Below children b c) : Below children a c :=
  ReflTransGen.head hchild hbelow

theorem Below.trans {a b c : ι} (hab : Below children a b)
    (hbc : Below children b c) : Below children a c :=
  ReflTransGen.trans hab hbc

theorem below_iff {a c : ι} :
    Below children a c ↔ c = a ∨ ∃ b ∈ children a, Below children b c := by
  unfold Below
  rw [ReflTransGen.cases_head_iff, eq_comm]

theorem mapM_flatten {f : ι → Option (List β)} {l : List ι}
    (hall : ∀ a ∈ l, ∃ part, f a = some part) :
    ∃ parts, l.mapM f = some parts ∧
      ∀ x, x ∈ parts.flatten ↔ ∃ a ∈ l, ∃ part, f a = some part ∧ x ∈ part := by
  induction l with
  | nil => exact ⟨[], rfl, by simp⟩
  | cons a rest ih =>
    rw [forall_mem_cons] at hall
    obtain ⟨part, hpart⟩ := hall.1
    obtain ⟨parts, hparts, hmem⟩ := ih hall.2
    refine ⟨part :: parts, ?_, ?_⟩
    · rw [mapM_cons, hpart, hparts]
      rfl
    · intro x
      rw [flatten_cons, mem_append, hmem x]
      simp [hpart]

theorem gather_eq_some {rank : ι → ℕ}
    (hrank : ∀ a b, b ∈ children a → rank b < rank a) {fuel : ℕ} {a : ι}
    (hfuel : rank a < fuel) :
    ∃ l, gather children before after fuel a = some l ∧
      ∀ x, x ∈ l ↔ ∃ b, Below children a b ∧ (x ∈ before b ∨ x ∈ after b) := by
  induction fuel generalizing a with
  | zero => omega
  | succ fuel ih =>
    have hchildren : ∀ b ∈ children a, ∃ l, gather children before after fuel b = some l ∧
          ∀ x, x ∈ l ↔ ∃ c, Below children b c ∧ (x ∈ before c ∨ x ∈ after c) := by
      intro b hb
      have hless := hrank a b hb
      exact ih (by omega)
    obtain ⟨parts, hparts, hmem⟩ := mapM_flatten fun b hb =>
      (hchildren b hb).imp fun _ hl => hl.1
    refine ⟨before a ++ parts.flatten ++ after a, ?_, ?_⟩
    · unfold gather
      rw [hparts, Option.map_some]
    · intro x
      rw [mem_append, mem_append, hmem x]
      have hbelow : (∃ b ∈ children a, ∃ part,
          gather children before after fuel b = some part ∧ x ∈ part) ↔
            ∃ c, (∃ b ∈ children a, Below children b c) ∧ (x ∈ before c ∨ x ∈ after c) := by
        constructor
        · intro hx
          obtain ⟨b, hb, part, hpart, hx⟩ := hx
          obtain ⟨l, hl, hlmem⟩ := hchildren b hb
          rw [hl, Option.some.injEq] at hpart
          subst hpart
          obtain ⟨c, hc, hx⟩ := (hlmem x).mp hx
          exact ⟨c, ⟨b, hb, hc⟩, hx⟩
        · intro hx
          obtain ⟨c, ⟨b, hb, hc⟩, hx⟩ := hx
          obtain ⟨l, hl, hlmem⟩ := hchildren b hb
          exact ⟨b, hb, l, hl, (hlmem x).mpr ⟨c, hc, hx⟩⟩
      rw [hbelow]
      constructor
      · intro hx
        rcases hx with (hx | hx) | hx
        · exact ⟨a, Below.refl a, Or.inl hx⟩
        · obtain ⟨c, hc, hx⟩ := hx
          exact ⟨c, below_iff.mpr (Or.inr hc), hx⟩
        · exact ⟨a, Below.refl a, Or.inr hx⟩
      · intro hx
        obtain ⟨c, hc, hx⟩ := hx
        rcases below_iff.mp hc with heq | hc
        · rw [heq] at hx
          rcases hx with hx | hx
          · exact Or.inl (Or.inl hx)
          · exact Or.inr hx
        · exact Or.inl (Or.inr ⟨c, hc, hx⟩)

end Middlewared.TreeWalk
