import Mathlib.Data.Set.Finite.Lattice
import Mathlib.Data.Fintype.Order
import Mathlib.Order.Preorder.Finite

/-!
# Recursion along a relation and its cycles

A function that calls itself on the successors of its argument, with nothing that remembers where
it has been, returns exactly where the relation is well-founded downwards.
-/

namespace Middlewared.FiniteReachability

open Relation

variable {α : Type*} {r : α → α → Prop}

/-- Some point within reach of `a` lies on a cycle. -/
def CycleReachable (r : α → α → Prop) (a : α) : Prop :=
  ∃ b, ReflTransGen r a b ∧ TransGen r b b

variable {a : α}

theorem not_transGen_self_of_acc (hacc : Acc (fun x y => r y x) a) : ¬ TransGen r a a := by
  induction hacc with
  | intro a _ ih =>
    intro hloop
    obtain ⟨b, hstep, hback⟩ := TransGen.head'_iff.mp hloop
    exact ih b hstep (TransGen.tail' hback hstep)

variable {b : α}

theorem acc_of_reflTransGen (hacc : Acc (fun x y => r y x) a)
    (hreach : ReflTransGen r a b) : Acc (fun x y => r y x) b := by
  induction hreach with
  | refl => exact hacc
  | tail _ hstep ih => exact ih.inv hstep

theorem not_cycleReachable_of_acc (hacc : Acc (fun x y => r y x) a) : ¬ CycleReachable r a := by
  rintro ⟨b, hreach, hloop⟩
  exact not_transGen_self_of_acc (acc_of_reflTransGen hacc hreach) hloop

theorem acc_of_not_cycleReachable (hfinite : {b | ReflTransGen r a b}.Finite)
    (hcycle : ¬ CycleReachable r a) : Acc (fun x y => r y x) a := by
  have hfin : Finite {b // ReflTransGen r a b} := hfinite
  let below (x y : {b // ReflTransGen r a b}) : Prop := TransGen r y.1 x.1
  have hirrefl : Std.Irrefl below := ⟨fun x hloop =>
    hcycle ⟨x.1, x.2, hloop⟩⟩
  -- strict reachability on the finitely many points within reach
  have hwf : WellFounded below := Finite.wellFounded_of_trans_of_irrefl below
  have hall : ∀ x : {b // ReflTransGen r a b}, Acc (fun x y => r y x) x.1 := by
    intro x
    induction x using hwf.induction with
    | _ x ih =>
      refine ⟨x.1, fun b hstep => ?_⟩
      exact ih ⟨b, x.2.tail hstep⟩ (TransGen.single hstep)
  exact hall ⟨a, ReflTransGen.refl⟩

theorem acc_iff_not_cycleReachable (hfinite : {b | ReflTransGen r a b}.Finite) :
    Acc (fun x y => r y x) a ↔ ¬ CycleReachable r a :=
  ⟨not_cycleReachable_of_acc, acc_of_not_cycleReachable hfinite⟩

theorem reflTransGen_iff_eq_or_step :
    ReflTransGen r a b ↔ b = a ∨ ∃ c, r a c ∧ ReflTransGen r c b := by
  rw [ReflTransGen.cases_head_iff, eq_comm]

theorem mem_iff_reflTransGen_of_closed {S : Set α} (hstart : a ∈ S)
    (hreach : ∀ b ∈ S, ReflTransGen r a b)
    (hclosed : ∀ b ∈ S, ∀ c, r b c → c ∈ S) : b ∈ S ↔ ReflTransGen r a b := by
  refine ⟨hreach b, ?_⟩
  intro hpath
  induction hpath with
  | refl => exact hstart
  | tail _ hstep ih => exact hclosed _ ih _ hstep

end Middlewared.FiniteReachability
