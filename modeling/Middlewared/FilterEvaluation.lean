import Middlewared.ExceptRules
import Middlewared.FilterList

/-!
# The filters that an evaluation comes to

A list of filters stops at the first one that fails, an `OR` at its first branch that holds.
-/

namespace Middlewared

open List

def evalBranch (eval : PyValue → Except PyError Bool) (branch : PyValue) :
    Except PyError Bool := do
  let filters ← branchFilters branch
  filters.allM eval

/-- A property of every filter that evaluating a filter comes to: of itself, and of those in the
branches of an `OR` up to the one that holds. -/
def EachFilter (eval : ℕ → PyValue → Except PyError Bool) (P : ℕ → PyValue → Prop) :
    ℕ → PyValue → Prop
  | 0, _ => True
  | depth + 1, filter => P (depth + 1) filter ∧
    ∀ kind value branches, filter.iterate = .ok [kind, value] → value.iterate = .ok branches →
      EachReached false (evalBranch (eval depth)) (fun branch =>
        ∀ filters, branchFilters branch = .ok filters →
          EachReached true (eval depth) (EachFilter eval P depth) filters) branches

section

variable {eval : ℕ → PyValue → Except PyError Bool} {P Q R : ℕ → PyValue → Prop}

theorem EachFilter.imp₂ {depth : ℕ} {filter : PyValue} (hP : EachFilter eval P depth filter)
    (hQ : EachFilter eval Q depth filter)
    (hPQR : ∀ level inner, P level inner → Q level inner → R level inner) :
    EachFilter eval R depth filter := by
  induction depth generalizing filter with
  | zero => trivial
  | succ depth ih =>
    refine ⟨hPQR _ _ hP.1 hQ.1, ?_⟩
    intro kind value branches hparts hbranches
    refine (hP.2 kind value branches hparts hbranches).imp₂
      (hQ.2 kind value branches hparts hbranches) ?_
    intro branch hPbranch hQbranch filters hfilters
    exact (hPbranch filters hfilters).imp₂ (hQbranch filters hfilters) fun _ => ih

theorem eachFilter_condition_iff {depth : ℕ} {filter name op value : PyValue}
    (hparts : filter.iterate = .ok [name, op, value]) :
    EachFilter eval P (depth + 1) filter ↔ P (depth + 1) filter := by
  rw [EachFilter, and_iff_left]
  intro kind value branches hor
  rw [hparts] at hor
  cases hor

end

/-! ## Evaluating with another table -/

section

variable {rt : PyRuntime} {getter getter' : Option Getter} {maps maps' : ValueMaps}
  {entry : PyValue} {b : Bool}

/-- The condition that a filter of three parts is keeps its answer. -/
def ConditionKept (rt : PyRuntime) (getter getter' : Option Getter) (maps maps' : ValueMaps)
    (entry filter : PyValue) : Prop :=
  ∀ name op value, filter.iterate = .ok [name, op, value] →
    ∀ b, evalCondition rt getter maps entry name op value = .ok b →
      evalCondition rt getter' maps' entry name op value = .ok b

theorem EachFilter.evalFilter_eq {depth : ℕ} {filter : PyValue}
    (hkept : EachFilter (evalFilter rt getter maps entry)
      (fun _ => ConditionKept rt getter getter' maps maps' entry) depth filter)
    (heval : evalFilter rt getter maps entry depth filter = .ok b) :
    evalFilter rt getter' maps' entry depth filter = .ok b := by
  induction depth generalizing filter b with
  | zero => simp [evalFilter] at heval
  | succ depth ih =>
    rw [evalFilter, bind_eq_ok_iff] at heval ⊢
    rcases heval with ⟨parts, hparts, hrest⟩
    refine ⟨parts, hparts, ?_⟩
    match parts with
    | [kind, value] =>
      rw [bind_eq_ok_iff] at hrest ⊢
      rcases hrest with ⟨branches, hbranches, hany⟩
      refine ⟨branches, hbranches, ?_⟩
      refine EachReached.anyM_eq ?_ hany
      refine (hkept.2 kind value branches hparts hbranches).imp ?_
      intro branch hbranch answer hanswer
      rw [bind_eq_ok_iff] at hanswer ⊢
      rcases hanswer with ⟨filters, hfilters, hall⟩
      refine ⟨filters, hfilters, EachReached.allM_eq ?_ hall⟩
      exact (hbranch filters hfilters).imp fun _ hinner _ => ih hinner
    | [name, op, value] => exact hkept.1 name op value hparts b hrest
    | [] => simp at hrest
    | [_] => simp at hrest
    | _ :: _ :: _ :: _ :: _ => simp at hrest

/-- An evaluation that returns a verdict has one for every filter that it comes to. -/
theorem eachFilter_of_evalFilter {depth : ℕ} {filter : PyValue}
    (heval : evalFilter rt getter maps entry depth filter = .ok b) :
    EachFilter (evalFilter rt getter maps entry)
      (fun level inner => ∃ v, evalFilter rt getter maps entry level inner = .ok v)
      depth filter := by
  induction depth generalizing filter b with
  | zero => trivial
  | succ depth ih =>
    refine ⟨⟨b, heval⟩, ?_⟩
    intro kind value branches hparts hbranches
    have hany : branches.anyM (evalBranch (evalFilter rt getter maps entry depth)) = .ok b := by
      rw [evalFilter, hparts, ok_bind] at heval
      change (value.iterate >>= _) = _ at heval
      rw [hbranches, ok_bind] at heval
      exact heval
    refine (eachReached_anyM hany).imp ?_
    intro branch hbranch filters hfilters
    obtain ⟨v, hv⟩ := hbranch
    rw [evalBranch, hfilters, ok_bind] at hv
    exact (eachReached_allM hv).imp fun inner hinner => ih hinner.choose_spec

/-- When the conditions keep their answers, so does every filter on the way. -/
theorem EachFilter.verdicts {depth : ℕ} {filter : PyValue}
    (hkept : EachFilter (evalFilter rt getter maps entry)
      (fun _ => ConditionKept rt getter getter' maps maps' entry) depth filter) :
    EachFilter (evalFilter rt getter maps entry)
      (fun level inner => ∀ b, evalFilter rt getter maps entry level inner = .ok b →
        evalFilter rt getter' maps' entry level inner = .ok b) depth filter := by
  induction depth generalizing filter with
  | zero => trivial
  | succ depth ih =>
    refine ⟨fun b => hkept.evalFilter_eq, ?_⟩
    intro kind value branches hparts hbranches
    refine (hkept.2 kind value branches hparts hbranches).imp ?_
    intro branch hbranch filters hfilters
    exact (hbranch filters hfilters).imp fun _ => ih

end

end Middlewared
