import Mathlib.Data.List.Basic

/-!
# Runs of a transition function

A system is given by a partial transition function: `step s a` is the state after the action `a`,
or nothing when `a` cannot happen in `s`.
-/

namespace Middlewared.TransitionSystem

open List Option

variable {σ α : Type*} (step : σ → α → Option σ)

def run : σ → List α → Option σ
  | s, [] => some s
  | s, a :: rest => (step s a).bind fun next => run next rest

/-- Every action of the list meets `guard` in the state it happens in. -/
def EveryStep (guard : σ → α → Prop) : σ → List α → Prop
  | _, [] => True
  | s, a :: rest =>
    guard s a ∧ ∀ next, step s a = some next → EveryStep guard next rest

instance decidableEveryStep (guard : σ → α → Prop)
    [∀ s a, Decidable (guard s a)] (s : σ) (actions : List α) :
    Decidable (EveryStep step guard s actions) :=
  match actions with
  | [] => isTrue trivial
  | a :: rest =>
    match hnext : step s a with
    | none => decidable_of_iff (guard s a) (by simp [EveryStep, hnext])
    | some next =>
      have := decidableEveryStep guard next rest
      decidable_of_iff (guard s a ∧ EveryStep step guard next rest) (by simp [EveryStep, hnext])

variable {step}

@[simp] theorem run_nil (s : σ) : run step s [] = some s := rfl

theorem run_cons_eq_some_iff {s t : σ} {a : α} {rest : List α} : run step s (a :: rest) = some t ↔
    ∃ next, step s a = some next ∧ run step next rest = some t := by
  simp [run, bind_eq_some_iff]

theorem run_append (s : σ) (first rest : List α) : run step s (first ++ rest) =
    (run step s first).bind fun next => run step next rest := by
  induction first generalizing s with
  | nil => rfl
  | cons a first ih =>
    cases hnext : step s a with
    | none => simp [run, hnext]
    | some next => simp [run, hnext, ih]

theorem exists_run (htotal : ∀ s a, ∃ next, step s a = some next) (s : σ)
    (actions : List α) : ∃ t, run step s actions = some t := by
  induction actions generalizing s with
  | nil => exact ⟨s, rfl⟩
  | cons a rest ih =>
    obtain ⟨next, hnext⟩ := htotal s a
    obtain ⟨t, hrest⟩ := ih next
    exact ⟨t, run_cons_eq_some_iff.mpr ⟨next, hnext, hrest⟩⟩

theorem everyStep_cons {guard : σ → α → Prop} {s next : σ} {a : α}
    {rest : List α} (ha : guard s a) (hnext : step s a = some next)
    (hrest : EveryStep step guard next rest) :
    EveryStep step guard s (a :: rest) := by
  refine ⟨ha, ?_⟩
  intro other hother
  rw [some.inj (hother.symm.trans hnext)]
  exact hrest

theorem everyStep_of_forall_mem {guard : σ → α → Prop} {s : σ}
    {actions : List α} (hall : ∀ t, ∀ a ∈ actions, guard t a) :
    EveryStep step guard s actions := by
  induction actions generalizing s with
  | nil => trivial
  | cons a rest ih =>
    constructor
    · exact hall s a mem_cons_self
    · intro next _
      exact ih fun t b hb => hall t b (mem_cons_of_mem a hb)

theorem EveryStep.and {first second : σ → α → Prop} {s : σ}
    {actions : List α} (hfirst : EveryStep step first s actions)
    (hsecond : EveryStep step second s actions) :
    EveryStep step (fun t a => first t a ∧ second t a) s actions := by
  induction actions generalizing s with
  | nil => trivial
  | cons a rest ih =>
    constructor
    · exact ⟨hfirst.1, hsecond.1⟩
    · intro next hnext
      exact ih (hfirst.2 next hnext) (hsecond.2 next hnext)

theorem everyStep_append {guard : σ → α → Prop} {s next : σ}
    {first rest : List α} (hfirst : EveryStep step guard s first)
    (hrun : run step s first = some next)
    (hrest : EveryStep step guard next rest) :
    EveryStep step guard s (first ++ rest) := by
  induction first generalizing s with
  | nil =>
    simp only [run_nil, some.injEq] at hrun
    subst next
    exact hrest
  | cons a first ih =>
    obtain ⟨middle, hmiddle, hrun⟩ := run_cons_eq_some_iff.mp hrun
    exact everyStep_cons hfirst.1 hmiddle (ih (hfirst.2 middle hmiddle) hrun)

theorem EveryStep.of_append {guard : σ → α → Prop} {s next : σ}
    {first rest : List α} (hevery : EveryStep step guard s (first ++ rest))
    (hrun : run step s first = some next) :
    EveryStep step guard s first ∧ EveryStep step guard next rest := by
  induction first generalizing s with
  | nil =>
    simp only [run_nil, some.injEq] at hrun
    subst next
    exact ⟨trivial, hevery⟩
  | cons a first ih =>
    obtain ⟨middle, hmiddle, hrun⟩ := run_cons_eq_some_iff.mp hrun
    have hsplit := ih (hevery.2 middle hmiddle) hrun
    exact ⟨everyStep_cons hevery.1 hmiddle hsplit.1, hsplit.2⟩

theorem everyStep_congr (inv : σ → Prop) {first second : σ → α → Prop}
    (hinv : ∀ s a next, inv s → step s a = some next → inv next)
    (hiff : ∀ s a next, inv s → step s a = some next → (first s a ↔ second s a))
    {s t : σ} {actions : List α} (hstart : inv s)
    (hrun : run step s actions = some t) :
    EveryStep step first s actions ↔ EveryStep step second s actions := by
  induction actions generalizing s with
  | nil => exact Iff.rfl
  | cons a rest ih =>
    obtain ⟨next, hnext, hrest⟩ := run_cons_eq_some_iff.mp hrun
    have hlater := ih (hinv s a next hstart hnext) hrest
    constructor
    · intro hfirst
      exact everyStep_cons ((hiff s a next hstart hnext).mp hfirst.1) hnext
        (hlater.mp (hfirst.2 next hnext))
    · intro hsecond
      exact everyStep_cons ((hiff s a next hstart hnext).mpr hsecond.1)
        hnext (hlater.mpr (hsecond.2 next hnext))

theorem EveryStep.imp_of_invariant (inv : σ → Prop) {first second : σ → α → Prop}
    (hinv : ∀ s a next, inv s → first s a → step s a = some next → inv next)
    (himp : ∀ s a next, inv s → first s a → step s a = some next → second s a)
    {s t : σ} {actions : List α} (hstart : inv s)
    (hrun : run step s actions = some t)
    (hfirst : EveryStep step first s actions) :
    EveryStep step second s actions := by
  induction actions generalizing s with
  | nil => trivial
  | cons a rest ih =>
    obtain ⟨next, hnext, hrest⟩ := run_cons_eq_some_iff.mp hrun
    have hkept := hinv s a next hstart hfirst.1 hnext
    exact everyStep_cons (himp s a next hstart hfirst.1 hnext) hnext
      (ih hkept hrest (hfirst.2 next hnext))

theorem everyStep_of_invariant (inv : σ → Prop) {guard : σ → α → Prop}
    (hinv : ∀ s a next, inv s → step s a = some next → inv next)
    (hguard : ∀ s a, inv s → guard s a) {s : σ} {actions : List α}
    (hstart : inv s) : EveryStep step guard s actions := by
  induction actions generalizing s with
  | nil => trivial
  | cons a rest ih => exact ⟨hguard s a hstart, fun next hnext => ih (hinv s a next hstart hnext)⟩

theorem run_invariant_of_everyStep {p : σ → Prop} {guard : σ → α → Prop}
    (hstep : ∀ s a next, p s → guard s a → step s a = some next → p next)
    {s t : σ} {actions : List α} (hstart : p s)
    (hguard : EveryStep step guard s actions)
    (hrun : run step s actions = some t) : p t := by
  induction actions generalizing s with
  | nil =>
    simp only [run_nil, some.injEq] at hrun
    subst t
    exact hstart
  | cons a rest ih =>
    obtain ⟨next, hnext, hrest⟩ := run_cons_eq_some_iff.mp hrun
    exact ih (hstep s a next hstart hguard.1 hnext) (hguard.2 next hnext) hrest

theorem run_invariant_of_mem {p : σ → Prop} {kind : α → Prop}
    (hstep : ∀ s a next, kind a → p s → step s a = some next → p next)
    {s t : σ} {actions : List α} (hkind : ∀ a ∈ actions, kind a)
    (hstart : p s) (hrun : run step s actions = some t) : p t := by
  have hguard : EveryStep step (fun _ a => kind a) s actions :=
    everyStep_of_forall_mem fun _ => hkind
  exact run_invariant_of_everyStep (fun s a next hs ha => hstep s a next ha hs) hstart hguard hrun

theorem run_invariant {p : σ → Prop} (hstep : ∀ s a next, p s → step s a = some next → p next)
    {s t : σ} {actions : List α} (hstart : p s)
    (hrun : run step s actions = some t) : p t :=
  run_invariant_of_mem (fun s a next (_ : True) => hstep s a next) (fun _ _ => trivial) hstart hrun

theorem EveryStep.of_getElem? {guard : σ → α → Prop} {s u : σ}
    {actions : List α} (hevery : EveryStep step guard s actions) {k : ℕ}
    {a : α} (hrun : run step s (actions.take k) = some u)
    (hget : actions[k]? = some a) : guard u a := by
  induction actions generalizing s k with
  | nil => simp at hget
  | cons b rest ih =>
    cases k with
    | zero =>
      simp only [take_zero, run_nil, some.injEq] at hrun
      simp only [getElem?_cons_zero, some.injEq] at hget
      subst u b
      exact hevery.1
    | succ k =>
      obtain ⟨next, hnext, hrest⟩ := run_cons_eq_some_iff.mp hrun
      exact ih (hevery.2 next hnext) hrest (by simpa using hget)

/-- A guard is met in the state that the actions before lead to. -/
theorem everyStep_iff_forall_getElem? {guard : σ → α → Prop} {s : σ} {actions : List α} :
    EveryStep step guard s actions ↔ ∀ k u a, run step s (actions.take k) = some u →
        actions[k]? = some a → guard u a := by
  constructor
  · intro hevery k u a hrun hget
    exact hevery.of_getElem? hrun hget
  · intro hall
    induction actions generalizing s with
    | nil => trivial
    | cons a rest ih =>
      refine ⟨hall 0 s a rfl rfl, ?_⟩
      intro next hnext
      apply ih
      intro k u b hrun hget
      exact hall (k + 1) u b (run_cons_eq_some_iff.mpr ⟨next, hnext, hrun⟩) hget

/-- Where a step keeps the property, and relates the states that it joins,
exactly when it meets the guard, every action meets the guard exactly when the
property holds all along the run and each of its states is related to the later
ones.  The actions of the run are all of one kind. -/
theorem everyStep_iff_forall_rel_of_mem (inv : σ → Prop) {p : σ → Prop}
    (r : σ → σ → Prop) {guard : σ → α → Prop} {kind : α → Prop} (hrefl : ∀ s, r s s)
    (htrans : ∀ s t u, r s t → r t u → r s u)
    (hinv : ∀ s a next, kind a → inv s → step s a = some next → inv next)
    (hstep : ∀ s a next, kind a → inv s → p s → step s a = some next →
      (p next ∧ r s next ↔ guard s a))
    {s t : σ} {actions : List α} (hkind : ∀ a ∈ actions, kind a)
    (hstart : inv s) (hp : p s) (hrun : run step s actions = some t) :
    EveryStep step guard s actions ↔ (∀ k u, run step s (actions.take k) = some u → p u) ∧
        ∀ i j u v, i ≤ j → run step s (actions.take i) = some u →
          run step s (actions.take j) = some v → r u v := by
  induction actions generalizing s with
  | nil =>
    have hend : ∀ k u, run step s (([] : List α).take k) = some u → s = u := by
      simp
    refine ⟨fun _ => ⟨?_, ?_⟩, fun _ => trivial⟩
    · intro k u hu
      exact hend k u hu ▸ hp
    · intro i j u v _ hu hv
      rw [← hend i u hu, ← hend j v hv]
      exact hrefl s
  | cons a rest ih =>
    obtain ⟨next, hnext, hrest⟩ := run_cons_eq_some_iff.mp hrun
    rw [forall_mem_cons] at hkind
    have hguard := hstep s a next hkind.1 hstart hp hnext
    have hnextInv := hinv s a next hkind.1 hstart hnext
    have hshift : ∀ k u, run step s ((a :: rest).take (k + 1)) = some u ↔
        run step next (rest.take k) = some u := by
      simp [run, hnext]
    have hzero : ∀ u, run step s ((a :: rest).take 0) = some u → s = u := by
      simp
    constructor
    · intro hevery
      have hkept := hguard.mpr hevery.1
      have hlater := (ih hkind.2 hnextInv hkept.1 hrest).mp (hevery.2 next hnext)
      constructor
      · intro k u hu
        cases k with
        | zero => exact hzero u hu ▸ hp
        | succ k => exact hlater.1 k u ((hshift k u).mp hu)
      · intro i j u v hle hu hv
        cases i with
        | zero =>
          rw [← hzero u hu]
          cases j with
          | zero =>
            rw [← hzero v hv]
            exact hrefl s
          | succ j =>
            exact htrans s next v hkept.2 (hlater.2 0 j next v
              (Nat.zero_le j) (by simp) ((hshift j v).mp hv))
        | succ i =>
          cases j with
          | zero => omega
          | succ j =>
            exact hlater.2 i j u v (Nat.le_of_succ_le_succ hle)
              ((hshift i u).mp hu) ((hshift j v).mp hv)
    · intro hall
      have hone := (hshift 0 next).mpr (by simp)
      have hkept : p next ∧ r s next := ⟨hall.1 1 next hone,
          hall.2 0 1 s next (Nat.zero_le 1) (by simp) hone⟩
      refine everyStep_cons (hguard.mp hkept) hnext
        ((ih hkind.2 hnextInv hkept.1 hrest).mpr ⟨?_, ?_⟩)
      · intro k u hu
        exact hall.1 (k + 1) u ((hshift k u).mpr hu)
      · intro i j u v hle hu hv
        exact hall.2 (i + 1) (j + 1) u v (Nat.succ_le_succ hle)
          ((hshift i u).mpr hu) ((hshift j v).mpr hv)

/-- Where a step keeps the property exactly when it meets the guard, the
property holds all along a run exactly when every action meets the guard.  The
actions of the run are all of one kind. -/
theorem everyStep_iff_forall_take_of_mem (inv : σ → Prop) {p : σ → Prop}
    {guard : σ → α → Prop} {kind : α → Prop}
    (hinv : ∀ s a next, kind a → inv s → step s a = some next → inv next)
    (hstep : ∀ s a next, kind a → inv s → p s → step s a = some next → (p next ↔ guard s a))
    {s t : σ} {actions : List α} (hkind : ∀ a ∈ actions, kind a)
    (hstart : inv s) (hp : p s) (hrun : run step s actions = some t) :
    EveryStep step guard s actions ↔ ∀ k u, run step s (actions.take k) = some u → p u := by
  refine (everyStep_iff_forall_rel_of_mem inv (fun _ _ => True) (fun _ => trivial)
    (fun _ _ _ _ _ => trivial) hinv ?_ hkind hstart hp hrun).trans ?_
  · intro s a next ha hs hps hnext
    rw [and_true]
    exact hstep s a next ha hs hps hnext
  · exact and_iff_left fun _ _ _ _ _ _ _ => trivial

theorem everyStep_iff_forall_take (inv : σ → Prop) {p : σ → Prop} {guard : σ → α → Prop}
    (hinv : ∀ s a next, inv s → step s a = some next → inv next)
    (hstep : ∀ s a next, inv s → p s → step s a = some next → (p next ↔ guard s a))
    {s t : σ} {actions : List α} (hstart : inv s) (hp : p s)
    (hrun : run step s actions = some t) :
    EveryStep step guard s actions ↔ ∀ k u, run step s (actions.take k) = some u → p u :=
  everyStep_iff_forall_take_of_mem inv (fun s a next (_ : True) => hinv s a next)
    (fun s a next _ => hstep s a next) (fun _ _ => trivial) hstart hp hrun

/-- Where a step keeps a property of the state exactly when it meets the guard,
the property, once it holds, stays for the rest of a run exactly when every
action meets the guard. -/
theorem everyStep_iff_stays (inv : σ → Prop) {p : σ → Prop} {guard : σ → α → Prop}
    (hinv : ∀ s a next, inv s → step s a = some next → inv next)
    (hstep : ∀ s a next, inv s → step s a = some next → ((p s → p next) ↔ guard s a))
    {s t : σ} {actions : List α} (hstart : inv s)
    (hrun : run step s actions = some t) :
    EveryStep step guard s actions ↔ ∀ i j u v, i ≤ j → run step s (actions.take i) = some u →
        run step s (actions.take j) = some v → p u → p v := by
  refine (everyStep_iff_forall_rel_of_mem inv (p := fun _ => True) (fun u v => p u → p v)
    (fun _ => id) (fun _ _ _ hfirst hrest hp => hrest (hfirst hp))
    (fun s a next (_ : True) => hinv s a next) ?_ (fun _ _ => trivial) hstart trivial
    hrun).trans ?_
  · intro s a next _ hs _ hnext
    rw [true_and]
    exact hstep s a next hs hnext
  · exact and_iff_right fun _ _ _ => trivial

end Middlewared.TransitionSystem
