import Mathlib.Data.List.Basic

/-!
# Rules for computations that may raise

A sequence of fallible steps returns exactly when each of its steps does.
-/

namespace Middlewared

open List

universe u v

variable {ε : Type u} {α β : Type v}

theorem bind_eq_ok_iff {x : Except ε α} {f : α → Except ε β} {b : β} :
    (x >>= f) = .ok b ↔ ∃ a, x = .ok a ∧ f a = .ok b := by
  cases x with
  | error e => simp [bind, Except.bind]
  | ok a => simp [bind, Except.bind]

@[simp] theorem ok_bind {a : α} {f : α → Except ε β} :
    ((.ok a : Except ε α) >>= f) = f a := rfl

@[simp] theorem error_bind {e : ε} {f : α → Except ε β} :
    ((.error e : Except ε α) >>= f) = .error e := rfl

theorem toOption_eq_some_iff {x : Except ε α} {a : α} : x.toOption = some a ↔ x = .ok a := by
  cases x <;> simp [Except.toOption]

theorem exists_bound_of_forall_mem {p : ℕ → α → Prop}
    (hmono : ∀ n m a, n ≤ m → p n a → p m a) (l : List α)
    (hall : ∀ a ∈ l, ∃ n, p n a) : ∃ n, ∀ a ∈ l, p n a := by
  induction l with
  | nil => exact ⟨0, by simp⟩
  | cons a rest ih =>
    obtain ⟨n, hn⟩ := hall a mem_cons_self
    obtain ⟨m, hm⟩ := ih fun b hb => hall b (mem_cons_of_mem a hb)
    refine ⟨max n m, ?_⟩
    intro b hb
    rcases mem_cons.mp hb with rfl | hb
    · exact hmono n (max n m) b (Nat.le_max_left n m) hn
    · exact hmono m (max n m) b (Nat.le_max_right n m) (hm b hb)

theorem forall₂_of_mapM_eq_ok {f : α → Except ε β} {l : List α}
    {results : List β} (hmap : l.mapM f = .ok results) :
    List.Forall₂ (fun a b => f a = .ok b) l results := by
  induction l generalizing results with
  | nil =>
    cases hmap
    exact .nil
  | cons a rest ih =>
    rw [mapM_cons] at hmap
    obtain ⟨b, hb, hmap⟩ := bind_eq_ok_iff.mp hmap
    obtain ⟨later, hlater, hmap⟩ := bind_eq_ok_iff.mp hmap
    cases hmap
    exact .cons hb (ih hlater)

theorem exists_of_mem_mapM_results {f : α → Except ε β} {l : List α}
    {results : List β} (hmap : l.mapM f = .ok results) {b : β}
    (hb : b ∈ results) : ∃ a ∈ l, f a = .ok b := by
  have hall := forall₂_of_mapM_eq_ok hmap
  clear hmap
  induction hall with
  | nil => simp at hb
  | cons hhead _ ih =>
    rcases mem_cons.mp hb with rfl | hb
    · exact ⟨_, mem_cons_self, hhead⟩
    · obtain ⟨a, ha, hok⟩ := ih hb
      exact ⟨a, mem_cons_of_mem _ ha, hok⟩

theorem exists_mem_mapM_results {f : α → Except ε β} {l : List α}
    {results : List β} (hmap : l.mapM f = .ok results) {a : α}
    (ha : a ∈ l) : ∃ b ∈ results, f a = .ok b := by
  have hall := forall₂_of_mapM_eq_ok hmap
  clear hmap
  induction hall with
  | nil => simp at ha
  | cons hhead _ ih =>
    rcases mem_cons.mp ha with rfl | ha
    · exact ⟨_, mem_cons_self, hhead⟩
    · obtain ⟨b, hb, hok⟩ := ih ha
      exact ⟨b, mem_cons_of_mem _ hb, hok⟩

theorem map_mapM_results {γ : Type*} {f : α → Except ε β} {l : List α}
    {results : List β} (hmap : l.mapM f = .ok results) {g : α → γ} {g' : β → γ}
    (hkeep : ∀ a b, f a = .ok b → g' b = g a) : results.map g' = l.map g := by
  have hall := forall₂_of_mapM_eq_ok hmap
  clear hmap
  induction hall with
  | nil => rfl
  | cons hhead _ ih => rw [map_cons, map_cons, hkeep _ _ hhead, ih]

theorem mapM_eq_ok_map {f : α → Except ε β} {g : α → β} {l : List α}
    (hall : ∀ a ∈ l, f a = .ok (g a)) : l.mapM f = .ok (l.map g) := by
  induction l with
  | nil => rfl
  | cons a rest ih =>
    have hrest := ih fun b hb => hall b (mem_cons_of_mem a hb)
    rw [mapM_cons, hall a mem_cons_self, ok_bind, hrest, ok_bind, map_cons]
    rfl

theorem exists_mapM_eq_ok {f : α → Except ε β} {l : List α}
    (hall : ∀ a ∈ l, ∃ b, f a = .ok b) : ∃ results, l.mapM f = .ok results := by
  induction l with
  | nil => exact ⟨[], rfl⟩
  | cons a rest ih =>
    obtain ⟨b, hb⟩ := hall a mem_cons_self
    obtain ⟨later, hlater⟩ := ih fun c hc => hall c (mem_cons_of_mem a hc)
    exact ⟨b :: later, by rw [mapM_cons, hb, hlater]; rfl⟩

theorem foldlM_keeps {σ γ : Type*} {f : σ → α → Except ε σ} {l : List α}
    {s t : σ} (hfold : l.foldlM f s = .ok t) {g : σ → γ}
    (hkeep : ∀ s, ∀ a ∈ l, ∀ t, f s a = .ok t → g t = g s) : g t = g s := by
  induction l generalizing s with
  | nil =>
    cases hfold
    rfl
  | cons a rest ih =>
    obtain ⟨middle, hfirst, hrest⟩ := bind_eq_ok_iff.mp hfold
    rw [ih hrest fun s b hb => hkeep s b (mem_cons_of_mem a hb),
      hkeep s a mem_cons_self middle hfirst]

theorem mem_of_filterAuxM {ε α : Type} {f : α → Except ε Bool} {l before after : List α}
    (hfilter : l.filterAuxM f before = .ok after) {a : α} (ha : a ∈ after) :
    a ∈ l ∨ a ∈ before := by
  induction l generalizing before with
  | nil =>
    cases hfilter
    exact Or.inr ha
  | cons b rest ih =>
    obtain ⟨keep, _, hfilter⟩ := bind_eq_ok_iff.mp hfilter
    rcases ih hfilter with hrest | hbefore
    · exact Or.inl (mem_cons_of_mem b hrest)
    · cases keep with
      | false => exact Or.inr hbefore
      | true =>
        rcases mem_cons.mp hbefore with heq | hbefore
        · rw [heq]
          exact Or.inl mem_cons_self
        · exact Or.inr hbefore

theorem mem_of_filterM {ε α : Type} {f : α → Except ε Bool} {l result : List α}
    (hfilter : l.filterM f = .ok result) {a : α} (ha : a ∈ result) : a ∈ l := by
  obtain ⟨kept, hkept, hresult⟩ := bind_eq_ok_iff.mp hfilter
  cases hresult
  rcases mem_of_filterAuxM hkept (mem_reverse.mp ha) with hmem | hmem
  · exact hmem
  · cases hmem

theorem forM_eq_ok_iff {f : α → Except ε Unit} {l : List α} :
    l.forM f = .ok () ↔ ∀ a ∈ l, f a = .ok () := by
  induction l with
  | nil => simp [pure, Except.pure]
  | cons a rest ih =>
    change (f a >>= fun _ => rest.forM f) = .ok () ↔ _
    rw [bind_eq_ok_iff, forall_mem_cons, ← ih]
    constructor
    · intro hboth
      rcases hboth with ⟨_, ha, hrest⟩
      exact ⟨ha, hrest⟩
    · intro hboth
      exact ⟨(), hboth.1, hboth.2⟩

theorem exists_of_forM_eq_error {f : α → Except ε Unit} {l : List α} {e : ε}
    (hforM : l.forM f = .error e) : ∃ a ∈ l, f a = .error e := by
  induction l with
  | nil => cases hforM
  | cons a rest ih =>
    change (f a >>= fun _ => rest.forM f) = .error e at hforM
    cases ha : f a with
    | error other =>
      rw [ha, error_bind] at hforM
      exact ⟨a, mem_cons_self, ha.trans hforM⟩
    | ok done =>
      rw [ha, ok_bind] at hforM
      obtain ⟨b, hb, hfb⟩ := ih hforM
      exact ⟨b, mem_cons_of_mem a hb, hfb⟩

section

variable {α : Type v} {f g : α → Except ε Bool}

variable {b : Bool}

theorem anyM_cons_eq_ok_iff {a : α} {l : List α} : (a :: l).anyM f = .ok b ↔
    (f a = .ok true ∧ b = true) ∨ (f a = .ok false ∧ l.anyM f = .ok b) := by
  cases hf : f a with
  | error e => simp [List.anyM, hf, bind, Except.bind]
  | ok value =>
    cases value with
    | true =>
      simp [List.anyM, hf, bind, Except.bind, pure, Except.pure, eq_comm]
    | false => simp [List.anyM, hf, bind, Except.bind]

theorem allM_cons_eq_ok_iff {a : α} {l : List α} : (a :: l).allM f = .ok b ↔
    (f a = .ok false ∧ b = false) ∨ (f a = .ok true ∧ l.allM f = .ok b) := by
  cases hf : f a with
  | error e => simp [List.allM, hf, bind, Except.bind]
  | ok value =>
    cases value with
    | true => simp [List.allM, hf, bind, Except.bind]
    | false =>
      simp [List.allM, hf, bind, Except.bind, pure, Except.pure, eq_comm]

/-- A property of every element that a loop reaches, when it goes on after an element only if
that element gives `goOn`. -/
def EachReached (goOn : Bool) (f : α → Except ε Bool) (P : α → Prop) : List α → Prop
  | [] => True
  | a :: rest => P a ∧ (f a = .ok goOn → EachReached goOn f P rest)

variable {goOn : Bool} {P Q R : α → Prop}

theorem EachReached.imp {l : List α} (hP : EachReached goOn f P l) (hPQ : ∀ a, P a → Q a) :
    EachReached goOn f Q l := by
  induction l with
  | nil => exact hP
  | cons a rest ih => exact ⟨hPQ a hP.1, fun ha => ih (hP.2 ha)⟩

theorem EachReached.imp₂ {l : List α} (hP : EachReached goOn f P l)
    (hQ : EachReached goOn f Q l) (hPQR : ∀ a, P a → Q a → R a) : EachReached goOn f R l := by
  induction l with
  | nil => exact hP
  | cons a rest ih => exact ⟨hPQR a hP.1 hQ.1, fun ha => ih (hP.2 ha) (hQ.2 ha)⟩

theorem eachReached_anyM {l : List α} (hf : l.anyM f = .ok b) :
    EachReached false f (fun a => ∃ v, f a = .ok v) l := by
  induction l with
  | nil => trivial
  | cons a rest ih =>
    rw [anyM_cons_eq_ok_iff] at hf
    rcases hf with ⟨hhit, _⟩ | ⟨hmiss, hrest⟩
    · refine ⟨⟨true, hhit⟩, fun hmiss => ?_⟩
      rw [hhit] at hmiss
      cases hmiss
    · exact ⟨⟨false, hmiss⟩, fun _ => ih hrest⟩

theorem eachReached_allM {l : List α} (hf : l.allM f = .ok b) :
    EachReached true f (fun a => ∃ v, f a = .ok v) l := by
  induction l with
  | nil => trivial
  | cons a rest ih =>
    rw [allM_cons_eq_ok_iff] at hf
    rcases hf with ⟨hmiss, _⟩ | ⟨hhit, hrest⟩
    · refine ⟨⟨false, hmiss⟩, fun hhit => ?_⟩
      rw [hmiss] at hhit
      cases hhit
    · exact ⟨⟨true, hhit⟩, fun _ => ih hrest⟩

theorem EachReached.anyM_eq {l : List α}
    (hfg : EachReached false f (fun a => ∀ v, f a = .ok v → g a = .ok v) l)
    (hf : l.anyM f = .ok b) : l.anyM g = .ok b := by
  induction l with
  | nil => exact hf
  | cons a rest ih =>
    rw [anyM_cons_eq_ok_iff] at hf ⊢
    rcases hf with ⟨hhit, hb⟩ | ⟨hmiss, hf⟩
    · exact Or.inl ⟨hfg.1 true hhit, hb⟩
    · exact Or.inr ⟨hfg.1 false hmiss, ih (hfg.2 hmiss) hf⟩

theorem EachReached.allM_eq {l : List α}
    (hfg : EachReached true f (fun a => ∀ v, f a = .ok v → g a = .ok v) l)
    (hf : l.allM f = .ok b) : l.allM g = .ok b := by
  induction l with
  | nil => exact hf
  | cons a rest ih =>
    rw [allM_cons_eq_ok_iff] at hf ⊢
    rcases hf with ⟨hmiss, hb⟩ | ⟨hhit, hf⟩
    · exact Or.inl ⟨hfg.1 false hmiss, hb⟩
    · exact Or.inr ⟨hfg.1 true hhit, ih (hfg.2 hhit) hf⟩

theorem allM_append_eq_ok_iff {l₁ l₂ : List α} : (l₁ ++ l₂).allM f = .ok b ↔
    (l₁.allM f = .ok false ∧ b = false) ∨ (l₁.allM f = .ok true ∧ l₂.allM f = .ok b) := by
  induction l₁ with
  | nil => simp [List.allM, pure, Except.pure]
  | cons a rest ih =>
    rw [cons_append, allM_cons_eq_ok_iff, ih, allM_cons_eq_ok_iff, allM_cons_eq_ok_iff]
    tauto

end

end Middlewared
