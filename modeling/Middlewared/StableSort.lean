import Mathlib.Tactic

/-!
# Stable sorting by several keys

Sorting by one key after another, each time keeping the order of ties, sorts lexicographically
with the last key as the most significant one.
-/

namespace Middlewared.StableSort

open List

variable {α : Type*}

def Then (le r : α → α → Prop) (a b : α) : Prop :=
  le a b ∧ (le b a → r a b)

def Lex : List (α → α → Prop) → α → α → Prop
  | [] => fun _ _ => True
  | le :: rest => Then le (Lex rest)

/-- `l'` is `l` sorted by `le`, and ties are left as they were. -/
structure Pass (le : α → α → Prop) (l l' : List α) : Prop where
  perm : l'.Perm l
  stable : ∀ r : α → α → Prop, l.Pairwise r → l'.Pairwise (Then le r)

theorem lex_of_ties {les : List (α → α → Prop)} {a b : α}
    (hties : ∀ le ∈ les, le a b ∧ le b a) : Lex les a b := by
  induction les with
  | nil => trivial
  | cons le rest ih =>
    refine ⟨(hties le mem_cons_self).1, fun _ => ih ?_⟩
    intro le' hle'
    exact hties le' (mem_cons_of_mem le hle')

theorem ties_of_lex {les : List (α → α → Prop)} {a b : α} (hab : Lex les a b) (hba : Lex les b a) :
    ∀ le ∈ les, le a b ∧ le b a := by
  induction les with
  | nil => simp
  | cons le rest ih =>
    intro le' hle'
    rcases mem_cons.mp hle' with heq | hmem
    · rw [heq]
      exact ⟨hab.1, hba.1⟩
    · exact ih (hab.2 hba.1) (hba.2 hab.1) le' hmem

theorem lex_trans {les : List (α → α → Prop)} {l : List α}
    (htrans : ∀ le ∈ les, ∀ a ∈ l, ∀ b ∈ l, ∀ c ∈ l, le a b → le b c → le a c) :
    ∀ a ∈ l, ∀ b ∈ l, ∀ c ∈ l, Lex les a b → Lex les b c → Lex les a c := by
  intro a ha b hb c hc hab hbc
  induction les with
  | nil => trivial
  | cons le rest ih =>
    have hle := htrans le mem_cons_self
    refine ⟨hle a ha b hb c hc hab.1 hbc.1, ?_⟩
    intro hca
    apply ih
    · intro le' hle'
      exact htrans le' (mem_cons_of_mem le hle')
    · exact hab.2 (hle b hb c hc a ha hbc.1 hca)
    · exact hbc.2 (hle c hc a ha b hb hca hab.1)

theorem pairwise_lex_of_ordered {les les' : List (α → α → Prop)}
    {l : List α} (hsame : ∀ le, le ∈ les ↔ le ∈ les')
    (hordered : l.Pairwise (Lex les))
    (hagree : ∀ a ∈ l, ∀ b ∈ l, ¬ (¬ Lex les' b a ∧ ¬ Lex les a b)) :
    l.Pairwise (Lex les') := by
  refine hordered.imp_of_mem ?_
  intro a b ha hb hab
  by_contra hnot
  have hba : Lex les b a := by
    by_contra hba
    exact hagree b hb a ha ⟨hnot, hba⟩
  refine hnot (lex_of_ties ?_)
  intro le hle
  exact ties_of_lex hab hba le ((hsame le).mpr hle)

theorem pairwise_lex_iff {les les' : List (α → α → Prop)} {l : List α}
    (hsame : ∀ le, le ∈ les ↔ le ∈ les')
    (hrefl : ∀ le ∈ les, ∀ a ∈ l, le a a)
    (hordered : l.Pairwise (Lex les)) :
    l.Pairwise (Lex les') ↔ ∀ a ∈ l, ∀ b ∈ l, ¬ (¬ Lex les' b a ∧ ¬ Lex les a b) := by
  refine ⟨?_, pairwise_lex_of_ordered hsame hordered⟩
  intro hordered' a ha b hb hbad
  have hne : a ≠ b := by
    intro heq
    subst heq
    refine hbad.2 (lex_of_ties ?_)
    intro le hle
    exact ⟨hrefl le hle a ha, hrefl le hle a ha⟩
  have hboth : l.Pairwise fun x y => Lex les x y ∧ Lex les' x y := hordered.and hordered'
  have hcases : (Lex les a b ∧ Lex les' a b) ∨ (Lex les b a ∧ Lex les' b a) := by
    have hsymm : Std.Symm fun x y : α =>
        (Lex les x y ∧ Lex les' x y) ∨ (Lex les y x ∧ Lex les' y x) :=
      ⟨fun _ _ hxy => hxy.symm⟩
    have heither : l.Pairwise fun x y =>
        (Lex les x y ∧ Lex les' x y) ∨ (Lex les y x ∧ Lex les' y x) :=
      hboth.imp Or.inl
    exact heither.forall ha hb hne
  rcases hcases with hab | hba
  · exact hbad.2 hab.1
  · exact hbad.1 hba.2

/-! ## Sorting passes -/

section

variable {le : α → α → Prop} [DecidableRel le]

theorem pairwise_orderedInsert {r : α → α → Prop} {a : α} {l : List α}
    (htotal : ∀ b ∈ l, le a b ∨ le b a)
    (htrans : ∀ b ∈ l, ∀ c ∈ l, le a b → le b c → le a c)
    (hr : ∀ b ∈ l, r a b) (hl : l.Pairwise (Then le r)) :
    (l.orderedInsert le a).Pairwise (Then le r) := by
  induction l with
  | nil => simp
  | cons b rest ih =>
    rw [List.orderedInsert]
    obtain ⟨hb, hrest⟩ := pairwise_cons.mp hl
    split_ifs with hab
    · rw [pairwise_cons]
      refine ⟨?_, hl⟩
      intro c hc
      refine ⟨?_, fun _ => hr c hc⟩
      rcases mem_cons.mp hc with heq | hmem
      · rw [heq]
        exact hab
      · exact htrans b mem_cons_self c hc hab (hb c hmem).1
    · rw [pairwise_cons]
      constructor
      · intro c hc
        rcases mem_orderedInsert le |>.mp hc with heq | hmem
        · rw [heq]
          have hba := (htotal b mem_cons_self).resolve_left hab
          exact ⟨hba, fun habs => absurd habs hab⟩
        · exact hb c hmem
      · refine ih ?_ ?_ ?_ hrest
        · exact fun c hc => htotal c (mem_cons_of_mem b hc)
        · exact fun c hc d hd =>
            htrans c (mem_cons_of_mem b hc) d (mem_cons_of_mem b hd)
        · exact fun c hc => hr c (mem_cons_of_mem b hc)

theorem pass_insertionSort {l : List α} (htotal : ∀ a ∈ l, ∀ b ∈ l, le a b ∨ le b a)
    (htrans : ∀ a ∈ l, ∀ b ∈ l, ∀ c ∈ l, le a b → le b c → le a c) :
    Pass le l (l.insertionSort le) where
  perm := l.perm_insertionSort le
  stable := by
    intro r hr
    induction l with
    | nil => simp
    | cons a rest ih =>
      obtain ⟨ha, hrest⟩ := pairwise_cons.mp hr
      have hmem : ∀ b, b ∈ rest.insertionSort le ↔ b ∈ rest :=
        fun b => (rest.perm_insertionSort le).mem_iff
      refine pairwise_orderedInsert ?_ ?_ ?_ (ih ?_ ?_ hrest)
      · intro b hb
        exact htotal a mem_cons_self b (mem_cons_of_mem a ((hmem b).mp hb))
      · intro b hb c hc
        exact htrans a mem_cons_self b (mem_cons_of_mem a ((hmem b).mp hb)) c
          (mem_cons_of_mem a ((hmem c).mp hc))
      · intro b hb
        exact ha b ((hmem b).mp hb)
      · intro b hb c hc
        exact htotal b (mem_cons_of_mem a hb) c (mem_cons_of_mem a hc)
      · intro b hb c hc d hd
        exact htrans b (mem_cons_of_mem a hb) c (mem_cons_of_mem a hc) d (mem_cons_of_mem a hd)

end

theorem Pass.map {β : Type*} {le : α → α → Prop} {l l' : List α}
    (hpass : Pass le l l') (f : α → β) (le' : β → β → Prop)
    (hle : ∀ a ∈ l, ∀ b ∈ l, le a b ↔ le' (f a) (f b)) :
    Pass le' (l.map f) (l'.map f) where
  perm := hpass.perm.map f
  stable := by
    intro r hr
    rw [pairwise_map] at hr ⊢
    refine (hpass.stable _ hr).imp_of_mem ?_
    intro a b ha hb hab
    have ha' := hpass.perm.mem_iff.mp ha
    have hb' := hpass.perm.mem_iff.mp hb
    exact ⟨(hle a ha' b hb').mp hab.1, fun hba => hab.2 ((hle b hb' a ha').mpr hba)⟩

theorem Pass.congr {le le' : α → α → Prop} {l l' : List α}
    (hpass : Pass le l l') (hle : ∀ a ∈ l, ∀ b ∈ l, le a b ↔ le' a b) :
    Pass le' l l' := by
  simpa using hpass.map id le' hle

theorem Pass.append {le : α → α → Prop} {p : α → Bool} {l first second : List α}
    (hfirst : Pass le (l.filter p) first)
    (hsecond : Pass le (l.filter (!p ·)) second)
    (hcross : ∀ a ∈ l, ∀ b ∈ l, p a = true → p b = false →
      le a b ∧ ¬ le b a) : Pass le l (first ++ second) where
  perm := (hfirst.perm.append hsecond.perm).trans (l.filter_append_perm p)
  stable := by
    intro r hr
    rw [pairwise_append]
    refine ⟨hfirst.stable r (hr.filter _), hsecond.stable r (hr.filter _), ?_⟩
    intro a ha b hb
    obtain ⟨hal, hpa⟩ := mem_filter.mp (hfirst.perm.mem_iff.mp ha)
    obtain ⟨hbl, hpb⟩ := mem_filter.mp (hsecond.perm.mem_iff.mp hb)
    obtain ⟨hab, hba⟩ := hcross a hal b hbl hpa (by simpa using hpb)
    exact ⟨hab, fun habs => absurd habs hba⟩

theorem pass_of_ties {le : α → α → Prop} {l : List α}
    (hties : ∀ a ∈ l, ∀ b ∈ l, le a b) : Pass le l l where
  perm := List.Perm.refl l
  stable := by
    intro r hr
    refine hr.imp_of_mem ?_
    intro a b ha hb hab
    exact ⟨hties a ha b hb, fun _ => hab⟩

theorem pairwise_lex_of_passes {les : List (α → α → Prop)} {le : α → α → Prop}
    {l l' : List α} (hpass : Pass le l l') (hl : l.Pairwise (Lex les)) :
    l'.Pairwise (Lex (le :: les)) :=
  hpass.stable (Lex les) hl

/-! ## What stability determines -/

def KeepsTies (le : α → α → Prop) (l l' : List α) : Prop :=
  ∀ p : α → Bool, (∀ a ∈ l, ∀ b ∈ l, p a = true → p b = true → le a b) → l'.filter p = l.filter p

theorem KeepsTies.refl (le : α → α → Prop) (l : List α) : KeepsTies le l l := fun _ _ => rfl

theorem KeepsTies.congr {le le' : α → α → Prop} {l l' : List α}
    (hties : KeepsTies le l l') (hle : ∀ a ∈ l, ∀ b ∈ l, le' a b → le a b) :
    KeepsTies le' l l' := by
  intro p hp
  apply hties p
  intro a ha b hb hpa hpb
  exact hle a ha b hb (hp a ha b hb hpa hpb)

theorem KeepsTies.trans {le r : α → α → Prop} {l middle l' : List α}
    (hfirst : KeepsTies r l middle) (hsecond : KeepsTies le middle l')
    (hperm : middle.Perm l) : KeepsTies (Then le r) l l' := by
  intro p hp
  rw [hsecond p, hfirst p]
  · intro a ha b hb hpa hpb
    have hab := hp a ha b hb hpa hpb
    have hba := hp b hb a ha hpb hpa
    exact hab.2 hba.1
  · intro a ha b hb hpa hpb
    exact (hp a (hperm.mem_iff.mp ha) b (hperm.mem_iff.mp hb) hpa hpb).1

theorem KeepsTies.map {β : Type*} {le : α → α → Prop} {l l' : List α}
    (hties : KeepsTies le l l') (f : α → β) (le' : β → β → Prop)
    (hle : ∀ a ∈ l, ∀ b ∈ l, le' (f a) (f b) → le a b) :
    KeepsTies le' (l.map f) (l'.map f) := by
  intro p hp
  rw [filter_map, filter_map, hties (p ∘ f)]
  intro a ha b hb hpa hpb
  exact hle a ha b hb (hp (f a) (mem_map_of_mem ha) (f b) (mem_map_of_mem hb) hpa hpb)

theorem KeepsTies.map_of_agree {β : Type*} {le : α → α → Prop} {l l' : List α}
    (hties : KeepsTies le l l') (hperm : l'.Perm l)
    (htrans : ∀ a ∈ l, ∀ b ∈ l, ∀ c ∈ l, le a b → le b c → le a c)
    (f : α → β) (le' : β → β → Prop)
    (hagree : ∀ a ∈ l, ∀ b ∈ l, f a ≠ f b → le' (f a) (f b) → le a b) :
    KeepsTies le' (l.map f) (l'.map f) := by
  intro p hp
  have hclass : ∀ a ∈ l, ∀ b ∈ l, p (f a) = true → p (f b) = true → f a ≠ f b → le a b := by
    intro a ha b hb hpa hpb hne
    exact hagree a ha b hb hne (hp (f a) (mem_map_of_mem ha) (f b)
      (mem_map_of_mem hb) hpa hpb)
  rw [filter_map, filter_map]
  by_cases hone : ∀ a ∈ l, ∀ b ∈ l, p (f a) = true → p (f b) = true → f a = f b
  · -- all of the class have one image
    have hall : ∀ list : List β, list.Pairwise fun _ _ => True :=
      fun _ => pairwise_of_forall fun _ _ => trivial
    refine List.Perm.eq_of_pairwise ?_ (hall _) (hall _) ((hperm.filter (p ∘ f)).map f)
    · intro x y hx hy _ _
      rcases mem_map.mp hx with ⟨a, ha, hfa⟩
      rcases mem_map.mp hy with ⟨b, hb, hfb⟩
      rw [mem_filter] at ha hb
      rw [← hfa, ← hfb]
      exact hone a (hperm.mem_iff.mp ha.1) b hb.1 ha.2 hb.2
  · push Not at hone
    rcases hone with ⟨first, hfirst, second, hsecond, hpf, hps, hne⟩
    rw [hties (p ∘ f)]
    intro a ha b hb hpa hpb
    by_cases hsame : f a = f b
    · -- both tie with an element of another image
      by_cases hother : f a = f first
      · have hne' : f a ≠ f second := hother ▸ hne
        exact htrans a ha second hsecond b hb (hclass a ha second hsecond hpa hps hne')
          (hclass second hsecond b hb hps hpb (hsame ▸ hne').symm)
      · exact htrans a ha first hfirst b hb (hclass a ha first hfirst hpa hpf hother)
          (hclass first hfirst b hb hpf hpb fun heq => hother (hsame.trans heq.symm))
    · exact hclass a ha b hb hpa hpb hsame

theorem keepsTies_insertionSort {le : α → α → Prop} [DecidableRel le]
    (l : List α) : KeepsTies le l (l.insertionSort le) := by
  intro p hp
  have hties : (l.filter p).Pairwise le := by
    apply pairwise_of_forall_mem_list
    intro a ha b hb
    rw [mem_filter] at ha hb
    exact hp a ha.1 b hb.1 ha.2 hb.2
  have hsublist := (sublist_insertionSort hties filter_sublist).filter p
  rw [filter_filter] at hsublist
  simp only [Bool.and_self] at hsublist
  refine (hsublist.eq_of_length ?_).symm
  exact ((l.perm_insertionSort le).symm.filter p).length_eq

theorem KeepsTies.append {le : α → α → Prop} {q : α → Bool}
    {l first second : List α} (hfirst : KeepsTies le (l.filter q) first)
    (hsecond : KeepsTies le (l.filter (!q ·)) second)
    (hcross : ∀ a ∈ l, ∀ b ∈ l, q a = true → q b = false →
      ¬(le a b ∧ le b a)) : KeepsTies le l (first ++ second) := by
  intro p hp
  have hpart : ∀ r : α → Bool, ∀ a ∈ l.filter r, ∀ b ∈ l.filter r,
      p a = true → p b = true → le a b := by
    intro r a ha b hb
    exact hp a (mem_filter.mp ha).1 b (mem_filter.mp hb).1
  rw [filter_append, hfirst p (hpart q), hsecond p (hpart (!q ·)),
    filter_filter, filter_filter]
  by_cases hany : ∃ a ∈ l, p a = true ∧ q a = true
  · rcases hany with ⟨a, ha, hpa, hqa⟩
    have hall : ∀ b ∈ l, p b = true → q b = true := by
      intro b hb hpb
      by_contra hqb
      exact hcross a ha b hb hqa (by simpa using hqb) ⟨hp a ha b hb hpa hpb, hp b hb a ha hpb hpa⟩
    have hnone : l.filter (fun b => p b && !q b) = [] := by
      rw [filter_eq_nil_iff]
      intro b hb hboth
      rw [Bool.and_eq_true] at hboth
      simp [hall b hb hboth.1] at hboth
    rw [hnone, append_nil]
    apply filter_congr
    intro b hb
    cases hpb : p b with
    | false => simp
    | true => simp [hall b hb hpb]
  · push Not at hany
    have hnone : l.filter (fun b => p b && q b) = [] := by
      rw [filter_eq_nil_iff]
      intro b hb hboth
      rw [Bool.and_eq_true] at hboth
      exact hany b hb hboth.1 hboth.2
    rw [hnone, nil_append]
    apply filter_congr
    intro b hb
    cases hpb : p b with
    | false => simp
    | true => simp [hany b hb hpb]

section

variable {le : α → α → Prop} [DecidableRel le]

def tiesWith (le : α → α → Prop) [DecidableRel le] (a b : α) : Bool :=
  decide (le a b ∧ le b a)

theorem eq_of_filter_tiesWith {l l' : List α} (hperm : l'.Perm l)
    (hl : l.Pairwise le) (hl' : l'.Pairwise le) (hrefl : ∀ a ∈ l, le a a)
    (hties : ∀ a ∈ l, l'.filter (tiesWith le a) = l.filter (tiesWith le a)) :
    l' = l := by
  induction l generalizing l' with
  | nil => exact hperm.eq_nil
  | cons x rest ih =>
    cases l' with
    | nil => exact absurd hperm.symm.eq_nil (cons_ne_nil x rest)
    | cons y rest' =>
      have hx : x ∈ y :: rest' := hperm.mem_iff.mpr mem_cons_self
      have hy : y ∈ x :: rest := hperm.mem_iff.mp mem_cons_self
      have hself : tiesWith le x x = true := by
        simp [tiesWith, hrefl x mem_cons_self]
      rw [pairwise_cons] at hl hl'
      have heq : y = x := by
        by_cases hsame : y = x
        · exact hsame
        · -- each of the two comes before the other, so that they tie
          have hxy : le x y := hl.1 y ((mem_cons.mp hy).resolve_left hsame)
          have hyx : le y x := hl'.1 x ((mem_cons.mp hx).resolve_left (Ne.symm hsame))
          have hclass := hties x mem_cons_self
          rw [filter_cons_of_pos hself, filter_cons_of_pos (by simp [tiesWith, hxy, hyx])] at hclass
          exact (List.cons.inj hclass).1
      subst heq
      rw [ih hperm.cons_inv hl.2 hl'.2]
      · intro a ha
        exact hrefl a (mem_cons_of_mem y ha)
      · intro a ha
        have hclass := hties a (mem_cons_of_mem y ha)
        rw [filter_cons, filter_cons] at hclass
        split_ifs at hclass
        · exact (List.cons.inj hclass).2
        · exact hclass

end

theorem eq_of_keepsTies {le : α → α → Prop} {l first second : List α}
    (hfirst : first.Perm l) (hsecond : second.Perm l)
    (hsortedFirst : first.Pairwise le) (hsortedSecond : second.Pairwise le)
    (hrefl : ∀ a ∈ l, le a a)
    (htrans : ∀ a ∈ l, ∀ b ∈ l, ∀ c ∈ l, le a b → le b c → le a c)
    (htiesFirst : KeepsTies le l first) (htiesSecond : KeepsTies le l second) :
    first = second := by
  classical
  refine eq_of_filter_tiesWith (hfirst.trans hsecond.symm) hsortedSecond hsortedFirst ?_ ?_
  · intro a ha
    exact hrefl a (hsecond.mem_iff.mp ha)
  · intro x hx
    have hclass : ∀ a ∈ l, ∀ b ∈ l, tiesWith le x a = true → tiesWith le x b = true → le a b := by
      intro a ha b hb hxa hxb
      simp only [tiesWith, decide_eq_true_eq] at hxa hxb
      exact htrans a ha x (hsecond.mem_iff.mp hx) b hb hxa.2 hxb.1
    rw [htiesFirst _ hclass, htiesSecond _ hclass]

theorem insertionSort_eq_cons {le : α → α → Prop} [DecidableRel le]
    {before after : List α} {a : α} (hbefore : ∀ b ∈ before, ¬ le b a)
    (hafter : ∀ c ∈ after, le a c) :
    ∃ rest, (before ++ a :: after).insertionSort le = a :: rest := by
  induction before with
  | nil =>
    rw [nil_append, insertionSort_cons]
    cases hsort : after.insertionSort le with
    | nil => exact ⟨[], rfl⟩
    | cons c rest =>
      have hc : c ∈ after := by
        rw [← mem_insertionSort le, hsort]
        exact mem_cons_self
      rw [List.orderedInsert, if_pos (hafter c hc)]
      exact ⟨c :: rest, rfl⟩
  | cons b before ih =>
    obtain ⟨rest, hrest⟩ := ih (fun d hd => hbefore d (mem_cons_of_mem b hd))
    rw [cons_append, insertionSort_cons, hrest, List.orderedInsert,
      if_neg (hbefore b mem_cons_self)]
    exact ⟨rest.orderedInsert le b, rfl⟩

theorem exists_first {le : α → α → Prop} (htotal : ∀ a b, le a b ∨ le b a)
    (htrans : ∀ a b c, le a b → le b c → le a c) {l : List α} (hne : l ≠ []) :
    ∃ before a after, l = before ++ a :: after ∧ (∀ b ∈ before, ¬ le b a) ∧
      ∀ c ∈ after, le a c := by
  induction l with
  | nil => exact absurd rfl hne
  | cons x rest ih =>
    by_cases hrest : rest = []
    · subst hrest
      exact ⟨[], x, [], rfl, nofun, nofun⟩
    · obtain ⟨before, a, after, heq, hbefore, hafter⟩ := ih hrest
      by_cases hle : le x a
      · have hall : ∀ c ∈ rest, le x c := by
          intro c hc
          rw [heq] at hc
          rcases mem_append.mp hc with hc | hc
          · exact htrans x a c hle ((htotal a c).resolve_right (hbefore c hc))
          · rcases mem_cons.mp hc with hc | hc
            · rw [hc]
              exact hle
            · exact htrans x a c hle (hafter c hc)
        exact ⟨[], x, rest, rfl, nofun, hall⟩
      · have hnone : ∀ b ∈ x :: before, ¬ le b a := by
          intro b hb
          rcases mem_cons.mp hb with hb | hb
          · rw [hb]
            exact hle
          · exact hbefore b hb
        exact ⟨x :: before, a, after, by rw [heq, cons_append], hnone,
          hafter⟩

end Middlewared.StableSort
