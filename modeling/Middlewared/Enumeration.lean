import Mathlib.Tactic

/-!
# Enumerating a set of natural numbers

A function that gives the least element of a set above a number walks through the set in
increasing order.
-/

namespace Middlewared

/-- `next` gives the least element of `S` above a number. -/
def Enumerates (S : Set ℕ) (next : ℕ → Option ℕ) : Prop :=
  ∀ current t, next current = some t ↔ IsLeast {u ∈ S | current < u} t

def later (S : Set ℕ) (current : ℕ) : Set ℕ :=
  {u ∈ S | current < u}

def between (S : Set ℕ) (current t : ℕ) : Set ℕ :=
  {u ∈ S | current < u ∧ u < t}

/-- Takes at most `count` elements until one satisfies `p`.  There is no answer
if the elements run out before. -/
def scan (p : ℕ → Bool) (next : ℕ → Option ℕ) : ℕ → ℕ → Option Bool
  | 0, _ => some false
  | count + 1, current =>
    match next current with
    | none => none
    | some t => if p t then some true else scan p next count t

variable {S : Set ℕ} {next : ℕ → Option ℕ} {p : ℕ → Bool}

theorem finite_between (S : Set ℕ) (current t : ℕ) : (between S current t).Finite :=
  (Set.finite_Iio t).subset fun _ hu => hu.2.2

variable {current : ℕ}

variable (hnext : Enumerates S next)

include hnext

theorem later_eq_empty (hnone : next current = none) : later S current = ∅ := by
  by_contra hne
  obtain ⟨u, hu⟩ := Set.nonempty_iff_ne_empty.mpr hne
  have hleast : IsLeast (later S current) (sInf (later S current)) :=
    ⟨Nat.sInf_mem ⟨u, hu⟩, fun _ hv => Nat.sInf_le hv⟩
  rw [(hnext current _).mpr hleast] at hnone
  cases hnone

variable {t : ℕ}

theorem later_eq_insert (hsome : next current = some t) :
    later S current = insert t (later S t) := by
  have hleast := (hnext current t).mp hsome
  ext u
  constructor
  · intro hu
    have hle := hleast.2 hu
    rcases Nat.eq_or_lt_of_le hle with heq | hlt
    · exact Or.inl heq.symm
    · exact Or.inr ⟨hu.1, hlt⟩
  · intro hu
    rcases hu with heq | hu
    · rw [heq]
      exact hleast.1
    · exact ⟨hu.1, lt_trans hleast.1.2 hu.2⟩

theorem between_eq_empty (hsome : next current = some t) : between S current t = ∅ := by
  have hleast := (hnext current t).mp hsome
  ext u
  constructor
  · intro hu
    have hle := hleast.2 ⟨hu.1, hu.2.1⟩
    have hlt := hu.2.2
    omega
  · intro hu
    exact hu.elim

theorem between_eq_insert {u : ℕ} (hsome : next current = some t) (hlt : t < u) :
    between S current u = insert t (between S t u) := by
  have hinsert := later_eq_insert hnext hsome
  have hcut : ∀ v, between S v u = later S v ∩ Set.Iio u := by
    intro v
    ext w
    simp only [between, later, Set.mem_ofPred_eq, Set.mem_inter_iff, Set.mem_Iio]
    tauto
  rw [hcut, hcut, hinsert, Set.insert_inter_of_mem (Set.mem_Iio.mpr hlt)]

omit hnext in
theorem notMem_between (S : Set ℕ) (t u : ℕ) : t ∉ between S t u := fun hmem => lt_irrefl t hmem.2.1

omit hnext in
theorem notMem_later (S : Set ℕ) (t : ℕ) : t ∉ later S t := fun hmem => lt_irrefl t hmem.2

theorem scan_eq_true_iff (count current : ℕ) : scan p next count current = some true ↔
    ∃ t ∈ later S current, p t ∧ (between S current t).ncard < count := by
  induction count generalizing current with
  | zero => simp [scan]
  | succ count ih =>
    cases hsome : next current with
    | none => simp [scan, hsome, later_eq_empty hnext hsome]
    | some t =>
      have hmem := ((hnext current t).mp hsome).1
      cases hp : p t with
      | true =>
        have hzero : (between S current t).ncard < count + 1 := by
          simp [between_eq_empty hnext hsome]
        simp only [scan, hsome, hp, if_true, true_iff]
        exact ⟨t, hmem, hp, hzero⟩
      | false =>
        simp only [scan, hsome, hp, Bool.false_eq_true, if_false]
        rw [ih t]
        have hcard : ∀ u, t < u → (between S current u).ncard = (between S t u).ncard + 1 := by
          intro u hlt
          rw [between_eq_insert hnext hsome hlt, Set.ncard_insert_of_notMem (notMem_between S t u)
              (finite_between S t u)]
        constructor
        · intro hlater
          obtain ⟨u, hu, hpu, hlt⟩ := hlater
          have hsucc := hcard u hu.2
          refine ⟨u, ?_, hpu, by omega⟩
          exact ⟨hu.1, lt_trans hmem.2 hu.2⟩
        · intro hlater
          obtain ⟨u, hu, hpu, hlt⟩ := hlater
          -- the element that was just refused cannot be the one sought
          rw [later_eq_insert hnext hsome] at hu
          rcases hu with heq | hu
          · rw [heq, hp] at hpu
            cases hpu
          · have hsucc := hcard u hu.2
            exact ⟨u, hu, hpu, by omega⟩

theorem scan_eq_false_iff {count : ℕ} (hfail : ∀ t ∈ S, p t = false) :
    scan p next count current = some false ↔ (count : ℕ∞) ≤ (later S current).encard := by
  induction count generalizing current with
  | zero => simp [scan]
  | succ count ih =>
    cases hsome : next current with
    | none => simp [scan, hsome, later_eq_empty hnext hsome]
    | some t =>
      have hp := hfail t ((hnext current t).mp hsome).1.1
      have hcard : (later S current).encard = (later S t).encard + 1 := by
        rw [later_eq_insert hnext hsome, Set.encard_insert_of_notMem (notMem_later S t)]
      simp only [scan, hsome, hp, Bool.false_eq_true, if_false]
      rw [ih, hcard, Nat.cast_add, Nat.cast_one]
      exact (ENat.add_le_add_iff_right ENat.one_ne_top).symm

end Middlewared
