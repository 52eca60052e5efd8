import Middlewared.FilterOrder

/-!
# The order that `do_order` gives

Each round of `do_order` sorts by one key and keeps the order of ties.
-/

namespace Middlewared

open StableSort List

variable {orderBy : List String} {pool rows : List Row}

theorem MutuallyComparable.mono {values others : Set PyValue}
    (hcomparable : MutuallyComparable values) (hsubset : others ⊆ values) :
    MutuallyComparable others where
  compares a ha b hb := hcomparable.compares a (hsubset ha) b (hsubset hb)
  asymm a ha b hb := hcomparable.asymm a (hsubset ha) b (hsubset hb)
  trans a ha b hb c hc := hcomparable.trans a (hsubset ha) b (hsubset hb) c (hsubset hc)

variable {order : String}

theorem Orderable.of_subset (horder : Orderable pool order)
    (hsubset : rows ⊆ pool) : Orderable rows order where
  column := horder.column
  comparable := by
    apply horder.comparable.mono
    intro value hvalue
    rcases hvalue with ⟨row, hrow, hvalue⟩
    exact ⟨row, hsubset hrow, hvalue⟩
  noNulls := fun hnulls row hrow => horder.noNulls hnulls row (hsubset hrow)

/-! ## Ties -/

theorem notAfter_term_trans (horder : Orderable rows order) : ∀ a ∈ rows, ∀ b ∈ rows, ∀ c ∈ rows,
    (sqlOrderTerm order).NotAfter a b → (sqlOrderTerm order).NotAfter b c →
      (sqlOrderTerm order).NotAfter a c := by
  intro a ha b hb c hc
  have hvalue : ∀ row ∈ rows, isNull (sqlOrderTerm order).column row = false →
      valueOf (sqlOrderTerm order).column row ∈ columnValues (sqlOrderTerm order).column rows :=
    fun row hrow hnull => ⟨row, hrow, hnull, rfl⟩
  unfold OrderTerm.NotAfter
  cases hna : isNull (sqlOrderTerm order).column a <;>
    cases hnb : isNull (sqlOrderTerm order).column b <;>
      cases hnc : isNull (sqlOrderTerm order).column c
  · exact notAfter_trans horder.comparable (hvalue a ha hna) (hvalue b hb hnb) (hvalue c hc hnc)
  all_goals simp_all

variable {sorted : List Row} {column : String} {reverse : Bool}

variable (hcolumn : IsColumn column)

include hcolumn

theorem sortedBy_eq_ok (hsorted : sortedBy column reverse rows = .ok sorted) :
    allCompare reverse (rows.map fun row => (valueOf column row, row)) = true ∧
      ((rows.map fun row => (valueOf column row, row)).insertionSort
        (staysBefore reverse · ·)).map (·.2) = sorted := by
  unfold sortedBy at hsorted
  rw [decorate_column hcolumn, ok_bind] at hsorted
  split_ifs at hsorted with hcompares
  exact ⟨hcompares, Except.ok.inj hsorted⟩

theorem sortedBy_perm (hsorted : sortedBy column reverse rows = .ok sorted) : sorted.Perm rows := by
  rw [← (sortedBy_eq_ok hcolumn hsorted).2]
  have hperm := ((rows.map fun row => (valueOf column row, row)
    ).perm_insertionSort (staysBefore reverse · ·)).map (·.2)
  simpa [Function.comp_def] using hperm

theorem sortedBy_keepsTies (hcomparable : MutuallyComparable (columnValues column rows))
    (hnulls : ∀ row ∈ rows, isNull column row = false)
    (hsorted : sortedBy column reverse rows = .ok sorted) : KeepsTies (fun a b =>
    notAfter reverse (valueOf column a) (valueOf column b)) rows sorted := by
  have hvalues : ∀ item ∈ rows.map fun row => (valueOf column row, row),
      item.1 ∈ columnValues column rows ∧ item.1 = valueOf column item.2 := by
    intro item hitem
    rcases mem_map.mp hitem with ⟨row, hrow, heq⟩
    rw [← heq]
    exact ⟨⟨row, hrow, hnulls row hrow, rfl⟩, rfl⟩
  have hsort : KeepsTies (staysBefore reverse · ·)
      (rows.map fun row => (valueOf column row, row)) _ :=
    keepsTies_insertionSort _
  have hties := hsort.map (·.2)
    (fun a b => notAfter reverse (valueOf column a) (valueOf column b)) (by
      intro a ha b hb hab
      rw [staysBefore_iff hcomparable (hvalues a ha).1 (hvalues b hb).1]
      rwa [(hvalues a ha).2, (hvalues b hb).2])
  rw [(sortedBy_eq_ok hcolumn hsorted).2] at hties
  simpa [Function.comp_def] using hties

theorem sortedBy_ne_ok_of_nulls (hlength : 2 ≤ rows.length)
    (hnulls : ∀ row ∈ rows, isNull column row = true) (sorted : List Row) :
    sortedBy column reverse rows ≠ .ok sorted := by
  intro hsorted
  have hcompares := (sortedBy_eq_ok hcolumn hsorted).1
  have hnone : ∀ row ∈ rows, valueOf column row = .none := by
    intro row hrow
    have hnull := hnulls row hrow
    unfold isNull at hnull
    unfold valueOf
    cases hvalue : (row.lookup column).getD .none with
    | none => rfl
    | bool | int | str | datetime | list | dict =>
      rw [hvalue] at hnull
      cases hnull
  cases rows with
  | nil => simp at hlength
  | cons a rest =>
    cases rest with
    | nil => simp at hlength
    | cons b rest =>
      have hkey : keyBefore reverse (valueOf column a, a)
          (valueOf column b, b) = .error .typeError := by
        rw [hnone a (by simp), hnone b (by simp)]
        cases reverse <;> rfl
      simp [allCompare, hkey, Except.isOk, Except.toBool] at hcompares

omit hcolumn

inductive RoundParts (term : OrderTerm) (rows : List Row) : List Row → Prop
  where
  | first {values : List Row} (hnulls : term.nulls = some .first)
      (hvalues : sortedBy term.column term.desc
        (rows.filter (!isNull term.column ·)) = .ok values) :
      RoundParts term rows (rows.filter (isNull term.column) ++ values)
  | last {values : List Row} (hnulls : term.nulls = some .last)
      (hvalues : sortedBy term.column term.desc
        (rows.filter (!isNull term.column ·)) = .ok values) :
      RoundParts term rows (values ++ rows.filter (isNull term.column))
  | plain {values : List Row} (hnulls : term.nulls = none)
      (hvalues : sortedBy term.column term.desc rows = .ok values) :
      RoundParts term rows values

theorem roundParts_of_orderPass (hpass : orderPass rows order = .ok sorted) :
    RoundParts (sqlOrderTerm order) rows sorted := by
  unfold orderPass at hpass
  by_cases hfirst : PyString.startsWith order nullsFirst = true
  · have hterm : sqlOrderTerm order = orderTermOf
        (PyString.dropFirst order nullsFirst.length) (some .first) := if_pos hfirst
    rw [if_pos hfirst] at hpass
    unfold orderNulls at hpass
    simp only [splitReverse_eq _ (some .first), ← hterm] at hpass
    rcases bind_eq_ok_iff.mp hpass with ⟨parts, hparts, hpass⟩
    rcases bind_eq_ok_iff.mp hparts with ⟨values, hvalues, hparts⟩
    cases hparts
    cases hpass
    exact .first (by rw [hterm, orderTermOf_nulls]) hvalues
  · by_cases hlast : PyString.startsWith order nullsLast = true
    · have hterm : sqlOrderTerm order = orderTermOf
          (PyString.dropFirst order nullsLast.length) (some .last) :=
        (if_neg hfirst).trans (if_pos hlast)
      rw [if_neg hfirst, if_pos hlast] at hpass
      unfold orderNulls at hpass
      simp only [splitReverse_eq _ (some .last), ← hterm] at hpass
      rcases bind_eq_ok_iff.mp hpass with ⟨parts, hparts, hpass⟩
      rcases bind_eq_ok_iff.mp hparts with ⟨values, hvalues, hparts⟩
      cases hparts
      cases hpass
      exact .last (by rw [hterm, orderTermOf_nulls]) hvalues
    · have hterm : sqlOrderTerm order = orderTermOf order none :=
        (if_neg hfirst).trans (if_neg hlast)
      rw [if_neg hfirst, if_neg hlast] at hpass
      unfold orderNoNull at hpass
      rw [splitReverse_eq order none, ← hterm] at hpass
      exact .plain (by rw [hterm, orderTermOf_nulls]) hpass

theorem RoundParts.perm {term : OrderTerm} (hcolumn : IsColumn term.column)
    (hparts : RoundParts term rows sorted) : sorted.Perm rows := by
  cases hparts with
  | first hnulls hvalues =>
    exact ((sortedBy_perm hcolumn hvalues).append_left _).trans
      (rows.filter_append_perm (isNull term.column))
  | last hnulls hvalues =>
    exact (perm_append_comm.trans ((sortedBy_perm hcolumn hvalues).append_left _)).trans
        (rows.filter_append_perm (isNull term.column))
  | plain hnulls hvalues => exact sortedBy_perm hcolumn hvalues

theorem values_keepsTies {term : OrderTerm} (hcolumn : IsColumn term.column)
    (hcomparable : MutuallyComparable (columnValues term.column rows))
    (hsorted : sortedBy term.column term.desc (rows.filter (!isNull term.column ·)) = .ok sorted) :
    KeepsTies term.NotAfter (rows.filter (!isNull term.column ·)) sorted := by
  have hvalue : ∀ row ∈ rows.filter (!isNull term.column ·), isNull term.column row = false := by
    simp
  have hsubset : columnValues term.column
      (rows.filter (!isNull term.column ·)) ⊆ columnValues term.column rows := by
    intro value hmem
    rcases hmem with ⟨row, hrow, hmem⟩
    exact ⟨row, (mem_filter.mp hrow).1, hmem⟩
  refine (sortedBy_keepsTies hcolumn (hcomparable.mono hsubset) hvalue hsorted).congr ?_
  intro a ha b hb
  exact (notAfter_iff_of_values (hvalue a ha) (hvalue b hb)).mp

theorem RoundParts.keepsTies (horder : Orderable rows order)
    (hparts : RoundParts (sqlOrderTerm order) rows sorted) :
    KeepsTies (sqlOrderTerm order).NotAfter rows sorted := by
  have hcross : ∀ a b : Row, isNull (sqlOrderTerm order).column a = true →
      isNull (sqlOrderTerm order).column b = false → ¬((sqlOrderTerm order).NotAfter a b ∧
          (sqlOrderTerm order).NotAfter b a) := by
    intro a b ha hb hboth
    rw [(notAfter_null_value ha hb).1, (notAfter_null_value ha hb).2] at hboth
    simp_all
  cases hparts with
  | first hnulls hvalues =>
    refine (KeepsTies.refl _ _).append (values_keepsTies horder.column horder.comparable hvalues) ?_
    intro a _ b _ ha hb
    exact hcross a b ha hb
  | last hnulls hvalues =>
    refine (values_keepsTies horder.column horder.comparable hvalues).append ?_ ?_
    · simpa using KeepsTies.refl _ _
    · intro a _ b _ ha hb hboth
      exact hcross b a (by simpa using hb) (by simpa using ha) hboth.symm
  | plain hnulls hvalues =>
    have hnone := horder.noNulls hnulls
    refine (sortedBy_keepsTies horder.column horder.comparable hnone hvalues).congr ?_
    intro a ha b hb
    exact (notAfter_iff_of_values (hnone a ha) (hnone b hb)).mp

theorem doOrder_cons_eq_ok_iff {rest : List String} : doOrder rows (order :: rest) = .ok sorted ↔
    ∃ first, orderPass rows order = .ok first ∧ doOrder first rest = .ok sorted := by
  unfold doOrder
  rw [foldlM_cons, bind_eq_ok_iff]

variable (horder : ∀ order ∈ orderBy, Orderable rows order)

include horder

theorem doOrder_keepsTies {start : List Row} {done : List String}
    (hperm : rows.Perm start) (hties : KeepsTies (SqlNotAfter done) start rows)
    (hsorted : doOrder rows orderBy = .ok sorted) :
    KeepsTies (SqlNotAfter (orderBy.reverse ++ done)) start sorted := by
  induction orderBy generalizing rows done with
  | nil =>
    cases hsorted
    exact hties
  | cons order rest ih =>
    rcases doOrder_cons_eq_ok_iff.mp hsorted with ⟨first, hfirst, hrest⟩
    rw [forall_mem_cons] at horder
    have hparts := roundParts_of_orderPass hfirst
    have hfirstPerm := hparts.perm horder.1.column
    have hround : KeepsTies (SqlNotAfter (order :: done)) start first :=
      hties.trans (hparts.keepsTies horder.1) hperm
    have hlater := ih (fun other hother => (horder.2 other hother).of_perm hfirstPerm)
      (hfirstPerm.trans hperm) hround hrest
    simpa using hlater

/-- The order that `do_order` gives, as far as it is determined: all of it. -/
structure Arranged (orderBy : List String) (rows sorted : List Row) : Prop where
  perm : sorted.Perm rows
  ordered : SqlOrdered orderBy.reverse sorted
  ties : KeepsTies (SqlNotAfter orderBy.reverse) rows sorted

theorem doOrder_arranged : ∃ sorted, doOrder rows orderBy = .ok sorted ∧
    Arranged orderBy rows sorted := by
  have hnil : SqlOrdered [] rows := pairwise_of_forall_mem_list fun _ _ _ _ => trivial
  rcases doOrder_sorted horder hnil with ⟨sorted, hsorted, hperm, hordered⟩
  have hties := doOrder_keepsTies horder (List.Perm.refl rows)
    (KeepsTies.refl (SqlNotAfter []) rows) hsorted
  rw [append_nil] at hordered hties
  exact ⟨sorted, hsorted, hperm, hordered, hties⟩

theorem sqlNotAfter_refl : ∀ row ∈ rows, SqlNotAfter orderBy.reverse row row := by
  intro row hrow
  apply lex_of_ties
  intro le hle
  rcases mem_map.mp hle with ⟨order, hmem, heq⟩
  have hself := notAfter_refl (horder order (mem_reverse.mp hmem)) hrow
  rw [← heq]
  exact ⟨hself, hself⟩

theorem sqlNotAfter_trans : ∀ a ∈ rows, ∀ b ∈ rows, ∀ c ∈ rows, SqlNotAfter orderBy.reverse a b →
    SqlNotAfter orderBy.reverse b c → SqlNotAfter orderBy.reverse a c := by
  apply StableSort.lex_trans
  intro le hle
  rcases mem_map.mp hle with ⟨order, hmem, heq⟩
  rw [← heq]
  exact notAfter_term_trans (horder order (mem_reverse.mp hmem))

theorem Arranged.eq {first second : List Row} (hfirst : Arranged orderBy rows first)
    (hsecond : Arranged orderBy rows second) : first = second :=
  eq_of_keepsTies hfirst.perm hsecond.perm hfirst.ordered hsecond.ordered
    (sqlNotAfter_refl horder) (sqlNotAfter_trans horder) hfirst.ties
    hsecond.ties

omit horder

theorem doOrder_ne_ok_of_nulls (hmem : order ∈ orderBy)
    (hcolumns : ∀ order ∈ orderBy, IsColumn (sqlOrderTerm order).column)
    (hplain : (sqlOrderTerm order).nulls = none) (hlength : 2 ≤ rows.length)
    (hnulls : ∀ row ∈ rows, isNull (sqlOrderTerm order).column row = true)
    (sorted : List Row) : doOrder rows orderBy ≠ .ok sorted := by
  induction orderBy generalizing rows with
  | nil => simp at hmem
  | cons first rest ih =>
    intro hsorted
    rcases doOrder_cons_eq_ok_iff.mp hsorted with ⟨next, hnext, hrest⟩
    rw [forall_mem_cons] at hcolumns
    have hparts := roundParts_of_orderPass hnext
    rcases mem_cons.mp hmem with heq | hlater
    · subst heq
      cases hparts with
      | first hsome _ => simp [hplain] at hsome
      | last hsome _ => simp [hplain] at hsome
      | plain _ hvalues =>
        exact sortedBy_ne_ok_of_nulls hcolumns.1 hlength hnulls _ hvalues
    · have hperm := hparts.perm hcolumns.1
      refine ih hlater hcolumns.2 ?_ ?_ hrest
      · rwa [hperm.length_eq]
      · intro row hrow
        exact hnulls row (hperm.mem_iff.mp hrow)

theorem sqlNotAfter_iff_of_pair {a b : Row} (horder : ∀ order ∈ orderBy, Orderable [a, b] order)
    (harranged : Arranged orderBy [a, b] sorted) :
    SqlNotAfter orderBy.reverse a b ↔ sorted = [a, b] := by
  constructor
  · intro hab
    apply Arranged.eq horder harranged
    exact ⟨List.Perm.refl _, by simpa [SqlOrdered] using hab, KeepsTies.refl _ _⟩
  · intro heq
    have hordered := harranged.ordered
    rw [heq] at hordered
    simpa [SqlOrdered] using hordered

end Middlewared
