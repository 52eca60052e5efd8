import Middlewared.FilterConjunction
import Middlewared.StableSort

/-!
# Ordering: the database and `filter_list`

`datastore.query` hands `order_by` to the database, which orders by the first key and uses the
next ones for ties.
-/

namespace Middlewared

open StableSort List

inductive NullsPlacement where
  | first
  | last

structure OrderTerm where
  column : String
  desc : Bool
  nulls : Option NullsPlacement

def orderTermOf (order : String) (nulls : Option NullsPlacement) : OrderTerm :=
  if PyString.startsWith order "-" then
    { column := PyString.dropFirst order 1, desc := true, nulls }
  else { column := order, desc := false, nulls }

def sqlOrderTerm (order : String) : OrderTerm :=
  if PyString.startsWith order "nulls_first:" then
    orderTermOf (PyString.dropFirst order "nulls_first:".length) (some .first)
  else if PyString.startsWith order "nulls_last:" then
    orderTermOf (PyString.dropFirst order "nulls_last:".length) (some .last)
  else orderTermOf order none

def valueOf (column : String) (row : Row) : PyValue :=
  (row.lookup column).getD .none

/-- SQLite takes `NULL` for the smallest value unless it is told otherwise. -/
def OrderTerm.nullsFirst (term : OrderTerm) : Bool :=
  match term.nulls with
  | some .first => true
  | some .last => false
  | none => !term.desc

def notAfter (desc : Bool) (a b : PyValue) : Prop :=
  if desc then a.lt b ≠ .ok true else b.lt a ≠ .ok true

def OrderTerm.NotAfter (term : OrderTerm) (a b : Row) : Prop :=
  match isNull term.column a, isNull term.column b with
  | true, true => True
  | true, false => term.nullsFirst = true
  | false, true => term.nullsFirst = false
  | false, false =>
    notAfter term.desc (valueOf term.column a) (valueOf term.column b)

/-- Row `a` does not have to come after row `b`, by a list of keys of which the
first is the most significant. -/
def SqlNotAfter (orderBy : List String) : Row → Row → Prop :=
  Lex (orderBy.map fun order => (sqlOrderTerm order).NotAfter)

def SqlBefore (orderBy : List String) (a b : Row) : Prop :=
  ¬ SqlNotAfter orderBy b a

/-- A result that `ORDER BY` allows. -/
def SqlOrdered (orderBy : List String) (rows : List Row) : Prop :=
  rows.Pairwise (SqlNotAfter orderBy)

/-- Values on which `<` never raises and is an order with ties. -/
structure MutuallyComparable (values : Set PyValue) : Prop where
  compares : ∀ a ∈ values, ∀ b ∈ values, ∃ before, a.lt b = .ok before
  asymm : ∀ a ∈ values, ∀ b ∈ values, a.lt b = .ok true → b.lt a ≠ .ok true
  trans : ∀ a ∈ values, ∀ b ∈ values, ∀ c ∈ values,
    a.lt b ≠ .ok true → b.lt c ≠ .ok true → a.lt c ≠ .ok true

def columnValues (column : String) (rows : List Row) : Set PyValue :=
  { value | ∃ row ∈ rows, isNull column row = false ∧
    valueOf column row = value }

/-- The entries can be ordered by a key: it names a column, its values compare,
and there is no null unless the key says where nulls go. -/
structure Orderable (rows : List Row) (order : String) : Prop where
  column : IsColumn (sqlOrderTerm order).column
  comparable : MutuallyComparable (columnValues (sqlOrderTerm order).column rows)
  noNulls : (sqlOrderTerm order).nulls = none →
    ∀ row ∈ rows, isNull (sqlOrderTerm order).column row = false

variable {rows : List Row} {order : String}

theorem Orderable.of_perm {rows' : List Row} (horder : Orderable rows order)
    (hperm : rows'.Perm rows) : Orderable rows' order where
  column := horder.column
  comparable := by
    have hvalues : columnValues (sqlOrderTerm order).column rows' =
        columnValues (sqlOrderTerm order).column rows := by
      unfold columnValues
      simp only [hperm.mem_iff]
    rw [hvalues]
    exact horder.comparable
  noNulls := by
    intro hnulls row hrow
    exact horder.noNulls hnulls row (hperm.mem_iff.mp hrow)

theorem mutuallyComparable_of_compare {values : Set PyValue} {κ : Type*}
    (key : PyValue → κ) (cmp : κ → κ → Ordering)
    (hcompare : ∀ a ∈ values, ∀ b ∈ values, a.compare? b = .ok (cmp (key a) (key b)))
    (hswap : ∀ x y, cmp y x = (cmp x y).swap)
    (htrans : ∀ x y z, cmp x y ≠ .gt → cmp y z ≠ .gt → cmp x z ≠ .gt) :
    MutuallyComparable values := by
  have hlt : ∀ a ∈ values, ∀ b ∈ values, a.lt b = .ok (decide (cmp (key a) (key b) = .lt)) := by
    intro a ha b hb
    unfold PyValue.lt
    rw [hcompare a ha b hb]
    rfl
  have hgt : ∀ x y, cmp x y = .lt ↔ cmp y x = .gt := by
    intro x y
    rw [hswap x y, Ordering.swap_eq_gt]
  constructor
  · intro a ha b hb
    exact ⟨_, hlt a ha b hb⟩
  · intro a ha b hb
    rw [hlt a ha b hb, hlt b hb a ha]
    simp only [Except.ok.injEq, decide_eq_true_eq, ne_eq]
    intro hab hba
    rw [hgt, hba] at hab
    simp at hab
  · intro a ha b hb c hc
    rw [hlt a ha b hb, hlt b hb c hc, hlt a ha c hc]
    simp only [Except.ok.injEq, decide_eq_true_eq, ne_eq, hgt]
    intro hba hcb
    exact htrans (key c) (key b) (key a) hcb hba

theorem compare_int_trans (x y z : ℤ) (hxy : compare x y ≠ .gt)
    (hyz : compare y z ≠ .gt) : compare x z ≠ .gt := by
  simp only [ne_eq, compare_gt_iff_gt] at *
  omega

theorem compare_int_swap (x y : ℤ) : compare y x = (compare x y).swap := (Int.compare_swap x y).symm

theorem mutuallyComparable_numbers {values : Set PyValue}
    (hnumbers : ∀ a ∈ values, ∃ n, a.asInt? = some n) :
    MutuallyComparable values := by
  apply mutuallyComparable_of_compare (fun v => v.asInt?.getD 0) compare
    ?_ compare_int_swap compare_int_trans
  intro a ha b hb
  obtain ⟨m, hm⟩ := hnumbers a ha
  obtain ⟨n, hn⟩ := hnumbers b hb
  cases a with
  | bool value => simp_all [PyValue.asInt?, PyValue.compare?]
  | int value => simp_all [PyValue.asInt?, PyValue.compare?]
  | none => simp [PyValue.asInt?] at hm
  | str value => simp [PyValue.asInt?] at hm
  | datetime value => simp [PyValue.asInt?] at hm
  | list items => simp [PyValue.asInt?] at hm
  | dict entries => simp [PyValue.asInt?] at hm

def PyValue.chars (value : PyValue) : List Char :=
  match value with
  | .str text => text.toList
  | _ => []

def PyValue.micros (value : PyValue) : ℤ :=
  match value with
  | .datetime stamp => stamp.micros
  | _ => 0

/-! ## One pass -/

section

variable {rows : List Row}

theorem decorate_column {column : String} (hcolumn : IsColumn column) (rows : List Row) :
    decorate column rows = .ok (rows.map fun row => (valueOf column row, row)) := by
  unfold decorate
  induction rows with
  | nil => rfl
  | cons row rest ih =>
    rw [mapM_cons, ih, get_column hcolumn]
    rfl

variable {values : Set PyValue} {reverse : Bool}

variable (hcomparable : MutuallyComparable values)

include hcomparable

theorem staysBefore_iff {a b : PyValue × Row} (ha : a.1 ∈ values) (hb : b.1 ∈ values) :
    staysBefore reverse a b = true ↔ notAfter reverse a.1 b.1 := by
  obtain ⟨before, hbefore⟩ := hcomparable.compares a.1 ha b.1 hb
  obtain ⟨after, hafter⟩ := hcomparable.compares b.1 hb a.1 ha
  unfold staysBefore keyBefore notAfter
  cases reverse with
  | true => simp [hbefore]
  | false => simp [hafter]

theorem notAfter_total {a b : PyValue} (ha : a ∈ values) (hb : b ∈ values) :
    notAfter reverse a b ∨ notAfter reverse b a := by
  have hab := hcomparable.asymm a ha b hb
  cases reverse with
  | true =>
    tauto
  | false =>
    tauto

theorem notAfter_trans {a b c : PyValue} (ha : a ∈ values) (hb : b ∈ values)
    (hc : c ∈ values) (hab : notAfter reverse a b) (hbc : notAfter reverse b c) :
    notAfter reverse a c := by
  cases reverse with
  | true => exact hcomparable.trans a ha b hb c hc hab hbc
  | false => exact hcomparable.trans c hc b hb a ha hbc hab

theorem allCompare_of_comparable {items : List (PyValue × Row)}
    (hitems : ∀ item ∈ items, item.1 ∈ values) : allCompare reverse items = true := by
  have hkey : ∀ a ∈ items, ∀ b ∈ items, (keyBefore reverse a b).isOk = true := by
    intro a ha b hb
    obtain ⟨before, hbefore⟩ := hcomparable.compares a.1 (hitems a ha) b.1 (hitems b hb)
    obtain ⟨after, hafter⟩ := hcomparable.compares b.1 (hitems b hb) a.1 (hitems a ha)
    unfold keyBefore
    cases reverse with
    | true => simp [hafter, Except.isOk, Except.toBool]
    | false => simp [hbefore, Except.isOk, Except.toBool]
  clear hitems
  induction items with
  | nil => rfl
  | cons a rest ih =>
    rw [allCompare, Bool.and_eq_true, List.all_eq_true]
    constructor
    · intro b hb
      rw [Bool.and_eq_true]
      exact ⟨hkey a mem_cons_self b (mem_cons_of_mem a hb),
        hkey b (mem_cons_of_mem a hb) a mem_cons_self⟩
    · apply ih
      intro b hb c hc
      exact hkey b (mem_cons_of_mem a hb) c (mem_cons_of_mem a hc)

omit hcomparable

theorem sortedBy_pass {column : String} (reverse : Bool) (hcolumn : IsColumn column)
    (hcomparable : MutuallyComparable (columnValues column rows))
    (hnulls : ∀ row ∈ rows, isNull column row = false) :
    ∃ sorted, sortedBy column reverse rows = .ok sorted ∧ Pass (fun a b =>
        notAfter reverse (valueOf column a) (valueOf column b)) rows sorted := by
  have hvalues : ∀ item ∈ rows.map fun row => (valueOf column row, row),
      item.1 ∈ columnValues column rows ∧ item.1 = valueOf column item.2 := by
    intro item hitem
    obtain ⟨row, hrow, heq⟩ := mem_map.mp hitem
    rw [← heq]
    exact ⟨⟨row, hrow, hnulls row hrow, rfl⟩, rfl⟩
  have hpass : Pass (fun a b => staysBefore reverse a b = true)
      (rows.map fun row => (valueOf column row, row)) _ :=
    pass_insertionSort (l := rows.map fun row => (valueOf column row, row)) (by
        intro a ha b hb
        rw [staysBefore_iff hcomparable (hvalues a ha).1 (hvalues b hb).1,
          staysBefore_iff hcomparable (hvalues b hb).1 (hvalues a ha).1]
        exact notAfter_total hcomparable (hvalues a ha).1 (hvalues b hb).1)
      (by
        intro a ha b hb c hc hab hbc
        rw [staysBefore_iff hcomparable (hvalues a ha).1 (hvalues b hb).1] at hab
        rw [staysBefore_iff hcomparable (hvalues b hb).1 (hvalues c hc).1] at hbc
        rw [staysBefore_iff hcomparable (hvalues a ha).1 (hvalues c hc).1]
        exact notAfter_trans hcomparable (hvalues a ha).1 (hvalues b hb).1 (hvalues c hc).1 hab hbc)
  have hcompares : allCompare reverse (rows.map fun row => (valueOf column row, row)) = true :=
    allCompare_of_comparable hcomparable fun item hitem => (hvalues item hitem).1
  refine ⟨((rows.map fun row => (valueOf column row, row)).insertionSort
    (staysBefore reverse · ·)).map (·.2), ?_, ?_⟩
  · unfold sortedBy
    rw [decorate_column hcolumn, ok_bind, if_pos hcompares]
  · have hmapped := hpass.map Prod.snd (fun a b =>
      notAfter reverse (valueOf column a) (valueOf column b)) (by
        intro a ha b hb
        rw [staysBefore_iff hcomparable (hvalues a ha).1 (hvalues b hb).1,
          (hvalues a ha).2, (hvalues b hb).2])
    simpa [Function.comp_def] using hmapped

/-! Both paths read the prefixes of a key alike. -/

theorem splitReverse_eq (order : String) (nulls : Option NullsPlacement) : splitReverse order =
    ((orderTermOf order nulls).column, (orderTermOf order nulls).desc) := by
  unfold splitReverse orderTermOf
  split_ifs
  · rfl
  · rfl

theorem orderTermOf_nulls (order : String) (nulls : Option NullsPlacement) :
    (orderTermOf order nulls).nulls = nulls := by
  unfold orderTermOf
  split_ifs
  · rfl
  · rfl

variable {term : OrderTerm}

variable {a b : Row}

theorem notAfter_of_nulls (ha : isNull term.column a = true)
    (hb : isNull term.column b = true) : term.NotAfter a b := by
  unfold OrderTerm.NotAfter
  rw [ha, hb]
  trivial

theorem notAfter_iff_of_values (ha : isNull term.column a = false)
    (hb : isNull term.column b = false) : term.NotAfter a b ↔
    notAfter term.desc (valueOf term.column a) (valueOf term.column b) := by
  unfold OrderTerm.NotAfter
  rw [ha, hb]

theorem notAfter_null_value (ha : isNull term.column a = true) (hb : isNull term.column b = false) :
    (term.NotAfter a b ↔ term.nullsFirst = true) ∧
      (term.NotAfter b a ↔ term.nullsFirst = false) := by
  unfold OrderTerm.NotAfter
  rw [ha, hb]
  exact ⟨Iff.rfl, Iff.rfl⟩

theorem values_pass (hcolumn : IsColumn term.column)
    (hcomparable : MutuallyComparable (columnValues term.column rows)) :
    ∃ sorted, sortedBy term.column term.desc (rows.filter (!isNull term.column ·)) = .ok sorted ∧
      Pass term.NotAfter (rows.filter (!isNull term.column ·)) sorted := by
  have hvalue : ∀ row ∈ rows.filter (!isNull term.column ·), isNull term.column row = false := by
    simp
  have hsame : columnValues term.column
      (rows.filter (!isNull term.column ·)) = columnValues term.column rows := by
    ext value
    unfold columnValues
    simp only [Set.mem_ofPred_eq, mem_filter, Bool.not_eq_true']
    constructor
    · intro hmem
      rcases hmem with ⟨row, hrow, hnull, heq⟩
      exact ⟨row, hrow.1, hnull, heq⟩
    · intro hmem
      rcases hmem with ⟨row, hrow, hnull, heq⟩
      exact ⟨row, ⟨hrow, hnull⟩, hnull, heq⟩
  rw [← hsame] at hcomparable
  obtain ⟨sorted, hsorted, hpass⟩ := sortedBy_pass term.desc hcolumn hcomparable hvalue
  refine ⟨sorted, hsorted, hpass.congr ?_⟩
  intro a ha b hb
  exact (notAfter_iff_of_values (hvalue a ha) (hvalue b hb)).symm

theorem nulls_pass : Pass term.NotAfter (rows.filter (isNull term.column))
    (rows.filter (isNull term.column)) := by
  apply pass_of_ties
  intro a ha b hb
  exact notAfter_of_nulls (mem_filter.mp ha).2 (mem_filter.mp hb).2

theorem nullsFirst_pass {sorted : List Row} (hfirst : term.nullsFirst = true)
    (hpass : Pass term.NotAfter (rows.filter (!isNull term.column ·)) sorted) :
    Pass term.NotAfter rows (rows.filter (isNull term.column) ++ sorted) := by
  apply nulls_pass.append hpass
  intro a _ b _ ha hb
  obtain ⟨hab, hba⟩ := notAfter_null_value ha hb
  rw [hab, hba, hfirst]
  simp

theorem nullsLast_pass {sorted : List Row} (hlast : term.nullsFirst = false)
    (hpass : Pass term.NotAfter (rows.filter (!isNull term.column ·)) sorted) :
    Pass term.NotAfter rows (sorted ++ rows.filter (isNull term.column)) := by
  apply hpass.append
  · simpa using nulls_pass
  · intro a _ b _ ha hb
    have hb' : isNull term.column b = true := by simpa using hb
    have ha' : isNull term.column a = false := by simpa using ha
    obtain ⟨hba, hab⟩ := notAfter_null_value hb' ha'
    rw [hab, hba, hlast]
    simp

theorem orderPass_pass (horder : Orderable rows order) :
    ∃ sorted, orderPass rows order = .ok sorted ∧
      Pass (sqlOrderTerm order).NotAfter rows sorted := by
  obtain ⟨values, hvalues, hpass⟩ := values_pass horder.column horder.comparable
  unfold orderPass
  by_cases hfirst : PyString.startsWith order nullsFirst = true
  · have hterm : sqlOrderTerm order = orderTermOf
        (PyString.dropFirst order nullsFirst.length) (some .first) := if_pos hfirst
    rw [hterm] at hvalues hpass ⊢
    refine ⟨_, ?_, nullsFirst_pass ?_ hpass⟩
    · rw [if_pos hfirst]
      unfold orderNulls
      simp only [splitReverse_eq _ (some .first), hvalues, ok_bind]
    · unfold OrderTerm.nullsFirst
      rw [orderTermOf_nulls]
  · by_cases hlast : PyString.startsWith order nullsLast = true
    · have hterm : sqlOrderTerm order = orderTermOf
          (PyString.dropFirst order nullsLast.length) (some .last) :=
        (if_neg hfirst).trans (if_pos hlast)
      rw [hterm] at hvalues hpass ⊢
      refine ⟨_, ?_, nullsLast_pass ?_ hpass⟩
      · rw [if_neg hfirst, if_pos hlast]
        unfold orderNulls
        simp only [splitReverse_eq _ (some .last), hvalues, ok_bind]
      · unfold OrderTerm.nullsFirst
        rw [orderTermOf_nulls]
    · have hterm : sqlOrderTerm order = orderTermOf order none :=
        (if_neg hfirst).trans (if_neg hlast)
      have hnulls := horder.noNulls (by rw [hterm, orderTermOf_nulls])
      have hall : rows.filter (!isNull (sqlOrderTerm order).column ·) = rows := by
        rw [filter_eq_self]
        intro row hrow
        simp [hnulls row hrow]
      rw [hall] at hvalues hpass
      refine ⟨values, ?_, hpass⟩
      rw [if_neg hfirst, if_neg hlast, ← hvalues, hterm]
      unfold orderNoNull
      rw [splitReverse_eq order none]

end

/-! ## The result -/

theorem doOrder_sorted {orderBy done : List String}
    (horder : ∀ order ∈ orderBy, Orderable rows order)
    (hdone : SqlOrdered done rows) :
    ∃ sorted, doOrder rows orderBy = .ok sorted ∧ sorted.Perm rows ∧
      SqlOrdered (orderBy.reverse ++ done) sorted := by
  induction orderBy generalizing rows done with
  | nil => exact ⟨rows, rfl, List.Perm.refl rows, hdone⟩
  | cons order rest ih =>
    obtain ⟨first, hfirst, hpass⟩ := orderPass_pass (horder order mem_cons_self)
    have hnext : SqlOrdered (order :: done) first := pairwise_lex_of_passes hpass hdone
    obtain ⟨sorted, hsorted, hperm, hordered⟩ := ih (fun other hother => (horder other
        (mem_cons_of_mem order hother)).of_perm hpass.perm) hnext
    refine ⟨sorted, ?_, hperm.trans hpass.perm, ?_⟩
    · unfold doOrder at *
      rw [foldlM_cons, hfirst]
      exact hsorted
    · simpa using hordered

theorem notAfter_refl (horder : Orderable rows order) {row : Row}
    (hrow : row ∈ rows) : (sqlOrderTerm order).NotAfter row row := by
  cases hnull : isNull (sqlOrderTerm order).column row with
  | true => exact notAfter_of_nulls hnull hnull
  | false =>
    rw [notAfter_iff_of_values hnull hnull]
    have hvalue : valueOf (sqlOrderTerm order).column row ∈
        columnValues (sqlOrderTerm order).column rows :=
      ⟨row, hrow, hnull, rfl⟩
    rcases notAfter_total horder.comparable hvalue hvalue with hle | hle
    · exact hle
    · exact hle

/-- `filter_list` returns an order that `ORDER BY` allows exactly when no two
entries are ordered one way by the keys from first to last and the other way by
the keys from last to first. -/
theorem filterList_sqlOrdered_iff (rt : PyRuntime) {rows : List Row} {orderBy : List String}
    (horder : ∀ order ∈ orderBy, Orderable rows order) :
    ∃ sorted, filterList rt rows [] { orderBy } = .ok (.rows sorted) ∧ sorted.Perm rows ∧
      (SqlOrdered orderBy sorted ↔ ∀ a ∈ rows, ∀ b ∈ rows,
        ¬ (SqlBefore orderBy a b ∧ SqlBefore orderBy.reverse b a)) := by
  have hnil : SqlOrdered [] rows := pairwise_of_forall_mem_list fun _ _ _ _ => trivial
  obtain ⟨sorted, hsorted, hperm, hordered⟩ := doOrder_sorted horder hnil
  rw [append_nil] at hordered
  refine ⟨sorted, ?_, hperm, ?_⟩
  · unfold filterList
    simp [validateOptions, filteredRows, hsorted]
  · unfold SqlOrdered SqlBefore SqlNotAfter at *
    rw [pairwise_lex_iff ?_ ?_ hordered]
    · simp only [hperm.mem_iff]
    · intro le
      simp
    · intro le hle row hrow
      obtain ⟨order, hmem, heq⟩ := mem_map.mp hle
      rw [← heq]
      exact notAfter_refl (horder order (mem_reverse.mp hmem)) (hperm.mem_iff.mp hrow)

def groupRow (id gid : ℤ) : Row :=
  [("id", .int id), ("gid", .int gid)]

def groupRows : List Row :=
  [groupRow 1 2, groupRow 2 1]

theorem orderable_groupRows (hcolumn : (sqlOrderTerm order).column ∈ ["id", "gid"]) :
    Orderable groupRows order := by
  have hvalue : ∀ row ∈ groupRows, ∃ n : ℤ,
      row.lookup (sqlOrderTerm order).column = some (.int n) := by
    intro row hrow
    simp only [groupRows, mem_cons, not_mem_nil, or_false] at hrow
    simp only [mem_cons, not_mem_nil, or_false] at hcolumn
    rcases hcolumn with hid | hgid
    · rw [hid]
      rcases hrow with h | h
      · exact ⟨1, by rw [h]; rfl⟩
      · exact ⟨2, by rw [h]; rfl⟩
    · rw [hgid]
      rcases hrow with h | h
      · exact ⟨2, by rw [h]; rfl⟩
      · exact ⟨1, by rw [h]; rfl⟩
  constructor
  · simp only [mem_cons, not_mem_nil, or_false] at hcolumn
    rcases hcolumn with h | h
    · rw [h]
      decide
    · rw [h]
      decide
  · apply mutuallyComparable_numbers
    intro value hmem
    rcases hmem with ⟨row, hrow, _, heq⟩
    obtain ⟨n, hn⟩ := hvalue row hrow
    refine ⟨n, ?_⟩
    rw [← heq]
    unfold valueOf
    rw [hn]
    rfl
  · intro _ row hrow
    obtain ⟨n, hn⟩ := hvalue row hrow
    unfold isNull
    rw [hn]
    rfl

theorem notAfter_of_ints {term : OrderTerm} {a b : Row} {m n : ℤ}
    (ha : a.lookup term.column = some (.int m)) (hb : b.lookup term.column = some (.int n)) :
    term.NotAfter a b ↔ if term.desc then n ≤ m else m ≤ n := by
  unfold OrderTerm.NotAfter isNull valueOf notAfter
  rw [ha, hb]
  have hlt (x y : ℤ) : (PyValue.int x).lt (.int y) = .ok true ↔ x < y := by
    simp [PyValue.lt, PyValue.compare?, PyValue.asInt?, Except.map, compare_lt_iff_lt]
  cases term.desc with
  | false => simp [PyValue.isNone, hlt]
  | true => simp [PyValue.isNone, hlt]

theorem notAfter_gid (id gid id' gid' : ℤ) :
    (sqlOrderTerm "gid").NotAfter (groupRow id gid) (groupRow id' gid') ↔ gid ≤ gid' :=
  notAfter_of_ints rfl rfl

theorem notAfter_id_desc (id gid id' gid' : ℤ) :
    (sqlOrderTerm "-id").NotAfter (groupRow id gid) (groupRow id' gid') ↔ id' ≤ id :=
  notAfter_of_ints rfl rfl

theorem groupRows_orderBy_gid_id : ∃ sorted,
    filterList newYearRuntime groupRows [] { orderBy := ["gid", "-id"] } = .ok (.rows sorted) ∧
      sorted.Perm groupRows ∧ SqlOrdered ["gid", "-id"] sorted := by
  have horder : ∀ order ∈ ["gid", "-id"], Orderable groupRows order := by
    intro order hmem
    simp only [mem_cons, not_mem_nil, or_false] at hmem
    rcases hmem with h | h
    · exact orderable_groupRows (by rw [h]; decide)
    · exact orderable_groupRows (by rw [h]; decide)
  obtain ⟨sorted, hsorted, hperm, hordered⟩ := filterList_sqlOrdered_iff newYearRuntime horder
  refine ⟨sorted, hsorted, hperm, hordered.mpr ?_⟩
  simp [groupRows, SqlBefore, SqlNotAfter, StableSort.Lex, Then, notAfter_gid, notAfter_id_desc]

/-- The last key ends up as the most significant one. -/
theorem groupRows_orderBy_not_sqlOrdered : (∀ order ∈ ["gid", "id"], Orderable groupRows order) ∧
    filterList newYearRuntime groupRows [] { orderBy := ["gid", "id"] } =
        .ok (.rows [groupRow 1 2, groupRow 2 1]) ∧
    ¬ SqlOrdered ["gid", "id"] [groupRow 1 2, groupRow 2 1] := by
  refine ⟨?_, rfl, ?_⟩
  · intro order hmem
    simp only [mem_cons, not_mem_nil, or_false] at hmem
    rcases hmem with h | h
    · exact orderable_groupRows (by rw [h]; decide)
    · exact orderable_groupRows (by rw [h]; decide)
  · intro hordered
    have hfirst := (pairwise_cons.mp hordered).1 (groupRow 2 1) (by simp)
    exact hfirst.1 rfl

end Middlewared
