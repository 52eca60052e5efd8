import Middlewared.FilterArrangement

/-!
# Selecting and ordering

`filter_list` selects before it orders, so that `do_order` sees of an entry only what is selected;
a key that is not selected looks like one that is null in every entry.
-/

namespace Middlewared

open StableSort List

/-! ## Projection -/

def addKey (row entry : Row) (key : String) : Row :=
  match row.lookup key with
  | none => entry
  | some value => setItem entry key value

def projection (keys : List String) (row : Row) : Row :=
  if keys.isEmpty then row else keys.foldl (addKey row) []

def QueryResult.map (f : Row → Row) : QueryResult → QueryResult
  | .rows list => .rows (list.map f)
  | .entry row => .entry (f row)
  | .count number => .count number

theorem lookup_setItem (entry : Row) (key other : String) (value : PyValue) :
    (setItem entry key value).lookup other =
      if other = key then some value else entry.lookup other := by
  have hany : entry.any (·.1 = key) = true ↔ (entry.lookup key).isSome := by
    simp
  unfold setItem
  cases hlookup : entry.lookup key with
  | none =>
    rw [hlookup] at hany
    rw [if_neg (by simp [hany]), lookup_append, Dict.lookup_cons_ite]
    by_cases hother : other = key
    · simp [hother, hlookup]
    · simp [hother]
  | some old =>
    have hset := Dict.lookup_setEntries key other value entry
    rw [hlookup] at hany hset
    rw [if_pos (hany.mpr rfl)]
    exact hset

theorem selectPath_column {row : Row} {key : String} (hkey : IsColumn key) :
    selectPath (.dict row) key = .ok ([key], row.lookup key) := by
  have hne : key.toList ≠ [] := by
    intro hnil
    exact hkey.1 (String.toList_eq_nil_iff.mp hnil)
  rcases exists_cons_of_ne_nil hne with ⟨c, rest, hcons⟩
  have hpart : partition (c :: rest) = .ok (key.toList, []) := by
    unfold partition
    rw [← hcons, partitionFrom_of_not_mem hkey.2]
    simp
  simp only [selectPath]
  rw [hcons, length_cons, selectLoop, hpart]
  simp [selectLoop]

theorem selectOne_column (row entry : Row) {key : String} (hkey : IsColumn key) :
    selectOne row entry (.path key) = .ok (addKey row entry key) := by
  simp only [selectOne, selectPath_column hkey, ok_bind, addKey]
  cases row.lookup key with
  | none => rfl
  | some value => rfl

variable {keys : List String}

theorem foldlM_selectOne (hkeys : ∀ key ∈ keys, IsColumn key) (row entry : Row) :
    (keys.map Select.path).foldlM (selectOne row) entry = .ok (keys.foldl (addKey row) entry) := by
  induction keys generalizing entry with
  | nil => rfl
  | cons key rest ih =>
    rw [forall_mem_cons] at hkeys
    rw [map_cons, foldlM_cons, selectOne_column row entry hkeys.1, ok_bind, ih hkeys.2]
    rfl

theorem selected_eq (hkeys : ∀ key ∈ keys, IsColumn key) (row : Row) :
    selected (keys.map Select.path) row = .ok (projection keys row) := by
  unfold selected projection
  rw [isEmpty_map, foldlM_selectOne hkeys]
  split_ifs <;> rfl

theorem lookup_addKey (row entry : Row) (key other : String) : (addKey row entry key).lookup other =
    if other = key then (row.lookup key).or (entry.lookup key)
    else entry.lookup other := by
  unfold addKey
  cases row.lookup key with
  | none =>
    by_cases hother : other = key
    · simp [hother]
    · simp [hother]
  | some value => simp [lookup_setItem]

theorem lookup_foldl_addKey (row : Row) (keys : List String) (entry : Row) (other : String) :
    (keys.foldl (addKey row) entry).lookup other =
      if other ∈ keys then (row.lookup other).or (entry.lookup other)
      else entry.lookup other := by
  induction keys generalizing entry with
  | nil => simp
  | cons key rest ih =>
    rw [foldl_cons, ih, lookup_addKey]
    by_cases hother : other = key
    · subst hother
      by_cases hrest : other ∈ rest
      · simp [hrest, ← Option.or_assoc]
      · simp [hrest]
    · simp [hother]

theorem lookup_projection (hne : keys ≠ []) (row : Row) (key : String) :
    (projection keys row).lookup key = if key ∈ keys then row.lookup key else none := by
  rw [projection, if_neg (by simpa using hne), lookup_foldl_addKey]
  simp

theorem projection_nil (row : Row) : projection [] row = row := rfl

section

variable {rt : PyRuntime} {keys : List String}

variable (hkeys : ∀ key ∈ keys, IsColumn key)

include hkeys

theorem doSelect_eq (rows : List Row) : doSelect rows (keys.map Select.path) =
    .ok (rows.map fun row => keys.foldl (addKey row) []) := by
  unfold doSelect
  induction rows with
  | nil => rfl
  | cons row rest ih =>
    rw [mapM_cons, foldlM_selectOne hkeys, ih]
    rfl

theorem doFilters_select (filters : List PyValue) (maps : ValueMaps)
    (getter : Option Getter) (rows : List Row) :
    doFilters rt filters (keys.map Select.path) false maps getter rows =
      (doFilters rt filters [] false maps getter rows).map (List.map (projection keys)) := by
  induction rows generalizing getter with
  | nil => rfl
  | cons row rest ih =>
    have hrow : selected [] row = .ok row := rfl
    rw [doFilters, doFilters]
    simp only [selected_eq hkeys, hrow, ok_bind, ih]
    cases filters.allM (evalFilter rt (getter.or (getterFn row)) maps
        (.dict row) (maxFiltersDepth + 1)) with
    | error error => rfl
    | ok valid =>
      cases valid with
      | false => rfl
      | true =>
        cases doFilters rt filters [] false maps (getter.or (getterFn row)) rest with
        | error error => rfl
        | ok others => rfl

theorem filteredRows_select (rows : List Row) (filters : List PyValue) :
    filteredRows rt rows filters (keys.map Select.path) false =
      (filteredRows rt rows filters [] false).map (List.map (projection keys)) := by
  unfold filteredRows
  by_cases hfilters : filters.isEmpty = true
  · rw [if_pos hfilters, if_pos hfilters, isEmpty_map, doSelect_eq hkeys]
    cases keys with
    | nil =>
      change Except.ok rows = Except.ok (rows.map (projection []))
      rw [map_congr_left fun row _ => projection_nil row, List.map_id']
    | cons key rest => rfl
  · rw [if_neg hfilters, if_neg hfilters]
    cases validateFilters rt (maxFiltersDepth + 1) filters with
    | error error => rfl
    | ok recorded => exact doFilters_select hkeys filters _ none rows

omit hkeys

theorem doFilters_shortcircuit {filters : List PyValue}
    {select : List Select} {maps : ValueMaps} {getter : Option Getter}
    {rows found : List Row}
    (hfound : doFilters rt filters select false maps getter rows = .ok found) :
    doFilters rt filters select true maps getter rows = .ok (found.take 1) := by
  induction rows generalizing getter found with
  | nil =>
    cases hfound
    rfl
  | cons row rest ih =>
    rw [doFilters] at hfound ⊢
    rcases bind_eq_ok_iff.mp hfound with ⟨valid, hvalid, hfound⟩
    rw [hvalid, ok_bind]
    cases valid with
    | false => exact ih hfound
    | true =>
      rcases bind_eq_ok_iff.mp hfound with ⟨entry, hentry, hfound⟩
      rcases bind_eq_ok_iff.mp hfound with ⟨others, _, hfound⟩
      cases hfound
      rw [if_pos rfl, hentry]
      rfl

end

theorem filterList_select_orderBy (rt : PyRuntime) (rows : List Row)
    (filters : List PyValue) (select : List Select) (orderBy : List String) :
    filterList rt rows filters { select, orderBy } =
      (do
        let found ← filteredRows rt rows filters select false
        let ordered ← doOrder found orderBy
        .ok (.rows ordered)) := by
  unfold filterList
  simp [validateOptions]

theorem doGet_eq (rows : List Row) : doGet rows =
      match rows.head? with
      | none => .error .matchNotFound
      | some row => .ok (.entry row) := by
  cases rows <;> rfl

theorem filteredRows_shortcircuit {rt : PyRuntime} {rows found : List Row}
    {filters : List PyValue} {select : List Select}
    (hfound : filteredRows rt rows filters select false = .ok found) :
    filteredRows rt rows filters select true =
      .ok (if filters = [] then found else found.take 1) := by
  unfold filteredRows at hfound ⊢
  cases filters with
  | nil => simpa using hfound
  | cons filter rest =>
    rcases bind_eq_ok_iff.mp hfound with ⟨recorded, hrecorded, hfound⟩
    rw [hrecorded]
    exact doFilters_shortcircuit hfound

theorem filterList_get {rt : PyRuntime} {rows : List Row}
    {filters : List PyValue} {select : List Select} {orderBy : List String}
    {result : List Row}
    (hresult : filterList rt rows filters { select, orderBy } = .ok (.rows result)) :
    filterList rt rows filters { select, orderBy, get := true } =
      match result.head? with
      | none => .error .matchNotFound
      | some row => .ok (.entry row) := by
  rw [filterList_select_orderBy] at hresult
  rcases bind_eq_ok_iff.mp hresult with ⟨found, hfound, hresult⟩
  rcases bind_eq_ok_iff.mp hresult with ⟨ordered, hordered, hresult⟩
  cases hresult
  rw [← doGet_eq]
  have hvalid : validateOptions { select, orderBy, get := true } = .ok () := rfl
  unfold filterList
  rw [hvalid, ok_bind]
  cases orderBy with
  | nil =>
    cases hordered
    simp only [isEmpty_nil, Bool.and_self, filteredRows_shortcircuit hfound, ok_bind]
    have hfirst : doGet (result.take 1) = doGet result := by
      cases result <;> rfl
    by_cases hfilters : filters = []
    · simp [hfilters, doOrder]
    · simp [hfilters, hfirst]
  | cons order rest =>
    simp only [isEmpty_cons, Bool.and_false, hfound, ok_bind, hordered]
    simp

section

variable {keys orderBy : List String} {pool rows : List Row}

/-- The order of the entries shows in what is selected of them. -/
structure OrderShows (keys orderBy : List String) (pool : List Row) :
    Prop where
  noNulls : ∀ order ∈ orderBy, (sqlOrderTerm order).nulls = none → ∀ row ∈ pool,
      isNull (sqlOrderTerm order).column (projection keys row) = false
  sameOrder : ∀ a ∈ pool, ∀ b ∈ pool, projection keys a ≠ projection keys b →
    (SqlNotAfter orderBy.reverse a b ↔
      SqlNotAfter orderBy.reverse (projection keys a) (projection keys b))

theorem lookup_projection_cases (keys : List String) (column : String) :
    (∀ row, (projection keys row).lookup column = row.lookup column) ∨
      ∀ row, (projection keys row).lookup column = none := by
  by_cases hne : keys = []
  · subst hne
    exact Or.inl fun _ => rfl
  · by_cases hmem : column ∈ keys
    · exact Or.inl fun row => by rw [lookup_projection hne, if_pos hmem]
    · exact Or.inr fun row => by rw [lookup_projection hne, if_neg hmem]

theorem columnValues_projection (column : String) (rows : List Row) :
    columnValues column (rows.map (projection keys)) ⊆ columnValues column rows := by
  intro value hvalue
  rcases hvalue with ⟨projected, hprojected, hnull, hvalue⟩
  rcases mem_map.mp hprojected with ⟨row, hrow, heq⟩
  subst heq
  rcases lookup_projection_cases keys column with hsame | hnone
  · refine ⟨row, hrow, ?_, ?_⟩
    · rwa [isNull, hsame] at hnull
    · rwa [valueOf, hsame] at hvalue
  · rw [isNull, hnone] at hnull
    cases hnull

theorem Orderable.projection {order : String} (horder : Orderable rows order)
    (hnoNulls : (sqlOrderTerm order).nulls = none → ∀ row ∈ rows, isNull (sqlOrderTerm order).column
        (Middlewared.projection keys row) = false) :
    Orderable (rows.map (Middlewared.projection keys)) order where
  column := horder.column
  comparable := horder.comparable.mono (columnValues_projection _ rows)
  noNulls := by
    intro hnulls projected hprojected
    rcases mem_map.mp hprojected with ⟨row, hrow, heq⟩
    rw [← heq]
    exact hnoNulls hnulls row hrow

theorem Arranged.map_projection (horder : ∀ order ∈ orderBy, Orderable rows order)
    (hshows : OrderShows keys orderBy rows) {sorted : List Row}
    (harranged : Arranged orderBy rows sorted) :
    Arranged orderBy (rows.map (projection keys)) (sorted.map (projection keys)) where
  perm := harranged.perm.map _
  ordered := by
    unfold SqlOrdered
    rw [pairwise_map]
    refine harranged.ordered.imp_of_mem ?_
    intro a b ha hb hab
    rw [harranged.perm.mem_iff] at ha hb
    by_cases hsame : projection keys a = projection keys b
    · rw [hsame]
      refine @sqlNotAfter_refl orderBy (rows.map (projection keys)) ?_ _ (mem_map_of_mem hb)
      intro order hmem
      exact (horder order hmem).projection (hshows.noNulls order hmem)
    · exact (hshows.sameOrder a ha b hb hsame).mp hab
  ties := by
    refine harranged.ties.map_of_agree harranged.perm (sqlNotAfter_trans horder) _ _ ?_
    intro a ha b hb hne
    exact (hshows.sameOrder a ha b hb hne).mpr

theorem doOrder_projection (horder : ∀ order ∈ orderBy, Orderable rows order)
    (hshows : OrderShows keys orderBy rows) :
    doOrder (rows.map (projection keys)) orderBy =
      (doOrder rows orderBy).map (List.map (projection keys)) := by
  have horderProjected : ∀ order ∈ orderBy, Orderable (rows.map (projection keys)) order :=
    fun order hmem =>
      (horder order hmem).projection (hshows.noNulls order hmem)
  rcases doOrder_arranged horder with ⟨sorted, hsorted, harranged⟩
  rcases doOrder_arranged horderProjected with ⟨other, hother, hotherArranged⟩
  rw [hsorted, hother, Arranged.eq horderProjected hotherArranged
    (harranged.map_projection horder hshows)]
  rfl

theorem OrderShows.of_subset (hshows : OrderShows keys orderBy pool)
    (hsubset : rows ⊆ pool) : OrderShows keys orderBy rows where
  noNulls order hmem hplain row hrow := hshows.noNulls order hmem hplain row (hsubset hrow)
  sameOrder a ha b hb := hshows.sameOrder a (hsubset ha) b (hsubset hb)

theorem orderShows_of_pairs (horder : ∀ order ∈ orderBy, Orderable pool order)
    (hpairs : ∀ a ∈ pool, ∀ b ∈ pool, doOrder ([a, b].map (projection keys)) orderBy =
        (doOrder [a, b] orderBy).map (List.map (projection keys))) :
    OrderShows keys orderBy pool := by
  have hpairOrder : ∀ a ∈ pool, ∀ b ∈ pool, ∀ order ∈ orderBy, Orderable [a, b] order := by
    intro a ha b hb order hmem
    apply (horder order hmem).of_subset
    simp [ha, hb]
  have hnoNulls : ∀ order ∈ orderBy, (sqlOrderTerm order).nulls = none → ∀ row ∈ pool,
        isNull (sqlOrderTerm order).column (projection keys row) = false := by
    intro order hmem hplain row hrow
    by_contra hnull
    rcases doOrder_arranged (hpairOrder row hrow row hrow) with
      ⟨sorted, hsorted, _⟩
    have hprojected := hpairs row hrow row hrow
    rw [hsorted] at hprojected
    refine doOrder_ne_ok_of_nulls hmem
      (fun other hother => (horder other hother).column) hplain ?_ ?_ _ hprojected
    · simp
    · simpa using hnull
  refine ⟨hnoNulls, ?_⟩
  intro a ha b hb hne
  have horderProjected : ∀ order ∈ orderBy, Orderable ([a, b].map (projection keys)) order := by
    intro order hmem
    apply (hpairOrder a ha b hb order hmem).projection
    intro hplain row hrow
    apply hnoNulls order hmem hplain
    simp only [mem_cons, not_mem_nil, or_false] at hrow
    rcases hrow with heq | heq <;> simp [heq, ha, hb]
  rcases doOrder_arranged (hpairOrder a ha b hb) with
    ⟨sorted, hsorted, harranged⟩
  rcases doOrder_arranged horderProjected with ⟨other, hother, hprojected⟩
  have hsame := hpairs a ha b hb
  rw [hsorted, hother] at hsame
  have hmapped : other = sorted.map (projection keys) := Except.ok.inj hsame
  rw [sqlNotAfter_iff_of_pair (hpairOrder a ha b hb) harranged,
    sqlNotAfter_iff_of_pair horderProjected hprojected, hmapped]
  constructor
  · intro heq
    rw [heq]
    rfl
  · intro heq
    cases sorted with
    | nil => simp at heq
    | cons x rest =>
      have hx := harranged.perm.mem_iff.mp mem_cons_self
      simp only [mem_cons, not_mem_nil, or_false] at hx
      rcases hx with hxa | hxb
      · subst hxa
        have hrest := harranged.perm.cons_inv
        rw [perm_singleton] at hrest
        rw [hrest]
      · subst hxb
        exact absurd (List.cons.inj heq).1.symm hne

end

/-! ## The result -/

section

variable {rt : PyRuntime} {keys orderBy : List String} {pool rows : List Row}

variable {filters : List PyValue} {found : List Row}

theorem doFilters_sublist {maps : ValueMaps} {getter : Option Getter}
    (hfound : doFilters rt filters [] false maps getter rows = .ok found) :
    found.Sublist rows := by
  induction rows generalizing getter found with
  | nil =>
    cases hfound
    exact List.Sublist.refl []
  | cons row rest ih =>
    rcases doFilters_cons_eq_ok_iff.mp hfound with
      ⟨valid, _, others, hothers, heq⟩
    rw [heq]
    split_ifs
    · exact (ih hothers).cons_cons row
    · exact (ih hothers).cons row

theorem filteredRows_subset (hfound : filteredRows rt rows filters [] false = .ok found) :
    found ⊆ rows := by
  unfold filteredRows at hfound
  by_cases hfilters : filters.isEmpty = true
  · rw [if_pos hfilters] at hfound
    cases hfound
    exact List.Subset.refl rows
  · rw [if_neg hfilters] at hfound
    rcases bind_eq_ok_iff.mp hfound with ⟨recorded, _, hfound⟩
    exact (doFilters_sublist hfound).subset

theorem filterList_select_eq_iff (hkeys : ∀ key ∈ keys, IsColumn key)
    (hfound : filteredRows rt rows filters [] false = .ok found) :
    filterList rt rows filters { select := keys.map Select.path, orderBy } =
      (filterList rt rows filters { orderBy }).map (QueryResult.map (projection keys)) ↔
    doOrder (found.map (projection keys)) orderBy =
      (doOrder found orderBy).map (List.map (projection keys)) := by
  rw [filterList_select_orderBy, filterList_select_orderBy, filteredRows_select hkeys, hfound]
  change (doOrder (found.map (projection keys)) orderBy >>= fun ordered =>
      Except.ok (QueryResult.rows ordered)) =
    Except.map (QueryResult.map (projection keys)) (doOrder found orderBy >>= fun ordered =>
        Except.ok (QueryResult.rows ordered)) ↔ _
  cases doOrder (found.map (projection keys)) orderBy <;>
    cases doOrder found orderBy <;> simp [Except.map, QueryResult.map]

/-- `get` gives the first of the entries that are found without it. -/
def GetsFirst (rt : PyRuntime) (rows : List Row) (filters : List PyValue) :
    Prop :=
  ∀ select orderBy result, filterList rt rows filters { select, orderBy } = .ok (.rows result) →
      filterList rt rows filters { select, orderBy, get := true } =
        match result.head? with
        | none => .error .matchNotFound
        | some row => .ok (.entry row)

/-- For entries out of a given stock, selecting is a projection of what is
ordered exactly if the order shows in what is selected; `get` always gives the
first entry. -/
theorem filterList_select_iff (rt : PyRuntime) (hkeys : ∀ key ∈ keys, IsColumn key)
    (horder : ∀ order ∈ orderBy, Orderable pool order) :
    (∀ rows filters, rows ⊆ pool → filterList rt rows filters
          { select := keys.map Select.path, orderBy } =
        (filterList rt rows filters { orderBy }).map (QueryResult.map (projection keys)) ∧
      GetsFirst rt rows filters) ↔
    OrderShows keys orderBy pool := by
  constructor
  · intro hall
    apply orderShows_of_pairs horder
    intro a ha b hb
    have hfound : filteredRows rt [a, b] [] [] false = .ok [a, b] := rfl
    rw [← filterList_select_eq_iff hkeys hfound]
    apply (hall [a, b] [] _).1
    simp [ha, hb]
  · intro hshows rows filters hsubset
    refine ⟨?_, fun _ _ _ => filterList_get⟩
    cases hfound : filteredRows rt rows filters [] false with
    | error error =>
      rw [filterList_select_orderBy, filterList_select_orderBy, filteredRows_select hkeys, hfound]
      rfl
    | ok found =>
      have hfoundSubset := List.Subset.trans (filteredRows_subset hfound) hsubset
      rw [filterList_select_eq_iff hkeys hfound]
      apply doOrder_projection
      · intro order hmem
        exact (horder order hmem).of_subset hfoundSubset
      · exact hshows.of_subset hfoundSubset

end

theorem notAfter_projection (id gid id' gid' : ℤ) :
    (sqlOrderTerm "-id").NotAfter (projection ["id"] (groupRow id gid))
      (projection ["id"] (groupRow id' gid')) ↔ id' ≤ id :=
  notAfter_of_ints rfl rfl

theorem groupRows_orderShows : OrderShows ["id"] ["-id"] groupRows where
  noNulls := by
    simp only [groupRows, mem_cons, not_mem_nil, or_false, forall_eq_or_imp, forall_eq]
    decide
  sameOrder := by
    simp [groupRows, SqlNotAfter, StableSort.Lex, StableSort.Then, notAfter_projection,
      notAfter_id_desc]

theorem groupRows_select_id : Orderable groupRows "-id" ∧ ∀ rows filters, rows ⊆ groupRows →
    filterList newYearRuntime rows filters
        { select := ["id"].map Select.path, orderBy := ["-id"] } =
      (filterList newYearRuntime rows filters { orderBy := ["-id"] }).map
        (QueryResult.map (projection ["id"])) ∧
    GetsFirst newYearRuntime rows filters := by
  have horderable : Orderable groupRows "-id" := orderable_groupRows (by decide)
  refine ⟨horderable, (filterList_select_iff newYearRuntime (by decide) ?_).mpr
    groupRows_orderShows⟩
  intro order hmem
  rw [mem_singleton] at hmem
  rwa [hmem]

/-- The key of the order is not among the selected ones. -/
theorem groupRows_orderBy_unselected :
    (∀ order ∈ ["gid", "nulls_first:gid"], Orderable groupRows order) ∧
      filterList newYearRuntime groupRows []
          { select := [.path "id"], orderBy := ["gid"] } = .error .typeError ∧
      filterList newYearRuntime groupRows []
          { select := [.path "id"], orderBy := ["nulls_first:gid"] } =
        .ok (.rows [[("id", .int 1)], [("id", .int 2)]]) ∧
      filterList newYearRuntime groupRows [] { orderBy := ["gid"] } =
        .ok (.rows [groupRow 2 1, groupRow 1 2]) ∧
      filterList newYearRuntime groupRows [] { orderBy := ["nulls_first:gid"] } =
        .ok (.rows [groupRow 2 1, groupRow 1 2]) := by
  refine ⟨?_, rfl, rfl, rfl, rfl⟩
  intro order hmem
  simp only [mem_cons, not_mem_nil, or_false] at hmem
  rcases hmem with heq | heq
  · exact orderable_groupRows (by rw [heq]; decide)
  · exact orderable_groupRows (by rw [heq]; decide)

end Middlewared
