import Middlewared.DatastoreQuery

/-!
# The two ways of filtering

The database and `filter_list` differ on nulls, on the case of letters and the wildcards of
`LIKE`, on regular expressions, and on disjunctions with lists of conditions as branches.
-/

namespace Middlewared

open List

/-- The values of a column that are not null. -/
def SqlType.Has : SqlType → PyValue → Prop
  | .integer, value => ∃ n, value = .int n ∧ IsInt64 n
  | .text, value => ∃ text, value = .str text

def cell (column : String) (row : Row) : PyValue :=
  (row.lookup column).getD .none

structure SqlTable.WellFormed (table : SqlTable) : Prop where
  nonempty : table.columns ≠ []
  isColumn : ∀ column ∈ table.names, IsColumn (table.stripPrefix column)
  distinct : (table.names.map table.stripPrefix).Nodup
  keys : ∀ row ∈ table.rows, row.map Prod.fst = table.names
  typed : ∀ row ∈ table.rows, ∀ column type, (column, type) ∈ table.columns →
    cell column row = .none ∨ type.Has (cell column row)

def SqlTable.NoNulls (table : SqlTable) (column : String) : Prop :=
  ∀ row ∈ table.rows, (cell column row).isNone = false

/-- A condition on which the database and `filter_list` agree, whatever else
stands around it. -/
inductive OpAgrees (rt : PyRuntime) (table : SqlTable) (column : String)
    (type : SqlType) : String → PyValue → Prop
  | eqNone : OpAgrees rt table column type "=" .none
  | neNone : OpAgrees rt table column type "!=" .none
  | eq {value : PyValue} (hvalue : type.Has value) : OpAgrees rt table column type "=" value
  | compare {op : String} {value : PyValue} (hop : op ∈ ["!=", ">", ">=", "<", "<="])
      (hvalue : type.Has value) (hnulls : table.NoNulls column) :
      OpAgrees rt table column type op value
  | re {pattern : String} (htype : type = .text) (hnulls : table.NoNulls column)
      (hmatch : ∀ row ∈ table.rows, ∀ text, cell column row = .str text →
        ∃ hit, rt.reMatch pattern text = .ok hit ∧ rt.reSearchIgnoreCase pattern text = .ok hit) :
      OpAgrees rt table column type "~" (.str pattern)
  | in {items : List PyValue} (hitems : ∀ item ∈ items, item = .none ∨ type.Has item) :
      OpAgrees rt table column type "in" (.list items)
  | nin {items : List PyValue} (hitems : ∀ item ∈ items, item = .none ∨ type.Has item)
      (hnulls : items = [] → table.NoNulls column) :
      OpAgrees rt table column type "nin" (.list items)
  | startswith {part : String} (htype : type = .text)
      (hlike : ∀ row ∈ table.rows, ∀ text, cell column row = .str text →
        likeMatch (part.toList ++ ['%']) text.toList = true →
        part.toList <+: text.toList) :
      OpAgrees rt table column type "^" (.str part)
  | endswith {part : String} (htype : type = .text)
      (hlike : ∀ row ∈ table.rows, ∀ text, cell column row = .str text →
        likeMatch ('%' :: part.toList) text.toList = true →
        part.toList <:+ text.toList) :
      OpAgrees rt table column type "$" (.str part)

/-- The condition is about a column of the table, by the name it has in the
entries, and its operand is not the name of a timestamp. -/
structure ConditionAgrees (rt : PyRuntime) (table : SqlTable) (name op : String)
    (value : PyValue) (column : String) (type : SqlType) : Prop where
  plain : PyString.containsText name "__" = false
  found : table.getCol name = .ok column
  name_eq : table.stripPrefix column = name
  typed : (column, type) ∈ table.columns
  noTimestamp : ∀ text, value = .str text → PyString.endsWith text timestampDesignator = false
  op : OpAgrees rt table column type op value

inductive FilterAgrees (rt : PyRuntime) (table : SqlTable) : ℕ → PyValue → Prop
  | condition {depth : ℕ} {name op column : String} {value : PyValue} {type : SqlType}
      (hcondition : ConditionAgrees rt table name op value column type) :
      FilterAgrees rt table (depth + 1) (.list [.str name, .str op, value])
  | or {depth : ℕ} {branches : List PyValue} (hne : branches ≠ [])
      (hbranches : ∀ branch ∈ branches, FilterAgrees rt table depth branch) :
      FilterAgrees rt table (depth + 1) (.list [.str "OR", .list branches])

section

variable {type : SqlType} {x y : PyValue}

theorem compareChars_eq_iff {a b : List Char} : PyValue.compareChars a b = .eq ↔ a = b := by
  induction a generalizing b with
  | nil =>
    cases b with
    | nil => simp [PyValue.compareChars]
    | cons d bs => simp [PyValue.compareChars]
  | cons c as ih =>
    cases b with
    | nil => simp [PyValue.compareChars]
    | cons d bs =>
      rw [PyValue.compareChars, Ordering.then_eq_eq, Nat.compare_eq_eq, ih, List.cons.injEq]
      refine and_congr_left fun _ => ?_
      constructor
      · intro hnat
        exact Char.toNat_inj.mp hnat
      · intro heq
        rw [heq]

theorem SqlType.Has.isNone (hx : type.Has x) : x.isNone = false := by
  cases type with
  | integer =>
    rcases hx with ⟨n, hn, _⟩
    rw [hn]
    rfl
  | text =>
    rcases hx with ⟨value, hvalue⟩
    rw [hvalue]
    rfl

theorem compare?_eq (engine : SqlEngine) (hx : type.Has x) (hy : type.Has y) :
    x.compare? y = .ok (engine.compareValues x y) := by
  cases type with
  | integer =>
    rcases hx with ⟨m, hm, _⟩
    rcases hy with ⟨n, hn, _⟩
    rw [hm, hn]
    simp [PyValue.compare?, PyValue.asInt?, SqlEngine.compareValues]
  | text =>
    rcases hx with ⟨s, hs⟩
    rcases hy with ⟨t, ht⟩
    rw [hs, ht]
    simp [PyValue.compare?, SqlEngine.compareValues]

theorem eq_eq (engine : SqlEngine) (hx : type.Has x) (hy : type.Has y) :
    x.eq y = SqlCompare.eq.holds (engine.compareValues x y) := by
  cases type with
  | integer =>
    rcases hx with ⟨m, hm, _⟩
    rcases hy with ⟨n, hn, _⟩
    have hcompare : n = m ↔ compare m n = .eq := by
      rw [compare_eq_iff_eq, eq_comm]
    rw [hm, hn]
    simp [PyValue.eq, PyValue.asInt?, SqlEngine.compareValues, SqlCompare.holds, hcompare]
  | text =>
    rcases hx with ⟨s, hs⟩
    rcases hy with ⟨t, ht⟩
    rw [hs, ht]
    simp [PyValue.eq, SqlEngine.compareValues, SqlCompare.holds,
      compareChars_eq_iff, String.toList_inj]

theorem eq_symm (hx : type.Has x) (hy : type.Has y) : y.eq x = x.eq y := by
  cases type with
  | integer =>
    rcases hx with ⟨m, hm, _⟩
    rcases hy with ⟨n, hn, _⟩
    rw [hm, hn]
    simp [PyValue.eq, PyValue.asInt?, eq_comm]
  | text =>
    rcases hx with ⟨s, hs⟩
    rcases hy with ⟨t, ht⟩
    rw [hs, ht]
    simp [PyValue.eq, eq_comm]

theorem none_eq_value (hx : type.Has x) : PyValue.none.eq x = false ∧ x.eq .none = false := by
  cases type with
  | integer =>
    rcases hx with ⟨m, hm, _⟩
    rw [hm]
    exact ⟨rfl, rfl⟩
  | text =>
    rcases hx with ⟨s, hs⟩
    rw [hs]
    exact ⟨rfl, rfl⟩

end

section

variable {part text : List Char}

theorem likeMatch_append {pattern : List Char} (hpattern : likeMatch pattern text = true) :
    likeMatch (part ++ pattern) (part ++ text) = true := by
  induction part with
  | nil => exact hpattern
  | cons p rest ih =>
    rw [cons_append, likeMatch]
    by_cases hpercent : p = '%'
    · rw [if_pos hpercent, any_eq_true]
      refine ⟨rest ++ text, ?_, ih⟩
      rw [mem_tails]
      exact suffix_cons p (rest ++ text)
    · rw [if_neg hpercent]
      simp [ih]

theorem likeMatch_of_prefix (hfits : part <+: text) : likeMatch (part ++ ['%']) text = true := by
  rcases hfits with ⟨rest, hrest⟩
  rw [← hrest]
  apply likeMatch_append
  rw [likeMatch, if_pos rfl, any_eq_true]
  exact ⟨[], by simp, rfl⟩

theorem likeMatch_of_suffix (hfits : part <:+ text) : likeMatch ('%' :: part) text = true := by
  have hself : likeMatch part part = true := by
    have happend : likeMatch (part ++ []) (part ++ []) = true := likeMatch_append rfl
    rw [append_nil] at happend
    exact happend
  rw [likeMatch, if_pos rfl, any_eq_true]
  exact ⟨part, mem_tails part text |>.mpr hfits, hself⟩

end

/-! ## One condition on one row -/

/-- The expression is true on the row exactly when `hit` says so. -/
def Decides (rt : PyRuntime) (engine : SqlEngine) (row : Row) (expr : SqlExpr)
    (hit : Bool) : Prop :=
  ∃ truth, expr.eval rt engine row = .ok truth ∧ (truth = some true ↔ hit = true)

section

variable {rt : PyRuntime} {engine : SqlEngine} {column : String}
  {type : SqlType} {row : Row} {value : PyValue}

theorem isNull_decides : Decides rt engine row (.isNull column) (cell column row).isNone :=
  ⟨_, rfl, by simp [cell]⟩

theorem isNotNull_decides : Decides rt engine row (.isNotNull column) (!(cell column row).isNone) :=
  ⟨_, rfl, by simp [cell]⟩

theorem eq_none_eq_isNone (hcell : cell column row = .none ∨ type.Has (cell column row)) :
    (cell column row).eq .none = (cell column row).isNone := by
  rcases hcell with hnone | hhas
  · rw [hnone]
    rfl
  · rw [(none_eq_value hhas).2, hhas.isNone]

theorem SqlType.Has.bindParameter (hvalue : type.Has value) :
    Middlewared.bindParameter value = .ok () := by
  cases type with
  | integer =>
    rcases hvalue with ⟨n, hn, hbound⟩
    rw [hn]
    exact if_pos hbound
  | text =>
    rcases hvalue with ⟨t, ht⟩
    rw [ht]
    rfl

theorem compareExpr_of_has (op : SqlCompare) (hvalue : type.Has value) :
    compareExpr op column value = .ok (.compare op column value) := by
  have hbound : bound [value] (.compare op column value) = .ok (.compare op column value) := by
    simp [bound, hvalue.bindParameter]
  cases type with
  | integer =>
    rcases hvalue with ⟨n, hn, _⟩
    rw [hn] at hbound ⊢
    cases op <;> exact hbound
  | text =>
    rcases hvalue with ⟨text, htext⟩
    rw [htext] at hbound ⊢
    cases op <;> exact hbound

theorem compare_decides (op : SqlCompare) (hcell : type.Has (cell column row))
    (hvalue : type.Has value) :
    Decides rt engine row (.compare op column value)
      (op.holds (engine.compareValues (cell column row) value)) := by
  refine ⟨some (op.holds (engine.compareValues (cell column row) value)), ?_, ?_⟩
  · change (if (cell column row).isNone || value.isNone then _ else _) = _
    rw [hcell.isNone, hvalue.isNone]
    rfl
  · simp

theorem eq_decides (hcell : cell column row = .none ∨ type.Has (cell column row))
    (hvalue : type.Has value) :
    Decides rt engine row (.compare .eq column value) ((cell column row).eq value) := by
  rcases hcell with hnone | hhas
  · rw [hnone, (none_eq_value hvalue).1]
    refine ⟨none, ?_, by simp⟩
    change (if (cell column row).isNone || value.isNone then _ else _) = _
    rw [hnone]
    rfl
  · rw [eq_eq engine hhas hvalue]
    exact compare_decides .eq hhas hvalue

theorem compare_agrees {op : String}
    (hop : op ∈ ["!=", ">", ">=", "<", "<="]) (hvalue : type.Has value) :
    ∃ expr, conditionExpr op column value = .ok expr ∧ ∀ row, type.Has (cell column row) →
        ∃ hit, applyCondition rt op (cell column row) value = .ok hit ∧
          Decides rt engine row expr hit := by
  simp only [mem_cons, not_mem_nil, or_false] at hop
  rcases hop with h | h | h | h | h
  · subst h
    refine ⟨_, compareExpr_of_has .ne hvalue, ?_⟩
    intro row hcell
    refine ⟨!(cell column row).eq value, rfl, ?_⟩
    rw [eq_eq engine hcell hvalue]
    convert compare_decides .ne hcell hvalue using 1
    simp [SqlCompare.holds]
  · subst h
    refine ⟨_, compareExpr_of_has .gt hvalue, ?_⟩
    intro row hcell
    refine ⟨_, ?_, compare_decides .gt hcell hvalue⟩
    change ((cell column row).compare? value).map _ = _
    rw [compare?_eq engine hcell hvalue]
    rfl
  · subst h
    refine ⟨_, compareExpr_of_has .ge hvalue, ?_⟩
    intro row hcell
    refine ⟨_, ?_, compare_decides .ge hcell hvalue⟩
    change ((cell column row).compare? value).map _ = _
    rw [compare?_eq engine hcell hvalue]
    rfl
  · subst h
    refine ⟨_, compareExpr_of_has .lt hvalue, ?_⟩
    intro row hcell
    refine ⟨_, ?_, compare_decides .lt hcell hvalue⟩
    change ((cell column row).compare? value).map _ = _
    rw [compare?_eq engine hcell hvalue]
    rfl
  · subst h
    refine ⟨_, compareExpr_of_has .le hvalue, ?_⟩
    intro row hcell
    refine ⟨_, ?_, compare_decides .le hcell hvalue⟩
    change ((cell column row).compare? value).map _ = _
    rw [compare?_eq engine hcell hvalue]
    rfl

/-! ## Lists of values -/

variable {items : List PyValue}

theorem any_eq_of_has (engine : SqlEngine) (hcell : type.Has (cell column row))
    (hitems : ∀ item ∈ items, item = .none ∨ type.Has item) :
    (items.any fun other => other.eq (cell column row)) =
      (items.filter (!PyValue.isNone ·)).any fun value =>
        SqlCompare.eq.holds (engine.compareValues (cell column row) value) := by
  rw [Bool.eq_iff_iff, any_eq_true, any_eq_true]
  constructor
  · intro hany
    rcases hany with ⟨item, hitem, heq⟩
    rcases hitems item hitem with hnone | hhas
    · rw [hnone, (none_eq_value hcell).1] at heq
      simp at heq
    · refine ⟨item, List.mem_filter.mpr ⟨hitem, by simp [hhas.isNone]⟩, ?_⟩
      rw [← eq_eq engine hcell hhas, ← eq_symm hcell hhas]
      exact heq
  · intro hany
    rcases hany with ⟨item, hmem, heq⟩
    obtain ⟨hitem, hnot⟩ := List.mem_filter.mp hmem
    rcases hitems item hitem with hnone | hhas
    · rw [hnone] at hnot
      simp [PyValue.isNone] at hnot
    · refine ⟨item, hitem, ?_⟩
      rw [eq_symm hcell hhas, eq_eq engine hcell hhas]
      exact heq

theorem any_eq_none (hitems : ∀ item ∈ items, item = .none ∨ type.Has item) :
    (items.any fun other => other.eq .none) = items.any PyValue.isNone := by
  rw [Bool.eq_iff_iff, any_eq_true, any_eq_true]
  refine exists_congr fun item => and_congr_right fun hitem => ?_
  rcases hitems item hitem with hnone | hhas
  · rw [hnone]
    rfl
  · rw [(none_eq_value hhas).2, hhas.isNone]

theorem inList_eval_of_has (rt : PyRuntime) (engine : SqlEngine)
    (hcell : type.Has (cell column row))
    (values : List PyValue) :
    (SqlExpr.inList column values).eval rt engine row = .ok (some (values.any fun value =>
        SqlCompare.eq.holds (engine.compareValues (cell column row) value))) := by
  change (if values.isEmpty then _ else if (cell column row).isNone then _
    else _) = _
  rw [hcell.isNone]
  cases values with
  | nil => rfl
  | cons value rest => rfl

theorem inList_eval_of_none (rt : PyRuntime) (engine : SqlEngine) (hcell : cell column row = .none)
    (values : List PyValue) :
    (SqlExpr.inList column values).eval rt engine row =
      .ok (if values.isEmpty then some false else none) := by
  change (if values.isEmpty then _ else if (cell column row).isNone then _
    else _) = _
  rw [hcell]
  cases values with
  | nil => rfl
  | cons value rest => rfl

variable {a : Option Bool}

theorem not_eval {expr : SqlExpr} (hexpr : expr.eval rt engine row = .ok a) :
    (SqlExpr.not expr).eval rt engine row = .ok (not3 a) := by
  rw [SqlExpr.eval, hexpr, ok_bind]

theorem or_eval {left right : SqlExpr} {b : Option Bool} (hleft : left.eval rt engine row = .ok a)
    (hright : right.eval rt engine row = .ok b) :
    (SqlExpr.or left right).eval rt engine row = .ok (or3 a b) := by
  rw [SqlExpr.eval, hleft, hright, ok_bind, ok_bind]

theorem and_eval {left right : SqlExpr} {b : Option Bool} (hleft : left.eval rt engine row = .ok a)
    (hright : right.eval rt engine row = .ok b) :
    (SqlExpr.and left right).eval rt engine row = .ok (and3 a b) := by
  rw [SqlExpr.eval, hleft, hright, ok_bind, ok_bind]

theorem isNull_eval : (SqlExpr.isNull column).eval rt engine row =
    .ok (some (cell column row).isNone) := rfl

theorem isNotNull_eval : (SqlExpr.isNotNull column).eval rt engine row =
    .ok (some (!(cell column row).isNone)) := rfl

variable (hitems : ∀ item ∈ items, item = .none ∨ type.Has item)

include hitems

theorem bound_of_items (expr : SqlExpr) :
    bound (items.filter (!PyValue.isNone ·)) expr = .ok expr := by
  have hbind : (items.filter (!PyValue.isNone ·)).forM bindParameter = .ok () := by
    induction items with
    | nil => rfl
    | cons item rest ih =>
      rw [forall_mem_cons] at hitems
      have hrest := ih hitems.2
      rcases hitems.1 with hnone | hhas
      · simpa [hnone, PyValue.isNone] using hrest
      · simpa [hhas.isNone, hhas.bindParameter] using hrest
  unfold bound
  rw [hbind, ok_bind]

theorem in_agrees : ∃ expr, conditionExpr "in" column (.list items) = .ok expr ∧
    ∀ row, cell column row = .none ∨ type.Has (cell column row) →
      ∃ hit, applyCondition rt "in" (cell column row) (.list items) =
          .ok hit ∧ Decides rt engine row expr hit := by
  refine ⟨_, bound_of_items hitems _, ?_⟩
  intro row hcell
  refine ⟨items.any fun other => other.eq (cell column row), rfl, ?_⟩
  rcases hcell with hnone | hhas
  · have hin := inList_eval_of_none rt engine hnone (items.filter (!PyValue.isNone ·))
    rw [hnone, any_eq_none hitems]
    cases items.any PyValue.isNone with
    | true =>
      refine ⟨_, or_eval hin isNull_eval, ?_⟩
      rw [hnone]
      split_ifs <;> simp [or3, PyValue.isNone]
    | false =>
      refine ⟨_, hin, ?_⟩
      split_ifs <;> simp
  · have hin := inList_eval_of_has rt engine hhas (items.filter (!PyValue.isNone ·))
    rw [any_eq_of_has engine hhas hitems]
    cases items.any PyValue.isNone with
    | true =>
      refine ⟨_, or_eval hin isNull_eval, ?_⟩
      rw [hhas.isNone]
      cases ((items.filter (!PyValue.isNone ·)).any fun value =>
        SqlCompare.eq.holds (engine.compareValues (cell column row) value)) <;>
        simp [or3]
    | false => exact ⟨_, hin, by simp⟩

theorem nin_agrees : ∃ expr, conditionExpr "nin" column (.list items) = .ok expr ∧
    ∀ row, cell column row = .none ∨ type.Has (cell column row) →
      (items = [] → (cell column row).isNone = false) →
      ∃ hit, applyCondition rt "nin" (cell column row) (.list items) =
          .ok hit ∧ Decides rt engine row expr hit := by
  refine ⟨_, bound_of_items hitems _, ?_⟩
  intro row hcell hempty
  rcases hcell with hnone | hhas
  · have hin := inList_eval_of_none rt engine hnone (items.filter (!PyValue.isNone ·))
    refine ⟨false, ?_, ?_⟩
    · rw [hnone]
      rfl
    · cases hnulls : items.any PyValue.isNone with
      | true =>
        refine ⟨_, and_eval (not_eval hin) isNotNull_eval, ?_⟩
        rw [hnone]
        split_ifs <;> simp [and3, not3, PyValue.isNone]
      | false =>
        have hvalues : (items.filter (!PyValue.isNone ·)).isEmpty = false := by
          cases items with
          | nil =>
            have hcontra := hempty rfl
            rw [hnone] at hcontra
            simp [PyValue.isNone] at hcontra
          | cons item rest =>
            have hitem : item.isNone = false := by
              simp only [any_cons, Bool.or_eq_false_iff] at hnulls
              exact hnulls.1
            simp [hitem]
        rw [hvalues] at hin
        exact ⟨_, not_eval hin, by simp [not3]⟩
  · have hin := inList_eval_of_has rt engine hhas (items.filter (!PyValue.isNone ·))
    refine ⟨!(items.any fun other => other.eq (cell column row)), ?_, ?_⟩
    · change unlessNone (cell column row) _ = _
      unfold unlessNone
      rw [hhas.isNone]
      rfl
    · rw [any_eq_of_has engine hhas hitems]
      cases items.any PyValue.isNone with
      | true =>
        refine ⟨_, and_eval (not_eval hin) isNotNull_eval, ?_⟩
        rw [hhas.isNone]
        cases ((items.filter (!PyValue.isNone ·)).any fun value =>
          SqlCompare.eq.holds (engine.compareValues (cell column row) value)) <;>
          simp [and3, not3]
      | false => exact ⟨_, not_eval hin, by simp [not3]⟩

omit hitems

/-! ## Texts -/

theorem like_decides {method : String → String → Bool} {before after : String} {part : String}
    (hcell : cell column row = .none ∨ SqlType.text.Has (cell column row))
    (hlike : ∀ text, cell column row = .str text →
      likeMatch (before.toList ++ part.toList ++ after.toList) text.toList = method text part) :
    ∃ hit, unlessNone (cell column row)
        (textMethod method (cell column row) (.str part)) = .ok hit ∧
      Decides rt engine row (.like column before (.str part) after) hit := by
  rcases hcell with hnone | ⟨text, htext⟩
  · refine ⟨false, ?_, none, ?_, by simp⟩
    · rw [hnone]
      rfl
    · change likeValues (cell column row) before (.str part) after = _
      rw [hnone]
      rfl
  · refine ⟨method text part, ?_, some (method text part), ?_, by simp⟩
    · rw [htext]
      rfl
    · change likeValues (cell column row) before (.str part) after = _
      rw [← hlike text htext, htext]
      rfl

theorem regexp_decides {pattern : String} {hit : Bool} {text : String}
    (htext : cell column row = .str text)
    (hsearch : rt.reSearchIgnoreCase pattern text = .ok hit) :
    Decides rt engine row (.regexp column (.str pattern)) hit := by
  refine ⟨some hit, ?_, by simp⟩
  change (regexp rt (.str pattern) (cell column row) >>= fun hit =>
    Except.ok (some hit)) = _
  rw [htext]
  change (rt.reSearchIgnoreCase pattern text >>= fun hit =>
    Except.ok (some hit)) = _
  rw [hsearch, ok_bind]

theorem OpAgrees.agrees (engine : SqlEngine) {table : SqlTable} {op : String}
    (hop : OpAgrees rt table column type op value)
    (hcells : ∀ row ∈ table.rows, cell column row = .none ∨ type.Has (cell column row)) :
    ∃ expr, conditionExpr op column value = .ok expr ∧ ∀ row ∈ table.rows,
        ∃ hit, applyCondition rt op (cell column row) value = .ok hit ∧
          Decides rt engine row expr hit := by
  have hvalues : table.NoNulls column → ∀ row ∈ table.rows, type.Has (cell column row) := by
    intro hnulls row hrow
    rcases hcells row hrow with hnone | hhas
    · have hcontra := hnulls row hrow
      rw [hnone] at hcontra
      simp [PyValue.isNone] at hcontra
    · exact hhas
  cases hop with
  | eqNone =>
    refine ⟨.isNull column, rfl, ?_⟩
    intro row hrow
    refine ⟨_, rfl, ?_⟩
    rw [eq_none_eq_isNone (hcells row hrow)]
    exact isNull_decides
  | neNone =>
    refine ⟨.isNotNull column, rfl, ?_⟩
    intro row hrow
    refine ⟨_, rfl, ?_⟩
    rw [eq_none_eq_isNone (hcells row hrow)]
    exact isNotNull_decides
  | eq hvalue =>
    refine ⟨_, compareExpr_of_has .eq hvalue, ?_⟩
    intro row hrow
    exact ⟨_, rfl, eq_decides (hcells row hrow) hvalue⟩
  | compare hop hvalue hnulls =>
    apply (compare_agrees hop hvalue).imp
    intro expr hexpr
    refine ⟨hexpr.1, ?_⟩
    intro row hrow
    exact hexpr.2 row (hvalues hnulls row hrow)
  | re htype hnulls hmatch =>
    refine ⟨_, rfl, ?_⟩
    intro row hrow
    have hcell := hvalues hnulls row hrow
    rw [htype] at hcell
    rcases hcell with ⟨text, htext⟩
    obtain ⟨hit, hre, hsearch⟩ := hmatch row hrow text htext
    refine ⟨hit, ?_, regexp_decides htext hsearch⟩
    rw [htext]
    exact hre
  | «in» hitems =>
    apply (in_agrees hitems).imp
    intro expr hexpr
    refine ⟨hexpr.1, ?_⟩
    intro row hrow
    exact hexpr.2 row (hcells row hrow)
  | nin hitems hnulls =>
    apply (nin_agrees hitems).imp
    intro expr hexpr
    refine ⟨hexpr.1, ?_⟩
    intro row hrow
    exact hexpr.2 row (hcells row hrow) (fun hempty => hnulls hempty row hrow)
  | @startswith part htype hlike =>
    refine ⟨_, rfl, ?_⟩
    intro row hrow
    apply like_decides (htype ▸ hcells row hrow)
    intro text htext
    rw [Bool.eq_iff_iff, PyString.startsWith_iff]
    exact ⟨hlike row hrow text htext, likeMatch_of_prefix⟩
  | @endswith part htype hlike =>
    refine ⟨_, rfl, ?_⟩
    intro row hrow
    apply like_decides (htype ▸ hcells row hrow)
    intro text htext
    rw [Bool.eq_iff_iff, PyString.endsWith_iff]
    rw [String.toList_empty, append_nil]
    exact ⟨hlike row hrow text htext, likeMatch_of_suffix⟩

end

end Middlewared
