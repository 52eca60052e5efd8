import Middlewared.DatastoreAgreement

/-!
# `CRUDService.query` with and without `force_sql_filters`

Filters whose conditions agree one by one select the same rows in the database
and in `filter_list`.
-/

namespace Middlewared

open List

theorem lookup_map_key {rename : String → String} {row : Row} {key : String}
    (hdistinct : (row.map fun item => rename item.1).Nodup)
    (hkey : key ∈ row.map Prod.fst) :
    (row.map fun item => (rename item.1, item.2)).lookup (rename key) = row.lookup key := by
  induction row with
  | nil => simp at hkey
  | cons item rest ih =>
    rw [map_cons, nodup_cons] at hdistinct
    rcases hdistinct with ⟨hfresh, hrest⟩
    by_cases heq : key = item.1
    · rw [map_cons, lookup_cons, lookup_cons, heq]
      simp
    · have hmem : key ∈ rest.map Prod.fst := by
        rw [map_cons, mem_cons] at hkey
        exact hkey.resolve_left heq
      have hne : rename key ≠ rename item.1 := by
        intro hsame
        obtain ⟨other, hother, hfst⟩ := mem_map.mp hmem
        apply hfresh
        rw [← hsame, ← hfst]
        exact mem_map.mpr ⟨other, hother, rfl⟩
      rw [map_cons, lookup_cons, lookup_cons, ih hrest hmem]
      rw [beq_false_of_ne heq, beq_false_of_ne hne]

section

variable {table : SqlTable} {row : Row} {column : String}

theorem lookup_eq_cell (hkey : column ∈ row.map Prod.fst) :
    row.lookup column = some (cell column row) := by
  unfold cell
  cases hlookup : row.lookup column with
  | some value => rfl
  | none =>
    obtain ⟨item, hitem, hfst⟩ := mem_map.mp hkey
    have hne := List.lookup_eq_none_iff.mp hlookup item hitem
    rw [hfst] at hne
    simp at hne

theorem SqlTable.WellFormed.lookup_serialize (htable : table.WellFormed)
    (hrow : row ∈ table.rows) (hcolumn : column ∈ table.names) :
    (table.serialize row).lookup (table.stripPrefix column) = some (cell column row) := by
  have hkeys := htable.keys row hrow
  have hkey : column ∈ row.map Prod.fst := by
    rw [hkeys]
    exact hcolumn
  have hdistinct : (row.map fun item => table.stripPrefix item.1).Nodup := by
    have hmap := htable.distinct
    rw [← hkeys, map_map] at hmap
    exact hmap
  unfold SqlTable.serialize
  rw [lookup_map_key hdistinct hkey]
  exact lookup_eq_cell hkey

theorem SqlTable.WellFormed.getterFn_serialize (htable : table.WellFormed)
    (hrow : row ∈ table.rows) :
    getterFn (table.serialize row) = some getImpl := by
  have hne : row ≠ [] := by
    intro hnil
    have hkeys := htable.keys row hrow
    rw [hnil, map_nil] at hkeys
    apply htable.nonempty
    exact List.map_eq_nil_iff.mp hkeys.symm
  unfold getterFn SqlTable.serialize
  simp [hne]

end

section

variable {rt : PyRuntime} {engine : SqlEngine} {table : SqlTable}

def Selects (rt : PyRuntime) (engine : SqlEngine) (table : SqlTable)
    (depth : ℕ) (filter : PyValue) (expr : SqlExpr) : Prop :=
  ∀ row ∈ table.rows, ∃ hit, evalFilter rt (some getImpl) (Dict.ofEntries [])
        (.dict (table.serialize row)) depth filter = .ok hit ∧
      Decides rt engine row expr hit

variable {depth : ℕ}

theorem ConditionAgrees.selects {name op column : String} {value : PyValue}
    {type : SqlType} (htable : table.WellFormed)
    (hcondition : ConditionAgrees rt table name op value column type) :
    ∃ expr, filterToExpr table (depth + 1) (.list [.str name, .str op, value]) = .ok expr ∧
      Selects rt engine table (depth + 1) (.list [.str name, .str op, value]) expr := by
  have hcolumn : column ∈ table.names := mem_map.mpr ⟨(column, type), hcondition.typed, rfl⟩
  have hname : IsColumn name := by
    rw [← hcondition.name_eq]
    exact htable.isColumn column hcolumn
  obtain ⟨expr, hexpr, hrows⟩ := hcondition.op.agrees engine
    (fun row hrow => htable.typed row hrow column type hcondition.typed)
  refine ⟨expr, ?_, ?_⟩
  · simp only [filterToExpr, conditionColumn, hcondition.plain]
    rw [if_neg Bool.false_ne_true, hcondition.found, ok_bind]
    exact hexpr
  · intro row hrow
    obtain ⟨hit, happly, hdecides⟩ := hrows row hrow
    refine ⟨hit, ?_, hdecides⟩
    change filterop rt (some getImpl) (name.toList.length + 1)
      (.dict (table.serialize row)) (.str name) op value = _
    rw [filterop, getImpl_column hname, ok_bind, ← hcondition.name_eq,
      htable.lookup_serialize hrow hcolumn]
    exact happly

/-! ## Disjunction -/

variable {row : Row}

theorem Decides.or {left right : SqlExpr} {a b : Bool} (hleft : Decides rt engine row left a)
    (hright : Decides rt engine row right b) :
    Decides rt engine row (.or left right) (a || b) := by
  rcases hleft with ⟨x, hx, hxa⟩
  rcases hright with ⟨y, hy, hyb⟩
  refine ⟨or3 x y, or_eval hx hy, ?_⟩
  rw [Bool.or_eq_true, ← hxa, ← hyb]
  rcases x with _ | _ | _ <;> rcases y with _ | _ | _ <;> simp [or3]

def branchHit (rt : PyRuntime) (table : SqlTable) (depth : ℕ) (row : Row)
    (branch : PyValue) : Except PyError Bool := do
  let filters ← branchFilters branch
  filters.allM (evalFilter rt (some getImpl) (Dict.ofEntries [])
    (.dict (table.serialize row)) depth)

theorem FilterAgrees.branchFilters_eq {branch : PyValue}
    (hbranch : FilterAgrees rt table depth branch) :
    branchFilters branch = .ok [branch] := by
  cases hbranch with
  | condition hcondition => rfl
  | or hne hbranches => rfl

theorem FilterAgrees.branchHit_eq {branch : PyValue} {hit : Bool}
    (hbranch : FilterAgrees rt table depth branch)
    (heval : evalFilter rt (some getImpl) (Dict.ofEntries [])
      (.dict (table.serialize row)) depth branch = .ok hit) :
    branchHit rt table depth row branch = .ok hit := by
  unfold branchHit
  rw [hbranch.branchFilters_eq, ok_bind, allM_cons_eq_ok_iff]
  cases hit with
  | true => exact Or.inr ⟨heval, rfl⟩
  | false => exact Or.inl ⟨heval, rfl⟩

theorem anyM_cons_of_ok {f : PyValue → Except PyError Bool} {a : PyValue}
    {l : List PyValue} {hit rest : Bool} (ha : f a = .ok hit)
    (hl : l.anyM f = .ok rest) : (a :: l).anyM f = .ok (hit || rest) := by
  rw [anyM_cons_eq_ok_iff]
  cases hit with
  | true => exact Or.inl ⟨ha, rfl⟩
  | false => exact Or.inr ⟨ha, hl⟩

variable {exprs : List SqlExpr}

theorem foldl_or_decides {branches : List PyValue} (hrow : row ∈ table.rows)
    (hbranches : ∀ branch ∈ branches, FilterAgrees rt table depth branch)
    (hselects : List.Forall₂ (Selects rt engine table depth) branches exprs) :
    ∃ hit, branches.anyM (branchHit rt table depth row) = .ok hit ∧
      ∀ expr a, Decides rt engine row expr a →
        Decides rt engine row (exprs.foldl .or expr) (a || hit) := by
  induction hselects with
  | nil =>
    refine ⟨false, rfl, ?_⟩
    intro expr a hexpr
    rw [Bool.or_false]
    exact hexpr
  | @cons branch next branches exprs hbranch _ ih =>
    have hagrees := hbranches branch mem_cons_self
    obtain ⟨rest, hrest, hfold⟩ := ih fun other hother =>
      hbranches other (mem_cons_of_mem branch hother)
    obtain ⟨hit, heval, hdecides⟩ := hbranch row hrow
    refine ⟨hit || rest, ?_, ?_⟩
    · exact anyM_cons_of_ok (hagrees.branchHit_eq heval) hrest
    · intro expr a hexpr
      rw [foldl_cons, ← Bool.or_assoc]
      exact hfold _ _ (hexpr.or hdecides)

variable {filters : List PyValue}

theorem exists_mapM_of_forall (hfilters : ∀ filter ∈ filters, ∃ expr,
      filterToExpr table depth filter = .ok expr ∧ Selects rt engine table depth filter expr) :
    ∃ exprs, filters.mapM (filterToExpr table depth) = .ok exprs ∧
      List.Forall₂ (Selects rt engine table depth) filters exprs := by
  induction filters with
  | nil => exact ⟨[], rfl, List.Forall₂.nil⟩
  | cons filter rest ih =>
    obtain ⟨expr, hexpr, hselects⟩ := hfilters filter mem_cons_self
    obtain ⟨exprs, hexprs, hall⟩ := ih fun other hother =>
      hfilters other (mem_cons_of_mem filter hother)
    refine ⟨expr :: exprs, ?_, List.Forall₂.cons hselects hall⟩
    rw [mapM_cons, hexpr, hexprs]
    rfl

theorem FilterAgrees.selects {filter : PyValue} (htable : table.WellFormed)
    (engine : SqlEngine) (hfilter : FilterAgrees rt table depth filter) :
    ∃ expr, filterToExpr table depth filter = .ok expr ∧
      Selects rt engine table depth filter expr := by
  induction hfilter with
  | condition hcondition => exact hcondition.selects htable
  | @or depth branches hne hbranches ih =>
    obtain ⟨exprs, hexprs, hselects⟩ := exists_mapM_of_forall ih
    cases hselects with
    | nil => exact absurd rfl hne
    | @cons branch first branches rest hfirst hrest =>
      refine ⟨rest.foldl .or first, ?_, ?_⟩
      · change ((branch :: branches).mapM (filterToExpr table depth) >>= orExprs) = _
        rw [hexprs, ok_bind]
        rfl
      · intro row hrow
        have hagrees := hbranches branch mem_cons_self
        obtain ⟨hit, heval, hdecides⟩ := hfirst row hrow
        obtain ⟨others, hany, hfold⟩ := foldl_or_decides hrow (fun other hother =>
            hbranches other (mem_cons_of_mem branch hother)) hrest
        refine ⟨hit || others, ?_, hfold first hit hdecides⟩
        exact anyM_cons_of_ok (hagrees.branchHit_eq heval) hany

theorem ConditionAgrees.validateCondition_eq {name op column : String}
    {value : PyValue} {type : SqlType} (htable : table.WellFormed)
    (hcondition : ConditionAgrees rt table name op value column type) :
    validateCondition rt (.str name) (.str op) value = .ok [] := by
  have hname : IsColumn name := by
    rw [← hcondition.name_eq]
    exact htable.isColumn column (mem_map.mpr ⟨(column, type), hcondition.typed, rfl⟩)
  have hnoDesignator : PyString.endsWith name timestampDesignator = false := by
    rw [Bool.eq_false_iff]
    intro hends
    rw [PyString.endsWith_iff] at hends
    apply hname.2
    exact hends.subset (by decide)
  have hfirst : ∀ op, validateOperand rt op (.str name) value (.str name) = .ok [] := by
    intro op
    simp only [validateOperand, hnoDesignator, Bool.not_false, if_true]
  have hsecond : ∀ op, validateOperand rt op (.str name) value value = .ok [] := by
    intro op
    cases value with
    | str text =>
      simp only [validateOperand, hcondition.noTimestamp text rfl, Bool.not_false, if_true]
    | _ => rfl
  have hop : ∃ fn, splitOp op = .ok (false, op) ∧ opmap.lookup op = some fn := by
    cases hcondition.op with
    | compare hop _ _ =>
      simp only [mem_cons, not_mem_nil, or_false] at hop
      rcases hop with h | h | h | h | h <;> subst h <;> exact ⟨_, rfl, rfl⟩
    | _ => exact ⟨_, rfl, rfl⟩
  rcases hop with ⟨fn, hsplit, hlookup⟩
  simp only [validateCondition]
  rw [hsplit, ok_bind]
  simp only [Bool.false_eq_true, false_and, if_false, hlookup,
    Option.isNone_some, hfirst, hsecond, ok_bind, append_nil]

theorem mapM_ok_nil {α : Type} {f : PyValue → Except PyError (List α)}
    {l : List PyValue} (hf : ∀ a ∈ l, f a = .ok []) :
    ∃ results, l.mapM f = .ok results ∧ results.flatten = [] := by
  induction l with
  | nil => exact ⟨[], rfl, rfl⟩
  | cons a rest ih =>
    obtain ⟨results, hresults, hflat⟩ := ih fun b hb =>
      hf b (mem_cons_of_mem a hb)
    refine ⟨[] :: results, ?_, hflat⟩
    rw [mapM_cons, hf a mem_cons_self, hresults]
    rfl

theorem FilterAgrees.validateFilters_singleton {filter : PyValue}
    (htable : table.WellFormed) (hfilter : FilterAgrees rt table depth filter) :
    validateFilters rt depth [filter] = .ok [] := by
  induction hfilter with
  | condition hcondition =>
    have hvalid := hcondition.validateCondition_eq htable
    simp only [validateFilters, mapM_cons, mapM_nil, PyValue.iterate, ok_bind, hvalid]
    rfl
  | @or depth branches hne hbranches ih =>
    obtain ⟨inner, hinner, hflat⟩ := mapM_ok_nil
      (f := fun branch => do
        let filters ← branchFilters branch
        validateFilters rt depth filters) (l := branches)
      (fun branch hbranch => by
        rw [(hbranches branch hbranch).branchFilters_eq, ok_bind]
        exact ih branch hbranch)
    have htruthy : (PyValue.list branches).truthy = true := by
      simp [PyValue.truthy, hne]
    simp only [validateFilters, mapM_cons, mapM_nil,
      PyValue.iterate, ok_bind, htruthy, hinner, hflat]
    rfl

theorem FilterAgrees.validateFilters_eq (htable : table.WellFormed)
    (hfilters : ∀ filter ∈ filters, FilterAgrees rt table (depth + 1) filter) :
    validateFilters rt (depth + 1) filters = .ok [] := by
  induction filters with
  | nil => rfl
  | cons filter rest ih =>
    have hrest := ih fun other hother =>
      hfilters other (mem_cons_of_mem filter hother)
    have hfirst := (hfilters filter mem_cons_self) |>.validateFilters_singleton htable
    exact validateFilters_append hfirst hrest

theorem whereHolds_eq (hrow : row ∈ table.rows)
    (hselects : List.Forall₂ (Selects rt engine table depth) filters exprs) :
    ∃ keep, whereHolds rt engine exprs row = .ok keep ∧
      filters.allM (evalFilter rt (some getImpl) (Dict.ofEntries [])
        (.dict (table.serialize row)) depth) = .ok keep := by
  induction hselects with
  | nil => exact ⟨true, rfl, rfl⟩
  | @cons filter expr filters exprs hfilter _ ih =>
    obtain ⟨hit, heval, truth, htruth, hiff⟩ := hfilter row hrow
    rcases ih with ⟨keep, hwhere, hall⟩
    obtain ⟨values, hvalues, hkeep⟩ := bind_eq_ok_iff.mp hwhere
    injection hkeep with hkeep
    refine ⟨hit && keep, ?_, ?_⟩
    · unfold whereHolds
      rw [mapM_cons, htruth, hvalues, ← hkeep]
      have htrue : decide (truth = some true) = hit := by
        rw [Bool.eq_iff_iff, decide_eq_true_iff]
        exact hiff
      simp [← htrue]
    · rw [allM_cons_eq_ok_iff]
      cases hit with
      | true => exact Or.inr ⟨heval, hall⟩
      | false => exact Or.inl ⟨heval, rfl⟩

theorem doFilters_serialize (htable : table.WellFormed) (hselects : List.Forall₂
      (Selects rt engine table (maxFiltersDepth + 1)) filters exprs)
    {rows : List Row} (hrows : ∀ row ∈ rows, row ∈ table.rows)
    {getter : Option Getter} (hgetter : getter = none ∨ getter = some getImpl) :
    ∃ kept, selectRows rt engine exprs rows = .ok kept ∧
      doFilters rt filters [] false (Dict.ofEntries []) getter
        (rows.map table.serialize) = .ok (kept.map table.serialize) := by
  induction rows generalizing getter with
  | nil => exact ⟨[], rfl, rfl⟩
  | cons row rest ih =>
    have hrow := hrows row mem_cons_self
    have hnext : getter.or (getterFn (table.serialize row)) = some getImpl := by
      rw [htable.getterFn_serialize hrow]
      rcases hgetter with hnone | hsome
      · rw [hnone]
        rfl
      · rw [hsome]
        rfl
    obtain ⟨keep, hwhere, hall⟩ := whereHolds_eq hrow hselects
    obtain ⟨others, hothers, hloop⟩ := ih
      (fun other hother => hrows other (mem_cons_of_mem row hother))
      (Or.inr rfl)
    refine ⟨if keep then row :: others else others, ?_, ?_⟩
    · rw [selectRows, hwhere, hothers]
      rfl
    · rw [map_cons, doFilters_cons_eq_ok_iff, hnext]
      refine ⟨keep, hall, others.map table.serialize, hloop, ?_⟩
      cases keep with
      | true => rfl
      | false => rfl

theorem datastoreQuery_nil :
    datastoreQuery rt engine table [] = .ok (table.rows.map table.serialize) := by
  have hselect : ∀ rows, selectRows rt engine [] rows = .ok rows := by
    intro rows
    induction rows with
    | nil => rfl
    | cons row rest ih =>
      rw [selectRows, ih]
      rfl
  change (selectRows rt engine [] table.rows >>= fun kept =>
    Except.ok (kept.map table.serialize)) = _
  rw [hselect, ok_bind]

/-- Both paths return the same rows where every condition is one on which they agree. -/
theorem crudQuery_agree {filters : List PyValue} (htable : table.WellFormed)
    (hfilters : ∀ filter ∈ filters, FilterAgrees rt table (maxFiltersDepth + 1) filter) :
    ∃ rows, crudQuery rt engine table true filters = .ok (.rows rows) ∧
      crudQuery rt engine table false filters = .ok (.rows rows) := by
  obtain ⟨exprs, hexprs, hselects⟩ := exists_mapM_of_forall
    fun filter hfilter => (hfilters filter hfilter).selects htable engine
  obtain ⟨kept, hkept, hloop⟩ := doFilters_serialize htable hselects
    (fun row hrow => hrow) (Or.inl rfl)
  refine ⟨kept.map table.serialize, ?_, ?_⟩
  · have hquery : datastoreQuery rt engine table filters = .ok (kept.map table.serialize) := by
      unfold datastoreQuery filtersToQueryset
      rw [hexprs, ok_bind, hkept, ok_bind]
    unfold crudQuery
    rw [if_pos rfl, hquery]
    rfl
  · unfold crudQuery
    rw [if_neg Bool.false_ne_true, datastoreQuery_nil, ok_bind, filterList_default_eq_ok_iff]
    exact ⟨[], FilterAgrees.validateFilters_eq htable hfilters, hloop⟩

end

/-! ## A small table -/

def textAffinity : SqlEngine where
  compareMixed := fun a b =>
    match a, b with
    | .str s, .int n => PyValue.compareChars s.toList (toString n).toList
    | _, _ => .lt

def lettersRow : Row := [("id", .int 1), ("ip", .str "Ab")]

def nullRow : Row := [("id", .int 2), ("ip", .none)]

def digitRow : Row := [("id", .int 3), ("ip", .str "4")]

def bindAddresses : SqlTable where
  columns := [("id", .integer), ("ip", .text)]
  rows := [lettersRow, nullRow, digitRow]

theorem bindAddresses_wellFormed : bindAddresses.WellFormed where
  nonempty := by simp [bindAddresses]
  isColumn := by decide
  distinct := by decide
  keys := by
    intro row hrow
    simp only [bindAddresses, mem_cons, not_mem_nil, or_false] at hrow
    rcases hrow with h | h | h <;> rw [h] <;> rfl
  typed := by
    intro row hrow column type hcolumn
    simp only [bindAddresses, mem_cons, not_mem_nil, or_false, Prod.mk.injEq] at hrow hcolumn
    rcases hcolumn with ⟨hname, htype⟩ | ⟨hname, htype⟩
    · rw [hname, htype]
      rcases hrow with h | h | h <;> rw [h] <;> exact Or.inr ⟨_, rfl, by decide⟩
    · rw [hname, htype]
      rcases hrow with h | h | h <;> rw [h]
      · exact Or.inr ⟨_, rfl⟩
      · exact Or.inl rfl
      · exact Or.inr ⟨_, rfl⟩

def condition (name op : String) (value : PyValue) : PyValue :=
  .list [.str name, .str op, value]

def orFilter (branches : List PyValue) : PyValue :=
  .list [.str "OR", .list branches]

theorem bindAddresses_condition {op : String} {value : PyValue}
    {name : String} {type : SqlType} {depth : ℕ}
    (hcolumn : (name, type) ∈ bindAddresses.columns)
    (hvalue : ∀ text, value = .str text → PyString.endsWith text timestampDesignator = false)
    (hop : OpAgrees newYearRuntime bindAddresses name type op value) :
    FilterAgrees newYearRuntime bindAddresses (depth + 1) (condition name op value) := by
  have hname : name = "id" ∨ name = "ip" := by
    simp only [bindAddresses, mem_cons, Prod.mk.injEq, not_mem_nil, or_false] at hcolumn
    rcases hcolumn with ⟨h, _⟩ | ⟨h, _⟩
    · exact Or.inl h
    · exact Or.inr h
  have hcondition : ConditionAgrees newYearRuntime bindAddresses name op value name type := by
    constructor
    · rcases hname with h | h <;> rw [h] <;> decide
    · rcases hname with h | h <;> rw [h] <;> rfl
    · rcases hname with h | h <;> rw [h] <;> rfl
    · exact hcolumn
    · exact hvalue
    · exact hop
  exact FilterAgrees.condition hcondition

theorem bindAddresses_agree : (∀ filter ∈ [condition "id" ">=" (.int 2),
        orFilter [condition "ip" "=" .none, condition "ip" "^" (.str "4")]],
      FilterAgrees newYearRuntime bindAddresses (maxFiltersDepth + 1) filter) ∧
    ∃ rows, crudQuery newYearRuntime textAffinity bindAddresses true [condition "id" ">=" (.int 2),
          orFilter [condition "ip" "=" .none, condition "ip" "^" (.str "4")]] =
        .ok (.rows rows) ∧
      crudQuery newYearRuntime textAffinity bindAddresses false [condition "id" ">=" (.int 2),
          orFilter [condition "ip" "=" .none, condition "ip" "^" (.str "4")]] =
        .ok (.rows rows) := by
  have hinteger : ("id", SqlType.integer) ∈ bindAddresses.columns := by
    simp [bindAddresses]
  have htext : ("ip", SqlType.text) ∈ bindAddresses.columns := by
    simp [bindAddresses]
  have hid : FilterAgrees newYearRuntime bindAddresses (maxFiltersDepth + 1)
      (condition "id" ">=" (.int 2)) := by
    apply bindAddresses_condition hinteger
    · intro text htext
      cases htext
    · apply OpAgrees.compare
      · decide
      · exact ⟨2, rfl, by decide⟩
      · intro row hrow
        simp only [bindAddresses, mem_cons, not_mem_nil, or_false] at hrow
        rcases hrow with h | h | h <;> rw [h] <;> rfl
  have hnull : FilterAgrees newYearRuntime bindAddresses maxFiltersDepth
      (condition "ip" "=" .none) := by
    apply bindAddresses_condition htext
    · intro text htext
      cases htext
    · exact OpAgrees.eqNone
  have hfour : FilterAgrees newYearRuntime bindAddresses maxFiltersDepth
      (condition "ip" "^" (.str "4")) := by
    apply bindAddresses_condition htext
    · intro text htext
      injection htext with htext
      rw [← htext]
      decide
    · apply OpAgrees.startswith rfl
      intro row hrow text hcell hlike
      simp only [bindAddresses, mem_cons, not_mem_nil, or_false] at hrow
      rcases hrow with h | h | h
      · have hmiss : likeMatch ("4".toList ++ ['%']) "Ab".toList = false := by
          decide
        rw [h] at hcell
        injection hcell with hcell
        rw [← hcell, hmiss] at hlike
        cases hlike
      · rw [h] at hcell
        cases hcell
      · rw [h] at hcell
        injection hcell with hcell
        rw [← hcell]
  have hfilters : ∀ filter ∈ [condition "id" ">=" (.int 2),
      orFilter [condition "ip" "=" .none, condition "ip" "^" (.str "4")]],
      FilterAgrees newYearRuntime bindAddresses (maxFiltersDepth + 1) filter := by
    intro filter hfilter
    simp only [mem_cons, not_mem_nil, or_false] at hfilter
    rcases hfilter with h | h
    · rw [h]
      exact hid
    · rw [h]
      apply FilterAgrees.or (by simp)
      intro branch hbranch
      simp only [mem_cons, not_mem_nil, or_false] at hbranch
      rcases hbranch with hb | hb
      · rw [hb]
        exact hnull
      · rw [hb]
        exact hfour
  exact ⟨hfilters, crudQuery_agree bindAddresses_wellFormed hfilters⟩

def Answers (filters : List PyValue) (sql entries : Except PyError QueryResult) :
    Prop :=
  validateFilters newYearRuntime (maxFiltersDepth + 1) filters = .ok [] ∧
    crudQuery newYearRuntime textAffinity bindAddresses true filters = sql ∧
    crudQuery newYearRuntime textAffinity bindAddresses false filters = entries

/-- One accepted filter for each way in which SQL and Python differ. -/
theorem crudQuery_paths_differ : Answers [condition "ip" "!=" (.str "4")]
      (.ok (.rows [lettersRow])) (.ok (.rows [lettersRow, nullRow])) ∧
    Answers [condition "ip" ">" (.str "4")] (.ok (.rows [lettersRow])) (.error .typeError) ∧
    Answers [condition "ip" "nin" (.list [])] (.ok (.rows [lettersRow, nullRow, digitRow]))
      (.ok (.rows [lettersRow, digitRow])) ∧
    Answers [condition "ip" "^" (.str "a")] (.ok (.rows [lettersRow])) (.ok (.rows [])) ∧
    Answers [condition "ip" "$" (.str "_")] (.ok (.rows [lettersRow, digitRow])) (.ok (.rows [])) ∧
    Answers [condition "ip" "!=" .none, condition "ip" "~" (.str "b")]
      (.ok (.rows [lettersRow])) (.ok (.rows [])) ∧
    Answers [condition "ip" "=" (.int 4)] (.ok (.rows [digitRow])) (.ok (.rows [])) ∧
    Answers [orFilter [.list [condition "id" "=" (.int 1), condition "ip" "=" (.str "Ab")]]]
      (.error (.valueError (.invalidOperation (condition "id" "=" (.int 1)))))
      (.ok (.rows [lettersRow])) :=
  ⟨⟨rfl, rfl, rfl⟩, ⟨rfl, rfl, rfl⟩, ⟨rfl, rfl, rfl⟩, ⟨rfl, rfl, rfl⟩,
    ⟨rfl, rfl, rfl⟩, ⟨rfl, rfl, rfl⟩, ⟨rfl, rfl, rfl⟩, ⟨rfl, rfl, rfl⟩⟩

end Middlewared
