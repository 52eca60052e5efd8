import Middlewared.FilterConjunction

/-!
# The attributes of a filter list

`filter_getattrs` collects the first operands of the conditions of a filter list.
-/

namespace Middlewared

open List

mutual

inductive QueryFilter where
  | condition (name op value : PyValue)
  | disjunction (branches : List QueryBranch)

inductive QueryBranch where
  | filter (filter : QueryFilter)
  | conjunction (filters : List QueryFilter)

end

mutual

def QueryFilter.encode : QueryFilter → PyValue
  | .condition name op value => .list [name, op, value]
  | .disjunction branches => .list [.str "OR", .list (encodeBranches branches)]

def QueryBranch.encode : QueryBranch → PyValue
  | .filter filter => filter.encode
  | .conjunction filters => .list (encodeFilters filters)

def encodeFilters : List QueryFilter → List PyValue
  | [] => []
  | filter :: rest => filter.encode :: encodeFilters rest

def encodeBranches : List QueryBranch → List PyValue
  | [] => []
  | branch :: rest => branch.encode :: encodeBranches rest

end

mutual

def QueryFilter.names : QueryFilter → List PyValue
  | .condition name _ _ => [name]
  | .disjunction branches => branchesNames branches

def QueryBranch.names : QueryBranch → List PyValue
  | .filter filter => filter.names
  | .conjunction filters => filtersNames filters

def filtersNames : List QueryFilter → List PyValue
  | [] => []
  | filter :: rest => filter.names ++ filtersNames rest

def branchesNames : List QueryBranch → List PyValue
  | [] => []
  | branch :: rest => branch.names ++ branchesNames rest

end

inductive GetattrsError where
  | typeError
  | keyError
  | invalidFilter

/-- What a value counts as in a set, where `True` is `1`. -/
def setKey : PyValue → Except GetattrsError PyValue
  | .list _ => .error .typeError
  | .dict _ => .error .typeError
  | .bool value => .ok (.int (if value then 1 else 0))
  | value => .ok value

/-- The loop, with the end of `f` at the head of the list. -/
def getattrsLoop (attrs : List PyValue) :
    List PyValue → Except GetattrsError (List PyValue)
  | [] => .ok attrs
  | .list [_, second] :: rest => getattrsLoop attrs (second :: rest)
  | .list [name, _, _] :: rest =>
    match setKey name with
    | .ok key => getattrsLoop (key :: attrs) rest
    | .error error => .error error
  | .list _ :: _ => .error .invalidFilter
  | .str text :: rest =>
    match text.toList with
    | [first, _, _] =>
      getattrsLoop (.str (String.ofList [first]) :: attrs) rest
    -- of two characters the second one comes next, and is too short
    | _ => .error .invalidFilter
  | .dict entries :: _ =>
    if entries.length = 2 ∨ entries.length = 3 then .error .keyError
    else .error .invalidFilter
  | _ :: _ => .error .typeError
termination_by stack => (stack.map sizeOf).sum

def filterGetattrs (filters : List PyValue) :
    Except GetattrsError (List PyValue) :=
  getattrsLoop [] filters.reverse

/-! ## Which conditions are read -/

/-- The first operand that is read for a filter.  Of the two branches of a
disjunction the second one is taken, and of a conjunction of two conditions the
second one. -/
inductive ReadName : QueryFilter → PyValue → Prop
  | condition (name op value : PyValue) : ReadName (.condition name op value) name
  | filter {second : QueryFilter} {name : PyValue} (first : QueryBranch)
      (hsecond : ReadName second name) :
      ReadName (.disjunction [first, .filter second]) name
  | conjunction {last : QueryFilter} {name : PyValue} (first : QueryBranch)
      (other : QueryFilter) (hlast : ReadName last name) :
      ReadName (.disjunction [first, .conjunction [other, last]]) name

variable {filter : QueryFilter}

theorem ReadName.unique {first second : PyValue}
    (hfirst : ReadName filter first) (hsecond : ReadName filter second) :
    first = second := by
  induction hfirst with
  | condition name op value =>
    cases hsecond
    rfl
  | filter branch hread ih =>
    cases hsecond with
    | filter _ hother => exact ih hother
  | conjunction branch other hread ih =>
    cases hsecond with
    | conjunction _ _ hother => exact ih hother

theorem getattrsLoop_disjunction (attrs rest : List PyValue) (first second : QueryBranch) :
    getattrsLoop attrs ((QueryFilter.disjunction [first, second]).encode :: rest) =
      getattrsLoop attrs (second.encode :: rest) := by
  rw [QueryFilter.encode, getattrsLoop, encodeBranches, encodeBranches,
    encodeBranches, getattrsLoop]

theorem getattrsLoop_conjunction (attrs rest : List PyValue) (first second : QueryFilter) :
    getattrsLoop attrs ((QueryBranch.conjunction [first, second]).encode :: rest) =
      getattrsLoop attrs (second.encode :: rest) := by
  rw [QueryBranch.encode, encodeFilters, encodeFilters, encodeFilters, getattrsLoop]

variable {name : PyValue}

theorem getattrsLoop_of_readName (hread : ReadName filter name) (attrs rest : List PyValue) :
    getattrsLoop attrs (filter.encode :: rest) =
      (setKey name).bind fun key => getattrsLoop (key :: attrs) rest := by
  induction hread with
  | condition name op value =>
    rw [QueryFilter.encode, getattrsLoop]
    cases setKey name <;> rfl
  | filter first hsecond ih =>
    rw [getattrsLoop_disjunction, QueryBranch.encode]
    exact ih
  | conjunction first other hlast ih =>
    rw [getattrsLoop_disjunction, getattrsLoop_conjunction]
    exact ih

theorem setKey_encode (branch : QueryBranch) : setKey branch.encode = .error .typeError := by
  cases branch with
  | conjunction filters => rfl
  | filter filter => cases filter <;> rfl

theorem setKey_encode_filter (filter : QueryFilter) : setKey filter.encode = .error .typeError := by
  cases filter <;> rfl

theorem getattrsLoop_of_not_readName (attrs rest : List PyValue) :
    (filter : QueryFilter) → (∀ name, ¬ReadName filter name) →
      ∃ error, getattrsLoop attrs (filter.encode :: rest) = .error error
  | .condition name op value, hnone => absurd (.condition name op value) (hnone name)
  | .disjunction [], _ => by
    simp [QueryFilter.encode, encodeBranches, getattrsLoop]
  | .disjunction [_], _ => by
    simp [QueryFilter.encode, encodeBranches, getattrsLoop]
  | .disjunction [first, .filter second], hnone => by
    obtain ⟨error, herror⟩ := getattrsLoop_of_not_readName attrs rest second
      fun name hread => hnone name (.filter first hread)
    refine ⟨error, ?_⟩
    rw [getattrsLoop_disjunction, QueryBranch.encode]
    exact herror
  | .disjunction [_, .conjunction []], _ => by
    simp [QueryFilter.encode, encodeBranches, QueryBranch.encode, encodeFilters, getattrsLoop]
  | .disjunction [_, .conjunction [_]], _ => by
    simp [QueryFilter.encode, encodeBranches, QueryBranch.encode, encodeFilters, getattrsLoop]
  | .disjunction [first, .conjunction [other, last]], hnone => by
    obtain ⟨error, herror⟩ := getattrsLoop_of_not_readName attrs rest last
      fun name hread => hnone name (.conjunction first other hread)
    refine ⟨error, ?_⟩
    rw [getattrsLoop_disjunction, getattrsLoop_conjunction]
    exact herror
  | .disjunction [_, .conjunction [first, _, _]], _ => by
    simp [QueryFilter.encode, encodeBranches, QueryBranch.encode,
      encodeFilters, getattrsLoop, setKey_encode_filter first]
  | .disjunction [_, .conjunction (_ :: _ :: _ :: _ :: _)], _ => by
    simp [QueryFilter.encode, encodeBranches, QueryBranch.encode, encodeFilters, getattrsLoop]
  | .disjunction [first, _, _], _ => by
    simp [QueryFilter.encode, encodeBranches, getattrsLoop, setKey_encode first]
  | .disjunction (_ :: _ :: _ :: _ :: _), _ => by
    simp [QueryFilter.encode, encodeBranches, getattrsLoop]

theorem ReadName.mem_names (hread : ReadName filter name) : name ∈ filter.names := by
  induction hread with
  | condition name op value => simp [QueryFilter.names]
  | filter first hsecond ih =>
    simp [QueryFilter.names, branchesNames, QueryBranch.names, ih]
  | conjunction first other hlast ih =>
    simp [QueryFilter.names, branchesNames, QueryBranch.names, filtersNames, ih]

theorem mem_filtersNames {filters : List QueryFilter} :
    name ∈ filtersNames filters ↔ ∃ filter ∈ filters, name ∈ filter.names := by
  induction filters with
  | nil => simp [filtersNames]
  | cons filter rest ih => simp [filtersNames, ih]

/-! ## A whole filter list -/

theorem getattrsLoop_eq_ok {stack : List QueryFilter} (hall : ∀ filter ∈ stack,
      ∃ name key, ReadName filter name ∧ setKey name = .ok key)
    (attrs : List PyValue) :
    ∃ result, getattrsLoop attrs (stack.map QueryFilter.encode) = .ok result ∧
      ∀ key, key ∈ result ↔ key ∈ attrs ∨ ∃ filter ∈ stack, ∃ name, ReadName filter name ∧
          setKey name = .ok key := by
  induction stack generalizing attrs with
  | nil => exact ⟨attrs, by simp [getattrsLoop], by simp⟩
  | cons filter rest ih =>
    rw [forall_mem_cons] at hall
    obtain ⟨⟨name, key, hread, hkey⟩, hrest⟩ := hall
    obtain ⟨result, hloop, hmem⟩ := ih hrest (key :: attrs)
    refine ⟨result, ?_, ?_⟩
    · rw [map_cons, getattrsLoop_of_readName hread, hkey]
      exact hloop
    · intro other
      have hone : (∃ name, ReadName filter name ∧ setKey name = .ok other) ↔ other = key := by
        constructor
        · rintro ⟨name', hread', hkey'⟩
          rw [hread'.unique hread, hkey] at hkey'
          exact (Except.ok.inj hkey').symm
        · rintro rfl
          exact ⟨name, hread, hkey⟩
      rw [hmem]
      simp only [mem_cons, exists_eq_or_imp, hone]
      tauto

theorem readName_of_getattrsLoop {stack : List QueryFilter} {attrs result : List PyValue}
    (hloop : getattrsLoop attrs (stack.map QueryFilter.encode) = .ok result) :
    ∀ filter ∈ stack, ∃ name key, ReadName filter name ∧ setKey name = .ok key := by
  induction stack generalizing attrs with
  | nil => simp
  | cons filter rest ih =>
    rw [map_cons] at hloop
    by_cases hread : ∃ name, ReadName filter name
    · rcases hread with ⟨name, hread⟩
      cases hkey : setKey name with
      | error error =>
        rw [getattrsLoop_of_readName hread, hkey] at hloop
        cases hloop
      | ok key =>
        rw [getattrsLoop_of_readName hread, hkey] at hloop
        rw [forall_mem_cons]
        exact ⟨⟨name, key, hread, hkey⟩, ih hloop⟩
    · obtain ⟨error, herror⟩ := getattrsLoop_of_not_readName attrs
        (rest.map QueryFilter.encode) filter
        fun name hname => hread ⟨name, hname⟩
      rw [hloop] at herror
      cases herror

/-- The set of the first operands, as far as a set can hold them. -/
def AttrsComplete (filters : List QueryFilter) : Prop :=
  ∃ attrs, filterGetattrs (filters.map QueryFilter.encode) = .ok attrs ∧
    (∀ name ∈ filtersNames filters, ∃ key ∈ attrs, setKey name = .ok key) ∧
    ∀ key ∈ attrs, ∃ name ∈ filtersNames filters, setKey name = .ok key

/-- For every filter of the list a first operand is read, and every first
operand is among those. -/
structure EveryNameRead (filters : List QueryFilter) : Prop where
  readable : ∀ filter ∈ filters, ∃ name, ReadName filter name
  covered : ∀ name ∈ filtersNames filters, ∃ filter ∈ filters,
    ∃ reached key, ReadName filter reached ∧ setKey reached = .ok key ∧ setKey name = .ok key

/-- The attributes are complete exactly when the loop comes to every name. -/
theorem filterGetattrs_complete_iff (filters : List QueryFilter) :
    AttrsComplete filters ↔ EveryNameRead filters := by
  have hstack : (filters.map QueryFilter.encode).reverse =
      filters.reverse.map QueryFilter.encode := map_reverse.symm
  have hnames : ∀ filter ∈ filters, ∀ name, ReadName filter name → name ∈ filtersNames filters := by
    intro filter hfilter name hread
    exact mem_filtersNames.mpr ⟨filter, hfilter, hread.mem_names⟩
  unfold AttrsComplete filterGetattrs
  rw [hstack]
  constructor
  · rintro ⟨attrs, hloop, hcovered, -⟩
    have hreadable := readName_of_getattrsLoop hloop
    obtain ⟨result, hresult, hmem⟩ := getattrsLoop_eq_ok hreadable []
    have hsame : attrs = result := Except.ok.inj (hloop.symm.trans hresult)
    constructor
    · intro filter hfilter
      obtain ⟨name, -, hread, -⟩ := hreadable filter (mem_reverse.mpr hfilter)
      exact ⟨name, hread⟩
    · intro name hname
      obtain ⟨key, hkey, hnameKey⟩ := hcovered name hname
      rw [hsame, hmem] at hkey
      rcases hkey with hnil | ⟨filter, hfilter, reached, hread, hreached⟩
      · cases hnil
      · exact ⟨filter, mem_reverse.mp hfilter, reached, key, hread, hreached, hnameKey⟩
  · intro hevery
    have hreadable : ∀ filter ∈ filters.reverse,
        ∃ name key, ReadName filter name ∧ setKey name = .ok key := by
      intro filter hfilter
      have hmem := mem_reverse.mp hfilter
      obtain ⟨name, hread⟩ := hevery.readable filter hmem
      obtain ⟨-, -, -, key, -, -, hkey⟩ := hevery.covered name (hnames filter hmem name hread)
      exact ⟨name, key, hread, hkey⟩
    obtain ⟨result, hresult, hmem⟩ := getattrsLoop_eq_ok hreadable []
    refine ⟨result, hresult, ?_, ?_⟩
    · intro name hname
      obtain ⟨filter, hfilter, reached, key, hread, hreached, hkey⟩ := hevery.covered name hname
      exact ⟨key, (hmem key).mpr (Or.inr ⟨filter,
        mem_reverse.mpr hfilter, reached, hread, hreached⟩), hkey⟩
    · intro key hkey
      rcases (hmem key).mp hkey with hnil | ⟨filter, hfilter, name, hread, hname⟩
      · cases hnil
      · exact ⟨name, hnames filter (mem_reverse.mp hfilter) name hread, hname⟩

/-- Of the two branches of an OR only the last is followed. -/
theorem attribute_lost : (∃ recorded, validateFilters newYearRuntime (maxFiltersDepth + 1)
      [(QueryFilter.disjunction [.filter (.condition (.str "a") (.str "=") (.int 1)),
          .filter (.condition (.str "b") (.str "=") (.int 2))]).encode] =
        .ok recorded) ∧
    filterGetattrs [(QueryFilter.disjunction [.filter (.condition (.str "a") (.str "=") (.int 1)),
          .filter (.condition (.str "b") (.str "=") (.int 2))]).encode] =
        .ok [.str "b"] := by
  constructor
  · exact ⟨[], rfl⟩
  · simp [filterGetattrs, QueryFilter.encode, QueryBranch.encode,
      encodeBranches, getattrsLoop, setKey]

end Middlewared
