import Middlewared.FilterTimestamps

/-!
# Filters as conjuncts

Filtering by two lists one after the other should be filtering by both at once.
-/

namespace Middlewared

open List

/-! ## The verdicts of a list of filters on a row -/

/-- The timestamps that `validate_filters` records for a list of filters. -/
def timestamps (rt : PyRuntime) (filters : List PyValue) : List (String × DateTime) :=
  match validateFilters rt (maxFiltersDepth + 1) filters with
  | .ok recorded => recorded
  | .error _ => []

def verdict (rt : PyRuntime) (recorded : List (String × DateTime)) (row : Row) :
    ℕ → PyValue → Except PyError Bool :=
  evalFilter rt (some getImpl) (Dict.ofEntries recorded) (.dict row)

/-- A property of every filter of a list, inner ones included, that is evaluated on a row. -/
def EachEvaluated (rt : PyRuntime) (recorded : List (String × DateTime)) (row : Row)
    (P : ℕ → PyValue → Prop) (filters : List PyValue) : Prop :=
  EachReached true (verdict rt recorded row (maxFiltersDepth + 1))
    (EachFilter (verdict rt recorded row) P (maxFiltersDepth + 1)) filters

/-- Every filter that is evaluated on the row has the verdict with the joint timestamps that it
has with those of its own list. -/
def VerdictsKept (rt : PyRuntime) (own joint : List (String × DateTime))
    (filters : List PyValue) (row : Row) : Prop :=
  EachEvaluated rt own row
    (fun level filter => verdict rt joint row level filter = verdict rt own row level filter)
    filters

/-- No condition that is evaluated on the row is disturbed by the other list. -/
def ConditionsFree (rt : PyRuntime) (own other : List (String × DateTime))
    (filters : List PyValue) (row : Row) : Prop :=
  EachEvaluated rt own row (fun _ filter => ∀ name op value,
    filter.iterate = .ok [name, op, value] → OperandsFree rt own other row name op value) filters

section

variable {rt : PyRuntime} {own other joint : List (String × DateTime)} {row : Row}
  {filters : List PyValue} {v : Bool}

theorem evalFilter_condition {getter : Option Getter} {maps : ValueMaps} {entry filter : PyValue}
    {name op value : PyValue} {depth : ℕ} (hparts : filter.iterate = .ok [name, op, value]) :
    evalFilter rt getter maps entry (depth + 1) filter =
      evalCondition rt getter maps entry name op value := by
  rw [evalFilter, hparts]
  rfl

theorem eachEvaluated_ok
    (hall : filters.allM (verdict rt own row (maxFiltersDepth + 1)) = .ok v) :
    EachEvaluated rt own row (fun level filter => ∃ b, verdict rt own row level filter = .ok b)
      filters :=
  (eachReached_allM hall).imp fun _ heval => eachFilter_of_evalFilter heval.choose_spec

variable (hown : ∀ item ∈ own, rt.fromisoformat item.1 = some item.2)
  (hjointIso : ∀ item ∈ joint, rt.fromisoformat item.1 = some item.2)
  (hjoint : ∀ text, text ∈ joint.map Prod.fst ↔
    text ∈ own.map Prod.fst ∨ text ∈ other.map Prod.fst)
  (hnil : joint = [] ↔ own = [] ∧ other = [])

include hown hjointIso hjoint hnil

theorem ConditionsFree.conditionKept (hfree : ConditionsFree rt own other filters row) :
    EachEvaluated rt own row (fun _ => ConditionKept rt (some getImpl) (some getImpl)
      (Dict.ofEntries own) (Dict.ofEntries joint) (.dict row)) filters := by
  refine hfree.imp fun filter hfilter => hfilter.imp₂ hfilter ?_
  intro level inner hinner _ name op value hparts b heval
  exact (evalCondition_joint_iff hown hjointIso hjoint hnil heval).mpr (hinner name op value hparts)

theorem verdictsKept_iff
    (hall : filters.allM (verdict rt own row (maxFiltersDepth + 1)) = .ok v) :
    VerdictsKept rt own joint filters row ↔ ConditionsFree rt own other filters row := by
  have hok := eachEvaluated_ok hall
  constructor
  · intro hkept
    refine hkept.imp₂ hok fun filter hfilter hevals => hfilter.imp₂ hevals ?_
    intro level inner hsame heval name op value hparts
    obtain ⟨b, hb⟩ := heval
    cases level with
    | zero => cases hb
    | succ level =>
      rw [hb] at hsame
      rw [verdict, evalFilter_condition hparts] at hsame hb
      exact (evalCondition_joint_iff hown hjointIso hjoint hnil hb).mp hsame
  · intro hfree
    have hkept := hfree.conditionKept hown hjointIso hjoint hnil
    refine hkept.imp₂ hok fun filter hfilter hevals => hfilter.verdicts.imp₂ hevals ?_
    intro level inner hsame heval
    obtain ⟨b, hb⟩ := heval
    rw [hb]
    exact hsame b hb

end

/-! ## The loop over the entries -/

section

variable {rt : PyRuntime} {filters filters₁ filters₂ : List PyValue}
  {maps₁ maps₂ maps : ValueMaps} {own recorded₁ recorded₂ : List (String × DateTime)}

variable {getter : Option Getter}

theorem doFilters_cons_eq_ok_iff {filters : List PyValue} {row : Row} {rest result : List Row} :
    doFilters rt filters [] false maps getter (row :: rest) = .ok result ↔
      ∃ valid, filters.allM (evalFilter rt (getter.or (getterFn row)) maps
          (.dict row) (maxFiltersDepth + 1)) = .ok valid ∧
        ∃ others, doFilters rt filters [] false maps (getter.or (getterFn row)) rest = .ok others ∧
          result = if valid then row :: others else others := by
  rw [doFilters, bind_eq_ok_iff]
  refine exists_congr fun valid => and_congr_right fun _ => ?_
  cases valid with
  | true =>
    simp only [if_true, selected, isEmpty_nil, ok_bind, Bool.false_eq_true, if_false]
    rw [bind_eq_ok_iff]
    refine exists_congr fun others => and_congr_right fun _ => ?_
    rw [Except.ok.injEq, eq_comm]
  | false =>
    constructor
    · intro hresult
      exact ⟨result, hresult, rfl⟩
    · intro hresult
      rcases hresult with ⟨others, hothers, heq⟩
      rw [heq]
      exact hothers

theorem doFilters_nil_filters (getter : Option Getter) (rows : List Row) :
    doFilters rt [] [] false maps getter rows = .ok rows := by
  induction rows generalizing getter with
  | nil => rfl
  | cons row rest ih =>
    rw [doFilters_cons_eq_ok_iff]
    exact ⟨true, rfl, rest, ih _, rfl⟩

theorem getter_cases (hgetter : getter = none ∨ getter = some getImpl)
    (row : Row) : getter.or (getterFn row) = none ∨ getter.or (getterFn row) = some getImpl := by
  unfold getterFn
  rcases hgetter with hnone | hsome
  · rw [hnone]
    split_ifs
    · exact Or.inl rfl
    · exact Or.inr rfl
  · rw [hsome]
    exact Or.inr rfl

variable {getter' : Option Getter}

theorem getter_skip (hgetter : getter' = none ∨ getter' = getter) (row : Row) :
    getter' = none ∨ getter' = getter.or (getterFn row) := by
  rcases hgetter with hnone | hsame
  · exact Or.inl hnone
  · cases hcase : getter with
    | none => exact Or.inl (hsame.trans hcase)
    | some get =>
      right
      rw [hsame, hcase]
      rfl

theorem getter_keep (hknown : getter = none ∨ getter = some getImpl)
    (hgetter : getter' = none ∨ getter' = getter) (row : Row) :
    getter'.or (getterFn row) = none ∨ getter'.or (getterFn row) = getter.or (getterFn row) := by
  rcases hgetter with hnone | hsame
  · subst hnone
    rcases getter_cases (Or.inl rfl) row with hlate | hfound
    · exact Or.inl hlate
    · right
      rw [hfound]
      rcases hknown with hboth | hsome
      · rw [hboth, hfound]
      · rw [hsome]
        rfl
  · exact Or.inr (by rw [hsame])

/-- Before the first entry that is not empty a list returns a verdict only when it evaluates no
condition at all. -/
theorem allM_evalFilter_of_none {entry : PyValue} {v : Bool}
    (hall : filters.allM (evalFilter rt none maps₁ entry (maxFiltersDepth + 1)) = .ok v) :
    filters.allM (evalFilter rt getter maps entry (maxFiltersDepth + 1)) = .ok v := by
  refine EachReached.allM_eq ((eachReached_allM hall).imp ?_) hall
  intro filter heval b hb
  refine EachFilter.evalFilter_eq ?_ hb
  refine (eachFilter_of_evalFilter hb).imp₂ (eachFilter_of_evalFilter hb) ?_
  intro level inner _ _ name op value _ b hcondition
  exact absurd hcondition evalCondition_none_ne_ok

theorem exists_verdict_of_doFilters {rows result : List Row}
    (hgetter : getter = none ∨ getter = some getImpl)
    (hloop : doFilters rt filters [] false (Dict.ofEntries own) getter rows = .ok result) :
    ∀ row ∈ rows, ∃ v, filters.allM (verdict rt own row (maxFiltersDepth + 1)) = .ok v := by
  induction rows generalizing getter result with
  | nil => simp
  | cons row rest ih =>
    obtain ⟨v, hv, others, hothers, _⟩ := doFilters_cons_eq_ok_iff.mp hloop
    have hgetter' := getter_cases hgetter row
    intro other hother
    rcases mem_cons.mp hother with rfl | hmem
    · refine ⟨v, ?_⟩
      rcases hgetter' with hnone | hfound
      · rw [hnone] at hv
        exact allM_evalFilter_of_none hv
      · rw [hfound] at hv
        exact hv
    · exact ih hgetter' hothers other hmem

theorem doFilters_append {rows middle result : List Row}
    (hfirst : ∀ row ∈ rows, EachEvaluated rt recorded₁ row (fun _ => ConditionKept rt
      (some getImpl) (some getImpl) (Dict.ofEntries recorded₁) maps (.dict row)) filters₁)
    (hsecond : ∀ row ∈ middle, EachEvaluated rt recorded₂ row (fun _ => ConditionKept rt
      (some getImpl) (some getImpl) (Dict.ofEntries recorded₂) maps (.dict row)) filters₂)
    (hknown : getter = none ∨ getter = some getImpl)
    (hgetter : getter' = none ∨ getter' = getter)
    (hmiddle : doFilters rt filters₁ [] false (Dict.ofEntries recorded₁) getter rows = .ok middle)
    (hresult : doFilters rt filters₂ [] false (Dict.ofEntries recorded₂) getter' middle =
      .ok result) :
    doFilters rt (filters₁ ++ filters₂) [] false maps getter rows = .ok result := by
  -- a verdict that a list has by itself is its verdict with the joint timestamps
  have hjoint : ∀ {filters : List PyValue} {own row late early v},
      EachEvaluated rt own row (fun _ => ConditionKept rt (some getImpl) (some getImpl)
        (Dict.ofEntries own) maps (.dict row)) filters →
      (late = none ∨ late = some getImpl) → (early = none ∨ early = late) →
      filters.allM (evalFilter rt early (Dict.ofEntries own) (.dict row) (maxFiltersDepth + 1)) =
        .ok v →
      filters.allM (evalFilter rt late maps (.dict row) (maxFiltersDepth + 1)) = .ok v := by
    rintro filters own row late early v hkept hlate (rfl | rfl) hall
    · exact allM_evalFilter_of_none hall
    · rcases hlate with rfl | rfl
      · exact allM_evalFilter_of_none hall
      · exact EachReached.allM_eq (hkept.imp fun _ hfilter _ => hfilter.evalFilter_eq) hall
  induction rows generalizing getter getter' middle result with
  | nil =>
    rw [doFilters, Except.ok.injEq] at hmiddle
    subst middle
    exact hresult
  | cons row rest ih =>
    obtain ⟨valid, hvalid, others, hothers, hmiddleEq⟩ := doFilters_cons_eq_ok_iff.mp hmiddle
    have hknown' := getter_cases hknown row
    have hvalid' := hjoint (hfirst row mem_cons_self) hknown' (Or.inr rfl) hvalid
    have hrest := fun other hother => hfirst other (mem_cons_of_mem row hother)
    cases valid with
    -- the second loop never sees this entry, so its getter stays as it is
    | false =>
      subst middle
      have hgetter' := getter_skip hgetter row
      rw [doFilters_cons_eq_ok_iff]
      refine ⟨false, ?_, result, ih hrest hsecond hknown' hgetter' hothers hresult, rfl⟩
      rw [allM_append_eq_ok_iff]
      exact Or.inl ⟨hvalid', rfl⟩
    | true =>
      subst middle
      obtain ⟨kept, hkept, remaining, hremaining, hresultEq⟩ := doFilters_cons_eq_ok_iff.mp hresult
      have hgetter' := getter_keep hknown hgetter row
      have hkept' := hjoint (hsecond row mem_cons_self) hknown' hgetter' hkept
      have hothers' := fun other hother => hsecond other (mem_cons_of_mem row hother)
      rw [doFilters_cons_eq_ok_iff]
      refine ⟨kept, ?_, remaining, ih hrest hothers' hknown' hgetter' hothers hremaining,
        hresultEq⟩
      rw [allM_append_eq_ok_iff]
      exact Or.inr ⟨hvalid', hkept'⟩

theorem filterList_default (rows : List Row) (filters : List PyValue) :
    filterList rt rows filters { } =
      (validateFilters rt (maxFiltersDepth + 1) filters >>= fun recorded =>
        (doFilters rt filters [] false (Dict.ofEntries recorded) none rows).map .rows) := by
  have hrows : filteredRows rt rows filters [] false =
      (validateFilters rt (maxFiltersDepth + 1) filters >>= fun recorded =>
        doFilters rt filters [] false (Dict.ofEntries recorded) none rows) := by
    cases filters with
    | nil =>
      have hvalid : validateFilters rt (maxFiltersDepth + 1) [] = .ok [] := rfl
      rw [hvalid, ok_bind, doFilters_nil_filters]
      rfl
    | cons filter rest => rfl
  unfold filterList
  simp only [validateOptions, doOrder, foldlM_nil, Bool.false_and,
    Bool.false_eq_true, false_and, if_false, if_true, ok_bind]
  rw [hrows]
  cases validateFilters rt (maxFiltersDepth + 1) filters with
  | error error => rfl
  | ok recorded =>
    cases doFilters rt filters [] false (Dict.ofEntries recorded) none rows with
    | error error => rfl
    | ok result => rfl

theorem filterList_default_eq_ok_iff {rows result : List Row} {filters : List PyValue} :
    filterList rt rows filters { } = .ok (.rows result) ↔ ∃ recorded,
        validateFilters rt (maxFiltersDepth + 1) filters = .ok recorded ∧
        doFilters rt filters [] false (Dict.ofEntries recorded) none rows = .ok result := by
  rw [filterList_default, bind_eq_ok_iff]
  refine exists_congr fun recorded => and_congr_right fun _ => ?_
  cases doFilters rt filters [] false (Dict.ofEntries recorded) none rows with
  | error error => simp [Except.map]
  | ok rows => simp [Except.map]

theorem validateFilters_append {depth : ℕ} {filters₁ filters₂ : List PyValue}
    {recorded₁ recorded₂ : List (String × DateTime)}
    (hfirst : validateFilters rt depth filters₁ = .ok recorded₁)
    (hsecond : validateFilters rt depth filters₂ = .ok recorded₂) :
    validateFilters rt depth (filters₁ ++ filters₂) = .ok (recorded₁ ++ recorded₂) := by
  cases depth with
  | zero => simp [validateFilters] at hfirst
  | succ depth =>
    rw [validateFilters, bind_eq_ok_iff] at hfirst hsecond
    rcases hfirst with ⟨lists₁, hlists₁, hflat₁⟩
    rcases hsecond with ⟨lists₂, hlists₂, hflat₂⟩
    rw [validateFilters, mapM_append, hlists₁, hlists₂,
      ← Except.ok.inj hflat₁, ← Except.ok.inj hflat₂]
    simp only [ok_bind, pure, Except.pure, flatten_append]

/-- Filtering by both lists at once is filtering by one after the other, and every filter that
is evaluated on the way has the verdict that it has in its own list. -/
structure Conjoined (rt : PyRuntime) (filters₁ filters₂ : List PyValue)
    (rows middle result : List Row) : Prop where
  listed : filterList rt rows (filters₁ ++ filters₂) { } = .ok (.rows result)
  first : ∀ row ∈ rows, VerdictsKept rt (timestamps rt filters₁)
    (timestamps rt (filters₁ ++ filters₂)) filters₁ row
  second : ∀ row ∈ middle, VerdictsKept rt (timestamps rt filters₂)
    (timestamps rt (filters₁ ++ filters₂)) filters₂ row

/-- Two lists of filters are independent conjuncts exactly when neither disturbs a condition of
the other one that is evaluated. -/
theorem filterList_append_iff {rows middle result : List Row} {filters₁ filters₂ : List PyValue}
    (hmiddle : filterList rt rows filters₁ { } = .ok (.rows middle))
    (hresult : filterList rt middle filters₂ { } = .ok (.rows result)) :
    Conjoined rt filters₁ filters₂ rows middle result ↔
      (∀ row ∈ rows, ConditionsFree rt (timestamps rt filters₁) (timestamps rt filters₂)
        filters₁ row) ∧
      ∀ row ∈ middle, ConditionsFree rt (timestamps rt filters₂) (timestamps rt filters₁)
        filters₂ row := by
  obtain ⟨recorded₁, hvalid₁, hloop₁⟩ := filterList_default_eq_ok_iff.mp hmiddle
  obtain ⟨recorded₂, hvalid₂, hloop₂⟩ := filterList_default_eq_ok_iff.mp hresult
  have hvalid := validateFilters_append hvalid₁ hvalid₂
  have htimestamps : ∀ {filters recorded},
      validateFilters rt (maxFiltersDepth + 1) filters = .ok recorded →
      timestamps rt filters = recorded := by
    intro filters recorded hrecorded
    rw [timestamps, hrecorded]
  have hiso₁ := validateFilters_iso hvalid₁
  have hiso₂ := validateFilters_iso hvalid₂
  have hiso := validateFilters_iso hvalid
  have hmem₁ : ∀ text, text ∈ (recorded₁ ++ recorded₂).map Prod.fst ↔
      text ∈ recorded₁.map Prod.fst ∨ text ∈ recorded₂.map Prod.fst := by
    intro text
    rw [map_append, mem_append]
  have hmem₂ : ∀ text, text ∈ (recorded₁ ++ recorded₂).map Prod.fst ↔
      text ∈ recorded₂.map Prod.fst ∨ text ∈ recorded₁.map Prod.fst := fun text =>
    (hmem₁ text).trans or_comm
  have hnil₁ : recorded₁ ++ recorded₂ = [] ↔ recorded₁ = [] ∧ recorded₂ = [] := append_eq_nil_iff
  have hnil₂ := hnil₁.trans and_comm
  have hverdict₁ := exists_verdict_of_doFilters (Or.inl rfl) hloop₁
  have hverdict₂ := exists_verdict_of_doFilters (Or.inl rfl) hloop₂
  have hkept₁ : ∀ row ∈ rows, VerdictsKept rt recorded₁ (recorded₁ ++ recorded₂) filters₁ row ↔
      ConditionsFree rt recorded₁ recorded₂ filters₁ row := fun row hrow =>
    verdictsKept_iff hiso₁ hiso hmem₁ hnil₁ (hverdict₁ row hrow).choose_spec
  have hkept₂ : ∀ row ∈ middle, VerdictsKept rt recorded₂ (recorded₁ ++ recorded₂) filters₂ row ↔
      ConditionsFree rt recorded₂ recorded₁ filters₂ row := fun row hrow =>
    verdictsKept_iff hiso₂ hiso hmem₂ hnil₂ (hverdict₂ row hrow).choose_spec
  rw [htimestamps hvalid₁, htimestamps hvalid₂]
  constructor
  · rintro ⟨_, hfirst, hsecond⟩
    rw [htimestamps hvalid₁, htimestamps hvalid] at hfirst
    rw [htimestamps hvalid₂, htimestamps hvalid] at hsecond
    exact ⟨fun row hrow => (hkept₁ row hrow).mp (hfirst row hrow),
      fun row hrow => (hkept₂ row hrow).mp (hsecond row hrow)⟩
  · rintro ⟨hfirst, hsecond⟩
    refine ⟨?_, ?_, ?_⟩
    · rw [filterList_default_eq_ok_iff]
      refine ⟨recorded₁ ++ recorded₂, hvalid, ?_⟩
      refine doFilters_append ?_ ?_ (Or.inl rfl) (Or.inl rfl) hloop₁ hloop₂
      · exact fun row hrow => (hfirst row hrow).conditionKept hiso₁ hiso hmem₁ hnil₁
      · exact fun row hrow => (hsecond row hrow).conditionKept hiso₂ hiso hmem₂ hnil₂
    · rw [htimestamps hvalid₁, htimestamps hvalid]
      exact fun row hrow => (hkept₁ row hrow).mpr (hfirst row hrow)
    · rw [htimestamps hvalid₂, htimestamps hvalid]
      exact fun row hrow => (hkept₂ row hrow).mpr (hsecond row hrow)

end

/-! ## A timestamp and a text that look alike -/

def newYearRuntime : PyRuntime where
  fromisoformat := fun text =>
    if text = "2024-01-01T00:00:00" then some ⟨1704067200000000, false⟩
    else none
  casefold := fun text => text
  reMatch := fun pattern text => .ok (PyString.startsWith text pattern)
  reSearchIgnoreCase := fun pattern text =>
    .ok (PyString.containsText text pattern)

def newYearRow : Row :=
  [("name", .str "2024-01-01T00:00:00"), ("created", .datetime ⟨1704067200000000, false⟩)]

def createdAtNewYear : PyValue :=
  .list [.str "created.$date", .str "=", .str "2024-01-01T00:00:00"]

def nameIs (name : String) : PyValue :=
  .list [.str "name", .str "=", .str name]

def nameIsNot (name : String) : PyValue :=
  .list [.str "name", .str "!=", .str name]

def backupRow : Row :=
  [("name", .str "backup"), ("created", .datetime ⟨1704067200000000, false⟩)]

/-- The text that the first list records stands in the second one too: for the first row it is
never come to, and for the other one it differs from the name like the moment does. -/
theorem createdAndNamed_conjoined :
    Conjoined newYearRuntime [createdAtNewYear] [nameIs "backup", nameIsNot "2024-01-01T00:00:00"]
      [newYearRow, backupRow] [newYearRow, backupRow] [backupRow] := by
  have hfirst : timestamps newYearRuntime [createdAtNewYear] =
      [("2024-01-01T00:00:00", ⟨1704067200000000, false⟩)] := rfl
  have hsecond : timestamps newYearRuntime
      [nameIs "backup", nameIsNot "2024-01-01T00:00:00"] = [] := rfl
  refine (filterList_append_iff rfl rfl).mpr ⟨?_, ?_⟩
  · intro row _
    rw [hfirst, hsecond]
    refine ⟨(eachFilter_condition_iff rfl).mpr ?_, fun _ => trivial⟩
    intro name op value hparts
    exact ⟨by simp, by simp, by simp⟩
  · intro row hrow
    rw [hfirst, hsecond]
    refine ⟨(eachFilter_condition_iff rfl).mpr ?_, fun hbackup =>
      ⟨(eachFilter_condition_iff rfl).mpr ?_, fun _ => trivial⟩⟩
    · intro name op value hparts
      cases hparts
      refine ⟨by simp, fun _ => ⟨rfl, rfl⟩, ?_⟩
      rintro _ ts ⟨⟩ hmem
      simp at hmem
    · intro name op value hparts
      cases hparts
      have hrow' : row = backupRow := by
        rcases mem_pair.mp hrow with rfl | rfl
        · cases hbackup
        · rfl
      subst hrow'
      refine ⟨by simp, fun _ => ⟨rfl, rfl⟩, ?_⟩
      rintro _ ts ⟨⟩ _ _ hts
      refine ⟨⟨"name", rfl⟩, ?_⟩
      rintro _ ⟨⟩
      rfl

theorem filterList_nameIs_ok (rt : PyRuntime) {name : String}
    (hname : PyString.endsWith name timestampDesignator = false)
    {rows : List Row} (hrows : ∀ row ∈ rows, row ≠ []) :
    ∃ result, filterList rt rows [nameIs name] { } = .ok (.rows result) := by
  have hvalid : validateFilters rt (maxFiltersDepth + 1) [nameIs name] = .ok [] := by
    have hoperand : validateOperand rt "=" (.str "name") (.str name) (.str name) = .ok [] := by
      unfold validateOperand
      simp [hname]
    have hcondition : validateCondition rt (.str "name") (.str "=") (.str name) = .ok [] := by
      change (validateOperand rt "=" (.str "name") (.str name) (.str name) >>=
        fun second => Except.ok ([] ++ second)) = .ok []
      rw [hoperand]
      rfl
    change (validateCondition rt (.str "name") (.str "=") (.str name) >>= _) >>= _ = _
    rw [hcondition]
    rfl
  have hverdict : ∀ row : Row, ∃ verdict,
      evalFilter rt (some getImpl) (Dict.ofEntries []) (.dict row)
        (maxFiltersDepth + 1) (nameIs name) = .ok verdict := by
    intro row
    have hget : getImpl (.dict row) (.str "name") =
        .ok (.done (row.lookup "name")) := getImpl_column (by decide)
    change ∃ verdict, filterop rt (some getImpl) 5 (.dict row) (.str "name")
      "=" (.str name) = .ok verdict
    rw [filterop]
    simp only [hget, ok_bind]
    cases row.lookup "name" with
    | none => exact ⟨false, rfl⟩
    | some source => exact ⟨source.eq (.str name), rfl⟩
  have hloop : ∀ getter, getter = none ∨ getter = some getImpl → ∃ result,
      doFilters rt [nameIs name] [] false (Dict.ofEntries []) getter rows = .ok result := by
    induction rows with
    | nil => exact fun _ _ => ⟨[], rfl⟩
    | cons row rest ih =>
      intro getter hgetter
      have hrow : row.isEmpty = false := by
        simpa using hrows row mem_cons_self
      have hfound : getter.or (getterFn row) = some getImpl := by
        unfold getterFn
        rcases hgetter with hnone | hsome
        · simp [hnone, hrow]
        · simp [hsome]
      obtain ⟨verdict, hverdict⟩ := hverdict row
      obtain ⟨others, hothers⟩ := ih (fun other hother => hrows other (mem_cons_of_mem row hother))
        (some getImpl) (Or.inr rfl)
      refine ⟨if verdict then row :: others else others, ?_⟩
      rw [doFilters_cons_eq_ok_iff, hfound]
      refine ⟨verdict, ?_, others, hothers, rfl⟩
      rw [allM_cons_eq_ok_iff, hverdict]
      cases verdict with
      | true => exact Or.inr ⟨rfl, rfl⟩
      | false => exact Or.inl ⟨rfl, rfl⟩
  obtain ⟨result, hresult⟩ := hloop none (Or.inl rfl)
  exact ⟨result, filterList_default_eq_ok_iff.mpr ⟨[], hvalid, hresult⟩⟩

/-- The text of one list is looked up in the timestamps of the other. -/
theorem filterList_append_timestamp_text : (∀ rows, (∀ row ∈ rows, row ≠ []) → ∃ result,
      filterList newYearRuntime rows [nameIs "2024-01-01T00:00:00"] { } = .ok (.rows result)) ∧
    filterList newYearRuntime [newYearRow] [createdAtNewYear] { } = .ok (.rows [newYearRow]) ∧
    filterList newYearRuntime [newYearRow] [nameIs "2024-01-01T00:00:00"] { } =
      .ok (.rows [newYearRow]) ∧
    filterList newYearRuntime [newYearRow]
      ([createdAtNewYear] ++ [nameIs "2024-01-01T00:00:00"]) { } = .ok (.rows []) := by
  refine ⟨?_, rfl, rfl, rfl⟩
  intro rows hrows
  exact filterList_nameIs_ok newYearRuntime (by decide) hrows

end Middlewared
