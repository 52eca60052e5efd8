import Middlewared.SchemaClean

/-!
# Immutable settings of an app

The questions of an app become a schema in which an immutable question that has an old value may
only be given that value, and gets it if it is not given.
-/

namespace Middlewared

open List Option

/-- `schema` of a question, with the defaults of the attribute's constructor for
what it does not have.  An attribute that is not editable and has no default is
not built at all. -/
structure QuestionInfo where
  variableName : String
  required : Bool
  default : Option PyValue
  (isPrivate null additionalAttrs editable empty immutable : Bool)
  showIf : Option (List PyValue)
  showSubquestionsIf : Option PyValue
  default_isSome : editable = false → default.isSome

/-- A scalar has the class that its type is mapped to, with the enumeration and
the validators that the question asks for. -/
inductive Question where
  | scalar (info : QuestionInfo) (kind : Attribute → ScalarClass) (subquestions : List Question)
  | dict (info : QuestionInfo) (attrs subquestions : List Question)

namespace Question

def info : Question → QuestionInfo
  | .scalar info _ _ | .dict info _ _ => info

def subquestions : Question → List Question
  | .scalar _ _ subquestions | .dict _ _ subquestions => subquestions

def name (question : Question) : String := question.info.variableName

/-- `existing.get(variable, NOT_PROVIDED)`, where nothing stands for
`NOT_PROVIDED`. -/
def getItem (existing : Option PyValue) (key : String) : Option PyValue :=
  match existing with
  | some (.dict entries) => entries.lookup key
  | _ => none

/-- `obj_kwargs`; `default` is the one that the class falls back to. -/
def attr (info : QuestionInfo) (default existing : Option PyValue) :
    Attribute :=
  let current := getItem existing info.variableName
  let fixed := info.immutable && current.isSome
  { name := info.variableName
    default := if fixed then current else info.default.or default
    required := info.required
    null := info.null
    empty := info.empty
    isPrivate := info.isPrivate
    editable := if fixed then false else info.editable }

def conditionalDefault? (question : Question) :
    Option (String × ConditionalDefault) :=
  let info := question.info
  if info.showSubquestionsIf.isNone && info.showIf.isNone then none
  else some (info.variableName, {
    filters :=
      (info.showSubquestionsIf.map fun value =>
        PyValue.list [.str info.variableName, .str "=", value]).toList ++
        info.showIf.getD []
    attrs :=
      (if info.showSubquestionsIf.isSome then
        question.subquestions.map name else []) ++
        if info.showIf.isSome then [info.variableName] else [] })

/-- `update_conditional_defaults`, which does not look at subquestions. -/
def conditionalDefaults (questions : List Question) :
    Dict String ConditionalDefault :=
  Dict.ofEntries (questions.filterMap conditionalDefault?)

def dictOptions (additionalAttrs : Bool) (questions : List Question) :
    DictOptions where
  additionalAttrs := additionalAttrs
  conditionalDefaults := conditionalDefaults questions
  privateKeys := []
  update := false
  validators _ := .ok ()

/-- `cur_val or NOT_PROVIDED` -/
def orNotProvided (current : Option PyValue) : Option PyValue :=
  current.filter PyValue.truthy

mutual

def getSchema : Question → Option PyValue → List Schema
  | .scalar info kind subquestions, existing =>
    let attr := attr info none existing
    .scalar attr (kind attr) :: getSchemas subquestions existing
  | .dict info attrs subquestions, existing =>
    let current := getItem existing info.variableName
    .dict (attr info (some (.dict [])) existing) (dictOptions info.additionalAttrs attrs)
      (getSchemas attrs (orNotProvided current)) ::
      getSchemas subquestions existing

def getSchemas : List Question → Option PyValue → List Schema
  | [], _ => []
  | question :: questions, existing =>
    getSchema question existing ++ getSchemas questions existing

end

def attributes : Attribute where
  name := "attributes"
  default := some (.dict [])
  required := false
  null := false
  empty := true
  isPrivate := false
  editable := true

def constructSchema (rt : PyRuntime) (questions : List Question)
    (newValues : Row) (oldValues : Option PyValue) :
    Except CleanError PyValue := do
  let schema := Schema.dict attributes (dictOptions true questions)
    (getSchemas questions oldValues)
  let cleaned ← schema.clean rt (some (.dict newValues))
  schema.validate cleaned
  .ok cleaned

/-! ## Places of settings -/

mutual

def withSubquestions : Question → List Question
  | .scalar info kind subquestions =>
    .scalar info kind subquestions :: flattened subquestions
  | .dict info attrs subquestions =>
    .dict info attrs subquestions :: flattened subquestions

def flattened : List Question → List Question
  | [] => []
  | question :: questions => withSubquestions question ++ flattened questions

end

def question? (questions : List Question) (key : String) : Option Question :=
  (flattened questions).reverse.find? fun question => question.name = key

inductive Reaches : List Question → PyValue → List String →
    List Question → PyValue → Prop where
  | here {questions : List Question} {olds : PyValue} : Reaches questions olds [] questions olds
  | inside {questions attrs subquestions siblings : List Question}
      {info : QuestionInfo} {olds inner innerOlds : PyValue} {key : String}
      {path : List String}
      (hfind : question? questions key = some (.dict info attrs subquestions))
      (hold : getItem (some olds) key = some inner)
      (hinside : Reaches attrs inner path siblings innerOlds) :
      Reaches questions olds (key :: path) siblings innerOlds

def valueAt : List String → PyValue → Option PyValue
  | [], value => some value
  | key :: path, value => (getItem (some value) key).bind (valueAt path)

/-- A conditional default of the dictionary is about the key. -/
def Conditional (questions : List Question) (key : String) : Prop :=
  ∃ question ∈ questions, ∃ entry, question.conditionalDefault? = some entry ∧ key ∈ entry.2.attrs

def ownSchema : Question → Option PyValue → Schema
  | .scalar info kind _, existing =>
    .scalar (attr info none existing) (kind (attr info none existing))
  | .dict info attrs _, existing =>
    .dict (attr info (some (.dict [])) existing) (dictOptions info.additionalAttrs attrs)
      (getSchemas attrs (orNotProvided (getItem existing info.variableName)))

def coerce (rt : PyRuntime) (question : Question) (existing : Option PyValue) :
    PyValue → Except CleanError PyValue :=
  match question.ownSchema existing with
  | .scalar _ kind => kind.coerce
  | .dict attr options attrs =>
    coerceDict rt attr (Dict.ofEntries (Schema.fields rt attrs)) options
  | .list _ _ _ | .or _ _ _ _ => fun value => .ok value

variable {rt : PyRuntime}

theorem getSchema_eq (question : Question) (existing : Option PyValue) :
    getSchema question existing = question.ownSchema existing ::
        getSchemas question.subquestions existing := by
  cases question with
  | scalar info kind subquestions => rw [getSchema]; rfl
  | dict info attrs subquestions => rw [getSchema]; rfl

theorem flattened_cons (question : Question) (questions : List Question) :
    flattened (question :: questions) =
      question :: (flattened question.subquestions ++ flattened questions) := by
  cases question <;> rfl

theorem name_ownSchema (question : Question) (existing : Option PyValue) :
    (question.ownSchema existing).name = question.name := by
  cases question <;> rfl

theorem getSchemas_cons (question : Question) (questions : List Question)
    (existing : Option PyValue) :
    getSchemas (question :: questions) existing = question.ownSchema existing ::
        (getSchemas question.subquestions existing ++ getSchemas questions existing) := by
  rw [getSchemas, getSchema_eq, cons_append]

theorem getSchemas_eq (questions : List Question) (existing : Option PyValue) :
    getSchemas questions existing = (flattened questions).map fun question =>
        question.ownSchema existing := by
  match questions with
  | [] => rfl
  | .scalar info kind subquestions :: questions =>
    rw [getSchemas_cons, flattened_cons, map_cons, map_append]
    rw [Question.subquestions, getSchemas_eq subquestions existing,
      getSchemas_eq questions existing]
  | .dict info attrs subquestions :: questions =>
    rw [getSchemas_cons, flattened_cons, map_cons, map_append]
    rw [Question.subquestions, getSchemas_eq subquestions existing,
      getSchemas_eq questions existing]

theorem attr?_getSchemas (questions : List Question) (existing : Option PyValue) (key : String) :
    Schema.attr? (getSchemas questions existing) key = (question? questions key).map fun question =>
        question.ownSchema existing := by
  unfold Schema.attr? question?
  rw [getSchemas_eq, ← map_reverse, find?_map]
  simp only [Function.comp_def, name_ownSchema]

def questionFields (rt : PyRuntime) (questions : List Question)
    (existing : Option PyValue) : Dict String SchemaField :=
  Dict.ofEntries (Schema.fields rt (getSchemas questions existing))

theorem get?_questionFields {questions : List Question}
    {existing : Option PyValue} {key : String} {question : Question}
    (hfind : question? questions key = some question) :
    (questionFields rt questions existing).get? key =
      some ((question.ownSchema existing).toField rt) := by
  unfold questionFields
  rw [Schema.fields_eq, Schema.get?_ofEntries_name, attr?_getSchemas, hfind]
  rfl

theorem name_of_question? {questions : List Question} {key : String}
    {question : Question} (hfind : question? questions key = some question) :
    question.name = key := by
  have hname := find?_some hfind
  simpa using hname

theorem conditional_of_mem {questions : List Question} {key : String}
    {entry : String × ConditionalDefault}
    (hentry : entry ∈ (conditionalDefaults questions).entries)
    (hname : key ∈ entry.2.attrs) : Conditional questions key := by
  have hlookup := Dict.mem_entries_iff.mp hentry
  unfold conditionalDefaults at hlookup
  rw [Dict.get?_ofEntries] at hlookup
  have hmem := Dict.mem_of_lookup_eq_some hlookup
  rw [mem_reverse, mem_filterMap] at hmem
  obtain ⟨question, hquestion, heq⟩ := hmem
  exact ⟨question, hquestion, _, heq, hname⟩

theorem eq_of_attributeClean_fixed {attr : Attribute} {old : PyValue}
    (hfixed : attr.editable = false) (hdefault : attr.default = some old)
    {value : Option PyValue} {cleaned : PyValue}
    (hclean : attr.clean value = .ok cleaned) : cleaned.eq old = true := by
  unfold Attribute.clean at hclean
  split at hclean
  · cases hclean
  · split at hclean
    · cases hclean
    · split at hclean
      · cases hclean
      · rename_i hpass
        cases hclean
        simpa [hfixed, hdefault] using hpass

theorem default_of_attributeClean_none {attr : Attribute}
    (hnull : attr.null = false) {value : Option PyValue}
    (hclean : attr.clean value = .ok .none) : attr.default = some .none := by
  unfold Attribute.clean at hclean
  split at hclean
  · cases hclean
  · rename_i hany
    split at hclean
    · cases hclean
    · rename_i given hgiven
      split at hclean
      · cases hclean
      · cases hclean
        cases value with
        | some other =>
          simp only [some_or, some.injEq] at hgiven
          simp [hgiven, hnull, PyValue.isNone] at hany
        | none => simpa using hgiven

theorem cleanData_of_coerceDict {attr : Attribute}
    {fields : Dict String SchemaField} {options : DictOptions}
    {value : Option PyValue} {given : PyValue} {entries : Row}
    (hattr : attr.clean value = .ok given)
    (hclean : coerceDict rt attr fields options given = .ok (.dict entries)) :
    ∃ data, cleanData rt fields options data = .ok (entries, false) := by
  cases given with
  | none =>
    simp only [coerceDict, Except.ok.injEq] at hclean
    cases hnull : attr.null with
    | true => simp [hnull] at hclean
    | false =>
      have hdefault := default_of_attributeClean_none hnull hattr
      simp [hnull, hdefault] at hclean
  | dict data =>
    obtain ⟨⟨others, failed⟩, hdata, hclean⟩ := bind_eq_ok_iff.mp hclean
    cases failed with
    | true => cases hclean
    | false =>
      cases hclean
      exact ⟨data, raising_eq_ok_iff.mp hdata⟩
  | _ => cases hclean

theorem attr_of_immutable {info : QuestionInfo} (default : Option PyValue)
    {existing : Option PyValue} (himmutable : info.immutable) {old : PyValue}
    (hold : getItem existing info.variableName = some old) :
    (attr info default existing).default = some old ∧
      (attr info default existing).editable = false := by
  simp [attr, himmutable, hold]

theorem coerce_of_clean {question : Question} {existing : Option PyValue}
    (himmutable : question.info.immutable) {old : PyValue}
    (hold : getItem existing question.name = some old)
    {given : Option PyValue} {value : PyValue}
    (hclean : (question.ownSchema existing).clean rt given = .ok value) :
    ∃ kept, kept.eq old = true ∧ question.coerce rt existing kept = .ok value := by
  cases question with
  | scalar info kind subquestions =>
    obtain ⟨hdefault, hfixed⟩ := attr_of_immutable none himmutable hold
    obtain ⟨kept, hattr, hcoerce⟩ := bind_eq_ok_iff.mp hclean
    exact ⟨kept, eq_of_attributeClean_fixed hfixed hdefault hattr, hcoerce⟩
  | dict info attrs subquestions =>
    obtain ⟨hdefault, hfixed⟩ := attr_of_immutable (some (.dict [])) himmutable hold
    obtain ⟨kept, hattr, hcoerce⟩ := bind_eq_ok_iff.mp hclean
    exact ⟨kept, eq_of_attributeClean_fixed hfixed hdefault hattr, hcoerce⟩

theorem hasDefault_of_immutable {question : Question}
    {existing : Option PyValue} (himmutable : question.info.immutable)
    {old : PyValue} (hold : getItem existing question.name = some old) :
    ((question.ownSchema existing).toField rt).hasDefault := by
  cases question with
  | scalar info kind subquestions =>
    have hattr := attr_of_immutable none himmutable hold
    exact isSome_iff_exists.mpr ⟨old, hattr.1⟩
  | dict info attrs subquestions =>
    have hattr := attr_of_immutable (some (.dict [])) himmutable hold
    exact isSome_iff_exists.mpr ⟨old, hattr.1⟩

theorem orNotProvided_of_getItem {inner value : PyValue} {key : String}
    (hitem : getItem (some inner) key = some value) :
    orNotProvided (some inner) = some inner := by
  cases inner with
  | dict entries =>
    have hne : entries ≠ [] := by
      intro hnil
      simp [getItem, hnil] at hitem
    simp [orNotProvided, PyValue.truthy, hne]
  | _ => cases hitem

def KeptBelow (rt : PyRuntime) (questions : List Question) (olds : PyValue)
    (path : List String) (siblings : List Question) (innerOlds : PyValue) :
    Prop :=
  ∀ key question old additionalAttrs data filled,
    question? siblings key = some question → question.info.immutable →
    getItem (some innerOlds) key = some old →
    cleanData rt (questionFields rt questions (some olds))
      (dictOptions additionalAttrs questions) data = .ok (filled, false) →
    (∀ value, valueAt (path ++ [key]) (.dict filled) = some value → ∃ kept, kept.eq old = true ∧
        question.coerce rt (some innerOlds) kept = .ok value) ∧
    (∀ entries, valueAt path (.dict filled) = some (.dict entries) → ¬Conditional siblings key →
        (valueAt (path ++ [key]) (.dict filled)).isSome)

theorem keptBelow_here (questions : List Question) (olds : PyValue) :
    KeptBelow rt questions olds [] questions olds := by
  intro key question old additionalAttrs data filled hfind himmutable hold hclean
  have hfield := @get?_questionFields rt _ (some olds) _ _ hfind
  have hname := name_of_question? hfind
  have hvalueAt : valueAt ([] ++ [key]) (.dict filled) = filled.lookup key := by
    simp only [nil_append, valueAt, getItem]
    cases filled.lookup key <;> rfl
  rw [hvalueAt]
  constructor
  · intro value hvalue
    obtain ⟨given, hgiven⟩ := lookup_cleanData rfl hclean hfield hvalue
    rw [← hname] at hold
    exact coerce_of_clean himmutable hold hgiven
  · intro entries _ hfree
    apply isSome_lookup_cleanData rfl hclean hfield
    · rw [← hname] at hold
      exact hasDefault_of_immutable himmutable hold
    · intro entry hentry hmem
      exact hfree (conditional_of_mem hentry hmem)

theorem cleanData_inside {info : QuestionInfo}
    {attrs subquestions : List Question} {inner : PyValue}
    {existing : Option PyValue}
    (hinner : getItem existing info.variableName = some inner)
    (hprovided : orNotProvided (some inner) = some inner)
    {given : Option PyValue} {entries : Row}
    (hclean : ((Question.dict info attrs subquestions).ownSchema
      existing).clean rt given = .ok (.dict entries)) :
    ∃ data, cleanData rt (questionFields rt attrs (some inner))
      (dictOptions info.additionalAttrs attrs) data = .ok (entries, false) := by
  simp only [ownSchema, Schema.clean, hinner, hprovided] at hclean
  obtain ⟨kept, hattr, hcoerce⟩ := bind_eq_ok_iff.mp hclean
  exact cleanData_of_coerceDict hattr hcoerce

theorem orNotProvided_of_reaches {questions siblings : List Question}
    {inner innerOlds : PyValue} {path : List String}
    (hreaches : Reaches questions inner path siblings innerOlds) {key : String}
    {old : PyValue} (hold : getItem (some innerOlds) key = some old) :
    orNotProvided (some inner) = some inner := by
  cases hreaches with
  | here => exact orNotProvided_of_getItem hold
  | inside _ hinner _ => exact orNotProvided_of_getItem hinner

theorem getItem_of_not_dict {value : PyValue}
    (hdict : ∀ entries, value ≠ .dict entries) (key : String) :
    getItem (some value) key = none := by
  cases value with
  | dict entries => exact absurd rfl (hdict entries)
  | _ => rfl

theorem valueAt_of_not_dict {value : PyValue}
    (hdict : ∀ entries, value ≠ .dict entries) (path : List String)
    (key : String) :
    valueAt (path ++ [key]) value = none ∧
      ∀ entries, valueAt path value ≠ some (.dict entries) := by
  cases path with
  | nil =>
    constructor
    · simp [valueAt, getItem_of_not_dict hdict]
    · intro entries heq
      exact hdict entries (some.inj heq)
  | cons name path => simp [valueAt, getItem_of_not_dict hdict]

theorem keptBelow_of_reaches {questions siblings : List Question}
    {olds innerOlds : PyValue} {path : List String}
    (hreaches : Reaches questions olds path siblings innerOlds) :
    KeptBelow rt questions olds path siblings innerOlds := by
  induction hreaches with
  | here => exact keptBelow_here _ _
  | @inside questions attrs subquestions siblings info olds inner innerOlds
      name path hfind hinner hinside ih =>
      intro key question old additionalAttrs data filled hquestion himmutable hold hclean
      have hprovided := orNotProvided_of_reaches hinside hold
      have hname := name_of_question? hfind
      have hfield := @get?_questionFields rt _ (some olds) _ _ hfind
      have hvalueAt : ∀ path, valueAt (name :: path) (.dict filled) =
          (filled.lookup name).bind (valueAt path) := fun _ => rfl
      rw [cons_append, hvalueAt, hvalueAt]
      cases hlookup : filled.lookup name with
      | none => simp
      | some content =>
        simp only [bind_some]
        by_cases hdict : ∃ entries, content = .dict entries
        · obtain ⟨entries, heq⟩ := hdict
          rw [heq] at hlookup ⊢
          obtain ⟨given, hgiven⟩ := lookup_cleanData rfl hclean hfield hlookup
          rw [← hname] at hinner
          obtain ⟨innerData, hinnerClean⟩ :=
            @cleanData_inside rt info attrs subquestions inner (some olds)
              hinner hprovided given entries hgiven
          exact ih key question old _ innerData entries hquestion himmutable hold hinnerClean
        · have hnone := valueAt_of_not_dict (fun entries heq => hdict ⟨entries, heq⟩) path key
          constructor
          · intro value hvalue
            rw [hnone.1] at hvalue
            cases hvalue
          · intro entries hentries
            exact absurd hentries (hnone.2 entries)

def sampleInfo (name : String) (null immutable : Bool) : QuestionInfo where
  variableName := name
  required := false
  default := none
  isPrivate := false
  null := null
  additionalAttrs := false
  editable := true
  empty := true
  immutable := immutable
  showIf := none
  showSubquestionsIf := none
  default_isSome heq := by cases heq

/-- `Bool` -/
def boolClass : ScalarClass where
  coerce value :=
    match value with
    | .none => .ok .none
    | .bool b => .ok (.bool b)
    | _ => .error .rejected
  validate _ := .ok ()

def readOnly : Question :=
  .scalar (sampleInfo "readonly" false true) (fun _ => boolClass) []

def storage : Question :=
  .dict (sampleInfo "storage" true false) [readOnly] []

def oldStorage : Row := [("storage", .dict [("readonly", .bool true)])]

/-- Where a value stands in the place of an immutable question after cleaning,
it is what the question makes of its old value; and one stands there unless the
dictionary is missing or a conditional default is about the question. -/
theorem constructSchema_keeps_immutable (rt : PyRuntime)
    {questions siblings : List Question} {oldValues newValues : Row}
    {cleaned olds old : PyValue} {path : List String} {key : String}
    {question : Question}
    (hclean : constructSchema rt questions newValues (some (.dict oldValues)) = .ok cleaned)
    (hreaches : Reaches questions (.dict oldValues) path siblings olds)
    (hfind : question? siblings key = some question)
    (himmutable : question.info.immutable)
    (hold : getItem (some olds) key = some old) :
    (∀ value, valueAt (path ++ [key]) cleaned = some value → ∃ kept, kept.eq old = true ∧
        question.coerce rt (some olds) kept = .ok value) ∧
    ((∀ given value, given.eq old = true →
        question.coerce rt (some olds) given = .ok value → value = given) →
      ∀ value, valueAt (path ++ [key]) cleaned = some value → value.eq old = true) ∧
    (∀ entries, valueAt path cleaned = some (.dict entries) →
      ¬Conditional siblings key → (valueAt (path ++ [key]) cleaned).isSome) := by
  obtain ⟨result, hresult, hvalid⟩ := bind_eq_ok_iff.mp hclean
  obtain ⟨_, _, hvalid⟩ := bind_eq_ok_iff.mp hvalid
  cases hvalid
  obtain ⟨given, hattr, hcoerce⟩ := bind_eq_ok_iff.mp hresult
  cases eq_of_attributeClean hattr
  obtain ⟨⟨filled, failed⟩, hdata, hcoerce⟩ := bind_eq_ok_iff.mp hcoerce
  cases failed with
  | true => cases hcoerce
  | false =>
    cases hcoerce
    obtain ⟨hkept, hpresent⟩ := keptBelow_of_reaches hreaches key question old true newValues filled
        hfind himmutable hold (raising_eq_ok_iff.mp hdata)
    refine ⟨hkept, ?_, hpresent⟩
    intro hsame value hvalue
    obtain ⟨kept, heq, hcoerce⟩ := hkept value hvalue
    rw [hsame kept value heq hcoerce]
    exact heq

theorem storage_keeps_readOnly : constructSchema schemaRuntime [storage] [("storage", .dict [])]
      (some (.dict oldStorage)) = .ok (.dict [("storage", .dict [("readonly", .bool true)])]) ∧
    ∀ value, valueAt ["storage", "readonly"]
        (.dict [("storage", .dict [("readonly", .bool true)])]) = some value →
      ∃ kept, kept.eq (.bool true) = true ∧ readOnly.coerce schemaRuntime
        (some (.dict [("readonly", .bool true)])) kept = .ok value := by
  have hclean : constructSchema schemaRuntime [storage] [("storage", .dict [])]
      (some (.dict oldStorage)) = .ok (.dict [("storage", .dict [("readonly", .bool true)])]) := rfl
  have hreaches : Reaches [storage] (.dict oldStorage) ["storage"] [readOnly]
      (.dict [("readonly", .bool true)]) := .inside rfl rfl .here
  have hfind : question? [readOnly] "readonly" = some readOnly := rfl
  have hold : getItem (some (.dict [("readonly", .bool true)])) "readonly" =
      some (.bool true) := rfl
  exact ⟨hclean,
    (constructSchema_keeps_immutable schemaRuntime hclean hreaches hfind rfl hold).1⟩

/-- A nullable dict set to null takes its immutable question with it. -/
theorem storage_null_loses_readOnly : ∃ cleaned,
    constructSchema schemaRuntime [storage] [("storage", .none)]
      (some (.dict oldStorage)) = .ok cleaned ∧
    Reaches [storage] (.dict oldStorage) ["storage"] [readOnly]
      (.dict [("readonly", .bool true)]) ∧
    question? [readOnly] "readonly" = some readOnly ∧
    readOnly.info.immutable ∧
    getItem (some (.dict [("readonly", .bool true)])) "readonly" = some (.bool true) ∧
    ¬∃ value, valueAt ["storage", "readonly"] cleaned = some value ∧
      value.eq (.bool true) = true := by
  refine ⟨_, rfl, .inside rfl rfl .here, rfl, rfl, rfl, ?_⟩
  intro hkept
  obtain ⟨value, hvalue, _⟩ := hkept
  cases hvalue

end Question

end Middlewared
