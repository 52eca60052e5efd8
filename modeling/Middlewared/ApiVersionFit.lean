import Middlewared.ApiValidation
import Middlewared.ApiVersionStep
import Middlewared.ApiWalk

/-!
# Adapted values fit the target version

A value fits a model when its keys are fields of the model, when it has the fields that need not
be given, and when the same holds of the values of its nested models.
-/

namespace Middlewared

open Dict List

variable {M : Type}

section

/-- The model of a field that holds a nested model, or `None`. -/
def soleModel : TypeHint M → Option M
  | .model m => some m
  | .unionType [.model m, .none] => some m
  | .unionType [.none, .model m] => some m
  | _ => none

/-- The model of the items of a field that holds a list of models, or
`None`. -/
def soleItemModel : TypeHint M → Option M
  | .list (.model m) => some m
  | .unionType [.list (.model m), .none] => some m
  | .unionType [.none, .list (.model m)] => some m
  | _ => none

variable (api : M → ModelInfo M)

def fitVisit (m : M) (key : String) (value : ApiValue) : Visit M :=
  match (api m).modelFields.get? key, value with
  | some field, .dict _ => (soleModel field.hint).elim .stop .value
  | some field, .list _ => (soleItemModel field.hint).elim .stop .items
  | some _, .undefined | some _, .scalar _ | none, _ => .stop

def OnlyFields (m : M) (entries : ApiEntries) : Prop :=
  ∀ entry ∈ entries, entry.1 ∈ (api m).modelFields ∧ entry.2.isUndefined = false

/-- `None` and instances that stand for defaults have no keys to check. -/
def FitsHere (m : M) : ApiValue → Prop
  | .dict entries => OnlyFields api m entries ∧ HasDefaults api m (.dict entries)
  | .undefined | .scalar _ | .list _ => True

def Fits (m : M) (value : ApiValue) : Prop :=
  Everywhere (fitVisit api) (FitsHere api) value m

def FitsAt (m : M) (key : String) (value : ApiValue) : Prop :=
  EverywhereAt (fitVisit api) (FitsHere api) m key value

variable {api}

variable {m : M}

theorem fits_dict_iff {entries : ApiEntries} : Fits api m (.dict entries) ↔
    OnlyFields api m entries ∧ HasDefaults api m (.dict entries) ∧
      ∀ entry ∈ entries, FitsAt api m entry.1 entry.2 := by
  unfold Fits
  rw [everywhere_dict_iff, FitsHere, and_assoc]
  exact Iff.rfl

theorem modelFieldIsModel_of_soleModel {hint : TypeHint M}
    (hsole : soleModel hint = some m) : modelFieldIsModel hint = some m := by
  unfold soleModel at hsole
  split at hsole
  all_goals simp_all [modelFieldIsModel, firstModel]

theorem itemModel_of_soleItemModel {hint : TypeHint M} (hsole : soleItemModel hint = some m) :
    (modelFieldIsListOfModels hint).bind modelFieldIsModel = some m := by
  unfold soleItemModel at hsole
  split at hsole
  all_goals simp_all [modelFieldIsListOfModels, firstListOfModels, modelFieldIsModel]

end

section

variable (api : M → ModelInfo M) (direction : Direction)

def conversion (current new : M) : Option Conversion :=
  match direction with
  | .downgrade => (api current).toPrevious
  | .upgrade => (api new).fromPrevious

theorem convert_eq (current new : M) : convert api direction current new =
    (conversion api direction current new).getD .ok := by
  cases direction <;> rfl

/-- What a conversion is given: fields of the two models, the defaults of the
new one among them, and nested values that fit it. -/
structure Prepared (current new : M) (entries : ApiEntries) : Prop where
  keys : ∀ entry ∈ entries, entry.1 ∈ (api current).modelFields ∨ entry.1 ∈ (api new).modelFields
  defaults : HasDefaults api new (.dict entries)
  fits : ∀ entry ∈ entries, FitsAt api new entry.1 entry.2

/-- What is asked of the declarations of the fields: no field has an alias,
the fields whose default is undefined are the excluded ones and those of
models for updates, and the defaults fit. -/
structure Declared : Prop where
  noAlias : ∀ m name field, (api m).modelFields.get? name = some field → field.aliasName = none
  excluded : ∀ m name field, (api m).modelFields.get? name = some field →
    field.exclude = true → field.isRequired = false → field.getDefault.isUndefined = true
  undefined : ∀ m name field content, (api m).modelFields.get? name = some field →
    field.default.content = some content →
    (modelDump api false true content).isUndefined = true → field.exclude = true ∨
        ((api m).forUpdate = true ∧ content.isUndefined = true)
  default : ∀ m name field, (api m).modelFields.get? name = some field →
    FitsAt api m name field.getDefault
  content : ∀ m name field content, (api m).modelFields.get? name = some field →
    field.default.content = some content → FitsAt api m name (modelDump api false true content)

structure Follows (r : M → M → Prop) : Prop where
  nested : ∀ current new, r current new → ∀ key currentField newField,
    (api current).modelFields.get? key = some currentField →
    (api new).modelFields.get? key = some newField →
    ∀ nestedNew, soleModel newField.hint = some nestedNew →
      ∃ nestedCurrent, soleModel currentField.hint = some nestedCurrent ∧
        sameMetaclass api nestedCurrent nestedNew = true ∧
        r nestedCurrent nestedNew
  items : ∀ current new, r current new → ∀ key currentField newField,
    (api current).modelFields.get? key = some currentField →
    (api new).modelFields.get? key = some newField →
    ∀ nestedNew, soleItemModel newField.hint = some nestedNew → ∃ nestedCurrent,
        soleItemModel currentField.hint = some nestedCurrent ∧
        sameMetaclass api nestedCurrent nestedNew = true ∧
        r nestedCurrent nestedNew
  converted : ∀ current new, r current new → ∀ f, conversion api direction current new = some f →
    ∀ entries result, Prepared api current new entries →
    f entries = .ok result → Fits api new (.dict (dropUndefined result))

end

/-! ## One step -/

section

variable {api : M → ModelInfo M} {direction : Direction}
  {r : M → M → Prop} {current new : M} {key : String}

theorem adaptNested_undefined : adaptNested api direction current new key .undefined =
    .ok .undefined := by
  have hstep : nestedStep api current new key .undefined = .keep := by
    unfold nestedStep
    split <;> rfl
  rw [adaptNested, hstep]

theorem adaptNested_scalar {value : Scalar} :
    adaptNested api direction current new key (.scalar value) = .ok (.scalar value) := by
  have hstep : nestedStep api current new key (.scalar value) = .keep := by
    unfold nestedStep
    split <;> rfl
  rw [adaptNested, hstep]

variable {result : ApiValue} {entries : ApiEntries}

theorem adaptNested_dict (hadapt : adaptNested api direction current new key (.dict entries) =
      .ok result) : ∃ results, result = .dict results := by
  unfold adaptNested at hadapt
  split at hadapt
  · cases hadapt
    exact ⟨entries, rfl⟩
  · obtain ⟨_, adapted, _, _, hfinish⟩ := adaptValue_eq_ok_iff.mp hadapt
    obtain ⟨converted, _, hresult⟩ := bind_eq_ok_iff.mp hfinish
    cases hresult
    exact ⟨_, rfl⟩
  · simp [adaptList] at hadapt

theorem adaptNested_list {items : List ApiValue}
    (hadapt : adaptNested api direction current new key (.list items) =
      .ok result) : ∃ results, result = .list results := by
  unfold adaptNested at hadapt
  split at hadapt
  · cases hadapt
    exact ⟨items, rfl⟩
  · simp [adaptValue] at hadapt
  · obtain ⟨results, hresult, _⟩ := adaptList_eq_ok_iff.mp hadapt
    exact ⟨results, hresult⟩

variable {value : ApiValue}

theorem adaptNested_isUndefined
    (hadapt : adaptNested api direction current new key value = .ok result) :
    result.isUndefined = value.isUndefined := by
  cases value with
  | undefined =>
    rw [adaptNested_undefined] at hadapt
    cases hadapt
    rfl
  | scalar _ =>
    rw [adaptNested_scalar] at hadapt
    cases hadapt
    rfl
  | dict _ =>
    obtain ⟨results, rfl⟩ := adaptNested_dict hadapt
    rfl
  | list _ =>
    obtain ⟨results, rfl⟩ := adaptNested_list hadapt
    rfl

theorem fitsAt_of_visit_stop (hstop : fitVisit api new key value = .stop) :
    FitsAt api new key value :=
  .of_stop hstop

theorem adaptNested_fitsAt (hfollows : Follows api direction r)
    (hr : r current new) (hkey : key ∈ (api current).modelFields)
    (hfits : FitsAt api current key value)
    (hvalue : ∀ current new result, r current new → Fits api current value →
      adaptValue api direction value current new = .ok result → Fits api new result)
    (hitems : ∀ items, value = .list items → ∀ item ∈ items,
      ∀ current new result, r current new → Fits api current item →
      adaptValue api direction item current new = .ok result → Fits api new result)
    (hadapt : adaptNested api direction current new key value = .ok result) :
    FitsAt api new key result := by
  obtain ⟨currentField, hcurrent⟩ := exists_get?_of_mem hkey
  cases hnew : (api new).modelFields.get? key with
  | none =>
    apply fitsAt_of_visit_stop
    simp [fitVisit, hnew]
  | some newField =>
    cases value with
    | undefined =>
      rw [adaptNested_undefined] at hadapt
      cases hadapt
      apply fitsAt_of_visit_stop
      simp [fitVisit, hnew]
    | scalar value =>
      rw [adaptNested_scalar] at hadapt
      cases hadapt
      apply fitsAt_of_visit_stop
      simp [fitVisit, hnew]
    | dict entries =>
      obtain ⟨results, rfl⟩ := adaptNested_dict hadapt
      cases hsole : soleModel newField.hint with
      | none =>
        apply fitsAt_of_visit_stop
        simp [fitVisit, hnew, hsole]
      | some nestedNew =>
        obtain ⟨nestedCurrent, hsole', hmeta, hrel⟩ := hfollows.nested
          current new hr key currentField newField hcurrent hnew
          nestedNew hsole
        have hstep : nestedStep api current new key (.dict entries) =
            .model nestedCurrent nestedNew := by
          simp [nestedStep, nestedModels, hcurrent, hnew, hmeta,
            modelFieldIsModel_of_soleModel hsole,
            modelFieldIsModel_of_soleModel hsole']
        rw [adaptNested, hstep] at hadapt
        have hvisit : fitVisit api current key (.dict entries) = .value nestedCurrent := by
          simp [fitVisit, hcurrent, hsole']
        have hvisitNew : fitVisit api new key (.dict results) = .value nestedNew := by
          simp [fitVisit, hnew, hsole]
        apply EverywhereAt.of_value hvisitNew
        exact hvalue nestedCurrent nestedNew _ hrel
          (EverywhereAt.value hfits nestedCurrent hvisit) hadapt
    | list items =>
      obtain ⟨results, rfl⟩ := adaptNested_list hadapt
      cases hsole : soleItemModel newField.hint with
      | none =>
        apply fitsAt_of_visit_stop
        simp [fitVisit, hnew, hsole]
      | some nestedNew =>
        obtain ⟨nestedCurrent, hsole', hmeta, hrel⟩ := hfollows.items
          current new hr key currentField newField hcurrent hnew
          nestedNew hsole
        have hstep : nestedStep api current new key (.list items) =
            .list nestedCurrent nestedNew := by
          simp [nestedStep, nestedItemModels, nestedModels, hcurrent,
            hnew, hmeta, itemModel_of_soleItemModel hsole,
            itemModel_of_soleItemModel hsole']
        rw [adaptNested, hstep] at hadapt
        obtain ⟨_, hresults, hall⟩ := adaptList_eq_ok_iff.mp hadapt
        cases hresults
        have hvisit : fitVisit api current key (.list items) = .items nestedCurrent := by
          simp [fitVisit, hcurrent, hsole']
        have hvisitNew : fitVisit api new key (.list results) = .items nestedNew := by
          simp [fitVisit, hnew, hsole]
        apply EverywhereAt.of_items hvisitNew
        intro result hresult
        obtain ⟨item, hitem, hadapted⟩ := exists_mem_of_forall₂ hall hresult
        exact hitems items rfl item hitem nestedCurrent nestedNew result
          hrel (EverywhereAt.items hfits nestedCurrent items hvisit rfl item hitem) hadapted

theorem prepared_filled (hdeclared : Declared api)
    (hkeys : ∀ entry ∈ entries, entry.1 ∈ (api current).modelFields)
    (hfits : ∀ entry ∈ entries, FitsAt api new entry.1 entry.2) :
    Prepared api current new (entries ++ missingDefaults api new entries) := by
  constructor
  · rintro ⟨name, value⟩ hentry
    rcases mem_append.mp hentry with hentry | hentry
    · exact .inl (hkeys (name, value) hentry)
    · obtain ⟨_, _, field, hfield, _⟩ := mem_missingDefaults_iff.mp hentry
      exact .inr (mem_of_get?_eq_some hfield)
  · intro hupdate name field hfield hrequired _
    rw [Dict.lookup_isSome_iff, map_append, mem_append]
    by_cases hpresent : (entries.lookup name).isSome
    · exact .inl ((Dict.lookup_isSome_iff entries name).mp hpresent)
    · right
      have hmissing := Option.not_isSome_iff_eq_none.mp hpresent
      have hmem : (name, field.getDefault) ∈ missingDefaults api new entries :=
        mem_missingDefaults_iff.mpr ⟨hupdate, hmissing, field, hfield, hrequired, rfl⟩
      exact List.mem_map_of_mem hmem
  · rintro ⟨name, value⟩ hentry
    rcases mem_append.mp hentry with hentry | hentry
    · exact hfits (name, value) hentry
    · obtain ⟨_, _, field, hfield, _, rfl⟩ := mem_missingDefaults_iff.mp hentry
      exact hdeclared.default new name field hfield

theorem fits_of_unconverted (hkeys : ∀ entry ∈ entries, entry.1 ∈ (api current).modelFields ∧
      entry.2.isUndefined = false)
    (hprepared : Prepared api current new (entries ++ missingDefaults api new entries)) :
    Fits api new (.dict (dropUndefined (dropRemoved api current new
      (entries ++ missingDefaults api new entries)))) := by
  rw [fits_dict_iff]
  refine ⟨?_, ?_, ?_⟩
  · rintro ⟨name, value⟩ hentry
    simp only [dropUndefined, dropRemoved, mem_filter, mem_append,
      Bool.not_eq_true', Bool.and_eq_false_iff, decide_eq_false_iff_not,
      not_not] at hentry
    obtain ⟨⟨hentry, hkept⟩, hdefined⟩ := hentry
    refine ⟨?_, hdefined⟩
    rcases hprepared.keys _ (mem_append.mpr hentry) with hold | hnew
    · exact hkept.resolve_left fun hgone => hgone hold
    · exact hnew
  · intro hupdate name field hfield hrequired hdefined
    have hpresent := hprepared.defaults hupdate name field hfield hrequired hdefined
    rw [Dict.lookup_isSome_iff, List.mem_map] at hpresent ⊢
    obtain ⟨⟨found, value⟩, hentry, hname⟩ := hpresent
    simp only at hname
    subst found
    refine ⟨(name, value), ?_, rfl⟩
    have hvalue : value.isUndefined = false := by
      rcases mem_append.mp hentry with hentry | hentry
      · exact (hkeys _ hentry).2
      · obtain ⟨_, _, other, hother, _, rfl⟩ := mem_missingDefaults_iff.mp hentry
        cases hfield.symm.trans hother
        exact hdefined
    simp only [dropUndefined, dropRemoved, mem_filter, hentry, mem_of_get?_eq_some hfield, hvalue]
    simp
  · intro entry hentry
    apply hprepared.fits
    exact mem_of_mem_filter (mem_of_mem_filter hentry)

theorem finishValue_fits (hdeclared : Declared api)
    (hfollows : Follows api direction r) (hr : r current new)
    (hkeys : ∀ entry ∈ entries, entry.1 ∈ (api current).modelFields ∧ entry.2.isUndefined = false)
    (hfits : ∀ entry ∈ entries, FitsAt api new entry.1 entry.2)
    (hfinish : finishValue api direction current new entries = .ok result) :
    Fits api new result := by
  have hprepared := prepared_filled hdeclared (fun entry hentry => (hkeys entry hentry).1) hfits
  rw [finishValue, bind_eq_ok_iff] at hfinish
  obtain ⟨converted, hconvert, hresult⟩ := hfinish
  cases hresult
  rw [convert_eq] at hconvert
  cases hconversion : conversion api direction current new with
  | none =>
    rw [hconversion] at hconvert
    cases hconvert
    exact fits_of_unconverted hkeys hprepared
  | some f =>
    rw [hconversion] at hconvert
    have hconverted := hfollows.converted current new hr f hconversion _
      converted hprepared hconvert
    have hkept : dropUndefined (dropRemoved api current new converted) =
        dropUndefined converted := by
      simp only [dropUndefined, dropRemoved, List.filter_filter]
      apply filter_congr
      intro entry hentry
      cases hdefined : entry.2.isUndefined with
      | true => rfl
      | false =>
        have hmem : entry ∈ dropUndefined converted :=
          mem_filter.mpr ⟨hentry, by simp [hdefined]⟩
        have hfield := ((fits_dict_iff.mp hconverted).1 entry hmem).1
        simp [hfield]
    rw [hkept]
    exact hconverted

theorem adaptValue_fits (hdeclared : Declared api)
    (hfollows : Follows api direction r) (hr : r current new)
    (hfits : Fits api current value)
    (hadapt : adaptValue api direction value current new = .ok result) :
    Fits api new result := by
  induction value using ApiValue.walkInduction generalizing current new result with
  | leaf value hleaf =>
    obtain ⟨entries, _, hvalue, _⟩ := adaptValue_eq_ok_iff.mp hadapt
    exact absurd hvalue (hleaf entries)
  | dict entries ihvalue ihitems =>
    obtain ⟨_, adapted, hentries, hall, hfinish⟩ := adaptValue_eq_ok_iff.mp hadapt
    cases hentries
    rw [adaptEntries_eq_ok_iff] at hall
    obtain ⟨honly, _, hentries⟩ := fits_dict_iff.mp hfits
    apply finishValue_fits hdeclared hfollows hr _ _ hfinish
    · intro entry hentry
      obtain ⟨source, hsource, hkey, hnested⟩ := exists_mem_of_forall₂ hall hentry
      rw [hkey, adaptNested_isUndefined hnested]
      exact honly source hsource
    · intro entry hentry
      obtain ⟨source, hsource, hkey, hnested⟩ := exists_mem_of_forall₂ hall hentry
      rw [hkey]
      apply adaptNested_fitsAt hfollows hr (honly source hsource).1
        (hentries source hsource) _ _ hnested
      · intro nestedCurrent nestedNew result hrel hfits hadapt
        exact ihvalue source hsource hrel hfits hadapt
      · intro items hlist item hitem nestedCurrent nestedNew result hrel hfits hadapt
        exact ihitems source hsource items hlist item hitem hrel hfits hadapt

end

section

variable {api : M → ModelInfo M} {direction : Direction}
  {r : M → M → Prop} {modelName : String} {target : M}

theorem adaptAlong_fits (hdeclared : Declared api) (hfollows : Follows api direction r) {m : M}
    {value result : ApiValue} {current : ApiVersion M}
    {path : List (ApiVersion M)}
    (hcurrent : current.models.get? modelName = some m)
    (hpath : ModelPath r modelName target m path)
    (hfits : Fits api m value)
    (hadapt : adaptAlong api direction modelName (.ok value) current path =
      .ok result) : Fits api target result := by
  induction path generalizing current m value with
  | nil =>
    cases hadapt
    subst target
    exact hfits
  | cons new rest ih =>
    obtain ⟨next, hnew, hrel, hrest⟩ := hpath
    obtain ⟨adapted, hstep, hlater⟩ := (adaptAlong_cons_eq_ok_iff hcurrent hnew hrest).mp hadapt
    exact ih hnew hrest (adaptValue_fits hdeclared hfollows hrel hfits hstep) hlater

end

/-! ## Validated values -/

section

variable {api : M → ModelInfo M} {library : Validation M}

variable {m : M}

theorem fitsAt_of_hint {name : String} {field : FieldInfo M} {value : ApiValue}
    (hfield : (api m).modelFields.get? name = some field)
    (hvalue : ∀ nested, soleModel field.hint = some nested → Fits api nested value)
    (hitems : ∀ nested, soleItemModel field.hint = some nested →
      ∀ items, value = .list items → ∀ item ∈ items, Fits api nested item) :
    FitsAt api m name value := by
  cases value with
  | undefined | scalar _ =>
    apply fitsAt_of_visit_stop
    simp [fitVisit, hfield]
  | dict entries =>
    cases hsole : soleModel field.hint with
    | none =>
      apply fitsAt_of_visit_stop
      simp [fitVisit, hfield, hsole]
    | some nested =>
      have hvisit : fitVisit api m name (.dict entries) = .value nested := by
        simp [fitVisit, hfield, hsole]
      exact EverywhereAt.of_value hvisit (hvalue nested hsole)
  | list items =>
    cases hsole : soleItemModel field.hint with
    | none =>
      apply fitsAt_of_visit_stop
      simp [fitVisit, hfield, hsole]
    | some nested =>
      have hvisit : fitVisit api m name (.list items) = .items nested := by
        simp [fitVisit, hfield, hsole]
      exact EverywhereAt.of_items hvisit (hitems nested hsole items rfl)

theorem dumpKey_eq (hdeclared : Declared api) (m : M) (name : String) :
    dumpKey api m name = name := by
  unfold dumpKey
  cases hfield : (api m).modelFields.get? name with
  | none => rfl
  | some field =>
    simp [FieldInfo.key, hdeclared.noAlias m name field hfield]

theorem soleModel_unionType_cases {members : List (TypeHint M)}
    (hsole : soleModel (.unionType members) = some m) {member : TypeHint M}
    (hmember : member ∈ members) : member = .model m ∨ member = .none := by
  unfold soleModel at hsole
  split at hsole
  all_goals simp_all
  all_goals tauto

theorem soleItemModel_unionType_cases {members : List (TypeHint M)}
    (hsole : soleItemModel (.unionType members) = some m) {member : TypeHint M}
    (hmember : member ∈ members) :
    member = .list (.model m) ∨ member = .none := by
  unfold soleItemModel at hsole
  split at hsole
  all_goals simp_all
  all_goals tauto

structure DumpFits (api : M → ModelInfo M) (hint : TypeHint M)
    (content : Instance M) : Prop where
  defined : (modelDump api false true content).isUndefined = false
  value : ∀ nested, soleModel hint = some nested →
    Fits api nested (modelDump api false true content)
  items : ∀ nested, soleItemModel hint = some nested →
    ∀ items, modelDump api false true content = .list items → ∀ item ∈ items, Fits api nested item

theorem fits_modelDumpFields (hdeclared : Declared api) {fields : InstanceFields M}
    (hnames : fields.map Prod.fst = (api m).modelFields.keys)
    (hset : ∀ name content field, (name, true, content) ∈ fields →
      (api m).modelFields.get? name = some field → DumpFits api field.hint content)
    (hunset : ∀ name content field, (name, false, content) ∈ fields →
      (api m).modelFields.get? name = some field → field.default.content = some content) :
    Fits api m (.dict (modelDumpFields api false true m fields)) := by
  have hfield : ∀ name wasSet content, (name, wasSet, content) ∈ fields →
      ∃ field, (api m).modelFields.get? name = some field := by
    intro name wasSet content hmem
    apply exists_get?_of_mem
    rw [Dict.mem_def, ← hnames]
    exact List.mem_map_of_mem hmem
  rw [fits_dict_iff]
  refine ⟨?_, ?_, ?_⟩
  · rintro ⟨key, value⟩ hentry
    obtain ⟨name, wasSet, content, hmem, hkept, rfl, rfl⟩ := mem_modelDumpFields_iff.mp hentry
    obtain ⟨field, hget⟩ := hfield name wasSet content hmem
    simp only [dumpKey_eq hdeclared]
    refine ⟨mem_of_get?_eq_some hget, ?_⟩
    cases wasSet with
    | true => exact (hset name content field hmem hget).defined
    | false =>
      by_contra hundefined
      have hreason := hdeclared.undefined m name field content hget
        (hunset name content field hmem hget) (by simpa using hundefined)
      rcases hreason with hexclude | ⟨hupdate, hcontent⟩
      · simp [leftOut, hget, hexclude] at hkept
      · simp [leftOut, hupdate, hcontent] at hkept
  · intro hupdate name field hget hrequired hdefined
    have hmem : name ∈ fields.map Prod.fst := by
      rw [hnames]
      exact mem_of_get?_eq_some hget
    obtain ⟨⟨other, wasSet, content⟩, hmem, hname⟩ := List.mem_map.mp hmem
    simp only at hname
    subst other
    have hexclude : field.exclude = false := by
      by_contra hexclude
      have hundefined := hdeclared.excluded m name field hget (by simpa using hexclude) hrequired
      rw [hdefined] at hundefined
      cases hundefined
    have hentry : (name, modelDump api false true content) ∈
        modelDumpFields api false true m fields := by
      rw [mem_modelDumpFields_iff]
      refine ⟨name, wasSet, content, hmem, ?_, (dumpKey_eq hdeclared m name).symm, rfl⟩
      simp [leftOut, hget, hexclude, hupdate]
    rw [Dict.lookup_isSome_iff]
    exact List.mem_map_of_mem hentry
  · rintro ⟨key, value⟩ hentry
    obtain ⟨name, wasSet, content, hmem, _, rfl, rfl⟩ := mem_modelDumpFields_iff.mp hentry
    obtain ⟨field, hget⟩ := hfield name wasSet content hmem
    simp only [dumpKey_eq hdeclared]
    cases wasSet with
    | true =>
      have hdump := hset name content field hmem hget
      exact fitsAt_of_hint hget hdump.value hdump.items
    | false =>
      exact hdeclared.content m name field content hget (hunset name content field hmem hget)

theorem dumpFits_none : DumpFits api .none (.value .none) := by
  constructor
  · rfl
  · simp [soleModel]
  · simp [soleItemModel]

theorem dumpFits_of_validates (hdeclared : Declared api)
    {hint : TypeHint M} {value : ApiValue} {content : Instance M}
    (hvalid : Validates api library hint value content) :
    DumpFits api hint content := by
  induction hvalid with
  | @model m entries fields hnames hextra hgiven hset hunset ihset =>
    have hfits : Fits api m (.dict (modelDumpFields api false true m fields)) := by
      apply fits_modelDumpFields hdeclared hnames
      · intro name content field hmem hget
        obtain ⟨value, hvalue⟩ := Option.isSome_iff_exists.mp (hgiven name content field hmem hget)
        exact ihset name content field value hmem hget hvalue
      · intro name content field hmem hget
        exact (hunset name content field hmem hget).2
    constructor
    · rfl
    · intro nested hsole
      cases hsole
      exact hfits
    · simp [soleItemModel]
  | @unionType members member value content hchosen hmember hvalue ih =>
    constructor
    · exact ih.defined
    · intro nested hsole
      rcases soleModel_unionType_cases hsole hmember with rfl | rfl
      · exact ih.value nested rfl
      · cases hvalue
        exact trivial
    · intro nested hsole items hdump
      rcases soleItemModel_unionType_cases hsole hmember with rfl | rfl
      · exact ih.items nested rfl items hdump
      · cases hvalue
        cases hdump
  | typingUnion hchosen hmember hvalue ih =>
    constructor
    · exact ih.defined
    · simp [soleModel]
    · simp [soleItemModel]
  | @list hint items contents hlength hitems ih =>
    constructor
    · rfl
    · simp [soleModel]
    · intro nested hsole dumped hdump item hitem
      have hhint : hint = .model nested := by
        cases hint <;> simp_all [soleItemModel]
      simp only [modelDump, modelDumpItems_eq, ApiValue.list.injEq] at hdump
      rw [← hdump] at hitem
      obtain ⟨content, hcontent, rfl⟩ := List.mem_map.mp hitem
      obtain ⟨k, hk, hget⟩ := getElem_of_mem hcontent
      have hk' : k < items.length := by omega
      apply (ih k (items.get ⟨k, hk'⟩) content (by simp [hk']) (by simp [hk, hget])).value nested
      rw [hhint]
      rfl
  | secret hvalue ih =>
    constructor
    · exact ih.defined
    · simp [soleModel]
    · simp [soleItemModel]
  | annotated hvalue ih =>
    constructor
    · exact ih.defined
    · simp [soleModel]
    · simp [soleItemModel]
  | none => exact dumpFits_none
  | other hleaf hdefined =>
    constructor
    · exact hdefined
    · simp [soleModel]
    · simp [soleItemModel]

end

namespace ApiVersionsAdapter

def direction (adapter : ApiVersionsAdapter M) (version1 version2 : String) :
    Direction :=
  match adapter.index version1, adapter.index version2 with
  | .ok first, .ok last => (adapter.versionsBetween first last).1
  | .error _, _ | _, .error _ => .downgrade

end ApiVersionsAdapter

/-- What the adaptation returns fits the model of the second version. -/
theorem adapt_fits {api : M → ModelInfo M} {construct : Construct M}
    {library : Validation M} {adapter : ApiVersionsAdapter M}
    {r : M → M → Prop} {modelName version1 version2 : String} {m target : M}
    {value : ApiEntries} {result : ApiValue}
    (hsound : construct.Sound api library m value)
    (hdeclared : Declared api)
    (hfollows : Follows api (adapter.direction version1 version2) r)
    (hroute : adapter.Route r modelName version1 version2 m target)
    (hadapt : adapter.adapt api construct value modelName version1 version2 =
      .ok result) : Fits api target result := by
  obtain ⟨first, last, current, hfirst, hlast, hcurrent, hmodel, hpath⟩ := hroute
  rw [ApiVersionsAdapter.direction, hfirst, hlast] at hfollows
  rw [ApiVersionsAdapter.adapt_eq_adaptAlong hfirst hlast hcurrent hmodel] at hadapt
  cases hvalid : validateModel api construct m value false true with
  | error e =>
    rw [hvalid] at hadapt
    simp only [Except.map, adaptAlong_error hmodel hpath, reduceCtorEq] at hadapt
  | ok validated =>
    rw [hvalid] at hadapt
    apply adaptAlong_fits hdeclared hfollows hmodel hpath _ hadapt
    unfold validateModel at hvalid
    split at hvalid
    · cases hvalid
    · rename_i fields hconstruct
      cases hvalid
      exact (dumpFits_of_validates hdeclared (hsound fields hconstruct)).value m rfl

/-! ## Contacts with a note -/

section

private inductive ContactModel where
  | settings1
  | settings2
  | contact1
  | contact2

private def noteDefault : FieldDefault ContactModel := .value (.str "") (.value (.str ""))

private def contactApi : ContactModel → ModelInfo ContactModel
  | .settings1 =>
    .plain [("contacts", .plain (.list (.model .contact1)) .required)]
  | .settings2 =>
    .plain [("contacts", .plain (.list (.model .contact2)) .required)]
  | .contact1 => .plain [("name", .plain (.other "str") .required)]
  | .contact2 =>
    { ModelInfo.plain
        [("name", .plain (.other "str") .required),
          ("note", .plain (.other "str") noteDefault)] with
      fromPrevious := some fun entries => do
        return [("name", ← getItem entries "name"), ("note", .str "")] }

private inductive ContactUpgrade : ContactModel → ContactModel → Prop where
  | settings : ContactUpgrade .settings1 .settings2
  | contact : ContactUpgrade .contact1 .contact2

private def contactAdapter : ApiVersionsAdapter ContactModel := .ofList
    [⟨"v1", Dict.ofEntries [("Settings", .settings1)]⟩,
      ⟨"v2", Dict.ofEntries [("Settings", .settings2)]⟩]

variable {name : String}

private theorem contact_field_cases {m : ContactModel} {field : FieldInfo ContactModel}
    (hfield : (contactApi m).modelFields.get? name = some field) :
    field.aliasName = none ∧ field.exclude = false ∧
      (field.default = .required ∨ field.default = noteDefault) := by
  have hentry := mem_entries_iff.mpr hfield
  cases m with
  | settings1 =>
    cases mem_singleton.mp hentry
    exact ⟨rfl, rfl, .inl rfl⟩
  | settings2 =>
    cases mem_singleton.mp hentry
    exact ⟨rfl, rfl, .inl rfl⟩
  | contact1 =>
    cases mem_singleton.mp hentry
    exact ⟨rfl, rfl, .inl rfl⟩
  | contact2 =>
    rcases mem_cons.mp hentry with hentry | hentry
    · cases hentry
      exact ⟨rfl, rfl, .inl rfl⟩
    · cases mem_singleton.mp hentry
      exact ⟨rfl, rfl, .inr rfl⟩

private theorem fitsAt_scalar {M : Type} {api : M → ModelInfo M} {m : M}
    {key : String} {value : Scalar} : FitsAt api m key (.scalar value) := by
  apply fitsAt_of_visit_stop
  unfold fitVisit
  split <;> simp_all

private theorem contact_declared : Declared contactApi := by
  constructor
  · intro m name field hfield
    exact (contact_field_cases hfield).1
  · intro m name field hfield hexclude
    rw [(contact_field_cases hfield).2.1] at hexclude
    cases hexclude
  · intro m name field content hfield hcontent hundefined
    rcases (contact_field_cases hfield).2.2 with hdefault | hdefault
    · rw [hdefault] at hcontent
      cases hcontent
    · rw [hdefault] at hcontent
      cases hcontent
      cases hundefined
  · intro m name field hfield
    rcases (contact_field_cases hfield).2.2 with hdefault | hdefault
    · rw [FieldInfo.getDefault, hdefault]
      exact fitsAt_scalar
    · rw [FieldInfo.getDefault, hdefault]
      exact fitsAt_scalar
  · intro m name field content hfield hcontent
    rcases (contact_field_cases hfield).2.2 with hdefault | hdefault
    · rw [hdefault] at hcontent
      cases hcontent
    · rw [hdefault] at hcontent
      cases hcontent
      exact fitsAt_scalar

private theorem contact_soleModel {m : ContactModel} {field : FieldInfo ContactModel}
    (hfield : (contactApi m).modelFields.get? name = some field) :
    soleModel field.hint = none := by
  have hentry := mem_entries_iff.mpr hfield
  cases m with
  | settings1 | settings2 | contact1 =>
    cases mem_singleton.mp hentry
    rfl
  | contact2 =>
    rcases mem_cons.mp hentry with hentry | hentry
    · cases hentry
      rfl
    · cases mem_singleton.mp hentry
      rfl

private theorem contact_converted {entries result : ApiEntries}
    (hconvert : (do
      return [("name", ← getItem entries "name"), ("note", .str "")]) = Except.ok result) :
    Fits contactApi .contact2 (.dict (dropUndefined result)) := by
  obtain ⟨value, _, hresult⟩ := bind_eq_ok_iff.mp hconvert
  cases hresult
  have hname : (contactApi .contact2).modelFields.get? "name" =
      some (.plain (.other "str") .required) := rfl
  have hnote : "note" ∈ (contactApi .contact2).modelFields := by decide
  rw [fits_dict_iff]
  refine ⟨?_, ?_, ?_⟩
  · intro entry hentry
    obtain ⟨hentry, hdefined⟩ := mem_filter.mp hentry
    rcases mem_cons.mp hentry with rfl | hentry
    · exact ⟨mem_of_get?_eq_some hname, by simpa using hdefined⟩
    · rw [mem_singleton.mp hentry]
      exact ⟨hnote, rfl⟩
  · intro _ name field hfield hrequired _
    have hentry := mem_entries_iff.mpr hfield
    rcases mem_cons.mp hentry with hentry | hentry
    · cases hentry
      cases hrequired
    · cases mem_singleton.mp hentry
      rw [Dict.lookup_isSome_iff, List.mem_map]
      exact ⟨("note", .str ""), by simp [dropUndefined, ApiValue.str,
        ApiValue.isUndefined], rfl⟩
  · intro entry hentry
    have hentry := mem_of_mem_filter hentry
    rcases mem_cons.mp hentry with rfl | hentry
    · exact fitsAt_of_hint hname (by simp [FieldInfo.plain, soleModel])
        (by simp [FieldInfo.plain, soleItemModel])
    · rw [mem_singleton.mp hentry]
      exact fitsAt_scalar

private theorem contact_follows : Follows contactApi .upgrade ContactUpgrade := by
  constructor
  · intro current new _ key currentField newField _ hnew nested hsole
    rw [contact_soleModel hnew] at hsole
    cases hsole
  · rintro _ _ (_ | _) key currentField newField hcurrent hnew nested hsole
    · cases mem_singleton.mp (mem_entries_iff.mpr hcurrent)
      cases mem_singleton.mp (mem_entries_iff.mpr hnew)
      cases hsole
      exact ⟨.contact1, rfl, rfl, .contact⟩
    · rcases mem_cons.mp (mem_entries_iff.mpr hnew) with hentry | hentry
      · cases hentry
        cases hsole
      · cases mem_singleton.mp hentry
        cases hsole
  · rintro _ _ (_ | _) f hf entries result _ hconvert
    · cases hf
    · cases hf
      exact contact_converted hconvert

private def janeFields : InstanceFields ContactModel := [("contacts", true, .list
    [.model .contact1 [("name", true, .value (.str "Jane"))]])]

private def janeSettings : ApiEntries := [("contacts", .list [.dict [("name", .str "Jane")]])]

private def contactLibrary : Validation ContactModel where
  member _ _ := none
  leaf _ value := some value

private theorem validates_single {M : Type} {api : M → ModelInfo M}
    {library : Validation M} {m : M} {hint : TypeHint M} {value : ApiValue}
    {content : Instance M}
    (hfields : (api m).modelFields.entries = [(name, .plain hint .required)])
    (hvalue : Validates api library hint value content) :
    Validates api library (.model m) (.dict [(name, value)])
      (.model m [(name, true, content)]) := by
  have hget : ∀ other field, (api m).modelFields.get? other = some field →
        other = name ∧ field = .plain hint .required := by
    intro other field hfield
    have hentry := mem_entries_iff.mpr hfield
    rw [hfields, mem_singleton, Prod.mk.injEq] at hentry
    exact hentry
  have hkey : (FieldInfo.plain hint FieldDefault.required).key name = name := rfl
  apply Validates.model
  · simp [Dict.keys, hfields]
  · intro entry hentry
    rw [mem_singleton.mp hentry]
    refine ⟨name, .plain hint .required, ?_, hkey, rfl⟩
    rw [← mem_entries_iff, hfields]
    exact mem_singleton_self _
  · intro other otherContent field _ hfield
    obtain ⟨rfl, rfl⟩ := hget other field hfield
    simp [hkey]
  · intro other otherContent field otherValue hmem hfield hlookup
    obtain ⟨rfl, rfl⟩ := hget other field hfield
    simp only [mem_singleton, Prod.mk.injEq, true_and] at hmem
    have hsame : value = otherValue := by simpa [hkey] using hlookup
    rw [hmem, ← hsame]
    exact hvalue
  · intro other otherContent field hmem
    simp at hmem

private theorem jane_sound : Construct.Sound (fun _ _ => .ok janeFields) contactApi contactLibrary
    .settings1 janeSettings := by
  intro fields hfields
  cases hfields
  apply validates_single rfl
  apply Validates.list rfl
  intro k item content hitem hcontent
  have hk : k = 0 := by
    have hlt := (List.getElem?_eq_some_iff.mp hitem).1
    simpa using hlt
  subst hk
  cases hitem
  cases hcontent
  apply validates_single rfl
  exact .other rfl rfl

theorem contacts_fit : contactAdapter.adapt contactApi (fun _ _ => .ok janeFields) janeSettings
        "Settings" "v1" "v2" =
      .ok (.dict [("contacts", .list [.dict [("name", .str "Jane"), ("note", .str "")]])]) ∧
    Fits contactApi .settings2 (.dict [("contacts", .list
      [.dict [("name", .str "Jane"), ("note", .str "")]])]) := by
  have hroute : contactAdapter.Route ContactUpgrade "Settings" "v1" "v2" .settings1 .settings2 :=
    ⟨0, 1, _, rfl, rfl, rfl, rfl, .settings2, rfl, .settings, rfl⟩
  have hadapt : contactAdapter.adapt contactApi (fun _ _ => .ok janeFields)
      janeSettings "Settings" "v1" "v2" =
    .ok (.dict [("contacts", .list [.dict [("name", .str "Jane"), ("note", .str "")]])]) := rfl
  have hfollows : Follows contactApi (contactAdapter.direction "v1" "v2")
      ContactUpgrade := contact_follows
  exact ⟨hadapt, adapt_fits jane_sound contact_declared hfollows hroute hadapt⟩

end

private inductive ArgsModel where
  | args1
  | args2
  | options2

private def forceField : String × FieldInfo ArgsModel := ("force", .plain (.other "bool")
    (.value (.scalar (.bool false)) (.value (.scalar (.bool false)))))

private def excludeField : String × FieldInfo ArgsModel := ("exclude", .plain (.list (.other "str"))
    (.value (.list []) (.value (.list []))))

private def countField : String × FieldInfo ArgsModel := ("count", .plain (.other "int") .required)

private def argsApi : ArgsModel → ModelInfo ArgsModel
  | .args1 => .plain [countField, forceField]
  | .args2 =>
    { ModelInfo.plain [("options", .plain (.model .options2) .required)] with
      fromPrevious := some fun entries => .ok [("options", .dict entries)] }
  | .options2 =>
    { ModelInfo.plain [countField, excludeField, forceField] with
      fromPrevious := some fun entries => .ok [("options", .dict entries)] }

private def argsAdapter : ApiVersionsAdapter ArgsModel := .ofList
    [⟨"v1", Dict.ofEntries [("Args", .args1)]⟩, ⟨"v2", Dict.ofEntries [("Args", .args2)]⟩]

private def countOne : InstanceFields ArgsModel := [("count", true, .value (.scalar (.int 1))),
    ("force", false, .value (.scalar (.bool false)))]

private def optionsOne : ApiValue :=
  .dict [("count", .scalar (.int 1)), ("force", .scalar (.bool false))]

/-- The override builds the nested value itself, without the default. -/
theorem single_argument_misses_default : (∀ f, (argsApi .args2).fromPrevious = some f →
      ∀ entries result, f entries = .ok result →
        ∀ entry ∈ result, entry.1 ∈ (argsApi .args2).modelFields) ∧
    argsAdapter.adapt argsApi (fun _ _ => .ok countOne)
        [("count", .scalar (.int 1))] "Args" "v1" "v2" =
      .ok (.dict [("options", optionsOne)]) ∧
    ¬ Fits argsApi .args2 (.dict [("options", optionsOne)]) := by
  refine ⟨?_, rfl, ?_⟩
  · intro f hf entries result hresult entry hentry
    cases hf
    cases hresult
    rw [mem_singleton.mp hentry]
    exact (by decide : "options" ∈ (argsApi .args2).modelFields)
  · intro hfits
    have hat := (fits_dict_iff.mp hfits).2.2 ("options", optionsOne) mem_cons_self
    have hoptions : Fits argsApi .options2 optionsOne := hat.value .options2 rfl
    have hexclude := (fits_dict_iff.mp hoptions).2.1 rfl "exclude" _ rfl rfl rfl
    cases hexclude

end Middlewared
