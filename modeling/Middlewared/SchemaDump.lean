import Middlewared.Redaction
import Middlewared.SchemaClean

/-!
# Dumping by a schema

`dump` replaces what private attributes cover.
-/

namespace Middlewared

open List

structure Dumper where
  clean : Cleaner
  validate : Validator
  dump : PyValue → Except PyError PyValue

/-- `item.clean` and `item.validate`, after which any exception is passed
over. -/
def accepts (clean : Cleaner) (validate : Validator) (value : PyValue) : Bool :=
  match clean (some value) with
  | .ok cleaned => (validate cleaned).isOk
  | .error _ => false

def dumpDict (isPrivate : Bool) (privateKeys : List String)
    (fields : Dict String (PyValue → Except PyError PyValue))
    (value : PyValue) : Except PyError PyValue :=
  if isPrivate then .ok (.str redactedValue)
  else
    match value with
    | .dict entries => do
      let entries ← entries.mapM fun entry =>
        if privateKeys.contains entry.1 then
          .ok (entry.1, .str redactedValue)
        else
          match fields.get? entry.1 with
          | none => .ok entry
          | some dump => (dump entry.2).map (entry.1, ·)
      .ok (.dict entries)
    | value => .ok value

def dumpItem (value : PyValue) :
    List Dumper → PyValue → Except PyError PyValue
  | [], entry => .ok entry
  | item :: items, entry =>
    if accepts item.clean item.validate value then
      if !entry.eq (.str redactedValue) then .ok (.str redactedValue)
      else do
        let entry ← item.dump value
        dumpItem value items entry
    else dumpItem value items entry

def dumpItems (items : List Dumper) (values : List PyValue) :
    Except PyError (List PyValue) :=
  match items with
  | [item] => values.mapM item.dump
  | items => values.mapM fun value =>
    dumpItem value items (.str redactedValue)

def dumpList (isPrivate hasPrivate : Bool) (items : List Dumper)
    (value : PyValue) : Except PyError PyValue :=
  if isPrivate then .ok (.str redactedValue)
  else if !value.truthy || items.isEmpty || !hasPrivate then .ok value
  else do
    let values ← value.iterate
    let dumped ← dumpItems items values
    .ok (.list dumped)

def dumpOr (value : PyValue) : List Dumper → Except PyError PyValue
  | [] => .ok value
  | schema :: schemas =>
    match schema.clean (some value) with
    | .ok _ => schema.dump value
    | .error .rejected => dumpOr value schemas
    | .error (.raised error) => .error error

namespace Schema

mutual

def hasPrivate : Schema → Bool
  | .scalar attr _ => attr.isPrivate
  | .dict attr _ attrs =>
    attr.isPrivate || (Dict.ofEntries (fieldPrivates attrs)).entries.any fun entry => entry.2
  | .list attr _ items => attr.isPrivate || anyPrivate items
  | .or _ _ isPrivate schemas => isPrivate || anyPrivate schemas

def anyPrivate : List Schema → Bool
  | [] => false
  | schema :: schemas => schema.hasPrivate || anyPrivate schemas

def fieldPrivates : List Schema → List (String × Bool)
  | [] => []
  | schema :: schemas => (schema.name, schema.hasPrivate) :: fieldPrivates schemas

end

mutual

def dump (rt : PyRuntime) : Schema → PyValue → Except PyError PyValue
  | .scalar attr _ => fun value =>
    .ok (if attr.isPrivate then .str redactedValue else value)
  | .dict attr options attrs =>
    dumpDict attr.isPrivate options.privateKeys (Dict.ofEntries (fieldDumps rt attrs))
  | .list attr _ items =>
    dumpList attr.isPrivate (attr.isPrivate || anyPrivate items) (dumpers rt items)
  | .or _ _ _ schemas => fun value => dumpOr value (dumpers rt schemas)

def dumpers (rt : PyRuntime) : List Schema → List Dumper
  | [] => []
  | schema :: schemas =>
    { clean := clean rt schema
      validate := validate schema
      dump := dump rt schema } :: dumpers rt schemas

def fieldDumps (rt : PyRuntime) :
    List Schema → List (String × (PyValue → Except PyError PyValue))
  | [] => []
  | schema :: schemas =>
    (schema.name, dump rt schema) :: fieldDumps rt schemas

end

def isPrivate : Schema → Bool
  | .scalar attr _ | .dict attr _ _ | .list attr _ _ => attr.isPrivate
  | .or _ _ isPrivate _ => isPrivate

def Accepts (rt : PyRuntime) (schema : Schema) (value : PyValue) : Prop :=
  ∃ cleaned, schema.clean rt (some value) = .ok cleaned

/-- No schema of a union raises anything but `Error` or `ValidationErrors`. -/
inductive UnionsCollect (rt : PyRuntime) : Schema → Prop where
  | scalar (attr : Attribute) (kind : ScalarClass) : UnionsCollect rt (.scalar attr kind)
  | dict (attr : Attribute) (options : DictOptions) {attrs : List Schema}
      (hattrs : ∀ schema ∈ attrs, UnionsCollect rt schema) :
      UnionsCollect rt (.dict attr options attrs)
  | list (attr : Attribute) (options : ListOptions) {items : List Schema}
      (hitems : ∀ schema ∈ items, UnionsCollect rt schema) :
      UnionsCollect rt (.list attr options items)
  | or (name : String) (default : Option PyValue) (isPrivate : Bool) {schemas : List Schema}
      (hschemas : ∀ schema ∈ schemas, UnionsCollect rt schema)
      (hcollect : ∀ schema ∈ schemas, ∀ value error,
        schema.clean rt value ≠ .error (.raised error)) :
      UnionsCollect rt (.or name default isPrivate schemas)

/-- What `dump` does with a value. -/
inductive Decision where
  | hidden
  | plain
  | dict (privateKeys : List String) (attrs : List Schema)
  | list (items : List Schema)

mutual

def decision (rt : PyRuntime) : Schema → PyValue → Decision
  | .scalar attr _, _ => if attr.isPrivate then .hidden else .plain
  | .dict attr options attrs, _ =>
    if attr.isPrivate then .hidden else .dict options.privateKeys attrs
  | .list attr _ items, value =>
    if attr.isPrivate then .hidden
    else if !value.truthy || items.isEmpty || !anyPrivate items then .plain
    else .list items
  | .or _ _ _ schemas, value => firstDecision rt schemas value

def firstDecision (rt : PyRuntime) : List Schema → PyValue → Decision
  | [], _ => .plain
  | schema :: schemas, value =>
    if (schema.clean rt (some value)).isOk then schema.decision rt value
    else firstDecision rt schemas value

end

inductive Place where
  | hidden
  | plain
  | under (schema : Schema)

def Place.decision (rt : PyRuntime) : Place → PyValue → Decision
  | .hidden, _ => .hidden
  | .plain, _ => .plain
  | .under schema, value => schema.decision rt value

def Decision.isHidden : Decision → Bool
  | .hidden => true
  | _ => false

def Place.masks (rt : PyRuntime) (place : Place) (value : PyValue) : Bool :=
  (place.decision rt value).isHidden || value.eq (.str redactedValue)

def itemPlace (rt : PyRuntime) (value : PyValue) :
    List Schema → Place → Place
  | [], place => place
  | item :: items, place =>
    if accepts (item.clean rt) item.validate value then
      if place.masks rt value then itemPlace rt value items (.under item)
      else .hidden
    else itemPlace rt value items place

def dumpCoverage (rt : PyRuntime) : Coverage Place where
  hides place value := (place.decision rt value).isHidden
  key place value key :=
    match place.decision rt value with
    | .dict privateKeys attrs =>
      if privateKeys.contains key then .hidden
      else ((attr? attrs key).map Place.under).getD .plain
    | _ => .plain
  item place value item :=
    match place.decision rt value with
    | .list [schema] => .under schema
    | .list items => itemPlace rt item items .hidden
    | _ => .plain

/-! ## The parts of an accepted value -/

variable {rt : PyRuntime}

theorem dumpers_eq (schemas : List Schema) : dumpers rt schemas = schemas.map fun schema =>
    { clean := clean rt schema, validate := validate schema, dump := dump rt schema } := by
  induction schemas with
  | nil => rfl
  | cons schema schemas ih => rw [dumpers, ih, map_cons]

theorem fieldDumps_eq (schemas : List Schema) : fieldDumps rt schemas = schemas.map fun schema =>
    (schema.name, dump rt schema) := by
  induction schemas with
  | nil => rfl
  | cons schema schemas ih => rw [fieldDumps, ih, map_cons]

theorem clean_of_cleanEntries {fields : Dict String SchemaField}
    {additionalAttrs : Bool} {data cleaned : Row}
    (hclean : cleanEntries fields additionalAttrs data = .ok (cleaned, false))
    {entry : String × PyValue} (hmem : entry ∈ data) {field : SchemaField}
    (hfield : fields.get? entry.1 = some field) :
    ∃ value, field.clean (some entry.2) = .ok value := by
  induction data generalizing cleaned with
  | nil => cases hmem
  | cons first rest ih =>
    obtain ⟨⟨value, failed⟩, hfirst, hclean⟩ := bind_eq_ok_iff.mp hclean
    obtain ⟨⟨others, othersFailed⟩, hrest, hclean⟩ := bind_eq_ok_iff.mp hclean
    simp only [Except.ok.injEq, Prod.mk.injEq, Bool.or_eq_false_iff] at hclean
    obtain ⟨_, hfailed, hothers⟩ := hclean
    rw [hfailed] at hfirst
    rw [hothers] at hrest
    rcases List.mem_cons.mp hmem with heq | hmem
    · rw [heq] at hfield ⊢
      rw [cleanEntry, hfield] at hfirst
      exact ⟨value, ok_of_cleanAttr hfirst⟩
    · exact ih hrest hmem

theorem cleanEntries_of_cleanData {fields : Dict String SchemaField}
    {options : DictOptions} {data filled : Row}
    (hclean : cleanData rt fields options data = .ok (filled, false)) :
    ∃ cleaned, cleanEntries fields options.additionalAttrs data = .ok (cleaned, false) := by
  obtain ⟨⟨cleaned, failed⟩, hentries, hclean⟩ := bind_eq_ok_iff.mp hclean
  have hfailed : failed = false := by
    by_cases hupdate : options.update
    · simp only [hupdate, if_true, Except.ok.injEq, Prod.mk.injEq] at hclean
      exact hclean.2
    · simp only [hupdate] at hclean
      obtain ⟨skip, _, hclean⟩ := bind_eq_ok_iff.mp hclean
      obtain ⟨⟨others, othersFailed⟩, _, hclean⟩ := bind_eq_ok_iff.mp hclean
      simp only [Except.ok.injEq, Prod.mk.injEq, Bool.or_eq_false_iff] at hclean
      exact hclean.2.1
  rw [hfailed] at hentries
  exact ⟨cleaned, hentries⟩

theorem accepts_dict {attr : Attribute} {options : DictOptions}
    {attrs : List Schema} {value : PyValue}
    (haccepts : (Schema.dict attr options attrs).Accepts rt value) :
    value = .none ∨ ∃ entries, value = .dict entries ∧
      ∀ entry ∈ entries, ∀ schema, attr? attrs entry.1 = some schema →
        schema.Accepts rt entry.2 := by
  obtain ⟨cleaned, hclean⟩ := haccepts
  obtain ⟨own, hown, hclean⟩ := bind_eq_ok_iff.mp hclean
  cases eq_of_attributeClean hown
  cases value with
  | none => exact Or.inl rfl
  | dict entries =>
    right
    refine ⟨entries, rfl, ?_⟩
    intro entry hmem schema hschema
    obtain ⟨⟨data, failed⟩, hdata, hclean⟩ := bind_eq_ok_iff.mp hclean
    cases failed with
    | true => cases hclean
    | false =>
      obtain ⟨cleaned, hentries⟩ := cleanEntries_of_cleanData (raising_eq_ok_iff.mp hdata)
      rw [fields_eq] at hentries
      have hfield := get?_ofEntries_name attrs (toField rt) entry.1
      rw [hschema, Option.map_some] at hfield
      exact clean_of_cleanEntries hentries hmem hfield
  | _ => cases hclean

theorem exists_of_cleanFirst {items : List Schema} {value cleaned : PyValue}
    (hclean : cleanFirst (cleaners rt items) value = .ok cleaned) :
    ∃ item ∈ items, item.Accepts rt value := by
  induction items with
  | nil => cases hclean
  | cons item items ih =>
    rw [cleaners, cleanFirst] at hclean
    split at hclean
    · obtain ⟨other, hmem, haccepts⟩ := ih hclean
      exact ⟨other, mem_cons_of_mem item hmem, haccepts⟩
    · exact ⟨item, mem_cons_self, cleaned, hclean⟩

theorem accepts_list {attr : Attribute} {options : ListOptions}
    {items : List Schema} {value : PyValue} (hitems : items ≠ [])
    (haccepts : (Schema.list attr options items).Accepts rt value) :
    value = .none ∨ ∃ values, value = .list values ∧
      ∀ value ∈ values, ∃ item ∈ items, item.Accepts rt value := by
  obtain ⟨cleaned, hclean⟩ := haccepts
  obtain ⟨own, hown, hclean⟩ := bind_eq_ok_iff.mp hclean
  cases eq_of_attributeClean hown
  obtain ⟨_, _, hclean⟩ := bind_eq_ok_iff.mp hclean
  cases value with
  | none => exact Or.inl rfl
  | list values =>
    right
    refine ⟨values, rfl, ?_⟩
    intro value hmem
    have hne : (cleaners rt items).isEmpty = false := by
      simpa [cleaners_eq] using hitems
    simp only [hne, Bool.false_eq_true, if_false] at hclean
    split at hclean
    · cases hclean
    · cases hmap : values.mapM (cleanFirst (cleaners rt items)) with
      | error error =>
        rw [hmap] at hclean
        cases hclean
      | ok results =>
        obtain ⟨result, _, hresult⟩ := exists_mem_mapM_results hmap hmem
        exact exists_of_cleanFirst hresult
  | _ => cases hclean

/-! ## `dump` redacts what it covers -/

theorem eq_text_iff {value : PyValue} {text : String} :
    value.eq (.str text) = true ↔ value = .str text := by
  cases value <;> simp [PyValue.eq, PyValue.isNone, PyValue.asInt?]

theorem hides_iff {place : Place} {value : PyValue} : (dumpCoverage rt).hides place value = true ↔
    place.decision rt value = .hidden := by
  simp only [dumpCoverage]
  cases place.decision rt value <;> simp [Decision.isHidden]

theorem masks_iff {place : Place} {value : PyValue} :
    place.masks rt value ↔ (dumpCoverage rt).Masked place value := by
  simp only [Place.masks, Bool.or_eq_true, eq_text_iff, Coverage.Masked, dumpCoverage]

theorem redact_congr {p q : Place} {value : PyValue}
    (hdecision : p.decision rt value = q.decision rt value) :
    (dumpCoverage rt).redact p value = (dumpCoverage rt).redact q value := by
  cases value <;> simp [Coverage.redact, dumpCoverage, hdecision]

theorem redact_of_plain {place : Place} {value : PyValue}
    (hplain : place.decision rt value = .plain) :
    (dumpCoverage rt).redact place value = value := by
  have hshown : (dumpCoverage rt).hides place value = false := by
    simp only [dumpCoverage, hplain, Decision.isHidden]
  match value with
  | .list values =>
    rw [Coverage.redact_list hshown]
    congr 1
    conv_rhs => rw [← List.map_id values]
    apply map_congr_left
    intro value hmem
    have hsize := sizeOf_lt_of_mem hmem
    simp only [dumpCoverage, hplain]
    exact redact_of_plain rfl
  | .dict entries =>
    rw [Coverage.redact_dict hshown]
    congr 1
    conv_rhs => rw [← List.map_id entries]
    apply map_congr_left
    intro entry hmem
    have hsize := sizeOf_lt_of_mem hmem
    simp only [dumpCoverage, hplain, id]
    have hvalue := @redact_of_plain .plain entry.2 rfl
    exact Prod.ext rfl hvalue
  | .none | .bool _ | .int _ | .str _ | .datetime _ =>
    exact Coverage.redact_leaf hshown trivial
termination_by sizeOf value
decreasing_by
  · simp
    omega
  · rcases entry with ⟨key, value⟩
    simp at hsize ⊢
    omega

theorem redact_hidden (value : PyValue) :
    (dumpCoverage rt).redact .hidden value = .str redactedValue :=
  Coverage.redact_of_hides rfl

def DumpRedacts (rt : PyRuntime) (schema : Schema) : Prop :=
  ∀ value, schema.Accepts rt value → dump rt schema value =
      .ok ((dumpCoverage rt).redact (.under schema) value)

theorem dumpOr_eq {schemas : List Schema} (hschemas : ∀ schema ∈ schemas, DumpRedacts rt schema)
    (hcollect : ∀ schema ∈ schemas, ∀ value error, schema.clean rt value ≠ .error (.raised error))
    (name : String) (default : Option PyValue) (isPrivate : Bool)
    (value : PyValue) :
    dumpOr value (dumpers rt schemas) = .ok ((dumpCoverage rt).redact
        (.under (.or name default isPrivate schemas)) value) := by
  induction schemas with
  | nil => rw [redact_of_plain rfl, dumpers, dumpOr]
  | cons schema schemas ih =>
    have hrest := ih (fun other hother => hschemas other (mem_cons_of_mem schema hother))
      (fun other hother => hcollect other (mem_cons_of_mem schema hother))
    rw [dumpers, dumpOr]
    have hdecision : Place.decision rt
        (.under (.or name default isPrivate (schema :: schemas))) value =
          if (schema.clean rt (some value)).isOk then schema.decision rt value
          else firstDecision rt schemas value := rfl
    cases hclean : schema.clean rt (some value) with
    | ok cleaned =>
      rw [hclean] at hdecision
      have hdump := hschemas schema mem_cons_self value ⟨cleaned, hclean⟩
      simp only [hclean, hdump]
      congr 1
      have hsame : Place.decision rt (.under schema) value = Place.decision rt
            (.under (.or name default isPrivate (schema :: schemas)))
            value := hdecision.symm
      exact redact_congr hsame
    | error error =>
      cases error with
      | raised error =>
        exact absurd hclean (hcollect schema mem_cons_self _ error)
      | rejected =>
        rw [hclean] at hdecision
        simp only [hclean, hrest]
        congr 1
        have hsame : Place.decision rt (.under (.or name default isPrivate schemas)) value =
          Place.decision rt (.under (.or name default isPrivate (schema :: schemas)))
            value := hdecision.symm
        exact redact_congr hsame

theorem dumpItem_eq {items : List Schema}
    (hitems : ∀ item ∈ items, DumpRedacts rt item) (value : PyValue)
    (place : Place) :
    dumpItem value (dumpers rt items) ((dumpCoverage rt).redact place value) =
      .ok ((dumpCoverage rt).redact (itemPlace rt value items place) value) := by
  induction items generalizing place with
  | nil => rw [dumpers, dumpItem, itemPlace]
  | cons item items ih =>
    have hrest := ih (fun other hother => hitems other (mem_cons_of_mem item hother))
    rw [dumpers, dumpItem, itemPlace]
    cases haccepts : accepts (item.clean rt) item.validate value with
    | false => simpa [haccepts] using hrest place
    | true =>
      have hown : item.Accepts rt value := by
        unfold accepts at haccepts
        split at haccepts
        · exact ⟨_, by assumption⟩
        · cases haccepts
      have hmasks : ((dumpCoverage rt).redact place value).eq (.str redactedValue) =
            place.masks rt value := by
        rw [Bool.eq_iff_iff, eq_text_iff, Coverage.redact_eq_redacted_iff, masks_iff]
      simp only [if_true, hmasks]
      cases hmasked : place.masks rt value with
      | false => simp [redact_hidden]
      | true =>
        have hdump := hitems item mem_cons_self value hown
        simp only [Bool.not_true, Bool.false_eq_true, if_false, if_true, hdump, ok_bind]
        exact hrest (.under item)

theorem redact_of_decision_hidden {schema : Schema} {value : PyValue}
    (hdecision : schema.decision rt value = .hidden) :
    (dumpCoverage rt).redact (.under schema) value = .str redactedValue :=
  Coverage.redact_of_hides (hides_iff.mpr hdecision)

theorem decision_under_dict {attr : Attribute} {options : DictOptions} {attrs : List Schema}
    (hprivate : attr.isPrivate = false) (value : PyValue) :
    Place.decision rt (.under (.dict attr options attrs)) value =
      .dict options.privateKeys attrs := by
  simp [Place.decision, decision, hprivate]

theorem shown_of_decision {place : Place} {value : PyValue}
    {decision : Decision} (hdecision : place.decision rt value = decision)
    (hshown : decision.isHidden = false) :
    (dumpCoverage rt).hides place value = false := by
  simp only [dumpCoverage, hdecision, hshown]

theorem dumpRedacts_dict {attr : Attribute} {options : DictOptions}
    {attrs : List Schema} (hattrs : ∀ schema ∈ attrs, DumpRedacts rt schema) :
    DumpRedacts rt (.dict attr options attrs) := by
  intro value haccepts
  cases hprivate : attr.isPrivate with
  | true =>
    rw [redact_of_decision_hidden (by simp [decision, hprivate])]
    simp [dump, dumpDict, hprivate]
  | false =>
    have hshown : (dumpCoverage rt).hides (.under (.dict attr options attrs)) value = false :=
      shown_of_decision (decision_under_dict hprivate value) rfl
    rcases accepts_dict haccepts with heq | haccepted
    · rw [heq] at hshown ⊢
      rw [Coverage.redact_leaf hshown trivial]
      simp [dump, dumpDict, hprivate]
    · obtain ⟨entries, heq, hentries⟩ := haccepted
      rw [heq] at hshown ⊢
      rw [Coverage.redact_dict hshown]
      simp only [dump, dumpDict, hprivate, Bool.false_eq_true, if_false]
      rw [fieldDumps_eq, mapM_eq_ok_map (g := fun entry =>
        (entry.1, (dumpCoverage rt).redact
          ((dumpCoverage rt).key (.under (.dict attr options attrs))
            (.dict entries) entry.1) entry.2)), ok_bind]
      intro entry hmem
      rw [get?_ofEntries_name]
      have hkey : (dumpCoverage rt).key (.under (.dict attr options attrs))
          (.dict entries) entry.1 = if options.privateKeys.contains entry.1 then .hidden
            else ((attr? attrs entry.1).map Place.under).getD .plain := by
        simp only [dumpCoverage, decision_under_dict hprivate]
      rw [hkey]
      cases options.privateKeys.contains entry.1 with
      | true => simp [redact_hidden]
      | false =>
        cases hattr : attr? attrs entry.1 with
        | none =>
          have hplain := @redact_of_plain rt .plain
          simp [hplain rfl]
        | some schema =>
          have hmem' : schema ∈ attrs := by
            have hfind := mem_of_find?_eq_some hattr
            exact List.mem_reverse.mp hfind
          have hdump := hattrs schema hmem' entry.2 (hentries entry hmem schema hattr)
          simp [hdump, Except.map]

theorem dumpItems_eq {items : List Schema} {place : Place} {values : List PyValue}
    (hitems : ∀ schema ∈ items, DumpRedacts rt schema)
    (hdecision : place.decision rt (.list values) = .list items)
    (hvalues : ∀ value ∈ values, ∃ item ∈ items, item.Accepts rt value) :
    dumpItems (dumpers rt items) values = .ok (values.map fun value =>
        (dumpCoverage rt).redact ((dumpCoverage rt).item place (.list values) value) value) := by
  match items with
  | [item] =>
    apply mapM_eq_ok_map
    intro value hmem
    obtain ⟨other, hother, haccepts⟩ := hvalues value hmem
    rw [List.mem_singleton.mp hother] at haccepts
    simp only [dumpCoverage, hdecision]
    exact hitems item mem_cons_self value haccepts
  | [] =>
    apply mapM_eq_ok_map
    intro value hmem
    obtain ⟨other, hother, _⟩ := hvalues value hmem
    cases hother
  | first :: second :: rest =>
    apply mapM_eq_ok_map
    intro value _
    have hitem : (dumpCoverage rt).item place (.list values) value =
        itemPlace rt value (first :: second :: rest) .hidden := by
      simp only [dumpCoverage, hdecision]
    have hdump := dumpItem_eq hitems value .hidden
    rw [redact_hidden] at hdump
    rw [hitem]
    exact hdump

theorem dumpRedacts_list {attr : Attribute} {options : ListOptions}
    {items : List Schema} (hitems : ∀ schema ∈ items, DumpRedacts rt schema) :
    DumpRedacts rt (.list attr options items) := by
  intro value haccepts
  cases hprivate : attr.isPrivate with
  | true =>
    rw [redact_of_decision_hidden (by simp [decision, hprivate])]
    simp [dump, dumpList, hprivate]
  | false =>
    have hempty : (dumpers rt items).isEmpty = items.isEmpty := by
      rw [dumpers_eq, isEmpty_map]
    cases hraw : !value.truthy || items.isEmpty || !anyPrivate items with
    | true =>
      rw [redact_of_plain (by
        simp [Place.decision, decision, hprivate, hraw])]
      simp [dump, dumpList, hprivate, hempty, hraw]
    | false =>
      have hne : items ≠ [] := by
        intro hnil
        simp [hnil] at hraw
      rcases accepts_list hne haccepts with heq | haccepted
      · simp [heq, PyValue.truthy] at hraw
      · obtain ⟨values, heq, hvalues⟩ := haccepted
        rw [heq] at hraw ⊢
        have hdecision : Place.decision rt (.under (.list attr options items)) (.list values) =
              .list items := by
          simp [Place.decision, decision, hprivate, hraw]
        have hshown := shown_of_decision hdecision rfl
        rw [Coverage.redact_list hshown]
        have hdumped := dumpItems_eq hitems hdecision hvalues
        simp [dump, dumpList, hprivate, hempty, hraw, PyValue.iterate, hdumped]

theorem dump_redacts {schema : Schema} (hcollect : schema.UnionsCollect rt) :
    DumpRedacts rt schema := by
  induction hcollect with
  | scalar attr kind =>
    intro value _
    cases hprivate : attr.isPrivate with
    | true =>
      rw [redact_of_decision_hidden (by simp [decision, hprivate])]
      simp [dump, hprivate]
    | false =>
      rw [redact_of_plain (by simp [Place.decision, decision, hprivate])]
      simp [dump, hprivate]
  | dict attr options _ ih => exact dumpRedacts_dict ih
  | list attr options _ ih => exact dumpRedacts_list ih
  | or name default isPrivate _ hcollect ih =>
    intro value _
    exact dumpOr_eq ih hcollect name default isPrivate value

end Schema

end Middlewared
