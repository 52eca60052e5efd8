import Middlewared.FilterList

/-!
# Cleaning and validating by a schema

The attributes of a schema tree.
-/

namespace Middlewared

open List Option Dict

/-- `Error` and `ValidationErrors` are collected, every other exception goes
on. -/
inductive CleanError where
  | rejected
  | raised (error : PyError)

/-- `clean`, with nothing for `NOT_PROVIDED`. -/
abbrev Cleaner := Option PyValue → Except CleanError PyValue

abbrev Validator := PyValue → Except CleanError Unit

structure Attribute where
  name : String
  default : Option PyValue
  (required null empty isPrivate editable : Bool)

/-- What a class of scalars does with a value after `Attribute.clean`, and its
`validate`. -/
structure ScalarClass where
  coerce : PyValue → Except CleanError PyValue
  validate : Validator

structure ConditionalDefault where
  filters : List PyValue
  attrs : List String

structure DictOptions where
  additionalAttrs : Bool
  conditionalDefaults : Dict String ConditionalDefault
  privateKeys : List String
  update : Bool
  validators : Validator

structure ListOptions where
  enum : Option (List PyValue)
  unique : Bool
  validators : Validator

inductive Schema where
  | scalar (attr : Attribute) (kind : ScalarClass)
  | dict (attr : Attribute) (options : DictOptions) (attrs : List Schema)
  | list (attr : Attribute) (options : ListOptions) (items : List Schema)
  | or (name : String) (default : Option PyValue) (isPrivate : Bool) (schemas : List Schema)

namespace Schema

def name : Schema → String
  | .scalar attr _ | .dict attr _ _ | .list attr _ _ =>
    attr.name
  | .or name _ _ _ => name

def hasDefault : Schema → Bool
  | .scalar attr _ | .dict attr _ _ | .list attr _ _ =>
    attr.default.isSome
  | .or _ default _ _ => default.isSome

mutual

def required : Schema → Bool
  | .scalar attr _ | .dict attr _ _ | .list attr _ _ =>
    attr.required
  | .or _ _ _ schemas => anyRequired schemas

def anyRequired : List Schema → Bool
  | [] => false
  | schema :: schemas => schema.required || anyRequired schemas

end

end Schema

/-! ## Cleaning -/

def raising {α : Type} (result : Except PyError α) : Except CleanError α :=
  result.mapError .raised

def Attribute.clean (self : Attribute) (value : Option PyValue) :
    Except CleanError PyValue :=
  if value.any PyValue.isNone && !self.null then .error .rejected
  else
    match value.or self.default with
    | none => .error .rejected
    | some value =>
      if !self.editable && !value.eq (self.default.getD .none) then
        .error .rejected
      else .ok value

structure SchemaField where
  (required hasDefault : Bool)
  clean : Cleaner

/-- `_clean_attr`: the value, and whether an error was added. -/
def cleanAttr (result : Except CleanError PyValue) :
    Except PyError (PyValue × Bool) :=
  match result with
  | .ok value => .ok (value, false)
  | .error .rejected => .ok (.none, true)
  | .error (.raised error) => .error error

def cleanEntry (fields : Dict String SchemaField) (additionalAttrs : Bool)
    (entry : String × PyValue) : Except PyError (PyValue × Bool) :=
  match fields.get? entry.1 with
  | none => .ok (entry.2, !additionalAttrs)
  | some field => cleanAttr (field.clean (some entry.2))

/-- The loop over `data.items()`. -/
def cleanEntries (fields : Dict String SchemaField) (additionalAttrs : Bool) :
    Row → Except PyError (Row × Bool)
  | [] => .ok ([], false)
  | entry :: rest => do
    let (value, failed) ← cleanEntry fields additionalAttrs entry
    let (others, othersFailed) ← cleanEntries fields additionalAttrs rest
    .ok ((entry.1, value) :: others, failed || othersFailed)

def fillsDefault (field : SchemaField) (checkRequired : Bool) : Bool :=
  (checkRequired && field.required) || field.hasDefault

/-- `get_defaults`, over the attributes that are left. -/
def getDefaults (skip : List String) (checkRequired : Bool) :
    List (String × SchemaField) → Row → Except PyError (Row × Bool)
  | [], data => .ok (data, false)
  | (name, field) :: fields, data =>
    if (data.lookup name).isNone && !skip.contains name &&
        fillsDefault field checkRequired then do
      let (value, failed) ← cleanAttr (field.clean none)
      let (filled, othersFailed) ←
        getDefaults skip checkRequired fields (data ++ [(name, value)])
      .ok (filled, failed || othersFailed)
    else getDefaults skip checkRequired fields data

/-- Whether `filter_list([check_data], filters)` finds the data. -/
def meetsFilters (rt : PyRuntime) (checkData : Row) (filters : List PyValue) :
    Except PyError Bool := do
  match ← filterList rt [checkData] filters {} with
  | .rows rows => .ok (!rows.isEmpty)
  | .entry _ | .count _ => .ok true

/-- What the filters of `get_attrs_to_skip` look at. -/
def checkData (fields : Dict String SchemaField) (update : Bool) (data : Row) :
    Except PyError Row :=
  if update then .ok data
  else (getDefaults [] false fields.entries data).map Prod.fst

/-- The names in `get_attrs_to_skip`. -/
def attrsToSkip (rt : PyRuntime) (fields : Dict String SchemaField)
    (options : DictOptions) (data : Row) : Except PyError (List String) := do
  let checked ← checkData fields options.update data
  let unmet ← options.conditionalDefaults.entries.filterM fun entry =>
    (meetsFilters rt checked entry.2.filters).map (!·)
  .ok (unmet.flatMap fun entry => entry.2.attrs)

/-- What `Dict.clean` makes of a dictionary. -/
def cleanData (rt : PyRuntime) (fields : Dict String SchemaField)
    (options : DictOptions) (data : Row) : Except PyError (Row × Bool) := do
  let (cleaned, failed) ← cleanEntries fields options.additionalAttrs data
  if options.update then .ok (cleaned, failed)
  else
    let skip ← attrsToSkip rt fields options cleaned
    let (filled, defaultsFailed) ← getDefaults skip true fields.entries cleaned
    .ok (filled, failed || defaultsFailed)

/-- What `Dict.clean` does after `Attribute.clean`. -/
def coerceDict (rt : PyRuntime) (attr : Attribute)
    (fields : Dict String SchemaField) (options : DictOptions) :
    PyValue → Except CleanError PyValue
  | .none => .ok (if attr.null then .none else attr.default.getD .none)
  | .dict data => do
    let (data, failed) ← raising (cleanData rt fields options data)
    if failed then .error .rejected else .ok (.dict data)
  | _ => .error .rejected

def cleanFirst : List Cleaner → PyValue → Except CleanError PyValue
  | [], _ => .error .rejected
  | clean :: cleaners, value =>
    match clean (some value) with
    | .error .rejected => cleanFirst cleaners value
    | result => result

/-- `EnumMixin.clean` -/
def checkEnum (enum : Option (List PyValue)) (null : Bool) (value : PyValue) :
    Except CleanError Unit :=
  match enum with
  | none => .ok ()
  | some choices =>
    if value.isNone && null then .ok ()
    else
      let chosen := match value with
        | .list items => items
        | _ => [value]
      if chosen.all fun item => choices.any (·.eq item) then .ok ()
      else .error .rejected

def cleanList (attr : Attribute) (options : ListOptions)
    (items : List Cleaner) (value : Option PyValue) :
    Except CleanError PyValue := do
  let value ← attr.clean value
  checkEnum options.enum attr.null value
  match value with
  | .none => .ok (attr.default.getD .none)
  | .list values =>
    if !attr.empty && values.isEmpty then .error .rejected
    else if items.isEmpty then .ok (.list values)
    else (values.mapM (cleanFirst items)).map .list
  | _ => .error .rejected

/-- The copy of `NOT_PROVIDED` that the schemas of a union are given is an
object of no type that they accept. -/
def cleanOr (default : Option PyValue) (schemas : List Cleaner) :
    Option PyValue → Except CleanError PyValue
  | none => .error .rejected
  | some value =>
    match default with
    | none => cleanFirst schemas value
    | some content =>
      if value.eq content then .ok content else cleanFirst schemas value

namespace Schema

mutual

def clean (rt : PyRuntime) : Schema → Cleaner
  | .scalar attr kind => fun value => do
    let value ← attr.clean value
    kind.coerce value
  | .dict attr options attrs => fun value => do
    let value ← attr.clean value
    coerceDict rt attr (Dict.ofEntries (fields rt attrs)) options value
  | .list attr options items =>
    cleanList attr options (cleaners rt items)
  | .or _ default _ schemas => cleanOr default (cleaners rt schemas)

def cleaners (rt : PyRuntime) : List Schema → List Cleaner
  | [] => []
  | schema :: schemas => clean rt schema :: cleaners rt schemas

/-- `self.attrs`, before an attribute replaces another of its name. -/
def fields (rt : PyRuntime) : List Schema → List (String × SchemaField)
  | [] => []
  | schema :: schemas =>
    (schema.name, {
      required := schema.required
      hasDefault := schema.hasDefault
      clean := clean rt schema }) :: fields rt schemas

end

end Schema

/-! ## Validating -/

/-- Whether a `ValidationErrors` was collected. -/
def failed? (result : Except CleanError Unit) : Except PyError Bool :=
  (cleanAttr (result.map fun _ => .none)).map Prod.snd

/-- `value[name]` of something that contains the name. -/
def subscript (value : PyValue) (name : String) : Except PyError PyValue :=
  match value with
  | .dict data =>
    match data.lookup name with
    | some content => .ok content
    | none => .error .keyError
  | _ => .error .typeError

def validateFields (value : PyValue) :
    List (String × Validator) → Except PyError Bool
  | [] => .ok false
  | (name, validate) :: fields => do
    let failed ←
      if ← value.contains (.str name) then do
        let content ← subscript value name
        failed? (validate content)
      else .ok false
    let othersFailed ← validateFields value fields
    .ok (failed || othersFailed)

def rejectIf (failed : Bool) : Except CleanError Unit :=
  if failed then .error .rejected else .ok ()

def validateDict (validators : Validator) (fields : Dict String Validator)
    (value : PyValue) : Except CleanError Unit := do
  if value.isNone then .ok ()
  else do
    validators value
    rejectIf (← raising (validateFields value fields.entries))

/-- `tuple(sorted(value.items()))` -/
def sortedItems (entries : Row) : PyValue :=
  .list ((entries.insertionSort fun a b =>
    PyValue.compareChars a.1.toList b.1.toList ≠ .gt).map fun entry =>
      .list [.str entry.1, entry.2])

def uniqueItem (value : PyValue) : Except PyError PyValue :=
  match value with
  | .dict entries =>
    if entries.all fun entry => entry.2.hashable then
      .ok (sortedItems entries)
    else .error .typeError
  | _ => if value.hashable then .ok value else .error .typeError

def rejectedByAll (value : PyValue) : List Validator → Except PyError Bool
  | [] => .ok true
  | validate :: validators => do
    if ← failed? (validate value) then rejectedByAll value validators
    else .ok false

/-- The loop over the items; `seen` is the set of those that came before. -/
def validateItems (unique : Bool) (items : List Validator) :
    List PyValue → List PyValue → Except PyError Bool
  | _, [] => .ok false
  | seen, value :: values => do
    let value ← if unique then uniqueItem value else .ok value
    let failed ← rejectedByAll value items
    let othersFailed ← validateItems unique items (value :: seen) values
    .ok ((unique && seen.any value.eq) || (!items.isEmpty && failed) || othersFailed)

def validateList (options : ListOptions) (items : List Validator)
    (value : PyValue) : Except CleanError Unit := do
  if value.isNone then .ok ()
  else do
    let values ← raising value.iterate
    rejectIf (← raising (validateItems options.unique items [] values))
    options.validators value

/-- A `TypeError` of a schema of a union is passed over. -/
def validateOr (value : PyValue) :
    List Validator → Bool → Except CleanError Unit
  | [], failed => rejectIf failed
  | validate :: validators, failed =>
    match validate value with
    | .ok () => .ok ()
    | .error .rejected => validateOr value validators true
    | .error (.raised .typeError) => validateOr value validators failed
    | .error (.raised error) => .error (.raised error)

namespace Schema

mutual

def validate : Schema → Validator
  | .scalar _ kind => kind.validate
  | .dict _ options attrs =>
    validateDict options.validators (Dict.ofEntries (fieldValidators attrs))
  | .list _ options items => validateList options (validators items)
  | .or _ _ _ schemas => fun value => validateOr value (validators schemas) false

def validators : List Schema → List Validator
  | [] => []
  | schema :: schemas => schema.validate :: validators schemas

def fieldValidators : List Schema → List (String × Validator)
  | [] => []
  | schema :: schemas =>
    (schema.name, schema.validate) :: fieldValidators schemas

end

end Schema

namespace Schema

variable {rt : PyRuntime}

/-- `self.attrs.get(key)`: the last attribute of that name. -/
def attr? (attrs : List Schema) (key : String) : Option Schema :=
  attrs.reverse.find? fun attr => attr.name = key

theorem cleaners_eq (schemas : List Schema) : cleaners rt schemas = schemas.map (clean rt) := by
  induction schemas with
  | nil => rfl
  | cons schema schemas ih => rw [cleaners, ih, map_cons]

def toField (rt : PyRuntime) (schema : Schema) : SchemaField where
  required := schema.required
  hasDefault := schema.hasDefault
  clean := clean rt schema

theorem fields_eq (schemas : List Schema) : fields rt schemas = schemas.map fun schema =>
    (schema.name, schema.toField rt) := by
  induction schemas with
  | nil => rfl
  | cons schema schemas ih =>
    rw [fields, ih, map_cons]
    rfl

theorem lookup_map_name {α : Type} (schemas : List Schema) (f : Schema → α) (key : String) :
    (schemas.map fun schema => (schema.name, f schema)).lookup key =
      (schemas.find? fun schema => schema.name = key).map f := by
  induction schemas with
  | nil => rfl
  | cons schema schemas ih =>
    rw [map_cons, lookup_cons_ite, find?_cons, ih]
    by_cases hkey : key = schema.name
    · simp [hkey]
    · simp [hkey, Ne.symm hkey]

theorem get?_ofEntries_name {α : Type} (schemas : List Schema) (f : Schema → α) (key : String) :
    (Dict.ofEntries (schemas.map fun schema => (schema.name, f schema))).get?
        key = (attr? schemas key).map f := by
  rw [get?_ofEntries, ← map_reverse, lookup_map_name, attr?]

end Schema

/-! ## Results without an error -/

variable {value : PyValue}

theorem eq_of_attributeClean {attr : Attribute} {cleaned : PyValue}
    (hclean : attr.clean (some value) = .ok cleaned) : cleaned = value := by
  unfold Attribute.clean at hclean
  split at hclean
  · cases hclean
  · simp only [some_or] at hclean
    split at hclean
    · cases hclean
    · cases hclean
      rfl

theorem ok_of_cleanAttr {result : Except CleanError PyValue}
    (hclean : cleanAttr result = .ok (value, false)) : result = .ok value := by
  unfold cleanAttr at hclean
  split at hclean <;> cases hclean
  rfl

theorem raising_eq_ok_iff {α : Type} {result : Except PyError α} {a : α} :
    raising result = .ok a ↔ result = .ok a := by
  cases result <;> simp [raising, Except.mapError]

variable {data : Row} {name : String} {fields : Dict String SchemaField}
  {field : SchemaField}

theorem lookup_cleanEntries {additionalAttrs : Bool} {cleaned : Row}
    (hclean : cleanEntries fields additionalAttrs data = .ok (cleaned, false))
    (hfield : fields.get? name = some field)
    (hlookup : cleaned.lookup name = some value) :
    ∃ given, field.clean (some given) = .ok value := by
  induction data generalizing cleaned with
  | nil =>
    cases hclean
    cases hlookup
  | cons entry rest ih =>
    obtain ⟨⟨first, failed⟩, hfirst, hclean⟩ := bind_eq_ok_iff.mp hclean
    obtain ⟨⟨others, othersFailed⟩, hrest, hclean⟩ := bind_eq_ok_iff.mp hclean
    simp only [Except.ok.injEq, Prod.mk.injEq, Bool.or_eq_false_iff] at hclean
    obtain ⟨heq, hfailed, hothers⟩ := hclean
    rw [hfailed] at hfirst
    rw [hothers] at hrest
    rw [← heq, lookup_cons_ite] at hlookup
    by_cases hname : name = entry.1
    · simp only [hname, if_true, some.injEq] at hlookup
      rw [hname] at hfield
      rw [cleanEntry, hfield, hlookup] at hfirst
      exact ⟨entry.2, ok_of_cleanAttr hfirst⟩
    · simp only [hname, if_false] at hlookup
      exact ih hrest hlookup

variable {filled : Row} {skip : List String}

theorem lookup_getDefaults {checkRequired : Bool} {fields : List (String × SchemaField)}
    (hdefaults : getDefaults skip checkRequired fields data =
      .ok (filled, false)) (hlookup : filled.lookup name = some value) :
    data.lookup name = some value ∨
      ∃ field, (name, field) ∈ fields ∧ field.clean none = .ok value := by
  induction fields generalizing data with
  | nil =>
    cases hdefaults
    exact Or.inl hlookup
  | cons entry fields ih =>
    rcases entry with ⟨key, field⟩
    rw [getDefaults] at hdefaults
    split at hdefaults
    · rename_i hfills
      obtain ⟨⟨default, failed⟩, hclean, hdefaults⟩ := bind_eq_ok_iff.mp hdefaults
      obtain ⟨⟨others, othersFailed⟩, hrest, hdefaults⟩ := bind_eq_ok_iff.mp hdefaults
      simp only [Except.ok.injEq, Prod.mk.injEq, Bool.or_eq_false_iff] at hdefaults
      obtain ⟨heq, hfailed, hothers⟩ := hdefaults
      rw [hfailed] at hclean
      rw [heq, hothers] at hrest
      rcases ih hrest with hbefore | hdefault
      · rw [lookup_append] at hbefore
        cases hdata : data.lookup name with
        | some found =>
          rw [hdata] at hbefore
          exact Or.inl hbefore
        | none =>
          rw [hdata, none_or, lookup_cons_ite] at hbefore
          by_cases hname : name = key
          · simp only [hname, if_true, some.injEq] at hbefore
            rw [hbefore] at hclean
            rw [hname]
            exact Or.inr ⟨field, mem_cons_self, ok_of_cleanAttr hclean⟩
          · simp [hname] at hbefore
      · obtain ⟨other, hmem, hother⟩ := hdefault
        exact Or.inr ⟨other, mem_cons_of_mem _ hmem, hother⟩
    · rcases ih hdefaults with hbefore | hdefault
      · exact Or.inl hbefore
      · obtain ⟨other, hmem, hother⟩ := hdefault
        exact Or.inr ⟨other, mem_cons_of_mem _ hmem, hother⟩

theorem isSome_lookup_getDefaults {checkRequired : Bool}
    {fields : List (String × SchemaField)} {failed : Bool}
    (hdefaults : getDefaults skip checkRequired fields data = .ok (filled, failed))
    (hthere : (data.lookup name).isSome ∨ (name ∉ skip ∧ ∃ field, (name, field) ∈ fields ∧
        field.hasDefault = true)) : (filled.lookup name).isSome := by
  induction fields generalizing data failed with
  | nil =>
    cases hdefaults
    rcases hthere with hthere | hthere
    · exact hthere
    · obtain ⟨_, field, hmem, _⟩ := hthere
      cases hmem
  | cons entry fields ih =>
    rw [getDefaults] at hdefaults
    split at hdefaults
    · rename_i hfills
      obtain ⟨⟨default, _⟩, _, hdefaults⟩ := bind_eq_ok_iff.mp hdefaults
      obtain ⟨⟨others, othersFailed⟩, hrest, hdefaults⟩ := bind_eq_ok_iff.mp hdefaults
      simp only [Except.ok.injEq, Prod.mk.injEq] at hdefaults
      rw [hdefaults.1] at hrest
      apply ih hrest
      rcases hthere with hthere | hthere
      · left
        rw [lookup_append, isSome_or, hthere, Bool.true_or]
      · obtain ⟨hskip, other, hmem, hdefault⟩ := hthere
        rcases List.mem_cons.mp hmem with heq | hmem
        · cases heq
          simp
        · exact Or.inr ⟨hskip, other, hmem, hdefault⟩
    · rename_i hfills
      apply ih hdefaults
      rcases hthere with hthere | hthere
      · exact Or.inl hthere
      · obtain ⟨hskip, other, hmem, hdefault⟩ := hthere
        rcases List.mem_cons.mp hmem with heq | hmem
        · cases heq
          left
          -- the attribute was passed over because it is there
          simp only [hskip, hdefault, fillsDefault, Bool.or_true,
            Bool.and_true, contains_eq_mem, decide_false,
            Bool.not_false, isNone_iff_eq_none] at hfills
          exact isSome_iff_ne_none.mpr hfills
        · exact Or.inr ⟨hskip, other, hmem, hdefault⟩

variable {rt : PyRuntime}

variable {options : DictOptions}

theorem steps_of_cleanData (hupdate : options.update = false)
    (hclean : cleanData rt fields options data = .ok (filled, false)) :
    ∃ cleaned skip, cleanEntries fields options.additionalAttrs data = .ok (cleaned, false) ∧
      attrsToSkip rt fields options cleaned = .ok skip ∧
      getDefaults skip true fields.entries cleaned = .ok (filled, false) := by
  obtain ⟨⟨cleaned, failed⟩, hentries, hclean⟩ := bind_eq_ok_iff.mp hclean
  simp only [hupdate] at hclean
  obtain ⟨skip, hskip, hclean⟩ := bind_eq_ok_iff.mp hclean
  obtain ⟨⟨others, othersFailed⟩, hdefaults, hclean⟩ := bind_eq_ok_iff.mp hclean
  simp only [Except.ok.injEq, Prod.mk.injEq, Bool.or_eq_false_iff] at hclean
  obtain ⟨heq, hfailed, hothers⟩ := hclean
  rw [hfailed] at hentries
  rw [heq, hothers] at hdefaults
  exact ⟨cleaned, skip, hentries, hskip, hdefaults⟩

theorem mem_attrsToSkip (hskip : attrsToSkip rt fields options data = .ok skip)
    (hmem : name ∈ skip) :
    ∃ entry ∈ options.conditionalDefaults.entries, name ∈ entry.2.attrs := by
  obtain ⟨checked, _, hskip⟩ := bind_eq_ok_iff.mp hskip
  obtain ⟨unmet, hunmet, hskip⟩ := bind_eq_ok_iff.mp hskip
  cases hskip
  obtain ⟨entry, hentry, hname⟩ := List.mem_flatMap.mp hmem
  exact ⟨entry, mem_of_filterM hunmet hentry, hname⟩

theorem lookup_cleanData (hupdate : options.update = false)
    (hclean : cleanData rt fields options data = .ok (filled, false))
    (hfield : fields.get? name = some field)
    (hlookup : filled.lookup name = some value) :
    ∃ given, field.clean given = .ok value := by
  obtain ⟨cleaned, skip, hentries, _, hdefaults⟩ := steps_of_cleanData hupdate hclean
  rcases lookup_getDefaults hdefaults hlookup with hbefore | hdefault
  · obtain ⟨given, hgiven⟩ := lookup_cleanEntries hentries hfield hbefore
    exact ⟨some given, hgiven⟩
  · obtain ⟨other, hmem, hother⟩ := hdefault
    have hsame := mem_entries_iff.mp hmem
    rw [hfield, some.injEq] at hsame
    rw [← hsame] at hother
    exact ⟨none, hother⟩

theorem isSome_lookup_cleanData (hupdate : options.update = false)
    (hclean : cleanData rt fields options data = .ok (filled, false))
    (hfield : fields.get? name = some field) (hdefault : field.hasDefault)
    (hfree : ∀ entry ∈ options.conditionalDefaults.entries,
      name ∉ entry.2.attrs) : (filled.lookup name).isSome := by
  obtain ⟨cleaned, skip, _, hskip, hdefaults⟩ := steps_of_cleanData hupdate hclean
  have hnot : name ∉ skip := by
    intro hmem
    obtain ⟨entry, hentry, hname⟩ := mem_attrsToSkip hskip hmem
    exact hfree entry hentry hname
  exact isSome_lookup_getDefaults hdefaults
    (Or.inr ⟨hnot, field, mem_entries_iff.mpr hfield, hdefault⟩)

def schemaRuntime : PyRuntime where
  fromisoformat _ := none
  casefold := id
  reMatch _ _ := .ok false
  reSearchIgnoreCase _ _ := .ok false

end Middlewared
