import Middlewared.SchemaDump

/-!
# Private values in a dump

Two values that differ only where an attribute is private should be dumped to the same.
-/

namespace Middlewared

open List

namespace Schema

inductive CoversPrivately (rt : PyRuntime) : Schema → PyValue → Prop where
  | own {schema : Schema} {value : PyValue} (hprivate : schema.isPrivate) :
      CoversPrivately rt schema value
  | or {name : String} {default : Option PyValue} {isPrivate : Bool}
      {schemas : List Schema} {schema : Schema} {value : PyValue}
      (hmem : schema ∈ schemas) (haccepts : schema.Accepts rt value)
      (hcovers : CoversPrivately rt schema value) :
      CoversPrivately rt (.or name default isPrivate schemas) value

mutual

inductive DiffersPrivately (rt : PyRuntime) :
    Schema → PyValue → PyValue → Prop where
  | same {schema : Schema} {v : PyValue} : DiffersPrivately rt schema v v
  | covered {schema : Schema} {v w : PyValue}
      (hv : CoversPrivately rt schema v) (hw : CoversPrivately rt schema w) :
      DiffersPrivately rt schema v w
  | dict {attr : Attribute} {options : DictOptions} {attrs : List Schema}
      {vs ws : Row} (hkeys : vs.map Prod.fst = ws.map Prod.fst)
      (hentries : ∀ (i : ℕ) (key : String) (v w : PyValue),
        vs[i]? = some (key, v) → ws[i]? = some (key, w) → key ∉ options.privateKeys →
            DiffersInField rt (attr? attrs key) v w) :
      DiffersPrivately rt (.dict attr options attrs) (.dict vs) (.dict ws)
  | list {attr : Attribute} {options : ListOptions} {items : List Schema}
      {vs ws : List PyValue} (hlength : vs.length = ws.length)
      (hitems : ∀ (i : ℕ) (v w : PyValue), vs[i]? = some v → ws[i]? = some w →
        DiffersAmong rt items v w) :
      DiffersPrivately rt (.list attr options items) (.list vs) (.list ws)
  | or {name : String} {default : Option PyValue} {isPrivate : Bool}
      {schemas : List Schema} {v w : PyValue}
      (hamong : DiffersAmong rt schemas v w) :
      DiffersPrivately rt (.or name default isPrivate schemas) v w

inductive DiffersInField (rt : PyRuntime) :
    Option Schema → PyValue → PyValue → Prop where
  | same {attr : Option Schema} {v : PyValue} : DiffersInField rt attr v v
  | attr {attr : Schema} {v w : PyValue} (hdiffers : DiffersPrivately rt attr v w) :
      DiffersInField rt (some attr) v w

inductive DiffersAmong (rt : PyRuntime) :
    List Schema → PyValue → PyValue → Prop where
  | same {schemas : List Schema} {v : PyValue} : DiffersAmong rt schemas v v
  | schema {schemas : List Schema} {schema : Schema} {v w : PyValue}
      (hmem : schema ∈ schemas) (hv : schema.Accepts rt v)
      (hw : schema.Accepts rt w) (hdiffers : DiffersPrivately rt schema v w) :
      DiffersAmong rt schemas v w
  | covered {schemas : List Schema} {first second : Schema} {v w : PyValue}
      (hfirst : first ∈ schemas) (hsecond : second ∈ schemas)
      (hv : first.Accepts rt v) (hw : second.Accepts rt w)
      (hcovers : CoversPrivately rt first v)
      (hcovers' : CoversPrivately rt second w) : DiffersAmong rt schemas v w

end

/-- Two values that the schema accepts and that differ at most at positions
that a private attribute covers. -/
structure PrivateVariants (rt : PyRuntime) (schema : Schema) where
  (first second : PyValue)
  first_accepted : schema.Accepts rt first
  second_accepted : schema.Accepts rt second
  differs : DiffersPrivately rt schema first second

/-- The schema of a union that `dump` takes. -/
def taken? (rt : PyRuntime) (schemas : List Schema) (value : PyValue) : Option Schema :=
  schemas.find? fun schema => (schema.clean rt (some value)).isOk

/-- The place of an item of a list whose items are dumped. -/
def itemTaken (rt : PyRuntime) (items : List Schema) (value : PyValue) : Place :=
  match items with
  | [schema] => .under schema
  | items => itemPlace rt value items .hidden

/-- Wherever the two values differ, the schema has a private scalar, dictionary, list or key on the
way that `dump` comes to: no list above it is without `has_private`, and at every union and every
list of several schemas `dump` takes the same schema for both values, or a private one for
each. -/
inductive DiffersHidden (rt : PyRuntime) : Schema → PyValue → PyValue → Prop where
  | same {schema : Schema} {v : PyValue} : DiffersHidden rt schema v v
  | hidden {schema : Schema} {v w : PyValue} (hv : schema.decision rt v = .hidden)
      (hw : schema.decision rt w = .hidden) : DiffersHidden rt schema v w
  | dict {attr : Attribute} {options : DictOptions} {attrs : List Schema}
      {vs ws : Row} (hkeys : vs.map Prod.fst = ws.map Prod.fst)
      (hplain : ∀ (i : ℕ) (key : String) (v w : PyValue),
        vs[i]? = some (key, v) → ws[i]? = some (key, w) → key ∉ options.privateKeys →
          attr? attrs key = none → v = w)
      (hattrs : ∀ (i : ℕ) (key : String) (v w : PyValue) (schema : Schema),
        vs[i]? = some (key, v) → ws[i]? = some (key, w) → key ∉ options.privateKeys →
          attr? attrs key = some schema → DiffersHidden rt schema v w) :
      DiffersHidden rt (.dict attr options attrs) (.dict vs) (.dict ws)
  | list {attr : Attribute} {options : ListOptions} {items : List Schema}
      {vs ws : List PyValue} (hprivate : anyPrivate items = true)
      (hlength : vs.length = ws.length)
      (htaken : ∀ (i : ℕ) (v w : PyValue), vs[i]? = some v → ws[i]? = some w →
        itemTaken rt items v = itemTaken rt items w ∨
          (itemTaken rt items v).decision rt v = .hidden ∧
            (itemTaken rt items w).decision rt w = .hidden)
      (hitems : ∀ (i : ℕ) (v w : PyValue) (schema : Schema), vs[i]? = some v → ws[i]? = some w →
        itemTaken rt items v = .under schema → itemTaken rt items w = .under schema →
          DiffersHidden rt schema v w) :
      DiffersHidden rt (.list attr options items) (.list vs) (.list ws)
  | or {name : String} {default : Option PyValue} {isPrivate : Bool}
      {schemas : List Schema} {schema : Schema} {v w : PyValue}
      (hv : taken? rt schemas v = some schema) (hw : taken? rt schemas w = some schema)
      (hdiffers : DiffersHidden rt schema v w) :
      DiffersHidden rt (.or name default isPrivate schemas) v w

/-- In no place of the schema `dump` has to find out which of several schemas a value belongs
to. -/
inductive Unambiguous : Schema → Prop where
  | scalar (attr : Attribute) (kind : ScalarClass) : Unambiguous (.scalar attr kind)
  | dict (attr : Attribute) (options : DictOptions) {attrs : List Schema}
      (hattrs : ∀ schema ∈ attrs, Unambiguous schema) : Unambiguous (.dict attr options attrs)
  | list (attr : Attribute) (options : ListOptions) {items : List Schema}
      (hsingle : items.length ≤ 1) (hitems : ∀ schema ∈ items, Unambiguous schema) :
      Unambiguous (.list attr options items)

variable {rt : PyRuntime}

/-! ## When the dumps are the same -/

theorem item_of_decision {place : Place} {value : PyValue} {items : List Schema}
    (hdecision : place.decision rt value = .list items) (item : PyValue) :
    (dumpCoverage rt).item place value item = itemTaken rt items item := by
  simp only [dumpCoverage, hdecision]
  cases items with
  | nil => rfl
  | cons first rest => cases rest <;> rfl

theorem key_of_decision {place : Place} {value : PyValue} {privateKeys : List String}
    {attrs : List Schema} (hdecision : place.decision rt value = .dict privateKeys attrs)
    (key : String) : (dumpCoverage rt).key place value key =
      if privateKeys.contains key then .hidden
      else ((attr? attrs key).map Place.under).getD .plain := by
  simp only [dumpCoverage, hdecision]

theorem firstDecision_of_taken {schemas : List Schema} {schema : Schema} {value : PyValue}
    (htaken : taken? rt schemas value = some schema) :
    firstDecision rt schemas value = schema.decision rt value := by
  induction schemas with
  | nil => cases htaken
  | cons first rest ih =>
    rw [taken?, find?_cons] at htaken
    rw [firstDecision]
    cases haccepts : (first.clean rt (some value)).isOk with
    | true =>
      rw [haccepts] at htaken
      cases htaken
      rfl
    | false =>
      rw [haccepts] at htaken
      exact ih htaken

theorem itemPlace_ne_plain {items : List Schema} {value : PyValue} {place : Place}
    (hplace : place ≠ .plain) : itemPlace rt value items place ≠ .plain := by
  induction items generalizing place with
  | nil => exact hplace
  | cons item items ih =>
    rw [itemPlace]
    split_ifs
    · exact ih (by simp)
    · simp
    · exact ih hplace

theorem itemTaken_ne_plain {items : List Schema} {value : PyValue} :
    itemTaken rt items value ≠ .plain := by
  match items with
  | [_] => simp [itemTaken]
  | [] => simp [itemTaken, itemPlace]
  | first :: second :: rest => exact itemPlace_ne_plain (by simp)

/-- A difference that is hidden is not seen in what `dump` leaves. -/
theorem redact_eq_of_differsHidden {schema : Schema} {v w : PyValue}
    (hdiffers : DiffersHidden rt schema v w) :
    (dumpCoverage rt).redact (.under schema) v = (dumpCoverage rt).redact (.under schema) w := by
  induction hdiffers with
  | same => rfl
  | hidden hv hw => rw [redact_of_decision_hidden hv, redact_of_decision_hidden hw]
  | @dict attr options attrs vs ws hkeys hplain hattrs ih =>
    cases hprivate : attr.isPrivate with
    | true =>
      rw [redact_of_decision_hidden (by simp [decision, hprivate]),
        redact_of_decision_hidden (by simp [decision, hprivate])]
    | false =>
      rw [Coverage.redact_dict (shown_of_decision (decision_under_dict hprivate _) rfl),
        Coverage.redact_dict (shown_of_decision (decision_under_dict hprivate _) rfl)]
      congr 1
      apply ext_getElem?
      intro i
      have hkey := congrArg (·[i]?) hkeys
      simp only [getElem?_map] at hkey ⊢
      cases hv : vs[i]? with
      | none =>
        rw [hv, Option.map_none, eq_comm, Option.map_eq_none_iff] at hkey
        rw [hkey]
        rfl
      | some entry =>
        rw [hv, Option.map_some, eq_comm, Option.map_eq_some_iff] at hkey
        obtain ⟨other, hw, hsame⟩ := hkey
        rcases entry with ⟨key, v⟩
        rcases other with ⟨_, w⟩
        cases hsame
        rw [hw, Option.map_some, Option.map_some, key_of_decision (decision_under_dict hprivate _),
          key_of_decision (decision_under_dict hprivate _)]
        cases hcontains : options.privateKeys.contains key with
        | true => simp [redact_hidden]
        | false =>
          have hnot : key ∉ options.privateKeys := by simpa using hcontains
          cases hattr : attr? attrs key with
          | none => simp [hplain i key v w hv hw hnot hattr]
          | some schema =>
            have hvalue := ih i key v w schema hv hw hnot hattr
            simp [hvalue]
  | @list attr options items vs ws hany hlength htaken hitems ih =>
    cases hprivate : attr.isPrivate with
    | true =>
      rw [redact_of_decision_hidden (by simp [decision, hprivate]),
        redact_of_decision_hidden (by simp [decision, hprivate])]
    | false =>
      cases vs with
      | nil => rw [eq_nil_of_length_eq_zero hlength.symm]
      | cons first rest =>
      obtain ⟨second, others, rfl⟩ : ∃ second others, ws = second :: others :=
        exists_cons_of_length_pos (by rw [← hlength]; simp)
      have hne : items.isEmpty = false := by
        cases items with
        | nil => cases hany
        | cons _ _ => rfl
      have hdecision : ∀ first rest, Place.decision rt (.under (.list attr options items))
          (.list (first :: rest)) = .list items := by
        simp [Place.decision, decision, hprivate, hany, hne, PyValue.truthy]
      rw [Coverage.redact_list (shown_of_decision (hdecision _ _) rfl),
        Coverage.redact_list (shown_of_decision (hdecision _ _) rfl)]
      congr 1
      apply ext_getElem (by simpa using hlength)
      intro i hi hj
      rw [length_map] at hi hj
      have hv := getElem?_eq_getElem hi
      have hw := getElem?_eq_getElem hj
      rw [getElem_map, getElem_map, item_of_decision (hdecision _ _),
        item_of_decision (hdecision _ _)]
      rcases htaken i _ _ hv hw with hsame | ⟨hhidden, hhidden'⟩
      · rw [← hsame]
        cases hplace : itemTaken rt items (first :: rest)[i] with
        | hidden => rw [redact_hidden, redact_hidden]
        | plain => exact absurd hplace itemTaken_ne_plain
        | under schema => exact ih i _ _ schema hv hw hplace (hsame.symm.trans hplace)
      · rw [Coverage.redact_of_hides (hides_iff.mpr hhidden),
          Coverage.redact_of_hides (hides_iff.mpr hhidden')]
  | @or name default isPrivate schemas schema v w hv hw _ ih =>
    have hunion : ∀ value, taken? rt schemas value = some schema →
        (dumpCoverage rt).redact (.under (.or name default isPrivate schemas)) value =
          (dumpCoverage rt).redact (.under schema) value := fun value htaken =>
      redact_congr (firstDecision_of_taken htaken)
    rw [hunion v hv, hunion w hw, ih]

theorem own_of_unambiguous {schema : Schema} {value : PyValue} (hschema : schema.Unambiguous)
    (hcovers : CoversPrivately rt schema value) : ∀ v, schema.decision rt v = .hidden := by
  intro v
  cases hcovers with
  | own hprivate =>
    cases hschema with
    | scalar | dict | list =>
      simp only [isPrivate] at hprivate
      simp [decision, hprivate]
  | or => cases hschema

theorem differsPrivately_of_among {schema : Schema} {v w : PyValue}
    (hamong : DiffersAmong rt [schema] v w) : DiffersPrivately rt schema v w := by
  cases hamong with
  | same => exact .same
  | schema hmem hv hw hdiffers =>
    cases mem_singleton.mp hmem
    exact hdiffers
  | covered hfirst hsecond hv hw hcovers hcovers' =>
    cases mem_singleton.mp hfirst
    cases mem_singleton.mp hsecond
    exact .covered hcovers hcovers'

/-- Where `dump` need not guess, a private difference that it does not show is hidden. -/
theorem differsHidden_of_redact_eq {schema : Schema} (hschema : schema.Unambiguous)
    {v w : PyValue} (hdiffers : DiffersPrivately rt schema v w)
    (hsame : (dumpCoverage rt).redact (.under schema) v =
      (dumpCoverage rt).redact (.under schema) w) : DiffersHidden rt schema v w := by
  induction hschema generalizing v w with
  | scalar attr kind =>
    cases hdiffers with
    | same => exact .same
    | covered hv hw =>
      exact .hidden (own_of_unambiguous (.scalar attr kind) hv v)
        (own_of_unambiguous (.scalar attr kind) hw w)
  | @dict attr options attrs hattrs ih =>
    cases hdiffers with
    | same => exact .same
    | covered hv hw =>
      exact .hidden (own_of_unambiguous (.dict attr options hattrs) hv v)
        (own_of_unambiguous (.dict attr options hattrs) hw w)
    | @dict _ _ _ vs ws hkeys hentries =>
      cases hprivate : attr.isPrivate with
      | true => exact .hidden (by simp [decision, hprivate]) (by simp [decision, hprivate])
      | false =>
        rw [Coverage.redact_dict (shown_of_decision (decision_under_dict hprivate _) rfl),
          Coverage.redact_dict (shown_of_decision (decision_under_dict hprivate _) rfl),
          PyValue.dict.injEq] at hsame
        refine .dict hkeys ?_ ?_
        · intro i key v w hv hw hnot hattr
          have hfield := hentries i key v w hv hw hnot
          rw [hattr] at hfield
          cases hfield
          rfl
        · intro i key v w schema hv hw hnot hattr
          have hfield := hentries i key v w hv hw hnot
          rw [hattr] at hfield
          cases hfield with
          | same => exact .same
          | attr hdiffers =>
            have hmem : schema ∈ attrs := List.mem_reverse.mp (mem_of_find?_eq_some hattr)
            apply ih schema hmem hdiffers
            have hentry := congrArg (·[i]?) hsame
            simp only [getElem?_map, hv, hw, Option.map_some, Option.some.injEq, Prod.mk.injEq,
              true_and, key_of_decision (decision_under_dict hprivate _)] at hentry
            simpa [hnot, hattr] using hentry
  | @list attr options items hsingle hitems ih =>
    cases hdiffers with
    | same => exact .same
    | covered hv hw =>
      exact .hidden (own_of_unambiguous (.list attr options hsingle hitems) hv v)
        (own_of_unambiguous (.list attr options hsingle hitems) hw w)
    | @list _ _ _ vs ws hlength hamong =>
      cases hprivate : attr.isPrivate with
      | true => exact .hidden (by simp [decision, hprivate]) (by simp [decision, hprivate])
      | false =>
        cases hany : anyPrivate items with
        | false =>
          rw [redact_of_plain (by simp [Place.decision, decision, hprivate, hany]),
            redact_of_plain (by simp [Place.decision, decision, hprivate, hany])] at hsame
          rw [hsame]
          exact .same
        | true =>
          cases vs with
          | nil =>
            rw [eq_nil_of_length_eq_zero hlength.symm]
            exact .same
          | cons first rest =>
          obtain ⟨second, others, rfl⟩ : ∃ second others, ws = second :: others :=
            exists_cons_of_length_pos (by rw [← hlength]; simp)
          obtain ⟨schema, rfl⟩ : ∃ schema, items = [schema] := by
            cases items with
            | nil => cases hany
            | cons schema others =>
              have hnil : others = [] := eq_nil_of_length_eq_zero (by simpa using hsingle)
              exact ⟨schema, by rw [hnil]⟩
          have hdecision : ∀ first rest, Place.decision rt (.under (.list attr options [schema]))
              (.list (first :: rest)) = .list [schema] := by
            simp [Place.decision, decision, hprivate, hany, PyValue.truthy]
          rw [Coverage.redact_list (shown_of_decision (hdecision _ _) rfl),
            Coverage.redact_list (shown_of_decision (hdecision _ _) rfl),
            PyValue.list.injEq] at hsame
          refine .list hany hlength (fun _ _ _ _ _ => Or.inl rfl) ?_
          intro i v w taken hv hw htaken _
          cases htaken
          apply ih schema mem_cons_self (differsPrivately_of_among (hamong i v w hv hw))
          have hitem := congrArg (·[i]?) hsame
          simpa only [getElem?_map, hv, hw, Option.map_some, Option.some.injEq,
            item_of_decision (hdecision _ _), itemTaken] using hitem

/-- `Str`, for texts and integers. -/
def strClass : ScalarClass where
  coerce value :=
    match value with
    | .none => .ok .none
    | .int n => .ok (.str (toString n))
    | .str text => .ok (.str text)
    | _ => .error .rejected
  validate _ := .ok ()

def plainAttribute (name : String) (isPrivate : Bool) : Attribute where
  name := name
  default := none
  required := true
  null := false
  empty := true
  isPrivate := isPrivate
  editable := true

def dictOptions (privateKeys : List String) : DictOptions where
  additionalAttrs := true
  conditionalDefaults := Dict.empty
  privateKeys := privateKeys
  update := false
  validators _ := .ok ()

def loginSchema : Schema :=
  .dict (plainAttribute "login" false) (dictOptions [])
    [.scalar (plainAttribute "username" false) strClass,
      .scalar (plainAttribute "password" true) strClass]

def login (password : String) : PyValue :=
  .dict [("username", .str "root"), ("password", .str password)]

def listOptions : ListOptions where
  enum := none
  unique := false
  validators _ := .ok ()

def loginList : Schema := .list (plainAttribute "logins" false) listOptions [loginSchema]

theorem login_differs (password other : String) :
    DiffersPrivately schemaRuntime loginSchema (login password) (login other) := by
  refine .dict rfl ?_
  intro i key v w hv hw _
  match i with
  | 0 =>
    cases hv
    cases hw
    exact .same
  | 1 =>
    cases hv
    cases hw
    exact .attr (.covered (.own rfl) (.own rfl))
  | n + 2 => cases hv

def loginVariants : PrivateVariants schemaRuntime loginList where
  first := .list [login "abc"]
  second := .list [login "xyz"]
  first_accepted := ⟨_, rfl⟩
  second_accepted := ⟨_, rfl⟩
  differs := by
    refine .list rfl ?_
    intro i v w hv hw
    match i with
    | 0 =>
      cases hv
      cases hw
      exact .schema List.mem_cons_self ⟨_, rfl⟩ ⟨_, rfl⟩ (login_differs "abc" "xyz")
    | n + 1 => cases hv

def credentialList : Schema :=
  .list (plainAttribute "tasks" false) listOptions
    [.dict (plainAttribute "credentials" false) (dictOptions ["provider"]) []]

def credentials (secret : String) : PyValue :=
  .list [.dict [("provider", .dict [("secret_access_key", .str secret)])]]

def credentialVariants : PrivateVariants schemaRuntime credentialList where
  first := credentials "abc"
  second := credentials "xyz"
  first_accepted := ⟨_, rfl⟩
  second_accepted := ⟨_, rfl⟩
  differs := by
    refine .list rfl ?_
    intro i v w hv hw
    match i with
    | 0 =>
      cases hv
      cases hw
      refine .schema List.mem_cons_self ⟨_, rfl⟩ ⟨_, rfl⟩ (.dict rfl ?_)
      intro j key v w hv hw hkey
      match j with
      | 0 =>
        cases hv
        exact absurd List.mem_cons_self hkey
      | n + 1 => cases hv
    | n + 1 => cases hv

end Schema

end Middlewared
