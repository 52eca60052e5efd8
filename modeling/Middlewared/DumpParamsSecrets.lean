import Middlewared.DumpParams

/-!
# No secret survives the dump of parameters

What the walk makes of two values is the same exactly when they differ only where the walk hides
the difference.
-/

namespace Middlewared

open Dict List Option

variable {M : Type}

/-! ## The walk hides what it comes to -/

section

variable {api : M → ModelInfo M}

theorem lookup_removeSecretsEntries (entries : ApiEntries) (name : String) :
    (removeSecretsEntries api entries).lookup name =
      (entries.lookup name).map (removeSecrets api) := by
  induction entries with
  | nil => rfl
  | cons entry rest ih =>
    rcases entry with ⟨key, value⟩
    rw [removeSecretsEntries, lookup_cons_ite, lookup_cons_ite, ih]
    by_cases hkey : name = key <;> simp [hkey]

variable {hint : TypeHint M}

theorem removeSecrets_dict {m : M} (hmodel : modelFieldIsModel hint = some m)
    (entries : ApiEntries) : removeSecrets api (.dict entries) hint =
    .dict ((api m).modelFields.entries.filterMap fun entry =>
      (entries.lookup entry.1).map fun value =>
        (entry.1, removeSecrets api value entry.2.hint)) := by
  simp only [removeSecrets, hmodel, lookup_removeSecretsEntries, Option.map_map, Function.comp_def]

theorem removeSecretsItems_eq (items : List ApiValue) (hint : TypeHint M) :
    removeSecretsItems api items hint = items.map fun item => removeSecrets api item hint := by
  induction items with
  | nil => rfl
  | cons item rest ih => simp [removeSecretsItems, ih]

theorem hideSecret_of_not_secret (hsecret : hint.isSecret = false)
    (value : ApiValue) : hideSecret hint value = value := by
  cases hint <;> first | rfl | cases hsecret

theorem removeSecrets_secret (hint : TypeHint M) (value : ApiValue) :
    removeSecrets api value (.secret hint) = secretValue := by
  cases value <;> rfl

theorem removeSecrets_of_isSecret (hsecret : hint.isSecret = true) (value : ApiValue) :
    removeSecrets api value hint = secretValue := by
  cases hint with
  | secret inner => exact removeSecrets_secret inner value
  | model _ | unionType _ | typingUnion _ | list _ | annotated _ | none | other _ => cases hsecret

theorem removeSecrets_none (value : ApiValue) : removeSecrets api value .none = value := by
  cases value <;> rfl

section

variable {walk : TypeHint M} (hsecret : walk.isSecret = false)
include hsecret

theorem removeSecrets_scalar (value : Scalar) :
    removeSecrets api (.scalar value) walk = .scalar value :=
  hideSecret_of_not_secret hsecret _

theorem removeSecrets_dict_of_none (hmodel : modelFieldIsModel walk = none) (entries : ApiEntries) :
    removeSecrets api (.dict entries) walk = .dict entries := by
  simp only [removeSecrets, hmodel]
  exact hideSecret_of_not_secret hsecret _

/-- Outside secrets, the items of a list are walked through one by one. -/
theorem removeSecrets_items (items : List ApiValue) : removeSecrets api (.list items) walk =
    .list (items.map fun item => removeSecrets api item (walkItem walk)) := by
  cases hlist : modelFieldIsListOfModels walk with
  | none =>
    simp only [removeSecrets, hlist, walkItem, getD_none, removeSecrets_none, List.map_id']
    exact hideSecret_of_not_secret hsecret _
  | some item =>
    simp only [removeSecrets, hlist, walkItem, getD_some, removeSecretsItems_eq]

end

theorem filterMap_keyed_eq_iff {α β : Type} {fields : List (String × α)}
    (hnodup : (fields.map Prod.fst).Nodup)
    (f g : String × α → Option β) :
    (fields.filterMap fun entry => (f entry).map fun b => (entry.1, b)) =
        (fields.filterMap fun entry => (g entry).map fun b => (entry.1, b)) ↔
      ∀ entry ∈ fields, f entry = g entry := by
  have hkey : ∀ (h : String × α → Option β) (rest : List (String × α)) key b,
      (key, b) ∈ (rest.filterMap fun entry =>
        (h entry).map fun b => (entry.1, b)) → key ∈ rest.map Prod.fst := by
    intro h rest key b hmem
    obtain ⟨entry, hentry, hsome⟩ := mem_filterMap.mp hmem
    obtain ⟨_, _, hsame⟩ := map_eq_some_iff.mp hsome
    cases hsame
    exact List.mem_map_of_mem hentry
  induction fields with
  | nil => simp
  | cons entry rest ih =>
    rw [map_cons, nodup_cons] at hnodup
    rw [forall_mem_cons]
    refine Iff.trans ?_ (and_congr_right' (ih hnodup.2))
    cases hf : f entry with
    | none =>
      cases hg : g entry with
      | none => simp [hf, hg]
      | some b =>
        simp only [filterMap_cons, hf, hg, map_none, map_some, reduceCtorEq, false_and, iff_false]
        intro hsame
        apply hnodup.1
        apply hkey f rest entry.1 b
        rw [hsame]
        exact mem_cons_self
    | some a =>
      cases hg : g entry with
      | none =>
        simp only [filterMap_cons, hf, hg, map_none, map_some, reduceCtorEq, false_and, iff_false]
        intro hsame
        apply hnodup.1
        apply hkey g rest entry.1 a
        rw [← hsame]
        exact mem_cons_self
      | some b => simp [hf, hg]

section

variable {walk : TypeHint M} {entries others : ApiEntries}

theorem lookup_of_keys_eq {others : ApiEntries}
    (hkeys : entries.map Prod.fst = others.map Prod.fst) (key : String) :
    (entries.lookup key = none ∧ others.lookup key = none) ∨
      ∃ (k : ℕ) (value other : ApiValue), entries[k]? = some (key, value) ∧
        others[k]? = some (key, other) ∧ entries.lookup key = some value ∧
        others.lookup key = some other := by
  induction entries generalizing others with
  | nil =>
    cases others with
    | nil => exact .inl ⟨rfl, rfl⟩
    | cons _ _ => simp at hkeys
  | cons entry rest ih =>
    cases others with
    | nil => simp at hkeys
    | cons other others =>
      rcases entry with ⟨first, value⟩
      rcases other with ⟨second, other⟩
      simp only [map_cons, List.cons.injEq] at hkeys
      obtain ⟨hfirst, hrest⟩ := hkeys
      subst second
      simp only [lookup_cons_ite]
      by_cases hkey : key = first
      · subst key
        exact .inr ⟨0, value, other, rfl, rfl, by simp, by simp⟩
      · rw [if_neg hkey, if_neg hkey]
        rcases ih hrest with hnone | ⟨k, value, other, hentry, hother, hfound⟩
        · exact .inl hnone
        · exact .inr ⟨k + 1, value, other, hentry, hother, hfound⟩

/-- Two dictionaries of the same keys look the same after the walk exactly when this holds of the
values under each key that it goes on to. -/
theorem removeSecrets_dict_eq (hsecret : walk.isSecret = false)
    (hkeys : entries.map Prod.fst = others.map Prod.fst)
    (hvalues : ∀ (k : ℕ) key value other next, entries[k]? = some (key, value) →
      others[k]? = some (key, other) → walkKey api walk key = some next →
        removeSecrets api value next = removeSecrets api other next) :
    removeSecrets api (.dict entries) walk = removeSecrets api (.dict others) walk := by
  unfold walkKey at hvalues
  cases hmodel : modelFieldIsModel walk with
  | none =>
    rw [removeSecrets_dict_of_none hsecret hmodel, removeSecrets_dict_of_none hsecret hmodel]
    congr 1
    apply ext_getElem?
    intro k
    have hkey := congrArg (·[k]?) hkeys
    simp only [getElem?_map] at hkey
    cases hentry : entries[k]? with
    | none =>
      rw [hentry, map_none, eq_comm, map_eq_none_iff] at hkey
      exact hkey.symm
    | some entry =>
      rw [hentry, map_some, eq_comm, map_eq_some_iff] at hkey
      obtain ⟨other, hother, hsame⟩ := hkey
      rcases entry with ⟨key, value⟩
      rcases other with ⟨_, other⟩
      cases hsame
      have hvalue := hvalues k key value other .none hentry hother (by rw [hmodel])
      rw [removeSecrets_none, removeSecrets_none] at hvalue
      rw [hother, hvalue]
  | some m =>
    rw [removeSecrets_dict hmodel, removeSecrets_dict hmodel]
    congr 1
    apply filterMap_congr
    rintro ⟨name, field⟩ hentry
    have hget := Dict.mem_entries_iff.mp hentry
    rcases lookup_of_keys_eq hkeys name with
      ⟨hnone, hnone'⟩ | ⟨k, value, other, hvalue, hother, hfound, hfound'⟩
    · rw [hnone, hnone']
    · rw [hfound, hfound', map_some, map_some,
        hvalues k name value other field.hint hvalue hother (by simp [hmodel, hget])]

variable {library : Validation M} {hint : TypeHint M} {value other : ApiValue}

/-- Where the walk comes to every secret, it makes the same of values that differ in secrets
only. -/
theorem removeSecrets_eq_of_not_shown (heq : SecretEq api library hint value other)
    (hhidden : ¬ Shown api walk hint) :
    removeSecrets api value walk = removeSecrets api other walk := by
  induction heq generalizing walk with
  | refl => rfl
  | secret hint value other =>
    cases hsecret : walk.isSecret with
    | true => rw [removeSecrets_of_isSecret hsecret, removeSecrets_of_isSecret hsecret]
    | false => exact absurd (.secret hsecret) hhidden
  | @model m entries others hkeys hfields hrest ih =>
    cases hsecret : walk.isSecret with
    | true => rw [removeSecrets_of_isSecret hsecret, removeSecrets_of_isSecret hsecret]
    | false =>
      apply removeSecrets_dict_eq hsecret hkeys
      intro k key value other next hentry hother hnext
      by_cases hread : ∃ name field, (api m).modelFields.get? name = some field ∧
          field.key name = key
      · obtain ⟨name, field, hfield, rfl⟩ := hread
        apply ih k (field.key name) value other name field hentry hother hfield rfl
        exact fun hshown => hhidden (.model hsecret hfield hnext hshown)
      · rw [hrest k key value other hentry hother fun name field hfield hkey =>
          hread ⟨name, field, hfield, hkey⟩]
  | @list hint items others hlength hitems ih =>
    cases hsecret : walk.isSecret with
    | true => rw [removeSecrets_of_isSecret hsecret, removeSecrets_of_isSecret hsecret]
    | false =>
      rw [removeSecrets_items hsecret, removeSecrets_items hsecret]
      congr 1
      apply ext_getElem?
      intro k
      rw [getElem?_map, getElem?_map]
      by_cases hk : k < items.length
      · have hitem := getElem?_eq_getElem hk
        have hother := getElem?_eq_getElem (l := others) (i := k) (by omega)
        rw [hitem, hother, map_some, map_some, ih k _ _ hitem hother]
        exact fun hshown => hhidden (.list hsecret hshown)
      · rw [getElem?_eq_none (by omega), getElem?_eq_none (by omega)]
  | unionType hmember _ _ _ ih => exact ih fun hshown => hhidden (.unionType hmember hshown)
  | typingUnion hmember _ _ _ ih => exact ih fun hshown => hhidden (.typingUnion hmember hshown)
  | annotated _ ih => exact ih fun hshown => hhidden (.annotated hshown)

theorem secretEq_of_key (hkeys : DistinctKeys api) {m : M} {name : String} {field : FieldInfo M}
    (hfield : (api m).modelFields.get? name = some field)
    (hsame : entries.map Prod.fst = others.map Prod.fst)
    (hvalues : ∀ (k : ℕ) key value other, entries[k]? = some (key, value) →
      others[k]? = some (key, other) →
        value = other ∨ key = field.key name ∧ SecretEq api library field.hint value other) :
    SecretEq api library (.model m) (.dict entries) (.dict others) := by
  refine .model hsame ?_ ?_
  · intro k key value other otherName otherField hentry hother hget hkey
    rcases hvalues k key value other hentry hother with rfl | ⟨hread, heq⟩
    · exact .refl _ _
    · have hname := hkeys m otherName name otherField field hget hfield (hkey.trans hread)
      subst hname
      cases hget.symm.trans hfield
      exact heq
  · intro k key value other hentry hother hunread
    rcases hvalues k key value other hentry hother with rfl | ⟨hread, _⟩
    · rfl
    · exact absurd hread.symm (hunread name field hfield)

/-- A library that no value of a union is valid for. -/
def choosesNone : Validation M where
  member _ _ := none
  leaf _ _ := none

/-- A secret that the walk does not come to makes a difference in what it leaves. -/
theorem exists_secretEq_of_shown (hkeys : DistinctKeys api) (hshown : Shown api walk hint) :
    ∃ value other, SecretEq api choosesNone hint value other ∧
      removeSecrets api value walk ≠ removeSecrets api other walk := by
  induction hshown with
  | secret hwalk =>
    refine ⟨.scalar (.int 0), .scalar (.int 1), .secret _ _ _, ?_⟩
    rw [removeSecrets_scalar hwalk, removeSecrets_scalar hwalk]
    simp
  | @model walk next m name field hwalk hfield hnext hshown ih =>
    obtain ⟨value, other, heq, hne⟩ := ih
    refine ⟨.dict [(field.key name, value)], .dict [(field.key name, other)], ?_, ?_⟩
    · refine secretEq_of_key hkeys hfield (by simp) ?_
      intro k key first second hfirst hsecond
      cases k with
      | zero =>
        cases hfirst
        cases hsecond
        exact Or.inr ⟨rfl, heq⟩
      | succ k => simp at hfirst
    · intro hsame
      unfold walkKey at hnext
      cases hmodel : modelFieldIsModel walk with
      | none =>
        rw [hmodel, some.injEq] at hnext
        rw [removeSecrets_dict_of_none hwalk hmodel,
          removeSecrets_dict_of_none hwalk hmodel] at hsame
        simp only [ApiValue.dict.injEq, List.cons.injEq, Prod.mk.injEq, true_and, and_true] at hsame
        exact hne (by rw [hsame])
      | some found =>
        rw [hmodel] at hnext
        simp only [map_eq_some_iff] at hnext
        obtain ⟨target, hget, rfl⟩ := hnext
        rw [removeSecrets_dict hmodel, removeSecrets_dict hmodel, ApiValue.dict.injEq] at hsame
        have hkept := filterMap_keyed_eq_iff (api found).modelFields.nodup
          (fun entry => ([(field.key name, value)].lookup entry.1).map fun value =>
            removeSecrets api value entry.2.hint)
          (fun entry => ([(field.key name, other)].lookup entry.1).map fun value =>
            removeSecrets api value entry.2.hint)
        simp only [Option.map_map, Function.comp_def] at hkept
        have hboth := hkept.mp hsame (field.key name, target) (Dict.mem_entries_iff.mpr hget)
        simp only [lookup_cons_self, map_some, some.injEq] at hboth
        exact hne hboth
  | @list walk hint hwalk hshown ih =>
    obtain ⟨value, other, heq, hne⟩ := ih
    refine ⟨.list [value], .list [other], .list rfl ?_, ?_⟩
    · intro k item otherItem hitem hother
      cases k with
      | zero =>
        cases hitem
        cases hother
        exact heq
      | succ k => simp at hitem
    · rw [removeSecrets_items hwalk, removeSecrets_items hwalk]
      simpa using hne
  | unionType hmember _ ih =>
    obtain ⟨value, other, heq, hne⟩ := ih
    exact ⟨value, other,
      .unionType hmember (by simp [choosesNone]) (by simp [choosesNone]) heq, hne⟩
  | typingUnion hmember _ ih =>
    obtain ⟨value, other, heq, hne⟩ := ih
    exact ⟨value, other,
      .typingUnion hmember (by simp [choosesNone]) (by simp [choosesNone]) heq, hne⟩
  | annotated _ ih =>
    obtain ⟨value, other, heq, hne⟩ := ih
    exact ⟨value, other, .annotated heq, hne⟩

end

end

/-! ## The dump of valid parameters -/

section

variable {api : M → ModelInfo M} {library : Validation M}

variable {hint : TypeHint M} {content : Instance M}

theorem not_isUndefined_of_validates {value : ApiValue}
    (hvalid : Validates api library hint value content) :
    content.isUndefined = false := by
  induction hvalid with
  | model | list | secret | none => rfl
  | unionType _ _ _ ih | typingUnion _ _ _ ih | annotated _ ih => exact ih
  | other _ hdefined => exact hdefined

variable {entries : ApiEntries}

variable {other : ApiValue}

variable {m : M}

theorem SecretEq.fields (heq : SecretEq api library (.model m) (.dict entries) other) :
    ∃ others, other = .dict others ∧ ∀ name field, (api m).modelFields.get? name = some field →
        Option.Rel (SecretEq api library field.hint) (entries.lookup (field.key name))
          (others.lookup (field.key name)) := by
  cases heq with
  | refl =>
    refine ⟨entries, rfl, ?_⟩
    intro name field _
    cases entries.lookup (field.key name) with
    | none => exact .none
    | some value => exact .some (.refl _ value)
  | @model _ _ others hkeys hfields hrest =>
    refine ⟨others, rfl, ?_⟩
    intro name field hget
    rcases lookup_of_keys_eq hkeys (field.key name) with
      ⟨hnone, hnone'⟩ | ⟨k, value, other, hentry, hother, hfound, hfound'⟩
    · rw [hnone, hnone']
      exact .none
    · rw [hfound, hfound']
      exact .some (hfields k _ value other name field hentry hother hget rfl)

theorem SecretEq.items {items : List ApiValue}
    (heq : SecretEq api library (.list hint) (.list items) other) :
    ∃ others, other = .list others ∧ items.length = others.length ∧
      ∀ (k : ℕ) item other, items[k]? = some item → others[k]? = some other →
        SecretEq api library hint item other := by
  cases heq with
  | refl =>
    refine ⟨items, rfl, rfl, ?_⟩
    intro k item other hitem hother
    cases hitem.symm.trans hother
    exact .refl _ _
  | list hlength hitems => exact ⟨_, rfl, hlength, hitems⟩

variable {fields : InstanceFields M}

theorem modelDumpFields_congr {others : InstanceFields M}
    (hall : List.Forall₂ (fun field other => field.1 = other.1 ∧
      leftOut api true m field.1 field.2.1 field.2.2 =
        leftOut api true m other.1 other.2.1 other.2.2 ∧
      (leftOut api true m field.1 field.2.1 field.2.2 = false → modelDump api true false field.2.2 =
          modelDump api true false other.2.2)) fields others) :
    modelDumpFields api true false m fields = modelDumpFields api true false m others := by
  induction hall with
  | nil => rfl
  | @cons field other fields others hhead _ ih =>
    rcases field with ⟨name, wasSet, content⟩
    rcases other with ⟨_, otherSet, otherContent⟩
    obtain ⟨rfl, hout, hdump⟩ := hhead
    rw [modelDumpFields, modelDumpFields, ← hout, ih]
    cases hleft : leftOut api true m name wasSet content with
    | true => rfl
    | false => rw [hdump hleft]

theorem wasSet_eq (hvalid : Validates api library (.model m) (.dict entries)
      (.model m fields)) {name : String} {wasSet : Bool} {field : FieldInfo M}
    (hmem : (name, wasSet, content) ∈ fields)
    (hget : (api m).modelFields.get? name = some field) :
    wasSet = (entries.lookup (field.key name)).isSome := by
  cases hvalid with
  | model hnames hextra hgiven hset hunset =>
    cases wasSet with
    | true => exact (hgiven name content field hmem hget).symm
    | false =>
      rw [(hunset name content field hmem hget).1]
      rfl

theorem names_of_validates (hvalid : Validates api library (.model m) (.dict entries)
      (.model m fields)) : fields.map Prod.fst = (api m).modelFields.keys := by
  cases hvalid with
  | model hnames _ _ _ _ => exact hnames

theorem forall₂_of_names_eq {others : InstanceFields M}
    (hnames : fields.map Prod.fst = others.map Prod.fst) :
    List.Forall₂ (fun field other => field ∈ fields ∧ other ∈ others ∧
      field.1 = other.1) fields others := by
  have hsame : List.Forall₂ (fun field other => field.1 = other.1) fields others := by
    rw [← forall₂_eq_eq_eq, forall₂_map_left_iff, forall₂_map_right_iff] at hnames
    exact hnames
  rw [forall₂_iff_zip] at hsame ⊢
  refine ⟨hsame.1, ?_⟩
  intro field other hmem
  have hboth := of_mem_zip hmem
  exact ⟨hboth.1, hboth.2, hsame.2 hmem⟩

theorem modelDump_eq_of_secretEq {value : ApiValue} {otherContent : Instance M}
    (hvalid : Validates api library hint value content)
    (hother : Validates api library hint other otherContent)
    (heq : SecretEq api library hint value other) :
    modelDump api true false content = modelDump api true false otherContent := by
  induction hvalid generalizing other otherContent with
  | @model m entries fields hnames hextra hgiven hset hunset ih =>
    have hvalid : Validates api library (.model m) (.dict entries)
        (.model m fields) := .model hnames hextra hgiven hset hunset
    obtain ⟨others, rfl, hfields⟩ := heq.fields
    cases hother with
    | @model _ _ otherFields hnames' hextra' hgiven' hset' hunset' =>
    have hother : Validates api library (.model m) (.dict others)
        (.model m otherFields) := .model hnames' hextra' hgiven' hset' hunset'
    simp only [modelDump, ApiValue.dict.injEq]
    apply modelDumpFields_congr
    apply (forall₂_of_names_eq (hnames.trans hnames'.symm)).imp
    rintro ⟨name, wasSet, content⟩ ⟨_, otherSet, otherContent⟩ ⟨hmem, hmem', rfl⟩
    have hname : name ∈ (api m).modelFields := by
      rw [Dict.mem_def, ← hnames]
      exact List.mem_map_of_mem hmem
    obtain ⟨field, hget⟩ := exists_get?_of_mem hname
    have hrel := hfields name field hget
    have hflag := wasSet_eq hvalid hmem hget
    have hflag' := wasSet_eq hother hmem' hget
    cases hvalue : entries.lookup (field.key name) with
    | none =>
      cases hvalue' : others.lookup (field.key name) with
      | some _ => rw [hvalue, hvalue'] at hrel; cases hrel
      | none =>
        rw [hvalue] at hflag
        rw [hvalue'] at hflag'
        subst hflag hflag'
        simp [leftOut]
    | some value =>
      cases hvalue' : others.lookup (field.key name) with
      | none => rw [hvalue, hvalue'] at hrel; cases hrel
      | some other =>
        rw [hvalue] at hflag
        rw [hvalue'] at hflag'
        subst hflag hflag'
        have hfirst := hset name content field value hmem hget hvalue
        have hsecond := hset' name otherContent field other hmem' hget hvalue'
        rw [hvalue, hvalue'] at hrel
        cases hrel with
        | some heq =>
          refine ⟨rfl, ?_, ?_⟩
          · simp [leftOut, not_isUndefined_of_validates hfirst,
              not_isUndefined_of_validates hsecond]
          · intro _
            exact ih name content field value hmem hget hvalue hsecond heq
  | @unionType members member value content hchosen hmember hvalue ih =>
    cases hother with
    | unionType hchosen' _ hother =>
      cases heq with
      | refl =>
        cases hchosen.symm.trans hchosen'
        exact ih hother (.refl _ _)
      | unionType _ hfirst hsecond heq =>
        cases hfirst _ hchosen
        cases hsecond _ hchosen'
        exact ih hother heq
  | @typingUnion members member value content hchosen hmember hvalue ih =>
    cases hother with
    | typingUnion hchosen' _ hother =>
      cases heq with
      | refl =>
        cases hchosen.symm.trans hchosen'
        exact ih hother (.refl _ _)
      | typingUnion _ hfirst hsecond heq =>
        cases hfirst _ hchosen
        cases hsecond _ hchosen'
        exact ih hother heq
  | @list hint items contents hlength hitems ih =>
    obtain ⟨others, rfl, hlength', hothers⟩ := heq.items
    cases hother with
    | @list _ _ otherContents hlength'' hitems' =>
      simp only [modelDump, modelDumpItems_eq, ApiValue.list.injEq]
      apply ext_getElem?
      intro k
      rw [getElem?_map, getElem?_map]
      by_cases hk : k < contents.length
      · have hitem := getElem?_eq_getElem (l := items) (i := k) (by omega)
        have hother := getElem?_eq_getElem (l := others) (i := k) (by omega)
        have hcontent := getElem?_eq_getElem hk
        have hcontent' := getElem?_eq_getElem (l := otherContents) (i := k) (by omega)
        rw [hcontent, hcontent', map_some, map_some,
          ih k _ _ hitem hcontent (hitems' k _ _ hother hcontent') (hothers k _ _ hitem hother)]
      · rw [getElem?_eq_none (by omega), getElem?_eq_none (by omega)]
  | secret hvalue ih =>
    cases hother with
    | secret hother => simp [modelDump]
  | annotated hvalue ih =>
    cases hother with
    | annotated hother =>
      cases heq with
      | refl => exact ih hother (.refl _ _)
      | annotated heq => exact ih hother heq
  | none =>
    cases heq with
    | refl => cases hother with | none => rfl
  | other hleaf hdefined =>
    cases heq with
    | refl =>
      cases hother with
      | other hleaf' _ =>
        cases hleaf.symm.trans hleaf'
        rfl

theorem getItem_modelDumpFields {args : List ApiValue} (hvalid : Validates api library (.model m)
      (.dict ((api m).modelFields.keys.zip args)) (.model m fields))
    {name : String} (hname : name ∈ (api m).modelFields.keys.take args.length) :
    ∃ value, getItem (modelDumpFields api true false m fields) name = .ok value := by
  obtain ⟨k, hk⟩ := getElem?_of_mem hname
  have hlt : k < args.length := by
    have hbound := (List.getElem?_eq_some_iff.mp hk).1
    rw [length_take] at hbound
    omega
  have hkey : (api m).modelFields.keys[k]? = some name := by
    rw [getElem?_take_of_lt hlt] at hk
    exact hk
  have hentry : (name, args.get ⟨k, hlt⟩) ∈ (api m).modelFields.keys.zip args := by
    apply mem_of_getElem? (i := k)
    rw [getElem?_zip_eq_some]
    exact ⟨hkey, by simp [hlt]⟩
  have hgiven : (((api m).modelFields.keys.zip args).lookup name).isSome := by
    rw [Dict.lookup_isSome_iff]
    exact List.mem_map_of_mem hentry
  have hnames := names_of_validates hvalid
  cases hvalid with
  | model _ hextra hgiven' hset hunset =>
  obtain ⟨fieldName, field, hget, hkey, hexclude⟩ := hextra _ hentry
  have hmem : fieldName ∈ fields.map Prod.fst := by
    rw [hnames]
    exact mem_of_get?_eq_some hget
  obtain ⟨⟨other, wasSet, content⟩, hmem, hother⟩ := List.mem_map.mp hmem
  simp only at hother
  subst other
  cases wasSet with
  | false =>
    have hnone := (hunset fieldName content field hmem hget).1
    rw [hkey] at hnone
    rw [hnone] at hgiven
    cases hgiven
  | true =>
    obtain ⟨value, hvalue⟩ := isSome_iff_exists.mp hgiven
    have hcontent := not_isUndefined_of_validates
      (hset fieldName content field value hmem hget (by rw [hkey, hvalue]))
    have hdump : (name, modelDump api true false content) ∈
        modelDumpFields api true false m fields := by
      rw [mem_modelDumpFields_iff]
      refine ⟨fieldName, true, content, hmem, ?_, ?_, rfl⟩
      · simp [leftOut, hget, hexclude, hcontent]
      · simp [dumpKey, hget, hkey]
    have hsome : ((modelDumpFields api true false m fields).lookup name).isSome := by
      rw [Dict.lookup_isSome_iff]
      exact List.mem_map_of_mem hdump
    obtain ⟨found, hfound⟩ := isSome_iff_exists.mp hsome
    exact ⟨found, by simp [getItem, hfound]⟩

end

section

variable {api : M → ModelInfo M} {construct : Construct M}
  {library : Validation M} {m : M} {args others : List ApiValue}

theorem dumpParams_tooMany (hmany : (api m).modelFields.size < args.length) :
    dumpParams api construct m args false =
      .error (.tooManyArguments (api m).modelFields.size args.length) := by
  simp [dumpParams, acceptParams, modelDictFromList, hmany]

theorem dumpParams_invalid (hle : args.length ≤ (api m).modelFields.size)
    (hinvalid : ¬ ValidArgs api construct m args) :
    dumpParams api construct m args false =
      .ok (removeSecretsParams api ((api m).modelFields.entries.map Prod.snd) args) := by
  have hnot : ¬ (api m).modelFields.size < args.length := by omega
  cases hconstruct : construct m ((api m).modelFields.keys.zip args) with
  | ok fields => exact absurd ⟨hle, fields, hconstruct⟩ hinvalid
  | error errors =>
    simp [dumpParams, acceptParams, modelDictFromList, hnot, validateModel, hconstruct]

theorem dumpParams_valid {fields : InstanceFields M} (hle : args.length ≤ (api m).modelFields.size)
    (hsound : construct.Sound api library m ((api m).modelFields.keys.zip args))
    (hconstruct : construct m ((api m).modelFields.keys.zip args) = .ok fields) :
    ∃ params, dumpParams api construct m args false = .ok params ∧
      ((api m).modelFields.keys.take args.length).mapM
        (getItem (modelDumpFields api true false m fields)) = .ok params := by
  have hnot : ¬ (api m).modelFields.size < args.length := by omega
  have hvalid := hsound fields hconstruct
  obtain ⟨params, hparams⟩ := exists_mapM_eq_ok fun name hname =>
    getItem_modelDumpFields hvalid hname
  simp [dumpParams, acceptParams, modelDictFromList, hnot, validateModel, hconstruct, hparams]

theorem getElem?_removeSecretsParams {fields : List (FieldInfo M)}
    (hle : args.length ≤ fields.length) (k : ℕ) :
    (removeSecretsParams api fields args)[k]? =
      fields[k]?.map fun field => removeSecrets api (args[k]?.getD .none) field.hint := by
  induction fields generalizing args k with
  | nil =>
    have hnil : args = [] := eq_nil_of_length_eq_zero (by simpa using hle)
    subst hnil
    rfl
  | cons field fields ih =>
    cases args with
    | nil =>
      rw [removeSecretsParams]
      cases k with
      | zero => rfl
      | succ k =>
        have hle : ([] : List ApiValue).length ≤ fields.length := Nat.zero_le _
        simpa using ih hle k
    | cons arg args =>
      rw [removeSecretsParams]
      cases k with
      | zero => rfl
      | succ k => simpa using ih (by simpa using hle) k

theorem SecretEq.entry {entries others : ApiEntries} {k : ℕ} {key otherKey : String}
    {value other : ApiValue} (heq : SecretEq api library (.model m) (.dict entries) (.dict others))
    (hentry : entries[k]? = some (key, value)) (hother : others[k]? = some (otherKey, other)) :
    value = other ∨ ∃ name field, (api m).modelFields.get? name = some field ∧
      field.key name = key ∧ SecretEq api library field.hint value other := by
  cases heq with
  | refl =>
    cases hentry.symm.trans hother
    exact Or.inl rfl
  | model hkeys hfields hrest =>
    have hsame := congrArg (·[k]?) hkeys
    simp only [getElem?_map, hentry, hother, map_some, some.injEq] at hsame
    subst hsame
    by_cases hread : ∃ name field, (api m).modelFields.get? name = some field ∧
        field.key name = key
    · obtain ⟨name, field, hget, hkey⟩ := hread
      exact Or.inr ⟨name, field, hget, hkey, hfields k key value other name field hentry hother
        hget hkey⟩
    · exact Or.inl (hrest k key value other hentry hother fun name field hget hkey =>
        hread ⟨name, field, hget, hkey⟩)

theorem removeSecretsParams_eq (hle : args.length ≤ (api m).modelFields.size)
    (hhidden : ¬ ShownAmong api m args.length)
    (hsecret : ArgsSecretEq api library m args others) :
    removeSecretsParams api ((api m).modelFields.entries.map Prod.snd) args =
      removeSecretsParams api ((api m).modelFields.entries.map Prod.snd) others := by
  apply ext_getElem?
  intro k
  have hlength := hsecret.length
  have hfields : args.length ≤ ((api m).modelFields.entries.map Prod.snd).length := by
    rw [length_map]
    exact hle
  rw [getElem?_removeSecretsParams hfields, getElem?_removeSecretsParams (hlength ▸ hfields)]
  cases hentry : (api m).modelFields.entries[k]? with
  | none => simp [hentry]
  | some entry =>
    rcases entry with ⟨key, walk⟩
    simp only [getElem?_map, hentry, map_some, some.injEq]
    by_cases hk : k < args.length
    · have harg := getElem?_eq_getElem hk
      have hother := getElem?_eq_getElem (l := others) (i := k) (by omega)
      have hname : (api m).modelFields.keys[k]? = some key := by
        rw [Dict.keys, getElem?_map, hentry]
        rfl
      rw [harg, hother, getD_some, getD_some]
      rcases hsecret.data.entry (getElem?_zip_eq_some.mpr ⟨hname, harg⟩)
        (getElem?_zip_eq_some.mpr ⟨hname, hother⟩) with hsame | ⟨name, field, hget, hkey, heq⟩
      · rw [hsame]
      · apply removeSecrets_eq_of_not_shown heq
        intro hshown
        refine hhidden ⟨key, ?_, walk, name, field, ?_, hget, hkey, hshown⟩
        · apply mem_of_getElem? (i := k)
          rw [getElem?_take_of_lt hk]
          exact hname
        · exact Dict.mem_entries_iff.mp (mem_of_getElem? hentry)
    · rw [getElem?_eq_none (by omega), getElem?_eq_none (by omega)]

def rejectAll : Construct M := fun _ _ => .error []

theorem rejectAll_sound (entries : ApiEntries) : rejectAll.Sound api library m entries := by
  intro fields hfields
  cases hfields

theorem rejectAll_invalid : ¬ ValidArgs api rejectAll m args := by
  rintro ⟨_, fields, hfields⟩
  cases hfields

/-- No arguments at all but one, which is the value of the field with that key. -/
def argsAt (n k : ℕ) (value : ApiValue) : List ApiValue := (replicate n .none).set k value

theorem map_fst_zip_of_length_eq {α β : Type} {keys : List α} {first second : List β}
    (hlength : first.length = second.length) :
    (keys.zip first).map Prod.fst = (keys.zip second).map Prod.fst := by
  induction keys generalizing first second with
  | nil => rfl
  | cons key keys ih =>
    cases first with
    | nil => rw [eq_nil_of_length_eq_zero hlength.symm]
    | cons a first =>
      cases second with
      | nil => cases hlength
      | cons b second =>
        simp only [length_cons, Nat.add_right_cancel_iff] at hlength
        simp [ih hlength]

theorem argsSecretEq_argsAt (hkeys : DistinctKeys api) {n k : ℕ} {name key : String}
    {field : FieldInfo M} {value other : ApiValue} (hle : n ≤ (api m).modelFields.size)
    (hk : (api m).modelFields.keys[k]? = some key)
    (hget : (api m).modelFields.get? name = some field) (hkey : field.key name = key)
    (heq : SecretEq api library field.hint value other) :
    ArgsSecretEq api library m (argsAt n k value) (argsAt n k other) := by
  have hsize : (api m).modelFields.keys.length = (api m).modelFields.size := length_map _
  have hlength : ∀ value, (argsAt n k value).length = n := by simp [argsAt]
  refine ⟨by rw [hlength, hlength], ?_, ?_⟩
  · refine secretEq_of_key hkeys hget ?_ ?_
    · exact map_fst_zip_of_length_eq (by rw [hlength, hlength])
    · intro j readKey first second hfirst hsecond
      rw [getElem?_zip_eq_some] at hfirst hsecond
      by_cases hj : j = k
      · subst hj
        have hlt : j < n := by
          have hbound := (List.getElem?_eq_some_iff.mp hfirst.2).1
          simpa [argsAt] using hbound
        have hvalue : (argsAt n j value)[j]? = some value := by simp [argsAt, hlt]
        have hother : (argsAt n j other)[j]? = some other := by simp [argsAt, hlt]
        cases hk.symm.trans hfirst.1
        cases hvalue.symm.trans hfirst.2
        cases hother.symm.trans hsecond.2
        exact Or.inr ⟨hkey.symm, heq⟩
      · left
        have hvalue : (argsAt n k value)[j]? = (argsAt n k other)[j]? := by
          rw [argsAt, argsAt, getElem?_set_ne (Ne.symm hj), getElem?_set_ne (Ne.symm hj)]
        rw [hfirst.2, hsecond.2] at hvalue
        exact some.inj hvalue
  · rw [drop_eq_nil_of_le (by rw [hlength]; exact hle),
      drop_eq_nil_of_le (by rw [hlength]; exact hle)]

end

/-! ## Invalid parameters -/

private theorem secretEq_model {M : Type} {api : M → ModelInfo M}
    {library : Validation M} {m : M} {entries others : ApiEntries}
    (halias : ∀ name field, (api m).modelFields.get? name = some field → field.key name = name)
    (hall : List.Forall₂ (fun entry other => entry.1 = other.1 ∧
      ∃ field, (api m).modelFields.get? entry.1 = some field ∧
        SecretEq api library field.hint entry.2 other.2)
      entries others) :
    SecretEq api library (.model m) (.dict entries) (.dict others) := by
  have hkeys : entries.map Prod.fst = others.map Prod.fst := by
    induction hall with
    | nil => rfl
    | cons hhead _ ih => rw [map_cons, map_cons, hhead.1, ih]
  have hget : ∀ (k : ℕ) key value other, entries[k]? = some (key, value) →
      others[k]? = some (key, other) → ∃ field, (api m).modelFields.get? key = some field ∧
          SecretEq api library field.hint value other := by
    intro k key value other hentry hother
    have hzip : ((key, value), (key, other)) ∈ entries.zip others := by
      apply mem_of_getElem? (i := k)
      rw [getElem?_zip_eq_some]
      exact ⟨hentry, hother⟩
    exact ((forall₂_iff_zip.mp hall).2 hzip).2
  apply SecretEq.model hkeys
  · intro k key value other name field hentry hother hfield hkey
    obtain ⟨found, hfound, heq⟩ := hget k key value other hentry hother
    rw [← hkey, halias name field hfield] at hfound
    cases hfound.symm.trans hfield
    exact heq
  · intro k key value other hentry hother hnone
    obtain ⟨found, hfound, _⟩ := hget k key value other hentry hother
    exact absurd (halias key found hfound) (hnone key found hfound)

private inductive UserModel where
  | createArgs
  | create
  | setupArgs
  | setup

/-- `create` takes a user, `setup` an optional one. -/
private def userApi : UserModel → ModelInfo UserModel
  | .createArgs => .plain [("data", .plain (.model .create) .required)]
  | .create =>
    .plain [("username", .plain (.other "str") .required),
      ("password", .plain (.secret (.other "str")) .required)]
  | .setupArgs =>
    .plain [("user", .plain (.typingUnion [.model .setup, .none]) .required),
      ("count", .plain (.other "int") .required)]
  | .setup =>
    .plain [("password", .plain (.secret (.other "str")) .required)]

private theorem user_key {m : UserModel} {name : String} {field : FieldInfo UserModel}
    (hfield : (userApi m).modelFields.get? name = some field) :
    field.key name = name := by
  have hentry := Dict.mem_entries_iff.mpr hfield
  cases m with
  | createArgs | setup =>
    cases mem_singleton.mp hentry
    rfl
  | create | setupArgs =>
    rcases mem_cons.mp hentry with hentry | hentry
    · cases hentry
      rfl
    · cases mem_singleton.mp hentry
      rfl

private def userLibrary : Validation UserModel where
  member _ value :=
    match value with
    | .dict _ => some (.model .setup)
    | .undefined | .scalar _ | .list _ => none
  leaf _ value := some value

private def rejectUser : Construct UserModel := fun m _ =>
  match m with
  | .createArgs =>
    .error [⟨["data", "username"], "Input should be a valid string", none⟩]
  | .setupArgs => .error [⟨["count"], "Input should be a valid integer", none⟩]
  | .create | .setup => .error []

private theorem rejectUser_error (m : UserModel) (entries : ApiEntries) :
    ∃ errors, rejectUser m entries = .error errors := by
  cases m <;> exact ⟨_, rfl⟩

private theorem rejectUser_sound (m : UserModel) (entries : ApiEntries) :
    rejectUser.Sound userApi userLibrary m entries := by
  intro fields hfields
  obtain ⟨errors, herror⟩ := rejectUser_error m entries
  cases herror.symm.trans hfields

private theorem rejectUser_invalid (m : UserModel) (args : List ApiValue) :
    ¬ ValidArgs userApi rejectUser m args := by
  rintro ⟨_, fields, hfields⟩
  obtain ⟨errors, herror⟩ := rejectUser_error m _
  cases herror.symm.trans hfields

private def createArgs (password : String) : List ApiValue :=
  [.dict [("username", .scalar (.int 1)), ("password", .str password)]]

private theorem createArgs_secretEq (password other : String) :
    ArgsSecretEq userApi userLibrary .createArgs (createArgs password) (createArgs other) := by
  constructor
  · rfl
  · apply secretEq_model fun name field => user_key
    refine .cons ⟨rfl, _, rfl, ?_⟩ .nil
    apply secretEq_model fun name field => user_key
    refine .cons ⟨rfl, _, rfl, .refl _ _⟩ (.cons ⟨rfl, _, rfl, ?_⟩ .nil)
    exact .secret _ _ _
  · rfl

private theorem user_distinctKeys : DistinctKeys userApi := by
  intro m name other field otherField hget hother hkey
  rwa [user_key hget, user_key hother] at hkey

private theorem create_not_shownAmong : ¬ ShownAmong userApi .createArgs 1 := by
  have hfield : ∀ {name field}, (userApi .create).modelFields.get? name = some field →
      (name = "username" ∧ field.hint = .other "str") ∨
        (name = "password" ∧ field.hint = .secret (.other "str")) := by
    intro name field hget
    rcases mem_cons.mp (Dict.mem_entries_iff.mpr hget) with hentry | hentry
    · cases hentry
      exact Or.inl ⟨rfl, rfl⟩
    · cases mem_singleton.mp hentry
      exact Or.inr ⟨rfl, rfl⟩
  rintro ⟨key, _, walk, name, field, hwalk, hget, _, hshown⟩
  cases mem_singleton.mp (Dict.mem_entries_iff.mpr hwalk)
  cases mem_singleton.mp (Dict.mem_entries_iff.mpr hget)
  cases hshown with
  | @model _ next _ name field _ hread hnext hshown =>
    rw [user_key hread] at hnext
    change ((userApi .create).modelFields.get? name).map FieldInfo.hint = some next at hnext
    rw [hread, map_some, some.injEq] at hnext
    subst hnext
    rcases hfield hread with ⟨_, hhint⟩ | ⟨_, hhint⟩
    · rw [hhint] at hshown
      cases hshown
    · rw [hhint] at hshown
      cases hshown with
      | secret hwalk => cases hwalk

private def setupArgs (password : String) : List ApiValue :=
  [.dict [("password", .str password)], .str "many"]

private theorem setupArgs_secretEq (password other : String) :
    ArgsSecretEq userApi userLibrary .setupArgs (setupArgs password) (setupArgs other) := by
  have huser : SecretEq userApi userLibrary (.typingUnion [.model .setup, .none])
      (.dict [("password", .str password)]) (.dict [("password", .str other)]) := by
    apply SecretEq.typingUnion mem_cons_self
    · intro chosen hchosen
      cases hchosen
      rfl
    · intro chosen hchosen
      cases hchosen
      rfl
    · apply secretEq_model fun name field => user_key
      exact .cons ⟨rfl, _, rfl, .secret _ _ _⟩ .nil
  constructor
  · rfl
  · apply secretEq_model fun name field => user_key
    exact .cons ⟨rfl, _, rfl, huser⟩ (.cons ⟨rfl, _, rfl, .refl _ _⟩ .nil)
  · rfl

end Middlewared
