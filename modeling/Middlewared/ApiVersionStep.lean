import Middlewared.ApiVersion
import Middlewared.ExceptRules

/-!
# Steps and chains of the adaptation

What it takes for one step of the adaptation to return, and how the steps of
a chain of versions follow each other.
-/

namespace Middlewared

open List Option

variable {M : Type}

section

variable {api : M → ModelInfo M} {direction : Direction} {current new : M}

def adaptNested (api : M → ModelInfo M) (direction : Direction)
    (current new : M) (key : String) (value : ApiValue) :
    Except ApiError ApiValue :=
  match nestedStep api current new key value with
  | .keep => .ok value
  | .model nestedCurrent nestedNew =>
    adaptValue api direction value nestedCurrent nestedNew
  | .list nestedCurrent nestedNew =>
    adaptList api direction value nestedCurrent nestedNew

theorem adaptEntries_eq_ok_iff {entries results : ApiEntries} :
    adaptEntries api direction entries current new = .ok results ↔
      List.Forall₂ (fun entry result => result.1 = entry.1 ∧
        adaptNested api direction current new entry.1 entry.2 = .ok result.2)
        entries results := by
  induction entries generalizing results with
  | nil => simp [adaptEntries, eq_comm]
  | cons entry rest ih =>
    rcases entry with ⟨key, value⟩
    rw [adaptEntries]
    simp only [bind_eq_ok_iff, forall₂_cons_left_iff, ← ih]
    constructor
    · rintro ⟨adapted, hadapted, later, hlater, hresults⟩
      cases hresults
      exact ⟨(key, adapted), later, ⟨rfl, hadapted⟩, hlater, rfl⟩
    · rintro ⟨⟨other, adapted⟩, later, ⟨hkey, hadapted⟩, hlater, hresults⟩
      subst hkey hresults
      exact ⟨adapted, hadapted, later, hlater, rfl⟩

theorem adaptItems_eq_ok_iff {items results : List ApiValue} :
    adaptItems api direction items current new = .ok results ↔ List.Forall₂ (fun item result =>
        adaptValue api direction item current new = .ok result)
        items results := by
  induction items generalizing results with
  | nil => simp [adaptItems, eq_comm]
  | cons item rest ih =>
    rw [adaptItems]
    simp only [bind_eq_ok_iff, forall₂_cons_left_iff, ← ih]
    constructor
    · rintro ⟨adapted, hadapted, later, hlater, hresults⟩
      cases hresults
      exact ⟨adapted, later, hadapted, hlater, rfl⟩
    · rintro ⟨adapted, later, hadapted, hlater, hresults⟩
      subst hresults
      exact ⟨adapted, hadapted, later, hlater, rfl⟩

theorem adaptList_eq_ok_iff {items : List ApiValue} {result : ApiValue} :
    adaptList api direction (.list items) current new = .ok result ↔
      ∃ results, result = .list results ∧ List.Forall₂ (fun item result =>
          adaptValue api direction item current new = .ok result)
          items results := by
  rw [adaptList, bind_eq_ok_iff]
  simp only [adaptItems_eq_ok_iff]
  constructor
  · rintro ⟨results, hresults, hresult⟩
    cases hresult
    exact ⟨results, rfl, hresults⟩
  · rintro ⟨results, rfl, hresults⟩
    exact ⟨results, hresults, rfl⟩

theorem adaptValue_eq_ok_iff {value result : ApiValue} :
    adaptValue api direction value current new = .ok result ↔
      ∃ entries adapted, value = .dict entries ∧
        adaptEntries api direction entries current new = .ok adapted ∧
        finishValue api direction current new adapted = .ok result := by
  cases value with
  | dict entries =>
    rw [adaptValue, bind_eq_ok_iff]
    simp
  | undefined | scalar _ | list _ => simp [adaptValue]

end

section

variable {α β : Type} {r : α → β → Prop} {items : List α} {results : List β}

theorem forall₂_with_mem (hall : List.Forall₂ r items results) :
    List.Forall₂ (fun a b => a ∈ items ∧ r a b) items results :=
  (forall₂_and_left items results).mpr ⟨fun _ hmem => hmem, hall⟩

theorem exists_mem_of_forall₂ (hall : List.Forall₂ r items results) {b : β}
    (hb : b ∈ results) : ∃ a ∈ items, r a b := by
  induction hall with
  | nil => simp at hb
  | cons hhead _ ih =>
    rcases List.mem_cons.mp hb with rfl | hb
    · exact ⟨_, mem_cons_self, hhead⟩
    · obtain ⟨a, ha, hr⟩ := ih hb
      exact ⟨a, mem_cons_of_mem _ ha, hr⟩

end

section

variable (api : M → ModelInfo M)

def HasDefaults (m : M) : ApiValue → Prop
  | .dict entries =>
    (api m).forUpdate = false → ∀ name field, (api m).modelFields.get? name = some field →
      field.isRequired = false → field.getDefault.isUndefined = false → (entries.lookup name).isSome
  | .undefined | .scalar _ | .list _ => False

variable {api} {new : M}

variable {entries : ApiEntries}

theorem mem_missingDefaults_iff {name : String} {value : ApiValue} :
    (name, value) ∈ missingDefaults api new entries ↔
      (api new).forUpdate = false ∧ entries.lookup name = none ∧
        ∃ field, (api new).modelFields.get? name = some field ∧
          field.isRequired = false ∧ value = field.getDefault := by
  unfold missingDefaults
  cases hupdate : (api new).forUpdate with
  | true => simp
  | false =>
    simp only [Bool.false_eq_true, if_false, mem_filterMap,
      true_and, ite_none_right_eq_some, some.injEq]
    constructor
    · rintro ⟨⟨other, field⟩, hfield, hmissing, hsame⟩
      simp only [Bool.and_eq_true, isNone_iff_eq_none, Bool.not_eq_true'] at hmissing
      cases hsame
      exact ⟨hmissing.1, field, Dict.mem_entries_iff.mp hfield, hmissing.2, rfl⟩
    · rintro ⟨hmissing, field, hfield, hrequired, rfl⟩
      exact ⟨(name, field), Dict.mem_entries_iff.mpr hfield, by simp [hmissing, hrequired], rfl⟩

theorem missingDefaults_undefined_iff :
    (∀ entry ∈ missingDefaults api new entries, entry.2.isUndefined = true) ↔
      HasDefaults api new (.dict entries) := by
  constructor
  · intro hall hupdate name field hfield hrequired hdefault
    by_contra hmissing
    have hmem : (name, field.getDefault) ∈ missingDefaults api new entries := by
      rw [mem_missingDefaults_iff]
      exact ⟨hupdate, not_isSome_iff_eq_none.mp hmissing, field, hfield, hrequired, rfl⟩
    have hundefined := hall _ hmem
    rw [hdefault] at hundefined
    cases hundefined
  · rintro hdefaults ⟨name, value⟩ hentry
    obtain ⟨hupdate, hmissing, field, hfield, hrequired, rfl⟩ := mem_missingDefaults_iff.mp hentry
    by_contra hdefined
    have hpresent := hdefaults hupdate name field hfield hrequired (by simpa using hdefined)
    simp [hmissing] at hpresent

theorem lookup_isSome_of_forall₂
    {r : String × ApiValue → String × ApiValue → Prop} {results : ApiEntries}
    (hall : List.Forall₂ (fun entry result => result.1 = entry.1 ∧
      r entry result) entries results) (name : String) :
    (results.lookup name).isSome = (entries.lookup name).isSome := by
  have hkeys : results.map Prod.fst = entries.map Prod.fst := by
    induction hall with
    | nil => rfl
    | cons hhead _ ih => rw [map_cons, map_cons, hhead.1, ih]
  rw [Bool.eq_iff_iff, Dict.lookup_isSome_iff, Dict.lookup_isSome_iff, hkeys]

theorem hasDefaults_of_forall₂
    {r : String × ApiValue → String × ApiValue → Prop} {results : ApiEntries}
    {m : M}
    (hall : List.Forall₂ (fun entry result => result.1 = entry.1 ∧
      r entry result) entries results) :
    HasDefaults api m (.dict results) ↔ HasDefaults api m (.dict entries) := by
  simp only [HasDefaults, lookup_isSome_of_forall₂ hall]

end

/-! ## Chains of versions -/

section

variable {api : M → ModelInfo M}

/-- Every version of the path has the model, `r` relates it to the one before
it, and the last one is `target`. -/
def ModelPath (r : M → M → Prop) (modelName : String) (target : M) :
    M → List (ApiVersion M) → Prop
  | m, [] => m = target
  | m, version :: rest =>
    ∃ next, version.models.get? modelName = some next ∧ r m next ∧
      ModelPath r modelName target next rest

section

variable {direction : Direction} {modelName : String} {r : M → M → Prop}
  {target : M}

theorem adaptAlong_error {e : ApiError} {current : ApiVersion M} {m : M}
    {path : List (ApiVersion M)}
    (hcurrent : current.models.get? modelName = some m)
    (hpath : ModelPath r modelName target m path) :
    adaptAlong api direction modelName (.error e) current path = .error e := by
  induction path generalizing current m with
  | nil => rfl
  | cons new rest ih =>
    obtain ⟨next, hnew, _, hrest⟩ := hpath
    have hstep : adaptModelStep api direction modelName (.error e) current new = .error e := by
      simp [adaptModelStep, ApiVersion.model, hcurrent, hnew]
    rw [adaptAlong, hstep]
    exact ih hnew hrest

theorem adaptAlong_cons_eq_ok_iff {value result : ApiValue}
    {current new : ApiVersion M} {m next : M} {rest : List (ApiVersion M)}
    (hcurrent : current.models.get? modelName = some m)
    (hnew : new.models.get? modelName = some next)
    (hrest : ModelPath r modelName target next rest) :
    adaptAlong api direction modelName (.ok value) current (new :: rest) = .ok result ↔
      ∃ adapted, adaptValue api direction value m next = .ok adapted ∧
        adaptAlong api direction modelName (.ok adapted) new rest = .ok result := by
  have hstep : adaptModelStep api direction modelName (.ok value) current new =
      adaptValue api direction value m next := by
    simp [adaptModelStep, ApiVersion.model, hcurrent, hnew]
  rw [adaptAlong, hstep]
  cases hadapt : adaptValue api direction value m next with
  | error e => simp [adaptAlong_error hnew hrest]
  | ok adapted => simp

end

namespace ApiVersionsAdapter

variable {adapter : ApiVersionsAdapter M}

/-- Both versions exist, and from the first one to the second one the models
of the name follow each other as `r` says, from `m` to `target`. -/
def Route (adapter : ApiVersionsAdapter M) (r : M → M → Prop)
    (modelName version1 version2 : String) (m target : M) : Prop :=
  ∃ first last current, adapter.index version1 = .ok first ∧ adapter.index version2 = .ok last ∧
    adapter.versions.get? version1 = some current ∧
    current.models.get? modelName = some m ∧
    ModelPath r modelName target m (adapter.versionsBetween first last).2

variable {version : String} {position : ℕ}

theorem index_eq_ok_iff : adapter.index version = .ok position ↔
    adapter.versions.keys.idxOf? version = some position := by
  unfold index
  cases adapter.versions.keys.idxOf? version <;> simp

theorem keys_getElem?_of_index (hindex : adapter.index version = .ok position) :
    adapter.versions.keys[position]? = some version := by
  rw [index_eq_ok_iff, idxOf?_eq_some_iff] at hindex
  obtain ⟨hlt, hget, _⟩ := hindex
  rw [getElem?_eq_getElem hlt, hget]

theorem index_lt (hindex : adapter.index version = .ok position) :
    position < adapter.versions.entries.length := by
  have hget := keys_getElem?_of_index hindex
  have hlt := (List.getElem?_eq_some_iff.mp hget).1
  simpa [Dict.keys] using hlt

variable {first last : ℕ}

theorem versionsBetween_eq_nil_iff (hfirst : first < adapter.versions.entries.length)
    (hlast : last < adapter.versions.entries.length) :
    (adapter.versionsBetween first last).2 = [] ↔ first = last := by
  unfold versionsBetween
  by_cases hlt : first < last
  · simp [hlt]
    omega
  · simp [hlt]
    omega

theorem index_eq_iff {version1 version2 : String} (hfirst : adapter.index version1 = .ok first)
    (hlast : adapter.index version2 = .ok last) :
    first = last ↔ version1 = version2 := by
  constructor
  · rintro rfl
    have hsame := (keys_getElem?_of_index hfirst).symm.trans (keys_getElem?_of_index hlast)
    exact some.inj hsame
  · rintro rfl
    exact Except.ok.inj (hfirst.symm.trans hlast)

variable {construct : Construct M}

theorem adapt_eq_adaptAlong {value : ApiEntries}
    {modelName version1 version2 : String} {current : ApiVersion M} {m : M}
    (hfirst : adapter.index version1 = .ok first)
    (hlast : adapter.index version2 = .ok last)
    (hcurrent : adapter.versions.get? version1 = some current)
    (hmodel : current.models.get? modelName = some m) :
    adapter.adapt api construct value modelName version1 version2 =
      adaptAlong api (adapter.versionsBetween first last).1 modelName
        ((validateModel api construct m value false true).map .dict) current
        (adapter.versionsBetween first last).2 := by
  simp only [adapt, adaptModel, hfirst, hlast, hcurrent, ApiVersion.model, hmodel, ok_bind]
  generalize adaptAlong api _ _ _ _ _ = adapted
  cases adapted <;> rfl

end ApiVersionsAdapter

end

end Middlewared
