import Mathlib.Tactic
import Middlewared.ApiVersionStep
import Middlewared.ApiWalk

/-!
# Adaptation between identical models

Where two versions have the same model, adapting a value can only add to it:
the nested values are walked through with the first model of each union, and
every dictionary on the way is filled up with the defaults of that model.
-/

namespace Middlewared

open List

variable {M : Type}

/-! ## Identical models -/

section

variable (same : M → M → Prop)

mutual

def SameHint : TypeHint M → TypeHint M → Prop
  | .model current, .model new => same current new
  | .unionType members, .unionType others => SameHints members others
  | .typingUnion members, .typingUnion others =>
    SameHints members others
  | .list item, .list other => SameHint item other
  | .secret inner, .secret other => SameHint inner other
  | .annotated inner, .annotated other => SameHint inner other
  | .none, .none => True
  | .other name, .other otherName => name = otherName
  | .model _, _ | .unionType _, _ | .typingUnion _, _ | .list _, _
  | .secret _, _ | .annotated _, _ | .none, _ | .other _, _ => False

def SameHints : List (TypeHint M) → List (TypeHint M) → Prop
  | [], [] => True
  | member :: rest, other :: others =>
    SameHint member other ∧ SameHints rest others
  | [], _ :: _ | _ :: _, [] => False

end

structure SameField (field other : FieldInfo M) : Prop where
  hint : SameHint same field.hint other.hint
  required : field.isRequired = other.isRequired
  default : field.getDefault = other.getDefault

/-- The models that `same` relates have the same metaclass and the same
fields, with the same nested models and defaults, and no conversions. -/
structure Identical (api : M → ModelInfo M) : Prop where
  forUpdate : ∀ current new, same current new → (api current).forUpdate = (api new).forUpdate
  fields : ∀ current new, same current new → ∀ name,
    Option.Rel (SameField same) ((api current).modelFields.get? name)
      ((api new).modelFields.get? name)
  unconverted : ∀ current new, same current new →
    (api current).toPrevious = none ∧ (api new).fromPrevious = none

variable {same}

mutual

theorem SameHint.refl (hrefl : ∀ m, same m m) : ∀ hint : TypeHint M, SameHint same hint hint
  | .model m => hrefl m
  | .unionType members => SameHints.refl hrefl members
  | .typingUnion members => SameHints.refl hrefl members
  | .list item => SameHint.refl hrefl item
  | .secret inner => SameHint.refl hrefl inner
  | .annotated inner => SameHint.refl hrefl inner
  | .none => trivial
  | .other _ => rfl

theorem SameHints.refl (hrefl : ∀ m, same m m) :
    ∀ members : List (TypeHint M), SameHints same members members
  | [] => trivial
  | member :: rest =>
    ⟨SameHint.refl hrefl member, SameHints.refl hrefl rest⟩

end

theorem identical_eq {api : M → ModelInfo M} (hto : ∀ m, (api m).toPrevious = none)
    (hfrom : ∀ m, (api m).fromPrevious = none) : Identical (· = ·) api := by
  constructor
  · rintro current _ rfl
    rfl
  · rintro current _ rfl name
    cases (api current).modelFields.get? name with
    | none => exact .none
    | some field => exact .some ⟨.refl (fun _ => rfl) _, rfl, rfl⟩
  · rintro current _ rfl
    exact ⟨hto current, hfrom current⟩

theorem rel_or {α β : Type} {r : α → β → Prop} {first second : Option α}
    {other another : Option β} (hfirst : Option.Rel r first other)
    (hsecond : Option.Rel r second another) :
    Option.Rel r (first.or second) (other.or another) := by
  cases hfirst with
  | some hrel => exact .some hrel
  | none => exact hsecond

theorem rel_bind {α β γ δ : Type} {r : α → β → Prop} {q : γ → δ → Prop}
    {first : Option α} {second : Option β} {f : α → Option γ}
    {g : β → Option δ} (hrel : Option.Rel r first second)
    (hstep : ∀ a b, r a b → Option.Rel q (f a) (g b)) :
    Option.Rel q (first.bind f) (second.bind g) := by
  cases hrel with
  | some hab => exact hstep _ _ hab
  | none => exact .none

mutual

theorem SameHint.modelFieldIsModel {hint other : TypeHint M} (hsame : SameHint same hint other) :
    Option.Rel same (modelFieldIsModel hint) (modelFieldIsModel other) := by
  cases hint with
  | model m =>
    cases other <;> simp only [SameHint] at hsame
    exact .some hsame
  | unionType members =>
    cases other <;> simp only [SameHint] at hsame
    exact SameHints.firstModel hsame
  | typingUnion _ | list _ | secret _ | annotated _ | none | other _ =>
    cases other <;> simp only [SameHint] at hsame
    exact .none

theorem SameHints.firstModel {members others : List (TypeHint M)}
    (hsame : SameHints same members others) :
    Option.Rel same (firstModel members) (firstModel others) := by
  cases members with
  | nil =>
    cases others with
    | nil => exact .none
    | cons _ _ => exact hsame.elim
  | cons member rest =>
    cases others with
    | nil => exact hsame.elim
    | cons other others =>
      exact rel_or (SameHint.modelFieldIsModel hsame.1) (SameHints.firstModel hsame.2)

end

mutual

theorem SameHint.modelFieldIsListOfModels {hint other : TypeHint M}
    (hsame : SameHint same hint other) :
    Option.Rel (SameHint same) (modelFieldIsListOfModels hint)
      (modelFieldIsListOfModels other) := by
  cases hint with
  | list item =>
    cases other <;> simp only [SameHint] at hsame
    rename_i otherItem
    cases item <;> cases otherItem <;> simp only [SameHint] at hsame
    case none.none => exact .none
    all_goals exact .some hsame
  | unionType members =>
    cases other <;> simp only [SameHint] at hsame
    exact SameHints.firstListOfModels hsame
  | typingUnion _ | model _ | secret _ | annotated _ | none | other _ =>
    cases other <;> simp only [SameHint] at hsame
    exact .none

theorem SameHints.firstListOfModels {members others : List (TypeHint M)}
    (hsame : SameHints same members others) :
    Option.Rel (SameHint same) (firstListOfModels members) (firstListOfModels others) := by
  cases members with
  | nil =>
    cases others with
    | nil => exact .none
    | cons _ _ => exact hsame.elim
  | cons member rest =>
    cases others with
    | nil => exact hsame.elim
    | cons other others =>
      exact rel_or (SameHint.modelFieldIsListOfModels hsame.1) (SameHints.firstListOfModels hsame.2)

end

theorem SameHint.itemModel {hint other : TypeHint M} (hsame : SameHint same hint other) :
    Option.Rel same ((Middlewared.modelFieldIsListOfModels hint).bind Middlewared.modelFieldIsModel)
      ((Middlewared.modelFieldIsListOfModels other).bind Middlewared.modelFieldIsModel) :=
  rel_bind hsame.modelFieldIsListOfModels fun _ _ hitem =>
    hitem.modelFieldIsModel

end

/-! ## The walk of the adaptation -/

section

variable (api : M → ModelInfo M)

def adaptVisit (m : M) (key : String) (value : ApiValue) : Visit M :=
  match nestedStep api m m key value with
  | .keep => .stop
  | .model nested _ => .value nested
  | .list nested _ => .items nested

variable {api} {same : M → M → Prop}

inductive NestedSame (api : M → ModelInfo M) (same : M → M → Prop)
    (current new : M) (key : String) : ApiValue → Prop where
  | keep (value : ApiValue) (hstep : nestedStep api current new key value = .keep)
      (hcurrent : adaptVisit api current key value = .stop)
      (hnew : adaptVisit api new key value = .stop) :
      NestedSame api same current new key value
  | model (entries : ApiEntries) (nestedCurrent nestedNew : M)
      (hsame : same nestedCurrent nestedNew)
      (hstep : nestedStep api current new key (.dict entries) = .model nestedCurrent nestedNew)
      (hcurrent : adaptVisit api current key (.dict entries) = .value nestedCurrent)
      (hnew : ∀ others, adaptVisit api new key (.dict others) = .value nestedNew) :
      NestedSame api same current new key (.dict entries)
  | list (items : List ApiValue) (nestedCurrent nestedNew : M)
      (hsame : same nestedCurrent nestedNew)
      (hstep : nestedStep api current new key (.list items) = .list nestedCurrent nestedNew)
      (hcurrent : adaptVisit api current key (.list items) = .items nestedCurrent)
      (hnew : ∀ others, adaptVisit api new key (.list others) = .items nestedNew) :
      NestedSame api same current new key (.list items)

theorem nestedModels_self (m : Option M) : nestedModels api m m = m.map fun m => (m, m) := by
  cases m with
  | none => rfl
  | some m => simp [nestedModels, sameMetaclass]

theorem nestedModels_same (hidentical : Identical same api)
    {current new : Option M} (hsame : Option.Rel same current new) :
    (current = none ∧ new = none) ∨ ∃ nestedCurrent nestedNew, same nestedCurrent nestedNew ∧
        current = some nestedCurrent ∧ new = some nestedNew ∧
        nestedModels api current new = some (nestedCurrent, nestedNew) := by
  cases hsame with
  | none => exact .inl ⟨rfl, rfl⟩
  | @some nestedCurrent nestedNew hrel =>
    refine .inr ⟨nestedCurrent, nestedNew, hrel, rfl, rfl, ?_⟩
    simp [nestedModels, sameMetaclass, hidentical.forUpdate _ _ hrel]

theorem nestedStep_same (hidentical : Identical same api) {current new : M}
    (hsame : same current new) (key : String) (value : ApiValue) :
    NestedSame api same current new key value := by
  have hfields := hidentical.fields current new hsame key
  cases hcurrent : (api current).modelFields.get? key with
  | none =>
    cases hnew : (api new).modelFields.get? key with
    | none =>
      apply NestedSame.keep <;> simp [nestedStep, adaptVisit, hcurrent, hnew]
    | some _ => rw [hcurrent, hnew] at hfields; cases hfields
  | some currentField =>
    cases hnew : (api new).modelFields.get? key with
    | none => rw [hcurrent, hnew] at hfields; cases hfields
    | some newField =>
      rw [hcurrent, hnew] at hfields
      cases hfields with
      | some hfield => 
      cases value with
      | undefined | scalar _ =>
        apply NestedSame.keep <;> simp [nestedStep, adaptVisit, hcurrent, hnew]
      | dict entries =>
        rcases nestedModels_same hidentical hfield.hint.modelFieldIsModel with
          ⟨hnone, hnone'⟩ | ⟨nestedCurrent, nestedNew, hrel, hc, hn, hboth⟩
        · apply NestedSame.keep <;> simp [nestedStep, adaptVisit, hcurrent, hnew, hnone, hnone',
              nestedModels]
        · apply NestedSame.model entries nestedCurrent nestedNew hrel
          · simp [nestedStep, hcurrent, hnew, hboth]
          · simp [nestedStep, adaptVisit, hcurrent, nestedModels_self, hc]
          · simp [nestedStep, adaptVisit, hnew, nestedModels_self, hn]
      | list items =>
        rcases nestedModels_same hidentical hfield.hint.itemModel with
          ⟨hnone, hnone'⟩ | ⟨nestedCurrent, nestedNew, hrel, hc, hn, hboth⟩
        · apply NestedSame.keep <;> simp [nestedStep, adaptVisit, nestedItemModels, hcurrent,
              hnew, hnone, hnone', nestedModels]
        · apply NestedSame.list items nestedCurrent nestedNew hrel
          · simp [nestedStep, nestedItemModels, hcurrent, hnew, hboth]
          · simp [nestedStep, adaptVisit, nestedItemModels, hcurrent, nestedModels_self, hc]
          · simp [nestedStep, adaptVisit, nestedItemModels, hnew, nestedModels_self, hn]

theorem everywhere_same_iff (hidentical : Identical same api) {p : M → ApiValue → Prop}
    (hp : ∀ current new value, same current new → (p current value ↔ p new value))
    {current new : M} (hsame : same current new) (value : ApiValue) :
    Everywhere (adaptVisit api) p value current ↔ Everywhere (adaptVisit api) p value new := by
  induction value using ApiValue.walkInduction generalizing current new with
  | leaf value hleaf =>
    cases value with
    | dict entries => exact absurd rfl (hleaf entries)
    | undefined => exact hp current new _ hsame
    | scalar _ => exact hp current new _ hsame
    | list _ => exact hp current new _ hsame
  | dict entries ihvalue ihitems =>
    rw [everywhere_dict_iff, everywhere_dict_iff]
    apply and_congr (hp current new _ hsame)
    apply forall₂_congr
    rintro ⟨key, value⟩ hentry
    have hvalue := @ihvalue (key, value) hentry
    have hitems := ihitems (key, value) hentry
    cases nestedStep_same hidentical hsame key value with
    | keep _ _ hcurrent hnew =>
      exact iff_of_true (.of_stop hcurrent) (.of_stop hnew)
    | model _ nestedCurrent nestedNew hrel _ hcurrent hnew =>
      constructor
      · intro hat
        exact .of_value (hnew _) ((hvalue hrel).mp (hat.value nestedCurrent hcurrent))
      · intro hat
        exact .of_value hcurrent ((hvalue hrel).mpr (hat.value nestedNew (hnew _)))
    | list items nestedCurrent nestedNew hrel _ hcurrent hnew =>
      constructor
      · intro hat
        refine .of_items (hnew _) ?_
        intro item hitem
        exact (hitems items rfl item hitem hrel).mp
          (hat.items nestedCurrent items hcurrent rfl item hitem)
      · intro hat
        refine .of_items hcurrent ?_
        intro item hitem
        exact (hitems items rfl item hitem hrel).mpr
          (hat.items nestedNew items (hnew _) rfl item hitem)

end

section

variable (api : M → ModelInfo M)

def AllDefined (_ : M) : ApiValue → Prop
  | .dict entries => ∀ entry ∈ entries, entry.2.isUndefined = false
  | .undefined | .scalar _ | .list _ => True

/-- Every value that the adaptation takes for a value of a model is a
dictionary that has the defaults of that model and nothing undefined. -/
def Filled (m : M) (value : ApiValue) : Prop :=
  Everywhere (adaptVisit api) (fun m value => HasDefaults api m value ∧ AllDefined m value) value m

variable {api} {direction : Direction} {same : M → M → Prop}
  {current new : M}

theorem mem_fields_iff_of_same (hidentical : Identical same api)
    (hsame : same current new) (name : String) :
    name ∈ (api current).modelFields ↔ name ∈ (api new).modelFields := by
  rw [← Dict.get?_isSome_iff, ← Dict.get?_isSome_iff]
  have hrel := hidentical.fields current new hsame name
  generalize (api current).modelFields.get? name = field at hrel ⊢
  generalize (api new).modelFields.get? name = other at hrel ⊢
  cases hrel with
  | some _ => simp
  | none => simp

theorem hasDefaults_same (hidentical : Identical same api)
    (hsame : same current new) (value : ApiValue) :
    HasDefaults api current value ↔ HasDefaults api new value := by
  cases value with
  | undefined | scalar _ | list _ => exact Iff.rfl
  | dict entries =>
    simp only [HasDefaults, hidentical.forUpdate current new hsame]
    apply imp_congr_right
    intro _
    apply forall_congr'
    intro name
    have hrel := hidentical.fields current new hsame name
    generalize (api current).modelFields.get? name = field at hrel ⊢
    generalize (api new).modelFields.get? name = other at hrel ⊢
    cases hrel with
    | none => simp
    | some hfield => simp [hfield.required, hfield.default]

theorem finishValue_same (hidentical : Identical same api)
    (hsame : same current new) (entries : ApiEntries) :
    finishValue api direction current new entries =
      .ok (.dict (dropUndefined (entries ++ missingDefaults api new entries))) := by
  have hconvert : convert api direction current new = .ok := by
    obtain ⟨hto, hfrom⟩ := hidentical.unconverted current new hsame
    cases direction <;> simp [convert, hto, hfrom]
  have hdrop : ∀ entries, dropRemoved api current new entries = entries := by
    simp [dropRemoved, mem_fields_iff_of_same hidentical hsame]
  simp [finishValue, hconvert, hdrop, pure, Except.pure]

end

section

mutual

def weight : ApiValue → ℕ
  | .undefined => 0
  | .scalar _ => 1
  | .list items => 1 + weightItems items
  | .dict entries => 1 + weightEntries entries

def weightItems : List ApiValue → ℕ
  | [] => 0
  | item :: rest => weight item + weightItems rest

def weightEntries : ApiEntries → ℕ
  | [] => 0
  | (_, value) :: rest => weight value + weightEntries rest

end

theorem weightItems_eq (items : List ApiValue) : weightItems items = (items.map weight).sum := by
  induction items with
  | nil => rfl
  | cons item rest ih => simp [weightItems, ih]

theorem weightEntries_eq (entries : ApiEntries) :
    weightEntries entries = (entries.map fun entry => weight entry.2).sum := by
  induction entries with
  | nil => rfl
  | cons entry rest ih => simp [weightEntries, ih]

theorem weight_eq_zero_iff (value : ApiValue) : weight value = 0 ↔ value.isUndefined = true := by
  cases value <;> simp [weight, ApiValue.isUndefined]

theorem weightEntries_append (entries others : ApiEntries) : weightEntries (entries ++ others) =
    weightEntries entries + weightEntries others := by
  simp [weightEntries_eq]

theorem weightEntries_dropUndefined (entries : ApiEntries) :
    weightEntries (dropUndefined entries) = weightEntries entries := by
  induction entries with
  | nil => rfl
  | cons entry rest ih =>
    rcases entry with ⟨key, value⟩
    simp only [dropUndefined] at ih ⊢
    cases hvalue : value.isUndefined with
    | true =>
      have hzero := (weight_eq_zero_iff value).mpr hvalue
      simp [hvalue, weightEntries, ih, hzero]
    | false => simp [hvalue, weightEntries, ih]

theorem weightEntries_eq_zero_iff {entries : ApiEntries} : weightEntries entries = 0 ↔
    ∀ entry ∈ entries, entry.2.isUndefined = true := by
  induction entries with
  | nil => simp [weightEntries]
  | cons entry rest ih =>
    rw [weightEntries, Nat.add_eq_zero_iff, weight_eq_zero_iff, ih, forall_mem_cons]

theorem sum_le_of_forall₂ {α β : Type} {f : α → ℕ} {g : β → ℕ} {p : α → Prop}
    {items : List α} {results : List β}
    (hall : List.Forall₂ (fun a b => f a ≤ g b ∧ (g b ≤ f a → p a)) items results) :
    (items.map f).sum ≤ (results.map g).sum ∧
      ((results.map g).sum ≤ (items.map f).sum → ∀ a ∈ items, p a) := by
  induction hall with
  | nil => simp
  | cons hhead _ ih =>
    simp only [map_cons, sum_cons, forall_mem_cons]
    constructor
    · omega
    · intro hle
      exact ⟨hhead.2 (by omega), ih.2 (by omega)⟩

end

/-! ## One step between identical models -/

section

variable {api : M → ModelInfo M} {direction : Direction}
  {same : M → M → Prop} {current new : M}

variable {value result : ApiValue}

theorem adaptValue_same_iff (hidentical : Identical same api) (hsame : same current new) :
    adaptValue api direction value current new = .ok result ↔
      ∃ entries adapted, value = .dict entries ∧
        List.Forall₂ (fun entry result => result.1 = entry.1 ∧
          adaptNested api direction current new entry.1 entry.2 = .ok result.2) entries adapted ∧
        result = .dict (dropUndefined (adapted ++ missingDefaults api new adapted)) := by
  rw [adaptValue_eq_ok_iff]
  simp only [adaptEntries_eq_ok_iff, finishValue_same hidentical hsame,
    Except.ok.injEq, @eq_comm _ result]

theorem adaptValue_weight (hidentical : Identical same api) (hsame : same current new)
    (hadapt : adaptValue api direction value current new = .ok result) :
    weight value ≤ weight result ∧ (weight result ≤ weight value →
        Everywhere (adaptVisit api) (HasDefaults api) value current) := by
  induction value using ApiValue.walkInduction generalizing current new result with
  | leaf value hleaf =>
    obtain ⟨entries, _, hvalue, _⟩ := adaptValue_eq_ok_iff.mp hadapt
    exact absurd hvalue (hleaf entries)
  | dict entries ihvalue ihitems =>
    obtain ⟨_, adapted, hentries, hall, rfl⟩ := (adaptValue_same_iff hidentical hsame).mp hadapt
    cases hentries
    have hgrow : List.Forall₂ (fun entry result =>
        weight entry.2 ≤ weight result.2 ∧ (weight result.2 ≤ weight entry.2 →
            EverywhereAt (adaptVisit api) (HasDefaults api) current entry.1
              entry.2)) entries adapted := by
      apply (forall₂_with_mem hall).imp
      rintro ⟨key, value⟩ ⟨_, result⟩ ⟨hentry, _, hnested⟩
      have hvalue := @ihvalue (key, value) hentry
      have hitems := ihitems (key, value) hentry
      simp only [adaptNested] at hnested
      cases nestedStep_same hidentical hsame key value with
      | keep _ hstep hcurrent _ =>
        rw [hstep] at hnested
        cases hnested
        exact ⟨Nat.le_refl _, fun _ => .of_stop hcurrent⟩
      | model _ nestedCurrent nestedNew hrel hstep hcurrent _ =>
        rw [hstep] at hnested
        obtain ⟨hle, hkept⟩ := hvalue hrel hnested
        exact ⟨hle, fun hge => .of_value hcurrent (hkept hge)⟩
      | list items nestedCurrent nestedNew hrel hstep hcurrent _ =>
        rw [hstep] at hnested
        obtain ⟨results, rfl, hresults⟩ := adaptList_eq_ok_iff.mp hnested
        have hgrow : List.Forall₂ (fun item result =>
            weight item ≤ weight result ∧ (weight result ≤ weight item →
                Everywhere (adaptVisit api) (HasDefaults api) item
                  nestedCurrent)) items results := by
          apply (forall₂_with_mem hresults).imp
          intro item result hboth
          exact hitems items rfl item hboth.1 hrel hboth.2
        have hsum := sum_le_of_forall₂ hgrow
        simp only [weight, weightItems_eq]
        constructor
        · omega
        · intro hge
          exact .of_items hcurrent (hsum.2 (by omega))
    have hsum := sum_le_of_forall₂ hgrow
    simp only [← weightEntries_eq] at hsum
    simp only [weight, weightEntries_dropUndefined, weightEntries_append]
    constructor
    · omega
    · intro hle
      rw [everywhere_dict_iff, hasDefaults_same hidentical hsame,
        ← hasDefaults_of_forall₂ hall, ← missingDefaults_undefined_iff,
        ← weightEntries_eq_zero_iff]
      exact ⟨by omega, hsum.2 (by omega)⟩

theorem adaptValue_allDefined (hidentical : Identical same api) (hsame : same current new)
    (hadapt : adaptValue api direction value current new = .ok result)
    (hdefaults : Everywhere (adaptVisit api) (HasDefaults api) value current) :
    Everywhere (adaptVisit api) AllDefined result new := by
  induction value using ApiValue.walkInduction generalizing current new result with
  | leaf value hleaf =>
    obtain ⟨entries, _, hvalue, _⟩ := adaptValue_eq_ok_iff.mp hadapt
    exact absurd hvalue (hleaf entries)
  | dict entries ihvalue ihitems =>
    obtain ⟨_, adapted, hentries, hall, rfl⟩ := (adaptValue_same_iff hidentical hsame).mp hadapt
    cases hentries
    rw [everywhere_dict_iff] at hdefaults ⊢
    have hmissing : ∀ entry ∈ missingDefaults api new adapted, entry.2.isUndefined = true := by
      rw [missingDefaults_undefined_iff, hasDefaults_of_forall₂ hall,
        ← hasDefaults_same hidentical hsame]
      exact hdefaults.1
    constructor
    · intro entry hentry
      simpa using (mem_filter.mp hentry).2
    · rintro ⟨key, result⟩ hentry
      obtain ⟨hentry, hdefined⟩ := mem_filter.mp hentry
      rcases mem_append.mp hentry with hentry | hentry
      · obtain ⟨⟨_, value⟩, hmem, rfl, hnested⟩ := exists_mem_of_forall₂ hall hentry
        have hvalue := @ihvalue (key, value) hmem
        have hitems := ihitems (key, value) hmem
        have hat := hdefaults.2 (key, value) hmem
        simp only [adaptNested] at hnested
        cases nestedStep_same hidentical hsame key value with
        | keep _ hstep _ hnew =>
          rw [hstep] at hnested
          cases hnested
          exact .of_stop hnew
        | model _ nestedCurrent nestedNew hrel hstep hcurrent hnew =>
          rw [hstep] at hnested
          obtain ⟨_, _, _, _, rfl⟩ := (adaptValue_same_iff hidentical hrel).mp hnested
          exact .of_value (hnew _) (hvalue hrel hnested (hat.value nestedCurrent hcurrent))
        | list items nestedCurrent nestedNew hrel hstep hcurrent hnew =>
          rw [hstep] at hnested
          obtain ⟨results, rfl, hresults⟩ := adaptList_eq_ok_iff.mp hnested
          refine .of_items (hnew _) ?_
          intro result hresult
          obtain ⟨item, hitem, hadapted⟩ := exists_mem_of_forall₂ hresults hresult
          exact hitems items rfl item hitem hrel hadapted
            (hat.items nestedCurrent items hcurrent rfl item hitem)
      · simp [hmissing _ hentry] at hdefined

theorem dropUndefined_append_of {entries others : ApiEntries}
    (hdefined : ∀ entry ∈ entries, entry.2.isUndefined = false)
    (hundefined : ∀ entry ∈ others, entry.2.isUndefined = true) :
    dropUndefined (entries ++ others) = entries := by
  unfold dropUndefined
  rw [filter_append, filter_eq_self.mpr, filter_eq_nil_iff.mpr, append_nil]
  · intro entry hentry
    simp [hundefined entry hentry]
  · intro entry hentry
    simp [hdefined entry hentry]

theorem adaptValue_filled (hidentical : Identical same api)
    (hsame : same current new) (hfilled : Filled api current value) :
    adaptValue api direction value current new = .ok value := by
  unfold Filled at hfilled
  induction value using ApiValue.walkInduction generalizing current new with
  | leaf value hleaf =>
    cases value with
    | dict entries => exact absurd rfl (hleaf entries)
    | undefined => exact hfilled.1.elim
    | scalar _ => exact hfilled.1.elim
    | list _ => exact hfilled.1.elim
  | dict entries ihvalue ihitems =>
    rw [everywhere_dict_iff] at hfilled
    obtain ⟨⟨hdefaults, hdefined⟩, hentries⟩ := hfilled
    rw [adaptValue_same_iff hidentical hsame]
    refine ⟨entries, entries, rfl, ?_, ?_⟩
    · rw [forall₂_same]
      rintro ⟨key, value⟩ hmem
      refine ⟨rfl, ?_⟩
      have hvalue := @ihvalue (key, value) hmem
      have hitems := ihitems (key, value) hmem
      have hat := hentries (key, value) hmem
      simp only [adaptNested]
      cases nestedStep_same hidentical hsame key value with
      | keep _ hstep _ _ => rw [hstep]
      | model _ nestedCurrent nestedNew hrel hstep hcurrent _ =>
        rw [hstep]
        exact hvalue hrel (hat.value nestedCurrent hcurrent)
      | list items nestedCurrent nestedNew hrel hstep hcurrent _ =>
        rw [hstep]
        apply adaptList_eq_ok_iff.mpr
        refine ⟨items, rfl, ?_⟩
        rw [forall₂_same]
        intro item hitem
        exact hitems items rfl item hitem hrel
          (hat.items nestedCurrent items hcurrent rfl item hitem)
    · rw [dropUndefined_append_of hdefined]
      rw [missingDefaults_undefined_iff, ← hasDefaults_same hidentical hsame]
      exact hdefaults

end

/-! ## Whole chains -/

section

variable {api : M → ModelInfo M} {direction : Direction}
  {same : M → M → Prop} {modelName : String} {m target : M}

variable {value : ApiValue}

variable {current : ApiVersion M} {path : List (ApiVersion M)}

variable (hidentical : Identical same api)
  (hcurrent : current.models.get? modelName = some m)
  (hpath : ModelPath same modelName target m path)

include hidentical hcurrent hpath

theorem adaptAlong_weight {result : ApiValue}
    (hadapt : adaptAlong api direction modelName (.ok value) current path = .ok result) :
    weight value ≤ weight result := by
  induction path generalizing current m value with
  | nil =>
    cases hadapt
    exact Nat.le_refl _
  | cons new rest ih =>
    obtain ⟨next, hnew, hsame, hrest⟩ := hpath
    obtain ⟨adapted, hstep, hlater⟩ := (adaptAlong_cons_eq_ok_iff hcurrent hnew hrest).mp hadapt
    have hfirst := (adaptValue_weight hidentical hsame hstep).1
    have hsecond := ih hnew hrest hlater
    omega

omit hcurrent hpath in
theorem adaptAlong_allDefined {result : ApiValue} (hne : path ≠ [])
    (hcurrent : current.models.get? modelName = some m)
    (hpath : ModelPath same modelName target m path)
    (hadapt : adaptAlong api direction modelName (.ok value) current path = .ok result)
    (hweight : weight result ≤ weight value) :
    Everywhere (adaptVisit api) AllDefined result m := by
  induction path generalizing current m value with
  | nil => exact absurd rfl hne
  | cons new rest ih =>
    obtain ⟨next, hnew, hsame, hrest⟩ := hpath
    obtain ⟨adapted, hstep, hlater⟩ := (adaptAlong_cons_eq_ok_iff hcurrent hnew hrest).mp hadapt
    have hgrow := adaptValue_weight hidentical hsame hstep
    apply (everywhere_same_iff hidentical (fun _ _ _ _ => Iff.rfl) hsame result).mpr
    cases rest with
    | nil =>
      cases hlater
      exact adaptValue_allDefined hidentical hsame hstep (hgrow.2 hweight)
    | cons second rest =>
      exact ih (by simp) hnew hrest hlater (by omega)

theorem adaptAlong_filled (hfilled : Filled api m value) :
    adaptAlong api direction modelName (.ok value) current path = .ok value := by
  induction path generalizing current m with
  | nil => rfl
  | cons new rest ih =>
    obtain ⟨next, hnew, hsame, hrest⟩ := hpath
    rw [adaptAlong_cons_eq_ok_iff hcurrent hnew hrest]
    refine ⟨value, adaptValue_filled hidentical hsame hfilled, ?_⟩
    apply ih hnew hrest
    refine (everywhere_same_iff hidentical ?_ hsame value).mp hfilled
    intro current new value hsame
    rw [hasDefaults_same hidentical hsame]
    exact Iff.rfl

theorem adaptAlong_eq_self_iff :
    adaptAlong api direction modelName (.ok value) current path = .ok value ↔
      path = [] ∨ Filled api m value := by
  constructor
  · intro hadapt
    cases path with
    | nil => exact .inl rfl
    | cons new rest =>
      right
      have hdefined := adaptAlong_allDefined hidentical (by simp) hcurrent
        hpath hadapt (Nat.le_refl _)
      obtain ⟨next, hnew, hsame, hrest⟩ := hpath
      obtain ⟨adapted, hstep, hlater⟩ := (adaptAlong_cons_eq_ok_iff hcurrent hnew hrest).mp hadapt
      have hgrow := adaptValue_weight hidentical hsame hstep
      have hgrowRest := adaptAlong_weight hidentical hnew hrest hlater
      exact (hgrow.2 hgrowRest).and hdefined
  · rintro (rfl | hfilled)
    · rfl
    · exact adaptAlong_filled hidentical hcurrent hpath hfilled

omit hidentical hcurrent hpath

/-- Between identical models the adaptation gives the validated value back
exactly when that value is filled. -/
theorem adapt_eq_validateModel_iff {construct : Construct M}
    {adapter : ApiVersionsAdapter M} {value validated : ApiEntries}
    {version1 version2 : String} (hidentical : Identical same api)
    (hroute : adapter.Route same modelName version1 version2 m target)
    (hvalid : validateModel api construct m value false true = .ok validated) :
    adapter.adapt api construct value modelName version1 version2 = .ok (.dict validated) ↔
      version1 = version2 ∨ Filled api m (.dict validated) := by
  obtain ⟨first, last, current, hfirst, hlast, hcurrent, hmodel, hpath⟩ := hroute
  rw [ApiVersionsAdapter.adapt_eq_adaptAlong hfirst hlast hcurrent hmodel,
    hvalid, ← ApiVersionsAdapter.index_eq_iff hfirst hlast,
    ← ApiVersionsAdapter.versionsBetween_eq_nil_iff
      (ApiVersionsAdapter.index_lt hfirst) (ApiVersionsAdapter.index_lt hlast)]
  exact adaptAlong_eq_self_iff hidentical hmodel hpath

end

section

/-- The arguments of `device.get_info`: a disk or another device. -/
private inductive DeviceModel where
  | args
  | disk
  | other

private def falseDefault : FieldDefault DeviceModel :=
  .value (.scalar (.bool false)) (.value (.scalar (.bool false)))

private def deviceApi : DeviceModel → ModelInfo DeviceModel
  | .args =>
    .plain [("data", .plain (.unionType [.model .disk, .model .other]) .required)]
  | .disk =>
    .plain [("type", .plain (.other "Literal") .required),
        ("get_partitions", .plain (.other "bool") falseDefault),
        ("serials_only", .plain (.other "bool") falseDefault)]
  | .other => .plain [("type", .plain (.other "Literal") .required)]

private def deviceAdapter : ApiVersionsAdapter DeviceModel := .ofList
    [⟨"v1", Dict.ofEntries [("DeviceGetInfoArgs", .args)]⟩,
      ⟨"v2", Dict.ofEntries [("DeviceGetInfoArgs", .args)]⟩]

private def deviceType (kind : String) : String × Bool × Instance DeviceModel :=
  ("type", true, .value (.str kind))

private def validDisk : InstanceFields DeviceModel := [("data", true, .model .disk
    [deviceType "DISK", ("get_partitions", false, .value (.scalar (.bool false))),
      ("serials_only", false, .value (.scalar (.bool false)))])]

private def validGpu : InstanceFields DeviceModel :=
  [("data", true, .model .other [deviceType "GPU"])]

private theorem deviceApi_identical : Identical (· = ·) deviceApi := by
  apply identical_eq
  · intro m
    cases m <;> rfl
  · intro m
    cases m <;> rfl

private theorem device_route :
    deviceAdapter.Route (· = ·) "DeviceGetInfoArgs" "v1" "v2" .args .args :=
  ⟨0, 1, _, rfl, rfl, rfl, rfl, .args, rfl, rfl, rfl⟩

theorem device_disk_unchanged : deviceAdapter.adapt deviceApi (fun _ _ => .ok validDisk)
        [("data", .dict [("type", .str "DISK")])] "DeviceGetInfoArgs" "v1"
        "v2" =
      .ok (.dict (modelDumpFields deviceApi false true .args validDisk)) ∧
    Filled deviceApi .args (.dict (modelDumpFields deviceApi false true .args validDisk)) := by
  have hadapt : deviceAdapter.adapt deviceApi (fun _ _ => .ok validDisk)
      [("data", .dict [("type", .str "DISK")])] "DeviceGetInfoArgs" "v1"
      "v2" =
    .ok (.dict (modelDumpFields deviceApi false true .args validDisk)) := rfl
  have hfilled := (adapt_eq_validateModel_iff deviceApi_identical device_route rfl).mp hadapt
  exact ⟨hadapt, hfilled.resolve_left (by decide)⟩

/-- A GPU comes back with the defaults of a disk. -/
theorem device_gpu_changed : Identical (· = ·) deviceApi ∧
    deviceAdapter.Route (· = ·) "DeviceGetInfoArgs" "v1" "v2" .args .args ∧
    validateModel deviceApi (fun _ _ => .ok validGpu) .args
        [("data", .dict [("type", .str "GPU")])] false true =
      .ok [("data", .dict [("type", .str "GPU")])] ∧
    deviceAdapter.adapt deviceApi (fun _ _ => .ok validGpu)
        [("data", .dict [("type", .str "GPU")])] "DeviceGetInfoArgs" "v1"
        "v2" =
      .ok (.dict [("data", .dict [("type", .str "GPU"), ("get_partitions", .scalar (.bool false)),
        ("serials_only", .scalar (.bool false))])]) ∧
    deviceAdapter.adapt deviceApi (fun _ _ => .ok validGpu)
        [("data", .dict [("type", .str "GPU")])] "DeviceGetInfoArgs" "v1"
        "v2" ≠
      .ok (.dict [("data", .dict [("type", .str "GPU")])]) := by
  refine ⟨deviceApi_identical, device_route, rfl, rfl, ?_⟩
  intro hsame
  have hother := hsame.symm.trans (rfl : _ = Except.ok (ApiValue.dict
    [("data", .dict [("type", .str "GPU"), ("get_partitions", .scalar (.bool false)),
      ("serials_only", .scalar (.bool false))])]))
  simp at hother

end

end Middlewared
