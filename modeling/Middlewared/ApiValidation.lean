import Middlewared.ApiAccept

/-!
# What validation does

The documented behaviour of the validation library, as a relation between an annotation, the value
that is given for it and what the value is validated to.
-/

namespace Middlewared

variable {M : Type}

/-- What the library decides itself: which member of a union a value is
validated as, and what a value of a type that is none of the above is
validated to. -/
structure Validation (M : Type) where
  member : List (TypeHint M) → ApiValue → Option (TypeHint M)
  leaf : String → ApiValue → Option ApiValue

def FieldDefault.content : FieldDefault M → Option (Instance M)
  | .required => none
  | .value _ content => some content
  | .factory content => some content

inductive Validates (api : M → ModelInfo M) (library : Validation M) :
    TypeHint M → ApiValue → Instance M → Prop where
  | model {m : M} {entries : ApiEntries} {fields : InstanceFields M}
      (hnames : fields.map Prod.fst = (api m).modelFields.keys)
      (hextra : ∀ entry ∈ entries, ∃ name field, (api m).modelFields.get? name = some field ∧
          field.key name = entry.1 ∧ field.exclude = false)
      (hgiven : ∀ name content field, (name, true, content) ∈ fields →
        (api m).modelFields.get? name = some field → (entries.lookup (field.key name)).isSome)
      (hset : ∀ name content field value, (name, true, content) ∈ fields →
        (api m).modelFields.get? name = some field →
        entries.lookup (field.key name) = some value →
          Validates api library field.hint value content)
      (hunset : ∀ name content field, (name, false, content) ∈ fields →
        (api m).modelFields.get? name = some field → entries.lookup (field.key name) = none ∧
            field.default.content = some content) :
      Validates api library (.model m) (.dict entries) (.model m fields)
  | unionType {members : List (TypeHint M)} {member : TypeHint M}
      {value : ApiValue} {content : Instance M}
      (hchosen : library.member members value = some member)
      (hmember : member ∈ members)
      (hvalue : Validates api library member value content) :
      Validates api library (.unionType members) value content
  | typingUnion {members : List (TypeHint M)} {member : TypeHint M}
      {value : ApiValue} {content : Instance M}
      (hchosen : library.member members value = some member)
      (hmember : member ∈ members)
      (hvalue : Validates api library member value content) :
      Validates api library (.typingUnion members) value content
  | list {hint : TypeHint M} {items : List ApiValue}
      {contents : List (Instance M)} (hlength : items.length = contents.length)
      (hitems : ∀ (k : ℕ) item content, items[k]? = some item → contents[k]? = some content →
          Validates api library hint item content) :
      Validates api library (.list hint) (.list items) (.list contents)
  | secret {hint : TypeHint M} {value : ApiValue} {content : Instance M}
      (hvalue : Validates api library hint value content) :
      Validates api library (.secret hint) value (.secret content)
  | annotated {hint : TypeHint M} {value : ApiValue} {content : Instance M}
      (hvalue : Validates api library hint value content) :
      Validates api library (.annotated hint) value content
  | none : Validates api library .none .none (.value .none)
  | other {name : String} {value result : ApiValue} (hleaf : library.leaf name value = some result)
      (hdefined : result.isUndefined = false) :
      Validates api library (.other name) value (.value result)

/-- Where calling the class with these arguments returns, it has validated
them. -/
def Construct.Sound (construct : Construct M) (api : M → ModelInfo M)
    (library : Validation M) (m : M) (entries : ApiEntries) : Prop :=
  ∀ fields, construct m entries = .ok fields →
    Validates api library (.model m) (.dict entries) (.model m fields)

section

variable {api : M → ModelInfo M} {excludeUnset exposeSecrets : Bool}

theorem mem_modelDumpFields_iff {m : M} {fields : InstanceFields M}
    {key : String} {value : ApiValue} :
    (key, value) ∈ modelDumpFields api excludeUnset exposeSecrets m fields ↔
      ∃ name wasSet content, (name, wasSet, content) ∈ fields ∧
        leftOut api excludeUnset m name wasSet content = false ∧
        key = dumpKey api m name ∧
        value = modelDump api excludeUnset exposeSecrets content := by
  induction fields with
  | nil => simp [modelDumpFields]
  | cons field rest ih =>
    rcases field with ⟨name, wasSet, content⟩
    rw [modelDumpFields]
    cases hout : leftOut api excludeUnset m name wasSet content with
    | true =>
      rw [if_pos rfl, ih]
      simp only [List.mem_cons, Prod.mk.injEq]
      constructor
      · rintro ⟨other, otherSet, otherContent, hmem, hrest⟩
        exact ⟨other, otherSet, otherContent, .inr hmem, hrest⟩
      · rintro ⟨other, otherSet, otherContent, hmem | hmem, hrest⟩
        · obtain ⟨rfl, rfl, rfl⟩ := hmem
          rw [hout] at hrest
          cases hrest.1
        · exact ⟨other, otherSet, otherContent, hmem, hrest⟩
    | false =>
      rw [if_neg (by simp), List.mem_cons, ih]
      simp only [List.mem_cons, Prod.mk.injEq]
      constructor
      · rintro (⟨hkey, hvalue⟩ | ⟨other, otherSet, otherContent, hmem, hrest⟩)
        · exact ⟨name, wasSet, content, .inl ⟨rfl, rfl, rfl⟩, hout, hkey, hvalue⟩
        · exact ⟨other, otherSet, otherContent, .inr hmem, hrest⟩
      · rintro ⟨other, otherSet, otherContent, hmem | hmem, hrest⟩
        · obtain ⟨rfl, rfl, rfl⟩ := hmem
          exact .inl hrest.2
        · exact .inr ⟨other, otherSet, otherContent, hmem, hrest⟩

theorem modelDumpItems_eq (items : List (Instance M)) :
    modelDumpItems api excludeUnset exposeSecrets items =
      items.map (modelDump api excludeUnset exposeSecrets) := by
  induction items with
  | nil => rfl
  | cons item rest ih => simp [modelDumpItems, ih]

end

end Middlewared
