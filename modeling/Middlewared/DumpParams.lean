import Middlewared.ApiValidation
import Middlewared.ExceptRules

/-!
# Dumping parameters without their secrets

The parameters of a call are printed with their secrets replaced.
-/

namespace Middlewared

variable {M : Type}

section

variable (api : M → ModelInfo M)

def hideSecret (hint : TypeHint M) (value : ApiValue) : ApiValue :=
  match hint with
  | .secret _ => secretValue
  | .model _ | .unionType _ | .typingUnion _ | .list _ | .annotated _ | .none
  | .other _ => value

mutual

/-- `remove_secrets`: only the fields of the model are kept of a dictionary. -/
def removeSecrets : ApiValue → TypeHint M → ApiValue
  | .dict entries, hint =>
    match modelFieldIsModel hint with
    | some m =>
      .dict ((api m).modelFields.entries.filterMap fun entry =>
        ((removeSecretsEntries entries).lookup entry.1).map fun remove =>
          (entry.1, remove entry.2.hint))
    | none => hideSecret hint (.dict entries)
  | .list items, hint =>
    match modelFieldIsListOfModels hint with
    | some item => .list (removeSecretsItems items item)
    | none => hideSecret hint (.list items)
  | .undefined, hint => hideSecret hint .undefined
  | .scalar value, hint => hideSecret hint (.scalar value)

def removeSecretsEntries : ApiEntries → List (String × (TypeHint M → ApiValue))
  | [] => []
  | (key, value) :: rest =>
    (key, removeSecrets value) :: removeSecretsEntries rest

def removeSecretsItems : List ApiValue → TypeHint M → List ApiValue
  | [], _ => []
  | item :: rest, hint =>
    removeSecrets item hint :: removeSecretsItems rest hint

end

/-- The fields and the arguments next to each other, the shorter list filled
up with `None`. -/
def removeSecretsParams : List (FieldInfo M) → List ApiValue → List ApiValue
  | [], args => args
  | field :: fields, [] =>
    removeSecrets api .none field.hint :: removeSecretsParams fields []
  | field :: fields, arg :: args =>
    removeSecrets api arg field.hint :: removeSecretsParams fields args

def dumpParams (construct : Construct M) (m : M) (args : List ApiValue)
    (exposeSecrets : Bool) : Except ApiError (List ApiValue) :=
  match acceptParams api construct m args true exposeSecrets with
  | .ok params => .ok params
  | .error (.validationErrors _) =>
    .ok (removeSecretsParams api ((api m).modelFields.entries.map Prod.snd) args)
  | .error e => .error e

end

/-- The two values differ only at places that are annotated as secret.  A
value that is valid for a union is read as the member it is validated as. -/
inductive SecretEq (api : M → ModelInfo M) (library : Validation M) :
    TypeHint M → ApiValue → ApiValue → Prop where
  | refl (hint : TypeHint M) (value : ApiValue) : SecretEq api library hint value value
  | secret (hint : TypeHint M) (value other : ApiValue) :
      SecretEq api library (.secret hint) value other
  | model {m : M} {entries others : ApiEntries} (hkeys : entries.map Prod.fst = others.map Prod.fst)
      (hfields : ∀ (k : ℕ) key value other name field,
        entries[k]? = some (key, value) → others[k]? = some (key, other) →
        (api m).modelFields.get? name = some field → field.key name = key →
          SecretEq api library field.hint value other)
      (hrest : ∀ (k : ℕ) key value other,
        entries[k]? = some (key, value) → others[k]? = some (key, other) →
        (∀ name field, (api m).modelFields.get? name = some field →
          field.key name ≠ key) → value = other) :
      SecretEq api library (.model m) (.dict entries) (.dict others)
  | list {hint : TypeHint M} {items others : List ApiValue} (hlength : items.length = others.length)
      (hitems : ∀ (k : ℕ) item other, items[k]? = some item →
        others[k]? = some other → SecretEq api library hint item other) :
      SecretEq api library (.list hint) (.list items) (.list others)
  | unionType {members : List (TypeHint M)} {member : TypeHint M}
      {value other : ApiValue} (hmember : member ∈ members)
      (hvalue : ∀ chosen, library.member members value = some chosen → chosen = member)
      (hother : ∀ chosen, library.member members other = some chosen → chosen = member)
      (heq : SecretEq api library member value other) :
      SecretEq api library (.unionType members) value other
  | typingUnion {members : List (TypeHint M)} {member : TypeHint M}
      {value other : ApiValue} (hmember : member ∈ members)
      (hvalue : ∀ chosen, library.member members value = some chosen → chosen = member)
      (hother : ∀ chosen, library.member members other = some chosen → chosen = member)
      (heq : SecretEq api library member value other) :
      SecretEq api library (.typingUnion members) value other
  | annotated {hint : TypeHint M} {value other : ApiValue}
      (heq : SecretEq api library hint value other) :
      SecretEq api library (.annotated hint) value other

/-- The argument lists differ only in secrets: as the dictionary that they are
read as, and beyond the fields not at all. -/
structure ArgsSecretEq (api : M → ModelInfo M) (library : Validation M)
    (m : M) (args others : List ApiValue) : Prop where
  length : args.length = others.length
  data : SecretEq api library (.model m) (.dict ((api m).modelFields.keys.zip args))
    (.dict ((api m).modelFields.keys.zip others))
  rest : args.drop (api m).modelFields.size = others.drop (api m).modelFields.size

/-- The annotation that the walk goes on with at a key of a dictionary: the one of the field of the
model it takes the dictionary for, whose other keys it drops; where it takes it for none, nothing
below is removed. -/
def walkKey (api : M → ModelInfo M) (walk : TypeHint M) (key : String) : Option (TypeHint M) :=
  match modelFieldIsModel walk with
  | some m => ((api m).modelFields.get? key).map FieldInfo.hint
  | none => some .none

def walkItem (walk : TypeHint M) : TypeHint M := (modelFieldIsListOfModels walk).getD .none

def TypeHint.isSecret : TypeHint M → Bool
  | .secret _ => true
  | .model _ | .unionType _ | .typingUnion _ | .list _ | .annotated _ | .none
  | .other _ => false

/-- In a value of the annotation `hint` that is walked through as one of `walk`, there is a place
of a secret that the walk does not come to as a secret. -/
inductive Shown (api : M → ModelInfo M) : TypeHint M → TypeHint M → Prop where
  | secret {walk inner : TypeHint M} (hwalk : walk.isSecret = false) :
      Shown api walk (.secret inner)
  | model {walk next : TypeHint M} {m : M} {name : String} {field : FieldInfo M}
      (hwalk : walk.isSecret = false) (hfield : (api m).modelFields.get? name = some field)
      (hnext : walkKey api walk (field.key name) = some next)
      (hshown : Shown api next field.hint) : Shown api walk (.model m)
  | list {walk hint : TypeHint M} (hwalk : walk.isSecret = false)
      (hshown : Shown api (walkItem walk) hint) : Shown api walk (.list hint)
  | unionType {walk member : TypeHint M} {members : List (TypeHint M)} (hmember : member ∈ members)
      (hshown : Shown api walk member) : Shown api walk (.unionType members)
  | typingUnion {walk member : TypeHint M} {members : List (TypeHint M)}
      (hmember : member ∈ members) (hshown : Shown api walk member) :
      Shown api walk (.typingUnion members)
  | annotated {walk hint : TypeHint M} (hshown : Shown api walk hint) :
      Shown api walk (.annotated hint)

/-- One of the first `n` arguments of the model has a place of a secret that the walk does not
come to. -/
def ShownAmong (api : M → ModelInfo M) (m : M) (n : ℕ) : Prop :=
  ∃ key ∈ (api m).modelFields.keys.take n, ∃ walk name field,
    (api m).modelFields.get? key = some walk ∧ (api m).modelFields.get? name = some field ∧
    field.key name = key ∧ Shown api walk.hint field.hint

/-- A key of a dictionary belongs to one field of a model. -/
def DistinctKeys (api : M → ModelInfo M) : Prop :=
  ∀ m name other field otherField, (api m).modelFields.get? name = some field →
    (api m).modelFields.get? other = some otherField →
    field.key name = otherField.key other → name = other

def ValidArgs (api : M → ModelInfo M) (construct : Construct M) (m : M)
    (args : List ApiValue) : Prop :=
  args.length ≤ (api m).modelFields.size ∧
    ∃ fields, construct m ((api m).modelFields.keys.zip args) = .ok fields

/-- `n` arguments of the model are dumped without an error, and to the same whatever their secrets
are, as long as both lists are valid or both are not. -/
def KeepsSecrets (api : M → ModelInfo M) (m : M) (n : ℕ) : Prop :=
  ∀ (library : Validation M) (construct : Construct M) (args others : List ApiValue),
    args.length = n →
    construct.Sound api library m ((api m).modelFields.keys.zip args) →
    construct.Sound api library m ((api m).modelFields.keys.zip others) →
    ArgsSecretEq api library m args others →
    (ValidArgs api construct m args ↔ ValidArgs api construct m others) →
    ∃ params, dumpParams api construct m args false = .ok params ∧
      dumpParams api construct m others false = .ok params

end Middlewared
