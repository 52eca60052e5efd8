import Middlewared.ApiAccept

/-!
# Adapting values between API versions

A value of one version is validated there and then taken from version to version.
-/

namespace Middlewared

variable {M : Type}

inductive Direction where
  | downgrade
  | upgrade

structure ApiVersion (M : Type) where
  version : String
  models : Dict String M

inductive NestedStep (M : Type) where
  | keep
  | model (current new : M)
  | list (current new : M)

section

variable (api : M → ModelInfo M) (direction : Direction)

def sameMetaclass (current new : M) : Bool :=
  (api current).forUpdate = (api new).forUpdate

def nestedModels (current new : Option M) : Option (M × M) :=
  match current, new with
  | some current, some new =>
    if sameMetaclass api current new then some (current, new) else none
  | none, _ | _, none => none

def nestedItemModels (current new : TypeHint M) : Option (M × M) :=
  nestedModels api ((modelFieldIsListOfModels current).bind modelFieldIsModel)
    ((modelFieldIsListOfModels new).bind modelFieldIsModel)

def nestedStep (current new : M) (key : String) (value : ApiValue) :
    NestedStep M :=
  match (api current).modelFields.get? key, (api new).modelFields.get? key with
  | some currentField, some newField =>
    match value with
    | .dict _ =>
      match nestedModels api (modelFieldIsModel currentField.hint)
          (modelFieldIsModel newField.hint) with
      | some (current, new) => .model current new
      | none => .keep
    | .list _ =>
      match nestedItemModels api currentField.hint
          newField.hint with
      | some (current, new) => .list current new
      | none => .keep
    | .undefined | .scalar _ => .keep
  | none, _ | _, none => .keep

def missingDefaults (new : M) (entries : ApiEntries) : ApiEntries :=
  if (api new).forUpdate then []
  else
    (api new).modelFields.entries.filterMap fun (name, field) =>
      if (entries.lookup name).isNone && !field.isRequired then
        some (name, field.getDefault)
      else none

def convert (current new : M) : Conversion :=
  match direction with
  | .downgrade => ((api current).toPrevious).getD .ok
  | .upgrade => ((api new).fromPrevious).getD .ok

def dropRemoved (current new : M) (entries : ApiEntries) : ApiEntries :=
  entries.filter fun entry =>
    !(entry.1 ∈ (api current).modelFields && entry.1 ∉ (api new).modelFields)

def dropUndefined (entries : ApiEntries) : ApiEntries :=
  entries.filter fun entry => !entry.2.isUndefined

def finishValue (current new : M) (entries : ApiEntries) :
    Except ApiError ApiValue := do
  let converted ← convert api direction current new
    (entries ++ missingDefaults api new entries)
  return .dict (dropUndefined (dropRemoved api current new converted))

mutual

/-- `_adapt_value`.  What is not a dictionary raises on the way. -/
def adaptValue : ApiValue → M → M → Except ApiError ApiValue
  | .dict entries, current, new => do
    finishValue api direction current new (← adaptEntries entries current new)
  | .undefined, _, _ | .scalar _, _, _ | .list _, _, _ => .error .notADict

def adaptEntries : ApiEntries → M → M → Except ApiError ApiEntries
  | [], _, _ => .ok []
  | (key, value) :: rest, current, new => do
    let adapted ← (match nestedStep api current new key value with
      | .keep => .ok value
      | .model nestedCurrent nestedNew =>
        adaptValue value nestedCurrent nestedNew
      | .list nestedCurrent nestedNew =>
        adaptList value nestedCurrent nestedNew)
    return (key, adapted) :: (← adaptEntries rest current new)

def adaptList : ApiValue → M → M → Except ApiError ApiValue
  | .list items, current, new => do
    return .list (← adaptItems items current new)
  | .undefined, _, _ | .scalar _, _, _ | .dict _, _, _ => .error .notADict

def adaptItems : List ApiValue → M → M → Except ApiError (List ApiValue)
  | [], _, _ => .ok []
  | item :: rest, current, new => do
    return (← adaptValue item current new) :: (← adaptItems rest current new)

end

end

section

variable (api : M → ModelInfo M) (construct : Construct M)

def ApiVersion.model (version : ApiVersion M) (modelName : String) :
    Except ApiError M :=
  match version.models.get? modelName with
  | some m => .ok m
  | none =>
    .error (.apiVersionDoesNotContainModel version.version modelName)

/-- `_adapt_model`: both models are looked up before the value is made. -/
def adaptModelStep (direction : Direction) (modelName : String)
    (valueFactory : Except ApiError ApiValue) (current new : ApiVersion M) :
    Except ApiError ApiValue := do
  let currentModel ← current.model modelName
  let newModel ← new.model modelName
  adaptValue api direction (← valueFactory) currentModel newModel

def adaptAlong (direction : Direction) (modelName : String) :
    Except ApiError ApiValue → ApiVersion M → List (ApiVersion M) → Except ApiError ApiValue
  | valueFactory, _, [] => valueFactory
  | valueFactory, current, new :: rest =>
    adaptAlong direction modelName (adaptModelStep api direction modelName valueFactory current new)
      new rest

/-- `APIVersionsAdapter`, with the versions in chronological order. -/
structure ApiVersionsAdapter (M : Type) where
  versions : Dict String (ApiVersion M)

namespace ApiVersionsAdapter

variable (adapter : ApiVersionsAdapter M)

def ofList (versions : List (ApiVersion M)) : ApiVersionsAdapter M where
  versions := Dict.ofEntries (versions.map fun version =>
    (version.version, version))

def index (version : String) : Except ApiError ℕ :=
  match adapter.versions.keys.idxOf? version with
  | some position => .ok position
  | none => .error (.apiVersionDoesNotExist version)

def versionsBetween (first last : ℕ) : Direction × List (ApiVersion M) :=
  let versions := adapter.versions.entries.map Prod.snd
  if first < last then
    (.upgrade, (versions.take (last + 1)).drop (first + 1))
  else (.downgrade, ((versions.take first).drop last).reverse)

def adaptModel (value : ApiEntries) (modelName version1 version2 : String) :
    Except ApiError (Option M × ApiValue) := do
  let first ← adapter.index version1
  let last ← adapter.index version2
  match adapter.versions.get? version1 with
  | none => .error (.apiVersionDoesNotExist version1)
  | some currentVersion =>
    let currentModel ← currentVersion.model modelName
    let valueFactory :=
      (validateModel api construct currentModel value false true).map .dict
    let (direction, path) := adapter.versionsBetween first last
    let newModel := match path.getLast? with
      | none => some currentModel
      | some version => version.models.get? modelName
    return (newModel, ← adaptAlong api direction modelName valueFactory currentVersion path)

def adapt (value : ApiEntries) (modelName version1 version2 : String) :
    Except ApiError ApiValue := do
  return (← adapter.adaptModel api construct value modelName version1 version2).2

end ApiVersionsAdapter

end

end Middlewared
