import Middlewared.ApiModel

/-!
# Accepting parameters

Validation itself is the work of a library: `construct` is what calling a model class with a
dictionary does, and either gives the fields of the new instance or the errors that were found.
-/

namespace Middlewared

variable {M : Type}

/-- An error of the library; `discriminator` is there when the tag of a
discriminated union was not found. -/
structure PydanticError where
  loc : List String
  msg : String
  discriminator : Option String

abbrev InstanceFields (M : Type) := List (String × Bool × Instance M)

abbrev Construct (M : Type) :=
  M → ApiEntries → Except (List PydanticError) (InstanceFields M)

def secretValue : ApiValue := .str "********"

def Instance.isUndefined : Instance M → Bool
  | .value content => content.isUndefined
  | .secret _ | .list _ | .model _ _ => false

section

variable (api : M → ModelInfo M) (excludeUnset exposeSecrets : Bool)

def leftOut (m : M) (name : String) (wasSet : Bool) (content : Instance M) :
    Bool :=
  ((api m).modelFields.get? name).elim false FieldInfo.exclude ||
    (excludeUnset && !wasSet) || ((api m).forUpdate && content.isUndefined)

def dumpKey (m : M) (name : String) : String :=
  ((api m).modelFields.get? name).elim name (FieldInfo.key name)

mutual

/-- `model_dump` with `by_alias`: the fallback replaces secrets. -/
def modelDump : Instance M → ApiValue
  | .value value => value
  | .secret inner => if exposeSecrets then modelDump inner else secretValue
  | .list items => .list (modelDumpItems items)
  | .model m fields => .dict (modelDumpFields m fields)

def modelDumpItems : List (Instance M) → List ApiValue
  | [] => []
  | item :: rest => modelDump item :: modelDumpItems rest

def modelDumpFields (m : M) : InstanceFields M → ApiEntries
  | [] => []
  | (name, wasSet, content) :: rest =>
    if leftOut api excludeUnset m name wasSet content then
      modelDumpFields m rest
    else (dumpKey api m name, modelDump content) :: modelDumpFields m rest

end

end

def stripQuotes (text : String) : String :=
  let quote := Char.ofNat 39
  let chars := text.toList.dropWhile (· = quote)
  String.ofList (chars.reverse.dropWhile (· = quote)).reverse

def validationError (error : PydanticError) : String × String :=
  match error.discriminator with
  | none => (".".intercalate error.loc, error.msg)
  | some discriminator =>
    (".".intercalate (error.loc ++ [stripQuotes discriminator]), "Field required")

def validateModel (api : M → ModelInfo M) (construct : Construct M) (m : M)
    (data : ApiEntries) (excludeUnset exposeSecrets : Bool) :
    Except ApiError ApiEntries :=
  match construct m data with
  | .error errors => .error (.validationErrors (errors.map validationError))
  | .ok fields => .ok (modelDumpFields api excludeUnset exposeSecrets m fields)

def modelDictFromList (api : M → ModelInfo M) (m : M) (args : List ApiValue) :
    Except ApiError ApiEntries :=
  if (api m).modelFields.size < args.length then
    .error (.tooManyArguments (api m).modelFields.size args.length)
  else .ok ((api m).modelFields.keys.zip args)

def getItem (dump : ApiEntries) (key : String) : Except ApiError ApiValue :=
  match dump.lookup key with
  | none => .error (.keyError key)
  | some value => .ok value

def acceptParams (api : M → ModelInfo M) (construct : Construct M) (m : M)
    (args : List ApiValue) (excludeUnset exposeSecrets : Bool) :
    Except ApiError (List ApiValue) := do
  let data ← modelDictFromList api m args
  let dump ← validateModel api construct m data excludeUnset exposeSecrets
  let fields := (api m).modelFields.keys
  (if excludeUnset then fields.take args.length else fields).mapM (getItem dump)

end Middlewared
