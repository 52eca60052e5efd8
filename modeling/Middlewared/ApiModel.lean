import Mathlib.Data.Int.Notation
import Middlewared.Dict

/-!
# Models of the API

The values that methods take and return, and what the handlers look at in a model class: its
fields with their annotations and defaults, its metaclass and its conversions from and to the
preceding API version.
-/

namespace Middlewared

/-- `other` stands for an object of any further type, such as an instance of a
model that was given as a default. -/
inductive Scalar where
  | none
  | bool (value : Bool)
  | int (value : ℤ)
  | str (value : String)
  | other (text : String)

inductive ApiValue where
  | undefined
  | scalar (value : Scalar)
  | list (items : List ApiValue)
  | dict (entries : List (String × ApiValue))

abbrev ApiEntries := List (String × ApiValue)

namespace ApiValue

def isUndefined : ApiValue → Bool
  | .undefined => true
  | .scalar _ | .list _ | .dict _ => false

def none : ApiValue := .scalar .none

def str (value : String) : ApiValue := .scalar (.str value)

@[elab_as_elim, induction_eliminator]
theorem induction {motive : ApiValue → Prop} (undefined : motive .undefined)
    (scalar : ∀ value, motive (.scalar value))
    (list : ∀ items, (∀ item ∈ items, motive item) → motive (.list items))
    (dict : ∀ entries, (∀ entry ∈ entries, motive entry.2) →
      motive (.dict entries)) (value : ApiValue) : motive value := by
  apply @ApiValue.rec motive (fun items => ∀ item ∈ items, motive item)
  · exact undefined
  · exact scalar
  · exact list
  · exact dict
  · simp
  · intro head tail hhead htail item hitem
    rcases List.mem_cons.mp hitem with rfl | hitem
    · exact hhead
    · exact htail item hitem
  · simp
  · intro head tail hhead htail entry hentry
    rcases List.mem_cons.mp hentry with rfl | hentry
    · exact hhead
    · exact htail entry hentry
  · intro _ _ hsnd
    exact hsnd

end ApiValue

section

variable {M : Type}

/-- The annotation of a field.  `X | Y` and `typing.Union[X, Y]` are different
objects; `none` is `None` and its type; the outermost `Annotated` of a field
is taken off by the class, so that only an inner one is `annotated`. -/
inductive TypeHint (M : Type) where
  | model (m : M)
  | unionType (members : List (TypeHint M))
  | typingUnion (members : List (TypeHint M))
  | list (item : TypeHint M)
  | secret (inner : TypeHint M)
  | annotated (inner : TypeHint M)
  | none
  | other (name : String)

mutual

def modelFieldIsModel : TypeHint M → Option M
  | .model m => some m
  | .unionType members => firstModel members
  | .typingUnion _ | .list _ | .secret _ | .annotated _ | .none | .other _ =>
    none

def firstModel : List (TypeHint M) → Option M
  | [] => none
  | member :: rest => (modelFieldIsModel member).or (firstModel rest)

end

mutual

/-- The item of `list[None]` is false in the language. -/
def modelFieldIsListOfModels : TypeHint M → Option (TypeHint M)
  | .list .none => none
  | .list item => some item
  | .unionType members => firstListOfModels members
  | .model _ | .typingUnion _ | .secret _ | .annotated _ | .none | .other _ =>
    none

def firstListOfModels : List (TypeHint M) → Option (TypeHint M)
  | [] => none
  | member :: rest =>
    (modelFieldIsListOfModels member).or (firstListOfModels rest)

end

/-- What validation makes of a value.  A field of an instance has its name,
whether it was set from the input, and its value. -/
inductive Instance (M : Type) where
  | value (value : ApiValue)
  | secret (inner : Instance M)
  | list (items : List (Instance M))
  | model (m : M) (fields : List (String × Bool × Instance M))

/-- The default of a field as `get_default` hands it out and as an instance
holds it; what a factory makes is only seen in instances. -/
inductive FieldDefault (M : Type) where
  | required
  | value (raw : ApiValue) (content : Instance M)
  | factory (content : Instance M)

structure FieldInfo (M : Type) where
  aliasName : Option String
  hint : TypeHint M
  default : FieldDefault M
  exclude : Bool

namespace FieldInfo

def isRequired (field : FieldInfo M) : Bool :=
  match field.default with
  | .required => true
  | .value _ _ | .factory _ => false

/-- `get_default()` does not call a factory. -/
def getDefault (field : FieldInfo M) : ApiValue :=
  match field.default with
  | .value raw _ => raw
  | .required | .factory _ => .none

def key (name : String) (field : FieldInfo M) : String :=
  field.aliasName.getD name

end FieldInfo

/-- The exceptions of the handlers.  `notADict` is what the adaptation of a
list item raises that is not a dictionary, `raised` what a conversion raises
itself. -/
inductive ApiError where
  | apiVersionDoesNotExist (version : String)
  | apiVersionDoesNotContainModel (version : String) (modelName : String)
  | validationErrors (errors : List (String × String))
  | tooManyArguments (expected : ℕ) (found : ℕ)
  | keyError (key : String)
  | notADict
  | raised (message : String)

abbrev Conversion := ApiEntries → Except ApiError ApiEntries

/-- A class that does not override a conversion inherits one that returns its
argument. -/
structure ModelInfo (M : Type) where
  modelFields : Dict String (FieldInfo M)
  forUpdate : Bool
  (fromPrevious toPrevious : Option Conversion)

/-- A field declared as `name: annotation = default`. -/
def FieldInfo.plain (hint : TypeHint M) (default : FieldDefault M) :
    FieldInfo M where
  aliasName := none
  hint := hint
  default := default
  exclude := false

def ModelInfo.plain (fields : List (String × FieldInfo M)) : ModelInfo M where
  modelFields := Dict.ofEntries fields
  forUpdate := false
  fromPrevious := none
  toPrevious := none

end

end Middlewared
