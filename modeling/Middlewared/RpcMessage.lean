import Middlewared.ExceptRules
import Mathlib.Tactic

/-!
# JSON-RPC messages

What a text frame goes through before a method is called: `parse_message` with its size limits,
then `validate_message`. The decoder is `ejson.loads` of the client library, which is a parameter.
-/

namespace Middlewared

/-- What `ejson.loads` returns.  An object such as `{"$date": 0}` becomes a
value of its own, all of them values that `in` finds in no set of names. -/
inductive JsonValue where
  | null
  | bool (value : Bool)
  | int (value : ℤ)
  | float (value : Float)
  | str (value : String)
  | list (items : List JsonValue)
  | dict (entries : List (String × JsonValue))
  | extended (name : String) (value : JsonValue)

abbrev JsonObject := List (String × JsonValue)

/-- What `ejson.loads` raises. -/
inductive LoadsError where
  | valueError (message : String)
  /-- Anything else, such as `RecursionError` or what the reading of an
  extended value raises. -/
  | other

abbrev Loads := String → Except LoadsError JsonValue

/-! ## `parse_message` -/

def msgSizeExtendedMethods : List String := ["filesystem.file_receive"]

inductive MsgSizeLimit where
  | unauthenticated
  | authenticated
  | extended
deriving DecidableEq

def MsgSizeLimit.value : MsgSizeLimit → ℕ
  | .unauthenticated => 8192
  | .authenticated => 65536
  | .extended => 2097152

inductive WsCloseCode where
  | unsupportedData
  | invalidText
  | messageTooBig
  | internalError

structure MsgSizeError where
  limit : MsgSizeLimit
  datalen : ℕ
  methodName : Option JsonValue := none

namespace MsgSizeError

def errmsg (error : MsgSizeError) : String :=
  "Message length [" ++ toString error.datalen ++
    "] exceeded maximum size of " ++ toString error.limit.value

def wsCloseCode (error : MsgSizeError) : WsCloseCode :=
  if error.limit = .unauthenticated then .invalidText else .messageTooBig

def wsErrmsg (error : MsgSizeError) : String :=
  if error.limit = .unauthenticated then
    "Anonymous connection max message length is 8 kB"
  else "Max message length is 64 kB"

end MsgSizeError

inductive ParseError where
  | msgSizeError (error : MsgSizeError)
  | valueError (message : String)
  | typeError
  | loads

/-- `method in MSG_SIZE_EXTENDED_METHODS`; nothing when the lookup raises
because the value has no hash. -/
def inExtendedMethods : JsonValue → Option Bool
  | .list _ | .dict _ => none
  | .str name => some (decide (name ∈ msgSizeExtendedMethods))
  | .null | .bool _ | .int _ | .float _ | .extended _ _ => some false

def parseMessage (loads : Loads) (authenticated : Bool) (msgData : String) :
    Except ParseError JsonObject :=
  let datalen := msgData.length
  if authenticated = false ∧ datalen > MsgSizeLimit.unauthenticated.value then
    .error (.msgSizeError { limit := .unauthenticated, datalen })
  else if datalen > MsgSizeLimit.extended.value then
    .error (.msgSizeError { limit := .extended, datalen })
  else
    match loads msgData with
    | .error (.valueError message) => .error (.valueError message)
    | .error .other => .error .loads
    | .ok (.dict message) =>
      let method := (message.lookup "method").getD .null
      match inExtendedMethods method with
      | none => .error .typeError
      | some true => .ok message
      | some false =>
        if datalen > MsgSizeLimit.authenticated.value then
          .error (.msgSizeError { limit := .authenticated, datalen, methodName := some method })
        else .ok message
    | .ok (.list _) =>
      .error (.valueError "Batch messages are not supported at this time")
    | .ok _ => .error (.valueError "Invalid Message Format")

def WithinLimits (loads : Loads) (authenticated : Bool) (msgData : String) :
    Prop :=
  (authenticated = true ∨ msgData.length ≤ MsgSizeLimit.unauthenticated.value) ∧
    msgData.length ≤ MsgSizeLimit.extended.value ∧
    ∀ message, loads msgData = .ok (.dict message) → (∃ name ∈ msgSizeExtendedMethods,
        message.lookup "method" = some (.str name)) ∨
      msgData.length ≤ MsgSizeLimit.authenticated.value

/-- The decoder raises nothing but `ValueError`, and the method of an object,
if it has one, is neither an array nor an object. -/
def Decodes (loads : Loads) (msgData : String) : Prop :=
  loads msgData ≠ .error .other ∧ ∀ message, loads msgData = .ok (.dict message) →
      (∀ items, message.lookup "method" ≠ some (.list items)) ∧
      ∀ entries, message.lookup "method" ≠ some (.dict entries)

theorem inExtendedMethods_eq_none_iff {method : JsonValue} : inExtendedMethods method = none ↔
    (∃ items, method = .list items) ∨ ∃ entries, method = .dict entries := by
  cases method <;> simp [inExtendedMethods]

theorem inExtendedMethods_eq_true_iff {method : JsonValue} : inExtendedMethods method = some true ↔
    ∃ name ∈ msgSizeExtendedMethods, method = .str name := by
  cases method <;> simp [inExtendedMethods]

section

variable {loads : Loads} {authenticated : Bool} {msgData : String}

theorem parseMessage_of_withinLimits (hlimits : WithinLimits loads authenticated msgData) :
    parseMessage loads authenticated msgData =
      match loads msgData with
      | .error (.valueError message) => .error (.valueError message)
      | .error .other => .error .loads
      | .ok (.dict message) =>
        if inExtendedMethods ((message.lookup "method").getD .null) = none
        then .error .typeError else .ok message
      | .ok (.list _) =>
        .error (.valueError "Batch messages are not supported at this time")
      | .ok _ => .error (.valueError "Invalid Message Format") := by
  obtain ⟨hanonymous, hextended, hmethod⟩ := hlimits
  have hfirst : ¬ (authenticated = false ∧
      msgData.length > MsgSizeLimit.unauthenticated.value) := by
    rintro ⟨hfalse, hlong⟩
    rcases hanonymous with htrue | hshort
    · simp [hfalse] at htrue
    · omega
  have hsecond : ¬ msgData.length > MsgSizeLimit.extended.value := by omega
  unfold parseMessage
  simp only [hfirst, hsecond, if_false]
  cases hloads : loads msgData with
  | error error => cases error <;> rfl
  | ok value =>
    cases value with
    | dict message =>
      simp only
      cases hin : inExtendedMethods ((message.lookup "method").getD .null) with
      | none => simp
      | some extended =>
        cases extended with
        | true => simp
        | false =>
          rcases hmethod message hloads with ⟨name, hname, hlookup⟩ | hle
          · have htrue := inExtendedMethods_eq_true_iff.mpr ⟨name, hname, rfl⟩
            rw [hlookup, Option.getD_some, htrue] at hin
            simp at hin
          · have hshort : ¬ msgData.length > MsgSizeLimit.authenticated.value := by omega
            simp [hshort]
    | null | bool _ | int _ | float _ | str _ | list _ | extended _ _ => rfl

theorem decodes_dict_iff {message : JsonObject} (hloads : loads msgData = .ok (.dict message)) :
    Decodes loads msgData ↔ inExtendedMethods ((message.lookup "method").getD .null) ≠ none := by
  simp only [Decodes, hloads, ne_eq, reduceCtorEq, not_false_eq_true, true_and,
    Except.ok.injEq, JsonValue.dict.injEq, forall_eq',
    inExtendedMethods_eq_none_iff, not_or, not_exists]
  cases message.lookup "method" <;> simp

end

/-- What a valid message holds; an absent `id` is no `id` at all. -/
structure RpcRequest where
  id : Option JsonValue
  method : String
  params : List JsonValue

namespace RpcRequest

def checkJsonrpc (message : JsonObject) : Except String Unit :=
  let error :=
    "'jsonrpc' member must be of type string and must be exactly '2.0'"
  match message.lookup "jsonrpc" with
  | none => .error "Missing 'jsonrpc' member"
  | some (.str version) => if version = "2.0" then .ok () else .error error
  | some _ => .error error

/-- `isinstance(id, None | int | str)`; a boolean is an integer. -/
def checkId (message : JsonObject) : Except String (Option JsonValue) :=
  match message.lookup "id" with
  | none => .ok none
  | some .null => .ok (some .null)
  | some (.bool value) => .ok (some (.bool value))
  | some (.int value) => .ok (some (.int value))
  | some (.str value) => .ok (some (.str value))
  | some (.float _) | some (.list _) | some (.dict _) | some (.extended _ _) =>
    .error "'id' member must be of type null, string or number"

def checkMethod (message : JsonObject) : Except String String :=
  let error := "'method' member must be of type string"
  match message.lookup "method" with
  | none => .error "Missing 'method' member"
  | some (.str name) => if name = "" then .error error else .ok name
  | some _ => .error error

def checkParams (message : JsonObject) : Except String (List JsonValue) :=
  match message.lookup "params" with
  | none => .ok []
  | some (.list params) => .ok params
  | some _ => .error "'params' member must be of type array"

end RpcRequest

def validateMessage (message : JsonObject) : Except String RpcRequest := do
  RpcRequest.checkJsonrpc message
  let id ← RpcRequest.checkId message
  let method ← RpcRequest.checkMethod message
  let params ← RpcRequest.checkParams message
  return { id, method, params }

theorem RpcRequest.checkId_eq {message : JsonObject} {id : Option JsonValue}
    (hcheck : RpcRequest.checkId message = .ok id) :
    id = message.lookup "id" := by
  unfold RpcRequest.checkId at hcheck
  cases hlookup : message.lookup "id" with
  | none =>
    rw [hlookup] at hcheck
    exact (Except.ok.inj hcheck).symm
  | some value =>
    rw [hlookup] at hcheck
    cases value with
    | null | bool _ | int _ | str _ => exact (Except.ok.inj hcheck).symm
    | float _ | list _ | dict _ | extended _ _ => cases hcheck

theorem validateMessage_id {message : JsonObject} {request : RpcRequest}
    (hvalid : validateMessage message = .ok request) :
    request.id = message.lookup "id" := by
  obtain ⟨_, _, hvalid⟩ := bind_eq_ok_iff.mp hvalid
  obtain ⟨id, hid, hvalid⟩ := bind_eq_ok_iff.mp hvalid
  obtain ⟨_, _, hvalid⟩ := bind_eq_ok_iff.mp hvalid
  obtain ⟨_, _, hvalid⟩ := bind_eq_ok_iff.mp hvalid
  cases hvalid
  exact RpcRequest.checkId_eq hid

end Middlewared
