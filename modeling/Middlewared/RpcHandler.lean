import Middlewared.RpcMessage
import Middlewared.TransitionSystem

/-!
# The JSON-RPC connection

`RpcWebSocketHandler.process` reads one message after another, and each method call it accepts
runs as a task of its own behind the semaphore of the connection.
-/

namespace Middlewared

inductive JsonRpcError where
  | invalidJson
  | invalidRequest
  | methodNotFound
  | invalidParams
  | truenasTooManyConcurrentCalls
  | truenasCallError

/-- A value with what `json.dumps` writes for it, if it can. -/
abbrev Encoding := Option JsonValue

/-- `truenas_error_traceback`. -/
structure ErrorTraceback where
  className : String
  frames : List JsonValue
  (formatted repr : String)

/-- `format_truenas_error`. -/
structure TruenasError where
  error : ℤ
  (errname reason : String)
  trace : ErrorTraceback
  extra : Encoding
  pyException : Option String

inductive Response where
  | error (id : JsonValue) (code : JsonRpcError) (message : String) (data : Option TruenasError)
  | result (id : JsonValue) (result : JsonValue)

namespace Response

def id : Response → JsonValue
  | .error id _ _ _ => id
  | .result id _ => id

/-- `json.dumps` succeeds. -/
def encodable : Response → Bool
  | .error _ _ _ (some data) => data.extra.isSome
  | .error _ _ _ none | .result _ _ => true

end Response

/-! ## What a method call ends with -/

/-- The classes that the `except` clauses tell apart. -/
inductive ExceptionClass where
  | softHardSemaphoreLimit (limit : ℕ)
  | validationError (attr errmsg : Encoding) (errno : ℤ)
  | validationErrors (errors : List (Encoding × Encoding × ℤ))
  | callException (attributes : Option (ℤ × Encoding))
  | calledProcessError (adapted : Option String)
  | other

/-- An exception, with `str`, `repr` and `pickle.dumps` of it where they
return. -/
structure PyException where
  cls : ExceptionClass
  className : String
  frames : List JsonValue
  formatted : String
  (str repr pickle : Option String)

inductive CallOutcome where
  | returned (result : JsonValue)
  | raised (exception : PyException)

namespace PyException

variable (getErrname : ℤ → String) (pyExceptions : Bool)
  (exception : PyException)

/-- The member `py_exception`, which is there with `py_exceptions` only. -/
def pickled : Option (Option String) :=
  if pyExceptions then exception.pickle.map some else some none

/-- `str(error) or repr(error)`. -/
def strOrRepr : Option String :=
  exception.str.bind fun text =>
    if text = "" then exception.repr else some text

/-- `format_truenas_error` under `sys.exc_info()`; nothing when it raises. -/
def formatTruenasError (errno : ℤ) (reason : String) (extra : Encoding) :
    Option TruenasError := do
  let repr ← exception.repr
  let pyException ← exception.pickled pyExceptions
  return {
    error := errno
    errname := getErrname errno
    reason
    trace := {
      className := exception.className
      frames := exception.frames
      formatted := exception.formatted
      repr }
    extra
    pyException }

/-- `(attribute, errmsg, errno)`. -/
def validationItem (error : Encoding × Encoding × ℤ) : Encoding := do
  let attr ← error.1
  let errmsg ← error.2.1
  return .list [attr, errmsg, .int error.2.2]

def validationExtra (errors : List (Encoding × Encoding × ℤ)) : Encoding :=
  (errors.mapM validationItem).map .list

def einval : ℤ := 22

def efault : ℤ := 14

def sendTruenasValidationError (id : JsonValue)
    (errors : List (Encoding × Encoding × ℤ)) : Option Response := do
  let reason ← exception.str
  let data ← exception.formatTruenasError getErrname pyExceptions einval reason
    (validationExtra errors)
  return .error id .invalidParams "Invalid params" (some data)

def sendTruenasCallError (id : JsonValue) (errno : ℤ) (reason : String)
    (extra : Encoding) : Option Response := do
  let data ← exception.formatTruenasError getErrname pyExceptions errno reason
    extra
  return .error id .truenasCallError "Method call error" (some data)

/-- The `except` clauses of `process_method_call`, for a request with an id;
nothing when the clause raises itself. -/
def response (id : JsonValue) : Option Response :=
  match exception.cls with
  | .softHardSemaphoreLimit limit =>
    some (.error id .truenasTooManyConcurrentCalls
      ("Maximum number of concurrent calls (" ++ toString limit ++ ") has exceeded") none)
  | .validationError attr errmsg errno =>
    exception.sendTruenasValidationError getErrname pyExceptions id [(attr, errmsg, errno)]
  | .validationErrors errors =>
    exception.sendTruenasValidationError getErrname pyExceptions id errors
  | .callException attributes => do
    let (errno, extra) ← attributes
    let reason ← exception.str
    exception.sendTruenasCallError getErrname pyExceptions id errno reason extra
  | .calledProcessError adapted => do
    let reason ← adapted
    exception.sendTruenasCallError getErrname pyExceptions id efault reason (some .null)
  | .other => do
    let reason ← exception.strOrRepr
    exception.sendTruenasCallError getErrname pyExceptions id einval reason (some .null)

/-- The traceback of the exception can be put together, and with
`py_exceptions` the exception can be pickled. -/
def Traceable : Prop :=
  exception.repr ≠ none ∧ (pyExceptions = true → exception.pickle ≠ none)

def Reportable : Prop :=
  match exception.cls with
  | .softHardSemaphoreLimit _ => True
  | .validationError attr errmsg _ =>
    exception.str ≠ none ∧ exception.Traceable pyExceptions ∧ attr ≠ none ∧ errmsg ≠ none
  | .validationErrors errors =>
    exception.str ≠ none ∧ exception.Traceable pyExceptions ∧
      ∀ error ∈ errors, error.1 ≠ none ∧ error.2.1 ≠ none
  | .callException attributes =>
    exception.str ≠ none ∧ exception.Traceable pyExceptions ∧
      ∃ errno extra, attributes = some (errno, some extra)
  | .calledProcessError adapted =>
    adapted ≠ none ∧ exception.Traceable pyExceptions
  | .other => exception.str ≠ none ∧ exception.Traceable pyExceptions

end PyException

def CallOutcome.response (getErrname : ℤ → String) (pyExceptions : Bool)
    (id : JsonValue) : CallOutcome → Option Response
  | .returned result => some (.result id result)
  | .raised exception => exception.response getErrname pyExceptions id

def CallOutcome.Reportable (pyExceptions : Bool) : CallOutcome → Prop
  | .returned _ => True
  | .raised exception => exception.Reportable pyExceptions

/-! ## The connection -/

structure RpcWebSocketHandler where
  loads : Loads
  getErrname : ℤ → String
  methods : List String

inductive WsMessage where
  | text (data : String)
  | error
  | unsupported (type : String)

inductive LoopEnd where
  | broken
  | closed (code : WsCloseCode) (message : String)
  /-- An exception that `process` does not catch. -/
  | raised

/-- `RpcWebSocketApp` with the tasks of its calls.  A call goes by the number
of the frame it came in; `sent` says for each response which frame is being
answered. -/
structure RpcConnection where
  ended : Option LoopEnd
  received : List String
  calls : ℕ → Option RpcRequest
  (scheduled waiting running : Finset ℕ)
  counter : ℕ
  softsemaphore : ℕ
  sent : List (ℕ × Response)

namespace RpcConnection

def softlimit : ℕ := 10

def hardlimit : ℕ := 20

def init : RpcConnection where
  ended := none
  received := []
  calls := fun _ => none
  scheduled := ∅
  waiting := ∅
  running := ∅
  counter := 0
  softsemaphore := softlimit
  sent := []

/-- `app.send`; nothing is sent when `json.dumps` raises. -/
def send (s : RpcConnection) (frame : ℕ) (response : Response) :
    RpcConnection :=
  if response.encodable then
    { s with sent := s.sent ++ [(frame, response)] }
  else s

def close (s : RpcConnection) (code : WsCloseCode) (message : String) :
    RpcConnection :=
  { s with ended := some (.closed code message) }

variable (h : RpcWebSocketHandler)

def processMessage (s : RpcConnection) (frame : ℕ) (message : JsonObject) :
    RpcConnection :=
  match validateMessage message with
  | .error error =>
    match message.lookup "id" with
    | some id => s.send frame (.error id .invalidRequest error none)
    | none => s
  | .ok request =>
    if request.method ∈ h.methods then
      { s with
        calls := Function.update s.calls frame (some request)
        scheduled := insert frame s.scheduled }
    else
      match request.id with
      | some id =>
        s.send frame (.error id .methodNotFound "Method does not exist" none)
      | none => s

/-- One turn of the loop of `process` for a text frame.  What a callback of
the message raises is logged and no more. -/
def processText (s : RpcConnection) (authenticated : Bool) (data : String) :
    RpcConnection :=
  let frame := s.received.length
  let s := { s with received := s.received ++ [data] }
  match parseMessage h.loads authenticated data with
  | .error (.msgSizeError error) => s.close error.wsCloseCode error.wsErrmsg
  | .error (.valueError message) =>
    s.send frame (.error .null .invalidJson message none)
  | .error .typeError | .error .loads => { s with ended := some .raised }
  | .ok message => s.processMessage h frame message

def process (s : RpcConnection) (authenticated : Bool) :
    WsMessage → RpcConnection
  | .text data => s.processText h authenticated data
  | .error => { s with ended := some .broken }
  | .unsupported type =>
    s.close .unsupportedData ("Invalid websocket message type: " ++ type)

/-- The end of `process_method_call`: a response for a request with an id. -/
def respond (s : RpcConnection) (frame : ℕ) (pyExceptions : Bool)
    (outcome : CallOutcome) : RpcConnection :=
  match (s.calls frame).bind RpcRequest.id with
  | none => s
  | some id =>
    match outcome.response h.getErrname pyExceptions id with
    | none => s
    | some response => s.send frame response

def tooManyCalls : PyException where
  cls := .softHardSemaphoreLimit hardlimit
  className := "SoftHardSemaphoreLimit"
  frames := []
  formatted := ""
  str := some (toString hardlimit)
  repr := none
  pickle := none

/-- The task of a call starts: `SoftHardSemaphore.__aenter__`. -/
def startCall (s : RpcConnection) (frame : ℕ) : RpcConnection :=
  let s := { s with scheduled := s.scheduled.erase frame }
  if s.counter ≥ hardlimit then
    s.respond h frame false (.raised tooManyCalls)
  else if s.softsemaphore = 0 ∨ s.waiting.Nonempty then
    { s with counter := s.counter + 1, waiting := insert frame s.waiting }
  else
    { s with
      counter := s.counter + 1
      softsemaphore := s.softsemaphore - 1
      running := insert frame s.running }

/-- A waiting call acquires `softsemaphore`. -/
def wakeCall (s : RpcConnection) (frame : ℕ) : RpcConnection :=
  { s with
    waiting := s.waiting.erase frame
    softsemaphore := s.softsemaphore - 1
    running := insert frame s.running }

/-- `method.call` ends: `__aexit__`, then the answer. -/
def finishCall (s : RpcConnection) (frame : ℕ) (pyExceptions : Bool)
    (outcome : CallOutcome) : RpcConnection :=
  { s with
    running := s.running.erase frame
    counter := s.counter - 1
    softsemaphore := s.softsemaphore + 1 }.respond h frame pyExceptions outcome

inductive Action where
  | receive (authenticated : Bool) (message : WsMessage)
  | start (frame : ℕ)
  | wake (frame : ℕ)
  | finish (frame : ℕ) (pyExceptions : Bool) (outcome : CallOutcome)

def Action.isReceive : Action → Bool
  | .receive _ _ => true
  | .start _ | .wake _ | .finish _ _ _ => false

def step (s : RpcConnection) : Action → Option RpcConnection
  | .receive authenticated message =>
    if s.ended.isNone then some (s.process h authenticated message) else none
  | .start frame =>
    if frame ∈ s.scheduled then some (s.startCall h frame) else none
  | .wake frame =>
    if frame ∈ s.waiting ∧ 0 < s.softsemaphore then some (s.wakeCall frame)
    else none
  | .finish frame pyExceptions outcome =>
    if frame ∈ s.running then
      some (s.finishCall h frame pyExceptions outcome)
    else none

end RpcConnection

end Middlewared
