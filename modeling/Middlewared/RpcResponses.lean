import Middlewared.RpcHandler

/-!
# One response for each request

A frame is settled in the turn of the loop that reads it, or it starts a call that is in progress
until its task ends.
-/

namespace Middlewared

/-! ## Reporting an exception -/

namespace PyException

variable {getErrname : ℤ → String} {pyExceptions : Bool}
  {exception : PyException} {id : JsonValue}

theorem pickled_ne_none_iff : exception.pickled pyExceptions ≠ none ↔
    (pyExceptions = true → exception.pickle ≠ none) := by
  cases pyExceptions <;> simp [pickled]

theorem exists_formatTruenasError_iff {errno : ℤ} {reason : String} {extra : Encoding} :
    (∃ data, exception.formatTruenasError getErrname pyExceptions errno reason
        extra = some data ∧ data.extra.isSome = true) ↔
      exception.Traceable pyExceptions ∧ extra ≠ none := by
  unfold Traceable
  rw [← pickled_ne_none_iff]
  cases hrepr : exception.repr with
  | none => simp [formatTruenasError, hrepr]
  | some repr =>
    cases hpickle : exception.pickled pyExceptions with
    | none => simp [formatTruenasError, hrepr, hpickle]
    | some pickle =>
      simp [formatTruenasError, hrepr, hpickle, Option.isSome_iff_ne_none]

theorem validationItem_ne_none_iff {error : Encoding × Encoding × ℤ} :
    validationItem error ≠ none ↔ error.1 ≠ none ∧ error.2.1 ≠ none := by
  obtain ⟨attr, errmsg, errno⟩ := error
  cases attr <;> cases errmsg <;> simp [validationItem]

theorem validationExtra_ne_none_iff {errors : List (Encoding × Encoding × ℤ)} :
    validationExtra errors ≠ none ↔ ∀ error ∈ errors, error.1 ≠ none ∧ error.2.1 ≠ none := by
  unfold validationExtra
  induction errors with
  | nil => simp
  | cons error rest ih =>
    rw [List.forall_mem_cons, ← ih, ← validationItem_ne_none_iff, List.mapM_cons]
    cases validationItem error with
    | none => simp
    | some item => cases List.mapM validationItem rest <;> simp

def Sendable (id : JsonValue) (response : Option Response) : Prop :=
  ∃ sent, response = some sent ∧ sent.encodable = true ∧ sent.id = id

theorem sendable_error_iff {code : JsonRpcError} {message : String} {data : Option TruenasError} :
    Sendable id (data.bind fun data =>
        some (.error id code message (some data))) ↔
      ∃ sent, data = some sent ∧ sent.extra.isSome = true := by
  cases data <;> simp [Sendable, Response.encodable, Response.id]

theorem sendable_validationError_iff {errors : List (Encoding × Encoding × ℤ)} :
    Sendable id (exception.sendTruenasValidationError getErrname pyExceptions id errors) ↔
      exception.str ≠ none ∧ exception.Traceable pyExceptions ∧
        ∀ error ∈ errors, error.1 ≠ none ∧ error.2.1 ≠ none := by
  unfold sendTruenasValidationError
  cases hstr : exception.str with
  | none => simp [Sendable]
  | some reason =>
    rw [← validationExtra_ne_none_iff]
    rw [← exists_formatTruenasError_iff]
    simpa using sendable_error_iff

theorem sendable_callError_iff {errno : ℤ} {reason : String} {extra : Encoding} :
    Sendable id (exception.sendTruenasCallError getErrname pyExceptions id errno reason extra) ↔
      exception.Traceable pyExceptions ∧ extra ≠ none :=
  sendable_error_iff.trans exists_formatTruenasError_iff

theorem strOrRepr_ne_none (hstr : exception.str ≠ none)
    (hrepr : exception.repr ≠ none) : exception.strOrRepr ≠ none := by
  obtain ⟨text, htext⟩ := Option.ne_none_iff_exists'.mp hstr
  simp only [strOrRepr, htext, Option.bind_some]
  split
  · exact hrepr
  · simp

theorem sendable_response_iff : Sendable id (exception.response getErrname pyExceptions id) ↔
    exception.Reportable pyExceptions := by
  unfold response Reportable
  cases exception.cls with
  | softHardSemaphoreLimit limit => simp [Sendable, Response.encodable, Response.id]
  | validationError attr errmsg errno =>
    rw [sendable_validationError_iff]
    simp
  | validationErrors errors => exact sendable_validationError_iff
  | callException attributes =>
    cases attributes with
    | none => simp [Sendable]
    | some attributes =>
      cases hstr : exception.str with
      | none => simp [Sendable]
      | some reason =>
        simp only [Option.bind_eq_bind, Option.bind_some, sendable_callError_iff]
        cases hextra : attributes.2 with
        | none => simp [Prod.ext_iff, hextra]
        | some extra => simp [Prod.ext_iff, hextra]
  | calledProcessError adapted =>
    cases adapted with
    | none => simp [Sendable]
    | some reason => simp [sendable_callError_iff]
  | other =>
    cases hreason : exception.strOrRepr with
    | none =>
      have hneither : ¬ (exception.str ≠ none ∧ exception.Traceable pyExceptions) := by
        rintro ⟨hstr, hrepr, _⟩
        exact strOrRepr_ne_none hstr hrepr hreason
      simp only [hneither, iff_false]
      simp [Sendable]
    | some reason =>
      have hstr : exception.str ≠ none := by
        intro hnone
        simp [strOrRepr, hnone] at hreason
      simp [sendable_callError_iff, hstr]

end PyException

open PyException (Sendable)

theorem CallOutcome.sendable_response_iff {getErrname : ℤ → String}
    {pyExceptions : Bool} {id : JsonValue} {outcome : CallOutcome} :
    Sendable id (outcome.response getErrname pyExceptions id) ↔
      outcome.Reportable pyExceptions := by
  cases outcome with
  | returned result =>
    simp [CallOutcome.response, CallOutcome.Reportable, Sendable, Response.encodable, Response.id]
  | raised exception => exact PyException.sendable_response_iff

namespace RpcConnection

open TransitionSystem

def Replies (id : Option JsonValue) (responses : List Response) : Prop :=
  match id with
  | some id => ∃ response, responses = [response] ∧ response.id = id
  | none => responses = []

/-- The responses to a frame: what is no object gets one error. -/
def Answers (loads : Loads) (data : String) (responses : List Response) :
    Prop :=
  match loads data with
  | .ok (.dict message) => Replies (message.lookup "id") responses
  | .ok _ | .error _ =>
    ∃ code message data, responses = [.error .null code message data]

section

variable (h : RpcWebSocketHandler) (s : RpcConnection)

def responses (frame : ℕ) : List Response :=
  (s.sent.filter fun entry => entry.1 = frame).map Prod.snd

def inProgress : Finset ℕ := s.scheduled ∪ s.waiting ∪ s.running

/-- The loop goes on and every frame got what it is owed, except that a call
in progress is still to be answered. -/
structure Serves : Prop where
  serving : s.ended = none
  answered : ∀ frame data, s.received[frame]? = some data →
    frame ∉ s.inProgress → Answers h.loads data (s.responses frame)
  awaited : ∀ frame ∈ s.inProgress, s.responses frame = []

def work : ℕ :=
  3 * s.scheduled.card + 2 * s.waiting.card + s.running.card

/-- Each call in progress comes to its end: one of them can go on, and only so
many steps are left without a new frame. -/
structure Settles : Prop where
  advances : s.inProgress.Nonempty →
    ∃ action next, action.isReceive = false ∧ s.step h action = some next
  bounded : ∀ actions next, (∀ action ∈ actions, action.isReceive = false) →
    run (step h) s actions = some next → actions.length ≤ s.work

/-- The condition on a frame and on what a method call ends with. -/
def Answerable : Action → Prop
  | .receive _ (.text data) => Decodes h.loads data
  | .finish frame pyExceptions outcome =>
    (s.calls frame).bind RpcRequest.id ≠ none → outcome.Reportable pyExceptions
  | .receive _ .error | .receive _ (.unsupported _) | .start _ | .wake _ =>
    True

end

def Action.FitsLimits (h : RpcWebSocketHandler) : Action → Prop
  | .receive authenticated (.text data) =>
    WithinLimits h.loads authenticated data
  | .receive _ .error | .receive _ (.unsupported _) => False
  | .start _ | .wake _ | .finish _ _ _ => True

section

variable {h : RpcWebSocketHandler} {s : RpcConnection} {frame : ℕ}

def log (s : RpcConnection) (frame : ℕ) (responses : List Response) :
    RpcConnection :=
  { s with sent := s.sent ++ responses.map fun response => (frame, response) }

theorem responses_of_sent {next : RpcConnection} {answer : List Response}
    (hsent : next.sent = (s.log frame answer).sent) (other : ℕ) :
    next.responses other = if other = frame then s.responses other ++ answer
      else s.responses other := by
  unfold responses
  rw [hsent, log, List.filter_append, List.map_append, List.filter_map]
  by_cases hother : other = frame
  · simp [hother, Function.comp_def]
  · have hne : frame ≠ other := Ne.symm hother
    simp [hother, hne, Function.comp_def]

theorem send_eq {response : Response} : s.send frame response =
    s.log frame (if response.encodable then [response] else []) := by
  unfold send log
  split <;> simp

/-- What `respond` sends. -/
def reply (h : RpcWebSocketHandler) (id : Option JsonValue)
    (pyExceptions : Bool) (outcome : CallOutcome) : List Response :=
  match id with
  | none => []
  | some id =>
    match outcome.response h.getErrname pyExceptions id with
    | none => []
    | some response => if response.encodable then [response] else []

theorem respond_eq {pyExceptions : Bool} {outcome : CallOutcome} :
    s.respond h frame pyExceptions outcome =
      s.log frame (reply h ((s.calls frame).bind RpcRequest.id) pyExceptions outcome) := by
  unfold respond reply
  cases (s.calls frame).bind RpcRequest.id with
  | none => simp [log]
  | some id =>
    simp only
    cases outcome.response h.getErrname pyExceptions id with
    | none => simp [log]
    | some response => exact send_eq

theorem replies_reply_iff {id : Option JsonValue} {pyExceptions : Bool} {outcome : CallOutcome} :
    Replies id (reply h id pyExceptions outcome) ↔
      (id ≠ none → outcome.Reportable pyExceptions) := by
  cases id with
  | none => simp [Replies, reply]
  | some id =>
    rw [← @CallOutcome.sendable_response_iff h.getErrname pyExceptions id]
    simp only [Replies, reply, Sendable]
    cases outcome.response h.getErrname pyExceptions id with
    | none => simp
    | some response => cases hencodable : response.encodable <;> simp [hencodable]

end

/-! ## A turn of the loop -/

section

variable {h : RpcWebSocketHandler} {s next : RpcConnection} {data : String}

inductive Turn (h : RpcWebSocketHandler) (s : RpcConnection) (data : String)
    (next : RpcConnection) : Prop
  | settled (answer : List Response) (hdecodes : Decodes h.loads data)
      (hanswers : Answers h.loads data answer)
      (hnext : next = { s with received := s.received ++ [data] }.log s.received.length answer)
  | accepted (message : JsonObject) (request : RpcRequest) (hdecodes : Decodes h.loads data)
      (hloads : h.loads data = .ok (.dict message))
      (hid : request.id = message.lookup "id")
      (hnext : next = { s with
        received := s.received ++ [data]
        calls := Function.update s.calls s.received.length (some request)
        scheduled := insert s.received.length s.scheduled })
  | raised (hdecodes : ¬ Decodes h.loads data) (hnext : next = { s with
        received := s.received ++ [data]
        ended := some .raised })

theorem turn_processMessage {message : JsonObject} (hdecodes : Decodes h.loads data)
    (hloads : h.loads data = .ok (.dict message)) :
    Turn h s data (({ s with received := s.received ++ [data] } : RpcConnection)
        |>.processMessage h s.received.length message) := by
  have hanswers : ∀ answer, Replies (message.lookup "id") answer → Answers h.loads data answer := by
    simp [Answers, hloads]
  unfold processMessage
  cases hvalid : validateMessage message with
  | error error =>
    cases hid : message.lookup "id" with
    | none =>
      refine .settled [] hdecodes (hanswers [] ?_) (by simp [log])
      simp [Replies, hid]
    | some id =>
      refine .settled [.error id .invalidRequest error none] hdecodes
        (hanswers _ ?_) (by simp [send_eq, Response.encodable])
      simp [Replies, hid, Response.id]
  | ok request =>
    have hid := validateMessage_id hvalid
    simp only
    split
    · exact .accepted message request hdecodes hloads hid rfl
    · cases hrequest : request.id with
      | none =>
        refine .settled [] hdecodes (hanswers [] ?_) (by simp [log])
        simp [Replies, ← hid, hrequest]
      | some id =>
        refine .settled [.error id .methodNotFound "Method does not exist" none] hdecodes
          (hanswers _ ?_) (by simp [send_eq, Response.encodable])
        simp [Replies, ← hid, hrequest, Response.id]

theorem turn_processText {authenticated : Bool}
    (hlimits : WithinLimits h.loads authenticated data) :
    Turn h s data (s.processText h authenticated data) := by
  have hinvalid : ∀ message, Decodes h.loads data → (∀ object, h.loads data ≠ .ok (.dict object)) →
      Turn h s data (({ s with received := s.received ++ [data] } :
        RpcConnection).send s.received.length (.error .null .invalidJson message none)) := by
    intro message hdecodes hobject
    refine .settled [.error .null .invalidJson message none] hdecodes ?_
      (by simp [send_eq, Response.encodable])
    unfold Answers
    split
    · exact absurd ‹_› (hobject _)
    · exact ⟨_, _, _, rfl⟩
    · exact ⟨_, _, _, rfl⟩
  have hdecodes : h.loads data ≠ .error .other → (∀ object, h.loads data ≠ .ok (.dict object)) →
      Decodes h.loads data :=
    fun hother hobject => ⟨hother, fun object hloads =>
      absurd hloads (hobject object)⟩
  unfold processText
  rw [parseMessage_of_withinLimits hlimits]
  cases hloads : h.loads data with
  | error error =>
    cases error with
    | valueError message =>
      exact hinvalid message (hdecodes (by simp [hloads]) (by simp [hloads])) (by simp [hloads])
    | other =>
      refine .raised ?_ rfl
      rintro ⟨hother, _⟩
      exact hother hloads
  | ok value =>
    cases value with
    | dict message =>
      simp only
      split_ifs with hnone
      · refine .raised ?_ rfl
        rw [decodes_dict_iff hloads]
        exact fun hne => hne hnone
      · exact turn_processMessage ((decodes_dict_iff hloads).mpr hnone) hloads
    | null | bool _ | int _ | float _ | str _ | list _ | extended _ _ =>
      exact hinvalid _ (hdecodes (by simp [hloads]) (by simp [hloads])) (by simp [hloads])

end

/-! ## The tasks of the calls -/

section

variable {h : RpcWebSocketHandler} {s next : RpcConnection} {action : Action}

structure Tasks (s : RpcConnection) : Prop where
  scheduled : ∀ frame ∈ s.scheduled, frame ∉ s.waiting ∧ frame ∉ s.running
  waiting : ∀ frame ∈ s.waiting, frame ∉ s.running
  permits : s.softsemaphore + s.running.card = softlimit

variable {frame : ℕ}

theorem mem_inProgress : frame ∈ s.inProgress ↔
    frame ∈ s.scheduled ∨ frame ∈ s.waiting ∨ frame ∈ s.running := by
  simp [inProgress]

/-- What a step of a task does: it stays in progress without a word, or it
ends with its answer, if it has one to give. -/
structure CallMove (h : RpcWebSocketHandler) (s : RpcConnection)
    (action : Action) (next : RpcConnection) : Prop where
  ended : next.ended = s.ended
  received : next.received = s.received
  calls : next.calls = s.calls
  work : next.work < s.work
  answer : (next.inProgress = s.inProgress ∧ next.sent = s.sent ∧ s.Answerable h action) ∨
      ∃ frame answer, frame ∈ s.inProgress ∧ next.inProgress = s.inProgress.erase frame ∧
        next.sent = (s.log frame answer).sent ∧
        (Replies ((s.calls frame).bind RpcRequest.id) answer ↔ s.Answerable h action)

theorem callMove_start (htasks : s.Tasks) (hframe : frame ∈ s.scheduled) :
    CallMove h s (.start frame) (s.startCall h frame) ∧ (s.startCall h frame).Tasks := by
  obtain ⟨hwaiting, hrunning⟩ := htasks.scheduled frame hframe
  have hcard := Finset.card_erase_add_one hframe
  have hpermits := htasks.permits
  have hkept : ∀ other ∈ s.scheduled.erase frame,
      other ≠ frame ∧ other ∉ s.waiting ∧ other ∉ s.running := by
    intro other hother
    obtain ⟨hne, hmem⟩ := Finset.mem_erase.mp hother
    exact ⟨hne, htasks.scheduled other hmem⟩
  unfold startCall
  simp only
  split_ifs with hmany hlocked
  · -- refused: the answer is the limit, which can always be reported
    rw [respond_eq]
    refine ⟨⟨rfl, rfl, rfl, ?_, ?_⟩, ?_⟩
    · simp only [work, log]
      omega
    · refine .inr ⟨frame, _, mem_inProgress.mpr (.inl hframe), ?_, rfl, ?_⟩
      · ext other
        simp only [Finset.mem_erase, mem_inProgress, log]
        by_cases hother : other = frame
        · subst other
          simp [hwaiting, hrunning]
        · simp [hother]
      · rw [replies_reply_iff]
        simp [Answerable, CallOutcome.Reportable, PyException.Reportable, tooManyCalls]
    · exact ⟨fun other hother => (hkept other hother).2, htasks.waiting, hpermits⟩
  · refine ⟨⟨rfl, rfl, rfl, ?_, .inl ⟨?_, rfl, trivial⟩⟩, ?_⟩
    · simp only [work, Finset.card_insert_of_notMem hwaiting]
      omega
    · ext other
      simp only [mem_inProgress, Finset.mem_erase, Finset.mem_insert]
      by_cases hother : other = frame
      · simp [hother, hframe]
      · simp [hother]
    · refine ⟨?_, ?_, hpermits⟩
      · intro other hother
        obtain ⟨hne, hother⟩ := hkept other hother
        simpa [hne] using hother
      · intro other hother
        rcases Finset.mem_insert.mp hother with rfl | hother
        · exact hrunning
        · exact htasks.waiting other hother
  · refine ⟨⟨rfl, rfl, rfl, ?_, .inl ⟨?_, rfl, trivial⟩⟩, ?_⟩
    · simp only [work, Finset.card_insert_of_notMem hrunning]
      omega
    · ext other
      simp only [mem_inProgress, Finset.mem_erase, Finset.mem_insert]
      by_cases hother : other = frame
      · simp [hother, hframe]
      · simp [hother]
    · refine ⟨?_, ?_, ?_⟩
      · intro other hother
        obtain ⟨hne, hother⟩ := hkept other hother
        simpa [hne] using hother
      · intro other hother
        simp only [Finset.mem_insert, not_or]
        refine ⟨?_, htasks.waiting other hother⟩
        rintro rfl
        exact hwaiting hother
      · simp only [Finset.card_insert_of_notMem hrunning]
        omega

theorem callMove_wake (htasks : s.Tasks) (hframe : frame ∈ s.waiting)
    (hfree : 0 < s.softsemaphore) :
    CallMove h s (.wake frame) (s.wakeCall frame) ∧ (s.wakeCall frame).Tasks := by
  have hrunning := htasks.waiting frame hframe
  have hcard := Finset.card_erase_add_one hframe
  have hpermits := htasks.permits
  unfold wakeCall
  refine ⟨⟨rfl, rfl, rfl, ?_, .inl ⟨?_, rfl, trivial⟩⟩, ?_⟩
  · simp only [work, Finset.card_insert_of_notMem hrunning]
    omega
  · ext other
    simp only [mem_inProgress, Finset.mem_erase, Finset.mem_insert]
    by_cases hother : other = frame
    · simp [hother, hframe]
    · simp [hother]
  · refine ⟨?_, ?_, ?_⟩
    · intro other hother
      obtain ⟨hwaiting, hnot⟩ := htasks.scheduled other hother
      have hne : other ≠ frame := by
        rintro rfl
        exact hwaiting hframe
      simp [hne, hwaiting, hnot]
    · intro other hother
      obtain ⟨hne, hother⟩ := Finset.mem_erase.mp hother
      simp [hne, htasks.waiting other hother]
    · simp only [Finset.card_insert_of_notMem hrunning]
      omega

theorem callMove_finish {pyExceptions : Bool} {outcome : CallOutcome}
    (htasks : s.Tasks) (hframe : frame ∈ s.running) :
    CallMove h s (.finish frame pyExceptions outcome) (s.finishCall h frame pyExceptions outcome) ∧
      (s.finishCall h frame pyExceptions outcome).Tasks := by
  have hcard := Finset.card_erase_add_one hframe
  have hpermits := htasks.permits
  have hscheduled : frame ∉ s.scheduled := fun hmem => (htasks.scheduled frame hmem).2 hframe
  have hwaiting : frame ∉ s.waiting := fun hmem => htasks.waiting frame hmem hframe
  unfold finishCall
  rw [respond_eq]
  refine ⟨⟨rfl, rfl, rfl, ?_, ?_⟩, ?_⟩
  · simp only [work, log]
    omega
  · refine .inr ⟨frame, _, mem_inProgress.mpr (.inr (.inr hframe)), ?_, rfl, ?_⟩
    · ext other
      simp only [Finset.mem_erase, mem_inProgress, log]
      by_cases hother : other = frame
      · subst other
        simp [hscheduled, hwaiting]
      · simp [hother]
    · exact replies_reply_iff
  · refine ⟨?_, ?_, ?_⟩
    · intro other hother
      obtain ⟨hnotWaiting, hnotRunning⟩ := htasks.scheduled other hother
      exact ⟨hnotWaiting, fun hmem => hnotRunning (Finset.mem_of_mem_erase hmem)⟩
    · intro other hother hmem
      exact htasks.waiting other hother (Finset.mem_of_mem_erase hmem)
    · simp only [log]
      omega

theorem callMove_of_step (htasks : s.Tasks) (haction : action.isReceive = false)
    (hstep : s.step h action = some next) :
    CallMove h s action next ∧ next.Tasks := by
  unfold step at hstep
  cases action with
  | receive authenticated message => cases haction
  | start frame =>
    obtain ⟨hframe, rfl⟩ := Option.ite_some_none_eq_some.mp hstep
    exact callMove_start htasks hframe
  | wake frame =>
    obtain ⟨⟨hframe, hfree⟩, rfl⟩ := Option.ite_some_none_eq_some.mp hstep
    exact callMove_wake htasks hframe hfree
  | finish frame pyExceptions outcome =>
    obtain ⟨hframe, rfl⟩ := Option.ite_some_none_eq_some.mp hstep
    exact callMove_finish htasks hframe

theorem Tasks.settles (htasks : s.Tasks) : Settles h s where
  advances := by
    rintro ⟨frame, hframe⟩
    rcases mem_inProgress.mp hframe with hscheduled | hwaiting | hrunning
    · exact ⟨.start frame, _, rfl, if_pos hscheduled⟩
    · by_cases hfree : 0 < s.softsemaphore
      · exact ⟨.wake frame, _, rfl, if_pos ⟨hwaiting, hfree⟩⟩
      · -- all permits are with calls that are running
        have hpermits := htasks.permits
        have hcard : 0 < s.running.card := by
          unfold softlimit at hpermits
          omega
        obtain ⟨other, hother⟩ := Finset.card_pos.mp hcard
        exact ⟨.finish other false (.returned .null), _, rfl, if_pos hother⟩
    · exact ⟨.finish frame false (.returned .null), _, rfl, if_pos hrunning⟩
  bounded := by
    intro actions
    induction actions generalizing s with
    | nil => intro next _ _; exact Nat.zero_le _
    | cons action rest ih =>
      intro last hactions hrun
      obtain ⟨next, hstep, hrest⟩ := run_cons_eq_some_iff.mp hrun
      obtain ⟨hmove, htasks⟩ := callMove_of_step htasks (hactions action List.mem_cons_self) hstep
      have hlater := ih htasks last
        (fun other hother => hactions other (List.mem_cons_of_mem _ hother))
        hrest
      have hless := hmove.work
      rw [List.length_cons]
      omega

end

/-! ## Every step -/

section

variable {h : RpcWebSocketHandler} {s next : RpcConnection} {action : Action}

structure Valid (h : RpcWebSocketHandler) (s : RpcConnection) : Prop where
  tasks : s.Tasks
  known : ∀ frame ∈ s.inProgress, ∃ data message,
    s.received[frame]? = some data ∧ h.loads data = .ok (.dict message) ∧
      (s.calls frame).bind RpcRequest.id = message.lookup "id"
  awaited : ∀ frame ∈ s.inProgress, s.responses frame = []
  fresh : ∀ frame, s.received.length ≤ frame → s.responses frame = []

theorem init_valid : Valid h init where
  tasks := ⟨by simp [init], by simp [init], by simp [init]⟩
  known := by simp [init, inProgress]
  awaited := by simp [init, inProgress]
  fresh := by simp [init, responses]

theorem init_serves : Serves h init where
  serving := rfl
  answered := by simp [init]
  awaited := by simp [init, inProgress]

theorem Valid.lt_of_inProgress (hvalid : Valid h s) {frame : ℕ}
    (hframe : frame ∈ s.inProgress) : frame < s.received.length := by
  obtain ⟨data, _, hdata, _⟩ := hvalid.known frame hframe
  exact (List.getElem?_eq_some_iff.mp hdata).1

theorem Valid.not_inProgress_length (hvalid : Valid h s) : s.received.length ∉ s.inProgress :=
  fun hmem => absurd (hvalid.lt_of_inProgress hmem) (lt_irrefl _)

theorem CallMove.valid (hmove : CallMove h s action next) (hvalid : Valid h s)
    (htasks : next.Tasks) : Valid h next := by
  obtain ⟨_, hreceived, hcalls, _, hanswer⟩ := hmove
  rcases hanswer with ⟨hin, hsent, _⟩ | ⟨frame, answer, hframe, hin, hsent, _⟩
  · have hresponses : next.responses = s.responses := by
      funext other
      simp [responses, hsent]
    refine ⟨htasks, ?_, ?_, ?_⟩
    · rw [hin, hreceived, hcalls]
      exact hvalid.known
    · rw [hin, hresponses]
      exact hvalid.awaited
    · rw [hreceived, hresponses]
      exact hvalid.fresh
  · refine ⟨htasks, ?_, ?_, ?_⟩
    · intro other hother
      rw [hin] at hother
      rw [hreceived, hcalls]
      exact hvalid.known other (Finset.mem_of_mem_erase hother)
    · intro other hother
      rw [hin] at hother
      obtain ⟨hne, hother⟩ := Finset.mem_erase.mp hother
      rw [responses_of_sent hsent, if_neg hne]
      exact hvalid.awaited other hother
    · intro other hother
      rw [hreceived] at hother
      have hne : other ≠ frame := (lt_of_lt_of_le (hvalid.lt_of_inProgress hframe) hother).ne'
      rw [responses_of_sent hsent, if_neg hne]
      exact hvalid.fresh other hother

theorem CallMove.nextServes_iff (hmove : CallMove h s action next)
    (hvalid : Valid h s) (htasks : next.Tasks) (hserves : Serves h s) :
    Serves h next ↔ s.Answerable h action := by
  have hawaited := (hmove.valid hvalid htasks).awaited
  obtain ⟨hended, hreceived, _, _, hanswer⟩ := hmove
  rcases hanswer with ⟨hin, hsent, hguard⟩ |
    ⟨frame, answer, hframe, hin, hsent, hguard⟩
  · have hresponses : next.responses = s.responses := by
      funext other
      simp [responses, hsent]
    refine iff_of_true ⟨hended.trans hserves.serving, ?_, hawaited⟩ hguard
    rw [hin, hreceived, hresponses]
    exact hserves.answered
  · obtain ⟨data, message, hdata, hloads, hid⟩ := hvalid.known frame hframe
    have hanswers : Answers h.loads data (next.responses frame) ↔ s.Answerable h action := by
      rw [responses_of_sent hsent, if_pos rfl, hvalid.awaited frame hframe,
        List.nil_append, ← hguard, hid]
      simp [Answers, hloads]
    constructor
    · intro hnext
      apply hanswers.mp
      apply hnext.answered frame data
      · rw [hreceived]
        exact hdata
      · rw [hin]
        exact Finset.notMem_erase frame s.inProgress
    · intro hguard'
      refine ⟨hended.trans hserves.serving, ?_, hawaited⟩
      intro other otherData hother hnot
      rw [hreceived] at hother
      by_cases hne : other = frame
      · subst other
        rw [hdata] at hother
        cases hother
        exact hanswers.mpr hguard'
      · rw [responses_of_sent hsent, if_neg hne]
        apply hserves.answered other otherData hother
        intro hmem
        rw [hin] at hnot
        exact hnot (Finset.mem_erase.mpr ⟨hne, hmem⟩)

theorem Tasks.congr (htasks : s.Tasks) (hscheduled : next.scheduled = s.scheduled)
    (hwaiting : next.waiting = s.waiting) (hrunning : next.running = s.running)
    (hpermits : next.softsemaphore = s.softsemaphore) : next.Tasks := by
  obtain ⟨h₁, h₂, h₃⟩ := htasks
  constructor
  · rwa [hscheduled, hwaiting, hrunning]
  · rwa [hwaiting, hrunning]
  · rwa [hrunning, hpermits]

theorem getElem?_concat_of_ne {texts : List String} {text : String} {frame : ℕ}
    (hne : frame ≠ texts.length) : (texts ++ [text])[frame]? = texts[frame]? := by
  rcases lt_or_gt_of_ne hne with hlt | hgt
  · exact List.getElem?_append_left hlt
  · rw [List.getElem?_eq_none (by simpa using hgt), List.getElem?_eq_none hgt.le]

theorem Turn.valid {data : String} (hturn : Turn h s data next)
    (hvalid : Valid h s) : Valid h next := by
  have hreceived : ∀ frame ∈ s.inProgress, (s.received ++ [data])[frame]? = s.received[frame]? := by
    intro frame hframe
    exact List.getElem?_append_left (hvalid.lt_of_inProgress hframe)
  cases hturn with
  | settled answer hdecodes hanswers hnext =>
    subst next
    have hresponses : ∀ frame, frame ≠ s.received.length →
        (log { s with received := s.received ++ [data] } s.received.length
          answer).responses frame = s.responses frame := by
      intro frame hne
      rw [responses_of_sent rfl, if_neg hne]
      rfl
    refine ⟨hvalid.tasks.congr rfl rfl rfl rfl, ?_, ?_, ?_⟩
    · intro frame hframe
      obtain ⟨other, message, hother, hloads, hid⟩ := hvalid.known frame hframe
      exact ⟨other, message, (hreceived frame hframe).trans hother, hloads, hid⟩
    · intro frame hframe
      rw [hresponses frame (hvalid.lt_of_inProgress hframe).ne]
      exact hvalid.awaited frame hframe
    · intro frame hframe
      simp only [log, List.length_append, List.length_singleton] at hframe
      rw [hresponses frame (by omega)]
      exact hvalid.fresh frame (by omega)
  | accepted message request hdecodes hloads hid hnext =>
    subst next
    have hnew := hvalid.not_inProgress_length
    simp only [mem_inProgress, not_or] at hnew
    have hmem : ∀ frame, frame ∈ inProgress { s with
        scheduled := insert s.received.length s.scheduled } ↔
        frame = s.received.length ∨ frame ∈ s.inProgress := by
      intro frame
      simp only [mem_inProgress, Finset.mem_insert, or_assoc]
    refine ⟨⟨?_, hvalid.tasks.waiting, hvalid.tasks.permits⟩, ?_, ?_, ?_⟩
    · intro frame hframe
      rcases Finset.mem_insert.mp hframe with rfl | hframe
      · exact hnew.2
      · exact hvalid.tasks.scheduled frame hframe
    · intro frame hframe
      rcases (hmem frame).mp hframe with rfl | hframe
      · exact ⟨data, message, by simp, hloads, by simp [hid]⟩
      · have hne := (hvalid.lt_of_inProgress hframe).ne
        obtain ⟨other, message, hother, hloads, hid⟩ := hvalid.known frame hframe
        refine ⟨other, message, (hreceived frame hframe).trans hother, hloads, ?_⟩
        simpa [Function.update_of_ne hne] using hid
    · intro frame hframe
      rcases (hmem frame).mp hframe with rfl | hframe
      · exact hvalid.fresh _ le_rfl
      · exact hvalid.awaited frame hframe
    · intro frame hframe
      simp only [List.length_append, List.length_singleton] at hframe
      exact hvalid.fresh frame (by omega)
  | raised hdecodes hnext =>
    subst next
    refine ⟨hvalid.tasks.congr rfl rfl rfl rfl, ?_, hvalid.awaited, ?_⟩
    · intro frame hframe
      obtain ⟨other, message, hother, hloads, hid⟩ := hvalid.known frame hframe
      exact ⟨other, message, (hreceived frame hframe).trans hother, hloads, hid⟩
    · intro frame hframe
      simp only [List.length_append, List.length_singleton] at hframe
      exact hvalid.fresh frame (by omega)

theorem Turn.nextServes_iff {data : String} (hturn : Turn h s data next)
    (hvalid : Valid h s) (hserves : Serves h s) :
    Serves h next ↔ Decodes h.loads data := by
  have hawaited := (hturn.valid hvalid).awaited
  cases hturn with
  | settled answer hdecodes hanswers hnext =>
    refine iff_of_true ⟨?_, ?_, hawaited⟩ hdecodes
    · rw [hnext]
      exact hserves.serving
    · subst next
      intro frame other hother hframe
      rw [responses_of_sent rfl]
      by_cases hlast : frame = s.received.length
      · subst frame
        simp only [log, List.getElem?_concat_length, Option.some.injEq] at hother
        subst other
        rw [if_pos rfl]
        change Answers h.loads data (s.responses _ ++ answer)
        rw [hvalid.fresh _ le_rfl, List.nil_append]
        exact hanswers
      · rw [if_neg hlast]
        apply hserves.answered frame other _ hframe
        rw [← getElem?_concat_of_ne hlast]
        exact hother
  | accepted message request hdecodes hloads hid hnext =>
    refine iff_of_true ⟨?_, ?_, hawaited⟩ hdecodes
    · rw [hnext]
      exact hserves.serving
    · subst next
      intro frame other hother hframe
      have hnot : frame ≠ s.received.length ∧ frame ∉ s.inProgress := by
        simpa only [mem_inProgress, Finset.mem_insert, or_assoc, not_or] using hframe
      apply hserves.answered frame other _ hnot.2
      rw [← getElem?_concat_of_ne hnot.1]
      exact hother
  | raised hdecodes hnext =>
    refine iff_of_false ?_ hdecodes
    intro hnextServes
    have hended := hnextServes.serving
    simp [hnext] at hended

theorem exists_text_of_fitsLimits {authenticated : Bool} {message : WsMessage}
    (hfits : (Action.receive authenticated message).FitsLimits h) :
    ∃ data, message = .text data ∧ WithinLimits h.loads authenticated data := by
  cases message with
  | text data => exact ⟨data, rfl, hfits⟩
  | error | unsupported _ => exact hfits.elim

theorem step_cases (hfits : action.FitsLimits h) (hvalid : Valid h s)
    (hstep : s.step h action = some next) :
    (∃ authenticated data, action = .receive authenticated (.text data) ∧ Turn h s data next) ∨
      action.isReceive = false ∧ CallMove h s action next ∧ next.Tasks := by
  cases hreceive : action.isReceive with
  | false => exact .inr ⟨rfl, callMove_of_step hvalid.tasks hreceive hstep⟩
  | true =>
    cases action with
    | receive authenticated message =>
      obtain ⟨data, rfl, hlimits⟩ := exists_text_of_fitsLimits hfits
      obtain ⟨_, rfl⟩ := Option.ite_some_none_eq_some.mp hstep
      exact .inl ⟨authenticated, data, rfl, turn_processText hlimits⟩
    | start _ | wake _ | finish _ _ _ => cases hreceive

theorem step_valid (hfits : action.FitsLimits h) (hvalid : Valid h s)
    (hstep : s.step h action = some next) : Valid h next := by
  rcases step_cases hfits hvalid hstep with
    ⟨_, _, _, hturn⟩ | ⟨_, hmove, htasks⟩
  · exact hturn.valid hvalid
  · exact hmove.valid hvalid htasks

theorem step_serves_iff (hfits : action.FitsLimits h) (hvalid : Valid h s)
    (hserves : Serves h s) (hstep : s.step h action = some next) :
    Serves h next ↔ s.Answerable h action := by
  rcases step_cases hfits hvalid hstep with
    ⟨_, data, rfl, hturn⟩ | ⟨_, hmove, htasks⟩
  · exact hturn.nextServes_iff hvalid hserves
  · exact hmove.nextServes_iff hvalid htasks hserves

end

/-- The loop goes on and every frame within the limits gets what it is owed,
at every point of a run and with nothing left unanswered for good, exactly when
each frame decodes and each exception can be reported to the request that
waits for it. -/
theorem serves_iff (h : RpcWebSocketHandler) {actions : List Action}
    {s : RpcConnection} (hfits : ∀ action ∈ actions, action.FitsLimits h)
    (hrun : run (step h) init actions = some s) :
    EveryStep (step h) (Answerable h) init actions ↔
      ∀ k t, run (step h) init (actions.take k) = some t → t.Serves h ∧ t.Settles h := by
  have halong := everyStep_iff_forall_take_of_mem (Valid h)
    (fun _ _ _ hfits hvalid hstep => step_valid hfits hvalid hstep)
    (fun _ _ _ hfits hvalid hserves hstep =>
      step_serves_iff hfits hvalid hserves hstep)
    hfits init_valid init_serves hrun
  rw [halong]
  constructor
  · intro hserves k t ht
    have hvalid : Valid h t := run_invariant_of_mem
      (fun _ _ _ hfits hvalid hstep => step_valid hfits hvalid hstep)
      (fun action haction => hfits action (List.mem_of_mem_take haction))
      init_valid ht
    exact ⟨hserves k t ht, hvalid.tasks.settles⟩
  · intro hboth k t ht
    exact (hboth k t ht).1

/-! ## The limits of the semaphore -/

section

variable {h : RpcWebSocketHandler} {s next : RpcConnection} {action : Action} {frame : ℕ}

/-- The counter counts the calls that are behind the semaphore, and a frame that
is still to come has no call. -/
structure Limited (s : RpcConnection) : Prop where
  tasks : s.Tasks
  known : ∀ frame ∈ s.inProgress, frame < s.received.length
  counter : s.counter = s.waiting.card + s.running.card
  counter_le : s.counter ≤ hardlimit

theorem process_calls {authenticated : Bool} {message : WsMessage}
    (hnext : s.process h authenticated message = next) : next.waiting = s.waiting ∧
    next.running = s.running ∧ next.counter = s.counter ∧
    next.softsemaphore = s.softsemaphore ∧ s.received.length ≤ next.received.length ∧
    ∀ frame ∈ next.scheduled, frame ∈ s.scheduled ∨
      frame = s.received.length ∧ frame < next.received.length := by
  subst next
  cases message with
  | error => simp +contextual [process]
  | unsupported type => simp +contextual [process, close]
  | text data =>
    simp only [process, processText, processMessage, send]
    repeat' split
    all_goals simp +contextual [close, or_comm]

theorem Limited.process (hlimited : s.Limited) (authenticated : Bool) (message : WsMessage) :
    (s.process h authenticated message).Limited := by
  obtain ⟨hwaiting, hrunning, hcounter, hsoft, hlength, hscheduled⟩ :=
    process_calls (rfl : s.process h authenticated message = _)
  have hnew : s.received.length ∉ s.inProgress :=
    fun hmem => absurd (hlimited.known _ hmem) (lt_irrefl _)
  simp only [mem_inProgress, not_or] at hnew
  constructor
  · constructor
    · intro frame hframe
      rw [hwaiting, hrunning]
      rcases hscheduled frame hframe with hold | ⟨rfl, _⟩
      · exact hlimited.tasks.scheduled frame hold
      · exact hnew.2
    · rw [hwaiting, hrunning]
      exact hlimited.tasks.waiting
    · rw [hsoft, hrunning]
      exact hlimited.tasks.permits
  · intro frame hframe
    rw [mem_inProgress, hwaiting, hrunning] at hframe
    rcases hframe with hframe | hframe
    · rcases hscheduled frame hframe with hold | ⟨_, hlt⟩
      · exact (hlimited.known frame (mem_inProgress.mpr (.inl hold))).trans_le hlength
      · exact hlt
    · exact (hlimited.known frame (mem_inProgress.mpr (.inr hframe))).trans_le hlength
  · rw [hcounter, hwaiting, hrunning, hlimited.counter]
  · rw [hcounter]
    exact hlimited.counter_le

theorem counter_step (hlimited : s.Limited) (haction : action.isReceive = false)
    (hstep : s.step h action = some next) :
    next.counter = next.waiting.card + next.running.card ∧ next.counter ≤ hardlimit := by
  obtain ⟨htasks, _, hcounter, hle⟩ := hlimited
  unfold step at hstep
  cases action with
  | receive authenticated message => cases haction
  | start frame =>
    obtain ⟨hframe, rfl⟩ := Option.ite_some_none_eq_some.mp hstep
    obtain ⟨hwaiting, hrunning⟩ := htasks.scheduled frame hframe
    unfold startCall
    simp only
    split_ifs with hmany
    · rw [respond_eq]
      exact ⟨hcounter, hle⟩
    · simp only [Finset.card_insert_of_notMem hwaiting]
      omega
    · simp only [Finset.card_insert_of_notMem hrunning]
      omega
  | wake frame =>
    obtain ⟨⟨hframe, _⟩, rfl⟩ := Option.ite_some_none_eq_some.mp hstep
    have hcard := Finset.card_erase_add_one hframe
    simp only [wakeCall, Finset.card_insert_of_notMem (htasks.waiting frame hframe)]
    omega
  | finish frame pyExceptions outcome =>
    obtain ⟨hframe, rfl⟩ := Option.ite_some_none_eq_some.mp hstep
    have hcard := Finset.card_erase_add_one hframe
    unfold finishCall
    rw [respond_eq]
    simp only [log]
    omega

theorem Limited.step (hlimited : s.Limited) (hstep : s.step h action = some next) :
    next.Limited := by
  cases hreceive : action.isReceive with
  | true =>
    cases action with
    | receive authenticated message =>
      simp only [RpcConnection.step, Option.ite_none_right_eq_some, Option.some.injEq] at hstep
      rw [← hstep.2]
      exact hlimited.process authenticated message
    | start _ | wake _ | finish _ _ _ => cases hreceive
  | false =>
    obtain ⟨hcounter, hle⟩ := counter_step hlimited hreceive hstep
    obtain ⟨hmove, htasks⟩ := callMove_of_step hlimited.tasks hreceive hstep
    refine ⟨htasks, ?_, hcounter, hle⟩
    intro frame hframe
    rw [hmove.received]
    rcases hmove.answer with ⟨hin, _⟩ | ⟨_, _, _, hin, _⟩
    · exact hlimited.known frame (hin ▸ hframe)
    · exact hlimited.known frame (Finset.mem_of_mem_erase (hin ▸ hframe))

/-- Whatever arrives, no more than ten calls of a connection run at once and no
more than twenty are let in, and the semaphore has a permit for each call that
could still run. -/
theorem calls_withinLimits {actions : List Action} (hrun : run (step h) init actions = some s) :
    s.running.card ≤ softlimit ∧ s.waiting.card + s.running.card ≤ hardlimit ∧
      s.softsemaphore = softlimit - s.running.card := by
  have hinit : init.Limited := ⟨init_valid (h := h) |>.tasks, by simp [init, inProgress], rfl,
    Nat.zero_le _⟩
  have hlimited : s.Limited := run_invariant (fun _ _ _ hlimited hstep => hlimited.step hstep)
    hinit hrun
  have hpermits := hlimited.tasks.permits
  have hcounter := hlimited.counter
  have hle := hlimited.counter_le
  omega

end

def pingText : String :=
  "\x7b\"jsonrpc\": \"2.0\", \"id\": 1, \"method\": \"core.ping\"\x7d"

def unhashableText : String :=
  "\x7b\"jsonrpc\": \"2.0\", \"id\": 1, \"method\": []\x7d"

def pingHandler : RpcWebSocketHandler where
  loads text := if text = pingText then
      .ok (.dict [("jsonrpc", .str "2.0"), ("id", .int 1), ("method", .str "core.ping")])
    else if text = unhashableText then
      .ok (.dict [("jsonrpc", .str "2.0"), ("id", .int 1), ("method", .list [])])
    else .error (.valueError "Expecting value: line 1 column 1 (char 0)")
  getErrname := fun _ => "EINVAL"
  methods := ["core.ping"]

def pingCall : List Action :=
  [.receive true (.text pingText), .start 0, .finish 0 false (.returned (.str "pong"))]

theorem loads_pingText : pingHandler.loads pingText = .ok (.dict [("jsonrpc", .str "2.0"),
    ("id", .int 1), ("method", .str "core.ping")]) := by
  simp [pingHandler]

theorem fitsLimits_text {text : String} (hshort : text.length ≤ 8192) :
    (Action.receive true (.text text)).FitsLimits pingHandler := by
  refine ⟨.inl rfl, ?_, fun _ _ => .inr ?_⟩
  · exact hshort.trans (by decide)
  · exact hshort.trans (by decide)

theorem pingCall_serves : ∃ s, run (step pingHandler) init pingCall = some s ∧
    s.responses 0 = [.result (.int 1) (.str "pong")] ∧
    ∀ k t, run (step pingHandler) init (pingCall.take k) = some t →
      t.Serves pingHandler ∧ t.Settles pingHandler := by
  have hfits : ∀ action ∈ pingCall, action.FitsLimits pingHandler := by
    simp only [pingCall, List.forall_mem_cons, List.not_mem_nil, false_imp_iff,
      implies_true, and_true]
    exact ⟨fitsLimits_text (by decide), trivial, trivial⟩
  have hdecodes : Decodes pingHandler.loads pingText :=
    (decodes_dict_iff loads_pingText).mpr (by decide)
  refine ⟨_, rfl, rfl, (serves_iff pingHandler hfits rfl).mp ?_⟩
  exact everyStep_cons hdecodes rfl
    (everyStep_cons trivial rfl (everyStep_cons (fun _ => trivial) rfl trivial))

/-- Eleven calls are let in, and the last one waits until the first has finished. -/
def elevenCalls : List Action :=
  List.replicate 11 (.receive true (.text pingText)) ++ (List.range 11).map .start

theorem elevenCalls_withinLimits : ∃ s, run (step pingHandler) init elevenCalls = some s ∧
    s.waiting = {10} ∧ s.running.card ≤ softlimit := by
  obtain ⟨s, hrun, hwaiting⟩ : ∃ s, run (step pingHandler) init elevenCalls = some s ∧
      s.waiting = {10} := ⟨_, rfl, rfl⟩
  exact ⟨s, hrun, hwaiting, (calls_withinLimits hrun).1⟩

/-- A list as the method raises in the lookup and ends the connection. -/
theorem unhashableMethod_not_serves :
    (Action.receive true (.text unhashableText)).FitsLimits pingHandler ∧
      ∃ s, run (step pingHandler) init [.receive true (.text unhashableText)] = some s ∧
        ¬ s.Serves pingHandler := by
  have hrun : ∃ s, run (step pingHandler) init [.receive true (.text unhashableText)] = some s ∧
        s.ended = some .raised := ⟨_, rfl, rfl⟩
  obtain ⟨s, hrun, hended⟩ := hrun
  refine ⟨fitsLimits_text (by decide), s, hrun, ?_⟩
  intro hserves
  rw [hserves.serving] at hended
  cases hended

end RpcConnection

end Middlewared
