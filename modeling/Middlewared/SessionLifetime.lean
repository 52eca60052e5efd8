import Middlewared.SessionManager
import Mathlib.Tactic

/-!
# A session and the end of its connection

A session is closed by the callback that its login registered.
-/

namespace Middlewared.SessionServer

open Dict Option TransitionSystem

variable {verify : String → String → Bool} {s next t : SessionServer}
  {a : Action} {actions rest : List Action}

def Closed (s : SessionServer) : Prop :=
  s.handler = .unsubscribing ∨ s.handler = .finished

def LogsIn (verify : String → String → Bool) (s : SessionServer) :
    Action → Prop
  | .hookLogin _ => True
  | .loginEx action =>
    ∃ conn, s.conn.step verify action = some conn ∧ (newLogin s.conn conn).isSome
  | .hooksDone | .connected | .message _ _ | .loggedOut _ | .close
  | .unsubscribed | .otherConnection _ _ => False

/-- Every login after the callbacks for the end have run is followed by the end
of a `logout` call. -/
def LateLoginsUndone (verify : String → String → Bool) :
    SessionServer → List Action → Prop
  | _, [] => True
  | s, a :: rest =>
    (s.Closed → s.LogsIn verify a → ∃ id, .loggedOut id ∈ rest) ∧
      ∀ next, s.step verify a = some next → LateLoginsUndone verify next rest

/-- No session outlives its connection, and an authenticated app has a
session. -/
structure SessionsEnd (verify : String → String → Bool) (s : SessionServer)
    (actions : List Action) (t : SessionServer) : Prop where
  authenticated : ∀ k u, run (step verify) s (actions.take k) = some u →
      u.app.authenticated = true → u.HasSession
  ended : t.Finished → ¬ t.HasSession

/-- The part of the state that one connection shares with the session manager;
a session is never without a callback that closes it. -/
structure Registered (sessions : Sessions) (app : RpcWebSocketApp) : Prop where
  authenticated : app.authenticated = true → app.sessionId ∈ sessions
  callback : app.sessionId ∈ sessions → 0 < app.closeCallbacks

section

variable {sessions : Sessions} {app : RpcWebSocketApp}
  {result : Sessions × RpcWebSocketApp} {credentials : SessionOwner}

theorem exists_login (hreg : Registered sessions app) (credentials : SessionOwner) :
    ∃ result, SessionManager.login sessions app credentials = some result := by
  unfold SessionManager.login
  by_cases hauth : app.authenticated = true
  · obtain ⟨session, hget⟩ := exists_get?_of_mem (hreg.authenticated hauth)
    simp [hauth, hget]
  · simp [hauth]

theorem login_spec (hreg : Registered sessions app)
    (hlogin : SessionManager.login sessions app credentials = some result) :
    result.2.sessionId = app.sessionId ∧ app.sessionId ∈ result.1 ∧
      Registered result.1 result.2 := by
  unfold SessionManager.login at hlogin
  by_cases hauth : app.authenticated = true
  · have hmem := hreg.authenticated hauth
    obtain ⟨session, hget⟩ := exists_get?_of_mem hmem
    rw [if_pos hauth, hget, map_some, some.injEq] at hlogin
    rw [← hlogin]
    have hnew : app.sessionId ∈ sessions.set app.sessionId { session with credentials } :=
      Dict.mem_set_iff.mpr (Or.inl rfl)
    exact ⟨rfl, hnew, fun _ => hnew, fun _ => hreg.callback hmem⟩
  · rw [if_neg hauth, some.injEq] at hlogin
    rw [← hlogin]
    have hnew : app.sessionId ∈ sessions.set app.sessionId ⟨credentials⟩ :=
      Dict.mem_set_iff.mpr (Or.inl rfl)
    exact ⟨rfl, hnew, fun _ => hnew, fun _ => Nat.succ_pos _⟩

theorem logout_spec (sessions : Sessions) (app : RpcWebSocketApp) :
    (SessionManager.logout sessions app).2.sessionId = app.sessionId ∧
      app.sessionId ∉ (SessionManager.logout sessions app).1 ∧
      Registered (SessionManager.logout sessions app).1 (SessionManager.logout sessions app).2 := by
  have hgone : app.sessionId ∉ sessions.erase app.sessionId := by
    simp [mem_erase_iff]
  refine ⟨rfl, hgone, ?_, ?_⟩
  · intro hauth
    cases hauth
  · intro hmem
    exact absurd hmem hgone

theorem appOnMessage_spec (valid : Bool) (hreg : Registered sessions app) :
    (SessionManager.appOnMessage valid sessions app).2.sessionId = app.sessionId ∧
      Registered (SessionManager.appOnMessage valid sessions app).1
        (SessionManager.appOnMessage valid sessions app).2 := by
  unfold SessionManager.appOnMessage
  cases hget : sessions.get? app.sessionId with
  | none =>
    refine ⟨rfl, ?_, hreg.callback⟩
    intro hauth
    cases hauth
  | some session =>
    cases valid with
    | true => exact ⟨rfl, hreg⟩
    | false =>
      have hlogout := logout_spec sessions app
      exact ⟨hlogout.1, hlogout.2.2⟩

theorem runMessageCallbacks_spec (valid : ℕ → Bool) (count : ℕ) (hreg : Registered sessions app) :
    (SessionManager.runMessageCallbacks valid count sessions app).2.sessionId = app.sessionId ∧
      Registered (SessionManager.runMessageCallbacks valid count sessions app).1
        (SessionManager.runMessageCallbacks valid count sessions app).2 := by
  induction count generalizing sessions app with
  | zero => exact ⟨rfl, hreg⟩
  | succ count ih =>
    have hfirst := appOnMessage_spec (valid count) hreg
    have hrest := ih hfirst.2
    exact ⟨hrest.1.trans hfirst.1, hrest.2⟩

theorem runCloseCallbacks_spec (count : ℕ) (hreg : Registered sessions app) :
    (SessionManager.runCloseCallbacks count sessions app).2.sessionId = app.sessionId ∧
      (0 < count ∨ app.sessionId ∉ sessions →
        app.sessionId ∉ (SessionManager.runCloseCallbacks count sessions app).1) ∧
      Registered (SessionManager.runCloseCallbacks count sessions app).1
        (SessionManager.runCloseCallbacks count sessions app).2 := by
  induction count generalizing sessions app with
  | zero =>
    refine ⟨rfl, ?_, hreg⟩
    intro hnone
    exact hnone.resolve_left (Nat.lt_irrefl 0)
  | succ count ih =>
    have hfirst := logout_spec sessions app
    have hrest := ih hfirst.2.2
    exact ⟨hrest.1, fun _ => hrest.2.1 (Or.inr hfirst.2.1), hrest.2.2⟩

end

/-! ## What a step does to the session -/

def Good (s : SessionServer) : Prop :=
  Registered s.sessions s.app

inductive Move (verify : String → String → Bool) (s : SessionServer)
    (a : Action) (next : SessionServer) : Prop
  | quiet (hlogin : ¬ s.LogsIn verify a) (hlogout : ∀ id, a ≠ .loggedOut id)
      (hclosed : next.Closed ↔ s.Closed)
      (hsession : s.Closed → (next.HasSession ↔ s.HasSession))
  | login (hlogin : s.LogsIn verify a) (hlogout : ∀ id, a ≠ .loggedOut id)
      (hclosed : next.Closed ↔ s.Closed) (hsession : next.HasSession)
  | logout (id : CallId) (haction : a = .loggedOut id)
      (hclosed : next.Closed ↔ s.Closed) (hsession : ¬ next.HasSession)
  | close (hopen : ¬ s.Closed) (hclosed : next.Closed) (hsession : ¬ next.HasSession)

theorem step_hookLogin {credentials : SessionOwner} (hgood : s.Good)
    (hnext : s.step verify (.hookLogin credentials) = some next) :
    next.Good ∧ Move verify s (.hookLogin credentials) next := by
  simp only [step] at hnext
  split at hnext
  case isFalse => cases hnext
  case isTrue =>
    obtain ⟨result, hlogin⟩ := exists_login hgood credentials
    rw [hlogin] at hnext
    cases hnext
    obtain ⟨hid, hmem, hreg⟩ := login_spec hgood hlogin
    refine ⟨hreg, Move.login trivial (fun _ => by simp) Iff.rfl ?_⟩
    change result.2.sessionId ∈ result.1
    rw [hid]
    exact hmem

theorem startTask_same {frame : Frame} (hnext : s.startTask verify frame = some next) :
    next.app = s.app ∧ next.sessions = s.sessions ∧ next.handler = s.handler := by
  cases frame with
  | loginEx id data =>
    simp only [startTask, map_eq_some_iff] at hnext
    obtain ⟨conn, -, heq⟩ := hnext
    rw [← heq]
    exact ⟨rfl, rfl, rfl⟩
  | logout id =>
    simp only [startTask] at hnext
    split at hnext <;> cases hnext
    exact ⟨rfl, rfl, rfl⟩
  | other =>
    cases hnext
    exact ⟨rfl, rfl, rfl⟩

variable (hgood : s.Good)

include hgood

theorem step_message {valid : ℕ → Bool} {frame : Frame}
    (hnext : s.step verify (.message valid frame) = some next) :
    next.Good ∧ Move verify s (.message valid frame) next := by
  simp only [step] at hnext
  split at hnext
  case isFalse => cases hnext
  case isTrue hserving =>
    obtain ⟨happ, hsessions, hhandler⟩ := startTask_same hnext
    have hreg := (runMessageCallbacks_spec valid s.app.messageCallbacks hgood).2
    have hopen : ¬ s.Closed := by simp [Closed, hserving]
    constructor
    · unfold Good
      rw [happ, hsessions]
      exact hreg
    · apply Move.quiet (by simp [LogsIn]) (fun _ => by simp)
      · simp [Closed, hhandler, withSessions]
      · intro hclosed
        exact absurd hclosed hopen

theorem stepLogin_spec {action : Connection.Action}
    (hnext : s.stepLogin verify action = some next) :
    next.Good ∧ next.handler = s.handler ∧ (s.LogsIn verify (.loginEx action) ∧ next.HasSession ∨
        ¬ s.LogsIn verify (.loginEx action) ∧ (next.HasSession ↔ s.HasSession)) := by
  unfold stepLogin at hnext
  cases hconn : s.conn.step verify action with
  | none =>
    rw [hconn] at hnext
    cases hnext
  | some conn =>
    rw [hconn] at hnext
    cases hnew : newLogin s.conn conn with
    | none =>
      simp only [hnew, some.injEq] at hnext
      rw [← hnext]
      refine ⟨hgood, rfl, Or.inr ⟨?_, Iff.rfl⟩⟩
      intro hlogin
      obtain ⟨other, hother, hsome⟩ := hlogin
      rw [hconn] at hother
      cases hother
      rw [hnew] at hsome
      cases hsome
    | some login =>
      obtain ⟨id, credentials⟩ := login
      obtain ⟨result, hlogin⟩ := exists_login hgood (.login credentials)
      simp only [hnew, hlogin, some.injEq] at hnext
      rw [← hnext]
      obtain ⟨hid, hmem, hreg⟩ := login_spec hgood hlogin
      refine ⟨hreg, rfl, Or.inl ⟨⟨conn, hconn, by simp [hnew]⟩, ?_⟩⟩
      change result.2.sessionId ∈ result.1
      rw [hid]
      exact hmem

theorem step_loginEx {action : Connection.Action}
    (hnext : s.step verify (.loginEx action) = some next) :
    next.Good ∧ Move verify s (.loginEx action) next := by
  have hlogin : s.stepLogin verify action = some next := by
    cases action <;> first | exact hnext | cases hnext
  obtain ⟨hnextGood, hhandler, hcases⟩ := stepLogin_spec hgood hlogin
  refine ⟨hnextGood, ?_⟩
  have hclosed : next.Closed ↔ s.Closed := by simp [Closed, hhandler]
  rcases hcases with hin | hquiet
  · exact Move.login hin.1 (fun _ => by simp) hclosed hin.2
  · exact Move.quiet hquiet.1 (fun _ => by simp) hclosed fun _ => hquiet.2

omit hgood in
theorem step_loggedOut {id : CallId} (hnext : s.step verify (.loggedOut id) = some next) :
    next.Good ∧ Move verify s (.loggedOut id) next := by
  simp only [step] at hnext
  split at hnext
  case isFalse => cases hnext
  case isTrue =>
    cases hnext
    obtain ⟨-, hgone, hreg⟩ := logout_spec s.sessions s.app
    exact ⟨hreg, Move.logout id rfl Iff.rfl hgone⟩

theorem step_close (hnext : s.step verify .close = some next) :
    next.Good ∧ Move verify s .close next := by
  simp only [step] at hnext
  split at hnext
  case isFalse => cases hnext
  case isTrue hphase =>
    cases hnext
    obtain ⟨hid, hgone, hreg⟩ := runCloseCallbacks_spec s.app.closeCallbacks hgood
    refine ⟨hreg, Move.close ?_ (Or.inl rfl) ?_⟩
    · rcases hphase with hphase | hphase <;> simp [Closed, hphase]
    · change (SessionManager.runCloseCallbacks _ _ _).2.sessionId ∉ _
      rw [hid]
      apply hgone
      by_cases hmem : s.app.sessionId ∈ s.sessions
      · exact Or.inl (hgood.callback hmem)
      · exact Or.inr hmem

theorem step_otherConnection {sessionId : String} {session : Option Session}
    (hnext : s.step verify (.otherConnection sessionId session) = some next) :
    next.Good ∧ Move verify s (.otherConnection sessionId session) next := by
  simp only [step] at hnext
  split at hnext
  case isTrue => cases hnext
  case isFalse hne =>
    -- the entry of this connection is not touched
    have hsame : next.app = s.app ∧ next.handler = s.handler ∧
        (s.app.sessionId ∈ next.sessions ↔ s.app.sessionId ∈ s.sessions) := by
      cases session with
      | none =>
        cases hnext
        simp [mem_erase_iff, Ne.symm hne]
      | some session =>
        cases hnext
        simp [mem_set_iff, Ne.symm hne]
    obtain ⟨happ, hhandler, hmem⟩ := hsame
    have hsession : next.HasSession ↔ s.HasSession := by
      unfold HasSession
      rw [happ]
      exact hmem
    constructor
    · unfold Good
      rw [happ]
      exact ⟨fun hauth => hmem.mpr (hgood.authenticated hauth),
        fun hin => hgood.callback (hmem.mp hin)⟩
    · apply Move.quiet (by simp [LogsIn]) (fun _ => by simp)
      · simp [Closed, hhandler]
      · exact fun _ => hsession

theorem step_move (hnext : s.step verify a = some next) : next.Good ∧ Move verify s a next := by
  cases a with
  | hookLogin credentials => exact step_hookLogin hgood hnext
  | message valid frame => exact step_message hgood hnext
  | loginEx action => exact step_loginEx hgood hnext
  | loggedOut id => exact step_loggedOut hnext
  | close => exact step_close hgood hnext
  | otherConnection sessionId session => exact step_otherConnection hgood hnext
  | hooksDone =>
    simp only [step] at hnext
    split at hnext <;> cases hnext
    exact ⟨hgood, Move.quiet (by simp [LogsIn]) (fun _ => by simp) Iff.rfl fun _ => Iff.rfl⟩
  | connected =>
    simp only [step] at hnext
    split at hnext <;> cases hnext
    rename_i hphase
    refine ⟨hgood, Move.quiet (by simp [LogsIn]) (fun _ => by simp) ?_ fun _ => Iff.rfl⟩
    simp [Closed, hphase.1]
  | unsubscribed =>
    simp only [step] at hnext
    split at hnext <;> cases hnext
    rename_i hphase
    refine ⟨hgood, Move.quiet (by simp [LogsIn]) (fun _ => by simp) ?_ fun _ => Iff.rfl⟩
    simp [Closed, hphase]

/-! ## Runs -/

theorem run_good (hrun : run (step verify) s actions = some t) : t.Good :=
  run_invariant (p := Good)
    (fun _ _ _ hs hnext => (step_move hs hnext).1) hgood hrun

omit hgood in
theorem lateLoginsUndone_cons_iff (hnext : s.step verify a = some next) :
    LateLoginsUndone verify s (a :: rest) ↔
      (s.Closed → s.LogsIn verify a → ∃ id, .loggedOut id ∈ rest) ∧
        LateLoginsUndone verify next rest := by
  simp [LateLoginsUndone, hnext]

theorem hasSession_of_closed_iff (hclosed : s.Closed)
    (hrun : run (step verify) s actions = some t) :
    t.HasSession ↔ (s.HasSession ∧ ∀ id, .loggedOut id ∉ actions) ∨
        ¬ LateLoginsUndone verify s actions := by
  induction actions generalizing s with
  | nil =>
    cases hrun
    simp [LateLoginsUndone]
  | cons a rest ih =>
    obtain ⟨next, hnext, hrest⟩ := TransitionSystem.run_cons_eq_some_iff.mp hrun
    obtain ⟨hnextGood, hmove⟩ := step_move hgood hnext
    rw [lateLoginsUndone_cons_iff hnext]
    cases hmove with
    | quiet hlogin hlogout hphase hsession =>
      rw [ih hnextGood (hphase.mpr hclosed) hrest, hsession hclosed]
      have hlogouts : (∀ id, Action.loggedOut id ∉ a :: rest) ↔
          ∀ id, Action.loggedOut id ∉ rest := by
        simp [fun id => Ne.symm (hlogout id)]
      rw [hlogouts]
      simp [hlogin]
    | login hlogin hlogout hphase hsession =>
      rw [ih hnextGood (hphase.mpr hclosed) hrest]
      have hlogouts : (∀ id, Action.loggedOut id ∉ a :: rest) ↔
          ∀ id, Action.loggedOut id ∉ rest := by
        simp [fun id => Ne.symm (hlogout id)]
      simp only [hsession, hclosed, hlogin, true_and, forall_const]
      rw [not_and_or, not_exists]
      tauto
    | logout id haction hphase hsession =>
      rw [ih hnextGood (hphase.mpr hclosed) hrest]
      have hnot : ¬ s.LogsIn verify a := by simp [haction, LogsIn]
      have hmem : ¬ ∀ id, Action.loggedOut id ∉ a :: rest := by
        simp only [not_forall, not_not]
        exact ⟨id, by simp [haction]⟩
      simp only [hsession, hnot, hmem, false_and, and_false, false_or,
        false_implies, implies_true, true_and]
    | close hopen _ _ => exact absurd hclosed hopen

theorem hasSession_of_open_iff (hopen : ¬ s.Closed)
    (hrun : run (step verify) s actions = some t) (hclosed : t.Closed) :
    t.HasSession ↔ ¬ LateLoginsUndone verify s actions := by
  induction actions generalizing s with
  | nil =>
    cases hrun
    exact absurd hclosed hopen
  | cons a rest ih =>
    obtain ⟨next, hnext, hrest⟩ := TransitionSystem.run_cons_eq_some_iff.mp hrun
    obtain ⟨hnextGood, hmove⟩ := step_move hgood hnext
    rw [lateLoginsUndone_cons_iff hnext]
    simp only [hopen, false_implies, true_and]
    cases hmove with
    | quiet hlogin hlogout hphase hsession =>
      exact ih hnextGood (fun h => hopen (hphase.mp h)) hrest
    | login hlogin hlogout hphase hsession =>
      exact ih hnextGood (fun h => hopen (hphase.mp h)) hrest
    | logout id haction hphase hsession =>
      exact ih hnextGood (fun h => hopen (hphase.mp h)) hrest
    | close _ hnextClosed hsession =>
      rw [hasSession_of_closed_iff hnextGood hnextClosed hrest]
      simp [hsession]

omit hgood

theorem connect_good (level : AuthenticatorAssuranceLevel) {sessionId : String}
    {sessions : Sessions} (hfresh : sessionId ∉ sessions) :
    (connect level sessionId sessions).Good := by
  constructor
  · intro hauth
    cases hauth
  · intro hmem
    exact absurd hmem hfresh

/-- An authenticated app always has a session.  When the handler and all tasks
of a connection have ended, its session is gone exactly when every login that
came after the callbacks was undone by a logout. -/
theorem sessionsEnd_iff {level : AuthenticatorAssuranceLevel}
    {sessionId : String} {sessions : Sessions} (hfresh : sessionId ∉ sessions)
    (hrun : run (step verify) (connect level sessionId sessions)
      actions = some t) (hfinished : t.Finished) :
    SessionsEnd verify (connect level sessionId sessions) actions t ↔
      LateLoginsUndone verify (connect level sessionId sessions) actions := by
  have hgood := connect_good level hfresh
  have hopen : ¬ (connect level sessionId sessions).Closed := by
    simp [Closed, connect]
  have hended := hasSession_of_open_iff hgood hopen hrun (Or.inr hfinished.handler)
  constructor
  · intro hends
    by_contra hlate
    exact hends.ended hfinished (hended.mpr hlate)
  · intro hundone
    constructor
    · intro k u hu hauth
      exact (run_good hgood hu).authenticated hauth
    · intro _ hsession
      exact hended.mp hsession hundone

def passwordLogin (closedBefore : Bool) : List Action :=
  [.hooksDone, .connected,
    .message (fun _ => true) (.loginEx 0 (.passwordPlain "admin" "password")),
    .loginEx (.failover 0 false .invalid)] ++
  (if closedBefore then [.close, .unsubscribed] else []) ++
  [.loginEx (.passwordChecked 0 false (.success { username := "admin" })),
    .loginEx (.finished 0)] ++
  (if closedBefore then [] else [.close, .unsubscribed])

theorem passwordLogin_finishes (closedBefore : Bool) :
    ∃ t, run (step fun _ _ => false)
        (connect aaLevel1 "session" Dict.empty) (passwordLogin closedBefore) = some t ∧
      t.Finished ∧ (t.HasSession ↔ closedBefore = true) := by
  cases closedBefore with
  | false =>
    refine ⟨_, rfl, ⟨rfl, rfl, ?_, ?_⟩, by decide⟩
    · intro id
      cases id with
      | zero => exact Or.inr (Or.inl ⟨.success, rfl⟩)
      | succ id => exact Or.inl rfl
    · intro id hid
      cases hid
  | true =>
    refine ⟨_, rfl, ⟨rfl, rfl, ?_, ?_⟩, by decide⟩
    · intro id
      cases id with
      | zero => exact Or.inr (Or.inl ⟨.success, rfl⟩)
      | succ id => exact Or.inl rfl
    · intro id hid
      cases hid

theorem passwordLogin_sessionsEnd : ∃ t, run (step fun _ _ => false)
      (connect aaLevel1 "session" Dict.empty) (passwordLogin false) = some t ∧
    SessionsEnd (fun _ _ => false) (connect aaLevel1 "session" Dict.empty)
      (passwordLogin false) t := by
  obtain ⟨t, hrun, hfinished, hsession⟩ := passwordLogin_finishes false
  have hfresh : "session" ∉ (Dict.empty : Sessions) := by decide
  refine ⟨t, hrun, (sessionsEnd_iff hfresh hrun hfinished).mpr ?_⟩
  have hopen : ¬ (connect aaLevel1 "session" Dict.empty).Closed := by
    simp [Closed, connect]
  have hended := hasSession_of_open_iff (connect_good aaLevel1 hfresh) hopen hrun
    (Or.inr hfinished.handler)
  by_contra hlate
  exact absurd (hsession.mp (hended.mpr hlate)) (by simp)

/-- The socket closes while the password is checked, and the session stays. -/
theorem passwordLogin_leaks_session : ∃ t, run (step fun _ _ => false)
      (connect aaLevel1 "session" Dict.empty) (passwordLogin true) = some t ∧
    t.Finished ∧
    ¬ SessionsEnd (fun _ _ => false) (connect aaLevel1 "session" Dict.empty)
      (passwordLogin true) t := by
  obtain ⟨t, hrun, hfinished, hsession⟩ := passwordLogin_finishes true
  refine ⟨t, hrun, hfinished, ?_⟩
  intro hends
  exact hends.ended hfinished (hsession.mpr rfl)

end Middlewared.SessionServer
