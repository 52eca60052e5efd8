import Mathlib.Algebra.Order.Ring.Unbundled.Rat
import Middlewared.ConnectionOrigin
import Middlewared.Dict
import Middlewared.TransitionSystem

/-!
# Authentication tokens

A token stands for the credentials of the session that created it.
-/

namespace Middlewared

/-- What the calls ask of the root credentials of a token: the user, for a
user session, and whether that user may open a shell. -/
structure TokenRoot where
  username : Option String
  webShell : Bool

/-- `attributes` is whether the token has any; `root` is missing when no
credentials stand behind the token. -/
structure Token where
  token : String
  ttl : ℚ
  attributes : Bool
  matchOrigin : Option ConnectionOrigin
  root : Option TokenRoot
  sessionIds : List String
  singleUse : Bool
  lastUsedAt : ℚ

def Token.isValid (token : Token) (now : ℚ) : Bool :=
  now < token.lastUsedAt + token.ttl

/-- `TokenManager`: each token is stored under its own text. -/
structure TokenManager where
  tokens : Dict String Token
  keyed : ∀ entry ∈ tokens.entries, entry.2.token = entry.1

namespace TokenManager

def empty : TokenManager where
  tokens := Dict.empty
  keyed := by simp [Dict.empty]

def insert (manager : TokenManager) (token : Token) : TokenManager where
  tokens := manager.tokens.set token.token token
  keyed := by
    rintro ⟨key, stored⟩ hentry
    rw [Dict.mem_entries_iff, Dict.get?_set] at hentry
    split at hentry
    · rename_i hkey
      cases hentry
      exact hkey.symm
    · exact manager.keyed (key, stored) (Dict.mem_entries_iff.mpr hentry)

def erase (manager : TokenManager) (tokenId : String) : TokenManager where
  tokens := manager.tokens.erase tokenId
  keyed := by
    intro entry hentry
    exact manager.keyed entry (List.mem_of_mem_filter hentry)

/-- `TokenManager.get`: an expired token is dropped on the way. -/
def get (manager : TokenManager) (now : ℚ) (tokenId : String)
    (origin : Option ConnectionOrigin) : TokenManager × Option Token :=
  match manager.tokens.get? tokenId with
  | none => (manager, none)
  | some token =>
    if !token.isValid now then (manager.erase token.token, none)
    else
      match token.matchOrigin, origin with
      | none, _ => (manager, some token)
      | some _, none => (manager, none)
      | some expected, some origin =>
        if expected.matchOrigin origin then (manager, some token)
        else (manager, none)

def destroy (manager : TokenManager) (token : Token) : TokenManager :=
  manager.erase token.token

def destroyBySessionId (manager : TokenManager) (sessionId : String) :
    TokenManager where
  tokens :=
    { entries := manager.tokens.entries.filter fun entry =>
        sessionId ∉ entry.2.sessionIds
      nodup := manager.tokens.nodup.sublist (List.filter_sublist.map Prod.fst) }
  keyed := by
    intro entry hentry
    exact manager.keyed entry (List.mem_of_mem_filter hentry)

/-- `Token.notify_used`. -/
def notifyUsed (manager : TokenManager) (tokenId : String) (now : ℚ) :
    TokenManager :=
  match manager.tokens.get? tokenId with
  | none => manager
  | some token => manager.insert { token with lastUsedAt := now }

end TokenManager

inductive TokenCall where
  | loginEx (internal : Bool)
  | getToken
  | getTokenForAction
  | getTokenForShellApplication

structure HeldToken where
  call : TokenCall
  token : Token

/-- `pending` are the calls that have looked a token up and not finished;
`succeeded` has one entry, the text of its token, for each call that opened a
session or returned something. -/
structure TokenState where
  manager : TokenManager
  issued : List String
  pending : Dict ℕ HeldToken
  nextCall : ℕ
  succeeded : List String

namespace TokenState

def initial : TokenState where
  manager := TokenManager.empty
  issued := []
  pending := Dict.empty
  nextCall := 0
  succeeded := []

def destroyIfSingleUse (s : TokenState) (token : Token) : TokenState :=
  if token.singleUse then { s with manager := s.manager.destroy token } else s

def succeed (s : TokenState) (token : Token) : TokenState :=
  { s with succeeded := token.token :: s.succeeded }

def hold (s : TokenState) (call : TokenCall) (token : Token) : TokenState :=
  { s with pending := s.pending.set s.nextCall ⟨call, token⟩ }

/-- A call has its token.  `login_ex` opens the session at once, the others
have their checks to make before they destroy the token. -/
def proceed (s : TokenState) (call : TokenCall) (token : Token) : TokenState :=
  match call with
  | .loginEx internal =>
    -- without root credentials the constructor of the session's credentials raises
    if token.attributes || token.root.isNone then s
    else if internal then (s.succeed token).destroyIfSingleUse token
    else (s.succeed token).hold call token
  | .getToken => s.hold call token
  | .getTokenForAction => if token.attributes then s else s.hold call token
  | .getTokenForShellApplication =>
    if token.attributes then s
    else if token.root.elim false
        (fun root => root.username.isSome && root.webShell) then
      s.hold call token
    else s

inductive Action where
  | create (token : Token)
  | begin (call : TokenCall) (tokenId : String)
      (origin : Option ConnectionOrigin) (now : ℚ)
  | finish (call : ℕ) (ok : Bool)
  | logout (tokenId : String)
  | destroyBySessionId (sessionId : String)
  | notifyUsed (tokenId : String) (now : ℚ)

/-- The rest of a call.  `ok` is whether the audit of a login went through and
whether the credentials authorize an action. -/
def complete (s : TokenState) (held : HeldToken) (ok : Bool) : TokenState :=
  match held.call with
  | .loginEx _ => if ok then s.destroyIfSingleUse held.token else s
  | .getTokenForAction =>
    if ok then (s.destroyIfSingleUse held.token).succeed held.token else s
  | .getToken | .getTokenForShellApplication =>
    (s.destroyIfSingleUse held.token).succeed held.token

def step (s : TokenState) : Action → Option TokenState
  | .create token =>
    if token.token ∈ s.issued then none
    else
      some
        { s with manager := s.manager.insert token, issued := token.token :: s.issued }
  | .begin call tokenId origin now =>
    match s.manager.get now tokenId origin with
    | (manager, none) =>
      some { s with manager, nextCall := s.nextCall + 1 }
    | (manager, some token) =>
      let next := proceed { s with manager } call token
      some { next with nextCall := s.nextCall + 1 }
  | .finish call ok =>
    match s.pending.get? call with
    | none => none
    | some held =>
      some (complete { s with pending := s.pending.erase call } held ok)
  | .logout tokenId => some { s with manager := s.manager.erase tokenId }
  | .destroyBySessionId sessionId =>
    some { s with manager := s.manager.destroyBySessionId sessionId }
  | .notifyUsed tokenId now =>
    some { s with manager := s.manager.notifyUsed tokenId now }

end TokenState

end Middlewared
