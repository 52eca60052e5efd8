import Middlewared.Dict
import Middlewared.PyString
import Middlewared.TransitionSystem

/-!
# One-time passwords

`OnetimePasswordManager` hands out passwords of the form `<index>_<key>` and keeps a hash of the
key under the index.
-/

namespace Middlewared

inductive OTPWResponse where
  | success
  | expired
  | noKey
  | alreadyUsed
  | wrongUser
  | badPasskey
deriving DecidableEq

/-- `sha512_crypt`, with its salt, and `check_unixhash`. -/
structure Unixhash (η : Type) where
  sha512Crypt : String → String → η
  checkUnixhash : String → η → Bool

def Unixhash.Exact {η : Type} (crypt : Unixhash η) : Prop :=
  ∀ word salt passwd, crypt.checkUnixhash passwd (crypt.sha512Crypt word salt) = true ↔
      passwd = word

structure UserOnetimePassword (η : Type) where
  uid : ℕ
  expires : ℚ
  keyhash : η
  used : Bool := false

structure OnetimePasswordManager (η : Type) where
  otpasswd : Dict String (UserOnetimePassword η)
  cnt : ℕ

def humanFriendly (p : String) : String :=
  String.ofList (['-'].intercalate
    [p.toList.take 6, (p.toList.drop 6).take 6, (p.toList.drop 12).take 6,
      (p.toList.drop 18).take 6])

def passwordText (index key : String) : String :=
  String.ofList (index.toList ++ '_' :: key.toList)

/-- `plaintext.split('_')`, which has to have two parts. -/
def splitPassword (plaintext : String) : Option (String × String) :=
  match plaintext.toList.splitOn '_' with
  | [idx, passwd] => some (String.ofList idx, String.ofList passwd)
  | _ => none

namespace OnetimePasswordManager

variable {η : Type} (crypt : Unixhash η)

def empty : OnetimePasswordManager η where
  otpasswd := Dict.empty
  cnt := 0

def generateForUid (manager : OnetimePasswordManager η) (uid : ℕ)
    (p salt : String) (now : ℚ) : OnetimePasswordManager η × String :=
  let key := humanFriendly p
  let entry : UserOnetimePassword η :=
    { uid, expires := now + 86400, keyhash := crypt.sha512Crypt key salt }
  let cnt := manager.cnt + 1
  (⟨manager.otpasswd.set (toString cnt) entry, cnt⟩, passwordText (toString cnt) key)

/-- `authenticate` up to the lock. -/
def findEntry (manager : OnetimePasswordManager η) (plaintext : String) :
    Option (String × String) :=
  match splitPassword plaintext with
  | none => none
  | some (idx, passwd) =>
    if idx ∈ manager.otpasswd then some (idx, passwd) else none

/-- `authenticate` under the lock.  The entry is the object that was found
under `idx`; it stays there. -/
def checkEntry (manager : OnetimePasswordManager η) (uid : ℕ)
    (idx passwd : String) (now : ℚ) :
    OnetimePasswordManager η × OTPWResponse :=
  match manager.otpasswd.get? idx with
  | none => (manager, .noKey)
  | some entry =>
    if entry.uid ≠ uid then (manager, .wrongUser)
    else if entry.used then (manager, .alreadyUsed)
    else if now > entry.expires then (manager, .expired)
    else if !crypt.checkUnixhash passwd entry.keyhash then
      (manager, .badPasskey)
    else
      ({ manager with otpasswd := manager.otpasswd.set idx { entry with used := true } }, .success)

end OnetimePasswordManager

structure AuthenticateCall where
  uid : ℕ
  (plaintext idx passwd : String)

inductive OtpwEvent where
  | generated (password : String) (uid : ℕ) (expires : ℚ)
  | returned (uid : ℕ) (plaintext : String) (now : ℚ) (response : OTPWResponse)
deriving DecidableEq

/-- `pending` are the calls of `authenticate` that have found their entry and
wait for the lock. -/
structure OtpwState (η : Type) where
  manager : OnetimePasswordManager η
  clock : ℚ
  pending : ℕ → Option AuthenticateCall
  log : List OtpwEvent

namespace OtpwState

variable {η : Type} (crypt : Unixhash η)

def initial : OtpwState η where
  manager := .empty
  clock := 0
  pending := fun _ => none
  log := []

inductive Action where
  | generateForUid (uid : ℕ) (p salt : String) (now : ℚ)
  | authenticate (call uid : ℕ) (plaintext : String)
  | locked (call : ℕ) (now : ℚ)

def step (s : OtpwState η) : Action → Option (OtpwState η)
  | .generateForUid uid p salt now =>
    if s.clock ≤ now then
      let (manager, password) := s.manager.generateForUid crypt uid p salt now
      some
        { s with manager, clock := now, log := .generated password uid (now + 86400) :: s.log }
    else none
  | .authenticate call uid plaintext =>
    if s.pending call = none then
      match s.manager.findEntry plaintext with
      | none =>
        some
          { s with log := .returned uid plaintext s.clock .noKey :: s.log }
      | some (idx, passwd) =>
        some
          { s with
            pending := Function.update s.pending call
              (some ⟨uid, plaintext, idx, passwd⟩) }
    else none
  | .locked call now =>
    match s.pending call with
    | none => none
    | some found =>
      if s.clock ≤ now then
        let (manager, response) :=
          s.manager.checkEntry crypt found.uid found.idx found.passwd now
        some
          { manager
            clock := now
            pending := Function.update s.pending call none
            log := .returned found.uid found.plaintext now response ::
              s.log }
      else none

end OtpwState

end Middlewared
