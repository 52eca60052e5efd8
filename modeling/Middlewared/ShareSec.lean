import Middlewared.SmbSharing

/-!
# Share ACLs

The ACL of a share is a security descriptor in `share_info.tdb`, under the name of the share in
lower case, with a copy in the row of the share.
-/

namespace Middlewared

open PyString

inductive ShareAcePerm where
  | full
  | change
  | read
deriving DecidableEq

inductive ShareAceType where
  | allowed
  | denied
deriving DecidableEq

structure ShareAce where
  aeWhoSid : String
  aePerm : ShareAcePerm
  aeType : ShareAceType
deriving DecidableEq

/-- What `getacl` returns and `setacl` takes. -/
structure ShareAcl where
  shareName : String
  shareAcl : List ShareAce
deriving DecidableEq

inductive ShareSecError where
  | callError (errmsg : String)
  | valueError
  | typeError
  | sharing (error : SharingError)
deriving DecidableEq

/-- Security descriptors as Samba packs them, in base64.  A SID may be given by
any of its names and comes back as its text. -/
structure ShareAclRuntime extends SharingRuntime where
  (upper sidText : String → String)
  shareAclToSd : List ShareAce → Option String
  sdToShareAcl : String → Option (List ShareAce)
  casefold_lower : ∀ text, casefold (lower text) = casefold text
  lower_homes : lower "HOMES" = "homes" ∧ lower "homes" = "homes"
  casefold_homes : casefold "homes" = "homes"
  upper_eq_homes_iff : ∀ text, upper text = "HOMES" ↔ casefold text = "homes"
  sd_revision : ∀ acl text, shareAclToSd acl = some text → startsWith text "AQ" = true
  sdToShareAcl_of_shareAclToSd : ∀ acl text, shareAclToSd acl = some text → sdToShareAcl text =
      some (acl.map fun ace => { ace with aeWhoSid := sidText ace.aeWhoSid })

def ShareAclRuntime.written (rt : ShareAclRuntime) (acl : List ShareAce) :
    List ShareAce :=
  acl.map fun ace => { ace with aeWhoSid := rt.sidText ace.aeWhoSid }

def defaultShareAcl : List ShareAce := [⟨"S-1-1-0", .full, .allowed⟩]

/-- The shares, the column `cifs_share_acl` by the `id` of the row, and
`share_info.tdb`. -/
structure ShareAclState where
  sharing : SharingState
  column : Dict ℕ String
  tdb : Dict String String

namespace ShareSec

variable (rt : ShareAclRuntime) (host : SharingHost) (s : ShareAclState)

def configShare (shareName : String) : Option SmbShareRow :=
  if rt.upper shareName = "HOMES" then
    s.sharing.rows.find? fun row => row.share.home
  else
    s.sharing.rows.find? fun row =>
      rt.casefold row.share.name = rt.casefold shareName

def aclOf (sd : Option String) : Option (List ShareAce) :=
  match sd with
  | none => some defaultShareAcl
  | some sd => rt.sdToShareAcl sd

def getacl (shareName : String) : Except ShareSecError ShareAcl :=
  match configShare rt s shareName with
  | none => .error (.callError (shareName ++ ": share does not exist"))
  | some _ =>
    match aclOf rt (s.tdb.get? (rt.lower shareName)) with
    | none => .error .valueError
    | some acl => .ok ⟨shareName, acl⟩

def setacl (data : ShareAcl) : Except ShareSecError ShareAclState :=
  match configShare rt s data.shareName with
  | none => .error (.callError (data.shareName ++ ": share does not exist"))
  | some row =>
    match rt.shareAclToSd data.shareAcl with
    | none => .error .valueError
    | some sd =>
      .ok { s with
          tdb := s.tdb.set (rt.lower data.shareName) sd
          column := s.column.set row.share.id sd }

/-- A text that starts like a SID is passed to `setacl` as if it were a list of
entries. -/
def flushShare (row : SmbShareRow) : Except ShareSecError ShareAclState :=
  let shareName := if row.share.home then "HOMES" else row.share.name
  match s.column.get? row.share.id with
  | none => .ok s
  | some sd =>
    if sd = "" then .ok s
    else if startsWith sd "S-1-" then .error .typeError
    else .ok { s with tdb := s.tdb.set (rt.lower shareName) sd }

def flushShareInfo : Except ShareSecError ShareAclState :=
  s.sharing.rows.foldlM (flushShare rt) s

def synchronizeShare (column : Dict ℕ String) (row : SmbShareRow) :
    Dict ℕ String :=
  let shareName := if !row.share.home then row.share.name else "homes"
  match s.tdb.get? (rt.lower shareName) with
  | none => column
  | some sd =>
    if some sd ≠ column.get? row.share.id then column.set row.share.id sd
    else column

def synchronizeAcls : ShareAclState :=
  if s.tdb.size = 0 then s
  else
    { s with column := s.sharing.rows.foldl (synchronizeShare rt s) s.column }

end ShareSec

def liftSharing {α : Type} (result : Except SharingError α) :
    Except ShareSecError α :=
  match result with
  | .ok value => .ok value
  | .error e => .error (.sharing e)

namespace SharingSmb

variable (rt : ShareAclRuntime) (host : SharingHost) (s : ShareAclState)

def runningName (share : SmbShare) : String :=
  if share.home then "homes" else share.name

def newIsLocked (old new : SmbShare) : Bool :=
  if old.path ≠ new.path then host.pathInLockedDatasets new.path
  else old.locked

def createShare (id : ℕ) (data : SmbShareUpdate) :
    Except ShareSecError ShareAclState := do
  let sharing ←
    liftSharing (doCreate rt.toSharingRuntime host s.sharing id data)
  return { s with sharing, column := s.column.erase id }

/-- What `apply_share_changes` does to the ACLs.  The case in which it is refused
after the flush, whose rows are restored while the new name keeps what the flush has
written, is left out. -/
def applyShareChanges (old new : SmbShare) :
    Except ShareSecError ShareAclState :=
  if runningName old ≠ runningName new then ShareSec.flushShareInfo rt s
  else .ok s

def updateShare (id : ℕ) (data : SmbShareUpdate) :
    Except ShareSecError ShareAclState := do
  let old ← liftSharing (s.sharing.getInstance host id)
  let new := old.update data
  let sharing ←
    liftSharing (doUpdate rt.toSharingRuntime host s.sharing id data)
  let updated := { s with sharing }
  if old.locked && newIsLocked host old new then
    return updated
  else
    applyShareChanges rt updated old new

def deleteShare (running : List String) (id : ℕ) :
    Except ShareSecError ShareAclState := do
  let share ← liftSharing (s.sharing.getInstance host id)
  let sharing ← liftSharing (doDelete host s.sharing id)
  let shareName := runningName share
  return {
    sharing
    column := s.column.erase id
    tdb :=
      if shareName ∈ running then s.tdb.erase (rt.lower shareName) else s.tdb }

end SharingSmb

inductive ShareAclCall where
  | create (id : ℕ) (data : SmbShareUpdate)
  | update (id : ℕ) (data : SmbShareUpdate)
  | delete (running : List String) (id : ℕ)
  | setacl (data : ShareAcl)
  | flushShareInfo
  | synchronizeAcls

namespace ShareAclState

def perform (rt : ShareAclRuntime) (host : SharingHost) (s : ShareAclState) :
    ShareAclCall → Except ShareSecError ShareAclState
  | .create id data => SharingSmb.createShare rt host s id data
  | .update id data => SharingSmb.updateShare rt host s id data
  | .delete running id => SharingSmb.deleteShare rt host s running id
  | .setacl data => ShareSec.setacl rt s data
  | .flushShareInfo => ShareSec.flushShareInfo rt s
  | .synchronizeAcls => .ok (ShareSec.synchronizeAcls rt s)

end ShareAclState

/-- A state, and the ACL that was last set for each share since there has been
a share of that `id`. -/
structure RecordedAcls where
  state : ShareAclState
  lastSet : Dict ℕ (List ShareAce)

namespace RecordedAcls

variable (rt : ShareAclRuntime) (s : RecordedAcls)

def record : ShareAclCall → Dict ℕ (List ShareAce)
  | .create id _ => s.lastSet.erase id
  | .delete _ id => s.lastSet.erase id
  | .setacl data =>
    match ShareSec.configShare rt s.state data.shareName with
    | none => s.lastSet
    | some row => s.lastSet.set row.share.id data.shareAcl
  | .update _ _ | .flushShareInfo | .synchronizeAcls => s.lastSet

def step (call : SharingHost × ShareAclCall) : Option RecordedAcls :=
  ((s.state.perform rt call.1 call.2).toOption).map fun state =>
    ⟨state, s.record rt call.2⟩

def run (calls : List (SharingHost × ShareAclCall)) : Option RecordedAcls :=
  TransitionSystem.run (step rt) s calls

end RecordedAcls

end Middlewared
