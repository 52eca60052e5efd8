import Middlewared.DictSpelling
import Middlewared.ExceptRules
import Middlewared.PyString
import Middlewared.RelationalTable

/-!
# Samba's user database

`passdb.tdb` has two records for a user: one from the RID to the name, and one from the name to
everything else.
-/

namespace Middlewared

open PyString

structure PDBTimes where
  (logon logoff kickoff badPassword passLastSet passCanChange passMustChange : ℤ)
deriving DecidableEq

structure PDBEntry where
  (username ntUsername domain fullName comment homeDir dirDrive : String)
  (logonScript profilePath : String)
  (userRid groupRid : ℕ)
  acctDesc : String
  acctCtrl : ℤ
  ntPw : String
  (logonCount badPwCount : ℕ)
  times : PDBTimes
deriving DecidableEq

/-- The records `RID_…`, by the number in their key, and the records `USER_…`,
by the name in theirs. -/
structure PassdbFile where
  rids : Dict ℕ String
  users : Dict String PDBEntry

structure PassdbUser where
  id : ℕ
  (username fullName : String)
  (smb isLocal locked passwordDisabled : Bool)
  smbhash : String
deriving DecidableEq

inductive PassdbError where
  | mustReinit (reason : String)
  | valueError
  | indexError
deriving DecidableEq

namespace PassdbFile

def empty : PassdbFile := ⟨Dict.empty, Dict.empty⟩

/-- `_parse_passdb_entry`. -/
def parseEntry (file : PassdbFile) (username : String) :
    Except PassdbError PDBEntry :=
  match file.users.get? username with
  | none =>
    .error (.mustReinit ("USER_" ++ username ++ ": passdb.tdb lacks expected key"))
  | some entry => .ok entry

def passdbEntries (file : PassdbFile) : Except PassdbError (List PDBEntry) :=
  file.rids.entries.mapM fun record => file.parseEntry record.2

def isHexDigit (c : Char) : Bool :=
  c.isDigit || ('a' ≤ c && c ≤ 'f') || ('A' ≤ c && c ≤ 'F')

/-- Whether `bytes.fromhex` takes a text; blanks may stand between bytes. -/
def isHexBytes : List Char → Bool
  | [] => true
  | [c] => isSpace c
  | c :: d :: rest =>
    if isSpace c then isHexBytes (d :: rest)
    else isHexDigit c && isHexDigit d && isHexBytes rest

def packEntry (entry : PDBEntry) : Except PassdbError PDBEntry :=
  if isHexBytes entry.ntPw.toList then .ok entry else .error .valueError

def setEntry (file : PassdbFile) (entry : PDBEntry) : PassdbFile where
  rids := file.rids.set entry.userRid entry.username
  users := file.users.set entry.username entry

def insertPassdbEntries (file : PassdbFile) (entries : List PDBEntry) :
    Except PassdbError PassdbFile := do
  let packed ← entries.mapM packEntry
  return packed.foldl setEntry file

def deletePassdbEntry (file : PassdbFile) (username : String) (rid : ℕ) :
    PassdbFile :=
  if username ∈ file.users ∧ rid ∈ file.rids then
    ⟨file.rids.erase rid, file.users.erase username⟩
  else file

end PassdbFile

namespace PassdbUser

def passdbTimeTMax : ℤ := 2085923199

/-- `db_id_to_rid`, which is also the last part of the `sid`.  It refuses an id
from 100000000 on, which no row of the user table has. -/
def rid (user : PassdbUser) : ℕ :=
  user.id + 20000

/-- `NORMAL_ACCOUNT`, with `AUTO_LOCKED` and `DISABLED`. -/
def uacFlags (user : PassdbUser) : ℕ :=
  16 + (if user.locked then 1024 else 0) + if user.passwordDisabled then 1 else 0

/-- A hash may have the format of `smbpasswd`. -/
def ntPw (user : PassdbUser) : Except PassdbError String :=
  if ':' ∈ user.smbhash.toList then
    match (user.smbhash.toList.splitOn ':')[3]? with
    | none => .error .indexError
    | some hash => .ok (String.ofList hash)
  else .ok user.smbhash

/-- `user_entry_to_passdb_entry`. -/
def passdbEntry (netbiosname : String) (now : ℤ) (user : PassdbUser)
    (existing : Option PDBEntry) : Except PassdbError PDBEntry :=
  if user.smb && user.smbhash ≠ "" then do
    let ntPw ← user.ntPw
    let fresh : PDBTimes :=
      { logon := 0
        logoff := passdbTimeTMax
        kickoff := passdbTimeTMax
        badPassword := 0
        passLastSet := now
        passCanChange := 0
        passMustChange := passdbTimeTMax }
    return {
      username := user.username
      ntUsername := ""
      domain := netbiosname.toUpper
      fullName := user.fullName
      comment := ""
      homeDir := ""
      dirDrive := ""
      logonScript := ""
      profilePath := ""
      userRid := user.rid
      groupRid := 513
      acctDesc := ""
      acctCtrl := user.uacFlags
      ntPw
      logonCount := (existing.map PDBEntry.logonCount).getD 0
      badPwCount := (existing.map PDBEntry.badPwCount).getD 0
      times := (existing.map PDBEntry.times).getD fresh }
  else .error .valueError

end PassdbUser

structure PassdbSync where
  pdbEntries : Dict ℕ PDBEntry
  toUpdate : List PDBEntry
  file : PassdbFile

namespace PassdbSync

def deleteRenamed (file : PassdbFile) (entry : PassdbUser) :
    Option PDBEntry → PassdbFile
  | none => file
  | some existing =>
    if existing.username ≠ entry.username then
      file.deletePassdbEntry existing.username existing.userRid
    else file

def user (netbiosname : String) (now : ℤ) (sync : PassdbSync)
    (entry : PassdbUser) : Except PassdbError PassdbSync := do
  let existing := sync.pdbEntries.get? entry.rid
  let update ← entry.passdbEntry netbiosname now existing
  return ⟨sync.pdbEntries.erase entry.rid, sync.toUpdate ++ [update],
    deleteRenamed sync.file entry existing⟩

end PassdbSync

def smbUsers (users : List PassdbUser) : List PassdbUser :=
  users.filter fun user => user.smb && user.isLocal

def entriesByRid (entries : List PDBEntry) : Dict ℕ PDBEntry :=
  Dict.ofEntries (entries.map fun entry => (entry.userRid, entry))

def synchronizePassdb (netbiosname : String) (now : ℤ) (force : Bool)
    (users : List PassdbUser) (file : PassdbFile) :
    Except PassdbError PassdbFile := do
  let file := if force then PassdbFile.empty else file
  let entries ← file.passdbEntries
  let sync ← (smbUsers users).foldlM (PassdbSync.user netbiosname now)
    ⟨entriesByRid entries, [], file⟩
  let file ← sync.file.insertPassdbEntries sync.toUpdate
  return sync.pdbEntries.entries.foldl
    (fun file entry => file.deletePassdbEntry entry.2.username entry.2.userRid)
    file

end Middlewared
