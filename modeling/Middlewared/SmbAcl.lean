import Middlewared.DictSpelling
import Middlewared.ExceptRules
import Middlewared.Sid
import Mathlib.Data.List.ReduceOption

/-!
# ACLs as security descriptors

`nfsv4_to_smb` writes an NFSv4 ACL as a security descriptor, and `smb_to_nfsv4` reads one.
-/

namespace Middlewared.SmbAcl

open Dict List

inductive AclPrincipal where
  | owner
  | group
  | everyone
deriving DecidableEq

namespace AclPrincipal

def toSmb : AclPrincipal → String
  | .owner => "CREATOR-OWNER"
  | .group => "CREATOR-GROUP"
  | .everyone => "EVERYONE"

def toSid : AclPrincipal → String
  | .owner => "S-1-3-0"
  | .group => "S-1-3-1"
  | .everyone => "S-1-1-0"

def all : List AclPrincipal := [.owner, .group, .everyone]

def fromSid (sid : String) : Option AclPrincipal := all.find? (·.toSid = sid)

end AclPrincipal

/-- `ACLFlags`: the names of a flag for NFSv4 and for SMB. -/
def aclFlags : List (String × String) :=
  [("FILE_INHERIT", "OBJECT_INHERIT"), ("DIRECTORY_INHERIT", "CONTAINER_INHERIT"),
    ("NO_PROPAGATE_INHERIT", "NO_PROPAGATE_INHERIT"), ("INHERIT_ONLY", "INHERIT_ONLY"),
    ("INHERITED", "INHERITED")]

/-- `ACLPerms`, with the bits that the names for SMB stand for. -/
def aclPermBits : List ((String × String) × ℕ) :=
  [(("READ_DATA", "READ"), 0x00000001), (("WRITE_DATA", "WRITE"), 0x00000002),
    (("EXECUTE", "EXECUTE"), 0x00000020), (("DELETE", "DELETE"), 0x00010000),
    (("WRITE_ACL", "WRITE_DAC"), 0x00040000), (("WRITE_OWNER", "WRITE_OWNER"), 0x00080000),
    (("APPEND_DATA", "APPEND_DATA"), 0x00000004),
    (("READ_ATTRIBUTES", "READ_ATTRIBUTES"), 0x00000080),
    (("WRITE_ATTRIBUTES", "WRITE_ATTRIBUTES"), 0x00000100),
    (("READ_NAMED_ATTRS", "READ_EA"), 0x00000008),
    (("WRITE_NAMED_ATTRS", "WRITE_EA"), 0x00000010),
    (("DELETE_CHILD", "DELETE_CHILD"), 0x00000040),
    (("READ_ACL", "READ_CONTROL"), 0x00020000), (("SYNCHRONIZE", "SYNCHRONIZE"), 0x00100000)]

def aclPerms : List (String × String) := aclPermBits.map Prod.fst

abbrev Switches := Dict String Bool

def isSet (switches : Switches) (name : String) : Bool := (switches.get? name).getD false

/-- `convert` for NFSv4; with the pairs of names swapped, `convert` for SMB. -/
def convert (names : List (String × String)) (switches : Switches) : Switches :=
  Dict.ofEntries (names.map fun name => (name.2, isSet switches name.1))

def toStandard (perms : Switches) : String :=
  let only (set : List String) : Switches :=
    Dict.ofEntries (aclPerms.map fun name => (name.2, decide (name.2 ∈ set)))
  let standard := [("READ", only ["READ", "EXECUTE"]),
    ("CHANGE", only ["READ", "EXECUTE", "DELETE", "WRITE"]),
    ("FULL", only (aclPerms.map Prod.snd))]
  ((standard.find? fun entry =>
    aclPerms.all fun name => entry.2.get? name.2 = perms.get? name.2).map Prod.fst).getD ""

def toHex (perms : Switches) : String :=
  let rv := aclPermBits.foldl
    (fun rv perm => if isSet perms perm.1.2 then rv ||| perm.2 else rv) 0
  let digits := Nat.toDigits 16 rv
  "0x" ++ String.ofList (List.replicate (8 - digits.length) '0' ++ digits)

inductive IdType where
  | user
  | group
deriving DecidableEq

inductive SdError where
  | callError (errmsg : String)
  | attributeError
deriving DecidableEq

structure IdmapEntry where
  idType : IdType
  id : ℕ
  name : String
deriving DecidableEq

/-- What the identity mapping service knows: one SID for each id that it maps,
and one id for each SID. -/
structure SidMap where
  toId : String → Option IdmapEntry
  toSid : IdType → ℕ → Option String
  toSid_eq_some_iff : ∀ idType id sid, toSid idType id = some sid ↔
    ∃ name, toId sid = some ⟨idType, id, name⟩

structure Trustee where
  sid : Option String := none
  name : Option String := none
deriving DecidableEq

namespace SidMap

-- Named once: every definition below uses it.
local instance lawfulSids : LawfulBEq (Option String) := inferInstance

variable (idmap : SidMap)

/-- `idmap.convert_sids`: the entries of `mapped`. -/
def convertSids (sids : List (Option String)) : Except SdError (Dict String IdmapEntry) :=
  if sids = [] then
    .error (.callError "List of SIDS to convert must contain at least one entry")
  else if none ∈ sids then .error .attributeError
  else .ok (Dict.ofEntries (sids.filterMap fun sid =>
    sid.bind fun sid => (idmap.toId sid).map fun entry => (sid, entry)))

/-- `idmap.convert_unixids`: the entries of `mapped`. -/
def convertUnixids (ids : List (IdType × ℕ)) : Dict String Trustee :=
  Dict.ofEntries (ids.filterMap fun id => (idmap.toSid id.1 id.2).map fun sid =>
    ((if id.1 = .user then "UID:" else "GID:") ++ toString id.2,
      ⟨some sid, (idmap.toId sid).map IdmapEntry.name⟩))

end SidMap

/-- Whom an entry is for: its `tag` and its `id`. -/
inductive Who where
  | special (principal : AclPrincipal)
  | id (idType : IdType) (id : ℕ)
deriving DecidableEq

inductive AceType where
  | allow
  | deny
deriving DecidableEq

structure Nfs4Entry where
  who : Who
  type : AceType
  (perms flags : Switches)

structure Nfs4Acl where
  (uid gid : ℕ)
  acl : List Nfs4Entry

structure AccessMask where
  (hex standard : String)
  special : Switches
  unknown : String := "0x00000000"

structure SmbEntry where
  trustee : Trustee
  allowed : Bool
  accessMask : AccessMask
  flags : Switches

structure SecurityDescriptor where
  revision : ℕ := 1
  (owner group : Trustee)
  dacl : List SmbEntry
  control : Switches

/-- The text that stands for the built-in function `id` in an f-string, and
its address. -/
def builtinId : String := "<built-in function id>"

variable (idmap : SidMap)

/-- `get_trustee`, whose key has the built-in function `id` in place of the
id. -/
def getTrustee : Who → Trustee
  | .special principal => ⟨some principal.toSid, some principal.toSmb⟩
  | .id idType id =>
    let key := (if idType = .user then "UID:" else "GID:") ++ builtinId
    ((idmap.convertUnixids [(idType, id)]).get? key).getD {}

def special (ace : Nfs4Entry) : Switches :=
  if ace.type = .allow then (convert aclPerms ace.perms).set "SYNCHRONIZE" true
  else convert aclPerms ace.perms

def smbEntry (trustee : Trustee) (ace : Nfs4Entry) : SmbEntry where
  trustee := trustee
  allowed := decide (ace.type = .allow)
  accessMask := {
    hex := toHex (special ace), standard := toStandard (special ace), special := special ace }
  flags := convert aclFlags ace.flags

/-- One turn of the loop in `nfsv4_to_smb`. -/
def convertAce (owner group : Trustee) (ace : Nfs4Entry) : List SmbEntry :=
  let entry := smbEntry (getTrustee idmap ace.who) ace
  if entry.trustee.sid = some "S-1-3-0" ∨ entry.trustee.sid = some "S-1-3-1" then
    -- both entries have the same dictionary of flags, so it is updated for both
    let flags :=
      ["OBJECT_INHERIT", "CONTAINER_INHERIT", "INHERIT_ONLY", "NO_PROPAGATE_INHERIT"].foldl
      (fun flags flag => flags.set flag false) (entry.flags.set "INHERIT_ONLY" true)
    let trustee := if entry.trustee.sid = some "S-1-3-0" then owner else group
    [{ entry with flags }, { entry with trustee, flags }]
  else [entry]

def controlFlags : List String :=
  ["Self Relative", "RM Control Valid", "SACL Protected", "DACL Protected",
    "SACL Auto Inherited", "DACL Auto Inherited", "SACL Inheritance Required",
    "DACL Inheritance Required", "Server Security", "DACL Trusted", "SACL Defaulted",
    "SACL Present", "DACL Defaulted", "DACL Present", "Group Defaulted", "Owner Defaulted"]

def nfsv4ToSmb (nfs4acl : Nfs4Acl) : SecurityDescriptor :=
  let owner := getTrustee idmap (.id .user nfs4acl.uid)
  let group := getTrustee idmap (.id .group nfs4acl.gid)
  let dacl := nfs4acl.acl.flatMap (convertAce idmap owner group)
  let inheritedPresent := nfs4acl.acl.any fun ace => isSet ace.flags "INHERITED"
  let control := Dict.ofEntries (controlFlags.map fun flag =>
    (flag, decide (flag ∈ ["Self Relative", "DACL Present"])))
  { owner
    group
    dacl
    control := if inheritedPresent then control else control.set "DACL Protected" true }

/-- One turn of the loop in `smb_to_nfsv4`; `none` where an entry is dropped. -/
def readEntry (mapped : Dict String IdmapEntry) (ignoreErrors : Bool) (entry : SmbEntry) :
    Except SdError (Option Nfs4Entry) :=
  let read (who : Who) : Nfs4Entry := {
    who
    type := if entry.allowed then .allow else .deny
    perms := convert (aclPerms.map Prod.swap) entry.accessMask.special
    flags := convert (aclFlags.map Prod.swap) entry.flags }
  match entry.trustee.sid.bind AclPrincipal.fromSid with
  | some principal => .ok (some (read (.special principal)))
  | none =>
    match entry.trustee.sid.bind mapped.get? with
    | some trustee => .ok (some (read (.id trustee.idType trustee.id)))
    | none =>
      if ignoreErrors then .ok none
      else .error (.callError ("Failed to convert SID [" ++
        entry.trustee.sid.getD "None" ++ "] to ID"))

def smbToNfsv4 (sd : SecurityDescriptor) (ignoreErrors : Bool) :
    Except SdError (List Nfs4Entry) := do
  let mapped ← idmap.convertSids (sd.dacl.map fun entry => entry.trustee.sid)
  let entries ← sd.dacl.mapM (readEntry mapped ignoreErrors)
  return entries.reduceOption

/-! ## What comes back -/

def SameSwitches (names : List String) (switches other : Switches) : Prop :=
  ∀ name ∈ names, isSet switches name = isSet other name

/-- The access of an entry, which has `SYNCHRONIZE` where it allows. -/
structure SameAccess (ace out : Nfs4Entry) : Prop where
  type : out.type = ace.type
  perms : SameSwitches (aclPerms.map Prod.fst) out.perms
    (if ace.type = .allow then ace.perms.set "SYNCHRONIZE" true else ace.perms)

structure SameEntry (ace out : Nfs4Entry) : Prop extends SameAccess ace out where
  who : out.who = ace.who
  flags : SameSwitches (aclFlags.map Prod.fst) out.flags ace.flags

structure InheritOnly (ace out : Nfs4Entry) : Prop extends SameAccess ace out where
  who : out.who = ace.who
  inheritOnly : isSet out.flags "INHERIT_ONLY" = true
  inherits : SameSwitches ["FILE_INHERIT", "DIRECTORY_INHERIT"] out.flags ace.flags

structure NotInheritable (ace : Nfs4Entry) (who : Who) (out : Nfs4Entry) : Prop
    extends SameAccess ace out where
  who : out.who = who
  inherits : isSet out.flags "FILE_INHERIT" = false ∧ isSet out.flags "DIRECTORY_INHERIT" = false

inductive Kept (owner group : Who) : List Nfs4Entry → List Nfs4Entry → Prop
  | nil : Kept owner group [] []
  | same {ace out : Nfs4Entry} {acl outs : List Nfs4Entry}
      (hwho : ace.who ≠ .special .owner ∧ ace.who ≠ .special .group) (hout : SameEntry ace out)
      (hrest : Kept owner group acl outs) : Kept owner group (ace :: acl) (out :: outs)
  | split {ace first second : Nfs4Entry} {acl outs : List Nfs4Entry}
      (hwho : ace.who = .special .owner ∨ ace.who = .special .group)
      (hfirst : InheritOnly ace first)
      (hsecond : NotInheritable ace (if ace.who = .special .owner then owner else group) second)
      (hrest : Kept owner group acl outs) : Kept owner group (ace :: acl) (first :: second :: outs)

def KeepsAccess (nfs4acl : Nfs4Acl) : Prop :=
  ∃ out, smbToNfsv4 idmap (nfsv4ToSmb idmap nfs4acl) false = .ok out ∧
    Kept (.id .user nfs4acl.uid) (.id .group nfs4acl.gid) nfs4acl.acl out

/-- The mapping has a SID for the ids, the owner and the group of an ACL. -/
def SidMap.Covers (nfs4acl : Nfs4Acl) : Prop :=
  (idmap.toSid .user nfs4acl.uid).isSome ∧ (idmap.toSid .group nfs4acl.gid).isSome ∧
    ∀ ace ∈ nfs4acl.acl, ∀ idType id, ace.who = .id idType id → (idmap.toSid idType id).isSome

section

variable {names : List (String × String)} {switches : Switches} {name : String × String}

theorem isSet_convert (hnodup : (names.map Prod.snd).Nodup) (hname : name ∈ names) :
    isSet (convert names switches) name.2 = isSet switches name.1 := by
  have hkeys : ((names.map fun name => (name.2, isSet switches name.1)).map Prod.fst).Nodup := by
    rw [List.map_map]
    exact hnodup
  have hget : (convert names switches).get? name.2 = some (isSet switches name.1) := by
    rw [← mem_entries_iff, convert, entries_ofEntries_of_nodup hkeys]
    exact List.mem_map_of_mem hname
  rw [isSet, hget, Option.getD_some]

theorem isSet_convert_swap (hnodup : (names.map Prod.fst).Nodup) (hname : name ∈ names) :
    isSet (convert (names.map Prod.swap) switches) name.1 = isSet switches name.2 := by
  have hkeys : ((names.map Prod.swap).map Prod.snd).Nodup := by
    rw [List.map_map]
    exact hnodup
  exact isSet_convert hkeys (List.mem_map_of_mem hname)

theorem isSet_set (key other : String) (value : Bool) :
    isSet (switches.set key value) other = if other = key then value else isSet switches other := by
  unfold isSet
  rw [get?_set]
  split <;> rfl

theorem sameSwitches_convert (hnodup : (names.map Prod.fst).Nodup)
    (hnodup' : (names.map Prod.snd).Nodup) :
    SameSwitches (names.map Prod.fst) (convert (names.map Prod.swap) (convert names switches))
      switches := by
  intro key hkey
  obtain ⟨name, hname, rfl⟩ := List.mem_map.mp hkey
  rw [isSet_convert_swap hnodup hname, isSet_convert hnodup' hname]

theorem nodup_aclPerms : (aclPerms.map Prod.fst).Nodup ∧ (aclPerms.map Prod.snd).Nodup := by
  decide

theorem nodup_aclFlags : (aclFlags.map Prod.fst).Nodup ∧ (aclFlags.map Prod.snd).Nodup := by
  decide

theorem synchronize_iff : ∀ name ∈ aclPerms,
    name.2 = "SYNCHRONIZE" ↔ name.1 = "SYNCHRONIZE" := by decide

end

section

variable {idmap} {nfs4acl : Nfs4Acl} {owner group : Trustee} {ace : Nfs4Entry}

theorem toString_ne_builtinId (id : ℕ) : builtinId ≠ toString id := by
  intro heq
  have hmem : '<' ∈ (toString id).toList := by
    rw [← heq]
    decide
  rw [Nat.toString_eq_ofList_toDigits, String.toList_ofList] at hmem
  exact notMem_toDigits (by decide) id hmem

theorem getTrustee_id (idType : IdType) (id : ℕ) : getTrustee idmap (.id idType id) = {} := by
  unfold getTrustee SidMap.convertUnixids
  cases hsid : idmap.toSid idType id with
  | none => simp [hsid, get?_ofEntries]
  | some sid =>
    have hkey : (if idType = .user then "UID:" else "GID:") ++ builtinId ≠
        (if idType = .user then "UID:" else "GID:") ++ toString id := by
      intro heq
      have hchars := congrArg String.toList heq
      rw [String.toList_append, String.toList_append] at hchars
      exact toString_ne_builtinId id (String.toList_injective (append_cancel_left hchars))
    simp only [filterMap_cons, hsid, Option.map_some, filterMap_nil,
      get?_ofEntries, reverse_singleton, lookup_cons_ite, if_neg hkey]
    rfl

theorem isSet_special {name : String × String} (hname : name ∈ aclPerms) :
    isSet (special ace) name.2 =
      isSet (if ace.type = .allow then ace.perms.set "SYNCHRONIZE" true else ace.perms) name.1 := by
  have hconvert : isSet (convert aclPerms ace.perms) name.2 = isSet ace.perms name.1 :=
    isSet_convert nodup_aclPerms.2 hname
  unfold special
  split
  · simp only [isSet_set, synchronize_iff name hname, hconvert]
  · exact hconvert

theorem convertAce_everyone (hwho : ace.who = .special .everyone) :
    convertAce idmap owner group ace = [smbEntry ⟨some "S-1-1-0", some "EVERYONE"⟩ ace] := by
  unfold convertAce
  rw [hwho]
  rfl

/-- The entry of anyone but everyone has a trustee without a SID, or is
followed by one for the owner or the group. -/
theorem exists_none_of_ne_everyone (hwho : ace.who ≠ .special .everyone) :
    ∃ entry ∈ convertAce idmap (getTrustee idmap (.id .user nfs4acl.uid))
      (getTrustee idmap (.id .group nfs4acl.gid)) ace, entry.trustee.sid = none := by
  unfold convertAce
  rw [getTrustee_id, getTrustee_id]
  cases hace : ace.who with
  | special principal =>
    cases principal with
    | owner => exact ⟨_, mem_cons_of_mem _ mem_cons_self, rfl⟩
    | group => exact ⟨_, mem_cons_of_mem _ mem_cons_self, rfl⟩
    | everyone => exact absurd hace hwho
  | id idType id =>
    rw [getTrustee_id]
    exact ⟨_, mem_cons_self, rfl⟩

theorem everyone_of_convertSids {mapped : Dict String IdmapEntry}
    (hok : idmap.convertSids ((nfsv4ToSmb idmap nfs4acl).dacl.map fun entry =>
      entry.trustee.sid) = .ok mapped) :
    nfs4acl.acl ≠ [] ∧ ∀ ace ∈ nfs4acl.acl, ace.who = .special .everyone := by
  unfold SidMap.convertSids at hok
  split at hok
  · cases hok
  · rename_i hne
    split at hok
    · cases hok
    · rename_i hnone
      constructor
      · intro hnil
        apply hne
        simp [nfsv4ToSmb, hnil]
      · intro ace hace
        by_contra hwho
        obtain ⟨entry, hentry, hsid⟩ := @exists_none_of_ne_everyone idmap nfs4acl ace hwho
        apply hnone
        rw [← hsid]
        exact List.mem_map_of_mem (List.mem_flatMap.mpr ⟨ace, hace, hentry⟩)

def readBack (ace : Nfs4Entry) : Nfs4Entry where
  who := ace.who
  type := ace.type
  perms := convert (aclPerms.map Prod.swap) (special ace)
  flags := convert (aclFlags.map Prod.swap) (convert aclFlags ace.flags)

theorem readEntry_everyone (hwho : ace.who = .special .everyone) (mapped : Dict String IdmapEntry) :
    readEntry mapped false (smbEntry ⟨some "S-1-1-0", some "EVERYONE"⟩ ace) =
      .ok (some (readBack ace)) := by
  have htype : (if (smbEntry {} ace).allowed then AceType.allow else .deny) = ace.type := by
    unfold smbEntry
    cases ace.type <;> rfl
  unfold readBack
  rw [← htype, hwho]
  rfl

theorem sameAccess_readBack (ace : Nfs4Entry) : SameAccess ace (readBack ace) := by
  refine ⟨by simp only [readBack], ?_⟩
  intro key hkey
  obtain ⟨name, hname, heq⟩ := List.mem_map.mp hkey
  have hback := @isSet_convert_swap aclPerms (special ace) name nodup_aclPerms.1 hname
  simp only [readBack, ← heq, hback, isSet_special hname]

theorem sameEntry_readBack (ace : Nfs4Entry) : SameEntry ace (readBack ace) := by
  refine ⟨sameAccess_readBack ace, by simp only [readBack], ?_⟩
  exact sameSwitches_convert nodup_aclFlags.1 nodup_aclFlags.2

theorem kept_map_readBack {acl : List Nfs4Entry} {who who' : Who}
    (hall : ∀ ace ∈ acl, ace.who = .special .everyone) :
    Kept who who' acl (acl.map readBack) := by
  induction acl with
  | nil => exact .nil
  | cons ace acl ih =>
    rw [forall_mem_cons] at hall
    apply Kept.same _ (sameEntry_readBack ace) (ih hall.2)
    rw [hall.1]
    exact ⟨nofun, nofun⟩

/-- The access of an ACL is kept when it has entries, and these are all for
everyone. -/
theorem keepsAccess_iff (idmap : SidMap) (nfs4acl : Nfs4Acl) : KeepsAccess idmap nfs4acl ↔
    nfs4acl.acl ≠ [] ∧ ∀ ace ∈ nfs4acl.acl, ace.who = .special .everyone := by
  constructor
  · intro hkeeps
    obtain ⟨out, hout, _⟩ := hkeeps
    obtain ⟨mapped, hmapped, _⟩ := bind_eq_ok_iff.mp hout
    exact everyone_of_convertSids hmapped
  · intro hall
    obtain ⟨hne, hwho⟩ := hall
    have hdacl : (nfsv4ToSmb idmap nfs4acl).dacl =
        nfs4acl.acl.map (smbEntry ⟨some "S-1-1-0", some "EVERYONE"⟩) := by
      rw [map_eq_flatMap]
      exact flatMap_congr fun ace hace => convertAce_everyone (hwho ace hace)
    have hmapped : ∃ mapped, idmap.convertSids ((nfsv4ToSmb idmap nfs4acl).dacl.map fun entry =>
        entry.trustee.sid) = .ok mapped := by
      rw [hdacl]
      unfold SidMap.convertSids
      rw [if_neg (by simpa using hne), if_neg (by simp [smbEntry])]
      exact ⟨_, rfl⟩
    obtain ⟨mapped, hmapped⟩ := hmapped
    refine ⟨nfs4acl.acl.map readBack, ?_, kept_map_readBack hwho⟩
    have hread : (nfsv4ToSmb idmap nfs4acl).dacl.mapM (readEntry mapped false) =
        .ok (nfs4acl.acl.map fun ace => some (readBack ace)) := by
      rw [hdacl, mapM_map]
      exact mapM_eq_ok_map fun ace hace => readEntry_everyone (hwho ace hace) mapped
    unfold smbToNfsv4
    rw [hmapped, ok_bind, hread, ok_bind]
    simp [List.reduceOption, pure, Except.pure]

def localUsers : SidMap where
  toId sid := if sid = "S-1-22-1-1000" then some ⟨.user, 1000, "bob"⟩ else
    if sid = "S-1-22-2-1000" then some ⟨.group, 1000, "bob"⟩ else none
  toSid idType id := if id = 1000 then
    some (if idType = .user then "S-1-22-1-1000" else "S-1-22-2-1000") else none
  toSid_eq_some_iff := by
    intro idType id sid
    constructor
    · intro hsid
      split at hsid
      · rename_i hid
        cases idType
        all_goals
          rw [← Option.some.inj hsid, hid]
          exact ⟨"bob", rfl⟩
      · cases hsid
    · intro hname
      obtain ⟨name, hname⟩ := hname
      split at hname
      · rename_i hsid
        cases hname
        rw [hsid]
        rfl
      · split at hname
        · rename_i hsid
          cases hname
          rw [hsid]
          rfl
        · cases hname

def bobsAcl : Nfs4Acl where
  uid := 1000
  gid := 1000
  acl := [{
    who := .id .user 1000
    type := .allow
    perms := Dict.ofEntries [("READ_DATA", true)]
    flags := Dict.ofEntries [("FILE_INHERIT", true)] }]

/-- The key of the trustee is built from the function `id`. -/
theorem bobsAcl_not_keepsAccess : localUsers.Covers bobsAcl ∧ ¬ KeepsAccess localUsers bobsAcl := by
  constructor
  · refine ⟨rfl, rfl, ?_⟩
    intro ace hace idType id hwho
    rw [List.mem_singleton.mp hace] at hwho
    cases hwho
    rfl
  · intro hkeeps
    obtain ⟨out, hout, _⟩ := hkeeps
    cases hout

end

end Middlewared.SmbAcl
