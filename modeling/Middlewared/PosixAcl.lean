import Middlewared.Dict
import Middlewared.ValidationErrors
import Mathlib.Data.List.DropRight
import Mathlib.Tactic

/-!
# POSIX.1e access control lists

`gen_aclstring_posix1e` goes through the entries of an ACL once.
-/

namespace Middlewared.PosixAcl

open List

inductive PosixAceTag where
  | userObj
  | groupObj
  | other
  | mask
  | user
  | group
deriving DecidableEq

namespace PosixAceTag

def text : PosixAceTag → String
  | .userObj => "USER_OBJ"
  | .groupObj => "GROUP_OBJ"
  | .other => "OTHER"
  | .mask => "MASK"
  | .user => "USER"
  | .group => "GROUP"

/-- `ace['tag'] in ["USER", "GROUP"]` -/
def isNamed (tag : PosixAceTag) : Bool :=
  tag = .user || tag = .group

end PosixAceTag

structure PosixPerms where
  (read write execute : Bool)
deriving DecidableEq

/-- `id` and `who` are `none` where the key is null or missing. -/
structure PosixAce where
  tag : PosixAceTag
  perms : PosixPerms
  default : Bool
  id : Option ℤ
  who : Option String
deriving DecidableEq

def aclUndefinedId : ℤ := -1

def aclMaxId : ℤ := 2 ^ 32 / 2 - 1

namespace PosixAce

/-- The truth value of `ace.get('who')`. -/
def hasWho (ace : PosixAce) : Bool :=
  ace.who.any (· ≠ "")

/-- `ace['id'] not in (None, ACL_UNDEFINED_ID)` -/
def hasNumericId (ace : PosixAce) : Bool :=
  ace.id.any (· ≠ aclUndefinedId)

/-- The bounds of `AceWhoId` and `check_ace_valid`. -/
def isValid (ace : PosixAce) : Bool :=
  ace.id.all (fun id => aclUndefinedId ≤ id && id ≤ aclMaxId) &&
    if ace.tag.isNamed then ace.hasWho || ace.hasNumericId
    else !ace.hasNumericId

def marks (default : Bool) (tag : PosixAceTag) (ace : PosixAce) : Bool :=
  ace.default = default && ace.tag = tag

end PosixAce

/-! ## `gen_aclstring_posix1e` -/

/-- The keys of `has_tag`, with whether `DEF_` stands in front. -/
abbrev TagKey := Bool × PosixAceTag

def noTags : Dict TagKey Bool where
  entries := [((false, .userObj), false), ((false, .groupObj), false), ((false, .other), false),
    ((false, .mask), false),
    ((true, .userObj), false),
    ((true, .groupObj), false),
    ((true, .other), false),
    ((true, .mask), false)]
  nodup := by decide

def requiredEntries : List PosixAceTag :=
  [.userObj, .groupObj, .other]

/-- What an `id` reads in an f-string. -/
def idText : Option ℤ → String
  | none => "None"
  | some (.ofNat n) => toString n
  | some (.negSucc n) => "-" ++ toString (n + 1)

/-- `tag.rstrip('_OBJ').lower()`, which takes any of these characters off the
end. -/
def shortTag (tag : PosixAceTag) : String :=
  String.ofList ((tag.text.toList.rdropWhile
    (fun c => decide (c ∈ ['_', 'O', 'B', 'J']))).map Char.toLower)

def permsText (perms : PosixPerms) : String :=
  (if perms.read then "r" else "-") ++ (if perms.write then "w" else "-") ++
    (if perms.execute then "x" else "-")

def aceText (ace : PosixAce) : String :=
  (if ace.default then "default:" else "") ++ shortTag ace.tag ++ ":" ++
    (if ace.id = some aclUndefinedId then "" else idText ace.id) ++ ":" ++
    permsText ace.perms

structure AclScan where
  hasTag : Dict TagKey Bool
  (hasNamed hasDefNamed hasDefault : Bool)
  aclstring : String
  verrors : List VerrorEntry

namespace AclScan

def start : AclScan where
  hasTag := noTags
  hasNamed := false
  hasDefNamed := false
  hasDefault := false
  aclstring := ""
  verrors := []

def aceErrors (scan : AclScan) (ace : PosixAce) : List VerrorEntry :=
  errorIf (ace.hasWho && ace.hasNumericId) "filesystem_acl.dacl.\x7bidx\x7d.who"
      ("Numeric ID " ++ idText ace.id ++ " and account name " ++
        ace.who.getD "" ++ " may not be specified simultaneously") ++
    errorIf (scan.hasTag.get? (ace.default, ace.tag) = some true) "filesystem_acl.dacl.\x7bidx\x7d"
      ("More than one " ++ (if ace.default then "default" else "") ++ " " ++
        ace.tag.text ++ " entry is not permitted")

def visit (scan : AclScan) (entry : PosixAce × ℕ) : AclScan :=
  let (ace, idx) := entry
  { hasTag :=
      if scan.hasTag.get? (ace.default, ace.tag) = some false then
        scan.hasTag.set (ace.default, ace.tag) true
      else scan.hasTag
    hasNamed := scan.hasNamed || (ace.tag.isNamed && !ace.default)
    hasDefNamed := scan.hasDefNamed || (ace.tag.isNamed && ace.default)
    hasDefault := scan.hasDefault || ace.default
    aclstring :=
      scan.aclstring ++ (if idx = 0 then "" else ",") ++ aceText ace
    verrors := scan.verrors ++ scan.aceErrors ace }

def sees (scan : AclScan) (default : Bool) (tag : PosixAceTag) : Bool :=
  (scan.hasTag.get? (default, tag)).getD false

def maskErrors (scan : AclScan) : List VerrorEntry :=
  if scan.hasNamed && !scan.sees false .mask then
    [("filesystem_acl.dacl", "Named (user or group) POSIX ACL entries " ++
        "require a mask entry to be present in the ACL.")]
  else
    errorIf (scan.hasDefNamed && !scan.sees true .mask) "filesystem_acl.dacl"
      ("Named default (user or group) POSIX ACL entries " ++
        "require a default mask entry to be present in the ACL.")

def requiredErrors (scan : AclScan) : List VerrorEntry :=
  requiredEntries.flatMap fun entry =>
    errorIf (!scan.sees false entry) "filesystem_acl.dacl"
        ("Presence of [" ++ entry.text ++ "] entry is required.") ++
      errorIf (scan.hasDefault && !scan.sees true entry) "filesystem_acl.dacl"
        ("Presence of default [" ++ entry.text ++ "] entry is required.")

def finalErrors (scan : AclScan) (recursive : Bool) : List VerrorEntry :=
  scan.maskErrors ++ errorIf (recursive && !scan.hasDefault) "filesystem_acl.dacl"
      ("Default ACL entries are required in order to apply " ++ "ACL recursively.") ++
    scan.requiredErrors

end AclScan

def scanAcl (dacl : List PosixAce) : AclScan :=
  dacl.zipIdx.foldl AclScan.visit .start

/-- The text and the errors that are added to `verrors`. -/
def genAclstringPosix1e (dacl : List PosixAce) (recursive : Bool) :
    String × List VerrorEntry :=
  let scan := scanAcl dacl
  (scan.aclstring, scan.verrors ++ scan.finalErrors recursive)

/-! ## What the scan remembers -/

theorem scanAcl_append_singleton (dacl : List PosixAce) (ace : PosixAce) :
    scanAcl (dacl ++ [ace]) = (scanAcl dacl).visit (ace, dacl.length) := by
  unfold scanAcl
  rw [zipIdx_append, foldl_append]
  simp

theorem get?_hasTag (dacl : List PosixAce) (default : Bool) (tag : PosixAceTag) :
    (scanAcl dacl).hasTag.get? (default, tag) = if tag.isNamed then none
      else some (dacl.any (PosixAce.marks default tag)) := by
  induction dacl using List.reverseRecOn with
  | nil => cases default <;> cases tag <;> rfl
  | append_singleton dacl ace ih =>
    rw [scanAcl_append_singleton]
    by_cases hkey : ace.default = default ∧ ace.tag = tag
    · obtain ⟨rfl, rfl⟩ := hkey
      simp only [AclScan.visit]
      rw [ih]
      cases hnamed : ace.tag.isNamed with
      | true => simp [hnamed, ih]
      | false =>
        have hself : PosixAce.marks ace.default ace.tag ace = true := by
          simp [PosixAce.marks]
        cases hseen : dacl.any (PosixAce.marks ace.default ace.tag) with
        | true => simp [ih, hnamed, hseen, any_append]
        | false => simp [hself, any_append]
    · have hother : PosixAce.marks default tag ace = false := by
        simpa [PosixAce.marks] using hkey
      have hne : (default, tag) ≠ (ace.default, ace.tag) := by
        intro heq
        cases heq
        exact hkey ⟨rfl, rfl⟩
      simp only [AclScan.visit, any_append, any_cons, hother, any_nil, Bool.or_false]
      split
      · rw [Dict.get?_set_of_ne _ hne, ih]
      · exact ih

theorem sees_scanAcl {tag : PosixAceTag} (hspecial : tag.isNamed = false)
    (dacl : List PosixAce) (default : Bool) :
    (scanAcl dacl).sees default tag = dacl.any (PosixAce.marks default tag) := by
  unfold AclScan.sees
  rw [get?_hasTag, hspecial]
  rfl

theorem scanAcl_any {field : AclScan → Bool} {mark : PosixAce → Bool}
    (hstart : field .start = false)
    (hvisit : ∀ scan ace i, field (scan.visit (ace, i)) = (field scan || mark ace))
    (dacl : List PosixAce) : field (scanAcl dacl) = dacl.any mark := by
  induction dacl using List.reverseRecOn with
  | nil => exact hstart
  | append_singleton dacl ace ih =>
    rw [scanAcl_append_singleton, hvisit, ih]
    simp

theorem hasNamed_scanAcl (dacl : List PosixAce) : (scanAcl dacl).hasNamed =
    dacl.any fun ace => ace.tag.isNamed && !ace.default :=
  scanAcl_any rfl (fun _ _ _ => rfl) dacl

theorem hasDefNamed_scanAcl (dacl : List PosixAce) : (scanAcl dacl).hasDefNamed =
    dacl.any fun ace => ace.tag.isNamed && ace.default :=
  scanAcl_any rfl (fun _ _ _ => rfl) dacl

theorem hasDefault_scanAcl (dacl : List PosixAce) :
    (scanAcl dacl).hasDefault = dacl.any PosixAce.default :=
  scanAcl_any rfl (fun _ _ _ => rfl) dacl

theorem verrors_scanAcl_eq_nil_iff (dacl : List PosixAce) : (scanAcl dacl).verrors = [] ↔
    (∀ ace ∈ dacl, (ace.hasWho && ace.hasNumericId) = false) ∧
      ∀ default tag, tag.isNamed = false → dacl.countP (PosixAce.marks default tag) ≤ 1 := by
  induction dacl using List.reverseRecOn with
  | nil => simp [scanAcl, AclScan.start]
  | append_singleton dacl ace ih =>
    have hseen : (scanAcl dacl).hasTag.get? (ace.default, ace.tag) = some true ↔
          ace.tag.isNamed = false ∧ 0 < dacl.countP (PosixAce.marks ace.default ace.tag) := by
      rw [get?_hasTag, countP_pos_iff]
      cases ace.tag.isNamed <;> simp
    rw [scanAcl_append_singleton]
    simp only [AclScan.visit, AclScan.aceErrors, append_eq_nil_iff, ih,
      errorIf_eq_nil_iff, decide_eq_false_iff_not, hseen]
    constructor
    · rintro ⟨⟨hwho, honce⟩, hwhoAce, hfresh⟩
      constructor
      · intro other hother
        rcases List.mem_append.mp hother with hold | hnew
        · exact hwho other hold
        · rw [List.mem_singleton.mp hnew]
          exact hwhoAce
      · intro default tag hspecial
        have hcount := honce default tag hspecial
        rw [countP_append, countP_singleton]
        split
        · rename_i hmarks
          obtain ⟨rfl, rfl⟩ : ace.default = default ∧ ace.tag = tag := by
            simpa [PosixAce.marks] using hmarks
          have hnone : ¬0 < dacl.countP (PosixAce.marks ace.default ace.tag) :=
            fun hpos => hfresh ⟨hspecial, hpos⟩
          omega
        · omega
    · rintro ⟨hwho, honce⟩
      refine ⟨⟨fun other hother =>
          hwho other (mem_append_left _ hother), ?_⟩,
        hwho ace (by simp), ?_⟩
      · intro default tag hspecial
        have hcount := honce default tag hspecial
        rw [countP_append] at hcount
        omega
      · rintro ⟨hspecial, hpos⟩
        have hcount := honce ace.default ace.tag hspecial
        rw [countP_append, countP_singleton, if_pos (by simp [PosixAce.marks])] at hcount
        omega

structure Accepted (recursive : Bool) (dacl : List PosixAce) : Prop where
  who : ∀ ace ∈ dacl, (ace.hasWho && ace.hasNumericId) = false
  once : ∀ default tag, tag.isNamed = false → dacl.countP (PosixAce.marks default tag) ≤ 1
  masked : ∀ ace ∈ dacl, ace.tag.isNamed → dacl.any (PosixAce.marks ace.default .mask) = true
  recursive : recursive = true → dacl.any PosixAce.default = true
  required : ∀ tag ∈ requiredEntries, dacl.any (PosixAce.marks false tag) = true
  defaults : dacl.any PosixAce.default = true → ∀ tag ∈ requiredEntries,
    dacl.any (PosixAce.marks true tag) = true

theorem isNamed_of_mem_requiredEntries {tag : PosixAceTag}
    (htag : tag ∈ requiredEntries) : tag.isNamed = false := by
  revert htag
  cases tag <;> decide

theorem maskErrors_scanAcl_eq_nil_iff (dacl : List PosixAce) : (scanAcl dacl).maskErrors = [] ↔
    ∀ ace ∈ dacl, ace.tag.isNamed → dacl.any (PosixAce.marks ace.default .mask) = true := by
  have haccess : ((scanAcl dacl).hasNamed && !(scanAcl dacl).sees false .mask) = false ↔
        ∀ ace ∈ dacl, ace.tag.isNamed → ace.default = false →
          dacl.any (PosixAce.marks false .mask) = true := by
    rw [hasNamed_scanAcl, sees_scanAcl rfl]
    cases dacl.any (PosixAce.marks false .mask) <;> simp
  have hdefault : ((scanAcl dacl).hasDefNamed && !(scanAcl dacl).sees true .mask) = false ↔
        ∀ ace ∈ dacl, ace.tag.isNamed → ace.default = true →
          dacl.any (PosixAce.marks true .mask) = true := by
    rw [hasDefNamed_scanAcl, sees_scanAcl rfl]
    cases dacl.any (PosixAce.marks true .mask) <;> simp
  have hboth : (scanAcl dacl).maskErrors = [] ↔
      ((scanAcl dacl).hasNamed && !(scanAcl dacl).sees false .mask) = false ∧
        ((scanAcl dacl).hasDefNamed && !(scanAcl dacl).sees true .mask) = false := by
    unfold AclScan.maskErrors
    split <;> simp_all [errorIf_eq_nil_iff]
  rw [hboth, haccess, hdefault]
  constructor
  · rintro ⟨hnamed, hdefNamed⟩ ace hmem htag
    cases hace : ace.default with
    | false => exact hnamed ace hmem htag hace
    | true => exact hdefNamed ace hmem htag hace
  · intro hall
    constructor
    · intro ace hmem htag hace
      have hmask := hall ace hmem htag
      rwa [hace] at hmask
    · intro ace hmem htag hace
      have hmask := hall ace hmem htag
      rwa [hace] at hmask

theorem requiredErrors_scanAcl_eq_nil_iff (dacl : List PosixAce) :
    (scanAcl dacl).requiredErrors = [] ↔ ∀ tag ∈ requiredEntries,
        dacl.any (PosixAce.marks false tag) = true ∧ (dacl.any PosixAce.default = true →
            dacl.any (PosixAce.marks true tag) = true) := by
  unfold AclScan.requiredErrors
  rw [flatMap_eq_nil_iff]
  apply forall₂_congr
  intro tag htag
  have hspecial := isNamed_of_mem_requiredEntries htag
  rw [append_eq_nil_iff, errorIf_eq_nil_iff, errorIf_eq_nil_iff,
    sees_scanAcl hspecial, sees_scanAcl hspecial, hasDefault_scanAcl]
  cases dacl.any (PosixAce.marks false tag) <;> cases dacl.any PosixAce.default <;> simp

theorem genAclstringPosix1e_accepts_iff {dacl : List PosixAce} {recursive : Bool} :
    (genAclstringPosix1e dacl recursive).2 = [] ↔ Accepted recursive dacl := by
  simp only [genAclstringPosix1e, AclScan.finalErrors, append_eq_nil_iff,
    verrors_scanAcl_eq_nil_iff, maskErrors_scanAcl_eq_nil_iff,
    errorIf_eq_nil_iff, requiredErrors_scanAcl_eq_nil_iff, hasDefault_scanAcl]
  constructor
  · rintro ⟨⟨hwho, honce⟩, ⟨hmasked, hrecursive⟩, hall⟩
    exact {
      who := hwho
      once := honce
      masked := hmasked
      recursive := by
        simpa using hrecursive
      required := fun tag htag => (hall tag htag).1
      defaults := fun hdefault tag htag => (hall tag htag).2 hdefault }
  · intro haccepted
    have hrecursive : (recursive && !dacl.any PosixAce.default) = false := by
      cases recursive with
      | false => rfl
      | true => simp [haccepted.recursive rfl]
    exact ⟨⟨haccepted.who, haccepted.once⟩, ⟨haccepted.masked, hrecursive⟩,
      fun tag htag => ⟨haccepted.required tag htag,
        fun hdefault => haccepted.defaults hdefault tag htag⟩⟩

end Middlewared.PosixAcl
