import Middlewared.PosixAcl
import Middlewared.Sid

/-!
# The text of a POSIX.1e access control list

`getacl_posix1e` reads an entry from the right: the permissions, then the id, and whatever is left
is the tag.
-/

namespace Middlewared.PosixAcl

open List

/-- `text.rsplit(sep, 2)` where it gives three parts. -/
def rsplitTwice (sep : Char) (text : List Char) :
    Option (List Char × List Char × List Char) :=
  match (text.splitOn sep).reverse with
  | last :: middle :: first :: rest =>
    some ([sep].intercalate (first :: rest).reverse, middle, last)
  | _ => none

theorem rsplitTwice_append {sep : Char} {middle last : List Char}
    (hmiddle : sep ∉ middle) (hlast : sep ∉ last) (first : List Char) :
    rsplitTwice sep (first ++ sep :: (middle ++ sep :: last)) = some (first, middle, last) := by
  have hparts : ((first ++ sep :: (middle ++ sep :: last)).splitOn sep).reverse =
      last :: middle :: (first.splitOn sep).reverse := by
    rw [splitOn_append_cons_self, splitOn_append_cons_self,
      splitOn_eq_singleton hmiddle, splitOn_eq_singleton hlast]
    simp
  unfold rsplitTwice
  rw [hparts]
  cases hfirst : (first.splitOn sep).reverse with
  | nil => exact absurd (List.reverse_eq_nil_iff.mp hfirst) (by simp)
  | cons part rest =>
    have hjoin : [sep].intercalate (part :: rest).reverse = first := by
      rw [← hfirst, reverse_reverse, intercalate_splitOn]
    simp only [hjoin]

structure ParsedAce where
  default : Bool
  tag : String
  id : ℤ
  perms : PosixPerms

/-- `perms[i].casefold() == letter`, with an index out of range as `none`. -/
def permAt (perms : List Char) (i : ℕ) (letter : Char) : Option Bool :=
  perms[i]?.map fun c => c.toLower = letter

def parsePerms (perms : List Char) : Option PosixPerms := do
  let read ← permAt perms 0 'r'
  let write ← permAt perms 1 'w'
  let execute ← permAt perms 2 'x'
  return { read, write, execute }

/-- The tag that is left of the id, and the id.  `tag[8:]` drops the colon
after `default` as well. -/
def parseTag (tag id : List Char) (perms : PosixPerms) : ParsedAce :=
  let default := decide ("default".toList <+: tag)
  let upper := (if default then tag.drop 8 else tag).map Char.toUpper
  match asciiDigits.int? id with
  | some number =>
    { default, tag := String.ofList upper, id := number, perms }
  | none =>
    { default
      tag := String.ofList
        (if upper = "OTHER".toList ∨ upper = "MASK".toList then upper
          else upper ++ "_OBJ".toList)
      id := -1
      perms }

/-- What one line of the output adds to the ACL: nothing for a comment, and
`none` where an exception is raised. -/
def parseEntry (entry : String) : Option (List ParsedAce) :=
  if "#".toList <+: entry.toList then some []
  else do
    let (tag, id, perms) ← rsplitTwice ':' (entry.toList.takeWhile (· ≠ '\t'))
    let perms ← parsePerms perms
    return [parseTag tag id perms]

/-- `aclstring.split(",")` -/
def splitItems (aclstring : String) : List String :=
  (aclstring.toList.splitOn ',').map String.ofList

/-! ## Reading an entry back -/

def separators : List Char :=
  [',', '\t', '#', ':']

variable {c : Char}

variable (hsep : c ∈ separators)

include hsep

theorem isDigit_eq_false_of_mem_separators : c.isDigit = false := by
  have hall : separators.all (fun c => !c.isDigit) = true := by decide
  simpa using List.all_eq_true.mp hall c hsep

omit hsep in
theorem notMem_of_all {text : List Char} (hall : text.all (fun c => decide (c ∉ separators)) = true)
    (hsep : c ∈ separators) : c ∉ text := by
  intro hmem
  have hc := List.all_eq_true.mp hall c hmem
  exact of_decide_eq_true hc hsep

theorem notMem_idText (id : Option ℤ) : c ∉ (idText id).toList := by
  have hdigit := isDigit_eq_false_of_mem_separators hsep
  have hnone : c ∉ "None".toList := notMem_of_all (by decide) hsep
  have hminus : c ∉ "-".toList := notMem_of_all (by decide) hsep
  match id with
  | none => exact hnone
  | some (.ofNat n) =>
    simpa [idText] using notMem_toDigits hdigit n
  | some (.negSucc n) =>
    have hdigits := notMem_toDigits hdigit (n + 1)
    simpa [idText, String.toList_append] using ⟨by simpa using hminus, hdigits⟩

theorem notMem_permsText (perms : PosixPerms) : c ∉ (permsText perms).toList := by
  obtain ⟨read, write, execute⟩ := perms
  apply notMem_of_all ?_ hsep
  cases read <;> cases write <;> cases execute <;> decide

theorem notMem_shortTag (tag : PosixAceTag) : c ∉ (shortTag tag).toList := by
  apply notMem_of_all ?_ hsep
  cases tag <;> decide

def tagField (ace : PosixAce) : List Char :=
  (if ace.default then "default:".toList else []) ++ (shortTag ace.tag).toList

def idField (id : Option ℤ) : List Char :=
  if id = some aclUndefinedId then [] else (idText id).toList

theorem notMem_idField (id : Option ℤ) : c ∉ idField id := by
  unfold idField
  split
  · exact not_mem_nil
  · exact notMem_idText hsep id

omit hsep in
theorem toList_aceText (ace : PosixAce) : (aceText ace).toList =
    tagField ace ++ ':' :: (idField ace.id ++ ':' :: (permsText ace.perms).toList) := by
  unfold aceText tagField idField
  cases ace.default <;> by_cases hid : ace.id = some aclUndefinedId <;>
    simp [hid, String.toList_append]

theorem notMem_aceText (hcolon : c ≠ ':') (ace : PosixAce) : c ∉ (aceText ace).toList := by
  have hdefault : c ∉ if ace.default then "default:".toList else [] := by
    cases ace.default with
    | false => exact not_mem_nil
    | true =>
      have hword : c ∉ "default".toList := notMem_of_all (by decide) hsep
      change c ∉ "default".toList ++ [':']
      rw [mem_append, mem_singleton, not_or]
      exact ⟨hword, hcolon⟩
  rw [toList_aceText, tagField]
  simp only [mem_append, mem_cons, not_or]
  exact ⟨⟨hdefault, notMem_shortTag hsep ace.tag⟩, hcolon,
    notMem_idField hsep ace.id, hcolon, notMem_permsText hsep ace.perms⟩

omit hsep

theorem parsePerms_permsText (perms : PosixPerms) :
    parsePerms (permsText perms).toList = some perms := by
  obtain ⟨read, write, execute⟩ := perms
  cases read <;> cases write <;> cases execute <;> rfl

theorem parseEntry_aceText (ace : PosixAce) : parseEntry (aceText ace) =
    some [parseTag (tagField ace) (idField ace.id) ace.perms] := by
  have hcomment : ¬"#".toList <+: (aceText ace).toList := by
    intro hfirst
    exact notMem_aceText (by decide) (by decide) ace
      (hfirst.subset (show '#' ∈ "#".toList by decide))
  have hline : (aceText ace).toList.takeWhile (· ≠ '\t') = (aceText ace).toList := by
    rw [takeWhile_eq_self_iff]
    intro c hmem
    have hne : c ≠ '\t' := by
      rintro rfl
      exact notMem_aceText (by decide) (by decide) ace hmem
    simpa using hne
  unfold parseEntry
  rw [if_neg hcomment, hline, toList_aceText, rsplitTwice_append (notMem_idField (by decide) ace.id)
      (notMem_permsText (by decide) ace.perms)]
  simp [parsePerms_permsText]

def PosixAce.parsed (ace : PosixAce) : ParsedAce where
  default := ace.default
  tag := ace.tag.text
  id := if ace.tag.isNamed then ace.id.getD aclUndefinedId else aclUndefinedId
  perms := ace.perms

theorem isValid_iff (ace : PosixAce) : ace.isValid = true ↔
    (∀ id, ace.id = some id → aclUndefinedId ≤ id ∧ id ≤ aclMaxId) ∧
      (if ace.tag.isNamed then ace.hasWho = true ∨ ace.hasNumericId = true
        else ace.hasNumericId = false) := by
  unfold PosixAce.isValid
  cases ace.id <;> cases ace.tag.isNamed <;> simp

variable {ace : PosixAce}

theorem exists_nat_of_hasNumericId (hvalid : ace.isValid = true)
    (hnumeric : ace.hasNumericId = true) : ∃ n : ℕ, ace.id = some n := by
  cases hid : ace.id with
  | none => simp [PosixAce.hasNumericId, hid] at hnumeric
  | some id =>
    have hne : id ≠ -1 := by
      simp only [PosixAce.hasNumericId, hid, Option.any_some] at hnumeric
      exact of_decide_eq_true hnumeric
    have hle : -1 ≤ id := (((isValid_iff ace).mp hvalid).1 id hid).1
    have hcast : ((id.toNat : ℕ) : ℤ) = id := by omega
    exact ⟨id.toNat, congrArg some hcast.symm⟩

theorem int?_idField_of_special (hnumeric : ace.hasNumericId = false) :
    asciiDigits.int? (idField ace.id) = none := by
  cases hid : ace.id with
  | none => decide
  | some id =>
    have heq : id = aclUndefinedId := by
      simpa [PosixAce.hasNumericId, hid] using hnumeric
    rw [heq]
    decide

theorem parseTag_tagField (hvalid : ace.isValid = true)
    (hnamed : ace.tag.isNamed = true → ace.hasNumericId = true) :
    parseTag (tagField ace) (idField ace.id) ace.perms = ace.parsed := by
  cases htag : ace.tag.isNamed with
  | true =>
    obtain ⟨n, hid⟩ := exists_nat_of_hasNumericId hvalid (hnamed htag)
    have hfield : idField ace.id = Nat.toDigits 10 n := by
      have hne : ((n : ℕ) : ℤ) ≠ -1 := by omega
      rw [hid]
      simp [idField, aclUndefinedId, hne, idText]
    unfold parseTag PosixAce.parsed tagField
    rw [hfield, DecimalDigits.int?_toDigits, hid]
    revert htag
    cases ace.default <;> cases ace.tag <;> intro htag <;> first
      | rfl
      | cases htag
  | false =>
    have hnumeric : ace.hasNumericId = false := by
      simpa [htag] using ((isValid_iff ace).mp hvalid).2
    unfold parseTag PosixAce.parsed tagField
    rw [int?_idField_of_special hnumeric]
    revert htag
    cases ace.default <;> cases ace.tag <;> intro htag <;> first
      | rfl
      | cases htag

/-! ## Reading the ACL back -/

theorem splitOn_aclstring {dacl : List PosixAce} (hne : dacl ≠ []) :
    (scanAcl dacl).aclstring.toList.splitOn ',' = dacl.map fun ace => (aceText ace).toList := by
  induction dacl using List.reverseRecOn with
  | nil => exact absurd rfl hne
  | append_singleton dacl ace ih =>
    have hitem : (aceText ace).toList.splitOn ',' = [(aceText ace).toList] :=
      splitOn_eq_singleton (notMem_aceText (by decide) (by decide) ace)
    rw [scanAcl_append_singleton]
    cases dacl with
    | nil => simpa [AclScan.visit, scanAcl, AclScan.start] using hitem
    | cons first rest =>
      have htext : ((scanAcl (first :: rest)).visit
            (ace, (first :: rest).length)).aclstring.toList =
          (scanAcl (first :: rest)).aclstring.toList ++ ',' :: (aceText ace).toList := by
        simp [AclScan.visit, String.toList_append]
      rw [htext, splitOn_append_cons_self, ih (by simp), hitem]
      simp

theorem splitItems_aclstring {dacl : List PosixAce} (hne : dacl ≠ []) :
    splitItems (scanAcl dacl).aclstring = dacl.map aceText := by
  unfold splitItems
  rw [splitOn_aclstring hne, map_map]
  apply map_congr_left
  intro ace _
  exact String.ofList_toList

theorem eq_of_countP_le_one {α : Type*} {p : α → Bool} {l : List α}
    {i j : ℕ} {first second : α} (honce : l.countP p ≤ 1)
    (hfirst : l[i]? = some first) (hsecond : l[j]? = some second)
    (hpfirst : p first = true) (hpsecond : p second = true) : i = j := by
  have hlater : ∀ {i j : ℕ} {first second : α}, l[i]? = some first →
      l[j]? = some second → p first = true → p second = true → ¬i < j := by
    intro i j first second hfirst hsecond hpfirst hpsecond hlt
    have hbefore : first ∈ l.take j := mem_of_getElem? (by rwa [getElem?_take_of_lt hlt])
    have hafter : second ∈ l.drop j := mem_of_getElem? (i := 0) (by rwa [getElem?_drop])
    have hcountBefore : 0 < (l.take j).countP p := List.countP_pos_iff.mpr ⟨first, hbefore, hpfirst⟩
    have hcountAfter : 0 < (l.drop j).countP p := List.countP_pos_iff.mpr ⟨second, hafter, hpsecond⟩
    rw [← take_append_drop j l, countP_append] at honce
    omega
  have hnotLt := hlater hfirst hsecond hpfirst hpsecond
  have hnotGt := hlater hsecond hfirst hpsecond hpfirst
  omega

/-- An ACL that is accepted is read back entry by entry, where its named
entries have ids; a special entry stands in it once. -/
theorem genAclstringPosix1e_roundTrip {dacl : List PosixAce}
    {recursive : Bool} (hmodel : ∀ ace ∈ dacl, ace.isValid = true)
    (haccepts : (genAclstringPosix1e dacl recursive).2 = []) :
    (splitItems (genAclstringPosix1e dacl recursive).1).length = dacl.length ∧
      (∀ (i : ℕ) (ace : PosixAce) (item : String), dacl[i]? = some ace →
        (splitItems (genAclstringPosix1e dacl recursive).1)[i]? = some item →
        (ace.tag.isNamed = true → ace.hasNumericId = true) →
        parseEntry item = some [ace.parsed]) ∧
      ∀ (i j : ℕ) (first second : PosixAce), dacl[i]? = some first →
        dacl[j]? = some second → first.tag.isNamed = false → first.default = second.default →
        first.tag = second.tag → i = j := by
  have haccepted := genAclstringPosix1e_accepts_iff.mp haccepts
  have hne : dacl ≠ [] := by
    rintro rfl
    cases haccepted.required .userObj (by decide)
  have hitems : splitItems (genAclstringPosix1e dacl recursive).1 =
      dacl.map aceText := splitItems_aclstring hne
  rw [hitems]
  refine ⟨length_map _, ?_, ?_⟩
  · intro i ace item hace hitem hnumeric
    rw [getElem?_map, hace, Option.map_some, Option.some.injEq] at hitem
    rw [← hitem, parseEntry_aceText, parseTag_tagField (hmodel ace (mem_of_getElem? hace)) hnumeric]
  · intro i j first second hfirst hsecond hspecial hdefault htag
    exact eq_of_countP_le_one (haccepted.once first.default first.tag hspecial) hfirst hsecond
      (by simp [PosixAce.marks]) (by simp [PosixAce.marks, hdefault, htag])

def groupAcl : List PosixAce :=
  [⟨.userObj, ⟨true, true, true⟩, false, none, none⟩,
    ⟨.groupObj, ⟨true, false, true⟩, false, some (-1), none⟩,
    ⟨.group, ⟨true, false, true⟩, false, some 545, none⟩,
    ⟨.mask, ⟨true, true, true⟩, false, none, none⟩,
    ⟨.other, ⟨false, false, false⟩, false, none, none⟩]

theorem genAclstringPosix1e_roundTrip_group :
    (splitItems (genAclstringPosix1e groupAcl false).1).length = groupAcl.length ∧
      (∀ (i : ℕ) (ace : PosixAce) (item : String), groupAcl[i]? = some ace →
        (splitItems (genAclstringPosix1e groupAcl false).1)[i]? = some item →
        (ace.tag.isNamed = true → ace.hasNumericId = true) →
        parseEntry item = some [ace.parsed]) ∧
      ∀ (i j : ℕ) (first second : PosixAce), groupAcl[i]? = some first →
        groupAcl[j]? = some second → first.tag.isNamed = false →
        first.default = second.default → first.tag = second.tag → i = j :=
  genAclstringPosix1e_roundTrip (by decide) (by decide)

def namedAcl : List PosixAce :=
  ⟨.group, ⟨true, true, true⟩, false, some 545, none⟩ ::
    ⟨.group, ⟨true, false, true⟩, false, some 545, none⟩ ::
    ⟨.user, ⟨true, false, false⟩, false, none, some "bob"⟩ :: groupAcl

/-- A group entered twice, and a name that comes back as the owner. -/
theorem group_twice_and_name_lost : (∀ ace ∈ namedAcl, ace.isValid = true) ∧
    (genAclstringPosix1e namedAcl false).2 = [] ∧
    (∃ first second : PosixAce, namedAcl[0]? = some first ∧ namedAcl[1]? = some second ∧
        (first.default, first.tag, first.id) = (second.default, second.tag, second.id)) ∧
    ∃ ace : PosixAce, namedAcl[2]? = some ace ∧ ace.tag = .user ∧
      (splitItems (genAclstringPosix1e namedAcl false).1)[2]?.bind parseEntry =
        some [⟨false, "USER_OBJ", -1, ace.perms⟩] := by
  refine ⟨by decide, by decide, ⟨_, _, rfl, rfl, rfl⟩, _, rfl, rfl, ?_⟩
  have hitems : splitItems (genAclstringPosix1e namedAcl false).1 =
      namedAcl.map aceText := splitItems_aclstring (by simp [namedAcl])
  rw [hitems]
  exact parseEntry_aceText ⟨.user, ⟨true, false, false⟩, false, none, some "bob"⟩

end Middlewared.PosixAcl
