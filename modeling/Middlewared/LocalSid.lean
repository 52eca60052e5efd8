import Middlewared.AccountStore
import Middlewared.Sid

/-!
# The SIDs of local accounts

`random_sid` makes the SID of a server from three random values, and `db_id_to_rid` gives an
account the RID at the end of its SID.
-/

namespace Middlewared

open PyString List Option

inductive IdType where
  | user
  | group
  | both
deriving DecidableEq

/-- Characters for which `isdigit` holds; `int` does not read all of them. -/
structure DigitCharacters extends DecimalDigits where
  isDigit : Char → Bool
  isDigit_of_value : ∀ c d, value c = some d → isDigit c = true

def asciiDigitCharacters : DigitCharacters where
  toDecimalDigits := asciiDigits
  isDigit := Char.isDigit
  isDigit_of_value := by
    intro c d hvalue
    by_cases hdigit : c.isDigit = true
    · exact hdigit
    · simp [asciiDigits, hdigit] at hvalue

namespace LocalSid

def randomSid (subauth1 subauth2 subauth3 : Fin (2 ^ 32)) : String :=
  "S-1-5-21-" ++ toString subauth1.val ++ "-" ++ toString subauth2.val ++
    "-" ++ toString subauth3.val

section

variable (digits : DigitCharacters)

/-- `int` raises for characters that are digits but not decimal. -/
def subauthCheck (subauth : List Char) : Except SidError Bool :=
  if subauth = [] ∨ subauth.all digits.isDigit = false then .ok false
  else
    match digits.int? subauth with
    | none => .error (.valueError ("invalid literal for int() with base 10: " ++
          PyString.repr (String.ofList subauth)))
    | some value => .ok (!(value < 1 || maxValueSubauth < value))

/-- `sid_is_valid` -/
def check (sid : String) : Except SidError Bool :=
  if sid ∈ wellKnownSids then .ok true
  else if !startsWith sid domSidPrefix then .ok false
  else if (sidSubauths sid).length < domSidSubauths ∨
      domSidSubauths + 1 < (sidSubauths sid).length then .ok false
  else (sidSubauths sid).allM (subauthCheck digits)

end

/-- `idTypeBoth` is the number that `libwbclient` has for that type. -/
def dbIdToRid (idTypeBoth : ℕ) (idType : IdType) (dbId : ℕ) :
    Except SidError ℕ :=
  if baseSyntheticDatastoreId ≤ dbId then
    .error (.valueError "Not valid for users and groups from directory services")
  else
    match idType with
    | .user => .ok (dbId + baseRidUser)
    | .group => .ok (dbId + baseRidGroup)
    | .both => .error (.valueError (toString idTypeBoth ++ ": unknown ID type"))

/-- `get_domain_rid` of the SID of an account of this server. -/
def ridOfAccount (digits : DigitCharacters) (idTypeBoth : ℕ) (sid : String)
    (idType : IdType) (dbId : ℕ) : Except SidError ℕ := do
  let rid ← dbIdToRid idTypeBoth idType dbId
  getDomainRid digits.toDecimalDigits (withRid sid rid)

/-- Some part of the SID is a number that needs more than 32 bits. -/
def HasWideSubauth (digits : DigitCharacters) (sid : String) : Prop :=
  ∃ subauth ∈ sidSubauths sid, ∃ value, digits.int? subauth = some value ∧ 2 ^ 32 ≤ value

/-- All that is wrong with the SID is that parts of it are `2 ^ 32`. -/
def WideAtLimit (digits : DigitCharacters) (sid : String) : Prop :=
  ((sidSubauths sid).length = 3 ∨ (sidSubauths sid).length = 4) ∧
    ∀ subauth ∈ sidSubauths sid, ∃ value, digits.int? subauth = some value ∧ 1 ≤ value ∧
        (value < 2 ^ 32 ∨ value = 2 ^ 32)

def Collide (first second : IdType × ℕ) : Prop :=
  (first.1 = .user ∧ second.1 = .group ∧ first.2 = second.2 + 180000) ∨
    (first.1 = .group ∧ second.1 = .user ∧ second.2 = first.2 + 180000)

instance (first second : IdType × ℕ) : Decidable (Collide first second) :=
  inferInstanceAs (Decidable (_ ∨ _))

variable {digits : DigitCharacters} {sid : String}

theorem isDigit_of_addDigit {number next : ℕ} {c : Char}
    (hadd : digits.addDigit number c = some next) :
    digits.isDigit c = true := by
  obtain ⟨d, hvalue, _⟩ := map_eq_some_iff.mp hadd
  exact digits.isDigit_of_value c d hvalue

theorem all_isDigit_of_foldlM {text : List Char} {start value : ℕ}
    (hread : text.foldlM digits.addDigit start = some value) :
    text.all digits.isDigit = true := by
  induction text generalizing start with
  | nil => rfl
  | cons c rest ih =>
    rw [foldlM_cons, bind_eq_bind, bind_eq_some_iff] at hread
    obtain ⟨next, hadd, hrest⟩ := hread
    rw [all_cons, isDigit_of_addDigit hadd, ih hrest]
    rfl

theorem subauthCheck_eq_ok_true_iff {subauth : List Char} : subauthCheck digits subauth = .ok true ↔
    subauthIsValid digits.toDecimalDigits subauth = true := by
  cases subauth with
  | nil => simp [subauthCheck, subauthIsValid, DecimalDigits.int?]
  | cons c rest =>
    unfold subauthCheck subauthIsValid
    cases hread : digits.int? (c :: rest) with
    | none => split <;> simp
    | some value =>
      have hall : (c :: rest).all digits.isDigit = true := all_isDigit_of_foldlM hread
      rw [if_neg (by simp [hall])]
      simp [Nat.one_le_iff_ne_zero]

theorem not_startsWith_of_mem_wellKnownSids (hmem : sid ∈ wellKnownSids) :
    startsWith sid domSidPrefix = false := by
  have hall : wellKnownSids.all (fun known => !startsWith known domSidPrefix) = true := by
    decide
  simpa using List.all_eq_true.mp hall sid hmem

theorem check_eq_ok_true_iff : check digits sid = .ok true ↔
    sidIsValid digits.toDecimalDigits sid = true := by
  have hparts : (sidSubauths sid).allM (subauthCheck digits) = .ok true ↔
      (sidSubauths sid).all (subauthIsValid digits.toDecimalDigits) = true := by
    induction sidSubauths sid with
    | nil => simp [List.allM, pure, Except.pure]
    | cons subauth rest ih =>
      rw [allM_cons_eq_ok_iff]
      simp [subauthCheck_eq_ok_true_iff, ih]
  unfold check sidIsValid
  by_cases hknown : sid ∈ wellKnownSids
  · simp [hknown]
  · by_cases hdomain : startsWith sid domSidPrefix = true
    · by_cases hcount : (sidSubauths sid).length < domSidSubauths ∨
          domSidSubauths + 1 < (sidSubauths sid).length
      · rw [if_neg hknown, if_neg (by simp [hdomain]), if_pos hcount]
        simp [hknown, hdomain]
        omega
      · rw [if_neg hknown, if_neg (by simp [hdomain]), if_neg hcount, hparts]
        have hlow : domSidSubauths ≤ (sidSubauths sid).length := by omega
        have hhigh : (sidSubauths sid).length ≤ domSidSubauths + 1 := by omega
        simp [hknown, hdomain, hlow, hhigh]
    · simp [hknown, hdomain]

theorem check_domain_iff (hdomain : startsWith sid domSidPrefix = true) :
    check digits sid = .ok true ↔ ((sidSubauths sid).length = 3 ∨ (sidSubauths sid).length = 4) ∧
        ∀ subauth ∈ sidSubauths sid, ∃ value,
          digits.int? subauth = some value ∧ 1 ≤ value ∧ value ≤ 2 ^ 32 := by
  have hknown : sid ∉ wellKnownSids := by
    intro hmem
    rw [not_startsWith_of_mem_wellKnownSids hmem] at hdomain
    cases hdomain
  have hpart : ∀ subauth, subauthIsValid digits.toDecimalDigits subauth = true ↔
      ∃ value, digits.int? subauth = some value ∧ 1 ≤ value ∧ value ≤ 2 ^ 32 := by
    intro subauth
    unfold subauthIsValid
    cases digits.int? subauth with
    | none => simp
    | some number =>
      rw [any_some, Bool.and_eq_true, decide_eq_true_iff, decide_eq_true_iff]
      simp only [some.injEq, exists_eq_left']
      exact Iff.rfl
  have hlength : domSidSubauths ≤ (sidSubauths sid).length ∧
      (sidSubauths sid).length ≤ domSidSubauths + 1 ↔
        (sidSubauths sid).length = 3 ∨ (sidSubauths sid).length = 4 := by
    unfold domSidSubauths
    omega
  rw [check_eq_ok_true_iff]
  unfold sidIsValid
  simp only [hknown, hdomain, decide_false, Bool.false_or, Bool.true_and,
    Bool.and_eq_true, decide_eq_true_eq, List.all_eq_true, hpart, hlength]

theorem check_wide_iff (hdomain : startsWith sid domSidPrefix = true) :
    check digits sid ≠ .ok true ↔ ¬ WideAtLimit digits sid := by
  rw [ne_eq, check_domain_iff hdomain, WideAtLimit]
  have hvalue : ∀ value : ℕ, value ≤ 2 ^ 32 ↔ value < 2 ^ 32 ∨ value = 2 ^ 32 :=
    fun value => le_iff_lt_or_eq
  simp only [hvalue]

theorem randomSid_eq (a b c : Fin (2 ^ 32)) : randomSid a b c =
    withRid (withRid (domSidPrefix ++ toString a.val) b.val) c.val := rfl

theorem length_domain (text : String) : domSidPrefix.length ≤ (domSidPrefix ++ text).length := by
  simp

theorem startsWith_domain (text : String) :
    startsWith (domSidPrefix ++ text) domSidPrefix = true := by
  rw [startsWith_iff, String.toList_append]
  exact prefix_append _ _

theorem sidSubauths_domain (n : ℕ) :
    sidSubauths (domSidPrefix ++ toString n) = [Nat.toDigits 10 n] := by
  unfold sidSubauths
  rw [String.toList_append, ← String.length_toList, drop_left]
  have htext : (toString n).toList = Nat.toDigits 10 n := by simp
  rw [htext, splitOn_eq_singleton (notMem_toDigits (by decide) n)]

theorem length_le_withRid {text : String} {bound : ℕ} (hle : bound ≤ text.length) (rid : ℕ) :
    bound ≤ (withRid text rid).length := by
  unfold withRid
  simp only [String.length_append]
  omega

theorem startsWith_withRid {text : String}
    (hdomain : startsWith text domSidPrefix = true) (rid : ℕ) :
    startsWith (withRid text rid) domSidPrefix = true := by
  rw [startsWith_iff] at hdomain ⊢
  rw [withRid_toList]
  exact hdomain.trans (prefix_append _ _)

theorem startsWith_randomSid (a b c : Fin (2 ^ 32)) :
    startsWith (randomSid a b c) domSidPrefix = true :=
  startsWith_withRid (startsWith_withRid (startsWith_domain _) _) _

theorem length_le_randomSid (a b c : Fin (2 ^ 32)) :
    domSidPrefix.length ≤ (randomSid a b c).length :=
  length_le_withRid (length_le_withRid (length_domain _) _) _

theorem sidSubauths_randomSid (a b c : Fin (2 ^ 32)) : sidSubauths (randomSid a b c) =
    [Nat.toDigits 10 a.val, Nat.toDigits 10 b.val, Nat.toDigits 10 c.val] := by
  rw [randomSid_eq, sidSubauths_withRid (length_le_withRid (length_domain _) _),
    sidSubauths_withRid (length_domain _), sidSubauths_domain]
  rfl

theorem check_randomSid_iff (a b c : Fin (2 ^ 32)) :
    check digits (randomSid a b c) = .ok true ↔ a ≠ 0 ∧ b ≠ 0 ∧ c ≠ 0 := by
  rw [check_domain_iff (startsWith_randomSid a b c), sidSubauths_randomSid]
  have hpos : ∀ n : Fin (2 ^ 32), 1 ≤ n.val ↔ n ≠ 0 := by
    intro n
    rw [ne_eq, Fin.ext_iff]
    change 1 ≤ n.val ↔ ¬ n.val = 0
    omega
  have hmax : ∀ n : Fin (2 ^ 32), n.val ≤ 2 ^ 32 := fun n => le_of_lt n.isLt
  simp only [length_cons, length_nil, forall_mem_cons,
    DecimalDigits.int?_toDigits, some.injEq, exists_eq_left', hpos, hmax,
    and_true]
  simp

/-! ## RIDs -/

variable {idTypeBoth : ℕ} {idType : IdType} {dbId : ℕ}

theorem dbIdToRid_eq_ok (htype : idType ≠ .both) (hid : dbId < baseSyntheticDatastoreId) :
    dbIdToRid idTypeBoth idType dbId =
      .ok (dbId + if idType = .user then baseRidUser else baseRidGroup) := by
  unfold dbIdToRid
  rw [if_neg (by omega)]
  cases idType with
  | user => rfl
  | group => rfl
  | both => exact absurd rfl htype

theorem dbIdToRid_eq_iff {first second : IdType × ℕ} (hne : first ≠ second)
    (hfirst : first.1 ≠ .both) (hsecond : second.1 ≠ .both)
    (hfirstId : first.2 < baseSyntheticDatastoreId)
    (hsecondId : second.2 < baseSyntheticDatastoreId) :
    dbIdToRid idTypeBoth first.1 first.2 =
        dbIdToRid idTypeBoth second.1 second.2 ↔ Collide first second := by
  obtain ⟨firstType, firstId⟩ := first
  obtain ⟨secondType, secondId⟩ := second
  rw [dbIdToRid_eq_ok hfirst hfirstId, dbIdToRid_eq_ok hsecond hsecondId, Except.ok.injEq]
  unfold Collide
  cases firstType with
  | both => exact absurd rfl hfirst
  | user =>
    cases secondType with
    | both => exact absurd rfl hsecond
    | user =>
      have hids : firstId ≠ secondId := fun heq => hne (heq ▸ rfl)
      simp [hids]
    | group =>
      simp only [baseRidUser, baseRidGroup, reduceCtorEq, if_true, if_false,
        true_and, false_and, or_false]
      omega
  | group =>
    cases secondType with
    | both => exact absurd rfl hsecond
    | user =>
      simp only [baseRidUser, baseRidGroup, reduceCtorEq, if_true, if_false,
        true_and, false_and, false_or]
      omega
    | group =>
      have hids : firstId ≠ secondId := fun heq => hne (heq ▸ rfl)
      simp [hids]

theorem ridOfAccount_randomSid_iff (a b c : Fin (2 ^ 32))
    (htype : idType ≠ .both) (hid : dbId < baseSyntheticDatastoreId) :
    ridOfAccount digits idTypeBoth (randomSid a b c) idType dbId =
        dbIdToRid idTypeBoth idType dbId ↔ a ≠ 0 ∧ b ≠ 0 ∧ c ≠ 0 := by
  have hrid : dbIdToRid idTypeBoth idType dbId =
      .ok (dbId + if idType = .user then baseRidUser else baseRidGroup) :=
    dbIdToRid_eq_ok htype hid
  generalize hvalue : dbId + (if idType = .user then baseRidUser
    else baseRidGroup) = rid at hrid
  have hbounds : 1 ≤ rid ∧ rid ≤ 2 ^ 32 := by
    unfold baseSyntheticDatastoreId at hid
    unfold baseRidUser baseRidGroup at hvalue
    split at hvalue <;> omega
  have hdomain := startsWith_randomSid a b c
  have hparts := sidSubauths_withRid (length_le_randomSid a b c) rid
  have hsid : sidIsValid digits.toDecimalDigits (withRid (randomSid a b c) rid)
      = true ↔ a ≠ 0 ∧ b ≠ 0 ∧ c ≠ 0 := by
    have hdrawn : check digits (randomSid a b c) = .ok true ↔
        a ≠ 0 ∧ b ≠ 0 ∧ c ≠ 0 := check_randomSid_iff a b c
    rw [← check_eq_ok_true_iff, ← hdrawn, check_domain_iff (startsWith_withRid hdomain rid),
      check_domain_iff hdomain, hparts, sidSubauths_randomSid]
    simp only [length_append, length_cons, length_nil, forall_mem_append, forall_mem_singleton,
      DecimalDigits.int?_toDigits, some.injEq, exists_eq_left', hbounds,
      and_true]
    simp
  unfold ridOfAccount
  rw [hrid, ok_bind]
  unfold getDomainRid
  by_cases hvalid : sidIsValid digits.toDecimalDigits (withRid (randomSid a b c) rid) = true
  · rw [if_neg (by simp [hvalid]), if_neg (by simp [startsWith_withRid hdomain rid]), hparts,
      sidSubauths_randomSid]
    simpa [domSidSubauths] using hsid.mp hvalid
  · rw [if_pos (by simp [hvalid])]
    simp [← hsid, hvalid]

/-- What holds of the SIDs of local accounts, part by part. -/
theorem local_sids_iff (digits : DigitCharacters) (idTypeBoth : ℕ) : (∀ a b c : Fin (2 ^ 32),
      check digits (randomSid a b c) = .ok true ↔ a ≠ 0 ∧ b ≠ 0 ∧ c ≠ 0) ∧
    (∀ (a b c : Fin (2 ^ 32)) (idType : IdType) (dbId : ℕ),
      idType ≠ .both → dbId < baseSyntheticDatastoreId →
        (ridOfAccount digits idTypeBoth (randomSid a b c) idType dbId =
          dbIdToRid idTypeBoth idType dbId ↔ a ≠ 0 ∧ b ≠ 0 ∧ c ≠ 0)) ∧
    (∀ first second : IdType × ℕ, first ≠ second → first.1 ≠ .both → second.1 ≠ .both →
      first.2 < baseSyntheticDatastoreId →
      second.2 < baseSyntheticDatastoreId → (dbIdToRid idTypeBoth first.1 first.2 ≠
          dbIdToRid idTypeBoth second.1 second.2 ↔ ¬ Collide first second)) ∧
    (∀ sid : String, startsWith sid domSidPrefix = true → HasWideSubauth digits sid →
        (check digits sid ≠ .ok true ↔ ¬ WideAtLimit digits sid)) :=
  ⟨check_randomSid_iff, fun a b c _ _ htype hid => ridOfAccount_randomSid_iff a b c htype hid,
    fun _ _ hne hfirst hsecond hfirstId hsecondId =>
      not_congr (dbIdToRid_eq_iff hne hfirst hsecond hfirstId hsecondId),
    fun _ hdomain _ => check_wide_iff hdomain⟩

theorem local_sids_iff_drawn : check asciiDigitCharacters (randomSid 7 8 9) = .ok true ∧
    ridOfAccount asciiDigitCharacters 3 (randomSid 7 8 9) .user 70 = dbIdToRid 3 .user 70 ∧
    dbIdToRid 3 .user 70 ≠ dbIdToRid 3 .group 70 ∧
    check asciiDigitCharacters "S-1-5-21-4294967297-8-9" ≠ .ok true := by
  have hall := local_sids_iff asciiDigitCharacters 3
  have hpart : ("4294967297".toList : List Char) ∈ sidSubauths "S-1-5-21-4294967297-8-9" := by
    decide
  have hread : asciiDigitCharacters.int? "4294967297".toList = some 4294967297 := by
    decide
  have hwide : HasWideSubauth asciiDigitCharacters "S-1-5-21-4294967297-8-9" :=
    ⟨_, hpart, _, hread, by decide⟩
  have hpast : ¬ WideAtLimit asciiDigitCharacters "S-1-5-21-4294967297-8-9" := by
    intro hlimit
    obtain ⟨value, hvalue, _, hle⟩ := hlimit.2 _ hpart
    rw [hread, some.injEq] at hvalue
    omega
  exact ⟨(hall.1 7 8 9).mpr (by decide),
    (hall.2.1 7 8 9 .user 70 (by decide) (by decide)).mpr (by decide),
    (hall.2.2.1 (.user, 70) (.group, 70) (by decide) (by decide) (by decide)
      (by decide) (by decide)).mpr (by decide),
    (hall.2.2.2 _ (by decide) hwide).mpr hpast⟩

/-- A drawn zero, a user and a group with one RID, and a part that is too large. -/
theorem local_sids_not_well_formed : (¬ ∀ a b c : Fin (2 ^ 32),
      check asciiDigitCharacters (randomSid a b c) = .ok true) ∧
    (¬ ∀ first second : IdType × ℕ, first ≠ second → first.1 ≠ .both → second.1 ≠ .both →
      first.2 < baseSyntheticDatastoreId →
      second.2 < baseSyntheticDatastoreId →
        dbIdToRid 3 first.1 first.2 ≠ dbIdToRid 3 second.1 second.2) ∧
    (¬ ∀ sid : String, startsWith sid domSidPrefix = true →
      HasWideSubauth asciiDigitCharacters sid → check asciiDigitCharacters sid ≠ .ok true) := by
  refine ⟨?_, ?_, ?_⟩
  · intro hall
    have hzero := hall 0 8 9
    revert hzero
    decide
  · intro hall
    exact hall (.user, 180000) (.group, 0) (by decide) (by decide) (by decide)
      (by decide) (by decide) (by decide)
  · intro hall
    have hpart : ("4294967296".toList : List Char) ∈ sidSubauths "S-1-5-21-4294967296-8-9" := by
      decide
    have hread : asciiDigitCharacters.int? "4294967296".toList = some 4294967296 := by
      decide
    exact hall "S-1-5-21-4294967296-8-9" (by decide) ⟨_, hpart, _, hread, by decide⟩ (by decide)

end LocalSid

end Middlewared
