import Middlewared.PyString

/-!
# Security identifiers

A SID is text.  The SIDs of the local server are its own SID with a RID at the
end; the RID of an account comes from its id in the tables.
-/

namespace Middlewared

open PyString List

/-- The decimal digits that `int` reads.  Unicode has more of them than
ASCII. -/
structure DecimalDigits where
  value : Char → Option ℕ
  ascii : ∀ d < 10, value (Nat.digitChar d) = some d

def asciiDigits : DecimalDigits where
  value := fun c => if c.isDigit then some (c.toNat - '0'.toNat) else none
  ascii := by decide

inductive SidError where
  | valueError (errmsg : String)
deriving DecidableEq

namespace DecimalDigits

variable (digits : DecimalDigits)

def addDigit (number : ℕ) (c : Char) : Option ℕ :=
  (digits.value c).map (number * 10 + ·)

/-- `int(text)` for text for which `isdigit` holds. -/
def int? : List Char → Option ℕ
  | [] => none
  | text => text.foldlM digits.addDigit 0

end DecimalDigits

def domSidPrefix : String := "S-1-5-21-"

def domSidSubauths : ℕ := 3

def maxValueSubauth : ℕ := 2 ^ 32

def baseRidUser : ℕ := 20000

def baseRidGroup : ℕ := 200000

def ridAdmins : ℕ := 512

def ridGuests : ℕ := 514

def wellKnownSids : List String :=
  ["S-1-1-0", "S-1-3-4", "S-1-5-32-544", "S-1-5-32-545", "S-1-5-32-546"]

def sidSubauths (sid : String) : List (List Char) :=
  (sid.toList.drop domSidPrefix.length).splitOn '-'

section

variable (digits : DecimalDigits)

def subauthIsValid (subauth : List Char) : Bool :=
  (digits.int? subauth).any fun value =>
    1 ≤ value && value ≤ maxValueSubauth

def sidIsValid (sid : String) : Bool :=
  decide (sid ∈ wellKnownSids) || (startsWith sid domSidPrefix &&
      domSidSubauths ≤ (sidSubauths sid).length &&
      (sidSubauths sid).length ≤ domSidSubauths + 1 &&
      (sidSubauths sid).all (subauthIsValid digits))

def getDomainRid (sid : String) : Except SidError ℕ :=
  if !sidIsValid digits sid then
    .error (.valueError (sid ++ ": not a valid SID"))
  else if !startsWith sid domSidPrefix then
    .error (.valueError (sid ++ ": not a domain SID"))
  else if (sidSubauths sid).length = domSidSubauths then
    .error (.valueError (sid ++ ": does not contain a RID component"))
  else
    match ((sidSubauths sid).getLast?).bind digits.int? with
    | some rid => .ok rid
    | none => .error (.valueError (sid ++ ": not a valid SID"))

end

structure ServerSid (digits : DecimalDigits) where
  text : String
  isDomain : startsWith text domSidPrefix = true
  subauths : (sidSubauths text).length = domSidSubauths
  valid : (sidSubauths text).all (subauthIsValid digits) = true

def withRid (sid : String) (rid : ℕ) : String :=
  sid ++ "-" ++ toString rid

namespace DecimalDigits

variable (digits : DecimalDigits)

theorem addDigit_digitChar (number : ℕ) {d : ℕ} (hd : d < 10) :
    digits.addDigit number (Nat.digitChar d) = some (number * 10 + d) := by
  unfold addDigit
  rw [digits.ascii d hd, Option.map_some]

theorem foldlM_toDigits (n : ℕ) : (Nat.toDigits 10 n).foldlM digits.addDigit 0 = some n := by
  induction n using Nat.strongRecOn with
  | ind n ih =>
    by_cases hsmall : n < 10
    · rw [Nat.toDigits_of_lt_base hsmall, foldlM_cons, digits.addDigit_digitChar 0 hsmall]
      simp
    · have hlarge : 10 ≤ n := Nat.le_of_not_lt hsmall
      rw [Nat.toDigits_of_base_le (by decide) hlarge, foldlM_append, ih (n / 10) (by omega)]
      simp only [Option.bind_eq_bind, Option.bind_some, foldlM_cons,
        digits.addDigit_digitChar (n / 10) (Nat.mod_lt n (by decide)),
        foldlM_nil]
      change some (n / 10 * 10 + n % 10) = some n
      rw [Nat.div_add_mod']

@[simp] theorem int?_toDigits (n : ℕ) :
    digits.int? (Nat.toDigits 10 n) = some n := by
  unfold int?
  split
  · rename_i hnil
    exact absurd hnil Nat.toDigits_ne_nil
  · exact digits.foldlM_toDigits n

end DecimalDigits

theorem notMem_toDigits {c : Char} (hc : c.isDigit = false) (n : ℕ) : c ∉ Nat.toDigits 10 n := by
  intro hmem
  rw [Nat.isDigit_of_mem_toDigits (by decide) (by decide) hmem] at hc
  cases hc

theorem withRid_toList (sid : String) (rid : ℕ) :
    (withRid sid rid).toList = sid.toList ++ '-' :: Nat.toDigits 10 rid := by
  simp [withRid, String.toList_append]

theorem sidSubauths_withRid {sid : String} (hsid : domSidPrefix.length ≤ sid.length) (rid : ℕ) :
    sidSubauths (withRid sid rid) = sidSubauths sid ++ [Nat.toDigits 10 rid] := by
  unfold sidSubauths
  rw [withRid_toList, drop_append_of_le_length (String.length_toList ▸ hsid),
    splitOn_append_cons_self,
    splitOn_eq_singleton (notMem_toDigits (by decide) rid)]

theorem withRid_injective {sid : String} {first second : ℕ}
    (heq : withRid sid first = withRid sid second) : first = second := by
  have hlist := congrArg String.toList heq
  rw [withRid_toList, withRid_toList, append_cancel_left_eq, cons_inj_right] at hlist
  simpa using congrArg (fun text => Nat.ofDigitChars 10 text 0) hlist

namespace ServerSid

variable {digits : DecimalDigits} (server : ServerSid digits)

def sid (rid : ℕ) : String :=
  withRid server.text rid

theorem length_le : domSidPrefix.length ≤ server.text.length := by
  have hpart := (startsWith_iff.mp server.isDomain).length_le
  exact hpart

theorem startsWith_sid (rid : ℕ) : startsWith (server.sid rid) server.text = true := by
  rw [startsWith_iff, sid, withRid_toList]
  exact prefix_append _ _

theorem isDomain_sid (rid : ℕ) : startsWith (server.sid rid) domSidPrefix = true := by
  have hserver := startsWith_iff.mp server.isDomain
  rw [startsWith_iff, sid, withRid_toList]
  exact hserver.trans (prefix_append _ _)

theorem getDomainRid_sid {rid : ℕ} (hpos : 1 ≤ rid) (hmax : rid ≤ maxValueSubauth) :
    getDomainRid digits (server.sid rid) = .ok rid := by
  have hparts := sidSubauths_withRid server.length_le rid
  have hvalid : sidIsValid digits (server.sid rid) = true := by
    unfold sidIsValid
    rw [server.isDomain_sid, sid, hparts]
    simp [server.subauths, server.valid, subauthIsValid, domSidSubauths, hpos, hmax]
  unfold getDomainRid
  rw [hvalid, server.isDomain_sid, sid, hparts]
  simp [server.subauths]

end ServerSid

end Middlewared
