import Middlewared.AsciiCase
import Middlewared.Dict
import Middlewared.ExceptRules
import Mathlib.Tactic

/-!
# Schedules of SMART tests

A field of a schedule is read by the first of several expressions that matches its beginning.
-/

namespace Middlewared

open List Option

structure SchedulePiece where
  key : String
  (min max : ℕ)
  enum : List (String × ℕ)
  map : List (ℕ × ℕ)

inductive ScheduleError where
  | typeError
  | zeroDivision

/-- `ALL_VALUES`, or the values in the order in which they are found. -/
inductive ScheduleValues where
  | all
  | list (values : List ℕ)

inductive RangeMatch where
  | all
  | bounds (min max : ℕ)

inductive SmartdPattern where
  | dots (width : ℕ)
  | alternatives (texts : List (List Char))

namespace SmartdPattern

def text : SmartdPattern → List Char
  | .dots width => List.replicate width '.'
  | .alternatives texts => '(' :: List.intercalate ['|'] texts ++ [')']

def Matches : SmartdPattern → List Char → Prop
  | .dots width, candidate => candidate.length = width
  | .alternatives texts, candidate => candidate ∈ texts

end SmartdPattern

namespace SchedulePiece

def month : SchedulePiece where
  key := "month"
  min := 1
  max := 12
  enum := ["jan", "feb", "mar", "apr", "may", "jun", "jul", "aug", "sep", "oct",
    "nov", "dec"].zip (List.range' 1 12)
  map := []

def dom : SchedulePiece where
  key := "dom"
  min := 1
  max := 31
  enum := []
  map := []

def dow : SchedulePiece where
  key := "dow"
  min := 1
  max := 7
  enum := ["mon", "tue", "wed", "thu", "fri", "sat", "sun"].zip (List.range' 1 7)
  map := [(0, 7)]

def hour : SchedulePiece where
  key := "hour"
  min := 0
  max := 23
  enum := []
  map := []

def smartdSchedulePieces : List SchedulePiece :=
  [month, dom, dow, hour]

/-! ## Reading a field -/

def lower (text : List Char) : String :=
  String.ofList (text.map Char.toLower)

/-- `int(digits)` -/
def number (digits : List Char) : ℕ :=
  Nat.ofDigitChars 10 digits 0

/-- `[0-9]+` at the beginning of a text, and what follows. -/
def matchDigits (text : List Char) : Option (List Char × List Char) :=
  let digits := text.takeWhile Char.isDigit
  if digits = [] then none else some (digits, text.dropWhile Char.isDigit)

/-- `-` and digits, behind the digits of a first number. -/
def matchBound (first : List Char) :
    List Char → Option (RangeMatch × List Char)
  | '-' :: rest =>
    (matchDigits rest).map fun last =>
      (.bounds (number first) (number last.1), last.2)
  | _ => none

/-- `RE_RANGE.match`, and what follows the match. -/
def matchRange (text : List Char) : Option (RangeMatch × List Char) :=
  match text with
  | '*' :: rest => some (.all, rest)
  | _ =>
    match matchDigits text with
    | some (first, rest) => matchBound first rest
    | none => none

/-- `RE_RANGE_WITH_DIVISOR.match` -/
def matchRangeWithDivisor (text : List Char) : Option (RangeMatch × ℕ) :=
  match matchRange text with
  | some (range, '/' :: rest) =>
    (matchDigits rest).map fun divisor => (range, number divisor.1)
  | _ => none

/-- `range(first, last + 1)` -/
def interval (first last : ℕ) : List ℕ :=
  List.range' first (last + 1 - first)

variable (piece : SchedulePiece)

def allValues : List ℕ :=
  interval piece.min piece.max

/-- `enum.get(s.lower(), int(s) if s.isdigit() else None)` -/
def readItem (text : List Char) : Option ℕ :=
  match piece.enum.lookup (lower text) with
  | some value => some value
  | none =>
    if text ≠ [] ∧ text.all Char.isDigit then some (number text) else none

def mapped (value : ℕ) : ℕ :=
  (piece.map.lookup value).getD value

def divisible (values : List ℕ) (divisor : ℕ) :
    Except ScheduleError ScheduleValues :=
  if divisor = 0 ∧ values ≠ [] then .error .zeroDivision
  else .ok (.list (values.filter fun value => value % divisor = 0))

/-- `smartd_schedule_piece_values_template` -/
def valuesTemplate (value : List Char) :
    Except ScheduleError ScheduleValues :=
  if value = ['*'] then .ok .all
  else
    match matchRangeWithDivisor value with
    | some (.all, divisor) =>
      if divisor = 1 then .ok .all
      else divisible piece.allValues divisor
    | some (.bounds first last, divisor) =>
      divisible (interval first last) divisor
    | none =>
      match matchRange value with
      -- `int(None)`
      | some (.all, _) => .error .typeError
      | some (.bounds start last, _) =>
        if last ≤ start then .ok (.list [start])
        else .ok (.list (interval start last))
      | none =>
        let values := ((value.splitOn ',').filterMap piece.readItem).map
          piece.mapped
        if values = piece.allValues then .ok .all else .ok (.list values)

def width : ℕ :=
  (Nat.toDigits 10 piece.max).length

/-- `%0{width}d` -/
def padded (value : ℕ) : List Char :=
  let digits := Nat.toDigits 10 value
  List.replicate (piece.width - digits.length) '0' ++ digits

def smartdSchedulePiece (value : List Char) :
    Except ScheduleError SmartdPattern := do
  match ← piece.valuesTemplate value with
  | .all => return .dots piece.width
  | .list values => return .alternatives (values.map piece.padded)

def smartdSchedulePieceValues (value : List Char) :
    Except ScheduleError (List ℕ) := do
  match ← piece.valuesTemplate value with
  | .all => return piece.allValues
  | .list values => return values

def day (value : ℕ) : ℕ :=
  if piece.key = "dow" ∧ value = 0 then 7 else value

end SchedulePiece

inductive CronAtom where
  | number (zeros value : ℕ)
  | name (text : List Char)

inductive CronItem where
  | single (atom : CronAtom)
  | range (first last : CronAtom)

inductive CronField where
  | star
  | items (first : CronItem) (rest : List CronItem)

namespace CronAtom

def text : CronAtom → List Char
  | .number zeros value => List.replicate zeros '0' ++ Nat.toDigits 10 value
  | .name text => text

/-- The number of an atom; `sunday` is the one that stands for that name. -/
def value (piece : SchedulePiece) (sunday : ℕ) : CronAtom → ℕ
  | .number _ value => value
  | .name text =>
    if SchedulePiece.lower text = "sun" then sunday
    else (piece.enum.lookup (SchedulePiece.lower text)).getD 0

def Valid (piece : SchedulePiece) : CronAtom → Prop
  | .number _ value =>
    (piece.key = "dow" ∨ piece.min ≤ value) ∧ value ≤ piece.max
  | .name text => SchedulePiece.lower text ∈ piece.enum.map Prod.fst

end CronAtom

namespace CronItem

def text : CronItem → List Char
  | .single atom => atom.text
  | .range first last => first.text ++ '-' :: last.text

def values (piece : SchedulePiece) (sunday : ℕ) : CronItem → Set ℕ
  | .single atom => {v | v = piece.day (atom.value piece sunday)}
  | .range first last =>
    {v | ∃ n, first.value piece sunday ≤ n ∧ n ≤ last.value piece sunday ∧
      v = piece.day n}

def Valid (piece : SchedulePiece) (sunday : ℕ) : CronItem → Prop
  | .single atom => atom.Valid piece
  | .range first last =>
    first.Valid piece ∧ last.Valid piece ∧ first.value piece sunday ≤ last.value piece sunday

def numbers? : CronItem → Option (ℕ × ℕ)
  | .range (.number _ first) (.number _ last) => some (first, last)
  | _ => none

def IsRange : CronItem → Prop
  | .single _ => False
  | .range _ _ => True

end CronItem

namespace CronField

def text : CronField → List Char
  | .star => ['*']
  | .items first rest =>
    List.intercalate [','] ((first :: rest).map CronItem.text)

def values (piece : SchedulePiece) (sunday : ℕ) : CronField → Set ℕ
  | .star => {v | piece.min ≤ v ∧ v ≤ piece.max}
  | .items first rest =>
    {v | ∃ item ∈ first :: rest, v ∈ item.values piece sunday}

def Valid (piece : SchedulePiece) (sunday : ℕ) : CronField → Prop
  | .star => True
  | .items first rest => ∀ item ∈ first :: rest, item.Valid piece sunday

/-- The pattern for a field matches, and the list of its values holds, just
what cron assigns to it. -/
def SmartdAgrees (piece : SchedulePiece) (sunday : ℕ) (field : CronField) :
    Prop :=
  ∃ pattern values, piece.smartdSchedulePiece field.text = .ok pattern ∧
    piece.smartdSchedulePieceValues field.text = .ok values ∧
    (∀ v, piece.min ≤ v → v ≤ piece.max →
      (pattern.Matches (piece.padded v) ↔ v ∈ field.values piece sunday)) ∧
    ∀ v, v ∈ values ↔ v ∈ field.values piece sunday

/-- A range of numbers in front holds all values of the field, or else the
ranges hold no value that no single number or name gives. -/
def RangesRedundant (piece : SchedulePiece) (sunday : ℕ) : CronField → Prop
  | .star => True
  | .items first rest =>
    match first.numbers? with
    | some (start, last) =>
      (piece.key = "dow" → start ≠ 0) ∧ ∀ item ∈ rest, ∀ v ∈ item.values piece sunday,
          start ≤ v ∧ v ≤ last
    | none =>
      ∀ item ∈ first :: rest, item.IsRange → ∀ v ∈ item.values piece sunday,
          ∃ other ∈ first :: rest, ¬ other.IsRange ∧ v ∈ other.values piece sunday

end CronField

/-! ## Texts -/

namespace SchedulePiece

def IsLetter (c : Char) : Prop :=
  c.toLower.isLower = true

variable {c : Char}

theorem IsLetter.bounds (hc : IsLetter c) : 65 ≤ c.toNat ∧ c.toNat ≤ 122 := by
  have hlower := AsciiCase.isLower_iff.mp hc
  rw [AsciiCase.toNat_toLower] at hlower
  split at hlower <;> omega

theorem isDigit_iff : c.isDigit = true ↔ 48 ≤ c.toNat ∧ c.toNat ≤ 57 := by
  delta Char.isDigit
  simp [UInt32.le_iff_toNat_le]

theorem IsLetter.not_isDigit (hc : IsLetter c) : c.isDigit = false := by
  have hbounds := hc.bounds
  rw [← Bool.not_eq_true, isDigit_iff]
  omega

def IsAtomChar (c : Char) : Prop :=
  c.isDigit = true ∨ IsLetter c

theorem IsAtomChar.ne {mark : Char} (hc : IsAtomChar c) (hmark : mark.toNat < 48) : c ≠ mark := by
  intro heq
  rcases hc with hdigit | hletter
  · rw [isDigit_iff] at hdigit
    rw [heq] at hdigit
    omega
  · have hbounds := hletter.bounds
    rw [heq] at hbounds
    omega

theorem matchDigits_append {digits after : List Char}
    (hdigits : ∀ c ∈ digits, c.isDigit = true) (hne : digits ≠ [])
    (hafter : ∀ c, after.head? = some c → c.isDigit = false) :
    matchDigits (digits ++ after) = some (digits, after) := by
  have htake : after.takeWhile Char.isDigit = [] := by
    cases after with
    | nil => rfl
    | cons c rest => simp [hafter c rfl]
  have hdrop : after.dropWhile Char.isDigit = after := by
    cases after with
    | nil => rfl
    | cons c rest => simp [hafter c rfl]
  unfold matchDigits
  rw [takeWhile_append_of_pos hdigits, dropWhile_append_of_pos hdigits, htake, hdrop, append_nil]
  exact if_neg hne

theorem matchDigits_eq_none {text : List Char}
    (hhead : ∀ c, text.head? = some c → c.isDigit = false) :
    matchDigits text = none := by
  unfold matchDigits
  cases text with
  | nil => rfl
  | cons c rest => simp [hhead c rfl]

theorem matchRange_of_digits {digits after : List Char}
    (hdigits : ∀ c ∈ digits, c.isDigit = true) (hne : digits ≠ [])
    (hafter : ∀ c, after.head? = some c → c.isDigit = false) :
    matchRange (digits ++ after) = matchBound digits after := by
  have hmatch := matchDigits_append hdigits hne hafter
  cases digits with
  | nil => exact absurd rfl hne
  | cons d rest =>
    have hstar : d ≠ '*' := IsAtomChar.ne (.inl (hdigits d mem_cons_self)) (by decide)
    unfold matchRange
    split
    · next heq => exact absurd (List.cons.inj heq).1 hstar
    · rw [hmatch]

theorem matchRange_eq_none {rest : List Char} (hc : IsLetter c) :
    matchRange (c :: rest) = none := by
  have hnone : matchDigits (c :: rest) = none := by
    apply matchDigits_eq_none
    intro d hd
    rw [← some.inj hd]
    exact hc.not_isDigit
  have hstar : c ≠ '*' := IsAtomChar.ne (.inr hc) (by decide)
  unfold matchRange
  split
  · next heq => exact absurd (List.cons.inj heq).1 hstar
  · rw [hnone]

theorem lookup_eq_some {piece : SchedulePiece} {text : List Char}
    (hname : lower text ∈ piece.enum.map Prod.fst) :
    piece.enum.lookup (lower text) = some ((piece.enum.lookup (lower text)).getD 0) := by
  obtain ⟨value, hvalue⟩ := Option.isSome_iff_exists.mp
    ((Dict.lookup_isSome_iff piece.enum (lower text)).mpr hname)
  rw [hvalue]
  rfl

section

variable {piece : SchedulePiece} (hpiece : piece ∈ smartdSchedulePieces)
include hpiece

theorem isLower_of_mem_enum {name : String} (hname : name ∈ piece.enum.map Prod.fst) :
    name.toList ≠ [] ∧ ∀ c ∈ name.toList, c.isLower = true := by
  have hall : (smartdSchedulePieces.all fun piece => piece.enum.all fun entry =>
      !entry.1.toList.isEmpty && entry.1.toList.all Char.isLower) = true := by
    decide
  obtain ⟨entry, hentry, rfl⟩ := List.mem_map.mp hname
  have hone := List.all_eq_true.mp (List.all_eq_true.mp hall piece hpiece) entry hentry
  rw [Bool.and_eq_true, List.all_eq_true] at hone
  refine ⟨?_, hone.2⟩
  intro hnil
  rw [hnil] at hone
  exact absurd hone.1 (by decide)

theorem isLetter_of_name {text : List Char} (hname : lower text ∈ piece.enum.map Prod.fst) :
    text ≠ [] ∧ ∀ c ∈ text, IsLetter c := by
  obtain ⟨hne, hall⟩ := isLower_of_mem_enum hpiece hname
  rw [lower, String.toList_ofList] at hne hall
  refine ⟨?_, ?_⟩
  · intro hnil
    rw [hnil] at hne
    exact hne rfl
  · intro c hc
    exact hall c.toLower (List.mem_map_of_mem hc)

theorem lookup_eq_none {text : List Char} (hc : c ∈ text)
    (hletter : ¬ IsLetter c) : piece.enum.lookup (lower text) = none := by
  by_contra hsome
  have hmem : lower text ∈ piece.enum.map Prod.fst :=
    (Dict.lookup_isSome_iff piece.enum (lower text)).mp (Option.isSome_iff_ne_none.mpr hsome)
  exact hletter ((isLetter_of_name hpiece hmem).2 c hc)

theorem mapped_eq_day (value : ℕ) : piece.mapped value = piece.day value := by
  simp only [smartdSchedulePieces, mem_cons, not_mem_nil, or_false] at hpiece
  rcases hpiece with heq | heq | heq | heq <;> subst heq
  · rfl
  · rfl
  · cases value with
    | zero => rfl
    | succ n =>
      simp [mapped, day, dow]
  · rfl

end

end SchedulePiece

/-! ## Texts of atoms and items -/

namespace CronAtom

open SchedulePiece

theorem isDigit_of_mem_number {zeros value : ℕ} {c : Char}
    (hc : c ∈ (number zeros value).text) : c.isDigit = true := by
  rcases mem_append.mp hc with hzero | hdigit
  · rw [eq_of_mem_replicate hzero]
    rfl
  · exact Nat.isDigit_of_mem_toDigits (by omega) (by omega) hdigit

theorem number_text_ne_nil (zeros value : ℕ) : (number zeros value).text ≠ [] := by
  intro hnil
  exact Nat.toDigits_ne_nil (append_eq_nil_iff.mp hnil).2

theorem number_text (zeros value : ℕ) : SchedulePiece.number (number zeros value).text = value := by
  rw [SchedulePiece.number, text, Nat.ofDigitChars_append,
    Nat.ofDigitChars_replicate_zero, Nat.mul_zero,
    Nat.ofDigitChars_toDigits (by omega) (by omega)]

section

variable {piece : SchedulePiece} (hpiece : piece ∈ smartdSchedulePieces)
  {sunday : ℕ}
include hpiece

theorem isAtomChar_of_mem {atom : CronAtom} (hvalid : atom.Valid piece)
    {c : Char} (hc : c ∈ atom.text) : IsAtomChar c := by
  cases atom with
  | number zeros value => exact .inl (isDigit_of_mem_number hc)
  | name text => exact .inr ((isLetter_of_name hpiece hvalid).2 c hc)

theorem readItem_text {atom : CronAtom} (hvalid : atom.Valid piece)
    (hsunday : sunday = 0 ∨ sunday = 7) :
    ∃ v, piece.readItem atom.text = some v ∧
      piece.mapped v = piece.day (atom.value piece sunday) := by
  cases atom with
  | number zeros value =>
    obtain ⟨c, hc⟩ := exists_mem_of_ne_nil _ (number_text_ne_nil zeros value)
    have hdigit := isDigit_of_mem_number hc
    have hnone := lookup_eq_none hpiece hc fun hletter => by
      rw [hletter.not_isDigit] at hdigit
      cases hdigit
    have hall : (number zeros value).text.all Char.isDigit = true :=
      List.all_eq_true.mpr fun d hd => isDigit_of_mem_number hd
    refine ⟨value, ?_, mapped_eq_day hpiece value⟩
    rw [readItem, hnone]
    simp only [number_text_ne_nil, ne_eq, not_false_eq_true, hall, and_self, if_true, number_text]
  | name text =>
    have hsome := lookup_eq_some hvalid
    refine ⟨_, by rw [readItem, CronAtom.text, hsome], ?_⟩
    rw [mapped_eq_day hpiece, CronAtom.value]
    split
    · next hsun =>
        rw [hsun]
        have hmem : "sun" ∈ piece.enum.map Prod.fst := hsun ▸ hvalid
        simp only [smartdSchedulePieces, mem_cons, not_mem_nil, or_false] at hpiece
        rcases hpiece with heq | heq | heq | heq <;> subst heq
        · exact absurd hmem (by decide)
        · exact absurd hmem (by decide)
        · rcases hsunday with hzero | hseven
          · rw [hzero]
            rfl
          · rw [hseven]
            rfl
        · exact absurd hmem (by decide)
    · rfl

end

end CronAtom

namespace CronItem

open SchedulePiece

section

variable {piece : SchedulePiece} (hpiece : piece ∈ smartdSchedulePieces)
  {sunday : ℕ}
include hpiece

variable {item : CronItem}

theorem comma_notMem_text (hvalid : item.Valid piece sunday) : ',' ∉ item.text := by
  intro hmem
  cases item with
  | single atom =>
    exact (CronAtom.isAtomChar_of_mem hpiece hvalid hmem).ne (by decide) rfl
  | range first last =>
    rcases mem_append.mp hmem with hfirst | hrest
    · exact (CronAtom.isAtomChar_of_mem hpiece hvalid.1 hfirst).ne (by decide) rfl
    · rcases mem_cons.mp hrest with hdash | hlast
      · exact absurd hdash (by decide)
      · exact (CronAtom.isAtomChar_of_mem hpiece hvalid.2.1 hlast).ne (by decide) rfl

theorem readItem_range (first last : CronAtom) : piece.readItem (range first last).text = none := by
  have hdash : '-' ∈ (range first last).text := mem_append_right _ mem_cons_self
  have hnone := lookup_eq_none hpiece hdash (by unfold IsLetter; decide)
  have hall : (range first last).text.all Char.isDigit = false :=
    List.all_eq_false.mpr ⟨'-', hdash, by decide⟩
  rw [readItem, hnone]
  simp only [hall, Bool.false_eq_true, and_false, if_false]

theorem matchRange_text (hvalid : item.Valid piece sunday) {after : List Char}
    (hafter : ∀ c, after.head? = some c → c = ',') :
    matchRange (item.text ++ after) =
      item.numbers?.map fun bounds => (.bounds bounds.1 bounds.2, after) := by
  have hdigit : ∀ c, after.head? = some c → c.isDigit = false := by
    intro c hc
    rw [hafter c hc]
    rfl
  have hletters (text : List Char) (tail : List Char)
      (hname : lower text ∈ piece.enum.map Prod.fst) :
      ∃ c rest, text ++ tail = c :: rest ∧ IsLetter c := by
    obtain ⟨hne, hall⟩ := isLetter_of_name hpiece hname
    cases text with
    | nil => exact absurd rfl hne
    | cons c rest => exact ⟨c, rest ++ tail, rfl, hall c mem_cons_self⟩
  have hname (text tail : List Char) (hname : lower text ∈ piece.enum.map Prod.fst) :
      matchRange (text ++ tail) = none := by
    obtain ⟨c, rest, heq, hc⟩ := hletters text tail hname
    rw [heq, matchRange_eq_none hc]
  cases item with
  | single atom =>
    cases atom with
    | number zeros value =>
      rw [text, matchRange_of_digits (fun c hc => CronAtom.isDigit_of_mem_number hc)
        (CronAtom.number_text_ne_nil zeros value) hdigit]
      cases after with
      | nil => rfl
      | cons c rest =>
        rw [hafter c rfl]
        rfl
    | name chars => exact hname chars after hvalid
  | range first last =>
    rw [text, append_assoc, cons_append]
    cases first with
    | name chars => exact hname chars _ hvalid.1
    | number zeros value =>
      have hdash : ∀ c, ('-' :: (last.text ++ after)).head? = some c → c.isDigit = false := by
        intro c hc
        rw [← some.inj hc]
        rfl
      rw [matchRange_of_digits (fun c hc => CronAtom.isDigit_of_mem_number hc)
        (CronAtom.number_text_ne_nil zeros value) hdash]
      cases last with
      | number zeros' value' =>
        simp only [matchBound, matchDigits_append (fun c hc => CronAtom.isDigit_of_mem_number hc)
          (CronAtom.number_text_ne_nil zeros' value') hdigit,
          CronAtom.number_text, map_some, numbers?]
      | name chars =>
        obtain ⟨c, rest, heq, hc⟩ := hletters chars after hvalid.2.1
        have hnone : matchDigits (chars ++ after) = none := by
          rw [heq]
          apply matchDigits_eq_none
          intro d hd
          rw [← some.inj hd]
          exact hc.not_isDigit
        simp only [CronAtom.text, matchBound, hnone, map_none, numbers?]

theorem head?_text_ne (hvalid : item.Valid piece sunday) :
    ∃ c rest, item.text = c :: rest ∧ c ≠ '*' := by
  have hatom (atom : CronAtom) (hatom : atom.Valid piece) :
      ∃ c rest, atom.text = c :: rest ∧ c ≠ '*' := by
    cases htext : atom.text with
    | nil =>
      cases atom with
      | number zeros value =>
        exact absurd htext (CronAtom.number_text_ne_nil zeros value)
      | name chars => exact absurd htext (isLetter_of_name hpiece hatom).1
    | cons c rest =>
      have hc : IsAtomChar c := CronAtom.isAtomChar_of_mem hpiece hatom (by
        rw [htext]
        exact mem_cons_self)
      exact ⟨c, rest, rfl, hc.ne (by decide)⟩
  cases item with
  | single atom => exact hatom atom hvalid
  | range first last =>
    obtain ⟨c, rest, htext, hc⟩ := hatom first hvalid.1
    exact ⟨c, rest ++ '-' :: last.text, by rw [text, htext]; rfl, hc⟩

end

end CronItem

theorem CronItem.of_numbers? {piece : SchedulePiece} {sunday : ℕ}
    {item : CronItem} (hvalid : item.Valid piece sunday) {start last : ℕ}
    (hnumbers : item.numbers? = some (start, last)) :
    start ≤ last ∧ ∀ v, v ∈ item.values piece sunday ↔
      ∃ n, start ≤ n ∧ n ≤ last ∧ v = piece.day n := by
  cases item with
  | single atom => cases hnumbers
  | range first second =>
    cases first with
    | name chars => cases hnumbers
    | number zeros value =>
      cases second with
      | name chars => cases hnumbers
      | number zeros' value' =>
        cases hnumbers
        exact ⟨hvalid.2.2, fun v => Iff.rfl⟩

/-! ## What a field is read as -/

namespace CronField

open SchedulePiece

def singles (piece : SchedulePiece) (sunday : ℕ) (items : List CronItem) :
    List ℕ :=
  items.filterMap fun
    | .single atom => some (piece.day (atom.value piece sunday))
    | .range _ _ => none

/-- What `valuesTemplate` makes of the items. -/
def read (piece : SchedulePiece) (sunday : ℕ) (first : CronItem)
    (rest : List CronItem) : ScheduleValues :=
  match first.numbers? with
  | some (start, last) => .list (interval start last)
  | none =>
    if singles piece sunday (first :: rest) = piece.allValues then .all
    else .list (singles piece sunday (first :: rest))

section

variable {piece : SchedulePiece} (hpiece : piece ∈ smartdSchedulePieces)
  {sunday : ℕ} (hsunday : sunday = 0 ∨ sunday = 7)
include hpiece hsunday

theorem filterMap_readItem {items : List CronItem}
    (hvalid : ∀ item ∈ items, item.Valid piece sunday) :
    ((items.map CronItem.text).filterMap piece.readItem).map piece.mapped =
      singles piece sunday items := by
  induction items with
  | nil => rfl
  | cons item rest ih =>
    have hrest := ih fun other hother =>
      hvalid other (mem_cons_of_mem item hother)
    have hitem := hvalid item mem_cons_self
    rw [map_cons]
    cases item with
    | single atom =>
      obtain ⟨v, hread, hmapped⟩ := CronAtom.readItem_text hpiece hitem hsunday
      rw [CronItem.text, filterMap_cons_some hread, map_cons, hrest, hmapped]
      rfl
    | range first last =>
      rw [filterMap_cons_none (CronItem.readItem_range hpiece first last), hrest]
      rfl

theorem valuesTemplate_items {first : CronItem} {rest : List CronItem}
    (hvalid : (items first rest).Valid piece sunday) :
    piece.valuesTemplate (items first rest).text = .ok (read piece sunday first rest) := by
  have hfirst := hvalid first mem_cons_self
  obtain ⟨after, htext, hafter⟩ : ∃ after, (items first rest).text = first.text ++ after ∧
        ∀ c, after.head? = some c → c = ',' := by
    cases rest with
    | nil => exact ⟨[], by simp [text], nofun⟩
    | cons item rest =>
      refine ⟨',' :: List.intercalate [','] ((item :: rest).map CronItem.text), ?_, ?_⟩
      · simp only [text, map_cons, intercalate_cons_cons]
        rw [append_assoc]
        rfl
      · intro c hc
        exact (some.inj hc).symm
  have hmatch : matchRange (items first rest).text = _ :=
    htext ▸ CronItem.matchRange_text hpiece hfirst hafter
  have hdivisor : matchRangeWithDivisor (items first rest).text = none := by
    unfold matchRangeWithDivisor
    rw [hmatch]
    cases first.numbers? with
    | none => rfl
    | some bounds =>
      cases after with
      | nil => rfl
      | cons c tail =>
        rw [hafter c rfl]
        rfl
  have hstar : (items first rest).text ≠ ['*'] := by
    obtain ⟨c, tail, hc, hne⟩ := CronItem.head?_text_ne hpiece hfirst
    rw [htext, hc]
    intro heq
    exact hne (List.cons.inj heq).1
  have hsplit : (items first rest).text.splitOn ',' = (first :: rest).map CronItem.text := by
    apply splitOn_intercalate
    · intro text htext
      obtain ⟨item, hitem, rfl⟩ := List.mem_map.mp htext
      exact CronItem.comma_notMem_text hpiece (hvalid item hitem)
    · simp
  unfold valuesTemplate read
  rw [if_neg hstar, hdivisor, hmatch, hsplit, filterMap_readItem hpiece hsunday hvalid]
  cases hnumbers : first.numbers? with
  | none =>
    simp only [map_none]
    split <;> rfl
  | some bounds =>
    simp only [map_some]
    split
    · next hle =>
        have hbounds := (CronItem.of_numbers? hfirst hnumbers).1
        have hlength : bounds.2 + 1 - bounds.1 = 1 := by omega
        rw [interval, hlength]
        rfl
    · rfl

end

end CronField

namespace SchedulePiece

theorem number_padded (piece : SchedulePiece) (value : ℕ) :
    number (piece.padded value) = value := by
  unfold number padded
  rw [Nat.ofDigitChars_append, Nat.ofDigitChars_replicate_zero, Nat.mul_zero,
    Nat.ofDigitChars_toDigits (by omega) (by omega)]

theorem length_padded {piece : SchedulePiece} {value : ℕ}
    (hle : value ≤ piece.max) : (piece.padded value).length = piece.width := by
  have hpos : 0 < piece.width := Nat.length_toDigits_pos
  have hmax : piece.max < 10 ^ piece.width := (Nat.length_toDigits_le_iff (by omega) hpos).mp le_rfl
  have hlength : (Nat.toDigits 10 value).length ≤ piece.width :=
    (Nat.length_toDigits_le_iff (by omega) hpos).mpr (by omega)
  simp only [padded, length_append, length_replicate]
  omega

theorem day_ne_zero {piece : SchedulePiece}
    (hkey : piece.key = "dow") (n : ℕ) : piece.day n ≠ 0 := by
  unfold day
  split
  · omega
  · next hne =>
      intro hzero
      exact hne ⟨hkey, hzero⟩

/-- The values that are found, `ALL_VALUES` included. -/
def members (piece : SchedulePiece) : ScheduleValues → List ℕ
  | .all => piece.allValues
  | .list values => values

theorem mem_interval {first last v : ℕ} : v ∈ interval first last ↔ first ≤ v ∧ v ≤ last := by
  rw [interval, mem_range'_1]
  omega

end SchedulePiece

namespace CronField

open SchedulePiece

theorem smartdAgrees_iff_members {piece : SchedulePiece} {sunday : ℕ}
    {field : CronField} {found : ScheduleValues}
    (hfound : piece.valuesTemplate field.text = .ok found) :
    field.SmartdAgrees piece sunday ↔
      ∀ v, v ∈ piece.members found ↔ v ∈ field.values piece sunday := by
  have hpattern : ∃ pattern, piece.smartdSchedulePiece field.text = .ok pattern ∧
      ∀ v, piece.min ≤ v → v ≤ piece.max →
        (pattern.Matches (piece.padded v) ↔ v ∈ piece.members found) := by
    unfold smartdSchedulePiece
    rw [hfound, ok_bind]
    cases found with
    | all =>
      refine ⟨.dots piece.width, rfl, ?_⟩
      intro v hmin hmax
      simp [SmartdPattern.Matches, length_padded hmax, members, allValues, mem_interval, hmin, hmax]
    | list values =>
      refine ⟨.alternatives (values.map piece.padded), rfl, ?_⟩
      intro v _ _
      constructor
      · intro hmatches
        obtain ⟨w, hw, heq⟩ := List.mem_map.mp hmatches
        have hnumber := congrArg number heq
        rw [number_padded, number_padded] at hnumber
        rw [← hnumber]
        exact hw
      · intro hv
        exact List.mem_map_of_mem hv
  have hvalues : piece.smartdSchedulePieceValues field.text = .ok (piece.members found) := by
    unfold smartdSchedulePieceValues
    rw [hfound, ok_bind]
    cases found <;> rfl
  obtain ⟨pattern, hsome, hmatches⟩ := hpattern
  constructor
  · rintro ⟨_, values, _, hlist, _, hmembers⟩
    rw [hvalues] at hlist
    rw [Except.ok.inj hlist]
    exact hmembers
  · intro hmembers
    exact ⟨pattern, _, hsome, hvalues, fun v hmin hmax =>
      (hmatches v hmin hmax).trans (hmembers v), hmembers⟩

theorem mem_singles_iff {piece : SchedulePiece} {sunday : ℕ} {items : List CronItem} {v : ℕ} :
    v ∈ singles piece sunday items ↔
      ∃ item ∈ items, ¬ item.IsRange ∧ v ∈ item.values piece sunday := by
  rw [singles, mem_filterMap]
  constructor
  · rintro ⟨item, hitem, hv⟩
    cases item with
    | single atom =>
      exact ⟨_, hitem, fun hrange => hrange, (some.inj hv).symm⟩
    | range first last => cases hv
  · rintro ⟨item, hitem, hsingle, hv⟩
    cases item with
    | single atom => exact ⟨_, hitem, congrArg some hv.symm⟩
    | range first last => exact absurd trivial hsingle

section

variable {piece : SchedulePiece} {sunday : ℕ} {first : CronItem}
  {rest : List CronItem}

theorem mem_read_iff_of_range {start last : ℕ} (hvalid : first.Valid piece sunday)
    (hnumbers : first.numbers? = some (start, last)) :
    (∀ v, v ∈ piece.members (read piece sunday first rest) ↔
      v ∈ (items first rest).values piece sunday) ↔
      (items first rest).RangesRedundant piece sunday := by
  obtain ⟨hle, hfirst⟩ := CronItem.of_numbers? hvalid hnumbers
  simp only [read, RangesRedundant, hnumbers, members, mem_interval]
  constructor
  · intro hall
    constructor
    · intro hkey hzero
      obtain ⟨item, _, hv⟩ := (hall 0).mp (by omega)
      cases item with
      | single atom => exact day_ne_zero hkey _ hv.symm
      | range a b =>
        obtain ⟨n, _, _, heq⟩ := hv
        exact day_ne_zero hkey n heq.symm
    · intro item hitem v hv
      exact (hall v).mpr ⟨item, mem_cons_of_mem first hitem, hv⟩
  · intro hredundant v
    have hday : ∀ n, start ≤ n → piece.day n = n := by
      intro n hn
      unfold day
      rw [if_neg]
      intro hzero
      have hstart := hredundant.1 hzero.1
      omega
    constructor
    · intro hv
      exact ⟨first, mem_cons_self, (hfirst v).mpr ⟨v, hv.1, hv.2, (hday v hv.1).symm⟩⟩
    · intro hv
      obtain ⟨item, hitem, hv⟩ := hv
      rcases mem_cons.mp hitem with heq | hmem
      · rw [heq] at hv
        obtain ⟨n, hstart, hlast, heq⟩ := (hfirst v).mp hv
        rw [hday n hstart] at heq
        rw [heq]
        exact ⟨hstart, hlast⟩
      · exact hredundant.2 item hmem v hv

theorem mem_read_iff_of_list (hnumbers : first.numbers? = none) :
    (∀ v, v ∈ piece.members (read piece sunday first rest) ↔
      v ∈ (items first rest).values piece sunday) ↔
      (items first rest).RangesRedundant piece sunday := by
  have hmembers : piece.members (read piece sunday first rest) =
      singles piece sunday (first :: rest) := by
    simp only [read, hnumbers]
    split
    · next heq => exact heq.symm
    · rfl
  simp only [hmembers, mem_singles_iff, RangesRedundant, hnumbers]
  constructor
  · intro hall item hitem _ v hv
    exact (hall v).mpr ⟨item, hitem, hv⟩
  · intro hranges v
    constructor
    · intro hv
      obtain ⟨item, hitem, _, hv⟩ := hv
      exact ⟨item, hitem, hv⟩
    · intro hv
      obtain ⟨item, hitem, hv⟩ := hv
      by_cases hrange : item.IsRange
      · exact hranges item hitem hrange v hv
      · exact ⟨item, hitem, hrange, hv⟩

end

/-- SMART and cron agree on a field if and only if its ranges add nothing that
is not read: a range of numbers in front has to hold all of the field, and no
0 in the day of week. -/
theorem smartdAgrees_iff {piece : SchedulePiece}
    (hpiece : piece ∈ smartdSchedulePieces) {sunday : ℕ}
    (hsunday : sunday = 0 ∨ sunday = 7) {field : CronField}
    (hvalid : field.Valid piece sunday) :
    field.SmartdAgrees piece sunday ↔ field.RangesRedundant piece sunday := by
  cases field with
  | star =>
    have hall : piece.valuesTemplate star.text = .ok .all := rfl
    rw [smartdAgrees_iff_members hall]
    refine iff_of_true ?_ trivial
    intro v
    exact mem_interval
  | items first rest =>
    rw [smartdAgrees_iff_members (valuesTemplate_items hpiece hsunday hvalid)]
    cases hnumbers : first.numbers? with
    | none => exact mem_read_iff_of_list hnumbers
    | some bounds =>
      exact mem_read_iff_of_range (hvalid first mem_cons_self) hnumbers

theorem smartdAgrees_hours : (items (.range (.number 0 9) (.number 0 17))
    [.single (.number 0 12)]).SmartdAgrees hour 0 := by
  have hvalid : (items (.range (.number 0 9) (.number 0 17))
      [.single (.number 0 12)]).Valid hour 0 := by
    intro item hitem
    rcases mem_cons.mp hitem with heq | hmem
    · rw [heq]
      exact ⟨⟨.inr (by decide), by decide⟩, ⟨.inr (by decide), by decide⟩, by decide⟩
    · rw [mem_singleton.mp hmem]
      exact ⟨.inr (by decide), by decide⟩
  refine (smartdAgrees_iff (by simp [smartdSchedulePieces]) (.inl rfl) hvalid).mpr ⟨nofun, ?_⟩
  intro item hitem v hv
  rw [mem_singleton.mp hitem] at hv
  have hvalue : v = 12 := hv
  omega

/-- Only the beginning of the list of days is read. -/
theorem not_smartdAgrees_days : ¬ ∀ piece ∈ smartdSchedulePieces, ∀ field : CronField,
    field.Valid piece 0 → field.SmartdAgrees piece 0 := by
  intro hall
  have hvalid : (items (.range (.number 0 1) (.number 0 5))
      [.single (.number 0 20)]).Valid dom 0 := by
    intro item hitem
    rcases mem_cons.mp hitem with heq | hmem
    · rw [heq]
      exact ⟨⟨.inr (by decide), by decide⟩, ⟨.inr (by decide), by decide⟩, by decide⟩
    · rw [mem_singleton.mp hmem]
      exact ⟨.inr (by decide), by decide⟩
  obtain ⟨_, values, _, hvalues, _, hmembers⟩ := hall dom (by simp [smartdSchedulePieces]) _ hvalid
  have hmem : 20 ∈ values := (hmembers 20).mpr ⟨_, mem_cons_of_mem _ mem_cons_self, rfl⟩
  rw [← Except.ok.inj hvalues] at hmem
  exact absurd hmem (by decide)

end CronField

end Middlewared
