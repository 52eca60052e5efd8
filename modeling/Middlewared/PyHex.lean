import Mathlib.Data.List.Basic
import Mathlib.Tactic.IntervalCases
import Mathlib.Tactic.Ring

/-!
# Numbers in base 16

`int(data, 16)` reads far more than digits: blanks around the number, a sign, `0x`, and
underscores between digits.
-/

namespace Middlewared.PyHex

open List Option

def hexValue? (c : Char) : Option ℕ :=
  if 48 ≤ c.toNat ∧ c.toNat ≤ 57 then some (c.toNat - 48)
  else if 97 ≤ c.toNat ∧ c.toNat ≤ 102 then some (c.toNat - 87)
  else if 65 ≤ c.toNat ∧ c.toNat ≤ 70 then some (c.toNat - 55)
  else none

def IsHexDigit (c : Char) : Prop :=
  (hexValue? c).isSome

def digitsNumber : List Char → ℕ → Option ℕ
  | [], acc => some acc
  | c :: rest, acc =>
    (hexValue? c).bind fun d => digitsNumber rest (16 * acc + d)

def readDigits (acc : ℕ) : List Char → Option ℕ
  | [] => some acc
  | c :: rest =>
    if c = '_' then
      match rest with
      | [] => none
      | d :: rest =>
        (hexValue? d).bind fun value => readDigits (16 * acc + value) rest
    else (hexValue? c).bind fun value => readDigits (16 * acc + value) rest

def readMagnitude : List Char → Option ℕ
  | [] => none
  | c :: rest => (hexValue? c).bind fun value => readDigits value rest

/-- Leaves out `0x`, and an underscore behind it. -/
def withoutBase : List Char → List Char
  | '0' :: x :: rest =>
    if x = 'x' ∨ x = 'X' then
      if rest.head? = some '_' then rest.tail else rest
    else '0' :: x :: rest
  | text => text

def isBlank (c : Char) : Bool :=
  c = ' ' || (9 ≤ c.toNat && c.toNat ≤ 13)

def strip (text : List Char) : List Char :=
  ((text.dropWhile isBlank).reverse.dropWhile isBlank).reverse

/-- `int(data, 16)`; `none` is a `ValueError`. -/
def intBase16 (data : List Char) : Option ℤ :=
  match strip data with
  | '-' :: rest => (readMagnitude (withoutBase rest)).map fun n => -Int.ofNat n
  | '+' :: rest => (readMagnitude (withoutBase rest)).map Int.ofNat
  | text => (readMagnitude (withoutBase text)).map Int.ofNat

/-- `hex(number)`. -/
def hex (number : ℤ) : List Char :=
  if number < 0 then ['-', '0', 'x'] ++ Nat.toDigits 16 number.natAbs
  else ['0', 'x'] ++ Nat.toDigits 16 number.natAbs

variable {c : Char}

theorem hexValue?_lt {d : ℕ} (hvalue : hexValue? c = some d) : d < 16 := by
  unfold hexValue? at hvalue
  split at hvalue
  · have heq := some.inj hvalue
    omega
  · split at hvalue
    · have heq := some.inj hvalue
      omega
    · split at hvalue
      · have heq := some.inj hvalue
        omega
      · cases hvalue

theorem hexValue?_eq_zero_iff : hexValue? c = some 0 ↔ c = '0' := by
  constructor
  · intro hvalue
    unfold hexValue? at hvalue
    split at hvalue
    · have heq := some.inj hvalue
      have hzero : c.toNat = '0'.toNat := by
        simp only [show '0'.toNat = 48 from rfl]
        omega
      exact Char.toNat_inj.mp hzero
    · split at hvalue
      · have heq := some.inj hvalue
        omega
      · split at hvalue
        · have heq := some.inj hvalue
          omega
        · cases hvalue
  · intro hc
    subst c
    rfl

theorem hexValue?_digitChar {d : ℕ} (hd : d < 16) : hexValue? d.digitChar = some d := by
  interval_cases d <;> rfl

theorem IsHexDigit.ne_of_hexValue? {x : Char} (hc : IsHexDigit c)
    (hx : hexValue? x = none) : c ≠ x := by
  intro heq
  subst c
  simp [IsHexDigit, hx] at hc

theorem IsHexDigit.not_isBlank (hc : IsHexDigit c) : isBlank c = false := by
  by_contra hblank
  have hcases : c = ' ' ∨ 9 ≤ c.toNat ∧ c.toNat ≤ 13 := by
    simpa [isBlank, or_iff_not_imp_left] using hblank
  have hsmall : c.toNat < 48 := by
    rcases hcases with hspace | hcontrol
    · subst c
      decide
    · omega
  have hnone : hexValue? c = none := by
    simp only [hexValue?]
    rw [if_neg (by omega), if_neg (by omega), if_neg (by omega)]
  simp [IsHexDigit, hnone] at hc

variable {text : List Char}

variable (hdigits : ∀ c ∈ text, IsHexDigit c)

include hdigits

theorem strip_eq_self : strip text = text := by
  have hkeep (l : List Char) (hl : ∀ c ∈ l, IsHexDigit c) : l.dropWhile isBlank = l := by
    cases l with
    | nil => rfl
    | cons c rest =>
      simp [(hl c mem_cons_self).not_isBlank]
  have hreverse : ∀ c ∈ text.reverse, IsHexDigit c := by
    intro c hc
    exact hdigits c (List.mem_reverse.mp hc)
  rw [strip, hkeep text hdigits, hkeep text.reverse hreverse, reverse_reverse]

theorem withoutBase_eq_self : withoutBase text = text := by
  unfold withoutBase
  split
  · next x rest =>
      have hx := hdigits x (by simp)
      rw [if_neg]
      intro hbase
      rcases hbase with hbase | hbase
      · exact hx.ne_of_hexValue? rfl hbase
      · exact hx.ne_of_hexValue? rfl hbase
  · rfl

theorem readDigits_eq_digitsNumber (acc : ℕ) : readDigits acc text = digitsNumber text acc := by
  induction text generalizing acc with
  | nil => rfl
  | cons c rest ih =>
    have hc := hdigits c mem_cons_self
    have hrest : ∀ d ∈ rest, IsHexDigit d := fun d hd => hdigits d (mem_cons_of_mem c hd)
    have hunderscore : c ≠ '_' := hc.ne_of_hexValue? rfl
    rw [readDigits.eq_def, digitsNumber]
    simp only [if_neg hunderscore]
    congr
    funext d
    exact ih hrest (16 * acc + d)

theorem intBase16_eq (hne : text ≠ []) : intBase16 text = (digitsNumber text 0).map Int.ofNat := by
  cases text with
  | nil => exact absurd rfl hne
  | cons c rest =>
    have hc := hdigits c mem_cons_self
    have hrest : ∀ d ∈ rest, IsHexDigit d := fun d hd => hdigits d (mem_cons_of_mem c hd)
    have hread : readMagnitude (c :: rest) = digitsNumber (c :: rest) 0 := by
      rw [readMagnitude, digitsNumber]
      congr
      funext d
      rw [readDigits_eq_digitsNumber hrest, Nat.mul_zero, Nat.zero_add]
    unfold intBase16
    rw [strip_eq_self hdigits]
    split
    · next heq =>
        exact absurd (List.cons.inj heq).1 (hc.ne_of_hexValue? rfl)
    · next heq =>
        exact absurd (List.cons.inj heq).1 (hc.ne_of_hexValue? rfl)
    · rw [withoutBase_eq_self hdigits, hread]

omit hdigits in
theorem digitsNumber_bounds {acc n : ℕ} (hnumber : digitsNumber text acc = some n) :
    16 ^ text.length * acc ≤ n ∧ n < 16 ^ text.length * (acc + 1) := by
  induction text generalizing acc with
  | nil =>
    have heq := some.inj hnumber
    simp only [length_nil, pow_zero]
    omega
  | cons c rest ih =>
    obtain ⟨d, hd, hrest⟩ := bind_eq_some_iff.mp hnumber
    have hlt := hexValue?_lt hd
    have hbounds := ih hrest
    constructor
    · calc 16 ^ rest.length * 16 * acc
          = 16 ^ rest.length * (16 * acc) := by ring
        _ ≤ 16 ^ rest.length * (16 * acc + d) := Nat.mul_le_mul_left _ (Nat.le_add_right _ _)
        _ ≤ n := hbounds.1
    · calc n < 16 ^ rest.length * (16 * acc + d + 1) := hbounds.2
        _ ≤ 16 ^ rest.length * (16 * (acc + 1)) := Nat.mul_le_mul_left _ (by omega)
        _ = 16 ^ rest.length * 16 * (acc + 1) := by ring

theorem exists_digitsNumber (acc : ℕ) : ∃ n, digitsNumber text acc = some n := by
  induction text generalizing acc with
  | nil => exact ⟨acc, rfl⟩
  | cons c rest ih =>
    obtain ⟨d, hd⟩ := isSome_iff_exists.mp (hdigits c mem_cons_self)
    obtain ⟨n, hn⟩ := ih (fun x hx => hdigits x (mem_cons_of_mem c hx)) (16 * acc + d)
    exact ⟨n, by rw [digitsNumber, hd, bind_some, hn]⟩

omit hdigits

theorem digitsNumber_append {first second : List Char} {acc m : ℕ}
    (hfirst : digitsNumber first acc = some m) :
    digitsNumber (first ++ second) acc = digitsNumber second m := by
  induction first generalizing acc with
  | nil =>
    have heq := some.inj hfirst
    rw [nil_append, heq]
  | cons c rest ih =>
    obtain ⟨d, hd, hrest⟩ := bind_eq_some_iff.mp hfirst
    rw [cons_append, digitsNumber, hd, bind_some, ih hrest]

theorem digitsNumber_toDigits (n : ℕ) : digitsNumber (Nat.toDigits 16 n) 0 = some n := by
  induction n using Nat.strong_induction_on with
  | h n ih =>
    by_cases hsmall : n < 16
    · rw [Nat.toDigits_of_lt_base hsmall, digitsNumber, hexValue?_digitChar hsmall]
      simp [digitsNumber]
    · have hlower := ih (n / 16) (by omega)
      have hdigit := hexValue?_digitChar (Nat.mod_lt n (by omega : 0 < 16))
      rw [Nat.toDigits_of_base_le (by omega) (by omega),
        digitsNumber_append hlower, digitsNumber, hdigit, bind_some,
        digitsNumber]
      congr 1
      omega

theorem length_toDigits_eq_iff {rest : List Char} {n : ℕ}
    (hnumber : digitsNumber (c :: rest) 0 = some n) (hrest : rest ≠ []) :
    (Nat.toDigits 16 n).length = (c :: rest).length ↔ c ≠ '0' := by
  have hpos : 0 < rest.length := List.length_pos_iff.mpr hrest
  have hupper := (digitsNumber_bounds hnumber).2
  have hle : (Nat.toDigits 16 n).length ≤ (c :: rest).length := by
    rw [Nat.length_toDigits_le_iff (by omega) (by simp)]
    simpa using hupper
  have hshort : (Nat.toDigits 16 n).length ≤ rest.length ↔
      n < 16 ^ rest.length := Nat.length_toDigits_le_iff (by omega) hpos
  obtain ⟨d, hd, htail⟩ := bind_eq_some_iff.mp hnumber
  have hbounds := digitsNumber_bounds htail
  simp only [Nat.mul_zero, Nat.zero_add] at hbounds
  have hleading : n < 16 ^ rest.length ↔ c = '0' := by
    rw [← hexValue?_eq_zero_iff, hd, some_inj]
    constructor
    · intro hlt
      by_contra hd0
      have hmul : 16 ^ rest.length * 1 ≤ 16 ^ rest.length * d := Nat.mul_le_mul_left _ (by omega)
      omega
    · intro hd0
      rw [hd0] at hbounds
      simpa using hbounds.2
  rw [length_cons] at hle ⊢
  rw [Ne, ← hleading, ← hshort]
  omega

end Middlewared.PyHex
