import Mathlib.Data.List.DropRight
import Mathlib.Data.String.Basic
import Mathlib.Tactic

/-!
# Text operations

Python text is a sequence of code points, and so is `String.toList`.
-/

namespace Middlewared.PyString

open List

def startsWith (text part : String) : Bool :=
  part.toList.isPrefixOf text.toList

def endsWith (text part : String) : Bool :=
  part.toList.isSuffixOf text.toList

def dropFirst (text : String) (count : ℕ) : String :=
  String.ofList (text.toList.drop count)

def containsText (text part : String) : Bool :=
  decide (part.toList <:+: text.toList)

/-- `text.split(separator)[0]`. -/
def splitFirst (text : String) (separator : Char) : String :=
  String.ofList (text.toList.takeWhile (· ≠ separator))

def reprChar (quote : Char) (c : Char) : List Char :=
  if c = '\\' ∨ c = quote then ['\\', c]
  else if c = '\n' then ['\\', 'n']
  else if c = '\r' then ['\\', 'r']
  else if c = '\t' then ['\\', 't']
  else [c]

/-- `repr(text)` for text without other control characters. -/
def repr (text : String) : String :=
  let quote :=
    if '\'' ∈ text.toList ∧ '"' ∉ text.toList then '"' else '\''
  String.ofList (quote :: text.toList.flatMap (reprChar quote) ++ [quote])

variable {text : String}

theorem startsWith_iff {part : String} :
    startsWith text part = true ↔ part.toList <+: text.toList := by
  simp [startsWith]

theorem endsWith_iff {part : String} : endsWith text part = true ↔ part.toList <:+ text.toList := by
  simp [endsWith]

theorem toString_injective {m n : ℕ} (heq : toString m = toString n) : m = n := by
  have hdigits : Nat.toDigits 10 m = Nat.toDigits 10 n := by
    simpa using congrArg String.toList heq
  simpa using congrArg (fun digits => Nat.ofDigitChars 10 digits 0) hdigits

/-! ## Lines of text -/

/-- `str.isspace`. -/
def isSpace (c : Char) : Bool :=
  (9 ≤ c.toNat && c.toNat ≤ 13) || (28 ≤ c.toNat && c.toNat ≤ 32) ||
    c.toNat = 0x85 || c.toNat = 0xa0 || c.toNat = 0x1680 ||
    (0x2000 ≤ c.toNat && c.toNat ≤ 0x200a) || c.toNat = 0x2028 ||
    c.toNat = 0x2029 || c.toNat = 0x202f || c.toNat = 0x205f ||
    c.toNat = 0x3000

def isLineBreak (c : Char) : Bool :=
  (10 ≤ c.toNat && c.toNat ≤ 13) || (28 ≤ c.toNat && c.toNat ≤ 30) ||
    c.toNat = 0x85 || c.toNat = 0x2028 || c.toNat = 0x2029

def stripChars (text : List Char) : List Char :=
  (text.dropWhile isSpace).rdropWhile isSpace

def strip (text : String) : String :=
  String.ofList (stripChars text.toList)

/-- The lines of a text; `line` is what has been read of the first one. -/
def linesFrom (line : List Char) : List Char → List (List Char)
  | [] => if line = [] then [] else [line]
  | '\r' :: '\n' :: rest => line :: linesFrom [] rest
  | c :: rest =>
    if isLineBreak c then line :: linesFrom [] rest
    else linesFrom (line ++ [c]) rest

def splitlines (text : String) : List String :=
  (linesFrom [] text.toList).map String.ofList

def joinLines (lines : List String) : String :=
  String.intercalate "\n" lines

/-- `text.split(separator, 1)`: nothing follows where the separator does not
occur. -/
def splitOnce (separator : Char) (text : String) : String × Option String :=
  let first := text.toList.takeWhile (· ≠ separator)
  match text.toList.dropWhile (· ≠ separator) with
  | [] => (String.ofList first, none)
  | _ :: rest => (String.ofList first, some (String.ofList rest))

section

variable {p : Char → Bool} {sep : Char} {before after : List Char}

theorem dropWhile_append_cons (hsep : p sep = false) : (before ++ sep :: after).dropWhile p =
    before.dropWhile p ++ sep :: after := by
  induction before with
  | nil => simp [hsep]
  | cons c rest ih =>
    cases hc : p c with
    | true => simp [hc, ih]
    | false => simp [hc]

theorem rdropWhile_append_cons (hsep : p sep = false) : (before ++ sep :: after).rdropWhile p =
    before ++ sep :: after.rdropWhile p := by
  unfold List.rdropWhile
  rw [reverse_append, reverse_cons, append_assoc, singleton_append, dropWhile_append_cons hsep]
  simp

theorem stripChars_append_cons (hsep : isSpace sep = false) : stripChars (before ++ sep :: after) =
    before.dropWhile isSpace ++ sep :: after.rdropWhile isSpace := by
  rw [stripChars, dropWhile_append_cons hsep, rdropWhile_append_cons hsep]

theorem stripChars_dropWhile (text : List Char) :
    stripChars (text.dropWhile isSpace) = stripChars text := by
  rw [stripChars, stripChars, dropWhile_idempotent]

end

variable {sep : Char}

theorem takeWhile_append_cons {before after : List Char} (hbefore : sep ∉ before) :
    (before ++ sep :: after).takeWhile (· ≠ sep) = before ∧
      (before ++ sep :: after).dropWhile (· ≠ sep) = sep :: after := by
  have hall : ∀ c ∈ before, (decide (c ≠ sep)) = true := by
    intro c hc
    rw [decide_eq_true_eq]
    rintro rfl
    exact hbefore hc
  constructor
  · rw [takeWhile_append_of_pos hall]
    simp
  · rw [dropWhile_append_of_pos hall]
    simp

theorem splitOnce_eq_some_iff {first rest : String} : splitOnce sep text = (first, some rest) ↔
    sep ∉ first.toList ∧ text.toList = first.toList ++ sep :: rest.toList := by
  constructor
  · intro hsplit
    unfold splitOnce at hsplit
    split at hsplit
    · cases hsplit
    · rename_i c after hdrop
      cases hsplit
      have hc : c = sep := by
        have hhead := head?_dropWhile_not (· ≠ sep) text.toList
        rw [hdrop] at hhead
        simpa using hhead
      subst hc
      simp only [String.toList_ofList]
      constructor
      · intro hmem
        simpa using mem_takeWhile_imp hmem
      · rw [← hdrop, takeWhile_append_dropWhile]
  · intro hsplit
    obtain ⟨hfirst, htext⟩ := hsplit
    obtain ⟨htake, hdrop⟩ := @takeWhile_append_cons _ _ rest.toList hfirst
    unfold splitOnce
    rw [htext, htake, hdrop]
    simp

theorem strip_splitOnce_strip (hsep : isSpace sep = false) {first rest : String}
    (hsplit : splitOnce sep (strip text) = (first, some rest)) :
    ∃ first' rest', splitOnce sep text = (first', some rest') ∧ strip first' = strip first := by
  obtain ⟨hfirst, htext⟩ := splitOnce_eq_some_iff.mp hsplit
  rw [strip, String.toList_ofList] at htext
  have hmem : sep ∈ text.toList := by
    have hstripped : sep ∈ stripChars text.toList := by simp [htext]
    exact (dropWhile_suffix isSpace).subset (( rdropWhile_prefix isSpace _).subset hstripped)
  obtain ⟨before, after, heq, hbefore⟩ := eq_append_cons_of_mem hmem
  refine ⟨String.ofList before, String.ofList after, ?_, ?_⟩
  · rw [splitOnce_eq_some_iff]
    simpa using ⟨hbefore, heq⟩
  · rw [heq, stripChars_append_cons hsep] at htext
    have hbefore' : sep ∉ before.dropWhile isSpace :=
      fun h => hbefore ((dropWhile_suffix isSpace).subset h)
    have hsame : before.dropWhile isSpace = first.toList := by
      rw [← (@takeWhile_append_cons _ _ (after.rdropWhile isSpace) hbefore').1, htext]
      exact (takeWhile_append_cons hfirst).1
    rw [strip, strip, ← hsame, String.toList_ofList, stripChars_dropWhile]

end Middlewared.PyString

namespace Middlewared

/-- `split` at blanks. -/
def splitWords (text : String) : List String :=
  ((text.toList.splitOnP PyString.isSpace).filter (· ≠ [])).map String.ofList

end Middlewared
