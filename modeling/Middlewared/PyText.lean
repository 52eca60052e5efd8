import Middlewared.PyString

/-!
# Reading texts in parts

`split` with a bound and at a text of several characters, `split` at blanks,
`replace`, and the lines of a file in text mode, in which `\r` also ends a line.
-/

namespace Middlewared.PyText

open PyString List

/-- `text.split(separator, limit)` -/
def splitLimit (separator : Char) : ℕ → List Char → List (List Char)
  | 0, text => [text]
  | limit + 1, text =>
    match text.dropWhile (· ≠ separator) with
    | [] => [text.takeWhile (· ≠ separator)]
    | _ :: rest =>
      text.takeWhile (· ≠ separator) :: splitLimit separator limit rest

def cut (separator : List Char) : List Char → Option (List Char × List Char)
  | [] => none
  | c :: rest =>
    if separator.isPrefixOf (c :: rest) then
      some ([], (c :: rest).drop separator.length)
    else (cut separator rest).map fun parts => (c :: parts.1, parts.2)

def splitTimes (separator : List Char) : ℕ → List Char → List (List Char)
  | 0, text => [text]
  | times + 1, text =>
    match cut separator text with
    | none => [text]
    | some parts => parts.1 :: splitTimes separator times parts.2

/-- `text.split(separator)`, for a separator that is not empty. -/
def splitText (separator text : List Char) : List (List Char) :=
  splitTimes separator text.length text

/-- `text.split()` -/
def words (text : List Char) : List (List Char) :=
  (text.splitOnP isSpace).filter (· ≠ [])

/-- `text.replace(old, new)`, after the next `skip` characters, which belong to
what has been replaced. -/
def replaceFrom (old new : List Char) : ℕ → List Char → List Char
  | _, [] => []
  | skip + 1, _ :: rest => replaceFrom old new skip rest
  | 0, c :: rest =>
    if old.isPrefixOf (c :: rest) then
      new ++ replaceFrom old new (old.length - 1) rest
    else c :: replaceFrom old new 0 rest

def replaceAll (old new text : List Char) : List Char :=
  replaceFrom old new 0 text

/-- The lines of a file that is read as text, each with its end, for which
`\n` stands; `line` is what has been read of the first one. -/
def linesFrom (line : List Char) : List Char → List (List Char)
  | [] => if line = [] then [] else [line]
  | '\r' :: '\n' :: rest => (line ++ ['\n']) :: linesFrom [] rest
  | c :: rest =>
    if c = '\r' ∨ c = '\n' then (line ++ ['\n']) :: linesFrom [] rest
    else linesFrom (line ++ [c]) rest

def readLines (text : List Char) : List (List Char) := linesFrom [] text

variable {sep : Char} {first rest text : List Char} {limit : ℕ}

theorem splitLimit_append_cons (hfirst : sep ∉ first) :
    splitLimit sep (limit + 1) (first ++ sep :: rest) = first :: splitLimit sep limit rest := by
  have hcut := @takeWhile_append_cons sep first rest hfirst
  rw [splitLimit, hcut.1, hcut.2]

theorem splitLimit_of_notMem (htext : sep ∉ text) (limit : ℕ) :
    splitLimit sep limit text = [text] := by
  cases limit with
  | zero => rfl
  | succ limit =>
    have hall : ∀ c ∈ text, decide (c ≠ sep) = true := by
      intro c hc
      rw [decide_eq_true_iff]
      intro heq
      rw [heq] at hc
      exact htext hc
    rw [splitLimit, dropWhile_eq_nil_iff.mpr hall, takeWhile_eq_self_iff.mpr hall]

section

variable {c : Char} {tail separator : List Char}

theorem cut_append_cons (hfirst : c ∉ first) : cut (c :: tail) (first ++ c :: rest) =
    if tail.isPrefixOf rest then some (first, rest.drop tail.length)
    else (cut (c :: tail) rest).map fun parts =>
      (first ++ c :: parts.1, parts.2) := by
  induction first with
  | nil =>
    rw [nil_append, cut, isPrefixOf_cons_cons]
    simp
  | cons d first ih =>
    rw [mem_cons, not_or] at hfirst
    have hmiss : (c :: tail).isPrefixOf (d :: (first ++ c :: rest)) = false := by
      rw [isPrefixOf_cons_cons]
      simp [hfirst.1]
    rw [cons_append, cut, if_neg (by simp [hmiss]), ih hfirst.2]
    split
    · rfl
    · cases cut (c :: tail) rest <;> rfl

theorem cut_of_notMem (htext : c ∉ text) : cut (c :: tail) text = none := by
  induction text with
  | nil => rfl
  | cons d text ih =>
    rw [mem_cons, not_or] at htext
    have hmiss : (c :: tail).isPrefixOf (d :: text) = false := by
      rw [isPrefixOf_cons_cons]
      simp [htext.1]
    rw [cut, if_neg (by simp [hmiss]), ih htext.2, Option.map_none]

theorem length_of_cut_eq_some {parts : List Char × List Char}
    (hcut : cut separator text = some parts) :
    text.length = parts.1.length + separator.length + parts.2.length := by
  induction text generalizing parts with
  | nil => cases hcut
  | cons d text ih =>
    rw [cut] at hcut
    split at hcut
    · rename_i hfound
      have hle := ( isPrefixOf_iff_prefix.mp hfound).length_le
      rw [← Option.some.inj hcut, length_drop, length_nil]
      omega
    · obtain ⟨parts', hparts, heq⟩ := Option.map_eq_some_iff.mp hcut
      have hlength := ih hparts
      rw [← heq]
      simp only [length_cons]
      omega

theorem splitText_getElem?_one (hsep : separator ≠ []) : (splitText separator text)[1]? =
    (cut separator text).map fun parts =>
      ((cut separator parts.2).map Prod.fst).getD parts.2 := by
  have hpos := length_pos_iff.mpr hsep
  unfold splitText
  cases hcut : cut separator text with
  | none => cases text.length <;> simp [splitTimes, hcut]
  | some parts =>
    have hlength := length_of_cut_eq_some hcut
    obtain ⟨times, htimes⟩ : ∃ times, text.length = times + 1 := ⟨text.length - 1, by omega⟩
    rw [htimes, splitTimes, hcut]
    cases times with
    | zero =>
      have hnil : parts.2 = [] := by
        rw [← length_eq_zero_iff]
        omega
      simp [splitTimes, hnil, cut]
    | succ times => cases hsecond : cut separator parts.2 <;> simp [splitTimes, hsecond]

end

variable {c : Char}

theorem words_append_cons (hc : isSpace c) :
    words (first ++ c :: rest) = words first ++ words rest := by
  unfold words
  rw [splitOnP_append_cons _ _ hc, filter_append]

theorem words_eq_singleton (hne : text ≠ [])
    (hword : ∀ c ∈ text, isSpace c = false) : words text = [text] := by
  unfold words
  rw [splitOnP_eq_singleton hword]
  simp [hne]

theorem words_nil : words [] = [] := rfl

theorem not_isSpace_of_mem_splitOnP {piece : List Char}
    (hpiece : piece ∈ text.splitOnP isSpace) (hc : c ∈ piece) :
    isSpace c = false := by
  induction text generalizing piece c with
  | nil =>
    have hnil := mem_singleton.mp hpiece
    rw [hnil] at hc
    cases hc
  | cons d text ih =>
    rw [splitOnP_cons_eq_if_modifyHead] at hpiece
    split at hpiece
    · rcases mem_cons.mp hpiece with hnil | hpiece
      · rw [hnil] at hc
        cases hc
      · exact ih hpiece hc
    · rename_i hd
      obtain ⟨head, tail, hsplit⟩ := exists_cons_of_ne_nil (splitOnP_ne_nil isSpace text)
      rw [hsplit, modifyHead_cons, mem_cons] at hpiece
      rw [hsplit] at ih
      rcases hpiece with hhead | htail
      · rw [hhead] at hc
        rcases mem_cons.mp hc with heq | hc
        · rw [heq]
          exact Bool.eq_false_iff.mpr hd
        · exact ih mem_cons_self hc
      · exact ih (mem_cons_of_mem _ htail) hc

theorem not_isSpace_of_mem_words {word : List Char} (hword : word ∈ words text)
    (hc : c ∈ word) : isSpace c = false := by
  rw [words, mem_filter] at hword
  exact not_isSpace_of_mem_splitOnP hword.1 hc

section

variable {old new : List Char}

theorem replaceFrom_append (first rest : List Char) :
    replaceFrom old new first.length (first ++ rest) = replaceFrom old new 0 rest := by
  induction first with
  | nil => rfl
  | cons c first ih => exact ih

theorem replaceAll_append (hold : old ≠ []) (rest : List Char) :
    replaceAll old new (old ++ rest) = new ++ replaceAll old new rest := by
  cases old with
  | nil => exact absurd rfl hold
  | cons c tail =>
    have hfound : (c :: tail).isPrefixOf (c :: (tail ++ rest)) := by
      rw [ isPrefixOf_iff_prefix]
      exact ⟨rest, rfl⟩
    rw [replaceAll, cons_append, replaceFrom, if_pos hfound,
      length_cons, Nat.add_sub_cancel, replaceFrom_append]
    rfl

theorem replaceAll_cons (hmiss : old.isPrefixOf (c :: rest) = false) :
    replaceAll old new (c :: rest) = c :: replaceAll old new rest := by
  unfold replaceAll
  rw [replaceFrom, if_neg (by simp [hmiss])]

theorem mem_of_mem_replaceFrom {skip : ℕ} {text : List Char}
    (hc : c ∈ replaceFrom old new skip text) : c ∈ new ∨ c ∈ text := by
  fun_induction replaceFrom old new skip text with
  | case1 => cases hc
  | case2 _ skip rest ih => exact (ih hc).imp_right (mem_cons_of_mem _)
  | case3 d rest _ ih =>
    rcases mem_append.mp hc with hnew | hrest
    · exact Or.inl hnew
    · exact (ih hrest).imp_right (mem_cons_of_mem _)
  | case4 d rest _ ih =>
    rcases mem_cons.mp hc with heq | hrest
    · rw [heq]
      exact Or.inr mem_cons_self
    · exact (ih hrest).imp_right (mem_cons_of_mem _)

end

/-! ## Lines -/

theorem linesFrom_append_of_notMem {line : List Char} (hcr : '\r' ∉ first) (hlf : '\n' ∉ first) :
    linesFrom line (first ++ rest) = linesFrom (line ++ first) rest := by
  induction first generalizing line with
  | nil => simp
  | cons c first ih =>
    rw [mem_cons, not_or] at hcr hlf
    have hstep : linesFrom line (c :: (first ++ rest)) =
        linesFrom (line ++ [c]) (first ++ rest) := by
      rw [linesFrom.eq_def]
      split
      · rename_i heq
        cases heq
      · rename_i heq
        exact absurd (List.cons.inj heq).1.symm hcr.1
      · rename_i heq
        cases heq
        rw [if_neg (by
          rw [not_or]
          exact ⟨Ne.symm hcr.1, Ne.symm hlf.1⟩)]
    rw [cons_append, hstep, ih hcr.2 hlf.2, append_assoc]
    rfl

theorem linesFrom_cons {line : List Char} (hc : c = '\n' ∨ c = '\r' ∧ rest.head? ≠ some '\n') :
    linesFrom line (c :: rest) = (line ++ ['\n']) :: linesFrom [] rest := by
  rw [linesFrom.eq_def]
  split
  · rename_i heq
    cases heq
  · rename_i heq
    cases heq
    rcases hc with hlf | ⟨_, hhead⟩
    · cases hlf
    · exact absurd rfl hhead
  · rename_i heq
    cases heq
    rw [if_pos (by tauto)]

theorem linesFrom_crlf (line : List Char) : linesFrom line ('\r' :: '\n' :: rest) =
    (line ++ ['\n']) :: linesFrom [] rest := by
  rw [linesFrom]

theorem linesFrom_append (line first rest : List Char) : linesFrom line (first ++ '\n' :: rest) =
    linesFrom line (first ++ ['\n']) ++ linesFrom [] rest := by
  fun_induction linesFrom line first with
  | case1 =>
    rfl
  | case2 line hline =>
    rfl
  | case3 line first ih =>
    rw [cons_append, cons_append, linesFrom_crlf, cons_append, cons_append, linesFrom_crlf, ih]
    rfl
  | case4 line c first hcrlf hc ih =>
    by_cases hsplit : c = '\r' ∧ first = []
    · rw [hsplit.1, hsplit.2, cons_append, nil_append,
        cons_append, nil_append, linesFrom_crlf, linesFrom_crlf]
      rfl
    · have hkeep (after : List Char) : c = '\n' ∨ c = '\r' ∧
          (first ++ '\n' :: after).head? ≠ some '\n' := by
        rcases hc with hcr | hlf
        · cases first with
          | nil => exact absurd ⟨hcr, rfl⟩ hsplit
          | cons d first =>
            refine Or.inr ⟨hcr, ?_⟩
            intro hhead
            have heq := Option.some.inj hhead
            exact hcrlf first hcr (by rw [heq])
        · exact Or.inl hlf
      rw [cons_append, cons_append, linesFrom_cons (hkeep rest), linesFrom_cons (hkeep []), ih]
      rfl
  | case5 line c first hcrlf hc ih =>
    rw [not_or] at hc
    have hplain := @linesFrom_append_of_notMem [c]
    simp only [mem_singleton, singleton_append] at hplain
    rw [cons_append, cons_append,
      hplain (Ne.symm hc.1) (Ne.symm hc.2), hplain (Ne.symm hc.1) (Ne.symm hc.2),
      ih]

theorem readLines_flatMap {α : Type*} {body : α → List Char} (l : List α) :
    readLines (l.flatMap fun a => body a ++ ['\n']) =
      l.flatMap fun a => readLines (body a ++ ['\n']) := by
  induction l with
  | nil => rfl
  | cons a l ih =>
    rw [flatMap_cons, flatMap_cons, ← ih, append_assoc, singleton_append]
    exact linesFrom_append [] _ _

def firstLine (body : List Char) : List Char :=
  body.takeWhile (· ≠ '\r') ++ ['\n']

theorem firstLine_of_notMem (hbody : '\r' ∉ text) : firstLine text = text ++ ['\n'] := by
  unfold firstLine
  rw [takeWhile_eq_self_iff.mpr]
  intro c hc
  rw [decide_eq_true_iff]
  intro heq
  rw [heq] at hc
  exact hbody hc

theorem firstLine_append_cons (hfirst : '\r' ∉ first) :
    firstLine (first ++ '\r' :: rest) = first ++ ['\n'] := by
  unfold firstLine
  rw [(takeWhile_append_cons hfirst).1]

theorem firstLine_append_of_notMem (hfirst : '\r' ∉ first) (rest : List Char) :
    firstLine (first ++ rest) = first ++ firstLine rest := by
  unfold firstLine
  rw [takeWhile_append_of_pos, append_assoc]
  intro c hc
  rw [decide_eq_true_iff]
  intro heq
  rw [heq] at hc
  exact hfirst hc

theorem firstLine_append_of_mem (hfirst : '\r' ∈ first) (rest : List Char) :
    firstLine (first ++ rest) = firstLine first := by
  obtain ⟨before, after, heq, hbefore⟩ := eq_append_cons_of_mem hfirst
  rw [heq, append_assoc, cons_append, firstLine_append_cons hbefore, firstLine_append_cons hbefore]

theorem mem_of_mem_firstLine (hc : c ∈ firstLine text) (hne : c ≠ '\n') : c ∈ text := by
  rcases mem_append.mp hc with hc | hc
  · exact takeWhile_subset _ hc
  · exact absurd (mem_singleton.mp hc) hne

theorem splitLimit_firstLine (hsep : sep ≠ '\n' ∧ sep ≠ '\r') (hfirst : sep ∉ first) :
    splitLimit sep (limit + 1) (firstLine (first ++ sep :: rest)) =
      if '\r' ∈ first then [firstLine first]
      else first :: splitLimit sep limit (firstLine rest) := by
  split
  · rename_i hcr
    rw [firstLine_append_of_mem hcr]
    apply splitLimit_of_notMem
    intro hmem
    exact hfirst (mem_of_mem_firstLine hmem hsep.1)
  · rename_i hcr
    have hcons := @firstLine_append_of_notMem [sep] (by simp [Ne.symm hsep.2]) rest
    rw [firstLine_append_of_notMem hcr]
    change splitLimit sep (limit + 1) (first ++ firstLine ([sep] ++ rest)) = _
    rw [hcons]
    exact splitLimit_append_cons hfirst

theorem readLines_cr (hcr : '\r' ∉ first) (hlf : '\n' ∉ first) (hc : c ≠ '\n') :
    readLines (first ++ '\r' :: c :: rest) = (first ++ ['\n']) :: readLines (c :: rest) := by
  rw [readLines, linesFrom_append_of_notMem hcr hlf,
    linesFrom_cons (Or.inr ⟨rfl, by simpa using hc⟩)]
  rfl

theorem readLines_eq_cons (body : List Char) (hlf : '\n' ∉ body) :
    ∃ pieces, readLines (body ++ ['\n']) = firstLine body :: pieces ∧
      ∀ piece ∈ pieces, ∃ before after, body = before ++ '\r' :: after ∧
        piece = firstLine after := by
  induction hlength : body.length using Nat.strong_induction_on generalizing body with
  | h length ih =>
  by_cases hcr : '\r' ∈ body
  · obtain ⟨first, rest, heq, hfirst⟩ := eq_append_cons_of_mem hcr
    rw [heq, mem_append, mem_cons, not_or, not_or] at hlf
    have hread : readLines (body ++ ['\n']) = linesFrom first ('\r' :: (rest ++ ['\n'])) := by
      rw [heq, append_assoc, readLines, linesFrom_append_of_notMem hfirst hlf.1]
      rfl
    rw [heq, firstLine_append_cons hfirst, ← heq, hread]
    cases rest with
    | nil =>
      refine ⟨[], ?_, nofun⟩
      rfl
    | cons c rest =>
      have hc : (c :: rest ++ ['\n']).head? ≠ some '\n' := by
        intro hhead
        have hlf' := Option.some.inj hhead
        rw [hlf'] at hlf
        exact hlf.2.2 mem_cons_self
      have hshorter : (c :: rest).length < length := by
        rw [← hlength, heq]
        simp only [length_append, length_cons]
        omega
      obtain ⟨pieces, hpieces, hall⟩ := ih (c :: rest).length hshorter (c :: rest) hlf.2.2 rfl
      refine ⟨firstLine (c :: rest) :: pieces, ?_, ?_⟩
      · rw [linesFrom_cons (Or.inr ⟨rfl, hc⟩), ← hpieces]
        rfl
      · intro piece hpiece
        rcases mem_cons.mp hpiece with hfirstPiece | hpiece
        · exact ⟨first, c :: rest, heq, hfirstPiece⟩
        · obtain ⟨before, after, hsplit, hpiece⟩ := hall piece hpiece
          refine ⟨first ++ '\r' :: before, after, ?_, hpiece⟩
          rw [heq, hsplit, append_assoc]
          rfl
  · refine ⟨[], ?_, nofun⟩
    rw [firstLine_of_notMem hcr, readLines, linesFrom_append_of_notMem hcr hlf,
      linesFrom_cons (Or.inl rfl)]
    rfl

end Middlewared.PyText
