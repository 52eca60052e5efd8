import Middlewared.PyString

/-!
# Texts that survive a line format

`split` at a separator, and texts that a line can carry: without the separator, line breaks or
blanks at either end.
-/

namespace Middlewared.PyString

open List

/-- `text.split(separator)` -/
def splitAll (separator : Char) (text : String) : List String :=
  (text.toList.splitOn separator).map String.ofList

def unlines (lines : List String) : String :=
  lines.foldr (fun line text => line ++ "\n" ++ text) ""

def HasNoLineBreak (text : String) : Prop :=
  ∀ c ∈ text.toList, isLineBreak c = false

structure IsPlain (separator : Char) (text : String) : Prop where
  strip_eq : strip text = text
  notMem : separator ∉ text.toList
  hasNoLineBreak : HasNoLineBreak text

/-! ## `strip` -/

variable {text : List Char}

theorem stripChars_eq_nil_iff : stripChars text = [] ↔ ∀ c ∈ text, isSpace c = true := by
  unfold stripChars
  rw [rdropWhile_eq_nil_iff]
  constructor
  · intro hall c hc
    rw [← takeWhile_append_dropWhile (p := isSpace) (l := text), mem_append] at hc
    rcases hc with hc | hc
    · exact mem_takeWhile_imp hc
    · exact hall c hc
  · intro hall c hc
    exact hall c ((dropWhile_suffix isSpace).subset hc)

theorem stripChars_pad {before after : List Char} (hbefore : ∀ c ∈ before, isSpace c = true)
    (hafter : ∀ c ∈ after, isSpace c = true) :
    stripChars (before ++ text ++ after) = stripChars text := by
  unfold stripChars
  rw [append_assoc, dropWhile_append_of_pos hbefore, dropWhile_append]
  split
  · rename_i hempty
    rw [List.isEmpty_iff] at hempty
    rw [hempty, List.dropWhile_eq_nil_iff.mpr hafter]
  · unfold List.rdropWhile
    rw [reverse_append, dropWhile_append_of_pos]
    intro c hc
    exact hafter c (List.mem_reverse.mp hc)

theorem exists_eq_append_stripChars (text : List Char) :
    ∃ before after, text = before ++ stripChars text ++ after ∧
      (∀ c ∈ before, isSpace c = true) ∧ ∀ c ∈ after, isSpace c = true := by
  refine ⟨text.takeWhile isSpace, (text.dropWhile isSpace).rtakeWhile isSpace, ?_, ?_, ?_⟩
  · unfold stripChars
    rw [append_assoc, rdropWhile_append_rtakeWhile, takeWhile_append_dropWhile]
  · exact fun c => mem_takeWhile_imp
  · exact fun c => mem_rtakeWhile_imp

theorem stripChars_stripChars (text : List Char) :
    stripChars (stripChars text) = stripChars text := by
  obtain ⟨before, after, hsplit, hbefore, hafter⟩ := exists_eq_append_stripChars text
  conv_rhs => rw [hsplit]
  exact (stripChars_pad hbefore hafter).symm

theorem strip_strip (text : String) : strip (strip text) = strip text := by
  unfold strip
  rw [String.toList_ofList, stripChars_stripChars]

variable {c : Char}

theorem mem_of_mem_stripChars (hc : c ∈ stripChars text) : c ∈ text :=
  (dropWhile_suffix isSpace).subset (( rdropWhile_prefix isSpace _).subset hc)

theorem mem_of_mem_strip {text : String} (hc : c ∈ (strip text).toList) : c ∈ text.toList := by
  rw [strip, String.toList_ofList] at hc
  exact mem_of_mem_stripChars hc

theorem mem_stripChars_iff (hspace : isSpace c = false) : c ∈ stripChars text ↔ c ∈ text := by
  refine ⟨mem_of_mem_stripChars, ?_⟩
  intro hc
  obtain ⟨before, after, hsplit, hbefore, hafter⟩ := exists_eq_append_stripChars text
  rw [hsplit, mem_append, mem_append] at hc
  rcases hc with (hc | hc) | hc
  · exact absurd (hbefore c hc) (by simp [hspace])
  · exact hc
  · exact absurd (hafter c hc) (by simp [hspace])

theorem mem_strip_iff {text : String} (hspace : isSpace c = false) :
    c ∈ (strip text).toList ↔ c ∈ text.toList := by
  rw [strip, String.toList_ofList, mem_stripChars_iff hspace]

theorem stripChars_eq_self_iff : stripChars text = text ↔
    text.dropWhile isSpace = text ∧ text.rdropWhile isSpace = text := by
  constructor
  · intro hstrip
    have hprefix := rdropWhile_prefix isSpace (l := text.dropWhile isSpace)
    have hsuffix := dropWhile_suffix isSpace (l := text)
    change stripChars text <+: _ at hprefix
    rw [hstrip] at hprefix
    have hdrop := hsuffix.eq_of_length_le hprefix.length_le
    unfold stripChars at hstrip
    rw [hdrop] at hstrip
    exact ⟨hdrop, hstrip⟩
  · rintro ⟨hdrop, hrdrop⟩
    rw [stripChars, hdrop, hrdrop]

theorem strip_eq_self_iff {text : String} :
    strip text = text ↔ stripChars text.toList = text.toList := by
  rw [strip, ← String.toList_inj, String.toList_ofList]

theorem strip_ne_empty_of_mem {text : String} (hc : c ∈ text.toList)
    (hspace : isSpace c = false) : strip text ≠ "" := by
  intro hempty
  have hnil : stripChars text.toList = [] := by
    rw [← String.ofList_eq_empty_iff]
    exact hempty
  have hblank := stripChars_eq_nil_iff.mp hnil c hc
  rw [hspace] at hblank
  cases hblank

theorem strip_pad {before after : String} (text : String)
    (hbefore : ∀ c ∈ before.toList, isSpace c = true)
    (hafter : ∀ c ∈ after.toList, isSpace c = true) :
    strip (before ++ text ++ after) = strip text := by
  unfold strip
  rw [String.toList_append, String.toList_append, stripChars_pad hbefore hafter]

section

variable {separator : Char} {text : String}

theorem splitAll_ne_nil (separator : Char) (text : String) : splitAll separator text ≠ [] := by
  unfold splitAll
  rw [ne_eq, map_eq_nil_iff]
  exact splitOn_ne_nil _ _

theorem splitAll_of_notMem (hsep : separator ∉ text.toList) : splitAll separator text = [text] := by
  unfold splitAll
  rw [splitOn_eq_singleton hsep]
  simp

theorem splitAll_append (before after : String) (hsep : separator ∉ before.toList) :
    splitAll separator (before ++ String.singleton separator ++ after) =
      before :: splitAll separator after := by
  unfold splitAll
  rw [String.toList_append, String.toList_append, String.toList_singleton,
    append_assoc, singleton_append,
    splitOn_append_cons_self_of_not_mem hsep, map_cons,
    String.ofList_toList]

theorem notMem_and_subset_of_mem_splitOn {text part : List Char}
    (hpart : part ∈ text.splitOn separator) :
    separator ∉ part ∧ part ⊆ text := by
  induction text generalizing part with
  | nil =>
    rw [splitOn_nil, mem_singleton] at hpart
    subst hpart
    exact ⟨not_mem_nil, List.Subset.refl _⟩
  | cons c rest ih =>
    rw [splitOn_cons_eq_if_modifyHead] at hpart
    split at hpart
    · rcases List.mem_cons.mp hpart with rfl | hpart
      · exact ⟨not_mem_nil, nil_subset _⟩
      · obtain ⟨hsep, hsub⟩ := ih hpart
        exact ⟨hsep, List.Subset.trans hsub (subset_cons_self c rest)⟩
    · rename_i hc
      cases hsplit : rest.splitOn separator with
      | nil => exact absurd hsplit (splitOn_ne_nil _ _)
      | cons first others =>
        rw [hsplit] at hpart ih
        rw [modifyHead_cons, mem_cons] at hpart
        rcases hpart with rfl | hpart
        · obtain ⟨hsep, hsub⟩ := ih mem_cons_self
          constructor
          · rw [mem_cons, not_or]
            exact ⟨fun heq => hc (by simp [heq]), hsep⟩
          · exact cons_subset_cons c hsub
        · obtain ⟨hsep, hsub⟩ := ih (mem_cons_of_mem _ hpart)
          exact ⟨hsep, List.Subset.trans hsub (subset_cons_self c rest)⟩

theorem isPlain_strip_of_mem_splitAll (hbreak : HasNoLineBreak text)
    {part : String} (hpart : part ∈ splitAll separator text) :
    IsPlain separator (strip part) := by
  obtain ⟨chars, hchars, rfl⟩ := mem_map.mp hpart
  obtain ⟨hsep, hsub⟩ := notMem_and_subset_of_mem_splitOn hchars
  refine ⟨strip_strip _, ?_, ?_⟩
  · intro hmem
    have hmem := mem_of_mem_strip hmem
    rw [String.toList_ofList] at hmem
    exact hsep hmem
  · intro c hc
    have hc := mem_of_mem_strip hc
    rw [String.toList_ofList] at hc
    exact hbreak c (hsub hc)

end

/-! ## `splitlines` -/

theorem hasNoLineBreak_of_mem_linesFrom (line text : List Char)
    (hline : ∀ c ∈ line, isLineBreak c = false) :
    ∀ result ∈ linesFrom line text, ∀ c ∈ result, isLineBreak c = false := by
  induction line, text using linesFrom.induct with
  | case1 => simp [linesFrom]
  | case2 line hne => simpa [linesFrom, hne] using hline
  | case3 line rest ih =>
    rw [linesFrom, forall_mem_cons]
    exact ⟨hline, ih nofun⟩
  | case4 line c rest hpair hbreak ih =>
    rw [linesFrom.eq_3 line c rest hpair, if_pos hbreak, forall_mem_cons]
    exact ⟨hline, ih nofun⟩
  | case5 line c rest hpair hbreak ih =>
    rw [linesFrom.eq_3 line c rest hpair, if_neg hbreak]
    apply ih
    rw [forall_mem_append, forall_mem_singleton]
    exact ⟨hline, by simpa using hbreak⟩

theorem hasNoLineBreak_of_mem_splitlines {text line : String}
    (hline : line ∈ splitlines text) : HasNoLineBreak line := by
  obtain ⟨chars, hchars, rfl⟩ := mem_map.mp hline
  intro c hc
  rw [String.toList_ofList] at hc
  exact hasNoLineBreak_of_mem_linesFrom [] text.toList nofun chars hchars c hc

theorem linesFrom_cons (line rest : List Char) (hc : isLineBreak c = false) :
    linesFrom line (c :: rest) = linesFrom (line ++ [c]) rest := by
  have hpair : ∀ rest' : List Char, c = '\r' → rest = '\n' :: rest' → False := by
    intro _ heq _
    rw [heq] at hc
    exact absurd hc (by decide)
  rw [linesFrom.eq_3 _ _ _ hpair, if_neg (by simp [hc])]

theorem linesFrom_of_hasNoLineBreak (line chars : List Char)
    (hchars : ∀ c ∈ chars, isLineBreak c = false) :
    linesFrom line chars = if line ++ chars = [] then [] else [line ++ chars] := by
  induction chars generalizing line with
  | nil => rw [append_nil, linesFrom]
  | cons c chars ih =>
    rw [forall_mem_cons] at hchars
    rw [linesFrom_cons line chars hchars.1, ih _ hchars.2, append_assoc, singleton_append]

theorem linesFrom_append_newline (line chars rest : List Char)
    (hchars : ∀ c ∈ chars, isLineBreak c = false) :
    linesFrom line (chars ++ '\n' :: rest) = (line ++ chars) :: linesFrom [] rest := by
  induction chars generalizing line with
  | nil =>
    rw [nil_append, append_nil, linesFrom.eq_3 _ _ _ (by simp), if_pos (by decide)]
  | cons c chars ih =>
    rw [forall_mem_cons] at hchars
    rw [cons_append, linesFrom_cons _ _ hchars.1, ih _ hchars.2, append_assoc, singleton_append]

theorem splitlines_unlines {lines : List String} (hlines : ∀ line ∈ lines, HasNoLineBreak line) :
    splitlines (unlines lines) = lines := by
  induction lines with
  | nil => rfl
  | cons line rest ih =>
    rw [forall_mem_cons] at hlines
    have hrest := ih hlines.2
    unfold splitlines at *
    have htext : (unlines (line :: rest)).toList =
        line.toList ++ '\n' :: (unlines rest).toList := by
      simp [unlines]
    rw [htext, linesFrom_append_newline _ _ _ hlines.1, map_cons,
      hrest, nil_append, String.ofList_toList]

@[simp] theorem unlines_nil : unlines [] = "" := rfl

theorem unlines_cons (line : String) (lines : List String) :
    unlines (line :: lines) = line ++ "\n" ++ unlines lines := rfl

theorem unlines_append (first rest : List String) :
    unlines (first ++ rest) = unlines first ++ unlines rest := by
  induction first with
  | nil => simp
  | cons line first ih =>
    rw [cons_append, unlines_cons, unlines_cons, ih,
      String.append_assoc, String.append_assoc, String.append_assoc]

theorem splitlines_joinLines {lines : List String} (hbreak : ∀ line ∈ lines, HasNoLineBreak line)
    (hne : ∀ line ∈ lines, line ≠ "") :
    splitlines (joinLines lines) = lines := by
  induction lines with
  | nil => rfl
  | cons line rest ih =>
    rw [forall_mem_cons] at hbreak hne
    cases rest with
    | nil =>
      have hchars : line.toList ≠ [] := by
        simpa using hne.1
      have hlast := linesFrom_of_hasNoLineBreak [] line.toList hbreak.1
      rw [nil_append, if_neg hchars] at hlast
      unfold splitlines joinLines
      rw [String.intercalate_singleton, hlast, map_singleton, String.ofList_toList]
    | cons next rest =>
      have hrest := ih hbreak.2 hne.2
      unfold splitlines joinLines at *
      have htext : (String.intercalate "\n" (line :: next :: rest)).toList = line.toList ++
            '\n' :: (String.intercalate "\n" (next :: rest)).toList := by
        simp
      rw [htext, linesFrom_append_newline _ _ _ hbreak.1, map_cons,
        hrest, nil_append, String.ofList_toList]

end Middlewared.PyString
