import Middlewared.PySplit
import Middlewared.SmbSharing

/-!
# The auxiliary parameters of a share as text

What is left of a text when its comments are gone are lines that are read back as they stand, and
so are the lines that a dictionary of parameters is written as.
-/

namespace Middlewared

open PyString List Option Dict

/-- The lines of `smb_strip_comments` before they are joined. -/
def contentLines (text : String) : List String :=
  ((splitlines text).map strip).filterMap fun entry =>
    if isComment entry then none else some (strip (splitFirst entry '#'))

theorem smbStripComments_eq (text : String) :
    smbStripComments text = joinLines (contentLines text) := rfl

structure IsContentLine (line : String) : Prop where
  isPlain : IsPlain '#' line
  notComment : isComment line = false

/-- A line whose separator, if it has one, comes after its first `#`. -/
def HidesSeparator (line : String) : Prop :=
  isComment (strip line) = false ∧ '=' ∉ (splitFirst (strip line) '#').toList

/-- The text can be read by `auxsmbconf_dict` and by the loop over the
auxiliary parameters of the share alike, it can be written back, and its
comments are gone once they are stripped. -/
structure IsUsableAux (share : SmbShare) : Prop where
  agree : ∃ aux params, auxsmbconfDict share.auxsmbconf = some aux ∧
    shareAuxParameters share = .ok params ∧
    (∀ key, (Dict.ofEntries params).get? key = if key ∈ auxParamBlacklist then none
      else (aux.get? key).map SmbConfValue.str) ∧
    auxsmbconfDict (auxsmbconfText aux) = some aux
  stripped : smbStripComments (smbStripComments share.auxsmbconf) =
    smbStripComments share.auxsmbconf

/-! ## `smb_strip_comments` -/

theorem isComment_eq_false_iff {entry : String} : isComment entry = false ↔
    ∃ c rest, entry.toList = c :: rest ∧ c ≠ '#' ∧ c ≠ ';' := by
  cases hentry : entry.toList with
  | nil =>
    have hempty : entry = "" := by
      rw [← String.toList_inj, hentry]
      rfl
    simp [isComment, hempty]
  | cons c rest =>
    have hne : entry ≠ "" := by
      rintro rfl
      cases hentry
    have hmark : ∀ mark, startsWith entry (String.singleton mark) = (mark == c) := by
      intro mark
      rw [startsWith, String.toList_singleton, hentry, isPrefixOf_cons_cons,
        isPrefixOf_nil_left, Bool.and_true]
    have hhash : startsWith entry "#" = ('#' == c) := hmark '#'
    have hsemicolon : startsWith entry ";" = (';' == c) := hmark ';'
    unfold isComment
    rw [hhash, hsemicolon]
    simp only [hne, decide_false, Bool.false_or, Bool.or_eq_false_iff, beq_eq_false_iff_ne]
    constructor
    · rintro ⟨hhash, hsemicolon⟩
      exact ⟨c, rest, rfl, hhash.symm, hsemicolon.symm⟩
    · rintro ⟨d, others, hchars, hhash, hsemicolon⟩
      cases hchars
      exact ⟨hhash.symm, hsemicolon.symm⟩

theorem isSpace_eq_false_of_strip_eq {text : List Char} {c : Char}
    {rest : List Char} (htext : text = c :: rest)
    (hstrip : stripChars text = text) : PyString.isSpace c = false := by
  subst htext
  have hdrop := (stripChars_eq_self_iff.mp hstrip).1
  simpa using hdrop

theorem stripChars_cons {c : Char} (hc : PyString.isSpace c = false) (rest : List Char) :
    stripChars (c :: rest) = c :: rest.rdropWhile PyString.isSpace := by
  have hstrip := @stripChars_append_cons c [] rest hc
  simpa using hstrip

variable {line : String}

theorem isContentLine_strip_splitFirst (hbreak : HasNoLineBreak line)
    (hcomment : isComment (strip line) = false) :
    IsContentLine (strip (splitFirst (strip line) '#')) := by
  obtain ⟨c, rest, hline, hhash, hsemicolon⟩ := isComment_eq_false_iff.mp hcomment
  have hspace : PyString.isSpace c = false := by
    apply isSpace_eq_false_of_strip_eq hline
    rw [← strip_eq_self_iff, strip_strip]
  have hfirst : (splitFirst (strip line) '#').toList = c :: rest.takeWhile (· ≠ '#') := by
    rw [splitFirst, String.toList_ofList, hline, takeWhile_cons, if_pos (by simpa using hhash)]
  refine ⟨⟨strip_strip _, ?_, ?_⟩, ?_⟩
  · intro hmem
    have hmem := mem_of_mem_strip hmem
    rw [splitFirst, String.toList_ofList] at hmem
    simpa using mem_takeWhile_imp hmem
  · intro d hd
    have hd := mem_of_mem_strip hd
    rw [splitFirst, String.toList_ofList] at hd
    exact hbreak d (mem_of_mem_strip ( takeWhile_prefix _ |>.subset hd))
  · rw [isComment_eq_false_iff, strip, String.toList_ofList, hfirst, stripChars_cons hspace]
    exact ⟨c, _, rfl, hhash, hsemicolon⟩

theorem IsContentLine.ne_empty (hline : IsContentLine line) : line ≠ "" := by
  rintro rfl
  obtain ⟨c, rest, hnil, _⟩ := isComment_eq_false_iff.mp hline.notComment
  cases hnil

theorem isContentLine_of_mem_contentLines {text : String}
    (hline : line ∈ contentLines text) : IsContentLine line := by
  obtain ⟨entry, hentry, hleft⟩ := mem_filterMap.mp hline
  obtain ⟨source, hsource, rfl⟩ := List.mem_map.mp hentry
  rw [ite_none_left_eq_some, some.injEq] at hleft
  obtain ⟨hcomment, rfl⟩ := hleft
  exact isContentLine_strip_splitFirst
    (hasNoLineBreak_of_mem_splitlines hsource) (by simpa using hcomment)

variable {lines : List String}

theorem contentLines_joinLines (hlines : ∀ line ∈ lines, IsContentLine line) :
    contentLines (joinLines lines) = lines := by
  have hsplit : splitlines (joinLines lines) = lines := splitlines_joinLines
      (fun line hline => (hlines line hline).isPlain.hasNoLineBreak)
      fun line hline => (hlines line hline).ne_empty
  have hfirst : ∀ line, IsContentLine line → splitFirst line '#' = line := by
    intro line hline
    rw [splitFirst, takeWhile_eq_self_iff.mpr, String.ofList_toList]
    intro c hc
    rw [decide_eq_true_eq]
    rintro rfl
    exact hline.isPlain.notMem hc
  unfold contentLines
  rw [hsplit]
  clear hsplit
  induction lines with
  | nil => rfl
  | cons line rest ih =>
    rw [forall_mem_cons] at hlines
    rw [map_cons, hlines.1.isPlain.strip_eq, filterMap_cons, hlines.1.notComment]
    simp only [Bool.false_eq_true, if_false]
    rw [hfirst line hlines.1, hlines.1.isPlain.strip_eq, ih hlines.2]

theorem smbStripComments_smbStripComments (text : String) :
    smbStripComments (smbStripComments text) = smbStripComments text := by
  rw [smbStripComments_eq, smbStripComments_eq, contentLines_joinLines
    fun line => isContentLine_of_mem_contentLines]

/-! ## `auxsmbconf_dict` -/

theorem splitlines_smbStripComments (text : String) :
    splitlines (smbStripComments text) = contentLines text := by
  have hcontent : ∀ line ∈ contentLines text, IsContentLine line :=
    fun line => isContentLine_of_mem_contentLines
  exact splitlines_joinLines (fun line hline => (hcontent line hline).isPlain.hasNoLineBreak)
    fun line hline => (hcontent line hline).ne_empty

theorem auxsmbconfDict_eq (text : String) : auxsmbconfDict text =
    ((contentLines text).mapM auxParam).map Dict.ofEntries := by
  rw [auxsmbconfDict, splitlines_smbStripComments]

theorem auxParam_isSome_iff {entry : String} :
    (auxParam entry).isSome = true ↔ '=' ∈ entry.toList := by
  constructor
  · intro hsome
    obtain ⟨param, haux⟩ := isSome_iff_exists.mp hsome
    obtain ⟨first, rest, hsplit, _⟩ := auxParam_eq_some haux
    rw [(splitOnce_eq_some_iff.mp hsplit).2]
    exact mem_append_right _ mem_cons_self
  · intro hmem
    obtain ⟨before, after, hentry, hbefore⟩ := eq_append_cons_of_mem hmem
    have hsplit : splitOnce '=' entry = (String.ofList before, some (String.ofList after)) := by
      rw [splitOnce_eq_some_iff]
      simpa using ⟨hbefore, hentry⟩
    rw [auxParam, hsplit]
    rfl

structure IsAuxParam (param : String × String) : Prop where
  key : IsPlain '=' param.1
  key_notMem : '#' ∉ param.1.toList
  key_head : ∀ rest, param.1.toList ≠ ';' :: rest
  value_strip : strip param.2 = param.2
  value_notMem : '#' ∉ param.2.toList
  value_break : HasNoLineBreak param.2

variable {param : String × String}

theorem auxParam_eq_some_iff : auxParam line = some param ↔ ∃ first rest, '=' ∉ first.toList ∧
    line.toList = first.toList ++ '=' :: rest.toList ∧
    strip first = param.1 ∧ strip rest = param.2 := by
  constructor
  · intro haux
    unfold auxParam at haux
    cases hsplit : splitOnce '=' line with
    | mk first value =>
      rw [hsplit] at haux
      cases value with
      | none => cases haux
      | some rest =>
        cases haux
        obtain ⟨hfirst, hline⟩ := splitOnce_eq_some_iff.mp hsplit
        exact ⟨first, rest, hfirst, hline, rfl, rfl⟩
  · rintro ⟨first, rest, hfirst, hline, hkey, hvalue⟩
    rw [auxParam, splitOnce_eq_some_iff.mpr ⟨hfirst, hline⟩]
    simp [hkey, hvalue]

theorem isAuxParam_of_auxParam (hline : IsContentLine line)
    (haux : auxParam line = some param) : IsAuxParam param := by
  obtain ⟨first, rest, hfirst, hsplit, hkey, hvalue⟩ := auxParam_eq_some_iff.mp haux
  have hmemFirst : ∀ c ∈ first.toList, c ∈ line.toList := by
    intro c hc
    rw [hsplit]
    exact mem_append_left _ hc
  have hmemRest : ∀ c ∈ rest.toList, c ∈ line.toList := by
    intro c hc
    rw [hsplit]
    exact mem_append_right _ (mem_cons_of_mem _ hc)
  have hkeyMem : ∀ c ∈ param.1.toList, c ∈ first.toList := by
    intro c hc
    rw [← hkey] at hc
    exact mem_of_mem_strip hc
  have hvalueMem : ∀ c ∈ param.2.toList, c ∈ rest.toList := by
    intro c hc
    rw [← hvalue] at hc
    exact mem_of_mem_strip hc
  have hbreak := hline.isPlain.hasNoLineBreak
  have hhash := hline.isPlain.notMem
  refine ⟨⟨?_, fun hmem => hfirst (hkeyMem _ hmem),
    fun c hc => hbreak c (hmemFirst c (hkeyMem c hc))⟩,
    fun hmem => hhash (hmemFirst _ (hkeyMem _ hmem)), ?_, ?_,
    fun hmem => hhash (hmemRest _ (hvalueMem _ hmem)),
    fun c hc => hbreak c (hmemRest c (hvalueMem c hc))⟩
  · rw [← hkey, strip_strip]
  · intro tail htail
    obtain ⟨c, others, hchars, _, hsemicolon⟩ := isComment_eq_false_iff.mp hline.notComment
    have hspace : PyString.isSpace c = false := isSpace_eq_false_of_strip_eq hchars
      (strip_eq_self_iff.mp hline.isPlain.strip_eq)
    rw [← hkey, strip, String.toList_ofList] at htail
    cases hhead : first.toList with
    | nil =>
      rw [hhead] at htail
      cases htail
    | cons d chars =>
      rw [hsplit, hhead, cons_append] at hchars
      obtain ⟨rfl, _⟩ := List.cons.inj hchars
      rw [hhead, stripChars_cons hspace] at htail
      exact hsemicolon (List.cons.inj htail).1
  · rw [← hvalue, strip_strip]

theorem isContentLine_of_isAuxParam (hparam : IsAuxParam param) :
    IsContentLine (param.1 ++ "=" ++ param.2) ∧
      auxParam (param.1 ++ "=" ++ param.2) = some param := by
  obtain ⟨key, value⟩ := param
  have htext : (key ++ "=" ++ value).toList = key.toList ++ '=' :: value.toList := by simp
  have hkey := stripChars_eq_self_iff.mp (strip_eq_self_iff.mp hparam.key.strip_eq)
  have hvalue := stripChars_eq_self_iff.mp (strip_eq_self_iff.mp hparam.value_strip)
  refine ⟨⟨⟨?_, ?_, ?_⟩, ?_⟩, ?_⟩
  · rw [strip_eq_self_iff, htext, stripChars_append_cons (by decide), hkey.1, hvalue.2]
  · rw [htext, mem_append, mem_cons, not_or, not_or]
    exact ⟨hparam.key_notMem, by decide, hparam.value_notMem⟩
  · unfold HasNoLineBreak
    rw [htext, forall_mem_append, forall_mem_cons]
    exact ⟨hparam.key.hasNoLineBreak, by decide, hparam.value_break⟩
  · rw [isComment_eq_false_iff, htext]
    cases hchars : key.toList with
    | nil => exact ⟨'=', value.toList, rfl, by decide, by decide⟩
    | cons c rest =>
      refine ⟨c, rest ++ '=' :: value.toList, rfl, ?_, ?_⟩
      · rintro rfl
        exact hparam.key_notMem (hchars ▸ mem_cons_self)
      · rintro rfl
        exact hparam.key_head rest hchars
  · rw [auxParam_eq_some_iff]
    exact ⟨key, value, hparam.key.notMem, htext, hparam.key.strip_eq, hparam.value_strip⟩

/-! ## The readers -/

theorem mapM_auxParam_isSome_iff : (lines.mapM auxParam).isSome = true ↔
    ∀ line ∈ lines, '=' ∈ line.toList := by
  induction lines with
  | nil => simp [pure]
  | cons line rest ih =>
    rw [forall_mem_cons, ← ih, ← auxParam_isSome_iff, mapM_cons]
    cases auxParam line <;> cases rest.mapM auxParam <;> simp [bind, Option.bind, pure]

theorem forall_mem_contentLines_iff {text : String} :
    (∀ line ∈ contentLines text, '=' ∈ line.toList) ↔
      ∀ line ∈ splitlines text, ¬ HidesSeparator line := by
  have hleft : ∀ line : String, '=' ∈ (strip (splitFirst (strip line) '#')).toList ↔
        '=' ∈ (splitFirst (strip line) '#').toList :=
    fun line => mem_strip_iff (by decide)
  constructor
  · intro hall line hline hhides
    apply hhides.2
    rw [← hleft]
    apply hall
    refine mem_filterMap.mpr ⟨strip line, List.mem_map_of_mem hline, ?_⟩
    rw [hhides.1]
    rfl
  · intro hnone entry hentry
    obtain ⟨stripped, hstripped, hentry⟩ := mem_filterMap.mp hentry
    obtain ⟨line, hline, rfl⟩ := List.mem_map.mp hstripped
    rw [ite_none_left_eq_some, some.injEq] at hentry
    obtain ⟨hcomment, rfl⟩ := hentry
    rw [hleft]
    by_contra hmem
    exact hnone line hline ⟨by simpa using hcomment, hmem⟩

theorem lookup_map_value {κ ν μ : Type*} [DecidableEq κ] (f : ν → μ)
    (entries : List (κ × ν)) (key : κ) :
    (entries.map fun entry => (entry.1, f entry.2)).lookup key = (entries.lookup key).map f := by
  induction entries with
  | nil => rfl
  | cons entry rest ih =>
    rw [map_cons, lookup_cons_ite, lookup_cons_ite, ih]
    split <;> rfl

theorem shareAuxParameters_eq (share : SmbShare) : shareAuxParameters share =
    (textParameters (contentLines share.auxsmbconf)).map fun params =>
      params.filter fun param => param.1 ∉ auxParamBlacklist := by
  have hkept : (contentLines share.auxsmbconf).filter (fun param =>
      strip param ≠ "") = contentLines share.auxsmbconf := by
    rw [filter_eq_self]
    intro line hline
    have hcontent := isContentLine_of_mem_contentLines hline
    rw [decide_eq_true_eq, hcontent.isPlain.strip_eq]
    exact hcontent.ne_empty
  unfold shareAuxParameters
  rw [splitlines_smbStripComments, hkept]
  cases textParameters (contentLines share.auxsmbconf) <;> rfl

theorem auxsmbconfDict_auxsmbconfText {aux : Dict String String}
    (hparams : ∀ param ∈ aux.entries, IsAuxParam param) :
    auxsmbconfDict (auxsmbconfText aux) = some aux := by
  have hcontent : contentLines (auxsmbconfText aux) =
      aux.entries.map fun entry => entry.1 ++ "=" ++ entry.2 := by
    apply contentLines_joinLines
    intro line hline
    obtain ⟨param, hparam, rfl⟩ := List.mem_map.mp hline
    exact (isContentLine_of_isAuxParam (hparams param hparam)).1
  have hread : ∀ entries : List (String × String), (∀ param ∈ entries, IsAuxParam param) →
        (entries.map fun entry => entry.1 ++ "=" ++ entry.2).mapM auxParam = some entries := by
    intro entries hentries
    induction entries with
    | nil => rfl
    | cons param rest ih =>
      rw [forall_mem_cons] at hentries
      rw [map_cons, mapM_cons, (isContentLine_of_isAuxParam hentries.1).2, ih hentries.2]
      rfl
  rw [auxsmbconfDict_eq, hcontent, hread aux.entries hparams, map_some]
  exact congrArg some (update_empty_entries aux)

theorem isAuxParam_of_mem_mapM {params : List (String × String)}
    (hlines : ∀ line ∈ lines, IsContentLine line)
    (hread : lines.mapM auxParam = some params) :
    ∀ param ∈ params, IsAuxParam param := by
  induction lines generalizing params with
  | nil =>
    cases hread
    exact nofun
  | cons line rest ih =>
    rw [forall_mem_cons] at hlines
    rw [mapM_cons, bind_eq_bind, bind_eq_some_iff] at hread
    obtain ⟨param, hparam, hread⟩ := hread
    rw [bind_eq_bind, bind_eq_some_iff] at hread
    obtain ⟨others, hothers, hread⟩ := hread
    cases hread
    rw [forall_mem_cons]
    exact ⟨isAuxParam_of_auxParam hlines.1 hparam, ih hlines.2 hothers⟩

/-- The readers of the auxiliary parameters of a share agree on its text, and
read it back from what it is written as, if and only if no line of the text
hides its separator. -/
theorem isUsableAux_iff (share : SmbShare) : IsUsableAux share ↔
    ∀ line ∈ splitlines share.auxsmbconf, ¬ HidesSeparator line := by
  rw [← forall_mem_contentLines_iff, ← mapM_auxParam_isSome_iff]
  constructor
  · intro husable
    obtain ⟨aux, params, haux, _⟩ := husable.agree
    rw [auxsmbconfDict_eq] at haux
    obtain ⟨read, hread, _⟩ := map_eq_some_iff.mp haux
    rw [hread]
    rfl
  · intro hsome
    obtain ⟨params, hread⟩ := isSome_iff_exists.mp hsome
    refine ⟨?_, smbStripComments_smbStripComments _⟩
    refine ⟨Dict.ofEntries params,
      (params.map fun param => (param.1, SmbConfValue.str param.2)).filter
        fun param => param.1 ∉ auxParamBlacklist, ?_, ?_, ?_, ?_⟩
    · rw [auxsmbconfDict_eq, hread]
      rfl
    · rw [shareAuxParameters_eq, textParameters, hread]
      rfl
    · intro key
      rw [get?_ofEntries, get?_ofEntries, ← filter_reverse, ← map_reverse,
        lookup_filter_key fun name => decide (name ∉ auxParamBlacklist),
        lookup_map_value]
      by_cases hkey : key ∈ auxParamBlacklist <;> simp [hkey]
    · apply auxsmbconfDict_auxsmbconfText
      rintro ⟨key, value⟩ hentry
      rw [mem_entries_iff] at hentry
      have hmem : (key, value) ∈ params := (get?_update_eq_some hentry).resolve_right nofun
      exact isAuxParam_of_mem_mapM (fun line => isContentLine_of_mem_contentLines) hread _ hmem

/-! ## The text that has been accepted -/

/-- A line with a `#` before its first separator, if it is not a comment from
the start. -/
def CommentsOutSeparator (line : String) : Prop :=
  isComment (strip line) = false ∧ '#' ∈ (splitFirst (strip line) '=').toList

theorem notMem_takeWhile_iff {α : Type*} [DecidableEq α] {a b : α} (hab : a ≠ b)
    {l : List α} (hb : b ∈ l) :
    b ∉ l.takeWhile (· ≠ a) ↔ a ∈ l.takeWhile (· ≠ b) := by
  induction l with
  | nil => cases hb
  | cons c rest ih =>
    by_cases hca : c = a
    · subst c
      simp [hab]
    · by_cases hcb : c = b
      · subst c
        simp [hca]
      · have hrest : b ∈ rest := (mem_cons.mp hb).resolve_left (Ne.symm hcb)
        rw [takeWhile_cons, takeWhile_cons,
          if_pos (by simpa using hca), if_pos (by simpa using hcb),
          mem_cons, mem_cons, not_or, ih hrest]
        simp [Ne.symm hca, Ne.symm hcb]

theorem mem_of_accepted {setParm : String → String → Bool} {schemaName : String}
    (haccepted : auxParamErrors setParm schemaName line = [])
    (hcomment : isComment line = false) : '=' ∈ line.toList := by
  unfold auxParamErrors at haccepted
  rw [hcomment] at haccepted
  cases hsplit : splitOnce '=' line with
  | mk first value =>
    rw [hsplit] at haccepted
    cases value with
    | none => simp at haccepted
    | some rest =>
      rw [(splitOnce_eq_some_iff.mp hsplit).2]
      exact mem_append_right _ mem_cons_self

theorem isComment_of_isComment_strip_eq_false
    (hcomment : isComment (strip line) = false) : isComment line = false := by
  rw [isComment_eq_false_iff, strip, String.toList_ofList] at hcomment
  obtain ⟨c, rest, hstrip, hhash, hsemicolon⟩ := hcomment
  rw [isComment_eq_false_iff]
  cases hline : line.toList with
  | nil =>
    rw [hline] at hstrip
    cases hstrip
  | cons d others =>
    have hsame : PyString.isSpace d = false → d = c := by
      intro hd
      rw [hline, stripChars_cons hd] at hstrip
      exact (List.cons.inj hstrip).1
    refine ⟨d, others, rfl, ?_, ?_⟩
    · rintro rfl
      exact hhash (hsame (by decide)).symm
    · rintro rfl
      exact hsemicolon (hsame (by decide)).symm

theorem hidesSeparator_iff_of_accepted {setParm : String → String → Bool} {schemaName : String}
    (haccepted : auxParamErrors setParm schemaName line = []) :
    HidesSeparator line ↔ CommentsOutSeparator line := by
  apply and_congr_right
  intro hcomment
  have hmem : '=' ∈ (strip line).toList := by
    rw [mem_strip_iff (by decide)]
    exact mem_of_accepted haccepted (isComment_of_isComment_strip_eq_false hcomment)
  unfold splitFirst
  rw [String.toList_ofList, String.toList_ofList, notMem_takeWhile_iff (by decide) hmem]

/-- The readers of an accepted text agree on it, and read it back from what it
is written as, if and only if no line has a `#` before its first separator. -/
theorem acceptedAux_isUsable_iff {setParm : String → String → Bool}
    {schemaName : String} {share : SmbShare}
    (haccepted : validateAuxParams setParm share.auxsmbconf schemaName = []) :
    IsUsableAux share ↔ ∀ line ∈ splitlines share.auxsmbconf, ¬ CommentsOutSeparator line := by
  rw [validateAuxParams, flatMap_eq_nil_iff] at haccepted
  rw [isUsableAux_iff]
  constructor
  · intro hall line hline
    rw [← hidesSeparator_iff_of_accepted (haccepted line hline)]
    exact hall line hline
  · intro hall line hline
    rw [hidesSeparator_iff_of_accepted (haccepted line hline)]
    exact hall line hline

def commentedShare : SmbShare :=
  { smbShareDefaults "/mnt/tank/data" "data" with auxsmbconf := "oplocks = no # as before" }

theorem acceptedAux_isUsable_commented : IsUsableAux commentedShare := by
  have haccepted : validateAuxParams (fun _ _ => true)
      commentedShare.auxsmbconf "sharingsmb_create.auxsmbconf" = [] := by decide
  refine (acceptedAux_isUsable_iff haccepted).mpr ?_
  unfold CommentsOutSeparator
  decide

def commentedOutShare : SmbShare :=
  { smbShareDefaults "/mnt/tank/data" "data" with auxsmbconf := "oplocks # = no" }

/-- The separator stands behind a comment sign. -/
theorem acceptedAux_not_usable : validateAuxParams (fun _ _ => true) commentedOutShare.auxsmbconf
      "sharingsmb_create.auxsmbconf" = [] ∧
    auxsmbconfDict commentedOutShare.auxsmbconf = none ∧
    ¬ IsUsableAux commentedOutShare := by
  have hnone : auxsmbconfDict commentedOutShare.auxsmbconf = none := by rfl
  refine ⟨by decide, hnone, ?_⟩
  intro husable
  obtain ⟨aux, _, haux, _⟩ := husable.agree
  cases haux

end Middlewared
