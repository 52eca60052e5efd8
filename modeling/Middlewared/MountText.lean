import Middlewared.MountLine

/-!
# The text of the mounts

A line of the text is what is written of a mount, up to a `\r` if there is one;
no entry can be read of what follows a `\r`.
-/

namespace Middlewared

open PyString PyText List

namespace Mount

open MountInfo

def device (mount : Mount) : ℕ := DeviceNumber.pack mount.major mount.minor

def entry (rt : MountRuntime) (mount : Mount) : MountEntry where
  mountId := mount.mountId
  parentId := mount.parentId
  major := mount.major
  minor := mount.minor
  devT := mount.device
  root := mount.root
  mountpoint := mount.mountpoint
  mountOpts := MountInfo.options rt mount.opts
  fsType := mount.fsType
  mountSource := mount.source
  superOpts := MountInfo.options rt mount.superOpts

def found (rt : MountRuntime) (mount : Mount) : MountEntry :=
  { mount.entry rt with
    root := unescape (escape pathEscaped mount.root)
    mountpoint := unescape (escape pathEscaped mount.mountpoint)
    mountSource := unescape
      ((words (escape sourceEscaped mount.source)).headD []) }

structure Parsed (mount : Mount) : Prop where
  root : '\r' ∉ mount.root
  mountpoint : '\r' ∉ mount.mountpoint
  source : '\r' ∉ mount.source
  optional : mount.optional ≠ []
  source_ne : mount.source ≠ ['-']
  source_word : (words (escape sourceEscaped mount.source)).length = 1

variable {rt : MountRuntime} {mount : Mount}

variable {text : List Char}

theorem notMem_escape_path : ' ' ∉ escape pathEscaped text := by
  rw [mem_escape_iff rfl]
  intro hmem
  exact absurd hmem.2 (by decide)

theorem notMem_escape_source : ' ' ∉ escape sourceEscaped mount.source := by
  rw [mem_escape_iff rfl]
  intro hmem
  exact absurd hmem.2 (by decide)

theorem not_isSpace_access {readOnly : Bool} {c : Char}
    (hc : c ∈ access readOnly) : isSpace c = false := by
  cases readOnly with
  | false => rcases List.mem_pair.mp hc with rfl | rfl <;> rfl
  | true => rcases List.mem_pair.mp hc with rfl | rfl <;> rfl

theorem not_isSpace_opts : ∀ c ∈ mount.opts, isSpace c = false := by
  intro c hc
  rcases mem_append.mp hc with hc | hc
  · exact not_isSpace_access hc
  · exact mount.options_word c hc

theorem not_isSpace_superOpts : ∀ c ∈ mount.superOpts, isSpace c = false := by
  intro c hc
  rcases mem_append.mp hc with hc | hc
  · exact not_isSpace_access hc
  · exact mount.superOptions_word c hc

theorem superOpts_ne_nil : mount.superOpts ≠ [] := by
  nofun

theorem notMem_of_isWord (hword : ∀ c ∈ text, isSpace c = false) : ' ' ∉ text := by
  intro hmem
  have hspace := hword ' ' hmem
  cases hspace

def fields (mount : Mount) : List Char :=
  mount.fsType ++ ' ' :: (escape sourceEscaped mount.source ++ ' ' :: mount.superOpts)

theorem words_fields : words (mount.fields ++ ['\n']) =
    mount.fsType :: words (escape sourceEscaped mount.source) ++ [mount.superOpts] := by
  have htext : mount.fields ++ ['\n'] = mount.fsType ++ ' ' :: (escape sourceEscaped mount.source ++
        ' ' :: (mount.superOpts ++ '\n' :: [])) := by
    unfold fields
    simp
  rw [htext, words_append_cons rfl, words_append_cons rfl, words_append_cons rfl, words_nil,
    words_eq_singleton mount.fsType_word.1.1 mount.fsType_word.1.2,
    words_eq_singleton superOpts_ne_nil not_isSpace_superOpts]
  simp

theorem dash_isPrefixOf_iff {word : List Char} (hword : ' ' ∉ word) (rest : List Char) :
    ['-', ' '].isPrefixOf (word ++ ' ' :: rest) ↔ word = ['-'] := by
  constructor
  · intro hprefix
    match word with
    | [] => simp at hprefix
    | [c] =>
      rw [singleton_append, isPrefixOf_cons_cons, Bool.and_eq_true, beq_iff_eq] at hprefix
      rw [ hprefix.1]
    | c :: d :: word =>
      simp only [mem_cons, not_or] at hword
      simp at hprefix
      exact absurd hprefix.2.symm (by tauto)
  · intro heq
    rw [heq]
    simp

theorem dash_isPrefixOf_superOpts (rest : List Char) :
    ['-', ' '].isPrefixOf (mount.superOpts ++ rest) = false := rfl

theorem notMem_superOpts_line : ' ' ∉ mount.superOpts ++ ['\n'] := by
  have hsuper := notMem_of_isWord (@not_isSpace_superOpts mount)
  simp [hsuper]

theorem fields_line : mount.fields ++ ['\n'] = mount.fsType ++
    ' ' :: (escape sourceEscaped mount.source ++ ' ' :: (mount.superOpts ++ ['\n'])) := by
  simp [fields]

theorem escape_eq_dash_iff : escape sourceEscaped mount.source = ['-'] ↔ mount.source = ['-'] := by
  constructor
  · intro heq
    have hlength := congrArg List.length heq
    rw [length_escape, length_singleton] at hlength
    have hzero : mount.source.countP sourceEscaped = 0 := by omega
    have hplain : ∀ c ∈ mount.source, sourceEscaped c = false := by
      simpa using countP_eq_zero.mp hzero
    rw [← heq]
    exact (escape_eq_self_iff.mpr hplain).symm
  · intro heq
    rw [heq]
    rfl

theorem cut_fields : cut [' ', '-', ' '] (mount.fields ++ ['\n']) = if mount.source = ['-'] then
      some (mount.fsType, mount.superOpts ++ ['\n'])
    else none := by
  have hsource := @escape_eq_dash_iff mount
  have htype := notMem_of_isWord mount.fsType_word.1.2
  rw [fields_line, cut_append_cons htype,
    cut_append_cons notMem_escape_source, dash_isPrefixOf_superOpts,
    if_neg Bool.false_ne_true, cut_of_notMem notMem_superOpts_line]
  by_cases hdash : mount.source = ['-']
  · rw [if_pos ((dash_isPrefixOf_iff notMem_escape_source _).mpr
      (hsource.mpr hdash)), if_pos hdash, hsource.mpr hdash]
    rfl
  · rw [if_neg, if_neg hdash]
    · rfl
    · rw [dash_isPrefixOf_iff notMem_escape_source, hsource]
      exact hdash

theorem cut_optional {l : List (List Char)} (hne : l ≠ [])
    (hl : ∀ field ∈ l, IsWord field ∧ field ≠ ['-']) (rest : List Char) :
    ∃ before, cut [' ', '-', ' '] ((l.flatMap fun field => field ++ [' ']) ++ '-' :: ' ' :: rest) =
        some (before, rest) := by
  induction l with
  | nil => exact absurd rfl hne
  | cons field l ih =>
    rw [forall_mem_cons] at hl
    have hfield := notMem_of_isWord hl.1.1.2
    have htext : (((field :: l).flatMap fun field => field ++ [' ']) ++
        '-' :: ' ' :: rest) = field ++ ' ' ::
          ((l.flatMap fun field => field ++ [' ']) ++ '-' :: ' ' :: rest) := by
      simp
    rw [htext, cut_append_cons hfield]
    cases l with
    | nil =>
      exact ⟨field, rfl⟩
    | cons second l =>
      obtain ⟨before, hcut⟩ := ih (by nofun) hl.2
      have hsecond := (forall_mem_cons.mp hl.2).1
      have hmiss : ¬['-', ' '].isPrefixOf (((second :: l).flatMap fun field => field ++ [' ']) ++
            '-' :: ' ' :: rest) := by
        rw [flatMap_cons, append_assoc, append_assoc, singleton_append,
          dash_isPrefixOf_iff (notMem_of_isWord hsecond.1.2)]
        exact hsecond.2
      rw [if_neg hmiss, hcut]
      exact ⟨field ++ ' ' :: before, rfl⟩

theorem splitText_extra (hne : mount.optional ≠ []) :
    (splitText [' ', '-', ' '] (mount.extra ++ ['\n']))[1]? =
      some (if mount.source = ['-'] then mount.fsType
        else mount.fields ++ ['\n']) := by
  have htext : mount.extra ++ ['\n'] = (mount.optional.flatMap fun field => field ++ [' ']) ++
        '-' :: ' ' :: (mount.fields ++ ['\n']) := by
    simp [extra, fields]
  obtain ⟨before, hcut⟩ := cut_optional hne mount.optional_word (mount.fields ++ ['\n'])
  rw [splitText_getElem?_one (by nofun), htext, hcut, Option.map_some, cut_fields]
  split <;> rfl

theorem splitText_extra_of_nil (hnil : mount.optional = []) :
    (splitText [' ', '-', ' '] (mount.extra ++ ['\n']))[1]? =
      if mount.source = ['-'] then some (mount.superOpts ++ ['\n']) else none := by
  have htext : mount.extra ++ ['\n'] = ['-'] ++ ' ' :: (mount.fields ++ ['\n']) := by
    simp [extra, fields, hnil]
  have htype : ¬['-', ' '].isPrefixOf (mount.fields ++ ['\n']) := by
    rw [fields_line, dash_isPrefixOf_iff (notMem_of_isWord mount.fsType_word.1.2)]
    exact mount.fsType_word.2
  rw [splitText_getElem?_one (by nofun), htext,
    cut_append_cons (by decide), if_neg htype, cut_fields]
  split
  · rw [Option.map_some, Option.map_some, cut_of_notMem notMem_superOpts_line]
    rfl
  · rfl

theorem numbers_splitOn :
    mount.numbers.splitOn ':' = [decimal mount.major, decimal mount.minor] := by
  unfold numbers
  rw [splitOn_append_cons_self_of_not_mem (notMem_decimal rfl _),
    splitOn_eq_singleton (notMem_decimal rfl _)]

theorem makedev_numbers : DeviceNumber.makedev (mount.major : ℤ) (mount.minor : ℤ) =
    .ok mount.device := by
  have hlt := mount.device_lt
  have hunsigned (n : ℕ) (hn : n < 2 ^ 31) : DeviceNumber.unsigned n = n := by
    unfold DeviceNumber.unsigned
    omega
  unfold DeviceNumber.makedev DeviceNumber.IsInt
  rw [if_pos (by omega), hunsigned _ hlt.1, hunsigned _ hlt.2]
  rfl

theorem notMem_numbers : ' ' ∉ mount.numbers := by
  unfold numbers
  simp [notMem_decimal]

theorem splitLimit_body (rest : List Char) : splitLimit ' ' 6 (decimal mount.mountId ++
    ' ' :: (decimal mount.parentId ++ ' ' :: (mount.numbers ++
        ' ' :: (escape pathEscaped mount.root ++ ' ' :: (escape pathEscaped mount.mountpoint ++
            ' ' :: (mount.opts ++ ' ' :: rest)))))) =
    [decimal mount.mountId, decimal mount.parentId, mount.numbers,
      escape pathEscaped mount.root, escape pathEscaped mount.mountpoint,
      mount.opts, rest] := by
  have hopts := notMem_of_isWord (@not_isSpace_opts mount)
  rw [splitLimit_append_cons (notMem_decimal rfl _), splitLimit_append_cons (notMem_decimal rfl _),
    splitLimit_append_cons notMem_numbers, splitLimit_append_cons notMem_escape_path,
    splitLimit_append_cons notMem_escape_path, splitLimit_append_cons hopts]
  rfl

theorem entryOfParts_mount (mntSrc : List Char) :
    entryOfParts rt (decimal mount.mountId) (decimal mount.parentId)
        mount.numbers (escape pathEscaped mount.root)
        (escape pathEscaped mount.mountpoint) mount.opts mount.fsType mntSrc
        mount.superOpts =
      .ok { mount.found rt with mountSource := unescape mntSrc } :=
  entryOfParts_eq numbers_splitOn (toInt_decimal _) (toInt_decimal _)
    makedev_numbers (toInt_decimal _) (toInt_decimal _)

theorem body_line : mount.body ++ ['\n'] = decimal mount.mountId ++
    ' ' :: (decimal mount.parentId ++ ' ' :: (mount.numbers ++
        ' ' :: (escape pathEscaped mount.root ++ ' ' :: (escape pathEscaped mount.mountpoint ++
            ' ' :: (mount.opts ++ ' ' :: (mount.extra ++ ['\n'])))))) := by
  simp [body]

theorem mntentDict_of_parsed (hparsed : mount.Parsed) :
    mntentDict rt (mount.body ++ ['\n']) = .ok (mount.found rt) := by
  obtain ⟨word, hword⟩ := length_eq_one_iff.mp hparsed.source_word
  have hfields := splitText_extra hparsed.optional
  rw [if_neg hparsed.source_ne] at hfields
  have hwords := @words_fields mount
  rw [hword] at hwords
  rw [body_line, mntentDict_eq (splitLimit_body _) hfields hwords, entryOfParts_mount]
  simp [found, hword]

theorem parsed_of_mntentDict (hroot : '\r' ∉ mount.root)
    (hmountpoint : '\r' ∉ mount.mountpoint) (hsource : '\r' ∉ mount.source)
    {entry : MountEntry}
    (hok : mntentDict rt (mount.body ++ ['\n']) = .ok entry) :
    mount.Parsed := by
  obtain ⟨_, _, _, _, _, _, extra, fields, fstype, mntSrc, superOpts, hparts,
    hfields, hwords, _⟩ := mntentDict_eq_ok hok
  rw [body_line, splitLimit_body] at hparts
  simp only [List.cons.injEq, and_true] at hparts
  have hextra := hparts.2.2.2.2.2.2
  rw [← hextra] at hfields
  by_cases hnil : mount.optional = []
  · exfalso
    rw [splitText_extra_of_nil hnil] at hfields
    split at hfields
    · have heq := Option.some.inj hfields
      rw [← heq, words_append_cons rfl, words_nil, append_nil,
        words_eq_singleton superOpts_ne_nil not_isSpace_superOpts] at hwords
      cases hwords
    · cases hfields
  · rw [splitText_extra hnil] at hfields
    have heq := Option.some.inj hfields
    by_cases hdash : mount.source = ['-']
    · exfalso
      rw [← heq, if_pos hdash, words_eq_singleton mount.fsType_word.1.1
        mount.fsType_word.1.2] at hwords
      cases hwords
    · rw [← heq, if_neg hdash, words_fields] at hwords
      have hlength := congrArg List.length hwords
      simp at hlength
      exact {
        root := hroot
        mountpoint := hmountpoint
        source := hsource
        optional := hnil
        source_ne := hdash
        source_word := by omega }

/-! ## Lines that `\r` breaks -/

theorem cr_mem_escape_path : '\r' ∈ escape pathEscaped text ↔ '\r' ∈ text := by
  rw [mem_escape_iff rfl]
  simp [pathEscaped]

theorem cr_mem_escape_source : '\r' ∈ escape sourceEscaped mount.source ↔ '\r' ∈ mount.source := by
  rw [mem_escape_iff rfl]
  simp [sourceEscaped, pathEscaped]

theorem cr_notMem_of_isWord (hword : ∀ c ∈ text, isSpace c = false) : '\r' ∉ text := by
  intro hmem
  have hspace := hword '\r' hmem
  cases hspace

theorem cr_notMem_numbers : '\r' ∉ mount.numbers := by
  unfold numbers
  simp [notMem_decimal]

def Unreadable (rt : MountRuntime) (line : List Char) : Prop :=
  ∀ entry, mntentDict rt line ≠ .ok entry

theorem unreadable_of_length {line : List Char}
    (hlength : (splitLimit ' ' 6 line).length ≠ 7) : Unreadable rt line := by
  intro entry hok
  obtain ⟨_, _, _, _, _, _, _, _, _, _, _, hparts, _⟩ := mntentDict_eq_ok hok
  rw [hparts] at hlength
  exact hlength rfl

theorem splitLimit_firstLine_body : ∃ rest, splitLimit ' ' 6 (firstLine mount.body) =
      decimal mount.mountId :: decimal mount.parentId :: mount.numbers :: rest ∧
    (rest.length = 4 → '\r' ∉ mount.root ∧ '\r' ∉ mount.mountpoint) := by
  have hsep : ' ' ≠ '\n' ∧ ' ' ≠ '\r' := by decide
  unfold body
  rw [splitLimit_firstLine hsep (notMem_decimal rfl _), if_neg (notMem_decimal rfl _),
    splitLimit_firstLine hsep (notMem_decimal rfl _),
    if_neg (notMem_decimal rfl _),
    splitLimit_firstLine hsep notMem_numbers, if_neg cr_notMem_numbers]
  refine ⟨_, rfl, ?_⟩
  rw [splitLimit_firstLine hsep notMem_escape_path]
  split
  · nofun
  · rename_i hroot
    rw [splitLimit_firstLine hsep notMem_escape_path]
    split
    · nofun
    · rename_i hmountpoint
      intro _
      rw [cr_mem_escape_path] at hroot hmountpoint
      exact ⟨hroot, hmountpoint⟩

theorem firstLine_body (mount : Mount) : ∃ rest,
    firstLine mount.body = (decimal mount.mountId ++ [' ']) ++
      (decimal mount.parentId ++ [' '] ++ mount.numbers ++ rest) := by
  have hbody : mount.body = (decimal mount.mountId ++ [' '] ++
      (decimal mount.parentId ++ [' '] ++ mount.numbers)) ++
        ' ' :: (escape pathEscaped mount.root ++ ' ' :: (escape pathEscaped mount.mountpoint ++
            ' ' :: (mount.opts ++ ' ' :: mount.extra))) := by
    simp [body]
  rw [hbody, firstLine_append_of_notMem]
  · rw [append_assoc]
    exact ⟨_, rfl⟩
  · simp [notMem_decimal, cr_notMem_numbers]

theorem majMin_device : DeviceNumber.majMin mount.device = mount.numbers := by
  have hminor : mount.minor < 2 ^ 32 := by
    have hlt := mount.device_lt.2
    omega
  rw [DeviceNumber.majMin, device, DeviceNumber.major_pack hminor, DeviceNumber.minor_pack hminor]
  rfl

theorem mountId_of_firstLine {entry : MountEntry}
    (hok : mntentDict rt (firstLine mount.body) = .ok entry) :
    '\r' ∉ mount.root ∧ '\r' ∉ mount.mountpoint ∧ entry.mountId = mount.mountId := by
  obtain ⟨mntId, parentId, majMin, root, mp, opts, extra, _, _, _, _, hparts, _,
    _, hentry⟩ := mntentDict_eq_ok hok
  obtain ⟨rest, hfirst, hrest⟩ := @splitLimit_firstLine_body mount
  rw [hparts] at hfirst
  simp only [List.cons.injEq] at hfirst
  obtain ⟨_, _, _, _, hid, _⟩ := entryOfParts_eq_ok hentry
  rw [hfirst.1, toInt_decimal] at hid
  have hplain := hrest (by rw [← hfirst.2.2.2]; rfl)
  exact ⟨hplain.1, hplain.2, (Except.ok.inj hid).symm⟩

variable {before after : List Char}

theorem append_cons_eq_append_cons {first rest : List Char} {c : Char}
    (hc : c ≠ '\r') (heq : first ++ c :: rest = before ++ '\r' :: after) :
    ('\r' ∈ first ∧ ∃ word, word ⊆ first ∧ after = word ++ c :: rest) ∨
      ∃ before', rest = before' ++ '\r' :: after := by
  rcases append_eq_append_iff.mp heq with ⟨as, hbefore, hrest⟩ | ⟨as, hfirst, hafter⟩
  · cases as with
    | nil => exact absurd (List.cons.inj hrest).1 hc
    | cons d as =>
      exact Or.inr ⟨as, (List.cons.inj hrest).2⟩
  · cases as with
    | nil => exact absurd (List.cons.inj hafter).1.symm hc
    | cons d as =>
      obtain ⟨hd, hafter⟩ := List.cons.inj hafter
      rw [← hd] at hfirst
      refine Or.inl ⟨?_, as, ?_, hafter⟩
      · rw [hfirst]
        simp
      · rw [hfirst]
        simp

theorem skip_append_cons {first rest : List Char} (hfirst : '\r' ∉ first)
    (heq : first ++ ' ' :: rest = before ++ '\r' :: after) :
    ∃ before', rest = before' ++ '\r' :: after := by
  rcases append_cons_eq_append_cons (by decide) heq with ⟨hmem, _⟩ | hrest
  · exact absurd hmem hfirst
  · exact hrest

theorem cr_notMem_optional :
    '\r' ∉ (mount.optional.flatMap fun field => field ++ [' ']) ++ ['-'] := by
  rw [mem_append, mem_flatMap, not_or]
  constructor
  · intro hmem
    obtain ⟨field, hfield, hmem⟩ := hmem
    rcases mem_append.mp hmem with hmem | hmem
    · exact cr_notMem_of_isWord (mount.optional_word field hfield).1.2 hmem
    · exact absurd hmem (by decide)
  · decide

theorem notMem_of_subset {word : List Char} (hsub : word ⊆ text)
    (htext : ' ' ∉ text) : ' ' ∉ word :=
  fun hmem => htext (hsub hmem)

theorem after_cr (heq : mount.body = before ++ '\r' :: after) : ∃ word, ' ' ∉ word ∧
    (after = word ++ ' ' :: (escape pathEscaped mount.mountpoint ++
        ' ' :: (mount.opts ++ ' ' :: mount.extra)) ∨
      after = word ++ ' ' :: (mount.opts ++ ' ' :: mount.extra) ∨
      after = word ++ ' ' :: mount.superOpts) := by
  obtain ⟨before, heq⟩ := skip_append_cons (notMem_decimal rfl _) heq
  obtain ⟨before, heq⟩ := skip_append_cons (notMem_decimal rfl _) heq
  obtain ⟨before, heq⟩ := skip_append_cons cr_notMem_numbers heq
  rcases append_cons_eq_append_cons (by decide) heq with
    ⟨_, word, hsub, hafter⟩ | ⟨before, heq⟩
  · exact ⟨word, notMem_of_subset hsub notMem_escape_path, Or.inl hafter⟩
  rcases append_cons_eq_append_cons (by decide) heq with
    ⟨_, word, hsub, hafter⟩ | ⟨before, heq⟩
  · exact ⟨word, notMem_of_subset hsub notMem_escape_path, Or.inr (Or.inl hafter)⟩
  obtain ⟨before, heq⟩ := skip_append_cons (cr_notMem_of_isWord not_isSpace_opts) heq
  have hextra : mount.extra = ((mount.optional.flatMap fun field => field ++ [' ']) ++ ['-']) ++
        ' ' :: mount.fields := by
    simp [extra, fields]
  rw [hextra] at heq
  obtain ⟨before, heq⟩ := skip_append_cons cr_notMem_optional heq
  obtain ⟨before, heq⟩ := skip_append_cons (cr_notMem_of_isWord mount.fsType_word.1.2) heq
  rcases append_cons_eq_append_cons (by decide) heq with
    ⟨_, word, hsub, hafter⟩ | ⟨before, heq⟩
  · exact ⟨word, notMem_of_subset hsub notMem_escape_source, Or.inr (Or.inr hafter)⟩
  · exfalso
    apply cr_notMem_of_isWord (@not_isSpace_superOpts mount)
    rw [heq]
    simp

theorem toInt_opts : toInt rt mount.opts = .error .valueError := toInt_letter _

theorem unreadable_of_opts {line : List Char} {rest : List (List Char)}
    (hparts : (∃ word, splitLimit ' ' 6 line = word :: mount.opts :: rest) ∨
      ∃ word second, splitLimit ' ' 6 line = word :: second :: mount.opts :: rest) :
    Unreadable rt line := by
  intro entry hok
  obtain ⟨mntId, parentId, majMin, _, _, _, _, _, _, _, _, hsplit, _, _,
    hentry⟩ := mntentDict_eq_ok hok
  obtain ⟨major, minor, hnumbers, hmajor, _, hparent, _⟩ := entryOfParts_eq_ok hentry
  rw [hsplit] at hparts
  rcases hparts with ⟨word, heq⟩ | ⟨word, second, heq⟩
  · simp only [List.cons.injEq] at heq
    rw [heq.2.1, toInt_opts] at hparent
    cases hparent
  · simp only [List.cons.injEq] at heq
    rw [heq.2.2.1] at hnumbers
    -- what stands before a colon begins with the same letter
    obtain ⟨head, tail, hcolon⟩ := exists_cons_of_ne_nil (splitOn_ne_nil ':' (mount.opts.tail))
    have hopts : mount.opts = 'r' :: mount.opts.tail := rfl
    rw [hopts, splitOn_cons_eq_if_modifyHead, if_neg (by decide), hcolon,
      modifyHead_cons] at hnumbers
    rw [← (List.cons.inj hnumbers).1, toInt_letter] at hmajor
    cases hmajor

theorem unreadable_of_after_cr (heq : mount.body = before ++ '\r' :: after) :
    Unreadable rt (firstLine after) := by
  have hsep : ' ' ≠ '\n' ∧ ' ' ≠ '\r' := by decide
  have hopts := notMem_of_isWord (@not_isSpace_opts mount)
  have hcr := cr_notMem_of_isWord (@not_isSpace_opts mount)
  obtain ⟨word, hword, hafter⟩ := after_cr heq
  by_cases hbroken : '\r' ∈ word
  · apply unreadable_of_length
    rcases hafter with hafter | hafter | hafter
    all_goals
      rw [hafter, splitLimit_firstLine hsep hword, if_pos hbroken]
      simp
  rcases hafter with hafter | hafter | hafter
  · by_cases hmountpoint : '\r' ∈ escape pathEscaped mount.mountpoint
    · apply unreadable_of_length
      rw [hafter, splitLimit_firstLine hsep hword, if_neg hbroken,
        splitLimit_firstLine hsep notMem_escape_path, if_pos hmountpoint]
      simp
    · apply unreadable_of_opts
      rw [hafter, splitLimit_firstLine hsep hword, if_neg hbroken,
        splitLimit_firstLine hsep notMem_escape_path, if_neg hmountpoint,
        splitLimit_firstLine hsep hopts, if_neg hcr]
      exact Or.inr ⟨_, _, rfl⟩
  · apply unreadable_of_opts
    rw [hafter, splitLimit_firstLine hsep hword, if_neg hbroken,
      splitLimit_firstLine hsep hopts, if_neg hcr]
    exact Or.inl ⟨_, rfl⟩
  · apply unreadable_of_length
    have hsuper : ' ' ∉ firstLine mount.superOpts := by
      intro hmem
      exact notMem_of_isWord not_isSpace_superOpts
        (mem_of_mem_firstLine hmem hsep.1)
    rw [hafter, splitLimit_firstLine hsep hword, if_neg hbroken,
      splitLimit_of_notMem hsuper]
    simp

theorem newline_notMem_body : '\n' ∉ mount.body := by
  have hescape (escaped : Char → Bool) (text : List Char)
      (hnewline : escaped '\n') : '\n' ∉ escape escaped text := by
    rw [mem_escape_iff rfl]
    simp [hnewline]
  have hword {text : List Char} (hword : ∀ c ∈ text, isSpace c = false) : '\n' ∉ text := by
    intro hmem
    have hspace := hword '\n' hmem
    cases hspace
  have hoptional : '\n' ∉ mount.optional.flatMap fun field => field ++ [' '] := by
    rw [mem_flatMap]
    intro hmem
    obtain ⟨field, hfield, hmem⟩ := hmem
    rcases mem_append.mp hmem with hmem | hmem
    · exact hword (mount.optional_word field hfield).1.2 hmem
    · exact absurd hmem (by decide)
  simp [body, extra, numbers, notMem_decimal, hescape pathEscaped _ rfl,
    hescape sourceEscaped _ rfl, hword not_isSpace_opts,
    hword not_isSpace_superOpts, hword mount.fsType_word.1.2, hoptional]

def lines (mount : Mount) : List (List Char) :=
  readLines (mount.body ++ ['\n'])

theorem lines_eq_cons (rt : MountRuntime) (mount : Mount) :
    ∃ pieces, mount.lines = firstLine mount.body :: pieces ∧
      ∀ piece ∈ pieces, Unreadable rt piece := by
  obtain ⟨pieces, hlines, hpieces⟩ := readLines_eq_cons mount.body newline_notMem_body
  refine ⟨pieces, hlines, ?_⟩
  intro piece hpiece
  obtain ⟨before, after, heq, hafter⟩ := hpieces piece hpiece
  rw [hafter]
  exact unreadable_of_after_cr heq

theorem exists_unreadable (rt : MountRuntime) (hcr : '\r' ∈ mount.body) :
    ∃ line ∈ mount.lines, Unreadable rt line := by
  obtain ⟨before, after, heq, hbefore⟩ := eq_append_cons_of_mem hcr
  have hlf := @newline_notMem_body mount
  rw [heq, mem_append, mem_cons, not_or, not_or] at hlf
  cases after with
  | nil =>
    obtain ⟨word, _, hafter⟩ := after_cr heq
    simp at hafter
  | cons c after =>
    obtain ⟨pieces, hpieces, _⟩ := readLines_eq_cons (c :: after) hlf.2.2
    have hc : c ≠ '\n' := fun hc => hlf.2.2 (by simp [hc])
    have hread := @readLines_cr before (after ++ ['\n']) c hbefore hlf.1 hc
    refine ⟨firstLine (c :: after), ?_, unreadable_of_after_cr heq⟩
    rw [lines, heq, append_assoc]
    change _ ∈ readLines (before ++ '\r' :: c :: (after ++ ['\n']))
    rw [hread, ← cons_append, hpieces]
    simp

theorem cr_notMem_body (hroot : '\r' ∉ mount.root)
    (hmountpoint : '\r' ∉ mount.mountpoint) (hsource : '\r' ∉ mount.source) :
    '\r' ∉ mount.body := by
  rw [← cr_mem_escape_path] at hroot hmountpoint
  rw [← cr_mem_escape_source] at hsource
  have hoptional := @cr_notMem_optional mount
  rw [mem_append, not_or] at hoptional
  simp [body, extra, cr_notMem_numbers, notMem_decimal, hroot, hmountpoint,
    hsource, cr_notMem_of_isWord not_isSpace_opts,
    cr_notMem_of_isWord not_isSpace_superOpts,
    cr_notMem_of_isWord mount.fsType_word.1.2, hoptional.1]

theorem Parsed.firstLine_eq (hparsed : mount.Parsed) :
    firstLine mount.body = mount.body ++ ['\n'] :=
  firstLine_of_notMem (cr_notMem_body hparsed.root hparsed.mountpoint hparsed.source)

theorem Parsed.lines_eq (hparsed : mount.Parsed) : mount.lines = [mount.body ++ ['\n']] := by
  have hcr := cr_notMem_body hparsed.root hparsed.mountpoint hparsed.source
  rw [lines, readLines, linesFrom_append_of_notMem hcr newline_notMem_body,
    linesFrom_cons (Or.inl rfl)]
  rfl

theorem parsed_of_lines {mount : Mount}
    (hall : ∀ line ∈ mount.lines, ¬Unreadable rt line) : mount.Parsed := by
  have hcr : '\r' ∉ mount.body := by
    intro hcr
    obtain ⟨line, hline, hunreadable⟩ := exists_unreadable rt hcr
    exact hall line hline hunreadable
  obtain ⟨pieces, hlines, _⟩ := lines_eq_cons rt mount
  have hfirst := hall (firstLine mount.body) (by rw [hlines]; simp)
  rw [Unreadable, not_forall_not] at hfirst
  obtain ⟨entry, hok⟩ := hfirst
  obtain ⟨hroot, hmountpoint, _⟩ := mountId_of_firstLine hok
  have hsource : '\r' ∉ mount.source := by
    intro hsource
    rw [← cr_mem_escape_source] at hsource
    apply hcr
    simp [body, extra, hsource]
  rw [firstLine_of_notMem hcr] at hok
  exact parsed_of_mntentDict hroot hmountpoint hsource hok

structure Readable (mount : Mount) : Prop where
  optional : mount.optional ≠ []
  root : Survives pathEscaped mount.root ∧ '\r' ∉ mount.root
  mountpoint : Survives pathEscaped mount.mountpoint ∧ '\r' ∉ mount.mountpoint
  source : Survives sourceEscaped mount.source
  source_word : ∀ c ∈ mount.source, isSpace c → c = ' '
  source_ne : mount.source ≠ [] ∧ mount.source ≠ ['-']

theorem sourceEscaped_lt : ∀ c, sourceEscaped c → c.toNat < 512 := by
  intro c hc
  simp only [sourceEscaped, pathEscaped, Bool.or_eq_true, decide_eq_true_eq] at hc
  rcases hc with (((hc | hc) | hc) | hc) | hc
  all_goals
    rw [hc]
    decide

theorem pathEscaped_lt (c : Char) (hc : pathEscaped c) : c.toNat < 512 :=
  sourceEscaped_lt c (by simp [sourceEscaped, hc])

theorem words_escape_source (hne : mount.source ≠ [])
    (hword : ∀ c ∈ mount.source, isSpace c → c = ' ') :
    words (escape sourceEscaped mount.source) = [escape sourceEscaped mount.source] := by
  apply words_eq_singleton
  · have hpos := length_pos_iff.mpr hne
    rw [← length_pos_iff, length_escape]
    omega
  · intro c hc
    by_contra hspace
    rw [Bool.not_eq_false] at hspace
    obtain ⟨hmem, hplain⟩ := (mem_escape_iff hspace).mp hc
    rw [hword c hmem hspace] at hplain
    cases hplain

theorem Readable.parsed (hreadable : mount.Readable) : mount.Parsed where
  root := hreadable.root.2
  mountpoint := hreadable.mountpoint.2
  source := by
    intro hmem
    exact absurd (hreadable.source_word '\r' hmem rfl) (by decide)
  optional := hreadable.optional
  source_ne := hreadable.source_ne.2
  source_word := by
    rw [words_escape_source hreadable.source_ne.1 hreadable.source_word]
    rfl

theorem mntentDict_of_readable (hreadable : mount.Readable) :
    mntentDict rt (firstLine mount.body) = .ok (mount.entry rt) := by
  have hparsed := hreadable.parsed
  have hpath {text : List Char} (htext : Survives pathEscaped text) :
      unescape (escape pathEscaped text) = text :=
    (unescape_escape_eq_self_iff rfl pathEscaped_lt).mpr htext
  have hsource : unescape (escape sourceEscaped mount.source) = mount.source :=
    (unescape_escape_eq_self_iff rfl sourceEscaped_lt).mpr hreadable.source
  rw [hparsed.firstLine_eq, mntentDict_of_parsed hparsed]
  simp only [found, entry, hpath hreadable.root.1, hpath hreadable.mountpoint.1,
    words_escape_source hreadable.source_ne.1 hreadable.source_word,
    headD_cons, hsource]

theorem readable_of_mntentDict (hok : mntentDict rt (firstLine mount.body) = .ok (mount.entry rt)) :
    mount.Readable := by
  obtain ⟨hroot, hmountpoint, _⟩ := mountId_of_firstLine hok
  have hword : ∀ c ∈ mount.source, isSpace c → c = ' ' := fun c hc => eq_of_mem_mountSource hok hc
  have hsource : '\r' ∉ mount.source := by
    intro hmem
    exact absurd (hword '\r' hmem rfl) (by decide)
  rw [firstLine_of_notMem (cr_notMem_body hroot hmountpoint hsource)] at hok
  have hparsed := parsed_of_mntentDict hroot hmountpoint hsource hok
  rw [mntentDict_of_parsed hparsed] at hok
  have hfound := Except.ok.inj hok
  have hne : mount.source ≠ [] := by
    intro hnil
    have hlength := hparsed.source_word
    rw [hnil] at hlength
    cases hlength
  have hsourceEq := congrArg MountEntry.mountSource hfound
  simp only [found, words_escape_source hne hword, headD_cons] at hsourceEq
  exact {
    optional := hparsed.optional
    root := ⟨(unescape_escape_eq_self_iff rfl pathEscaped_lt).mp
      (congrArg MountEntry.root hfound), hroot⟩
    mountpoint := ⟨(unescape_escape_eq_self_iff rfl pathEscaped_lt).mp
      (congrArg MountEntry.mountpoint hfound), hmountpoint⟩
    source := (unescape_escape_eq_self_iff rfl sourceEscaped_lt).mp hsourceEq
    source_word := hword
    source_ne := ⟨hne, hparsed.source_ne⟩ }

theorem Readable.found_eq (hreadable : mount.Readable) : mount.found rt = mount.entry rt := by
  have hentry := @mntentDict_of_readable rt mount hreadable
  rw [hreadable.parsed.firstLine_eq, mntentDict_of_parsed hreadable.parsed] at hentry
  exact Except.ok.inj hentry

theorem Parsed.readable_of_found (hparsed : mount.Parsed)
    (hfound : mount.found rt = mount.entry rt) : mount.Readable := by
  apply @readable_of_mntentDict rt
  rw [hparsed.firstLine_eq, mntentDict_of_parsed hparsed, hfound]

end Mount

end Middlewared
