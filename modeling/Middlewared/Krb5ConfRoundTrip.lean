import Middlewared.DictSpelling
import Middlewared.Krb5ConfErrors

/-!
# Writing a section of `krb5.conf` and reading it back

What the parser puts into a section are texts that a line can carry, so that nothing else can come
back.
-/

namespace Middlewared

open PyString List Dict

variable {rt : Krb5Text} {sect : Krb5ConfSection}

/-- A text that a line can carry, and not the opening bracket. -/
def Krb5Value.IsWritable : Krb5Value → Prop
  | .text value => IsPlain '=' value ∧ value ≠ "\x7b"
  | _ => False

def Krb5Entry.IsWritable : Krb5Entry → Prop
  | .value content => content.IsWritable
  | .dict params => ∀ entry ∈ params.entries, IsPlain '=' entry.1 ∧ entry.2.IsWritable

def Krb5Config.IsWritable (config : Krb5Config) : Prop :=
  ∀ entry ∈ config.entries, IsPlain '=' entry.1 ∧ entry.2.IsWritable

def Krb5Value.IsPlainText : Krb5Value → Prop
  | .text value => IsPlain '=' value
  | _ => False

def Krb5Entry.IsPlainText : Krb5Entry → Prop
  | .value content => content.IsPlainText
  | .dict params => ∀ entry ∈ params.entries, IsPlain '=' entry.1 ∧ entry.2.IsPlainText

def Krb5Config.IsPlainText (config : Krb5Config) : Prop :=
  ∀ entry ∈ config.entries, IsPlain '=' entry.1 ∧ entry.2.IsPlainText

variable {content : Krb5Value}

theorem Krb5Value.IsPlainText.exists_text (hplain : content.IsPlainText) :
    ∃ text, content = .text text ∧ IsPlain '=' text := by
  cases content with
  | text text => exact ⟨text, rfl, hplain⟩
  | number n => exact hplain.elim
  | list items => exact hplain.elim

theorem Krb5Value.IsWritable.exists_text (hwritable : content.IsWritable) :
    ∃ text, content = .text text ∧ IsPlain '=' text ∧ text ≠ "\x7b" := by
  cases content with
  | text text => exact ⟨text, rfl, hwritable⟩
  | number n => exact hwritable.elim
  | list items => exact hwritable.elim

variable {param : String}

theorem isPlain_readKrb5Line {line : String} (hbreak : HasNoLineBreak line) :
    (readKrb5Line line = .opening param → IsPlain '=' param) ∧
      ∀ value, readKrb5Line line = .relation param value →
        IsPlain '=' param ∧ IsPlain '=' value := by
  have hfirst : IsPlain '=' (strip ((splitAll '=' line).headD "")) := by
    apply isPlain_strip_of_mem_splitAll hbreak
    cases hsplit : splitAll '=' line with
    | nil => exact absurd hsplit (splitAll_ne_nil _ _)
    | cons first rest => exact mem_cons_self
  unfold readKrb5Line
  constructor
  · intro hopening
    split at hopening
    · cases hopening
    · split at hopening
      · rw [← Krb5Line.opening.inj hopening]
        exact hfirst
      · split at hopening
        · cases hopening
        · split at hopening <;> cases hopening
  · intro value hrelation
    split at hrelation
    · cases hrelation
    · split at hrelation
      · cases hrelation
      · split at hrelation
        · cases hrelation
        · split at hrelation
          · cases hrelation
          · rename_i part hpart
            obtain ⟨hparam, hvalue⟩ := Krb5Line.relation.inj hrelation
            rw [← hparam, ← hvalue]
            exact ⟨hfirst, isPlain_strip_of_mem_splitAll hbreak (mem_of_getElem? hpart)⟩

def relationLine (param value : String) : Krb5Line :=
  if value = "\x7b" then .opening param else .relation param value

variable {indent : String}

theorem readKrb5Line_relation {value : String}
    (hindent : ∀ c ∈ indent.toList, isSpace c = true ∧ c ≠ '=')
    (hparam : IsPlain '=' param) (hend : param ≠ "\x7d" ∨ value = "\x7b")
    (hvalue : IsPlain '=' value) :
    readKrb5Line (indent ++ param ++ " = " ++ value) = relationLine param value := by
  have hblank : ∀ c ∈ " ".toList, isSpace c = true := by
    intro c hc
    have heq : c = ' ' := by simpa using hc
    rw [heq]
    decide
  have hnotMem : '=' ∉ (indent ++ param ++ " ").toList := by
    rw [String.toList_append, String.toList_append, mem_append, mem_append, not_or, not_or]
    refine ⟨⟨fun hmem => (hindent _ hmem).2 rfl, hparam.notMem⟩, by decide⟩
  have hvalueMem : '=' ∉ (" " ++ value).toList := by
    rw [String.toList_append, mem_append, not_or]
    exact ⟨by decide, hvalue.notMem⟩
  have hline : indent ++ param ++ " = " ++ value =
      indent ++ param ++ " " ++ String.singleton '=' ++ (" " ++ value) := by
    simp [← String.toList_inj]
  have hsplit : splitAll '=' (indent ++ param ++ " = " ++ value) =
      [indent ++ param ++ " ", " " ++ value] := by
    rw [hline, splitAll_append _ _ hnotMem, splitAll_of_notMem hvalueMem]
  have hfirst : strip (indent ++ param ++ " ") = param := by
    rw [strip_pad param (fun c hc => (hindent c hc).1) hblank, hparam.strip_eq]
  have hlast : strip (" " ++ value) = value := by
    have hpad : strip (" " ++ value ++ "") = strip value := strip_pad value hblank nofun
    rw [String.append_empty, hvalue.strip_eq] at hpad
    exact hpad
  have hne : strip (indent ++ param ++ " = " ++ value) ≠ "" :=
    strip_ne_empty_of_mem (c := '=') (by simp) (by decide)
  unfold readKrb5Line relationLine
  rw [if_neg hne, hsplit]
  simp only [getLastD_cons, getLastD_nil, headD_cons,
    getElem?_cons_succ, getElem?_cons_zero, hfirst, hlast]
  by_cases hbegin : value = "\x7b"
  · rw [if_pos hbegin, if_pos hbegin]
  · rw [if_neg hbegin, if_neg hbegin, if_neg (hend.resolve_right hbegin)]

theorem isPlain_begin : IsPlain '=' "\x7b" where
  strip_eq := by decide
  notMem := by decide
  hasNoLineBreak := by simp [HasNoLineBreak, isLineBreak]

theorem hasNoLineBreak_append {first rest : String}
    (hfirst : HasNoLineBreak first) (hrest : HasNoLineBreak rest) :
    HasNoLineBreak (first ++ rest) := by
  unfold HasNoLineBreak at *
  rw [String.toList_append, forall_mem_append]
  exact ⟨hfirst, hrest⟩

def paramLine (indent : String) (entry : String × Krb5Value) : String :=
  indent ++ entry.1 ++ " = " ++ entry.2.str

def entryTextLines (entry : String × Krb5Entry) : List String :=
  match entry.2 with
  | .value content => [paramLine "\t" (entry.1, content)]
  | .dict params =>
    paramLine "\t" (entry.1, .text "\x7b") :: params.entries.map (paramLine "\t\t") ++ ["\t\x7d"]

def entryLines (entry : String × Krb5Entry) : List Krb5Line :=
  match entry.2 with
  | .value content => [relationLine entry.1 content.str]
  | .dict params =>
    .opening entry.1 :: (params.entries.map fun param => relationLine param.1 param.2.str) ++
        [.closing]

section

variable (name : String) (content : Krb5Value) (params : Dict String Krb5Value)

@[simp] theorem entryTextLines_value :
    entryTextLines (name, .value content) = [paramLine "\t" (name, content)] := rfl

@[simp] theorem entryTextLines_dict :
    entryTextLines (name, .dict params) = paramLine "\t" (name, .text "\x7b") ::
        params.entries.map (paramLine "\t\t") ++ ["\t\x7d"] := rfl

@[simp] theorem entryLines_value :
    entryLines (name, .value content) = [relationLine name content.str] := rfl

@[simp] theorem entryLines_dict :
    entryLines (name, .dict params) = .opening name ::
        (params.entries.map fun param => relationLine param.1 param.2.str) ++ [.closing] := rfl

end

theorem dumpKrb5Value_of_isPlainText {parm : String}
    (hplain : content.IsPlainText) : dumpKrb5Value parm content =
    some (paramLine "\t" (parm, content) ++ "\n") := by
  obtain ⟨text, rfl, _⟩ := hplain.exists_text
  rfl

theorem dumpKrb5Params_of_isPlainText (out : String) {params : List (String × Krb5Value)}
    (hplain : ∀ entry ∈ params, entry.2.IsPlainText) :
    dumpKrb5Params out params = out ++ unlines (params.map (paramLine "\t\t")) := by
  unfold dumpKrb5Params
  induction params generalizing out with
  | nil => simp
  | cons entry rest ih =>
    rw [forall_mem_cons] at hplain
    rw [foldl_cons, dumpKrb5Value_of_isPlainText hplain.1, ih _ hplain.2, map_cons, unlines_cons]
    simp [paramLine, ← String.toList_inj]

variable {entry : String × Krb5Entry}

theorem dumpKrb5Parameter_of_isPlainText (hplain : entry.2.IsPlainText) :
    dumpKrb5Parameter entry.1 entry.2 = some (unlines (entryTextLines entry)) := by
  obtain ⟨parm, content | params⟩ := entry
  · unfold dumpKrb5Parameter entryTextLines
    dsimp only
    rw [dumpKrb5Value_of_isPlainText hplain, unlines_cons]
    simp
  · unfold dumpKrb5Parameter entryTextLines
    dsimp only
    rw [dumpKrb5Params_of_isPlainText _ fun entry hentry =>
      (hplain entry hentry).2, unlines_append, unlines_cons, unlines_cons]
    simp [paramLine, Krb5Value.str, ← String.toList_inj]

variable {entries : List (String × Krb5Entry)}

theorem foldlM_entryTextLines
    {f : String → String × Krb5Entry → Except Krb5Error String} (kconf : String)
    (hstep : ∀ kconf, ∀ entry ∈ entries,
      f kconf entry = .ok (kconf ++ unlines (entryTextLines entry))) :
    entries.foldlM f kconf = .ok (kconf ++ unlines (entries.flatMap entryTextLines)) := by
  induction entries generalizing kconf with
  | nil => simp [pure, Except.pure]
  | cons entry rest ih =>
    rw [foldlM_cons, hstep kconf entry mem_cons_self, ok_bind, ih _ fun kconf other hother =>
        hstep kconf other (mem_cons_of_mem entry hother),
      flatMap_cons, unlines_append, String.append_assoc]

variable {config : Krb5Config}

theorem generateKrb5Section_of_isPlainText (hplain : config.IsPlainText) :
    generateKrb5Section sect config = .ok ("[" ++ sect.lowerName ++ "]\n" ++
        unlines (config.entries.flatMap entryTextLines ++ [""])) := by
  unfold generateKrb5Section generateKrb5Params
  rw [foldlM_entryTextLines, ok_bind, unlines_append]
  · simp [pure, Except.pure, unlines_cons, ← String.toList_inj]
  · intro kconf entry hentry
    rw [dumpKrb5Parameter_of_isPlainText (hplain entry hentry).2]

/-! ## The lines of a section -/

theorem hasNoLineBreak_paramLine {entry : String × Krb5Value}
    (hindent : HasNoLineBreak indent) (hname : IsPlain '=' entry.1)
    (hplain : entry.2.IsPlainText) :
    HasNoLineBreak (paramLine indent entry) := by
  obtain ⟨text, htext, hplain⟩ := hplain.exists_text
  have hseparator : HasNoLineBreak " = " := by
    simp [HasNoLineBreak, isLineBreak]
  rw [paramLine, htext]
  exact hasNoLineBreak_append (hasNoLineBreak_append
    (hasNoLineBreak_append hindent hname.hasNoLineBreak) hseparator)
    hplain.hasNoLineBreak

theorem hasNoLineBreak_entryTextLines (hname : IsPlain '=' entry.1) (hplain : entry.2.IsPlainText) :
    ∀ line ∈ entryTextLines entry, HasNoLineBreak line := by
  have htab : HasNoLineBreak "\t" := by simp [HasNoLineBreak, isLineBreak]
  have htabs : HasNoLineBreak "\t\t" := by simp [HasNoLineBreak, isLineBreak]
  have hend : HasNoLineBreak "\t\x7d" := by
    simp [HasNoLineBreak, isLineBreak]
  obtain ⟨name, content | params⟩ := entry
  · intro line hline
    rw [entryTextLines_value, mem_singleton] at hline
    rw [hline]
    exact hasNoLineBreak_paramLine htab hname hplain
  · intro line hline
    rw [entryTextLines_dict, cons_append, mem_cons, mem_append, mem_singleton] at hline
    rcases hline with hline | hline | hline
    · rw [hline]
      exact hasNoLineBreak_paramLine htab hname isPlain_begin
    · obtain ⟨param, hparam, rfl⟩ := List.mem_map.mp hline
      exact hasNoLineBreak_paramLine htabs (hplain param hparam).1 (hplain param hparam).2
    · rw [hline]
      exact hend

theorem validateKrb5Parameter_ne_end
    (hvalid : validateKrb5Parameter rt sect param content = .ok ()) :
    param ≠ "\x7d" := by
  rintro rfl
  have happ : krbAppDefaults.lookup "\x7d" = none := by decide
  have hlib : krbLibDefaults.lookup "\x7d" = none := by decide
  unfold validateKrb5Parameter at hvalid
  rw [rt.upper_end] at hvalid
  cases sect <;> simp only [Krb5ConfSection.sectionEnum, happ, hlib] at hvalid <;> cases hvalid

theorem readKrb5Line_paramLine {entry : String × Krb5Value}
    (hindent : ∀ c ∈ indent.toList, isSpace c = true ∧ c ≠ '=')
    (hname : IsPlain '=' entry.1) (hplain : entry.2.IsPlainText)
    (hvalid : validateKrb5Parameter rt sect entry.1 entry.2 = .ok ()) :
    readKrb5Line (paramLine indent entry) = relationLine entry.1 entry.2.str := by
  obtain ⟨text, htext, hplain⟩ := hplain.exists_text
  rw [paramLine, htext]
  exact readKrb5Line_relation hindent hname (Or.inl (validateKrb5Parameter_ne_end hvalid)) hplain

theorem isSpace_of_mem_tabs (hindent : indent = "\t" ∨ indent = "\t\t") :
    ∀ c ∈ indent.toList, isSpace c = true ∧ c ≠ '=' := by
  intro c hc
  have htab : c = '\t' := by
    rcases hindent with rfl | rfl <;> simpa using hc
  rw [htab]
  decide

theorem map_readKrb5Line_entryTextLines (hname : IsPlain '=' entry.1) (hplain : entry.2.IsPlainText)
    (hvalid : validateKrb5Entry rt sect entry.1 entry.2 = .ok ()) :
    (entryTextLines entry).map readKrb5Line = entryLines entry := by
  have htab := isSpace_of_mem_tabs (Or.inl rfl)
  have htabs := isSpace_of_mem_tabs (Or.inr rfl)
  obtain ⟨name, content | params⟩ := entry
  · have hline := @readKrb5Line_paramLine rt sect "\t" (name, content) htab hname hplain hvalid
    rw [entryTextLines_value, entryLines_value, map_singleton, hline]
  · have hrelation : readKrb5Line ("\t" ++ name ++ " = " ++ "\x7b") = relationLine name "\x7b" :=
      readKrb5Line_relation htab hname (Or.inr rfl) isPlain_begin
    have hopening : readKrb5Line (paramLine "\t" (name, .text "\x7b")) = .opening name := by
      rw [paramLine, Krb5Value.str, hrelation, relationLine, if_pos rfl]
    have hclosing : readKrb5Line "\t\x7d" = .closing := by decide
    rw [validateKrb5Entry, forM_eq_ok_iff] at hvalid
    have hparams : (params.entries.map (paramLine "\t\t")).map readKrb5Line =
        params.entries.map fun param =>
          relationLine param.1 param.2.str := by
      rw [List.map_map]
      apply map_congr_left
      intro param hparam
      have hentry := hplain param hparam
      rw [Function.comp_apply, readKrb5Line_paramLine htabs hentry.1 hentry.2 (hvalid param hparam)]
    rw [entryTextLines_dict, entryLines_dict, map_append, map_cons,
      hopening, hparams, map_singleton, hclosing]

theorem krb5Lines_body (hplain : config.IsPlainText) (hvalid : ∀ entry ∈ config.entries,
      validateKrb5Entry rt sect entry.1 entry.2 = .ok ()) :
    krb5Lines (unlines (config.entries.flatMap entryTextLines ++ [""])) =
      config.entries.flatMap entryLines ++ [.blank] := by
  have hbreaks : ∀ line ∈ config.entries.flatMap entryTextLines ++ [""], HasNoLineBreak line := by
    rw [forall_mem_append, forall_mem_singleton]
    refine ⟨?_, nofun⟩
    intro line hline
    obtain ⟨entry, hentry, hline⟩ := List.mem_flatMap.mp hline
    exact hasNoLineBreak_entryTextLines (hplain entry hentry).1 (hplain entry hentry).2 line hline
  have hblank : readKrb5Line "" = .blank := by decide
  unfold krb5Lines
  rw [splitlines_unlines hbreaks, map_append, map_singleton, hblank, map_flatMap]
  congr 1
  apply flatMap_congr
  intro entry hentry
  exact map_readKrb5Line_entryTextLines (hplain entry hentry).1
    (hplain entry hentry).2 (hvalid entry hentry)

/-! ## Reading a section -/

def insideOf (conf : Krb5Config) (name : String)
    (params : Dict String Krb5Value) : Krb5ParseState where
  sectionConf := conf.set name (.dict params)
  target := some (name, params)

variable {conf : Krb5Config} {name : String} {params : Dict String Krb5Value}

theorem step_relationLine_inside (hwritable : content.IsWritable)
    (hvalid : validateKrb5Parameter rt sect param content = .ok ()) :
    (insideOf conf name params).step rt sect (relationLine param content.str) =
      .ok (insideOf conf name (params.set param content)) := by
  obtain ⟨text, rfl, _, hbegin⟩ := hwritable.exists_text
  unfold relationLine Krb5Value.str
  rw [if_neg hbegin, Krb5ParseState.step, hvalid, ok_bind]
  simp only [Krb5ParseState.setTarget, insideOf, Dict.set_set, pure, Except.pure]

theorem foldlM_relationLines (params : Dict String Krb5Value) {entries : List (String × Krb5Value)}
    (hwritable : ∀ entry ∈ entries, entry.2.IsWritable)
    (hvalid : ∀ entry ∈ entries, validateKrb5Parameter rt sect entry.1 entry.2 = .ok ()) :
    (entries.map fun param => relationLine param.1 param.2.str).foldlM
        (Krb5ParseState.step rt sect) (insideOf conf name params) =
      .ok (insideOf conf name (params.update entries)) := by
  induction entries generalizing params with
  | nil => rfl
  | cons entry rest ih =>
    rw [forall_mem_cons] at hwritable hvalid
    rw [map_cons, foldlM_cons, step_relationLine_inside hwritable.1 hvalid.1, ok_bind,
      ih _ hwritable.2 hvalid.2]
    rfl

theorem foldlM_entryLines (hwritable : entry.2.IsWritable)
    (hvalid : validateKrb5Entry rt sect entry.1 entry.2 = .ok ()) :
    (entryLines entry).foldlM (Krb5ParseState.step rt sect) ⟨conf, none⟩ =
      .ok ⟨conf.set entry.1 entry.2, none⟩ := by
  obtain ⟨name, content | params⟩ := entry
  · rw [entryLines_value, foldlM_cons]
    have hcontent : content.IsWritable := hwritable
    obtain ⟨text, rfl, _, hbegin⟩ := hcontent.exists_text
    rw [validateKrb5Entry] at hvalid
    unfold relationLine Krb5Value.str
    rw [if_neg hbegin, Krb5ParseState.step, hvalid, ok_bind]
    rfl
  · rw [validateKrb5Entry, forM_eq_ok_iff] at hvalid
    have hparams : ∀ entry ∈ params.entries, entry.2.IsWritable :=
      fun entry hentry => (hwritable entry hentry).2
    have hopening : Krb5ParseState.step rt sect ⟨conf, none⟩ (.opening name) =
        .ok (insideOf conf name Dict.empty) := rfl
    have hinside : (params.entries.map fun param =>
        relationLine param.1 param.2.str).foldlM
          (Krb5ParseState.step rt sect) (insideOf conf name Dict.empty) =
        .ok (insideOf conf name (Dict.empty.update params.entries)) :=
      foldlM_relationLines Dict.empty hparams hvalid
    rw [update_empty_entries] at hinside
    rw [entryLines_dict, cons_append, foldlM_cons, hopening, ok_bind,
      foldlM_append, hinside, ok_bind]
    rfl

theorem foldlM_flatMap_entryLines (conf : Krb5Config)
    (hwritable : ∀ entry ∈ entries, entry.2.IsWritable)
    (hvalid : ∀ entry ∈ entries, validateKrb5Entry rt sect entry.1 entry.2 = .ok ()) :
    (entries.flatMap entryLines).foldlM (Krb5ParseState.step rt sect)
        ⟨conf, none⟩ = .ok ⟨conf.update entries, none⟩ := by
  induction entries generalizing conf with
  | nil => rfl
  | cons entry rest ih =>
    rw [forall_mem_cons] at hwritable hvalid
    rw [flatMap_cons, foldlM_append, foldlM_entryLines hwritable.1 hvalid.1, ok_bind,
      ih _ hwritable.2 hvalid.2]
    rfl

theorem Krb5Value.IsWritable.isPlainText (hwritable : content.IsWritable) :
    content.IsPlainText := by
  obtain ⟨text, rfl, hplain, _⟩ := hwritable.exists_text
  exact hplain

theorem Krb5Entry.IsWritable.isPlainText {entry : Krb5Entry}
    (hwritable : entry.IsWritable) : entry.IsPlainText := by
  cases entry with
  | value content => exact Krb5Value.IsWritable.isPlainText hwritable
  | dict params =>
    intro param hparam
    exact ⟨(hwritable param hparam).1, (hwritable param hparam).2.isPlainText⟩

theorem Krb5Config.IsWritable.isPlainText (hwritable : config.IsWritable) : config.IsPlainText :=
  fun entry hentry =>
    ⟨(hwritable entry hentry).1, (hwritable entry hentry).2.isPlainText⟩

theorem Krb5Entry.Same.refl (entry : Krb5Entry) : entry.Same entry := by
  cases entry with
  | value content => exact .value content
  | dict params => exact .dict fun _ => rfl

theorem Krb5Config.Same.refl (config : Krb5Config) : config.Same config := by
  intro param
  cases config.get? param with
  | none => exact .none
  | some entry => exact .some (Krb5Entry.Same.refl entry)

theorem roundTrips_of_isWritable (hwritable : config.IsWritable) (hvalid : ∀ entry ∈ config.entries,
      validateKrb5Entry rt sect entry.1 entry.2 = .ok ()) :
    RoundTrips rt sect config := by
  refine ⟨_, config, generateKrb5Section_of_isPlainText
    hwritable.isPlainText, ?_, Krb5Config.Same.refl config⟩
  rw [parseKrbAuxParams_eq, krb5Lines_body hwritable.isPlainText hvalid,
    foldlM_append, foldlM_flatMap_entryLines _
      (fun entry hentry => (hwritable entry hentry).2) hvalid, ok_bind,
    update_empty_entries]
  rfl

/-! ## What can be read -/

theorem forall_mem_entries_set {κ ν : Type*} [DecidableEq κ] {d : Dict κ ν}
    {p : κ × ν → Prop} (hall : ∀ entry ∈ d.entries, p entry) {k : κ} {v : ν}
    (hnew : p (k, v)) : ∀ entry ∈ (d.set k v).entries, p entry := by
  by_cases hk : k ∈ d
  · rw [entries_set_of_mem hk]
    intro entry hentry
    obtain ⟨old, hold, rfl⟩ := List.mem_map.mp hentry
    split
    · rename_i heq
      rw [heq]
      exact hnew
    · exact hall old hold
  · rw [entries_set_of_notMem hk, forall_mem_append, forall_mem_singleton]
    exact ⟨hall, hnew⟩

def Krb5Line.IsPlainLine : Krb5Line → Prop
  | .opening param => IsPlain '=' param
  | .relation param value => IsPlain '=' param ∧ IsPlain '=' value
  | _ => True

theorem isPlainLine_of_mem_krb5Lines {text : String} {line : Krb5Line}
    (hline : line ∈ krb5Lines text) : line.IsPlainLine := by
  obtain ⟨source, hsource, rfl⟩ := List.mem_map.mp hline
  have hbreak := hasNoLineBreak_of_mem_splitlines hsource
  cases hread : readKrb5Line source with
  | opening param => exact (isPlain_readKrb5Line hbreak).1 hread
  | relation param value => exact (isPlain_readKrb5Line hbreak).2 value hread
  | _ => trivial

structure Krb5ParseState.IsPlainState (s : Krb5ParseState) : Prop where
  sectionConf : s.sectionConf.IsPlainText
  target : ∀ name params, s.target = some (name, params) →
    IsPlain '=' name ∧ (Krb5Entry.dict params).IsPlainText

variable {t : Krb5ParseState}

theorem Krb5ParseState.IsPlainState.step {s : Krb5ParseState} {line : Krb5Line}
    (hplain : s.IsPlainState) (hline : line.IsPlainLine)
    (hstep : s.step rt sect line = .ok t) : t.IsPlainState := by
  cases line with
  | blank =>
    cases hstep
    exact hplain
  | closing =>
    cases hstep
    exact ⟨hplain.sectionConf, nofun⟩
  | bare => cases hstep
  | opening param =>
    unfold Krb5ParseState.step openSubsection at hstep
    cases htarget : s.target with
    | some target =>
      rw [htarget] at hstep
      cases hstep
    | none =>
      rw [htarget] at hstep
      injection hstep with hstep
      subst hstep
      have hempty : (Krb5Entry.dict Dict.empty).IsPlainText := nofun
      refine ⟨forall_mem_entries_set hplain.sectionConf ⟨hline, hempty⟩, ?_⟩
      rintro name params ⟨⟩
      exact ⟨hline, hempty⟩
  | relation param value =>
    obtain ⟨_, _, hstep⟩ := bind_eq_ok_iff.mp hstep
    cases hstep
    unfold setTarget
    cases htarget : s.target with
    | none =>
      exact ⟨forall_mem_entries_set hplain.sectionConf hline, nofun⟩
    | some target =>
      obtain ⟨name, params⟩ := target
      obtain ⟨hname, hparams⟩ := hplain.target name params htarget
      have hset : (Krb5Entry.dict (params.set param (.text value))).IsPlainText :=
        forall_mem_entries_set hparams hline
      refine ⟨forall_mem_entries_set hplain.sectionConf ⟨hname, hset⟩, ?_⟩
      rintro name params ⟨⟩
      exact ⟨hname, hset⟩

theorem isPlainState_foldlM {s : Krb5ParseState} {lines : List Krb5Line}
    (hplain : s.IsPlainState) (hlines : ∀ line ∈ lines, line.IsPlainLine)
    (hfold : lines.foldlM (Krb5ParseState.step rt sect) s = .ok t) :
    t.IsPlainState := by
  induction lines generalizing s with
  | nil =>
    cases hfold
    exact hplain
  | cons line rest ih =>
    rw [forall_mem_cons] at hlines
    obtain ⟨middle, hstep, hrest⟩ := bind_eq_ok_iff.mp hfold
    exact ih (hplain.step hlines.1 hstep) hlines.2 hrest

theorem isPlainText_of_parseKrbAuxParams {text : String} {parsed : Krb5Config}
    (hparse : parseKrbAuxParams rt sect Dict.empty text = .ok parsed) :
    parsed.IsPlainText := by
  rw [parseKrbAuxParams_eq] at hparse
  obtain ⟨s, hfold, hparse⟩ := bind_eq_ok_iff.mp hparse
  cases hparse
  have hstart : Krb5ParseState.IsPlainState { sectionConf := Dict.empty } := ⟨nofun, nofun⟩
  exact (isPlainState_foldlM hstart (fun line => isPlainLine_of_mem_krb5Lines) hfold).sectionConf

theorem Krb5Entry.Same.isPlainText {entry other : Krb5Entry}
    (hsame : entry.Same other) (hplain : entry.IsPlainText) :
    other.IsPlainText := by
  cases hsame with
  | value content => exact hplain
  | dict hsame =>
    rintro ⟨param, content⟩ hparam
    apply hplain
    rw [mem_entries_iff, hsame param]
    exact Dict.mem_entries_iff.mp hparam

theorem Krb5Config.Same.exists_of_mem {other : Krb5Config}
    (hsame : config.Same other) {entry : Krb5Entry}
    (hmem : (name, entry) ∈ other.entries) :
    ∃ found, config.get? name = some found ∧ found.Same entry := by
  have hrel := hsame name
  rw [Dict.mem_entries_iff.mp hmem] at hrel
  cases hfound : config.get? name with
  | none =>
    rw [hfound] at hrel
    cases hrel
  | some found =>
    rw [hfound] at hrel
    cases hrel with
    | some hentry => exact ⟨found, rfl, hentry⟩

theorem Krb5Config.Same.isPlainText {other : Krb5Config}
    (hsame : config.Same other) (hplain : config.IsPlainText) :
    other.IsPlainText := by
  rintro ⟨name, entry⟩ hmem
  obtain ⟨found, hfound, hentry⟩ := hsame.exists_of_mem hmem
  have hplain := hplain (name, found) (Dict.mem_entries_iff.mpr hfound)
  exact ⟨hplain.1, hentry.isPlainText hplain.2⟩

/-! ## The opening bracket as a value -/

theorem step_opening_inside (conf : Krb5Config) (name param : String)
    (params : Dict String Krb5Value) :
    (insideOf conf name params).step rt sect (.opening param) =
      .error (.valueError "Invalid nesting of parameters") := rfl

theorem isWritable_or_eq_begin (hplain : content.IsPlainText) :
    content.IsWritable ∨ content.str = "\x7b" := by
  obtain ⟨text, rfl, hplain⟩ := hplain.exists_text
  by_cases hbegin : text = "\x7b"
  · exact Or.inr hbegin
  · exact Or.inl ⟨hplain, hbegin⟩

theorem isWritable_of_foldlM_relationLines {entries : List (String × Krb5Value)}
    (hplain : ∀ entry ∈ entries, entry.2.IsPlainText)
    (hvalid : ∀ entry ∈ entries, validateKrb5Parameter rt sect entry.1 entry.2 = .ok ())
    (hfold : (entries.map fun param =>
        relationLine param.1 param.2.str).foldlM
      (Krb5ParseState.step rt sect) (insideOf conf name params) = .ok t) :
    ∀ entry ∈ entries, entry.2.IsWritable := by
  induction entries generalizing params with
  | nil => exact nofun
  | cons entry rest ih =>
    rw [forall_mem_cons] at hplain hvalid
    rw [map_cons, foldlM_cons] at hfold
    rcases isWritable_or_eq_begin hplain.1 with hwritable | hbegin
    · rw [step_relationLine_inside hwritable hvalid.1, ok_bind] at hfold
      rw [forall_mem_cons]
      exact ⟨hwritable, ih hplain.2 hvalid.2 hfold⟩
    · rw [relationLine, if_pos hbegin, step_opening_inside, error_bind] at hfold
      cases hfold

theorem exists_dict_of_foldlM_inside (hplain : ∀ entry ∈ entries, entry.2.IsPlainText)
    (hvalid : ∀ entry ∈ entries, validateKrb5Entry rt sect entry.1 entry.2 = .ok ())
    (hfold : (entries.flatMap entryLines).foldlM
      (Krb5ParseState.step rt sect) (insideOf conf name params) = .ok t) :
    ∃ last, t.sectionConf.get? name = some (.dict last) := by
  induction entries generalizing params with
  | nil =>
    cases hfold
    exact ⟨params, get?_set_self _ _ _⟩
  | cons entry rest ih =>
    rw [forall_mem_cons] at hplain hvalid
    rw [flatMap_cons, foldlM_append] at hfold
    obtain ⟨middle, hentry, hrest⟩ := bind_eq_ok_iff.mp hfold
    obtain ⟨other, content | inner⟩ := entry
    · rw [entryLines_value, foldlM_cons] at hentry
      rcases isWritable_or_eq_begin hplain.1 with hwritable | hbegin
      · rw [step_relationLine_inside hwritable hvalid.1, ok_bind] at hentry
        cases hentry
        exact ih hplain.2 hvalid.2 hrest
      · rw [relationLine, if_pos hbegin, step_opening_inside, error_bind] at hentry
        cases hentry
    · rw [entryLines_dict, cons_append, foldlM_cons, step_opening_inside, error_bind] at hentry
      cases hentry

theorem isWritable_or_exists_dict (hplain : ∀ entry ∈ entries, entry.2.IsPlainText)
    (hvalid : ∀ entry ∈ entries, validateKrb5Entry rt sect entry.1 entry.2 = .ok ())
    (hfold : (entries.flatMap entryLines).foldlM
      (Krb5ParseState.step rt sect) ⟨conf, none⟩ = .ok t) :
    (∀ entry ∈ entries, entry.2.IsWritable) ∨
      ∃ name content last, (name, .value content) ∈ entries ∧
        t.sectionConf.get? name = some (.dict last) := by
  induction entries generalizing conf with
  | nil => exact Or.inl nofun
  | cons entry rest ih =>
    rw [forall_mem_cons] at hplain hvalid
    rw [flatMap_cons, foldlM_append] at hfold
    obtain ⟨middle, hentry, hrest⟩ := bind_eq_ok_iff.mp hfold
    have hlater : entry.2.IsWritable → (∀ other ∈ entry :: rest, other.2.IsWritable) ∨
          ∃ name content last, (name, .value content) ∈ entry :: rest ∧
            t.sectionConf.get? name = some (.dict last) := by
      intro hwritable
      rw [foldlM_entryLines hwritable hvalid.1] at hentry
      cases hentry
      rcases ih hplain.2 hvalid.2 hrest with hall | hdict
      · left
        rw [forall_mem_cons]
        exact ⟨hwritable, hall⟩
      · obtain ⟨name, content, last, hmem, hdict⟩ := hdict
        exact Or.inr ⟨name, content, last, mem_cons_of_mem _ hmem, hdict⟩
    obtain ⟨name, content | params⟩ := entry
    · rcases isWritable_or_eq_begin hplain.1 with hwritable | hbegin
      · exact hlater hwritable
      · rw [entryLines_value, foldlM_cons, relationLine, if_pos hbegin] at hentry
        cases hentry
        obtain ⟨last, hdict⟩ := exists_dict_of_foldlM_inside hplain.2 hvalid.2 hrest
        exact Or.inr ⟨name, content, last, mem_cons_self, hdict⟩
    · apply hlater
      rw [entryLines_dict, cons_append, foldlM_cons] at hentry
      obtain ⟨opened, hopening, hentry⟩ := bind_eq_ok_iff.mp hentry
      cases hopening
      rw [foldlM_append] at hentry
      obtain ⟨inner, hinner, _⟩ := bind_eq_ok_iff.mp hentry
      have hparams := hvalid.1
      rw [validateKrb5Entry, forM_eq_ok_iff] at hparams
      intro param hparam
      exact ⟨(hplain.1 param hparam).1, isWritable_of_foldlM_relationLines
        (fun entry hentry => (hplain.1 entry hentry).2) hparams hinner param
        hparam⟩

theorem isWritable_of_roundTrips (hvalid : ∀ entry ∈ config.entries,
      validateKrb5Entry rt sect entry.1 entry.2 = .ok ())
    (hround : RoundTrips rt sect config) : config.IsWritable := by
  obtain ⟨body, parsed, hgenerate, hparse, hsame⟩ := hround
  have hplain : config.IsPlainText := hsame.isPlainText (isPlainText_of_parseKrbAuxParams hparse)
  rw [generateKrb5Section_of_isPlainText hplain, Except.ok.injEq,
    String.append_right_inj] at hgenerate
  subst hgenerate
  rw [parseKrbAuxParams_eq, krb5Lines_body hplain hvalid, foldlM_append] at hparse
  obtain ⟨s, hfold, hparse⟩ := bind_eq_ok_iff.mp hparse
  obtain ⟨last, hentries, hblank⟩ := bind_eq_ok_iff.mp hfold
  cases hblank
  cases hparse
  have hcases := isWritable_or_exists_dict
    (fun entry hentry => (hplain entry hentry).2) hvalid hentries
  rcases hcases with hall | ⟨name, content, params, hmem, hdict⟩
  · exact fun entry hentry => ⟨(hplain entry hentry).1, hall entry hentry⟩
  · obtain ⟨found, hfound, hentry⟩ := hsame.exists_of_mem hmem
    rw [hdict, Option.some.injEq] at hfound
    subst hfound
    cases hentry

theorem addKrb5Parameters_eq_ok_iff {data : Krb5Config} :
    addKrb5Parameters rt sect config "" = .ok data ↔ (∀ entry ∈ config.entries,
        validateKrb5Entry rt sect entry.1 entry.2 = .ok ()) ∧
      (sect = .appdefaults ∨ sect = .libdefaults) ∧ config = data := by
  unfold addKrb5Parameters
  rw [bind_eq_ok_iff]
  constructor
  · rintro ⟨⟨⟩, hvalid, hadd⟩
    refine ⟨forM_eq_ok_iff.mp hvalid, ?_⟩
    cases sect <;> cases hadd <;> simp
  · rintro ⟨hvalid, hsect, rfl⟩
    refine ⟨(), forM_eq_ok_iff.mpr hvalid, ?_⟩
    rcases hsect with rfl | rfl <;> rfl

/-- For a text, the parser raises nothing but `ValueError` if and only if each
line without a separator comes after one that is refused; and a section that
has been accepted is read back from its text if and only if it can be
written. -/
theorem krb5_aux_iff (rt : Krb5Text) : (∀ (sect : Krb5ConfSection) (sectionConf : Krb5Config)
        (auxParams : String),
      RaisesOnlyValueError (parseKrbAuxParams rt sect sectionConf auxParams) ↔
        BareLinesFollowRefused rt sect (krb5Lines auxParams)) ∧
    ∀ (sect : Krb5ConfSection) (config : Krb5Config),
      addKrb5Parameters rt sect config "" = .ok config →
        (RoundTrips rt sect config ↔ config.IsWritable) := by
  refine ⟨fun sect => parseKrbAuxParams_raisesOnlyValueError_iff, ?_⟩
  intro sect config hadded
  have hvalid := (addKrb5Parameters_eq_ok_iff.mp hadded).1
  exact ⟨isWritable_of_roundTrips hvalid,
    fun hwritable => roundTrips_of_isWritable hwritable hvalid⟩

/-- `upper` and `isdigit` of texts that are ASCII. -/
def asciiKrb5Text : Krb5Text where
  upper text := String.ofList (text.toList.map Char.toUpper)
  isdigit text := !text.isEmpty && text.toList.all Char.isDigit
  upper_end := by decide

def realmConfig : Krb5Config where
  entries := [("default_realm", .value (.text "MYDOM.TEST")),
    ("pam", .dict ⟨[("rdns", .text "false")], by decide⟩)]
  nodup := by decide

theorem krb5_aux_realm :
    RaisesOnlyValueError (parseKrbAuxParams asciiKrb5Text .libdefaults Dict.empty "rdns = false") ∧
      RoundTrips asciiKrb5Text .libdefaults realmConfig := by
  have haccepted : addKrb5Parameters asciiKrb5Text .libdefaults realmConfig
      "" = .ok realmConfig := by rfl
  refine ⟨((krb5_aux_iff asciiKrb5Text).1 .libdefaults Dict.empty _).mpr ?_,
    ((krb5_aux_iff asciiKrb5Text).2 .libdefaults realmConfig haccepted).mpr ?_⟩
  · intro before after hlines
    have hbare : Krb5Line.bare ∈ krb5Lines "rdns = false" := by simp [hlines]
    exact absurd hbare (by decide)
  · have hplain : ∀ text ∈ ["default_realm", "MYDOM.TEST", "pam", "rdns", "false"],
        IsPlain '=' text := by
      simp only [forall_mem_cons]
      refine ⟨?_, ?_, ?_, ?_, ?_, forall_mem_nil _⟩ <;>
        exact ⟨by decide, by decide, by simp [HasNoLineBreak, isLineBreak]⟩
    simp only [forall_mem_cons] at hplain
    simp [Krb5Config.IsWritable, realmConfig, Krb5Entry.IsWritable, Krb5Value.IsWritable, hplain]

def separatorConfig : Krb5Config where
  entries := [("default_ccache_name", .value (.text "DIR:/tmp/a=b"))]
  nodup := by decide

/-- A line without a sign raises, and a value with a sign does not come back. -/
theorem krb5_aux_not_safe : parseKrbAuxParams asciiKrb5Text .libdefaults Dict.empty "rdns" =
      .error .indexError ∧
    addKrb5Parameters asciiKrb5Text .libdefaults separatorConfig "" = .ok separatorConfig ∧
    ¬ RoundTrips asciiKrb5Text .libdefaults separatorConfig := by
  have haccepted : addKrb5Parameters asciiKrb5Text .libdefaults
      separatorConfig "" = .ok separatorConfig := by rfl
  refine ⟨by rfl, haccepted, ?_⟩
  intro hround
  have hwritable := isWritable_of_roundTrips (addKrb5Parameters_eq_ok_iff.mp haccepted).1 hround
  have hplain := (hwritable _ mem_cons_self).2.1
  exact hplain.notMem (by decide)

end Middlewared
