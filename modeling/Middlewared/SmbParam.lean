import Middlewared.ExceptRules
import Middlewared.SmbConf
import Middlewared.ValidationErrors

/-!
# Protected Samba parameters

`validate_aux_params` refuses the names of `AUX_PARAM_BLACKLIST` as they are
spelled there, while Samba takes names for the same that differ in case and
blanks only, and the last line of a section for the one that counts.
-/

namespace Middlewared

open PyString List

def isBlank (c : Char) : Bool :=
  c = ' ' || (9 ≤ c.toNat && c.toNat ≤ 13)

def sambaName (name : String) : List Char :=
  (name.toList.filter fun c => !isBlank c).map Char.toLower

def sameParameter (p name : String) : Bool :=
  sambaName name = sambaName p

def effective (section_ : Dict String SmbConfValue) (p : String) :
    Option String :=
  (Dict.lastMatch (sameParameter p) section_.entries).map SmbConfValue.text

/-- `setParm` is whether `lpctx_validate_parm` can set a parameter of the
global section to a value. -/
def auxParamErrors (setParm : String → String → Bool)
    (schemaName entry : String) : List VerrorEntry :=
  if isComment entry then []
  else
    match splitOnce '=' entry with
    | (_, none) =>
      [(schemaName, "Auxiliary parameters must be in the format of \"key = value\": " ++ entry)]
    | (key, some value) =>
      errorIf (strip key ∈ auxParamBlacklist) schemaName
        (key ++ " is a blacklisted auxiliary parameter. Changes to this " ++
          "parameter are not permitted.") ++
      errorIf (schemaName = "smb_update.smb_options" && !containsText key ":" &&
          !setParm (strip key) (strip value))
        schemaName
        (strip key ++ ": unable to set parameter to value: [" ++ strip value ++ "]")

def validateAuxParams (setParm : String → String → Bool)
    (data schemaName : String) : List VerrorEntry :=
  (splitlines data).flatMap (auxParamErrors setParm schemaName)

theorem auxParam_eq_some {entry : String} {param : String × String}
    (haux : auxParam entry = some param) :
    ∃ first rest, splitOnce '=' entry = (first, some rest) ∧ strip first = param.1 := by
  unfold auxParam at haux
  cases hsplit : splitOnce '=' entry with
  | mk first value =>
    rw [hsplit] at haux
    cases value with
    | none => cases haux
    | some rest =>
      cases haux
      exact ⟨first, rest, rfl, rfl⟩

theorem startsWith_strip {c : Char} (hc : PyString.isSpace c = false) {entry : String}
    (hstart : startsWith entry (String.singleton c) = true) :
    startsWith (strip entry) (String.singleton c) = true := by
  rw [startsWith_iff] at hstart ⊢
  obtain ⟨rest, hrest⟩ := hstart
  rw [strip, String.toList_ofList, ← hrest]
  simp only [String.toList_singleton, singleton_append]
  have hstripped := @stripChars_append_cons c [] rest hc
  rw [nil_append, dropWhile_nil, nil_append] at hstripped
  rw [hstripped]
  exact ⟨_, rfl⟩

theorem isComment_of_strip {entry first : String} {rest : Option String}
    (hsplit : splitOnce '=' entry = (first, rest)) (hrest : rest ≠ none)
    (hstrip : (startsWith (strip entry) "#" || startsWith (strip entry) ";") = false) :
    isComment entry = false := by
  rw [Bool.or_eq_false_iff] at hstrip
  unfold isComment
  simp only [Bool.or_eq_false_iff, decide_eq_false_iff_not]
  refine ⟨⟨?_, ?_⟩, ?_⟩
  · rintro rfl
    cases hsplit
    exact hrest rfl
  · by_contra hstart
    rw [Bool.not_eq_false] at hstart
    have hagain : startsWith (strip entry) "#" = true :=
      @startsWith_strip '#' (by decide) entry hstart
    rw [hstrip.1] at hagain
    cases hagain
  · by_contra hstart
    rw [Bool.not_eq_false] at hstart
    have hagain : startsWith (strip entry) ";" = true :=
      @startsWith_strip ';' (by decide) entry hstart
    rw [hstrip.2] at hagain
    cases hagain

theorem notMem_blacklist_of_accepted {setParm : String → String → Bool} {data : String}
    (haccepted : validateAuxParams setParm data "smb_update.smb_options" = [])
    {p : String} (hp : p ∈ auxParamBlacklist) :
    p ∉ (smbOptionsParameters data).map Prod.fst := by
  intro hmem
  obtain ⟨param, hparam, hkey⟩ := mem_map.mp hmem
  obtain ⟨e, he, hentry⟩ := mem_filterMap.mp hparam
  rw [Option.ite_none_left_eq_some, Option.map_eq_some_iff] at hentry
  obtain ⟨hmark, found, hfound, rfl⟩ := hentry
  rw [Bool.not_eq_true] at hmark
  obtain ⟨first, rest, hsplit, hfirst⟩ := auxParam_eq_some hfound
  obtain ⟨first', rest', hsplit', hsame⟩ := strip_splitOnce_strip (by decide) hsplit
  rw [validateAuxParams, flatMap_eq_nil_iff] at haccepted
  have haccept := haccepted e he
  rw [auxParamErrors, isComment_of_strip hsplit' (Option.some_ne_none rest')
    hmark, hsplit'] at haccept
  simp only [Bool.false_eq_true, if_false, append_eq_nil_iff,
    errorIf_eq_nil_iff, decide_eq_false_iff_not] at haccept
  apply haccept.1
  rw [hsame, hfirst]
  exact hkey ▸ hp

end Middlewared
