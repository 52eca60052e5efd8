import Middlewared.FilterEvaluation

/-!
# The table of timestamps

`validate_filters` records the timestamps of a whole list of filters in one table, and
`eval_filter` looks every operand of every condition up in it.
-/

namespace Middlewared

open List

section

variable {rt : PyRuntime} {getter : Option Getter} {maps : ValueMaps}
  {entry name op value : PyValue} {b : Bool}

theorem evalCondition_eq_ok_iff : evalCondition rt getter maps entry name op value = .ok b ↔
    ∃ text, op = .str text ∧
      ((maps.size = 0 ∧ filterop rt getter (pathDepth name) entry name text value = .ok b) ∨
        (maps.size ≠ 0 ∧ lookupOperand maps name = .ok none ∧
          ((lookupOperand maps value = .ok none ∧
              filterop rt getter (pathDepth name) entry name text value = .ok b) ∨
            ∃ ts path, lookupOperand maps value = .ok (some ts) ∧ name = .str path ∧
              filterop rt getter (pathDepth name) entry name text (.datetime ts) = .ok b))) := by
  unfold evalCondition
  cases op with
  | str text =>
    by_cases hsize : maps.size = 0
    · simp [hsize]
    · simp only [hsize, if_false, PyValue.str.injEq, exists_eq_left', false_and, false_or,
        ne_eq, not_false_eq_true, true_and]
      rw [bind_eq_ok_iff]
      constructor
      · rintro ⟨first, hname, hrest⟩
        cases first with
        | some ts => cases hrest
        | none =>
          refine ⟨hname, ?_⟩
          obtain ⟨second, hvalue, hrest⟩ := bind_eq_ok_iff.mp hrest
          cases second with
          | none => exact Or.inl ⟨hvalue, hrest⟩
          | some ts =>
            cases name with
            | str path => exact Or.inr ⟨ts, path, hvalue, rfl, hrest⟩
            | _ => cases hrest
      · rintro ⟨hname, hvalue | ⟨ts, path, hvalue, rfl, hfilterop⟩⟩
        · refine ⟨none, hname, ?_⟩
          rw [hvalue.1, ok_bind]
          exact hvalue.2
        · refine ⟨none, hname, ?_⟩
          rw [hvalue, ok_bind]
          exact hfilterop
  | none | bool | int | datetime | list | dict => simp

theorem evalCondition_none_ne_ok : evalCondition rt none maps entry name op value ≠ .ok b := by
  have hfilterop : ∀ text operand,
      filterop rt none (pathDepth name) entry name text operand ≠ .ok b := by
    intro text operand
    obtain ⟨fuel, hfuel⟩ : ∃ fuel, pathDepth name = fuel + 1 := by
      cases name <;> exact ⟨_, rfl⟩
    rw [hfuel, filterop]
    simp
  rw [ne_eq, evalCondition_eq_ok_iff]
  rintro ⟨text, _, ⟨_, heval⟩ | ⟨_, _, ⟨_, heval⟩ | ⟨ts, _, _, _, heval⟩⟩⟩
  · exact hfilterop text value heval
  · exact hfilterop text value heval
  · exact hfilterop text (.datetime ts) heval

end

/-! ## What `validate_filters` records -/

section

variable {rt : PyRuntime}

variable {recorded : List (String × DateTime)}

theorem isoTimestamp_iso {other : PyValue} (hiso : isoTimestamp rt other = .ok recorded) :
    ∀ entry ∈ recorded, rt.fromisoformat entry.1 = some entry.2 := by
  unfold isoTimestamp at hiso
  split at hiso
  · split at hiso
    · rename_i hparse
      rw [← Except.ok.inj hiso]
      simp [hparse]
    · simp at hiso
  · simp at hiso

theorem validateOperand_iso {op : String} {name value operand : PyValue}
    (hvalid : validateOperand rt op name value operand = .ok recorded) :
    ∀ entry ∈ recorded, rt.fromisoformat entry.1 = some entry.2 := by
  have hnil : recorded = [] → ∀ entry ∈ recorded, rt.fromisoformat entry.1 = some entry.2 := by
    intro heq
    simp [heq]
  unfold validateOperand at hvalid
  split at hvalid
  · split at hvalid
    · exact hnil (Except.ok.inj hvalid).symm
    · split at hvalid
      · simp at hvalid
      · exact isoTimestamp_iso hvalid
  · exact hnil (Except.ok.inj hvalid).symm

theorem validateCondition_iso {name op value : PyValue}
    (hvalid : validateCondition rt name op value = .ok recorded) :
    ∀ entry ∈ recorded, rt.fromisoformat entry.1 = some entry.2 := by
  unfold validateCondition at hvalid
  split at hvalid
  · rw [bind_eq_ok_iff] at hvalid
    rcases hvalid with ⟨parts, _, hrest⟩
    simp only at hrest
    split_ifs at hrest
    rw [bind_eq_ok_iff] at hrest
    rcases hrest with ⟨first, hfirst, hrest⟩
    rw [bind_eq_ok_iff] at hrest
    rcases hrest with ⟨second, hsecond, hrest⟩
    rw [← Except.ok.inj hrest]
    intro entry hentry
    rcases mem_append.mp hentry with hmem | hmem
    · exact validateOperand_iso hfirst entry hmem
    · exact validateOperand_iso hsecond entry hmem
  · simp at hvalid
  · simp at hvalid
  · simp at hvalid

theorem validateFilters_iso {depth : ℕ} {filters : List PyValue}
    (hvalid : validateFilters rt depth filters = .ok recorded) :
    ∀ entry ∈ recorded, rt.fromisoformat entry.1 = some entry.2 := by
  induction depth generalizing filters recorded with
  | zero => simp [validateFilters] at hvalid
  | succ depth ih =>
    rw [validateFilters, bind_eq_ok_iff] at hvalid
    rcases hvalid with ⟨lists, hlists, hflat⟩
    rw [← Except.ok.inj hflat]
    intro entry hentry
    obtain ⟨list, hlist, hmem⟩ := mem_flatten.mp hentry
    obtain ⟨filter, _, hfilter⟩ := exists_of_mem_mapM_results hlists hlist
    rw [bind_eq_ok_iff] at hfilter
    rcases hfilter with ⟨parts, _, hparts⟩
    match parts with
    | [op, value] =>
      simp only at hparts
      split_ifs at hparts
      rw [bind_eq_ok_iff] at hparts
      rcases hparts with ⟨branches, _, hparts⟩
      rw [bind_eq_ok_iff] at hparts
      rcases hparts with ⟨inner, hinner, hparts⟩
      rw [← Except.ok.inj hparts] at hmem
      obtain ⟨list', hlist', hmem'⟩ := mem_flatten.mp hmem
      obtain ⟨branch, _, hbranch⟩ := exists_of_mem_mapM_results hinner hlist'
      rw [bind_eq_ok_iff] at hbranch
      rcases hbranch with ⟨inside, _, hinside⟩
      exact ih hinside entry hmem'
    | [name, op, value] =>
      rw [bind_eq_ok_iff] at hparts
      rcases hparts with ⟨_, _, hcondition⟩
      exact validateCondition_iso hcondition entry hmem
    | [] => simp at hparts
    | [_] => simp at hparts
    | _ :: _ :: _ :: _ :: _ => simp at hparts

theorem get?_ofEntries_of_iso (hiso : ∀ entry ∈ recorded, rt.fromisoformat entry.1 = some entry.2)
    (text : String) : (Dict.ofEntries recorded).get? text =
    if text ∈ recorded.map Prod.fst then rt.fromisoformat text else none := by
  rw [Dict.get?_ofEntries]
  cases hlookup : recorded.reverse.lookup text with
  | none =>
    rw [if_neg]
    intro hmem
    rw [lookup_eq_none_iff] at hlookup
    obtain ⟨entry, hentry, htext⟩ := mem_map.mp hmem
    have hne := hlookup entry (mem_reverse.mpr hentry)
    simp [htext] at hne
  | some ts =>
    have hmem : (text, ts) ∈ recorded := mem_reverse.mp (Dict.mem_of_lookup_eq_some hlookup)
    rw [if_pos (mem_map.mpr ⟨(text, ts), hmem, rfl⟩)]
    exact (hiso (text, ts) hmem).symm

theorem size_ofEntries_eq_zero_iff :
    (Dict.ofEntries recorded : ValueMaps).size = 0 ↔ recorded = [] := by
  cases recorded with
  | nil => simp [Dict.ofEntries, Dict.size, Dict.empty]
  | cons entry rest =>
    simp only [reduceCtorEq, iff_false]
    intro hsize
    have hempty : (Dict.ofEntries (entry :: rest) : ValueMaps).entries = [] :=
      length_eq_zero_iff.mp hsize
    have hnone : (Dict.ofEntries (entry :: rest) : ValueMaps).get? entry.1 = none := by
      unfold Dict.get?
      rw [hempty]
      rfl
    rw [Dict.get?_ofEntries, lookup_eq_none_iff] at hnone
    have hne := hnone entry (by simp)
    simp at hne

end


/-- The timestamps that another list of filters records do not change the answer of a condition:
its name is none of them, both operands can be looked up at all, and where its value is one of
them the entry compares with that moment as it does with the text. -/
structure OperandsFree (rt : PyRuntime) (own other : List (String × DateTime)) (row : Row)
    (name op value : PyValue) : Prop where
  name_free : ∀ text, name = .str text → text ∉ other.map Prod.fst
  hashable : other ≠ [] → name.hashable = true ∧ value.hashable = true
  alike : ∀ text ts, value = .str text → text ∈ other.map Prod.fst → text ∉ own.map Prod.fst →
    rt.fromisoformat text = some ts → (∃ path, name = .str path) ∧
      ∀ op', op = .str op' →
        filterop rt (some getImpl) (pathDepth name) (.dict row) name op' (.datetime ts) =
          filterop rt (some getImpl) (pathDepth name) (.dict row) name op' value

section

variable {rt : PyRuntime} {recorded own other joint : List (String × DateTime)}

theorem lookupOperand_eq_none_iff {operand : PyValue}
    (hiso : ∀ item ∈ recorded, rt.fromisoformat item.1 = some item.2) :
    lookupOperand (Dict.ofEntries recorded) operand = .ok none ↔
      operand.hashable = true ∧ ∀ text, operand = .str text → text ∉ recorded.map Prod.fst := by
  unfold lookupOperand
  cases hhash : operand.hashable with
  | false => simp
  | true =>
    cases operand with
    | str text =>
      simp only [if_true, Except.ok.injEq, PyValue.str.injEq, forall_eq', true_and]
      rw [get?_ofEntries_of_iso hiso]
      by_cases hmem : text ∈ recorded.map Prod.fst
      · obtain ⟨item, hitem, rfl⟩ := mem_map.mp hmem
        simp [hmem, hiso item hitem]
      · simp [hmem]
    | _ => simp

theorem lookupOperand_eq_some_iff {operand : PyValue} {ts : DateTime}
    (hiso : ∀ item ∈ recorded, rt.fromisoformat item.1 = some item.2) :
    lookupOperand (Dict.ofEntries recorded) operand = .ok (some ts) ↔
      ∃ text, operand = .str text ∧ text ∈ recorded.map Prod.fst ∧
        rt.fromisoformat text = some ts := by
  unfold lookupOperand
  cases operand with
  | str text =>
    simp only [PyValue.hashable, if_true, Except.ok.injEq, PyValue.str.injEq, exists_eq_left']
    rw [get?_ofEntries_of_iso hiso]
    by_cases hmem : text ∈ recorded.map Prod.fst
    · simp only [hmem, if_true, true_and]
    · simp only [hmem, if_false, false_and, reduceCtorEq]
  | _ => simp [PyValue.hashable]

variable {row : Row} {name op value : PyValue} {b : Bool}

/-- A condition that has an answer in its own list has the same one in both lists together
exactly when the other list does not disturb it. -/
theorem evalCondition_joint_iff
    (hown : ∀ item ∈ own, rt.fromisoformat item.1 = some item.2)
    (hjointIso : ∀ item ∈ joint, rt.fromisoformat item.1 = some item.2)
    (hjoint : ∀ text, text ∈ joint.map Prod.fst ↔
      text ∈ own.map Prod.fst ∨ text ∈ other.map Prod.fst)
    (hnil : joint = [] ↔ own = [] ∧ other = [])
    (heval : evalCondition rt (some getImpl) (Dict.ofEntries own) (.dict row) name op value =
      .ok b) :
    evalCondition rt (some getImpl) (Dict.ofEntries joint) (.dict row) name op value = .ok b ↔
      OperandsFree rt own other row name op value := by
  rw [evalCondition_eq_ok_iff] at heval ⊢
  simp only [size_ofEntries_eq_zero_iff, ne_eq, lookupOperand_eq_none_iff hown,
    lookupOperand_eq_some_iff hown] at heval
  simp only [size_ofEntries_eq_zero_iff, ne_eq, lookupOperand_eq_none_iff hjointIso,
    lookupOperand_eq_some_iff hjointIso, hjoint, hnil]
  obtain ⟨operator, rfl, heval⟩ := heval
  simp only [PyValue.str.injEq, exists_eq_left']
  -- a value that its own list does not record is compared as it is written
  have htext : (∀ text, value = .str text → text ∉ own.map Prod.fst) →
      filterop rt (some getImpl) (pathDepth name) (.dict row) name operator value = .ok b := by
    intro hfree
    rcases heval with ⟨_, heval⟩ | ⟨_, _, ⟨_, heval⟩ | ⟨ts, _, ⟨text, hvalue, hmem, _⟩, _⟩⟩
    · exact heval
    · exact heval
    · exact absurd hmem (hfree text hvalue)
  constructor
  · rintro (⟨⟨hownNil, hotherNil⟩, _⟩ | ⟨hne, ⟨hnameHash, hname⟩, hvalue⟩)
    · subst hotherNil
      exact ⟨by simp, by simp, by simp⟩
    · refine ⟨fun text htext => fun hmem => hname text htext (Or.inr hmem), fun _ => ?_, ?_⟩
      · rcases hvalue with ⟨⟨hvalueHash, _⟩, _⟩ | ⟨ts, path, ⟨text, rfl, _⟩, _⟩
        · exact ⟨hnameHash, hvalueHash⟩
        · exact ⟨hnameHash, rfl⟩
      · rintro text ts rfl hother hnotOwn hts
        rcases hvalue with ⟨⟨_, hfree⟩, _⟩ | ⟨ts', path, ⟨text', heq, _, hts'⟩, hpath, hjointEval⟩
        · exact absurd (Or.inr hother) (hfree text rfl)
        · obtain rfl : text = text' := PyValue.str.inj heq
          obtain rfl : ts = ts' := Option.some.inj (hts.symm.trans hts')
          refine ⟨⟨path, hpath⟩, ?_⟩
          rintro _ ⟨⟩
          rw [hjointEval]
          refine (htext ?_).symm
          rintro _ ⟨⟩
          exact hnotOwn
  · intro hfree
    by_cases hboth : own = [] ∧ other = []
    · refine Or.inl ⟨hboth, htext ?_⟩
      simp [hboth.1]
    · have hname : ∀ text, name = .str text → text ∉ own.map Prod.fst := by
        rcases heval with ⟨hownNil, _⟩ | ⟨_, ⟨_, hname⟩, _⟩
        · simp [hownNil]
        · exact hname
      have hhash : name.hashable = true ∧ value.hashable = true := by
        rcases heval with ⟨hownNil, _⟩ | ⟨_, ⟨hnameHash, _⟩, ⟨⟨hvalueHash, _⟩, _⟩ |
          ⟨_, _, ⟨_, rfl, _⟩, _⟩⟩
        · exact hfree.hashable fun hotherNil => hboth ⟨hownNil, hotherNil⟩
        · exact ⟨hnameHash, hvalueHash⟩
        · exact ⟨hnameHash, rfl⟩
      refine Or.inr ⟨hboth, ⟨hhash.1, ?_⟩, ?_⟩
      · rintro text htextName (hmem | hmem)
        · exact hname text htextName hmem
        · exact hfree.name_free text htextName hmem
      · by_cases hrecorded : ∃ text, value = .str text ∧
            (text ∈ own.map Prod.fst ∨ text ∈ other.map Prod.fst)
        · obtain ⟨text, rfl, hmem⟩ := hrecorded
          by_cases hmemOwn : text ∈ own.map Prod.fst
          · rcases heval with ⟨hownNil, _⟩ | ⟨_, _, ⟨⟨_, hnotOwn⟩, _⟩ |
              ⟨ts, path, ⟨text', heq, _, hts⟩, hpath, heval⟩⟩
            · simp [hownNil] at hmemOwn
            · exact absurd hmemOwn (hnotOwn text rfl)
            · obtain rfl : text = text' := PyValue.str.inj heq
              exact Or.inr ⟨ts, path, ⟨text, rfl, hmem, hts⟩, hpath, heval⟩
          · have hmemOther := hmem.resolve_left hmemOwn
            obtain ⟨item, hitem, hitemText⟩ := mem_map.mp ((hjoint text).mpr hmem)
            have hts : rt.fromisoformat text = some item.2 := by
              rw [← hitemText]
              exact hjointIso item hitem
            obtain ⟨⟨path, hpath⟩, halike⟩ := hfree.alike text item.2 rfl hmemOther hmemOwn hts
            refine Or.inr ⟨item.2, path, ⟨text, rfl, hmem, hts⟩, hpath, ?_⟩
            rw [halike operator rfl]
            refine htext ?_
            rintro _ ⟨⟩
            exact hmemOwn
        · have hnot : ∀ text, value = .str text →
              ¬(text ∈ own.map Prod.fst ∨ text ∈ other.map Prod.fst) :=
            fun text hvalue hmem => hrecorded ⟨text, hvalue, hmem⟩
          exact Or.inl ⟨⟨hhash.2, hnot⟩,
            htext fun text hvalue hmem => hnot text hvalue (Or.inl hmem)⟩

end

end Middlewared
