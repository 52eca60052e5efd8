import Middlewared.Krb5Conf

/-!
# What the parser of `krb5.conf` text raises

A line is read as one of five kinds.
-/

namespace Middlewared

open PyString List

inductive Krb5Line where
  | blank
  | opening (param : String)
  | closing
  | bare
  | relation (param value : String)
deriving DecidableEq

def readKrb5Line (line : String) : Krb5Line :=
  if strip line = "" then .blank
  else if strip ((splitAll '=' line).getLastD "") = "\x7b" then
    .opening (strip ((splitAll '=' line).headD ""))
  else if strip ((splitAll '=' line).headD "") = "\x7d" then .closing
  else
    match (splitAll '=' line)[1]? with
    | none => .bare
    | some value =>
      .relation (strip ((splitAll '=' line).headD "")) (strip value)

def krb5Lines (text : String) : List Krb5Line :=
  (splitlines text).map readKrb5Line

variable {rt : Krb5Text} {sect : Krb5ConfSection}

namespace Krb5ParseState

def step (rt : Krb5Text) (sect : Krb5ConfSection) (s : Krb5ParseState) :
    Krb5Line → Except Krb5Error Krb5ParseState
  | .blank => .ok s
  | .opening param => s.openSubsection param
  | .closing => .ok s.closeSubsection
  | .bare => .error .indexError
  | .relation param value => do
    validateKrb5Parameter rt sect param (.text value)
    return s.setTarget param value

theorem parseLine_eq (s : Krb5ParseState) (line : String) :
    s.parseLine rt sect line = s.step rt sect (readKrb5Line line) := by
  have hlength : ¬ (splitAll '=' line).length < 1 := by
    have hpos := List.length_pos_iff.mpr (splitAll_ne_nil '=' line)
    omega
  unfold parseLine parseEntry readKrb5Line
  split
  · rfl
  · split
    · rfl
    · split
      · rfl
      · cases (splitAll '=' line)[1]? <;> rfl

end Krb5ParseState

theorem parseKrbAuxParams_eq (sectionConf : Krb5Config) (auxParams : String) :
    parseKrbAuxParams rt sect sectionConf auxParams = (do
      let s ← (krb5Lines auxParams).foldlM (Krb5ParseState.step rt sect)
        { sectionConf }
      return s.sectionConf) := by
  unfold parseKrbAuxParams krb5Lines
  rw [foldlM_map]
  congr 2
  funext s line
  exact s.parseLine_eq line

def opensSubsection : List Krb5Line → Bool
  | [] => false
  | .opening _ :: _ => true
  | .closing :: _ => false
  | _ :: rest => opensSubsection rest

def nestsSubsection : List Krb5Line → Bool
  | [] => false
  | .opening _ :: rest => opensSubsection rest || nestsSubsection rest
  | _ :: rest => nestsSubsection rest

def HasInvalidRelation (rt : Krb5Text) (sect : Krb5ConfSection)
    (lines : List Krb5Line) : Prop :=
  ∃ param value, .relation param value ∈ lines ∧
    validateKrb5Parameter rt sect param (.text value) ≠ .ok ()

def Refused (rt : Krb5Text) (sect : Krb5ConfSection)
    (lines : List Krb5Line) : Prop :=
  HasInvalidRelation rt sect lines ∨ nestsSubsection lines = true

/-- Every line without a separator comes after one that is refused. -/
def BareLinesFollowRefused (rt : Krb5Text) (sect : Krb5ConfSection)
    (lines : List Krb5Line) : Prop :=
  ∀ before after, lines = before ++ .bare :: after → Refused rt sect before

/-! ## The exceptions -/

theorem raisesOnlyValueError_ok {α : Type} (result : α) : RaisesOnlyValueError (.ok result) :=
  fun _ herror => nomatch herror

theorem raisesOnlyValueError_valueError {α : Type} (message : String) :
    RaisesOnlyValueError (.error (.valueError message) : Except Krb5Error α) :=
  fun _ herror => ⟨message, (Except.error.inj herror).symm⟩

theorem not_raisesOnlyValueError_indexError {α : Type} :
    ¬ RaisesOnlyValueError (.error .indexError : Except Krb5Error α) := by
  intro honly
  obtain ⟨message, herror⟩ := honly _ rfl
  cases herror

theorem raisesOnlyValueError_bind_iff {α β : Type} {result : Except Krb5Error α} {f : α → β} :
    RaisesOnlyValueError (do
      let value ← result
      return f value) ↔ RaisesOnlyValueError result := by
  cases result with
  | error error =>
    unfold RaisesOnlyValueError
    simp
  | ok value =>
    exact iff_of_true (raisesOnlyValueError_ok (f value)) (raisesOnlyValueError_ok value)

theorem validateKrb5Parameter_text (param text : String) :
    RaisesOnlyValueError (validateKrb5Parameter rt sect param (.text text)) := by
  unfold validateKrb5Parameter
  split
  · exact raisesOnlyValueError_valueError _
  · split
    · exact raisesOnlyValueError_valueError _
    · rename_i paramType _
      cases paramType <;> simp only [validateKrb5Type]
      case boolean | time =>
        split
        · exact raisesOnlyValueError_ok _
        · exact raisesOnlyValueError_valueError _
      case etypes =>
        split
        · exact raisesOnlyValueError_valueError _
        · intro error herror
          obtain ⟨enctype, _, herror⟩ := exists_of_forM_eq_error herror
          split at herror
          · cases herror
          · exact ⟨_, (Except.error.inj herror).symm⟩
      all_goals exact raisesOnlyValueError_ok _

theorem forall_split_cons_iff {first : Krb5Line} {rest : List Krb5Line} {p : List Krb5Line → Prop} :
    (∀ before after, first :: rest = before ++ .bare :: after → p before) ↔ (first = .bare → p []) ∧
        ∀ before after, rest = before ++ .bare :: after → p (first :: before) := by
  constructor
  · intro hall
    refine ⟨fun hbare => hall [] rest (by rw [hbare]; rfl), ?_⟩
    intro before after hrest
    exact hall (first :: before) after (by rw [hrest]; rfl)
  · rintro ⟨hfirst, hrest⟩ before after heq
    cases before with
    | nil => exact hfirst (List.cons.inj heq).1
    | cons line before =>
      obtain ⟨rfl, htail⟩ := List.cons.inj heq
      exact hrest before after htail

theorem hasInvalidRelation_cons_of_ne {first : Krb5Line} {lines : List Krb5Line}
    (hne : ∀ param value, first ≠ .relation param value) :
    HasInvalidRelation rt sect (first :: lines) ↔ HasInvalidRelation rt sect lines := by
  unfold HasInvalidRelation
  simp only [mem_cons, (hne _ _).symm, false_or]

theorem hasInvalidRelation_relation_iff {param value : String} {lines : List Krb5Line} :
    HasInvalidRelation rt sect (.relation param value :: lines) ↔
      validateKrb5Parameter rt sect param (.text value) ≠ .ok () ∨
        HasInvalidRelation rt sect lines := by
  constructor
  · rintro ⟨param', value', hmem, hinvalid⟩
    rcases List.mem_cons.mp hmem with heq | hmem
    · cases heq
      exact Or.inl hinvalid
    · exact Or.inr ⟨param', value', hmem, hinvalid⟩
  · rintro (hinvalid | ⟨param', value', hmem, hinvalid⟩)
    · exact ⟨param, value, mem_cons_self, hinvalid⟩
    · exact ⟨param', value', mem_cons_of_mem _ hmem, hinvalid⟩

@[simp] theorem setTarget_isSome (s : Krb5ParseState) (param value : String) :
    (s.setTarget param value).target.isSome = s.target.isSome := by
  unfold Krb5ParseState.setTarget
  split <;> simp [*]

theorem foldlM_step_raisesOnlyValueError_iff (s : Krb5ParseState) (lines : List Krb5Line) :
    RaisesOnlyValueError (lines.foldlM (Krb5ParseState.step rt sect) s) ↔
      ∀ before after, lines = before ++ .bare :: after → Refused rt sect before ∨
          s.target.isSome = true ∧ opensSubsection before = true := by
  induction lines generalizing s with
  | nil =>
    have hok : RaisesOnlyValueError (.ok s) := raisesOnlyValueError_ok s
    constructor
    · intro _ before after hnil
      cases before <;> cases hnil
    · intro _
      exact hok
  | cons line rest ih =>
    rw [foldlM_cons, forall_split_cons_iff]
    cases line with
    | blank =>
      rw [Krb5ParseState.step, ok_bind, ih]
      simp [Refused, hasInvalidRelation_cons_of_ne, nestsSubsection, opensSubsection]
    | closing =>
      rw [Krb5ParseState.step, ok_bind, ih]
      simp [Refused, hasInvalidRelation_cons_of_ne, nestsSubsection,
        opensSubsection, Krb5ParseState.closeSubsection]
    | bare =>
      rw [Krb5ParseState.step, error_bind]
      simp [not_raisesOnlyValueError_indexError, Refused,
        HasInvalidRelation, nestsSubsection, opensSubsection]
    | opening param =>
      rw [Krb5ParseState.step, Krb5ParseState.openSubsection]
      cases htarget : s.target with
      | some target =>
        simp [raisesOnlyValueError_valueError, opensSubsection]
      | none =>
        rw [ok_bind, ih]
        simp [Refused, hasInvalidRelation_cons_of_ne, nestsSubsection, or_assoc, or_comm]
    | relation param value =>
      rw [Krb5ParseState.step]
      cases hvalid : validateKrb5Parameter rt sect param (.text value) with
      | ok =>
        refine (ih (s.setTarget param value)).trans ?_
        simp [Refused, hasInvalidRelation_relation_iff, hvalid, nestsSubsection, opensSubsection]
      | error error =>
        obtain ⟨message, rfl⟩ := validateKrb5Parameter_text param value error hvalid
        simp [raisesOnlyValueError_valueError, Refused, hasInvalidRelation_relation_iff, hvalid]

theorem parseKrbAuxParams_raisesOnlyValueError_iff (sectionConf : Krb5Config) (auxParams : String) :
    RaisesOnlyValueError (parseKrbAuxParams rt sect sectionConf auxParams) ↔
      BareLinesFollowRefused rt sect (krb5Lines auxParams) := by
  have hlines : RaisesOnlyValueError ((krb5Lines auxParams).foldlM (Krb5ParseState.step rt sect)
        { sectionConf }) ↔
        BareLinesFollowRefused rt sect (krb5Lines auxParams) := by
    rw [foldlM_step_raisesOnlyValueError_iff]
    simp [BareLinesFollowRefused]
  rw [parseKrbAuxParams_eq, ← hlines]
  exact raisesOnlyValueError_bind_iff

end Middlewared
