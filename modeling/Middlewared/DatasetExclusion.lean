import Middlewared.ExceptRules
import Middlewared.PosixPath

/-!
# Excluding datasets

A dataset is excluded when it is, or is below, one of the datasets that a task excludes.
-/

namespace Middlewared.DatasetExclusion

open PosixPath PyString

def isChild (cwd child parent : String) : Except PathError Bool :=
  if isAbs child || isAbs parent then
    .error (.valueError ("Symlink-unsafe method called with absolute path(s): " ++ child ++
        ", " ++ parent))
  else do
    let rel ← relpath cwd child parent
    .ok (decide (rel = ".") || !startsWith rel "..")

def shouldExclude (cwd dataset : String) (exclude : List String) :
    Except PathError Bool :=
  exclude.anyM fun excl => isChild cwd dataset excl

/-! ## By components -/

def IsBelow (child parent : String) : Prop :=
  components parent <+: components child

/-- The first component below the parent begins with two dots. -/
def DottedBelow (child parent : String) : Prop :=
  ∃ first rest, components child = components parent ++ first :: rest ∧ pardir <+: first

variable {cwd child parent dataset : String} {exclude : List String}

theorem DottedBelow.isBelow (hdotted : DottedBelow child parent) : IsBelow child parent := by
  obtain ⟨first, rest, hparts, _⟩ := hdotted
  exact ⟨first :: rest, hparts.symm⟩

variable (hchild : IsNormalized child) (hparent : IsNormalized parent)

include hchild hparent

theorem relpath_eq_ok : relpath cwd child parent =
      .ok (match relComponents (components child) (components parent) with
        | [] => "."
        | parts => String.ofList (['/'].intercalate parts)) := by
  unfold relpath
  rw [if_neg (ne_empty_of_isNormalized hchild),
    absComponents_of_isNormalized hchild, absComponents_of_isNormalized hparent,
    relComponents_append_left]
  cases relComponents (components child) (components parent) <;> rfl

theorem isChild_eq_ok : isChild cwd child parent =
      .ok (match relComponents (components child) (components parent) with
        | [] => true
        | first :: _ => !decide (pardir <+: first)) := by
  unfold isChild
  rw [if_neg (by simp [isAbs_of_isNormalized hchild,
      isAbs_of_isNormalized hparent]), relpath_eq_ok hchild hparent, ok_bind]
  cases relComponents (components child) (components parent) with
  | nil => rfl
  | cons first rest =>
    have hstart : startsWith (String.ofList (['/'].intercalate (first :: rest))) ".." =
          decide (pardir <+: first) := by
      have htext : (String.ofList (['/'].intercalate (first :: rest))).toList =
            ['/'].intercalate (first :: rest) :=
        String.toList_ofList
      rw [Bool.eq_iff_iff, startsWith_iff, decide_eq_true_iff, htext]
      exact pardir_isPrefix_intercalate_iff first rest
    have hdot : (String.ofList (['/'].intercalate (first :: rest)) = ".") → ¬ pardir <+: first := by
      intro heq hprefix
      rw [heq] at hstart
      rw [decide_eq_true hprefix] at hstart
      revert hstart
      decide
    rw [hstart]
    by_cases heq : String.ofList (['/'].intercalate (first :: rest)) = "."
    · simp [heq, hdot heq]
    · simp [heq]

theorem isChild_eq_ok_true_iff :
    isChild cwd child parent = .ok true ↔ IsBelow child parent ∧ ¬ DottedBelow child parent := by
  rw [isChild_eq_ok hchild hparent, Except.ok.injEq]
  by_cases hbelow : IsBelow child parent
  · obtain ⟨below, hbelow'⟩ := hbelow
    have hsame : DottedBelow child parent ↔
        ∃ first rest, below = first :: rest ∧ pardir <+: first := by
      unfold DottedBelow
      simp only [← hbelow', List.append_cancel_left_eq]
    have hbelowIff : IsBelow child parent := ⟨below, hbelow'⟩
    rw [← hbelow', relComponents_of_append, hsame]
    cases below with
    | nil => simp [hbelowIff]
    | cons first rest => simp [hbelowIff]
  · obtain ⟨rest, hup⟩ := relComponents_of_not_isPrefix hbelow
    rw [hup]
    simp [hbelow]

theorem isChild_agrees_iff :
    (isChild cwd child parent = .ok true ↔ IsBelow child parent) ↔ ¬ DottedBelow child parent := by
  rw [isChild_eq_ok_true_iff hchild hparent]
  constructor
  · intro hagrees hdotted
    have hbelow : IsBelow child parent := hdotted.isBelow
    exact (hagrees.mpr hbelow).2 hdotted
  · intro hplain
    exact ⟨And.left, fun hbelow => ⟨hbelow, hplain⟩⟩

theorem isChild_ok : ∃ result, isChild cwd child parent = .ok result :=
  ⟨_, isChild_eq_ok hchild hparent⟩

omit hchild hparent

theorem shouldExclude_eq_ok_true_iff (hdataset : IsNormalized dataset)
    (hexclude : ∀ excl ∈ exclude, IsNormalized excl) :
    shouldExclude cwd dataset exclude = .ok true ↔
      ∃ excl ∈ exclude, IsBelow dataset excl ∧ ¬ DottedBelow dataset excl := by
  unfold shouldExclude
  induction exclude with
  | nil => simp [List.anyM, pure, Except.pure]
  | cons excl rest ih =>
    rw [List.forall_mem_cons] at hexclude
    have hhead : isChild cwd dataset excl = .ok true ↔
        IsBelow dataset excl ∧ ¬ DottedBelow dataset excl :=
      isChild_eq_ok_true_iff hdataset hexclude.1
    obtain ⟨result, hresult⟩ : ∃ result, isChild cwd dataset excl =
        .ok result := isChild_ok hdataset hexclude.1
    rw [anyM_cons_eq_ok_iff, hresult]
    cases result <;> simp_all

/-- What excludes a dataset by components also excludes it by text, unless the
dataset is found below no excluded one but in a name with two dots in front. -/
def FoundPlainly (dataset : String) (exclude : List String) : Prop :=
  (∃ excl ∈ exclude, IsBelow dataset excl) →
    ∃ excl ∈ exclude, IsBelow dataset excl ∧ ¬ DottedBelow dataset excl

theorem shouldExclude_agrees_iff (hdataset : IsNormalized dataset)
    (hexclude : ∀ excl ∈ exclude, IsNormalized excl) :
    (shouldExclude cwd dataset exclude = .ok true ↔ ∃ excl ∈ exclude, IsBelow dataset excl) ↔
      FoundPlainly dataset exclude := by
  rw [shouldExclude_eq_ok_true_iff hdataset hexclude]
  constructor
  · intro hagrees
    exact hagrees.mpr
  · intro hplain
    constructor
    · rintro ⟨excl, hmem, hbelow, _⟩
      exact ⟨excl, hmem, hbelow⟩
    · exact hplain

/-- Exclusion is by whole components exactly where no name in question begins
with two dots below an excluded one. -/
theorem exclusion_by_components_iff (cwd : String) :
    (∀ child parent, IsNormalized child → IsNormalized parent →
      ((isChild cwd child parent = .ok true ↔ IsBelow child parent) ↔ ¬ DottedBelow child parent)) ∧
    (∀ dataset exclude, IsNormalized dataset → (∀ excl ∈ exclude, IsNormalized excl) →
      ((shouldExclude cwd dataset exclude = .ok true ↔ ∃ excl ∈ exclude, IsBelow dataset excl) ↔
        FoundPlainly dataset exclude)) :=
  ⟨fun _ _ hchild hparent => isChild_agrees_iff hchild hparent,
    fun _ _ hdataset hexclude => shouldExclude_agrees_iff hdataset hexclude⟩

theorem exclusion_by_components_iff_pool : (isChild "/root" "tank/data/a" "tank/data" = .ok true ↔
      IsBelow "tank/data/a" "tank/data") ∧
    (shouldExclude "/root" "tank/database" ["tank/data", "tank/b"] = .ok true ↔
      ∃ excl ∈ ["tank/data", "tank/b"], IsBelow "tank/database" excl) := by
  have hall := exclusion_by_components_iff "/root"
  have hplain : ¬ DottedBelow "tank/data/a" "tank/data" := by
    rintro ⟨first, rest, hparts, hdots⟩
    have hcomponents : components "tank/data/a" = components "tank/data" ++ [['a']] := by
      decide
    rw [hcomponents, List.append_cancel_left_eq, List.cons.injEq] at hparts
    rw [← hparts.1] at hdots
    revert hdots
    decide
  have hfound : FoundPlainly "tank/database" ["tank/data", "tank/b"] := by
    intro hbelow
    have hnone : ¬ ∃ excl ∈ ["tank/data", "tank/b"], IsBelow "tank/database" excl := by
      unfold IsBelow
      decide
    exact absurd hbelow hnone
  exact ⟨(hall.1 _ _ (by decide) (by decide)).mpr hplain,
    (hall.2 _ _ (by decide) (by decide)).mpr hfound⟩

/-- A name that begins with two dots is taken for a way up. -/
theorem exclusion_not_by_components : (¬ ∀ child parent, IsNormalized child → IsNormalized parent →
      (isChild "/" child parent = .ok true ↔ IsBelow child parent)) ∧
    (¬ ∀ dataset exclude, IsNormalized dataset → (∀ excl ∈ exclude, IsNormalized excl) →
      (shouldExclude "/" dataset exclude = .ok true ↔ ∃ excl ∈ exclude, IsBelow dataset excl)) := by
  have hbelow : IsBelow "tank/..b" "tank" := by
    unfold IsBelow
    decide
  constructor
  · intro hall
    have hfound := (hall "tank/..b" "tank" (by decide) (by decide)).mpr hbelow
    revert hfound
    decide
  · intro hall
    have hfound := (hall "tank/..b" ["tank"] (by decide) (by decide)).mpr
      ⟨"tank", List.mem_singleton_self _, hbelow⟩
    revert hfound
    decide

end Middlewared.DatasetExclusion
