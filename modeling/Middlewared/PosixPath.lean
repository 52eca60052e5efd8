import Middlewared.PyString

/-!
# Relative paths

`os.path.relpath` makes both of its paths absolute and normal, drops the
components they share at the beginning, and goes up once for every component
that is left of the start.
-/

namespace Middlewared.PosixPath

open PyString List

section

variable {α : Type*} [DecidableEq α]

def commonLength : List α → List α → ℕ
  | a :: first, b :: second =>
    if a = b then commonLength first second + 1 else 0
  | _, _ => 0

theorem commonLength_append_left (shared first second : List α) :
    commonLength (shared ++ first) (shared ++ second) =
      shared.length + commonLength first second := by
  induction shared with
  | nil => simp
  | cons a shared ih =>
    rw [cons_append, cons_append, commonLength, if_pos rfl, ih, length_cons]
    omega

theorem commonLength_le_length (first second : List α) :
    commonLength first second ≤ first.length := by
  induction first generalizing second with
  | nil => simp [commonLength]
  | cons a first ih =>
    cases second with
    | nil => simp [commonLength]
    | cons b second =>
      have hle := ih second
      rw [commonLength, length_cons]
      split <;> omega

theorem commonLength_append_right (first rest : List α) :
    commonLength first (first ++ rest) = first.length := by
  induction first with
  | nil => simp [commonLength]
  | cons a first ih => simp [commonLength, ih]

theorem isPrefix_of_commonLength_eq {first second : List α}
    (heq : commonLength first second = first.length) : first <+: second := by
  induction first generalizing second with
  | nil => exact nil_prefix
  | cons a first ih =>
    cases second with
    | nil => simp [commonLength] at heq
    | cons b second =>
      rw [commonLength, length_cons] at heq
      split at heq
      · next hab =>
          rw [hab, prefix_cons_inj]
          exact ih (by omega)
      · omega

end

abbrev Component := List Char

def components (path : String) : List Component :=
  path.toList.splitOn '/'

def isAbs (path : String) : Bool := startsWith path "/"

def pardir : Component := ['.', '.']

/-- One component of `normpath` of an absolute path. -/
def push (stack : List Component) (component : Component) : List Component :=
  if component = [] ∨ component = ['.'] then stack
  else if component = pardir then stack.dropLast
  else stack ++ [component]

/-- The components of `os.path.abspath(path)`. -/
def absComponents (cwd path : String) : List Component :=
  (if isAbs path then components path
    else components cwd ++ components path).foldl push []

def relComponents (path start : List Component) : List Component :=
  List.replicate (start.length - commonLength start path) pardir ++
    path.drop (commonLength start path)

inductive PathError where
  | valueError (errmsg : String)
deriving DecidableEq

/-- `os.path.relpath(path, start)` -/
def relpath (cwd path start : String) : Except PathError String :=
  if path = "" then .error (.valueError "no path specified")
  else
    match relComponents (absComponents cwd path) (absComponents cwd start) with
    | [] => .ok "."
    | parts => .ok (String.ofList (['/'].intercalate parts))

def IsNormal (component : Component) : Prop :=
  component ≠ [] ∧ component ≠ ['.'] ∧ component ≠ pardir

/-- No component of the path is empty, `.` or `..`. -/
def IsNormalized (path : String) : Prop :=
  ∀ component ∈ components path, IsNormal component

instance (path : String) : Decidable (IsNormalized path) :=
  inferInstanceAs (Decidable (∀ component ∈ components path,
    component ≠ [] ∧ component ≠ ['.'] ∧ component ≠ pardir))

theorem foldl_push_of_forall_isNormal {parts : List Component}
    (hnormal : ∀ component ∈ parts, IsNormal component)
    (stack : List Component) : parts.foldl push stack = stack ++ parts := by
  induction parts generalizing stack with
  | nil => simp
  | cons component rest ih =>
    rw [forall_mem_cons] at hnormal
    have hpush : push stack component = stack ++ [component] := by
      unfold push
      rw [if_neg (not_or.mpr ⟨hnormal.1.1, hnormal.1.2.1⟩), if_neg hnormal.1.2.2]
    rw [foldl_cons, hpush, ih hnormal.2, append_assoc]
    rfl

variable {path : String}

theorem isAbs_of_isNormalized (hpath : IsNormalized path) : isAbs path = false := by
  rw [← Bool.not_eq_true]
  intro habs
  obtain ⟨rest, hrest⟩ := startsWith_iff.mp habs
  have hslash : path.toList = '/' :: rest := hrest.symm
  -- an absolute path begins with an empty component
  have hempty : ([] : Component) ∈ components path := by
    have hsplit := splitOn_append_cons_self_of_not_mem (not_mem_nil (a := '/')) rest
    rw [nil_append] at hsplit
    unfold components
    rw [hslash, hsplit]
    exact mem_cons_self
  exact (hpath [] hempty).1 rfl

theorem ne_empty_of_isNormalized (hpath : IsNormalized path) : path ≠ "" := by
  rintro rfl
  exact (hpath [] (by decide)).1 rfl

theorem absComponents_of_isNormalized (hpath : IsNormalized path) (cwd : String) :
    absComponents cwd path = (components cwd).foldl push [] ++ components path := by
  unfold absComponents
  rw [if_neg (by simp [isAbs_of_isNormalized hpath]), foldl_append,
    foldl_push_of_forall_isNormal hpath]

theorem relComponents_append_left (shared path start : List Component) :
    relComponents (shared ++ path) (shared ++ start) = relComponents path start := by
  unfold relComponents
  rw [commonLength_append_left, length_append, Nat.add_sub_add_left, ← drop_drop, drop_left]

theorem relComponents_of_append (start rest : List Component) :
    relComponents (start ++ rest) start = rest := by
  unfold relComponents
  rw [commonLength_append_right]
  simp

theorem relComponents_of_not_isPrefix {path start : List Component} (hnot : ¬ start <+: path) :
    ∃ rest, relComponents path start = pardir :: rest := by
  have hle := commonLength_le_length start path
  have hlt : commonLength start path < start.length :=
    lt_of_le_of_ne hle (mt isPrefix_of_commonLength_eq hnot)
  unfold relComponents
  obtain ⟨up, hup⟩ : ∃ up, start.length - commonLength start path = up + 1 :=
    ⟨start.length - commonLength start path - 1, by omega⟩
  rw [hup, replicate_succ, cons_append]
  exact ⟨_, rfl⟩

theorem pardir_isPrefix_intercalate_iff (first : Component) (rest : List Component) :
    pardir <+: ['/'].intercalate (first :: rest) ↔ pardir <+: first := by
  cases rest with
  | nil => simp
  | cons second rest =>
    match first with
    | [] => simp [pardir]
    | [c] => simp [pardir, cons_prefix_cons]
    | c :: d :: tail => simp [pardir, cons_prefix_cons]

end Middlewared.PosixPath
