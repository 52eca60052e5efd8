import Middlewared.PyValue
import Middlewared.ExceptRules

/-!
# Dotted paths

A path names a value inside an entry.  Its components are separated by dots; a backslash before a
dot makes the dot part of the key.
-/

namespace Middlewared

/-- `partition`, with the text read so far: `rv` is finished, `left` is the
part since the last dot. -/
def partitionFrom (rv left : List Char) :
    List Char → Except PyError (List Char × List Char)
  | [] => .ok (rv ++ left, [])
  | '.' :: right =>
    match left.getLast? with
    | none => .error .indexError
    | some '\\' => partitionFrom (rv ++ left.dropLast ++ ['.']) [] right
    | some _ => .ok (rv ++ left, right)
  | c :: right => partitionFrom rv (left ++ [c]) right

def partition (path : List Char) : Except PyError (List Char × List Char) :=
  partitionFrom [] [] path

/-- What `get_impl` returns: a value (or `undefined`), or the elements of a
list with the rest of the path. -/
inductive FilterGetResult where
  | done (result : Option PyValue)
  | each (result : List PyValue) (key : String)

/-- `str.isdigit` on ASCII; the other digits of Unicode are left out. -/
def isDigits (text : List Char) : Bool :=
  !text.isEmpty && text.all Char.isDigit

def digitsValue (text : List Char) : ℕ :=
  text.foldl (fun n c => 10 * n + (c.toNat - '0'.toNat)) 0

/-- The loop of `get_impl`.  Every round shortens the path, so that its length
bounds the number of rounds. -/
def getLoop : ℕ → Option PyValue → List Char → Except PyError FilterGetResult
  | _, cur, [] => .ok (.done cur)
  | 0, _, _ :: _ => .error .recursionError
  | fuel + 1, cur, c :: path => do
    let (left, right) ← partition (c :: path)
    match cur with
    | some (.dict entries) =>
      getLoop fuel (entries.lookup (String.ofList left)) right
    | some (.list items) =>
      if isDigits left then
        getLoop fuel (some (items.getD (digitsValue left) .none)) right
      else if left = ['*'] then
        .ok (.each items (String.ofList right))
      else
        .error (.valueError (.notIndexOrWildcard (String.ofList left)))
    | cur => getLoop fuel cur right

/-- `get_impl`.  A path that is not text either is falsy, and then names the
whole object, or has no `partition`. -/
def getImpl (obj path : PyValue) : Except PyError FilterGetResult :=
  match path with
  | .str text => getLoop text.toList.length (some obj) text.toList
  | path => if path.truthy then .error .attributeError else .ok (.done obj)

def get (obj : PyValue) (path : String) : Except PyError PyValue := do
  match ← getImpl obj (.str path) with
  | .done result => .ok (result.getD .none)
  | .each result _ => .ok (.list result)

def selectLoop : ℕ → List String → Option PyValue → List Char →
    Except PyError (List String × Option PyValue)
  | _, keys, cur, [] => .ok (keys, cur)
  | 0, _, _, _ :: _ => .error .recursionError
  | fuel + 1, keys, cur, c :: path => do
    let (left, right) ← partition (c :: path)
    match cur with
    | some (.dict entries) =>
      let key := String.ofList left
      selectLoop fuel (keys ++ [key]) (entries.lookup key) right
    | some (.list _) => .error (.valueError .selectByIndex)
    | cur => selectLoop fuel keys cur right

def selectPath (obj : PyValue) (path : String) :
    Except PyError (List String × Option PyValue) :=
  selectLoop path.toList.length [] (some obj) path.toList

def IsColumn (key : String) : Prop :=
  key ≠ "" ∧ '.' ∉ key.toList

instance (key : String) : Decidable (IsColumn key) :=
  inferInstanceAs (Decidable (_ ∧ _))

theorem partitionFrom_of_not_mem {rv left path : List Char} (hdot : '.' ∉ path) :
    partitionFrom rv left path = .ok (rv ++ left ++ path, []) := by
  induction path generalizing left with
  | nil => simp [partitionFrom]
  | cons c rest ih =>
    have hc : c ≠ '.' := by
      intro heq
      exact hdot (heq ▸ List.mem_cons_self)
    have hrest : '.' ∉ rest := by
      intro hmem
      exact hdot (List.mem_cons_of_mem c hmem)
    rw [partitionFrom]
    · rw [ih hrest]
      simp
    · intro heq
      exact hc heq

theorem getImpl_column {entries : Row} {key : String} (hkey : IsColumn key) :
    getImpl (.dict entries) (.str key) = .ok (.done (entries.lookup key)) := by
  have hne : key.toList ≠ [] := by
    intro hnil
    exact hkey.1 (String.toList_eq_nil_iff.mp hnil)
  obtain ⟨c, rest, hcons⟩ := List.exists_cons_of_ne_nil hne
  have hpart : partition (c :: rest) = .ok (key.toList, []) := by
    unfold partition
    rw [← hcons, partitionFrom_of_not_mem hkey.2]
    simp
  simp only [getImpl]
  rw [hcons, List.length_cons, getLoop, hpart]
  simp [getLoop]

theorem get_column {entries : Row} {key : String} (hkey : IsColumn key) :
    get (.dict entries) key = .ok ((entries.lookup key).getD .none) := by
  unfold get
  rw [getImpl_column hkey]
  rfl

end Middlewared
