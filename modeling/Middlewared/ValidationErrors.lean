import Mathlib.Data.List.Basic

/-!
# Validation errors

The entries of `ValidationErrors`: what a check adds when it fails, and what
follows when nothing has been added.
-/

namespace Middlewared

abbrev VerrorEntry := String × String

def errorIf (condition : Bool) (field text : String) : List VerrorEntry :=
  if condition then [(field, text)] else []

def addChild (schema : String) (errors : List VerrorEntry) :
    List VerrorEntry :=
  errors.map fun error => (schema ++ "." ++ error.1, error.2)

/-- `check`, which raises what has been added. -/
def raiseErrors (errors : List VerrorEntry) : Except (List VerrorEntry) Unit :=
  if errors = [] then .ok () else .error errors

theorem raiseErrors_eq_ok_iff {errors : List VerrorEntry} {u : Unit} :
    raiseErrors errors = .ok u ↔ errors = [] := by
  unfold raiseErrors
  split <;> simp [*]

theorem errorIf_eq_nil_iff {condition : Bool} {field text : String} :
    errorIf condition field text = [] ↔ condition = false := by
  cases condition <;> simp [errorIf]

theorem flatMap_zipIdx_eq_nil {α : Type*} {l : List α}
    {f : α × ℕ → List VerrorEntry} (hnil : l.zipIdx.flatMap f = []) {x : α}
    (hx : x ∈ l) : ∃ i, f (x, i) = [] := by
  obtain ⟨i, hi⟩ := List.getElem?_of_mem hx
  rw [List.flatMap_eq_nil_iff] at hnil
  exact ⟨i, hnil (x, i) (List.mem_zipIdx_iff_getElem?.mpr hi)⟩

end Middlewared
