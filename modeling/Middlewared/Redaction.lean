import Middlewared.PyValue

/-!
# Redacting by coverage

A coverage walks along a value and says which places it hides.
-/

namespace Middlewared

open List Option

structure Coverage (σ : Type) where
  hides : σ → PyValue → Bool
  key : σ → PyValue → String → σ
  item : σ → PyValue → PyValue → σ

def redactedValue : String := "********"

namespace Coverage

variable {σ : Type} (c : Coverage σ)

mutual

def redact (s : σ) : PyValue → PyValue
  | .list items =>
    if c.hides s (.list items) then .str redactedValue
    else .list (redactItems (c.item s (.list items)) items)
  | .dict entries =>
    if c.hides s (.dict entries) then .str redactedValue
    else .dict (redactEntries (c.key s (.dict entries)) entries)
  | value => if c.hides s value then .str redactedValue else value

def redactItems (cover : PyValue → σ) : List PyValue → List PyValue
  | [] => []
  | value :: values => redact (cover value) value :: redactItems cover values

def redactEntries (cover : String → σ) : Row → Row
  | [] => []
  | (key, value) :: rest =>
    (key, redact (cover key) value) :: redactEntries cover rest

end

def Masked (s : σ) (value : PyValue) : Prop :=
  c.hides s value ∨ value = .str redactedValue

def IsLeaf : PyValue → Prop
  | .list _ | .dict _ => False
  | _ => True

theorem redactItems_eq (cover : PyValue → σ) (values : List PyValue) : c.redactItems cover values =
    values.map fun value => c.redact (cover value) value := by
  induction values with
  | nil => rw [redactItems, map_nil]
  | cons value values ih => rw [redactItems, map_cons, ih]

theorem redactEntries_eq (cover : String → σ) (entries : Row) : c.redactEntries cover entries =
    entries.map fun entry =>
      (entry.1, c.redact (cover entry.1) entry.2) := by
  induction entries with
  | nil => rw [redactEntries, map_nil]
  | cons entry entries ih => rw [redactEntries, map_cons, ih]

variable {c}

theorem redact_of_hides {s : σ} {value : PyValue} (hhides : c.hides s value) :
    c.redact s value = .str redactedValue := by
  cases value <;> simp [redact, hhides]

theorem redact_list {s : σ} {values : List PyValue} (hhides : c.hides s (.list values) = false) :
    c.redact s (.list values) = .list (values.map fun value =>
        c.redact (c.item s (.list values) value) value) := by
  rw [redact, hhides, if_neg Bool.false_ne_true, redactItems_eq]

theorem redact_dict {s : σ} {entries : Row} (hhides : c.hides s (.dict entries) = false) :
    c.redact s (.dict entries) = .dict (entries.map fun entry =>
        (entry.1, c.redact (c.key s (.dict entries) entry.1) entry.2)) := by
  rw [redact, hhides, if_neg Bool.false_ne_true, redactEntries_eq]

theorem redact_leaf {s : σ} {value : PyValue}
    (hhides : c.hides s value = false) (hleaf : IsLeaf value) :
    c.redact s value = value := by
  cases value with
  | list values => exact hleaf.elim
  | dict entries => exact hleaf.elim
  | _ => simp [redact, hhides]

theorem redact_eq_redacted_iff {s : σ} {value : PyValue} :
    c.redact s value = .str redactedValue ↔ c.Masked s value := by
  cases hhides : c.hides s value with
  | true => simp [redact_of_hides hhides, Masked, hhides]
  | false =>
    cases value with
    | list values => simp [redact_list hhides, Masked, hhides]
    | dict entries => simp [redact_dict hhides, Masked, hhides]
    | _ => simp [redact, Masked, hhides]

end Coverage

end Middlewared
