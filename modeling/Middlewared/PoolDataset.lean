import Middlewared.Dict
import Middlewared.PyString

/-!
# Datasets and their stored keys

The datasets that `pool.dataset.query` shows, and the rows of `storage.encrypteddataset`.
-/

namespace Middlewared

abbrev DatasetName := List String

namespace DatasetName

/-- `f'{name}'.startswith(f'{ancestor}/')`. -/
def IsBelow (name ancestor : DatasetName) : Prop :=
  ancestor <+: name ∧ ancestor ≠ name

instance (name ancestor : DatasetName) : Decidable (name.IsBelow ancestor) :=
  inferInstanceAs (Decidable (_ ∧ _))

/-- What `internal_datasets_filters` keeps out: the boot pools, and names with
`/.system`, `/ix-applications/`, `/ix-apps` or `/.ix-virt` in them. -/
def isInternal (name : DatasetName) : Bool :=
  decide (name.head? ∈ [some "freenas-boot", some "boot-pool"]) || name.tail.any (fun component =>
      PyString.startsWith component ".system" || PyString.startsWith component "ix-apps" ||
        PyString.startsWith component ".ix-virt") ||
    decide ("ix-applications" ∈ name.tail.dropLast)

theorem IsBelow.trans {a b c : DatasetName} (hab : a.IsBelow b)
    (hbc : b.IsBelow c) : a.IsBelow c := by
  refine ⟨hbc.1.trans hab.1, ?_⟩
  rintro rfl
  exact hbc.2 (hbc.1.eq_of_length (le_antisymm hbc.1.length_le hab.1.length_le))

end DatasetName

inductive ZFSKeyFormat where
  | hex
  | passphrase
  | raw
deriving DecidableEq

/-- An entry of `pool.dataset.query`. -/
structure Dataset where
  name : DatasetName
  encrypted : Bool
  encryptionRoot : Option DatasetName
  keyFormat : Option ZFSKeyFormat
  keyLoaded : Bool
deriving DecidableEq

def Dataset.locked (dataset : Dataset) : Bool :=
  dataset.encrypted && !dataset.keyLoaded

def Dataset.isEncryptionRoot (dataset : Dataset) : Bool :=
  decide (dataset.encryptionRoot = some dataset.name)

/-- `pool.dataset.query` of the datasets there are. -/
def poolDatasetQuery (datasets : List Dataset) : List Dataset :=
  datasets.filter fun dataset => !dataset.name.isInternal

/-- A row of `storage.encrypteddataset`. -/
structure EncryptedDatasetRow where
  id : ℕ
  name : DatasetName
  (encryptionKey kmipUid : Option String)
deriving DecidableEq

def truthy (text : Option String) : Option String :=
  text.filter (· ≠ "")

def addRootsKey (zfsKeys : Dict DatasetName String)
    (keys : Dict DatasetName String) (row : EncryptedDatasetRow) :
    Dict DatasetName String :=
  match (truthy row.encryptionKey).or (zfsKeys.get? row.name) with
  | some key => keys.set row.name key
  | none => keys

def queryEncryptedRootsKeys (rows : List EncryptedDatasetRow)
    (filters : DatasetName → Bool) (zfsKeys : Dict DatasetName String) :
    Dict DatasetName String :=
  (rows.filter fun row => filters row.name).foldl (addRootsKey zfsKeys) Dict.empty

section

variable {rows : List EncryptedDatasetRow} {filters : DatasetName → Bool}
  {zfsKeys : Dict DatasetName String} {name : DatasetName}

theorem exists_row_of_mem_rootsKeys (hname : name ∈ queryEncryptedRootsKeys rows filters zfsKeys) :
    ∃ row ∈ rows, row.name = name ∧ filters name = true := by
  suffices hfold : ∀ (later : List EncryptedDatasetRow)
      (keys : Dict DatasetName String),
      name ∈ later.foldl (addRootsKey zfsKeys) keys →
      name ∈ keys ∨ ∃ row ∈ later, row.name = name by
    rcases hfold _ _ hname with hempty | ⟨row, hrow, rfl⟩
    · exact absurd hempty (by simp [Dict.mem_def, Dict.empty, Dict.keys])
    · rw [List.mem_filter] at hrow
      exact ⟨row, hrow.1, rfl, hrow.2⟩
  intro later
  induction later with
  | nil => exact fun _ hkeys => Or.inl hkeys
  | cons row rest ih =>
    intro keys hkeys
    rcases ih _ hkeys with hrow | ⟨other, hother, heq⟩
    · unfold addRootsKey at hrow
      split at hrow
      · rw [Dict.mem_set_iff] at hrow
        rcases hrow with rfl | hrow
        · exact Or.inr ⟨row, List.mem_cons_self, rfl⟩
        · exact Or.inl hrow
      · exact Or.inl hrow
    · exact Or.inr ⟨other, List.mem_cons_of_mem row hother, heq⟩

end

end Middlewared
