import Middlewared.ExceptRules
import Middlewared.IscsiExtent

/-!
# What an update does to the files

The guard against shrinking compares two recorded sizes.
-/

namespace Middlewared

open Option

namespace FileSystem

variable {files next : FileSystem}

theorem neverShrinks_refl (files : FileSystem) : files.NeverShrinks files :=
  fun _ length hlength => ⟨length, le_rfl, hlength⟩

theorem Keeps.neverShrinks (hkeeps : files.Keeps next) : files.NeverShrinks next :=
  fun id length hlength => ⟨length, le_rfl, hkeeps id length hlength⟩

theorem Keeps.trans {last : FileSystem} (hfirst : files.Keeps next)
    (hsecond : next.Keeps last) : files.Keeps last :=
  fun id length hlength => hsecond id length (hfirst id length hlength)

theorem neverShrinks_setLength_iff (hkeeps : files.Keeps next) {id : FileId} {size : ℕ} :
    files.NeverShrinks (next.setLength id size) ↔
      ∀ length, files.length id = some length → length ≤ size := by
  constructor
  · intro hshrinks length hlength
    obtain ⟨longer, hle, hlonger⟩ := hshrinks id length hlength
    simp only [setLength, Function.update_self, some.injEq] at hlonger
    omega
  · intro hsize other length hlength
    by_cases hsame : other = id
    · subst other
      refine ⟨size, hsize length hlength, ?_⟩
      simp [setLength]
    · refine ⟨length, le_rfl, ?_⟩
      simp only [setLength, Function.update_of_ne hsame]
      exact hkeeps other length hlength

end FileSystem

namespace Extent

variable {calls : ExtentCalls} {world : ExtentWorld} {data new old : Extent}

/-! ## `save` -/

/-- The file at the new path is longer than the new size, and the new size is
larger than the recorded one. -/
def CutsFile (calls : ExtentCalls) (files : FileSystem) (data old : Extent) :
    Prop :=
  data.type = .file ∧ (calls.mkdir files (parentDirs (data.path.getD ""))).2 = none ∧ ∃ id length,
      (calls.mkdir files (parentDirs (data.path.getD ""))).1.lookup
        (data.path.getD "") = some (.file id) ∧
      files.length id = some length ∧
      old.filesize.value < data.filesize.value ∧
      truncatedLength data.filesize.value length < length

theorem neverShrinks_truncate_iff {files made : FileSystem}
    (hkeeps : files.Keeps made) {path : String} {node : FsNode}
    (hlookup : made.lookup path = some node) (size : ℤ) :
    files.NeverShrinks (made.truncate node size) ↔
      ¬ ∃ id length, node = .file id ∧ files.length id = some length ∧
        truncatedLength size length < length := by
  cases node with
  | other =>
    have hsame : files.NeverShrinks (made.truncate .other size) := hkeeps.neverShrinks
    simpa using hsame
  | file id =>
    obtain ⟨present, hpresent⟩ := isSome_iff_exists.mp (made.length_isSome path id hlookup)
    have hmade : ∀ length, files.length id = some length → length = present := by
      intro length hlength
      have hkept := hkeeps id length hlength
      rw [hpresent, some.injEq] at hkept
      exact hkept.symm
    rw [FileSystem.truncate, hpresent]
    rw [FileSystem.neverShrinks_setLength_iff hkeeps]
    constructor
    · rintro hall ⟨other, length, hother, hlength, hlt⟩
      cases hother
      have hle := hall length hlength
      rw [hmade length hlength] at hle hlt
      omega
    · intro hnone length hlength
      by_contra hlt
      refine hnone ⟨id, length, rfl, hlength, ?_⟩
      rw [hmade length hlength] at hlt ⊢
      omega

section

variable {files made : FileSystem} {schemaName : String} {node : FsNode}

theorem save_files_of_disk (htype : data.type = .disk) (old : Option Extent) :
    (save calls files data schemaName old).1 = files := by
  unfold save
  rw [htype]

theorem save_files_of_mkdir_error {error : String} (htype : data.type = .file)
    (hmkdir : calls.mkdir files (parentDirs (data.path.getD "")) =
      (made, some error)) (old : Option Extent) :
    (save calls files data schemaName old).1 = made := by
  unfold save
  rw [htype]
  dsimp only
  rw [hmkdir]

theorem save_files_of_new (htype : data.type = .file)
    (hmkdir : calls.mkdir files (parentDirs (data.path.getD "")) = (made, none))
    (hlookup : made.lookup (data.path.getD "") = none) (old : Option Extent) :
    (save calls files data schemaName old).1 =
      calls.create made (data.path.getD "") data.filesize.value := by
  unfold save
  rw [htype]
  dsimp only
  rw [hmkdir]
  dsimp only
  rw [hlookup]

theorem save_files_of_existing (htype : data.type = .file)
    (hmkdir : calls.mkdir files (parentDirs (data.path.getD "")) = (made, none))
    (hlookup : made.lookup (data.path.getD "") = some node) :
    (save calls files data schemaName (some old)).1 =
      if old.filesize.value < data.filesize.value then
        made.truncate node data.filesize.value
      else made := by
  unfold save
  rw [htype]
  dsimp only
  rw [hmkdir]
  dsimp only
  rw [hlookup]
  dsimp only
  split
  · split <;> rfl
  · rfl

end

theorem neverShrinks_save_iff (files : FileSystem) (schemaName : String) :
    files.NeverShrinks (save calls files data schemaName (some old)).1 ↔
      ¬ CutsFile calls files data old := by
  have hkeeps := calls.mkdir_keeps files (parentDirs (data.path.getD ""))
  unfold CutsFile
  cases htype : data.type with
  | disk =>
    rw [save_files_of_disk htype]
    constructor
    · rintro _ ⟨hfile, _⟩
      cases hfile
    · intro _
      exact FileSystem.neverShrinks_refl files
  | file =>
    cases hmkdir : calls.mkdir files (parentDirs (data.path.getD "")) with
    | mk made result =>
      rw [hmkdir] at hkeeps
      cases result with
      | some error =>
        rw [save_files_of_mkdir_error htype hmkdir]
        constructor
        · rintro _ ⟨_, hmade, _⟩
          cases hmade
        · intro _
          exact hkeeps.neverShrinks
      | none =>
        cases hlookup : made.lookup (data.path.getD "") with
        | none =>
          have hcreate := hkeeps.trans (calls.create_keeps made
            (data.path.getD "") data.filesize.value)
          rw [save_files_of_new htype hmkdir hlookup]
          constructor
          · rintro _ ⟨_, _, id, length, hfile, _⟩
            cases hfile
          · intro _
            exact hcreate.neverShrinks
        | some node =>
          rw [save_files_of_existing htype hmkdir hlookup]
          by_cases hlarger : old.filesize.value < data.filesize.value
          · rw [if_pos hlarger, neverShrinks_truncate_iff hkeeps hlookup]
            apply not_congr
            constructor
            · rintro ⟨id, length, rfl, hlength, hlt⟩
              exact ⟨rfl, rfl, id, length, rfl, hlength, hlarger, hlt⟩
            · rintro ⟨_, _, id, length, hfile, hlength, _, hlt⟩
              have hnode := some.inj hfile
              exact ⟨id, length, hnode, hlength, hlt⟩
          · rw [if_neg hlarger]
            constructor
            · rintro _ ⟨_, _, id, length, _, _, hlt, _⟩
              exact hlarger hlt
            · intro _
              exact hkeeps.neverShrinks

/-! ## `do_update` -/

theorem finish_files (id : ℤ) (saved : Extent) (errors : List VerrorEntry) :
    (finish calls world id saved errors).1.files = world.files := by
  unfold finish
  split
  · rfl
  · dsimp only
    split <;> rfl

/-- The update is accepted by every check and gives `new`. -/
def Reaches (calls : ExtentCalls) (world : ExtentWorld) (id : ℤ)
    (data : ExtentUpdate) (old new : Extent) : Prop :=
  world.extents.get? id = some old ∧ validate calls (old.updated data) = .ok new ∧
    clean calls world new "iscsi_extent_update" (some old) = []

variable {id : ℤ}

theorem doUpdate_files_of_reaches {data : ExtentUpdate}
    (hreaches : Reaches calls world id data old new) :
    (doUpdate calls world id data).1.files =
      (save calls world.files new "iscsi_extent_create" (some old)).1 := by
  obtain ⟨hget, hvalidate, hclean⟩ := hreaches
  unfold doUpdate
  simp only [hget, hvalidate, hclean, ne_eq, not_true_eq_false, if_false]
  cases save calls world.files new "iscsi_extent_create" (some old) with
  | mk files result =>
    cases result with
    | error error => rfl
    | ok saved => exact finish_files id saved.1 saved.2

theorem doUpdate_files_of_not_reaches {data : ExtentUpdate}
    (hnot : ¬ ∃ old new, Reaches calls world id data old new) :
    (doUpdate calls world id data).1.files = world.files := by
  unfold doUpdate
  cases hget : world.extents.get? id with
  | none => rfl
  | some old =>
    cases hvalidate : validate calls (old.updated data) with
    | error error => simp only [hvalidate]
    | ok new =>
      have herrors : clean calls world new "iscsi_extent_update" (some old) ≠ [] := by
        intro hclean
        exact hnot ⟨old, new, hget, hvalidate, hclean⟩
      simp only [hvalidate, if_pos herrors]

theorem Reaches.unique {data : ExtentUpdate} {old' new' : Extent}
    (hfirst : Reaches calls world id data old new)
    (hsecond : Reaches calls world id data old' new') :
    old = old' ∧ new = new' := by
  have hold := some.inj (hfirst.1.symm.trans hsecond.1)
  subst old'
  exact ⟨rfl, Except.ok.inj (hfirst.2.1.symm.trans hsecond.2.1)⟩

/-- An update leaves every file at least as long as it was, unless it passes
the checks and its size lies between the recorded one and the length of the
file. -/
theorem doUpdate_neverShrinks_iff (calls : ExtentCalls) (world : ExtentWorld)
    (id : ℤ) (data : ExtentUpdate) :
    world.files.NeverShrinks (doUpdate calls world id data).1.files ↔
      ¬ ∃ old new, Reaches calls world id data old new ∧ CutsFile calls world.files new old := by
  by_cases hreaches : ∃ old new, Reaches calls world id data old new
  · obtain ⟨old, new, hreaches⟩ := hreaches
    rw [doUpdate_files_of_reaches hreaches, neverShrinks_save_iff]
    apply not_congr
    constructor
    · intro hcuts
      exact ⟨old, new, hreaches, hcuts⟩
    · rintro ⟨old', new', hreaches', hcuts⟩
      obtain ⟨rfl, rfl⟩ := hreaches.unique hreaches'
      exact hcuts
  · rw [doUpdate_files_of_not_reaches hreaches]
    constructor
    · rintro _ ⟨old, new, hfound, _⟩
      exact hreaches ⟨old, new, hfound⟩
    · intro _
      exact FileSystem.neverShrinks_refl world.files

def imageFiles : FileSystem where
  lookup := fun path => if path = "/mnt/tank/image" then some (.file 0) else none
  length := fun id => if id = 0 then some 4096 else none
  length_isSome := by
    intro path id hlookup
    split at hlookup
    · cases hlookup
      rfl
    · cases hlookup

def quietCalls : ExtentCalls where
  serial := some "a0"
  naa := "0x6589cfc0000000"
  pathErrors := fun _ _ => []
  zvolErrors := fun _ _ => []
  mkdir := fun files _ => (files, none)
  create := fun files _ _ => files
  resync := fun _ => none
  setReadonly := fun _ _ => none
  storeRow := fun _ => none
  mkdir_keeps := fun _ _ _ _ hlength => hlength
  create_keeps := fun _ _ _ _ _ hlength => hlength

def automaticExtent : Extent where
  name := "image"
  type := .file
  serial := some "a0"
  path := some "/mnt/tank/image"
  naa := some "0x6589cfc0000000"

def imageWorld : ExtentWorld where
  files := imageFiles
  extents := Dict.ofEntries [(1, automaticExtent)]

theorem doUpdate_neverShrinks_iff_larger : imageWorld.files.NeverShrinks
    (doUpdate quietCalls imageWorld 1 { filesize := some ⟨8192, false⟩ }).1.files := by
  refine (doUpdate_neverShrinks_iff quietCalls imageWorld 1 _).mpr ?_
  rintro ⟨old, new, ⟨hget, hvalidate, _⟩, _, _, id, length, hlookup, hlength, _, hlt⟩
  have hold : old = automaticExtent := (some.inj hget).symm
  subst old
  have hnew : new.filesize.value = 8192 := by
    rw [← Except.ok.inj hvalidate]
    rfl
  have hid : length = 4096 := by
    simp only [imageWorld, imageFiles] at hlength
    split at hlength
    · exact (some.inj hlength).symm
    · cases hlength
  rw [hnew, hid] at hlt
  revert hlt
  decide

/-- A recorded size of zero lets the file be cut to 512 bytes. -/
theorem doUpdate_shrinks : ¬ ∀ (calls : ExtentCalls) (world : ExtentWorld) (id : ℤ)
    (data : ExtentUpdate),
    world.files.NeverShrinks (doUpdate calls world id data).1.files := by
  intro hall
  have hshrinks := hall quietCalls imageWorld 1 { filesize := some ⟨512, false⟩ }
  obtain ⟨longer, hle, hlonger⟩ := hshrinks 0 4096 (by decide)
  have hcut : (doUpdate quietCalls imageWorld 1
      { filesize := some ⟨512, false⟩ }).1.files.length 0 = some 512 := by
    decide
  rw [hcut, some.injEq] at hlonger
  omega

end Extent

end Middlewared
