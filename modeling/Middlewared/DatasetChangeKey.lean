import Middlewared.ExceptRules
import Middlewared.PoolDataset
import Middlewared.TransitionSystem
import Middlewared.ValidationErrors

/-!
# Changing and inheriting encryption keys

`change_key` refuses a passphrase above a key, and a key below a passphrase;
`inherit_parent_encryption_properties` compares a key format with the text of
one and so refuses nothing of the kind, which does no harm: a passphrase of the
parent would have been above the key before.
-/

namespace Middlewared

open List Option

structure ChangeKeyOptions where
  (generateKey keyFile : Bool)
  pbkdf2iters : ℕ
  (passphrase key : Option String)

inductive DatasetError where
  | instanceNotFound (name : DatasetName)
  | validation (errors : List VerrorEntry)
  | callError (message : String)

/-- `verrors.check()`. -/
def verrorsCheck (errors : List VerrorEntry) : Except DatasetError Unit :=
  if errors = [] then .ok () else .error (.validation errors)

def raiseIf (condition : Bool) (message : String) :
    Except DatasetError Unit :=
  if condition then .error (.callError message) else .ok ()

def DatasetName.text (name : DatasetName) : String :=
  "/".intercalate name

/-- What `validate_encryption_data` has to say against the options. -/
def encryptionDataErrors (options : ChangeKeyOptions) (schema : String) :
    List VerrorEntry :=
  let provided :=
    [("key", (truthy options.key).isSome), ("key_file", options.keyFile),
      ("generate_key", options.generateKey)].filterMap fun field =>
        if field.2 then some field.1 else none
  if (truthy options.passphrase).isSome then
    provided.map fun field => (schema ++ "." ++ field,
      "Must be disabled when dataset is to be encrypted with passphrase.")
  else if provided = [] then
    [(schema ++ ".key", "Please provide a key or select generate_key to " ++
      "automatically generate a key when passphrase is not provided.")]
  else if 1 < provided.length then
    provided.map fun field => (schema ++ "." ++ field,
      "Only one of " ++ ", ".intercalate provided ++ " must be provided.")
  else []

/-- `validate_encryption_data`, which settles the key format. -/
def validateEncryptionData (options : ChangeKeyOptions) (schema : String) :
    Except DatasetError ZFSKeyFormat := do
  verrorsCheck (encryptionDataErrors options schema)
  return if (truthy options.passphrase).isSome then .passphrase else .hex

namespace ZFSDatasets

def getInstance (datasets : List Dataset) (name : DatasetName) :
    Except DatasetError Dataset :=
  match (poolDatasetQuery datasets).find? (·.name = name) with
  | some dataset => .ok dataset
  | none => .error (.instanceNotFound name)

/-- The query for roots below `id` that are encrypted with a key. -/
def hasKeyRootBelow (datasets : List Dataset) (id : DatasetName) : Bool :=
  (poolDatasetQuery datasets).any fun d =>
    decide (d.name.IsBelow id) && d.encrypted &&
      decide (d.keyFormat ≠ some .passphrase) && d.isEncryptionRoot

/-- The query for datasets above `id` that are encrypted with a passphrase. -/
def hasPassphraseAbove (datasets : List Dataset) (id : DatasetName) : Bool :=
  (poolDatasetQuery datasets).any fun d =>
    decide (id.IsBelow d.name ∧ d.name ≠ []) &&
      decide (d.keyFormat = some .passphrase) && d.encrypted

/-- What `change_key` itself has to say against the options. -/
def changeKeyErrors (datasets : List Dataset) (systemPool : String)
    (ds : Dataset) (id : DatasetName) (options : ChangeKeyOptions) :
    List VerrorEntry :=
  if !ds.encrypted then [("id", "Dataset is not encrypted")]
  else if ds.locked then
    [("id", "Dataset must be unlocked before key can be changed")]
  else if (truthy options.passphrase).isSome then
    if options.generateKey || (truthy options.key).isSome then
      [("change_key_options.key", "Must not be specified when passphrase for "
        ++ id.text ++ " is supplied.")]
    else if hasKeyRootBelow datasets id then
      [("change_key_options.passphrase", id.text ++ " has children which are " ++
        "encrypted with a key. It is not allowed to have encrypted roots which " ++
        "are encrypted with a key as children for passphrase encrypted " ++
        "datasets.")]
    else if id = [systemPool] then
      [("id", id.text ++ " contains the system dataset. Please move the " ++
        "system dataset to a different pool before changing key_format.")]
    else []
  else if !options.generateKey && !(truthy options.key).isSome then
    ["key", "passphrase", "generate_key"].map fun k =>
      ("change_key_options." ++ k, "Either Key or passphrase must be provided.")
  else if decide (1 < id.length) && hasPassphraseAbove datasets id then
    [("change_key_options.key", id.text ++ " has parent(s) which are encrypted " ++
      "with a passphrase. It is not allowed to have encrypted roots which are " ++
      "encrypted with a key as children for passphrase encrypted datasets.")]
  else []

/-- The dataset is `id`, or inherits from it when `id` has this encryption
root. -/
def Inherits (id : DatasetName) (root : Option DatasetName) (d : Dataset) :
    Prop :=
  d.name = id ∨ d.name.IsBelow id ∧ d.isEncryptionRoot = false ∧ d.encryptionRoot = root

instance (id : DatasetName) (root : Option DatasetName) (d : Dataset) :
    Decidable (Inherits id root d) :=
  inferInstanceAs (Decidable (_ ∨ _))

def follow (id : DatasetName) (root : Option DatasetName)
    (newRoot : DatasetName) (format : Option ZFSKeyFormat) (d : Dataset) :
    Dataset :=
  if Inherits id root d then
    { d with encryptionRoot := some newRoot, keyFormat := format }
  else d

/-- What `zfs change-key` makes of a dataset: `id` becomes an encryption root
with the format, for those that inherit from it too. -/
def rekeyed (id : DatasetName) (root : Option DatasetName)
    (format : ZFSKeyFormat) : Dataset → Dataset :=
  follow id root id (some format)

def changeKey (datasets : List Dataset) (systemPool : String)
    (id : DatasetName) (options : ChangeKeyOptions) :
    Except DatasetError (List Dataset) := do
  let ds ← getInstance datasets id
  verrorsCheck (changeKeyErrors datasets systemPool ds id options)
  let format ← validateEncryptionData options "change_key_options"
  return datasets.map (rekeyed id ds.encryptionRoot format)

/-- What `zfs change-key -i` makes of a dataset. -/
def inherited (id : DatasetName) (root : Dataset) : Dataset → Dataset :=
  follow id (some id) root.name root.keyFormat

/-- A member of `ZFSKeyFormat` against `ZFSKeyFormat.PASSPHRASE.value`, which
is text. -/
def equalsText (_format : Option ZFSKeyFormat) (_text : String) : Bool :=
  false

def inheritParentEncryptionProperties (datasets : List Dataset)
    (id : DatasetName) : Except DatasetError (List Dataset) := do
  let ds ← getInstance datasets id
  raiseIf (!ds.encrypted) ("Dataset " ++ id.text ++ " is not encrypted")
  raiseIf (ds.encryptionRoot ≠ some id) ("Dataset " ++ id.text ++ " is not an encryption root")
  raiseIf ds.locked "Dataset must be unlocked to perform this operation"
  raiseIf (id.length ≤ 1)
    ("Root datasets do not have a parent and cannot " ++
      "inherit encryption settings")
  let parent ← getInstance datasets id.dropLast
  raiseIf (!parent.encrypted) ("This operation requires the parent dataset to " ++ "be encrypted")
  let root ← getInstance datasets (parent.encryptionRoot.getD [])
  raiseIf (equalsText root.keyFormat "PASSPHRASE" && hasKeyRootBelow datasets id)
    (id.text ++ " has children which are encrypted with a key. It is not " ++
      "allowed to have encrypted roots which are encrypted with a key as " ++
      "children for passphrase encrypted datasets.")
  return datasets.map (inherited id root)

inductive Action where
  | changeKey (id : DatasetName) (options : ChangeKeyOptions)
  | inheritParentEncryptionProperties (id : DatasetName)

/-- An accepted operation; `systemPool` has the system dataset. -/
def step (systemPool : String) (datasets : List Dataset) :
    Action → Option (List Dataset)
  | .changeKey id options =>
    (changeKey datasets systemPool id options).toOption
  | .inheritParentEncryptionProperties id =>
    (inheritParentEncryptionProperties datasets id).toOption

variable {datasets next : List Dataset} {systemPool : String}
  {id : DatasetName} {options : ChangeKeyOptions} {ds : Dataset}

theorem getInstance_eq_ok (hget : getInstance datasets id = .ok ds) :
    ds ∈ datasets ∧ ds.name.isInternal = false ∧ ds.name = id := by
  unfold getInstance at hget
  split at hget
  case h_1 found hfound =>
    cases hget
    have hmem := mem_of_find?_eq_some hfound
    rw [poolDatasetQuery, mem_filter] at hmem
    exact ⟨hmem.1, by simpa using hmem.2,
      by simpa using find?_some hfound⟩
  case h_2 => cases hget

theorem validateEncryptionData_eq_ok {schema : String} {format : ZFSKeyFormat}
    (hok : validateEncryptionData options schema = .ok format) :
    format = if (truthy options.passphrase).isSome then .passphrase else .hex := by
  obtain ⟨_, _, hok⟩ := bind_eq_ok_iff.mp hok
  exact (Except.ok.inj hok).symm

theorem verrorsCheck_eq_ok {errors : List VerrorEntry} {u : Unit}
    (hok : verrorsCheck errors = .ok u) : errors = [] := by
  by_contra hne
  rw [verrorsCheck, if_neg hne] at hok
  cases hok

theorem raiseIf_eq_ok {condition : Bool} {message : String} {u : Unit}
    (hok : raiseIf condition message = .ok u) : condition = false := by
  cases condition with
  | false => rfl
  | true => cases hok

theorem changeKey_eq_ok (hok : changeKey datasets systemPool id options = .ok next) :
    ∃ ds format, getInstance datasets id = .ok ds ∧ ds.encrypted = true ∧
      next = datasets.map (rekeyed id ds.encryptionRoot format) ∧
      (format = .passphrase ∧ hasKeyRootBelow datasets id = false ∨ format = .hex ∧
          (1 < id.length → hasPassphraseAbove datasets id = false)) := by
  obtain ⟨ds, hds, hok⟩ := bind_eq_ok_iff.mp hok
  obtain ⟨_, herrors, hok⟩ := bind_eq_ok_iff.mp hok
  obtain ⟨format, hformat, hok⟩ := bind_eq_ok_iff.mp hok
  have hnext := (Except.ok.inj hok).symm
  have hnone := verrorsCheck_eq_ok herrors
  have hchosen := validateEncryptionData_eq_ok hformat
  unfold changeKeyErrors at hnone
  cases hencrypted : ds.encrypted with
  | false => simp [hencrypted] at hnone
  | true =>
    refine ⟨ds, format, hds, hencrypted, hnext, ?_⟩
    cases hpassphrase : (truthy options.passphrase).isSome with
    | true =>
      refine Or.inl ⟨by simpa [hpassphrase] using hchosen, ?_⟩
      cases hbelow : hasKeyRootBelow datasets id with
      | false => rfl
      | true =>
        revert hnone
        split_ifs <;> simp
    | false =>
      refine Or.inr ⟨by simpa [hpassphrase] using hchosen, ?_⟩
      intro hlength
      cases habove : hasPassphraseAbove datasets id with
      | false => rfl
      | true =>
        revert hnone
        split_ifs <;> simp_all

theorem inheritParentEncryptionProperties_eq_ok
    (hok : inheritParentEncryptionProperties datasets id = .ok next) :
    ∃ ds parent root, getInstance datasets id = .ok ds ∧
      ds.encryptionRoot = some id ∧ 1 < id.length ∧
      getInstance datasets id.dropLast = .ok parent ∧
      parent.encrypted = true ∧
      getInstance datasets (parent.encryptionRoot.getD []) = .ok root ∧
      next = datasets.map (inherited id root) := by
  obtain ⟨ds, hds, hok⟩ := bind_eq_ok_iff.mp hok
  obtain ⟨_, _, hok⟩ := bind_eq_ok_iff.mp hok
  obtain ⟨_, hroot, hok⟩ := bind_eq_ok_iff.mp hok
  obtain ⟨_, _, hok⟩ := bind_eq_ok_iff.mp hok
  obtain ⟨_, hlength, hok⟩ := bind_eq_ok_iff.mp hok
  obtain ⟨parent, hparent, hok⟩ := bind_eq_ok_iff.mp hok
  obtain ⟨_, hencrypted, hok⟩ := bind_eq_ok_iff.mp hok
  obtain ⟨root, hparentRoot, hok⟩ := bind_eq_ok_iff.mp hok
  refine ⟨ds, parent, root, hds, ?_, ?_, hparent, ?_, hparentRoot, (Except.ok.inj hok).symm⟩
  · simpa using raiseIf_eq_ok hroot
  · simpa using raiseIf_eq_ok hlength
  · simpa using raiseIf_eq_ok hencrypted

/-! ## Keys and passphrases -/

end ZFSDatasets

def Dataset.IsKeyRoot (d : Dataset) : Prop :=
  d.isEncryptionRoot = true ∧ (d.keyFormat = some .hex ∨ d.keyFormat = some .raw)

def Dataset.HasPassphrase (d : Dataset) : Prop :=
  d.encrypted = true ∧ d.keyFormat = some .passphrase

theorem Dataset.IsKeyRoot.keyFormat_ne {d : Dataset} (hkey : d.IsKeyRoot) :
    d.keyFormat ≠ some .passphrase := by
  rcases hkey.2 with hformat | hformat <;> simp [hformat]

namespace DatasetName

theorem isInternal_of_prefix {name ancestor : DatasetName}
    (hancestor : ancestor <+: name) (hne : ancestor ≠ [])
    (hinternal : ancestor.isInternal = true) : name.isInternal = true := by
  obtain ⟨rest, rfl⟩ := hancestor
  cases ancestor with
  | nil => exact absurd rfl hne
  | cons pool components =>
    simp only [isInternal, Bool.or_eq_true, head?_cons,
      tail_cons, cons_append, any_append] at hinternal ⊢
    rcases hinternal with (hpool | hany) | happlications
    · exact Or.inl (Or.inl hpool)
    · exact Or.inl (Or.inr (Or.inl hany))
    · right
      apply decide_eq_true
      have hmem := of_decide_eq_true happlications
      cases rest with
      | nil => simpa using hmem
      | cons component rest =>
        rw [dropLast_append_of_ne_nil (cons_ne_nil component rest)]
        exact mem_append_left _ (mem_of_mem_dropLast hmem)

theorem IsBelow.length_lt {name ancestor : DatasetName}
    (hbelow : name.IsBelow ancestor) : ancestor.length < name.length := by
  apply lt_of_le_of_ne hbelow.1.length_le
  intro hlength
  exact hbelow.2 (hbelow.1.eq_of_length hlength)

end DatasetName

namespace ZFSDatasets

variable {datasets next : List Dataset} {systemPool : String}
  {id : DatasetName}

/-- What ZFS sees to: a dataset has the encryption root and the format of one
at or above it. -/
structure WellFormed (datasets : List Dataset) : Prop where
  names : (datasets.map Dataset.name).Nodup
  nonempty : ∀ d ∈ datasets, d.name ≠ []
  encrypted_iff : ∀ d ∈ datasets, d.encrypted = true ↔ d.encryptionRoot ≠ none
  root_prefix : ∀ d ∈ datasets, ∀ root, d.encryptionRoot = some root → root <+: d.name
  root_format : ∀ d ∈ datasets, ∀ root, d.encryptionRoot = some root →
    ∃ e ∈ datasets, e.name = root ∧ e.isEncryptionRoot = true ∧ e.keyFormat = d.keyFormat

def KeysAbovePassphrases (roots datasets : List Dataset) : Prop :=
  ∀ d ∈ roots, d.IsKeyRoot → ∀ a ∈ datasets, d.name.IsBelow a.name → ¬ a.HasPassphrase

theorem poolDatasetQuery_map {f : Dataset → Dataset}
    (hname : ∀ d, (f d).name = d.name) (datasets : List Dataset) :
    poolDatasetQuery (datasets.map f) = (poolDatasetQuery datasets).map f := by
  simp only [poolDatasetQuery, List.filter_map]
  congr 1
  apply filter_congr
  simp [hname]

theorem KeysAbovePassphrases.map {f : Dataset → Dataset} (hname : ∀ d, (f d).name = d.name)
    (hkeys : KeysAbovePassphrases (poolDatasetQuery datasets) datasets)
    (hnew : ∀ d ∈ poolDatasetQuery datasets, ∀ a ∈ datasets,
      d.name.IsBelow a.name → (f d).IsKeyRoot → (f a).HasPassphrase →
        ∃ above ∈ datasets, d.IsKeyRoot ∧ d.name.IsBelow above.name ∧ above.HasPassphrase) :
    KeysAbovePassphrases (poolDatasetQuery (datasets.map f)) (datasets.map f) := by
  rw [poolDatasetQuery_map hname]
  intro d' hd' hkey a' ha' hbelow hpassphrase
  obtain ⟨d, hd, rfl⟩ := List.mem_map.mp hd'
  obtain ⟨a, ha, rfl⟩ := List.mem_map.mp ha'
  rw [hname, hname] at hbelow
  obtain ⟨above, habove, hroot, hunder, hold⟩ := hnew d hd a ha hbelow hkey hpassphrase
  exact hkeys d hd hroot above habove hunder hold

section

variable {root : Option DatasetName} {newRoot : DatasetName}
  {format : Option ZFSKeyFormat} {d : Dataset}

@[simp] theorem follow_name : (follow id root newRoot format d).name = d.name := by
  unfold follow
  split <;> rfl

theorem follow_of_inherits (hinherits : Inherits id root d) : follow id root newRoot format d =
    { d with encryptionRoot := some newRoot, keyFormat := format } :=
  if_pos hinherits

theorem follow_of_not_inherits (hinherits : ¬ Inherits id root d) :
    follow id root newRoot format d = d :=
  if_neg hinherits

theorem Inherits.extends (hinherits : Inherits id root d) : id <+: d.name := by
  rcases hinherits with rfl | hbelow
  · exact prefix_rfl
  · exact hbelow.1.1

theorem Inherits.below {name : DatasetName} (hinherits : Inherits id root d)
    (hbelow : name.IsBelow d.name) : name.IsBelow id := by
  rcases hinherits with rfl | hunder
  · exact hbelow
  · exact hbelow.trans hunder.1

theorem WellFormed.follow (hdatasets : WellFormed datasets) {ds e : Dataset}
    (hds : ds ∈ datasets) (hid : ds.name = id) (hencrypted : ds.encrypted = true)
    (hextends : newRoot <+: id) (he : e ∈ datasets) (hename : e.name = newRoot)
    (heroot : (follow id ds.encryptionRoot newRoot format e).isEncryptionRoot = true)
    (heformat : (follow id ds.encryptionRoot newRoot format e).keyFormat = format) :
    WellFormed (datasets.map (follow id ds.encryptionRoot newRoot format)) := by
  have hsome := (hdatasets.encrypted_iff ds hds).mp hencrypted
  constructor
  · rw [List.map_map]
    convert hdatasets.names using 2
    funext d
    exact follow_name
  · intro d' hd'
    obtain ⟨d, hd, rfl⟩ := List.mem_map.mp hd'
    rw [follow_name]
    exact hdatasets.nonempty d hd
  · intro d' hd'
    obtain ⟨d, hd, rfl⟩ := List.mem_map.mp hd'
    by_cases hinherits : Inherits id ds.encryptionRoot d
    · rw [follow_of_inherits hinherits]
      apply iff_of_true _ (some_ne_none _)
      rcases hinherits with hname | ⟨_, _, hroot⟩
      · have hsame := inj_on_of_nodup_map hdatasets.names hd hds (hname.trans hid.symm)
        rw [hsame, hencrypted]
      · rw [hdatasets.encrypted_iff d hd, hroot]
        exact hsome
    · rw [follow_of_not_inherits hinherits]
      exact hdatasets.encrypted_iff d hd
  · intro d' hd' r hr
    obtain ⟨d, hd, rfl⟩ := List.mem_map.mp hd'
    rw [follow_name]
    by_cases hinherits : Inherits id ds.encryptionRoot d
    · rw [follow_of_inherits hinherits] at hr
      cases hr
      exact hextends.trans hinherits.extends
    · rw [follow_of_not_inherits hinherits] at hr
      exact hdatasets.root_prefix d hd r hr
  · intro d' hd' r hr
    obtain ⟨d, hd, rfl⟩ := List.mem_map.mp hd'
    by_cases hinherits : Inherits id ds.encryptionRoot d
    · rw [follow_of_inherits hinherits] at hr ⊢
      cases hr
      exact ⟨_, List.mem_map_of_mem he, by rw [follow_name, hename], heroot,
        heformat⟩
    · rw [follow_of_not_inherits hinherits] at hr ⊢
      obtain ⟨f, hf, hfname, hfroot, hfformat⟩ := hdatasets.root_format d hd r hr
      -- a root that changes is `id`, and then the dataset inherits from it
      have hfsame : ¬ Inherits id ds.encryptionRoot f := by
        rintro (hname | ⟨_, hnotRoot, _⟩)
        · apply hinherits
          have hsame := inj_on_of_nodup_map hdatasets.names hf hds (hname.trans hid.symm)
          have hdsroot : ds.encryptionRoot = some id := by
            rw [← hsame, ← hname]
            simpa [Dataset.isEncryptionRoot] using hfroot
          have hunder : id <+: d.name := by
            rw [← hname, hfname]
            exact hdatasets.root_prefix d hd r hr
          by_cases hdid : d.name = id
          · exact Or.inl hdid
          · refine Or.inr ⟨⟨hunder, Ne.symm hdid⟩, ?_, ?_⟩
            · simp [Dataset.isEncryptionRoot, hr, ← hfname, hname, Ne.symm hdid]
            · rw [hr, hdsroot, ← hfname, hname]
        · rw [hfroot] at hnotRoot
          cases hnotRoot
      refine ⟨f, List.mem_map.mpr ⟨f, hf, follow_of_not_inherits hfsame⟩, hfname, hfroot, hfformat⟩

end

section

variable {options : ChangeKeyOptions} {ds : Dataset}

variable (hdatasets : WellFormed datasets)

include hdatasets

theorem encrypted_of_isEncryptionRoot {d : Dataset} (hd : d ∈ datasets)
    (hroot : d.isEncryptionRoot = true) : d.encrypted = true := by
  rw [hdatasets.encrypted_iff d hd]
  have hsome : d.encryptionRoot = some d.name := by
    simpa [Dataset.isEncryptionRoot] using hroot
  simp [hsome]

theorem changeKey_wellFormed (hok : changeKey datasets systemPool id options = .ok next) :
    WellFormed next := by
  obtain ⟨ds, format, hget, hencrypted, rfl, _⟩ := changeKey_eq_ok hok
  obtain ⟨hds, _, hid⟩ := getInstance_eq_ok hget
  have hself := @follow_of_inherits id ds.encryptionRoot id (some format) ds (Or.inl hid)
  apply hdatasets.follow hds hid hencrypted prefix_rfl hds hid
  · rw [hself]
    simp [Dataset.isEncryptionRoot, hid]
  · rw [hself]

theorem changeKey_keysAbove (hkeys : KeysAbovePassphrases (poolDatasetQuery datasets) datasets)
    (hok : changeKey datasets systemPool id options = .ok next) :
    KeysAbovePassphrases (poolDatasetQuery next) next := by
  obtain ⟨ds, format, hget, hencrypted, rfl, hformat⟩ := changeKey_eq_ok hok
  obtain ⟨hds, hshown, hid⟩ := getInstance_eq_ok hget
  apply hkeys.map fun _ => follow_name
  intro d hd a ha hbelow hkey hpassphrase
  have hdmem := (List.mem_filter.mp hd).1
  by_cases hdfollows : Inherits id ds.encryptionRoot d
  · rw [follow_of_inherits hdfollows] at hkey
    rcases hformat with ⟨rfl, _⟩ | ⟨rfl, habove⟩
    · exact absurd rfl hkey.keyFormat_ne
    · -- only `id` itself is a root now, and nothing above it changes
      have hdid : d.name = id := by
        have hroot := hkey.1
        simpa [Dataset.isEncryptionRoot, eq_comm] using hroot
      have hane : a.name ≠ [] := hdatasets.nonempty a ha
      have hafollows : ¬ Inherits id ds.encryptionRoot a := by
        intro hafollows
        have hself := hafollows.below hbelow
        exact hself.2 hdid.symm
      rw [follow_of_not_inherits hafollows] at hpassphrase
      rw [hdid] at hbelow
      have hashown : a.name.isInternal = false := by
        rw [Bool.eq_false_iff]
        intro hinternal
        have hidInternal := DatasetName.isInternal_of_prefix hbelow.1 hane hinternal
        rw [hid, hidInternal] at hshown
        cases hshown
      have hlength : 1 < id.length := by
        have hpos := List.length_pos_iff.mpr hane
        have hlt := hbelow.length_lt
        omega
      have hfound : hasPassphraseAbove datasets id = true := by
        rw [hasPassphraseAbove, List.any_eq_true]
        refine ⟨a, List.mem_filter.mpr ⟨ha, by simp [hashown]⟩, ?_⟩
        simp [hbelow, hane, hpassphrase.1, hpassphrase.2]
      rw [habove hlength] at hfound
      cases hfound
  · rw [follow_of_not_inherits hdfollows] at hkey
    by_cases hafollows : Inherits id ds.encryptionRoot a
    · rw [follow_of_inherits hafollows] at hpassphrase
      rcases hformat with ⟨rfl, hbelowKey⟩ | ⟨rfl, _⟩
      · exfalso
        have hfound : hasKeyRootBelow datasets id = true := by
          rw [hasKeyRootBelow, List.any_eq_true]
          refine ⟨d, hd, ?_⟩
          simp [hafollows.below hbelow, hkey.1, hkey.keyFormat_ne,
            encrypted_of_isEncryptionRoot hdatasets hdmem hkey.1]
        rw [hbelowKey] at hfound
        cases hfound
      · cases hpassphrase.2
    · rw [follow_of_not_inherits hafollows] at hpassphrase
      exact ⟨a, ha, hkey, hbelow, hpassphrase⟩

theorem parent_of_inherit (hok : inheritParentEncryptionProperties datasets id = .ok next) :
    ∃ ds ∈ datasets, ∃ parent ∈ datasets, ∃ root ∈ datasets,
      ds.name = id ∧ ds.encryptionRoot = some id ∧ id.IsBelow parent.name ∧
      parent.encrypted = true ∧ root.name <+: parent.name ∧
      root.isEncryptionRoot = true ∧ root.keyFormat = parent.keyFormat ∧
      next = datasets.map (inherited id root) := by
  obtain ⟨ds, parent, root, hget, hroot, hlength, hparent, hencrypted,
    hparentRoot, hnext⟩ := inheritParentEncryptionProperties_eq_ok hok
  obtain ⟨hds, _, hid⟩ := getInstance_eq_ok hget
  obtain ⟨hparentMem, _, hparentName⟩ := getInstance_eq_ok hparent
  obtain ⟨hrootMem, _, hrootName⟩ := getInstance_eq_ok hparentRoot
  obtain ⟨r, hr⟩ := ne_none_iff_exists'.mp
    ((hdatasets.encrypted_iff parent hparentMem).mp hencrypted)
  rw [hr, getD_some] at hrootName
  obtain ⟨e, he, hename, heroot, heformat⟩ := hdatasets.root_format parent hparentMem r hr
  have hsame : e = root := inj_on_of_nodup_map hdatasets.names he hrootMem
    (hename.trans hrootName.symm)
  rw [hsame] at heroot heformat
  refine ⟨ds, hds, parent, hparentMem, root, hrootMem, hid, hroot, ?_,
    hencrypted, ?_, heroot, heformat, hnext⟩
  · rw [hparentName]
    refine ⟨ dropLast_prefix id, ?_⟩
    intro heq
    have hlengths := congrArg List.length heq
    rw [length_dropLast] at hlengths
    omega
  · rw [hrootName]
    exact hdatasets.root_prefix parent hparentMem r hr

omit hdatasets in
theorem not_inherits_of_extends {parent : DatasetName} {d : Dataset}
    {old : Option DatasetName} (hparent : id.IsBelow parent)
    (hroot : d.name <+: parent) : ¬ Inherits id old d := by
  intro hinherits
  have hle := (hinherits.extends.trans hroot).length_le
  have hlt := hparent.length_lt
  omega

theorem inherit_wellFormed (hok : inheritParentEncryptionProperties datasets id = .ok next) :
    WellFormed next := by
  obtain ⟨ds, hds, parent, _, root, hroot, hid, hdsroot, hbelow, _, hextends,
    hisRoot, _, rfl⟩ := parent_of_inherit hdatasets hok
  have hencrypted : ds.encrypted = true := by
    rw [hdatasets.encrypted_iff ds hds, hdsroot]
    exact some_ne_none id
  have hsame : follow id (some id) root.name root.keyFormat root = root :=
    follow_of_not_inherits (not_inherits_of_extends hbelow hextends)
  unfold inherited
  rw [← hdsroot]
  rw [← hdsroot] at hsame
  exact hdatasets.follow hds hid hencrypted (hextends.trans hbelow.1) hroot rfl
    (by rw [hsame, hisRoot]) (by rw [hsame])

theorem inherit_keysAbove (hkeys : KeysAbovePassphrases (poolDatasetQuery datasets) datasets)
    (hok : inheritParentEncryptionProperties datasets id = .ok next) :
    KeysAbovePassphrases (poolDatasetQuery next) next := by
  obtain ⟨ds, hds, parent, hparent, root, hroot, hid, hdsroot, hbelow,
    hencrypted, hextends, hisRoot, hformat, rfl⟩ := parent_of_inherit hdatasets hok
  apply hkeys.map fun _ => follow_name
  intro d hd a ha hunder hkey hpassphrase
  by_cases hdfollows : Inherits id (some id) d
  · -- the new root is above `id`, so a dataset that follows is no root
    rw [follow_of_inherits hdfollows] at hkey
    have hdroot : root.name = d.name := by
      simpa [Dataset.isEncryptionRoot] using hkey.1
    have hle := hdfollows.extends.length_le
    have hroots := hextends.length_le
    have hlt := hbelow.length_lt
    rw [hdroot] at hroots
    omega
  · rw [follow_of_not_inherits hdfollows] at hkey
    by_cases hafollows : Inherits id (some id) a
    · rw [follow_of_inherits hafollows] at hpassphrase
      refine ⟨parent, hparent, hkey, (hafollows.below hunder).trans hbelow, hencrypted, ?_⟩
      rw [← hformat]
      exact hpassphrase.2
    · rw [follow_of_not_inherits hafollows] at hpassphrase
      exact ⟨a, ha, hkey, hunder, hpassphrase⟩

end

open TransitionSystem

/-- In a well-formed tree where no root shown with a key is below a passphrase,
accepted operations keep it so. -/
theorem keys_stay_above_passphrases (hdatasets : WellFormed datasets)
    (hkeys : KeysAbovePassphrases (poolDatasetQuery datasets) datasets)
    {actions : List Action}
    (hrun : run (step systemPool) datasets actions = some next) :
    WellFormed next ∧ KeysAbovePassphrases (poolDatasetQuery next) next := by
  apply run_invariant (p := fun tree => WellFormed tree ∧
      KeysAbovePassphrases (poolDatasetQuery tree) tree) _
    ⟨hdatasets, hkeys⟩ hrun
  intro tree action after htree hstep
  cases action with
  | changeKey id options =>
    have hok := toOption_eq_some_iff.mp hstep
    exact ⟨changeKey_wellFormed htree.1 hok, changeKey_keysAbove htree.1 htree.2 hok⟩
  | inheritParentEncryptionProperties id =>
    have hok := toOption_eq_some_iff.mp hstep
    exact ⟨inherit_wellFormed htree.1 hok, inherit_keysAbove htree.1 htree.2 hok⟩

/-- `name` as an unlocked encryption root with a key of its own. -/
def keyRoot (name : DatasetName) : Dataset where
  name := name
  encrypted := true
  encryptionRoot := some name
  keyFormat := some .hex
  keyLoaded := true

def toPassphrase : ChangeKeyOptions where
  generateKey := false
  keyFile := false
  pbkdf2iters := 350000
  passphrase := some "correct horse"
  key := none

theorem nested_wellFormed {name component : String} :
    WellFormed [keyRoot [name], keyRoot [name, component]] := by
  constructor <;> simp [keyRoot, Dataset.isEncryptionRoot]

theorem nested_keysAbove {name component : String} :
    KeysAbovePassphrases [keyRoot [name], keyRoot [name, component]]
      [keyRoot [name], keyRoot [name, component]] := by
  intro d _ _ a ha _ hpassphrase
  simp only [mem_cons, not_mem_nil, or_false] at ha
  rcases ha with rfl | rfl <;> simp [Dataset.HasPassphrase, keyRoot] at hpassphrase

def inheritThenPassphrase : List Action :=
  [.inheritParentEncryptionProperties ["tank", "work"], .changeKey ["tank"] toPassphrase]

theorem inheritThenPassphrase_keysAbove :
    ∃ next, run (step "ssd") [keyRoot ["tank"], keyRoot ["tank", "work"]]
        inheritThenPassphrase = some next ∧
      KeysAbovePassphrases (poolDatasetQuery next) next := by
  have hkeys : KeysAbovePassphrases (poolDatasetQuery [keyRoot ["tank"], keyRoot ["tank", "work"]])
      [keyRoot ["tank"], keyRoot ["tank", "work"]] := nested_keysAbove
  exact ⟨_, rfl, (@keys_stay_above_passphrases _ _ "ssd" nested_wellFormed
    hkeys inheritThenPassphrase rfl).2⟩

/-- An internal dataset keeps its key below a new passphrase. -/
theorem internal_key_below_passphrase : WellFormed [keyRoot ["tank"], keyRoot ["tank", ".system"]] ∧
    KeysAbovePassphrases [keyRoot ["tank"], keyRoot ["tank", ".system"]]
      [keyRoot ["tank"], keyRoot ["tank", ".system"]] ∧
    ∃ next, step "ssd" [keyRoot ["tank"], keyRoot ["tank", ".system"]]
        (.changeKey ["tank"] toPassphrase) = some next ∧
      ¬ KeysAbovePassphrases next next := by
  refine ⟨nested_wellFormed, nested_keysAbove, _, rfl, ?_⟩
  intro hkeys
  apply hkeys (keyRoot ["tank", ".system"])
    (mem_cons_of_mem _ mem_cons_self) ⟨by decide, Or.inl rfl⟩ _
    mem_cons_self (by decide)
  exact ⟨rfl, rfl⟩

end ZFSDatasets

end Middlewared
