import Middlewared.DatasetChangeKey
import Middlewared.PyHex

/-!
# Encryption options, with a key or a key file

A key given as text goes to ZFS as it is.  A key file is read as a number and
written again, which leaves out the zeros in front.
-/

namespace Middlewared

open List

structure EncryptionDict extends ChangeKeyOptions where
  enabled : Bool
  algorithm : String

structure EncryptionProperties where
  keyformat : ZFSKeyFormat
  (keylocation encryption : String)
  key : Option String
  pbkdf2iters : Option ℕ

structure PipedJob where
  input : Option (List Char)

structure ValidatedEncryption where
  verrors : List VerrorEntry
  opts : Option EncryptionProperties

namespace EncryptionDict

def lower (text : String) : String :=
  String.ofList (text.toList.map Char.toLower)

def properties (dict : EncryptionDict) (key : Option String) :
    EncryptionProperties where
  keyformat := if (truthy dict.passphrase).isSome then .passphrase else .hex
  keylocation := "prompt"
  encryption := lower dict.algorithm
  key := key
  pbkdf2iters := if (truthy dict.passphrase).isSome then some dict.pbkdf2iters else none

/-- `hex(int(key, 16))[2:]`, of the length of a key. -/
def keyOfFile (data : List Char) : Option String :=
  match PyHex.intBase16 data with
  | none => none
  | some number =>
    let digits := (PyHex.hex number).drop 2
    if digits.length = 64 then some (String.ofList digits) else none

/-- `validate_encryption_data`; a text stands for the `ValueError` of a pipe
that is not open. -/
def validate (tokenHex : String) (job : Option PipedJob)
    (verrors : List VerrorEntry) (dict : EncryptionDict) (schema : String) :
    Except String ValidatedEncryption :=
  if !dict.enabled then .ok ⟨verrors, none⟩
  else
    let verrors := verrors ++ encryptionDataErrors dict.toChangeKeyOptions schema
    if verrors ≠ [] then .ok ⟨verrors, none⟩
    else
      -- `key or passphrase`
      let key := if (truthy dict.key).isSome then dict.key else dict.passphrase
      if dict.generateKey then
        .ok ⟨verrors, some (dict.properties (some tokenHex))⟩
      else
        match (truthy key).isSome, job with
        | false, some job =>
          match job.input with
          | none => .error "Pipe 'input' is not open"
          | some data =>
            match keyOfFile (data.take 64) with
            | some key => .ok ⟨verrors, some (dict.properties (some key))⟩
            | none =>
              .ok ⟨[(schema ++ ".key_file", "Please specify a valid key")], none⟩
        | _, _ => .ok ⟨verrors, some (dict.properties key)⟩

def withKey (dict : EncryptionDict) (text : List Char) : EncryptionDict :=
  { dict with key := some (String.ofList text), keyFile := false }

def withKeyFile (dict : EncryptionDict) : EncryptionDict :=
  { dict with key := none, keyFile := true }

def Accepts (outcome : Except String ValidatedEncryption)
    (properties : EncryptionProperties) : Prop :=
  outcome = .ok ⟨[], some properties⟩

def HasKey (properties : EncryptionProperties) (number : ℕ) : Prop :=
  ∃ key : String, properties.key = some key ∧ key.toList.length = 64 ∧
    PyHex.digitsNumber key.toList 0 = some number

/-- Whatever the other options, a file with the text is accepted where the text
is accepted as the key, and both give a key for the same number. -/
def KeyFileAgrees (text : List Char) : Prop :=
  ∀ (tokenHex : String) (verrors : List VerrorEntry) (dict : EncryptionDict)
    (schema : String) (after : List Char) (inline : EncryptionProperties),
    Accepts (validate tokenHex (some ⟨some (text ++ after)⟩) verrors
      (dict.withKey text) schema) inline →
    ∃ fromFile number, Accepts (validate tokenHex (some ⟨some (text ++ after)⟩) verrors
        dict.withKeyFile schema) fromFile ∧
      HasKey inline number ∧ HasKey fromFile number

theorem truthy_isSome_ofList {text : List Char} (hne : text ≠ []) :
    (truthy (some (String.ofList text))).isSome = true := by
  have hempty : String.ofList text ≠ "" := by
    intro heq
    have htext := congrArg String.toList heq
    rw [String.toList_ofList] at htext
    exact hne (htext.trans rfl)
  simp [truthy, hempty]

theorem accepts_withKey_iff {text : List Char} (hne : text ≠ [])
    {tokenHex : String} {job : Option PipedJob} {verrors : List VerrorEntry}
    {dict : EncryptionDict} {schema : String}
    {properties : EncryptionProperties} :
    Accepts (validate tokenHex job verrors (dict.withKey text) schema) properties ↔
      verrors = [] ∧ dict.enabled = true ∧ dict.generateKey = false ∧
        (truthy dict.passphrase).isSome = false ∧
        (dict.withKey text).properties (some (String.ofList text)) = properties := by
  have hkey := truthy_isSome_ofList hne
  by_cases hverrors : verrors = []
  · cases henabled : dict.enabled <;> cases hgenerate : dict.generateKey <;>
      cases hpassphrase : (truthy dict.passphrase).isSome <;>
      simp [Accepts, validate, withKey, encryptionDataErrors, hverrors,
        henabled, hgenerate, hpassphrase, hkey]
  · cases henabled : dict.enabled <;> simp [Accepts, validate, hverrors, withKey, henabled]

section

variable {text : List Char} (hlength : text.length = 64)
  (hdigits : ∀ c ∈ text, PyHex.IsHexDigit c)

include hlength hdigits

theorem keyOfFile_eq {number : ℕ} (hnumber : PyHex.digitsNumber text 0 = some number) :
    keyOfFile text = if text.head? = some '0' then none
      else some (String.ofList (Nat.toDigits 16 number)) := by
  cases text with
  | nil => cases hlength
  | cons c rest =>
    have hrest : rest ≠ [] := by
      intro hnil
      rw [hnil] at hlength
      cases hlength
    have hshort := PyHex.length_toDigits_eq_iff hnumber hrest
    have hhex : (PyHex.hex (Int.ofNat number)).drop 2 = Nat.toDigits 16 number := by
      rfl
    rw [hlength] at hshort
    rw [keyOfFile, PyHex.intBase16_eq hdigits (cons_ne_nil c rest), hnumber]
    simp only [Option.map_some, hhex, hshort, head?_cons, Option.some_inj, ne_eq, ite_not]

theorem accepts_withKeyFile_iff {tokenHex : String} {after : List Char}
    {dict : EncryptionDict} {schema : String} {number : ℕ}
    {properties : EncryptionProperties}
    (hnumber : PyHex.digitsNumber text 0 = some number)
    (henabled : dict.enabled = true) (hgenerate : dict.generateKey = false)
    (hpassphrase : (truthy dict.passphrase).isSome = false) :
    Accepts (validate tokenHex (some ⟨some (text ++ after)⟩) []
        dict.withKeyFile schema) properties ↔
      text.head? ≠ some '0' ∧ dict.withKeyFile.properties
          (some (String.ofList (Nat.toDigits 16 number))) = properties := by
  have htake : (text ++ after).take 64 = text := by
    rw [← hlength, take_left]
  have hnone : (truthy none).isSome = false := rfl
  by_cases hhead : text.head? = some '0'
  · simp [Accepts, validate, withKeyFile, encryptionDataErrors, henabled,
      hgenerate, hpassphrase, hnone, htake,
      keyOfFile_eq hlength hdigits hnumber, hhead]
  · simp [Accepts, validate, withKeyFile, encryptionDataErrors, henabled,
      hgenerate, hpassphrase, hnone, htake,
      keyOfFile_eq hlength hdigits hnumber, hhead]

/-- A key file denotes the key of the same text if and only if the text does
not begin with a zero. -/
theorem keyFileAgrees_iff : KeyFileAgrees text ↔ text.head? ≠ some '0' := by
  have hne : text ≠ [] := by
    intro hnil
    rw [hnil] at hlength
    cases hlength
  obtain ⟨number, hnumber⟩ := PyHex.exists_digitsNumber hdigits 0
  constructor
  · intro hagrees
    let dict : EncryptionDict := ⟨⟨false, false, 350000, none, none⟩, true, ""⟩
    have hinline : Accepts (validate "" (some ⟨some (text ++ [])⟩) [] (dict.withKey text) "")
        ((dict.withKey text).properties (some (String.ofList text))) :=
      (accepts_withKey_iff hne).mpr ⟨rfl, rfl, rfl, rfl, rfl⟩
    obtain ⟨fromFile, _, hfile, _⟩ := hagrees "" [] dict "" [] _ hinline
    exact ((accepts_withKeyFile_iff hlength hdigits hnumber rfl rfl rfl).mp hfile).1
  · intro hhead tokenHex verrors dict schema after inline hinline
    obtain ⟨hverrors, henabled, hgenerate, hpassphrase, hproperties⟩ :=
      (accepts_withKey_iff hne).mp hinline
    subst hverrors
    have hfile : Accepts (validate tokenHex (some ⟨some (text ++ after)⟩) []
        dict.withKeyFile schema)
        (dict.withKeyFile.properties (some (String.ofList (Nat.toDigits 16 number)))) :=
      (accepts_withKeyFile_iff hlength hdigits hnumber henabled hgenerate
        hpassphrase).mpr ⟨hhead, rfl⟩
    have hdigitsLength : (Nat.toDigits 16 number).length = 64 := by
      cases text with
      | nil => cases hlength
      | cons c rest =>
        have hrest : rest ≠ [] := by
          intro hnil
          rw [hnil] at hlength
          cases hlength
        rw [(PyHex.length_toDigits_eq_iff hnumber hrest).mpr
          (fun hc => hhead (by rw [hc]; rfl)), hlength]
    refine ⟨_, number, hfile, ?_, ?_⟩
    · rw [← hproperties]
      exact ⟨String.ofList text, rfl, by rw [String.toList_ofList, hlength],
        by rw [String.toList_ofList, hnumber]⟩
    · exact ⟨_, rfl, by rw [String.toList_ofList, hdigitsLength],
        by rw [String.toList_ofList, PyHex.digitsNumber_toDigits]⟩

end

theorem keyFileAgrees_of_letters : KeyFileAgrees (List.replicate 64 'f') :=
  (keyFileAgrees_iff (length_replicate ..)
    (fun c hc => by rw [eq_of_mem_replicate hc]; rfl)).mpr nofun

/-- A key that begins with a zero is one digit short in the file. -/
theorem not_keyFileAgrees_of_zero : ¬ ∀ text : List Char, text.length = 64 →
    (∀ c ∈ text, PyHex.IsHexDigit c) → KeyFileAgrees text := by
  intro hall
  have hdigits : ∀ c ∈ '0' :: List.replicate 63 'f', PyHex.IsHexDigit c := by
    intro c hc
    rcases List.mem_cons.mp hc with heq | hmem
    · rw [heq]
      rfl
    · rw [eq_of_mem_replicate hmem]
      rfl
  have hlength : ('0' :: List.replicate 63 'f').length = 64 := rfl
  obtain ⟨number, hnumber⟩ := PyHex.exists_digitsNumber hdigits 0
  let dict : EncryptionDict := ⟨⟨false, false, 350000, none, none⟩, true, "on"⟩
  obtain ⟨fromFile, _, hfile, _⟩ := hall _ hlength hdigits "" [] dict "change_key_options" [] _
    ((accepts_withKey_iff (cons_ne_nil _ _)).mpr ⟨rfl, rfl, rfl, rfl, rfl⟩)
  exact ((accepts_withKeyFile_iff hlength hdigits hnumber rfl rfl rfl).mp hfile).1 rfl

end EncryptionDict

end Middlewared
