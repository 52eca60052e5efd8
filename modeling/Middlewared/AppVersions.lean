import Middlewared.Dict
import Middlewared.ExceptRules
import Middlewared.PyString
import Middlewared.StableSort
import Middlewared.ValidationErrors

/-!
# Versions of an app

The latest version is found by parsing the keys of the map, sorting them and printing the newest.
-/

namespace Middlewared

open List

/-- `parse_version`, what versions are compared by, and their normal form. -/
structure VersionScheme (V K : Type) where
  parse : String → Option V
  key : V → K
  str : V → String
  parse_str : ∀ text v, parse text = some v → parse (str v) = some v

structure AppVersion where
  healthy : Bool
  (version humanVersion : String)

inductive AppUpgradeError where
  | callError (message : String)
  | invalidVersion (text : String)
  | keyError (key : String)
  | indexError
  | validation (errors : List VerrorEntry)

/-- What `app.get_versions` returns. -/
structure VersionsConfig where
  specifiedVersion : AppVersion
  versions : Dict String AppVersion
  latestVersion : AppVersion

namespace VersionScheme

variable {V K : Type} (scheme : VersionScheme V K)

def parseVersion (text : String) : Except AppUpgradeError V :=
  match scheme.parse text with
  | some version => .ok version
  | none => .error (.invalidVersion text)

variable {text : String}

variable {version : V}

theorem parseVersion_eq_ok_iff {scheme : VersionScheme V K} :
    scheme.parseVersion text = .ok version ↔ scheme.parse text = some version := by
  unfold parseVersion
  cases scheme.parse text <;> simp

theorem mapM_parseVersion_append {scheme : VersionScheme V K}
    {before after : List String} {parsed : List V}
    (hmap : (before ++ text :: after).mapM scheme.parseVersion = .ok parsed)
    (htext : scheme.parse text = some version) :
    ∃ vs ws, parsed = vs ++ version :: ws ∧
      (∀ v ∈ vs, ∃ other ∈ before, scheme.parse other = some v) ∧
      ∀ w ∈ ws, ∃ other ∈ after, scheme.parse other = some w := by
  rw [mapM_append, bind_eq_ok_iff] at hmap
  obtain ⟨vs, hvs, hmap⟩ := hmap
  rw [bind_eq_ok_iff] at hmap
  obtain ⟨tail, htail, hmap⟩ := hmap
  rw [mapM_cons, parseVersion_eq_ok_iff.mpr htext, ok_bind, bind_eq_ok_iff] at htail
  obtain ⟨ws, hws, htail⟩ := htail
  have hsplit : vs ++ tail = parsed := Except.ok.inj hmap
  have hcons : version :: ws = tail := Except.ok.inj htail
  refine ⟨vs, ws, by rw [← hsplit, ← hcons], ?_, ?_⟩
  · intro v hv
    obtain ⟨other, hother, hparse⟩ := exists_of_mem_mapM_results hvs hv
    exact ⟨other, hother, parseVersion_eq_ok_iff.mp hparse⟩
  · intro w hw
    obtain ⟨other, hother, hparse⟩ := exists_of_mem_mapM_results hws hw
    exact ⟨other, hother, parseVersion_eq_ok_iff.mp hparse⟩

variable [LinearOrder K]

/-- The order of `sorted(.., reverse=True)`, which keeps ties in place. -/
def NotOlder (v w : V) : Prop :=
  scheme.key w ≤ scheme.key v

instance : DecidableRel scheme.NotOlder :=
  fun v w => inferInstanceAs (Decidable (scheme.key w ≤ scheme.key v))

/-- `get_latest_version_from_app_versions` -/
def latestVersion (appVersions : Dict String AppVersion) :
    Except AppUpgradeError String :=
  if appVersions.entries.isEmpty then .error (.callError "No versions found")
  else if appVersions.entries.all fun entry => !entry.2.healthy then
    .error (.callError "No healthy app version found")
  else do
    let parsed ← appVersions.keys.mapM scheme.parseVersion
    match parsed.insertionSort scheme.NotOlder with
    | [] => .error .indexError
    | newest :: _ => return scheme.str newest

def notNewer : AppUpgradeError :=
  .validation [("options.app_version", "Upgrade version must be greater than current version")]

/-- `app.get_versions` for an app of this name and version. -/
def getVersions (name installed : String) (versions : Dict String AppVersion)
    (appVersion : String) : Except AppUpgradeError VersionsConfig := do
  let newVersion ←
    if appVersion = "latest" then scheme.latestVersion versions
    else pure appVersion
  match versions.get? newVersion with
  | none =>
    .error (.callError ("Unable to locate " ++ PyString.repr newVersion ++
      " version for " ++ PyString.repr name ++ " app"))
  | some specified =>
    let new ← scheme.parseVersion newVersion
    let current ← scheme.parseVersion installed
    if scheme.key new ≤ scheme.key current then .error notNewer
    else
      let latest ← scheme.latestVersion versions
      match versions.get? latest with
      | none => .error (.keyError latest)
      | some latestVersion => return ⟨specified, versions, latestVersion⟩

/-- The latest version is a healthy key that no healthy key is newer than;
`app.get_versions` finds it, and refuses it just for an app that is as new. -/
def LatestInstallable (appVersions : Dict String AppVersion) : Prop :=
  ∃ latest version details, scheme.latestVersion appVersions = .ok latest ∧
    appVersions.get? latest = some details ∧ details.healthy = true ∧
    scheme.parse latest = some version ∧
    (∀ other otherVersion otherDetails, appVersions.get? other = some otherDetails →
      otherDetails.healthy = true → scheme.parse other = some otherVersion →
      scheme.key otherVersion ≤ scheme.key version) ∧
    ∀ name installed current, scheme.parse installed = some current →
      (scheme.key version ≤ scheme.key current →
        scheme.getVersions name installed appVersions "latest" = .error notNewer) ∧
      (scheme.key current < scheme.key version →
        scheme.getVersions name installed appVersions "latest" =
          .ok ⟨details, appVersions, details⟩)

def FirstNewest (appVersions : Dict String AppVersion) (text : String)
    (version : V) : Prop :=
  ∃ before after, appVersions.keys = before ++ text :: after ∧ scheme.parse text = some version ∧
    (∀ other ∈ before, ∀ v, scheme.parse other = some v → scheme.key v < scheme.key version) ∧
    ∀ other ∈ after, ∀ v, scheme.parse other = some v → scheme.key v ≤ scheme.key version

variable {scheme} {appVersions : Dict String AppVersion}

/-- Every key of the map is a version, and one of them is healthy. -/
structure Listed (scheme : VersionScheme V K)
    (appVersions : Dict String AppVersion) : Prop where
  parses : ∀ text ∈ appVersions.keys, (scheme.parse text).isSome
  healthy : ∃ text details, appVersions.get? text = some details ∧ details.healthy = true

theorem Listed.exists_firstNewest (hlisted : scheme.Listed appVersions) :
    ∃ text version, scheme.FirstNewest appVersions text version := by
  obtain ⟨key, details, hget, _⟩ := hlisted.healthy
  have hkey : key ∈ appVersions.keys := Dict.mem_of_get?_eq_some hget
  obtain ⟨default, _⟩ := Option.isSome_iff_exists.mp (hlisted.parses key hkey)
  let versionOf (text : String) : V := (scheme.parse text).getD default
  have hparse : ∀ text ∈ appVersions.keys, ∀ v, scheme.parse text = some v →
      versionOf text = v := by
    intro text _ v hv
    simp [versionOf, hv]
  obtain ⟨before, text, after, hkeys, hbefore, hafter⟩ := @StableSort.exists_first _
      (fun a b => scheme.NotOlder (versionOf a) (versionOf b))
      (fun a b => le_total _ _) (fun a b c hab hbc => le_trans hbc hab) _
      (ne_nil_of_mem hkey)
  have htext : text ∈ appVersions.keys := by
    rw [hkeys]
    simp
  obtain ⟨version, hversion⟩ := Option.isSome_iff_exists.mp (hlisted.parses text htext)
  have hof := hparse text htext version hversion
  refine ⟨text, version, before, after, hkeys, hversion, ?_, ?_⟩
  · intro other hother v hv
    have hmem : other ∈ appVersions.keys := by
      rw [hkeys]
      exact mem_append_left _ hother
    have hnot := hbefore other hother
    rw [NotOlder, hof, hparse other hmem v hv] at hnot
    exact not_le.mp hnot
  · intro other hother v hv
    have hmem : other ∈ appVersions.keys := by
      rw [hkeys]
      exact mem_append_right _ (mem_cons_of_mem _ hother)
    have hle := hafter other hother
    rw [NotOlder, hof, hparse other hmem v hv] at hle
    exact hle

theorem Listed.latestVersion_eq (hlisted : scheme.Listed appVersions)
    (hfirst : scheme.FirstNewest appVersions text version) :
    scheme.latestVersion appVersions = .ok (scheme.str version) := by
  obtain ⟨before, after, hkeys, htext, hbefore, hafter⟩ := hfirst
  obtain ⟨key, details, hget, hhealthy⟩ := hlisted.healthy
  have hentry : (key, details) ∈ appVersions.entries := Dict.mem_entries_iff.mpr hget
  have hnonempty : appVersions.entries.isEmpty = false := by
    rw [isEmpty_eq_false_iff]
    exact ne_nil_of_mem hentry
  have hsome : (appVersions.entries.all fun entry => !entry.2.healthy) = false := by
    rw [List.all_eq_false]
    exact ⟨_, hentry, by simp [hhealthy]⟩
  obtain ⟨parsed, hparsed⟩ := exists_mapM_eq_ok
    (f := scheme.parseVersion) (l := appVersions.keys) (by
      intro other hother
      obtain ⟨v, hv⟩ := Option.isSome_iff_exists.mp (hlisted.parses other hother)
      exact ⟨v, parseVersion_eq_ok_iff.mpr hv⟩)
  have hmap := hparsed
  rw [hkeys] at hmap
  obtain ⟨vs, ws, hsplit, hvs, hws⟩ := mapM_parseVersion_append hmap htext
  have holder : ∀ v ∈ vs, ¬ scheme.NotOlder v version := by
    intro v hv
    obtain ⟨other, hother, hparse⟩ := hvs v hv
    exact not_le.mpr (hbefore other hother v hparse)
  have hnewer : ∀ w ∈ ws, scheme.NotOlder version w := by
    intro w hw
    obtain ⟨other, hother, hparse⟩ := hws w hw
    exact hafter other hother w hparse
  obtain ⟨rest, hsort⟩ := StableSort.insertionSort_eq_cons holder hnewer
  unfold latestVersion
  rw [hnonempty, hsome, hparsed, ok_bind, hsplit, hsort]
  rfl

theorem FirstNewest.le {other : String} {v : V}
    (hfirst : scheme.FirstNewest appVersions text version)
    (hother : other ∈ appVersions.keys) (hv : scheme.parse other = some v) :
    scheme.key v ≤ scheme.key version := by
  obtain ⟨before, after, hkeys, htext, hbefore, hafter⟩ := hfirst
  rw [hkeys] at hother
  rcases List.mem_append.mp hother with hmem | hmem
  · exact (hbefore other hmem v hv).le
  · rcases List.mem_cons.mp hmem with heq | hmem
    · rw [heq, htext] at hv
      rw [Option.some.inj hv]
    · exact hafter other hmem v hv

theorem getVersions_latest {name installed latest : String} {current : V} {details : AppVersion}
    (hlatest : scheme.latestVersion appVersions = .ok latest)
    (hget : appVersions.get? latest = some details)
    (hversion : scheme.parse latest = some version)
    (hcurrent : scheme.parse installed = some current) :
    scheme.getVersions name installed appVersions "latest" =
      if scheme.key version ≤ scheme.key current then .error notNewer
      else .ok ⟨details, appVersions, details⟩ := by
  unfold getVersions
  simp only [if_true, hlatest, ok_bind, hget,
    parseVersion_eq_ok_iff.mpr hversion, parseVersion_eq_ok_iff.mpr hcurrent]
  rfl

/-- The latest version is installable if and only if the newest key, printed
again, is a healthy key. -/
theorem latestInstallable_iff (hlisted : scheme.Listed appVersions) :
    scheme.LatestInstallable appVersions ↔
      ∃ text version details, scheme.FirstNewest appVersions text version ∧
        appVersions.get? (scheme.str version) = some details ∧
        details.healthy = true := by
  constructor
  · rintro ⟨latest, _, details, hlatest, hget, hhealthy, _⟩
    obtain ⟨text, version, hfirst⟩ := hlisted.exists_firstNewest
    rw [hlisted.latestVersion_eq hfirst] at hlatest
    have heq := Except.ok.inj hlatest
    subst heq
    exact ⟨text, version, details, hfirst, hget, hhealthy⟩
  · rintro ⟨text, version, details, hfirst, hget, hhealthy⟩
    have hlatest := hlisted.latestVersion_eq hfirst
    have hparse : scheme.parse (scheme.str version) = some version := by
      obtain ⟨_, _, _, htext, _⟩ := hfirst
      exact scheme.parse_str text version htext
    refine ⟨scheme.str version, version, details, hlatest, hget, hhealthy, hparse, ?_, ?_⟩
    · intro other otherVersion otherDetails hother _ hv
      exact hfirst.le (Dict.mem_of_get?_eq_some hother) hv
    · intro name installed current hcurrent
      have hversions : scheme.getVersions name installed appVersions "latest" =
          _ := getVersions_latest hlatest hget hparse hcurrent
      constructor
      · intro hle
        rw [hversions, if_pos hle]
      · intro hlt
        rw [hversions, if_neg (not_le.mpr hlt)]

def releases : VersionScheme ℕ ℕ where
  parse text := if text = "1.0.0" then some 0
    else if text = "1.1.0" ∨ text = "01.1.0" then some 1
    else none
  key version := version
  str version := if version = 0 then "1.0.0" else "1.1.0"
  parse_str := by
    intro text version hparse
    split at hparse
    · rw [← Option.some.inj hparse]
      rfl
    · split at hparse
      · rw [← Option.some.inj hparse]
        rfl
      · cases hparse

def twoReleases (healthy : Bool) : Dict String AppVersion where
  entries := [("1.0.0", ⟨true, "1.0.0", "1.0.0"⟩), ("1.1.0", ⟨healthy, "1.1.0", "1.1.0"⟩)]
  nodup := by simp

theorem listed_twoReleases (healthy : Bool) : releases.Listed (twoReleases healthy) where
  parses := by
    intro text htext
    have hcases : text = "1.0.0" ∨ text = "1.1.0" := by
      simpa [twoReleases, Dict.keys] using htext
    rcases hcases with heq | heq
    · rw [heq]
      rfl
    · rw [heq]
      rfl
  healthy := ⟨"1.0.0", _, rfl, rfl⟩

theorem latestInstallable_releases : releases.LatestInstallable (twoReleases true) :=
  (latestInstallable_iff (listed_twoReleases true)).mpr ⟨"1.1.0", 1, _, ⟨["1.0.0"], [], rfl, rfl, by
      intro other hother v hv
      rw [List.mem_singleton.mp hother] at hv
      rw [← Option.some.inj hv]
      exact Nat.zero_lt_one, nofun⟩, rfl, rfl⟩

/-- The newest version is returned although it is not healthy. -/
theorem not_latestInstallable_unhealthy :
    ¬ ∀ appVersions : Dict String AppVersion, releases.Listed appVersions →
      releases.LatestInstallable appVersions := by
  intro hall
  obtain ⟨latest, _, details, hlatest, hget, hhealthy, _⟩ :=
    hall (twoReleases false) (listed_twoReleases false)
  have heq : latest = "1.1.0" := by
    exact (Except.ok.inj hlatest).symm
  rw [heq] at hget
  rw [← Option.some.inj hget] at hhealthy
  cases hhealthy

end VersionScheme

end Middlewared
