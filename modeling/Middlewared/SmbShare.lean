import Middlewared.DictSpelling
import Middlewared.PyString

/-!
# SMB shares and their presets

The share as `sharing.smb` passes it on, and what `apply_presets` makes of it:
the purpose of a share sets some of its fields, and its auxiliary parameters
are merged with those of the preset.
-/

namespace Middlewared

inductive SmbSharePreset where
  | noPreset
  | defaultShare
  | timemachine
  | enhancedTimemachine
  | multiProtocolNfs
  | privateDatasets
  | wormDropbox
deriving DecidableEq

structure SmbAudit where
  enable : Bool
  (watchList ignoreList : List String)

def smbAuditDefaults : SmbAudit := ⟨false, [], []⟩

structure SmbShare where
  id : ℕ
  purpose : SmbSharePreset
  (path pathSuffix : String)
  home : Bool
  (name comment : String)
  (ro browsable timemachine : Bool)
  timemachineQuota : ℤ
  (recyclebin guestok abe : Bool)
  (hostsallow hostsdeny : List String)
  (aaplNameMangling acl durablehandle shadowcopy streams fsrvp : Bool)
  auxsmbconf : String
  (enabled afp : Bool)
  audit : SmbAudit
  locked : Bool

open PyString

def isComment (entry : String) : Bool :=
  entry = "" || startsWith entry "#" || startsWith entry ";"

def smbStripComments (auxparamIn : String) : String :=
  joinLines (((splitlines auxparamIn).map strip).filterMap fun entry =>
    if isComment entry then none else some (strip (splitFirst entry '#')))

/-- `split('=', 1)` and `strip` of both parts; nothing for a line without a
value. -/
def auxParam (entry : String) : Option (String × String) :=
  match splitOnce '=' entry with
  | (key, some value) => some (strip key, strip value)
  | (_, none) => none

/-- `auxsmbconf_dict` with the direction `TO`; a line without a value raises. -/
def auxsmbconfDict (aux : String) : Option (Dict String String) :=
  ((splitlines (smbStripComments aux)).mapM auxParam).map Dict.ofEntries

/-- `auxsmbconf_dict` with the direction `FROM`. -/
def auxsmbconfText (aux : Dict String String) : String :=
  joinLines (aux.entries.map fun entry => entry.1 ++ "=" ++ entry.2)

namespace SmbSharePreset

/-- The `auxsmbconf` of a preset. -/
def auxsmbconf : SmbSharePreset → String
  | .enhancedTimemachine | .privateDatasets => "zfs_core:zfs_auto_create=true"
  | .wormDropbox => "worm:grace_period = 300"
  | .noPreset | .defaultShare | .timemachine | .multiProtocolNfs => ""

/-- The other `params` of a preset; a home share keeps its path suffix. -/
def params (preset : SmbSharePreset) (share : SmbShare) : SmbShare :=
  let pathSuffix := fun suffix => if share.home then share.pathSuffix else suffix
  match preset with
  | .noPreset => share
  | .defaultShare =>
    { share with
      pathSuffix := pathSuffix ""
      home := false
      ro := false
      browsable := true
      timemachine := false
      recyclebin := false
      abe := false
      hostsallow := []
      hostsdeny := []
      aaplNameMangling := false
      acl := true
      durablehandle := true
      shadowcopy := true
      streams := true
      fsrvp := false }
  | .timemachine =>
    { share with pathSuffix := pathSuffix "", timemachine := true }
  | .enhancedTimemachine =>
    { share with pathSuffix := pathSuffix "%U", timemachine := true }
  | .multiProtocolNfs => { share with streams := true, durablehandle := false }
  | .privateDatasets => { share with pathSuffix := pathSuffix "%U" }
  | .wormDropbox => { share with pathSuffix := pathSuffix "" }

end SmbSharePreset

def applyPresets (dataIn : SmbShare) : Option SmbShare :=
  let data := dataIn.purpose.params dataIn
  if data.auxsmbconf = "" then some data
  else
    (auxsmbconfDict dataIn.purpose.auxsmbconf).bind fun presetAux =>
      (auxsmbconfDict data.auxsmbconf).map fun dataAux =>
        { data with auxsmbconf := auxsmbconfText (presetAux.update dataAux.entries) }

theorem exists_of_applyPresets {dataIn data : SmbShare} (hdata : applyPresets dataIn = some data) :
    ∃ aux, data = { dataIn.purpose.params dataIn with auxsmbconf := aux } := by
  unfold applyPresets at hdata
  simp only at hdata
  split at hdata
  · rw [← Option.some.inj hdata]
    exact ⟨_, rfl⟩
  · simp only [Option.bind_eq_some_iff, Option.map_eq_some_iff] at hdata
    obtain ⟨_, _, _, _, rfl⟩ := hdata
    exact ⟨_, rfl⟩

end Middlewared
