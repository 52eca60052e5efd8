import Middlewared.SmbProtected

/-!
# Overridden parameters

Auxiliary texts can change a protected parameter, since neither the validation nor the order of
the settings takes account of other spellings.
-/

namespace Middlewared

open PyString List Option

variable {host : SmbHost} {input : SmbConfInput}

variable {dsConfig : DsConfig} {smbServiceConfig : SmbServiceConfig}

theorem generateSmbShareConfDict_missing {share : SmbShare}
    (hmissing : isMissing host share = true) :
    generateSmbShareConfDict host dsConfig share.withoutAux smbServiceConfig =
      .error .fileNotFoundError := by
  have hfsAcl := isMissing_iff.mp ((isMissing_withoutAux share).trans hmissing)
  rw [params_withoutAux] at hfsAcl
  unfold generateSmbShareConfDict
  rw [sharePresets_withoutAux, ok_bind, hfsAcl]
  rfl

theorem addShareSection_withoutAux {share : SmbShare} {smbOptions : String}
    {before after : Dict String (Dict String SmbConfValue)}
    (hadd : addShareSection host dsConfig smbServiceConfig before share =
      .ok after) (sections : Dict String (Dict String SmbConfValue)) :
    ∃ result, addShareSection host dsConfig { smbServiceConfig with smbOptions } sections
      share.withoutAux = .ok result := by
  unfold addShareSection at hadd ⊢
  cases hsection : generateSmbShareConfDict host dsConfig share smbServiceConfig with
  | ok section_ =>
    obtain ⟨data, fsAcl, presetParams, _, hdata, hfsAcl, hpreset, _⟩ :=
      generateSmbShareConfDict_eq_ok hsection
    rw [generateSmbShareConfDict_withoutAux hdata hfsAcl hpreset]
    exact ⟨_, rfl⟩
  | error e =>
    rw [hsection] at hadd
    cases e with
    | fileNotFoundError =>
      rw [generateSmbShareConfDict_missing (isMissing_of_error hsection)]
      exact ⟨_, rfl⟩
    | osError | valueError | indexError | keyError | matchNotFound =>
      cases hadd

theorem foldlM_addShareSection_withoutAux {smbOptions : String} {shares : List SmbShare}
    {before after : Dict String (Dict String SmbConfValue)}
    (hshares : shares.foldlM (addShareSection host dsConfig smbServiceConfig)
      before = .ok after) (sections : Dict String (Dict String SmbConfValue)) :
    ∃ result, (shares.map SmbShare.withoutAux).foldlM (addShareSection host dsConfig
        { smbServiceConfig with smbOptions }) sections =
        .ok result := by
  induction shares generalizing before sections with
  | nil => exact ⟨sections, rfl⟩
  | cons share shares ih =>
    obtain ⟨next, hnext, hrest⟩ := bind_eq_ok_iff.mp hshares
    obtain ⟨other, hother⟩ := addShareSection_withoutAux hnext sections
    obtain ⟨result, hresult⟩ := ih hrest other
    exact ⟨result, by rw [map_cons, foldlM_cons, hother]; exact hresult⟩

theorem exists_generateSmbConfDict_withoutAux {conf : SmbConf}
    (hconf : generateSmbConfDict host input = .ok conf) :
    ∃ empty, generateSmbConfDict host input.withoutAux = .ok empty := by
  obtain ⟨idmap, hidmap, _, hshares⟩ := generateSmbConfDict_eq_ok hconf
  obtain ⟨shares, hempty⟩ := @foldlM_addShareSection_withoutAux _ _ _ "" _ _ _ hshares Dict.empty
  have hidmap' : idmapParameters input.withoutAux.dsConfig
      input.withoutAux.smbServiceConfig.workgroup
      input.withoutAux.idmapSettings = .ok idmap := hidmap
  have hempty' : input.withoutAux.smbShares.foldlM (addShareSection host
      input.withoutAux.dsConfig input.withoutAux.smbServiceConfig) Dict.empty =
      .ok shares := hempty
  unfold generateSmbConfDict
  rw [hidmap', ok_bind, hempty']
  exact ⟨_, rfl⟩

/-! ## The global section -/

def protectedGlobals (enableGposStig : Bool) : List String :=
  auxParamBlacklist ++ if enableGposStig then stigNames else []

/-- No auxiliary parameter of the service is another spelling of a protected
name, but for one that is set anew afterwards or says the same. -/
structure GlobalsUndisturbed (input : SmbConfInput) (aux : SmbParameters) :
    Prop where
  blacklist : ∀ p ∈ auxParamBlacklist, p ≠ "log level" → p ∉ lastNames → otherSpelling aux p = none
  logLevel : ∀ value ∈ otherSpelling aux "log level",
    value.text = toString (loglevelint input.smbServiceConfig)
  ntlmAuth : input.enableGposStig = true →
    ∀ value ∈ otherSpelling aux "ntlm auth", value.text = "disabled"
  clientUseKerberos : input.enableGposStig = true →
    ∀ value ∈ Dict.lastMatch (sameParameter "client use kerberos")
      ((Dict.ofEntries aux).entriesAfter "client use kerberos"),
      value.text = "required"

theorem map_or_eq_iff {first : Option SmbConfValue} {value : SmbConfValue} :
    (first.or (some value)).map SmbConfValue.text = some value.text ↔
      ∀ other ∈ first, other.text = value.text := by
  cases first <;> simp

theorem notMem_stigNames : ∀ p ∈ auxParamBlacklist, p ∉ stigNames := by
  decide

theorem notMem_earlyGlobals : ∀ p ∈ auxParamBlacklist, p ≠ "log level" → p ∉ earlyGlobals := by
  decide

section

variable {base aux : SmbParameters} (isEnterprise : Bool)

theorem effective_ordinary {enableGposStig : Bool} {p : String}
    (hbase : OrdinaryParameters earlyGlobals base) (hp : p ∈ auxParamBlacklist)
    (haux : p ∉ aux.map Prod.fst) (hlast : p ∉ lastNames) :
    effective (globalSection base aux enableGposStig isEnterprise) p = ((otherSpelling aux p).or
        (Dict.lastMatch (sameParameter p)
          (Dict.ofEntries base).entries)).map SmbConfValue.text := by
  rw [effective, lastMatch_ordinary hbase _ _
    (mem_protectedNames_of_blacklist hp) hlast (notMem_stigNames p hp) haux]

theorem effective_last {enableGposStig : Bool} {p : String}
    (hbase : OrdinaryParameters earlyGlobals base) (hlast : p ∈ lastNames)
    (haux : p ∉ aux.map Prod.fst) :
    effective (globalSection base aux enableGposStig isEnterprise) p =
      effective (globalSection base [] enableGposStig isEnterprise) p := by
  rw [effective, lastMatch_last hbase _ _ hlast haux, effective,
    lastMatch_last hbase _ _ hlast (by simp)]

theorem otherSpelling_nil (p : String) : otherSpelling [] p = none := rfl

theorem globals_effective_iff {idmap : SmbParameters} (hidmap : OrdinaryParameters [] idmap)
    (haux : ∀ p ∈ auxParamBlacklist, p ∉ aux.map Prod.fst) :
    (∀ p ∈ protectedGlobals input.enableGposStig,
      effective (globalSection (globalBase host input idmap) aux
          input.enableGposStig isEnterprise) p =
        effective (globalSection (globalBase host input idmap) []
          input.enableGposStig isEnterprise) p) ↔
      GlobalsUndisturbed input aux := by
  have hbase := @ordinary_globalBase host input idmap hidmap
  have hnone : ∀ p ∈ auxParamBlacklist, p ≠ "log level" → Dict.lastMatch (sameParameter p)
        (Dict.ofEntries (globalBase host input idmap)).entries = none := by
    intro p hp hne
    exact hbase.lastMatch_eq_none (mem_protectedNames_of_blacklist hp)
      (notMem_earlyGlobals p hp hne)
  have hplain : ∀ p ∈ auxParamBlacklist, p ≠ "log level" → p ∉ lastNames →
      (effective (globalSection (globalBase host input idmap) aux
          input.enableGposStig isEnterprise) p =
        effective (globalSection (globalBase host input idmap) []
          input.enableGposStig isEnterprise) p ↔
        otherSpelling aux p = none) := by
    intro p hp hne hlast
    rw [effective_ordinary _ hbase hp (haux p hp) hlast,
      effective_ordinary _ hbase hp (by simp) hlast, hnone p hp hne,
      otherSpelling_nil, or_none, none_or, map_none,
      map_eq_none_iff]
  have hlog : effective (globalSection (globalBase host input idmap) aux
          input.enableGposStig isEnterprise) "log level" =
        effective (globalSection (globalBase host input idmap) []
          input.enableGposStig isEnterprise) "log level" ↔
        ∀ value ∈ otherSpelling aux "log level",
          value.text = toString (loglevelint input.smbServiceConfig) := by
    have hp : "log level" ∈ auxParamBlacklist := by decide
    rw [effective_ordinary _ hbase hp (haux _ hp) (by decide),
      effective_ordinary _ hbase hp (by simp) (by decide),
      lastMatch_logLevel hidmap, otherSpelling_nil, none_or,
      map_some, map_or_eq_iff]
    rfl
  have hntlm : effective (globalSection (globalBase host input idmap) aux
          true isEnterprise) "ntlm auth" =
        effective (globalSection (globalBase host input idmap) [] true isEnterprise) "ntlm auth" ↔
        ∀ value ∈ otherSpelling aux "ntlm auth", value.text = "disabled" := by
    have hmem := @ntlmAuth_mem_globalBase host input idmap
    rw [effective, lastMatch_ntlmAuth hbase _ hmem, effective,
      lastMatch_ntlmAuth hbase _ hmem, otherSpelling_nil, none_or,
      map_some, map_or_eq_iff]
    rfl
  have hkerberos : effective (globalSection (globalBase host input idmap) aux
          true isEnterprise) "client use kerberos" =
        effective (globalSection (globalBase host input idmap) []
          true isEnterprise) "client use kerberos" ↔
        ∀ value ∈ Dict.lastMatch (sameParameter "client use kerberos")
            ((Dict.ofEntries aux).entriesAfter "client use kerberos"),
          value.text = "required" := by
    rw [effective, lastMatch_clientUseKerberos hbase, effective, lastMatch_clientUseKerberos hbase]
    change _ = (Option.or none (some _)).map SmbConfValue.text ↔ _
    rw [none_or, map_some, map_or_eq_iff]
    rfl
  constructor
  · intro hsame
    constructor
    · intro p hp hne hlast
      exact (hplain p hp hne hlast).mp (hsame p (mem_append_left _ hp))
    · exact hlog.mp (hsame _ (mem_append_left _ (by decide)))
    · intro hstig
      rw [hstig] at hsame
      exact hntlm.mp (hsame _ (by decide))
    · intro hstig
      rw [hstig] at hsame
      exact hkerberos.mp (hsame _ (by decide))
  · intro hundisturbed p hp
    by_cases hblacklist : p ∈ auxParamBlacklist
    · by_cases hlast : p ∈ lastNames
      · exact effective_last _ hbase hlast (haux p hblacklist)
      · by_cases hne : p = "log level"
        · rw [hne]
          exact hlog.mpr hundisturbed.logLevel
        · exact (hplain p hblacklist hne hlast).mpr (hundisturbed.blacklist p hblacklist hne hlast)
    · have hstigName := (List.mem_append.mp hp).resolve_left hblacklist
      cases hstig : input.enableGposStig with
      | false =>
        rw [hstig] at hstigName
        cases hstigName
      | true =>
        rw [hstig, if_pos rfl, stigNames, mem_cons, mem_singleton] at hstigName
        rcases hstigName with hname | hname
        · rw [hname]
          exact hntlm.mpr (hundisturbed.ntlmAuth hstig)
        · rw [hname]
          exact hkerberos.mpr (hundisturbed.clientUseKerberos hstig)

end

/-! ## The whole configuration -/

structure KeepsProtected (conf empty : SmbConf) (enableGposStig : Bool) :
    Prop where
  globals : ∀ p ∈ protectedGlobals enableGposStig,
    effective conf.globals p = effective empty.globals p
  shares : ∀ name section_, conf.shares.get? name = some section_ →
    ∃ other, empty.shares.get? name = some other ∧
      ∀ p ∈ auxParamBlacklist, effective section_ p = effective other p

/-- Whether the texts leave the configuration that is generated from them with
its protected parameters. -/
def ProtectedKept (host : SmbHost) (input : SmbConfInput) : Prop :=
  ∃ conf empty, generateSmbConfDict host input = .ok conf ∧
    generateSmbConfDict host input.withoutAux = .ok empty ∧
    KeepsProtected conf empty input.enableGposStig

structure Undisturbed (host : SmbHost) (input : SmbConfInput) : Prop where
  globals : GlobalsUndisturbed input (smbOptionsParameters input.smbServiceConfig.smbOptions)
  shares : ∀ name, ∀ share ∈ sectionShare host input.smbShares name,
    ShareUndisturbed host input.smbServiceConfig.aaplExtensions share

theorem keepsProtected_iff {setParm : String → String → Bool} {conf empty : SmbConf}
    (haccepted : validateAuxParams setParm input.smbServiceConfig.smbOptions
      "smb_update.smb_options" = [])
    (hconf : generateSmbConfDict host input = .ok conf)
    (hempty : generateSmbConfDict host input.withoutAux = .ok empty) :
    KeepsProtected conf empty input.enableGposStig ↔ Undisturbed host input := by
  obtain ⟨idmap, hidmap, hglobals, hshares⟩ := generateSmbConfDict_eq_ok hconf
  obtain ⟨idmap', hidmap', hglobals', hshares'⟩ := generateSmbConfDict_eq_ok hempty
  have hsame : idmap' = idmap := by
    apply @Except.ok.inj SmbConfError
    rw [← hidmap, ← hidmap']
    rfl
  have hordinary := ordinary_idmapParameters hidmap
  have hsections := sectionsOf_foldlM hshares
  have hsections' := sectionsOf_foldlM hshares'
  rw [hsame, globalBase_withoutAux] at hglobals'
  have hglobalsIff := @globals_effective_iff host input
    (smbOptionsParameters input.smbServiceConfig.smbOptions)
    input.isEnterprise idmap hordinary
    fun p hp => notMem_blacklist_of_accepted haccepted hp
  have hglobals' : empty.globals = globalSection (globalBase host input idmap)
      [] input.enableGposStig input.isEnterprise := hglobals'
  have hsection : ∀ name, ∀ share ∈ sectionShare host input.smbShares name,
      ∃ section_ other, conf.shares.get? name = some section_ ∧
        empty.shares.get? name = some other ∧
        ((∀ p ∈ auxParamBlacklist, effective section_ p = effective other p) ↔
          ShareUndisturbed host input.smbServiceConfig.aaplExtensions share) := by
    intro name share hshare
    obtain ⟨section_, hget, hgenerate⟩ := hsections.some name share hshare
    have hwithout : sectionShare host input.withoutAux.smbShares name = some share.withoutAux :=
      (sectionShare_withoutAux input.smbShares name).trans
        (congrArg (Option.map SmbShare.withoutAux) hshare)
    obtain ⟨other, hget', hgenerate'⟩ := hsections'.some name _ hwithout
    exact ⟨section_, other, hget, hget', share_effective_iff hgenerate hgenerate'⟩
  constructor
  · intro hkept
    constructor
    · apply hglobalsIff.mp
      rw [← hglobals, ← hglobals']
      exact hkept.globals
    · intro name share hshare
      obtain ⟨section_, other, hget, hget', hiff⟩ := hsection name share hshare
      obtain ⟨found, hfound, heffective⟩ := hkept.shares name section_ hget
      rw [hget', Option.some.injEq] at hfound
      exact hiff.mp (hfound ▸ heffective)
  · intro hundisturbed
    constructor
    · rw [hglobals, hglobals']
      exact hglobalsIff.mpr hundisturbed.globals
    · intro name found hfound
      cases hshare : sectionShare host input.smbShares name with
      | none =>
        rw [hsections.none name hshare] at hfound
        cases hfound
      | some share =>
        obtain ⟨section_, other, hget, hget', hiff⟩ := hsection name share hshare
        rw [hget, Option.some.injEq] at hfound
        refine ⟨other, hget', ?_⟩
        rw [← hfound]
        exact hiff.mpr (hundisturbed.shares name share hshare)

theorem exists_of_isOk {α ε : Type*} {x : Except ε α} (hx : x.isOk = true) : ∃ a, x = .ok a := by
  cases x with
  | error e => cases hx
  | ok a => exact ⟨a, rfl⟩

/-- Accepted texts leave the protected parameters as they are exactly where
they do not disturb them. -/
theorem protectedKept_iff_undisturbed {setParm : String → String → Bool}
    (haccepted : validateAuxParams setParm input.smbServiceConfig.smbOptions
      "smb_update.smb_options" = [])
    (hconf : (generateSmbConfDict host input).isOk = true) :
    ProtectedKept host input ↔ Undisturbed host input := by
  obtain ⟨conf, hconf⟩ := exists_of_isOk hconf
  obtain ⟨empty, hempty⟩ := exists_generateSmbConfDict_withoutAux hconf
  rw [← keepsProtected_iff haccepted hconf hempty]
  constructor
  · rintro ⟨conf', empty', hconf', hempty', hkept⟩
    rw [hconf, Except.ok.injEq] at hconf'
    rw [hempty, Except.ok.injEq] at hempty'
    rw [hconf', hempty']
    exact hkept
  · intro hkept
    exact ⟨conf, empty, hconf, hempty, hkept⟩

def stigHost : SmbHost where
  pathGetAcltype := fun _ => .nfs4
  ioUringEnabled := false
  bindChoices := []
  setOrder := id

def stigService (smbOptions : String) : SmbServiceConfig where
  netbiosname := "truenas"
  netbiosalias := []
  workgroup := "WORKGROUP"
  description := "TrueNAS Server"
  unixcharset := "UTF-8"
  debug := false
  syslog := false
  aaplExtensions := false
  localmaster := true
  guest := "nobody"
  filemask := ""
  dirmask := ""
  smbOptions := smbOptions
  bindip := []
  ntlmv1Auth := false
  enableSmb1 := false
  multichannel := false
  encryption := .default

def stigInput (smbOptions : String) : SmbConfInput where
  dsConfig := .none
  smbServiceConfig := stigService smbOptions
  smbShares := []
  idmapSettings := []
  isEnterprise := true
  enableGposStig := true

theorem protectedKept_strictSync :
    validateAuxParams (fun _ _ => true) "strict sync = no" "smb_update.smb_options" = [] ∧
      ProtectedKept stigHost (stigInput "strict sync = no") := by
  have haccepted : validateAuxParams (fun _ _ => true)
      (stigInput "strict sync = no").smbServiceConfig.smbOptions "smb_update.smb_options" = [] := by
    decide +kernel
  have hconf : (generateSmbConfDict stigHost (stigInput "strict sync = no")).isOk = true := by
    decide +kernel
  refine ⟨haccepted, (protectedKept_iff_undisturbed haccepted hconf).mpr ⟨⟨?_, ?_, ?_, ?_⟩, ?_⟩⟩
  · decide +kernel
  · decide +kernel
  · decide +kernel
  · decide +kernel
  · intro name share hshare
    cases hshare

def generatedGlobal (input : SmbConfInput) (p : String) : Option String :=
  match generateSmbConfDict stigHost input with
  | .error _ => none
  | .ok conf => effective conf.globals p

/-- An auxiliary parameter under another spelling enables it again. -/
theorem ntlmAuth_reenabled : validateAuxParams (fun _ _ => true) "NTLM Auth = ntlmv2-only"
      "smb_update.smb_options" = [] ∧
    ¬ProtectedKept stigHost (stigInput "NTLM Auth = ntlmv2-only") := by
  constructor
  · decide +kernel
  · rintro ⟨conf, empty, hconf, hempty, hkept⟩
    have hsame := hkept.globals "ntlm auth" (by decide)
    have henabled : generatedGlobal (stigInput "NTLM Auth = ntlmv2-only")
        "ntlm auth" = some "ntlmv2-only" := by
      decide +kernel
    have hdisabled : generatedGlobal (stigInput "NTLM Auth = ntlmv2-only").withoutAux "ntlm auth" =
          some "disabled" := by
      decide +kernel
    simp only [generatedGlobal, hconf] at henabled
    simp only [generatedGlobal, hempty] at hdisabled
    rw [henabled, hdisabled] at hsame
    exact absurd hsame (by decide)

end Middlewared
