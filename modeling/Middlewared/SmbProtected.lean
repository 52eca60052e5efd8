import Middlewared.SmbOrdinary

/-!
# What auxiliary parameters can change

The protected parameters of a generated configuration, beside those of the same configuration with
empty auxiliary texts.
-/

namespace Middlewared

open PyString Dict List Option

section

variable {early : List String} {base aux : SmbParameters} {p : String}

theorem sameParameter_self (p : String) : sameParameter p p = true := by
  simp [sameParameter]

theorem sameParameter_iff {name : String} :
    sameParameter p name = true ↔ sambaName name = sambaName p := by
  simp [sameParameter]

theorem mem_of_mem_ofEntries {entry : String × SmbConfValue}
    (hentry : entry ∈ (Dict.ofEntries base).entries) :
    ∃ param ∈ base, param.1 = entry.1 :=
  List.mem_map.mp (mem_ofEntries_iff.mp (List.mem_map_of_mem hentry))

theorem OrdinaryParameters.spelledAs (hbase : OrdinaryParameters early base)
    (hp : p ∈ protectedNames) :
    Dict.SpelledAs (sameParameter p) p (Dict.ofEntries base).entries := by
  intro entry hentry hsame
  obtain ⟨param, hparam, hkey⟩ := mem_of_mem_ofEntries hentry
  rw [sameParameter_iff, ← hkey] at hsame
  rw [← hkey]
  exact (hbase param hparam p hp hsame).1

theorem OrdinaryParameters.notMem (hbase : OrdinaryParameters early base)
    (hp : p ∈ protectedNames) (hearly : p ∉ early) :
    p ∉ Dict.ofEntries base := by
  intro hmem
  obtain ⟨param, hparam, hkey⟩ := List.mem_map.mp (mem_ofEntries_iff.mp hmem)
  exact hearly (hbase param hparam p hp (by rw [hkey])).2

theorem OrdinaryParameters.lastMatch_eq_none
    (hbase : OrdinaryParameters early base) (hp : p ∈ protectedNames)
    (hearly : p ∉ early) :
    Dict.lastMatch (sameParameter p) (Dict.ofEntries base).entries = none := by
  rw [lastMatch_eq_none_iff]
  intro entry hentry
  by_contra hsame
  rw [Bool.not_eq_false] at hsame
  obtain ⟨param, hparam, hkey⟩ := mem_of_mem_ofEntries hentry
  rw [sameParameter_iff, ← hkey] at hsame
  exact hearly (hbase param hparam p hp hsame).2

def otherSpelling (aux : SmbParameters) (p : String) : Option SmbConfValue :=
  Dict.lastMatch (fun name => sameParameter p name && decide (name ≠ p))
    (Dict.ofEntries aux).entries

theorem lastMatch_eq_otherSpelling (haux : p ∉ aux.map Prod.fst) :
    Dict.lastMatch (sameParameter p) (Dict.ofEntries aux).entries = otherSpelling aux p := by
  apply lastMatch_congr
  intro entry hentry
  have hne : entry.1 ≠ p := by
    rintro rfl
    exact haux (mem_ofEntries_iff.mp (List.mem_map_of_mem hentry))
  simp [hne]

theorem OrdinaryParameters.lastMatch_update
    (hbase : OrdinaryParameters early base) (hp : p ∈ protectedNames)
    (haux : p ∉ aux.map Prod.fst) :
    Dict.lastMatch (sameParameter p) ((Dict.ofEntries base).update aux).entries =
      (otherSpelling aux p).or
        (Dict.lastMatch (sameParameter p) (Dict.ofEntries base).entries) := by
  rw [lastMatch_update_of_notMem (hbase.spelledAs hp) haux, lastMatch_eq_otherSpelling haux]

/-! ## The global section -/

def lastNames : List String :=
  ["include", "zfs_core:zfs_block_cloning", "zfs_core:zfs_integrity_streams"]

theorem ordinary_stig (enableGposStig : Bool) :
    OrdinaryParameters stigNames (stigParameters enableGposStig) := by
  apply ordinaryParameters_if
  apply ordinaryParameters_of_names
  intro name hname
  have hstig : name ∈ stigNames := by simpa [stigNames, or_comm] using hname
  exact checked_of_mem (mem_append_right _ hstig) hstig

theorem mem_protectedNames_of_last : ∀ p ∈ lastNames, p ∈ protectedNames := by
  decide

theorem ordinary_last (isEnterprise : Bool) :
    OrdinaryParameters lastNames (lastParameters isEnterprise) := by
  unfold lastParameters
  apply ordinaryParameters_of_names
  intro name hname
  by_cases hlast : name ∈ lastNames
  · exact checked_of_mem (mem_protectedNames_of_last name hlast) hlast
  · have hregistry : name = "registry shares" := by
      simp only [lastNames, map_cons, map_nil, mem_cons, not_mem_nil] at hname hlast
      tauto
    rw [hregistry]
    exact checked_ofList (by decide)

theorem OrdinaryParameters.noMatch (hbase : OrdinaryParameters early base)
    (hp : p ∈ protectedNames) (hearly : p ∉ early) :
    ∀ param ∈ base, sameParameter p param.1 = false := by
  intro param hparam
  by_contra hsame
  rw [Bool.not_eq_false, sameParameter_iff] at hsame
  exact hearly (hbase param hparam p hp hsame).2

def globalSection (base aux : SmbParameters)
    (enableGposStig isEnterprise : Bool) : Dict String SmbConfValue :=
  ((((Dict.ofEntries base).update aux).update
    (stigParameters enableGposStig)).update (lastParameters isEnterprise)).erase
    "SHARES"

theorem sameParameter_shares : ∀ p ∈ protectedNames, sameParameter p "SHARES" = false := by
  intro p hp
  by_contra hsame
  rw [Bool.not_eq_false, sameParameter_iff] at hsame
  have hhead := take_mem_protectedHeads p hp
  rw [← hsame] at hhead
  exact absurd hhead (take_ofList_notMem (by decide))

theorem sameParameter_eq_false {q : String} (hp : p ∈ protectedNames)
    (hq : q ∈ protectedNames) (hne : p ≠ q) : sameParameter p q = false := by
  by_contra hsame
  rw [Bool.not_eq_false, sameParameter_iff] at hsame
  exact hne (inj_on_of_nodup_map nodup_sambaNames hp hq hsame.symm)

theorem lastMatch_erase_shares (hp : p ∈ protectedNames) (d : Dict String SmbConfValue) :
    Dict.lastMatch (sameParameter p) (d.erase "SHARES").entries =
      Dict.lastMatch (sameParameter p) d.entries := by
  apply lastMatch_filter
  intro entry _ hsame
  rw [decide_eq_true_eq]
  intro heq
  rw [heq, sameParameter_shares p hp] at hsame
  cases hsame

theorem notEarly_of_last : ∀ p ∈ lastNames, p ∉ earlyGlobals ∧ p ∉ stigNames := by
  decide

theorem mem_lastParameters : ∀ p ∈ lastNames, ∀ isEnterprise,
    p ∈ (lastParameters isEnterprise).map Prod.fst := by
  decide

section

variable (hbase : OrdinaryParameters earlyGlobals base)
  (enableGposStig isEnterprise : Bool)

include hbase

theorem lastMatch_last (hp : p ∈ lastNames) (haux : p ∉ aux.map Prod.fst) :
    Dict.lastMatch (sameParameter p) (globalSection base aux enableGposStig isEnterprise).entries =
      (Dict.ofEntries (lastParameters isEnterprise)).get? p := by
  have hprotected := mem_protectedNames_of_last p hp
  have hearly := notEarly_of_last p hp
  have hmem : p ∈ Dict.ofEntries (lastParameters isEnterprise) :=
    mem_ofEntries_iff.mpr (mem_lastParameters p hp isEnterprise)
  obtain ⟨value, hvalue⟩ := exists_get?_of_mem hmem
  rw [globalSection, lastMatch_erase_shares hprotected, hvalue]
  apply lastMatch_update_of_new ?_ (sameParameter_self p)
    ((ordinary_last _).spelledAs hprotected) hvalue
  have hstig := (ordinary_stig enableGposStig).notMem hprotected hearly.2
  rw [mem_ofEntries_iff] at hstig
  rw [mem_update_iff, mem_update_iff]
  exact not_or_intro (not_or_intro (hbase.notMem hprotected hearly.1) haux) hstig

theorem lastMatch_ordinary (hp : p ∈ protectedNames) (hlast : p ∉ lastNames)
    (hstig : p ∉ stigNames) (haux : p ∉ aux.map Prod.fst) :
    Dict.lastMatch (sameParameter p) (globalSection base aux enableGposStig isEnterprise).entries =
      (otherSpelling aux p).or
        (Dict.lastMatch (sameParameter p) (Dict.ofEntries base).entries) := by
  rw [globalSection, lastMatch_erase_shares hp,
    lastMatch_update_of_noMatch ((ordinary_last _).noMatch hp hlast),
    lastMatch_update_of_noMatch ((ordinary_stig _).noMatch hp hstig),
    hbase.lastMatch_update hp haux]

theorem lastMatch_ntlmAuth (hmem : "ntlm auth" ∈ base.map Prod.fst) :
    Dict.lastMatch (sameParameter "ntlm auth") (globalSection base aux true isEnterprise).entries =
      (otherSpelling aux "ntlm auth").or (some (.str "disabled")) := by
  have hp : "ntlm auth" ∈ protectedNames := by decide
  have hkerberos : ∀ param ∈ [("client use kerberos", SmbConfValue.str "required")],
      (sameParameter "ntlm auth" param.1 && decide (param.1 ≠ "ntlm auth")) = false := by
    rw [forall_mem_singleton, sameParameter_eq_false hp (by decide) (by decide), Bool.false_and]
  rw [globalSection, lastMatch_erase_shares hp,
    lastMatch_update_of_noMatch ((ordinary_last _).noMatch hp (by decide))]
  change Dict.lastMatch _ (((Dict.ofEntries base).update aux).update
    ([("client use kerberos", SmbConfValue.str "required")] ++
      [("ntlm auth", SmbConfValue.str "disabled")])).entries = _
  rw [update_append, update_singleton, ← update_append,
    lastMatch_update_set_of_mem (hbase.spelledAs hp)
      (mem_ofEntries_iff.mpr hmem) (sameParameter_self _)]
  rw [ofEntries_concat, ← update_singleton, lastMatch_update_of_noMatch hkerberos]
  rfl

theorem lastMatch_clientUseKerberos : Dict.lastMatch (sameParameter "client use kerberos")
      (globalSection base aux true isEnterprise).entries =
    (Dict.lastMatch (sameParameter "client use kerberos")
      ((Dict.ofEntries aux).entriesAfter "client use kerberos")).or (some (.str "required")) := by
  have hp : "client use kerberos" ∈ protectedNames := by decide
  have hntlm : ∀ param ∈ [("ntlm auth", SmbConfValue.str "disabled")],
      sameParameter "client use kerberos" param.1 = false := by
    rw [forall_mem_singleton]
    exact sameParameter_eq_false hp (by decide) (by decide)
  rw [globalSection, lastMatch_erase_shares hp,
    lastMatch_update_of_noMatch ((ordinary_last _).noMatch hp (by decide))]
  change Dict.lastMatch _ (((Dict.ofEntries base).update aux).update
    ([("client use kerberos", SmbConfValue.str "required")] ++
      [("ntlm auth", SmbConfValue.str "disabled")])).entries = _
  rw [update_append, lastMatch_update_of_noMatch hntlm, update_singleton,
    lastMatch_update_set_of_notMem (hbase.spelledAs hp) (hbase.notMem hp (by decide)),
    lastMatch_set (sameParameter_self _)]

end

theorem OrdinaryParameters.lastMatch_of_unique
    (hbase : OrdinaryParameters early base) (hp : p ∈ protectedNames)
    {value : SmbConfValue} (hmem : (p, value) ∈ base)
    (hall : ∀ param ∈ base, param.1 = p → param.2 = value) :
    Dict.lastMatch (sameParameter p) (Dict.ofEntries base).entries = some value := by
  have hget := get?_ofEntries_eq_some hmem hall
  have hentry := mem_entries_iff.mpr hget
  apply lastMatch_eq_some hentry (sameParameter_self p)
  intro other hother hmatch
  have hkey := hbase.spelledAs hp other hother hmatch
  have hother' : (p, other.2) ∈ (Dict.ofEntries base).entries := by
    rw [← hkey]
    exact hother
  rw [mem_entries_iff, hget] at hother'
  exact (some.inj hother').symm

end

def SmbShare.withoutAux (share : SmbShare) : SmbShare :=
  { share with auxsmbconf := "" }

def SmbConfInput.withoutAux (input : SmbConfInput) : SmbConfInput :=
  { input with
    smbServiceConfig := { input.smbServiceConfig with smbOptions := "" }
    smbShares := input.smbShares.map SmbShare.withoutAux }

section

variable {host : SmbHost} {input : SmbConfInput}

def globalBase (host : SmbHost) (input : SmbConfInput)
    (idmap : SmbParameters) : SmbParameters :=
  serviceFieldParameters input.dsConfig input.smbServiceConfig input.smbShares ++
    serviceOptionParameters host input.dsConfig input.smbServiceConfig input.smbShares ++ idmap

theorem homePath_withoutAux (dsConfig : DsConfig) (shares : List SmbShare) :
    homePath dsConfig (shares.map SmbShare.withoutAux) = homePath dsConfig shares := by
  have hhome : SmbShare.home ∘ SmbShare.withoutAux = SmbShare.home := rfl
  unfold homePath
  rw [find?_map, hhome]
  cases shares.find? SmbShare.home <;> rfl

theorem globalBase_withoutAux (idmap : SmbParameters) :
    globalBase host input.withoutAux idmap = globalBase host input idmap := by
  have hany : ∀ f : SmbShare → Bool, f ∘ SmbShare.withoutAux = f →
      (input.smbShares.map SmbShare.withoutAux).any f = input.smbShares.any f := by
    intro f hf
    rw [List.any_map, hf]
  have hds : dsParameters (input.smbShares.map SmbShare.withoutAux)
      input.dsConfig = dsParameters input.smbShares input.dsConfig := by
    unfold dsParameters
    simp only [homePath_withoutAux]
  simp only [globalBase, serviceFieldParameters, serviceOptionParameters,
    SmbConfInput.withoutAux, hany SmbShare.guestok rfl, hany SmbShare.home rfl,
    hany SmbShare.fsrvp rfl, hds]
  rfl

theorem generateSmbConfDict_eq_ok {conf : SmbConf}
    (hconf : generateSmbConfDict host input = .ok conf) :
    ∃ idmap, idmapParameters input.dsConfig input.smbServiceConfig.workgroup
        input.idmapSettings = .ok idmap ∧
      conf.globals = globalSection (globalBase host input idmap)
        (smbOptionsParameters input.smbServiceConfig.smbOptions)
        input.enableGposStig input.isEnterprise ∧
      input.smbShares.foldlM (addShareSection host input.dsConfig input.smbServiceConfig)
        Dict.empty = .ok conf.shares := by
  obtain ⟨idmap, hidmap, hconf⟩ := bind_eq_ok_iff.mp hconf
  obtain ⟨shares, hshares, hconf⟩ := bind_eq_ok_iff.mp hconf
  rw [← Except.ok.inj hconf]
  exact ⟨idmap, hidmap, rfl, hshares⟩

theorem ordinary_globalBase {idmap : SmbParameters} (hidmap : OrdinaryParameters [] idmap) :
    OrdinaryParameters earlyGlobals (globalBase host input idmap) :=
  ((ordinary_serviceField _ _ _).append
    ((ordinary_serviceOption _ _ _ _).mono (nil_subset _))).append
    (hidmap.mono (nil_subset _))

theorem lastMatch_logLevel {idmap : SmbParameters} (hidmap : OrdinaryParameters [] idmap) :
    Dict.lastMatch (sameParameter "log level")
        (Dict.ofEntries (globalBase host input idmap)).entries =
      some (.int (loglevelint input.smbServiceConfig)) := by
  have hp : "log level" ∈ protectedNames := by decide
  have hother : ∀ parameters, OrdinaryParameters [] parameters →
      ∀ param ∈ parameters, param.1 = "log level" →
        param.2 = .int (loglevelint input.smbServiceConfig) := by
    intro parameters hparameters param hparam heq
    have hordinary := hparameters param hparam "log level" hp (by rw [heq])
    exact absurd hordinary.2 not_mem_nil
  have hfield : ("log level", SmbConfValue.int (loglevelint input.smbServiceConfig)) ∈
        serviceFieldParameters input.dsConfig input.smbServiceConfig input.smbShares := by
    simp [serviceFieldParameters]
  have hunique : ∀ param ∈ serviceFieldParameters input.dsConfig
      input.smbServiceConfig input.smbShares, param.1 = "log level" →
        param.2 = .int (loglevelint input.smbServiceConfig) := by
    simp [serviceFieldParameters]
  have hmem := mem_append_left idmap (mem_append_left
    (serviceOptionParameters host input.dsConfig input.smbServiceConfig input.smbShares) hfield)
  exact (ordinary_globalBase hidmap).lastMatch_of_unique hp hmem
    (forall_mem_append.mpr ⟨forall_mem_append.mpr
      ⟨hunique, hother _ (ordinary_serviceOption _ _ _ _)⟩, hother _ hidmap⟩)

theorem ntlmAuth_mem_globalBase (idmap : SmbParameters) :
    "ntlm auth" ∈ (globalBase host input idmap).map Prod.fst := by
  simp [globalBase, serviceFieldParameters]

end

/-! ## The section of a share -/

section

variable {host : SmbHost} {dsConfig : DsConfig}
  {smbServiceConfig : SmbServiceConfig} {share : SmbShare}

def vfsObjectsOf (host : SmbHost) (aaplExtensions : Bool) (share : SmbShare) :
    List TrueNASVfsObject :=
  let data := share.purpose.params share
  shareVfsObjects host aaplExtensions data
    (match shareFsAcl host data with
      | .ok (some objects) => objects
      | _ => [])

def isMissing (host : SmbHost) (share : SmbShare) : Bool :=
  let data := share.purpose.params share
  data.acl && !isExternal data.path && decide (host.pathGetAcltype data.path = .fileNotFound)

def auxOf (share : SmbShare) : SmbParameters :=
  match sharePresets share with
  | .error _ => []
  | .ok data =>
    match shareAuxParameters data with
    | .error _ => []
    | .ok aux => aux

theorem params_withoutAux (share : SmbShare) : share.withoutAux.purpose.params share.withoutAux =
    (share.purpose.params share).withoutAux := by
  obtain ⟨id, purpose⟩ := share
  cases purpose <;> rfl

theorem withoutAux_of_sharePresets {data : SmbShare} (hdata : sharePresets share = .ok data) :
    data.withoutAux = (share.purpose.params share).withoutAux := by
  unfold sharePresets at hdata
  split at hdata
  · cases hdata
  · rename_i data' happly
    obtain ⟨aux, heq⟩ := exists_of_applyPresets happly
    rw [← Except.ok.inj hdata, heq]
    rfl

theorem sharePresets_withoutAux (share : SmbShare) : sharePresets share.withoutAux =
    .ok (share.purpose.params share).withoutAux := by
  unfold sharePresets applyPresets
  rw [params_withoutAux]
  rfl

theorem shareAuxParameters_withoutAux (data : SmbShare) :
    shareAuxParameters data.withoutAux = .ok [] := rfl

def shareBase (dsConfig : DsConfig) (fruitEnabled : Bool) (data : SmbShare)
    (fsAcl : Option (List TrueNASVfsObject)) (vfsObjects : List TrueNASVfsObject)
    (presetParams : SmbParameters) : SmbParameters :=
  shareFieldParameters dsConfig data fruitEnabled fsAcl.isNone ++
    vfsParameters vfsObjects ++ presetParams

theorem generateSmbShareConfDict_eq_ok {section_ : Dict String SmbConfValue}
    (hsection : generateSmbShareConfDict host dsConfig share smbServiceConfig = .ok section_) :
    ∃ data fsAcl presetParams aux,
      sharePresets share = .ok data ∧ shareFsAcl host data = .ok fsAcl ∧
      presetParameters data.purpose = .ok presetParams ∧
      shareAuxParameters data = .ok aux ∧
      section_ = (Dict.ofEntries (shareBase dsConfig smbServiceConfig.aaplExtensions data fsAcl
          (shareVfsObjects host smbServiceConfig.aaplExtensions data
            (fsAcl.getD [])) presetParams)).update aux := by
  obtain ⟨data, hdata, hsection⟩ := bind_eq_ok_iff.mp hsection
  obtain ⟨fsAcl, hfsAcl, hsection⟩ := bind_eq_ok_iff.mp hsection
  obtain ⟨presetParams, hpreset, hsection⟩ := bind_eq_ok_iff.mp hsection
  obtain ⟨aux, haux, hsection⟩ := bind_eq_ok_iff.mp hsection
  rw [← Except.ok.inj hsection]
  exact ⟨data, fsAcl, presetParams, aux, hdata, hfsAcl, hpreset, haux, rfl⟩

theorem isMissing_iff : isMissing host share = true ↔ shareFsAcl host (share.purpose.params share) =
    .error .fileNotFoundError := by
  unfold isMissing shareFsAcl parseShareFsAcl
  generalize share.purpose.params share = data
  cases hacl : data.acl <;> cases hexternal : isExternal data.path <;>
    cases hprobe : host.pathGetAcltype data.path <;>
    simp [hacl, hexternal, hprobe]

theorem shareFsAcl_of_sharePresets {data : SmbShare} (hdata : sharePresets share = .ok data) :
    shareFsAcl host data = shareFsAcl host (share.purpose.params share) := by
  change shareFsAcl host data.withoutAux = shareFsAcl host (share.purpose.params share).withoutAux
  rw [withoutAux_of_sharePresets hdata]

theorem textParameters_ne_fileNotFound {lines : List String} :
    textParameters lines ≠ .error .fileNotFoundError := by
  unfold textParameters
  split <;> simp

theorem sharePresets_ne_fileNotFound : sharePresets share ≠ .error .fileNotFoundError := by
  unfold sharePresets
  split <;> simp

theorem shareAuxParameters_ne_fileNotFound :
    shareAuxParameters share ≠ .error .fileNotFoundError := by
  intro herror
  unfold shareAuxParameters at herror
  cases hparams : textParameters
      ((splitlines (smbStripComments share.auxsmbconf)).filter fun param =>
        strip param ≠ "") with
  | error e =>
    rw [hparams, error_bind, Except.error.injEq] at herror
    rw [herror] at hparams
    exact textParameters_ne_fileNotFound hparams
  | ok params =>
    rw [hparams] at herror
    cases herror

theorem isMissing_of_error (herror : generateSmbShareConfDict host dsConfig share smbServiceConfig =
      .error .fileNotFoundError) : isMissing host share = true := by
  rw [isMissing_iff]
  unfold generateSmbShareConfDict at herror
  cases hdata : sharePresets share with
  | error e =>
    rw [hdata, error_bind, Except.error.injEq] at herror
    rw [herror] at hdata
    exact absurd hdata sharePresets_ne_fileNotFound
  | ok data =>
    rw [hdata, ok_bind] at herror
    rw [← shareFsAcl_of_sharePresets hdata]
    cases hfsAcl : shareFsAcl host data with
    | error e =>
      simp only [hfsAcl, error_bind, Except.error.injEq] at herror
      rw [herror]
    | ok fsAcl =>
      simp only [hfsAcl, ok_bind] at herror
      cases hpreset : presetParameters data.purpose with
      | error e =>
        rw [hpreset, error_bind, Except.error.injEq] at herror
        rw [herror] at hpreset
        exact absurd hpreset textParameters_ne_fileNotFound
      | ok presetParams =>
        rw [hpreset, ok_bind] at herror
        cases haux : shareAuxParameters data with
        | error e =>
          rw [haux, error_bind, Except.error.injEq] at herror
          rw [herror] at haux
          exact absurd haux shareAuxParameters_ne_fileNotFound
        | ok aux =>
          rw [haux] at herror
          cases herror

theorem notMissing_of_ok {section_ : Dict String SmbConfValue}
    (hsection : generateSmbShareConfDict host dsConfig share smbServiceConfig =
      .ok section_) : isMissing host share = false := by
  obtain ⟨data, fsAcl, _, _, hdata, hfsAcl, _⟩ := generateSmbShareConfDict_eq_ok hsection
  by_contra hmissing
  rw [Bool.not_eq_false, isMissing_iff, ← shareFsAcl_of_sharePresets hdata, hfsAcl] at hmissing
  cases hmissing

/-! ### Which share a section is of -/

def sectionShare (host : SmbHost) (shares : List SmbShare) (name : String) :
    Option SmbShare :=
  (shares.filter fun share =>
    !isMissing host share && decide (shareSectionName share = name)).getLast?

theorem sectionShare_concat (shares : List SmbShare) (name : String) :
    sectionShare host (shares ++ [share]) name =
      if !isMissing host share && decide (shareSectionName share = name) then
        some share
      else sectionShare host shares name := by
  unfold sectionShare
  cases hkept : (!isMissing host share && decide (shareSectionName share = name)) <;> simp [hkept]

structure SectionsOf (host : SmbHost) (dsConfig : DsConfig)
    (smbServiceConfig : SmbServiceConfig) (shares : List SmbShare)
    (sections : Dict String (Dict String SmbConfValue)) : Prop where
  some : ∀ name share, sectionShare host shares name = some share →
    ∃ section_, sections.get? name = some section_ ∧
      generateSmbShareConfDict host dsConfig share smbServiceConfig = .ok section_
  none : ∀ name, sectionShare host shares name = none → sections.get? name = none

theorem sectionsOf_foldlM {shares : List SmbShare}
    {sections : Dict String (Dict String SmbConfValue)}
    (hsections : shares.foldlM (addShareSection host dsConfig smbServiceConfig)
      Dict.empty = .ok sections) :
    SectionsOf host dsConfig smbServiceConfig shares sections := by
  induction shares using List.reverseRecOn generalizing sections with
  | nil =>
    cases hsections
    constructor
    · intro name share hshare
      cases hshare
    · intro name _
      rfl
  | append_singleton shares share ih =>
    rw [foldlM_append] at hsections
    obtain ⟨before, hbefore, hadd⟩ := bind_eq_ok_iff.mp hsections
    have hih := ih hbefore
    obtain ⟨after, hadd, hnil⟩ := bind_eq_ok_iff.mp hadd
    cases hnil
    unfold addShareSection at hadd
    split at hadd
    · rename_i herror
      cases hadd
      have hsame : ∀ name, sectionShare host (shares ++ [share]) name =
          sectionShare host shares name := by
        intro name
        rw [sectionShare_concat, isMissing_of_error herror]
        rfl
      constructor
      · intro name other hother
        rw [hsame] at hother
        exact hih.some name other hother
      · intro name hnone
        rw [hsame] at hnone
        exact hih.none name hnone
    · cases hadd
    · rename_i section_ hsection
      cases hadd
      have hthere := notMissing_of_ok hsection
      constructor
      · intro name other hother
        rw [sectionShare_concat, hthere] at hother
        rw [get?_set]
        by_cases hname : shareSectionName share = name
        · simp only [hname, Bool.not_false, decide_true, Bool.and_true,
            if_true, some.injEq] at hother
          subst hother
          exact ⟨section_, if_pos hname.symm, hsection⟩
        · simp only [hname, Bool.not_false, decide_false, Bool.and_false,
            Bool.false_eq_true, if_false] at hother
          rw [if_neg (Ne.symm hname)]
          exact hih.some name other hother
      · intro name hnone
        rw [sectionShare_concat, hthere] at hnone
        by_cases hname : shareSectionName share = name
        · simp [hname] at hnone
        · simp only [hname, Bool.not_false, decide_false, Bool.and_false,
            Bool.false_eq_true, if_false] at hnone
          rw [get?_set_of_ne _ (Ne.symm hname)]
          exact hih.none name hnone

theorem isMissing_withoutAux (share : SmbShare) :
    isMissing host share.withoutAux = isMissing host share := by
  unfold isMissing
  rw [params_withoutAux]
  rfl

theorem sectionShare_withoutAux (shares : List SmbShare) (name : String) :
    sectionShare host (shares.map SmbShare.withoutAux) name =
      (sectionShare host shares name).map SmbShare.withoutAux := by
  have hkept : ((fun share => !isMissing host share &&
      decide (shareSectionName share = name)) ∘ SmbShare.withoutAux) =
      fun share => !isMissing host share && decide (shareSectionName share = name) := by
    funext share
    rw [Function.comp_apply, isMissing_withoutAux]
    rfl
  unfold sectionShare
  rw [List.filter_map, hkept, getLast?_map]

/-! ### Its protected parameters -/

/-- No auxiliary parameter of the share is another spelling of a blacklisted
name, but for one that sets `vfs objects` to what it is anyway. -/
structure ShareUndisturbed (host : SmbHost) (aaplExtensions : Bool)
    (share : SmbShare) : Prop where
  blacklist : ∀ p ∈ auxParamBlacklist, p ≠ "vfs objects" → otherSpelling (auxOf share) p = none
  vfsObjects : ∀ value ∈ otherSpelling (auxOf share) "vfs objects",
    value.text = String.intercalate " "
      ((vfsObjectsOf host aaplExtensions share).map TrueNASVfsObject.value)

theorem mem_protectedNames_of_blacklist {p : String}
    (hp : p ∈ auxParamBlacklist) : p ∈ protectedNames :=
  mem_append_left stigNames hp

theorem ordinary_shareBase {fruitEnabled : Bool} {data : SmbShare}
    {fsAcl : Option (List TrueNASVfsObject)}
    {vfsObjects : List TrueNASVfsObject} {presetParams : SmbParameters}
    (hpreset : presetParameters data.purpose = .ok presetParams) :
    OrdinaryParameters earlyShares
      (shareBase dsConfig fruitEnabled data fsAcl vfsObjects presetParams) :=
  (((ordinary_shareField _ _ _ _).mono (nil_subset _)).append
    (ordinary_vfs _)).append ((ordinary_preset hpreset).mono (nil_subset _))

theorem lastMatch_vfsObjects {fruitEnabled : Bool} {data : SmbShare}
    {fsAcl : Option (List TrueNASVfsObject)}
    {vfsObjects : List TrueNASVfsObject} {presetParams : SmbParameters}
    (hpreset : presetParameters data.purpose = .ok presetParams) :
    Dict.lastMatch (sameParameter "vfs objects")
        (Dict.ofEntries (shareBase dsConfig fruitEnabled data fsAcl vfsObjects
          presetParams)).entries =
      some (.list (vfsObjects.map TrueNASVfsObject.value)) := by
  have hp : "vfs objects" ∈ protectedNames := by decide
  have hother : ∀ parameters, OrdinaryParameters [] parameters →
      ∀ param ∈ parameters, param.1 = "vfs objects" →
        param.2 = .list (vfsObjects.map TrueNASVfsObject.value) := by
    intro parameters hparameters param hparam heq
    have hordinary := hparameters param hparam "vfs objects" hp (by rw [heq])
    exact absurd hordinary.2 not_mem_nil
  apply (ordinary_shareBase hpreset).lastMatch_of_unique hp
  · simp [shareBase, vfsParameters]
  · unfold shareBase
    rw [forall_mem_append, forall_mem_append]
    refine ⟨⟨hother _ (ordinary_shareField _ _ _ _), ?_⟩, hother _ (ordinary_preset hpreset)⟩
    simp [vfsParameters]

theorem shareAux_notMem {data : SmbShare} {aux : SmbParameters}
    (haux : shareAuxParameters data = .ok aux) {p : String}
    (hp : p ∈ auxParamBlacklist) : p ∉ aux.map Prod.fst := by
  obtain ⟨params, _, haux⟩ := bind_eq_ok_iff.mp haux
  rw [← Except.ok.inj haux]
  intro hmem
  obtain ⟨param, hparam, rfl⟩ := List.mem_map.mp hmem
  have hkept := (mem_filter.mp hparam).2
  rw [decide_eq_true_eq] at hkept
  exact hkept hp

theorem shareBase_withoutAux {fruitEnabled : Bool} (data : SmbShare)
    (fsAcl : Option (List TrueNASVfsObject)) (vfsObjects : List TrueNASVfsObject)
    (presetParams : SmbParameters) :
    shareBase dsConfig fruitEnabled data.withoutAux fsAcl vfsObjects presetParams =
      shareBase dsConfig fruitEnabled data fsAcl vfsObjects presetParams := rfl

theorem shareVfsObjects_withoutAux {fruitEnabled : Bool} (data : SmbShare)
    (fsAcl : List TrueNASVfsObject) :
    shareVfsObjects host fruitEnabled data.withoutAux fsAcl =
      shareVfsObjects host fruitEnabled data fsAcl := rfl

theorem generateSmbShareConfDict_of_ok {data : SmbShare}
    {fsAcl : Option (List TrueNASVfsObject)} {presetParams aux : SmbParameters}
    (hdata : sharePresets share = .ok data)
    (hfsAcl : shareFsAcl host data = .ok fsAcl)
    (hpreset : presetParameters data.purpose = .ok presetParams)
    (haux : shareAuxParameters data = .ok aux) :
    generateSmbShareConfDict host dsConfig share smbServiceConfig =
      .ok ((Dict.ofEntries (shareBase dsConfig smbServiceConfig.aaplExtensions
        data fsAcl (shareVfsObjects host smbServiceConfig.aaplExtensions data
          (fsAcl.getD [])) presetParams)).update aux) := by
  unfold generateSmbShareConfDict
  rw [hdata, ok_bind, hfsAcl, ok_bind, hpreset, ok_bind, haux, ok_bind]
  rfl

theorem generateSmbShareConfDict_withoutAux {data : SmbShare}
    {fsAcl : Option (List TrueNASVfsObject)} {presetParams : SmbParameters}
    (hdata : sharePresets share = .ok data)
    (hfsAcl : shareFsAcl host data = .ok fsAcl)
    (hpreset : presetParameters data.purpose = .ok presetParams)
    (smbOptions : String) :
    generateSmbShareConfDict host dsConfig share.withoutAux { smbServiceConfig with smbOptions } =
      .ok (Dict.ofEntries (shareBase dsConfig smbServiceConfig.aaplExtensions
        data fsAcl (shareVfsObjects host smbServiceConfig.aaplExtensions data
          (fsAcl.getD [])) presetParams)) := by
  have hempty : shareFsAcl host data.withoutAux = .ok fsAcl := hfsAcl
  have hpurpose : presetParameters data.withoutAux.purpose = .ok presetParams := hpreset
  have hwithout : sharePresets share.withoutAux = .ok data.withoutAux := by
    rw [sharePresets_withoutAux, withoutAux_of_sharePresets hdata]
  rw [generateSmbShareConfDict_of_ok hwithout hempty hpurpose
    (shareAuxParameters_withoutAux data), update_nil,
    shareBase_withoutAux, shareVfsObjects_withoutAux]

theorem share_effective_iff {section_ empty : Dict String SmbConfValue} {smbOptions : String}
    (hsection : generateSmbShareConfDict host dsConfig share smbServiceConfig = .ok section_)
    (hempty : generateSmbShareConfDict host dsConfig share.withoutAux
      { smbServiceConfig with smbOptions } = .ok empty) :
    (∀ p ∈ auxParamBlacklist, effective section_ p = effective empty p) ↔
      ShareUndisturbed host smbServiceConfig.aaplExtensions share := by
  obtain ⟨data, fsAcl, presetParams, aux, hdata, hfsAcl, hpreset, haux,
    heq⟩ := generateSmbShareConfDict_eq_ok hsection
  rw [generateSmbShareConfDict_withoutAux hdata hfsAcl hpreset, Except.ok.injEq] at hempty
  have hbase := @ordinary_shareBase dsConfig smbServiceConfig.aaplExtensions
    data fsAcl (shareVfsObjects host smbServiceConfig.aaplExtensions data
      (fsAcl.getD [])) presetParams hpreset
  have hauxOf : auxOf share = aux := by
    unfold auxOf
    simp only [hdata, haux]
  have hvfs : vfsObjectsOf host smbServiceConfig.aaplExtensions share =
      shareVfsObjects host smbServiceConfig.aaplExtensions data (fsAcl.getD []) := by
    unfold vfsObjectsOf
    simp only
    rw [← shareFsAcl_of_sharePresets hdata, hfsAcl,
      ← shareVfsObjects_withoutAux, ← shareVfsObjects_withoutAux data,
      withoutAux_of_sharePresets hdata]
    cases fsAcl <;> rfl
  have hvalue : ∀ p ∈ auxParamBlacklist, effective section_ p = ((otherSpelling aux p).or
        (Dict.lastMatch (sameParameter p) empty.entries)).map SmbConfValue.text := by
    intro p hp
    rw [effective, heq, hbase.lastMatch_update
      (mem_protectedNames_of_blacklist hp) (shareAux_notMem haux hp), hempty]
  have hplain : ∀ p ∈ auxParamBlacklist, p ≠ "vfs objects" →
      Dict.lastMatch (sameParameter p) empty.entries = none := by
    intro p hp hne
    rw [← hempty]
    exact hbase.lastMatch_eq_none (mem_protectedNames_of_blacklist hp)
      (by simpa [earlyShares] using hne)
  have hobjects : Dict.lastMatch (sameParameter "vfs objects") empty.entries =
      some (.list ((vfsObjectsOf host smbServiceConfig.aaplExtensions
        share).map TrueNASVfsObject.value)) := by
    rw [← hempty, hvfs]
    exact lastMatch_vfsObjects hpreset
  constructor
  · intro hsame
    constructor
    · intro p hp hne
      have hp' := hsame p hp
      rw [hvalue p hp, effective, hplain p hp hne, or_none, map_none, map_eq_none_iff] at hp'
      rw [hauxOf]
      exact hp'
    · intro value hother
      have hp := hsame "vfs objects" (by decide)
      rw [hauxOf, Option.mem_def] at hother
      rw [hvalue _ (by decide), effective, hobjects, hother] at hp
      exact some.inj hp
  · intro hundisturbed p hp
    rw [hvalue p hp, effective, ← hauxOf]
    by_cases hne : p = "vfs objects"
    · subst hne
      cases hother : otherSpelling (auxOf share) "vfs objects" with
      | none => rw [none_or]
      | some value =>
        rw [hobjects, some_or, map_some, map_some, hundisturbed.vfsObjects value hother]
        rfl
    · rw [hundisturbed.blacklist p hp hne, none_or]

end

end Middlewared
