import Middlewared.SmbParam

/-!
# The names that a configuration sets

No name that a generated configuration sets, besides those that its auxiliary
parameters give, is another spelling of a protected one.
-/

namespace Middlewared

open PyString List

/-! ## Names that are no other spelling of a protected one -/

def stigNames : List String := ["ntlm auth", "client use kerberos"]

def protectedNames : List String := auxParamBlacklist ++ stigNames

def Ordinary (early : List String) (name : String) : Prop :=
  ∀ p ∈ protectedNames, sambaName name = sambaName p → name = p ∧ p ∈ early

instance (early : List String) (name : String) :
    Decidable (Ordinary early name) :=
  inferInstanceAs (Decidable (∀ p ∈ protectedNames, _))

def earlyGlobals : List String := ["log level", "ntlm auth"]

def earlyShares : List String := ["vfs objects"]

def protectedHeads : List (List Char) :=
  [['s', 't', 'a', 't'], ['p', 'r', 'i', 'v'], ['l', 'o', 'c', 'k'],
    ['c', 'o', 'n', 'f'], ['l', 'o', 'g', 'l'], ['c', 'a', 'c', 'h'],
    ['c', 'l', 'u', 's'], ['c', 't', 'd', 'b'], ['s', 'o', 'c', 'k'],
    ['i', 'n', 'c', 'l'], ['w', 'i', 'd', 'e'], ['i', 'n', 's', 'e'],
    ['z', 'f', 's', '_'], ['u', 's', 'e', 's'], ['v', 'f', 's', 'o'],
    ['n', 't', 'l', 'm'], ['c', 'l', 'i', 'e']]

theorem forall_sambaName_cons {P : List Char → Prop} {names : List String} {text : List Char}
    (htext : P ((text.filter fun c => !isBlank c).map Char.toLower))
    (hnames : ∀ name ∈ names, P (sambaName name)) :
    ∀ name ∈ String.ofList text :: names, P (sambaName name) := by
  rw [forall_mem_cons, sambaName, String.toList_ofList]
  exact ⟨htext, hnames⟩

theorem take_mem_protectedHeads : ∀ p ∈ protectedNames,
    (sambaName p).take 4 ∈ protectedHeads := by
  repeat
    refine @forall_sambaName_cons (fun text => text.take 4 ∈ protectedHeads)
      _ _ (by decide) ?_
  exact forall_mem_nil _

def Checked (early : List String) (name : String) : Prop :=
  (sambaName name).take 4 ∉ protectedHeads ∨ Ordinary early name

instance (early : List String) (name : String) :
    Decidable (Checked early name) :=
  inferInstanceAs (Decidable (_ ∨ _))

theorem ordinary_of_checked {early : List String} {name : String}
    (hname : Checked early name) : Ordinary early name := by
  rcases hname with hhead | hordinary
  · intro p hp hsame
    rw [hsame] at hhead
    exact absurd (take_mem_protectedHeads p hp) hhead
  · exact hordinary

theorem nodup_sambaNames : (protectedNames.map sambaName).Nodup := by
  decide +kernel

theorem checked_of_mem {early : List String} {p : String}
    (hp : p ∈ protectedNames) (hearly : p ∈ early) : Checked early p := by
  apply Or.inr
  intro q hq hsame
  rw [← inj_on_of_nodup_map nodup_sambaNames hp hq hsame]
  exact ⟨rfl, hearly⟩

theorem take_ofList_notMem {text : List Char}
    (hhead : ((text.filter fun c => !isBlank c).map Char.toLower).take 4 ∉ protectedHeads) :
    (sambaName (String.ofList text)).take 4 ∉ protectedHeads := by
  rwa [sambaName, String.toList_ofList]

theorem checked_ofList {early : List String} {text : List Char}
    (hhead : ((text.filter fun c => !isBlank c).map Char.toLower).take 4 ∉
      protectedHeads) : Checked early (String.ofList text) :=
  Or.inl (take_ofList_notMem hhead)

theorem checked_cons {early names : List String} {text : List Char}
    (hhead : ((text.filter fun c => !isBlank c).map Char.toLower).take 4 ∉
      protectedHeads) (hnames : ∀ name ∈ names, Checked early name) :
    ∀ name ∈ String.ofList text :: names, Checked early name :=
  forall_mem_cons.mpr ⟨checked_ofList hhead, hnames⟩

theorem sambaName_append (first rest : String) :
    sambaName (first ++ rest) = sambaName first ++ sambaName rest := by
  simp [sambaName]

theorem ordinary_idmap (early : List String) (rest : String) :
    Ordinary early ("idmap config " ++ rest) := by
  apply ordinary_of_checked
  apply Or.inl
  rw [sambaName_append, take_append_of_le_length (by decide)]
  decide

def OrdinaryParameters (early : List String) (parameters : SmbParameters) :
    Prop :=
  ∀ param ∈ parameters, Ordinary early param.1

theorem OrdinaryParameters.append {early : List String}
    {first rest : SmbParameters} (hfirst : OrdinaryParameters early first)
    (hrest : OrdinaryParameters early rest) :
    OrdinaryParameters early (first ++ rest) :=
  forall_mem_append.mpr ⟨hfirst, hrest⟩

theorem OrdinaryParameters.mono {early more : List String}
    {parameters : SmbParameters} (hmore : early ⊆ more)
    (hparameters : OrdinaryParameters early parameters) :
    OrdinaryParameters more parameters :=
  fun param hparam p hp hsame =>
    ⟨(hparameters param hparam p hp hsame).1, hmore (hparameters param hparam p hp hsame).2⟩

theorem ordinaryParameters_if {early : List String} {parameters : SmbParameters}
    (hparameters : OrdinaryParameters early parameters) (condition : Bool) :
    OrdinaryParameters early (parametersIf condition parameters) := by
  unfold parametersIf
  split
  · exact hparameters
  · exact forall_mem_nil _

theorem ordinaryParameters_of_names {early : List String} {parameters : SmbParameters}
    (hnames : ∀ name ∈ parameters.map Prod.fst, Checked early name) :
    OrdinaryParameters early parameters :=
  fun _ hparam =>
    ordinary_of_checked (hnames _ (mem_map_of_mem hparam))

theorem ordinaryParameters_cons {early : List String} {text : List Char}
    {value : SmbConfValue} {parameters : SmbParameters}
    (hhead : ((text.filter fun c => !isBlank c).map Char.toLower).take 4 ∉
      protectedHeads) (hparameters : OrdinaryParameters early parameters) :
    OrdinaryParameters early ((String.ofList text, value) :: parameters) :=
  forall_mem_cons.mpr ⟨ordinary_of_checked (checked_ofList hhead), hparameters⟩

theorem checked_similar : ∀ name ∈ ["client ldap sasl wrapping", "zfs_core:zfs_auto_create"],
    Checked [] name := by
  decide +kernel

theorem ordinary_ds (smbShares : List SmbShare) (dsConfig : DsConfig) :
    OrdinaryParameters [] (dsParameters smbShares dsConfig) := by
  unfold dsParameters
  split
  · exact forall_mem_nil _
  · exact forall_mem_nil _
  · exact forall_mem_nil _
  · apply ordinaryParameters_of_names
    repeat refine checked_cons (by decide) ?_
    refine forall_mem_cons.mpr ⟨checked_similar _ (by simp), ?_⟩
    repeat refine checked_cons (by decide) ?_
    exact forall_mem_nil _
  · rename_i domain
    apply ordinaryParameters_of_names
    simp only [map_cons, map_nil, forall_mem_cons, String.append_assoc]
    refine ⟨checked_ofList (by decide), checked_ofList (by decide),
      checked_ofList (by decide), checked_ofList (by decide),
      checked_ofList (by decide), ?_, ?_, forall_mem_nil _⟩
    · exact Or.inr (ordinary_idmap _ _)
    · exact Or.inr (ordinary_idmap _ _)

theorem ordinary_serviceField (dsConfig : DsConfig)
    (smbServiceConfig : SmbServiceConfig) (smbShares : List SmbShare) :
    OrdinaryParameters earlyGlobals
      (serviceFieldParameters dsConfig smbServiceConfig smbShares) := by
  apply ordinaryParameters_of_names
  simp only [serviceFieldParameters, map_cons, map_nil]
  repeat refine checked_cons (by decide) ?_
  refine forall_mem_cons.mpr ⟨checked_of_mem (by decide) (by decide), ?_⟩
  repeat refine checked_cons (by decide) ?_
  refine forall_mem_cons.mpr ⟨checked_of_mem (by decide) (by decide), ?_⟩
  repeat refine checked_cons (by decide) ?_
  exact forall_mem_nil _

theorem ordinary_serviceOption (host : SmbHost) (dsConfig : DsConfig)
    (smbServiceConfig : SmbServiceConfig) (smbShares : List SmbShare) :
    OrdinaryParameters [] (serviceOptionParameters host dsConfig smbServiceConfig smbShares) := by
  repeat' apply OrdinaryParameters.append
  · apply ordinaryParameters_if
    repeat refine ordinaryParameters_cons (by decide) ?_
    exact forall_mem_nil _
  · apply ordinaryParameters_if
    repeat refine ordinaryParameters_cons (by decide) ?_
    exact forall_mem_nil _
  · apply ordinaryParameters_if
    repeat refine ordinaryParameters_cons (by decide) ?_
    exact forall_mem_nil _
  · apply ordinaryParameters_if
    repeat refine ordinaryParameters_cons (by decide) ?_
    exact forall_mem_nil _
  · unfold bindParameters
    split
    · exact forall_mem_nil _
    · repeat refine ordinaryParameters_cons (by decide) ?_
      exact forall_mem_nil _
  · exact ordinary_ds smbShares dsConfig

theorem ordinary_idmapOption {i : IdmapDomain} {domain : String}
    {option : String × SmbConfValue} {parameters : SmbParameters}
    (hoption : idmapOptionParameter i ("idmap config " ++ domain ++ " :") option = .ok parameters) :
    OrdinaryParameters [] parameters := by
  have hsingle : ∀ (rest : String) (value : SmbConfValue), OrdinaryParameters []
        [("idmap config " ++ domain ++ " :" ++ " " ++ rest, value)] := by
    intro rest value
    apply ordinaryParameters_of_names
    simp only [map_cons, map_nil, forall_mem_singleton, String.append_assoc]
    exact Or.inr (ordinary_idmap _ _)
  unfold idmapOptionParameter at hoption
  simp only at hoption
  split at hoption
  · cases hoption
    exact hsingle _ _
  · split at hoption
    · split at hoption
      · cases hoption
      · cases hoption
        exact hsingle _ _
    · split at hoption
      · cases hoption
        exact forall_mem_nil _
      · cases hoption
        exact hsingle _ _

theorem ordinary_idmapDomain {dsConfig : DsConfig} {workgroup : String}
    {adIdmap : Option IdmapDomain} {i : IdmapDomain}
    {parameters : SmbParameters}
    (hdomain : idmapDomainParameters dsConfig workgroup adIdmap i =
      .ok parameters) : OrdinaryParameters [] parameters := by
  unfold idmapDomainParameters at hdomain
  split at hdomain
  · cases hdomain
    exact forall_mem_nil _
  · obtain ⟨options, hoptions, hdomain⟩ := bind_eq_ok_iff.mp hdomain
    cases hdomain
    apply OrdinaryParameters.append
    · apply ordinaryParameters_of_names
      simp only [map_cons, map_nil, forall_mem_cons, String.append_assoc]
      exact ⟨Or.inr (ordinary_idmap _ _), Or.inr (ordinary_idmap _ _), forall_mem_nil _⟩
    · intro param hparam
      obtain ⟨single, hsingle, hparam⟩ := mem_flatten.mp hparam
      obtain ⟨option, _, hoption⟩ := exists_of_mem_mapM_results hoptions hsingle
      exact ordinary_idmapOption hoption param hparam

theorem ordinary_idmapParameters {dsConfig : DsConfig} {workgroup : String}
    {idmapSettings : List IdmapDomain} {parameters : SmbParameters}
    (hidmap : idmapParameters dsConfig workgroup idmapSettings =
      .ok parameters) : OrdinaryParameters [] parameters := by
  obtain ⟨adIdmap, _, hidmap⟩ := bind_eq_ok_iff.mp hidmap
  obtain ⟨domains, hdomains, hidmap⟩ := bind_eq_ok_iff.mp hidmap
  cases hidmap
  intro param hparam
  obtain ⟨domain, hdomain, hparam⟩ := mem_flatten.mp hparam
  obtain ⟨i, _, hi⟩ := exists_of_mem_mapM_results hdomains hdomain
  exact ordinary_idmapDomain hi param hparam

theorem ordinary_shareField (dsConfig : DsConfig) (share : SmbShare)
    (fruitEnabled aclDisabled : Bool) :
    OrdinaryParameters [] (shareFieldParameters dsConfig share fruitEnabled aclDisabled) := by
  repeat' apply OrdinaryParameters.append
  · repeat refine ordinaryParameters_cons (by decide) ?_
    exact forall_mem_nil _
  · unfold transformSharePath
    split
    · repeat refine ordinaryParameters_cons (by decide) ?_
      exact forall_mem_nil _
    · repeat refine ordinaryParameters_cons (by decide) ?_
      exact forall_mem_nil _
  · apply ordinaryParameters_if
    repeat refine ordinaryParameters_cons (by decide) ?_
    exact forall_mem_nil _
  · split
    · repeat refine ordinaryParameters_cons (by decide) ?_
      exact forall_mem_nil _
    · repeat refine ordinaryParameters_cons (by decide) ?_
      exact forall_mem_nil _
  · apply ordinaryParameters_if
    rw [OrdinaryParameters, forall_mem_cons]
    refine ⟨by decide +kernel, ?_⟩
    apply ordinaryParameters_if
    repeat refine ordinaryParameters_cons (by decide) ?_
    exact forall_mem_nil _
  · apply ordinaryParameters_if
    repeat refine ordinaryParameters_cons (by decide) ?_
    exact forall_mem_nil _
  · apply ordinaryParameters_if
    split
    · repeat refine ordinaryParameters_cons (by decide) ?_
      exact forall_mem_nil _
    · repeat refine ordinaryParameters_cons (by decide) ?_
      exact forall_mem_nil _
  · apply ordinaryParameters_if
    repeat refine ordinaryParameters_cons (by decide) ?_
    exact forall_mem_nil _
  · apply ordinaryParameters_if
    apply OrdinaryParameters.append
    · apply ordinaryParameters_if
      repeat refine ordinaryParameters_cons (by decide) ?_
      exact forall_mem_nil _
    · apply ordinaryParameters_if
      repeat refine ordinaryParameters_cons (by decide) ?_
      exact forall_mem_nil _

theorem ordinary_vfs (vfsObjects : List TrueNASVfsObject) :
    OrdinaryParameters earlyShares (vfsParameters vfsObjects) := by
  apply ordinaryParameters_of_names
  simp only [vfsParameters, map_cons, map_nil, forall_mem_singleton]
  exact checked_of_mem (by decide) (by decide)

def presetNames : SmbSharePreset → List String
  | .enhancedTimemachine | .privateDatasets => ["zfs_core:zfs_auto_create"]
  | .wormDropbox => ["worm:grace_period"]
  | .noPreset | .defaultShare | .timemachine | .multiProtocolNfs => []

theorem map_presetParameters {purpose : SmbSharePreset} {parameters : SmbParameters}
    (hpreset : presetParameters purpose = .ok parameters) :
    parameters.map Prod.fst = presetNames purpose := by
  cases purpose <;> cases hpreset <;> rfl

theorem ordinary_preset {purpose : SmbSharePreset} {parameters : SmbParameters}
    (hpreset : presetParameters purpose = .ok parameters) :
    OrdinaryParameters [] parameters := by
  have hnames : ∀ purpose, ∀ name ∈ presetNames purpose, Checked [] name := by
    intro purpose
    cases purpose
    all_goals simp only [presetNames, not_mem_nil, false_implies,
      implies_true, forall_mem_singleton]
    · exact checked_similar _ (by simp)
    · exact checked_similar _ (by simp)
    · exact checked_ofList (by decide)
  apply ordinaryParameters_of_names
  rw [map_presetParameters hpreset]
  exact hnames purpose

end Middlewared
