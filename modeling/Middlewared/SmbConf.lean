import Middlewared.Idmap
import Middlewared.SmbShare

/-!
# The generated Samba configuration

`generate_smb_conf_dict` and `generate_smb_share_conf_dict`: the parameters of
the global section and of each share, in the order in which the dictionaries
have them, which is the order of the lines of `smb4.conf`.
-/

namespace Middlewared

open PyString

inductive SmbEncryption where
  | default
  | negotiate
  | desired
  | required
deriving DecidableEq

def SmbEncryption.value : SmbEncryption → String
  | .default => "default"
  | .negotiate => "if_required"
  | .desired => "desired"
  | .required => "required"

/-- `smb.config`. -/
structure SmbServiceConfig where
  netbiosname : String
  netbiosalias : List String
  (workgroup description unixcharset : String)
  (debug syslog aaplExtensions localmaster : Bool)
  (guest filemask dirmask smbOptions : String)
  bindip : List String
  (ntlmv1Auth enableSmb1 multichannel : Bool)
  encryption : SmbEncryption

structure ActiveDirectoryConfig where
  (useDefaultDomain allowTrustedDoms : Bool)
  (domainname nssInfo : String)
  disableFreenasCache : Bool

/-- `ipa_domain` with the realm of `ipa_config`. -/
structure IpaDomain where
  netbiosName : String
  (rangeIdMin rangeIdMax : ℤ)
  realm : String

/-- `ds_type` with the `ds_config` that goes with it. -/
inductive DsConfig where
  | none
  | ad (config : ActiveDirectoryConfig)
  | ipa (domain : Option IpaDomain)
  | ldap

def DsConfig.isAd : DsConfig → Bool
  | .ad _ => true
  | .none | .ipa _ | .ldap => false

/-- What `path_get_acltype` gives, or how it raises. -/
inductive AclProbe where
  | posix1e
  | nfs4
  | disabled
  | fileNotFound
  | osError
deriving DecidableEq

inductive SmbConfError where
  | fileNotFoundError
  | osError
  | valueError
  | indexError
  | keyError
  | matchNotFound

structure SmbHost where
  pathGetAcltype : String → AclProbe
  ioUringEnabled : Bool
  bindChoices : List String
  setOrder : List String → List String

/-- `TrueNASVfsObjects`. -/
inductive TrueNASVfsObject where
  | truenasAudit
  | catia
  | fruit
  | streamsXattr
  | shadowCopyZfs
  | aclXattr
  | ixnas
  | winmsa
  | recycle
  | zfsCore
  | ioUring
  | worm
  | tmprotect
  | zfsFsrvp
deriving DecidableEq

namespace TrueNASVfsObject

def value : TrueNASVfsObject → String
  | .truenasAudit => "truenas_audit"
  | .catia => "catia"
  | .fruit => "fruit"
  | .streamsXattr => "streams_xattr"
  | .shadowCopyZfs => "shadow_copy_zfs"
  | .aclXattr => "acl_xattr"
  | .ixnas => "ixnas"
  | .winmsa => "winmsa"
  | .recycle => "recycle"
  | .zfsCore => "zfs_core"
  | .ioUring => "io_uring"
  | .worm => "worm"
  | .tmprotect => "tmprotect"
  | .zfsFsrvp => "zfs_fsrvp"

def all : List TrueNASVfsObject :=
  [.truenasAudit, .catia, .fruit, .streamsXattr, .shadowCopyZfs, .aclXattr,
    .ixnas, .winmsa, .recycle, .zfsCore, .ioUring, .worm, .tmprotect, .zfsFsrvp]

end TrueNASVfsObject

def vfsIf (condition : Bool) (objects : List TrueNASVfsObject) :
    List TrueNASVfsObject :=
  if condition then objects else []

def orderVfsObjects (vfsObjects : List TrueNASVfsObject) (fruitEnabled : Bool)
    (purpose : SmbSharePreset) : List TrueNASVfsObject :=
  let vfsObjects := vfsObjects ++ vfsIf fruitEnabled [.fruit]
  let vfsObjects := vfsObjects ++ vfsIf (.fruit ∈ vfsObjects) [.streamsXattr]
  let vfsObjects := vfsObjects ++
    match purpose with
    | .wormDropbox => [.worm]
    | .enhancedTimemachine => [.tmprotect]
    | _ => []
  TrueNASVfsObject.all.filter fun object => object ∈ vfsObjects

def isExternal (path : String) : Bool :=
  startsWith path "EXTERNAL:"

def parseShareFsAcl (host : SmbHost) (sharePath : String) :
    Except SmbConfError (Option (List TrueNASVfsObject)) :=
  if isExternal sharePath then .ok (some [])
  else
    match host.pathGetAcltype sharePath with
    | .posix1e => .ok (some [.aclXattr])
    | .nfs4 => .ok (some [.ixnas])
    | .disabled => .ok none
    | .fileNotFound => .error .fileNotFoundError
    | .osError => .error .osError

def shareVfsObjects (host : SmbHost) (aaplExtensions : Bool)
    (share : SmbShare) (fsAcl : List TrueNASVfsObject) :
    List TrueNASVfsObject :=
  orderVfsObjects ([.zfsCore] ++ vfsIf host.ioUringEnabled [.ioUring] ++
      vfsIf share.streams [.streamsXattr] ++ vfsIf share.recyclebin [.recycle] ++
      vfsIf share.shadowcopy [.shadowCopyZfs] ++
      vfsIf share.fsrvp [.zfsFsrvp] ++ fsAcl ++
      vfsIf share.aaplNameMangling [.catia] ++
      vfsIf share.afp [.fruit, .catia] ++
      vfsIf share.audit.enable [.truenasAudit])
    aaplExtensions share.purpose

/-! ## The section of a share -/

abbrev SmbParameters := List (String × SmbConfValue)

def parametersIf (condition : Bool) (parameters : SmbParameters) :
    SmbParameters :=
  if condition then parameters else []

/-- `os.path.join`. -/
def pathJoin (path suffix : String) : String :=
  if startsWith suffix "/" then suffix
  else if path = "" || endsWith path "/" then path ++ suffix
  else path ++ "/" ++ suffix

def transformSharePath (dsConfig : DsConfig) (share : SmbShare) :
    SmbParameters :=
  if isExternal share.path then
    [("msdfs root", .bool true), ("msdfs proxy", .str (dropFirst share.path 9)),
      ("path", .str "/var/empty")]
  else
    let pathSuffix :=
      if share.home && share.pathSuffix = "" then
        if dsConfig.isAd then "%D/%U" else "%U"
      else share.pathSuffix
    [("path", .str (if pathSuffix = "" then share.path else pathJoin share.path pathSuffix))]

def fruitCatiaMaps : List String :=
  ["0x01:0xf001,0x02:0xf002,0x03:0xf003,0x04:0xf004",
    "0x05:0xf005,0x06:0xf006,0x07:0xf007,0x08:0xf008",
    "0x09:0xf009,0x0a:0xf00a,0x0b:0xf00b,0x0c:0xf00c",
    "0x0d:0xf00d,0x0e:0xf00e,0x0f:0xf00f,0x10:0xf010",
    "0x11:0xf011,0x12:0xf012,0x13:0xf013,0x14:0xf014",
    "0x15:0xf015,0x16:0xf016,0x17:0xf017,0x18:0xf018",
    "0x19:0xf019,0x1a:0xf01a,0x1b:0xf01b,0x1c:0xf01c",
    "0x1d:0xf01d,0x1e:0xf01e,0x1f:0xf01f",
    "0x22:0xf020,0x2a:0xf021,0x3a:0xf022,0x3c:0xf023",
    "0x3e:0xf024,0x3f:0xf025,0x5c:0xf026,0x7c:0xf027"]

def shareFieldParameters (dsConfig : DsConfig) (share : SmbShare)
    (fruitEnabled aclDisabled : Bool) : SmbParameters :=
  [("hosts allow", .list share.hostsallow), ("hosts deny", .list share.hostsdeny),
    ("access based share enum", .bool share.abe),
    ("readonly", .bool share.ro),
    ("available", .bool (share.enabled && !share.locked)),
    ("guest ok", .bool share.guestok),
    ("nt acl support", .bool share.acl),
    ("smbd max xattr size", .int 2097152),
    ("fruit:metadata", .str "stream"),
    ("fruit:resource", .str "stream"),
    ("comment", .str share.comment),
    ("browseable", .bool share.browsable)] ++
  transformSharePath dsConfig share ++
  parametersIf share.recyclebin [("recycle:repository",
        .str (if dsConfig.isAd then ".recycle/%D/%U" else ".recycle/%U")),
      ("recycle:keeptree", .bool true),
      ("recycle:versions", .bool true),
      ("recycle:touch", .bool true),
      ("recycle:directory_mode", .str "0777"),
      ("recycle:subdir_mode", .str "0700")] ++
  (if share.durablehandle then [("posix locking", .bool false)]
    else [("kernel oplocks", .bool true)]) ++
  parametersIf share.timemachine (("fruit:timemachine", .bool true) ::
      parametersIf (share.timemachineQuota ≠ 0)
        [("fruit:time machine max size", .int share.timemachineQuota)]) ++
  parametersIf aclDisabled [("nt acl support", .bool false)] ++
  parametersIf share.aaplNameMangling (if fruitEnabled then
      [("fruit:encoding", .str "native"), ("mangled names", .bool false)]
    else
      [("catia:mappings", .str (String.intercalate "," fruitCatiaMaps)),
        ("mangled names", .bool false)]) ++
  parametersIf share.afp [("fruit:encoding", .str "native"), ("fruit:metadata", .str "netatalk"),
      ("fruit:resource", .str "file"),
      ("streams_xattr:prefix", .str "user."),
      ("streams_xattr:store_stream_type", .bool false),
      ("streams_xattr:xattr_compat", .bool true)] ++
  parametersIf share.audit.enable (parametersIf (share.audit.watchList ≠ [])
        [("truenas_audit:watch_list", .list share.audit.watchList)] ++
      parametersIf (share.audit.ignoreList ≠ [])
        [("truenas_audit:ignore_list", .list share.audit.ignoreList)])

def vfsParameters (vfsObjects : List TrueNASVfsObject) : SmbParameters :=
  [("vfs objects", .list (vfsObjects.map TrueNASVfsObject.value))]

def textParameters (lines : List String) : Except SmbConfError SmbParameters :=
  match lines.mapM auxParam with
  | none => .error .valueError
  | some params => .ok (params.map fun param => (param.1, .str param.2))

def presetParameters (purpose : SmbSharePreset) :
    Except SmbConfError SmbParameters :=
  textParameters (splitlines purpose.auxsmbconf)

def auxParamBlacklist : List String :=
  ["state directory", "private directory", "lock directory", "lock dir",
    "config backend", "private dir", "log level", "cache directory",
    "clustering", "ctdb socket", "socket options", "include", "wide links",
    "insecure wide links", "zfs_core:zfs_block_cloning",
    "zfs_core:zfs_integrity_streams", "use sendfile", "vfs objects"]

def shareAuxParameters (share : SmbShare) :
    Except SmbConfError SmbParameters := do
  let params ← textParameters
    ((splitlines (smbStripComments share.auxsmbconf)).filter fun param =>
      strip param ≠ "")
  return params.filter fun param => param.1 ∉ auxParamBlacklist

def sharePresets (shareConfigIn : SmbShare) : Except SmbConfError SmbShare :=
  match applyPresets shareConfigIn with
  | none => .error .indexError
  | some share => .ok share

def shareFsAcl (host : SmbHost) (share : SmbShare) :
    Except SmbConfError (Option (List TrueNASVfsObject)) :=
  if share.acl then parseShareFsAcl host share.path else .ok (some [])

def generateSmbShareConfDict (host : SmbHost) (dsConfig : DsConfig)
    (shareConfigIn : SmbShare) (smbServiceConfig : SmbServiceConfig) :
    Except SmbConfError (Dict String SmbConfValue) := do
  let share ← sharePresets shareConfigIn
  let fruitEnabled := smbServiceConfig.aaplExtensions
  let fsAcl ← shareFsAcl host share
  let vfsObjects := shareVfsObjects host fruitEnabled share (fsAcl.getD [])
  let presetParams ← presetParameters share.purpose
  let auxParams ← shareAuxParameters share
  return (Dict.ofEntries (shareFieldParameters dsConfig share fruitEnabled fsAcl.isNone ++
      vfsParameters vfsObjects ++ presetParams)).update auxParams

/-! ## The global section -/

def loglevelint (smbServiceConfig : SmbServiceConfig) : ℤ :=
  if smbServiceConfig.debug then 10 else 1

def orDefault (value default : String) : String :=
  if value = "" then default else value

/-- A mask is `None` for `DEFAULT`. -/
def maskOr (mask default : String) : String :=
  if mask = "DEFAULT" then default else orDefault mask default

def bindParameters (host : SmbHost) (bindip : List String) : SmbParameters :=
  if bindip = [] then []
  else
    let finalIps := (host.bindChoices.filter (· ∈ bindip)).dedup
    [("interfaces", .str (if finalIps = [] then "127.0.0.1"
        else String.intercalate " " (host.setOrder (finalIps.insert "127.0.0.1"))))]

def samePassword : String :=
  "/etc/samba/kerberos/krb5.keytab0:account_name:sync_kvno:machine_password " ++
  "/etc/samba/kerberos/krb5.keytab1:sync_spns:sync_kvno:machine_password " ++
  "/etc/samba/kerberos/krb5.keytab2:spn_prefixes=nfs:sync_kvno:machine_password"

def homePath (dsConfig : DsConfig) (smbShares : List SmbShare) : String :=
  match smbShares.find? SmbShare.home with
  | none => "/var/empty"
  | some share =>
    pathJoin share.path (if dsConfig.isAd then "%D/%U"
        else if share.pathSuffix = "" then "%U" else share.pathSuffix)

def dsParameters (smbShares : List SmbShare) (dsConfig : DsConfig) :
    SmbParameters :=
  match dsConfig with
  | .none | .ldap | .ipa none => []
  | .ad ac =>
    [("server role", .str "member server"), ("kerberos method", .str "secrets only"),
      ("sync machine password to keytab", .str samePassword),
      ("security", .str "ADS"),
      ("local master", .bool false),
      ("domain master", .bool false),
      ("preferred master", .bool false),
      ("winbind cache time", .int 7200),
      ("winbind max domain connections", .int 10),
      ("winbind use default domain", .bool ac.useDefaultDomain),
      ("client ldap sasl wrapping", .str "seal"),
      ("template shell", .str "/bin/sh"),
      ("allow trusted domains", .bool ac.allowTrustedDoms),
      ("realm", .str ac.domainname),
      ("winbind nss info", .str ac.nssInfo.toLower),
      ("template homedir", .str (homePath dsConfig smbShares)),
      ("winbind enum users", .bool !ac.disableFreenasCache),
      ("winbind enum groups", .bool !ac.disableFreenasCache)]
  | .ipa (some domain) =>
    let idmap := "idmap config " ++ domain.netbiosName ++ " :"
    [("server role", .str "member server"), ("kerberos method", .str "dedicated keytab"),
      ("dedicated keytab file", .str "FILE:/etc/ipa/smb.keytab"),
      ("workgroup", .str domain.netbiosName),
      ("realm", .str domain.realm),
      (idmap ++ " backend", .str "sss"),
      (idmap ++ " range", .str (toString domain.rangeIdMin ++ " - " ++ toString domain.rangeIdMax))]

def idmapConfigDomain (dsConfig : DsConfig) (workgroup : String)
    (adIdmap : Option IdmapDomain) (i : IdmapDomain) : Option String :=
  if i.name = "DS_TYPE_DEFAULT_DOMAIN" then
    if adIdmap.any (·.idmapBackend = .autorid) then none else some "*"
  else if i.name = "DS_TYPE_ACTIVEDIRECTORY" then
    if !dsConfig.isAd then none
    else if i.idmapBackend = .autorid then some "*"
    else some workgroup
  else if i.name = "DS_TYPE_LDAP" then none
  else some i.name

def idmapRange (i : IdmapDomain) : String :=
  toString i.rangeLow ++ " - " ++ toString i.rangeHigh

def SmbConfValue.text : SmbConfValue → String
  | .bool true => "True"
  | .bool false => "False"
  | .int value => toString value
  | .str value => value
  | .list value => String.intercalate " " value

/-- The parameter for an option; nothing for `ssl`. -/
def idmapOptionParameter (i : IdmapDomain) (idmapPrefix : String)
    (option : String × SmbConfValue) :
    Except SmbConfError SmbParameters :=
  let parameter := fun value => [(idmapPrefix ++ " " ++
    (if option.1 = "cn_realm" then "realm" else option.1), value)]
  if option.1 = "ldap_server" then
    .ok (parameter (.str (if option.2 = .str "AD" then "ad" else "stand-alone")))
  else if option.1 = "ldap_url" then
    match i.options.get? "ssl" with
    | none => .error .keyError
    | some ssl =>
      .ok (parameter (.str ((if ssl = .str "ON" then "ldaps://" else "ldap://") ++ option.2.text)))
  else if option.1 = "ssl" then .ok []
  else .ok (parameter option.2)

def idmapDomainParameters (dsConfig : DsConfig) (workgroup : String)
    (adIdmap : Option IdmapDomain) (i : IdmapDomain) :
    Except SmbConfError SmbParameters :=
  match idmapConfigDomain dsConfig workgroup adIdmap i with
  | none => .ok []
  | some domain => do
    let idmapPrefix := "idmap config " ++ domain ++ " :"
    let options ←
      i.options.entries.mapM (idmapOptionParameter i idmapPrefix)
    return [(idmapPrefix ++ " backend", .str i.idmapBackend.lowerName),
      (idmapPrefix ++ " range", .str (idmapRange i))] ++ options.flatten

def findAdIdmap (dsConfig : DsConfig) (idmapSettings : List IdmapDomain) :
    Except SmbConfError (Option IdmapDomain) :=
  if dsConfig.isAd then
    match idmapSettings.find? (·.name = "DS_TYPE_ACTIVEDIRECTORY") with
    | none => .error .matchNotFound
    | some i => .ok (some i)
  else .ok none

def idmapParameters (dsConfig : DsConfig) (workgroup : String)
    (idmapSettings : List IdmapDomain) : Except SmbConfError SmbParameters := do
  let adIdmap ← findAdIdmap dsConfig idmapSettings
  let parameters ← idmapSettings.mapM
    (idmapDomainParameters dsConfig workgroup adIdmap)
  return parameters.flatten

def serviceFieldParameters (dsConfig : DsConfig)
    (smbServiceConfig : SmbServiceConfig) (smbShares : List SmbShare) :
    SmbParameters :=
  let guestEnabled := smbShares.any SmbShare.guestok
  [("disable spoolss", .bool true), ("dns proxy", .bool false), ("load printers", .bool false),
    ("max log size", .int 5120),
    ("printcap", .str "/dev/null"),
    ("bind interfaces only", .bool true),
    ("fruit:nfs_aces", .bool false),
    ("fruit:zero_file_id", .bool false),
    ("rpc_daemon:mdssd", .str "disabled"),
    ("rpc_server:mdssvc", .str "disabled"),
    ("restrict anonymous", .int (if guestEnabled then 0 else 2)),
    ("winbind request timeout", .int (if dsConfig.isAd then 60 else 2)),
    ("passdb backend", .str "tdbsam:/var/run/samba-cache/private/passdb.tdb"),
    ("workgroup", .str smbServiceConfig.workgroup),
    ("netbios name", .str smbServiceConfig.netbiosname),
    ("netbios aliases", .str (String.intercalate " " smbServiceConfig.netbiosalias)),
    ("guest account", .str (orDefault smbServiceConfig.guest "nobody")),
    ("obey pam restrictions", .bool (smbShares.any SmbShare.home)),
    ("create mask", .str (maskOr smbServiceConfig.filemask "0664")),
    ("directory mask", .str (maskOr smbServiceConfig.dirmask "0775")),
    ("ntlm auth", .bool smbServiceConfig.ntlmv1Auth),
    ("server multichannel support", .bool smbServiceConfig.multichannel),
    ("unix charset", .str smbServiceConfig.unixcharset),
    ("local master", .bool smbServiceConfig.localmaster),
    ("server string", .str smbServiceConfig.description),
    ("log level", .int (loglevelint smbServiceConfig)),
    ("logging", .str "file"),
    ("server smb encrypt", .str smbServiceConfig.encryption.value)]

def serviceOptionParameters (host : SmbHost) (dsConfig : DsConfig)
    (smbServiceConfig : SmbServiceConfig) (smbShares : List SmbShare) :
    SmbParameters :=
  parametersIf (smbShares.any SmbShare.guestok) [("map to guest", .str "Bad User")] ++
  parametersIf (smbShares.any SmbShare.fsrvp)
    [("rpc_daemon:fssd", .str "fork"), ("fss:prune stale", .bool true)] ++
  parametersIf smbServiceConfig.enableSmb1 [("server min protocol", .str "NT1")] ++
  parametersIf smbServiceConfig.syslog [("logging", .str ("syslog@" ++
      toString (min 3 (loglevelint smbServiceConfig)) ++ " file"))] ++
  bindParameters host smbServiceConfig.bindip ++
  dsParameters smbShares dsConfig

def smbOptionsParameters (smbOptions : String) : SmbParameters :=
  (splitlines smbOptions).filterMap fun e =>
    let entry := strip e
    if startsWith entry "#" || startsWith entry ";" then none
    else (auxParam entry).map fun param => (param.1, .str param.2)

def stigParameters (enableGposStig : Bool) : SmbParameters :=
  parametersIf enableGposStig
    [("client use kerberos", .str "required"), ("ntlm auth", .str "disabled")]

def lastParameters (isEnterprise : Bool) : SmbParameters :=
  [("zfs_core:zfs_integrity_streams", .bool isEnterprise),
    ("zfs_core:zfs_block_cloning", .bool isEnterprise),
    ("registry shares", .bool true),
    ("include", .str "registry")]

structure SmbConf where
  globals : Dict String SmbConfValue
  shares : Dict String (Dict String SmbConfValue)

def shareSectionName (share : SmbShare) : String :=
  if share.home then "homes" else share.name

def addShareSection (host : SmbHost) (dsConfig : DsConfig)
    (smbServiceConfig : SmbServiceConfig)
    (shares : Dict String (Dict String SmbConfValue)) (share : SmbShare) :
    Except SmbConfError (Dict String (Dict String SmbConfValue)) :=
  match generateSmbShareConfDict host dsConfig share smbServiceConfig with
  | .error .fileNotFoundError => .ok shares
  | .error e => .error e
  | .ok shareConf => .ok (shares.set (shareSectionName share) shareConf)

structure SmbConfInput where
  dsConfig : DsConfig
  smbServiceConfig : SmbServiceConfig
  smbShares : List SmbShare
  idmapSettings : List IdmapDomain
  (isEnterprise enableGposStig : Bool)

def generateSmbConfDict (host : SmbHost) (input : SmbConfInput) :
    Except SmbConfError SmbConf := do
  let idmap ← idmapParameters input.dsConfig input.smbServiceConfig.workgroup
    input.idmapSettings
  let smbconf := Dict.ofEntries
    (serviceFieldParameters input.dsConfig input.smbServiceConfig input.smbShares ++
      serviceOptionParameters host input.dsConfig input.smbServiceConfig input.smbShares ++ idmap)
  let smbconf := smbconf.update
    (smbOptionsParameters input.smbServiceConfig.smbOptions)
  let smbconf := smbconf.update (stigParameters input.enableGposStig)
  let smbconf := smbconf.update (lastParameters input.isEnterprise)
  let shares ← input.smbShares.foldlM
    (addShareSection host input.dsConfig input.smbServiceConfig) Dict.empty
  -- the key of the shares is taken out of the global section
  return ⟨smbconf.erase "SHARES", shares⟩

end Middlewared
