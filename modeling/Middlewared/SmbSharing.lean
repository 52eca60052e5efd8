import Middlewared.RelationalTable
import Middlewared.SmbParam
import Middlewared.TransitionSystem

/-!
# SMB shares and the services they rest on

The calls that change what shares there are (`sharing.smb`) and those that change the
configurations which shares have to agree with (`smb.update` and `network.configuration.update`).
A call is performed as a whole; what it finds out about the rest of the system is an argument of
it.
-/

namespace Middlewared

open PyString

inductive SharingError where
  | validation (errors : List VerrorEntry)
  | instanceNotFound
  | callError
  | fileNotFoundError
  | indexError
  | integrityError
deriving DecidableEq

/-- Python's `lower`, `casefold` and `int(text, 8)`, and the parts of a path that
`Path.resolve` gives. -/
structure SharingRuntime where
  (lower casefold : String → String)
  intBase8 : String → Option ℤ
  resolve : String → List String

structure SharingHost where
  fullAdmin : Bool
  setParm : String → String → Bool
  zvolInBootPool : String → Bool
  validateLocalPath : String → Except SharingError (List String)
  /-- `filesystem.stat` raises for a path that is not there. -/
  statAcl : String → Option Bool
  (groupExists userExists pathInLockedDatasets pathExists : String → Bool)
  sanityCheck : Bool
  (unixcharsetChoices bindipChoices : List String)
  adErrors : List VerrorEntry
  joinedDomain : Bool
  networkErrors : List VerrorEntry

def checkVerrors (errors : List VerrorEntry) : Except SharingError Unit :=
  if errors = [] then .ok () else .error (.validation errors)

/-! ## Shares as they are stored and as they are queried -/

/-- A row of `sharing_cifs_share`, with the hosts as texts. -/
structure SmbShareRow where
  share : SmbShare
  (hostsallow hostsdeny : String)

namespace SharingSmb

def isTimeMachinePurpose (purpose : SmbSharePreset) : Bool :=
  purpose = .timemachine || purpose = .enhancedTimemachine

/-- `extend`, with the state of the lock that the service adds. -/
def extend (host : SharingHost) (row : SmbShareRow) : SmbShare :=
  { row.share with
    hostsallow := splitWords row.hostsallow
    hostsdeny := splitWords row.hostsdeny
    shadowcopy := row.share.shadowcopy || row.share.fsrvp
    timemachine := row.share.timemachine ||
      isTimeMachinePurpose row.share.purpose
    locked := !isExternal row.share.path &&
      host.pathInLockedDatasets row.share.path }

def compress (dataIn : SmbShare) : Except SharingError SmbShareRow :=
  match applyPresets dataIn with
  | none => .error .indexError
  | some data =>
    .ok
      { share :=
          { data with
            auxsmbconf := dataIn.auxsmbconf
            hostsallow := []
            hostsdeny := []
            locked := false }
        hostsallow := String.intercalate " " data.hostsallow
        hostsdeny := String.intercalate " " data.hostsdeny }

end SharingSmb

structure SmbAuditUpdate where
  enable : Option Bool
  (watchList ignoreList : Option (List String))

def SmbAudit.update (old : SmbAudit) (data : SmbAuditUpdate) : SmbAudit where
  enable := data.enable.getD old.enable
  watchList := data.watchList.getD old.watchList
  ignoreList := data.ignoreList.getD old.ignoreList

/-- The fields that `sharingsmb_update` takes; none of them has to be given. -/
structure SmbShareUpdate where
  purpose : Option SmbSharePreset := none
  path : Option String := none
  pathSuffix : Option String := none
  home : Option Bool := none
  name : Option String := none
  comment : Option String := none
  ro : Option Bool := none
  browsable : Option Bool := none
  timemachine : Option Bool := none
  timemachineQuota : Option ℤ := none
  recyclebin : Option Bool := none
  guestok : Option Bool := none
  abe : Option Bool := none
  hostsallow : Option (List String) := none
  hostsdeny : Option (List String) := none
  aaplNameMangling : Option Bool := none
  acl : Option Bool := none
  durablehandle : Option Bool := none
  shadowcopy : Option Bool := none
  streams : Option Bool := none
  fsrvp : Option Bool := none
  auxsmbconf : Option String := none
  enabled : Option Bool := none
  afp : Option Bool := none
  audit : SmbAuditUpdate := ⟨none, none, none⟩

def SmbShare.update (old : SmbShare) (data : SmbShareUpdate) : SmbShare where
  id := old.id
  purpose := data.purpose.getD old.purpose
  path := data.path.getD old.path
  pathSuffix := data.pathSuffix.getD old.pathSuffix
  home := data.home.getD old.home
  name := data.name.getD old.name
  comment := data.comment.getD old.comment
  ro := data.ro.getD old.ro
  browsable := data.browsable.getD old.browsable
  timemachine := data.timemachine.getD old.timemachine
  timemachineQuota := data.timemachineQuota.getD old.timemachineQuota
  recyclebin := data.recyclebin.getD old.recyclebin
  guestok := data.guestok.getD old.guestok
  abe := data.abe.getD old.abe
  hostsallow := data.hostsallow.getD old.hostsallow
  hostsdeny := data.hostsdeny.getD old.hostsdeny
  aaplNameMangling := data.aaplNameMangling.getD old.aaplNameMangling
  acl := data.acl.getD old.acl
  durablehandle := data.durablehandle.getD old.durablehandle
  shadowcopy := data.shadowcopy.getD old.shadowcopy
  streams := data.streams.getD old.streams
  fsrvp := data.fsrvp.getD old.fsrvp
  auxsmbconf := data.auxsmbconf.getD old.auxsmbconf
  enabled := data.enabled.getD old.enabled
  afp := data.afp.getD old.afp
  audit := old.audit.update data.audit
  locked := old.locked

/-- The defaults of `sharingsmb_create`; a share without an `id` has 0. -/
def smbShareDefaults (path name : String) : SmbShare where
  id := 0
  purpose := .defaultShare
  path := path
  pathSuffix := ""
  home := false
  name := name
  comment := ""
  ro := false
  browsable := true
  timemachine := false
  timemachineQuota := 0
  recyclebin := false
  guestok := false
  abe := false
  hostsallow := []
  hostsdeny := []
  aaplNameMangling := false
  acl := true
  durablehandle := true
  shadowcopy := true
  streams := true
  fsrvp := false
  auxsmbconf := ""
  enabled := true
  afp := false
  audit := smbAuditDefaults
  locked := false

def smbShareCreate (data : SmbShareUpdate) : Except SharingError SmbShare :=
  match data.path, data.name with
  | some path, some name => .ok ((smbShareDefaults path name).update data)
  | none, _ =>
    .error (.validation [("sharingsmb_create.path", "attribute required")])
  | some _, none =>
    .error (.validation [("sharingsmb_create.name", "attribute required")])

structure ServiceAnnouncement where
  (netbios mdns wsd : Bool)
deriving DecidableEq

structure GlobalConfiguration where
  (hostname domain ipv4gateway ipv6gateway nameserver1 nameserver2 : String)
  (nameserver3 httpproxy : String)
  (hosts domains : List String)
  serviceAnnouncement : ServiceAnnouncement
  activity : String × List String
  (hostnameB hostnameVirtual : Option String)
deriving DecidableEq

structure SharingState where
  rows : List SmbShareRow
  smb : SmbServiceConfig
  network : GlobalConfiguration

namespace SharingState

/-- `sharing.smb.query` without filters. -/
def query (s : SharingState) (host : SharingHost) : List SmbShare :=
  s.rows.map (SharingSmb.extend host)

def getInstance (s : SharingState) (host : SharingHost) (id : ℕ) :
    Except SharingError SmbShare :=
  match s.rows.find? fun row => row.share.id = id with
  | none => .error .instanceNotFound
  | some row => .ok (SharingSmb.extend host row)

end SharingState

/-! ## Validation of a share -/

namespace SharingSmb

def reservedShareNames : List String := ["global", "printers", "homes"]

def invalidShareNameCharacters : List Char :=
  ['%', '<', '>', '*', '?', '|', '/', '\\', '+', '=', ';', ':', '"', ',', '[', ']']

/-- The Unicode category `Cc`. -/
def isControl (c : Char) : Bool :=
  c.toNat < 32 || (127 ≤ c.toNat && c.toNat < 160)

def validateShareName (rt : SharingRuntime) (name schemaName : String) :
    List VerrorEntry :=
  errorIf (rt.lower name ∈ reservedShareNames) (schemaName ++ ".name")
    (name ++ " is a reserved section name, please select another one") ++
  errorIf (name.toList = []) (schemaName ++ ".name") "Share name may not be an empty string." ++
  (let invalidCharacters :=
    invalidShareNameCharacters.filter fun c => c ∈ name.toList
  errorIf (invalidCharacters ≠ []) (schemaName ++ ".name")
    ("Share name contains the following invalid characters: " ++
      String.intercalate ", " (invalidCharacters.map String.singleton))) ++
  errorIf (name.toList.any isControl) (schemaName ++ ".name")
    "Share name contains unicode control characters."

/-- `validate_external_path` of one proxy. -/
def proxyErrors (name proxy : String) : List VerrorEntry :=
  let text := proxy ++ ": DFS proxy must be of format SERVER\\SHARE"
  errorIf (proxy.toList.count '\\' ≠ 1) name text ++
  errorIf (startsWith proxy "\\" || endsWith proxy "\\") name text

/-- `strip_location_prefix`: every leading character of the prefix goes. -/
def stripExternal (path : String) : String :=
  String.ofList (path.toList.dropWhile (· ∈ "EXTERNAL:".toList))

def splitComma (text : String) : List String :=
  (text.toList.splitOn ',').map String.ofList

def validatePathField (host : SharingHost) (data : SmbShare) (schema : String) :
    Except SharingError (List VerrorEntry) := do
  let name := schema ++ ".path_local"
  let zvol :=
    errorIf (host.zvolInBootPool data.path) name
      "Disk residing in boot pool cannot be consumed and is not supported"
  if startsWith data.path "CLUSTER:" then
    return zvol ++ [(name, "CLUSTER: path type is not allowed.")]
  else if isExternal data.path then
    return zvol ++ (splitComma (stripExternal data.path)).flatMap (proxyErrors name)
  else
    let texts ← host.validateLocalPath data.path
    return zvol ++ texts.map fun text => (name, text)

def isLocal (path : String) : Bool :=
  !startsWith path "CLUSTER:" && !isExternal path

def aclErrors (host : SharingHost) (data : SmbShare) (schemaName : String) :
    Except SharingError (List VerrorEntry) :=
  if data.path = "" || !isLocal data.path then .ok []
  else
    match host.statAcl data.path with
    | none => .error .callError
    | some acl =>
      .ok (errorIf (!data.acl && acl) (schemaName ++ ".acl") ("ACL detected on " ++ data.path ++
          ". ACLs must be stripped prior to creation of SMB share."))

/-- `home_exists` asks the datastore. -/
def homeExists (rows : List SmbShareRow) (home : Bool) (old : Option SmbShare) :
    Bool :=
  home && rows.any fun row =>
    row.share.home && decide (some row.share.id ≠ old.map SmbShare.id)

def auditGroupErrors (host : SharingHost) (schemaName key : String)
    (groups : List String) : List VerrorEntry :=
  groups.zipIdx.flatMap fun group =>
    errorIf (!host.groupExists group.1) (schemaName ++ ".audit." ++ key ++ "." ++ toString group.2)
      (group.1 ++ ": group does not exist.")

def auditErrors (host : SharingHost) (smbConfig : SmbServiceConfig)
    (data : SmbShare) (schemaName : String) : List VerrorEntry :=
  if data.audit.enable then
    errorIf smbConfig.enableSmb1 (schemaName ++ ".audit.enable")
      "SMB auditing is not supported if SMB1 protocol is enabled" ++
    auditGroupErrors host schemaName "watch_list" data.audit.watchList ++
    auditGroupErrors host schemaName "ignore_list" data.audit.ignoreList
  else []

def aaplText : String :=
  "Apple SMB2/3 protocol extension support is required by this parameter. " ++
  "This feature may be enabled in the general SMB server configuration."

/-- What `validate` adds about the other services. -/
def serviceErrors (host : SharingHost) (s : SharingState) (data : SmbShare)
    (schemaName : String) : List VerrorEntry :=
  errorIf (data.timemachine && data.enabled && !s.network.serviceAnnouncement.mdns)
    (schemaName ++ ".timemachine")
    "mDNS must be enabled in order to use an SMB share as a time machine target." ++
  auditErrors host s.smb data schemaName ++
  errorIf (data.afp && !s.smb.aaplExtensions) (schemaName ++ ".afp") aaplText ++
  errorIf ((data.timemachine || isTimeMachinePurpose data.purpose) && !s.smb.aaplExtensions)
    (schemaName ++ ".timemachine") aaplText

def nameErrors (rt : SharingRuntime) (s : SharingState) (host : SharingHost)
    (data : SmbShare) (schemaName : String) : List VerrorEntry :=
  errorIf ((s.query host).any fun share =>
      rt.casefold share.name = rt.casefold data.name && share.id ≠ data.id)
    (schemaName ++ ".name")
    "Share names are case-insensitive and must be unique"

def auxErrors (host : SharingHost) (data : SmbShare) (schemaName : String) :
    List VerrorEntry :=
  if data.auxsmbconf = "" then []
  else
    addChild (schemaName ++ ".auxsmbconf") (validateAuxParams host.setParm data.auxsmbconf
        (schemaName ++ ".auxsmbconf"))

def suffixErrors (data : SmbShare) (schemaName : String) : List VerrorEntry :=
  errorIf (decide (2 ≤ data.pathSuffix.toList.count '/')) (schemaName ++ ".name")
    "Path suffix may not contain more than two components."

def validate (rt : SharingRuntime) (host : SharingHost) (s : SharingState)
    (data : SmbShare) (schemaName : String) (old : Option SmbShare) :
    Except SharingError (List VerrorEntry) := do
  let home :=
    errorIf (homeExists s.rows data.home old) (schemaName ++ ".home")
      "Only one share is allowed to be a home share."
  let path ← validatePathField host data schemaName
  let acl ← aclErrors host data schemaName
  return home ++ nameErrors rt s host data schemaName ++ path ++
    auxErrors host data schemaName ++ acl ++
    validateShareName rt data.name schemaName ++ suffixErrors data schemaName ++
    serviceErrors host s data schemaName

def overlapping (first second : List String) : Bool :=
  second.isPrefixOf first || first.isPrefixOf second

/-- The complaint of `legacy_afp_check` about one share; where the share is not
locked its path has to be there. -/
def legacyAfpError (rt : SharingRuntime) (host : SharingHost) (data : SmbShare)
    (schema : String) (share : SmbShare) :
    Except SharingError (List VerrorEntry) :=
  if share.afp = data.afp then .ok []
  else if !share.locked && !host.pathExists share.path then
    .error .fileNotFoundError
  else
    .ok (errorIf (overlapping (rt.resolve share.path) (rt.resolve data.path)) (schema ++ ".afp")
      ("Compatibility settings for legacy AFP shares (paths that once hosted " ++
        "AFP shares that have been converted to SMB shares) must be " ++
        "consistent with the legacy AFP compatibility settings of any existing SMB " ++
        "share that exports the same paths. The new share [" ++ data.name ++
        "] conflicts with share [" ++ share.name ++ "] on path [" ++ share.path ++
        "]."))

/-- The share that is new has no `id` that another has. -/
def legacyAfpCheck (rt : SharingRuntime) (host : SharingHost)
    (s : SharingState) (data : SmbShare) (schema : String) :
    Except SharingError (List VerrorEntry) := do
  let legacyAfp := (s.query host).filter fun share =>
    share.afp && share.enabled && decide (share.id ≠ data.id)
  let errors ← legacyAfp.mapM (legacyAfpError rt host data schema)
  return errors.flatten

variable (rt : SharingRuntime) (host : SharingHost) (s : SharingState)

def auxPrivilegeErrors (changed : Bool) : List VerrorEntry :=
  errorIf (!host.fullAdmin && changed) "smb_update.auxsmbconf"
    ("Changes to auxiliary parameters for SMB shares are restricted " ++
      "to users with full administrative privileges.")

def sanityErrors (auxsmbconf schema : String) : List VerrorEntry :=
  errorIf (auxsmbconf ≠ "" && !host.sanityCheck) (schema ++ ".auxsmbconf")
    "Auxiliary parameters rejected because they would break the SMB server"

/-- The `id` that the datastore gives a row is a new one. -/
def newId (id : ℕ) : Except SharingError Unit :=
  if id = 0 || s.rows.any fun row => row.share.id = id then
    .error .integrityError
  else .ok ()

/-- The datastore gives the row its `id`.  A share whose auxiliary parameters
break the server is deleted again. -/
def doCreate (id : ℕ) (data : SmbShareUpdate) :
    Except SharingError SharingState := do
  let data ← smbShareCreate data
  let privilege := auxPrivilegeErrors host (data.auxsmbconf ≠ "")
  let errors ← validate rt host s data "sharingsmb_create" none
  let afp ← legacyAfpCheck rt host s data "sharingsmb_create"
  checkVerrors (privilege ++ errors ++ afp)
  let compressed ← compress data
  newId s id
  checkVerrors (sanityErrors host data.auxsmbconf "sharingsmb_create")
  let row := { compressed with share := { compressed.share with id } }
  return { s with rows := s.rows ++ [row] }

def doUpdate (id : ℕ) (data : SmbShareUpdate) :
    Except SharingError SharingState := do
  let old ← s.getInstance host id
  let new := old.update data
  let errors ← validate rt host s new "sharingsmb_update" (some old)
  let afp ← legacyAfpCheck rt host s new "sharingsmb_update"
  let privilege :=
    auxPrivilegeErrors host (old.auxsmbconf ≠ new.auxsmbconf)
  checkVerrors (errors ++ afp ++ privilege)
  let compressed ← compress new
  checkVerrors (sanityErrors host (smbStripComments new.auxsmbconf) "sharingsmb_update")
  let rows := s.rows.map fun row =>
    if row.share.id = id then compressed else row
  return { s with rows }

def doDelete (id : ℕ) : Except SharingError SharingState := do
  let _ ← s.getInstance host id
  return { s with rows := s.rows.filter fun row => row.share.id ≠ id }

end SharingSmb

/-! ## Calls on the services -/

/-- The arguments of `smb.update`; none of them has to be given. -/
structure SmbServiceUpdate where
  netbiosname : Option String := none
  netbiosalias : Option (List String) := none
  workgroup : Option String := none
  description : Option String := none
  unixcharset : Option String := none
  debug : Option Bool := none
  syslog : Option Bool := none
  aaplExtensions : Option Bool := none
  localmaster : Option Bool := none
  guest : Option String := none
  filemask : Option String := none
  dirmask : Option String := none
  smbOptions : Option String := none
  bindip : Option (List String) := none
  ntlmv1Auth : Option Bool := none
  enableSmb1 : Option Bool := none
  multichannel : Option Bool := none
  encryption : Option SmbEncryption := none

def SmbServiceConfig.update (old : SmbServiceConfig) (data : SmbServiceUpdate) :
    SmbServiceConfig where
  netbiosname := data.netbiosname.getD old.netbiosname
  netbiosalias := data.netbiosalias.getD old.netbiosalias
  workgroup := data.workgroup.getD old.workgroup
  description := data.description.getD old.description
  unixcharset := data.unixcharset.getD old.unixcharset
  debug := data.debug.getD old.debug
  syslog := data.syslog.getD old.syslog
  aaplExtensions := data.aaplExtensions.getD old.aaplExtensions
  localmaster := data.localmaster.getD old.localmaster
  guest := data.guest.getD old.guest
  filemask := data.filemask.getD old.filemask
  dirmask := data.dirmask.getD old.dirmask
  smbOptions := data.smbOptions.getD old.smbOptions
  bindip := data.bindip.getD old.bindip
  ntlmv1Auth := data.ntlmv1Auth.getD old.ntlmv1Auth
  enableSmb1 := data.enableSmb1.getD old.enableSmb1
  multichannel := data.multichannel.getD old.multichannel
  encryption := data.encryption.getD old.encryption

namespace SmbService

variable (rt : SharingRuntime) (host : SharingHost) (s : SharingState)

def netbiosErrors (new : SmbServiceConfig) : List VerrorEntry :=
  errorIf (new.netbiosname ≠ "" && rt.casefold new.netbiosname = rt.casefold new.workgroup)
    "smb_update.netbiosname"
    ("NetBIOS name [" ++ new.netbiosname ++ "] conflicts with workgroup name.") ++
  new.netbiosalias.zipIdx.flatMap fun item =>
    errorIf (rt.casefold item.1 = rt.casefold new.workgroup)
      ("smb_update.netbiosalias." ++ toString item.2)
      ("NetBIOS alias [" ++ item.1 ++ "] conflicts with workgroup name.")

def guestErrors (new : SmbServiceConfig) : List VerrorEntry :=
  errorIf (new.guest = "root") "smb_update.guest" "\"root\" is not a permitted guest account" ++
  errorIf (!host.userExists new.guest) "smb_update.guest" (new.guest ++ ": user does not exist")

def bindipErrors (new : SmbServiceConfig) : List VerrorEntry :=
  new.bindip.zipIdx.flatMap fun item =>
    errorIf (item.1 ∉ host.bindipChoices) ("smb_update.bindip." ++ toString item.2)
      ("IP address [" ++ item.1 ++ "] is not a configured address for this server")

/-- `0o11777`. -/
def maskBits : ℕ := 5119

def isMask (mask : String) : Bool :=
  match rt.intBase8 mask with
  | none => false
  | some n => decide (0 ≤ n) && n.toNat ||| maskBits = maskBits

def maskErrors (field mask : String) : List VerrorEntry :=
  errorIf (mask ≠ "DEFAULT" && !isMask rt mask) field "Not a valid mask"

def shareErrors (new : SmbServiceConfig) : List VerrorEntry :=
  errorIf (!new.aaplExtensions && (s.query host).any fun share => share.afp || share.timemachine)
    "smb_update.aapl_extensions"
    "This option must be enabled when AFP or time machine shares are present" ++
  (let auditedShares := (s.query host).filter fun share => share.audit.enable
  errorIf (new.enableSmb1 && auditedShares ≠ []) "smb_update.enable_smb1"
    ("The following SMB shares have auditing enabled: " ++
      String.intercalate ", " (auditedShares.map SmbShare.name)))

def validateSmb (new : SmbServiceConfig) : List VerrorEntry :=
  addChild "smb_update.smb_options"
    (validateAuxParams host.setParm new.smbOptions "smb_update.smb_options") ++
  errorIf (new.unixcharset ≠ "" && new.unixcharset ∉ host.unixcharsetChoices)
    "smb_update.unixcharset" "Please provide a valid value for unixcharset" ++
  errorIf (new.enableSmb1 && new.encryption = .required) "smb_update.encryption"
    "Encryption may not be set to REQUIRED while SMB1 support is enabled." ++
  netbiosErrors rt new ++ guestErrors host new ++ bindipErrors host new ++
  errorIf (new.workgroup = "") "smb_update.workgroup" "workgroup field is required." ++
  errorIf (new.netbiosname = "") "smb_update.netbiosname" "NetBIOS name is required." ++
  maskErrors rt "smb_update.filemask" new.filemask ++
  maskErrors rt "smb_update.dirmask" new.dirmask ++
  shareErrors host s new

def stored (new : SmbServiceConfig) : SmbServiceConfig :=
  { new with
    netbiosalias := splitWords (String.intercalate " " new.netbiosalias)
    guest := orDefault new.guest "nobody"
    filemask := orDefault new.filemask "DEFAULT"
    dirmask := orDefault new.dirmask "DEFAULT" }

def doUpdate (data : SmbServiceUpdate) : Except SharingError SharingState := do
  let old := s.smb
  let new := old.update data
  let privilege :=
    errorIf (!host.fullAdmin && old.smbOptions ≠ new.smbOptions) "smb_update.smb_options"
      ("Changes to auxiliary parameters for the SMB service are restricted " ++
        "to users with full administrative privileges.")
  checkVerrors (host.adErrors ++ privilege ++ validateSmb rt host s new)
  return { s with smb := stored new }

end SmbService

structure ServiceAnnouncementUpdate where
  netbios : Option Bool := none
  mdns : Option Bool := none
  wsd : Option Bool := none

structure GlobalConfigurationUpdate where
  hostname : Option String := none
  domain : Option String := none
  ipv4gateway : Option String := none
  ipv6gateway : Option String := none
  nameserver1 : Option String := none
  nameserver2 : Option String := none
  nameserver3 : Option String := none
  httpproxy : Option String := none
  hosts : Option (List String) := none
  domains : Option (List String) := none
  serviceAnnouncement : ServiceAnnouncementUpdate := {}
  activity : Option (String × List String) := none
  hostnameB : Option (Option String) := none
  hostnameVirtual : Option (Option String) := none

namespace NetworkConfiguration

def update (old : GlobalConfiguration) (data : GlobalConfigurationUpdate) :
    GlobalConfiguration where
  hostname := data.hostname.getD old.hostname
  domain := data.domain.getD old.domain
  ipv4gateway := data.ipv4gateway.getD old.ipv4gateway
  ipv6gateway := data.ipv6gateway.getD old.ipv6gateway
  nameserver1 := data.nameserver1.getD old.nameserver1
  nameserver2 := data.nameserver2.getD old.nameserver2
  nameserver3 := data.nameserver3.getD old.nameserver3
  httpproxy := data.httpproxy.getD old.httpproxy
  hosts := data.hosts.getD old.hosts
  domains := data.domains.getD old.domains
  serviceAnnouncement :=
    { netbios :=
        data.serviceAnnouncement.netbios.getD old.serviceAnnouncement.netbios
      mdns := data.serviceAnnouncement.mdns.getD old.serviceAnnouncement.mdns
      wsd := data.serviceAnnouncement.wsd.getD old.serviceAnnouncement.wsd }
  activity := data.activity.getD old.activity
  hostnameB := data.hostnameB.getD old.hostnameB
  hostnameVirtual := data.hostnameVirtual.getD old.hostnameVirtual

def stored (new : GlobalConfiguration) : GlobalConfiguration :=
  { new with
    domains := splitWords (String.intercalate " " new.domains)
    hosts := linesOf (strip (String.intercalate "\n" new.hosts)) }
where
  linesOf (hosts : String) : List String := if hosts = "" then []
    else (hosts.toList.splitOn '\n').map String.ofList

variable (host : SharingHost) (s : SharingState)

def doUpdate (data : GlobalConfigurationUpdate) :
    Except SharingError SharingState :=
  let config := s.network
  let newConfig := update config data
  if newConfig = config then .ok s
  else do
    let mdns :=
      errorIf (!newConfig.serviceAnnouncement.mdns &&
          (s.query host).any fun share => share.timemachine && share.enabled)
        "global_configuration_update.service_announcement.mdns"
        "NAS is configured as a time machine target. mDNS is required."
    let virtual :=
      errorIf (host.joinedDomain && config.hostnameVirtual.any fun name =>
            name ≠ "" && newConfig.hostnameVirtual ≠ some name)
        "global_configuration_update.hostname_virtual"
        ("This parameter may not be changed after joining a directory service. " ++
          "If it must be changed, the proper procedure is to cleanly leave the domain " ++
          "and then alter the parameter before re-joining the domain.")
    checkVerrors (host.networkErrors ++ mdns ++ virtual)
    return { s with network := stored newConfig }

end NetworkConfiguration

inductive SharingCall where
  | create (id : ℕ) (data : SmbShareUpdate)
  | update (id : ℕ) (data : SmbShareUpdate)
  | delete (id : ℕ)
  | smbUpdate (data : SmbServiceUpdate)
  | networkUpdate (data : GlobalConfigurationUpdate)

namespace SharingState

def perform (rt : SharingRuntime) (host : SharingHost) (s : SharingState) :
    SharingCall → Except SharingError SharingState
  | .create id data => SharingSmb.doCreate rt host s id data
  | .update id data => SharingSmb.doUpdate rt host s id data
  | .delete id => SharingSmb.doDelete host s id
  | .smbUpdate data => SmbService.doUpdate rt host s data
  | .networkUpdate data => NetworkConfiguration.doUpdate host s data

def step (rt : SharingRuntime) (s : SharingState)
    (call : SharingHost × SharingCall) : Option SharingState :=
  (perform rt call.1 s call.2).toOption

def run (rt : SharingRuntime) (s : SharingState)
    (calls : List (SharingHost × SharingCall)) : Option SharingState :=
  TransitionSystem.run (step rt) s calls

end SharingState

def plainRuntime : SharingRuntime where
  lower := fun text => String.ofList (text.toList.map Char.toLower)
  casefold := fun text => String.ofList
    (text.toList.map fun c => if c = 'ſ' then 's' else c.toLower)
  intBase8 := fun _ => none
  resolve := fun path => (path.toList.splitOn '/').map String.ofList

def plainHost : SharingHost where
  fullAdmin := true
  setParm := fun _ _ => true
  zvolInBootPool := fun _ => false
  validateLocalPath := fun _ => .ok []
  statAcl := fun _ => some true
  groupExists := fun _ => true
  userExists := fun _ => true
  pathInLockedDatasets := fun _ => false
  pathExists := fun _ => true
  sanityCheck := true
  unixcharsetChoices := ["UTF-8"]
  bindipChoices := []
  adErrors := []
  joinedDomain := false
  networkErrors := []

def noShares : SharingState where
  rows := []
  smb :=
    { netbiosname := "truenas"
      netbiosalias := []
      workgroup := "WORKGROUP"
      description := "TrueNAS Server"
      unixcharset := "UTF-8"
      debug := false
      syslog := false
      aaplExtensions := true
      localmaster := true
      guest := "nobody"
      filemask := "DEFAULT"
      dirmask := "DEFAULT"
      smbOptions := ""
      bindip := []
      ntlmv1Auth := false
      enableSmb1 := false
      multichannel := false
      encryption := .default }
  network :=
    { hostname := "truenas"
      domain := "local"
      ipv4gateway := ""
      ipv6gateway := ""
      nameserver1 := ""
      nameserver2 := ""
      nameserver3 := ""
      httpproxy := ""
      hosts := []
      domains := []
      serviceAnnouncement := ⟨false, true, true⟩
      activity := ("DENY", [])
      hostnameB := none
      hostnameVirtual := none }

end Middlewared
