import Middlewared.DictSpelling
import Middlewared.ExceptRules
import Middlewared.Idmap
import Middlewared.TransitionSystem
import Middlewared.ValidationErrors

/-!
# Creating and updating idmap domains

The domains are checked one after another against the one that is to be stored.
What the directory services say is an argument of a call.
-/

namespace Middlewared

inductive IdmapError where
  | validation (errors : List VerrorEntry)
  | indexError
  | matchNotFound
  | integrityError
  | callError

inductive DsStatus where
  | disabled
  | faulted
  | leaving
  | joining
  | healthy
deriving DecidableEq

inductive DsType where
  | activeDirectory
  | ipa
  | ldap
deriving DecidableEq

structure IdmapHost where
  dsStatus : Option DsType × DsStatus
  adState : Bool
  certificateFound : ℕ → Bool
  domainSid : String → Except IdmapError String
  murmurhash3 : String → ℕ
  setLdapIdmapSecret : IdmapDomain → Except IdmapError Unit

def SmbConfValue.truthy : SmbConfValue → Bool
  | .bool value => value
  | .int value => value ≠ 0
  | .str value => value ≠ ""
  | .list value => value ≠ []

namespace IdmapBackend

/-- `idmap_backend.name`. -/
def name : IdmapBackend → String
  | .ad => "AD"
  | .autorid => "AUTORID"
  | .ldap => "LDAP"
  | .nss => "NSS"
  | .rfc2307 => "RFC2307"
  | .rid => "RID"
  | .tdb => "TDB"

structure Parameter where
  key : String
  required : Bool
  default : Option SmbConfValue

def parameters : IdmapBackend → List Parameter
  | .ad =>
    [⟨"schema_mode", false, some (.str "RFC2307")⟩,
      ⟨"unix_primary_group", false, some (.bool false)⟩,
      ⟨"unix_nss_info", false, some (.bool false)⟩]
  | .autorid =>
    [⟨"rangesize", false, some (.int 100000)⟩, ⟨"readonly", false, some (.bool false)⟩,
      ⟨"ignore_builtin", false, some (.bool false)⟩]
  | .ldap =>
    [⟨"ldap_base_dn", true, none⟩, ⟨"ldap_user_dn", true, none⟩,
      ⟨"ldap_url", true, none⟩, ⟨"ldap_user_dn_password", false, none⟩,
      ⟨"ssl", false, some (.str "OFF")⟩,
      ⟨"validate_certificates", false, some (.bool true)⟩,
      ⟨"readonly", false, some (.bool false)⟩]
  | .nss => [⟨"linked_service", false, some (.str "LOCAL_ACCOUNT")⟩]
  | .rfc2307 =>
    [⟨"ldap_server", false, some (.str "AD")⟩, ⟨"bind_path_user", false, none⟩,
      ⟨"bind_path_group", false, none⟩, ⟨"user_cn", false, none⟩,
      ⟨"cn_realm", false, none⟩, ⟨"ldap_domain", false, none⟩,
      ⟨"ldap_url", false, none⟩, ⟨"ldap_user_dn", true, none⟩,
      ⟨"ldap_user_dn_password", false, none⟩, ⟨"ldap_realm", false, none⟩,
      ⟨"validate_certificates", false, some (.bool true)⟩,
      ⟨"ssl", false, some (.str "OFF")⟩]
  | .rid => [⟨"sssd_compat", false, some (.bool false)⟩]
  | .tdb => [⟨"readonly", false, some (.bool false)⟩]

def supportedKeys (backend : IdmapBackend) : List String :=
  backend.parameters.map Parameter.key

def requiredKeys (backend : IdmapBackend) : List String :=
  (backend.parameters.filter Parameter.required).map Parameter.key

def defaults (backend : IdmapBackend) : Dict String SmbConfValue :=
  Dict.ofEntries (backend.parameters.filterMap fun parameter =>
    parameter.default.map fun value => (parameter.key, value))

/-- `ds_choices()['LDAP']`. -/
def ldapChoices : List IdmapBackend := [.ldap, .nss, .rfc2307]

end IdmapBackend

namespace IdmapService

/-- The names in `DSType`. -/
def dsTypeNames : List String :=
  ["DS_TYPE_ACTIVEDIRECTORY", "DS_TYPE_LDAP", "DS_TYPE_NIS", "DS_TYPE_FREEIPA",
    "DS_TYPE_DEFAULT_DOMAIN"]

def getTruthy (options : Dict String SmbConfValue) (key : String) : Bool :=
  (options.get? key).any SmbConfValue.truthy

/-- The first and the last element of `range(low, high)`, which is empty without
them. -/
def rangeEnds (low high : ℤ) : Except IdmapError (ℤ × ℤ) :=
  if low < high then .ok (low, high - 1) else .error .indexError

variable (host : IdmapHost)

def ldapEnabled : Bool :=
  (host.dsStatus.2 = .healthy || host.dsStatus.2 = .joining) &&
    host.dsStatus.1 ≠ some .activeDirectory

def adEnabled : Bool :=
  (host.dsStatus.2 = .healthy || host.dsStatus.2 = .joining) &&
    host.dsStatus.1 = some .activeDirectory

def mayOverlap (data i : IdmapDomain) : Bool :=
  (!ldapEnabled host && i.name = "DS_TYPE_LDAP") ||
  (!adEnabled host && i.name = "DS_TYPE_ACTIVEDIRECTORY") ||
  (data.idmapBackend = .autorid && i.name = "DS_TYPE_DEFAULT_DOMAIN") ||
  (data.idmapBackend = .ad && i.idmapBackend = .ad)

/-- What the comparison with one configured domain adds.  A new domain has no
`id`. -/
def compareDomain (schemaName : String) (id : Option ℕ) (data i : IdmapDomain) :
    Except IdmapError (List VerrorEntry) :=
  if some i.id = id then .ok []
  else
    let unique :=
      errorIf (i.name = data.name) (schemaName ++ ".name") "Name must be unique." ++
      errorIf (data.dnsDomainName.any (· ≠ "") && data.dnsDomainName = i.dnsDomainName)
        (schemaName ++ ".dns_domain_name") "Name must be unique."
    if mayOverlap host data i then .ok unique
    else do
      let existingRange ← rangeEnds i.rangeLow i.rangeHigh
      let newRange ← rangeEnds data.rangeLow data.rangeHigh
      return unique ++ errorIf (decide (max existingRange.1 newRange.1 <
            min existingRange.2 newRange.2 + 1))
          (schemaName ++ ".range_low")
          ("new idmap range [" ++ toString data.rangeLow ++ "-" ++ toString data.rangeHigh ++
            "] conflicts with existing range for domain [" ++ i.name ++
            "], range: [" ++ toString i.rangeLow ++ "-" ++
            toString i.rangeHigh ++ "].")

def backendErrors (schemaName : String) (data : IdmapDomain) :
    List VerrorEntry :=
  if data.name = "DS_TYPE_LDAP" then
    errorIf (data.idmapBackend ∉ IdmapBackend.ldapChoices) (schemaName ++ ".idmap_backend")
      ("idmap backend [" ++ data.idmapBackend.name ++
        "] is not appropriate for the system domain type " ++ data.name)
  else
    errorIf (data.name = "DS_TYPE_DEFAULT_DOMAIN" && data.idmapBackend ≠ .tdb)
      (schemaName ++ ".idmap_backend")
      "TDB is the only supported idmap backend for DS_TYPE_DEFAULT_DOMAIN."

def validate (configuredDomains : List IdmapDomain) (schemaName : String)
    (id : Option ℕ) (data : IdmapDomain) :
    Except IdmapError (List VerrorEntry) :=
  if data.rangeHigh < data.rangeLow then
    .ok (backendErrors schemaName data ++ [(schemaName ++ ".range_low",
        "Idmap high range must be greater than idmap low range")])
  else do
    let certificate :=
      errorIf (data.certificate.any fun found => !host.certificateFound found)
        (schemaName ++ ".certificate") "Please specify a valid certificate."
    let compared ←
      configuredDomains.mapM (compareDomain host schemaName id data)
    return backendErrors schemaName data ++ certificate ++ compared.flatten

def missingErrors (schemaName : String) (data : IdmapDomain) :
    List VerrorEntry :=
  (data.idmapBackend.requiredKeys.filter (· ∉ data.options.keys)).map fun k =>
    (schemaName ++ ".options." ++ k, "[" ++ k ++
      "] is a required parameter for the [" ++ data.idmapBackend.name ++
      "] idmap backend.")

def extraErrors (schemaName : String) (backend : IdmapBackend)
    (options : Dict String SmbConfValue) : List VerrorEntry :=
  (options.keys.filter (· ∉ backend.supportedKeys)).map fun k =>
    (schemaName ++ ".options." ++ k, "[" ++ k ++
      "] is not a valid parameter for the [" ++ backend.name ++
      "] idmap backend.")

def checkIdmapErrors (errors : List VerrorEntry) : Except IdmapError Unit :=
  if errors = [] then .ok () else .error (.validation errors)

def getSssdLowRange (domain : String) : Except IdmapError ℤ := do
  let sid ← host.domainSid domain
  let rangeSize := 200000
  let rangeLow := 10001
  let rangeMax := 2000200000
  let maxSlices := (rangeMax - rangeLow) / rangeSize
  return ((host.murmurhash3 sid % maxSlices * rangeSize + rangeSize : ℕ) : ℤ)

def sssdError (schemaName : String) : VerrorEntry :=
  (schemaName ++ ".options",
    "AD service must be enabled and started to generate an SSSD-compatible id range")

def withSssdRange (data : IdmapDomain) : Except IdmapError IdmapDomain := do
  let rangeLow ← getSssdLowRange host data.name
  return { data with rangeLow, rangeHigh := rangeLow + 100000000 }

def storeSecret (data : IdmapDomain) : Except IdmapError IdmapDomain :=
  if getTruthy data.options "ldap_user_dn_password" then do
    host.setLdapIdmapSecret data
    return { data with options := data.options.erase "ldap_user_dn_password" }
  else .ok data

def checkUnique (rows : List IdmapDomain) (data : IdmapDomain) :
    Except IdmapError Unit :=
  if rows.any fun row => row.name = data.name ||
      (data.dnsDomainName.isSome && row.dnsDomainName = data.dnsDomainName) then
    .error .integrityError
  else .ok ()

def createNameErrors (rows : List IdmapDomain) (data : IdmapDomain) :
    List VerrorEntry :=
  errorIf (data.name ∈ rows.map IdmapDomain.name) "idmap_domain_create.name"
    "Domain names must be unique."

def createdDomain (rows : List IdmapDomain) (data : IdmapDomain) :
    Except IdmapError IdmapDomain :=
  if getTruthy data.options "sssd_compat" then do
    if host.dsStatus.2 ≠ .healthy then
      .error (.validation (createNameErrors rows data ++ [sssdError "idmap_domain_create"]))
    else withSssdRange host data
  else .ok data

/-- The `id` that the datastore gives is that of no other row. -/
def doCreate (rows : List IdmapDomain) (data : IdmapDomain) :
    Except IdmapError (List IdmapDomain) := do
  let names := createNameErrors rows data
  let data ← createdDomain host rows data
  let errors ← validate host rows "idmap_domain_create" none data
  checkIdmapErrors (names ++ errors ++ missingErrors "idmap_domain_create" data ++
    extraErrors "idmap_domain_create" data.idmapBackend data.options)
  let stored ← storeSecret host data
  checkUnique rows stored
  if rows.any fun row => row.id = data.id then .error .integrityError
  else
    return rows ++ [{ stored with
      options := stored.idmapBackend.defaults.update stored.options.entries }]

end IdmapService

/-- The fields that `idmap_domain_update` takes; none of them has to be
given. -/
structure IdmapDomainUpdate where
  name : Option String := none
  dnsDomainName : Option (Option String) := none
  rangeLow : Option ℤ := none
  rangeHigh : Option ℤ := none
  idmapBackend : Option IdmapBackend := none
  options : Option (Dict String SmbConfValue) := none
  certificate : Option (Option ℕ) := none

def IdmapDomain.update (old : IdmapDomain) (data : IdmapDomainUpdate) :
    IdmapDomain where
  id := old.id
  name := data.name.getD old.name
  dnsDomainName := data.dnsDomainName.getD old.dnsDomainName
  rangeLow := data.rangeLow.getD old.rangeLow
  rangeHigh := data.rangeHigh.getD old.rangeHigh
  idmapBackend := data.idmapBackend.getD old.idmapBackend
  options :=
    let options := data.options.getD Dict.empty
    if data.idmapBackend.any (· ≠ old.idmapBackend) then options
    else old.options.update options.entries
  certificate := data.certificate.getD old.certificate

namespace IdmapService

variable (host : IdmapHost)

def updateNameErrors (old new : IdmapDomain) : List VerrorEntry :=
  errorIf (decide (old.name ∈ dsTypeNames) && old.name ≠ new.name) "idmap_domain_update.name"
    ("Changing name of default domain " ++ old.name ++ " is not permitted")

def updatedDomain (old new : IdmapDomain) : Except IdmapError IdmapDomain :=
  if getTruthy new.options "sssd_compat" && !getTruthy old.options "sssd_compat" then
    if !host.adState then
      .error (.validation (updateNameErrors old new ++ [sssdError "idmap_domain_update"]))
    else withSssdRange host new
  else .ok new

def autoridErrors (new : IdmapDomain) : List VerrorEntry :=
  errorIf (new.idmapBackend = .autorid && new.name ≠ "DS_TYPE_ACTIVEDIRECTORY")
    "idmap_domain_update.idmap_backend"
    ("AUTORID is only permitted for the default idmap backend for " ++
      "the active directory directory service (DS_TYPE_ACTIVEDIRECTORY).")

def pruneKeys (backend : IdmapBackend) (options : Dict String SmbConfValue) :
    Dict String SmbConfValue :=
  (options.keys.filter (· ∉ backend.supportedKeys)).foldl Dict.erase options

def doUpdate (rows : List IdmapDomain) (id : ℕ) (data : IdmapDomainUpdate) :
    Except IdmapError (List IdmapDomain) := do
  match rows.find? fun row => row.id = id with
  | none => .error .matchNotFound
  | some old =>
    let new ← updatedDomain host old (old.update data)
    let errors ← validate host rows "idmap_domain_update" (some id) new
    let extra :=
      match data.options with
      | none => []
      | some options =>
        extraErrors "idmap_domain_update" new.idmapBackend options
    checkIdmapErrors (updateNameErrors old (old.update data) ++ autoridErrors new ++
      errors ++ missingErrors "idmap_domain_update" new ++ extra)
    let pruned := pruneKeys new.idmapBackend new.options
    let final :=
      { new with options := new.idmapBackend.defaults.update pruned.entries }
    let stored ← storeSecret host final
    checkUnique (rows.filter fun row => row.id ≠ id) stored
    return rows.map fun row => if row.id = id then stored else row

inductive IdmapCall where
  | create (data : IdmapDomain)
  | update (id : ℕ) (data : IdmapDomainUpdate)

def perform (rows : List IdmapDomain) :
    IdmapCall → Except IdmapError (List IdmapDomain)
  | .create data => doCreate host rows data
  | .update id data => doUpdate host rows id data

def step (rows : List IdmapDomain) (call : IdmapHost × IdmapCall) :
    Option (List IdmapDomain) :=
  (perform call.1 rows call.2).toOption

def run (rows : List IdmapDomain) (calls : List (IdmapHost × IdmapCall)) :
    Option (List IdmapDomain) :=
  TransitionSystem.run step rows calls

end IdmapService

end Middlewared
