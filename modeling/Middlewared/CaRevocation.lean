import Middlewared.CertificateTables
import Middlewared.TransitionSystem
import Middlewared.ValidationErrors

/-!
# Revoking certificates

Revoking an authority goes over everything that it signed, in both tables, and writes the date of
every entry anew.
-/

namespace Middlewared.CaRevocation

open CertificateDatabase TransitionSystem

inductive ChainEntry where
  | certificate (id : ℕ)
  | ca (id : ℕ)
deriving DecidableEq

def childIds (db : CertificateDatabase) (caId : ℕ) : List ℕ :=
  (db.signedCas caId).map CaRow.id

def certEntries (db : CertificateDatabase) (caId : ℕ) : List ChainEntry :=
  (db.signedCerts caId).map fun cert => .certificate cert.id

/-- `get_ca_chain`.  No recursion goes deeper than there are authorities. -/
def getCaChain (db : CertificateDatabase) (caId : ℕ) :
    Option (List ChainEntry) :=
  TreeWalk.gather (childIds db) (certEntries db) (fun id => [.ca id]) (db.cas.length + 1) caId

def setRevokedDate (db : CertificateDatabase) (entry : ChainEntry)
    (date : ℕ) : CertificateDatabase :=
  match entry with
  | .certificate id =>
    { db with
      certs := db.certs.map fun cert =>
        if cert.id = id then { cert with revokedDate := some date }
        else cert }
  | .ca id =>
    { db with
      cas := db.cas.map fun ca =>
        if ca.id = id then { ca with revokedDate := some date } else ca }

/-- The `i`-th `utc_now()` of a call, which come at some delays. -/
def reading (clock : ℕ) (delays : List ℕ) (i : ℕ) : ℕ :=
  clock + (delays.take (i + 1)).sum

def stamped (chain : List ChainEntry) (clock : ℕ) (delays : List ℕ) :
    List (ChainEntry × ℕ) :=
  chain.zipIdx.map fun entry => (entry.1, reading clock delays entry.2)

def writeDates (db : CertificateDatabase) (writes : List (ChainEntry × ℕ)) :
    CertificateDatabase :=
  writes.foldl (fun db write => setRevokedDate db write.1 write.2) db

def revokeCaChain (db : CertificateDatabase) (caId clock : ℕ)
    (delays : List ℕ) : Option CertificateDatabase :=
  (getCaChain db caId).map fun chain =>
    writeDates db (stamped chain clock delays)

/-- `[a-z0-9_\-]` with `re.I`, which lets four more letters through. -/
def certNameChar (c : Char) : Bool :=
  c.isAlphanum || c = '_' || c = '-' || c = '\u0130' || c = '\u0131' || c = '\u017f' || c = '\u212a'

def certNameMatches (name : String) : Bool :=
  let chars :=
    if name.toList.getLast? = some '\n' then name.toList.dropLast
    else name.toList
  !chars.isEmpty && chars.all certNameChar

def validateCertName (names : List String) (name field : String) :
    List VerrorEntry :=
  errorIf (name ∈ names) field "A certificate with this name already exists" ++
    errorIf (name ∈ ["external", "self-signed", "external - signature pending"])
      field (name ++ " is a reserved internal keyword for Certificate Management") ++
    errorIf (!certNameMatches name) field "Use alphanumeric characters, \"_\" and \"-\"."

def validSigningCa (db : CertificateDatabase) (id : ℕ) : Bool :=
  db.cas.any fun ca => ca.certificate.isSome && ca.privatekey && ca.id = id

def signedbyErrors (db : CertificateDatabase) (signedby : Option ℕ)
    (schema : String) : List VerrorEntry :=
  match signedby with
  | none => []
  | some id =>
    errorIf (!validSigningCa db id) (schema ++ ".signedby")
      "Please provide a valid signing authority"

/-! ## Creating rows -/

inductive CaCreateType where
  | internal
  | imported
  | intermediate
deriving DecidableEq

/-- `serial` stands for the certificate that is imported or generated. -/
structure CaCreate where
  createType : CaCreateType
  name : String
  serial : ℕ
  privatekey : Bool
  signedby : Option ℕ
  addToTrustedStore : Bool

def CaCreate.errors (db : CertificateDatabase) (data : CaCreate) :
    List VerrorEntry :=
  signedbyErrors db data.signedby "certificate_authority_create" ++
    validateCertName (db.cas.map CaRow.name) data.name "certificate_authority_create.name"

def createCa (db : CertificateDatabase) (id : ℕ) (data : CaCreate) :
    Option CertificateDatabase :=
  if data.errors db = [] ∧ id ∉ db.caIds ∧
      (data.createType = .intermediate → data.signedby.isSome) then
    some { db with
      cas := db.cas ++ [{
        id
        name := data.name
        certificate := some { serial := some data.serial }
        privatekey := data.createType ≠ .imported || data.privatekey
        signedby := data.signedby
        revokedDate := none
        addToTrustedStore := data.addToTrustedStore }] }
  else none

inductive CertCreateType where
  | internal
  | imported
  | importedCsr
  | csr
  | acme
deriving DecidableEq

structure CertCreate where
  createType : CertCreateType
  name : String
  serial : ℕ
  signedby : Option ℕ
  addToTrustedStore : Bool

def CertCreate.isCsr (data : CertCreate) : Bool :=
  data.createType = .importedCsr || data.createType = .csr

def CertCreate.errors (db : CertificateDatabase) (data : CertCreate) :
    List VerrorEntry :=
  signedbyErrors db data.signedby "certificate_create" ++
    errorIf (data.addToTrustedStore && data.isCsr) "certificate_create.add_to_trusted_store"
      "Cannot add CSR to trusted store" ++
    validateCertName (db.certs.map CertRow.name) data.name "certificate_create.name"

def CertCreate.type (data : CertCreate) : CertType :=
  match data.createType with
  | .internal => .internal
  | .imported | .acme => .existing
  | .importedCsr | .csr => .csr

def createCertificate (db : CertificateDatabase) (id : ℕ) (data : CertCreate) :
    Option CertificateDatabase :=
  if data.errors db = [] ∧ id ∉ db.certs.map CertRow.id ∧
      (data.createType = .internal ↔ data.signedby.isSome) then
    some { db with
      certs := db.certs ++ [{
        id
        name := data.name
        type := data.type
        certificate :=
          if data.isCsr then none else some { serial := some data.serial }
        privatekey := true
        signedby := data.signedby
        revokedDate := none
        addToTrustedStore := data.addToTrustedStore }] }
  else none

structure SignCsr where
  (caId csrCertId : ℕ)
  name : String
  serial : ℕ

section

-- whether a row has a request that can be read; those from ACME keep theirs
variable (csrFiled : CertRow → Bool)

def SignCsr.caErrors (db : CertificateDatabase) (data : SignCsr) :
    List VerrorEntry :=
  match db.cas.find? fun ca => ca.id = data.caId with
  | none =>
    [("certificate_authority_update.ca_id",
      "No Certificate Authority found for id " ++ toString data.caId)]
  | some ca =>
    errorIf (!ca.privatekey) "certificate_authority_update.ca_id"
      "Please use a CA which has a private key assigned"

def SignCsr.csrErrors (db : CertificateDatabase) (data : SignCsr) :
    List VerrorEntry :=
  match db.certs.find? fun cert => cert.id = data.csrCertId with
  | none =>
    [("certificate_authority_update.csr_cert_id",
      "No Certificate found for id " ++ toString data.csrCertId)]
  | some cert =>
    if !csrFiled cert then
      [("certificate_authority_update.csr_cert_id", "No CSR has been filed by this certificate")]
    else
      errorIf (!cert.privatekey) "certificate_authority_update.csr_cert_id"
        "Private key not found for specified CSR."

def SignCsr.errors (db : CertificateDatabase) (data : SignCsr) :
    List VerrorEntry :=
  data.caErrors db ++ data.csrErrors csrFiled db ++ errorIf (data.name ∈ db.certs.map CertRow.name)
      "certificate_authority_update.name"
      "A certificate with this name already exists"

def caSignCsr (db : CertificateDatabase) (id : ℕ) (data : SignCsr) :
    Option CertificateDatabase :=
  if data.errors csrFiled db = [] ∧ id ∉ db.certs.map CertRow.id then
    some { db with
      certs := db.certs ++ [{
        id
        name := data.name
        type := .internal
        certificate := some { serial := some data.serial }
        privatekey := true
        signedby := some data.caId
        revokedDate := none
        addToTrustedStore := false }] }
  else none

end

/-! ## Changing rows -/

/-- The fields of an update, `none` where one is not given. -/
structure Update where
  name : Option String := none
  revoked : Option Bool := none
  addToTrustedStore : Option Bool := none

/-- What `do_update` of both services has in common. -/
structure Change where
  (oldName name : String)
  (oldRevoked revoked oldTrusted trusted : Bool)

def Update.change (data : Update) (name : String) (revokedDate : Option ℕ)
    (trusted : Bool) : Change where
  oldName := name
  name := data.name.getD name
  oldRevoked := revokedDate.isSome
  revoked := data.revoked.getD revokedDate.isSome
  oldTrusted := trusted
  trusted := data.addToTrustedStore.getD trusted

def Change.any (change : Change) : Bool :=
  change.name ≠ change.oldName || change.revoked ≠ change.oldRevoked ||
    change.trusted ≠ change.oldTrusted

def Change.revokes (change : Change) : Bool :=
  change.revoked && !change.oldRevoked

def Change.nameErrors (change : Change) (names : List String)
    (field : String) : List VerrorEntry :=
  if change.name ≠ change.oldName then validateCertName names change.name field
  else []

def Change.withTrustError (change : Change) (field : String)
    (errors : List VerrorEntry) : List VerrorEntry :=
  if errors = [] then
    errorIf (change.revoked && change.trusted) field
      "Revoked certificates cannot be added to system's trusted store"
  else errors

def caUpdateErrors (db : CertificateDatabase) (old : CaRow) (change : Change) :
    List VerrorEntry :=
  change.withTrustError "certificate_authority_update.add_to_trusted_store"
    (change.nameErrors (db.cas.map CaRow.name) "certificate_authority_update.name" ++
      if change.revokes ∧ !old.privatekey then
        [("certificate_authority_update.revoked",
          "Only Certificate Authorities with a privatekey can be marked as revoked.")]
      else
        errorIf (change.oldRevoked && !change.revoked) "certificate_authority_update.revoked"
          "Certificate Authority has already been revoked and this cannot be reversed")

def setCa (db : CertificateDatabase) (id : ℕ) (change : Change) :
    CertificateDatabase :=
  { db with
    cas := db.cas.map fun ca =>
      if ca.id = id then
        { ca with name := change.name, addToTrustedStore := change.trusted }
      else ca }

def updateCa (db : CertificateDatabase) (clock id : ℕ) (data : Update)
    (delays : List ℕ) : Option CertificateDatabase := do
  let old ← db.cas.find? fun ca => ca.id = id
  let change := data.change old.name old.revokedDate old.addToTrustedStore
  if !change.any then some db
  else if caUpdateErrors db old change ≠ [] then none
  else if change.revokes then
    revokeCaChain (setCa db id change) id clock delays
  else some (setCa db id change)

/-- `can_be_revoked` is whether it has a signer and is not revoked. -/
def certUpdateErrors (db : CertificateDatabase) (old : CertRow)
    (change : Change) : List VerrorEntry :=
  change.withTrustError "certificate_update.add_to_trusted_store"
    (change.nameErrors (db.certs.map CertRow.name) "certificate_update.name" ++
      errorIf (change.revoked && old.type = .csr) "certificate_update.revoked"
        "A CSR cannot be marked as revoked." ++
      errorIf (change.trusted && old.type = .csr) "certificate_update.add_to_trusted_store"
        "A CSR cannot be added to the system's trusted store" ++
      if change.revokes ∧ !(old.signedby.isSome && !change.oldRevoked) then
        [("certificate_update.revoked",
          "Only certificate(s) can be revoked which have a CA present on the system")]
      else
        errorIf (change.oldRevoked && !change.revoked) "certificate_update.revoked"
          "Certificate has already been revoked and this cannot be reversed")

def setCert (db : CertificateDatabase) (id : ℕ) (change : Change)
    (date : ℕ) : CertificateDatabase :=
  { db with
    certs := db.certs.map fun cert =>
      if cert.id = id then
        { cert with
          name := change.name
          addToTrustedStore := change.trusted
          revokedDate :=
            if change.revokes then some date else cert.revokedDate }
      else cert }

def updateCertificate (db : CertificateDatabase) (clock id : ℕ) (data : Update)
    (delays : List ℕ) : Option CertificateDatabase := do
  let old ← db.certs.find? fun cert => cert.id = id
  let change := data.change old.name old.revokedDate old.addToTrustedStore
  if !change.any then some db
  else if certUpdateErrors db old change ≠ [] then none
  else some (setCert db id change (reading clock delays 0))

structure State where
  db : CertificateDatabase
  clock : ℕ
deriving DecidableEq

def start : State where
  db := { cas := [], certs := [] }
  clock := 0

/-- The accepted calls; a row that is created gets the given `id`, and the
clock is read after the given delays. -/
inductive Action where
  | createCa (id : ℕ) (data : CaCreate)
  | updateCa (id : ℕ) (data : Update) (delays : List ℕ)
  | caSignCsr (id : ℕ) (data : SignCsr)
  | createCertificate (id : ℕ) (data : CertCreate)
  | updateCertificate (id : ℕ) (data : Update) (delays : List ℕ)

def step (csrFiled : CertRow → Bool) (s : State) : Action → Option State
  | .createCa id data =>
    (createCa s.db id data).map fun db => { s with db }
  | .updateCa id data delays =>
    (updateCa s.db s.clock id data delays).map fun db =>
      { db, clock := s.clock + delays.sum }
  | .caSignCsr id data =>
    (caSignCsr csrFiled s.db id data).map fun db => { s with db }
  | .createCertificate id data =>
    (createCertificate s.db id data).map fun db => { s with db }
  | .updateCertificate id data delays =>
    (updateCertificate s.db s.clock id data delays).map fun db =>
      { db, clock := s.clock + delays.sum }

end Middlewared.CaRevocation
