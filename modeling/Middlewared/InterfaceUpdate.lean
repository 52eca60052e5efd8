import Middlewared.NetworkDatastores
import Middlewared.ValidationErrors

/-!
# Updating a network interface

The first address of an interface is kept in its own row and each further one in an alias row.
-/

namespace Middlewared

structure InterfaceAlias where
  type : String := "INET"
  address : String
  netmask : ℤ
deriving DecidableEq

/-- An entry of `failover_aliases` or `failover_virtual_aliases`. -/
structure FailoverAlias where
  type : String := "INET"
  address : Option String

structure AddressEntry where
  (address addressB : String)
  netmask : Option ℤ
  version : Option ℕ
  vip : String
deriving DecidableEq

def AddressEntry.empty : AddressEntry :=
  { address := "", addressB := "", netmask := none, version := none, vip := "" }

/-- What `get_instance` and `interface.update` know of an interface; the fields
that only go to the columns of its row are kept as one value. -/
structure InterfaceData (Settings : Type) where
  name : String
  aliases : List InterfaceAlias
  (failoverAliases failoverVirtualAliases : Option (List FailoverAlias))
  settings : Settings

structure InterfaceUpdate (Settings : Type) where
  name : Option String := none
  aliases : Option (List InterfaceAlias) := none
  failoverAliases : Option (List FailoverAlias) := none
  failoverVirtualAliases : Option (List FailoverAlias) := none
  settings : Settings → Settings := id

inductive InterfaceUpdateError where
  | validation (errors : List VerrorEntry)
  | keyError (name : String)
  | valueError
  | indexError
  | integrityError
deriving DecidableEq

namespace InterfaceData

variable {Settings : Type}

/-- `new.update(data)`, and the failover fields go where failover is not
licensed. -/
def updated (iface : InterfaceData Settings) (data : InterfaceUpdate Settings)
    (licensed : Bool) : InterfaceData Settings where
  name := data.name.getD iface.name
  aliases := data.aliases.getD iface.aliases
  failoverAliases :=
    if licensed then data.failoverAliases.or iface.failoverAliases else none
  failoverVirtualAliases :=
    if licensed then
      data.failoverVirtualAliases.or iface.failoverVirtualAliases
    else none
  settings := data.settings iface.settings

/-- `zip_longest`, without the value that fills it up. -/
def zipLongest {α β γ : Type*} (first : List α) (second : List β)
    (third : List γ) : List (Option α × Option β × Option γ) :=
  (List.range (max (max first.length second.length) third.length)).map fun i =>
    (first[i]?, second[i]?, third[i]?)

/-- `version` is that of `ipaddress.ip_interface`, if the text is an address. -/
def addressEntry (version : String → Option ℕ) :
    Option InterfaceAlias × Option FailoverAlias × Option FailoverAlias →
      Except InterfaceUpdateError AddressEntry
  | (none, _, _) => .error (.keyError "netmask")
  | (some active, failover, virtual) =>
    match version active.address with
    | none => .error .valueError
    | some version => .ok
        { address := active.address
          addressB := (failover.bind FailoverAlias.address).getD ""
          netmask := some active.netmask
          version := some version
          vip := (virtual.bind FailoverAlias.address).getD "" }

def convertAliasesToDatastore (version : String → Option ℕ)
    (data : InterfaceData Settings) :
    Except InterfaceUpdateError (AddressEntry × List AddressEntry) := do
  let entries ← (zipLongest data.aliases (data.failoverAliases.getD [])
    (data.failoverVirtualAliases.getD [])).mapM (addressEntry version)
  match entries with
  | [] => return (AddressEntry.empty, [])
  | first :: rest => return (first, rest)

end InterfaceData

structure AddressColumns (Settings Columns : Type) where
  ofAlias : AddressEntry → Columns
  aliasEntry : Columns → AddressEntry
  aliasEntry_ofAlias : ∀ entry, aliasEntry (ofAlias entry) = entry
  newInterface : Settings → AddressEntry → Columns
  setInterface : Settings → AddressEntry → Columns → Columns
  interfaceEntry : Columns → AddressEntry
  interfaceEntry_setInterface : ∀ settings entry columns,
    interfaceEntry (setInterface settings entry columns) = entry

def DatastoreCall.isLink {Columns : Type} : DatastoreCall Columns → Bool
  | .insertBridge _ | .insertVlan _ | .insertLagg _ | .insertLaggMember _
  | .updateBridge _ _ | .updateVlan _ _ | .updateLagg _ _
  | .deleteVlan _ | .deleteLagg _ | .deleteLaggMember _ => true
  | _ => false

namespace NetworkDatabase

variable {Settings Columns : Type} (cols : AddressColumns Settings Columns)

def callOrRaise (db : NetworkDatabase Columns) (call : DatastoreCall Columns) :
    Except InterfaceUpdateError (NetworkDatabase Columns) :=
  match db.call call with
  | none => .error .integrityError
  | some next => .ok next

/-- `[('interface', '=', key)]` -/
def aliasesOf (db : NetworkDatabase Columns) (key : ℕ) :
    List (AliasRow Columns) :=
  db.aliases.filter fun row => row.aliasInterface = key

def nextKey (keys : List ℕ) : ℕ :=
  keys.foldr max 0 + 1

/-- `dict(interface=key, **new_alias)` is inserted. -/
def insertNewAlias (key : ℕ) (db : NetworkDatabase Columns)
    (newAlias : AddressEntry) :
    Except InterfaceUpdateError (NetworkDatabase Columns) :=
  db.callOrRaise <| .insertAlias
    { id := nextKey (db.aliases.map AliasRow.id)
      aliasInterface := key
      columns := cols.ofAlias newAlias }

/-- `__create_interface_datastore`, with the key of the new row. -/
def createInterfaceDatastore (db : NetworkDatabase Columns) (name : String)
    (settings : Settings) (stored : AddressEntry × List AddressEntry) :
    Except InterfaceUpdateError (NetworkDatabase Columns × ℕ) := do
  let key := nextKey (db.interfaces.map InterfaceRow.id)
  let db ← db.callOrRaise <| .insertInterface
    { id := key, intInterface := name, columns := cols.newInterface settings stored.1 }
  let db ← stored.2.foldlM (insertNewAlias cols key) db
  return (db, key)

/-- The database, and the `new_aliases` that are left. -/
structure AliasDiff (Columns : Type) where
  database : NetworkDatabase Columns
  newAliases : List AddressEntry

namespace AliasDiff

def pop (s : AliasDiff Columns) (idx : ℕ) :
    Except InterfaceUpdateError (AliasDiff Columns) :=
  if idx < s.newAliases.length then
    .ok { s with newAliases := s.newAliases.eraseIdx idx }
  else .error .indexError

def writeRow (s : AliasDiff Columns) (curr : AliasRow Columns)
    (newAlias : AddressEntry) :
    Except InterfaceUpdateError (AliasDiff Columns) :=
  if cols.aliasEntry curr.columns ≠ newAlias then do
    let database ← s.database.callOrRaise <|
      .updateAlias (fun row => row.id = curr.id) fun _ => cols.ofAlias newAlias
    return { s with database }
  else .ok s

/-- One turn of the loop over a copy of `new_aliases`: `idx` is a position in
the copy. -/
def visit (curr : AliasRow Columns) (s : AliasDiff Columns)
    (entry : AddressEntry × ℕ) :
    Except InterfaceUpdateError (AliasDiff Columns) :=
  if (cols.aliasEntry curr.columns).address = entry.1.address then do
    let s ← s.writeRow cols curr entry.1
    s.pop entry.2
  else .ok s

def compareRow (s : AliasDiff Columns) (curr : AliasRow Columns) :
    Except InterfaceUpdateError (AliasDiff Columns) :=
  if (cols.aliasEntry curr.columns).address ∉
      s.newAliases.map AddressEntry.address then do
    let database ← s.database.callOrRaise <|
      .deleteAlias fun row => row.id = curr.id
    return { s with database }
  else s.newAliases.zipIdx.foldlM (visit cols curr) s

end AliasDiff

def storeAliases (db : NetworkDatabase Columns) (key : ℕ)
    (newAliases : List AddressEntry) :
    Except InterfaceUpdateError (NetworkDatabase Columns) := do
  let diff ← (db.aliasesOf key).foldlM (AliasDiff.compareRow cols)
    ⟨db, newAliases⟩
  diff.newAliases.foldlM (insertNewAlias cols key) diff.database

/-- `[('int_interface', '=', oid)]` -/
def interfaceNamed (db : NetworkDatabase Columns) (oid : String) :
    Option (InterfaceRow Columns) :=
  db.interfaces.find? fun row => row.intInterface = oid

def rename (db : NetworkDatabase Columns) (config : InterfaceRow Columns)
    (name : String) : Except InterfaceUpdateError (NetworkDatabase Columns) :=
  if config.intInterface ≠ name then
    db.callOrRaise <| .updateInterface (fun row => row.id = config.id)
      (fun _ => name) InterfaceRow.columns
  else .ok db

def storeAddresses (version : String → Option ℕ) (db : NetworkDatabase Columns)
    (key : ℕ) (new : InterfaceData Settings) :
    Except InterfaceUpdateError (NetworkDatabase Columns) := do
  let stored ← new.convertAliasesToDatastore version
  let db ← db.callOrRaise <| .updateInterface (fun row => row.id = key)
    InterfaceRow.intInterface
    fun row => cols.setInterface new.settings stored.1 row.columns
  db.storeAliases cols key stored.2

/-- `List('aliases', unique=True)` -/
def uniqueErrors (aliases : List InterfaceAlias) : List VerrorEntry :=
  aliases.zipIdx.flatMap fun entry =>
    errorIf (decide (entry.1 ∈ aliases.take entry.2))
      ("interface_update.aliases." ++ toString entry.2)
      "This value is not unique."

def raiseValidation (errors : List VerrorEntry) :
    Except InterfaceUpdateError Unit :=
  if errors = [] then .ok () else .error (.validation errors)

/-- What `do_update` finds outside these tables: its checks of the new fields,
and the calls that the type of the interface leads to.  They are calls on the
tables of links, so that `__set_lag_ports` resets no configured member. -/
structure UpdateContext (Settings Columns : Type) where
  version : String → Option ℕ
  licensed : Bool
  commonErrors : InterfaceData Settings → List VerrorEntry
  linkCalls : InterfaceData Settings → NetworkDatabase Columns →
    InterfaceRow Columns → List (DatastoreCall Columns)
  isLink_of_mem : ∀ new db config, ∀ call ∈ linkCalls new db config,
    call.isLink = true

variable (context : UpdateContext Settings Columns)

def callLinks (db : NetworkDatabase Columns) (new : InterfaceData Settings)
    (config : InterfaceRow Columns) :
    Except InterfaceUpdateError (NetworkDatabase Columns) :=
  (context.linkCalls new db config).foldlM callOrRaise db

/-- `do_update` of the interface that `get_instance` has found. -/
def doUpdate (db : NetworkDatabase Columns) (oid : String)
    (iface : InterfaceData Settings) (data : InterfaceUpdate Settings) :
    Except InterfaceUpdateError (NetworkDatabase Columns) := do
  raiseValidation (uniqueErrors (data.aliases.getD []))
  let new := iface.updated data context.licensed
  raiseValidation (context.commonErrors new)
  match db.interfaceNamed oid with
  | none =>
    let stored ← new.convertAliasesToDatastore context.version
    let created ← db.createInterfaceDatastore cols iface.name new.settings
      stored
    match created.1.interfaces.find? fun row => row.id = created.2 with
    | none => .error .indexError
    | some config => created.1.callLinks context new config
  | some config =>
    let db ← db.rename config new.name
    let db ← db.callLinks context new config
    db.storeAddresses cols context.version config.id new

/-- The interface row holds the first entry, and the alias rows of the
interface hold the others, each once. -/
structure StoredExactly (db : NetworkDatabase Columns) (key : ℕ)
    (stored : AddressEntry × List AddressEntry) : Prop where
  interface : ∃ row ∈ db.interfaces,
    row.id = key ∧ cols.interfaceEntry row.columns = stored.1
  aliases : ((db.aliasesOf key).map fun row =>
    cols.aliasEntry row.columns).Perm stored.2

end NetworkDatabase

end Middlewared
