import Middlewared.RelationalTable
import Middlewared.TransitionSystem

/-!
# Network tables and their rollback

The tables behind `InterfaceService`, the datastore calls that the service makes on them, and the
snapshot that `__save_datastores` takes and `__restore_datastores` puts back.
-/

namespace Middlewared

variable {Columns : Type*}

structure InterfaceRow (Columns : Type*) where
  id : ℕ
  intInterface : String
  columns : Columns
deriving DecidableEq

structure AliasRow (Columns : Type*) where
  (id aliasInterface : ℕ)
  columns : Columns
deriving DecidableEq

structure BridgeRow (Columns : Type*) where
  id : ℕ
  interface : Option ℕ
  columns : Columns
deriving DecidableEq

structure VlanRow (Columns : Type*) where
  id : ℕ
  columns : Columns
deriving DecidableEq

structure LaggRow (Columns : Type*) where
  (id laggInterface : ℕ)
  columns : Columns
deriving DecidableEq

structure LaggMemberRow (Columns : Type*) where
  (id laggInterfacegroup : ℕ)
  laggPhysnic : String
  columns : Columns
deriving DecidableEq

/-- The tables, with `gc_ipv4gateway` for the gateway. -/
structure NetworkDatabase (Columns : Type*) where
  interfaces : List (InterfaceRow Columns)
  aliases : List (AliasRow Columns)
  bridge : List (BridgeRow Columns)
  vlan : List (VlanRow Columns)
  lagg : List (LaggRow Columns)
  laggmembers : List (LaggMemberRow Columns)
  ipv4gateway : String
deriving DecidableEq

/-- The `datastore` calls of `InterfaceService` that write to these tables.  A
filter of an update or a delete is the rows it selects. -/
inductive DatastoreCall (Columns : Type*) where
  | insertInterface (row : InterfaceRow Columns)
  | insertAlias (row : AliasRow Columns)
  | insertBridge (row : BridgeRow Columns)
  | insertVlan (row : VlanRow Columns)
  | insertLagg (row : LaggRow Columns)
  | insertLaggMember (row : LaggMemberRow Columns)
  | updateInterface (filters : InterfaceRow Columns → Bool) (name : InterfaceRow Columns → String)
      (columns : InterfaceRow Columns → Columns)
  | updateAlias (filters : AliasRow Columns → Bool) (columns : AliasRow Columns → Columns)
  | updateBridge (filters : BridgeRow Columns → Bool) (columns : BridgeRow Columns → Columns)
  | updateVlan (filters : VlanRow Columns → Bool) (columns : VlanRow Columns → Columns)
  | updateLagg (filters : LaggRow Columns → Bool) (columns : LaggRow Columns → Columns)
  | updateGateway (gateway : String)
  | deleteInterface (filters : InterfaceRow Columns → Bool)
  | deleteAlias (filters : AliasRow Columns → Bool)
  | deleteVlan (filters : VlanRow Columns → Bool)
  | deleteLagg (filters : LaggRow Columns → Bool)
  | deleteLaggMember (filters : LaggMemberRow Columns → Bool)

/-- The calls of `do_create`, `do_update` and `do_delete`: a bridge is inserted
with the id of the interface that was inserted for it. -/
def DatastoreCall.isChange : DatastoreCall Columns → Bool
  | .insertBridge row => row.interface.isSome
  | _ => true

namespace NetworkDatabase

open Relational

def dropInterfaces (db : NetworkDatabase Columns)
    (filters : InterfaceRow Columns → Bool) : NetworkDatabase Columns :=
  let deleted := (db.interfaces.filter filters).map InterfaceRow.id
  let groups := (db.lagg.filter fun row =>
    decide (row.laggInterface ∈ deleted)).map LaggRow.id
  { db with
    interfaces := db.interfaces.filter fun row => !filters row
    aliases := cascade (fun row => some row.aliasInterface) deleted db.aliases
    bridge := cascade BridgeRow.interface deleted db.bridge
    lagg := db.lagg.filter fun row => !decide (row.laggInterface ∈ deleted)
    laggmembers :=
      cascade (fun row => some row.laggInterfacegroup) groups db.laggmembers }

def dropLagg (db : NetworkDatabase Columns)
    (filters : LaggRow Columns → Bool) : NetworkDatabase Columns :=
  let deleted := (db.lagg.filter filters).map LaggRow.id
  { db with
    lagg := db.lagg.filter fun row => !filters row
    laggmembers :=
      cascade (fun row => some row.laggInterfacegroup) deleted db.laggmembers }

def renamed (filters : InterfaceRow Columns → Bool)
    (name : InterfaceRow Columns → String)
    (columns : InterfaceRow Columns → Columns) (row : InterfaceRow Columns) :
    InterfaceRow Columns :=
  if filters row then
    { row with intInterface := name row, columns := columns row }
  else row

def call (db : NetworkDatabase Columns) :
    DatastoreCall Columns → Option (NetworkDatabase Columns)
  | .insertInterface row =>
    if row.id ∉ db.interfaces.map InterfaceRow.id ∧
        row.intInterface ∉ db.interfaces.map InterfaceRow.intInterface then
      some { db with interfaces := db.interfaces ++ [row] }
    else none
  | .insertAlias row =>
    if row.id ∉ db.aliases.map AliasRow.id ∧
        row.aliasInterface ∈ db.interfaces.map InterfaceRow.id then
      some { db with aliases := db.aliases ++ [row] }
    else none
  | .insertBridge row =>
    if row.id ∉ db.bridge.map BridgeRow.id ∧
        ∀ key ∈ row.interface, key ∈ db.interfaces.map InterfaceRow.id then
      some { db with bridge := db.bridge ++ [row] }
    else none
  | .insertVlan row =>
    if row.id ∉ db.vlan.map VlanRow.id then
      some { db with vlan := db.vlan ++ [row] }
    else none
  | .insertLagg row =>
    if row.id ∉ db.lagg.map LaggRow.id ∧ row.laggInterface ∈ db.interfaces.map InterfaceRow.id then
      some { db with lagg := db.lagg ++ [row] }
    else none
  | .insertLaggMember row =>
    if row.id ∉ db.laggmembers.map LaggMemberRow.id ∧
        row.laggPhysnic ∉ db.laggmembers.map LaggMemberRow.laggPhysnic ∧
        row.laggInterfacegroup ∈ db.lagg.map LaggRow.id then
      some { db with laggmembers := db.laggmembers ++ [row] }
    else none
  | .updateInterface filters name columns =>
    let interfaces := db.interfaces.map (renamed filters name columns)
    if (interfaces.map InterfaceRow.intInterface).Nodup then
      some { db with interfaces }
    else none
  | .updateAlias filters columns =>
    some { db with
      aliases := db.aliases.map fun row =>
        if filters row then { row with columns := columns row } else row }
  | .updateBridge filters columns =>
    some { db with
      bridge := db.bridge.map fun row =>
        if filters row then { row with columns := columns row } else row }
  | .updateVlan filters columns =>
    some { db with
      vlan := db.vlan.map fun row =>
        if filters row then { row with columns := columns row } else row }
  | .updateLagg filters columns =>
    some { db with
      lagg := db.lagg.map fun row =>
        if filters row then { row with columns := columns row } else row }
  | .updateGateway gateway => some { db with ipv4gateway := gateway }
  | .deleteInterface filters => some (db.dropInterfaces filters)
  | .deleteAlias filters =>
    some { db with aliases := db.aliases.filter fun row => !filters row }
  | .deleteVlan filters =>
    some { db with vlan := db.vlan.filter fun row => !filters row }
  | .deleteLagg filters => some (db.dropLagg filters)
  | .deleteLaggMember filters =>
    some { db with laggmembers := db.laggmembers.filter fun row => !filters row }

def callAll : NetworkDatabase Columns → List (DatastoreCall Columns) →
    Option (NetworkDatabase Columns)
  | db, [] => some db
  | db, call :: rest => (db.call call).bind fun next => next.callAll rest

def callUntilRefused : NetworkDatabase Columns →
    List (DatastoreCall Columns) → NetworkDatabase Columns
  | db, [] => db
  | db, call :: rest =>
    match db.call call with
    | none => db
    | some next => next.callUntilRefused rest

structure Consistent (db : NetworkDatabase Columns) : Prop where
  interfaceIds : Distinct InterfaceRow.id db.interfaces
  interfaceNames : Distinct InterfaceRow.intInterface db.interfaces
  aliasIds : Distinct AliasRow.id db.aliases
  aliasInterfaces : Refer (fun row => some row.aliasInterface) InterfaceRow.id
    db.aliases db.interfaces
  bridgeIds : Distinct BridgeRow.id db.bridge
  bridgeInterfaces : Refer BridgeRow.interface InterfaceRow.id db.bridge db.interfaces
  vlanIds : Distinct VlanRow.id db.vlan
  laggIds : Distinct LaggRow.id db.lagg
  laggInterfaces : Refer (fun row => some row.laggInterface) InterfaceRow.id db.lagg db.interfaces
  laggMemberIds : Distinct LaggMemberRow.id db.laggmembers
  laggMemberPhysnics : Distinct LaggMemberRow.laggPhysnic db.laggmembers
  laggMemberGroups : Refer (fun row => some row.laggInterfacegroup) LaggRow.id
    db.laggmembers db.lagg

def joinedInterface (db : NetworkDatabase Columns) (key : ℕ) :
    Option (InterfaceRow Columns) :=
  db.interfaces.find? fun row => row.id = key

def joinedLagg (db : NetworkDatabase Columns) (key : ℕ) :
    Option (LaggRow Columns) :=
  db.lagg.find? fun row => row.id = key

/-- `get_datastores`: a joined row is replaced by its id, and only for a bridge
may there be none. -/
def getDatastores (db : NetworkDatabase Columns) :
    Option (NetworkDatabase Columns) := do
  let aliases ← db.aliases.mapM fun row =>
    (db.joinedInterface row.aliasInterface).map fun interface =>
      { row with aliasInterface := interface.id }
  let bridge := db.bridge.map fun row =>
    { row with interface := (row.interface.bind db.joinedInterface).map InterfaceRow.id }
  let lagg ← db.lagg.mapM fun row =>
    (db.joinedInterface row.laggInterface).map fun interface =>
      { row with laggInterface := interface.id }
  let laggmembers ← db.laggmembers.mapM fun row =>
    (db.joinedLagg row.laggInterfacegroup).map fun group =>
      { row with laggInterfacegroup := group.id }
  return { db with aliases, bridge, lagg, laggmembers }

/-- The calls of `__restore_datastores`. -/
def restoreCalls (original : NetworkDatabase Columns) :
    List (DatastoreCall Columns) :=
  [.deleteLagg fun _ => true, .deleteInterface fun _ => true,
    .deleteVlan fun _ => true, .updateGateway ""] ++
    original.interfaces.map .insertInterface ++
    original.aliases.map .insertAlias ++
    original.bridge.map .insertBridge ++
    original.vlan.map .insertVlan ++
    original.lagg.map .insertLagg ++
    original.laggmembers.map .insertLaggMember ++
    [.updateGateway original.ipv4gateway]

end NetworkDatabase

structure InterfaceService (Columns : Type*) where
  database : NetworkDatabase Columns
  originalDatastores : Option (NetworkDatabase Columns)

namespace InterfaceService

/-- `__save_datastores`; a snapshot that is already there stays. -/
def saveDatastores (s : InterfaceService Columns) : InterfaceService Columns :=
  match s.originalDatastores with
  | some _ => s
  | none => { s with originalDatastores := s.database.getDatastores }

/-- `__restore_datastores`, if none of its calls is refused. -/
def restoreDatastores (s : InterfaceService Columns) :
    Option (InterfaceService Columns) :=
  match s.originalDatastores with
  | none => some s
  | some original =>
    (s.database.callAll original.restoreCalls).map fun database =>
      { database, originalDatastores := none }

/-- An attempt at `__restore_datastores` in which the call after so many others
fails, or one of them is refused; the snapshot is still there. -/
def failRestore (s : InterfaceService Columns) (calls : ℕ) :
    InterfaceService Columns :=
  match s.originalDatastores with
  | none => s
  | some original =>
    { s with
      database :=
        s.database.callUntilRefused (original.restoreCalls.take calls) }

inductive Action (Columns : Type*) where
  | saveDatastores
  | change (call : DatastoreCall Columns)
  | failRestore (calls : ℕ)

def step (s : InterfaceService Columns) :
    Action Columns → Option (InterfaceService Columns)
  | .saveDatastores => some s.saveDatastores
  | .change call =>
    if call.isChange then
      some { s with database := (s.database.call call).getD s.database }
    else none
  | .failRestore calls => some (s.failRestore calls)

end InterfaceService

end Middlewared
