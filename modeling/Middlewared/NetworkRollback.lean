import Middlewared.NetworkDatastores

/-!
# A rollback restores the network tables

A restore empties the tables, partly by cascades, and inserts the rows of the snapshot again.
-/

namespace Middlewared

open List Option

variable {Columns : Type*}

namespace NetworkDatabase

open Relational

theorem mapM_eq_self {ρ : Type*} {f : ρ → Option ρ} {rows : List ρ}
    (hf : ∀ row ∈ rows, f row = some row) : rows.mapM f = some rows := by
  induction rows with
  | nil => rfl
  | cons row rest ih =>
    rw [forall_mem_cons] at hf
    rw [mapM_cons, hf.1, ih hf.2]
    rfl

section

variable {db : NetworkDatabase Columns} {key : ℕ}

theorem map_find?_eq_some {α : Type*} {idOf : α → ℕ} {rows : List α} (hkey : key ∈ rows.map idOf) :
    (rows.find? fun row => decide (idOf row = key)).map idOf = some key := by
  obtain ⟨row, hrow, hid⟩ := List.mem_map.mp hkey
  have hsome : (rows.find? fun row => decide (idOf row = key)).isSome := by
    rw [find?_isSome]
    exact ⟨row, hrow, by simpa using hid⟩
  obtain ⟨found, hfound⟩ := isSome_iff_exists.mp hsome
  have hfoundId : idOf found = key := by
    simpa using find?_some hfound
  rw [hfound, map_some, hfoundId]

theorem joinedInterface_id (hkey : key ∈ db.interfaces.map InterfaceRow.id) :
    (db.joinedInterface key).map InterfaceRow.id = some key :=
  map_find?_eq_some hkey

theorem joinedLagg_id (hkey : key ∈ db.lagg.map LaggRow.id) :
    (db.joinedLagg key).map LaggRow.id = some key :=
  map_find?_eq_some hkey

theorem Consistent.getDatastores_eq (hconsistent : db.Consistent) : db.getDatastores = some db := by
  have haliases : (db.aliases.mapM fun row =>
      (db.joinedInterface row.aliasInterface).map fun interface =>
        { row with aliasInterface := interface.id }) = some db.aliases := by
    apply mapM_eq_self
    intro row hrow
    have hjoined := joinedInterface_id (hconsistent.aliasInterfaces row hrow _ rfl)
    obtain ⟨found, hfound, hid⟩ := map_eq_some_iff.mp hjoined
    rw [hfound, map_some, hid]
  have hlagg : (db.lagg.mapM fun row =>
      (db.joinedInterface row.laggInterface).map fun interface =>
        { row with laggInterface := interface.id }) = some db.lagg := by
    apply mapM_eq_self
    intro row hrow
    have hjoined := joinedInterface_id (hconsistent.laggInterfaces row hrow _ rfl)
    obtain ⟨found, hfound, hid⟩ := map_eq_some_iff.mp hjoined
    rw [hfound, map_some, hid]
  have hmembers : (db.laggmembers.mapM fun row =>
      (db.joinedLagg row.laggInterfacegroup).map fun group =>
        { row with laggInterfacegroup := group.id }) =
      some db.laggmembers := by
    apply mapM_eq_self
    intro row hrow
    have hjoined := joinedLagg_id (hconsistent.laggMemberGroups row hrow _ rfl)
    obtain ⟨found, hfound, hid⟩ := map_eq_some_iff.mp hjoined
    rw [hfound, map_some, hid]
  have hbridge : (db.bridge.map fun row =>
      { row with
        interface := (row.interface.bind db.joinedInterface).map
          InterfaceRow.id }) = db.bridge := by
    conv_rhs => rw [← List.map_id db.bridge]
    apply map_congr_left
    intro row hrow
    cases hinterface : row.interface with
    | none =>
      change ({ row with interface := none } : BridgeRow Columns) = row
      rw [← hinterface]
    | some key =>
      have hjoined := joinedInterface_id (hconsistent.bridgeInterfaces row hrow key hinterface)
      rw [bind_some, hjoined, ← hinterface]
      rfl
  unfold getDatastores
  rw [haliases, hlagg, hmembers, hbridge]
  rfl

end

/-! ## Calls keep the tables consistent -/

section

variable {db next : NetworkDatabase Columns}

theorem Consistent.dropLagg (hconsistent : db.Consistent) (filters : LaggRow Columns → Bool) :
    (db.dropLagg filters).Consistent :=
  { hconsistent with
    laggIds := hconsistent.laggIds.filter _
    laggInterfaces := hconsistent.laggInterfaces.filter _
    laggMemberIds := hconsistent.laggMemberIds.filter _
    laggMemberPhysnics := hconsistent.laggMemberPhysnics.filter _
    laggMemberGroups := hconsistent.laggMemberGroups.cascade filters }

theorem Consistent.dropInterfaces (hconsistent : db.Consistent)
    (filters : InterfaceRow Columns → Bool) :
    (db.dropInterfaces filters).Consistent where
  interfaceIds := hconsistent.interfaceIds.filter _
  interfaceNames := hconsistent.interfaceNames.filter _
  aliasIds := hconsistent.aliasIds.filter _
  aliasInterfaces := hconsistent.aliasInterfaces.cascade filters
  bridgeIds := hconsistent.bridgeIds.filter _
  bridgeInterfaces := hconsistent.bridgeInterfaces.cascade filters
  vlanIds := hconsistent.vlanIds
  laggIds := hconsistent.laggIds.filter _
  laggInterfaces := by
    have hcascade := hconsistent.laggInterfaces.cascade filters
    rw [cascade_some] at hcascade
    exact hcascade
  laggMemberIds := hconsistent.laggMemberIds.filter _
  laggMemberPhysnics := hconsistent.laggMemberPhysnics.filter _
  laggMemberGroups := hconsistent.laggMemberGroups.cascade _

theorem renamed_id (filters : InterfaceRow Columns → Bool) (name : InterfaceRow Columns → String)
    (columns : InterfaceRow Columns → Columns) (row : InterfaceRow Columns) :
    (renamed filters name columns row).id = row.id := by
  unfold renamed
  split <;> rfl

theorem consistent_call {request : DatastoreCall Columns}
    (hconsistent : db.Consistent) (hcall : db.call request = some next) :
    next.Consistent := by
  cases request with
  | insertInterface row =>
    obtain ⟨⟨hid, hname⟩, rfl⟩ := ite_some_none_eq_some.mp hcall
    exact { hconsistent with
      interfaceIds := distinct_concat hconsistent.interfaceIds hid
      interfaceNames := distinct_concat hconsistent.interfaceNames hname
      aliasInterfaces := hconsistent.aliasInterfaces.concat_targets row
      bridgeInterfaces := hconsistent.bridgeInterfaces.concat_targets row
      laggInterfaces := hconsistent.laggInterfaces.concat_targets row }
  | insertAlias row =>
    obtain ⟨⟨hid, hinterface⟩, rfl⟩ := ite_some_none_eq_some.mp hcall
    exact { hconsistent with
      aliasIds := distinct_concat hconsistent.aliasIds hid
      aliasInterfaces := hconsistent.aliasInterfaces.concat
        (by simpa using hinterface) }
  | insertBridge row =>
    obtain ⟨⟨hid, hinterface⟩, rfl⟩ := ite_some_none_eq_some.mp hcall
    exact { hconsistent with
      bridgeIds := distinct_concat hconsistent.bridgeIds hid
      bridgeInterfaces := hconsistent.bridgeInterfaces.concat hinterface }
  | insertVlan row =>
    obtain ⟨hid, rfl⟩ := ite_some_none_eq_some.mp hcall
    exact { hconsistent with vlanIds := distinct_concat hconsistent.vlanIds hid }
  | insertLagg row =>
    obtain ⟨⟨hid, hinterface⟩, rfl⟩ := ite_some_none_eq_some.mp hcall
    exact { hconsistent with
      laggIds := distinct_concat hconsistent.laggIds hid
      laggInterfaces := hconsistent.laggInterfaces.concat
        (by simpa using hinterface)
      laggMemberGroups := hconsistent.laggMemberGroups.concat_targets row }
  | insertLaggMember row =>
    obtain ⟨⟨hid, hphysnic, hgroup⟩, rfl⟩ := ite_some_none_eq_some.mp hcall
    exact { hconsistent with
      laggMemberIds := distinct_concat hconsistent.laggMemberIds hid
      laggMemberPhysnics :=
        distinct_concat hconsistent.laggMemberPhysnics hphysnic
      laggMemberGroups := hconsistent.laggMemberGroups.concat
        (by simpa using hgroup) }
  | updateInterface filters name columns =>
    obtain ⟨hnames, rfl⟩ := ite_some_none_eq_some.mp hcall
    have hid := renamed_id filters name columns
    exact { hconsistent with
      interfaceIds := hconsistent.interfaceIds.map hid
      interfaceNames := hnames
      aliasInterfaces := hconsistent.aliasInterfaces.map_targets hid
      bridgeInterfaces := hconsistent.bridgeInterfaces.map_targets hid
      laggInterfaces := hconsistent.laggInterfaces.map_targets hid }
  | updateAlias filters columns =>
    cases hcall
    exact { hconsistent with
      aliasIds := hconsistent.aliasIds.map
        fun row => by split <;> rfl
      aliasInterfaces := hconsistent.aliasInterfaces.map
        fun row => by split <;> rfl }
  | updateBridge filters columns =>
    cases hcall
    exact { hconsistent with
      bridgeIds := hconsistent.bridgeIds.map
        fun row => by split <;> rfl
      bridgeInterfaces := hconsistent.bridgeInterfaces.map
        fun row => by split <;> rfl }
  | updateVlan filters columns =>
    cases hcall
    exact { hconsistent with vlanIds := hconsistent.vlanIds.map fun row => by split <;> rfl }
  | updateLagg filters columns =>
    cases hcall
    exact { hconsistent with
      laggIds := hconsistent.laggIds.map fun row => by split <;> rfl
      laggInterfaces := hconsistent.laggInterfaces.map
        fun row => by split <;> rfl
      laggMemberGroups := hconsistent.laggMemberGroups.map_targets
        fun row => by split <;> rfl }
  | updateGateway gateway =>
    cases hcall
    exact { hconsistent with }
  | deleteInterface filters =>
    cases hcall
    exact hconsistent.dropInterfaces filters
  | deleteAlias filters =>
    cases hcall
    exact { hconsistent with
      aliasIds := hconsistent.aliasIds.filter _
      aliasInterfaces := hconsistent.aliasInterfaces.filter _ }
  | deleteVlan filters =>
    cases hcall
    exact { hconsistent with vlanIds := hconsistent.vlanIds.filter _ }
  | deleteLagg filters =>
    cases hcall
    exact hconsistent.dropLagg filters
  | deleteLaggMember filters =>
    cases hcall
    exact { hconsistent with
      laggMemberIds := hconsistent.laggMemberIds.filter _
      laggMemberPhysnics := hconsistent.laggMemberPhysnics.filter _
      laggMemberGroups := hconsistent.laggMemberGroups.filter _ }

end

section

variable {db next : NetworkDatabase Columns}
  {requests : List (DatastoreCall Columns)}

theorem callAll_append (db : NetworkDatabase Columns) (first rest : List (DatastoreCall Columns)) :
    db.callAll (first ++ rest) = (db.callAll first).bind fun next => next.callAll rest := by
  induction first generalizing db with
  | nil => rfl
  | cons request first ih =>
    simp only [cons_append, callAll]
    cases db.call request with
    | none => rfl
    | some next => exact ih next

theorem consistent_callAll (hconsistent : db.Consistent)
    (hcalls : db.callAll requests = some next) : next.Consistent := by
  induction requests generalizing db with
  | nil =>
    cases hcalls
    exact hconsistent
  | cons request rest ih =>
    obtain ⟨middle, hmiddle, hrest⟩ := bind_eq_some_iff.mp hcalls
    exact ih (consistent_call hconsistent hmiddle) hrest

theorem callUntilRefused_induction {p : NetworkDatabase Columns → Prop}
    (hcall : ∀ request ∈ requests, ∀ before after, p before →
      before.call request = some after → p after) (hdb : p db) :
    p (db.callUntilRefused requests) := by
  induction requests generalizing db with
  | nil => exact hdb
  | cons request rest ih =>
    rw [forall_mem_cons] at hcall
    simp only [callUntilRefused]
    cases hrequest : db.call request with
    | none => exact hdb
    | some next => exact ih hcall.2 (hcall.1 db next hdb hrequest)

structure Table (Columns ρ : Type*) where
  rows : NetworkDatabase Columns → List ρ
  put : NetworkDatabase Columns → List ρ → NetworkDatabase Columns
  insert : ρ → DatastoreCall Columns
  rows_put : ∀ db rs, rows (put db rs) = rs := by intros; rfl
  put_put : ∀ db rs more, put (put db rs) more = put db more := by intros; rfl
  put_rows : ∀ db, put db (rows db) = db := by intros; rfl
  call_insert : ∀ db row next, db.call (insert row) = some next →
    next = put db (rows db ++ [row]) := by
      intro db row next hcall
      simp only [call, ite_none_right_eq_some, Option.some.injEq] at hcall
      exact hcall.2.symm

namespace Table

variable {ρ : Type*} (table : Table Columns ρ) {rows : List ρ}

theorem callAll_insert (hempty : table.rows db = [])
    (hinsert : ∀ before row later, rows = before ++ row :: later →
      (table.put db before).call (table.insert row) =
        some (table.put db (before ++ [row]))) :
    db.callAll (rows.map table.insert) = some (table.put db rows) := by
  have hdb : table.put db [] = db := by rw [← hempty, table.put_rows]
  suffices hlater : ∀ later before, rows = before ++ later →
      (table.put db before).callAll (later.map table.insert) =
        some (table.put db rows) by
    have hall := hlater rows [] rfl
    rwa [hdb] at hall
  intro later
  induction later with
  | nil =>
    intro before hrows
    rw [hrows, append_nil]
    rfl
  | cons row later ih =>
    intro before hrows
    rw [map_cons, callAll, hinsert before row later hrows, bind_some]
    exact ih (before ++ [row]) (by simp [hrows])

theorem callAll_inserted (hcalls : db.callAll (rows.map table.insert) = some next) :
    next = table.put db (table.rows db ++ rows) := by
  induction rows generalizing db with
  | nil =>
    cases hcalls
    rw [append_nil, table.put_rows]
  | cons row rest ih =>
    obtain ⟨middle, hmiddle, hrest⟩ := bind_eq_some_iff.mp hcalls
    rw [ih hrest, table.call_insert db row middle hmiddle, table.rows_put,
      table.put_put, append_assoc, singleton_append]

end Table

def interfaceTable : Table Columns (InterfaceRow Columns) where
  rows := interfaces
  put db rows := { db with interfaces := rows }
  insert := .insertInterface

def aliasTable : Table Columns (AliasRow Columns) where
  rows := aliases
  put db rows := { db with aliases := rows }
  insert := .insertAlias

def bridgeTable : Table Columns (BridgeRow Columns) where
  rows := bridge
  put db rows := { db with bridge := rows }
  insert := .insertBridge

def vlanTable : Table Columns (VlanRow Columns) where
  rows := vlan
  put db rows := { db with vlan := rows }
  insert := .insertVlan

def laggTable : Table Columns (LaggRow Columns) where
  rows := lagg
  put db rows := { db with lagg := rows }
  insert := .insertLagg

def laggMemberTable : Table Columns (LaggMemberRow Columns) where
  rows := laggmembers
  put db rows := { db with laggmembers := rows }
  insert := .insertLaggMember

end

/-! ## The restore -/

section

variable {db next original : NetworkDatabase Columns}

def cleared (db : NetworkDatabase Columns) : NetworkDatabase Columns where
  interfaces := []
  aliases := []
  bridge := db.bridge.filter fun row => row.interface.isNone
  vlan := []
  lagg := []
  laggmembers := []
  ipv4gateway := ""

theorem callAll_cleared (hconsistent : db.Consistent) :
    db.callAll [.deleteLagg fun _ => true, .deleteInterface fun _ => true,
      .deleteVlan fun _ => true, .updateGateway ""] = some db.cleared := by
  have haliases := hconsistent.aliasInterfaces.cascade_all
  have hbridge := hconsistent.bridgeInterfaces.cascade_all
  have hmembers := hconsistent.laggMemberGroups.cascade_all
  simp [callAll, call, dropLagg, dropInterfaces, cleared, haliases, hbridge, hmembers]

theorem restored_eq (hconsistent : db.Consistent)
    (hcalls : db.callAll original.restoreCalls = some next) :
    next = { original with
      bridge := (db.bridge.filter fun row => row.interface.isNone) ++
        original.bridge } := by
  simp only [restoreCalls, callAll_append, callAll_cleared hconsistent,
    bind_some, bind_eq_some_iff] at hcalls
  obtain ⟨_, ⟨_, ⟨_, ⟨_, ⟨_, ⟨_, hinterfaces, haliases⟩, hbridge⟩, hvlan⟩,
    hlagg⟩, hmembers⟩, hgateway⟩ := hcalls
  cases hgateway
  rw [laggMemberTable.callAll_inserted hmembers, laggTable.callAll_inserted hlagg,
    vlanTable.callAll_inserted hvlan, bridgeTable.callAll_inserted hbridge,
    aliasTable.callAll_inserted haliases, interfaceTable.callAll_inserted hinterfaces]
  simp [cleared, laggMemberTable, laggTable, vlanTable, bridgeTable, aliasTable, interfaceTable]

theorem insertable_interfaces {rows : List (InterfaceRow Columns)} (hempty : db.interfaces = [])
    (hids : Distinct InterfaceRow.id rows)
    (hnames : Distinct InterfaceRow.intInterface rows) :
    db.callAll (rows.map .insertInterface) = some { db with interfaces := rows } := by
  refine interfaceTable.callAll_insert hempty ?_
  intro before row later hrows
  rw [hrows] at hids hnames
  simp [interfaceTable, call, hids.notMem_before, hnames.notMem_before]

theorem insertable_aliases {rows : List (AliasRow Columns)} (hempty : db.aliases = [])
    (hids : Distinct AliasRow.id rows)
    (hrefer : Refer (fun row => some row.aliasInterface) InterfaceRow.id rows db.interfaces) :
    db.callAll (rows.map .insertAlias) = some { db with aliases := rows } := by
  refine aliasTable.callAll_insert hempty ?_
  intro before row later hrows
  have hrow := hrefer row (by simp [hrows])
  rw [hrows] at hids
  simp [aliasTable, call, hids.notMem_before, hrow _ rfl]

theorem insertable_bridge {rows : List (BridgeRow Columns)} (hempty : db.bridge = [])
    (hids : Distinct BridgeRow.id rows)
    (hrefer : Refer BridgeRow.interface InterfaceRow.id rows db.interfaces) :
    db.callAll (rows.map .insertBridge) = some { db with bridge := rows } := by
  refine bridgeTable.callAll_insert hempty ?_
  intro before row later hrows
  have hrow := hrefer row (by simp [hrows])
  rw [hrows] at hids
  simp only [bridgeTable, call, hids.notMem_before, not_false_eq_true, true_and]
  exact if_pos hrow

theorem insertable_vlan {rows : List (VlanRow Columns)} (hempty : db.vlan = [])
    (hids : Distinct VlanRow.id rows) :
    db.callAll (rows.map .insertVlan) = some { db with vlan := rows } := by
  refine vlanTable.callAll_insert hempty ?_
  intro before row later hrows
  rw [hrows] at hids
  simp [vlanTable, call, hids.notMem_before]

theorem insertable_lagg {rows : List (LaggRow Columns)} (hempty : db.lagg = [])
    (hids : Distinct LaggRow.id rows)
    (hrefer : Refer (fun row => some row.laggInterface) InterfaceRow.id rows db.interfaces) :
    db.callAll (rows.map .insertLagg) = some { db with lagg := rows } := by
  refine laggTable.callAll_insert hempty ?_
  intro before row later hrows
  have hrow := hrefer row (by simp [hrows])
  rw [hrows] at hids
  simp [laggTable, call, hids.notMem_before, hrow _ rfl]

theorem insertable_laggmembers {rows : List (LaggMemberRow Columns)} (hempty : db.laggmembers = [])
    (hids : Distinct LaggMemberRow.id rows)
    (hphysnics : Distinct LaggMemberRow.laggPhysnic rows)
    (hrefer : Refer (fun row => some row.laggInterfacegroup) LaggRow.id rows db.lagg) :
    db.callAll (rows.map .insertLaggMember) = some { db with laggmembers := rows } := by
  refine laggMemberTable.callAll_insert hempty ?_
  intro before row later hrows
  have hrow := hrefer row (by simp [hrows])
  rw [hrows] at hids hphysnics
  simp [laggMemberTable, call, hids.notMem_before, hphysnics.notMem_before, hrow _ rfl]

theorem callAll_restoreCalls (hconsistent : db.Consistent) (horiginal : original.Consistent)
    (hbridge : ∀ row ∈ db.bridge, row.interface ≠ none) :
    db.callAll original.restoreCalls = some original := by
  have hempty : db.cleared.bridge = [] := by
    simp only [cleared, filter_eq_nil_iff]
    intro row hrow
    simpa using hbridge row hrow
  have hinterfaces := @insertable_interfaces Columns db.cleared
    original.interfaces rfl horiginal.interfaceIds horiginal.interfaceNames
  have haliases := @insertable_aliases Columns
    { db.cleared with interfaces := original.interfaces } original.aliases rfl
    horiginal.aliasIds horiginal.aliasInterfaces
  have hbridges := @insertable_bridge Columns { db.cleared with
      interfaces := original.interfaces
      aliases := original.aliases } original.bridge hempty horiginal.bridgeIds
    horiginal.bridgeInterfaces
  have hvlan := @insertable_vlan Columns { db.cleared with
      interfaces := original.interfaces
      aliases := original.aliases
      bridge := original.bridge } original.vlan rfl horiginal.vlanIds
  have hlagg := @insertable_lagg Columns { db.cleared with
      interfaces := original.interfaces
      aliases := original.aliases
      bridge := original.bridge
      vlan := original.vlan } original.lagg rfl horiginal.laggIds
    horiginal.laggInterfaces
  have hmembers := @insertable_laggmembers Columns
    { original with laggmembers := [], ipv4gateway := "" }
    original.laggmembers rfl horiginal.laggMemberIds
    horiginal.laggMemberPhysnics horiginal.laggMemberGroups
  simp only [restoreCalls, callAll_append, callAll_cleared hconsistent,
    bind_some, hinterfaces, haliases, hbridges, hvlan, hlagg]
  exact congrArg (Option.bind · _) hmembers

def LooseIn (db original : NetworkDatabase Columns) : Prop :=
  ∀ row ∈ db.bridge, row.interface = none → row.id ∈ original.bridge.map BridgeRow.id

theorem looseIn_call {request : DatastoreCall Columns} (hloose : db.LooseIn original)
    (hrequest : ∀ row, request = .insertBridge row → row.interface = none →
      row.id ∈ original.bridge.map BridgeRow.id)
    (hcall : db.call request = some next) : next.LooseIn original := by
  cases request with
  | insertBridge row =>
    obtain ⟨_, rfl⟩ := ite_some_none_eq_some.mp hcall
    intro other hother hnone
    rcases List.mem_append.mp hother with hother | hother
    · exact hloose other hother hnone
    · rw [List.mem_singleton.mp hother] at hnone ⊢
      exact hrequest row rfl hnone
  | updateBridge filters columns =>
    cases hcall
    intro other hother hnone
    obtain ⟨row, hrow, rfl⟩ := List.mem_map.mp hother
    split at hnone <;> split
    all_goals exact hloose row hrow hnone
  | deleteInterface filters =>
    cases hcall
    intro other hother
    exact hloose other (mem_of_mem_filter hother)
  | insertInterface _ | insertAlias _ | insertLagg _ | insertLaggMember _
  | insertVlan _ | updateInterface _ _ _ =>
    obtain ⟨_, rfl⟩ := ite_some_none_eq_some.mp hcall
    exact hloose
  | updateAlias _ _ | updateVlan _ _ | updateLagg _ _ | updateGateway _
  | deleteAlias _ | deleteVlan _ | deleteLagg _ | deleteLaggMember _ =>
    cases hcall
    exact hloose

theorem mem_bridge_of_mem_restoreCalls {row : BridgeRow Columns}
    (hmem : .insertBridge row ∈ original.restoreCalls) :
    row ∈ original.bridge := by
  simpa [restoreCalls] using hmem

theorem bridge_of_restored (hconsistent : db.Consistent) (hloose : db.LooseIn original)
    (hcalls : db.callAll original.restoreCalls = some next) :
    ∀ row ∈ db.bridge, row.interface ≠ none := by
  intro row hrow hnone
  have hnext := consistent_callAll hconsistent hcalls
  rw [restored_eq hconsistent hcalls] at hnext
  have hids := hnext.bridgeIds
  unfold Distinct at hids
  rw [map_append, nodup_append] at hids
  have hleft : row ∈ db.bridge.filter fun row => row.interface.isNone :=
    List.mem_filter.mpr ⟨hrow, by simp [hnone]⟩
  exact hids.2.2 _ (List.mem_map_of_mem hleft) _ (hloose row hrow hnone) rfl

end

end NetworkDatabase

/-! ## While changes are pending -/

namespace InterfaceService

open TransitionSystem

variable {original : NetworkDatabase Columns} {s next : InterfaceService Columns}

structure Pending (original : NetworkDatabase Columns)
    (s : InterfaceService Columns) : Prop where
  snapshot : s.originalDatastores = some original
  consistent : s.database.Consistent
  loose : s.database.LooseIn original

theorem pending_saveDatastores (hconsistent : original.Consistent) : Pending original
      (saveDatastores { database := original, originalDatastores := none })
    where
  snapshot := hconsistent.getDatastores_eq
  consistent := hconsistent
  loose _ hrow _ := List.mem_map_of_mem hrow

theorem Pending.call (hpending : Pending original s) {request : DatastoreCall Columns}
    (hrequest : ∀ row, request = .insertBridge row → row.interface = none →
      row.id ∈ original.bridge.map BridgeRow.id)
    {database : NetworkDatabase Columns}
    (hcall : s.database.call request = some database) :
    Pending original { s with database } where
  snapshot := hpending.snapshot
  consistent := NetworkDatabase.consistent_call hpending.consistent hcall
  loose := NetworkDatabase.looseIn_call hpending.loose hrequest hcall

theorem pending_step {action : Action Columns} (hpending : Pending original s)
    (hstep : s.step action = some next) : Pending original next := by
  cases action with
  | saveDatastores =>
    cases hstep
    simp only [saveDatastores, hpending.snapshot]
    exact hpending
  | change request =>
    obtain ⟨hchange, rfl⟩ := ite_some_none_eq_some.mp hstep
    cases hcall : s.database.call request with
    | none => exact hpending
    | some database =>
      apply hpending.call _ hcall
      intro row hinsert hnone
      simp [hinsert, DatastoreCall.isChange, hnone] at hchange
  | failRestore calls =>
    cases hstep
    obtain ⟨database, snapshot⟩ := s
    cases hpending.snapshot
    have hkept := @NetworkDatabase.callUntilRefused_induction Columns
      database (original.restoreCalls.take calls) fun database =>
        Pending original { database, originalDatastores := some original }
    apply hkept _ hpending
    intro request hrequest before after hbefore hcall
    apply hbefore.call _ hcall
    intro row hinsert _
    cases hinsert
    have hrow := NetworkDatabase.mem_bridge_of_mem_restoreCalls (mem_of_mem_take hrequest)
    exact List.mem_map_of_mem hrow

theorem Pending.restoreDatastores_eq (hpending : Pending original s) : s.restoreDatastores =
    (s.database.callAll original.restoreCalls).map fun database =>
      { database, originalDatastores := none } := by
  unfold restoreDatastores
  rw [hpending.snapshot]

theorem Pending.restores (hpending : Pending original s) {restored : InterfaceService Columns}
    (hrestored : s.restoreDatastores = some restored) :
    restored = { database := original, originalDatastores := none } := by
  rw [hpending.restoreDatastores_eq] at hrestored
  obtain ⟨database, hcalls, rfl⟩ := map_eq_some_iff.mp hrestored
  have hbridge := NetworkDatabase.bridge_of_restored hpending.consistent hpending.loose hcalls
  have hleft : (s.database.bridge.filter fun row => row.interface.isNone) = [] := by
    rw [filter_eq_nil_iff]
    intro row hrow
    simpa using hbridge row hrow
  rw [NetworkDatabase.restored_eq hpending.consistent hcalls, hleft, nil_append]

theorem Pending.restores_iff (hpending : Pending original s) (horiginal : original.Consistent) :
    s.restoreDatastores ≠ none ↔ ∀ row ∈ s.database.bridge, row.interface ≠ none := by
  rw [hpending.restoreDatastores_eq]
  constructor
  · intro hsome
    obtain ⟨database, hcalls⟩ := ne_none_iff_exists'.mp (mt map_eq_none_iff.mpr hsome)
    exact NetworkDatabase.bridge_of_restored hpending.consistent hpending.loose hcalls
  · intro hbridge
    rw [NetworkDatabase.callAll_restoreCalls hpending.consistent horiginal hbridge]
    exact some_ne_none _

/-- Whatever is changed after the snapshot, and however often a restore has
failed before, a restore none of whose calls is refused puts every table back;
what can have a call refused is a bridge without an interface. -/
theorem rollback_restores {db : NetworkDatabase Columns}
    (hconsistent : db.Consistent) {actions : List (Action Columns)}
    (hrun : run step (saveDatastores { database := db, originalDatastores := none }) actions =
        some s) :
    (∀ restored, s.restoreDatastores = some restored →
      restored = { database := db, originalDatastores := none }) ∧
    (s.restoreDatastores ≠ none ↔ ∀ row ∈ s.database.bridge, row.interface ≠ none) := by
  have hpending : Pending db s := run_invariant (fun _ _ _ => pending_step)
      (pending_saveDatastores hconsistent) hrun
  exact ⟨fun _ hrestored => hpending.restores hrestored, hpending.restores_iff hconsistent⟩

def lan : InterfaceRow Unit := { id := 1, intInterface := "enp1s0", columns := () }

def switched : InterfaceRow Unit :=
  { id := 2, intInterface := "br0", columns := () }

def bonded : InterfaceRow Unit :=
  { id := 3, intInterface := "bond0", columns := () }

def switchedNetwork : NetworkDatabase Unit where
  interfaces := [lan, switched, bonded]
  aliases := [{ id := 4, aliasInterface := 1, columns := () }]
  bridge := [{ id := 5, interface := some 2, columns := () }]
  vlan := [{ id := 6, columns := () }]
  lagg := [{ id := 7, laggInterface := 3, columns := () }]
  laggmembers := [{ id := 8, laggInterfacegroup := 7, laggPhysnic := "enp2s0", columns := () }]
  ipv4gateway := "192.0.2.1"

theorem switchedNetwork_consistent : switchedNetwork.Consistent := by
  constructor <;> simp [switchedNetwork, lan, switched, bonded,
    Relational.Distinct, Relational.Refer]

def bridgeDeleted : List (Action Unit) :=
  [.change (.deleteInterface fun row => row.id = 2), .change (.updateGateway ""), .failRestore 5]

theorem switchedNetwork_rollback_restores : ∃ s, run step (saveDatastores
        { database := switchedNetwork, originalDatastores := none })
      bridgeDeleted = some s ∧
    s.restoreDatastores = some { database := switchedNetwork, originalDatastores := none } := by
  obtain ⟨s, hrun⟩ : ∃ s, run step (saveDatastores
        { database := switchedNetwork, originalDatastores := none })
      bridgeDeleted = some s := isSome_iff_exists.mp rfl
  have hrestores := rollback_restores switchedNetwork_consistent hrun
  have hbridge : ∀ row ∈ s.database.bridge, row.interface ≠ none := by
    cases hrun
    decide
  obtain ⟨restored, hrestored⟩ := ne_none_iff_exists'.mp (hrestores.2.mpr hbridge)
  exact ⟨s, hrun, by rw [hrestored, hrestores.1 restored hrestored]⟩

end InterfaceService

end Middlewared
