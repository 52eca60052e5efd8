import Middlewared.InterfaceRemoval

/-!
# Dangling references after a delete

A delete keeps every row of a VLAN, a link aggregation or a bridge beside its interface.
-/

namespace Middlewared.NetworkDatabase

open Relational Relation List

variable {Columns : Type*} (cols : NetworkColumns Columns)

def isVirtual (name : String) : Bool :=
  interfaceType name true ∈ [.bridge, .linkAggregation, .vlan]

def interfaceNames (db : NetworkDatabase Columns) : List String :=
  db.interfaces.map InterfaceRow.intInterface

/-- Every VLAN, lagg and bridge row belongs to an interface row. -/
structure RowsRooted (db : NetworkDatabase Columns) : Prop where
  vlan : ∀ row ∈ db.vlan, cols.vlanVint row.columns ∈ db.interfaceNames
  lagg : ∀ row ∈ db.lagg, ∃ interface ∈ db.interfaces, interface.id = row.laggInterface
  bridge : ∀ row ∈ db.bridge, ∃ interface ∈ db.interfaces, row.interface = some interface.id

/-- Every VLAN parent, lagg port and bridge member that names a virtual
interface names an existing one. -/
structure ReferencesResolved (db : NetworkDatabase Columns) : Prop where
  vlanParents : ∀ row ∈ db.vlan, isVirtual (cols.vlanPint row.columns) →
    cols.vlanPint row.columns ∈ db.interfaceNames
  laggPorts : ∀ row ∈ db.laggmembers, isVirtual row.laggPhysnic →
    row.laggPhysnic ∈ db.interfaceNames
  bridgeMembers : ∀ row ∈ db.bridge, ∀ member ∈ cols.members row.columns,
    isVirtual member → member ∈ db.interfaceNames

/-- No interface that is still there has lost its VLAN, lagg or bridge row. -/
structure KeepsRows (db after : NetworkDatabase Columns) : Prop where
  vlan : ∀ interface ∈ after.interfaces,
    (∃ row ∈ db.vlan, cols.vlanVint row.columns = interface.intInterface) →
      ∃ row ∈ after.vlan, cols.vlanVint row.columns = interface.intInterface
  lagg : ∀ interface ∈ after.interfaces, (∃ row ∈ db.lagg, row.laggInterface = interface.id) →
      ∃ row ∈ after.lagg, row.laggInterface = interface.id
  bridge : ∀ interface ∈ after.interfaces, (∃ row ∈ db.bridge, row.interface = some interface.id) →
      ∃ row ∈ after.bridge, row.interface = some interface.id

def Below (db : NetworkDatabase Columns) (oid name : String) : Prop :=
  ReflTransGen db.PortOf oid name

/-- What makes a delete of `oid` leave something dangling. -/
inductive LeavesDangling (db : NetworkDatabase Columns) (oid : String) : Prop where
  | vlan {interface : InterfaceRow Columns} (hmem : interface ∈ db.interfaces)
      (hkept : ¬ db.Below oid interface.intInterface)
      (hvlan : ∃ row ∈ db.vlan, cols.vlanVint row.columns = interface.intInterface)
      (hparents : ∀ row ∈ db.vlan, cols.vlanVint row.columns = interface.intInterface →
          db.Below oid (cols.vlanPint row.columns))
  | lagg {interface : InterfaceRow Columns} {row : LaggRow Columns}
      {member : LaggMemberRow Columns} (hmem : interface ∈ db.interfaces)
      (hkept : ¬ db.Below oid interface.intInterface)
      (hrow : row ∈ db.lagg) (howner : row.laggInterface = interface.id)
      (hmember : member ∈ db.laggmembers)
      (hgroup : member.laggInterfacegroup = row.id)
      (hvirtual : isVirtual member.laggPhysnic)
      (hbelow : db.Below oid member.laggPhysnic)
  | bridge {interface : InterfaceRow Columns} {row : BridgeRow Columns}
      {member : String} (hmem : interface ∈ db.interfaces)
      (hkept : ¬ db.Below oid interface.intInterface)
      (hrow : row ∈ db.bridge) (howner : row.interface = some interface.id)
      (hmember : member ∈ cols.members row.columns)
      (hvirtual : isVirtual member) (hbelow : db.Below oid member)

/-! ## The tables without what is below -/

section

variable {db : NetworkDatabase Columns} {S : Finset String}

theorem mem_interfaceNames_pruned {name : String} : name ∈ (db.pruned cols S ∅).interfaceNames ↔
    name ∈ db.interfaceNames ∧ name ∉ S := by
  unfold interfaceNames pruned
  simp only [List.mem_map, mem_filter, decide_eq_true_eq]
  constructor
  · intro hrow
    obtain ⟨row, ⟨hrow, hname⟩, heq⟩ := hrow
    exact ⟨⟨row, hrow, heq⟩, heq ▸ hname⟩
  · intro hrow
    obtain ⟨⟨row, hrow, heq⟩, hname⟩ := hrow
    exact ⟨row, ⟨hrow, heq ▸ hname⟩, heq⟩

theorem Keyed.interfaceGone_iff (hkeyed : db.Keyed)
    {interface : InterfaceRow Columns} (hmem : interface ∈ db.interfaces) :
    db.InterfaceGone S interface.id ↔ interface.intInterface ∈ S := by
  constructor
  · intro hgone
    obtain ⟨other, hother, hname, hid⟩ := hgone
    rw [← hkeyed.interface_eq hother hmem hid]
    exact hname
  · exact fun hname => ⟨interface, hmem, hname, rfl⟩

theorem mem_interfaces_pruned {interface : InterfaceRow Columns} :
    interface ∈ (db.pruned cols S ∅).interfaces ↔
      interface ∈ db.interfaces ∧ interface.intInterface ∉ S := by
  unfold pruned
  rw [mem_filter, decide_eq_true_eq]

theorem mem_vlan_pruned {row : VlanRow Columns} : row ∈ (db.pruned cols S ∅).vlan ↔ row ∈ db.vlan ∧
    cols.vlanVint row.columns ∉ S ∧ cols.vlanPint row.columns ∉ S := by
  unfold pruned
  rw [mem_filter, decide_eq_true_eq]

theorem Keyed.mem_lagg_pruned (hkeyed : db.Keyed) {row : LaggRow Columns}
    {interface : InterfaceRow Columns} (hmem : interface ∈ db.interfaces)
    (howner : row.laggInterface = interface.id) :
    row ∈ (db.pruned cols S ∅).lagg ↔ row ∈ db.lagg ∧ interface.intInterface ∉ S := by
  unfold NetworkDatabase.pruned LaggGone
  rw [mem_filter, decide_eq_true_eq, howner, hkeyed.interfaceGone_iff hmem]
  simp

theorem Keyed.mem_bridge_pruned (hkeyed : db.Keyed) {row : BridgeRow Columns}
    {interface : InterfaceRow Columns} (hmem : interface ∈ db.interfaces)
    (howner : row.interface = some interface.id) :
    row ∈ (db.pruned cols S ∅).bridge ↔ row ∈ db.bridge ∧ interface.intInterface ∉ S := by
  unfold NetworkDatabase.pruned
  rw [mem_filter, decide_eq_true_eq, howner]
  simp only [Option.mem_def, Option.some.injEq, forall_eq', hkeyed.interfaceGone_iff hmem]

theorem rowsRooted_pruned (hkeyed : db.Keyed) (hrooted : db.RowsRooted cols) :
    (db.pruned cols S ∅).RowsRooted cols where
  vlan := by
    intro row hrow
    obtain ⟨hmem, hvint, _⟩ := (mem_vlan_pruned cols).mp hrow
    exact (mem_interfaceNames_pruned cols).mpr ⟨hrooted.vlan row hmem, hvint⟩
  lagg := by
    intro row hrow
    obtain ⟨interface, hmem, howner⟩ := hrooted.lagg row (mem_of_mem_filter hrow)
    have hkept := ((hkeyed.mem_lagg_pruned cols hmem howner.symm).mp hrow).2
    exact ⟨interface, (mem_interfaces_pruned cols).mpr ⟨hmem, hkept⟩, howner⟩
  bridge := by
    intro row hrow
    obtain ⟨interface, hmem, howner⟩ := hrooted.bridge row (mem_of_mem_filter hrow)
    have hkept := ((hkeyed.mem_bridge_pruned cols hmem howner).mp hrow).2
    exact ⟨interface, (mem_interfaces_pruned cols).mpr ⟨hmem, hkept⟩, howner⟩

variable {oid : String}

theorem sound_of_not_leavesDangling (hconsistent : db.Consistent)
    (hrooted : db.RowsRooted cols) (hresolved : db.ReferencesResolved cols)
    (hS : ∀ n, n ∈ S ↔ db.Below oid n)
    (hdangling : ¬ db.LeavesDangling cols oid) :
    (db.pruned cols S ∅).ReferencesResolved cols ∧ db.KeepsRows cols (db.pruned cols S ∅) := by
  have hkeyed := hconsistent.keyed
  constructor
  · constructor
    · intro row hrow hvirtual
      obtain ⟨hmem, _, hpint⟩ := (mem_vlan_pruned cols).mp hrow
      exact (mem_interfaceNames_pruned cols).mpr ⟨hresolved.vlanParents row hmem hvirtual, hpint⟩
    · intro member hrow hvirtual
      obtain ⟨hmember, hgroupKept⟩ := mem_filter.mp hrow
      rw [decide_eq_true_eq] at hgroupKept
      refine (mem_interfaceNames_pruned cols).mpr ⟨hresolved.laggPorts member hmember hvirtual, ?_⟩
      intro hbelow
      obtain ⟨row, hrow, hgroup⟩ := List.mem_map.mp
        (hconsistent.laggMemberGroups member hmember _ rfl)
      obtain ⟨interface, hmem, howner⟩ := hrooted.lagg row hrow
      refine hdangling (.lagg hmem ?_ hrow howner.symm hmember hgroup.symm
        hvirtual ((hS _).mp hbelow))
      intro hgone
      have hlagg : db.InterfaceGone S row.laggInterface :=
        howner ▸ (hkeyed.interfaceGone_iff hmem).mpr ((hS _).mpr hgone)
      exact hgroupKept ⟨row, hrow, Or.inl hlagg, hgroup⟩
    · intro row hrow member hmember hvirtual
      have hrow' := mem_of_mem_filter hrow
      refine (mem_interfaceNames_pruned cols).mpr
        ⟨hresolved.bridgeMembers row hrow' member hmember hvirtual, ?_⟩
      intro hbelow
      obtain ⟨interface, hmem, howner⟩ := hrooted.bridge row hrow'
      have hkept := ((hkeyed.mem_bridge_pruned cols hmem howner).mp hrow).2
      exact hdangling (.bridge hmem (fun hgone => hkept ((hS _).mpr hgone))
        hrow' howner hmember hvirtual ((hS _).mp hbelow))
  · constructor
    · intro interface hinterface hvlan
      obtain ⟨hmem, hkept⟩ := (mem_interfaces_pruned cols).mp hinterface
      by_contra hnone
      refine hdangling (.vlan hmem (fun hgone => hkept ((hS _).mpr hgone)) hvlan ?_)
      intro row hrow hvint
      by_contra hparent
      refine hnone ⟨row, (mem_vlan_pruned cols).mpr ⟨hrow, ?_, ?_⟩, hvint⟩
      · rw [hvint]
        exact hkept
      · exact fun hpint => hparent ((hS _).mp hpint)
    · intro interface hinterface hlagg
      obtain ⟨hmem, hkept⟩ := (mem_interfaces_pruned cols).mp hinterface
      obtain ⟨row, hrow, howner⟩ := hlagg
      exact ⟨row, (hkeyed.mem_lagg_pruned cols hmem howner).mpr ⟨hrow, hkept⟩, howner⟩
    · intro interface hinterface hbridge
      obtain ⟨hmem, hkept⟩ := (mem_interfaces_pruned cols).mp hinterface
      obtain ⟨row, hrow, howner⟩ := hbridge
      exact ⟨row, (hkeyed.mem_bridge_pruned cols hmem howner).mpr ⟨hrow, hkept⟩, howner⟩

theorem not_leavesDangling_of_sound (hconsistent : db.Consistent) (hS : ∀ n, n ∈ S ↔ db.Below oid n)
    (hresolved : (db.pruned cols S ∅).ReferencesResolved cols)
    (hkeeps : db.KeepsRows cols (db.pruned cols S ∅)) :
    ¬ db.LeavesDangling cols oid := by
  have hkeyed := hconsistent.keyed
  intro hdangling
  cases hdangling with
  | @vlan interface hmem hkept hvlan hparents =>
    have hinterface : interface ∈ (db.pruned cols S ∅).interfaces :=
      (mem_interfaces_pruned cols).mpr ⟨hmem, fun hgone => hkept ((hS _).mp hgone)⟩
    obtain ⟨row, hrow, hvint⟩ := hkeeps.vlan interface hinterface hvlan
    obtain ⟨hrow, _, hpint⟩ := (mem_vlan_pruned cols).mp hrow
    exact hpint ((hS _).mpr (hparents row hrow hvint))
  | @lagg interface row member hmem hkept hrow howner hmember hgroup hvirtual hbelow =>
      have hkept' : ¬ db.LaggGone S ∅ row := by
        unfold LaggGone
        rw [howner, hkeyed.interfaceGone_iff hmem, hS]
        simpa using hkept
      have hname := hresolved.laggPorts member
        (hkeyed.mem_members_pruned cols hrow hkept' hmember hgroup) hvirtual
      exact ((mem_interfaceNames_pruned cols).mp hname).2 ((hS _).mpr hbelow)
  | @bridge interface row member hmem hkept hrow howner hmember hvirtual hbelow =>
      have hrow' := (hkeyed.mem_bridge_pruned cols hmem howner).mpr
        ⟨hrow, fun hgone => hkept ((hS _).mp hgone)⟩
      have hname := hresolved.bridgeMembers row hrow' member hmember hvirtual
      exact ((mem_interfaceNames_pruned cols).mp hname).2 ((hS _).mpr hbelow)

end

/-- An accepted delete returns, whatever the fuel above the number of lagg
ports, and it leaves nothing dangling exactly when nothing that stays depends
on an interface that goes. -/
theorem doDelete_sound_iff {db : NetworkDatabase Columns}
    {failoverEnabled : Bool} {ports : Dict String Bool} {oid : String}
    (hconsistent : db.Consistent) (hrooted : db.RowsRooted cols)
    (hresolved : db.ReferencesResolved cols)
    (haccepted : checkDelete cols failoverEnabled ports db oid = .ok ()) :
    (∃ after, (∀ fuel, db.laggmembers.length < fuel →
        doDelete cols fuel failoverEnabled ports db oid = .ok (some after)) ∧
      after.RowsRooted cols ∧ after.ReferencesResolved cols ∧
      db.KeepsRows cols after) ↔ ¬ db.LeavesDangling cols oid := by
  have hkeyed := hconsistent.keyed
  obtain ⟨S, hS, hrun⟩ := deleteNetworkInterface_eq_pruned cols hkeyed oid
  have hdelete : ∀ fuel, db.laggmembers.length < fuel →
      doDelete cols fuel failoverEnabled ports db oid = .ok (some (db.pruned cols S ∅)) := by
    intro fuel hfuel
    unfold doDelete
    rw [haccepted]
    simp only [hrun fuel hfuel]
  constructor
  · intro hsound
    obtain ⟨after, hafter, _, hresolved', hkeeps⟩ := hsound
    have hlast := Nat.lt_succ_self db.laggmembers.length
    have heq : db.pruned cols S ∅ = after := by
      have hboth := (hdelete _ hlast).symm.trans (hafter _ hlast)
      rwa [Except.ok.injEq, Option.some.injEq] at hboth
    rw [← heq] at hresolved' hkeeps
    exact not_leavesDangling_of_sound cols hconsistent hS hresolved' hkeeps
  · intro hdangling
    have hsound := sound_of_not_leavesDangling cols hconsistent hrooted hresolved hS hdangling
    exact ⟨db.pruned cols S ∅, hdelete, rowsRooted_pruned cols hkeyed hrooted, hsound.1, hsound.2⟩

/-- The columns `vint` and `pint`, and the members of a bridge. -/
structure ReadColumns where
  vint : String
  pint : String
  members : List String
deriving DecidableEq

def readColumns : NetworkColumns ReadColumns where
  vlanVint := ReadColumns.vint
  vlanPint := ReadColumns.pint
  members := ReadColumns.members

def noColumns : ReadColumns := { vint := "", pint := "", members := [] }

/-- `vlan10` on `eno1`, and `bond0` over `eno2`. -/
def vlanOnPort : NetworkDatabase ReadColumns where
  interfaces := [
    { id := 1, intInterface := "eno1", columns := noColumns },
    { id := 2, intInterface := "vlan10", columns := noColumns },
    { id := 3, intInterface := "bond0", columns := noColumns }]
  aliases := []
  bridge := []
  vlan := [{ id := 4, columns :=
    { vint := "vlan10", pint := "eno1", members := [] } }]
  lagg := [{ id := 5, laggInterface := 3, columns := noColumns }]
  laggmembers := [
    { id := 6, laggInterfacegroup := 5, laggPhysnic := "eno2",
      columns := noColumns }]
  ipv4gateway := ""

def kernelPorts : Dict String Bool :=
  Dict.ofEntries [("eno1", false), ("eno2", false)]

theorem vlanOnPort_consistent : vlanOnPort.Consistent := by
  constructor <;> simp [vlanOnPort, Relational.Distinct, Relational.Refer]

theorem vlanOnPort_rowsRooted : vlanOnPort.RowsRooted readColumns := by
  constructor <;> simp [vlanOnPort, readColumns, interfaceNames]

theorem vlanOnPort_resolved : vlanOnPort.ReferencesResolved readColumns := by
  constructor <;> decide

theorem below_bond {name : String} (hbelow : vlanOnPort.Below "bond0" name) :
    name = "bond0" ∨ name = "eno2" := by
  cases hbelow with
  | refl => exact Or.inl rfl
  | tail _ hport =>
    obtain ⟨_, _, _, member, hmember, _, rfl⟩ := hport
    rw [mem_singleton.mp hmember]
    exact Or.inr rfl

theorem doDelete_sound_bond : ∃ after, (∀ fuel, vlanOnPort.laggmembers.length < fuel →
      doDelete readColumns fuel false kernelPorts vlanOnPort "bond0" = .ok (some after)) ∧
    after.RowsRooted readColumns ∧ after.ReferencesResolved readColumns ∧
    vlanOnPort.KeepsRows readColumns after := by
  refine (doDelete_sound_iff readColumns vlanOnPort_consistent vlanOnPort_rowsRooted
    vlanOnPort_resolved (by decide)).mpr ?_
  intro hdangling
  cases hdangling with
  | vlan _ _ hvlan hparents =>
    obtain ⟨row, hrow, hvint⟩ := hvlan
    have hbelow := hparents row hrow hvint
    rw [mem_singleton.mp hrow] at hbelow
    rcases below_bond hbelow with heq | heq
    · exact absurd heq (by decide)
    · exact absurd heq (by decide)
  | lagg _ _ _ _ hmember _ hvirtual _ =>
    rw [mem_singleton.mp hmember] at hvirtual
    exact absurd hvirtual (by decide)
  | bridge _ _ hrow => cases hrow

/-- The VLAN of the deleted parent is gone, its interface row is not. -/
theorem vlan_interface_orphaned :
    vlanOnPort.Consistent ∧ vlanOnPort.RowsRooted readColumns ∧
      vlanOnPort.ReferencesResolved readColumns ∧
      checkDelete readColumns false kernelPorts vlanOnPort "eno1" = .ok () ∧
      ¬ ∃ after,
        (∀ fuel, vlanOnPort.laggmembers.length < fuel →
          doDelete readColumns fuel false kernelPorts vlanOnPort "eno1" =
            .ok (some after)) ∧
        after.RowsRooted readColumns ∧ after.ReferencesResolved readColumns ∧
        vlanOnPort.KeepsRows readColumns after := by
  refine ⟨vlanOnPort_consistent, vlanOnPort_rowsRooted, vlanOnPort_resolved,
    by decide, ?_⟩
  intro hsound
  obtain ⟨after, hafter, _, _, hkeeps⟩ := hsound
  have hrun : doDelete readColumns 2 false kernelPorts vlanOnPort "eno1" =
      .ok (some { vlanOnPort with
        interfaces := [
          { id := 2, intInterface := "vlan10", columns := noColumns },
          { id := 3, intInterface := "bond0", columns := noColumns }]
        vlan := [] }) := by decide
  have heq := hrun.symm.trans (hafter 2 (by decide))
  rw [Except.ok.injEq, Option.some.injEq] at heq
  subst heq
  obtain ⟨row, hrow, _⟩ := hkeeps.vlan
    { id := 2, intInterface := "vlan10", columns := noColumns } (by simp)
    ⟨{ id := 4, columns :=
      { vint := "vlan10", pint := "eno1", members := [] } },
      by simp [vlanOnPort], rfl⟩
  exact not_mem_nil hrow

end Middlewared.NetworkDatabase
