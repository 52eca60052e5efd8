import Middlewared.NetworkRollback
import Middlewared.Dict
import Middlewared.PyString
import Middlewared.FiniteReachability

/-!
# What a delete removes

`pruned` takes a set of interfaces out of the tables in one step, with everything that names or
refers to them.
-/

namespace Middlewared

open List Option

/-! ## `delete_network_interface` -/

structure NetworkColumns (Columns : Type*) where
  vlanVint : Columns → String
  vlanPint : Columns → String
  members : Columns → List String

namespace NetworkDatabase

variable {Columns : Type*} (cols : NetworkColumns Columns)

/-- `[('lagg_interface__int_interface', '=', oid)]` -/
def laggsOf (db : NetworkDatabase Columns) (oid : String) :
    List (LaggRow Columns) :=
  db.lagg.filter fun row =>
    (db.joinedInterface row.laggInterface).map InterfaceRow.intInterface = some oid

/-- `[('lagg_interfacegroup', '=', group)]` -/
def membersOf (db : NetworkDatabase Columns) (group : ℕ) :
    List (LaggMemberRow Columns) :=
  db.laggmembers.filter fun row => row.laggInterfacegroup = group

def deleteMembers
    (delete : NetworkDatabase Columns → String → Option (NetworkDatabase Columns))
    (parents : Finset String) (db : NetworkDatabase Columns)
    (members : List (LaggMemberRow Columns)) : Option (NetworkDatabase Columns) :=
  members.foldlM (fun db member =>
    if member.laggPhysnic ∈ parents then some db
    else delete db member.laggPhysnic) db

def deleteLaggs
    (delete : NetworkDatabase Columns → String → Option (NetworkDatabase Columns))
    (parents : Finset String) (db : NetworkDatabase Columns)
    (laggs : List (LaggRow Columns)) : Option (NetworkDatabase Columns) :=
  laggs.foldlM (fun db lagg => do
    let db ← deleteMembers delete parents db (db.membersOf lagg.id)
    db.call (.deleteLagg fun row => row.id = lagg.id)) db

/-- `delete_network_interface`, at most `fuel` calls deep; `none` once the fuel
is used up. -/
def deleteNetworkInterface : ℕ → Finset String → NetworkDatabase Columns →
    String → Option (NetworkDatabase Columns)
  | 0, _, _, _ => none
  | fuel + 1, parents, db, oid => do
    let parents := insert oid parents
    let db ← deleteLaggs (deleteNetworkInterface fuel parents) parents db
      (db.laggsOf oid)
    let db ← db.call (.deleteVlan fun row => cols.vlanPint row.columns = oid)
    let db ← db.call (.deleteVlan fun row => cols.vlanVint row.columns = oid)
    db.call (.deleteInterface fun row => row.intInterface = oid)

inductive InterfaceType where
  | bridge
  | linkAggregation
  | physical
  | unknown
  | vlan
deriving DecidableEq

/-- `interface.type` -/
def interfaceType (name : String) (cloned : Bool) : InterfaceType :=
  if PyString.startsWith name "br" then .bridge
  else if PyString.startsWith name "bond" then .linkAggregation
  else if PyString.startsWith name "vlan" then .vlan
  else if !cloned then .physical
  else .unknown

/-- `vlan_parent_interface`: the parent in the first VLAN row of the name. -/
def vlanParentInterface (db : NetworkDatabase Columns) (name : String) :
    Option String :=
  (db.vlan.find? fun row => cols.vlanVint row.columns = name).map fun row =>
    cols.vlanPint row.columns

/-- The interfaces that the filter of `do_delete` selects: of an interface
without a row the query does not read a parent. -/
def dependentVlans (db : NetworkDatabase Columns) (oid : String) :
    List String :=
  (db.interfaces.filter fun row =>
    interfaceType row.intInterface true = .vlan ∧
      db.vlanParentInterface cols row.intInterface = some oid).map
    InterfaceRow.intInterface

inductive DeleteError where
  | matchNotFound
  | validation (errors : List (String × String))
deriving DecidableEq

/-- The checks of `do_delete`.  `ports` are the interfaces of the kernel that
`interface.query` lists, each with its `cloned`; an interface that has only a
row counts as cloned. -/
def checkDelete (failoverEnabled : Bool) (ports : Dict String Bool)
    (db : NetworkDatabase Columns) (oid : String) : Except DeleteError Unit :=
  let failover := if failoverEnabled then
    [("interface.delete", "Failover must be disabled.")] else []
  if oid ∉ ports.keys ∧ oid ∉ db.interfaces.map InterfaceRow.intInterface then
    .error .matchNotFound
  else
    let vlans := db.dependentVlans cols oid
    let depend :=
      if interfaceType oid ((ports.get? oid).getD true) = .linkAggregation ∧ vlans ≠ [] then
        [("interface.delete", "The following VLANs depend on this interface: " ++
          String.intercalate ", " vlans)]
      else []
    if failover ++ depend = [] then .ok ()
    else .error (.validation (failover ++ depend))

/-- `do_delete`; what `__save_datastores` remembers is not in these tables. -/
def doDelete (fuel : ℕ) (failoverEnabled : Bool) (ports : Dict String Bool)
    (db : NetworkDatabase Columns) (oid : String) :
    Except DeleteError (Option (NetworkDatabase Columns)) :=
  match checkDelete cols failoverEnabled ports db oid with
  | .error error => .error error
  | .ok () => .ok (deleteNetworkInterface cols fuel ∅ db oid)

end NetworkDatabase

end Middlewared

namespace Middlewared.NetworkDatabase

open Relational Relation List Option

variable {Columns : Type*} (cols : NetworkColumns Columns)

/-! ## Pruning -/

section

variable (db : NetworkDatabase Columns) (S T : Finset String) (L M : Finset ℕ)

def InterfaceGone (key : ℕ) : Prop :=
  ∃ row ∈ db.interfaces, row.intInterface ∈ S ∧ row.id = key

instance (key : ℕ) : Decidable (db.InterfaceGone S key) :=
  inferInstanceAs (Decidable (∃ row ∈ db.interfaces, _))

def LaggGone (row : LaggRow Columns) : Prop :=
  db.InterfaceGone S row.laggInterface ∨ row.id ∈ L

instance (row : LaggRow Columns) : Decidable (db.LaggGone S L row) :=
  inferInstanceAs (Decidable (_ ∨ _))

def GroupGone (key : ℕ) : Prop :=
  ∃ row ∈ db.lagg, db.LaggGone S L row ∧ row.id = key

instance (key : ℕ) : Decidable (db.GroupGone S L key) :=
  inferInstanceAs (Decidable (∃ row ∈ db.lagg, _))

/-- The tables without the interfaces `S` and the link aggregations `L`. -/
def pruned : NetworkDatabase Columns :=
  { db with
    interfaces := db.interfaces.filter fun row => row.intInterface ∉ S
    aliases := db.aliases.filter fun row => ¬ db.InterfaceGone S row.aliasInterface
    bridge := db.bridge.filter fun row =>
      ∀ key ∈ row.interface, ¬ db.InterfaceGone S key
    vlan := db.vlan.filter fun row =>
      cols.vlanVint row.columns ∉ S ∧ cols.vlanPint row.columns ∉ S
    lagg := db.lagg.filter fun row => ¬ db.LaggGone S L row
    laggmembers := db.laggmembers.filter fun row =>
      ¬ db.GroupGone S L row.laggInterfacegroup }

theorem interfaceGone_union (key : ℕ) : db.InterfaceGone (S ∪ T) key ↔
    db.InterfaceGone S key ∨ (db.pruned cols S L).InterfaceGone T key := by
  constructor
  · intro hgone
    obtain ⟨row, hrow, hname, hid⟩ := hgone
    by_cases hfirst : row.intInterface ∈ S
    · exact Or.inl ⟨row, hrow, hfirst, hid⟩
    · refine Or.inr ⟨row, ?_, (Finset.mem_union.mp hname).resolve_left hfirst, hid⟩
      exact mem_filter.mpr ⟨hrow, by simpa using hfirst⟩
  · intro hgone
    rcases hgone with hgone | hgone
    · obtain ⟨row, hrow, hname, hid⟩ := hgone
      exact ⟨row, hrow, Finset.mem_union_left T hname, hid⟩
    · obtain ⟨row, hrow, hname, hid⟩ := hgone
      exact ⟨row, mem_of_mem_filter hrow, Finset.mem_union_right S hname, hid⟩

theorem laggGone_union (row : LaggRow Columns) : db.LaggGone (S ∪ T) (L ∪ M) row ↔
    db.LaggGone S L row ∨ (db.pruned cols S L).LaggGone T M row := by
  unfold LaggGone
  rw [interfaceGone_union cols db S T L, Finset.mem_union]
  tauto

theorem groupGone_union (key : ℕ) : db.GroupGone (S ∪ T) (L ∪ M) key ↔
    db.GroupGone S L key ∨ (db.pruned cols S L).GroupGone T M key := by
  constructor
  · intro hgone
    obtain ⟨row, hrow, hgone, hid⟩ := hgone
    rcases (laggGone_union cols db S T L M row).mp hgone with hfirst | hsecond
    · exact Or.inl ⟨row, hrow, hfirst, hid⟩
    · by_cases hfirst : db.LaggGone S L row
      · exact Or.inl ⟨row, hrow, hfirst, hid⟩
      · refine Or.inr ⟨row, ?_, hsecond, hid⟩
        exact mem_filter.mpr ⟨hrow, by simpa using hfirst⟩
  · intro hgone
    rcases hgone with hgone | hgone
    · obtain ⟨row, hrow, hgone, hid⟩ := hgone
      exact ⟨row, hrow, (laggGone_union cols db S T L M row).mpr (Or.inl hgone), hid⟩
    · obtain ⟨row, hrow, hgone, hid⟩ := hgone
      exact ⟨row, mem_of_mem_filter hrow,
        (laggGone_union cols db S T L M row).mpr (Or.inr hgone), hid⟩

theorem pruned_pruned : (db.pruned cols S L).pruned cols T M = db.pruned cols (S ∪ T) (L ∪ M) := by
  have hinterface := interfaceGone_union cols db S T L
  have hlagg := laggGone_union cols db S T L M
  have hgroup := groupGone_union cols db S T L M
  unfold pruned
  unfold pruned at hinterface hlagg hgroup
  simp only [List.filter_filter, hinterface, hlagg, hgroup, Finset.mem_union,
    NetworkDatabase.mk.injEq, not_or, Bool.decide_and, and_true]
  refine ⟨?_, ?_, ?_, ?_, ?_, ?_⟩
  · apply filter_congr
    intro row _
    rw [Bool.and_comm]
  · apply filter_congr
    intro row _
    rw [Bool.and_comm]
  · apply filter_congr
    intro row _
    cases row.interface <;> simp [Bool.and_comm]
  · apply filter_congr
    intro row _
    simp only [Bool.and_assoc, Bool.and_comm, Bool.and_left_comm]
  · apply filter_congr
    intro row _
    rw [Bool.and_comm]
  · apply filter_congr
    intro row _
    rw [Bool.and_comm]

theorem not_interfaceGone_empty (key : ℕ) : ¬ db.InterfaceGone ∅ key := by
  intro hgone
  obtain ⟨row, _, hname, _⟩ := hgone
  exact Finset.notMem_empty _ hname

theorem dropLagg_eq_pruned (k : ℕ) :
    db.dropLagg (fun row => row.id = k) = db.pruned cols ∅ {k} := by
  have hlagg : ∀ row, db.LaggGone ∅ {k} row ↔ row.id = k := by
    unfold LaggGone
    simp [not_interfaceGone_empty]
  have hgroup : ∀ key, db.GroupGone ∅ {k} key ↔
      key ∈ (db.lagg.filter fun row => row.id = k).map LaggRow.id := by
    unfold GroupGone
    simp [hlagg, and_assoc]
  unfold dropLagg pruned
  simp only [cascade_some, hlagg, hgroup, not_interfaceGone_empty, Finset.notMem_empty,
    not_false_eq_true, implies_true, and_self, decide_true, filter_true,
    decide_not]

theorem deleteStatements_eq_pruned (oid : String) :
    (do
      let db ← db.call (.deleteVlan fun row => cols.vlanPint row.columns = oid)
      let db ← db.call (.deleteVlan fun row => cols.vlanVint row.columns = oid)
      db.call (.deleteInterface fun row => row.intInterface = oid)) =
      some (db.pruned cols {oid} ∅) := by
  have hinterface : ∀ key, db.InterfaceGone {oid} key ↔
      key ∈ (db.interfaces.filter fun row => row.intInterface = oid).map InterfaceRow.id := by
    unfold InterfaceGone
    simp [and_assoc]
  have hlagg : ∀ row, db.LaggGone {oid} ∅ row ↔ row.laggInterface ∈
        (db.interfaces.filter fun row => row.intInterface = oid).map InterfaceRow.id := by
    intro row
    unfold LaggGone
    simp only [hinterface, Finset.notMem_empty, or_false]
  have hgroup : ∀ key, db.GroupGone {oid} ∅ key ↔
      key ∈ (db.lagg.filter fun row => decide (row.laggInterface ∈
        (db.interfaces.filter fun row => row.intInterface = oid).map
          InterfaceRow.id)).map LaggRow.id := by
    intro key
    unfold GroupGone
    simp only [hlagg, List.mem_map, mem_filter, decide_eq_true_eq, and_assoc]
  simp only [call, bind_eq_bind, bind_some, some.injEq]
  unfold dropInterfaces pruned
  simp only [cascade_some, hinterface, hlagg, hgroup, NetworkDatabase.mk.injEq,
    Finset.mem_singleton, decide_not, List.filter_filter, true_and, and_true]
  refine ⟨?_, ?_⟩
  · unfold cascade
    apply filter_congr
    intro row _
    cases row.interface <;> simp
  · apply filter_congr
    simp

theorem pruned_absorb {S : Finset String} {L : Finset ℕ}
    (hlaggs : ∀ row ∈ db.lagg, row.id ∈ L → db.InterfaceGone S row.laggInterface) :
    db.pruned cols S L = db.pruned cols S ∅ := by
  have hlagg : ∀ row ∈ db.lagg, (db.LaggGone S L row ↔ db.LaggGone S ∅ row) := by
    intro row hrow
    unfold LaggGone
    have hrow := hlaggs row hrow
    simp only [Finset.notMem_empty, or_false, or_iff_left_iff_imp]
    exact hrow
  have hgroup : ∀ key, (db.GroupGone S L key ↔ db.GroupGone S ∅ key) := by
    intro key
    constructor
    · intro hgone
      obtain ⟨row, hrow, hgone, hid⟩ := hgone
      exact ⟨row, hrow, (hlagg row hrow).mp hgone, hid⟩
    · intro hgone
      obtain ⟨row, hrow, hgone, hid⟩ := hgone
      exact ⟨row, hrow, (hlagg row hrow).mpr hgone, hid⟩
  unfold pruned
  simp only [hgroup, NetworkDatabase.mk.injEq, true_and, and_true]
  apply filter_congr
  intro row hrow
  simp only [hlagg row hrow]

end

/-! ## Ports below an interface -/

section

variable {db : NetworkDatabase Columns} {S T : Finset String} {L : Finset ℕ}

/-- The link aggregation is the interface `n`. -/
def Owns (db : NetworkDatabase Columns) (n : String) (lagg : LaggRow Columns) :
    Prop :=
  ∃ interface ∈ db.interfaces, interface.intInterface = n ∧ interface.id = lagg.laggInterface

/-- `m` is a port of the link aggregation `n`. -/
def PortOf (db : NetworkDatabase Columns) (n m : String) : Prop :=
  ∃ lagg ∈ db.lagg, db.Owns n lagg ∧ ∃ member ∈ db.laggmembers,
    member.laggInterfacegroup = lagg.id ∧ member.laggPhysnic = m

def physnics (db : NetworkDatabase Columns) : Finset String :=
  (db.laggmembers.map LaggMemberRow.laggPhysnic).toFinset

structure Keyed (db : NetworkDatabase Columns) : Prop where
  interfaceIds : Distinct InterfaceRow.id db.interfaces
  laggIds : Distinct LaggRow.id db.lagg

theorem Consistent.keyed (hconsistent : db.Consistent) : db.Keyed :=
  ⟨hconsistent.interfaceIds, hconsistent.laggIds⟩

theorem Keyed.pruned (hkeyed : db.Keyed) (S : Finset String) (L : Finset ℕ) :
    (db.pruned cols S L).Keyed :=
  ⟨hkeyed.interfaceIds.filter _, hkeyed.laggIds.filter _⟩

theorem Keyed.interface_eq (hkeyed : db.Keyed) {row other : InterfaceRow Columns}
    (hrow : row ∈ db.interfaces) (hother : other ∈ db.interfaces)
    (hid : row.id = other.id) : row = other :=
  inj_on_of_nodup_map hkeyed.interfaceIds hrow hother hid

theorem Keyed.lagg_eq (hkeyed : db.Keyed) {row other : LaggRow Columns}
    (hrow : row ∈ db.lagg) (hother : other ∈ db.lagg)
    (hid : row.id = other.id) : row = other :=
  inj_on_of_nodup_map hkeyed.laggIds hrow hother hid

variable {lagg : LaggRow Columns}

theorem mem_laggsOf (hkeyed : db.Keyed) {oid : String} :
    lagg ∈ db.laggsOf oid ↔ lagg ∈ db.lagg ∧ db.Owns oid lagg := by
  unfold laggsOf Owns joinedInterface
  rw [mem_filter, decide_eq_true_eq]
  refine and_congr_right fun _ => ?_
  constructor
  · intro hname
    obtain ⟨row, hfind, hname⟩ := map_eq_some_iff.mp hname
    refine ⟨row, mem_of_find?_eq_some hfind, hname, ?_⟩
    simpa using find?_some hfind
  · intro howns
    obtain ⟨row, hrow, hname, hid⟩ := howns
    have hfind : (db.interfaces.find? fun other =>
        other.id = lagg.laggInterface).isSome := by
      rw [find?_isSome]
      exact ⟨row, hrow, by simpa using hid⟩
    obtain ⟨other, hother⟩ := isSome_iff_exists.mp hfind
    have hsame : other = row := by
      apply hkeyed.interface_eq (mem_of_find?_eq_some hother) hrow
      have hkey : other.id = lagg.laggInterface := by
        simpa using find?_some hother
      rw [hkey, hid]
    rw [hother, hsame, map_some, hname]

theorem interfaceGone_iff_owns :
    db.InterfaceGone S lagg.laggInterface ↔ ∃ n ∈ S, db.Owns n lagg := by
  constructor
  · intro hgone
    obtain ⟨row, hrow, hname, hid⟩ := hgone
    exact ⟨row.intInterface, hname, row, hrow, rfl, hid⟩
  · intro howns
    obtain ⟨n, hn, row, hrow, rfl, hid⟩ := howns
    exact ⟨row, hrow, hn, hid⟩

variable {n m : String}

theorem Keyed.owns_unique (hkeyed : db.Keyed) (hn : db.Owns n lagg)
    (hm : db.Owns m lagg) : n = m := by
  obtain ⟨row, hrow, rfl, hid⟩ := hn
  obtain ⟨other, hother, rfl, hid'⟩ := hm
  rw [hkeyed.interface_eq hrow hother (hid.trans hid'.symm)]

theorem PortOf.of_pruned (hport : (db.pruned cols S L).PortOf n m) : db.PortOf n m := by
  obtain ⟨lagg, hlagg, howns, member, hmember, hgroup⟩ := hport
  obtain ⟨row, hrow, hname⟩ := howns
  exact ⟨lagg, mem_of_mem_filter hlagg, ⟨row, mem_of_mem_filter hrow, hname⟩, member,
    mem_of_mem_filter hmember, hgroup⟩

theorem Keyed.mem_members_pruned (hkeyed : db.Keyed) (hlagg : lagg ∈ db.lagg)
    (hkept : ¬ db.LaggGone S L lagg) {member : LaggMemberRow Columns}
    (hmember : member ∈ db.laggmembers)
    (hgroup : member.laggInterfacegroup = lagg.id) :
    member ∈ (db.pruned cols S L).laggmembers := by
  apply mem_filter.mpr
  refine ⟨hmember, ?_⟩
  rw [decide_eq_true_eq]
  intro hgone
  obtain ⟨other, hother, hgone, hid⟩ := hgone
  rw [hkeyed.lagg_eq hother hlagg (hid.trans hgroup)] at hgone
  exact hkept hgone

theorem PortOf.pruned (hkeyed : db.Keyed) (hport : db.PortOf n m) (hn : n ∉ S)
    (hL : ∀ lagg ∈ db.lagg, lagg.id ∈ L → ¬ db.Owns n lagg) :
    (db.pruned cols S L).PortOf n m := by
  obtain ⟨lagg, hlagg, howns, member, hmember, hgroup, hname⟩ := hport
  have hkept : ¬ db.LaggGone S L lagg := by
    intro hgone
    rcases hgone with hgone | hgone
    · obtain ⟨other, hother, hother'⟩ := interfaceGone_iff_owns.mp hgone
      exact hn (hkeyed.owns_unique hother' howns ▸ hother)
    · exact hL lagg hlagg hgone howns
  refine ⟨lagg, mem_filter.mpr ⟨hlagg, by simpa using hkept⟩, ?_, member,
    hkeyed.mem_members_pruned cols hlagg hkept hmember hgroup, hgroup, hname⟩
  obtain ⟨row, hrow, hrowName, hid⟩ := howns
  refine ⟨row, mem_filter.mpr ⟨hrow, ?_⟩, hrowName, hid⟩
  simpa [hrowName] using hn

theorem PortOf.mem_physnics (hport : db.PortOf n m) : m ∈ db.physnics := by
  obtain ⟨_, _, _, member, hmember, _, rfl⟩ := hport
  exact List.mem_toFinset.mpr (List.mem_map_of_mem hmember)

theorem physnics_pruned_subset : (db.pruned cols S L).physnics ⊆ db.physnics := by
  intro name hname
  obtain ⟨member, hmember, rfl⟩ := List.mem_map.mp (List.mem_toFinset.mp hname)
  exact List.mem_toFinset.mpr (List.mem_map_of_mem (mem_of_mem_filter hmember))

end

/-! ## A delete prunes what is below -/

/-- `S` is what a delete of `oid` takes out when the interfaces `parents` are
being deleted around it. -/
structure Removes (db : NetworkDatabase Columns) (parents : Finset String)
    (oid : String) (S : Finset String) : Prop where
  mem : oid ∈ S
  avoids : ∀ n ∈ S, n ∉ parents
  reach : ∀ n ∈ S, ReflTransGen db.PortOf oid n
  closed : ∀ n ∈ S, ∀ m, db.PortOf n m → m ∈ S ∨ m ∈ parents

/-- The tables `d` while the link aggregations of `oid` are deleted: `S` are the
interfaces that went so far and `L` the link aggregations. -/
structure Progress (db : NetworkDatabase Columns) (parents : Finset String)
    (oid : String) (d : NetworkDatabase Columns) (S : Finset String)
    (L : Finset ℕ) : Prop where
  tables : d = db.pruned cols S L
  avoids : ∀ n ∈ S, n ∉ parents
  reach : ∀ n ∈ S, ReflTransGen db.PortOf oid n
  closed : ∀ n ∈ S, ∀ m, db.PortOf n m → m ∈ S ∨ m ∈ parents
  laggs : ∀ lagg ∈ db.lagg, lagg.id ∈ L → db.Owns oid lagg

section

variable {db d : NetworkDatabase Columns} {parents : Finset String}
  {oid : String} {S : Finset String} {L : Finset ℕ}

theorem Progress.removed (hkeyed : db.Keyed)
    (hprogress : Progress cols db parents oid d S L) (hoid : oid ∈ parents)
    {m : String} (hport : db.PortOf oid m) {T : Finset String}
    (hremoves : Removes d parents m T) :
    Progress cols db parents oid (d.pruned cols T ∅) (S ∪ T) L where
  tables := by
    rw [hprogress.tables, pruned_pruned, Finset.union_empty]
  avoids := by
    intro n hn
    rcases Finset.mem_union.mp hn with hn | hn
    · exact hprogress.avoids n hn
    · exact hremoves.avoids n hn
  reach := by
    intro n hn
    rcases Finset.mem_union.mp hn with hn | hn
    · exact hprogress.reach n hn
    · have hsame : ∀ a b, d.PortOf a b → db.PortOf a b := by
        intro a b hab
        rw [hprogress.tables] at hab
        exact hab.of_pruned cols
      exact ReflTransGen.head hport (ReflTransGen.mono hsame _ _ (hremoves.reach n hn))
  closed := by
    intro n hn k hnk
    by_cases hS : n ∈ S
    · rcases hprogress.closed n hS k hnk with hk | hk
      · exact Or.inl (Finset.mem_union_left T hk)
      · exact Or.inr hk
    · have hT : n ∈ T := (Finset.mem_union.mp hn).resolve_left hS
      have hstill : d.PortOf n k := by
        rw [hprogress.tables]
        apply hnk.pruned cols hkeyed hS
        intro lagg hlagg hL howns
        have heq : n = oid := hkeyed.owns_unique howns (hprogress.laggs lagg hlagg hL)
        exact hremoves.avoids n hT (heq ▸ hoid)
      rcases hremoves.closed n hT k hstill with hk | hk
      · exact Or.inl (Finset.mem_union_right S hk)
      · exact Or.inr hk
  laggs := hprogress.laggs

theorem Progress.laggDeleted (hprogress : Progress cols db parents oid d S L)
    {lagg : LaggRow Columns} (hlagg : lagg ∈ db.lagg) (howns : db.Owns oid lagg)
    (hkeyed : db.Keyed) :
    Progress cols db parents oid (d.dropLagg fun row => row.id = lagg.id) S (L ∪ {lagg.id}) :=
  { hprogress with
  tables := by
    rw [dropLagg_eq_pruned cols, hprogress.tables, pruned_pruned, Finset.union_empty]
  laggs := by
    intro other hother hid
    rcases Finset.mem_union.mp hid with hid | hid
    · exact hprogress.laggs other hother hid
    · rw [hkeyed.lagg_eq hother hlagg (Finset.mem_singleton.mp hid)]
      exact howns }

variable {delete : NetworkDatabase Columns → String →
    Option (NetworkDatabase Columns)}

def Deletes (db : NetworkDatabase Columns) (parents : Finset String)
    (delete : NetworkDatabase Columns → String → Option (NetworkDatabase Columns)) : Prop :=
  ∀ d m, d.Keyed → d.physnics ⊆ db.physnics → m ∈ db.physnics → m ∉ parents →
    ∃ T, delete d m = some (d.pruned cols T ∅) ∧ Removes d parents m T

theorem deleteMembers_progress (hkeyed : db.Keyed) (hoid : oid ∈ parents)
    (hdelete : Deletes cols db parents delete)
    (members : List (LaggMemberRow Columns))
    (hports : ∀ member ∈ members, db.PortOf oid member.laggPhysnic)
    (hprogress : Progress cols db parents oid d S L) :
    ∃ d' S', deleteMembers delete parents d members = some d' ∧
      Progress cols db parents oid d' S' L ∧ S ⊆ S' ∧ ∀ member ∈ members,
          member.laggPhysnic ∈ S' ∨ member.laggPhysnic ∈ parents := by
  induction members generalizing d S with
  | nil => exact ⟨d, S, rfl, hprogress, Finset.Subset.refl S, by simp⟩
  | cons member rest ih =>
    rw [forall_mem_cons] at hports
    unfold deleteMembers at ih ⊢
    rw [foldlM_cons]
    by_cases hskip : member.laggPhysnic ∈ parents
    · obtain ⟨d', S', hrun, hprogress', hsub, hrest⟩ := ih hports.2 hprogress
      refine ⟨d', S', ?_, hprogress', hsub, ?_⟩
      · rw [if_pos hskip]
        exact hrun
      · rw [forall_mem_cons]
        exact ⟨Or.inr hskip, hrest⟩
    · have hphysnics : d.physnics ⊆ db.physnics := by
        rw [hprogress.tables]
        exact physnics_pruned_subset cols
      have hkeyed' : d.Keyed := by
        rw [hprogress.tables]
        exact hkeyed.pruned cols S L
      obtain ⟨T, hcall, hremoves⟩ := hdelete d member.laggPhysnic hkeyed'
        hphysnics hports.1.mem_physnics hskip
      have hnext := hprogress.removed cols hkeyed hoid hports.1 hremoves
      obtain ⟨d', S', hrun, hprogress', hsub, hrest⟩ := ih hports.2 hnext
      refine ⟨d', S', ?_, hprogress', Finset.subset_union_left.trans hsub, ?_⟩
      · rw [if_neg hskip, hcall]
        exact hrun
      · rw [forall_mem_cons]
        have hmem := hsub (Finset.mem_union_right S hremoves.mem)
        exact ⟨Or.inl hmem, hrest⟩

theorem deleteLaggs_progress (hkeyed : db.Keyed) (hoid : oid ∈ parents)
    (hdelete : Deletes cols db parents delete)
    (laggs : List (LaggRow Columns)) (hdistinct : Distinct LaggRow.id laggs)
    (hlaggs : ∀ lagg ∈ laggs, lagg ∈ db.lagg ∧ db.Owns oid lagg ∧ lagg.id ∉ L)
    (hprogress : Progress cols db parents oid d S L) :
    ∃ d' S' L', deleteLaggs delete parents d laggs = some d' ∧
      Progress cols db parents oid d' S' L' ∧ S ⊆ S' ∧ ∀ lagg ∈ laggs, ∀ member ∈ db.laggmembers,
          member.laggInterfacegroup = lagg.id →
            member.laggPhysnic ∈ S' ∨ member.laggPhysnic ∈ parents := by
  induction laggs generalizing d S L with
  | nil => exact ⟨d, S, L, rfl, hprogress, Finset.Subset.refl S, by simp⟩
  | cons lagg rest ih =>
    rw [forall_mem_cons] at hlaggs
    obtain ⟨hlagg, howns, hL⟩ := hlaggs.1
    unfold Distinct at hdistinct ih
    rw [map_cons, nodup_cons] at hdistinct
    -- the link aggregation is still there, and so are all its ports
    have hkept : ¬ db.LaggGone S L lagg := by
      intro hgone
      rcases hgone with hgone | hgone
      · obtain ⟨n, hn, hnOwns⟩ := interfaceGone_iff_owns.mp hgone
        have heq : n = oid := hkeyed.owns_unique hnOwns howns
        exact hprogress.avoids n hn (heq ▸ hoid)
      · exact hL hgone
    have hmembers : ∀ member ∈ db.laggmembers, member.laggInterfacegroup = lagg.id →
          member ∈ d.membersOf lagg.id := by
      intro member hmember hgroup
      apply mem_filter.mpr
      refine ⟨?_, by simpa using hgroup⟩
      rw [hprogress.tables]
      exact hkeyed.mem_members_pruned cols hlagg hkept hmember hgroup
    have hports : ∀ member ∈ d.membersOf lagg.id, db.PortOf oid member.laggPhysnic := by
      intro member hmember
      obtain ⟨hmember, hgroup⟩ := mem_filter.mp hmember
      rw [hprogress.tables] at hmember
      exact ⟨lagg, hlagg, howns, member, mem_of_mem_filter hmember, by simpa using hgroup, rfl⟩
    obtain ⟨d₁, S₁, hrun₁, hprogress₁, hsub₁, hdone₁⟩ :=
      deleteMembers_progress cols hkeyed hoid hdelete (d.membersOf lagg.id) hports hprogress
    have hprogress₂ := hprogress₁.laggDeleted cols hlagg howns hkeyed
    have hrest : ∀ other ∈ rest, other ∈ db.lagg ∧ db.Owns oid other ∧
        other.id ∉ L ∪ {lagg.id} := by
      intro other hother
      obtain ⟨hmem, hownsOther, hnot⟩ := hlaggs.2 other hother
      refine ⟨hmem, hownsOther, ?_⟩
      intro hid
      rcases Finset.mem_union.mp hid with hid | hid
      · exact hnot hid
      · rw [Finset.mem_singleton] at hid
        exact hdistinct.1 (hid ▸ List.mem_map_of_mem hother)
    obtain ⟨d', S', L', hrun, hprogress', hsub, hdone⟩ := ih hdistinct.2 hrest hprogress₂
    refine ⟨d', S', L', ?_, hprogress', hsub₁.trans hsub, ?_⟩
    · unfold deleteLaggs at hrun ⊢
      rw [foldlM_cons]
      simp only [hrun₁, bind_eq_bind, bind_some, call]
      exact hrun
    · rw [forall_mem_cons]
      refine ⟨?_, hdone⟩
      intro member hmember hgroup
      rcases hdone₁ member (hmembers member hmember hgroup) with hin | hin
      · exact Or.inl (hsub hin)
      · exact Or.inr hin

theorem Progress.removes (hkeyed : db.Keyed) (hnot : oid ∉ parents)
    (hprogress : Progress cols db (insert oid parents) oid d S L)
    (hdone : ∀ lagg ∈ db.laggsOf oid, ∀ member ∈ db.laggmembers,
      member.laggInterfacegroup = lagg.id → member.laggPhysnic ∈ S ∨
        member.laggPhysnic ∈ insert oid parents) :
    Removes db parents oid (S ∪ {oid}) := by
  have hlater : ∀ m, m ∈ S ∨ m ∈ insert oid parents → m ∈ S ∪ {oid} ∨ m ∈ parents := by
    intro m hm
    simp only [Finset.mem_insert, Finset.mem_union, Finset.mem_singleton] at hm ⊢
    tauto
  constructor
  · exact Finset.mem_union_right S (Finset.mem_singleton_self oid)
  · intro n hn
    rcases Finset.mem_union.mp hn with hn | hn
    · intro hmem
      exact hprogress.avoids n hn (Finset.mem_insert_of_mem hmem)
    · rw [Finset.mem_singleton.mp hn]
      exact hnot
  · intro n hn
    rcases Finset.mem_union.mp hn with hn | hn
    · exact hprogress.reach n hn
    · rw [Finset.mem_singleton.mp hn]
  · intro n hn m hport
    rcases Finset.mem_union.mp hn with hn | hn
    · exact hlater m (hprogress.closed n hn m hport)
    · rw [Finset.mem_singleton.mp hn] at hport
      obtain ⟨lagg, hlagg, howns, member, hmember, hgroup, rfl⟩ := hport
      exact hlater _ (hdone lagg ((mem_laggsOf hkeyed).mpr ⟨hlagg, howns⟩) member hmember hgroup)

theorem deleteNetworkInterface_removes (fuel : ℕ) {parents : Finset String}
    {db : NetworkDatabase Columns} {oid : String} (hkeyed : db.Keyed)
    (hnot : oid ∉ parents)
    (hfuel : (db.physnics \ insert oid parents).card < fuel) :
    ∃ S, deleteNetworkInterface cols fuel parents db oid =
        some (db.pruned cols S ∅) ∧ Removes db parents oid S := by
  induction fuel generalizing parents db oid with
  | zero => omega
  | succ fuel ih =>
    have hdelete : Deletes cols db (insert oid parents)
        (deleteNetworkInterface cols fuel (insert oid parents)) := by
      intro d m hd hphysnics hm hmnot
      apply ih hd hmnot
      have hless : (db.physnics \ insert m (insert oid parents)).card <
          (db.physnics \ insert oid parents).card := by
        apply Finset.card_lt_card
        refine ⟨Finset.sdiff_subset_sdiff (Finset.Subset.refl _) (Finset.subset_insert m _), ?_⟩
        intro hsub
        have hmem := hsub (Finset.mem_sdiff.mpr ⟨hm, hmnot⟩)
        exact (Finset.mem_sdiff.mp hmem).2 (Finset.mem_insert_self m _)
      have hle := Finset.card_le_card (Finset.sdiff_subset_sdiff hphysnics
        (Finset.Subset.refl (insert m (insert oid parents))))
      omega
    have hstart : Progress cols db (insert oid parents) oid db ∅ ∅ := by
      constructor
      · unfold pruned
        have hlagg : ∀ row, ¬ db.LaggGone ∅ ∅ row := by
          intro row hgone
          rcases hgone with hgone | hgone
          · exact not_interfaceGone_empty db row.laggInterface hgone
          · exact Finset.notMem_empty _ hgone
        have hgroup : ∀ key, ¬ db.GroupGone ∅ ∅ key := by
          intro key hgone
          obtain ⟨row, _, hgone, _⟩ := hgone
          exact hlagg row hgone
        simp [hlagg, hgroup, not_interfaceGone_empty]
      · simp
      · simp
      · simp
      · simp
    have hlaggs : ∀ lagg ∈ db.laggsOf oid,
        lagg ∈ db.lagg ∧ db.Owns oid lagg ∧ lagg.id ∉ (∅ : Finset ℕ) := by
      intro lagg hlagg
      obtain ⟨hmem, howns⟩ := (mem_laggsOf hkeyed).mp hlagg
      exact ⟨hmem, howns, Finset.notMem_empty _⟩
    obtain ⟨d, S, L, hrun, hprogress, _, hdone⟩ :=
      deleteLaggs_progress cols hkeyed (Finset.mem_insert_self oid parents)
        hdelete (db.laggsOf oid) (hkeyed.laggIds.filter _) hlaggs hstart
    refine ⟨S ∪ {oid}, ?_, hprogress.removes cols hkeyed hnot hdone⟩
    have habsorb : db.pruned cols (S ∪ {oid}) L = db.pruned cols (S ∪ {oid}) ∅ := by
      apply pruned_absorb
      intro lagg hlagg hL
      refine interfaceGone_iff_owns.mpr ⟨oid, ?_, hprogress.laggs lagg hlagg hL⟩
      exact Finset.mem_union_right S (Finset.mem_singleton_self oid)
    unfold deleteNetworkInterface
    simp only [hrun, bind_eq_bind, bind_some]
    have hlast := deleteStatements_eq_pruned cols d oid
    simp only [bind_eq_bind] at hlast
    rw [hlast, hprogress.tables, pruned_pruned, Finset.union_empty, habsorb]

end

theorem deleteNetworkInterface_eq_pruned {db : NetworkDatabase Columns}
    (hkeyed : db.Keyed) (oid : String) :
    ∃ S : Finset String, (∀ n, n ∈ S ↔ ReflTransGen db.PortOf oid n) ∧
      ∀ fuel, db.laggmembers.length < fuel → deleteNetworkInterface cols fuel ∅ db oid =
          some (db.pruned cols S ∅) := by
  have hall : ∀ fuel, db.laggmembers.length < fuel →
      ∃ S : Finset String, (∀ n, n ∈ S ↔ ReflTransGen db.PortOf oid n) ∧
        deleteNetworkInterface cols fuel ∅ db oid = some (db.pruned cols S ∅) := by
    intro fuel hfuel
    have hports : (db.physnics \ insert oid ∅).card ≤ db.laggmembers.length := by
      calc
        (db.physnics \ insert oid ∅).card ≤ db.physnics.card :=
          Finset.card_le_card Finset.sdiff_subset
        _ ≤ (db.laggmembers.map LaggMemberRow.laggPhysnic).length := toFinset_card_le _
        _ = db.laggmembers.length := length_map _
    obtain ⟨S, hrun, hremoves⟩ := deleteNetworkInterface_removes cols fuel
      hkeyed (Finset.notMem_empty oid) (by omega)
    refine ⟨S, ?_, hrun⟩
    intro n
    exact FiniteReachability.mem_iff_reflTransGen_of_closed (S := ↑S)
      hremoves.mem hremoves.reach fun n hn m hport =>
        (hremoves.closed n hn m hport).resolve_right (Finset.notMem_empty m)
  obtain ⟨S, hS, _⟩ := hall _ (Nat.lt_succ_self _)
  refine ⟨S, hS, ?_⟩
  intro fuel hfuel
  obtain ⟨S', hS', hrun⟩ := hall fuel hfuel
  have hsame : S' = S := Finset.ext fun n => (hS' n).trans (hS n).symm
  rw [hrun, hsame]

end Middlewared.NetworkDatabase
