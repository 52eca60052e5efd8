import Middlewared.GroupmapSync

/-!
# Group mapping and group table

For local groups other than the built-in ones, synchronization makes the
mapping follow the table if the mapping has no entry yet of a group that is
gone; what it finds of those it keeps.
-/

namespace Middlewared

open PyString TransitionSystem List Dict Option

section

variable {digits : DecimalDigits} {server : ServerSid digits}

def IsLocalGroup (group : GroupRow) : Prop :=
  (group.gid : ℤ) ∉ localBuiltinGids ∧ group.group ∉ builtinGroupNames

def IsLocalEntry (entry : SMBGroupMap) : Prop :=
  entry.gid ∉ localBuiltinGids

def Recordable (pk : ℕ) (row : GroupRow) : Prop :=
  row.gid < 2 ^ 32 ∧ nul ∉ row.group.toList ∧
    (row.group ∉ builtinGroupNames → pk < baseSyntheticDatastoreId)

/-- A group with `smb` gives gid 545 an entry, or the mapping has one already,
under a SID that only begins like the server's. -/
def MapsUsers (server : ServerSid digits) (groups : Dict ℕ GroupRow)
    (mapping : Dict String UnixgroupData) : Prop :=
  (∃ pk row, groups.get? pk = some row ∧ row.smb = true ∧ row.gid = 545 ∧
    row.group ∉ builtinGroupNames) ∨
  ∃ sid data entry, mapping.get? sid = some data ∧ parseUnixgroup sid data = .ok entry ∧
    groupmapKey server entry = .ok .locals ∧ entry.gid = 545 ∧ ¬ IsLocalSid server sid

/-- What has to be there for the synchronization to leave the mapping right.
The mapping can be listed, and each local entry in it is under the SID of a
group with `smb`. -/
structure Clean (server : ServerSid digits) (host : GroupmapHost)
    (groups : Dict ℕ GroupRow) (mapping : Dict String UnixgroupData) :
    Prop where
  listable : Listable server mapping
  known : ∀ sid data, mapping.get? sid = some data →
    Keyed server sid data .locals → IsLocalSid server sid →
    ∃ pk row, groups.get? pk = some row ∧ row.smb = true ∧ groupSid server pk row = .ok (some sid)
  rows : ∀ pk row, groups.get? pk = some row → row.smb = true → Recordable pk row
  administrators : ∃ entry, groups.entries.find? (·.2.gid = 544) = some entry ∧
    nul ∉ entry.2.group.toList
  users : MapsUsers server groups mapping
  builtins : host.idmapBackend = "tdb" → ∃ low, host.idmapLow = some low ∧ low + 2 < 2 ^ 32

/-- The synchronization is done, and the mapping mirrors the table. -/
def SynchronizesGroups (server : ServerSid digits) (host : GroupmapHost)
    (bypass : Bool) (groups : Dict ℕ GroupRow) (files : GroupmapFiles) : Prop :=
  ∃ final entries, synchronizeGroupMappings server host bypass groups files = .ok final ∧
    queryGroupmapEntries final.mapping = .ok entries ∧
    Mirrors server IsLocalGroup IsLocalEntry groups entries

def selectedGroups (queried : List QueriedGroup) (administrators : QueriedGroup) :
    List QueriedGroup :=
  queried.filter (·.row.smb) ++ [administrators]

structure SyncBatch (server : ServerSid digits) (host : GroupmapHost)
    (groups : Dict ℕ GroupRow) where
  queried : List QueriedGroup
  administrators : QueriedGroup
  builtins : List SMBGroupMap
  batchOps : List (String × UnixgroupData)
  queried_eq : queryGroups server groups = .ok queried
  found_eq : findGid 544 queried = .ok administrators
  builtins_eq : syncBuiltins host = .ok builtins
  packed_eq : ((selectedGroups queried administrators).map QueriedGroup.entry ++
    builtins).mapM packOperation = .ok batchOps

section

variable {host : GroupmapHost} {bypass : Bool} {groups : Dict ℕ GroupRow}
  {files : GroupmapFiles}

theorem syncForeignGroups_eq_ok_iff {final : GroupmapFiles} :
    syncForeignGroups server files = .ok final ↔
      ∃ groupmap, groupmapList server files = .ok (groupmap, final) ∧ 545 ∈ groupmap.locals := by
  unfold syncForeignGroups
  cases hlist : groupmapList server files with
  | error error => simp
  | ok listed =>
    obtain ⟨groupmap, next⟩ := listed
    rw [ok_bind]
    by_cases husers : 545 ∈ groupmap.locals
    · simp [husers, eq_comm]
    · simp [husers]

theorem synchronize_eq_ok_iff (hstatus : host.failoverStatus ∈ ["SINGLE", "MASTER"])
    (hconfigured : bypass = true ∨ host.isConfigured = true)
    {final : GroupmapFiles} :
    synchronizeGroupMappings server host bypass groups files = .ok final ↔
      ∃ (batch : SyncBatch server host groups) (first second : Groupmap) (listed : GroupmapFiles),
        groupmapList server files = .ok (first, listed) ∧
        groupmapList server ⟨listed.mapping.update batch.batchOps,
          listed.reject⟩ = .ok (second, final) ∧ 545 ∈ second.locals := by
  have hallowed : (!bypass && !host.isConfigured) = false := by
    rcases hconfigured with hbypass | hhost
    · simp [hbypass]
    · simp [hhost]
  unfold synchronizeGroupMappings
  rw [if_neg (not_not.mpr hstatus), hallowed, if_neg Bool.false_ne_true]
  constructor
  · intro hsync
    obtain ⟨first, hfirst, hsync⟩ := bind_eq_ok_iff.mp hsync
    obtain ⟨queried, hqueried, hsync⟩ := bind_eq_ok_iff.mp hsync
    obtain ⟨administrators, hfound, hsync⟩ := bind_eq_ok_iff.mp hsync
    obtain ⟨builtins, hbuiltins, hsync⟩ := bind_eq_ok_iff.mp hsync
    rw [deleteLocals_eq] at hsync
    obtain ⟨written, hwritten, hsync⟩ := bind_eq_ok_iff.mp hsync
    obtain ⟨second, hsecond, husers⟩ := syncForeignGroups_eq_ok_iff.mp hsync
    obtain ⟨batchOps, hpacked, hwritten⟩ := bind_eq_ok_iff.mp hwritten
    rw [← Except.ok.inj hwritten] at hsecond
    exact ⟨⟨queried, administrators, builtins, batchOps, hqueried, hfound,
      hbuiltins, hpacked⟩, first.1, second, first.2, hfirst, hsecond, husers⟩
  · intro hsteps
    obtain ⟨batch, first, second, listed, hfirst, hsecond, husers⟩ := hsteps
    have hwritten : insertGroupmapEntries listed.mapping
        ((selectedGroups batch.queried batch.administrators).map
          QueriedGroup.entry ++ batch.builtins) =
        .ok (listed.mapping.update batch.batchOps) := by
      unfold insertGroupmapEntries
      rw [batch.packed_eq]
      rfl
    apply bind_eq_ok_iff.mpr ⟨_, hfirst, ?_⟩
    apply bind_eq_ok_iff.mpr ⟨_, batch.queried_eq, ?_⟩
    apply bind_eq_ok_iff.mpr ⟨_, batch.found_eq, ?_⟩
    apply bind_eq_ok_iff.mpr ⟨_, batch.builtins_eq, ?_⟩
    rw [deleteLocals_eq]
    apply bind_eq_ok_iff.mpr ⟨_, hwritten, ?_⟩
    exact syncForeignGroups_eq_ok_iff.mpr ⟨second, hsecond, husers⟩

end

/-! ## The batch -/

theorem nul_notMem_builtin {name : String} (hname : name ∈ builtinGroupNames) :
    nul ∉ name.toList := by
  have hall : ∀ name ∈ builtinGroupNames, nul ∉ name.toList := by decide
  exact hall name hname

theorem packOperation_groupEntry {sid : String} {row : GroupRow}
    {operation : String × UnixgroupData} :
    packOperation (groupEntry sid row) = .ok operation ↔
      row.gid < 2 ^ 32 ∧ operation = (sid, groupData row) := by
  unfold packOperation
  rw [groupmapToTdbVal_groupEntry]
  split_ifs with hgid
  · simp only [ok_bind, groupEntry_sid, Except.ok.injEq, hgid, true_and]
    exact eq_comm
  · constructor
    · intro herror
      cases herror
    · intro hboth
      exact absurd hboth.1 hgid

theorem syncBuiltins_eq_ok {host : GroupmapHost} {builtins : List SMBGroupMap}
    (hbuiltins : syncBuiltins host = .ok builtins) {entry : SMBGroupMap}
    (hentry : entry ∈ builtins) :
    ∃ row, entry = groupEntry entry.sid row ∧
      startsWith entry.sid "S-1-5-32" = true ∧ nul ∉ row.group.toList := by
  unfold syncBuiltins at hbuiltins
  split at hbuiltins
  · rw [← Except.ok.inj hbuiltins] at hentry
    cases hentry
  · split at hbuiltins
    · cases hbuiltins
    · rename_i low _
      rw [← Except.ok.inj hbuiltins] at hentry
      simp only [mem_cons, not_mem_nil, or_false] at hentry
      have hsids : ∀ sid ∈ ["S-1-5-32-544", "S-1-5-32-545", "S-1-5-32-546"],
          startsWith sid "S-1-5-32" = true := by decide
      have hnames : ∀ name ∈ ["Administrators", "Users", "Guests"], nul ∉ name.toList := by decide
      rcases hentry with h | h | h
      · rw [h]
        exact ⟨{ gid := low, group := "Administrators" }, rfl,
          hsids _ (by simp), hnames _ (by simp)⟩
      · rw [h]
        exact ⟨{ gid := low + 1, group := "Users" }, rfl, hsids _ (by simp), hnames _ (by simp)⟩
      · rw [h]
        exact ⟨{ gid := low + 2, group := "Guests" }, rfl, hsids _ (by simp), hnames _ (by simp)⟩

theorem exists_groupmapKey {pk : ℕ} {row : GroupRow} {sid : Option String}
    (hsid : groupSid server pk row = .ok sid) :
    ∃ key, groupmapKey server (groupEntry (sid.getD "None") row) = .ok key := by
  rcases groupSid_cases hsid with hbuiltin | hrow | hnone
  · obtain ⟨_, rid, hrid, heq⟩ := hbuiltin
    rw [heq]
    rcases hrid with h | h
    · rw [h]
      exact ⟨_, groupmapKey_sid rfl (groupEntry_gid_ne _) (by decide) (by decide)⟩
    · rw [h]
      exact ⟨_, groupmapKey_sid rfl (groupEntry_gid_ne _) (by decide) (by decide)⟩
  · obtain ⟨_, _, hpk, heq⟩ := hrow
    rw [heq]
    exact ⟨_, groupmapKey_rowSid hpk⟩
  · rw [hnone.2.2]
    exact ⟨_, groupmapKey_none⟩

theorem findGid_eq_ok {gid : ℕ} {queried : List QueriedGroup}
    {group : QueriedGroup} (hfound : findGid gid queried = .ok group) :
    group ∈ queried ∧ group.row.gid = gid := by
  unfold findGid at hfound
  split at hfound
  · rename_i found hfind
    have hgid := find?_some hfind
    rw [← Except.ok.inj hfound]
    exact ⟨mem_of_find?_eq_some hfind, of_decide_eq_true hgid⟩
  · cases hfound

namespace SyncBatch

variable {host : GroupmapHost} {groups : Dict ℕ GroupRow}
  (batch : SyncBatch server host groups)

theorem mem_selected_iff {group : QueriedGroup} :
    group ∈ selectedGroups batch.queried batch.administrators ↔
      group ∈ batch.queried ∧ group.row.smb = true ∨ group = batch.administrators := by
  unfold selectedGroups
  rw [mem_append, mem_filter, mem_singleton]

theorem administrators_mem : batch.administrators ∈ batch.queried ∧
    batch.administrators.row.gid = 544 := by
  have hfound := batch.found_eq
  unfold findGid at hfound
  split at hfound
  · rename_i group hfind
    rw [← Except.ok.inj hfound]
    have hgid := find?_some hfind
    exact ⟨mem_of_find?_eq_some hfind, of_decide_eq_true hgid⟩
  · cases hfound

structure Source (sid : String) (row : GroupRow) : Prop where
  stored : ∃ pk found, groups.get? pk = some row ∧
    groupSid server pk row = .ok found ∧ sid = found.getD "None"
  selected : row.smb = true ∨ row = batch.administrators.row

theorem cases_of_mem {operation : String × UnixgroupData} (hmem : operation ∈ batch.batchOps) :
    ∃ row, operation.2 = groupData row ∧ row.gid < 2 ^ 32 ∧ (batch.Source operation.1 row ∨
        startsWith operation.1 "S-1-5-32" = true ∧ nul ∉ row.group.toList) := by
  obtain ⟨entry, hentry, hpack⟩ := exists_of_mem_mapM_results batch.packed_eq hmem
  rcases mem_append.mp hentry with hselected | hbuiltin
  · obtain ⟨group, hgroup, heq⟩ := List.mem_map.mp hselected
    have hentryEq : entry = groupEntry (group.sid.getD "None") group.row := heq.symm
    rw [hentryEq, packOperation_groupEntry] at hpack
    rw [batch.mem_selected_iff] at hgroup
    have hqueried : group ∈ batch.queried := by
      rcases hgroup with hsmb | hadmins
      · exact hsmb.1
      · rw [hadmins]
        exact batch.administrators_mem.1
    obtain ⟨pk, hrow, hsid⟩ := exists_row_of_mem batch.queried_eq hqueried
    refine ⟨group.row, by rw [hpack.2], hpack.1, Or.inl ⟨?_, ?_⟩⟩
    · exact ⟨pk, group.sid, hrow, hsid, by rw [hpack.2]⟩
    · rcases hgroup with hsmb | hadmins
      · exact Or.inl hsmb.2
      · exact Or.inr (by rw [hadmins])
  · obtain ⟨row, heq, hstarts, hnul⟩ := syncBuiltins_eq_ok batch.builtins_eq hbuiltin
    rw [heq, packOperation_groupEntry] at hpack
    refine ⟨row, by rw [hpack.2], hpack.1, Or.inr ⟨?_, hnul⟩⟩
    rw [hpack.2]
    exact hstarts

theorem mem_of_selected {group : QueriedGroup}
    (hgroup : group ∈ selectedGroups batch.queried batch.administrators) :
    group.row.gid < 2 ^ 32 ∧ (group.sid.getD "None", groupData group.row) ∈ batch.batchOps := by
  have hentry : group.entry ∈ (selectedGroups batch.queried batch.administrators).map
        QueriedGroup.entry ++ batch.builtins :=
    mem_append_left _ (List.mem_map_of_mem hgroup)
  obtain ⟨operation, hmem, hpack⟩ := exists_mem_mapM_results batch.packed_eq hentry
  have hentryEq : group.entry = groupEntry (group.sid.getD "None") group.row := rfl
  rw [hentryEq, packOperation_groupEntry] at hpack
  rw [hpack.2] at hmem
  exact ⟨hpack.1, hmem⟩

variable {pk : ℕ} {row : GroupRow}

theorem mem_of_row (hrow : groups.get? pk = some row) (hsmb : row.smb = true) :
    row.gid < 2 ^ 32 ∧ ∃ sid, groupSid server pk row = .ok sid ∧
      (sid.getD "None", groupData row) ∈ batch.batchOps := by
  obtain ⟨group, hgroup, heq, hsid⟩ := exists_queried_of_row batch.queried_eq hrow
  have hselected : group ∈ selectedGroups batch.queried batch.administrators := by
    rw [batch.mem_selected_iff, heq]
    exact Or.inl ⟨hgroup, hsmb⟩
  have hmem := batch.mem_of_selected hselected
  rw [heq] at hmem
  exact ⟨hmem.1, group.sid, hsid, hmem.2⟩

theorem data_of_rowSid {operation : String × UnixgroupData}
    (hmem : operation ∈ batch.batchOps) (hsid : operation.1 = rowSid server pk) :
    ∃ row, groups.get? pk = some row ∧ row.smb = true ∧
      row.group ∉ builtinGroupNames ∧ operation.2 = groupData row := by
  have hstarts := server.startsWith_sid (pk + baseRidGroup)
  change startsWith (rowSid server pk) server.text = true at hstarts
  obtain ⟨row, hdata, _, hsource | hbuiltin⟩ := batch.cases_of_mem hmem
  · obtain ⟨other, found, hrow, hfound, heq⟩ := hsource.stored
    rw [hsid] at heq
    rcases groupSid_cases hfound with hname | hordinary | hnone
    · obtain ⟨_, rid, hrid, hfoundEq⟩ := hname
      rw [hfoundEq] at heq
      have hlt : rid < baseRidGroup := by
        unfold ridAdmins ridGuests at hrid
        unfold baseRidGroup
        omega
      exact absurd heq (rowSid_ne server hlt)
    · obtain ⟨hname, hsmb, _, hfoundEq⟩ := hordinary
      rw [hfoundEq] at heq
      have hpk : pk = other := rowSid_injective server heq
      rw [← hpk] at hrow
      exact ⟨row, hrow, hsmb, hname, hdata⟩
    · rw [hnone.2.2] at heq
      rw [heq] at hstarts
      change startsWith "None" server.text = true at hstarts
      rw [not_local_none] at hstarts
      cases hstarts
  · rw [hsid, ServerSid.not_builtin hstarts] at hbuiltin
    cases hbuiltin.1

theorem get?_rowSid (listed : Dict String UnixgroupData)
    (hrow : groups.get? pk = some row) (hsmb : row.smb = true)
    (hname : row.group ∉ builtinGroupNames) :
    (listed.update batch.batchOps).get? (rowSid server pk) = some (groupData row) := by
  obtain ⟨_, sid, hsid, hmem⟩ := batch.mem_of_row hrow hsmb
  have hsidEq : sid.getD "None" = rowSid server pk := by
    rcases groupSid_cases hsid with hbuiltin | hordinary | hnone
    · exact absurd hbuiltin.1 hname
    · rw [hordinary.2.2.2]
      rfl
    · rw [hnone.2.1] at hsmb
      cases hsmb
  rw [hsidEq] at hmem
  apply get?_update_of_mem hmem
  intro operation hoperation hkey
  obtain ⟨found, hfound, _, _, hdata⟩ := batch.data_of_rowSid hoperation hkey
  rw [hrow, some.injEq] at hfound
  rw [hdata, hfound]

theorem administrators_row : ∃ entry, groups.entries.find? (·.2.gid = 544) = some entry ∧
    entry.2 = batch.administrators.row := by
  have hrows : batch.queried.map QueriedGroup.row = groups.entries.map Prod.snd := by
    apply map_mapM_results batch.queried_eq
    intro item group hextend
    obtain ⟨sid, _, heq⟩ := bind_eq_ok_iff.mp hextend
    rw [← Except.ok.inj heq]
  have hfind := congrArg (List.find? fun row : GroupRow => row.gid = 544) hrows
  rw [find?_map, find?_map] at hfind
  have hfound := batch.found_eq
  unfold findGid at hfound
  split at hfound
  · rename_i group hgroup
    have hgroup' : batch.queried.find?
        ((fun row : GroupRow => decide (row.gid = 544)) ∘ QueriedGroup.row) =
        some group := hgroup
    rw [hgroup', map_some] at hfind
    obtain ⟨entry, hentry, heq⟩ := map_eq_some_iff.mp hfind.symm
    rw [← Except.ok.inj hfound]
    exact ⟨entry, hentry, heq⟩
  · cases hfound

variable {listed : Dict String UnixgroupData}

theorem listable_update {mapping : Dict String UnixgroupData}
    (hlisted : Listed server mapping listed)
    (hrows : ∀ pk row, groups.get? pk = some row → row.smb = true → nul ∉ row.group.toList)
    (hadmins : nul ∉ batch.administrators.row.group.toList) :
    Listable server (listed.update batch.batchOps) := by
  intro sid data hget
  rcases get?_update_eq_some hget with hmem | hold
  · obtain ⟨row, hdata, hgid, hsource | hbuiltin⟩ := batch.cases_of_mem hmem
    · obtain ⟨pk, found, hrow, hfound, hsid⟩ := hsource.stored
      have hnul : nul ∉ row.group.toList := by
        rcases hsource.selected with hsmb | hsame
        · exact hrows pk row hrow hsmb
        · rw [hsame]
          exact hadmins
      obtain ⟨key, hkey⟩ := exists_groupmapKey hfound
      simp only at hdata hsid
      rw [hdata, hsid]
      exact ⟨key, _, parseUnixgroup_groupData hnul hgid, hkey⟩
    · simp only at hdata
      rw [hdata]
      refine ⟨.builtins, _, parseUnixgroup_groupData hbuiltin.2 hgid, ?_⟩
      unfold groupmapKey
      rw [if_neg (groupEntry_gid_ne _), groupEntry_sid, hbuiltin.1]
      rfl
  · obtain ⟨_, key, hkey, _⟩ := (hlisted sid data).mp hold.2
    exact ⟨key, hkey⟩

theorem nul_notMem_of_row (hlistable : Listable server (listed.update batch.batchOps))
    (hrow : groups.get? pk = some row) (hsmb : row.smb = true) :
    nul ∉ row.group.toList := by
  by_cases hname : row.group ∈ builtinGroupNames
  · exact nul_notMem_builtin hname
  · obtain ⟨_, entry, hparse, _⟩ := hlistable _ _ (batch.get?_rowSid listed hrow hsmb hname)
    exact notMem_of_parseUnixgroup hparse

theorem nul_notMem_of_administrators (hlistable : Listable server (listed.update batch.batchOps)) :
    nul ∉ batch.administrators.row.group.toList := by
  obtain ⟨pk, hrow, hsid⟩ := exists_row_of_mem batch.queried_eq batch.administrators_mem.1
  rcases groupSid_cases hsid with hbuiltin | hordinary | hnone
  · exact nul_notMem_builtin hbuiltin.1
  · exact batch.nul_notMem_of_row hlistable hrow hordinary.2.1
  · have hselected := (batch.mem_selected_iff).mpr (Or.inr rfl)
    have hmem := (batch.mem_of_selected hselected).2
    rw [hnone.2.2] at hmem
    have hget : (listed.update batch.batchOps).get? "None" =
        some (groupData batch.administrators.row) := by
      apply get?_update_of_mem hmem
      intro operation hoperation hkey
      obtain ⟨row, hdata, _, hsource | hstarts⟩ := batch.cases_of_mem hoperation
      · obtain ⟨other, found, hother, hfound, heq⟩ := hsource.stored
        rcases hsource.selected with hsmb | hsame
        · rw [hkey] at heq
          have hlocal : ∀ rid, server.sid rid ≠ "None" := by
            intro rid hsame
            have hstarts := server.startsWith_sid rid
            rw [hsame, not_local_none] at hstarts
            cases hstarts
          rcases groupSid_cases hfound with hname | hrowSid | hmissing
          · obtain ⟨_, rid, _, hfoundEq⟩ := hname
            rw [hfoundEq] at heq
            exact absurd heq.symm (hlocal rid)
          · rw [hrowSid.2.2.2] at heq
            exact absurd heq.symm (hlocal _)
          · rw [hmissing.2.1] at hsmb
            cases hsmb
        · rw [hdata, hsame]
      · rw [hkey] at hstarts
        have hnone : startsWith "None" "S-1-5-32" = true := hstarts.1
        cases hnone
    obtain ⟨_, entry, hparse, _⟩ := hlistable _ _ hget
    exact notMem_of_parseUnixgroup hparse

end SyncBatch

/-! ## What is left -/

section

variable {host : GroupmapHost} {groups : Dict ℕ GroupRow}
  {mapping listed final : Dict String UnixgroupData}
  {batch : SyncBatch server host groups}

theorem exists_batch (hclean : Clean server host groups mapping) :
    Nonempty (SyncBatch server host groups) := by
  have hqueried : ∃ queried, queryGroups server groups = .ok queried := by
    apply exists_mapM_eq_ok
    intro item hitem
    have hrow := Dict.mem_entries_iff.mp hitem
    unfold extendGroup groupSid
    split_ifs with hadmins hguests hsmb
    · exact ⟨_, rfl⟩
    · exact ⟨_, rfl⟩
    · have hpk := (hclean.rows item.1 item.2 hrow hsmb).2.2
        (by simp [builtinGroupNames, hadmins, hguests])
      unfold dbIdToRid
      rw [if_neg (Nat.not_le_of_lt hpk)]
      exact ⟨_, rfl⟩
    · exact ⟨_, rfl⟩
  obtain ⟨queried, hqueried⟩ := hqueried
  have hfound : ∃ administrators, findGid 544 queried = .ok administrators := by
    obtain ⟨entry, hentry, _⟩ := hclean.administrators
    have hgid := find?_some hentry
    obtain ⟨group, hgroup, heq, _⟩ := exists_queried_of_row hqueried
      (Dict.mem_entries_iff.mp (mem_of_find?_eq_some hentry))
    unfold findGid
    cases hfind : queried.find? (·.row.gid = 544) with
    | some found => exact ⟨found, rfl⟩
    | none =>
      rw [find?_eq_none] at hfind
      have hnot := hfind group hgroup
      rw [heq] at hnot
      exact absurd hgid hnot
  obtain ⟨administrators, hfound⟩ := hfound
  have hbuiltins : ∃ builtins, syncBuiltins host = .ok builtins ∧
      ∀ entry ∈ builtins, ∃ operation, packOperation entry = .ok operation := by
    unfold syncBuiltins
    by_cases htdb : host.idmapBackend = "tdb"
    · obtain ⟨low, hlow, hbound⟩ := hclean.builtins htdb
      rw [if_neg (not_not.mpr htdb), hlow]
      refine ⟨_, rfl, ?_⟩
      intro entry hentry
      have hpacks : ∀ (sid name : String) (k : ℕ), k ≤ 2 →
          ∃ operation, packOperation (groupEntry sid
            { gid := low + k, group := name }) = .ok operation := by
        intro sid name k hk
        exact ⟨_, packOperation_groupEntry.mpr ⟨by simp only; omega, rfl⟩⟩
      simp only [mem_cons, not_mem_nil, or_false] at hentry
      rcases hentry with h | h | h
      · rw [h]
        exact hpacks _ _ 0 (by omega)
      · rw [h]
        exact hpacks _ _ 1 (by omega)
      · rw [h]
        exact hpacks _ _ 2 (by omega)
    · rw [if_pos htdb]
      exact ⟨[], rfl, fun entry hentry => by cases hentry⟩
  obtain ⟨builtins, hbuiltins, hpacks⟩ := hbuiltins
  have hpacked : ∃ batchOps, ((selectedGroups queried administrators).map
      QueriedGroup.entry ++ builtins).mapM packOperation = .ok batchOps := by
    apply exists_mapM_eq_ok
    intro entry hentry
    rcases mem_append.mp hentry with hselected | hbuiltin
    · obtain ⟨group, hgroup, heq⟩ := List.mem_map.mp hselected
      have hgid : group.row.gid < 2 ^ 32 := by
        rcases mem_append.mp hgroup with hsmb | hadmins
        · obtain ⟨hmem, hsmb⟩ := mem_filter.mp hsmb
          obtain ⟨pk, hrow, _⟩ := exists_row_of_mem hqueried hmem
          exact (hclean.rows pk _ hrow hsmb).1
        · rw [mem_singleton.mp hadmins, (findGid_eq_ok hfound).2]
          decide
      rw [← heq]
      exact ⟨_, packOperation_groupEntry.mpr ⟨hgid, rfl⟩⟩
    · exact hpacks entry hbuiltin
  obtain ⟨batchOps, hpacked⟩ := hpacked
  exact ⟨⟨queried, administrators, builtins, batchOps, hqueried, hfound, hbuiltins, hpacked⟩⟩

variable {entry : SMBGroupMap}

theorem not_locals_of_builtin {rid : ℕ} (hrid : rid = ridAdmins ∨ rid = ridGuests)
    (hsid : entry.sid = server.sid rid) (hgid : entry.gid ≠ -1) :
    groupmapKey server entry ≠ .ok .locals := by
  have hbounds : 1 ≤ rid ∧ rid ≤ maxValueSubauth ∧ rid < baseRidUser := by
    unfold ridAdmins ridGuests at hrid
    unfold maxValueSubauth baseRidUser
    omega
  rw [groupmapKey_sid hsid hgid hbounds.1 hbounds.2.1, if_pos hbounds.2.2]
  split_ifs
  · intro heq
    cases heq
  · intro heq
    cases heq

theorem startsWith_of_locals (hkey : groupmapKey server entry = .ok .locals) :
    startsWith entry.sid server.text = true := by
  by_contra hstarts
  rw [Bool.not_eq_true] at hstarts
  unfold groupmapKey at hkey
  rw [hstarts, Bool.false_and] at hkey
  split_ifs at hkey
  all_goals cases hkey

theorem exists_owner {operation : String × UnixgroupData}
    (hmem : operation ∈ batch.batchOps) (hsid : entry.sid = operation.1)
    (hgid : entry.gid ≠ -1) (hkey : groupmapKey server entry = .ok .locals) :
    ∃ pk row, groups.get? pk = some row ∧ row.smb = true ∧
      row.group ∉ builtinGroupNames ∧ operation.2 = groupData row ∧
      groupSid server pk row = .ok (some entry.sid) := by
  have hstarts := startsWith_of_locals hkey
  obtain ⟨row, hdata, _, hsource | hbuiltin⟩ := batch.cases_of_mem hmem
  · obtain ⟨pk, found, hrow, hfound, heq⟩ := hsource.stored
    rcases groupSid_cases hfound with hname | hordinary | hnone
    · obtain ⟨_, rid, hrid, hfoundEq⟩ := hname
      rw [← hsid, hfoundEq] at heq
      exact absurd hkey (not_locals_of_builtin hrid heq hgid)
    · obtain ⟨hname, hsmb, _, hfoundEq⟩ := hordinary
      rw [← hsid, hfoundEq] at heq
      change entry.sid = rowSid server pk at heq
      rw [hfoundEq, ← heq] at hfound
      exact ⟨pk, row, hrow, hsmb, hname, hdata, hfound⟩
    · rw [← hsid, hnone.2.2] at heq
      rw [heq] at hstarts
      change startsWith "None" server.text = true at hstarts
      rw [not_local_none] at hstarts
      cases hstarts
  · rw [← hsid, ServerSid.not_builtin hstarts] at hbuiltin
    cases hbuiltin.1

theorem isLocalSid_of_mem {operation : String × UnixgroupData}
    (hmem : operation ∈ batch.batchOps) (hsid : entry.sid = operation.1)
    (hgid : entry.gid ≠ -1) (hkey : groupmapKey server entry = .ok .locals) :
    IsLocalSid server entry.sid := by
  obtain ⟨pk, row, _, _, hname, _, hrowSid⟩ := exists_owner hmem hsid hgid hkey
  rcases groupSid_cases hrowSid with hbuiltin | hordinary | hnone
  · exact absurd hbuiltin.1 hname
  · rw [some.inj hordinary.2.2.2]
    exact isLocalSid_rowSid server pk
  · cases hnone.2.2

theorem gid_ne_of_parse {sid : String} {data : UnixgroupData}
    (hparse : parseUnixgroup sid data = .ok entry) : entry.gid ≠ -1 := by
  have hbounds := gid_of_parseUnixgroup hparse
  omega

section

variable (hlisted : Listed server mapping listed)
  (hfinal : Listed server (listed.update batch.batchOps) final)
  {entries : List SMBGroupMap}
  (hquery : queryGroupmapEntries final = .ok entries)

include hlisted hfinal hquery

theorem mirrors_of_clean (hclean : Clean server host groups mapping) :
    Mirrors server IsLocalGroup IsLocalEntry groups entries := by
  constructor
  · intro pk row hrow hsmb hgroup
    obtain ⟨hgid, hnul, hbase⟩ := hclean.rows pk row hrow hsmb
    have hpk := hbase hgroup.2
    have hsid := groupSid_of_ordinary server hgroup.2 hsmb hpk
    have hparse := @parseUnixgroup_groupData (rowSid server pk) row hnul hgid
    have hget : final.get? (rowSid server pk) = some (groupData row) := by
      rw [hfinal]
      refine ⟨batch.get?_rowSid listed hrow hsmb hgroup.2, .locals, ⟨_, hparse, ?_⟩, by decide⟩
      rw [groupmapKey_rowSid hpk, if_neg hgroup.1]
    refine ⟨groupEntry (rowSid server pk) row,
      ⟨(mem_queryGroupmapEntries_iff hquery).mpr ⟨_, hget, hparse⟩, hsid, rfl, rfl⟩, ?_⟩
    intro other hother
    obtain ⟨data, hdata, hotherParse⟩ := (mem_queryGroupmapEntries_iff hquery).mp hother.1
    have hotherSid := hother.2.sid
    rw [hsid, Except.ok.injEq, some.injEq] at hotherSid
    rw [← hotherSid] at hdata hotherParse
    rw [hget, some.injEq] at hdata
    rw [← hdata, hparse, Except.ok.injEq] at hotherParse
    exact hotherParse.symm
  · intro entry hentry hlocal hgid
    obtain ⟨data, hdata, hparse⟩ := (mem_queryGroupmapEntries_iff hquery).mp hentry
    obtain ⟨hupdated, key, ⟨found, hfound, hkey⟩, hne⟩ := (hfinal _ _).mp hdata
    rw [hparse, Except.ok.injEq] at hfound
    rw [← hfound] at hkey
    have hlocals := groupmapKey_locals hlocal hgid hkey hne
    rw [hlocals] at hkey
    rcases get?_update_eq_some hupdated with hmem | hold
    · obtain ⟨pk, row, hrow, hsmb, hname, hwritten, hsid⟩ :=
        exists_owner hmem rfl (gid_ne_of_parse hparse) hkey
      simp only at hwritten
      obtain ⟨hbound, hnul, _⟩ := hclean.rows pk row hrow hsmb
      rw [hwritten, parseUnixgroup_groupData hnul hbound, Except.ok.injEq] at hparse
      have hrowGid : (row.gid : ℤ) ∉ localBuiltinGids := by
        rw [← hparse] at hgid
        exact hgid
      refine ⟨pk, ⟨row, hrow, hsmb, ⟨hrowGid, hname⟩, hsid, ?_, ?_⟩, ?_⟩
      · rw [← hparse]
        rfl
      · rw [← hparse]
        rfl
      · intro other hother
        obtain ⟨otherRow, _, hotherSmb, hotherGroup, hmaps⟩ := hother
        have hotherSid := hmaps.sid
        rcases groupSid_cases hsid with hbuiltin | hordinary | hnone
        · exact absurd hbuiltin.1 hname
        · rw [hordinary.2.2.2] at hotherSid
          exact (groupSid_eq_rowSid server hotherSid).2.2
        · cases hnone.2.2
    · obtain ⟨hnew, hkept⟩ := hold
      obtain ⟨hstored, _⟩ := (hlisted _ _).mp hkept
      obtain ⟨pk, row, hrow, hsmb, hsid⟩ := hclean.known entry.sid data hstored
        ⟨entry, hparse, hkey⟩ hlocal
      obtain ⟨_, sid, hfoundSid, hmem⟩ := batch.mem_of_row hrow hsmb
      rw [hsid, Except.ok.injEq] at hfoundSid
      rw [← hfoundSid] at hmem
      exact absurd (List.mem_map_of_mem hmem) hnew

theorem known_of_mirrors (hmirrors : Mirrors server IsLocalGroup IsLocalEntry groups entries)
    {sid : String} {data : UnixgroupData}
    (hdata : mapping.get? sid = some data)
    (hkeyed : Keyed server sid data .locals) (hlocal : IsLocalSid server sid) :
    ∃ pk row, groups.get? pk = some row ∧ row.smb = true ∧
      groupSid server pk row = .ok (some sid) := by
  obtain ⟨entry, hparse, hkey⟩ := hkeyed
  have hsid := sid_of_parseUnixgroup hparse
  rw [← hsid] at hlocal
  by_cases hnew : sid ∈ batch.batchOps.map Prod.fst
  · obtain ⟨operation, hmem, hoperation⟩ := List.mem_map.mp hnew
    obtain ⟨pk, row, hrow, hsmb, _, _, hrowSid⟩ := exists_owner hmem
      (hsid.trans hoperation.symm) (gid_ne_of_parse hparse) hkey
    exact ⟨pk, row, hrow, hsmb, hsid ▸ hrowSid⟩
  · have hkept : final.get? sid = some data := by
      rw [hfinal, get?_update_of_notMem hnew, hlisted]
      have hkeyed : Keyed server sid data .locals := ⟨entry, hparse, hkey⟩
      exact ⟨⟨hdata, .locals, hkeyed, by decide⟩, .locals, hkeyed, by decide⟩
    have hentry : entry ∈ entries := by
      rw [mem_queryGroupmapEntries_iff hquery, hsid]
      exact ⟨data, hkept, hparse⟩
    obtain ⟨pk, ⟨row, hrow, hsmb, _, hmaps⟩, _⟩ :=
      hmirrors.owned entry hentry hlocal (gid_of_groupmapKey hlocal hkey)
    exact ⟨pk, row, hrow, hsmb, hsid ▸ hmaps.sid⟩

end

theorem mem_locals_of_clean (hlisted : Listed server mapping listed)
    (hclean : Clean server host groups mapping) :
    ∃ sid data entry, (listed.update batch.batchOps).get? sid = some data ∧
      parseUnixgroup sid data = .ok entry ∧ groupmapKey server entry = .ok .locals ∧
      entry.gid = 545 := by
  rcases hclean.users with ⟨pk, row, hrow, hsmb, hgid, hname⟩ |
    ⟨sid, data, entry, hdata, hparse, hkey, hgid, hforeign⟩
  · obtain ⟨hbound, hnul, hbase⟩ := hclean.rows pk row hrow hsmb
    refine ⟨_, _, _, batch.get?_rowSid listed hrow hsmb hname,
      parseUnixgroup_groupData hnul hbound, ?_, by simp [groupEntry, hgid]⟩
    rw [groupmapKey_rowSid (hbase hname), hgid]
    rfl
  · refine ⟨sid, data, entry, ?_, hparse, hkey, hgid⟩
    have hsid := sid_of_parseUnixgroup hparse
    rw [get?_update_of_notMem, hlisted]
    · exact ⟨hdata, .locals, ⟨entry, hparse, hkey⟩, by decide⟩
    · intro hmem
      obtain ⟨operation, hmem, hoperation⟩ := List.mem_map.mp hmem
      exact hforeign (hsid ▸ isLocalSid_of_mem hmem (hsid.trans hoperation.symm)
        (gid_ne_of_parse hparse) hkey)

theorem mapsUsers_of_listed {sid : String} {data : UnixgroupData}
    (hlisted : Listed server mapping listed)
    (hupdated : Listable server (listed.update batch.batchOps))
    (hknown : ∀ sid data, mapping.get? sid = some data → Keyed server sid data .locals →
      IsLocalSid server sid → ∃ pk row, groups.get? pk = some row ∧ row.smb = true ∧
        groupSid server pk row = .ok (some sid))
    (hget : (listed.update batch.batchOps).get? sid = some data)
    (hparse : parseUnixgroup sid data = .ok entry)
    (hkey : groupmapKey server entry = .ok .locals) (hgid : entry.gid = 545) :
    MapsUsers server groups mapping := by
  have hsid := sid_of_parseUnixgroup hparse
  rcases get?_update_eq_some hget with hmem | hold
  · left
    obtain ⟨pk, row, hrow, hsmb, hname, hdata, _⟩ :=
      exists_owner hmem hsid (gid_ne_of_parse hparse) hkey
    have hnul := batch.nul_notMem_of_row hupdated hrow hsmb
    have hread := @parseUnixgroup_groupData sid row hnul (batch.mem_of_row hrow hsmb).1
    simp only at hdata
    rw [hdata, hread, Except.ok.injEq] at hparse
    refine ⟨pk, row, hrow, hsmb, ?_, hname⟩
    rw [← hparse] at hgid
    change (row.gid : ℤ) = 545 at hgid
    omega
  · right
    obtain ⟨hstored, _⟩ := (hlisted _ _).mp hold.2
    refine ⟨sid, data, entry, hstored, hparse, hkey, hgid, ?_⟩
    intro hlocal
    obtain ⟨pk, row, hrow, hsmb, hrowSid⟩ := hknown sid data hstored ⟨entry, hparse, hkey⟩ hlocal
    obtain ⟨_, found, hfound, hmem⟩ := batch.mem_of_row hrow hsmb
    rw [hrowSid, Except.ok.injEq] at hfound
    rw [← hfound] at hmem
    exact hold.1 (List.mem_map_of_mem hmem)

theorem synchronizesGroups_iff {files : GroupmapFiles} {bypass : Bool}
    (hstatus : host.failoverStatus ∈ ["SINGLE", "MASTER"])
    (hconfigured : bypass = true ∨ host.isConfigured = true) :
    SynchronizesGroups server host bypass groups files ↔
      Clean server host groups files.mapping := by
  constructor
  · intro hsynchronizes
    obtain ⟨final, entries, hsync, hquery, hmirrors⟩ := hsynchronizes
    obtain ⟨batch, first, second, listed, hfirst, hsecond, husers⟩ :=
      (synchronize_eq_ok_iff hstatus hconfigured).mp hsync
    obtain ⟨hlistable, hlisted⟩ := groupmapList_eq_ok hfirst
    obtain ⟨hupdated, hfinal⟩ := groupmapList_eq_ok hsecond
    have hknown : ∀ sid data, files.mapping.get? sid = some data → Keyed server sid data .locals →
        IsLocalSid server sid → ∃ pk row, groups.get? pk = some row ∧ row.smb = true ∧
          groupSid server pk row = .ok (some sid) := fun sid data hdata hkeyed hlocal =>
      known_of_mirrors hlisted hfinal hquery hmirrors hdata hkeyed hlocal
    constructor
    · exact hlistable
    · exact hknown
    · intro pk row hrow hsmb
      obtain ⟨hgid, sid, hsid, _⟩ := batch.mem_of_row hrow hsmb
      refine ⟨hgid, batch.nul_notMem_of_row hupdated hrow hsmb, ?_⟩
      intro hname
      rcases groupSid_cases hsid with hbuiltin | hordinary | hnone
      · exact absurd hbuiltin.1 hname
      · exact hordinary.2.2.1
      · rw [hnone.2.1] at hsmb
        cases hsmb
    · obtain ⟨entry, hentry, heq⟩ := batch.administrators_row
      refine ⟨entry, hentry, ?_⟩
      rw [heq]
      exact batch.nul_notMem_of_administrators hupdated
    · obtain ⟨sid, data, entry, hget, hparse, hkey, hgid⟩ := (mem_locals_iff hsecond 545).mp husers
      exact mapsUsers_of_listed hlisted hupdated hknown hget hparse hkey hgid
    · intro htdb
      have hbuiltins := batch.builtins_eq
      unfold syncBuiltins at hbuiltins
      rw [if_neg (not_not.mpr htdb)] at hbuiltins
      cases hlow : host.idmapLow with
      | none =>
        rw [hlow] at hbuiltins
        cases hbuiltins
      | some low =>
        rw [hlow] at hbuiltins
        have hguests : groupEntry "S-1-5-32-546"
            { gid := low + 2, group := "Guests" } ∈ batch.builtins := by
          rw [← Except.ok.inj hbuiltins]
          simp [groupEntry]
        obtain ⟨operation, _, hpack⟩ := exists_mem_mapM_results
          batch.packed_eq (mem_append_right _ hguests)
        exact ⟨low, rfl, (packOperation_groupEntry.mp hpack).1⟩
  · intro hclean
    obtain ⟨batch⟩ := exists_batch hclean
    obtain ⟨first, listed, hfirst⟩ := exists_groupmapList hclean.listable
    obtain ⟨_, hlisted⟩ := groupmapList_eq_ok hfirst
    have hadmins : nul ∉ batch.administrators.row.group.toList := by
      obtain ⟨entry, hentry, hnul⟩ := hclean.administrators
      obtain ⟨found, hfound, heq⟩ := batch.administrators_row
      rw [hentry, some.injEq] at hfound
      rw [← heq, ← hfound]
      exact hnul
    have hupdated := batch.listable_update hlisted
      (fun pk row hrow hsmb => (hclean.rows pk row hrow hsmb).2.1) hadmins
    obtain ⟨second, final, hsecond⟩ := @exists_groupmapList digits server
      ⟨listed.mapping.update batch.batchOps, listed.reject⟩ hupdated
    have husers := (mem_locals_iff hsecond 545).mpr (mem_locals_of_clean hlisted hclean)
    obtain ⟨_, hfinal⟩ := groupmapList_eq_ok hsecond
    have hreadable : ∃ entries, queryGroupmapEntries final.mapping = .ok entries := by
      rw [exists_query_iff]
      intro sid data hdata
      obtain ⟨_, _, ⟨entry, hparse, _⟩, _⟩ := (hfinal sid data).mp hdata
      exact ⟨entry, hparse⟩
    obtain ⟨entries, hquery⟩ := hreadable
    exact ⟨final, entries, (synchronize_eq_ok_iff hstatus hconfigured).mpr
        ⟨batch, first, second, listed, hfirst, hsecond, husers⟩,
      hquery, mirrors_of_clean hlisted hfinal hquery hclean⟩

end

/-- Group calls keep the mapping that of the table exactly as long as none
gives a group with `smb` a name of a built-in one or one that cannot be read
back, and none takes `smb` away together with the name.  A synchronization
leaves the mapping of the local groups that of the table exactly if it finds it
clean. -/
theorem groupmap_mirrors_iff (server : ServerSid digits) :
    (∀ (state next : GroupmapState) (calls : List (GroupEnv × GroupCall)),
      state.Empty → run (GroupmapState.step server) state calls = some next →
      (EveryStep (GroupmapState.step server)
          (fun state call => state.KeepsMapping call.2) state calls ↔
        ∀ k reached, run (GroupmapState.step server) state (calls.take k) =
          some reached → reached.Mirrored server)) ∧
    ∀ (host : GroupmapHost) (bypass : Bool) (groups : Dict ℕ GroupRow)
      (files : GroupmapFiles), host.failoverStatus ∈ ["SINGLE", "MASTER"] →
      (bypass = true ∨ host.isConfigured = true) →
      (SynchronizesGroups server host bypass groups files ↔
        Clean server host groups files.mapping) := by
  constructor
  · intro state next calls hempty hrun
    exact GroupmapState.everyStep_keepsMapping_iff server hempty hrun
  · intro host bypass groups files hstatus hconfigured
    exact synchronizesGroups_iff hstatus hconfigured

end

/-! ## Runs -/

def exampleServer : ServerSid asciiDigits where
  text := "S-1-5-21-1-2-3"
  isDomain := by decide +kernel
  subauths := by decide +kernel
  valid := by decide +kernel

def groupEnv : GroupEnv :=
  { AccountStore.freshEnv with
    isConfigured := true
    upper := fun name => String.ofList (name.toList.map Char.toUpper)
    casefold := fun name => String.ofList (name.toList.map Char.toLower) }

def noGroups : GroupmapState where
  store := ⟨Dict.empty, Dict.empty, [], Dict.empty⟩
  mapping := Dict.empty

theorem noGroups_empty : noGroups.Empty := ⟨rfl, rfl⟩

def staffCreated : GroupEnv × GroupCall :=
  (groupEnv, .create { name := "staff" })

def staffCalls : List (GroupEnv × GroupCall) :=
  [staffCreated, (groupEnv, .create { name := "nogroup", smb := false }),
    (groupEnv, .update 1 none { name := some "crew" }),
    (groupEnv, .update 1 none { smb := some false }),
    (groupEnv, .delete 1 false)]

def exampleGroups : Dict ℕ GroupRow :=
  Dict.ofEntries [(1, {
        gid := 544
        group := "builtin_administrators"
        builtin := true
        smb := true }),
      (2, {
        gid := 545
        group := "builtin_users"
        builtin := true
        smb := true }),
      (3, { gid := 3000, group := "crew" })]

def exampleHost : GroupmapHost where
  failoverStatus := "SINGLE"
  isConfigured := true
  idmapBackend := "tdb"
  idmapLow := some 90000001

theorem exampleGroups_clean : Clean exampleServer exampleHost exampleGroups Dict.empty := by
  have hrows : ∀ item ∈ exampleGroups.entries, item.2.gid < 2 ^ 32 ∧ nul ∉ item.2.group.toList ∧
        item.1 < baseSyntheticDatastoreId := by decide +kernel
  constructor
  · intro sid data hdata
    cases hdata
  · intro sid data hdata
    cases hdata
  · intro pk row hrow _
    obtain ⟨hgid, hnul, hpk⟩ := hrows _ (Dict.mem_entries_iff.mpr hrow)
    exact ⟨hgid, hnul, fun _ => hpk⟩
  · refine ⟨(1, _), rfl, ?_⟩
    decide +kernel
  · exact Or.inl ⟨2, _, rfl, rfl, rfl, by decide⟩
  · intro _
    exact ⟨90000001, rfl, by decide⟩

theorem groupmap_mirrors_staffCalls :
    (∃ next, run (GroupmapState.step exampleServer) noGroups staffCalls =
        some next ∧ next.Mirrored exampleServer) ∧
      SynchronizesGroups exampleServer exampleHost false exampleGroups
        ⟨Dict.empty, Dict.empty⟩ := by
  have hmirrors := groupmap_mirrors_iff exampleServer
  constructor
  · obtain ⟨next, hrun⟩ := isSome_iff_exists.mp (by decide +kernel :
      (run (GroupmapState.step exampleServer) noGroups staffCalls).isSome = true)
    have hkeeps : EveryStep (GroupmapState.step exampleServer)
        (fun state call => state.KeepsMapping call.2) noGroups staffCalls := by
      decide +kernel
    exact ⟨next, hrun, (hmirrors.1 noGroups next staffCalls noGroups_empty
      hrun).mp hkeeps 5 next hrun⟩
  · exact (hmirrors.2 exampleHost false exampleGroups ⟨Dict.empty, Dict.empty⟩
      (by decide) (Or.inr rfl)).mpr exampleGroups_clean

def staffHidden : List (GroupEnv × GroupCall) :=
  [staffCreated, (groupEnv, .update 1 none { name := some "crew", smb := some false })]

def staleMapping : Dict String UnixgroupData :=
  Dict.empty.set (rowSid exampleServer 7) (groupData { gid := 3005, group := "staff" })

/-- A rename that takes SMB away, and a mapping that no synchronization removes. -/
theorem staleMapping_kept : (∃ next, run (GroupmapState.step exampleServer) noGroups staffHidden =
      some next ∧ ¬ next.Mirrored exampleServer) ∧
    ¬ SynchronizesGroups exampleServer exampleHost false exampleGroups
      ⟨staleMapping, Dict.empty⟩ := by
  constructor
  · obtain ⟨next, hrun⟩ := isSome_iff_exists.mp (by decide +kernel :
      (run (GroupmapState.step exampleServer) noGroups staffHidden).isSome = true)
    refine ⟨next, hrun, ?_⟩
    intro hmirrored
    have hwritten : next.Written exampleServer :=
      run_invariant (fun state call after hbefore hstep =>
        hbefore.step exampleServer hstep)
        (noGroups_empty.written exampleServer) hrun
    have hsame := (hmirrored.exact exampleServer hwritten).mapped 1
    have hstale : (run (GroupmapState.step exampleServer) noGroups staffHidden).map (fun state =>
          decide (state.mapping.get? (rowSid exampleServer 1) =
            GroupmapState.expectedData (state.store.groups.get? 1))) =
        some false := by decide +kernel
    rw [hrun, map_some, some.injEq, hsame] at hstale
    simp at hstale
  · intro hsynchronizes
    have hclean := (synchronizesGroups_iff (by decide) (Or.inr rfl)).mp hsynchronizes
    have hkeyed : Keyed exampleServer (rowSid exampleServer 7)
        (groupData { gid := 3005, group := "staff" }) .locals := by
      refine ⟨_, parseUnixgroup_groupData (by decide) (by decide), ?_⟩
      rfl
    obtain ⟨pk, row, hrow, _, hsid⟩ := hclean.known _ _
      (get?_set_self _ _ _) hkeyed (isLocalSid_rowSid exampleServer 7)
    obtain ⟨_, _, hpk⟩ := groupSid_eq_rowSid exampleServer hsid
    rw [hpk] at hrow
    cases hrow

end Middlewared
