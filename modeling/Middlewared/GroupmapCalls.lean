import Middlewared.AccountAdministrator
import Middlewared.Groupmap

/-!
# What group calls leave in the group mapping

A call writes, or deletes, the entry of its own group.
-/

namespace Middlewared

open PyString TransitionSystem List Dict Option

/-! ## Records that are read back -/

def groupData (group : GroupRow) : UnixgroupData where
  gid := UInt32.ofNat group.gid
  sidType := UInt32.ofNat LsaSidtype.alias.value
  text := group.group.toList ++ nul :: [nul]

def groupEntry (sid : String) (group : GroupRow) : SMBGroupMap :=
  ⟨sid, group.gid, .alias, group.group, ""⟩

@[simp] theorem groupEntry_sid (sid : String) (group : GroupRow) :
    (groupEntry sid group).sid = sid := rfl

variable {sid : String} {group : GroupRow}

theorem groupmapToTdbVal_groupEntry : groupmapToTdbVal (groupEntry sid group) =
    if group.gid < 2 ^ 32 then .ok (groupData group)
    else .error .overflowError := by
  unfold groupmapToTdbVal groupEntry
  have hiff : (0 ≤ (group.gid : ℤ) ∧ (group.gid : ℤ) < 2 ^ 32) ↔ group.gid < 2 ^ 32 := by
    omega
  simp only [hiff]
  split
  · rfl
  · rfl

theorem splitOn_eq_pair_iff {sep : Char} {first second : List Char} :
    (∃ name comment, (first ++ sep :: second).splitOn sep = [name, comment]) ↔
      sep ∉ first ∧ sep ∉ second := by
  have hpos : ∀ part : List Char, 1 ≤ (part.splitOn sep).length := fun part =>
    length_pos_of_ne_nil (splitOn_ne_nil sep part)
  have hmem : ∀ part : List Char, sep ∈ part → 2 ≤ (part.splitOn sep).length := by
    intro part hpart
    obtain ⟨before, after, heq⟩ := append_of_mem hpart
    rw [heq, splitOn_append_cons_self, length_append]
    have hbefore := hpos before
    have hafter := hpos after
    omega
  rw [splitOn_append_cons_self]
  constructor
  · intro hpair
    obtain ⟨name, comment, heq⟩ := hpair
    have hlength := congrArg List.length heq
    rw [length_append, length_cons, length_singleton] at hlength
    have hfirst := hpos first
    have hsecond := hpos second
    constructor
    · intro hsep
      have htwo := hmem first hsep
      omega
    · intro hsep
      have htwo := hmem second hsep
      omega
  · intro hnone
    rw [splitOn_eq_singleton hnone.1, splitOn_eq_singleton hnone.2]
    exact ⟨first, second, rfl⟩

theorem parseUnixgroup_groupData (hname : nul ∉ group.group.toList) (hgid : group.gid < 2 ^ 32) :
    parseUnixgroup sid (groupData group) = .ok (groupEntry sid group) := by
  have htype : LsaSidtype.ofValue? (groupData group).sidType.toNat = some .alias := rfl
  have htext : (groupData group).text.dropLast.splitOn nul = [group.group.toList, []] := by
    have hdrop : (groupData group).text.dropLast = group.group.toList ++ nul :: [] := by
      unfold groupData
      rw [append_cons, dropLast_concat]
    rw [hdrop, splitOn_append_cons_self, splitOn_eq_singleton hname]
    rfl
  have hnat : (groupData group).gid.toNat = group.gid := by
    exact Nat.mod_eq_of_lt hgid
  unfold parseUnixgroup
  rw [htype, htext]
  simp only [hnat, String.ofList_toList]
  rfl

theorem notMem_of_parseUnixgroup {entry : SMBGroupMap}
    (hparse : parseUnixgroup sid (groupData group) = .ok entry) :
    nul ∉ group.group.toList := by
  have hdrop : (groupData group).text.dropLast = group.group.toList ++ nul :: [] := by
    unfold groupData
    rw [append_cons, dropLast_concat]
  unfold parseUnixgroup at hparse
  split at hparse
  · rename_i name comment _ hsplit
    rw [hdrop] at hsplit
    exact (splitOn_eq_pair_iff.mp ⟨name, comment, hsplit⟩).1
  · cases hparse

theorem sid_of_parseUnixgroup {data : UnixgroupData} {entry : SMBGroupMap}
    (hparse : parseUnixgroup sid data = .ok entry) : entry.sid = sid := by
  unfold parseUnixgroup at hparse
  split at hparse
  · cases hparse
    rfl
  · cases hparse

section

variable {file : Dict String UnixgroupData} {entries : List SMBGroupMap}

theorem mem_queryGroupmapEntries_iff (hquery : queryGroupmapEntries file = .ok entries)
    {entry : SMBGroupMap} :
    entry ∈ entries ↔ ∃ data, file.get? entry.sid = some data ∧
      parseUnixgroup entry.sid data = .ok entry := by
  constructor
  · intro hmem
    obtain ⟨item, hitem, hparse⟩ := exists_of_mem_mapM_results hquery hmem
    rw [sid_of_parseUnixgroup hparse]
    exact ⟨item.2, Dict.mem_entries_iff.mp hitem, hparse⟩
  · intro hfound
    obtain ⟨data, hdata, hparse⟩ := hfound
    obtain ⟨found, hmem, hsame⟩ := exists_mem_mapM_results hquery (Dict.mem_entries_iff.mpr hdata)
    rw [hparse, Except.ok.injEq] at hsame
    rw [hsame]
    exact hmem

theorem exists_query_iff : (∃ entries, queryGroupmapEntries file = .ok entries) ↔
    ∀ sid data, file.get? sid = some data → ∃ entry, parseUnixgroup sid data = .ok entry := by
  constructor
  · intro hquery sid data hdata
    obtain ⟨entries, hquery⟩ := hquery
    obtain ⟨entry, _, hparse⟩ := exists_mem_mapM_results hquery (Dict.mem_entries_iff.mpr hdata)
    exact ⟨entry, hparse⟩
  · intro hparse
    apply exists_mapM_eq_ok
    intro item hitem
    exact hparse item.1 item.2 (Dict.mem_entries_iff.mp hitem)

end

/-! ## The mapping and the table -/

section

variable {digits : DecimalDigits} (server : ServerSid digits)

def IsLocalSid (sid : String) : Prop :=
  startsWith sid (server.text ++ "-") = true

structure MapsGroup (pk : ℕ) (group : GroupRow) (entry : SMBGroupMap) :
    Prop where
  sid : groupSid server pk group = .ok (some entry.sid)
  gid : entry.gid = group.gid
  name : entry.name = group.group

/-- Among the groups and the entries in question, the entries under the SID of
the server are exactly one for each group with `smb`. -/
structure Mirrors (isGroup : GroupRow → Prop) (isEntry : SMBGroupMap → Prop)
    (groups : Dict ℕ GroupRow) (entries : List SMBGroupMap) : Prop where
  mapped : ∀ pk group, groups.get? pk = some group → group.smb = true → isGroup group →
    ∃! entry, entry ∈ entries ∧ MapsGroup server pk group entry
  owned : ∀ entry ∈ entries, IsLocalSid server entry.sid → isEntry entry →
    ∃! pk, ∃ group, groups.get? pk = some group ∧ group.smb = true ∧
      isGroup group ∧ MapsGroup server pk group entry

def GroupmapState.Mirrored (state : GroupmapState) : Prop :=
  ∃ entries, queryGroupmapEntries state.mapping = .ok entries ∧
    Mirrors server (fun _ => True) (fun _ => True) state.store.groups entries

def builtinGroupNames : List String :=
  ["builtin_administrators", "builtin_guests"]

def OrdinaryName (name : String) : Prop :=
  name ∉ builtinGroupNames ∧ nul ∉ name.toList

instance (name : String) : Decidable (OrdinaryName name) :=
  inferInstanceAs (Decidable (_ ∧ _))

def rowSid (pk : ℕ) : String :=
  server.sid (pk + baseRidGroup)

theorem rowSid_injective {first second : ℕ}
    (heq : rowSid server first = rowSid server second) : first = second := by
  have hrid := withRid_injective heq
  omega

variable {pk : ℕ}

theorem rowSid_ne {rid : ℕ} (hrid : rid < baseRidGroup) : rowSid server pk ≠ server.sid rid := by
  intro heq
  have hsame := withRid_injective heq
  omega

theorem isLocalSid_rowSid (pk : ℕ) : IsLocalSid server (rowSid server pk) := by
  have hparts : (rowSid server pk).toList = (server.text ++ "-").toList ++
      (toString (pk + baseRidGroup)).toList := String.toList_append
  unfold IsLocalSid
  rw [startsWith_iff, hparts]
  exact prefix_append _ _

theorem groupSid_of_ordinary (hname : group.group ∉ builtinGroupNames)
    (hsmb : group.smb = true) (hpk : pk < baseSyntheticDatastoreId) :
    groupSid server pk group = .ok (some (rowSid server pk)) := by
  simp only [builtinGroupNames, mem_cons, not_mem_nil, or_false, not_or] at hname
  have hrid : dbIdToRid pk = .ok (pk + baseRidGroup) := if_neg (Nat.not_le_of_lt hpk)
  unfold groupSid
  rw [if_neg hname.1, if_neg hname.2, hsmb, hrid]
  rfl

theorem groupSid_eq_rowSid {other : ℕ}
    (hsid : groupSid server pk group = .ok (some (rowSid server other))) :
    group.group ∉ builtinGroupNames ∧ group.smb = true ∧ pk = other := by
  unfold groupSid at hsid
  split_ifs at hsid with hadmins hguests hsmb
  · rw [Except.ok.injEq, some.injEq] at hsid
    exact absurd hsid.symm (rowSid_ne server (by decide))
  · rw [Except.ok.injEq, some.injEq] at hsid
    exact absurd hsid.symm (rowSid_ne server (by decide))
  · obtain ⟨rid, hrid, hsid⟩ := bind_eq_ok_iff.mp hsid
    unfold dbIdToRid at hrid
    split at hrid
    · cases hrid
    · rw [Except.ok.injEq] at hrid
      rw [Except.ok.injEq, some.injEq, ← hrid] at hsid
      refine ⟨?_, hsmb, rowSid_injective server hsid⟩
      simp [builtinGroupNames, hadmins, hguests]
  · cases hsid

namespace GroupmapState

variable {state : GroupmapState}

def Written (state : GroupmapState) : Prop :=
  ∀ sid data, state.mapping.get? sid = some data →
    ∃ pk group, pk < baseSyntheticDatastoreId ∧ group.gid < 2 ^ 32 ∧
      sid = rowSid server pk ∧ data = groupData group

def expectedData (row : Option GroupRow) : Option UnixgroupData :=
  (row.filter GroupRow.smb).map groupData

/-- The mapping is what the calls write for the rows with `smb`. -/
structure Exact (state : GroupmapState) : Prop where
  mapped : ∀ pk, state.mapping.get? (rowSid server pk) = expectedData (state.store.groups.get? pk)
  sound : ∀ pk group, state.store.groups.get? pk = some group →
    group.smb = true → pk < baseSyntheticDatastoreId ∧ group.gid < 2 ^ 32 ∧ OrdinaryName group.group

variable {row : Option GroupRow}

theorem expectedData_eq_some {data : UnixgroupData} : expectedData row = some data ↔
    ∃ group, row = some group ∧ group.smb = true ∧ groupData group = data := by
  unfold expectedData
  cases row with
  | none => simp
  | some group => simp [filter_eq_some_iff, and_assoc]

variable (hexact : state.Exact server)

include hexact

theorem Exact.get?_eq_some (hwritten : state.Written server) {data : UnixgroupData} :
    state.mapping.get? sid = some data ↔ ∃ pk group, state.store.groups.get? pk = some group ∧
        group.smb = true ∧ sid = rowSid server pk ∧ data = groupData group := by
  constructor
  · intro hdata
    obtain ⟨pk, _, _, _, hsid, _⟩ := hwritten sid data hdata
    rw [hsid, hexact.mapped, expectedData_eq_some] at hdata
    obtain ⟨group, hgroup, hsmb, heq⟩ := hdata
    exact ⟨pk, group, hgroup, hsmb, hsid, heq.symm⟩
  · intro hrow
    obtain ⟨pk, group, hgroup, hsmb, hsid, hdata⟩ := hrow
    rw [hsid, hexact.mapped, expectedData_eq_some]
    exact ⟨group, hgroup, hsmb, hdata.symm⟩

theorem Exact.mapsGroup (hgroup : state.store.groups.get? pk = some group)
    (hsmb : group.smb = true) :
    MapsGroup server pk group (groupEntry (rowSid server pk) group) := by
  obtain ⟨hpk, _, hname, _⟩ := hexact.sound pk group hgroup hsmb
  exact ⟨groupSid_of_ordinary server hname hsmb hpk, rfl, rfl⟩

theorem Exact.parse (hgroup : state.store.groups.get? pk = some group)
    (hsmb : group.smb = true) : parseUnixgroup (rowSid server pk) (groupData group) =
    .ok (groupEntry (rowSid server pk) group) := by
  obtain ⟨_, hgid, _, hnul⟩ := hexact.sound pk group hgroup hsmb
  exact parseUnixgroup_groupData hnul hgid

theorem Exact.mirrored (hwritten : state.Written server) : state.Mirrored server := by
  have hreadable : ∀ sid data, state.mapping.get? sid = some data →
      ∃ entry, parseUnixgroup sid data = .ok entry := by
    intro sid data hdata
    obtain ⟨pk, group, hgroup, hsmb, hsid, heq⟩ := (hexact.get?_eq_some server hwritten).mp hdata
    rw [hsid, heq]
    exact ⟨_, hexact.parse server hgroup hsmb⟩
  obtain ⟨entries, hquery⟩ := exists_query_iff.mpr hreadable
  have hmem : ∀ entry, entry ∈ entries ↔ ∃ pk group, state.store.groups.get? pk = some group ∧
        group.smb = true ∧ entry = groupEntry (rowSid server pk) group := by
    intro entry
    rw [mem_queryGroupmapEntries_iff hquery]
    constructor
    · intro hfound
      obtain ⟨data, hdata, hparse⟩ := hfound
      obtain ⟨pk, group, hgroup, hsmb, hsid, heq⟩ := (hexact.get?_eq_some server hwritten).mp hdata
      rw [hsid, heq, hexact.parse server hgroup hsmb, Except.ok.injEq] at hparse
      exact ⟨pk, group, hgroup, hsmb, hparse.symm⟩
    · intro hrow
      obtain ⟨pk, group, hgroup, hsmb, heq⟩ := hrow
      rw [heq]
      exact ⟨groupData group, (hexact.get?_eq_some server hwritten).mpr
        ⟨pk, group, hgroup, hsmb, rfl, rfl⟩, hexact.parse server hgroup hsmb⟩
  refine ⟨entries, hquery, ?_, ?_⟩
  · intro pk group hgroup hsmb _
    refine ⟨groupEntry (rowSid server pk) group, ⟨(hmem _).mpr ⟨pk, group, hgroup, hsmb, rfl⟩,
        hexact.mapsGroup server hgroup hsmb⟩, ?_⟩
    intro other hother
    obtain ⟨otherPk, otherGroup, hotherGroup, _, heq⟩ := (hmem other).mp hother.1
    have hsid := hother.2.sid
    rw [heq] at hsid
    obtain ⟨_, _, hpk⟩ := groupSid_eq_rowSid server hsid
    rw [← hpk, hgroup, some.injEq] at hotherGroup
    rw [heq, ← hpk, hotherGroup]
  · intro entry hentry _ _
    obtain ⟨pk, group, hgroup, hsmb, heq⟩ := (hmem entry).mp hentry
    rw [heq]
    refine ⟨pk, ⟨group, hgroup, hsmb, trivial, hexact.mapsGroup server hgroup hsmb⟩, ?_⟩
    intro other hother
    obtain ⟨otherGroup, _, _, _, hmaps⟩ := hother
    exact (groupSid_eq_rowSid server hmaps.sid).2.2

omit hexact

theorem Mirrored.exact (hmirrored : state.Mirrored server)
    (hwritten : state.Written server) : state.Exact server := by
  obtain ⟨entries, hquery, hmirrors⟩ := hmirrored
  have hrow : ∀ pk group, state.store.groups.get? pk = some group →
      group.smb = true → pk < baseSyntheticDatastoreId ∧
        group.gid < 2 ^ 32 ∧ OrdinaryName group.group ∧
        state.mapping.get? (rowSid server pk) = some (groupData group) := by
    intro pk group hgroup hsmb
    obtain ⟨entry, ⟨hentry, hmaps⟩, _⟩ := hmirrors.mapped pk group hgroup hsmb trivial
    obtain ⟨data, hdata, hparse⟩ := (mem_queryGroupmapEntries_iff hquery).mp hentry
    obtain ⟨other, written, hother, hgid, hsid, heq⟩ := hwritten entry.sid data hdata
    have hnul := notMem_of_parseUnixgroup (heq ▸ hparse)
    rw [heq, parseUnixgroup_groupData hnul hgid, Except.ok.injEq] at hparse
    have hname : written.group = group.group := by
      rw [← hmaps.name, ← hparse]
      rfl
    have hsameGid : written.gid = group.gid := by
      have hcast := hmaps.gid
      rw [← hparse] at hcast
      exact Int.ofNat.inj hcast
    have hgroupSid := hmaps.sid
    rw [hsid] at hgroupSid
    obtain ⟨hordinary, _, hpk⟩ := groupSid_eq_rowSid server hgroupSid
    rw [hsid, heq, ← hpk] at hdata
    have hsame : groupData written = groupData group := by
      unfold groupData
      rw [hname, hsameGid]
    rw [hsame] at hdata
    exact ⟨hpk ▸ hother, hsameGid ▸ hgid, ⟨hordinary, hname ▸ hnul⟩, hdata⟩
  constructor
  · intro pk
    cases hget : state.mapping.get? (rowSid server pk) with
    | some data =>
      obtain ⟨entry, hparse⟩ := exists_query_iff.mp ⟨entries, hquery⟩ _ _ hget
      have hsid := sid_of_parseUnixgroup hparse
      have hentry : entry ∈ entries := by
        rw [mem_queryGroupmapEntries_iff hquery, hsid]
        exact ⟨data, hget, hparse⟩
      have hlocal : IsLocalSid server entry.sid := by
        rw [hsid]
        exact isLocalSid_rowSid server pk
      obtain ⟨owner, ⟨group, hgroup, hsmb, _, hmaps⟩, _⟩ :=
        hmirrors.owned entry hentry hlocal trivial
      have hgroupSid := hmaps.sid
      rw [hsid] at hgroupSid
      obtain ⟨_, _, hpk⟩ := groupSid_eq_rowSid server hgroupSid
      rw [hpk] at hgroup
      have hdata := (hrow pk group hgroup hsmb).2.2.2
      rw [← hget, hdata, hgroup]
      exact (expectedData_eq_some.mpr ⟨group, rfl, hsmb, rfl⟩).symm
    | none =>
      symm
      rw [eq_none_iff_forall_ne_some]
      intro data hdata
      obtain ⟨group, hgroup, hsmb, _⟩ := expectedData_eq_some.mp hdata
      rw [(hrow pk group hgroup hsmb).2.2.2] at hget
      cases hget
  · intro pk group hgroup hsmb
    obtain ⟨hpk, hgid, hname, _⟩ := hrow pk group hgroup hsmb
    exact ⟨hpk, hgid, hname⟩

theorem mirrored_iff_exact (hwritten : state.Written server) :
    state.Mirrored server ↔ state.Exact server :=
  ⟨fun hmirrored => hmirrored.exact server hwritten, fun hexact => hexact.mirrored server hwritten⟩

/-! ## One call -/

structure Changes (pk : ℕ) (row : Option GroupRow) (data : Option UnixgroupData)
    (state next : GroupmapState) : Prop where
  groups : ∀ j, next.store.groups.get? j = if j = pk then row else state.store.groups.get? j
  mapping : ∀ sid, next.mapping.get? sid =
    if sid = rowSid server pk then data else state.mapping.get? sid

variable {next : GroupmapState}

theorem Exact.iff_of_changes {data : Option UnixgroupData} (hexact : state.Exact server)
    (hchanges : Changes server pk row data state next) :
    next.Exact server ↔ data = expectedData row ∧ ∀ group, row = some group → group.smb = true →
        pk < baseSyntheticDatastoreId ∧ group.gid < 2 ^ 32 ∧ OrdinaryName group.group := by
  have hmapping : ∀ j, next.mapping.get? (rowSid server j) =
      if j = pk then data else state.mapping.get? (rowSid server j) := by
    intro j
    rw [hchanges.mapping]
    by_cases hj : j = pk
    · rw [if_pos hj, hj, if_pos rfl]
    · rw [if_neg hj, if_neg fun heq => hj (rowSid_injective server heq)]
  constructor
  · intro hnext
    constructor
    · have hpk := hnext.mapped pk
      rw [hmapping, hchanges.groups, if_pos rfl, if_pos rfl] at hpk
      exact hpk
    · intro group hrow
      apply hnext.sound pk group
      rw [hchanges.groups, if_pos rfl]
      exact hrow
  · intro hown
    constructor
    · intro j
      rw [hmapping, hchanges.groups]
      split_ifs
      · exact hown.1
      · exact hexact.mapped j
    · intro j group hgroup
      rw [hchanges.groups] at hgroup
      split_ifs at hgroup with hj
      · rw [hj]
        exact hown.2 group hgroup
      · exact hexact.sound j group hgroup

theorem Written.of_changes {data : Option UnixgroupData} (hwritten : state.Written server)
    (hchanges : Changes server pk row data state next)
    (hdata : ∀ written, data = some written → state.mapping.get? (rowSid server pk) = some written ∨
        ∃ group, pk < baseSyntheticDatastoreId ∧ group.gid < 2 ^ 32 ∧
          written = groupData group) : next.Written server := by
  intro sid written hget
  rw [hchanges.mapping] at hget
  split_ifs at hget with hsid
  · rcases hdata written hget with hold | hnew
    · exact hwritten sid written (hsid ▸ hold)
    · obtain ⟨group, hpk, hgid, heq⟩ := hnew
      exact ⟨pk, group, hpk, hgid, hsid, heq⟩
  · exact hwritten sid written hget

end GroupmapState

theorem addGroupmap_eq_ok {file next : Dict String UnixgroupData}
    (hadd : addGroupmap server pk group file = .ok next) :
    pk < baseSyntheticDatastoreId ∧ group.gid < 2 ^ 32 ∧
      next = file.set (rowSid server pk) (groupData group) := by
  unfold addGroupmap dbIdToRid at hadd
  split_ifs at hadd with hpk
  · cases hadd
  · rw [ok_bind] at hadd
    have hentry : (⟨server.sid (pk + baseRidGroup), group.gid, .alias,
        group.group, ""⟩ : SMBGroupMap) =
        groupEntry (rowSid server pk) group := rfl
    unfold insertGroupmapEntries at hadd
    rw [hentry, mapM_cons, mapM_nil, packOperation, groupmapToTdbVal_groupEntry] at hadd
    split_ifs at hadd with hgid
    · exact ⟨Nat.lt_of_not_le hpk, hgid, (Except.ok.inj hadd).symm⟩
    · cases hadd

theorem delGroupmap_eq_ok {file next : Dict String UnixgroupData}
    (hdel : delGroupmap server pk file = .ok next) :
    next = file.erase (rowSid server pk) := by
  unfold delGroupmap dbIdToRid at hdel
  split_ifs at hdel
  · cases hdel
  · rw [ok_bind] at hdel
    unfold deleteGroupmapEntry at hdel
    split_ifs at hdel
    exact (Except.ok.inj hdel).symm

theorem liftAccount_eq_ok {α : Type} {result : Except AccountError α} {a : α}
    (hlift : liftAccount result = .ok a) : result = .ok a := by
  cases result with
  | ok b => exact congrArg _ (Except.ok.inj hlift)
  | error error => cases hlift

namespace GroupmapState

variable {state next : GroupmapState} {env : GroupEnv}

variable {store : AccountStore} {row : Option GroupRow}

variable
  (hgroups : ∀ j, store.groups.get? j = if j = pk then row else state.store.groups.get? j)

include hgroups

theorem changes_of_set {written : UnixgroupData} : Changes server pk row (some written) state
    ⟨store, state.mapping.set (rowSid server pk) written⟩ :=
  ⟨hgroups, fun sid => get?_set state.mapping _ sid written⟩

theorem changes_of_erase :
    Changes server pk row none state ⟨store, state.mapping.erase (rowSid server pk)⟩ :=
  ⟨hgroups, fun sid => get?_erase state.mapping _ sid⟩

theorem changes_of_same :
    Changes server pk row (state.mapping.get? (rowSid server pk)) state ⟨store, state.mapping⟩ := by
  refine ⟨hgroups, ?_⟩
  intro sid
  split_ifs with hsid
  · rw [hsid]
  · rfl

omit hgroups

def createdRow (state : GroupmapState) (data : GroupCreate) : GroupRow where
  gid := data.gid.getD state.store.getNextGid
  group := data.name
  smb := data.smb

def createdId (state : GroupmapState) : ℕ :=
  AccountStore.nextId state.store.groups

theorem createdId_get? (state : GroupmapState) :
    state.store.groups.get? state.createdId = none := by
  rw [get?_eq_none_iff]
  intro hmem
  have hle := AccountStore.le_foldr_max (Dict.mem_def.mp hmem)
  unfold createdId AccountStore.nextId at hle
  omega

theorem createInternal_cases {data : GroupCreate}
    (hcreate : state.createInternal server env data = .ok next) :
    Changes server state.createdId (some (state.createdRow data))
      (if data.smb then some (groupData (state.createdRow data))
        else state.mapping.get? (rowSid server state.createdId)) state next ∧
    (data.smb = true → state.createdId < baseSyntheticDatastoreId ∧
      (state.createdRow data).gid < 2 ^ 32) := by
  unfold createInternal at hcreate
  split at hcreate
  · cases hcreate
  obtain ⟨store, hstore, hrest⟩ := bind_eq_ok_iff.mp hcreate
  have hgroups : ∀ j, store.groups.get? j = if j = state.createdId then
      some (state.createdRow data) else state.store.groups.get? j := by
    have hstore := liftAccount_eq_ok hstore
    obtain ⟨_, _, hstore⟩ := bind_eq_ok_iff.mp hstore
    rw [← Except.ok.inj hstore]
    intro j
    exact get?_set state.store.groups _ j _
  cases hsmb : data.smb with
  | true =>
    rw [hsmb, if_pos rfl] at hrest
    obtain ⟨mapping, hadd, hnext⟩ := bind_eq_ok_iff.mp hrest
    obtain ⟨hpk, hgid, hmapping⟩ := addGroupmap_eq_ok server hadd
    rw [← Except.ok.inj hnext, hmapping]
    exact ⟨changes_of_set server hgroups, fun _ => ⟨hpk, hgid⟩⟩
  | false =>
    rw [hsmb] at hrest
    rw [← Except.ok.inj hrest]
    exact ⟨changes_of_same server hgroups, fun hfalse => by cases hfalse⟩

def updatedRow (group : GroupRow) (data : GroupUpdate) : GroupRow :=
  { group with group := data.name.getD group.group, smb := data.smb.getD group.smb }

def updatedData (group : GroupRow) (data : GroupUpdate)
    (old : Option UnixgroupData) : Option UnixgroupData :=
  let row := updatedRow group data
  if row.group ≠ group.group then
    if row.smb then some (groupData row) else old
  else if row.smb && !group.smb then some (groupData row)
  else if group.smb && !row.smb then none
  else old

variable {data : GroupUpdate}

theorem updateGroupmap_cases {mapping : Dict String UnixgroupData}
    (hgroups : ∀ j, store.groups.get? j = if j = pk then some (updatedRow group data)
      else state.store.groups.get? j)
    (hupdate : updateGroupmap server pk group data state.mapping = .ok mapping) :
    Changes server pk (some (updatedRow group data))
      (updatedData group data (state.mapping.get? (rowSid server pk))) state
      ⟨store, mapping⟩ ∧
    ((updatedRow group data).smb = true →
      ((updatedRow group data).group ≠ group.group ∨ group.smb = false) →
      pk < baseSyntheticDatastoreId ∧ group.gid < 2 ^ 32) := by
  have hrenamed : data.name.any (· ≠ group.group) = true ↔
      (updatedRow group data).group ≠ group.group := by
    unfold updatedRow
    cases data.name with
    | none => simp
    | some name => simp
  have hname : groupData { group with group := data.name.getD group.group } =
      groupData (updatedRow group data) := rfl
  have hnew : data.smb.getD group.smb = (updatedRow group data).smb := rfl
  unfold updateGroupmap at hupdate
  unfold updatedData
  simp only [hrenamed, hnew] at hupdate
  by_cases hren : (updatedRow group data).group ≠ group.group
  · rw [if_pos hren] at hupdate ⊢
    cases hsmb : (updatedRow group data).smb with
    | true =>
      rw [hsmb, if_pos rfl] at hupdate
      obtain ⟨hpk, hgid, hmapping⟩ := addGroupmap_eq_ok server hupdate
      rw [hmapping, hname]
      exact ⟨changes_of_set server hgroups, fun _ _ => ⟨hpk, hgid⟩⟩
    | false =>
      rw [hsmb] at hupdate
      rw [← Except.ok.inj hupdate]
      exact ⟨changes_of_same server hgroups, fun hfalse => by cases hfalse⟩
  · rw [if_neg hren] at hupdate ⊢
    have hsame : groupData group = groupData (updatedRow group data) := by
      unfold groupData
      rw [not_not.mp hren]
      rfl
    cases hsmb : (updatedRow group data).smb with
    | true =>
      cases hold : group.smb with
      | true =>
        rw [hsmb, hold] at hupdate
        rw [← Except.ok.inj hupdate]
        refine ⟨changes_of_same server hgroups, ?_⟩
        intro _ hadded
        rcases hadded with hne | hfalse
        · exact absurd hne hren
        · cases hfalse
      | false =>
        rw [hsmb, hold] at hupdate
        obtain ⟨hpk, hgid, hmapping⟩ := addGroupmap_eq_ok server hupdate
        rw [hmapping, hsame]
        exact ⟨changes_of_set server hgroups, fun _ _ => ⟨hpk, hgid⟩⟩
    | false =>
      cases hold : group.smb with
      | true =>
        rw [hsmb, hold] at hupdate
        rw [delGroupmap_eq_ok server hupdate]
        exact ⟨changes_of_erase server hgroups, fun hfalse => by cases hfalse⟩
      | false =>
        rw [hsmb, hold] at hupdate
        rw [← Except.ok.inj hupdate]
        exact ⟨changes_of_same server hgroups, fun hfalse => by cases hfalse⟩

theorem doUpdate_cases {gid : Option ℕ}
    (hupdate : state.doUpdate server env pk gid data = .ok next) :
    ∃ group, state.store.groups.get? pk = some group ∧
      Changes server pk (some (updatedRow group data))
        (updatedData group data (state.mapping.get? (rowSid server pk))) state
        next ∧
      ((updatedRow group data).smb = true →
        ((updatedRow group data).group ≠ group.group ∨ group.smb = false) →
        pk < baseSyntheticDatastoreId ∧ group.gid < 2 ^ 32) := by
  unfold doUpdate at hupdate
  split at hupdate
  · cases hupdate
  obtain ⟨store, hstore, hrest⟩ := bind_eq_ok_iff.mp hupdate
  obtain ⟨group, hgroup, hrest⟩ := bind_eq_ok_iff.mp hrest
  obtain ⟨mapping, hmapping, hnext⟩ := bind_eq_ok_iff.mp hrest
  have hgroup := liftAccount_eq_ok hgroup
  have hgroups : ∀ j, store.groups.get? j = if j = pk then
      some (updatedRow group data) else state.store.groups.get? j := by
    have hstore := liftAccount_eq_ok hstore
    obtain ⟨_, _, hstore⟩ := bind_eq_ok_iff.mp hstore
    obtain ⟨found, hfound, hstore⟩ := bind_eq_ok_iff.mp hstore
    obtain ⟨_, _, hstore⟩ := bind_eq_ok_iff.mp hstore
    rw [hgroup, Except.ok.injEq] at hfound
    rw [← Except.ok.inj hstore, hfound]
    intro j
    exact get?_set state.store.groups _ j _
  rw [← Except.ok.inj hnext]
  exact ⟨group, AccountStore.getRow_eq_ok_iff.mp hgroup,
    updateGroupmap_cases server hgroups hmapping⟩

theorem doDelete_cases {deleteUsers : Bool}
    (hdelete : state.doDelete server pk deleteUsers = .ok next) :
    ∃ group, state.store.groups.get? pk = some group ∧ Changes server pk none
        (if group.smb then none else state.mapping.get? (rowSid server pk))
        state next := by
  obtain ⟨store, hstore, hrest⟩ := bind_eq_ok_iff.mp hdelete
  obtain ⟨group, hgroup, hrest⟩ := bind_eq_ok_iff.mp hrest
  have hgroups : ∀ j, store.groups.get? j = if j = pk then none else state.store.groups.get? j := by
    obtain ⟨nogroup, _, hstore⟩ := AccountStore.groupDelete_accepted (liftAccount_eq_ok hstore)
    intro j
    rw [hstore, AccountStore.deleteGroupRow, AccountStore.releaseUsers_groups]
    exact get?_erase _ _ j
  refine ⟨group, AccountStore.getRow_eq_ok_iff.mp (liftAccount_eq_ok hgroup), ?_⟩
  cases hsmb : group.smb with
  | true =>
    rw [hsmb, if_pos rfl] at hrest
    obtain ⟨mapping, hdel, hnext⟩ := bind_eq_ok_iff.mp hrest
    rw [← Except.ok.inj hnext, delGroupmap_eq_ok server hdel]
    exact changes_of_erase server hgroups
  | false =>
    rw [hsmb] at hrest
    rw [← Except.ok.inj hrest]
    exact changes_of_same server hgroups

/-! ## Every call -/

/-- No call makes a group with `smb` one of a name that is not ordinary, and
none takes `smb` away together with the name. -/
def KeepsMapping (state : GroupmapState) : GroupCall → Prop
  | .create data => data.smb = true → OrdinaryName data.name
  | .update pk _ data => ∀ group ∈ state.store.groups.get? pk, ((updatedRow group data).smb = true →
        OrdinaryName (updatedRow group data).group) ∧
      (group.smb = true → (updatedRow group data).smb = false →
        (updatedRow group data).group = group.group)
  | .delete _ _ => True

instance (state : GroupmapState) (call : GroupCall) :
    Decidable (state.KeepsMapping call) :=
  match call with
  | .create _ => inferInstanceAs (Decidable (_ → _))
  | .update pk _ _ => inferInstanceAs (Decidable (∀ group ∈ state.store.groups.get? pk, _ ∧ _))
  | .delete _ _ => isTrue trivial

variable {call : GroupEnv × GroupCall}

theorem perform_of_step (hstep : state.step server call = some next) :
    state.perform server call.1 call.2 = .ok next := by
  unfold step at hstep
  cases hperform : state.perform server call.1 call.2 with
  | ok result =>
    rw [hperform] at hstep
    exact congrArg _ (some.inj hstep)
  | error error =>
    rw [hperform] at hstep
    cases hstep

theorem updatedData_eq_some {old : Option UnixgroupData} {written : UnixgroupData}
    (hdata : updatedData group data old = some written) :
    old = some written ∨ (written = groupData (updatedRow group data) ∧
      (updatedRow group data).smb = true ∧
      ((updatedRow group data).group ≠ group.group ∨ group.smb = false)) := by
  unfold updatedData at hdata
  simp only at hdata
  split_ifs at hdata with hren hsmb hadded
  · exact Or.inr ⟨(some.inj hdata).symm, hsmb, Or.inl hren⟩
  · exact Or.inl hdata
  · simp only [Bool.and_eq_true, Bool.not_eq_true'] at hadded
    exact Or.inr ⟨(some.inj hdata).symm, hadded.1, Or.inr hadded.2⟩
  · exact Or.inl hdata

theorem updatedData_expectedData : updatedData group data (expectedData (some group)) =
      expectedData (some (updatedRow group data)) ↔
    (group.smb = true → (updatedRow group data).smb = false →
      (updatedRow group data).group = group.group) := by
  have hexpected : ∀ row : GroupRow, expectedData (some row) =
      if row.smb then some (groupData row) else none := by
    intro row
    unfold expectedData
    cases hsmb : row.smb with
    | true => simp [hsmb]
    | false => simp [hsmb]
  have hsame : (updatedRow group data).group = group.group →
      groupData group = groupData (updatedRow group data) := by
    intro hname
    unfold groupData
    rw [hname]
    rfl
  rw [hexpected, hexpected]
  unfold updatedData
  simp only
  by_cases hren : (updatedRow group data).group = group.group
  · have hdata := hsame hren
    cases hold : group.smb with
    | true =>
      cases hsmb : (updatedRow group data).smb with
      | true => simp [hren, hdata]
      | false => simp [hren]
    | false =>
      cases hsmb : (updatedRow group data).smb with
      | true => simp [hren]
      | false => simp
  · cases hold : group.smb with
    | true =>
      cases hsmb : (updatedRow group data).smb with
      | true => simp [hren]
      | false => simp [hren]
    | false =>
      cases hsmb : (updatedRow group data).smb with
      | true => simp [hren]
      | false => simp [hren]

theorem Written.step (hwritten : state.Written server)
    (hstep : state.step server call = some next) : next.Written server := by
  have hperform := perform_of_step server hstep
  cases hcall : call.2 with
  | create data =>
    rw [hcall] at hperform
    obtain ⟨hchanges, hbounds⟩ := createInternal_cases server hperform
    apply hwritten.of_changes server hchanges
    intro written hdata
    split_ifs at hdata with hsmb
    · obtain ⟨hpk, hgid⟩ := hbounds hsmb
      exact Or.inr ⟨_, hpk, hgid, (some.inj hdata).symm⟩
    · exact Or.inl hdata
  | update pk gid data =>
    rw [hcall] at hperform
    obtain ⟨group, _, hchanges, hbounds⟩ := doUpdate_cases server hperform
    apply hwritten.of_changes server hchanges
    intro written hdata
    rcases updatedData_eq_some hdata with hold | hnew
    · exact Or.inl hold
    · obtain ⟨heq, hsmb, hadded⟩ := hnew
      obtain ⟨hpk, hgid⟩ := hbounds hsmb hadded
      exact Or.inr ⟨updatedRow group data, hpk, hgid, heq⟩
  | delete pk deleteUsers =>
    rw [hcall] at hperform
    obtain ⟨group, _, hchanges⟩ := doDelete_cases server hperform
    apply hwritten.of_changes server hchanges
    intro written hdata
    split_ifs at hdata
    exact Or.inl hdata

theorem Exact.step_iff (hexact : state.Exact server) (hstep : state.step server call = some next) :
    next.Exact server ↔ state.KeepsMapping call.2 := by
  have hperform := perform_of_step server hstep
  cases hcall : call.2 with
  | create data =>
    rw [hcall] at hperform
    obtain ⟨hchanges, hbounds⟩ := createInternal_cases server hperform
    have hfresh : state.mapping.get? (rowSid server state.createdId) = none := by
      rw [hexact.mapped, createdId_get?]
      rfl
    rw [hexact.iff_of_changes server hchanges, hfresh]
    constructor
    · intro hown hsmb
      exact (hown.2 _ rfl hsmb).2.2
    · intro hname
      constructor
      · unfold expectedData createdRow
        cases data.smb with
        | true => rfl
        | false => rfl
      · intro group hgroup hsmb
        rw [← some.inj hgroup] at hsmb ⊢
        obtain ⟨hpk, hgid⟩ := hbounds hsmb
        exact ⟨hpk, hgid, hname hsmb⟩
  | update pk gid data =>
    rw [hcall] at hperform
    obtain ⟨group, hgroup, hchanges, hbounds⟩ := doUpdate_cases server hperform
    have hold : state.mapping.get? (rowSid server pk) = expectedData (some group) := by
      rw [hexact.mapped, hgroup]
    rw [hexact.iff_of_changes server hchanges, hold, updatedData_expectedData]
    constructor
    · intro hown found hfound
      rw [Option.mem_def, hgroup, some.injEq] at hfound
      rw [← hfound]
      exact ⟨fun hsmb => (hown.2 _ rfl hsmb).2.2, hown.1⟩
    · intro hkeeps
      obtain ⟨hname, hown⟩ := hkeeps group hgroup
      refine ⟨hown, ?_⟩
      intro row hrow hsmb
      rw [← some.inj hrow] at hsmb ⊢
      by_cases hadded : (updatedRow group data).group ≠ group.group ∨ group.smb = false
      · obtain ⟨hpk, hgid⟩ := hbounds hsmb hadded
        exact ⟨hpk, hgid, hname hsmb⟩
      · rw [not_or, Bool.not_eq_false] at hadded
        obtain ⟨hpk, hgid, _⟩ := hexact.sound pk group hgroup hadded.2
        exact ⟨hpk, hgid, hname hsmb⟩
  | delete pk deleteUsers =>
    rw [hcall] at hperform
    obtain ⟨group, hgroup, hchanges⟩ := doDelete_cases server hperform
    have hold : state.mapping.get? (rowSid server pk) = expectedData (some group) := by
      rw [hexact.mapped, hgroup]
    rw [hexact.iff_of_changes server hchanges, hold]
    unfold expectedData KeepsMapping
    cases hsmb : group.smb with
    | true => simp
    | false => simp [hsmb]

structure Empty (state : GroupmapState) : Prop where
  groups : state.store.groups = Dict.empty
  mapping : state.mapping = Dict.empty

theorem Empty.written (hempty : state.Empty) : state.Written server := by
  intro sid data hget
  rw [hempty.mapping] at hget
  cases hget

theorem Empty.exact (hempty : state.Empty) : state.Exact server := by
  constructor
  · intro pk
    rw [hempty.mapping, hempty.groups]
    rfl
  · intro pk group hgroup
    rw [hempty.groups] at hgroup
    cases hgroup

theorem everyStep_keepsMapping_iff (hempty : state.Empty) {calls : List (GroupEnv × GroupCall)}
    (hrun : run (GroupmapState.step server) state calls = some next) :
    EveryStep (GroupmapState.step server)
        (fun state call => state.KeepsMapping call.2) state calls ↔
      ∀ k reached, run (GroupmapState.step server) state (calls.take k) =
        some reached → reached.Mirrored server := by
  have hwritten := hempty.written server
  apply everyStep_iff_forall_take (Written server) (p := Mirrored server)
    ?_ ?_ hwritten ((hempty.exact server).mirrored server hwritten) hrun
  · intro current call after hcurrent hstep
    exact hcurrent.step server hstep
  · intro current call after hcurrent hmirrored hstep
    rw [mirrored_iff_exact server (hcurrent.step server hstep)]
    exact (hmirrored.exact server hcurrent).step_iff server hstep

end GroupmapState

end

end Middlewared
