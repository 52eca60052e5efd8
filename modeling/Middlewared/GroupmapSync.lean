import Middlewared.GroupmapCalls

/-!
# What synchronization leaves in the group mapping

Listing the mapping drops the entries that cannot be right; what the groups of the table need is
then written over the rest.
-/

namespace Middlewared

open PyString TransitionSystem List

section

variable {digits : DecimalDigits} {server : ServerSid digits}

/-! ## Listing the mapping -/

def Keyed (server : ServerSid digits) (sid : String) (data : UnixgroupData)
    (key : GroupmapKey) : Prop :=
  ∃ entry, parseUnixgroup sid data = .ok entry ∧ groupmapKey server entry = .ok key

variable {sid : String}

theorem Keyed.unique {data : UnixgroupData} {first second : GroupmapKey}
    (hfirst : Keyed server sid data first)
    (hsecond : Keyed server sid data second) : first = second := by
  obtain ⟨entry, hentry, hkey⟩ := hfirst
  obtain ⟨other, hother, hkeyOther⟩ := hsecond
  rw [hentry, Except.ok.injEq] at hother
  rw [← hother, hkey] at hkeyOther
  exact Except.ok.inj hkeyOther

theorem gid_of_parseUnixgroup {data : UnixgroupData} {entry : SMBGroupMap}
    (hparse : parseUnixgroup sid data = .ok entry) :
    0 ≤ entry.gid ∧ entry.gid < 2 ^ 32 := by
  unfold parseUnixgroup at hparse
  split at hparse
  · have hlt := data.gid.toNat_lt
    cases hparse
    constructor
    · exact Int.natCast_nonneg _
    · change (data.gid.toNat : ℤ) < 2 ^ 32
      exact_mod_cast hlt
  · cases hparse

variable {files : GroupmapFiles}

theorem fixEntry_ok {entry : SMBGroupMap} (hgid : 0 ≤ entry.gid ∧ entry.gid < 2 ^ 32) :
    ∃ next, fixEntry files entry = .ok next ∧ ∀ sid, next.mapping.get? sid =
        if sid = entry.sid then none else files.mapping.get? sid := by
  have hinsert : insertGroupmapEntries files.reject
      [{ entry with sidType := .alias }] = .ok (files.reject.update [(entry.sid, {
          gid := UInt32.ofNat entry.gid.toNat
          sidType := UInt32.ofNat LsaSidtype.alias.value
          text := entry.name.toList ++
            nul :: (entry.comment.toList ++ [nul]) })]) := by
    unfold insertGroupmapEntries
    rw [mapM_cons, mapM_nil, packOperation, groupmapToTdbVal, if_pos hgid]
    rfl
  have hne : entry.gid ≠ -1 := by omega
  unfold fixEntry
  rw [if_pos hne, hinsert, ok_bind]
  unfold deleteGroupmapEntry
  by_cases hmem : entry.sid ∈ files.mapping
  · rw [if_pos hmem]
    exact ⟨_, rfl, Dict.get?_erase files.mapping entry.sid⟩
  · rw [if_neg hmem]
    refine ⟨_, rfl, ?_⟩
    intro sid
    split_ifs with hsid
    · rw [hsid]
      exact Dict.get?_eq_none_iff.mpr hmem
    · rfl

theorem foldlM_fixEntry {entries : List SMBGroupMap}
    (hgids : ∀ entry ∈ entries, 0 ≤ entry.gid ∧ entry.gid < 2 ^ 32)
    (files : GroupmapFiles) :
    ∃ next, entries.foldlM fixEntry files = .ok next ∧ ∀ sid, next.mapping.get? sid =
        if sid ∈ entries.map SMBGroupMap.sid then none
        else files.mapping.get? sid := by
  induction entries generalizing files with
  | nil => exact ⟨files, rfl, fun sid => by simp⟩
  | cons entry rest ih =>
    rw [forall_mem_cons] at hgids
    obtain ⟨middle, hmiddle, hentry⟩ := @fixEntry_ok files entry hgids.1
    obtain ⟨next, hnext, hrest⟩ := ih hgids.2 middle
    refine ⟨next, ?_, ?_⟩
    · rw [foldlM_cons, hmiddle]
      exact hnext
    · intro sid
      rw [hrest, hentry]
      by_cases hsid : sid = entry.sid
      · simp [hsid]
      · simp [hsid]

def Listed (server : ServerSid digits) (before after : Dict String UnixgroupData) :
    Prop :=
  ∀ sid data, after.get? sid = some data ↔ before.get? sid = some data ∧
    ∃ key, Keyed server sid data key ∧ key ≠ .toFix

def Listable (server : ServerSid digits) (mapping : Dict String UnixgroupData) :
    Prop :=
  ∀ sid data, mapping.get? sid = some data → ∃ key, Keyed server sid data key

section

variable {files : GroupmapFiles} {entries : List SMBGroupMap}
  {keyed : List (SMBGroupMap × GroupmapKey)}
  (hquery : queryGroupmapEntries files.mapping = .ok entries)
  (hkeyed : entries.mapM (keyEntry server) = .ok keyed)

include hquery hkeyed

theorem gid_of_mem_toFix : ∀ entry ∈ (keyed.filter (·.2 = .toFix)).map Prod.fst,
    0 ≤ entry.gid ∧ entry.gid < 2 ^ 32 := by
  intro entry hentry
  obtain ⟨item, hitem, hfst⟩ := mem_map.mp hentry
  obtain ⟨found, hfound, hkey⟩ := exists_of_mem_mapM_results hkeyed (mem_of_mem_filter hitem)
  obtain ⟨key, _, hsame⟩ := bind_eq_ok_iff.mp hkey
  obtain ⟨data, _, hparse⟩ := (mem_queryGroupmapEntries_iff hquery).mp hfound
  rw [← hfst, ← Except.ok.inj hsame]
  exact gid_of_parseUnixgroup hparse

theorem mem_toFix_iff : sid ∈ ((keyed.filter (·.2 = .toFix)).map Prod.fst).map SMBGroupMap.sid ↔
    ∃ data, files.mapping.get? sid = some data ∧ Keyed server sid data .toFix := by
  constructor
  · intro hmem
    obtain ⟨entry, hentry, hsid⟩ := mem_map.mp hmem
    obtain ⟨item, hitem, hfst⟩ := mem_map.mp hentry
    obtain ⟨hin, hfix⟩ := List.mem_filter.mp hitem
    obtain ⟨found, hfound, hkey⟩ := exists_of_mem_mapM_results hkeyed hin
    obtain ⟨key, hgroupKey, hsame⟩ := bind_eq_ok_iff.mp hkey
    have hsame := Except.ok.inj hsame
    obtain ⟨data, hdata, hparse⟩ := (mem_queryGroupmapEntries_iff hquery).mp hfound
    have hsid' : found.sid = sid := by
      rw [← hsid, ← hfst, ← hsame]
    rw [hsid'] at hdata hparse
    refine ⟨data, hdata, found, hparse, ?_⟩
    rw [hgroupKey]
    have hfix : item.2 = .toFix := of_decide_eq_true hfix
    rw [← hsame] at hfix
    exact congrArg _ hfix
  · intro hfound
    obtain ⟨data, hdata, entry, hparse, hkey⟩ := hfound
    have hsid := sid_of_parseUnixgroup hparse
    have hentry : entry ∈ entries := by
      rw [mem_queryGroupmapEntries_iff hquery, hsid]
      exact ⟨data, hdata, hparse⟩
    obtain ⟨item, hitem, hitemKey⟩ := exists_mem_mapM_results hkeyed hentry
    unfold keyEntry at hitemKey
    rw [hkey, ok_bind] at hitemKey
    have hitemKey := Except.ok.inj hitemKey
    apply mem_map.mpr
    refine ⟨entry, ?_, hsid⟩
    apply mem_map.mpr
    refine ⟨item, List.mem_filter.mpr ⟨hitem, ?_⟩, ?_⟩
    · rw [← hitemKey]
      rfl
    · rw [← hitemKey]

end

theorem groupmapList_eq_ok {next : GroupmapFiles} {groupmap : Groupmap}
    (hlist : groupmapList server files = .ok (groupmap, next)) :
    Listable server files.mapping ∧ Listed server files.mapping next.mapping := by
  obtain ⟨entries, hquery, hlist⟩ := bind_eq_ok_iff.mp hlist
  obtain ⟨keyed, hkeyed, hlist⟩ := bind_eq_ok_iff.mp hlist
  obtain ⟨final, hfinal, hlist⟩ := bind_eq_ok_iff.mp hlist
  have hnext : final = next := (Prod.mk.inj (Except.ok.inj hlist)).2
  have hlistable : Listable server files.mapping := by
    intro sid data hdata
    obtain ⟨entry, hparse⟩ := exists_query_iff.mp ⟨entries, hquery⟩ sid data hdata
    have hentry : entry ∈ entries := by
      rw [mem_queryGroupmapEntries_iff hquery, sid_of_parseUnixgroup hparse]
      exact ⟨data, hdata, hparse⟩
    obtain ⟨item, _, hitem⟩ := exists_mem_mapM_results hkeyed hentry
    obtain ⟨key, hkey, _⟩ := bind_eq_ok_iff.mp hitem
    exact ⟨key, entry, hparse, hkey⟩
  refine ⟨hlistable, ?_⟩
  obtain ⟨fixed, hfixed, hget⟩ := foldlM_fixEntry (gid_of_mem_toFix hquery hkeyed) files
  rw [hfinal, Except.ok.injEq] at hfixed
  rw [← hnext, hfixed]
  intro sid data
  rw [hget]
  constructor
  · intro hdata
    split_ifs at hdata with hfix
    obtain ⟨key, hkey⟩ := hlistable sid data hdata
    refine ⟨hdata, key, hkey, ?_⟩
    intro heq
    exact hfix ((mem_toFix_iff hquery hkeyed).mpr ⟨data, hdata, heq ▸ hkey⟩)
  · intro hkept
    obtain ⟨hdata, key, hkey, hne⟩ := hkept
    rw [if_neg, hdata]
    intro hfix
    obtain ⟨other, hother, hotherKey⟩ := (mem_toFix_iff hquery hkeyed).mp hfix
    rw [hdata, Option.some.injEq] at hother
    exact hne (hkey.unique (hother ▸ hotherKey))

theorem mem_locals_iff {next : GroupmapFiles} {groupmap : Groupmap}
    (hlist : groupmapList server files = .ok (groupmap, next)) (gid : ℤ) :
    gid ∈ groupmap.locals ↔ ∃ sid data entry, files.mapping.get? sid = some data ∧
      parseUnixgroup sid data = .ok entry ∧ groupmapKey server entry = .ok .locals ∧
      entry.gid = gid := by
  obtain ⟨entries, hquery, hlist⟩ := bind_eq_ok_iff.mp hlist
  obtain ⟨keyed, hkeyed, hlist⟩ := bind_eq_ok_iff.mp hlist
  obtain ⟨final, _, hlist⟩ := bind_eq_ok_iff.mp hlist
  have hlocals : entriesByGid .locals keyed = groupmap.locals :=
    congrArg (fun result => result.1.locals) (Except.ok.inj hlist)
  have hmem : ∀ entry key, (entry, key) ∈ keyed ↔
      entry ∈ entries ∧ groupmapKey server entry = .ok key := by
    intro entry key
    constructor
    · intro hitem
      obtain ⟨found, hfound, hkey⟩ := exists_of_mem_mapM_results hkeyed hitem
      obtain ⟨foundKey, hfoundKey, hsame⟩ := bind_eq_ok_iff.mp hkey
      cases hsame
      exact ⟨hfound, hfoundKey⟩
    · rintro ⟨hentry, hkey⟩
      obtain ⟨item, hitem, hitemKey⟩ := exists_mem_mapM_results hkeyed hentry
      unfold keyEntry at hitemKey
      rw [hkey, ok_bind] at hitemKey
      cases hitemKey
      exact hitem
  rw [← hlocals]
  unfold entriesByGid
  rw [Dict.mem_ofEntries_iff]
  constructor
  · intro hgid
    obtain ⟨pair, hpair, hsame⟩ := List.mem_map.mp hgid
    obtain ⟨⟨entry, key⟩, hitem, rfl⟩ := List.mem_map.mp hpair
    obtain ⟨hitem, hkey⟩ := List.mem_filter.mp hitem
    obtain ⟨hentry, hfound⟩ := (hmem entry key).mp hitem
    obtain ⟨data, hdata, hparse⟩ := (mem_queryGroupmapEntries_iff hquery).mp hentry
    obtain rfl : key = .locals := of_decide_eq_true hkey
    exact ⟨entry.sid, data, entry, hdata, hparse, hfound, hsame⟩
  · rintro ⟨sid, data, entry, hdata, hparse, hkey, hgid⟩
    have hentry : entry ∈ entries := by
      rw [mem_queryGroupmapEntries_iff hquery, sid_of_parseUnixgroup hparse]
      exact ⟨data, hdata, hparse⟩
    have hitem : (entry, GroupmapKey.locals) ∈ keyed.filter (·.2 = .locals) :=
      List.mem_filter.mpr ⟨(hmem entry _).mpr ⟨hentry, hkey⟩, decide_eq_true rfl⟩
    exact List.mem_map.mpr ⟨_, List.mem_map_of_mem hitem, hgid⟩

theorem exists_groupmapList (hlistable : Listable server files.mapping) :
    ∃ groupmap next, groupmapList server files = .ok (groupmap, next) := by
  have hreadable : ∃ entries, queryGroupmapEntries files.mapping = .ok entries := by
    rw [exists_query_iff]
    intro sid data hdata
    obtain ⟨_, entry, hparse, _⟩ := hlistable sid data hdata
    exact ⟨entry, hparse⟩
  obtain ⟨entries, hquery⟩ := hreadable
  have hkeyed : ∃ keyed, entries.mapM (keyEntry server) = .ok keyed := by
    apply exists_mapM_eq_ok
    intro entry hentry
    obtain ⟨data, hdata, hparse⟩ := (mem_queryGroupmapEntries_iff hquery).mp hentry
    obtain ⟨key, other, hother, hkey⟩ := hlistable entry.sid data hdata
    rw [hparse, Except.ok.injEq] at hother
    refine ⟨(entry, key), ?_⟩
    unfold keyEntry
    rw [hother, hkey]
    rfl
  obtain ⟨keyed, hkeyed⟩ := hkeyed
  obtain ⟨fixed, hfixed, _⟩ := foldlM_fixEntry (gid_of_mem_toFix hquery hkeyed) files
  unfold groupmapList
  rw [hquery, ok_bind, hkeyed, ok_bind, hfixed]
  exact ⟨_, _, rfl⟩

theorem ServerSid.not_builtin (hlocal : startsWith sid server.text = true) :
    startsWith sid "S-1-5-32" = false := by
  have hdomain := (startsWith_iff.mp server.isDomain).trans (startsWith_iff.mp hlocal)
  obtain ⟨rest, hrest⟩ := hdomain
  unfold startsWith
  rw [← hrest]
  rfl

theorem not_local_none : startsWith "None" server.text = false := by
  obtain ⟨rest, hrest⟩ := startsWith_iff.mp server.isDomain
  unfold startsWith
  rw [← hrest]
  rfl

theorem IsLocalSid.startsWith (hlocal : IsLocalSid server sid) :
    PyString.startsWith sid server.text = true := by
  have hlong := startsWith_iff.mp hlocal
  rw [startsWith_iff]
  rw [String.toList_append] at hlong
  exact (prefix_append _ _).trans hlong

section

variable {pk : ℕ} {group : GroupRow}

theorem groupEntry_gid_ne (sid : String) : (groupEntry sid group).gid ≠ -1 := by
  change (group.gid : ℤ) ≠ -1
  omega

variable {entry : SMBGroupMap}

theorem groupmapKey_sid {rid : ℕ} (hsid : entry.sid = server.sid rid)
    (hgid : entry.gid ≠ -1) (hpos : 1 ≤ rid) (hmax : rid ≤ maxValueSubauth) :
    groupmapKey server entry = .ok (if entry.gid ∈ localBuiltinGids then .localBuiltins
        else if rid < baseRidUser then .toFix else .locals) := by
  have hstarts := server.startsWith_sid rid
  unfold groupmapKey
  rw [if_neg hgid, hsid, ServerSid.not_builtin hstarts, hstarts, server.getDomainRid_sid hpos hmax]
  by_cases hbuiltin : entry.gid ∈ localBuiltinGids
  · simp [hbuiltin]
  · by_cases hrid : rid < baseRidUser
    · simp [hbuiltin, hrid]
    · simp [hbuiltin, hrid]

theorem groupmapKey_rowSid (hpk : pk < baseSyntheticDatastoreId) :
    groupmapKey server (groupEntry (rowSid server pk) group) =
      .ok (if (group.gid : ℤ) ∈ localBuiltinGids then .localBuiltins
        else .locals) := by
  have hbounds : 1 ≤ pk + baseRidGroup ∧ pk + baseRidGroup ≤ maxValueSubauth ∧
      ¬ pk + baseRidGroup < baseRidUser := by
    unfold baseSyntheticDatastoreId at hpk
    unfold baseRidGroup maxValueSubauth baseRidUser
    omega
  have hsid : (groupEntry (rowSid server pk) group).sid = server.sid (pk + baseRidGroup) := rfl
  rw [groupmapKey_sid hsid (groupEntry_gid_ne _) hbounds.1 hbounds.2.1, if_neg hbounds.2.2]
  rfl

theorem groupmapKey_none : groupmapKey server (groupEntry "None" group) = .ok .toFix := by
  unfold groupmapKey
  rw [if_neg (groupEntry_gid_ne _), groupEntry_sid, not_local_none]
  rfl

theorem groupmapKey_locals {key : GroupmapKey}
    (hlocal : IsLocalSid server entry.sid) (hgid : entry.gid ∉ localBuiltinGids)
    (hkey : groupmapKey server entry = .ok key) (hne : key ≠ .toFix) :
    key = .locals := by
  have hstarts := hlocal.startsWith
  unfold groupmapKey at hkey
  rw [ServerSid.not_builtin hstarts, hstarts, decide_eq_false hgid,
    Bool.and_false, if_neg Bool.false_ne_true, if_neg Bool.false_ne_true,
    if_pos rfl] at hkey
  split at hkey
  · exact absurd (Except.ok.inj hkey).symm hne
  · split at hkey
    · cases hkey
    · split at hkey
      · exact absurd (Except.ok.inj hkey).symm hne
      · exact (Except.ok.inj hkey).symm

theorem gid_of_groupmapKey (hlocal : IsLocalSid server entry.sid)
    (hkey : groupmapKey server entry = .ok .locals) :
    entry.gid ∉ localBuiltinGids := by
  intro hgid
  have hstarts := hlocal.startsWith
  unfold groupmapKey at hkey
  rw [ServerSid.not_builtin hstarts, hstarts, decide_eq_true hgid] at hkey
  split at hkey
  · cases hkey
  · cases hkey

end

theorem deleteLocals_eq (gidSet : List ℤ) (locals : List SMBGroupMap)
    (mapping : Dict String UnixgroupData) :
    deleteLocals gidSet locals mapping = mapping := by
  unfold deleteLocals
  induction locals with
  | nil => rfl
  | cons entry rest ih =>
    have hfails : deleteGroupmapEntry "sid" entry.sid mapping = .error (.typeError
          "delete_groupmap_entry() got an unexpected keyword argument 'sid'") :=
      rfl
    rw [foldl_cons, hfails]
    split_ifs
    · exact ih
    · exact ih

section

variable {groups : Dict ℕ GroupRow} {queried : List QueriedGroup}

theorem exists_row_of_mem (hqueried : queryGroups server groups = .ok queried)
    {group : QueriedGroup} (hmem : group ∈ queried) :
    ∃ pk, groups.get? pk = some group.row ∧ groupSid server pk group.row = .ok group.sid := by
  obtain ⟨item, hitem, hextend⟩ := exists_of_mem_mapM_results hqueried hmem
  obtain ⟨sid, hsid, heq⟩ := bind_eq_ok_iff.mp hextend
  rw [← Except.ok.inj heq]
  exact ⟨item.1, Dict.mem_entries_iff.mp hitem, hsid⟩

theorem exists_queried_of_row (hqueried : queryGroups server groups = .ok queried) {pk : ℕ}
    {row : GroupRow} (hrow : groups.get? pk = some row) :
    ∃ group ∈ queried, group.row = row ∧ groupSid server pk row = .ok group.sid := by
  obtain ⟨group, hmem, hextend⟩ := exists_mem_mapM_results hqueried (Dict.mem_entries_iff.mpr hrow)
  obtain ⟨sid, hsid, heq⟩ := bind_eq_ok_iff.mp hextend
  refine ⟨group, hmem, ?_⟩
  rw [← Except.ok.inj heq]
  exact ⟨rfl, hsid⟩

theorem groupSid_cases {pk : ℕ} {row : GroupRow} {sid : Option String}
    (hsid : groupSid server pk row = .ok sid) :
    (row.group ∈ builtinGroupNames ∧ ∃ rid, (rid = ridAdmins ∨ rid = ridGuests) ∧
        sid = some (server.sid rid)) ∨
    (row.group ∉ builtinGroupNames ∧ row.smb = true ∧
      pk < baseSyntheticDatastoreId ∧ sid = some (rowSid server pk)) ∨
    (row.group ∉ builtinGroupNames ∧ row.smb = false ∧ sid = none) := by
  unfold groupSid at hsid
  split_ifs at hsid with hadmins hguests hsmb
  · refine Or.inl ⟨by simp [builtinGroupNames, hadmins], ridAdmins, Or.inl rfl, ?_⟩
    exact (Except.ok.inj hsid).symm
  · refine Or.inl ⟨by simp [builtinGroupNames, hguests], ridGuests, Or.inr rfl, ?_⟩
    exact (Except.ok.inj hsid).symm
  · obtain ⟨rid, hrid, heq⟩ := bind_eq_ok_iff.mp hsid
    unfold dbIdToRid at hrid
    split_ifs at hrid with hpk
    refine Or.inr (Or.inl ⟨by simp [builtinGroupNames, hadmins, hguests], hsmb,
      Nat.lt_of_not_le hpk, ?_⟩)
    rw [← Except.ok.inj heq, ← Except.ok.inj hrid]
    rfl
  · refine Or.inr (Or.inr ⟨by simp [builtinGroupNames, hadmins, hguests],
      by simpa using hsmb, (Except.ok.inj hsid).symm⟩)

end

end

end Middlewared
