import Middlewared.ShareSecStep

/-!
# An ACL for every share

The descriptor that is read under a name of a share is the one that was last
set for the share, as long as no name that a share takes has a descriptor of an
earlier share, and no ACL is set under a name that is read as another one.
-/

namespace Middlewared

open PyString SharingSmb ShareSec Dict List

variable {rt : ShareAclRuntime} {host : SharingHost}

namespace RecordedAcls

def acl (rt : ShareAclRuntime) (s : RecordedAcls) (id : ℕ) : List ShareAce :=
  match s.lastSet.get? id with
  | none => defaultShareAcl
  | some acl => rt.written acl

variable {state : ShareAclState} {lastSet : Dict ℕ (List ShareAce)}

theorem acl_set (id other : ℕ) (new : List ShareAce) : acl rt ⟨state, lastSet.set id new⟩ other =
    if other = id then rt.written new else acl rt ⟨state, lastSet⟩ other := by
  unfold acl
  simp only [get?_set]
  by_cases hid : other = id
  · simp only [if_pos hid]
  · simp only [if_neg hid]

theorem acl_erase (id other : ℕ) : acl rt ⟨state, lastSet.erase id⟩ other =
    if other = id then defaultShareAcl else acl rt ⟨state, lastSet⟩ other := by
  unfold acl
  simp only [get?_erase]
  by_cases hid : other = id
  · simp only [if_pos hid]
  · simp only [if_neg hid]

end RecordedAcls

/-- Under any of its names, in any case, a share has the ACL that was last set
for it. -/
def OwnAcls (rt : ShareAclRuntime) (s : RecordedAcls) : Prop :=
  ∀ row ∈ s.state.sharing.rows, ∀ stored ∈ aclNames row.share, ∀ name,
    rt.lower name = rt.lower stored → getacl rt s.state name = .ok ⟨name, s.acl rt row.share.id⟩

theorem liftSharing_eq_ok_iff {α : Type} {result : Except SharingError α}
    {value : α} : liftSharing result = .ok value ↔ result = .ok value := by
  unfold liftSharing
  cases result <;> simp

def NotHomes (rt : ShareAclRuntime) (share : SmbShare) : Prop :=
  rt.upper share.name = "HOMES" → share.home = true

def FreshNames (rt : ShareAclRuntime) (s : ShareAclState) (share : SmbShare) :
    Prop :=
  NotHomes rt share ∧ ∀ name ∈ aclNames share,
    aclOf rt (s.tdb.get? (rt.lower name)) = some defaultShareAcl

def Flushes (host : SharingHost) (old new : SmbShare) : Prop :=
  runningName old ≠ runningName new ∧ ¬(old.locked = true ∧ newIsLocked host old new = true)

def KeptNames (rt : ShareAclRuntime) (host : SharingHost) (s : ShareAclState)
    (id : ℕ) (old new : SmbShare) : Prop :=
  let share := new.purpose.params new
  NotHomes rt share ∧ ∀ name ∈ aclNames share,
    Flushes host old new ∧ (s.column.get? id).isSome = true ∧
        rt.lower name = rt.lower (storedName share) ∨
      aclOf rt (s.tdb.get? (rt.lower name)) = aclOf rt (s.column.get? id)

def SetNames (rt : ShareAclRuntime) (s : ShareAclState) (share : SmbShare)
    (data : ShareAcl) : Prop :=
  ∀ name ∈ aclNames share, rt.lower name = rt.lower data.shareName ∨
    aclOf rt (s.tdb.get? (rt.lower name)) = some (rt.written data.shareAcl)

def AclsApart (rt : ShareAclRuntime) (s : RecordedAcls)
    (call : SharingHost × ShareAclCall) : Prop :=
  match call.2 with
  | .create _ data => ∀ new ∈ (smbShareCreate data).toOption,
      FreshNames rt s.state (new.purpose.params new)
  | .update id data =>
    ∀ old ∈ (s.state.sharing.getInstance call.1 id).toOption,
      KeptNames rt call.1 s.state id old (old.update data)
  | .setacl data => ∀ row ∈ configShare rt s.state data.shareName,
      SetNames rt s.state row.share data
  | .delete _ _ | .flushShareInfo | .synchronizeAcls => True

instance (share : SmbShare) : Decidable (NotHomes rt share) := by
  unfold NotHomes
  infer_instance

instance (s : ShareAclState) (share : SmbShare) :
    Decidable (FreshNames rt s share) := by
  unfold FreshNames
  infer_instance

instance (old new : SmbShare) : Decidable (Flushes host old new) := by
  unfold Flushes
  infer_instance

instance (s : ShareAclState) (id : ℕ) (old new : SmbShare) :
    Decidable (KeptNames rt host s id old new) := by
  unfold KeptNames
  infer_instance

instance (s : ShareAclState) (share : SmbShare) (data : ShareAcl) :
    Decidable (SetNames rt s share data) := by
  unfold SetNames
  infer_instance

instance (s : RecordedAcls) (call : SharingHost × ShareAclCall) :
    Decidable (AclsApart rt s call) := by
  unfold AclsApart
  split <;> infer_instance

def IsSd (rt : ShareAclRuntime) (sd : String) : Prop :=
  ∃ acl, rt.shareAclToSd acl = some sd

structure AclInvariant (rt : ShareAclRuntime) (s : RecordedAcls) : Prop where
  shares : ShareNames rt s.state.sharing
  keys : ∀ row ∈ s.state.sharing.rows, ∀ name ∈ aclNames row.share,
    aclOf rt (s.state.tdb.get? (rt.lower name)) = some (s.acl rt row.share.id)
  column : ∀ row ∈ s.state.sharing.rows,
    aclOf rt (s.state.column.get? row.share.id) = some (s.acl rt row.share.id)
  tdbSd : ∀ key sd, s.state.tdb.get? key = some sd → IsSd rt sd
  columnSd : ∀ id sd, s.state.column.get? id = some sd → IsSd rt sd

theorem AclInvariant.ownAcls {s : RecordedAcls} (hs : AclInvariant rt s) : OwnAcls rt s := by
  intro row hrow stored hstored name hlower
  obtain ⟨found, hfound⟩ := hs.shares.exists_configShare hrow hstored hlower.symm
  have hread := hs.keys row hrow stored hstored
  unfold getacl
  rw [hlower, hread, hfound]

namespace IsSd

variable {sd : String}

theorem ne_empty (hsd : IsSd rt sd) : sd ≠ "" := by
  obtain ⟨acl, hacl⟩ := hsd
  have hstart := rt.sd_revision acl sd hacl
  rintro rfl
  exact absurd hstart (by decide)

theorem not_startsWith_sid (hsd : IsSd rt sd) : startsWith sd "S-1-" = false := by
  obtain ⟨acl, hacl⟩ := hsd
  rw [Bool.eq_false_iff, Ne, startsWith_iff]
  intro hsid
  obtain ⟨rest, hrest⟩ := startsWith_iff.mp (rt.sd_revision acl sd hacl)
  obtain ⟨other, hother⟩ := hsid
  have hhead := congrArg List.head? (hrest.trans hother.symm)
  exact absurd hhead (by simp)

theorem aclOf_eq {acl : List ShareAce} (hacl : rt.shareAclToSd acl = some sd) :
    aclOf rt (some sd) = some (rt.written acl) :=
  rt.sdToShareAcl_of_shareAclToSd acl sd hacl

end IsSd

/-! ## Writing the ACLs back -/

section

variable {s next : ShareAclState}

theorem flushShare_eq_ok {row : SmbShareRow}
    (hsd : ∀ id sd, s.column.get? id = some sd → IsSd rt sd)
    (hflush : flushShare rt s row = .ok next) :
    next.sharing = s.sharing ∧ next.column = s.column ∧ ∀ key, next.tdb.get? key =
        if rt.lower (storedName row.share) = key ∧ (s.column.get? row.share.id).isSome = true then
          s.column.get? row.share.id
        else s.tdb.get? key := by
  unfold flushShare at hflush
  cases hcolumn : s.column.get? row.share.id with
  | none =>
    simp only [hcolumn] at hflush
    rw [← Except.ok.inj hflush]
    simp
  | some sd =>
    have hisSd := hsd row.share.id sd hcolumn
    simp only [hcolumn, if_neg hisSd.ne_empty, hisSd.not_startsWith_sid,
      Bool.false_eq_true, if_false] at hflush
    rw [← Except.ok.inj hflush]
    refine ⟨rfl, rfl, ?_⟩
    intro key
    simp only [Option.isSome_some, and_true]
    rw [get?_set]
    by_cases hkey : rt.lower (storedName row.share) = key
    · rw [if_pos hkey]
      exact if_pos hkey.symm
    · rw [if_neg hkey]
      exact if_neg (Ne.symm hkey)

theorem flush_eq_ok {rows : List SmbShareRow}
    (hsd : ∀ id sd, s.column.get? id = some sd → IsSd rt sd)
    (hflush : rows.foldlM (flushShare rt) s = .ok next) :
    next.sharing = s.sharing ∧ next.column = s.column ∧ ∀ key, (next.tdb.get? key = s.tdb.get? key ∧
          ∀ row ∈ rows, rt.lower (storedName row.share) = key → s.column.get? row.share.id = none) ∨
        ∃ row ∈ rows, rt.lower (storedName row.share) = key ∧
          (s.column.get? row.share.id).isSome = true ∧
          next.tdb.get? key = s.column.get? row.share.id := by
  induction rows generalizing s with
  | nil =>
    rw [← Except.ok.inj hflush]
    simp
  | cons row rest ih =>
    obtain ⟨middle, hmiddle, hrest⟩ := bind_eq_ok_iff.mp hflush
    obtain ⟨hsharing, hcolumn, htdb⟩ := flushShare_eq_ok hsd hmiddle
    obtain ⟨hsharing', hcolumn', hread⟩ := ih (hcolumn ▸ hsd) hrest
    refine ⟨hsharing'.trans hsharing, hcolumn'.trans hcolumn, ?_⟩
    intro key
    rw [hcolumn] at hread
    rcases hread key with ⟨hsame, hnone⟩ | ⟨other, hother, hkey, hsome, hget⟩
    · rw [htdb key] at hsame
      split at hsame
      · rename_i hwritten
        exact Or.inr ⟨row, mem_cons_self, hwritten.1, hwritten.2, hsame⟩
      · rename_i hkept
        refine Or.inl ⟨hsame, ?_⟩
        rw [forall_mem_cons]
        refine ⟨?_, hnone⟩
        intro hkey
        rw [← Option.not_isSome_iff_eq_none]
        exact fun hsome => hkept ⟨hkey, hsome⟩
    · exact Or.inr ⟨other, mem_cons_of_mem row hother, hkey, hsome, hget⟩

end

namespace AclInvariant

variable {s : RecordedAcls} {next : ShareAclState}

theorem of_flush {state : ShareAclState} {lastSet : Dict ℕ (List ShareAce)}
    (hflush : flushShareInfo rt state = .ok next)
    (hshares : ShareNames rt state.sharing)
    (hkeys : ∀ row ∈ state.sharing.rows, ∀ name ∈ aclNames row.share,
      (state.column.get? row.share.id).isSome = true ∧
          rt.lower name = rt.lower (storedName row.share) ∨
        aclOf rt (state.tdb.get? (rt.lower name)) =
          some (RecordedAcls.acl rt ⟨state, lastSet⟩ row.share.id))
    (hcolumn : ∀ row ∈ state.sharing.rows, aclOf rt (state.column.get? row.share.id) =
        some (RecordedAcls.acl rt ⟨state, lastSet⟩ row.share.id))
    (htdbSd : ∀ key sd, state.tdb.get? key = some sd → IsSd rt sd)
    (hcolumnSd : ∀ id sd, state.column.get? id = some sd → IsSd rt sd) :
    AclInvariant rt ⟨next, lastSet⟩ := by
  obtain ⟨hsharing, hsame, hread⟩ := flush_eq_ok hcolumnSd hflush
  refine ⟨hsharing ▸ hshares, ?_, ?_, ?_, hsame ▸ hcolumnSd⟩
  · intro row hrow name hname
    rw [hsharing] at hrow
    change aclOf rt (next.tdb.get? (rt.lower name)) =
      some (RecordedAcls.acl rt ⟨state, lastSet⟩ row.share.id)
    rcases hread (rt.lower name) with
      ⟨hget, hnone⟩ | ⟨other, hother, hkey, _, hget⟩
    · rw [hget]
      rcases hkeys row hrow name hname with ⟨hsome, hlower⟩ | hthere
      · rw [hnone row hrow hlower.symm] at hsome
        cases hsome
      · exact hthere
    · rw [hget, hcolumn other hother, hshares.id_eq_of_lower_eq hother hrow
        (storedName_mem other.share) hname hkey]
  · intro row hrow
    rw [hsharing] at hrow
    rw [hsame]
    exact hcolumn row hrow
  · intro key sd hsd
    rcases hread key with ⟨hget, _⟩ | ⟨other, _, _, _, hget⟩
    · exact htdbSd key sd (hget.symm.trans hsd)
    · exact hcolumnSd _ sd (hget.symm.trans hsd)

variable (hs : AclInvariant rt s)

include hs

theorem flush (hflush : flushShareInfo rt s.state = .ok next) : AclInvariant rt ⟨next, s.lastSet⟩ :=
  of_flush hflush hs.shares (fun row hrow name hname => Or.inr (hs.keys row hrow name hname))
    hs.column hs.tdbSd hs.columnSd

theorem synchronize : AclInvariant rt ⟨synchronizeAcls rt s.state, s.lastSet⟩ := by
  unfold synchronizeAcls
  split
  · exact ⟨hs.shares, hs.keys, hs.column, hs.tdbSd, hs.columnSd⟩
  · have hfold := List.foldlRecOn (motive := fun column =>
        (∀ row ∈ s.state.sharing.rows, aclOf rt (column.get? row.share.id) =
          some (s.acl rt row.share.id)) ∧
        ∀ id sd, column.get? id = some sd → IsSd rt sd)
      s.state.sharing.rows (synchronizeShare rt s.state)
      ⟨hs.column, hs.columnSd⟩ ?_
    · exact ⟨hs.shares, hs.keys, hfold.1, hs.tdbSd, hfold.2⟩
    · intro column hinv row hrow
      have hname : (if !row.share.home then row.share.name else "homes") =
          runningName row.share := by
        unfold runningName
        cases row.share.home <;> rfl
      unfold synchronizeShare
      simp only [hname, lower_runningName]
      cases hget : s.state.tdb.get? (rt.lower (storedName row.share)) with
      | none => exact hinv
      | some sd =>
        simp only
        split
        · constructor
          · intro other hother
            rw [get?_set]
            split
            · rename_i hid
              rw [hid, ← hget]
              exact hs.keys row hrow _ (storedName_mem row.share)
            · exact hinv.1 other hother
          · intro id text htext
            rw [get?_set] at htext
            split at htext
            · exact hs.tdbSd _ text (hget.trans htext)
            · exact hinv.2 id text htext
        · exact hinv

/-! ## The other calls -/

omit hs in
theorem setacl_eq_ok {state : ShareAclState} {data : ShareAcl}
    (hset : ShareSec.setacl rt state data = .ok next) :
    ∃ found sd, configShare rt state data.shareName = some found ∧
      rt.shareAclToSd data.shareAcl = some sd ∧
      next = { state with
          tdb := state.tdb.set (rt.lower data.shareName) sd
          column := state.column.set found.share.id sd } := by
  unfold ShareSec.setacl at hset
  split at hset
  · cases hset
  · rename_i found hfound
    split at hset
    · cases hset
    · rename_i sd hsd
      exact ⟨found, sd, hfound, hsd, (Except.ok.inj hset).symm⟩

theorem setacl {data : ShareAcl}
    (hapart : ∀ row ∈ configShare rt s.state data.shareName, SetNames rt s.state row.share data)
    (hset : ShareSec.setacl rt s.state data = .ok next) :
    AclInvariant rt ⟨next, s.record rt (.setacl data)⟩ := by
  obtain ⟨found, sd, hfound, hsd, rfl⟩ := setacl_eq_ok hset
  have hmem := (configShare_eq_some hfound).1
  simp only [RecordedAcls.record, hfound]
  refine ⟨hs.shares, ?_, ?_, ?_, ?_⟩
  · intro row hrow name hname
    rw [RecordedAcls.acl_set, get?_set]
    split
    · rename_i hlower
      rw [if_pos (hs.shares.id_eq_of_configShare hfound hrow hname hlower)]
      exact IsSd.aclOf_eq hsd
    · rename_i hlower
      split
      · rename_i hid
        have hsame := inj_on_of_nodup_map hs.shares.ids hrow hmem hid
        rw [hsame] at hname
        exact (hapart found hfound name hname).resolve_left hlower
      · exact hs.keys row hrow name hname
  · intro row hrow
    rw [RecordedAcls.acl_set, get?_set]
    split
    · exact IsSd.aclOf_eq hsd
    · exact hs.column row hrow
  · exact forall_get?_set hs.tdbSd ⟨_, hsd⟩
  · exact forall_get?_set hs.columnSd ⟨_, hsd⟩

variable {id : ℕ}

theorem create {data : SmbShareUpdate} (hapart : ∀ new ∈ (smbShareCreate data).toOption,
      FreshNames rt s.state (new.purpose.params new))
    (hcreate : createShare rt host s.state id data = .ok next) :
    AclInvariant rt ⟨next, s.lastSet.erase id⟩ := by
  obtain ⟨sharing, hsharing, hnext⟩ := bind_eq_ok_iff.mp hcreate
  rw [liftSharing_eq_ok_iff] at hsharing
  rw [← Except.ok.inj hnext]
  obtain ⟨new, row, hnew, hid, hstores⟩ := doCreate_eq_ok hs.shares.positive hsharing
  have hrowId := doCreate_row_id hsharing (smbShareCreate_id hnew) hid hstores
  have hfresh := hapart new (by rw [hnew]; rfl)
  obtain ⟨hname, hhome⟩ := hstores.sameNames
  refine ⟨?_, ?_, ?_, hs.tdbSd, forall_get?_erase hs.columnSd id⟩
  · apply hstores.shareNames hs.shares (hrowId ▸ hid)
    rw [hname, hhome]
    exact hfresh.1
  · intro other hother name hmem
    rw [RecordedAcls.acl_erase]
    rcases (hstores.rows other).mp hother with rfl | ⟨hold, hne⟩
    · rw [if_pos hrowId]
      rw [aclNames_congr hname hhome] at hmem
      exact hfresh.2 name hmem
    · rw [if_neg (hrowId ▸ hne)]
      exact hs.keys other hold name hmem
  · intro other hother
    rw [RecordedAcls.acl_erase, get?_erase]
    rcases (hstores.rows other).mp hother with rfl | ⟨hold, hne⟩
    · rw [if_pos hrowId, if_pos hrowId]
      rfl
    · rw [if_neg (hrowId ▸ hne), if_neg (hrowId ▸ hne)]
      exact hs.column other hold

theorem update {data : SmbShareUpdate}
    (hapart : ∀ old ∈ (s.state.sharing.getInstance host id).toOption,
      KeptNames rt host s.state id old (old.update data))
    (hupdate : updateShare rt host s.state id data = .ok next) :
    AclInvariant rt ⟨next, s.lastSet⟩ := by
  obtain ⟨old, hold, hupdate⟩ := bind_eq_ok_iff.mp hupdate
  obtain ⟨sharing, hsharing, hnext⟩ := bind_eq_ok_iff.mp hupdate
  rw [liftSharing_eq_ok_iff] at hold hsharing
  obtain ⟨row, hrowId, ⟨before, hbefore, hbeforeId⟩, hstores⟩ := doUpdate_row_id hold hsharing
  have hkept := hapart old (by rw [hold]; rfl)
  obtain ⟨hname, hhome⟩ := hstores.sameNames
  have hshares : ShareNames rt sharing := by
    apply hstores.shareNames hs.shares
    · rw [hrowId, ← hbeforeId]
      exact hs.shares.positive before hbefore
    · rw [hname, hhome]
      exact hkept.1
  have hcolumn : ∀ other ∈ sharing.rows, aclOf rt (s.state.column.get? other.share.id) =
        some (s.acl rt other.share.id) := by
    intro other hother
    rcases (hstores.rows other).mp hother with rfl | ⟨hthere, _⟩
    · rw [hrowId, ← hbeforeId]
      exact hs.column before hbefore
    · exact hs.column other hthere
  have hkeys : ∀ other ∈ sharing.rows, ∀ name ∈ aclNames other.share,
      (Flushes host old (old.update data) ∧ (s.state.column.get? other.share.id).isSome = true ∧
          rt.lower name = rt.lower (storedName other.share)) ∨
        aclOf rt (s.state.tdb.get? (rt.lower name)) = some (s.acl rt other.share.id) := by
    intro other hother name hmem
    rcases (hstores.rows other).mp hother with rfl | ⟨hthere, _⟩
    · rw [aclNames_congr hname hhome] at hmem
      rw [storedName_congr hname hhome, ← hcolumn other hother, hrowId]
      exact hkept.2 name hmem
    · exact Or.inr (hs.keys other hthere name hmem)
  split at hnext
  · rename_i hlocked
    rw [← Except.ok.inj hnext]
    refine ⟨hshares, ?_, hcolumn, hs.tdbSd, hs.columnSd⟩
    intro other hother name hmem
    refine (hkeys other hother name hmem).resolve_left ?_
    rintro ⟨hflushes, _⟩
    rw [Bool.and_eq_true] at hlocked
    exact hflushes.2 hlocked
  · unfold applyShareChanges at hnext
    split at hnext
    · exact of_flush hnext hshares (fun other hother name hmem =>
          (hkeys other hother name hmem).imp_left And.right)
        hcolumn hs.tdbSd hs.columnSd
    · rename_i hsame
      rw [← Except.ok.inj hnext]
      refine ⟨hshares, ?_, hcolumn, hs.tdbSd, hs.columnSd⟩
      intro other hother name hmem
      refine (hkeys other hother name hmem).resolve_left ?_
      rintro ⟨hflushes, _⟩
      exact hsame hflushes.1

theorem delete {running : List String}
    (hdelete : deleteShare rt host s.state running id = .ok next) :
    AclInvariant rt ⟨next, s.lastSet.erase id⟩ := by
  obtain ⟨share, hshare, hdelete⟩ := bind_eq_ok_iff.mp hdelete
  obtain ⟨sharing, hsharing, hnext⟩ := bind_eq_ok_iff.mp hdelete
  rw [liftSharing_eq_ok_iff] at hshare hsharing
  rw [← Except.ok.inj hnext, doDelete_eq_ok hsharing]
  obtain ⟨row, hrow, hrowId, heq⟩ := SharingState.find_of_getInstance hshare
  have hlower : rt.lower (runningName share) = rt.lower (storedName row.share) := by
    rw [heq]
    exact lower_runningName rt row.share
  have hget : ∀ other ∈ s.state.sharing.rows, other.share.id ≠ id → ∀ name ∈ aclNames other.share,
        (s.state.tdb.erase (rt.lower (runningName share))).get? (rt.lower name) =
          s.state.tdb.get? (rt.lower name) := by
    intro other hother hne name hname
    rw [get?_erase, hlower]
    refine if_neg ?_
    intro hsame
    exact hne ((hs.shares.id_eq_of_lower_eq hother hrow hname
      (storedName_mem row.share) hsame).trans hrowId)
  refine ⟨hs.shares.mono filter_sublist, ?_, ?_, ?_, forall_get?_erase hs.columnSd id⟩
  · intro other hother name hname
    obtain ⟨hmem, hne⟩ := List.mem_filter.mp hother
    rw [RecordedAcls.acl_erase, if_neg (of_decide_eq_true hne)]
    have hread := hs.keys other hmem name hname
    split
    · rw [hget other hmem (of_decide_eq_true hne) name hname]
      exact hread
    · exact hread
  · intro other hother
    obtain ⟨hmem, hne⟩ := List.mem_filter.mp hother
    rw [RecordedAcls.acl_erase, get?_erase, if_neg (of_decide_eq_true hne),
      if_neg (of_decide_eq_true hne)]
    exact hs.column other hmem
  · simp only
    split
    · exact forall_get?_erase hs.tdbSd _
    · exact hs.tdbSd

theorem step {after : RecordedAcls} {call : SharingHost × ShareAclCall}
    (hapart : AclsApart rt s call) (hstep : RecordedAcls.step rt s call = some after) :
    AclInvariant rt after := by
  obtain ⟨host, call⟩ := call
  obtain ⟨next, hnext, rfl⟩ := Option.map_eq_some_iff.mp hstep
  have hperform := toOption_eq_some_iff.mp hnext
  cases call with
  | create id data => exact hs.create hapart hperform
  | update id data => exact hs.update hapart hperform
  | delete running id => exact hs.delete hperform
  | setacl data => exact hs.setacl hapart hperform
  | flushShareInfo => exact hs.flush hperform
  | synchronizeAcls =>
    rw [← Except.ok.inj hperform]
    exact hs.synchronize

end AclInvariant

def RecordedAcls.noneSet (sharing : SharingState) : RecordedAcls where
  state := ⟨sharing, Dict.empty, Dict.empty⟩
  lastSet := Dict.empty

/-- Every share has its own ACL in every state that is reached by calls which
keep the ACLs apart. -/
theorem ownAcls_of_aclsApart {sharing : SharingState} {final : RecordedAcls}
    {calls : List (SharingHost × ShareAclCall)} (hstart : sharing.rows = [])
    (hrun : RecordedAcls.run rt (RecordedAcls.noneSet sharing) calls = some final)
    (hapart : TransitionSystem.EveryStep (RecordedAcls.step rt) (AclsApart rt)
      (RecordedAcls.noneSet sharing) calls) : OwnAcls rt final := by
  have hshares : ShareNames rt sharing := by
    refine ⟨⟨?_, ?_, ?_, ?_⟩, ?_, ?_⟩ <;>
      simp [SharingState.PositiveIds, Relational.Distinct, hstart]
  have hinv : AclInvariant rt (RecordedAcls.noneSet sharing) := by
    refine ⟨hshares, ?_, ?_, ?_, ?_⟩ <;> simp [RecordedAcls.noneSet, hstart]
  exact (TransitionSystem.run_invariant_of_everyStep
    (fun s call next hs hguard hstep => AclInvariant.step hs hguard hstep)
    hinv hapart hrun).ownAcls

/-! ## A share under the name of another -/

def readersAcl : List ShareAce := [⟨"S-1-5-32-544", .read, .allowed⟩]

def readersSd : String :=
  "AQAEgAAAAAAAAAAAAAAAABQAAAACACAAAQAAAAAAGACpABIAAQIAAAAAAAUgAAAAIAIAAA=="

def toUpperPlain (c : Char) : Char := if c = 'ſ' then 'S' else c.toUpper

theorem casefold_lower_plainRuntime (text : String) :
    plainRuntime.casefold (plainRuntime.lower text) = plainRuntime.casefold text := by
  simp only [plainRuntime, String.toList_ofList, List.map_map]
  congr 1
  apply map_congr_left
  intro c _
  have hlong : c.toLower = 'ſ' ↔ c = 'ſ' := AsciiCase.toLower_eq_iff_of_lt (by decide)
  simp only [Function.comp_apply, hlong, AsciiCase.toLower_toLower]

theorem map_toUpperPlain_eq_iff {text small : List Char} (hsmall : ∀ c ∈ small, c.isLower = true) :
    text.map toUpperPlain = small.map Char.toUpper ↔
      text.map (fun c => if c = 'ſ' then 's' else c.toLower) = small := by
  induction text generalizing small with
  | nil => cases small <;> simp
  | cons c rest ih =>
    cases small with
    | nil => simp
    | cons d small =>
      rw [forall_mem_cons] at hsmall
      have hchar : toUpperPlain c = d.toUpper ↔ (if c = 'ſ' then 's' else c.toLower) = d := by
        unfold toUpperPlain
        split
        · exact AsciiCase.toUpper_eq_toUpper_iff (c := 's') hsmall.1
        · exact AsciiCase.toUpper_eq_toUpper_iff hsmall.1
      simp only [map_cons, List.cons.injEq, hchar, ih hsmall.2]

def plainAclRuntime : ShareAclRuntime where
  toSharingRuntime := plainRuntime
  upper := fun text => String.ofList (text.toList.map toUpperPlain)
  sidText := id
  shareAclToSd := fun acl => if acl = readersAcl then some readersSd else none
  sdToShareAcl := fun sd => if sd = readersSd then some readersAcl else none
  casefold_lower := casefold_lower_plainRuntime
  lower_homes := by decide +kernel
  casefold_homes := by decide +kernel
  upper_eq_homes_iff := by
    intro text
    have hiff := @map_toUpperPlain_eq_iff text.toList "homes".toList (by simp)
    rw [String.ext_iff, String.ext_iff]
    simpa [plainRuntime] using hiff
  sd_revision := by
    intro acl sd hsd
    split at hsd
    · rw [← Option.some.inj hsd]
      decide +kernel
    · cases hsd
  sdToShareAcl_of_shareAclToSd := by
    intro acl sd hsd
    split at hsd
    · rename_i hacl
      rw [← Option.some.inj hsd, if_pos rfl, hacl]
      rfl
    · cases hsd

def createNamed (id : ℕ) (name : String) : SharingHost × ShareAclCall :=
  (plainHost, .create id { path := some ("/mnt/tank/" ++ name), name := some name })

def renameCalls (name : String) : List (SharingHost × ShareAclCall) :=
  [createNamed 1 "data", (plainHost, .setacl ⟨"Data", readersAcl⟩),
    (plainHost, .update 1 { name := some "archive" }), createNamed 2 name,
    (plainHost, .flushShareInfo), (plainHost, .synchronizeAcls)]

theorem ownAcls_renameCalls :
    ∃ final, RecordedAcls.run plainAclRuntime (RecordedAcls.noneSet noShares)
        (renameCalls "public") = some final ∧
      getacl plainAclRuntime final.state "ARCHIVE" = .ok ⟨"ARCHIVE", readersAcl⟩ ∧
      OwnAcls plainAclRuntime final := by
  have hany : (RecordedAcls.run plainAclRuntime (RecordedAcls.noneSet noShares)
      (renameCalls "public")).any (fun final =>
        getacl plainAclRuntime final.state "ARCHIVE" = .ok ⟨"ARCHIVE", readersAcl⟩) = true := by
    decide +kernel
  obtain ⟨final, hfinal, hacl⟩ := (Option.any_eq_true _ _).mp hany
  have hapart : TransitionSystem.EveryStep (RecordedAcls.step plainAclRuntime)
      (AclsApart plainAclRuntime) (RecordedAcls.noneSet noShares)
      (renameCalls "public") := by
    decide +kernel
  exact ⟨final, hfinal, of_decide_eq_true hacl, ownAcls_of_aclsApart rfl hfinal hapart⟩

/-- A new share takes over the ACL that a renamed one has left under its name. -/
theorem inherited_acl : ∃ calls final, RecordedAcls.run plainAclRuntime
      (RecordedAcls.noneSet noShares) calls = some final ∧
    ¬OwnAcls plainAclRuntime final := by
  have hany : (RecordedAcls.run plainAclRuntime (RecordedAcls.noneSet noShares)
      (renameCalls "data")).any (fun final => decide
        (¬∀ row ∈ final.state.sharing.rows, ∀ stored ∈ aclNames row.share,
          getacl plainAclRuntime final.state stored =
            .ok ⟨stored, final.acl plainAclRuntime row.share.id⟩)) = true := by
    decide +kernel
  obtain ⟨final, hfinal, hread⟩ := (Option.any_eq_true _ _).mp hany
  refine ⟨_, final, hfinal, ?_⟩
  intro hown
  apply of_decide_eq_true hread
  intro row hrow stored hstored
  exact hown row hrow stored hstored stored rfl

end Middlewared
