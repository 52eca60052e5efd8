import Middlewared.PassdbSync

/-!
# A synchronized user database

When the records of `passdb.tdb` are exactly those of the SMB users afterwards:
a condition on the file as it was before and the names and RIDs of the users.
-/

namespace Middlewared

open List Dict

section

variable {netbiosname : String} {now : ℤ} {users : List PassdbUser}
  {file final : PassdbFile}

/-! ## When the file is right -/

/-- The file has the records of the SMB users, and no others. -/
structure Synchronized (users : List PassdbUser) (file : PassdbFile) : Prop where
  rids : ∀ r name, file.rids.get? r = some name ↔
    ∃ user ∈ smbUsers users, user.rid = r ∧ user.username = name
  recorded : ∀ user ∈ smbUsers users, ∃ entry,
    file.users.get? user.username = some entry ∧ Records user entry
  onlyUsers : ∀ name ∈ file.users, ∃ user ∈ smbUsers users, user.username = name

/-- A RID that no user has was last read with a name that no user has, and a
record for a name that no user has is the one read for its RID. -/
structure Untangled (users : List PassdbUser) (file : PassdbFile) : Prop where
  rids : ∀ r ∈ file.rids, r ∉ (smbUsers users).map PassdbUser.rid →
    ∃ entry, file.lastRead r = some entry ∧
      entry.username ∉ (smbUsers users).map PassdbUser.username
  names : ∀ n ∈ file.users, n ∉ (smbUsers users).map PassdbUser.username →
    ∃ entry, file.users.get? n = some entry ∧
      file.lastRead entry.userRid = some entry ∧ entry.userRid ∈ file.rids

theorem Synchronized.readable (hright : Synchronized users file) :
    ∃ entries, file.passdbEntries = .ok entries := by
  apply exists_mapM_eq_ok
  intro record hrecord
  obtain ⟨user, huser, _, hname⟩ :=
    (hright.rids record.1 record.2).mp (Dict.mem_entries_iff.mp hrecord)
  obtain ⟨entry, hentry, _⟩ := hright.recorded user huser
  refine ⟨entry, ?_⟩
  unfold PassdbFile.parseEntry
  rw [← hname, hentry]

def PassdbUser.HasHash (user : PassdbUser) : Prop :=
  user.smbhash ≠ "" ∧ ∃ ntPw, user.ntPw = .ok ntPw ∧ PassdbFile.isHexBytes ntPw.toList = true

theorem exists_passdbEntry {user : PassdbUser} (hsmb : user.smb = true)
    (hhash : user.HasHash) (existing : Option PDBEntry) :
    ∃ entry, user.passdbEntry netbiosname now existing = .ok entry ∧
      PassdbFile.packEntry entry = .ok entry := by
  obtain ⟨hne, ntPw, hntPw, hhex⟩ := hhash
  have hboth : (user.smb && decide (user.smbhash ≠ "")) = true := by
    rw [hsmb, Bool.true_and]
    exact decide_eq_true hne
  unfold PassdbUser.passdbEntry
  rw [if_pos hboth, hntPw]
  exact ⟨_, rfl, if_pos hhex⟩

theorem exists_sync_foldlM {some_ : List PassdbUser}
    (hall : ∀ user ∈ some_, user.smb = true ∧ user.HasHash)
    (before : PassdbSync)
    (hbefore : ∀ entry ∈ before.toUpdate, PassdbFile.packEntry entry = .ok entry) :
    ∃ after, some_.foldlM (PassdbSync.user netbiosname now) before = .ok after ∧
      ∀ entry ∈ after.toUpdate, PassdbFile.packEntry entry = .ok entry := by
  induction some_ generalizing before with
  | nil => exact ⟨before, rfl, hbefore⟩
  | cons user rest ih =>
    rw [forall_mem_cons] at hall
    obtain ⟨entry, hentry, hpack⟩ := @exists_passdbEntry netbiosname now user
      hall.1.1 hall.1.2 (before.pdbEntries.get? user.rid)
    rw [foldlM_cons]
    unfold PassdbSync.user
    simp only [hentry, ok_bind]
    apply ih hall.2
    intro other hother
    rcases mem_append.mp hother with hold | hnew
    · exact hbefore other hold
    · rw [mem_singleton.mp hnew]
      exact hpack

theorem exists_synchronizePassdb (hread : ∃ entries, file.passdbEntries = .ok entries)
    (hhash : ∀ user ∈ smbUsers users, user.HasHash) :
    ∃ final, synchronizePassdb netbiosname now false users file = .ok final := by
  obtain ⟨entries, hread⟩ := hread
  have hall : ∀ user ∈ smbUsers users, user.smb = true ∧ user.HasHash := by
    intro user huser
    have hsmb := (mem_filter.mp huser).2
    rw [Bool.and_eq_true] at hsmb
    exact ⟨hsmb.1, hhash user huser⟩
  obtain ⟨sync, hsync, hpack⟩ := @exists_sync_foldlM netbiosname now _ hall
    ⟨entriesByRid entries, [], file⟩ (by simp)
  obtain ⟨packed, hpacked⟩ := exists_mapM_eq_ok fun entry hentry => ⟨entry, hpack entry hentry⟩
  unfold synchronizePassdb
  simp only [Bool.false_eq_true, if_false, hread, ok_bind, hsync,
    PassdbFile.insertPassdbEntries, hpacked]
  exact ⟨_, rfl⟩

theorem synchronized_iff (hnamed : file.NamedByKey)
    (hnames : Relational.Distinct PassdbUser.username users)
    (hids : Relational.Distinct PassdbUser.id users)
    (hsync : synchronizePassdb netbiosname now false users file = .ok final) :
    Synchronized users final ↔ Untangled users file := by
  have hnames : Relational.Distinct PassdbUser.username (smbUsers users) := hnames.filter _
  have hrids : Relational.Distinct PassdbUser.rid (smbUsers users) := by
    apply (hids.filter _).of_key
    intro first _ second _ heq
    exact Nat.add_right_cancel heq
  obtain ⟨entries, updates, hread, hall, hfinal⟩ := synchronizePassdb_eq_ok hrids hsync
  have hlast := lastRead_of_read hread
  change final = (writtenFile users entries updates file).deleteAll
    (leftEntries users entries) at hfinal
  have hfinalRids : ∀ r ∉ (smbUsers users).map PassdbUser.rid, final.rids.get? r =
        if (file.lastRead r).isSome then none else file.rids.get? r := by
    intro r hr
    rw [hfinal, hlast]
    exact final_rids hnames hrids hall hnamed hread hr
  have hfinalUsers : ∀ n ∉ (smbUsers users).map PassdbUser.username,
      (final.users.get? n = none ↔ file.users.get? n = none ∨
        ∃ entry, Struck file entries n entry) := by
    intro n hn
    rw [hfinal]
    exact final_users hnames hrids hall hnamed hread hn
  constructor
  · intro hright
    constructor
    · intro r hmem hr
      have hgone : final.rids.get? r = none := by
        cases hget : final.rids.get? r with
        | none => rfl
        | some name =>
          obtain ⟨user, huser, hrid, _⟩ := (hright.rids r name).mp hget
          exact absurd (List.mem_map.mpr ⟨user, huser, hrid⟩) hr
      rw [hfinalRids r hr] at hgone
      split at hgone
      · rename_i hsome
        obtain ⟨entry, hentry⟩ := Option.isSome_iff_exists.mp hsome
        refine ⟨entry, hentry, ?_⟩
        intro hname
        obtain ⟨user, huser, heq⟩ := List.mem_map.mp hname
        obtain ⟨found, hfound, _⟩ := hright.recorded user huser
        obtain ⟨_, _, hget⟩ := final_user hnames hrids hall hnamed hread huser
        rw [hlast] at hentry
        have hrid := (entriesByRid_eq_some hentry).2
        have hleft : entry ∈ leftEntries users entries := by
          rw [mem_leftEntries_iff, hrid]
          exact ⟨hr, hentry⟩
        have hexists : ∃ old ∈ leftEntries users entries,
            old.username = user.username ∧ old.userRid ∈ file.rids :=
          ⟨entry, hleft, heq.symm, hrid ▸ hmem⟩
        rw [if_pos hexists, ← hfinal, hfound] at hget
        cases hget
      · rw [get?_eq_none_iff] at hgone
        exact absurd hmem hgone
    · intro n hmem hn
      have hgone : final.users.get? n = none := by
        rw [get?_eq_none_iff]
        intro hfound
        obtain ⟨user, huser, hname⟩ := hright.onlyUsers n hfound
        exact hn (List.mem_map.mpr ⟨user, huser, hname⟩)
      rcases (hfinalUsers n hn).mp hgone with hnone | ⟨entry, hstruck⟩
      · rw [get?_eq_none_iff] at hnone
        exact absurd hmem hnone
      · obtain ⟨hget, hread, hrid⟩ := hstruck
        exact ⟨entry, hget, (hlast _).trans hread, hrid⟩
  · intro huntangled
    constructor
    · intro r name
      by_cases hr : r ∈ (smbUsers users).map PassdbUser.rid
      · obtain ⟨user, huser, hrid⟩ := List.mem_map.mp hr
        have hget := final_userRid hnames hrids hall hnamed hread huser
        rw [← hfinal] at hget
        rw [← hrid, hget, Option.some.injEq]
        constructor
        · intro hname
          exact ⟨user, huser, rfl, hname⟩
        · rintro ⟨other, hother, hsame, hname⟩
          rw [← inj_on_of_nodup_map hrids hother huser hsame]
          exact hname
      · have hgone : final.rids.get? r = none := by
          rw [hfinalRids r hr]
          split
          · rfl
          · rename_i hnone
            rw [get?_eq_none_iff]
            intro hmem
            obtain ⟨entry, hentry, _⟩ := huntangled.rids r hmem hr
            rw [hentry] at hnone
            exact hnone rfl
        rw [hgone]
        constructor
        · intro hnone
          cases hnone
        · rintro ⟨user, huser, hrid, _⟩
          exact absurd (List.mem_map.mpr ⟨user, huser, hrid⟩) hr
    · intro user huser
      obtain ⟨entry, hrecord, hget⟩ := final_user hnames hrids hall hnamed hread huser
      rw [if_neg, ← hfinal] at hget
      · exact ⟨entry, hget, hrecord⟩
      · rintro ⟨old, hleft, hname, hrid⟩
        obtain ⟨hr, holdLast⟩ := mem_leftEntries_iff.mp hleft
        obtain ⟨found, hfound, hne⟩ := huntangled.rids _ hrid hr
        rw [hlast, holdLast, Option.some.injEq] at hfound
        rw [← hfound, hname] at hne
        exact hne (List.mem_map_of_mem huser)
    · intro name hmem
      by_contra hnot
      have hn : name ∉ (smbUsers users).map PassdbUser.username := by
        intro hfound
        obtain ⟨user, huser, heq⟩ := List.mem_map.mp hfound
        exact hnot ⟨user, huser, heq⟩
      have hgone : final.users.get? name = none := by
        rw [hfinalUsers name hn]
        by_cases hold : name ∈ file.users
        · obtain ⟨entry, hget, hread, hrid⟩ := huntangled.names name hold hn
          exact Or.inr ⟨entry, hget, (hlast _).symm.trans hread, hrid⟩
        · exact Or.inl (Dict.get?_eq_none_iff.mpr hold)
      rw [get?_eq_none_iff] at hgone
      exact hgone hmem

/-- The synchronization completes, and the file is right afterwards exactly when no
old record is tangled up with an account of now. -/
theorem synchronized_iff_untangled (hnamed : file.NamedByKey)
    (hread : ∃ entries, file.passdbEntries = .ok entries)
    (hnames : Relational.Distinct PassdbUser.username users)
    (hids : Relational.Distinct PassdbUser.id users)
    (hhash : ∀ user ∈ smbUsers users, user.HasHash) :
    ∃ final, synchronizePassdb netbiosname now false users file = .ok final ∧
      ((Synchronized users final ∧ ∃ entries, final.passdbEntries = .ok entries) ↔
        Untangled users file) := by
  obtain ⟨final, hsync⟩ := @exists_synchronizePassdb netbiosname now users file hread hhash
  refine ⟨final, hsync, ?_⟩
  rw [← synchronized_iff hnamed hnames hids hsync]
  constructor
  · intro hboth
    exact hboth.1
  · intro hright
    exact ⟨hright, hright.readable⟩

end

/-- The account `alice` as it is now, with the `id` 2. -/
def alice : PassdbUser where
  id := 2
  username := "alice"
  fullName := "Alice"
  smb := true
  isLocal := true
  locked := false
  passwordDisabled := false
  smbhash := "0CB6948805F797BF2A82807973B89537"

/-- As it was recorded with the `id` 1. -/
def oldAlice : PDBEntry where
  username := "alice"
  ntUsername := ""
  domain := "TRUENAS"
  fullName := "Alice"
  comment := ""
  homeDir := ""
  dirDrive := ""
  logonScript := ""
  profilePath := ""
  userRid := 20001
  groupRid := 513
  acctDesc := ""
  acctCtrl := 16
  ntPw := "0CB6948805F797BF2A82807973B89537"
  logonCount := 0
  badPwCount := 0
  times := ⟨0, 2085923199, 2085923199, 0, 0, 0, 2085923199⟩

def oldFile : PassdbFile :=
  PassdbFile.empty.setEntry oldAlice

theorem PassdbFile.NamedByKey.setEntry {file : PassdbFile} (hnamed : file.NamedByKey)
    (entry : PDBEntry) : (file.setEntry entry).NamedByKey := by
  intro name found hget
  have hset : (file.setEntry entry).users = file.users.set entry.username entry := rfl
  rw [hset, get?_set] at hget
  split at hget
  · rename_i heq
    rw [← Option.some.inj hget, heq]
  · exact hnamed name found hget

theorem empty_named : PassdbFile.empty.NamedByKey := nofun

def newAlice : PDBEntry := { oldAlice with userRid := 20002 }

/-- An account that is in the user table no more. -/
def oldBob : PDBEntry := { oldAlice with username := "bob", userRid := 20005 }

def staleFile : PassdbFile :=
  (PassdbFile.empty.setEntry newAlice).setEntry oldBob

theorem staleFile_read : staleFile.passdbEntries = .ok [newAlice, oldBob] := by
  decide +kernel

theorem staleFile_untangled : Untangled [alice] staleFile where
  rids r hr hnew := by
    have hcases : r = 20005 ∨ r = 20002 := by
      change r ∈ [20002, 20005] at hr
      simpa [or_comm] using hr
    rcases hcases with rfl | rfl
    · exact ⟨oldBob, by decide +kernel, by decide⟩
    · exact absurd (by decide) hnew
  names n hn hnew := by
    have hcases : n = "bob" ∨ n = "alice" := by
      change n ∈ ["alice", "bob"] at hn
      simpa [or_comm] using hn
    rcases hcases with rfl | rfl
    · exact ⟨oldBob, by decide +kernel, by decide +kernel, by decide⟩
    · exact absurd (by decide) hnew

theorem synchronized_staleFile : ∃ final,
    synchronizePassdb "truenas" 0 false [alice] staleFile = .ok final ∧
      Synchronized [alice] final ∧ ∃ entries, final.passdbEntries = .ok entries := by
  have hhash : ∀ user ∈ smbUsers [alice], user.HasHash := by
    intro user huser
    rw [mem_singleton.mp (mem_filter.mp huser).1]
    exact ⟨by decide, alice.smbhash, by decide +kernel, by decide +kernel⟩
  have hnames : Relational.Distinct PassdbUser.username [alice] := nodup_singleton _
  have hids : Relational.Distinct PassdbUser.id [alice] := nodup_singleton _
  obtain ⟨final, hsync, hright⟩ := synchronized_iff_untangled
    ((empty_named.setEntry newAlice).setEntry oldBob) ⟨_, staleFile_read⟩ hnames hids hhash
  exact ⟨final, hsync, hright.mpr staleFile_untangled⟩

/-- What is left of the old account takes the record of the new one with it. -/
theorem newAlice_removed : oldFile.NamedByKey ∧ oldFile.passdbEntries = .ok [oldAlice] ∧
    ∃ final, synchronizePassdb "truenas" 0 false [alice] oldFile = .ok final ∧
      ¬Synchronized [alice] final := by
  refine ⟨empty_named.setEntry oldAlice, by decide +kernel, ?_⟩
  have hremoved : (synchronizePassdb "truenas" 0 false [alice]
      oldFile).toOption.any (fun final => final.users.get? "alice" = none) = true := by
    decide +kernel
  obtain ⟨final, hfinal, hnone⟩ := (Option.any_eq_true _ _).mp hremoved
  have hok : synchronizePassdb "truenas" 0 false [alice] oldFile = .ok final := by
    cases hsync : synchronizePassdb "truenas" 0 false [alice] oldFile with
    | error e =>
      rw [hsync] at hfinal
      cases hfinal
    | ok found =>
      rw [hsync] at hfinal
      rw [Option.some.inj hfinal]
  refine ⟨final, hok, ?_⟩
  intro hright
  obtain ⟨entry, hget, _⟩ := hright.recorded alice (by decide)
  have hnone := of_decide_eq_true hnone
  change final.users.get? "alice" = some entry at hget
  rw [hnone] at hget
  cases hget

end Middlewared
