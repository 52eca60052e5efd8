import Middlewared.Passdb

/-!
# What synchronization leaves in the user database

Records of names and RIDs that no user has are to go.
-/

namespace Middlewared

open Dict List Option

namespace PassdbFile

variable {file : PassdbFile} {entries : List PDBEntry}

/-! ## Many entries at once -/

def deleteAll (file : PassdbFile) (entries : List PDBEntry) : PassdbFile :=
  entries.foldl (fun file entry => file.deletePassdbEntry entry.username entry.userRid) file

theorem deleteAll_cons (entry : PDBEntry) (rest : List PDBEntry) : file.deleteAll (entry :: rest) =
    (file.deletePassdbEntry entry.username entry.userRid).deleteAll rest :=
  rfl

structure Apart (entries : List PDBEntry) : Prop where
  names : Relational.Distinct PDBEntry.username entries
  rids : Relational.Distinct PDBEntry.userRid entries

theorem Apart.of_cons {entry : PDBEntry} (hapart : Apart (entry :: entries)) :
    Apart entries ∧ (∀ other ∈ entries, other.username ≠ entry.username) ∧
      ∀ other ∈ entries, other.userRid ≠ entry.userRid := by
  have hnames := nodup_cons.mp hapart.names
  have hrids := nodup_cons.mp hapart.rids
  refine ⟨⟨hnames.2, hrids.2⟩, ?_, ?_⟩
  · intro other hother heq
    exact hnames.1 (List.mem_map.mpr ⟨other, hother, heq⟩)
  · intro other hother heq
    exact hrids.1 (List.mem_map.mpr ⟨other, hother, heq⟩)

theorem users_deleteAll (hapart : Apart entries) (n : String) :
    (file.deleteAll entries).users.get? n =
      if ∃ entry ∈ entries, entry.username = n ∧ entry.userRid ∈ file.rids then
        none
      else file.users.get? n := by
  induction entries generalizing file with
  | nil => simp [deleteAll]
  | cons entry rest ih =>
    obtain ⟨hrest, hnames, hrids⟩ := hapart.of_cons
    rw [deleteAll_cons, ih hrest]
    unfold deletePassdbEntry
    split
    · rename_i hboth
      have hsame : (∃ other ∈ rest, other.username = n ∧
          other.userRid ∈ file.rids.erase entry.userRid) ↔
          ∃ other ∈ rest, other.username = n ∧ other.userRid ∈ file.rids := by
        apply exists_congr
        intro other
        apply and_congr_right
        intro hother
        rw [mem_erase_iff]
        simp [hrids other hother]
      simp only [hsame, get?_erase]
      by_cases hn : n = entry.username
      · simp [hn, hboth.2]
      · simp [hn, Ne.symm hn]
    · rename_i hnot
      by_cases hn : entry.username = n
      · by_cases hrid : entry.userRid ∈ file.rids
        · have hnone : file.users.get? n = none := by
            rw [get?_eq_none_iff, ← hn]
            exact fun hmem => hnot ⟨hmem, hrid⟩
          simp [hnone]
        · simp [hrid]
      · simp [hn]

theorem rids_deleteAll (hapart : Apart entries) (r : ℕ) : (file.deleteAll entries).rids.get? r =
    if ∃ entry ∈ entries, entry.userRid = r ∧ entry.username ∈ file.users then
      none
    else file.rids.get? r := by
  induction entries generalizing file with
  | nil => simp [deleteAll]
  | cons entry rest ih =>
    obtain ⟨hrest, hnames, hrids⟩ := hapart.of_cons
    rw [deleteAll_cons, ih hrest]
    unfold deletePassdbEntry
    split
    · rename_i hboth
      have hsame : (∃ other ∈ rest, other.userRid = r ∧
          other.username ∈ file.users.erase entry.username) ↔
          ∃ other ∈ rest, other.userRid = r ∧ other.username ∈ file.users := by
        apply exists_congr
        intro other
        apply and_congr_right
        intro hother
        rw [mem_erase_iff]
        simp [hnames other hother]
      simp only [hsame, get?_erase]
      by_cases hr : r = entry.userRid
      · simp [hr, hboth.1]
      · simp [hr, Ne.symm hr]
    · rename_i hnot
      by_cases hr : entry.userRid = r
      · by_cases hname : entry.username ∈ file.users
        · have hnone : file.rids.get? r = none := by
            rw [get?_eq_none_iff, ← hr]
            exact fun hmem => hnot ⟨hname, hmem⟩
          simp [hnone]
        · simp [hname]
      · simp [hr]

theorem users_setEntries (hapart : Apart entries) {entry : PDBEntry} (hentry : entry ∈ entries) :
    (entries.foldl setEntry file).users.get? entry.username = some entry ∧
      (entries.foldl setEntry file).rids.get? entry.userRid = some entry.username := by
  induction entries using List.reverseRecOn with
  | nil => cases hentry
  | append_singleton entries last ih =>
    have hnames := hapart.names
    have hrids := hapart.rids
    unfold Relational.Distinct at hnames hrids
    rw [map_append, nodup_append] at hnames hrids
    rw [foldl_append, foldl_cons, foldl_nil]
    unfold setEntry
    rcases mem_append.mp hentry with hold | hlast
    · have hname : entry.username ≠ last.username := by
        exact hnames.2.2 _ (List.mem_map_of_mem hold) _ (by simp)
      have hrid : entry.userRid ≠ last.userRid := by
        exact hrids.2.2 _ (List.mem_map_of_mem hold) _ (by simp)
      rw [get?_set_of_ne _ hname, get?_set_of_ne _ hrid]
      exact ih ⟨hnames.1, hrids.1⟩ hold
    · rw [mem_singleton.mp hlast]
      exact ⟨get?_set_self _ _ _, get?_set_self _ _ _⟩

theorem users_setEntries_of_notMem {n : String} (hn : n ∉ entries.map PDBEntry.username) :
    (entries.foldl setEntry file).users.get? n = file.users.get? n := by
  induction entries generalizing file with
  | nil => rfl
  | cons entry rest ih =>
    rw [map_cons, mem_cons, not_or] at hn
    rw [foldl_cons, ih hn.2]
    exact get?_set_of_ne _ hn.1 _

theorem rids_setEntries_of_notMem {r : ℕ} (hr : r ∉ entries.map PDBEntry.userRid) :
    (entries.foldl setEntry file).rids.get? r = file.rids.get? r := by
  induction entries generalizing file with
  | nil => rfl
  | cons entry rest ih =>
    rw [map_cons, mem_cons, not_or] at hr
    rw [foldl_cons, ih hr.2]
    exact get?_set_of_ne _ hr.1 _

end PassdbFile

section

variable {file : PassdbFile} {entries : List PDBEntry}

def PassdbFile.NamedByKey (file : PassdbFile) : Prop :=
  ∀ name entry, file.users.get? name = some entry → entry.username = name

theorem users_get?_of_read (hnamed : file.NamedByKey)
    (hread : file.passdbEntries = .ok entries) {entry : PDBEntry}
    (hentry : entry ∈ entries) :
    file.users.get? entry.username = some entry := by
  obtain ⟨record, _, hparse⟩ := exists_of_mem_mapM_results hread hentry
  unfold PassdbFile.parseEntry at hparse
  split at hparse
  · cases hparse
  · rename_i found hfound
    rw [← Except.ok.inj hparse, hnamed _ _ hfound]
    exact hfound

theorem entriesByRid_eq_some {r : ℕ} {entry : PDBEntry}
    (hget : (entriesByRid entries).get? r = some entry) :
    entry ∈ entries ∧ entry.userRid = r := by
  unfold entriesByRid at hget
  rw [get?_ofEntries] at hget
  have hmem := mem_reverse.mp (mem_of_lookup_eq_some hget)
  obtain ⟨found, hfound, heq⟩ := List.mem_map.mp hmem
  rw [Prod.mk.injEq] at heq
  rw [← heq.2]
  exact ⟨hfound, heq.1⟩

def PassdbFile.lastRead (file : PassdbFile) (r : ℕ) : Option PDBEntry :=
  match file.passdbEntries with
  | .error _ => none
  | .ok entries => (entriesByRid entries).get? r

theorem lastRead_of_read (hread : file.passdbEntries = .ok entries) (r : ℕ) :
    file.lastRead r = (entriesByRid entries).get? r := by
  unfold PassdbFile.lastRead
  rw [hread]

end

/-! ## The users of the table -/

section

variable {netbiosname : String} {now : ℤ}

structure Records (user : PassdbUser) (entry : PDBEntry) : Prop where
  username : entry.username = user.username
  userRid : entry.userRid = user.rid
  ntPw : user.ntPw = .ok entry.ntPw

variable {user : PassdbUser}

theorem records_passdbEntry {existing : Option PDBEntry} {entry : PDBEntry}
    (hentry : user.passdbEntry netbiosname now existing = .ok entry) :
    Records user entry := by
  unfold PassdbUser.passdbEntry at hentry
  split at hentry
  · obtain ⟨ntPw, hntPw, hentry⟩ := bind_eq_ok_iff.mp hentry
    rw [← Except.ok.inj hentry]
    exact ⟨rfl, rfl, hntPw⟩
  · cases hentry

def renamedEntry (pdbEntries : Dict ℕ PDBEntry) (user : PassdbUser) :
    Option PDBEntry :=
  (pdbEntries.get? user.rid).filter fun entry =>
    entry.username ≠ user.username

theorem renamedEntry_erase {pdbEntries : Dict ℕ PDBEntry} {other : PassdbUser}
    (hne : other.rid ≠ user.rid) :
    renamedEntry (pdbEntries.erase user.rid) other = renamedEntry pdbEntries other := by
  unfold renamedEntry
  rw [get?_erase, if_neg hne]

theorem deleteAll_filterMap_cons (file : PassdbFile)
    (pdbEntries : Dict ℕ PDBEntry) (user : PassdbUser)
    (rest : List PassdbUser) :
    file.deleteAll ((user :: rest).filterMap (renamedEntry pdbEntries)) =
      (PassdbSync.deleteRenamed file user (pdbEntries.get? user.rid)).deleteAll
        (rest.filterMap (renamedEntry pdbEntries)) := by
  cases hget : pdbEntries.get? user.rid with
  | none =>
    have hnone : renamedEntry pdbEntries user = none := by
      simp [renamedEntry, hget]
    rw [filterMap_cons_none hnone]
    rfl
  | some entry =>
    by_cases hname : entry.username = user.username
    · have hnone : renamedEntry pdbEntries user = none := by
        simp [renamedEntry, hget, hname]
      rw [filterMap_cons_none hnone]
      simp [PassdbSync.deleteRenamed, hname]
    · have hsome : renamedEntry pdbEntries user = some entry := by
        simp [renamedEntry, hget, hname]
      rw [filterMap_cons_some hsome, PassdbFile.deleteAll_cons]
      simp [PassdbSync.deleteRenamed, hname]

variable {users : List PassdbUser}

theorem sync_foldlM {before after : PassdbSync} (hrids : Relational.Distinct PassdbUser.rid users)
    (hsync : users.foldlM (PassdbSync.user netbiosname now) before = .ok after) :
    after.pdbEntries.entries = before.pdbEntries.entries.filter
        (fun entry => entry.1 ∉ users.map PassdbUser.rid) ∧
      (∃ updates, after.toUpdate = before.toUpdate ++ updates ∧
        List.Forall₂ Records users updates) ∧
      after.file = before.file.deleteAll (users.filterMap (renamedEntry before.pdbEntries)) := by
  induction users generalizing before with
  | nil =>
    rw [← Except.ok.inj hsync]
    refine ⟨?_, ⟨[], ?_, List.Forall₂.nil⟩, rfl⟩
    · simp
    · simp
  | cons user rest ih =>
    have hdistinct := nodup_cons.mp hrids
    obtain ⟨middle, hmiddle, hsync⟩ := bind_eq_ok_iff.mp hsync
    obtain ⟨update, hupdate, hmiddle⟩ := bind_eq_ok_iff.mp hmiddle
    have hmiddle := Except.ok.inj hmiddle
    obtain ⟨hentries, ⟨updates, hupdates, hall⟩, hfile⟩ := ih hdistinct.2 hsync
    have hpdb : middle.pdbEntries = before.pdbEntries.erase user.rid := by
      rw [← hmiddle]
    refine ⟨?_, ⟨update :: updates, ?_, List.Forall₂.cons (records_passdbEntry hupdate) hall⟩, ?_⟩
    · rw [hentries, hpdb]
      change (before.pdbEntries.entries.filter _).filter _ = _
      rw [List.filter_filter]
      apply filter_congr
      intro entry _
      simp only [map_cons, mem_cons, not_or, Bool.decide_and]
      exact Bool.and_comm _ _
    · rw [hupdates, ← hmiddle]
      simp
    · have hrest : rest.filterMap (renamedEntry middle.pdbEntries) =
          rest.filterMap (renamedEntry before.pdbEntries) := by
        rw [hpdb]
        apply filterMap_congr
        intro other hother
        apply renamedEntry_erase
        intro heq
        exact hdistinct.1 (List.mem_map.mpr ⟨other, hother, heq⟩)
      rw [hfile, hrest, ← hmiddle]
      exact (deleteAll_filterMap_cons before.file before.pdbEntries user rest).symm

theorem apart_of_records {updates : List PDBEntry}
    (hnames : Relational.Distinct PassdbUser.username users)
    (hrids : Relational.Distinct PassdbUser.rid users)
    (hall : List.Forall₂ Records users updates) : PassdbFile.Apart updates ∧
    updates.map PDBEntry.username = users.map PassdbUser.username ∧
    updates.map PDBEntry.userRid = users.map PassdbUser.rid := by
  have hmaps : updates.map PDBEntry.username = users.map PassdbUser.username ∧
      updates.map PDBEntry.userRid = users.map PassdbUser.rid := by
    clear hnames hrids
    induction hall with
    | nil => exact ⟨rfl, rfl⟩
    | cons hrecord _ ih =>
      simp only [map_cons, hrecord.username, hrecord.userRid, ih.1, ih.2, and_self]
  refine ⟨⟨?_, ?_⟩, hmaps⟩
  · unfold Relational.Distinct
    rw [hmaps.1]
    exact hnames
  · unfold Relational.Distinct
    rw [hmaps.2]
    exact hrids

theorem exists_record {updates : List PDBEntry}
    (hall : List.Forall₂ Records users updates) (huser : user ∈ users) :
    ∃ entry ∈ updates, Records user entry := by
  induction hall with
  | nil => cases huser
  | cons hrecord _ ih =>
    rcases mem_cons.mp huser with heq | hrest
    · rw [heq]
      exact ⟨_, mem_cons_self, hrecord⟩
    · obtain ⟨entry, hentry, hfound⟩ := ih hrest
      exact ⟨entry, mem_cons_of_mem _ hentry, hfound⟩

theorem packEntry_eq_ok {entries packed : List PDBEntry}
    (hpacked : entries.mapM PassdbFile.packEntry = .ok packed) :
    packed = entries := by
  have hkeep : packed.map id = entries.map id := by
    apply map_mapM_results hpacked
    intro entry other hpack
    unfold PassdbFile.packEntry at hpack
    split at hpack
    · exact (Except.ok.inj hpack).symm
    · cases hpack
  simpa using hkeep

end

/-! ## The file afterwards -/

section

variable {netbiosname : String} {now : ℤ} {users : List PassdbUser}
  {file final : PassdbFile}

theorem synchronizePassdb_eq_ok (hrids : Relational.Distinct PassdbUser.rid (smbUsers users))
    (hsync : synchronizePassdb netbiosname now false users file = .ok final) :
    ∃ entries updates, file.passdbEntries = .ok entries ∧
      List.Forall₂ Records (smbUsers users) updates ∧
      final = (updates.foldl PassdbFile.setEntry (file.deleteAll ((smbUsers users).filterMap
          (renamedEntry (entriesByRid entries))))).deleteAll
        (((entriesByRid entries).entries.filter fun entry =>
          entry.1 ∉ (smbUsers users).map PassdbUser.rid).map Prod.snd) := by
  obtain ⟨entries, hread, hsync⟩ := bind_eq_ok_iff.mp hsync
  obtain ⟨sync, hloop, hsync⟩ := bind_eq_ok_iff.mp hsync
  obtain ⟨written, hinsert, hsync⟩ := bind_eq_ok_iff.mp hsync
  obtain ⟨packed, hpacked, hinsert⟩ := bind_eq_ok_iff.mp hinsert
  obtain ⟨hentries, ⟨updates, hupdates, hall⟩, hfile⟩ := sync_foldlM hrids hloop
  refine ⟨entries, updates, hread, hall, ?_⟩
  rw [← Except.ok.inj hsync, hentries, ← Except.ok.inj hinsert,
    packEntry_eq_ok hpacked, hupdates, hfile]
  unfold PassdbFile.deleteAll
  rw [foldl_map]
  rfl

def renamedEntries (users : List PassdbUser) (entries : List PDBEntry) :
    List PDBEntry :=
  (smbUsers users).filterMap (renamedEntry (entriesByRid entries))

def leftEntries (users : List PassdbUser) (entries : List PDBEntry) :
    List PDBEntry :=
  ((entriesByRid entries).entries.filter fun entry =>
    entry.1 ∉ (smbUsers users).map PassdbUser.rid).map Prod.snd

variable {entries : List PDBEntry} {entry : PDBEntry}

theorem mem_leftEntries_iff : entry ∈ leftEntries users entries ↔
    entry.userRid ∉ (smbUsers users).map PassdbUser.rid ∧
      (entriesByRid entries).get? entry.userRid = some entry := by
  constructor
  · intro hmem
    obtain ⟨⟨r, found⟩, hfound, heq⟩ := List.mem_map.mp hmem
    obtain ⟨hfound, hr⟩ := mem_filter.mp hfound
    have hget := Dict.mem_entries_iff.mp hfound
    have hrid := (entriesByRid_eq_some hget).2
    subst heq
    rw [hrid]
    exact ⟨of_decide_eq_true hr, hget⟩
  · intro hboth
    refine List.mem_map.mpr ⟨(entry.userRid, entry), ?_, rfl⟩
    exact mem_filter.mpr ⟨Dict.mem_entries_iff.mpr hboth.2, decide_eq_true hboth.1⟩

theorem mem_renamedEntries_iff : entry ∈ renamedEntries users entries ↔
    ∃ user ∈ smbUsers users, user.rid = entry.userRid ∧
      (entriesByRid entries).get? entry.userRid = some entry ∧
      entry.username ≠ user.username := by
  unfold renamedEntries renamedEntry
  simp only [mem_filterMap, filter_eq_some_iff, decide_eq_true_eq]
  constructor
  · rintro ⟨user, huser, hget, hne⟩
    have hrid := (entriesByRid_eq_some hget).2
    exact ⟨user, huser, hrid.symm, hrid ▸ hget, hne⟩
  · rintro ⟨user, huser, hrid, hget, hne⟩
    exact ⟨user, huser, hrid ▸ hget, hne⟩

theorem sublist_map_filterMap {α β γ : Type*} {f : α → Option β} {g : β → γ}
    {h : α → γ} (hkeep : ∀ a b, f a = some b → g b = h a) (l : List α) :
    ((l.filterMap f).map g).Sublist (l.map h) := by
  induction l with
  | nil => exact List.Sublist.slnil
  | cons a rest ih =>
    cases hf : f a with
    | none =>
      rw [filterMap_cons_none hf]
      exact ih.cons (h a)
    | some b =>
      rw [filterMap_cons_some hf, map_cons, map_cons, hkeep a b hf]
      exact ih.cons_cons (h a)

theorem apart_of_read {some_ : List PDBEntry} (hrids : Relational.Distinct PDBEntry.userRid some_)
    (hread : ∀ entry ∈ some_, file.users.get? entry.username = some entry) :
    PassdbFile.Apart some_ := by
  refine ⟨hrids.of_key ?_, hrids⟩
  intro first hfirst second hsecond heq
  have hsame := hread first hfirst
  rw [heq, hread second hsecond, some.injEq] at hsame
  rw [hsame]

section

variable (hnamed : file.NamedByKey) (hread : file.passdbEntries = .ok entries)

include hnamed hread

theorem get?_of_last {r : ℕ} (hlast : (entriesByRid entries).get? r = some entry) :
    file.users.get? entry.username = some entry :=
  users_get?_of_read hnamed hread (entriesByRid_eq_some hlast).1

theorem apart_leftEntries (users : List PassdbUser) :
    PassdbFile.Apart (leftEntries users entries) := by
  apply @apart_of_read file
  · have hsame : (leftEntries users entries).map PDBEntry.userRid =
        ((entriesByRid entries).entries.filter fun entry =>
          entry.1 ∉ (smbUsers users).map PassdbUser.rid).map Prod.fst := by
      unfold leftEntries
      rw [List.map_map]
      apply map_congr_left
      intro record hrecord
      exact (entriesByRid_eq_some (Dict.mem_entries_iff.mp (mem_of_mem_filter hrecord))).2
    unfold Relational.Distinct
    rw [hsame]
    exact (entriesByRid entries).nodup.sublist (filter_sublist.map _)
  · intro entry hentry
    exact get?_of_last hnamed hread (mem_leftEntries_iff.mp hentry).2

theorem apart_renamedEntries (hrids : Relational.Distinct PassdbUser.rid (smbUsers users)) :
    PassdbFile.Apart (renamedEntries users entries) := by
  apply @apart_of_read file
  · apply List.Nodup.sublist ?_ hrids
    apply sublist_map_filterMap
    intro user entry hentry
    exact (entriesByRid_eq_some (filter_eq_some_iff.mp hentry).1).2
  · intro entry hentry
    obtain ⟨_, _, _, hlast, _⟩ := mem_renamedEntries_iff.mp hentry
    exact get?_of_last hnamed hread hlast

end

def writtenFile (users : List PassdbUser) (entries updates : List PDBEntry)
    (file : PassdbFile) : PassdbFile :=
  updates.foldl PassdbFile.setEntry (file.deleteAll (renamedEntries users entries))

def Struck (file : PassdbFile) (entries : List PDBEntry) (n : String)
    (entry : PDBEntry) : Prop :=
  file.users.get? n = some entry ∧ (entriesByRid entries).get? entry.userRid = some entry ∧
    entry.userRid ∈ file.rids

section

variable {updates : List PDBEntry}
  (hnames : Relational.Distinct PassdbUser.username (smbUsers users))
  (hrids : Relational.Distinct PassdbUser.rid (smbUsers users))
  (hall : List.Forall₂ Records (smbUsers users) updates)

include hnames hrids hall

variable {user : PassdbUser}

theorem writtenFile_user (huser : user ∈ smbUsers users) : ∃ entry, Records user entry ∧
    (writtenFile users entries updates file).users.get? user.username = some entry ∧
    (writtenFile users entries updates file).rids.get? user.rid = some user.username := by
  obtain ⟨entry, hentry, hrecord⟩ := exists_record hall huser
  have hset := @PassdbFile.users_setEntries (file.deleteAll (renamedEntries users entries)) _
    (apart_of_records hnames hrids hall).1 _ hentry
  rw [hrecord.username, hrecord.userRid] at hset
  exact ⟨entry, hrecord, hset⟩

theorem writtenFile_users {n : String} (hn : n ∉ (smbUsers users).map PassdbUser.username) :
    (writtenFile users entries updates file).users.get? n =
      (file.deleteAll (renamedEntries users entries)).users.get? n := by
  apply PassdbFile.users_setEntries_of_notMem
  rw [(apart_of_records hnames hrids hall).2.1]
  exact hn

variable (hnamed : file.NamedByKey) (hread : file.passdbEntries = .ok entries)

include hnamed hread

theorem writtenFile_rids {r : ℕ} (hr : r ∉ (smbUsers users).map PassdbUser.rid) :
    (writtenFile users entries updates file).rids.get? r = file.rids.get? r := by
  unfold writtenFile
  rw [PassdbFile.rids_setEntries_of_notMem,
    PassdbFile.rids_deleteAll (apart_renamedEntries hnamed hread hrids)]
  · apply if_neg
    rintro ⟨entry, hentry, hrid, _⟩
    obtain ⟨user, huser, hsame, _⟩ := mem_renamedEntries_iff.mp hentry
    exact hr (List.mem_map.mpr ⟨user, huser, hsame.trans hrid⟩)
  · rw [(apart_of_records hnames hrids hall).2.2]
    exact hr

theorem leftEntry_mem {entry : PDBEntry} (hleft : entry ∈ leftEntries users entries) :
    entry.username ∈ (writtenFile users entries updates file).users := by
  rw [← get?_isSome_iff]
  obtain ⟨hrid, hlast⟩ := mem_leftEntries_iff.mp hleft
  have hget := get?_of_last hnamed hread hlast
  by_cases hname : entry.username ∈ (smbUsers users).map PassdbUser.username
  · obtain ⟨user, huser, heq⟩ := List.mem_map.mp hname
    obtain ⟨found, _, hfound, _⟩ := writtenFile_user hnames hrids hall huser
    rw [← heq, hfound]
    rfl
  · rw [writtenFile_users hnames hrids hall hname,
      PassdbFile.users_deleteAll (apart_renamedEntries hnamed hread hrids),
      if_neg, hget]
    · rfl
    · rintro ⟨other, hother, hsame, _⟩
      obtain ⟨user, huser, huserRid, hlastOther, _⟩ := mem_renamedEntries_iff.mp hother
      have hgetOther := get?_of_last hnamed hread hlastOther
      rw [hsame, hget, some.injEq] at hgetOther
      rw [← hgetOther] at huserRid
      exact hrid (List.mem_map.mpr ⟨user, huser, huserRid⟩)

theorem final_rids {r : ℕ} (hr : r ∉ (smbUsers users).map PassdbUser.rid) :
    ((writtenFile users entries updates file).deleteAll (leftEntries users entries)).rids.get? r =
      if ((entriesByRid entries).get? r).isSome then none
      else file.rids.get? r := by
  rw [PassdbFile.rids_deleteAll (apart_leftEntries hnamed hread users),
    writtenFile_rids hnames hrids hall hnamed hread hr]
  have hiff : (∃ entry ∈ leftEntries users entries, entry.userRid = r ∧
      entry.username ∈ (writtenFile users entries updates file).users) ↔
      ((entriesByRid entries).get? r).isSome := by
    rw [isSome_iff_exists]
    constructor
    · rintro ⟨entry, hleft, hrid, _⟩
      exact ⟨entry, hrid ▸ (mem_leftEntries_iff.mp hleft).2⟩
    · rintro ⟨entry, hlast⟩
      have hrid := (entriesByRid_eq_some hlast).2
      have hleft : entry ∈ leftEntries users entries := by
        rw [mem_leftEntries_iff, hrid]
        exact ⟨hr, hlast⟩
      exact ⟨entry, hleft, hrid, leftEntry_mem hnames hrids hall hnamed hread hleft⟩
  simp only [hiff]

theorem final_userRid (huser : user ∈ smbUsers users) :
    ((writtenFile users entries updates file).deleteAll
        (leftEntries users entries)).rids.get? user.rid =
      some user.username := by
  obtain ⟨_, _, _, hrid⟩ := writtenFile_user hnames hrids hall huser
  rw [PassdbFile.rids_deleteAll (apart_leftEntries hnamed hread users), if_neg, hrid]
  rintro ⟨entry, hleft, hsame, _⟩
  have hmem := (mem_leftEntries_iff.mp hleft).1
  rw [hsame] at hmem
  exact hmem (List.mem_map_of_mem huser)

theorem final_user (huser : user ∈ smbUsers users) : ∃ entry, Records user entry ∧
    ((writtenFile users entries updates file).deleteAll
        (leftEntries users entries)).users.get? user.username =
      if ∃ old ∈ leftEntries users entries,
          old.username = user.username ∧ old.userRid ∈ file.rids then none
      else some entry := by
  obtain ⟨entry, hrecord, hget, _⟩ := writtenFile_user hnames hrids hall huser
  refine ⟨entry, hrecord, ?_⟩
  rw [PassdbFile.users_deleteAll (apart_leftEntries hnamed hread users), hget]
  have hiff : (∃ old ∈ leftEntries users entries, old.username = user.username ∧
        old.userRid ∈ (writtenFile users entries updates file).rids) ↔
      ∃ old ∈ leftEntries users entries,
        old.username = user.username ∧ old.userRid ∈ file.rids := by
    apply exists_congr
    intro old
    apply and_congr_right
    intro hleft
    rw [← get?_isSome_iff, ← get?_isSome_iff,
      writtenFile_rids hnames hrids hall hnamed hread (mem_leftEntries_iff.mp hleft).1]
  simp only [hiff]

theorem final_users {n : String} (hn : n ∉ (smbUsers users).map PassdbUser.username) :
    ((writtenFile users entries updates file).deleteAll
        (leftEntries users entries)).users.get? n = none ↔
      file.users.get? n = none ∨ ∃ entry, Struck file entries n entry := by
  rw [PassdbFile.users_deleteAll (apart_leftEntries hnamed hread users),
    writtenFile_users hnames hrids hall hn,
    PassdbFile.users_deleteAll (apart_renamedEntries hnamed hread hrids)]
  constructor
  · intro hnone
    split at hnone
    · rename_i hleft
      obtain ⟨entry, hleft, hname, hrid⟩ := hleft
      obtain ⟨hnot, hlast⟩ := mem_leftEntries_iff.mp hleft
      rw [← get?_isSome_iff, writtenFile_rids hnames hrids hall hnamed hread hnot,
        get?_isSome_iff] at hrid
      exact Or.inr ⟨entry, hname ▸ get?_of_last hnamed hread hlast, hlast, hrid⟩
    · split at hnone
      · rename_i hrenamed
        obtain ⟨entry, hrenamed, hname, hrid⟩ := hrenamed
        obtain ⟨_, _, _, hlast, _⟩ := mem_renamedEntries_iff.mp hrenamed
        exact Or.inr ⟨entry, hname ▸ get?_of_last hnamed hread hlast, hlast, hrid⟩
      · exact Or.inl hnone
  · rintro (hnone | ⟨entry, hget, hlast, hrid⟩)
    · simp [hnone]
    · have hname := hnamed n entry hget
      by_cases hmem : entry.userRid ∈ (smbUsers users).map PassdbUser.rid
      · obtain ⟨user, huser, hsame⟩ := List.mem_map.mp hmem
        have hrenamed : entry ∈ renamedEntries users entries := by
          refine mem_renamedEntries_iff.mpr ⟨user, huser, hsame, hlast, ?_⟩
          rw [hname]
          rintro rfl
          exact hn (List.mem_map_of_mem huser)
        have hexists : ∃ other ∈ renamedEntries users entries,
            other.username = n ∧ other.userRid ∈ file.rids :=
          ⟨entry, hrenamed, hname, hrid⟩
        rw [if_pos hexists, ite_self]
      · have hleft : entry ∈ leftEntries users entries := mem_leftEntries_iff.mpr ⟨hmem, hlast⟩
        apply if_pos
        refine ⟨entry, hleft, hname, ?_⟩
        rw [← get?_isSome_iff, writtenFile_rids hnames hrids hall hnamed hread hmem,
          get?_isSome_iff]
        exact hrid

end

end

end Middlewared
