import Middlewared.MountText

/-!
# Looking up mounts

A lookup finds the right mount when the first line that is selected is one that
gives back the right entry; the numbers of a device can stand in the line of
another one.
-/

namespace Middlewared

open PyString PyText MountInfo Relation List Dict Option

namespace MountTable

variable {rt : MountRuntime} {table : MountTable} {line : List Char}
  {entry : MountEntry} {mount : Mount}

theorem readLines_text : readLines table.text = table.mounts.flatMap Mount.lines :=
  readLines_flatMap table.mounts

theorem firstLine_mem (hmount : mount ∈ table.mounts) :
    firstLine mount.body ∈ readLines table.text := by
  obtain ⟨pieces, hlines, _⟩ := readLines_eq_cons mount.body Mount.newline_notMem_body
  rw [readLines_text, mem_flatMap]
  refine ⟨mount, hmount, ?_⟩
  rw [Mount.lines, hlines]
  exact mem_cons_self

theorem eq_of_mountId {first second : Mount} (hfirst : first ∈ table.mounts)
    (hsecond : second ∈ table.mounts) (heq : first.mountId = second.mountId) :
    first = second :=
  inj_on_of_nodup_map table.nodup hfirst hsecond heq

theorem readable_of_mem (hline : line ∈ readLines table.text) (hmount : mount ∈ table.mounts)
    (hok : mntentDict rt line = .ok (mount.entry rt)) :
    mount.Readable ∧ line = firstLine mount.body := by
  rw [readLines_text, mem_flatMap] at hline
  obtain ⟨other, hother, hline⟩ := hline
  obtain ⟨pieces, hlines, hpieces⟩ := other.lines_eq_cons rt
  rw [hlines] at hline
  rcases mem_cons.mp hline with hfirst | hpiece
  · rw [hfirst] at hok
    obtain ⟨_, _, hid⟩ := Mount.mountId_of_firstLine hok
    have hsame : other = mount := by
      apply eq_of_mountId hother hmount
      exact Int.ofNat_inj.mp hid.symm
    rw [hsame] at hok hfirst
    exact ⟨Mount.readable_of_mntentDict hok, hfirst⟩
  · exact absurd hok (hpieces line hpiece _)

/-- What is returned are entries of the mounts that are wanted, under the key
that is asked for, and there is one if there is such a mount. -/
def Exact (rt : MountRuntime) (table : MountTable) (key : ℤ)
    (wanted : Mount → Prop)
    (result : Except MountError (Dict ℤ MountEntry)) : Prop :=
  ∃ info, result = .ok info ∧ (∀ k entry, info.get? k = some entry → k = key ∧
      ∃ mount ∈ table.mounts, wanted mount ∧ entry = mount.entry rt) ∧
    ((∃ mount ∈ table.mounts, wanted mount) → (info.get? key).isSome)

def DeviceExact (rt : MountRuntime) (table : MountTable) (device : ℕ) : Prop :=
  table.Exact rt device (fun mount => mount.device = device)
    (getmntinfo rt table.text (some device) none)

def MountExact (rt : MountRuntime) (table : MountTable) (id : ℕ) : Prop :=
  table.Exact rt id (fun mount => mount.mountId = id) (getmntinfo rt table.text none (some id))

/-- The first line that is selected, if there is one, gives the right entry of
a mount that is wanted. -/
def FirstRight (table : MountTable) (selected : List Char → Bool)
    (wanted : Mount → Prop) : Prop :=
  ∀ line, (readLines table.text).find? selected = some line →
    ∃ mount ∈ table.mounts, wanted mount ∧ mount.Readable ∧ line = firstLine mount.body

section

variable {selected : List Char → Bool} {wanted : Mount → Prop} {key : ℤ}
  {keyOf : MountEntry → ℤ}
  {callback : Dict ℤ MountEntry → List Char →
    Except MountError (Dict ℤ MountEntry)}

theorem exact_parseFirst_iff (hcallback : ∀ line info, callback Dict.empty line = .ok info ↔
      ∃ entry, mntentDict rt line = .ok entry ∧ info = Dict.empty.set (keyOf entry) entry)
    (hselected : ∀ mount ∈ table.mounts, wanted mount → selected (firstLine mount.body))
    (hkey : ∀ mount, wanted mount → keyOf (mount.entry rt) = key) :
    table.Exact rt key wanted (parseFirst callback (readLines table.text) selected) ↔
      table.FirstRight selected wanted := by
  unfold parseFirst FirstRight Exact
  cases hfind : (readLines table.text).find? selected with
  | none =>
    simp only [reduceCtorEq, false_implies, implies_true, iff_true]
    refine ⟨Dict.empty, rfl, ?_, ?_⟩
    · intro k entry hget
      cases hget
    · intro hwanted
      obtain ⟨mount, hmount, hwanted⟩ := hwanted
      exact absurd (hselected mount hmount hwanted)
        (find?_eq_none.mp hfind _ (firstLine_mem hmount))
  | some line =>
    have hline := mem_of_find?_eq_some hfind
    constructor
    · intro hexact other hother
      obtain ⟨info, hok, hright, _⟩ := hexact
      obtain ⟨entry, hentry, hinfo⟩ := (hcallback line info).mp hok
      obtain ⟨_, mount, hmount, hwanted, heq⟩ := hright (keyOf entry) entry
        (by rw [hinfo, get?_set_self])
      rw [heq] at hentry
      obtain ⟨hreadable, hfirst⟩ := readable_of_mem hline hmount hentry
      rw [← some.inj hother]
      exact ⟨mount, hmount, hwanted, hreadable, hfirst⟩
    · intro hfirst
      obtain ⟨mount, hmount, hwanted, hreadable, heq⟩ := hfirst line rfl
      have hentry := @Mount.mntentDict_of_readable rt mount hreadable
      rw [← heq] at hentry
      refine ⟨_, (hcallback line _).mpr ⟨_, hentry, rfl⟩, ?_, ?_⟩
      · intro k entry hget
        rw [get?_set, hkey mount hwanted] at hget
        split at hget
        · rename_i hk
          exact ⟨hk, mount, hmount, hwanted, (some.inj hget).symm⟩
        · cases hget
      · intro _
        rw [hkey mount hwanted, get?_set_self]
        rfl

end

theorem parseToDev_eq_ok_iff {info : Dict ℤ MountEntry} {data : Dict ℤ MountEntry} :
    parseToDev rt data line = .ok info ↔ ∃ entry, mntentDict rt line = .ok entry ∧
        info = data.set entry.devT entry := by
  unfold parseToDev
  rw [bind_eq_ok_iff]
  simp [pure, Except.pure, eq_comm]

theorem parseToMntId_eq_ok_iff {info : Dict ℤ MountEntry} {data : Dict ℤ MountEntry} :
    parseToMntId rt data line = .ok info ↔ ∃ entry, mntentDict rt line = .ok entry ∧
        info = data.set entry.mountId entry := by
  unfold parseToMntId
  rw [bind_eq_ok_iff]
  simp [pure, Except.pure, eq_comm]

/-! ## All lines -/

section

variable {keyOf : MountEntry → ℤ}
  {callback : Dict ℤ MountEntry → List Char →
    Except MountError (Dict ℤ MountEntry)}
  (hcallback : ∀ data line info, callback data line = .ok info ↔
    ∃ entry, mntentDict rt line = .ok entry ∧ info = data.set (keyOf entry) entry)

def foundEntries (rt : MountRuntime) (table : MountTable)
    (keyOf : MountEntry → ℤ) : Dict ℤ MountEntry :=
  Dict.ofEntries (table.mounts.map fun mount =>
    (keyOf (mount.found rt), mount.found rt))

theorem readLines_of_parsed (hall : ∀ mount ∈ table.mounts, mount.Parsed) :
    readLines table.text = table.mounts.map fun mount => mount.body ++ ['\n'] := by
  rw [readLines_text, map_eq_flatMap]
  exact flatMap_congr fun mount hmount => (hall mount hmount).lines_eq

include hcallback

theorem not_unreadable_of_foldlM {lines : List (List Char)}
    {data info : Dict ℤ MountEntry} (hok : lines.foldlM callback data = .ok info) :
    ∀ line ∈ lines, ¬Mount.Unreadable rt line := by
  induction lines generalizing data with
  | nil => nofun
  | cons first lines ih =>
    rw [foldlM_cons, bind_eq_ok_iff] at hok
    obtain ⟨next, hfirst, hrest⟩ := hok
    rw [forall_mem_cons]
    constructor
    · intro hunreadable
      obtain ⟨entry, hentry, _⟩ := (hcallback _ _ _).mp hfirst
      exact hunreadable entry hentry
    · exact ih hrest

theorem foldlM_found {mounts : List Mount} (hall : ∀ mount ∈ mounts, mount.Parsed)
    (data : Dict ℤ MountEntry) :
    (mounts.map fun mount => mount.body ++ ['\n']).foldlM callback data =
      .ok ((mounts.map fun mount => (keyOf (mount.found rt), mount.found rt)).foldl
        (fun data entry => data.set entry.1 entry.2) data) := by
  induction mounts generalizing data with
  | nil => rfl
  | cons mount mounts ih =>
    rw [forall_mem_cons] at hall
    have hfirst := (hcallback data (mount.body ++ ['\n']) _).mpr
      ⟨_, Mount.mntentDict_of_parsed hall.1, rfl⟩
    rw [map_cons, foldlM_cons, hfirst, ok_bind, ih hall.2]
    rfl

theorem foldlM_lines_eq_ok_iff {info : Dict ℤ MountEntry} :
    (readLines table.text).foldlM callback Dict.empty = .ok info ↔
      (∀ mount ∈ table.mounts, mount.Parsed) ∧ info = table.foundEntries rt keyOf := by
  have hfold (hall : ∀ mount ∈ table.mounts, mount.Parsed) :
      (readLines table.text).foldlM callback Dict.empty = .ok (table.foundEntries rt keyOf) := by
    rw [readLines_of_parsed hall]
    exact foldlM_found hcallback hall Dict.empty
  constructor
  · intro hok
    have hreadable := not_unreadable_of_foldlM hcallback hok
    have hall : ∀ mount ∈ table.mounts, mount.Parsed := by
      intro mount hmount
      apply @Mount.parsed_of_lines rt
      intro line hline
      apply hreadable
      rw [readLines_text]
      exact mem_flatMap.mpr ⟨mount, hmount, hline⟩
    rw [hfold hall] at hok
    exact ⟨hall, (Except.ok.inj hok).symm⟩
  · intro hboth
    rw [hfold hboth.1, hboth.2]

end

/-- Every mount is parsed and has the device zero, and the last one, if there is
one, is wanted and gives back its entry. -/
structure OnlyZero (table : MountTable) (wanted : Mount → Prop) : Prop where
  parsed : ∀ mount ∈ table.mounts, mount.Parsed
  device : ∀ mount ∈ table.mounts, mount.device = 0
  last : ∀ mount, table.mounts.getLast? = some mount → wanted mount ∧ mount.Readable

variable {keyOf : MountEntry → ℤ}

theorem mem_of_get?_foundEntries {k : ℤ}
    (hget : (table.foundEntries rt keyOf).get? k = some entry) :
    ∃ mount ∈ table.mounts, k = keyOf (mount.found rt) ∧ entry = mount.found rt := by
  rw [foundEntries, get?_ofEntries] at hget
  have hmem := mem_reverse.mp (mem_of_lookup_eq_some hget)
  obtain ⟨mount, hmount, heq⟩ := List.mem_map.mp hmem
  cases heq
  exact ⟨mount, hmount, rfl, rfl⟩

theorem exists_get?_foundEntries (hmount : mount ∈ table.mounts) :
    ∃ entry, (table.foundEntries rt keyOf).get? (keyOf (mount.found rt)) = some entry := by
  rw [foundEntries, get?_ofEntries, ← isSome_iff_exists, Dict.lookup_isSome_iff, List.mem_map]
  exact ⟨_, mem_reverse.mpr (List.mem_map_of_mem hmount), rfl⟩

theorem get?_foundEntries_last (hlast : table.mounts.getLast? = some mount) :
    (table.foundEntries rt keyOf).get? (keyOf (mount.found rt)) = some (mount.found rt) := by
  obtain ⟨init, heq⟩ := getLast?_eq_some_iff.mp hlast
  rw [foundEntries, get?_ofEntries, heq, map_append,
    reverse_append, map_singleton, reverse_singleton,
    singleton_append, lookup_cons_self]

theorem exact_zero_iff {wanted : Mount → Prop} :
    table.Exact rt 0 wanted (iterMountinfo (parseToDev rt) (readLines table.text) none none) ↔
      table.OnlyZero wanted := by
  have hall := fun info => @foldlM_lines_eq_ok_iff rt table
    (fun entry => entry.devT) (parseToDev rt)
    (fun _ _ _ => parseToDev_eq_ok_iff) info
  constructor
  · intro hexact
    obtain ⟨info, hok, hright, _⟩ := hexact
    obtain ⟨hparsed, hinfo⟩ := (hall info).mp hok
    rw [hinfo] at hright
    have hdevice : ∀ mount ∈ table.mounts, mount.device = 0 := by
      intro mount hmount
      obtain ⟨entry, hget⟩ := @exists_get?_foundEntries rt table mount
        (fun entry => entry.devT) hmount
      exact Int.ofNat_inj.mp (hright _ entry hget).1
    refine ⟨hparsed, hdevice, ?_⟩
    intro mount hlast
    have hmount := mem_of_getLast? hlast
    obtain ⟨_, other, hother, hwanted, heq⟩ := hright _ _ (get?_foundEntries_last hlast)
    have hsame : mount = other := by
      apply eq_of_mountId hmount hother
      exact Int.ofNat_inj.mp (congrArg MountEntry.mountId heq)
    rw [← hsame] at heq hwanted
    exact ⟨hwanted, (hparsed mount hmount).readable_of_found heq⟩
  · intro hzero
    have hkey {mount : Mount} (hmount : mount ∈ table.mounts) : ((mount.found rt).devT : ℤ) = 0 :=
      congrArg Nat.cast (hzero.device mount hmount)
    -- there is a last mount where there is any, and its entry is returned
    have hlast {mount : Mount} (hmount : mount ∈ table.mounts) :
        ∃ last ∈ table.mounts, wanted last ∧
          (table.foundEntries rt fun entry => entry.devT).get? 0 = some (last.entry rt) := by
      obtain ⟨last, hlast⟩ := Option.isSome_iff_exists.mp
        (getLast?_isSome.mpr (ne_nil_of_mem hmount))
      have hmem := mem_of_getLast? hlast
      obtain ⟨hwanted, hreadable⟩ := hzero.last last hlast
      have hget := @get?_foundEntries_last rt table last (fun entry => entry.devT) hlast
      rw [hkey hmem, hreadable.found_eq] at hget
      exact ⟨last, hmem, hwanted, hget⟩
    refine ⟨_, (hall _).mpr ⟨hzero.parsed, rfl⟩, ?_, ?_⟩
    · intro k entry hget
      obtain ⟨mount, hmount, hk, _⟩ := mem_of_get?_foundEntries hget
      rw [hkey hmount] at hk
      obtain ⟨last, hmem, hwanted, hentry⟩ := hlast hmount
      rw [hk, hentry] at hget
      exact ⟨hk, last, hmem, hwanted, (some.inj hget).symm⟩
    · intro hwanted
      obtain ⟨mount, hmount, _⟩ := hwanted
      obtain ⟨last, _, _, hget⟩ := hlast hmount
      rw [hget]
      rfl

theorem deviceExact_iff (device : ℕ) : table.DeviceExact rt device ↔
    if device = 0 then table.OnlyZero fun mount => mount.device = 0
    else device < 2 ^ 64 ∧ table.FirstRight (fun line =>
        decide (DeviceNumber.majMin device <:+: line))
        fun mount => mount.device = device := by
  split
  · rename_i hzero
    rw [hzero]
    exact exact_zero_iff
  · rename_i hne
    have hgiven : MountInfo.truthy (some device) = some device := by simp [MountInfo.truthy, hne]
    unfold DeviceExact getmntinfo iterMountinfo
    rw [hgiven]
    by_cases hlarge : 2 ^ 64 ≤ device
    · simp only [MountInfo.truthy, filter_none, if_pos hlarge]
      constructor
      · intro hexact
        obtain ⟨info, hok, _⟩ := hexact
        cases hok
      · intro hboth
        omega
    · simp only [MountInfo.truthy, filter_none, if_neg hlarge, show device < 2 ^ 64 by omega,
        true_and]
      apply exact_parseFirst_iff (fun _ _ => parseToDev_eq_ok_iff)
      · intro mount _ hdevice
        obtain ⟨rest, hfirst⟩ := mount.firstLine_body
        rw [decide_eq_true_iff, ← hdevice, Mount.majMin_device, hfirst]
        exact ⟨decimal mount.mountId ++ [' '] ++ decimal mount.parentId ++ [' '], rest, by simp⟩
      · intro mount hdevice
        exact congrArg Nat.cast hdevice

theorem mountExact_iff (id : ℕ) : table.MountExact rt id ↔
    if id = 0 then table.OnlyZero fun mount => mount.mountId = 0
    else table.FirstRight (decimal id ++ [' ']).isPrefixOf fun mount => mount.mountId = id := by
  split
  · rename_i hzero
    rw [hzero]
    exact exact_zero_iff
  · rename_i hne
    have hgiven : MountInfo.truthy (some id) = some id := by simp [MountInfo.truthy, hne]
    unfold MountExact getmntinfo
    rw [hgiven]
    simp only [iterMountinfo, MountInfo.truthy, filter_none, if_pos hne]
    apply exact_parseFirst_iff (fun _ _ => parseToMntId_eq_ok_iff)
    · intro mount _ hid
      obtain ⟨rest, hfirst⟩ := mount.firstLine_body
      rw [ isPrefixOf_iff_prefix, ← hid, hfirst]
      exact prefix_append _ _
    · intro mount hid
      exact congrArg Nat.cast hid

end MountTable

end Middlewared
