import Middlewared.DictSpelling
import Middlewared.MountLookup

/-!
# The tree of mounts

`getmnttree` returns the tree of the mounts below the one whose parent has the
number 1, when there is just one such mount, all lines can be read and every
other parent is listed.
-/

namespace Middlewared

open PyString PyText MountInfo Relation List Option

namespace MountInfo.Tree

def follow (children : Dict ℤ (List ℤ)) (id : ℤ) : List ℕ → Option ℤ
  | [] => some id
  | index :: path =>
    (childrenOf children id)[index]?.bind fun child =>
      follow children child path

def place (tree : Tree) (path : List ℕ) : Option ℤ :=
  follow tree.children tree.top path

theorem follow_append (children : Dict ℤ (List ℤ)) (id : ℤ) (path : List ℕ) (index : ℕ) :
    follow children id (path ++ [index]) = (follow children id path).bind fun parent =>
        (childrenOf children parent)[index]? := by
  induction path generalizing id with
  | nil => simp [follow]
  | cons first path ih =>
    rw [cons_append, follow, follow, bind_assoc]
    congr
    funext child
    exact ih child

theorem place_append_eq_some_iff {tree : Tree} {path : List ℕ} {index : ℕ} {id : ℤ} :
    tree.place (path ++ [index]) = some id ↔ ∃ parent, tree.place path = some parent ∧
        (childrenOf tree.children parent)[index]? = some id := by
  unfold place
  rw [follow_append, bind_eq_some_iff]

end MountInfo.Tree

namespace MountInfo

/-! ## The loop -/

variable {info : Dict ℤ MountEntry} {links links' : Links} {entry : MountEntry}

theorem childrenOf_set (children : Dict ℤ (List ℤ)) (id : ℤ) (l : List ℤ) (p : ℤ) :
    childrenOf (children.set id l) p = if p = id then l else childrenOf children p := by
  unfold childrenOf
  rw [Dict.get?_set]
  split <;> rfl

structure Linked (info : Dict ℤ MountEntry) (links : Links) (entry : MountEntry)
    (links' : Links) : Prop where
  listed : entry.parentId ≠ 1 → (info.get? entry.parentId).isSome
  rootId : links'.rootId = if entry.parentId = 1 then some entry.mountId else links.rootId
  children : ∀ p, childrenOf links'.children p = childrenOf links.children p ++
    if p = entry.parentId ∧ entry.parentId ≠ 1 then [entry.mountId] else []

theorem childrenOf_made (children : Dict ℤ (List ℤ)) (id p : ℤ) :
    childrenOf (if childrenOf children id = [] then children.set id []
      else children) p = childrenOf children p := by
  split
  · rename_i hnil
    rw [childrenOf_set]
    split
    · rename_i hp
      rw [hp, hnil]
    · rfl
  · rfl

theorem linked_of_link (hok : link info links entry = .ok links') :
    Linked info links entry links' := by
  unfold link at hok
  by_cases hroot : entry.parentId = 1
  · simp only [if_pos hroot] at hok
    cases hok
    exact {
      listed := fun hne => absurd hroot hne
      rootId := (if_pos hroot).symm
      children := fun p => by
        rw [childrenOf_made, if_neg (by tauto), append_nil] }
  · simp only [if_neg hroot] at hok
    split at hok
    · cases hok
    · rename_i hlisted
      cases hok
      exact {
        listed := fun _ => by
          rw [isSome_iff_ne_none]
          simpa using hlisted
        rootId := (if_neg hroot).symm
        children := fun p => by
          rw [childrenOf_set, childrenOf_made, childrenOf_made]
          by_cases hp : p = entry.parentId
          · rw [if_pos hp, if_pos ⟨hp, hroot⟩, hp]
          · rw [if_neg hp, if_neg (by tauto), append_nil] }

theorem exists_link (hlisted : entry.parentId ≠ 1 → (info.get? entry.parentId).isSome) :
    ∃ links', link info links entry = .ok links' := by
  unfold link
  by_cases hroot : entry.parentId = 1
  · simp only [if_pos hroot]
    exact ⟨_, rfl⟩
  · have hfound : ¬(info.get? entry.parentId).isNone := by
      rw [isNone_iff_eq_none]
      exact Option.isSome_iff_ne_none.mp (hlisted hroot)
    simp only [if_neg hroot, if_neg hfound]
    exact ⟨_, rfl⟩

structure AllLinked (info : Dict ℤ MountEntry) (entries : List MountEntry)
    (links : Links) : Prop where
  listed : ∀ entry ∈ entries, entry.parentId ≠ 1 → (info.get? entry.parentId).isSome
  rootId : links.rootId = ((entries.filter fun entry => entry.parentId = 1).getLast?).map
      MountEntry.mountId
  children : ∀ p, childrenOf links.children p = (entries.filter fun entry =>
      decide (p = entry.parentId ∧ entry.parentId ≠ 1)).map MountEntry.mountId

variable {entries : List MountEntry}

theorem AllLinked.append (hall : AllLinked info entries links)
    (hlinked : Linked info links entry links') :
    AllLinked info (entries ++ [entry]) links' where
  listed e he := by
    rcases mem_append.mp he with he | he
    · exact hall.listed e he
    · rw [mem_singleton.mp he]
      exact hlinked.listed
  rootId := by
    rw [hlinked.rootId, filter_append]
    by_cases hroot : entry.parentId = 1
    · simp [hroot]
    · simp [hroot, hall.rootId]
  children p := by
    rw [hlinked.children p, hall.children p, filter_append, map_append]
    by_cases hp : p = entry.parentId ∧ entry.parentId ≠ 1
    · simp [hp]
    · rw [if_neg hp, filter_singleton]
      simp [hp]

theorem allLinked_of_foldlM {done : List MountEntry} (hdone : AllLinked info done links)
    (hok : entries.foldlM (link info) links = .ok links') :
    AllLinked info (done ++ entries) links' := by
  induction entries generalizing done links with
  | nil =>
    cases hok
    rw [append_nil]
    exact hdone
  | cons entry entries ih =>
    rw [foldlM_cons, bind_eq_ok_iff] at hok
    obtain ⟨next, hstep, hrest⟩ := hok
    have hnext := ih (hdone.append (linked_of_link hstep)) hrest
    rwa [append_assoc] at hnext

theorem allLinked_nil : AllLinked info [] ⟨none, Dict.empty⟩ where
  listed := nofun
  rootId := rfl
  children _ := rfl

theorem exists_foldlM_link (hlisted : ∀ entry ∈ entries, entry.parentId ≠ 1 →
      (info.get? entry.parentId).isSome) (links : Links) :
    ∃ links', entries.foldlM (link info) links = .ok links' := by
  induction entries generalizing links with
  | nil => exact ⟨links, rfl⟩
  | cons entry entries ih =>
    rw [forall_mem_cons] at hlisted
    obtain ⟨next, hstep⟩ := @exists_link info links entry hlisted.1
    rw [foldlM_cons, hstep, ok_bind]
    exact ih hlisted.2 next

end MountInfo

/-! ## Trees of mounts -/

namespace MountTable

variable {rt : MountRuntime} {table : MountTable} {mount root : Mount}
  {tree : Tree} {path : List ℕ} {id : ℤ}

/-- `b` is `a` or below `a`. -/
def Below (table : MountTable) : Mount → Mount → Prop :=
  ReflTransGen fun a b => b ∈ table.mounts ∧ b.parentId = a.mountId

structure HoldsBelow (rt : MountRuntime) (table : MountTable) (tree : Tree)
    (root : Mount) : Prop where
  entry : ∀ mount ∈ table.mounts, table.Below root mount →
    tree.info.get? mount.mountId = some (mount.entry rt)
  once : ∀ mount ∈ table.mounts, table.Below root mount →
    ∃! path, tree.place path = some (mount.mountId : ℤ)
  parent : ∀ path index id, tree.place (path ++ [index]) = some id →
    ∃ mount ∈ table.mounts, id = mount.mountId ∧ tree.place path = some (mount.parentId : ℤ)
  only : ∀ path id, tree.place path = some id →
    ∃ mount ∈ table.mounts, table.Below root mount ∧ id = mount.mountId

/-- `getmnttree` returns the tree of each mount that is a root. -/
def TreeExact (rt : MountRuntime) (table : MountTable) : Prop :=
  ∃ tree, getmnttree rt table.text none = .ok tree ∧
    ∀ root ∈ table.mounts, root.parentId = 1 → table.HoldsBelow rt tree root

/-- There is one root, all other parents are listed, all lines can be read, and
those of the mounts below the root give back what was written. -/
structure TreeReady (table : MountTable) : Prop where
  parsed : ∀ mount ∈ table.mounts, mount.Parsed
  listed : ∀ mount ∈ table.mounts, mount.parentId ≠ 1 →
    ∃ parent ∈ table.mounts, parent.mountId = mount.parentId
  root : ∃! root, root ∈ table.mounts ∧ root.parentId = 1
  readable : ∀ root ∈ table.mounts, root.parentId = 1 →
    ∀ mount ∈ table.mounts, table.Below root mount → mount.Readable

structure IsTree (rt : MountRuntime) (table : MountTable) (tree : Tree) :
    Prop where
  info : tree.info = table.foundEntries rt MountEntry.mountId
  top : ∃ root ∈ table.mounts, root.parentId = 1 ∧ tree.top = root.mountId
  children : ∀ p, childrenOf tree.children p = (table.mounts.filter fun mount =>
      decide (p = mount.parentId ∧ mount.parentId ≠ 1)).map fun mount => (mount.mountId : ℤ)

theorem entries_foundEntries : (table.foundEntries rt MountEntry.mountId).entries =
    table.mounts.map fun mount =>
      ((mount.mountId : ℤ), mount.found rt) := by
  apply Dict.entries_ofEntries_of_nodup
  have hnodup := table.nodup.map (f := fun n : ℕ => (n : ℤ)) Nat.cast_injective
  rw [List.map_map] at hnodup ⊢
  exact hnodup

theorem get?_foundEntries (hmount : mount ∈ table.mounts) :
    (table.foundEntries rt MountEntry.mountId).get? mount.mountId = some (mount.found rt) := by
  rw [← Dict.mem_entries_iff, entries_foundEntries]
  exact List.mem_map_of_mem hmount

theorem isSome_foundEntries_iff {id : ℤ} :
    ((table.foundEntries rt MountEntry.mountId).get? id).isSome ↔
      ∃ mount ∈ table.mounts, (mount.mountId : ℤ) = id := by
  constructor
  · intro hsome
    obtain ⟨entry, hget⟩ := Option.isSome_iff_exists.mp hsome
    obtain ⟨mount, hmount, hid, _⟩ := mem_of_get?_foundEntries hget
    exact ⟨mount, hmount, hid.symm⟩
  · intro hlisted
    obtain ⟨mount, hmount, hid⟩ := hlisted
    rw [← hid, get?_foundEntries hmount]
    rfl

theorem links_of_allLinked {links : Links}
    (hall : AllLinked (table.foundEntries rt MountEntry.mountId)
      (table.mounts.map (Mount.found rt)) links) :
    (∀ mount ∈ table.mounts, mount.parentId ≠ 1 →
        ∃ parent ∈ table.mounts, parent.mountId = mount.parentId) ∧
      (∀ top, links.rootId = some top →
        ∃ root ∈ table.mounts, root.parentId = 1 ∧ top = root.mountId) ∧
      ∀ p, childrenOf links.children p = (table.mounts.filter fun mount =>
          decide (p = mount.parentId ∧ mount.parentId ≠ 1)).map
            fun mount => (mount.mountId : ℤ) := by
  have hone (n : ℕ) : (n : ℤ) = 1 ↔ n = 1 := by omega
  refine ⟨?_, ?_, ?_⟩
  · intro mount hmount hparent
    have hsome := hall.listed _ (List.mem_map_of_mem hmount) (mt (hone _).mp hparent)
    obtain ⟨parent, hmem, heq⟩ := isSome_foundEntries_iff.mp hsome
    exact ⟨parent, hmem, Int.ofNat_inj.mp heq⟩
  · intro top htop
    rw [hall.rootId] at htop
    obtain ⟨entry, hlast, heq⟩ := Option.map_eq_some_iff.mp htop
    obtain ⟨hmem, hroot⟩ := mem_filter.mp (mem_of_getLast? hlast)
    obtain ⟨root, hmount, hfound⟩ := List.mem_map.mp hmem
    rw [← hfound] at hroot heq
    exact ⟨root, hmount, (hone _).mp (of_decide_eq_true hroot), heq.symm⟩
  · intro p
    have hfilter : ((fun entry : MountEntry =>
        decide (p = entry.parentId ∧ entry.parentId ≠ 1)) ∘ Mount.found rt) =
          fun mount => decide (p = mount.parentId ∧ mount.parentId ≠ 1) := by
      funext mount
      have hmount := hone mount.parentId
      simp only [Function.comp_apply, Mount.found, Mount.entry, ne_eq, hmount]
    rw [hall.children p, List.filter_map, List.map_map, hfilter]
    rfl

theorem getmnttree_eq_ok (hok : getmnttree rt table.text none = .ok tree) :
    (∀ mount ∈ table.mounts, mount.Parsed) ∧ (∀ mount ∈ table.mounts, mount.parentId ≠ 1 →
        ∃ parent ∈ table.mounts, parent.mountId = mount.parentId) ∧
      table.IsTree rt tree := by
  unfold getmnttree createTree at hok
  simp only [bind_eq_ok_iff] at hok
  obtain ⟨info, hinfo, links, hlinks, htree⟩ := hok
  obtain ⟨hparsed, hinfo⟩ := (foldlM_lines_eq_ok_iff (fun _ _ _ => parseToMntId_eq_ok_iff)).mp hinfo
  have hall := allLinked_of_foldlM allLinked_nil hlinks
  rw [nil_append, hinfo, entries_foundEntries, List.map_map] at hall
  obtain ⟨hlisted, htop, hchildren⟩ := links_of_allLinked hall
  split at htree
  · cases htree
  · rename_i top hroot
    split at htree
    · cases htree
    · cases htree
      exact ⟨hparsed, hlisted, hinfo, htop top hroot, hchildren⟩

theorem exists_getmnttree (hparsed : ∀ mount ∈ table.mounts, mount.Parsed)
    (hlisted : ∀ mount ∈ table.mounts, mount.parentId ≠ 1 →
      ∃ parent ∈ table.mounts, parent.mountId = mount.parentId)
    (hroot : ∃ root ∈ table.mounts, root.parentId = 1) :
    ∃ tree, getmnttree rt table.text none = .ok tree := by
  have hinfo := (@foldlM_lines_eq_ok_iff rt table MountEntry.mountId
    (parseToMntId rt) (fun _ _ _ => parseToMntId_eq_ok_iff) _).mpr ⟨hparsed, rfl⟩
  have hentries : ∀ entry ∈ table.mounts.map (Mount.found rt), entry.parentId ≠ 1 →
        ((table.foundEntries rt MountEntry.mountId).get? entry.parentId).isSome := by
    intro entry hentry hparent
    obtain ⟨mount, hmount, heq⟩ := List.mem_map.mp hentry
    rw [← heq] at hparent ⊢
    have hne : mount.parentId ≠ 1 := by
      intro hone
      exact hparent (congrArg Nat.cast hone)
    obtain ⟨parent, hmem, hparent⟩ := hlisted mount hmount hne
    exact isSome_foundEntries_iff.mpr ⟨parent, hmem, congrArg Nat.cast hparent⟩
  obtain ⟨links, hlinks⟩ := exists_foldlM_link hentries ⟨none, Dict.empty⟩
  have hall := allLinked_of_foldlM allLinked_nil hlinks
  obtain ⟨root, hmem, hroot⟩ := hroot
  obtain ⟨top, htop⟩ : ∃ top, links.rootId = some top := by
    rw [hall.rootId, ← isSome_iff_exists, isSome_map, getLast?_isSome]
    apply ne_nil_of_mem (a := root.found rt)
    exact mem_filter.mpr ⟨List.mem_map_of_mem hmem, decide_eq_true (congrArg Nat.cast hroot)⟩
  obtain ⟨rootOfTop, hmount, _, heq⟩ := (links_of_allLinked hall).2.1 top htop
  have hget := @get?_foundEntries rt table rootOfTop hmount
  rw [← heq] at hget
  have hvalues : (table.foundEntries rt MountEntry.mountId).entries.map Prod.snd =
      table.mounts.map (Mount.found rt) := by
    rw [entries_foundEntries, List.map_map]
    rfl
  have hread : iterMountinfo (parseToMntId rt) (readLines table.text) none none =
      .ok (table.foundEntries rt MountEntry.mountId) := hinfo
  unfold getmnttree createTree
  rw [hread, ok_bind, hvalues, hlinks, ok_bind, htop]
  simp [MountInfo.truthy, hget]

/-! ## The places of the mounts -/

section

variable (htree : table.IsTree rt tree)
include htree

theorem mem_childrenOf_iff {p : ℤ} : id ∈ childrenOf tree.children p ↔
    ∃ mount ∈ table.mounts, mount.parentId ≠ 1 ∧ p = mount.parentId ∧ id = mount.mountId := by
  rw [htree.children p, List.mem_map]
  constructor
  · intro hmem
    obtain ⟨mount, hmem, hid⟩ := hmem
    obtain ⟨hmount, hparent⟩ := mem_filter.mp hmem
    have hboth := of_decide_eq_true hparent
    exact ⟨mount, hmount, hboth.2, hboth.1, hid.symm⟩
  · intro hmem
    obtain ⟨mount, hmount, hne, hparent, hid⟩ := hmem
    exact ⟨mount, mem_filter.mpr ⟨hmount, decide_eq_true ⟨hparent, hne⟩⟩, hid.symm⟩

theorem nodup_childrenOf (p : ℤ) : (childrenOf tree.children p).Nodup := by
  have hnodup := (table.nodup.of_map _).filter fun mount =>
    decide (p = mount.parentId ∧ mount.parentId ≠ 1)
  rw [htree.children p]
  apply hnodup.map_on
  intro first hfirst second hsecond heq
  exact eq_of_mountId (mem_filter.mp hfirst).1
    (mem_filter.mp hsecond).1 (Int.ofNat_inj.mp heq)

theorem exists_of_place_append {index : ℕ} (hplace : tree.place (path ++ [index]) = some id) :
    ∃ mount ∈ table.mounts, id = mount.mountId ∧ mount.parentId ≠ 1 ∧
      tree.place path = some (mount.parentId : ℤ) ∧
      (childrenOf tree.children mount.parentId)[index]? = some id := by
  obtain ⟨parent, hparent, hindex⟩ := Tree.place_append_eq_some_iff.mp hplace
  obtain ⟨mount, hmount, hne, heq, hid⟩ := (mem_childrenOf_iff htree).mp (mem_of_getElem? hindex)
  rw [heq] at hparent hindex
  exact ⟨mount, hmount, hid, hne, hparent, hindex⟩

theorem place_of_root (hroot : root ∈ table.mounts) (hone : root.parentId = 1)
    (hplace : tree.place path = some (root.mountId : ℤ)) : path = [] := by
  induction path using List.reverseRecOn with
  | nil => rfl
  | append_singleton path index _ =>
    obtain ⟨mount, hmount, hid, hne, _⟩ := exists_of_place_append htree hplace
    have hsame := eq_of_mountId hroot hmount (Int.ofNat_inj.mp hid)
    rw [hsame] at hone
    exact absurd hone hne

theorem place_unique {other : List ℕ} (hplace : tree.place path = some id)
    (hother : tree.place other = some id) : path = other := by
  obtain ⟨root, hroot, hone, htop⟩ := htree.top
  induction path using List.reverseRecOn generalizing other id with
  | nil =>
    have hid : id = root.mountId := by
      rw [← htop]
      exact (some.inj hplace).symm
    rw [hid] at hother
    exact (place_of_root htree hroot hone hother).symm
  | append_singleton path index ih =>
    cases other using List.reverseRecOn with
    | nil =>
      have hid : id = root.mountId := by
        rw [← htop]
        exact (some.inj hother).symm
      rw [hid] at hplace
      exact place_of_root htree hroot hone hplace
    | append_singleton other index' =>
      obtain ⟨mount, hmount, hid, _, hparent, hindex⟩ := exists_of_place_append htree hplace
      obtain ⟨mount', hmount', hid', _, hparent', hindex'⟩ := exists_of_place_append htree hother
      have hsame := eq_of_mountId hmount hmount' (Int.ofNat_inj.mp (hid.symm.trans hid'))
      rw [← hsame] at hparent' hindex'
      have hlast := (getElem?_inj (List.getElem?_eq_some_iff.mp hindex).1
        (nodup_childrenOf htree _)).mp (hindex.trans hindex'.symm)
      rw [ih hparent hparent', hlast]

theorem below_of_place (hroot : root ∈ table.mounts)
    (htop : tree.top = root.mountId) (hplace : tree.place path = some id) :
    ∃ mount ∈ table.mounts, table.Below root mount ∧ id = mount.mountId := by
  induction path using List.reverseRecOn generalizing id with
  | nil =>
    refine ⟨root, hroot, ReflTransGen.refl, ?_⟩
    rw [← htop]
    exact (some.inj hplace).symm
  | append_singleton path index ih =>
    obtain ⟨mount, hmount, hid, _, hparent, _⟩ := exists_of_place_append htree hplace
    obtain ⟨parent, _, hbelow, heq⟩ := ih hparent
    exact ⟨mount, hmount, hbelow.tail ⟨hmount, Int.ofNat_inj.mp heq⟩, hid⟩

theorem exists_place (hroots : ∀ other ∈ table.mounts, other.parentId = 1 →
      tree.top = other.mountId)
    (htop : tree.top = root.mountId) (hbelow : table.Below root mount) :
    ∃ path, tree.place path = some (mount.mountId : ℤ) := by
  induction hbelow with
  | refl => exact ⟨[], congrArg some htop⟩
  | @tail parent mount _ hstep ih =>
    by_cases hone : mount.parentId = 1
    · exact ⟨[], congrArg some (hroots mount hstep.1 hone)⟩
    · obtain ⟨path, hplace⟩ := ih
      have hmem : (mount.mountId : ℤ) ∈ childrenOf tree.children parent.mountId :=
        (mem_childrenOf_iff htree).mpr ⟨mount, hstep.1, hone, congrArg Nat.cast hstep.2.symm, rfl⟩
      obtain ⟨index, hindex⟩ := mem_iff_getElem?.mp hmem
      exact ⟨path ++ [index], Tree.place_append_eq_some_iff.mpr ⟨_, hplace, hindex⟩⟩

theorem holdsBelow (hroot : root ∈ table.mounts)
    (hunique : ∀ other ∈ table.mounts, other.parentId = 1 → other = root)
    (hreadable : ∀ mount ∈ table.mounts, table.Below root mount → mount.Readable) :
    table.HoldsBelow rt tree root := by
  have htop : tree.top = root.mountId := by
    obtain ⟨other, hother, hparent, htop⟩ := htree.top
    rw [htop, hunique other hother hparent]
  exact {
    entry := fun mount hmount hbelow => by
      rw [htree.info, get?_foundEntries hmount,
        (hreadable mount hmount hbelow).found_eq]
    once := fun mount _ hbelow => by
      have hroots : ∀ other ∈ table.mounts, other.parentId = 1 →
          tree.top = other.mountId := by
        intro other hother hparent
        rw [hunique other hother hparent, htop]
      obtain ⟨path, hplace⟩ := exists_place htree hroots htop hbelow
      exact ⟨path, hplace, fun other hother =>
        place_unique htree hother hplace⟩
    parent := fun path index id hplace => by
      obtain ⟨mount, hmount, hid, _, hparent, _⟩ :=
        exists_of_place_append htree hplace
      exact ⟨mount, hmount, hid, hparent⟩
    only := fun path id hplace => below_of_place htree hroot htop hplace }

end

theorem treeExact_iff : table.TreeExact rt ↔ table.TreeReady := by
  constructor
  · intro hexact
    obtain ⟨tree, hok, hholds⟩ := hexact
    obtain ⟨hparsed, hlisted, htree⟩ := getmnttree_eq_ok hok
    obtain ⟨root, hroot, hone, htop⟩ := htree.top
    refine ⟨hparsed, hlisted, ⟨root, ⟨hroot, hone⟩, ?_⟩, ?_⟩
    · intro other hother
      obtain ⟨path, hplace, _⟩ :=
        (hholds other hother.1 hother.2).once other hother.1 ReflTransGen.refl
      have hnil := place_of_root htree hother.1 hother.2 hplace
      rw [hnil] at hplace
      have hid := (some.inj hplace).symm.trans htop
      exact eq_of_mountId hother.1 hroot (Int.ofNat_inj.mp hid)
    · intro root hroot hone mount hmount hbelow
      have hentry := (hholds root hroot hone).entry mount hmount hbelow
      rw [htree.info, get?_foundEntries hmount] at hentry
      exact (hparsed mount hmount).readable_of_found (some.inj hentry)
  · intro hready
    obtain ⟨root, ⟨hroot, hone⟩, hunique⟩ := hready.root
    obtain ⟨tree, hok⟩ := @exists_getmnttree rt table hready.parsed
      hready.listed ⟨root, hroot, hone⟩
    refine ⟨tree, hok, ?_⟩
    intro other hother hparent
    have hsame := hunique other ⟨hother, hparent⟩
    rw [hsame]
    exact holdsBelow (getmnttree_eq_ok hok).2.2 hroot
      (fun mount hmount hone => hunique mount ⟨hmount, hone⟩)
      (hready.readable root hroot hone)

/-- When entries, lookups and the tree are right. -/
theorem mountinfo_exact (rt : MountRuntime) (table : MountTable) : (∀ mount : Mount,
      mntentDict rt (firstLine mount.body) = .ok (mount.entry rt) ↔ mount.Readable) ∧
    (∀ device, table.DeviceExact rt device ↔
      if device = 0 then table.OnlyZero fun mount => mount.device = 0
      else device < 2 ^ 64 ∧ table.FirstRight (fun line =>
          decide (DeviceNumber.majMin device <:+: line))
          fun mount => mount.device = device) ∧
    (∀ id, table.MountExact rt id ↔ if id = 0 then table.OnlyZero fun mount => mount.mountId = 0
      else table.FirstRight (decimal id ++ [' ']).isPrefixOf fun mount => mount.mountId = id) ∧
    (table.TreeExact rt ↔ table.TreeReady) :=
  ⟨fun _ => ⟨Mount.readable_of_mntentDict, Mount.mntentDict_of_readable⟩,
    deviceExact_iff, mountExact_iff, treeExact_iff⟩

end MountTable

def asciiRuntime : MountRuntime where
  digits := asciiDigits
  letter := by decide
  upper text := text.map Char.toUpper

def zfsMount (mountId parentId minor : ℕ) (mountpoint : List Char)
    (optional : List (List Char))
    (hoptional : ∀ field ∈ optional, IsWord field ∧ field ≠ ['-'])
    (hminor : minor < 2 ^ 31) : Mount where
  mountId := mountId
  parentId := parentId
  major := 0
  minor := minor
  root := ['/']
  mountpoint := mountpoint
  readOnly := false
  options := []
  optional := optional
  fsType := ['z', 'f', 's']
  source := ['t']
  superReadOnly := false
  superOptions := []
  device_lt := ⟨by omega, hminor⟩
  options_word := nofun
  optional_word := hoptional
  fsType_word := by
    simp [IsWord, isSpace]
  superOptions_word := nofun

def rootMount : Mount :=
  zfsMount 26 1 2 ['/'] [['s', ':', '1']] (by simp [IsWord, isSpace]) (by omega)

def spacedMount : Mount :=
  zfsMount 27 26 23 ['/', 'm', ' ', 'n'] [['s', ':', '2']] (by simp [IsWord, isSpace]) (by omega)

def sharedMounts : MountTable where
  mounts := [rootMount, spacedMount]
  nodup := by decide

theorem sharedMounts_readable : ∀ mount ∈ sharedMounts.mounts, mount.Readable := by
  intro mount hmount
  simp only [sharedMounts, mem_cons, not_mem_nil, or_false] at hmount
  rcases hmount with h | h <;> rw [h] <;> constructor <;>
    simp [rootMount, spacedMount, zfsMount, Survives, pathEscaped, sourceEscaped, isSpace]

theorem sharedMounts_exact : sharedMounts.DeviceExact asciiRuntime 2 ∧
    sharedMounts.TreeExact asciiRuntime := by
  obtain ⟨-, hdevice, -, htree⟩ := MountTable.mountinfo_exact asciiRuntime sharedMounts
  have hall := sharedMounts_readable
  refine ⟨(hdevice 2).mpr ⟨by norm_num, ?_⟩, htree.mpr ?_⟩
  · intro line hline
    have hfirst : (readLines sharedMounts.text).find? (fun line =>
        decide (DeviceNumber.majMin 2 <:+: line)) = some (firstLine rootMount.body) := by
      decide +kernel
    exact ⟨rootMount, mem_cons_self .., rfl, hall _ (mem_cons_self ..),
      Option.some_inj.mp (hline.symm.trans hfirst)⟩
  · refine ⟨fun mount hmount => (hall mount hmount).parsed, ?_, ⟨rootMount, ?_, ?_⟩, ?_⟩
    · simp [sharedMounts, rootMount, spacedMount, zfsMount]
    · exact ⟨mem_cons_self .., rfl⟩
    · rintro other ⟨hother, hone⟩
      simp only [sharedMounts, mem_cons, not_mem_nil, or_false] at hother
      rcases hother with h | h
      · exact h
      · rw [h] at hone
        cases hone
    · exact fun _ _ _ mount hmount _ => hall mount hmount

def twoMounts : MountTable where
  mounts := [zfsMount 26 1 23 ['/'] [['s', ':', '1']] (by simp [IsWord, isSpace]) (by omega),
      zfsMount 27 26 2 ['/', 'm'] [] nofun (by omega)]
  nodup := by decide

/-- Device 0:2 is found in the text of 0:23, which is listed first. -/
theorem twoMounts_not_exact : ¬twoMounts.DeviceExact asciiRuntime 2 ∧
    ¬twoMounts.MountExact asciiRuntime 27 ∧
    ¬twoMounts.TreeExact asciiRuntime := by
  have hdevice : (getmntinfo asciiRuntime twoMounts.text (some 2) none).map
      Dict.keys = .ok [23] := by
    decide +kernel
  have hmount : (getmntinfo asciiRuntime twoMounts.text none (some 27)).map
      Dict.keys = .error .indexError := by
    decide +kernel
  have htree : (getmnttree asciiRuntime twoMounts.text none).map Tree.top = .error .indexError := by
    decide +kernel
  refine ⟨?_, ?_, ?_⟩
  · intro hexact
    obtain ⟨info, hok, hright, _⟩ := hexact
    rw [hok] at hdevice
    have hkeys : info.keys = [23] := Except.ok.inj hdevice
    have hmem : (23 : ℤ) ∈ info := by
      rw [Dict.mem_def, hkeys]
      exact mem_singleton_self _
    obtain ⟨entry, hget⟩ := Dict.exists_get?_of_mem hmem
    have hkey := (hright 23 entry hget).1
    omega
  · intro hexact
    obtain ⟨info, hok, _⟩ := hexact
    rw [hok] at hmount
    cases hmount
  · intro hexact
    obtain ⟨tree, hok, _⟩ := hexact
    rw [hok] at htree
    cases htree

end Middlewared
