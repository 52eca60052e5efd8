import Middlewared.ShareSec
import Middlewared.SmbSections

/-!
# What the calls on share ACLs do

Names in lower case are as good as `casefold` at telling shares apart, so what
is written under the name of a share is not read under the name of another.
-/

namespace Middlewared

open PyString SharingSmb List

variable {rt : ShareAclRuntime} {host : SharingHost}

/-! ## The names of a share -/

/-- The names that a share is called by: its own, and `HOMES` for a home
share. -/
def aclNames (share : SmbShare) : List String :=
  if share.home then [share.name, "HOMES"] else [share.name]

def storedName (share : SmbShare) : String :=
  if share.home then "HOMES" else share.name

/-- A home share can be found by its own name and by `HOMES`, another one by
its own name. -/
structure ShareNames (rt : ShareAclRuntime) (s : SharingState) : Prop
    extends DistinctShares rt.toSharingRuntime s where
  notReserved : ∀ row ∈ s.rows, rt.lower row.share.name ∉ reservedShareNames
  notHomes : ∀ row ∈ s.rows, rt.upper row.share.name = "HOMES" → row.share.home = true

theorem storedName_mem (share : SmbShare) : storedName share ∈ aclNames share := by
  unfold storedName aclNames
  cases share.home <;> simp

variable {share : SmbShare}

theorem mem_aclNames_iff {name : String} : name ∈ aclNames share ↔
    name = share.name ∨ share.home = true ∧ name = "HOMES" := by
  unfold aclNames
  cases share.home <;> simp

theorem aclNames_congr {other : SmbShare} (hname : share.name = other.name)
    (hhome : share.home = other.home) : aclNames share = aclNames other := by
  unfold aclNames
  rw [hname, hhome]

theorem storedName_congr {other : SmbShare} (hname : share.name = other.name)
    (hhome : share.home = other.home) :
    storedName share = storedName other := by
  unfold storedName
  rw [hname, hhome]

theorem lower_runningName (rt : ShareAclRuntime) (share : SmbShare) :
    rt.lower (runningName share) = rt.lower (storedName share) := by
  unfold runningName storedName
  cases share.home with
  | false => rfl
  | true => exact rt.lower_homes.2.trans rt.lower_homes.1.symm

namespace ShareAclRuntime

theorem casefold_eq_of_lower_eq {first second : String}
    (hlower : rt.lower first = rt.lower second) :
    rt.casefold first = rt.casefold second := by
  rw [← rt.casefold_lower first, hlower, rt.casefold_lower]

theorem upper_eq_homes_of_lower {name : String}
    (hlower : rt.lower name = "homes") : rt.upper name = "HOMES" := by
  rw [rt.upper_eq_homes_iff, ← rt.casefold_lower, hlower, rt.casefold_homes]

end ShareAclRuntime

theorem ShareSec.configShare_eq_some {a : ShareAclState} {name : String} {found : SmbShareRow}
    (hfound : ShareSec.configShare rt a name = some found) :
    found ∈ a.sharing.rows ∧ (rt.upper name = "HOMES" → found.share.home = true) ∧
      (rt.upper name ≠ "HOMES" → rt.casefold found.share.name = rt.casefold name) := by
  unfold ShareSec.configShare at hfound
  split at hfound
  · rename_i hupper
    have hhome := find?_some hfound
    exact ⟨mem_of_find?_eq_some hfound, fun _ => hhome, fun hne => absurd hupper hne⟩
  · rename_i hupper
    have hname := find?_some hfound
    exact ⟨mem_of_find?_eq_some hfound, fun heq => absurd heq hupper,
      fun _ => of_decide_eq_true hname⟩

namespace ShareNames

variable {s : SharingState} {first second row : SmbShareRow} {name other : String}

theorem id_eq_of_configShare {a : ShareAclState} (hs : ShareNames rt a.sharing)
    (hfirst : ShareSec.configShare rt a name = some first)
    (hsecond : second ∈ a.sharing.rows) (hother : other ∈ aclNames second.share)
    (hlower : rt.lower other = rt.lower name) :
    second.share.id = first.share.id := by
  have hfold := rt.casefold_eq_of_lower_eq hlower
  obtain ⟨hmem, hhomes, hname⟩ := ShareSec.configShare_eq_some hfirst
  rcases mem_aclNames_iff.mp hother with rfl | ⟨hhome, rfl⟩
  · by_cases hupper : rt.upper name = "HOMES"
    · have hupperOther := hupper
      rw [rt.upper_eq_homes_iff, ← hfold, ← rt.upper_eq_homes_iff] at hupperOther
      exact hs.home second hsecond first hmem
        (hs.notHomes second hsecond hupperOther) (hhomes hupper)
    · exact hs.names second hsecond first hmem (hfold.trans (hname hupper).symm)
  · rw [rt.lower_homes.1] at hlower
    exact hs.home second hsecond first hmem hhome (hhomes (rt.upper_eq_homes_of_lower hlower.symm))

theorem exists_configShare {a : ShareAclState} (hs : ShareNames rt a.sharing)
    (hrow : row ∈ a.sharing.rows) (hother : other ∈ aclNames row.share)
    (hlower : rt.lower other = rt.lower name) :
    ∃ found, ShareSec.configShare rt a name = some found := by
  have hfold := rt.casefold_eq_of_lower_eq hlower
  unfold ShareSec.configShare
  split
  · rename_i hupper
    rw [← Option.isSome_iff_exists, find?_isSome]
    refine ⟨row, hrow, ?_⟩
    rcases mem_aclNames_iff.mp hother with rfl | ⟨hhome, _⟩
    · apply hs.notHomes row hrow
      rw [rt.upper_eq_homes_iff] at hupper ⊢
      exact hfold.trans hupper
    · exact hhome
  · rename_i hupper
    rw [← Option.isSome_iff_exists, find?_isSome]
    rcases mem_aclNames_iff.mp hother with rfl | ⟨_, rfl⟩
    · exact ⟨row, hrow, decide_eq_true hfold⟩
    · rw [rt.lower_homes.1] at hlower
      exact absurd (rt.upper_eq_homes_of_lower hlower.symm) hupper

theorem id_eq_of_lower_eq (hs : ShareNames rt s) (hfirst : first ∈ s.rows)
    (hsecond : second ∈ s.rows) (hname : name ∈ aclNames first.share)
    (hother : other ∈ aclNames second.share)
    (hlower : rt.lower name = rt.lower other) :
    first.share.id = second.share.id := by
  have hreserved : ∀ row ∈ s.rows, rt.lower row.share.name ≠ "homes" := by
    intro row hrow heq
    exact hs.notReserved row hrow (heq ▸ by decide)
  rcases mem_aclNames_iff.mp hname with rfl | ⟨hfirstHome, rfl⟩ <;>
    rcases mem_aclNames_iff.mp hother with rfl | ⟨hsecondHome, rfl⟩
  · exact hs.names first hfirst second hsecond (rt.casefold_eq_of_lower_eq hlower)
  · exact absurd (hlower.trans rt.lower_homes.1) (hreserved first hfirst)
  · exact absurd (hlower.symm.trans rt.lower_homes.1) (hreserved second hsecond)
  · exact hs.home first hfirst second hsecond hfirstHome hsecondHome

end ShareNames

variable {s next : SharingState} {new : SmbShare} {row : SmbShareRow}

theorem Stores.shareNames (hstores : Stores rt.toSharingRuntime host s next new row)
    (hs : ShareNames rt s) (hid : row.share.id ≠ 0)
    (hhomes : rt.upper row.share.name = "HOMES" → row.share.home = true) :
    ShareNames rt next where
  toDistinctShares := hstores.distinctShares hs.toDistinctShares hid
  notReserved := by
    apply hstores.forall_rows hs.notReserved
    obtain ⟨schemaName, old, hvalidate, _⟩ := hstores.validated
    rw [hstores.row_name]
    exact lower_notMem_of_accepted (validate_eq_nil hvalidate).2.2.1
  notHomes := hstores.forall_rows hs.notHomes hhomes

theorem ShareNames.mono (hs : ShareNames rt s)
    (hrows : next.rows.Sublist s.rows) : ShareNames rt next where
  toDistinctShares := hs.toDistinctShares.mono hrows
  notReserved := fun row hrow => hs.notReserved row (hrows.subset hrow)
  notHomes := fun row hrow => hs.notHomes row (hrows.subset hrow)

theorem Stores.sameNames (hstores : Stores rt.toSharingRuntime host s next new row) :
    row.share.name = (new.purpose.params new).name ∧
      row.share.home = (new.purpose.params new).home := by
  obtain ⟨id, aux, hrow⟩ := hstores.fields
  rw [hrow]
  exact ⟨rfl, rfl⟩

theorem SharingSmb.doCreate_row_id {id : ℕ} {data : SmbShareUpdate}
    (hcreate : doCreate rt.toSharingRuntime host s id data = .ok next)
    (hnew : new.id = 0) (hid : row.share.id ≠ 0)
    (hstores : Stores rt.toSharingRuntime host s next new row) :
    row.share.id = id := by
  have hrow := (hstores.rows row).mpr (Or.inl rfl)
  obtain ⟨_, _, _, hcreates⟩ := doCreate_creates hcreate
  rw [hcreates.eq, mem_append, mem_singleton] at hrow
  rcases hrow with hold | heq
  · obtain ⟨_, _, _, _, _, hids⟩ := hstores.validated
    exact absurd (((hids row hold).mpr rfl).trans hnew) hid
  · rw [heq]

theorem SharingSmb.doUpdate_row_id {id : ℕ} {data : SmbShareUpdate}
    {old : SmbShare} (hold : s.getInstance host id = .ok old)
    (hupdate : doUpdate rt.toSharingRuntime host s id data = .ok next) :
    ∃ row, row.share.id = id ∧ (∃ before ∈ s.rows, before.share.id = id) ∧
      Stores rt.toSharingRuntime host s next (old.update data) row := by
  obtain ⟨same, row, hsame, _, hstores⟩ := doUpdate_eq_ok hupdate
  obtain rfl : old = same := Except.ok.inj (hold.symm.trans hsame)
  obtain ⟨before, hbefore, hid, heq⟩ := SharingState.find_of_getInstance hold
  obtain ⟨_, _, _, _, _, hids⟩ := hstores.validated
  have hnew : before.share.id = (old.update data).id := by
    rw [heq]
    rfl
  exact ⟨row, ((hids before hbefore).mp hnew).symm.trans hid, ⟨before, hbefore, hid⟩, hstores⟩

end Middlewared
