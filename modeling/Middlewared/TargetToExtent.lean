import Middlewared.ExceptRules
import Middlewared.RelationalTable
import Middlewared.TransitionSystem
import Middlewared.ValidationErrors

/-!
# iSCSI target and extent mappings

`iscsi.targetextent`: the calls that create, update and delete the mappings of extents to LUN IDs
of targets.
-/

namespace Middlewared

open List Option TransitionSystem

/-- A row of `services_iscsitargettoextent`. -/
structure TargetToExtent where
  (id target extent lunid : ℤ)

structure TargetToExtentCreate where
  (target extent : ℤ)
  lunid : Option ℤ

/-- A field is `none` when it is left out, and `some none` when it is null. -/
structure TargetToExtentUpdate where
  (id target extent : Option ℤ)
  lunid : Option (Option ℤ)

inductive TargetToExtentError where
  | validation (errors : List VerrorEntry)
  | instanceNotFound (errmsg : String)
  | callError (errmsg : String)
  | integrityError

structure IscsiObjects where
  (targets extents : List ℤ)

namespace TargetToExtent

def targetLunids (rows : List TargetToExtent) (target : ℤ) : List ℤ :=
  ((rows.filter fun row => row.target = target).insertionSort
    fun a b => a.lunid ≤ b.lunid).map lunid

/-- `range(0, last + 1)` without the LUN IDs. -/
def gaps (lunids : List ℤ) (last : ℤ) : List ℤ :=
  ((List.range (last + 1).toNat).map Int.ofNat).filter fun n => n ∉ lunids

def assignLunid (lunids : List ℤ) : ℤ :=
  match lunids.getLast? with
  | none => 0
  | some last =>
    match gaps lunids last with
    | lunid :: _ => lunid
    | [] => lunids.max?.getD 0 + 1

def lunMapSize : ℤ := 16383

/-- `validate` with the values of `data` and, on an update, of `old`. -/
def validate (rows : List TargetToExtent) (target extent : ℤ)
    (lunid : Option ℤ) (schemaName : String) (old : Option TargetToExtent) :
    ℤ × List VerrorEntry :=
  let lunid := lunid.getD (assignLunid (targetLunids rows target))
  let range :=
    errorIf (lunid < 0 || lunid > lunMapSize - 1) (schemaName ++ ".lunid")
      "LUN ID must be a positive integer and lower than 16382"
  let clash :=
    errorIf ((decide (old.map TargetToExtent.lunid ≠ some lunid) ||
          decide (old.map TargetToExtent.target ≠ some target)) &&
        rows.any fun row => row.lunid = lunid && row.target = target)
      (schemaName ++ ".lunid") "LUN ID is already being used for this target."
  let inUse :=
    errorIf (decide (old.map TargetToExtent.extent ≠ some extent) &&
        rows.any fun row => row.extent = extent)
      (schemaName ++ ".extent") "Extent is already in use."
  (lunid, range ++ clash ++ inUse)

def check (errors : List VerrorEntry) : Except TargetToExtentError Unit :=
  if errors = [] then .ok () else .error (.validation errors)

def getInstance (rows : List TargetToExtent) (id : ℤ) :
    Except TargetToExtentError TargetToExtent :=
  match rows.find? fun row => row.id = id with
  | none =>
    .error (.instanceNotFound ("iSCSITargetToExtent " ++ toString id ++ " does not exist"))
  | some row => .ok row

def constraints (objects : IscsiObjects) (others : List TargetToExtent)
    (row : TargetToExtent) : Except TargetToExtentError Unit :=
  if row.target ∈ objects.targets ∧ row.extent ∈ objects.extents ∧
      ∀ other ∈ others, other.id ≠ row.id ∧
        ¬ (other.target = row.target ∧ other.extent = row.extent) then
    .ok ()
  else .error .integrityError

variable (objects : IscsiObjects) (rows : List TargetToExtent)

/-- The datastore gives the row its `id`. -/
def doCreate (id : ℤ) (data : TargetToExtentCreate) :
    Except TargetToExtentError (List TargetToExtent) := do
  let (lunid, errors) :=
    validate rows data.target data.extent data.lunid "iscsi_targetextent_create" none
  check errors
  let row : TargetToExtent := ⟨id, data.target, data.extent, lunid⟩
  constraints objects rows row
  return rows ++ [row]

/-- `lunid` is an `int` in `IscsiTargetToExtentUpdate`, so null is no value for
it. -/
def acceptUpdate (data : TargetToExtentUpdate) :
    Except TargetToExtentError Unit :=
  check (errorIf (data.lunid = some none) "iscsi_target_to_extent_update.lunid"
    "Input should be a valid integer")

def mergeUpdate (old : TargetToExtent) (data : TargetToExtentUpdate) :
    TargetToExtent where
  id := data.id.getD old.id
  target := data.target.getD old.target
  extent := data.extent.getD old.extent
  lunid := (data.lunid.getD none).getD old.lunid

/-- A row that gets another `id` is not found again, and the call raises. -/
def doUpdate (id : ℤ) (data : TargetToExtentUpdate) :
    Except TargetToExtentError (List TargetToExtent) := do
  acceptUpdate data
  let old ← getInstance rows id
  let new := mergeUpdate old data
  let (lunid, errors) :=
    validate rows new.target new.extent (some new.lunid) "iscsi_targetextent_update" (some old)
  check errors
  let new := { new with lunid }
  constraints objects (rows.filter fun row => row.id ≠ id) new
  let updated := rows.map fun row => if row.id = id then new else row
  let _ ← getInstance updated id
  return updated

def checkSessions (force : Bool) : List String →
    Except TargetToExtentError Unit
  | [] => .ok ()
  | session :: _ =>
    if force then .ok ()
    else
      .error (.callError ("Associated target " ++ session ++ " is in use."))

def doDelete (id : ℤ) (force : Bool) (activeSessions : List String) :
    Except TargetToExtentError (List TargetToExtent) := do
  let _ ← getInstance rows id
  checkSessions force activeSessions
  return rows.filter fun row => row.id ≠ id

inductive Call where
  | create (id : ℤ) (data : TargetToExtentCreate)
  | update (id : ℤ) (data : TargetToExtentUpdate)
  | delete (id : ℤ) (force : Bool) (activeSessions : List String)

def perform : Call → Except TargetToExtentError (List TargetToExtent)
  | .create id data => doCreate objects rows id data
  | .update id data => doUpdate objects rows id data
  | .delete id force activeSessions => doDelete rows id force activeSessions

def step (rows : List TargetToExtent) (call : Call) :
    Option (List TargetToExtent) :=
  (perform objects rows call).toOption

theorem mem_targetLunids {rows : List TargetToExtent} {target n : ℤ} :
    n ∈ targetLunids rows target ↔ ∃ row ∈ rows, row.target = target ∧ row.lunid = n := by
  simp [targetLunids, and_assoc]

theorem pairwise_targetLunids (rows : List TargetToExtent) (target : ℤ) :
    (targetLunids rows target).Pairwise (· ≤ ·) := by
  exact List.pairwise_map.mpr (pairwise_insertionSort _ _)

variable {lunids : List ℤ}

theorem mem_gaps {last n : ℤ} : n ∈ gaps lunids last ↔ (0 ≤ n ∧ n ≤ last) ∧ n ∉ lunids := by
  have hrange : (∃ k, k < (last + 1).toNat ∧ Int.ofNat k = n) ↔ 0 ≤ n ∧ n ≤ last := by
    constructor
    · intro hk
      obtain ⟨k, hlt, heq⟩ := hk
      simp only [Int.ofNat_eq_natCast] at heq
      omega
    · intro hn
      refine ⟨n.toNat, ?_, ?_⟩
      · omega
      · simp only [Int.ofNat_eq_natCast]
        omega
  simp only [gaps, mem_filter, List.mem_map, mem_range,
    decide_not, Bool.not_eq_true', decide_eq_false_iff_not]
  rw [hrange]

theorem pairwise_gaps (lunids : List ℤ) (last : ℤ) : (gaps lunids last).Pairwise (· < ·) := by
  apply List.Pairwise.filter
  rw [pairwise_map]
  exact List.pairwise_lt_range.imp Int.ofNat_lt.mpr

theorem le_of_getLast? {last : ℤ} (hsorted : lunids.Pairwise (· ≤ ·))
    (hlast : lunids.getLast? = some last) :
    last ∈ lunids ∧ ∀ n ∈ lunids, n ≤ last := by
  obtain ⟨before, rfl⟩ := List.getLast?_eq_some_iff.mp hlast
  rw [pairwise_append] at hsorted
  constructor
  · simp
  · intro n hn
    rw [mem_append, mem_singleton] at hn
    rcases hn with hbefore | heq
    · exact hsorted.2.2 n hbefore last (mem_singleton_self last)
    · omega

theorem isLeast_assignLunid (hsorted : lunids.Pairwise (· ≤ ·)) (hnonneg : ∀ n ∈ lunids, 0 ≤ n) :
    IsLeast {n | 0 ≤ n ∧ n ∉ lunids} (assignLunid lunids) := by
  cases hlast : lunids.getLast? with
  | none =>
    rw [getLast?_eq_none_iff] at hlast
    subst hlast
    exact ⟨by simp [assignLunid], fun n hn => hn.1⟩
  | some last =>
    obtain ⟨hmem, hle⟩ := le_of_getLast? hsorted hlast
    have hscan : assignLunid lunids = (gaps lunids last).head?.getD (last + 1) := by
      have hmax : lunids.max? = some last := List.max?_eq_some_iff.mpr ⟨hmem, hle⟩
      simp only [assignLunid, hlast, hmax]
      cases gaps lunids last <;> rfl
    rw [hscan]
    have hpairwise := pairwise_gaps lunids last
    cases hgaps : gaps lunids last with
    | nil =>
      have hfull : ∀ n, 0 ≤ n → n ≤ last → n ∈ lunids := by
        intro n hzero hn
        by_contra hnot
        have hgap := mem_gaps.mpr ⟨⟨hzero, hn⟩, hnot⟩
        rw [hgaps] at hgap
        cases hgap
      have hzero := hnonneg last hmem
      constructor
      · refine ⟨by simp; omega, ?_⟩
        intro hnext
        have hover := hle _ hnext
        simp at hover
      · intro n hn
        by_contra hlt
        simp only [head?_nil, getD_none, not_le] at hlt
        exact hn.2 (hfull n hn.1 (by omega))
    | cons lunid later =>
      have hfirst : lunid ∈ gaps lunids last := by simp [hgaps]
      obtain ⟨⟨hzero, hbound⟩, hnot⟩ := mem_gaps.mp hfirst
      rw [hgaps, pairwise_cons] at hpairwise
      refine ⟨⟨hzero, hnot⟩, ?_⟩
      intro n hn
      simp only [head?_cons, getD_some]
      by_cases hover : n ≤ last
      · have hgap := mem_gaps.mpr ⟨⟨hn.1, hover⟩, hn.2⟩
        rw [hgaps, mem_cons] at hgap
        rcases hgap with heq | hlater
        · omega
        · exact le_of_lt (hpairwise.1 n hlater)
      · omega

/-! ## What an accepted call has checked -/

variable {objects : IscsiObjects} {rows next : List TargetToExtent}

structure Validated (rows : List TargetToExtent) (old : Option TargetToExtent)
    (target extent lunid : ℤ) : Prop where
  range : 0 ≤ lunid ∧ lunid ≤ 16382
  lun : ∀ row ∈ rows, row.target = target → row.lunid = lunid →
    ∃ before ∈ old, before.target = target ∧ before.lunid = lunid
  extent : ∀ row ∈ rows, row.extent = extent → ∃ before ∈ old, before.extent = extent

theorem validated_of_validate {target extent lunid : ℤ} {given : Option ℤ}
    {schemaName : String} {old : Option TargetToExtent}
    (hvalidate : validate rows target extent given schemaName old =
      (lunid, [])) : Validated rows old target extent lunid := by
  simp only [validate, Prod.mk.injEq, append_eq_nil_iff, errorIf_eq_nil_iff] at hvalidate
  obtain ⟨hlunid, ⟨hrange, hclash⟩, hinUse⟩ := hvalidate
  rw [hlunid] at hrange hclash
  constructor
  · simp only [lunMapSize, gt_iff_lt, Bool.or_eq_false_iff, decide_eq_false_iff_not] at hrange
    omega
  · intro row hrow htarget hsame
    have hany : (rows.any fun row => row.lunid = lunid && row.target = target) = true :=
      List.any_eq_true.mpr ⟨row, hrow, by simp [htarget, hsame]⟩
    rw [hany, Bool.and_true, Bool.or_eq_false_iff] at hclash
    simp only [ne_eq, decide_not, Bool.not_eq_false', decide_eq_true_eq, map_eq_some_iff] at hclash
    obtain ⟨⟨before, hbefore, hl⟩, ⟨_, hbefore', ht⟩⟩ := hclash
    rw [hbefore, Option.some.injEq] at hbefore'
    subst hbefore'
    exact ⟨before, hbefore, ht, hl⟩
  · intro row hrow hsame
    have hany : (rows.any fun row => row.extent = extent) = true :=
      List.any_eq_true.mpr ⟨row, hrow, by simp [hsame]⟩
    rw [hany, Bool.and_true] at hinUse
    simpa using hinUse

theorem check_eq_ok_iff {errors : List VerrorEntry} {u : Unit} :
    check errors = .ok u ↔ errors = [] := by
  unfold check
  split <;> simp [*]

variable {id : ℤ} {row : TargetToExtent}

theorem getInstance_eq_ok (hget : getInstance rows id = .ok row) : row ∈ rows ∧ row.id = id := by
  unfold getInstance at hget
  split at hget
  · cases hget
  · rename_i found hfind
    cases hget
    exact ⟨mem_of_find?_eq_some hfind, by
      simpa using find?_some hfind⟩

theorem constraints_eq_ok {u : Unit} (hok : constraints objects rows row = .ok u) :
    ∀ other ∈ rows, other.id ≠ row.id := by
  unfold constraints at hok
  split at hok
  · rename_i hall
    exact fun other hother => (hall.2.2 other hother).1
  · cases hok

theorem doCreate_eq_ok {data : TargetToExtentCreate}
    (hok : doCreate objects rows id data = .ok next) :
    ∃ lunid, Validated rows none data.target data.extent lunid ∧ lunid = data.lunid.getD
        (assignLunid (targetLunids rows data.target)) ∧
      (∀ row ∈ rows, row.id ≠ id) ∧
      next = rows ++ [⟨id, data.target, data.extent, lunid⟩] := by
  obtain ⟨_, hcheck, hok⟩ := bind_eq_ok_iff.mp hok
  obtain ⟨_, hconstraints, hok⟩ := bind_eq_ok_iff.mp hok
  rw [check_eq_ok_iff] at hcheck
  cases hok
  exact ⟨_, validated_of_validate (Prod.ext rfl hcheck), rfl, constraints_eq_ok hconstraints, rfl⟩

theorem doUpdate_eq_ok {data : TargetToExtentUpdate}
    (hok : doUpdate objects rows id data = .ok next) :
    data.lunid ≠ some none ∧ ∃ old ∈ rows, ∃ new : TargetToExtent, old.id = id ∧ new.id = id ∧
      Validated rows (some old) new.target new.extent new.lunid ∧
      next = rows.map fun row => if row.id = id then new else row := by
  obtain ⟨_, haccept, hok⟩ := bind_eq_ok_iff.mp hok
  obtain ⟨old, hold, hok⟩ := bind_eq_ok_iff.mp hok
  obtain ⟨_, hcheck, hok⟩ := bind_eq_ok_iff.mp hok
  obtain ⟨_, _, hok⟩ := bind_eq_ok_iff.mp hok
  obtain ⟨found, hfound, hok⟩ := bind_eq_ok_iff.mp hok
  simp only [acceptUpdate, check_eq_ok_iff, errorIf_eq_nil_iff, decide_eq_false_iff_not] at haccept
  rw [check_eq_ok_iff] at hcheck
  obtain ⟨holdMem, holdId⟩ := getInstance_eq_ok hold
  obtain ⟨hfoundMem, hfoundId⟩ := getInstance_eq_ok hfound
  obtain ⟨row, _, hrow⟩ := List.mem_map.mp hfoundMem
  cases hok
  refine ⟨haccept, old, holdMem, _, holdId, ?_, validated_of_validate (Prod.ext rfl hcheck), rfl⟩
  split at hrow
  · rw [← hrow] at hfoundId
    exact hfoundId
  · rename_i hne
    rw [hrow] at hne
    exact absurd hfoundId hne

theorem doDelete_eq_ok {force : Bool} {activeSessions : List String}
    (hok : doDelete rows id force activeSessions = .ok next) :
    next = rows.filter fun row => row.id ≠ id := by
  obtain ⟨_, _, hok⟩ := bind_eq_ok_iff.mp hok
  obtain ⟨_, _, hok⟩ := bind_eq_ok_iff.mp hok
  cases hok
  rfl

/-! ## What every run of calls keeps -/

structure LunMapping (rows : List TargetToExtent) : Prop where
  id : Relational.Distinct TargetToExtent.id rows
  lun : Relational.Distinct (fun row => (row.target, row.lunid)) rows
  extent : Relational.Distinct TargetToExtent.extent rows
  range : ∀ row ∈ rows, 0 ≤ row.lunid ∧ row.lunid ≤ 16382

theorem lunMapping_nil : LunMapping [] where
  id := nodup_nil
  lun := nodup_nil
  extent := nodup_nil
  range := by simp

variable (hrows : LunMapping rows)

include hrows

theorem LunMapping.create (hvalid : Validated rows none row.target row.extent row.lunid)
    (hid : ∀ other ∈ rows, other.id ≠ row.id) : LunMapping (rows ++ [row]) where
  id := Relational.distinct_concat hrows.id (by
    intro hmem
    obtain ⟨other, hother, hsame⟩ := List.mem_map.mp hmem
    exact hid other hother hsame)
  lun := Relational.distinct_concat hrows.lun (by
    intro hmem
    obtain ⟨other, hother, hsame⟩ := List.mem_map.mp hmem
    rw [Prod.mk.injEq] at hsame
    obtain ⟨_, hbefore, _⟩ := hvalid.lun other hother hsame.1 hsame.2
    cases hbefore)
  extent := Relational.distinct_concat hrows.extent (by
    intro hmem
    obtain ⟨other, hother, hsame⟩ := List.mem_map.mp hmem
    obtain ⟨_, hbefore, _⟩ := hvalid.extent other hother hsame
    cases hbefore)
  range := by
    rw [forall_mem_append, forall_mem_singleton]
    exact ⟨hrows.range, hvalid.range⟩

theorem LunMapping.update {old new : TargetToExtent} (hold : old ∈ rows) (hid : new.id = old.id)
    (hvalid : Validated rows (some old) new.target new.extent new.lunid) :
    LunMapping (rows.map fun row => if row.id = old.id then new else row) := by
  -- a row with a value that the old one has is the old one
  have hother : ∀ {κ : Type} {column : TargetToExtent → κ},
      Relational.Distinct column rows → ∀ row ∈ rows, row.id ≠ old.id →
        column row ≠ column old := by
    intro κ column hcolumn row hrow hne hsame
    rw [inj_on_of_nodup_map hcolumn hrow hold hsame] at hne
    exact hne rfl
  constructor
  · apply hrows.id.replace hrows.id
    intro row _ hne
    rw [hid]
    exact hne
  · apply hrows.id.replace hrows.lun
    intro row hrow hne hsame
    rw [Prod.mk.injEq] at hsame
    obtain ⟨_, hbefore, htarget, hlunid⟩ := hvalid.lun row hrow hsame.1 hsame.2
    cases hbefore
    apply hother hrows.lun row hrow hne
    rw [Prod.mk.injEq, htarget, hlunid]
    exact hsame
  · apply hrows.id.replace hrows.extent
    intro row hrow hne hsame
    obtain ⟨_, hbefore, hextent⟩ := hvalid.extent row hrow hsame
    cases hbefore
    apply hother hrows.extent row hrow hne
    rw [hextent]
    exact hsame
  · intro row hrow
    obtain ⟨before, hbefore, rfl⟩ := List.mem_map.mp hrow
    split
    · exact hvalid.range
    · exact hrows.range before hbefore

theorem LunMapping.filter (p : TargetToExtent → Bool) : LunMapping (rows.filter p) where
  id := hrows.id.filter p
  lun := hrows.lun.filter p
  extent := hrows.extent.filter p
  range row hrow := hrows.range row (mem_of_mem_filter hrow)

variable {call : Call}

omit hrows in
theorem perform_of_step (hstep : step objects rows call = some next) :
    perform objects rows call = .ok next := by
  unfold step at hstep
  cases hperform : perform objects rows call with
  | error e =>
    rw [hperform] at hstep
    cases hstep
  | ok after =>
    rw [hperform] at hstep
    cases hstep
    rfl

theorem LunMapping.step (hstep : step objects rows call = some next) : LunMapping next := by
  have hok := perform_of_step hstep
  cases call with
  | create id data =>
    obtain ⟨lunid, hvalid, _, hid, hnext⟩ := doCreate_eq_ok hok
    rw [hnext]
    exact hrows.create hvalid hid
  | update id data =>
    obtain ⟨_, old, hold, new, holdId, hnewId, hvalid, hnext⟩ := doUpdate_eq_ok hok
    rw [hnext, ← holdId]
    exact hrows.update hold (hnewId.trans holdId.symm) hvalid
  | delete id force activeSessions =>
    rw [doDelete_eq_ok hok]
    exact hrows.filter _

/-- The row that a call with a null `lunid` is about. -/
def Call.autoAssigned : Call → Option ℤ
  | .create id data => if data.lunid = none then some id else none
  | .update id data => if data.lunid = some none then some id else none
  | .delete _ _ _ => none

def StoresSmallest (id : ℤ) (rows : List TargetToExtent) : Prop :=
  ∃ row ∈ rows, row.id = id ∧ IsLeast {n | 0 ≤ n ∧ ∀ other ∈ rows,
        other.id ≠ id → other.target = row.target → other.lunid ≠ n}
      row.lunid

theorem LunMapping.storesSmallest (hstep : TargetToExtent.step objects rows call = some next)
    (hauto : call.autoAssigned = some id) : StoresSmallest id next := by
  have hok := perform_of_step hstep
  cases call with
  | create newId data =>
    obtain ⟨hnull, rfl⟩ := ite_some_none_eq_some.mp hauto
    obtain ⟨lunid, _, hlunid, hid, hnext⟩ := doCreate_eq_ok hok
    rw [hnull, getD_none] at hlunid
    have hnonneg : ∀ n ∈ targetLunids rows data.target, 0 ≤ n := by
      intro n hn
      obtain ⟨row, hrow, _, heq⟩ := mem_targetLunids.mp hn
      rw [← heq]
      exact (hrows.range row hrow).1
    have hleast := isLeast_assignLunid (pairwise_targetLunids rows data.target) hnonneg
    rw [hnext]
    refine ⟨_, mem_append_right rows (mem_singleton_self _), rfl, ?_⟩
    convert hleast using 1
    ext n
    -- the rows besides the new one are those from before
    constructor
    · intro hn
      refine ⟨hn.1, ?_⟩
      intro hmem
      obtain ⟨row, hrow, htarget, heq⟩ := mem_targetLunids.mp hmem
      exact hn.2 row (mem_append_left _ hrow) (hid row hrow) htarget heq
    · intro hn
      refine ⟨hn.1, ?_⟩
      intro other hother hne htarget heq
      rw [mem_append, mem_singleton] at hother
      rcases hother with hold | hnew
      · exact hn.2 (mem_targetLunids.mpr ⟨other, hold, htarget, heq⟩)
      · rw [hnew] at hne
        exact hne rfl
  | update oldId data =>
    rw [Call.autoAssigned, ite_none_right_eq_some] at hauto
    exact absurd hauto.1 (doUpdate_eq_ok hok).1
  | delete id force activeSessions => cases hauto

omit hrows

/-- A row that is given a LUN ID is given the smallest that is free. -/
def AssignsSmallest (objects : IscsiObjects) (rows : List TargetToExtent)
    (call : Call) : Prop :=
  ∀ after, step objects rows call = some after →
    ∀ id, call.autoAssigned = some id → StoresSmallest id after

/-- After every run of accepted calls a LUN ID of a target means one extent and
no extent is offered twice, and a null LUN ID has been given the smallest number
that was free. -/
theorem lunMapping_of_run {calls : List Call}
    (hrun : run (step objects) [] calls = some rows) :
    LunMapping rows ∧ EveryStep (step objects)
      (AssignsSmallest objects) [] calls := by
  have hinv := fun before call after (hbefore : LunMapping before)
    (hstep : step objects before call = some after) => hbefore.step hstep
  constructor
  · exact run_invariant hinv lunMapping_nil hrun
  · apply @TransitionSystem.EveryStep.imp_of_invariant _ _ _ LunMapping (fun _ _ => True)
    · exact fun before call after hbefore _ hstep =>
        hinv before call after hbefore hstep
    · intro before call _ hbefore _ _ after hafter id hauto
      exact hbefore.storesSmallest hafter hauto
    · exact lunMapping_nil
    · exact hrun
    · exact everyStep_of_forall_mem fun _ _ _ => trivial

def reassignCalls : List Call :=
  [.create 1 ⟨1, 1, none⟩, .create 2 ⟨1, 2, none⟩, .delete 1 false [],
    .create 3 ⟨1, 3, none⟩, .update 2 ⟨none, some 2, none, none⟩]

theorem lunMapping_reassignCalls : LunMapping [⟨2, 2, 2, 1⟩, ⟨3, 1, 3, 0⟩] ∧
    EveryStep (step ⟨[1, 2], [1, 2, 3]⟩)
      (AssignsSmallest ⟨[1, 2], [1, 2, 3]⟩) [] reassignCalls :=
  @lunMapping_of_run ⟨[1, 2], [1, 2, 3]⟩ _ reassignCalls rfl

end TargetToExtent

end Middlewared
