import Middlewared.SmbSharingStep

/-!
# Agreement on AFP compatibility

Two enabled shares of one directory write the metadata of files in one format only if they have
the same setting for AFP.
-/

namespace Middlewared

open SharingSmb

variable {rt : SharingRuntime} {s next : SharingState}

/-- Enabled shares whose paths overlap have the same setting. -/
def SharingState.AfpAgree (rt : SharingRuntime) (s : SharingState) : Prop :=
  ∀ first ∈ s.rows, ∀ second ∈ s.rows, first.share.enabled = true → second.share.enabled = true →
    overlapping (rt.resolve first.share.path) (rt.resolve second.share.path) = true →
    first.share.afp = second.share.afp

/-- An enabled share that is stored with the setting on overlaps no enabled
share that has it off. -/
def AfpMatched (rt : SharingRuntime) (s : SharingState)
    (call : SharingHost × SharingCall) : Prop :=
  ∀ new ∈ call.2.newShare call.1 s, new.enabled = true → new.afp = true →
    ∀ other ∈ s.rows, other.share.id ≠ new.id → other.share.enabled = true →
      overlapping (rt.resolve other.share.path) (rt.resolve new.path) = true →
      other.share.afp = true

instance (rt : SharingRuntime) (s : SharingState)
    (call : SharingHost × SharingCall) : Decidable (AfpMatched rt s call) := by
  unfold AfpMatched
  infer_instance

theorem overlapping_comm (first second : List String) :
    overlapping first second = overlapping second first :=
  Bool.or_comm _ _

namespace Stores

variable {host : SharingHost} {new : SmbShare} {row : SmbShareRow}

theorem row_fields (hstores : Stores rt host s next new row) : SameFields row.share new := by
  obtain ⟨id, aux, hrow⟩ := hstores.fields
  have hsame := sameFields_params new
  rw [hrow]
  exact ⟨hsame.purpose, hsame.path, hsame.name, hsame.enabled, hsame.afp, hsame.audit⟩

theorem afpAgree_iff (hstores : Stores rt host s next new row) (hs : s.AfpAgree rt) :
    next.AfpAgree rt ↔ (new.enabled = true → new.afp = true →
      ∀ other ∈ s.rows, other.share.id ≠ new.id → other.share.enabled = true →
        overlapping (rt.resolve other.share.path) (rt.resolve new.path) = true →
        other.share.afp = true) := by
  obtain ⟨schemaName, old, _, hcheck, _, hids⟩ := hstores.validated
  have hsame := hstores.row_fields
  have hrow : row ∈ next.rows := (hstores.rows row).mpr (Or.inl rfl)
  constructor
  · intro hagree henabled hafp other hother hne honEnabled hoverlap
    have hkept : other ∈ next.rows := by
      rw [hstores.rows]
      exact Or.inr ⟨hother, mt (hids other hother).mpr hne⟩
    rw [← hsame.path] at hoverlap
    rw [hagree other hkept row hrow honEnabled (hsame.enabled.trans henabled) hoverlap, hsame.afp]
    exact hafp
  · intro hmatched
    apply hstores.forall_pairs hs
    · intro first second hsame hsecondOn hfirstOn hoverlap
      rw [overlapping_comm] at hoverlap
      exact (hsame hfirstOn hsecondOn hoverlap).symm
    · exact fun _ _ _ => rfl
    · intro other hother hne honEnabled henabled hoverlap
      rw [hsame.path] at hoverlap
      rw [hsame.enabled] at henabled
      rw [hsame.afp]
      have hneNew := mt (hids other hother).mp hne
      cases hafp : new.afp with
      | true =>
        exact hmatched henabled hafp other hother hneNew honEnabled hoverlap
      | false =>
        by_contra hon
        rw [Bool.not_eq_false] at hon
        rw [legacyAfpCheck_eq_nil hcheck hother hneNew hon honEnabled hafp] at hoverlap
        cases hoverlap

end Stores

theorem SharingState.AfpAgree.step_iff {call : SharingHost × SharingCall}
    (hids : s.PositiveIds) (hs : s.AfpAgree rt)
    (hstep : SharingState.step rt s call = some next) :
    next.AfpAgree rt ↔ AfpMatched rt s call := by
  cases SharingState.step_cases hids hstep with
  | stores new row hnew _ hstores =>
    rw [hstores.afpAgree_iff hs]
    unfold AfpMatched
    rw [hnew]
    simp only [Option.mem_def, Option.some.injEq, forall_eq']
  | removes hrows _ _ hnew =>
    refine iff_of_true ?_ (SharingCall.forall_newShare_of_eq_none hnew)
    intro first hfirst second hsecond
    exact hs first (hrows.subset hfirst) second (hrows.subset hsecond)
  | smb smb hnext _ _ hnew =>
    rw [hnext]
    exact iff_of_true hs (SharingCall.forall_newShare_of_eq_none hnew)
  | network network hnext _ hnew =>
    rw [hnext]
    exact iff_of_true hs (SharingCall.forall_newShare_of_eq_none hnew)

/-- Overlapping shares agree all the way exactly if no call stores one with the
setting on over an enabled one with the setting off. -/
theorem afpAgree_iff_afpMatched {start final : SharingState}
    {calls : List (SharingHost × SharingCall)} (hstart : start.rows = [])
    (hrun : SharingState.run rt start calls = some final) :
    TransitionSystem.EveryStep (SharingState.step rt) (AfpMatched rt) start calls ↔
      ∀ k u, SharingState.run rt start (calls.take k) = some u → u.AfpAgree rt := by
  apply TransitionSystem.everyStep_iff_forall_take SharingState.PositiveIds
    (fun s call next hids hstep => hids.step hstep)
    (fun s call next hids hs hstep => hs.step_iff hids hstep) ?_ ?_ hrun
  · intro row hrow
    rw [hstart] at hrow
    cases hrow
  · intro first hfirst
    rw [hstart] at hfirst
    cases hfirst

def legacyCalls : List (SharingHost × SharingCall) :=
  [(plainHost, .create 1 { path := some "/mnt/tank/data", name := some "data" }),
    (plainHost, .create 2
      { path := some "/mnt/tank/data/mac", name := some "mac", afp := some true })]

def macCalls : List (SharingHost × SharingCall) :=
  [(plainHost, .create 1
      { path := some "/mnt/tank/data", name := some "data", afp := some true }),
    (plainHost, .create 2
      { path := some "/mnt/tank/data/mac", name := some "mac", afp := some true })]

theorem afpAgree_macCalls :
    (∃ final, SharingState.run plainRuntime noShares macCalls = some final ∧
      final.rows.length = 2) ∧
    ∀ k u, SharingState.run plainRuntime noShares (macCalls.take k) = some u →
      u.AfpAgree plainRuntime := by
  have hrun : (SharingState.run plainRuntime noShares macCalls).any
      (fun final => final.rows.length = 2) = true := by
    decide +kernel
  obtain ⟨final, hfinal, hrows⟩ := (Option.any_eq_true _ _).mp hrun
  refine ⟨⟨final, hfinal, of_decide_eq_true hrows⟩, ?_⟩
  exact (afpAgree_iff_afpMatched rfl hfinal).mp (by decide +kernel)

def SharingState.afpClash (s : SharingState) : Bool :=
  s.rows.any fun first => s.rows.any fun second =>
    first.share.enabled && second.share.enabled &&
      overlapping (plainRuntime.resolve first.share.path)
        (plainRuntime.resolve second.share.path) &&
      first.share.afp != second.share.afp

/-- A share with AFP is made below one without it. -/
theorem legacy_over_plain :
    ∃ calls final, SharingState.run plainRuntime noShares calls = some final ∧
      ¬final.AfpAgree plainRuntime := by
  have hclash : (SharingState.run plainRuntime noShares legacyCalls).any
      SharingState.afpClash = true := by
    decide +kernel
  obtain ⟨final, hfinal, hclash⟩ := (Option.any_eq_true _ _).mp hclash
  refine ⟨legacyCalls, final, hfinal, ?_⟩
  intro hagree
  simp only [SharingState.afpClash, List.any_eq_true, Bool.and_eq_true, bne_iff_ne] at hclash
  obtain ⟨first, hfirst, second, hsecond, ⟨⟨hon, hon'⟩, hoverlap⟩, hne⟩ := hclash
  exact hne (hagree first hfirst second hsecond hon hon' hoverlap)

end Middlewared
