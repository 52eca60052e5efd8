import Middlewared.AsciiCase
import Middlewared.SmbSharingStep

/-!
# A section for every share

A home share has the section `homes` and every other share one of its own name.
-/

namespace Middlewared

open SharingSmb

variable {rt : SharingRuntime} {s next : SharingState}

def SmbShareRow.foldedSection (rt : SharingRuntime) (row : SmbShareRow) :
    String :=
  rt.casefold (shareSectionName row.share)

/-- `casefold` leaves text in small letters of ASCII as it is. -/
def FoldsLower (rt : SharingRuntime) : Prop :=
  ∀ text, (text.toList.all Char.isLower) = true → rt.casefold text = text

/-- Every share has a section of its own, which is not one that Samba has
anyway, and only one is a home share. -/
structure OwnSections (rt : SharingRuntime) (s : SharingState) : Prop where
  injective : Relational.Distinct (SmbShareRow.foldedSection rt) s.rows
  notReserved : ∀ row ∈ s.rows, ∀ reserved ∈ ["global", "printers"],
    row.foldedSection rt ≠ rt.casefold reserved
  home : ∀ first ∈ s.rows, ∀ second ∈ s.rows, first.share.home = true →
    second.share.home = true → first.share.id = second.share.id

/-- A name that is a reserved one up to `casefold` is so up to `lower`. -/
def CasesAgree (rt : SharingRuntime) (s : SharingState)
    (call : SharingHost × SharingCall) : Prop :=
  ∀ new ∈ call.2.newShare call.1 s, rt.casefold new.name ∈ reservedShareNames.map rt.casefold →
      rt.lower new.name ∈ reservedShareNames

instance (rt : SharingRuntime) (s : SharingState)
    (call : SharingHost × SharingCall) : Decidable (CasesAgree rt s call) := by
  unfold CasesAgree
  infer_instance

/-- Neither two shares of one name nor two home shares. -/
structure DistinctShares (rt : SharingRuntime) (s : SharingState) : Prop where
  positive : s.PositiveIds
  ids : Relational.Distinct (fun row => row.share.id) s.rows
  names : ∀ first ∈ s.rows, ∀ second ∈ s.rows,
    rt.casefold first.share.name = rt.casefold second.share.name → first.share.id = second.share.id
  home : ∀ first ∈ s.rows, ∀ second ∈ s.rows, first.share.home = true →
    second.share.home = true → first.share.id = second.share.id

theorem DistinctShares.mono (hinv : DistinctShares rt s)
    (hrows : next.rows.Sublist s.rows) : DistinctShares rt next where
  positive := fun row hrow => hinv.positive row (hrows.subset hrow)
  ids := hinv.ids.sublist hrows
  names := fun first hfirst second hsecond =>
    hinv.names first (hrows.subset hfirst) second (hrows.subset hsecond)
  home := fun first hfirst second hsecond =>
    hinv.home first (hrows.subset hfirst) second (hrows.subset hsecond)

structure SectionInvariant (rt : SharingRuntime) (s : SharingState) : Prop
    extends DistinctShares rt s where
  notReserved : ∀ row ∈ s.rows, rt.casefold row.share.name ∉ reservedShareNames.map rt.casefold

namespace Stores

variable {host : SharingHost} {new : SmbShare} {row : SmbShareRow}

theorem row_name (hstores : Stores rt host s next new row) : row.share.name = new.name := by
  obtain ⟨id, aux, hrow⟩ := hstores.fields
  rw [hrow]
  exact (sameFields_params new).name

theorem row_home (hstores : Stores rt host s next new row)
    (hhome : row.share.home = true) : new.home = true := by
  obtain ⟨id, aux, hrow⟩ := hstores.fields
  rw [hrow] at hhome
  exact params_home hhome

theorem name_ne (hstores : Stores rt host s next new row) {other : SmbShareRow}
    (hother : other ∈ s.rows) (hne : other.share.id ≠ row.share.id) :
    rt.casefold other.share.name ≠ rt.casefold row.share.name := by
  obtain ⟨schemaName, old, hvalidate, _, _, hids⟩ := hstores.validated
  have hnames := nameErrors_eq_nil_iff.mp (validate_eq_nil hvalidate).2.1
  rw [hstores.row_name]
  exact hnames other hother (mt (hids other hother).mp hne)

theorem home_ne (hstores : Stores rt host s next new row)
    (hhome : row.share.home = true) {other : SmbShareRow}
    (hother : other ∈ s.rows) (hne : other.share.id ≠ row.share.id) :
    other.share.home ≠ true := by
  obtain ⟨schemaName, old, hvalidate, _, hold, _⟩ := hstores.validated
  have hexists := homeExists_eq_false_iff.mp (validate_eq_nil hvalidate).1
  intro honother
  exact hne (hold other hother (hexists (hstores.row_home hhome) other hother honother))

theorem distinctShares (hstores : Stores rt host s next new row)
    (hinv : DistinctShares rt s) (hid : row.share.id ≠ 0) : DistinctShares rt next where
  positive := hstores.forall_rows hinv.positive hid
  ids := hstores.ids hinv.ids
  names := by
    apply hstores.forall_pairs hinv.names
    · exact fun _ _ hsame heq => (hsame heq.symm).symm
    · exact fun _ => rfl
    · exact fun other hother hne heq => absurd heq (hstores.name_ne hother hne)
  home := by
    apply hstores.forall_pairs hinv.home
    · exact fun _ _ hsame hsecond hfirst => (hsame hfirst hsecond).symm
    · exact fun _ _ => rfl
    · exact fun other hother hne hon hhome => absurd hon (hstores.home_ne hhome hother hne)

theorem sectionInvariant (hstores : Stores rt host s next new row)
    (hinv : SectionInvariant rt s) (hid : row.share.id ≠ 0)
    (hcases : rt.casefold new.name ∈ reservedShareNames.map rt.casefold →
      rt.lower new.name ∈ reservedShareNames) :
    SectionInvariant rt next where
  toDistinctShares := hstores.distinctShares hinv.toDistinctShares hid
  notReserved := by
    apply hstores.forall_rows hinv.notReserved
    obtain ⟨schemaName, old, hvalidate, _⟩ := hstores.validated
    rw [hstores.row_name]
    exact mt hcases (lower_notMem_of_accepted (validate_eq_nil hvalidate).2.2.1)

end Stores

namespace SectionInvariant

theorem mono (hinv : SectionInvariant rt s)
    (hrows : next.rows.Sublist s.rows) : SectionInvariant rt next where
  toDistinctShares := hinv.toDistinctShares.mono hrows
  notReserved := fun row hrow => hinv.notReserved row (hrows.subset hrow)

theorem step {call : SharingHost × SharingCall} (hinv : SectionInvariant rt s)
    (hcases : CasesAgree rt s call)
    (hstep : SharingState.step rt s call = some next) :
    SectionInvariant rt next := by
  cases SharingState.step_cases hinv.positive hstep with
  | stores new row hnew hid hstores =>
    exact hstores.sectionInvariant hinv hid (hcases new hnew)
  | removes hrows _ _ _ => exact hinv.mono hrows
  | smb smb hnext _ _ _ =>
    rw [hnext]
    exact hinv.mono (List.Sublist.refl _)
  | network network hnext _ _ =>
    rw [hnext]
    exact hinv.mono (List.Sublist.refl _)

theorem ownSections (hinv : SectionInvariant rt s) (hfold : FoldsLower rt) : OwnSections rt s := by
  have hreserved : ∀ row ∈ s.rows, ∀ name ∈ reservedShareNames,
      rt.casefold row.share.name ≠ rt.casefold name := by
    intro row hrow name hname heq
    exact hinv.notReserved row hrow (List.mem_map.mpr ⟨name, hname, heq.symm⟩)
  have hhomes : "homes" ∈ reservedShareNames := by decide
  constructor
  · apply hinv.ids.of_key
    intro first hfirst second hsecond heq
    unfold SmbShareRow.foldedSection shareSectionName at heq
    cases hfirstHome : first.share.home <;> cases hsecondHome : second.share.home <;>
      simp only [hfirstHome, hsecondHome, if_true, if_false, Bool.false_eq_true] at heq
    · exact hinv.names first hfirst second hsecond heq
    · exact absurd heq (hreserved first hfirst _ hhomes)
    · exact absurd heq.symm (hreserved second hsecond _ hhomes)
    · exact hinv.home first hfirst second hsecond hfirstHome hsecondHome
  · intro row hrow name hname
    unfold SmbShareRow.foldedSection shareSectionName
    cases hhome : row.share.home with
    | false =>
      have hmem : name ∈ reservedShareNames := by
        revert name
        decide
      simpa [hhome] using hreserved row hrow name hmem
    | true =>
      rw [if_pos rfl, hfold "homes" (by decide)]
      simp only [List.mem_cons, List.not_mem_nil, or_false] at hname
      rcases hname with rfl | rfl
      · rw [hfold "global" (by decide)]
        decide
      · rw [hfold "printers" (by decide)]
        decide
  · exact hinv.home

end SectionInvariant

/-- Shares have sections of their own in every run in which no name is a
reserved one in a case that `lower` does not know. -/
theorem ownSections_of_casesAgree {start final : SharingState}
    {calls : List (SharingHost × SharingCall)} (hfold : FoldsLower rt)
    (hstart : start.rows = [])
    (hrun : SharingState.run rt start calls = some final)
    (hcases : TransitionSystem.EveryStep (SharingState.step rt) (CasesAgree rt)
      start calls) : OwnSections rt final := by
  have hinv : SectionInvariant rt start := by
    refine ⟨⟨?_, ?_, ?_, ?_⟩, ?_⟩ <;>
      simp [SharingState.PositiveIds, Relational.Distinct, hstart]
  have hfinal := TransitionSystem.run_invariant_of_everyStep
    (fun s call next hs hguard hstep => SectionInvariant.step hs hguard hstep)
    hinv hcases hrun
  exact hfinal.ownSections hfold

theorem toLower_of_isLower {c : Char} (hc : c.isLower = true) : c.toLower = c := by
  rw [AsciiCase.isLower_iff] at hc
  rw [← Char.toNat_inj, AsciiCase.toNat_toLower, if_neg (by omega)]

theorem foldsLower_plainRuntime : FoldsLower plainRuntime := by
  intro text hlower
  have hsame : text.toList.map (fun c => if c = 'ſ' then 's' else c.toLower) = text.toList := by
    conv_rhs => rw [← List.map_id text.toList]
    apply List.map_congr_left
    intro c hc
    have hc := List.all_eq_true.mp hlower c hc
    have hne : c ≠ 'ſ' := by
      rintro rfl
      exact absurd hc (by decide)
    rw [if_neg hne, toLower_of_isLower hc]
    rfl
  unfold plainRuntime
  simp only [hsame, String.ofList_toList]

def homeCalls (name : String) : List (SharingHost × SharingCall) :=
  [(plainHost, .create 1
      { purpose := some .noPreset
        path := some "/mnt/tank/home"
        name := some "users"
        home := some true }),
    (plainHost, .create 2
      { path := some "/mnt/tank/data", name := some name })]

theorem ownSections_homeCalls :
    (SharingState.run plainRuntime noShares (homeCalls "data")).any
        (fun final => final.rows.length = 2) = true ∧
      ∃ final, SharingState.run plainRuntime noShares (homeCalls "data") =
        some final ∧ OwnSections plainRuntime final := by
  have hany : (SharingState.run plainRuntime noShares (homeCalls "data")).any
      (fun final => final.rows.length = 2) = true := by
    decide +kernel
  obtain ⟨final, hfinal, _⟩ := (Option.any_eq_true _ _).mp hany
  have hcases : TransitionSystem.EveryStep (SharingState.step plainRuntime)
      (CasesAgree plainRuntime) noShares (homeCalls "data") := by
    decide +kernel
  exact ⟨hany, final, hfinal, ownSections_of_casesAgree foldsLower_plainRuntime
    rfl hfinal hcases⟩

/-- A share whose name folds to that of the section of the home share. -/
theorem second_homes :
    ∃ calls final, SharingState.run plainRuntime noShares calls = some final ∧
      ¬OwnSections plainRuntime final := by
  have hclash : (SharingState.run plainRuntime noShares
      (homeCalls "homeſ")).any (fun final =>
        decide ¬(final.rows.map
          (SmbShareRow.foldedSection plainRuntime)).Nodup) = true := by
    decide +kernel
  obtain ⟨final, hfinal, hclash⟩ := (Option.any_eq_true _ _).mp hclash
  refine ⟨_, final, hfinal, ?_⟩
  intro hown
  exact of_decide_eq_true hclash hown.injective

end Middlewared
