import Middlewared.SmbSharingStep

/-!
# Shares and service configurations

Auditing excludes SMB1, Apple shares need the Apple extensions, and a time machine target has to
be announced.
-/

namespace Middlewared

variable {rt : SharingRuntime} {host : SharingHost} {s next : SharingState}

structure Agrees (smb : SmbServiceConfig) (network : GlobalConfiguration)
    (share : SmbShare) : Prop where
  audit : share.audit.enable = true → smb.enableSmb1 = false
  aapl : share.afp = true ∨ share.timemachine = true → smb.aaplExtensions = true
  mdns : share.enabled = true → share.timemachine = true → network.serviceAnnouncement.mdns = true

def SharingState.Consistent (s : SharingState) : Prop :=
  ∀ host, ∀ share ∈ s.query host, Agrees s.smb s.network share

/-- An enabled share with one of the purposes for time machines is itself marked
as one, or else mDNS is on. -/
def MarksTimeMachine (s : SharingState) (call : SharingHost × SharingCall) :
    Prop :=
  ∀ new ∈ call.2.newShare call.1 s, new.enabled = true →
    SharingSmb.isTimeMachinePurpose new.purpose = true →
      new.timemachine = true ∨ s.network.serviceAnnouncement.mdns = true

instance (s : SharingState) (call : SharingHost × SharingCall) :
    Decidable (MarksTimeMachine s call) := by
  unfold MarksTimeMachine
  infer_instance

theorem mem_query_iff {share : SmbShare} : share ∈ s.query host ↔
    ∃ row ∈ s.rows, SharingSmb.extend host row = share :=
  List.mem_map

theorem Agrees.extend {smb : SmbServiceConfig} {network : GlobalConfiguration}
    {row : SmbShareRow} (hrow : Agrees smb network (SharingSmb.extend host row))
    (other : SharingHost) : Agrees smb network (SharingSmb.extend other row) :=
  ⟨hrow.audit, hrow.aapl, hrow.mdns⟩

theorem consistent_iff_query (host : SharingHost) : s.Consistent ↔
    ∀ row ∈ s.rows, Agrees s.smb s.network (SharingSmb.extend host row) := by
  constructor
  · intro hs row hrow
    exact hs host _ (mem_query_iff.mpr ⟨row, hrow, rfl⟩)
  · intro hrows other share hshare
    obtain ⟨row, hrow, heq⟩ := mem_query_iff.mp hshare
    rw [← heq]
    exact (hrows row hrow).extend other

namespace Stores

variable {new : SmbShare} {row : SmbShareRow}

variable (hstores : Stores rt host s next new row)

include hstores

theorem extend_fields : SharingSmb.SameFields (SharingSmb.extend host row) new ∧
    (SharingSmb.extend host row).timemachine = ((new.purpose.params new).timemachine ||
        SharingSmb.isTimeMachinePurpose new.purpose) := by
  obtain ⟨id, aux, hrow⟩ := hstores.fields
  have hsame := SharingSmb.sameFields_params new
  unfold SharingSmb.extend
  rw [hrow]
  refine ⟨⟨?_, ?_, ?_, ?_, ?_, ?_⟩, ?_⟩
  · exact hsame.purpose
  · exact hsame.path
  · exact hsame.name
  · exact hsame.enabled
  · exact hsame.afp
  · exact hsame.audit
  · simp only [hsame.purpose]

theorem extend_timemachine (hon : (SharingSmb.extend host row).timemachine = true) :
    new.timemachine = true ∨ SharingSmb.isTimeMachinePurpose new.purpose = true := by
  rw [hstores.extend_fields.2] at hon
  exact SharingSmb.params_timemachine hon

theorem agrees_iff : Agrees next.smb next.network (SharingSmb.extend host row) ↔
    (new.enabled = true → SharingSmb.isTimeMachinePurpose new.purpose = true →
      new.timemachine = true ∨ s.network.serviceAnnouncement.mdns = true) := by
  obtain ⟨schemaName, old, hvalidate, _⟩ := hstores.validated
  obtain ⟨hmdns, haudit, hafp, haapl⟩ := SharingSmb.serviceErrors_eq_nil
    (SharingSmb.validate_eq_nil hvalidate).2.2.2
  obtain ⟨hsame, htimemachine⟩ := hstores.extend_fields
  rw [hstores.smb, hstores.network]
  constructor
  · intro hagrees henabled hpurpose
    right
    apply hagrees.mdns
    · rw [hsame.enabled]
      exact henabled
    · rw [htimemachine, hpurpose, Bool.or_true]
  · intro hmarked
    constructor
    · intro hon
      rw [hsame.audit] at hon
      exact haudit hon
    · intro hon
      rcases hon with hon | hon
      · rw [hsame.afp] at hon
        exact hafp hon
      · exact haapl (hstores.extend_timemachine hon)
    · intro henabled hon
      rw [hsame.enabled] at henabled
      rcases hstores.extend_timemachine hon with hflag | hpurpose
      · exact hmdns hflag henabled
      · rcases hmarked henabled hpurpose with hflag | hannounced
        · exact hmdns hflag henabled
        · exact hannounced

end Stores

theorem SharingState.Consistent.step_iff {call : SharingHost × SharingCall}
    (hids : s.PositiveIds) (hs : s.Consistent)
    (hstep : SharingState.step rt s call = some next) :
    next.Consistent ↔ MarksTimeMachine s call := by
  rw [consistent_iff_query call.1] at hs ⊢
  cases SharingState.step_cases hids hstep with
  | stores new row hnew _ hstores =>
    have hguard : MarksTimeMachine s call ↔ (new.enabled = true →
        SharingSmb.isTimeMachinePurpose new.purpose = true → new.timemachine = true ∨
            s.network.serviceAnnouncement.mdns = true) := by
      unfold MarksTimeMachine
      rw [hnew]
      simp
    rw [hguard, ← hstores.agrees_iff]
    constructor
    · intro hall
      exact hall row ((hstores.rows row).mpr (Or.inl rfl))
    · rw [hstores.smb, hstores.network]
      exact hstores.forall_rows hs
  | removes hrows hsmb hnetwork hnew =>
    refine iff_of_true ?_ (SharingCall.forall_newShare_of_eq_none hnew)
    intro row hrow
    rw [hsmb, hnetwork]
    exact hs row (hrows.subset hrow)
  | smb smb hnext haapl hsmb1 hnew =>
    refine iff_of_true ?_ (SharingCall.forall_newShare_of_eq_none hnew)
    rw [hnext]
    intro row hrow
    have hold := hs row hrow
    have hquery : SharingSmb.extend call.1 row ∈ s.query call.1 := List.mem_map_of_mem hrow
    constructor
    · intro hon
      by_contra hsmb
      rw [Bool.not_eq_false] at hsmb
      rw [hsmb1 hsmb _ hquery] at hon
      cases hon
    · intro hon
      by_contra hoff
      rw [Bool.not_eq_true] at hoff
      obtain ⟨hafp, htimemachine⟩ := haapl hoff _ hquery
      rw [hafp, htimemachine] at hon
      simp at hon
    · exact hold.mdns
  | network network hnext hmdns hnew =>
    refine iff_of_true ?_ (SharingCall.forall_newShare_of_eq_none hnew)
    rw [hnext]
    intro row hrow
    have hold := hs row hrow
    have hquery : SharingSmb.extend call.1 row ∈ s.query call.1 := List.mem_map_of_mem hrow
    refine ⟨hold.audit, hold.aapl, ?_⟩
    intro henabled hon
    by_contra hoff
    rw [Bool.not_eq_true] at hoff
    rw [hmdns hoff _ hquery hon] at henabled
    cases henabled

/-- Every configuration on the way is consistent exactly if every call marks the
time machine targets that it stores. -/
theorem consistent_iff_marksTimeMachine {start final : SharingState}
    {calls : List (SharingHost × SharingCall)} (hstart : start.rows = [])
    (hrun : SharingState.run rt start calls = some final) :
    TransitionSystem.EveryStep (SharingState.step rt) MarksTimeMachine start calls ↔
      ∀ k u, SharingState.run rt start (calls.take k) = some u → u.Consistent := by
  apply TransitionSystem.everyStep_iff_forall_take SharingState.PositiveIds
    (fun s call next hids hstep => hids.step hstep)
    (fun s call next hids hs hstep => hs.step_iff hids hstep) ?_ ?_ hrun
  · intro row hrow
    rw [hstart] at hrow
    cases hrow
  · intro host share hshare
    rw [SharingState.query, hstart] at hshare
    cases hshare

def timeMachineCalls : List (SharingHost × SharingCall) :=
  [(plainHost, .networkUpdate { serviceAnnouncement := { mdns := some false } }),
    (plainHost, .create 1
      { purpose := some .timemachine, path := some "/mnt/tank/backup", name := some "backup" })]

/-- Both shares are made while mDNS is on. -/
def announcedCalls : List (SharingHost × SharingCall) :=
  [(plainHost, .create 1
      { purpose := some .timemachine, path := some "/mnt/tank/backup", name := some "backup" }),
    (plainHost, .create 2 { path := some "/mnt/tank/data", name := some "data" })]

theorem consistent_announcedCalls :
    (∃ final, SharingState.run plainRuntime noShares announcedCalls = some final ∧
      final.rows.length = 2) ∧
    ∀ k u, SharingState.run plainRuntime noShares (announcedCalls.take k) = some u →
      u.Consistent := by
  have hrun : (SharingState.run plainRuntime noShares announcedCalls).any
      (fun final => final.rows.length = 2) = true := by
    decide +kernel
  obtain ⟨final, hfinal, hrows⟩ := (Option.any_eq_true _ _).mp hrun
  refine ⟨⟨final, hfinal, of_decide_eq_true hrows⟩, ?_⟩
  exact (consistent_iff_marksTimeMachine rfl hfinal).mp (by decide +kernel)

def SharingState.hidesTimeMachine (s : SharingState) : Bool :=
  !s.network.serviceAnnouncement.mdns &&
    (s.query plainHost).any fun share => share.enabled && share.timemachine

/-- The purpose turns Time Machine on after the check for mDNS. -/
theorem timeMachine_hidden :
    ∃ calls final, SharingState.run plainRuntime noShares calls = some final ∧
      ¬final.Consistent := by
  have hhidden : (SharingState.run plainRuntime noShares timeMachineCalls).any
      SharingState.hidesTimeMachine = true := by
    decide +kernel
  obtain ⟨final, hfinal, hhidden⟩ := (Option.any_eq_true _ _).mp hhidden
  refine ⟨timeMachineCalls, final, hfinal, ?_⟩
  intro hconsistent
  simp only [SharingState.hidesTimeMachine, Bool.and_eq_true,
    Bool.not_eq_true', List.any_eq_true] at hhidden
  obtain ⟨hoff, share, hshare, henabled, hon⟩ := hhidden
  have hmdns := (hconsistent plainHost share hshare).mdns henabled hon
  rw [hoff] at hmdns
  cases hmdns

end Middlewared
