import Middlewared.SmbSharing

/-!
# What an accepted call does

Every accepted call stores one share, takes rows away, or changes the configuration of one
service.
-/

namespace Middlewared

open PyString List

variable {rt : SharingRuntime} {host : SharingHost} {s next : SharingState}

theorem checkVerrors_eq_ok_iff {errors : List VerrorEntry} :
    checkVerrors errors = .ok () ↔ errors = [] := by
  unfold checkVerrors
  split <;> simp [*]

namespace SharingSmb

variable {new : SmbShare} {schemaName : String} {old : Option SmbShare}

theorem validate_eq_nil (hvalidate : validate rt host s new schemaName old = .ok []) :
    homeExists s.rows new.home old = false ∧ nameErrors rt s host new schemaName = [] ∧
      validateShareName rt new.name schemaName = [] ∧
      serviceErrors host s new schemaName = [] := by
  obtain ⟨path, _, hvalidate⟩ := bind_eq_ok_iff.mp hvalidate
  obtain ⟨acl, _, hvalidate⟩ := bind_eq_ok_iff.mp hvalidate
  have hnil := Except.ok.inj hvalidate
  simp only [append_eq_nil_iff, errorIf_eq_nil_iff] at hnil
  exact ⟨hnil.1.1.1.1.1.1.1, hnil.1.1.1.1.1.1.2, hnil.1.1.2, hnil.2⟩

theorem serviceErrors_eq_nil (hnil : serviceErrors host s new schemaName = []) :
    (new.timemachine = true → new.enabled = true → s.network.serviceAnnouncement.mdns = true) ∧
      (new.audit.enable = true → s.smb.enableSmb1 = false) ∧
      (new.afp = true → s.smb.aaplExtensions = true) ∧
      (new.timemachine = true ∨ isTimeMachinePurpose new.purpose = true →
        s.smb.aaplExtensions = true) := by
  unfold serviceErrors auditErrors at hnil
  simp only [append_eq_nil_iff, errorIf_eq_nil_iff, Bool.and_eq_false_iff,
    Bool.not_eq_false', Bool.or_eq_false_iff] at hnil
  obtain ⟨⟨⟨hmdns, haudit⟩, hafp⟩, htimemachine⟩ := hnil
  refine ⟨?_, ?_, ?_, ?_⟩
  · intro hon henabled
    simpa [hon, henabled] using hmdns
  · intro hon
    rw [if_pos hon] at haudit
    simp only [append_eq_nil_iff, errorIf_eq_nil_iff] at haudit
    exact haudit.1.1
  · intro hon
    simpa [hon] using hafp
  · intro hon
    rcases htimemachine with hoff | haapl
    · rw [hoff.1, hoff.2] at hon
      simp at hon
    · exact haapl

theorem nameErrors_eq_nil_iff : nameErrors rt s host new schemaName = [] ↔
    ∀ row ∈ s.rows, row.share.id ≠ new.id →
      rt.casefold row.share.name ≠ rt.casefold new.name := by
  unfold nameErrors SharingState.query
  rw [errorIf_eq_nil_iff]
  simp only [List.any_map, List.any_eq_false, Function.comp_apply, extend, Bool.and_eq_true]
  constructor
  · intro hall row hrow hne heq
    exact hall row hrow ⟨decide_eq_true heq, decide_eq_true hne⟩
  · intro hall row hrow hboth
    exact hall row hrow (of_decide_eq_true hboth.2) (of_decide_eq_true hboth.1)

theorem homeExists_eq_false_iff {home : Bool} : homeExists s.rows home old = false ↔
    (home = true → ∀ row ∈ s.rows, row.share.home = true →
      some row.share.id = old.map SmbShare.id) := by
  unfold homeExists
  cases home <;> simp

theorem lower_notMem_of_accepted {name : String}
    (hnil : validateShareName rt name schemaName = []) :
    rt.lower name ∉ reservedShareNames := by
  unfold validateShareName at hnil
  simp only [append_eq_nil_iff, errorIf_eq_nil_iff, decide_eq_false_iff_not] at hnil
  exact hnil.1.1.1

theorem legacyAfpCheck_eq_nil
    (hnil : legacyAfpCheck rt host s new schemaName = .ok []) {row : SmbShareRow}
    (hrow : row ∈ s.rows) (hne : row.share.id ≠ new.id)
    (hafp : row.share.afp = true) (henabled : row.share.enabled = true)
    (hoff : new.afp = false) :
    overlapping (rt.resolve row.share.path) (rt.resolve new.path) = false := by
  obtain ⟨errors, herrors, hnil⟩ := bind_eq_ok_iff.mp hnil
  have hflat := Except.ok.inj hnil
  have hmem : extend host row ∈ (s.query host).filter fun share =>
      share.afp && share.enabled && decide (share.id ≠ new.id) := by
    rw [mem_filter]
    constructor
    · exact mem_map_of_mem hrow
    · simp [extend, hafp, henabled, hne]
  obtain ⟨error, herrorMem, herror⟩ := exists_mem_mapM_results herrors hmem
  have hempty : error = [] := List.flatten_eq_nil_iff.mp hflat error herrorMem
  unfold legacyAfpError at herror
  have hdiff : ¬ (extend host row).afp = new.afp := by
    rw [hoff]
    simp [extend, hafp]
  rw [if_neg hdiff] at herror
  split at herror
  · cases herror
  · rw [← Except.ok.inj herror, errorIf_eq_nil_iff] at hempty
    exact hempty

theorem compress_eq_ok {row : SmbShareRow} (hrow : compress new = .ok row) : ∃ aux, row.share =
    { new.purpose.params new with
      auxsmbconf := aux
      hostsallow := []
      hostsdeny := []
      locked := false } := by
  unfold compress at hrow
  split at hrow
  · cases hrow
  · rename_i data happly
    obtain ⟨aux, heq⟩ := exists_of_applyPresets happly
    rw [← Except.ok.inj hrow, heq]
    exact ⟨_, rfl⟩

structure SameFields (share other : SmbShare) : Prop where
  purpose : share.purpose = other.purpose
  path : share.path = other.path
  name : share.name = other.name
  enabled : share.enabled = other.enabled
  afp : share.afp = other.afp
  audit : share.audit = other.audit

theorem sameFields_params (share : SmbShare) : SameFields (share.purpose.params share) share := by
  obtain ⟨id, purpose⟩ := share
  cases purpose <;> exact ⟨rfl, rfl, rfl, rfl, rfl, rfl⟩

theorem params_id (share : SmbShare) : (share.purpose.params share).id = share.id := by
  cases share.purpose <;> rfl

theorem params_home {share : SmbShare}
    (hhome : (share.purpose.params share).home = true) : share.home = true := by
  cases hpurpose : share.purpose <;> rw [hpurpose] at hhome <;> first | exact hhome | cases hhome

theorem params_timemachine {share : SmbShare} (hon : ((share.purpose.params share).timemachine ||
      isTimeMachinePurpose share.purpose) = true) :
    share.timemachine = true ∨ isTimeMachinePurpose share.purpose = true := by
  rw [Bool.or_eq_true] at hon
  rcases hon with hon | hpurpose
  · unfold SmbSharePreset.params at hon
    cases hpurpose : share.purpose <;> rw [hpurpose] at hon <;> first
      | exact Or.inl hon
      | exact Or.inr rfl
      | cases hon
  · exact Or.inr hpurpose

/-! ## The cases of a step -/

end SharingSmb

structure Stores (rt : SharingRuntime) (host : SharingHost)
    (s next : SharingState) (new : SmbShare) (row : SmbShareRow) : Prop where
  validated : ∃ schemaName old, SharingSmb.validate rt host s new schemaName old = .ok [] ∧
      SharingSmb.legacyAfpCheck rt host s new schemaName = .ok [] ∧
      (∀ other ∈ s.rows, some other.share.id = old.map SmbShare.id →
        other.share.id = row.share.id) ∧
      ∀ other ∈ s.rows, other.share.id = new.id ↔ other.share.id = row.share.id
  fields : ∃ id aux, row.share = { new.purpose.params new with
      id
      auxsmbconf := aux
      hostsallow := []
      hostsdeny := []
      locked := false }
  rows : ∀ other, other ∈ next.rows ↔ other = row ∨ other ∈ s.rows ∧ other.share.id ≠ row.share.id
  ids : Relational.Distinct (fun row => row.share.id) s.rows →
    Relational.Distinct (fun row => row.share.id) next.rows
  smb : next.smb = s.smb
  network : next.network = s.network

theorem Stores.forall_rows {new : SmbShare} {row : SmbShareRow}
    (hstores : Stores rt host s next new row) {p : SmbShareRow → Prop}
    (hs : ∀ other ∈ s.rows, p other) (hrow : p row) : ∀ other ∈ next.rows, p other := by
  intro other hother
  rcases (hstores.rows other).mp hother with rfl | hold
  · exact hrow
  · exact hs other hold.1

theorem Stores.forall_pairs {new : SmbShare} {row : SmbShareRow}
    (hstores : Stores rt host s next new row) {r : SmbShareRow → SmbShareRow → Prop}
    (hs : ∀ first ∈ s.rows, ∀ second ∈ s.rows, r first second)
    (hsymm : ∀ first second, r first second → r second first) (hself : r row row)
    (hrow : ∀ other ∈ s.rows, other.share.id ≠ row.share.id → r other row) :
    ∀ first ∈ next.rows, ∀ second ∈ next.rows, r first second := by
  intro first hfirst second hsecond
  rcases (hstores.rows first).mp hfirst with rfl | ⟨hfirst, hfirstNe⟩ <;>
    rcases (hstores.rows second).mp hsecond with rfl | ⟨hsecond, hsecondNe⟩
  · exact hself
  · exact hsymm _ _ (hrow second hsecond hsecondNe)
  · exact hrow first hfirst hfirstNe
  · exact hs first hfirst second hsecond

def SharingCall.newShare (host : SharingHost) (s : SharingState) :
    SharingCall → Option SmbShare
  | .create _ data => (smbShareCreate data).toOption
  | .update id data =>
    ((s.getInstance host id).toOption).map fun old => old.update data
  | .delete _ | .smbUpdate _ | .networkUpdate _ => none

theorem SharingCall.forall_newShare_of_eq_none {call : SharingCall}
    {p : SmbShare → Prop} (hnone : call.newShare host s = none) :
    ∀ new ∈ call.newShare host s, p new := by
  rw [hnone]
  intro new hnew
  exact absurd hnew (Option.not_mem_none new)

variable {id : ℕ}

theorem SharingState.find_of_getInstance {old : SmbShare} (hold : s.getInstance host id = .ok old) :
    ∃ row ∈ s.rows, row.share.id = id ∧ old = SharingSmb.extend host row := by
  unfold SharingState.getInstance at hold
  split at hold
  · cases hold
  · rename_i row hfind
    refine ⟨row, mem_of_find?_eq_some hfind, ?_, (Except.ok.inj hold).symm⟩
    simpa using find?_some hfind

variable {data : SmbShareUpdate}

theorem smbShareCreate_id {new : SmbShare} (hnew : smbShareCreate data = .ok new) : new.id = 0 := by
  unfold smbShareCreate at hnew
  split at hnew
  · rw [← Except.ok.inj hnew]
    rfl
  · cases hnew
  · cases hnew

/-- A share that `do_create` has let through. -/
structure Creates (rt : SharingRuntime) (host : SharingHost) (s next : SharingState)
    (id : ℕ) (new : SmbShare) (compressed : SmbShareRow) : Prop where
  validated : SharingSmb.validate rt host s new "sharingsmb_create" none = .ok []
  afp : SharingSmb.legacyAfpCheck rt host s new "sharingsmb_create" = .ok []
  compress : SharingSmb.compress new = .ok compressed
  id_ne : id ≠ 0
  fresh : ∀ row ∈ s.rows, row.share.id ≠ id
  eq : next = { s with
    rows := s.rows ++ [{ compressed with share := { compressed.share with id } }] }

theorem SharingSmb.doCreate_creates (hcreate : SharingSmb.doCreate rt host s id data = .ok next) :
    ∃ new compressed, smbShareCreate data = .ok new ∧
      Creates rt host s next id new compressed := by
  obtain ⟨new, hnew, hcreate⟩ := bind_eq_ok_iff.mp hcreate
  obtain ⟨errors, hvalidate, hcreate⟩ := bind_eq_ok_iff.mp hcreate
  obtain ⟨afp, hafp, hcreate⟩ := bind_eq_ok_iff.mp hcreate
  obtain ⟨_, hcheck, hcreate⟩ := bind_eq_ok_iff.mp hcreate
  obtain ⟨compressed, hcompress, hcreate⟩ := bind_eq_ok_iff.mp hcreate
  obtain ⟨_, hid, hcreate⟩ := bind_eq_ok_iff.mp hcreate
  obtain ⟨_, _, hcreate⟩ := bind_eq_ok_iff.mp hcreate
  rw [checkVerrors_eq_ok_iff] at hcheck
  simp only [append_eq_nil_iff] at hcheck
  rw [hcheck.1.2] at hvalidate
  rw [hcheck.2] at hafp
  unfold newId at hid
  split at hid
  · cases hid
  · rename_i hfresh
    simp only [Bool.or_eq_true, decide_eq_true_eq, any_eq_true,
      not_or, not_exists, not_and] at hfresh
    exact ⟨new, compressed, hnew, hvalidate, hafp, hcompress, hfresh.1, hfresh.2,
      (Except.ok.inj hcreate).symm⟩

theorem SharingSmb.doCreate_eq_ok (hids : ∀ row ∈ s.rows, row.share.id ≠ 0)
    (hcreate : SharingSmb.doCreate rt host s id data = .ok next) :
    ∃ new row, smbShareCreate data = .ok new ∧ row.share.id ≠ 0 ∧
      Stores rt host s next new row := by
  obtain ⟨new, compressed, hnew, hcreates⟩ := doCreate_creates hcreate
  obtain ⟨aux, hshare⟩ := compress_eq_ok hcreates.compress
  rw [hcreates.eq]
  refine ⟨new, { compressed with share := { compressed.share with id } }, hnew,
    hcreates.id_ne, ?_, ⟨id, aux, ?_⟩, ?_, ?_, ?_, ?_⟩
  · refine ⟨_, none, hcreates.validated, hcreates.afp, ?_, ?_⟩
    · intro other _ hnone
      cases hnone
    · intro other hother
      rw [smbShareCreate_id hnew]
      exact iff_of_false (hids other hother) (hcreates.fresh other hother)
  · simp only [hshare]
  · intro other
    simp only [mem_append, mem_singleton]
    constructor
    · intro hother
      rcases hother with hold | hrow
      · exact Or.inr ⟨hold, hcreates.fresh other hold⟩
      · exact Or.inl hrow
    · intro hother
      rcases hother with hrow | hold
      · exact Or.inr hrow
      · exact Or.inl hold.1
  · intro hdistinct
    apply Relational.distinct_concat hdistinct
    intro hmem
    obtain ⟨other, hother, heq⟩ := mem_map.mp hmem
    exact hcreates.fresh other hother heq
  · rfl
  · rfl

theorem SharingSmb.doUpdate_eq_ok (hupdate : SharingSmb.doUpdate rt host s id data = .ok next) :
    ∃ old row, s.getInstance host id = .ok old ∧
      (∃ before ∈ s.rows, before.share.id = row.share.id) ∧
      Stores rt host s next (old.update data) row := by
  obtain ⟨old, hold, hupdate⟩ := bind_eq_ok_iff.mp hupdate
  obtain ⟨errors, hvalidate, hupdate⟩ := bind_eq_ok_iff.mp hupdate
  obtain ⟨afp, hafp, hupdate⟩ := bind_eq_ok_iff.mp hupdate
  obtain ⟨_, hcheck, hupdate⟩ := bind_eq_ok_iff.mp hupdate
  obtain ⟨compressed, hcompress, hupdate⟩ := bind_eq_ok_iff.mp hupdate
  obtain ⟨_, _, hupdate⟩ := bind_eq_ok_iff.mp hupdate
  rw [checkVerrors_eq_ok_iff] at hcheck
  simp only [append_eq_nil_iff] at hcheck
  rw [hcheck.1.1] at hvalidate
  rw [hcheck.1.2] at hafp
  obtain ⟨before, hbefore, hid, heq⟩ := SharingState.find_of_getInstance hold
  obtain ⟨aux, hshare⟩ := compress_eq_ok hcompress
  have holdId : old.id = id := by
    rw [heq, ← hid]
    rfl
  have hnewId : compressed.share.id = id := by
    rw [hshare, ← holdId]
    exact params_id (old.update data)
  refine ⟨old, compressed, hold, ⟨before, hbefore, hid.trans hnewId.symm⟩, ?_,
    ⟨id, aux, ?_⟩, ?_, ?_, ?_, ?_⟩
  · refine ⟨_, some old, hvalidate, hafp, ?_, ?_⟩
    · intro other _ hsame
      rw [hnewId, ← holdId]
      exact Option.some.inj hsame
    · intro other _
      rw [hnewId, ← holdId]
      exact Iff.rfl
  · rw [← hnewId, hshare]
  · intro other
    rw [← Except.ok.inj hupdate, hnewId]
    simp only [mem_map]
    constructor
    · rintro ⟨row, hrow, rfl⟩
      split
      · exact Or.inl rfl
      · rename_i hne
        exact Or.inr ⟨hrow, hne⟩
    · intro hother
      rcases hother with rfl | ⟨hother, hne⟩
      · exact ⟨before, hbefore, if_pos hid⟩
      · exact ⟨other, hother, if_neg hne⟩
  · intro hdistinct
    rw [← Except.ok.inj hupdate]
    apply hdistinct.map
    intro other
    split
    · rename_i heq
      rw [hnewId, heq]
    · rfl
  · rw [← Except.ok.inj hupdate]
  · rw [← Except.ok.inj hupdate]

theorem SharingSmb.doDelete_eq_ok (hdelete : SharingSmb.doDelete host s id = .ok next) :
    next = { s with rows := s.rows.filter fun row => row.share.id ≠ id } := by
  obtain ⟨_, _, hdelete⟩ := bind_eq_ok_iff.mp hdelete
  exact (Except.ok.inj hdelete).symm

theorem SmbService.doUpdate_eq_ok {data : SmbServiceUpdate}
    (hupdate : SmbService.doUpdate rt host s data = .ok next) :
    ∃ smb, next = { s with smb } ∧ (smb.aaplExtensions = false → ∀ share ∈ s.query host,
        share.afp = false ∧ share.timemachine = false) ∧
      (smb.enableSmb1 = true → ∀ share ∈ s.query host, share.audit.enable = false) := by
  obtain ⟨_, hcheck, hupdate⟩ := bind_eq_ok_iff.mp hupdate
  rw [checkVerrors_eq_ok_iff] at hcheck
  simp only [validateSmb, append_eq_nil_iff] at hcheck
  have hshares := hcheck.2.2
  simp only [shareErrors, append_eq_nil_iff, errorIf_eq_nil_iff] at hshares
  refine ⟨_, (Except.ok.inj hupdate).symm, ?_, ?_⟩
  · intro hoff share hshare
    change (s.smb.update data).aaplExtensions = false at hoff
    rw [hoff, Bool.not_false, Bool.true_and, List.any_eq_false] at hshares
    simpa using hshares.1 share hshare
  · intro hon share hshare
    change (s.smb.update data).enableSmb1 = true at hon
    by_contra haudit
    rw [Bool.not_eq_false] at haudit
    have hmem : share ∈ (s.query host).filter fun share => share.audit.enable :=
      List.mem_filter.mpr ⟨hshare, haudit⟩
    rw [hon, Bool.true_and, decide_eq_false_iff_not, not_not] at hshares
    rw [hshares.2] at hmem
    cases hmem

theorem NetworkConfiguration.doUpdate_eq_ok {data : GlobalConfigurationUpdate}
    (hupdate : NetworkConfiguration.doUpdate host s data = .ok next) :
    next = s ∨ ∃ network, next = { s with network } ∧
      (network.serviceAnnouncement.mdns = false → ∀ share ∈ s.query host,
        share.timemachine = true → share.enabled = false) := by
  unfold NetworkConfiguration.doUpdate at hupdate
  simp only at hupdate
  split at hupdate
  · exact Or.inl (Except.ok.inj hupdate).symm
  · obtain ⟨_, hcheck, hupdate⟩ := bind_eq_ok_iff.mp hupdate
    rw [checkVerrors_eq_ok_iff] at hcheck
    simp only [append_eq_nil_iff, errorIf_eq_nil_iff] at hcheck
    refine Or.inr ⟨_, (Except.ok.inj hupdate).symm, ?_⟩
    intro hoff share hshare hon
    change (update s.network data).serviceAnnouncement.mdns = false at hoff
    rw [hoff, Bool.not_false, Bool.true_and, List.any_eq_false] at hcheck
    simpa [hon] using hcheck.1.2 share hshare

inductive StepCase (rt : SharingRuntime) (host : SharingHost)
    (s next : SharingState) (call : SharingCall) : Prop
  | stores (new : SmbShare) (row : SmbShareRow) (hnew : call.newShare host s = some new)
      (hid : row.share.id ≠ 0) (hstores : Stores rt host s next new row)
  | removes (hrows : next.rows.Sublist s.rows) (hsmb : next.smb = s.smb)
      (hnetwork : next.network = s.network)
      (hnew : call.newShare host s = none)
  | smb (smb : SmbServiceConfig) (hnext : next = { s with smb })
      (haapl : smb.aaplExtensions = false → ∀ share ∈ s.query host,
        share.afp = false ∧ share.timemachine = false)
      (hsmb1 : smb.enableSmb1 = true → ∀ share ∈ s.query host, share.audit.enable = false)
      (hnew : call.newShare host s = none)
  | network (network : GlobalConfiguration) (hnext : next = { s with network })
      (hmdns : network.serviceAnnouncement.mdns = false →
        ∀ share ∈ s.query host, share.timemachine = true → share.enabled = false)
      (hnew : call.newShare host s = none)

theorem SharingState.step_cases {call : SharingHost × SharingCall}
    (hids : ∀ row ∈ s.rows, row.share.id ≠ 0)
    (hstep : SharingState.step rt s call = some next) :
    StepCase rt call.1 s next call.2 := by
  obtain ⟨host, call⟩ := call
  have hperform := toOption_eq_some_iff.mp hstep
  cases call with
  | create id data =>
    obtain ⟨new, row, hnew, hid, hstores⟩ := SharingSmb.doCreate_eq_ok hids hperform
    exact StepCase.stores new row (congrArg Except.toOption hnew) hid hstores
  | update id data =>
    obtain ⟨old, row, hold, ⟨before, hbefore, hsame⟩, hstores⟩ := SharingSmb.doUpdate_eq_ok hperform
    have hnew := congrArg (fun found : Except SharingError SmbShare =>
      found.toOption.map fun old => old.update data) hold
    exact StepCase.stores (old.update data) row hnew (hsame ▸ hids before hbefore) hstores
  | delete id =>
    have hnext := SharingSmb.doDelete_eq_ok hperform
    rw [hnext]
    exact StepCase.removes filter_sublist rfl rfl rfl
  | smbUpdate data =>
    obtain ⟨smb, hnext, haapl, hsmb1⟩ := SmbService.doUpdate_eq_ok hperform
    exact StepCase.smb smb hnext haapl hsmb1 rfl
  | networkUpdate data =>
    rcases NetworkConfiguration.doUpdate_eq_ok hperform with
      hsame | ⟨network, hnext, hmdns⟩
    · rw [hsame]
      exact StepCase.removes (List.Sublist.refl _) rfl rfl rfl
    · exact StepCase.network network hnext hmdns rfl

def SharingState.PositiveIds (s : SharingState) : Prop :=
  ∀ row ∈ s.rows, row.share.id ≠ 0

theorem SharingState.PositiveIds.step {call : SharingHost × SharingCall}
    (hids : s.PositiveIds) (hstep : SharingState.step rt s call = some next) :
    next.PositiveIds := by
  cases SharingState.step_cases hids hstep with
  | stores new row _ hid hstores => exact hstores.forall_rows hids hid
  | removes hrows _ _ _ =>
    intro other hother
    exact hids other (hrows.subset hother)
  | smb smb hnext _ _ _ =>
    rw [hnext]
    exact hids
  | network network hnext _ _ =>
    rw [hnext]
    exact hids

end Middlewared
