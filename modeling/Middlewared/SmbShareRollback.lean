import Middlewared.ShareSec
import Middlewared.SmbSharingStep

/-!
# Updates of a share that are rolled back

`sharing.smb.update` stores the new share before it has asked all that may refuse it.
-/

namespace Middlewared

open List TransitionSystem

inductive ShareServiceError where
  | einval (errmsg : String)
  | other

/-- The calls by which the running configuration follows; those to
`toggle_share` are counted. -/
structure ShareServices where
  flushShareInfo : Except ShareServiceError Unit
  toggleShare : ℕ → String → Bool → Except ShareServiceError Unit

/-- `datastore.update` of one row. -/
def SharingState.writeRow (s : SharingState) (id : ℕ) (row : SmbShareRow) :
    SharingState :=
  { s with rows := s.rows.map fun other =>
      if other.share.id = id then row else other }

namespace SmbShareRollback

open SharingSmb (runningName newIsLocked)

def applyShareChanges (services : ShareServices)
    (oldIsLocked newIsLocked : Bool) (oldname newname : String)
    (old new : SmbShare) : Except ShareServiceError Unit := do
  if oldname ≠ newname then
    services.flushShareInfo
  if !oldIsLocked && !newIsLocked then
    if oldname ≠ newname then
      services.toggleShare 0 oldname false
  else if oldIsLocked && !newIsLocked then
    services.toggleShare 0 newname true
  else if !oldIsLocked && newIsLocked then
    services.toggleShare 0 newname false
  if new.enabled ≠ old.enabled then
    if !new.enabled then
      services.toggleShare 1 newname false

section

variable (rt : SharingRuntime) (host : SharingHost) (services : ShareServices)
  (s : SharingState)

structure ShareChange where
  (old new : SmbShare)
  compressed : SmbShareRow

def checkUpdate (id : ℕ) (data : SmbShareUpdate) :
    Except SharingError ShareChange := do
  let old ← s.getInstance host id
  let new := old.update data
  let errors ←
    SharingSmb.validate rt host s new "sharingsmb_update" (some old)
  let afp ← SharingSmb.legacyAfpCheck rt host s new "sharingsmb_update"
  let privilege :=
    SharingSmb.auxPrivilegeErrors host (old.auxsmbconf ≠ new.auxsmbconf)
  checkVerrors (errors ++ afp ++ privilege)
  let compressed ← SharingSmb.compress new
  return ⟨old, new, compressed⟩

abbrev Outcome := SharingState × Except SharingError Unit

def restore (id : ℕ) (old : SmbShare) (errors : List VerrorEntry) : Outcome :=
  match SharingSmb.compress old with
  | .error e => (s, .error e)
  | .ok compressed => (s.writeRow id compressed, .error (.validation errors))

inductive Objection where
  | refused (errors : List VerrorEntry)
  | failed

def changeErrors (change : ShareChange) : Except Objection Unit :=
  let old := change.old
  let new := change.new
  match SharingSmb.sanityErrors host (smbStripComments new.auxsmbconf)
      "sharingsmb_update" with
  | error :: errors => .error (.refused (error :: errors))
  | [] =>
    let newIsLocked := newIsLocked host old new
    if old.locked && newIsLocked then .ok ()
    else
      match applyShareChanges services old.locked newIsLocked
          (runningName old) (runningName new) old new with
      | .error (.einval errmsg) =>
        .error (.refused [("sharingsmb_update.auxsmbconf", errmsg)])
      | .error .other => .error .failed
      | .ok () => .ok ()

def doUpdate (id : ℕ) (data : SmbShareUpdate) : Outcome :=
  match checkUpdate rt host s id data with
  | .error e => (s, .error e)
  | .ok change =>
    let written := s.writeRow id change.compressed
    match changeErrors host services change with
    | .error (.refused errors) => restore written id change.old errors
    | .error .failed => (written, .error .callError)
    | .ok () => (written, .ok ())

def attempt : SharingCall → Outcome
  | .update id data => doUpdate rt host services s id data
  | call =>
    match s.perform rt host call with
    | .error e => (s, .error e)
    | .ok next => (next, .ok ())

end

/-- What is told by the rest of the system, and what is asked. -/
structure ShareRequest where
  host : SharingHost
  services : ShareServices
  call : SharingCall

def step (rt : SharingRuntime) (s : SharingState) (request : ShareRequest) :
    Option SharingState :=
  some (attempt rt request.host request.services s request.call).1

def KeepsRefused (rt : SharingRuntime) (s : SharingState)
    (request : ShareRequest) : Prop :=
  ∀ id data errors, request.call = .update id data →
    (doUpdate rt request.host request.services s id data).2 = .error (.validation errors) →
    (doUpdate rt request.host request.services s id data).1 = s

open SharingSmb (extend compress)

def MergesAux (purpose : SmbSharePreset) (aux : String) : Prop :=
  aux = "" ∨ ((auxsmbconfDict purpose.auxsmbconf).isSome = true ∧
    (auxsmbconfDict aux).isSome = true)

def compressed (share : SmbShare) : SmbShareRow :=
  let data := share.purpose.params share
  { share := { data with hostsallow := [], hostsdeny := [], locked := false }
    hostsallow := String.intercalate " " data.hostsallow
    hostsdeny := String.intercalate " " data.hostsdeny }

theorem params_auxsmbconf (share : SmbShare) :
    (share.purpose.params share).auxsmbconf = share.auxsmbconf := by
  cases share.purpose <;> rfl

variable {share : SmbShare}

theorem applyPresets_isSome_iff : (applyPresets share).isSome = true ↔
    MergesAux share.purpose share.auxsmbconf := by
  unfold applyPresets MergesAux
  simp only [params_auxsmbconf]
  by_cases haux : share.auxsmbconf = ""
  · simp [haux]
  · rw [if_neg haux]
    cases auxsmbconfDict share.purpose.auxsmbconf <;>
      cases auxsmbconfDict share.auxsmbconf <;> simp [haux]

variable {row : SmbShareRow}

theorem compress_eq_ok_iff : compress share = .ok row ↔
    MergesAux share.purpose share.auxsmbconf ∧ row = compressed share := by
  rw [← applyPresets_isSome_iff]
  unfold compress
  cases happly : applyPresets share with
  | none => simp
  | some data =>
    obtain ⟨aux, heq⟩ := exists_of_applyPresets happly
    have hrow : compressed share =
        { share :=
            { data with
              auxsmbconf := share.auxsmbconf
              hostsallow := []
              hostsdeny := []
              locked := false }
          hostsallow := String.intercalate " " data.hostsallow
          hostsdeny := String.intercalate " " data.hostsdeny } := by
      rw [heq, ← params_auxsmbconf share]
      rfl
    simp only [hrow, Except.ok.injEq, Option.isSome_some, true_and]
    exact eq_comm

theorem compressed_id (share : SmbShare) : (compressed share).share.id = share.id :=
  SharingSmb.params_id share

theorem compressed_with_id (share : SmbShare) (id : ℕ) : compressed { share with id } =
    { compressed share with share := { (compressed share).share with id } } := by
  obtain ⟨_, purpose⟩ := share
  cases purpose <;> rfl

def restored (row : SmbShareRow) : SmbShareRow where
  share := { row.share with
      pathSuffix :=
        if row.share.purpose = .defaultShare then "" else row.share.pathSuffix
      shadowcopy := row.share.shadowcopy || row.share.fsrvp }
  hostsallow := String.intercalate " " (splitWords row.hostsallow)
  hostsdeny := String.intercalate " " (splitWords row.hostsdeny)

/-- A row that says of itself what its preset, the flag of the remote volume
shadow copies and the words of its hosts make of it. -/
structure IsCanonical (row : SmbShareRow) : Prop where
  pathSuffix : row.share.purpose = .defaultShare → row.share.pathSuffix = ""
  shadowcopy : row.share.fsrvp = true → row.share.shadowcopy = true
  hostsallow : String.intercalate " " (splitWords row.hostsallow) = row.hostsallow
  hostsdeny : String.intercalate " " (splitWords row.hostsdeny) = row.hostsdeny

theorem restored_eq_iff : restored row = row ↔ IsCanonical row := by
  constructor
  · intro heq
    have hshare := congrArg SmbShareRow.share heq
    have hsuffix := congrArg SmbShare.pathSuffix hshare
    have hshadow := congrArg SmbShare.shadowcopy hshare
    simp only [restored] at hsuffix hshadow
    refine ⟨?_, ?_, congrArg SmbShareRow.hostsallow heq, congrArg SmbShareRow.hostsdeny heq⟩
    · intro hdefault
      rw [← hsuffix, if_pos hdefault]
    · intro hfsrvp
      rw [← hshadow, hfsrvp, Bool.or_true]
  · intro hcanonical
    have hsuffix : (if row.share.purpose = .defaultShare then ""
          else row.share.pathSuffix) = row.share.pathSuffix := by
      split
      · rename_i hdefault
        exact (hcanonical.pathSuffix hdefault).symm
      · rfl
    have hshadow : (row.share.shadowcopy || row.share.fsrvp) = row.share.shadowcopy := by
      cases hfsrvp : row.share.fsrvp with
      | false => exact Bool.or_false _
      | true => rw [hcanonical.shadowcopy hfsrvp, Bool.true_or]
    unfold restored
    rw [hsuffix, hshadow, hcanonical.hostsallow, hcanonical.hostsdeny]

theorem compressed_extend (host : SharingHost) (share : SmbShare) :
    compressed (extend host (compressed share)) = restored (compressed share) := by
  have hempty : splitWords "" = [] := rfl
  obtain ⟨_, purpose, _, _, home⟩ := share
  cases purpose <;> cases home <;> simp [compressed, extend, restored, SmbSharePreset.params,
      SharingSmb.isTimeMachinePurpose, hempty]

theorem compress_extend {host : SharingHost} (hrow : compress share = .ok row) :
    compress (extend host row) = .ok (restored row) := by
  rw [compress_eq_ok_iff] at hrow ⊢
  have hpurpose : (compressed share).share.purpose = share.purpose :=
    (SharingSmb.sameFields_params share).purpose
  have haux : (compressed share).share.auxsmbconf = share.auxsmbconf := params_auxsmbconf share
  rw [hrow.2]
  refine ⟨?_, (compressed_extend host share).symm⟩
  change MergesAux (compressed share).share.purpose (compressed share).share.auxsmbconf
  rw [hpurpose, haux]
  exact hrow.1

/-- The rows are those that `compress` gives, each with an `id` of its own. -/
structure IsWritten (s : SharingState) : Prop where
  rows : ∀ row ∈ s.rows, ∃ share, compress share = .ok row
  ids : Relational.Distinct (fun row => row.share.id) s.rows

section

variable {s : SharingState} {id : ℕ} {row new : SmbShareRow}

theorem writeRow_writeRow (hid : row.share.id = id) :
    (s.writeRow id row).writeRow id new = s.writeRow id new := by
  unfold SharingState.writeRow
  simp only [map_map, SharingState.mk.injEq, and_self, and_true]
  apply map_congr_left
  intro other _
  by_cases hother : other.share.id = id
  · simp [hother, hid]
  · simp [hother]

theorem writeRow_eq_self_iff (hids : Relational.Distinct (fun row => row.share.id) s.rows)
    (hrow : row ∈ s.rows) (hid : row.share.id = id) :
    s.writeRow id new = s ↔ new = row := by
  constructor
  · intro heq
    have hrows := congrArg SharingState.rows heq
    have hsame := List.map_inj_left.mp (hrows.trans (List.map_id s.rows).symm) row hrow
    rw [if_pos hid] at hsame
    exact hsame
  · intro hnew
    have hrows : (s.writeRow id new).rows = s.rows := by
      refine (map_congr_left ?_).trans (List.map_id s.rows)
      intro other hother
      split
      · rename_i hsame
        rw [hnew]
        exact inj_on_of_nodup_map hids hrow hother (hid.trans hsame.symm)
      · rfl
    change { s with rows := (s.writeRow id new).rows } = s
    rw [hrows]

theorem IsWritten.writeRow (hs : IsWritten s)
    (hnew : ∃ share, compress share = .ok new) (hid : new.share.id = id) :
    IsWritten (s.writeRow id new) := by
  constructor
  · intro other hother
    obtain ⟨before, hbefore, heq⟩ := mem_map.mp hother
    rw [← heq]
    split
    · exact hnew
    · exact hs.rows before hbefore
  · apply hs.ids.map
    intro other
    split
    · rename_i hsame
      exact hid.trans hsame.symm
    · rfl

end

/-! ## The ways in which an update ends -/

section

variable {rt : SharingRuntime} {host : SharingHost} {services : ShareServices}
  {s : SharingState} {id : ℕ} {data : SmbShareUpdate} {change : ShareChange}

theorem checkUpdate_eq_ok (hcheck : checkUpdate rt host s id data = .ok change) :
    (∃ row ∈ s.rows, row.share.id = id ∧ change.old = extend host row) ∧
      compress change.new = .ok change.compressed ∧
      change.compressed.share.id = id := by
  obtain ⟨old, hold, hcheck⟩ := bind_eq_ok_iff.mp hcheck
  obtain ⟨_, _, hcheck⟩ := bind_eq_ok_iff.mp hcheck
  obtain ⟨_, _, hcheck⟩ := bind_eq_ok_iff.mp hcheck
  obtain ⟨_, _, hcheck⟩ := bind_eq_ok_iff.mp hcheck
  obtain ⟨row, hcompress, hcheck⟩ := bind_eq_ok_iff.mp hcheck
  obtain ⟨before, hbefore, hid, heq⟩ := SharingState.find_of_getInstance hold
  rw [← Except.ok.inj hcheck]
  refine ⟨⟨before, hbefore, hid, heq⟩, hcompress, ?_⟩
  have hrow := (compress_eq_ok_iff.mp hcompress).2
  rw [hrow, compressed_id, ← hid]
  rw [heq]
  rfl

/-- An update is given up before anything is written, or is refused and rolled
back, or is kept, whether the services follow it or not. -/
inductive UpdateCase (rt : SharingRuntime) (host : SharingHost)
    (services : ShareServices) (s : SharingState) (id : ℕ)
    (data : SmbShareUpdate) : Prop
  | unwritten (e : SharingError) (hcheck : checkUpdate rt host s id data = .error e)
      (hend : doUpdate rt host services s id data = (s, .error e))
  | refused (change : ShareChange) (errors : List VerrorEntry)
      (row : SmbShareRow) (hcheck : checkUpdate rt host s id data = .ok change)
      (hrefused : changeErrors host services change = .error (.refused errors))
      (hrow : row ∈ s.rows) (hid : row.share.id = id)
      (hend : doUpdate rt host services s id data =
        (s.writeRow id (restored row), .error (.validation errors)))
  | failed (change : ShareChange) (hcheck : checkUpdate rt host s id data = .ok change)
      (hfailed : changeErrors host services change = .error .failed)
      (hend : doUpdate rt host services s id data =
        (s.writeRow id change.compressed, .error .callError))
  | accepted (change : ShareChange) (hcheck : checkUpdate rt host s id data = .ok change)
      (haccepted : changeErrors host services change = .ok ())
      (hend : doUpdate rt host services s id data = (s.writeRow id change.compressed, .ok ()))

theorem doUpdate_cases (hs : IsWritten s) : UpdateCase rt host services s id data := by
  cases hcheck : checkUpdate rt host s id data with
  | error e =>
    refine .unwritten e hcheck ?_
    unfold doUpdate
    simp only [hcheck]
  | ok change =>
    obtain ⟨⟨row, hrow, hid, hold⟩, _, hcompressed⟩ := checkUpdate_eq_ok hcheck
    cases hchange : changeErrors host services change with
    | ok done =>
      refine .accepted change hcheck hchange ?_
      unfold doUpdate
      simp only [hcheck, hchange]
    | error objection =>
      cases objection with
      | failed =>
        refine .failed change hcheck hchange ?_
        unfold doUpdate
        simp only [hcheck, hchange]
      | refused errors =>
        obtain ⟨share, hshare⟩ := hs.rows row hrow
        refine .refused change errors row hcheck hchange hrow hid ?_
        unfold doUpdate restore
        simp only [hcheck, hchange, hold, compress_extend hshare, writeRow_writeRow hcompressed]

def IsRolledBack (rt : SharingRuntime) (host : SharingHost)
    (services : ShareServices) (s : SharingState) (id : ℕ)
    (data : SmbShareUpdate) : Prop :=
  ∃ change errors, checkUpdate rt host s id data = .ok change ∧
    changeErrors host services change = .error (.refused errors)

def RollsBackCanonical (rt : SharingRuntime) (s : SharingState)
    (request : ShareRequest) : Prop :=
  ∀ id data, request.call = .update id data →
    IsRolledBack rt request.host request.services s id data →
    ∀ row ∈ s.rows, row.share.id = id → IsCanonical row

theorem keepsRefused_iff {request : ShareRequest} (hs : IsWritten s) :
    KeepsRefused rt s request ↔ RollsBackCanonical rt s request := by
  constructor
  · intro hkeeps id data hcall hrolled row hrow hid
    obtain ⟨change, errors, hcheck, hrefused⟩ := hrolled
    have hkept := hkeeps id data
    cases (doUpdate_cases hs : UpdateCase rt request.host request.services s id data) with
    | unwritten e hother _ =>
      rw [hcheck] at hother
      cases hother
    | failed other hother hfailed _ =>
      rw [← Except.ok.inj (hcheck.symm.trans hother), hrefused] at hfailed
      cases hfailed
    | accepted other hother haccepted _ =>
      rw [← Except.ok.inj (hcheck.symm.trans hother), hrefused] at haccepted
      cases haccepted
    | refused other others found _ _ hfound hfoundId hend =>
      rw [hend] at hkept
      have hsame := hkept others hcall rfl
      rw [writeRow_eq_self_iff hs.ids hfound hfoundId] at hsame
      have heq : row = found := inj_on_of_nodup_map hs.ids hrow hfound (hid.trans hfoundId.symm)
      rw [heq]
      exact restored_eq_iff.mp hsame
  · intro hcanonical id data errors hcall herror
    cases (doUpdate_cases hs : UpdateCase rt request.host request.services s id data) with
    | unwritten e _ hend => rw [hend]
    | failed change _ _ hend =>
      rw [hend] at herror
      cases herror
    | accepted change _ _ hend =>
      rw [hend] at herror
      cases herror
    | refused change others row hcheck hrefused hrow hid hend =>
      have hsame := hcanonical id data hcall ⟨change, others, hcheck, hrefused⟩ row hrow hid
      rw [hend]
      exact (writeRow_eq_self_iff hs.ids hrow hid).mpr (restored_eq_iff.mpr hsame)

end

/-! ## Runs -/

section

variable {rt : SharingRuntime} {host : SharingHost} {services : ShareServices}
  {s next : SharingState}

theorem IsWritten.concat (hs : IsWritten s) (hrow : ∃ share, compress share = .ok row)
    (hid : ∀ other ∈ s.rows, other.share.id ≠ row.share.id) :
    IsWritten { s with rows := s.rows ++ [row] } := by
  constructor
  · intro other hother
    rcases List.mem_append.mp hother with hother | hother
    · exact hs.rows other hother
    · rw [List.mem_singleton.mp hother]
      exact hrow
  · apply Relational.distinct_concat hs.ids
    intro hmem
    obtain ⟨other, hother, heq⟩ := mem_map.mp hmem
    exact hid other hother heq

variable {id : ℕ} {data : SmbShareUpdate}

theorem IsWritten.doCreate (hs : IsWritten s)
    (hcreate : SharingSmb.doCreate rt host s id data = .ok next) :
    IsWritten next := by
  obtain ⟨new, row, _, hcreates⟩ := SharingSmb.doCreate_creates hcreate
  rw [hcreates.eq]
  apply hs.concat
  · refine ⟨{ new with id }, ?_⟩
    have hcompress := hcreates.compress
    rw [compress_eq_ok_iff] at hcompress ⊢
    refine ⟨hcompress.1, ?_⟩
    rw [compressed_with_id, hcompress.2]
  · exact hcreates.fresh

theorem IsWritten.writeChange {change : ShareChange} (hs : IsWritten s)
    (hcheck : checkUpdate rt host s id data = .ok change) :
    IsWritten (s.writeRow id change.compressed) := by
  have hwritten := (checkUpdate_eq_ok hcheck).2
  exact hs.writeRow ⟨change.new, hwritten.1⟩ hwritten.2

theorem IsWritten.doUpdate (hs : IsWritten s) :
    IsWritten (doUpdate rt host services s id data).1 := by
  cases (doUpdate_cases hs : UpdateCase rt host services s id data) with
  | unwritten e _ hend =>
    rw [hend]
    exact hs
  | refused change errors row _ _ hrow hid hend =>
    rw [hend]
    obtain ⟨share, hshare⟩ := hs.rows row hrow
    exact hs.writeRow ⟨extend host row, compress_extend hshare⟩ hid
  | failed change hcheck _ hend =>
    rw [hend]
    exact hs.writeChange hcheck
  | accepted change hcheck _ hend =>
    rw [hend]
    exact hs.writeChange hcheck

theorem IsWritten.of_rows {other : SharingState} (hs : IsWritten s)
    (hrows : other.rows = s.rows) : IsWritten other := by
  constructor
  · rw [hrows]
    exact hs.rows
  · rw [hrows]
    exact hs.ids

theorem IsWritten.perform {call : SharingCall} (hs : IsWritten s)
    (hcall : ∀ id data, call ≠ .update id data)
    (hperform : s.perform rt host call = .ok next) : IsWritten next := by
  cases call with
  | create id data => exact hs.doCreate hperform
  | update id data => exact absurd rfl (hcall id data)
  | delete id =>
    rw [SharingSmb.doDelete_eq_ok hperform]
    exact ⟨fun row hrow => hs.rows row (mem_of_mem_filter hrow), hs.ids.filter _⟩
  | smbUpdate data =>
    obtain ⟨smb, hnext, _⟩ := SmbService.doUpdate_eq_ok hperform
    rw [hnext]
    exact hs.of_rows rfl
  | networkUpdate data =>
    rcases NetworkConfiguration.doUpdate_eq_ok hperform with
      hsame | ⟨network, hnext, _⟩
    · rw [hsame]
      exact hs
    · rw [hnext]
      exact hs.of_rows rfl

theorem attempt_of_ne_update {call : SharingCall} (hcall : ∀ id data, call ≠ .update id data) :
    attempt rt host services s call =
      match s.perform rt host call with
      | .error e => (s, .error e)
      | .ok next => (next, .ok ()) := by
  cases call with
  | update id data => exact absurd rfl (hcall id data)
  | create _ _ | delete _ | smbUpdate _ | networkUpdate _ => rfl

theorem IsWritten.step {request : ShareRequest} (hs : IsWritten s)
    (hstep : step rt s request = some next) : IsWritten next := by
  rw [← Option.some.inj hstep]
  by_cases hupdate : ∃ id data, request.call = .update id data
  · obtain ⟨id, data, hcall⟩ := hupdate
    rw [hcall]
    exact hs.doUpdate
  · have hcall : ∀ id data, request.call ≠ .update id data :=
      fun id data heq => hupdate ⟨id, data, heq⟩
    rw [attempt_of_ne_update hcall]
    cases hperform : s.perform rt request.host request.call with
    | error e => exact hs
    | ok result => exact hs.perform hcall hperform

/-- In a run of any calls on shares and on the services that they rest on,
starting without shares, the updates which are refused change nothing exactly
when those that are rolled back are updates of canonical rows. -/
theorem refusedUpdates_keep_iff (hstart : s.rows = []) (requests : List ShareRequest) :
    EveryStep (step rt) (KeepsRefused rt) s requests ↔ EveryStep (step rt) (RollsBackCanonical rt) s
        requests := by
  have hwritten : IsWritten s := by
    constructor
    · rw [hstart]
      exact fun row hrow => absurd hrow not_mem_nil
    · rw [hstart]
      exact nodup_nil
  obtain ⟨t, hrun⟩ := @TransitionSystem.exists_run _ _ (step rt)
    (fun s request => ⟨_, rfl⟩) s requests
  exact everyStep_congr IsWritten (fun _ _ _ hs hstep => hs.step hstep)
    (fun _ _ _ hs _ => keepsRefused_iff hs) hwritten hrun

end

def quietServices : ShareServices where
  flushShareInfo := .ok ()
  toggleShare := fun _ _ _ => .ok ()

def creation (data : SmbShareUpdate) : ShareRequest where
  host := plainHost
  services := quietServices
  call := .create 1 data

def brokenUpdate : ShareRequest where
  host := { plainHost with sanityCheck := false }
  services := quietServices
  call := .update 1 { auxsmbconf := some "case sensitive = maybe" }

def remoteOnlyShare : SmbShareUpdate where
  purpose := some .noPreset
  path := some "/mnt/tank/share"
  name := some "share"
  fsrvp := some true
  shadowcopy := some false

def plainShare : SmbShareUpdate where
  path := some "/mnt/tank/share"
  name := some "share"

theorem plainShare_kept : EveryStep (step plainRuntime) (KeepsRefused plainRuntime)
    noShares [creation plainShare, brokenUpdate] := by
  refine (refusedUpdates_keep_iff rfl _).mpr ⟨?_, ?_⟩
  · intro id data hcall
    cases hcall
  · intro next hnext
    refine ⟨?_, fun _ _ => trivial⟩
    intro id data _ _ row hrow _
    have hrows : next.rows =
        [compressed { smbShareDefaults "/mnt/tank/share" "share" with id := 1 }]
        := by
      rw [← Option.some.inj hnext]
      rfl
    rw [hrows, mem_singleton] at hrow
    rw [hrow]
    constructor
    · intro _
      rfl
    · intro _
      rfl
    · rfl
    · rfl

/-- The row restored is the extended one. -/
theorem remoteOnlyShare_changed : ¬ EveryStep (step plainRuntime) (KeepsRefused plainRuntime)
    noShares [creation remoteOnlyShare, brokenUpdate] := by
  intro hevery
  have hkeeps := (hevery.2 _ rfl).1 1 _ _ rfl rfl
  have hrows := congrArg (fun s => s.rows.map fun row => row.share.shadowcopy) hkeeps
  exact absurd hrows (by decide)

end SmbShareRollback

end Middlewared
