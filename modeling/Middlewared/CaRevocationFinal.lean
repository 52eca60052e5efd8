import Middlewared.CaRevocationRows

/-!
# Is revocation final?

Creating a row under an authority and revoking one are the calls that can break
what revocation is to give: below a revoked authority everything is revoked,
nothing that is revoked is trusted, and a date stays what it was.
-/

namespace Middlewared.CaRevocation

open CertificateDatabase TransitionSystem List Option

/-! ## One call -/

def FreshBelow (s : State) (id : ℕ) (delays : List ℕ) : Prop :=
  ∀ chain, getCaChain s.db id = some chain → ∀ row ∈ rows s.db, row.entry ≠ .ca id →
      ∀ date, lastWrite (stamped chain s.clock delays) row.entry = some date → row.trusted = false ∧
          ∀ old, row.revokedDate = some old → date ≤ old

/-- A row is created only under an authority that is not revoked, and an
authority is revoked only while what is below it is fresh. -/
def Respects (s : State) : Action → Prop
  | .createCa _ data => ∀ p, data.signedby = some p → ¬RevokedCa s.db p
  | .createCertificate _ data =>
    ∀ p, data.signedby = some p → ¬RevokedCa s.db p
  | .caSignCsr _ data => ¬RevokedCa s.db data.caId
  | .updateCa id data delays =>
    data.revoked = some true → ¬RevokedCa s.db id → FreshBelow s id delays
  | .updateCertificate _ _ _ => True

section

variable {s next : State} {depth : ℕ → ℕ} {csrFiled : CertRow → Bool}

variable (hvalid : Valid s.db depth)

include hvalid

theorem setCa_inOrder (hin : InOrder s.db) {old : CaRow} (hold : old ∈ s.db.cas)
    {change : Change} (hchange : change.oldRevoked = old.revokedDate.isSome)
    (haccepted : change.Accepted) :
    InOrder (setCa s.db old.id change) ∧ DatesKept s.db (setCa s.db old.id change) := by
  refine changed_inOrder hin (rows_setCa s.db old.id change) ?_ ?_
  · intro row hrow hentry hdate
    have hmem : ofCa old ∈ rows s.db := mem_append_left _ (List.mem_map_of_mem hold)
    rw [hvalid.eq_of_entry hrow hmem hentry, or_none] at hdate
    exact haccepted.distrusted (haccepted.stays (hchange.trans hdate))
  · intro hsome
    cases hsome

omit hvalid in
theorem datesKept_setCa_back (db : CertificateDatabase) (id : ℕ)
    (change : Change) : DatesKept (setCa db id change) db := by
  intro row hrow date hdate
  rw [rows_setCa, List.mem_map] at hrow
  rcases hrow with ⟨old, hold, heq⟩
  refine ⟨old, hold, ?_, date, ?_, le_refl date⟩
  · rw [← heq]
    split_ifs <;> rfl
  · rw [← heq] at hdate
    split_ifs at hdate
    · simpa [TableRow.changed] using hdate
    · exact hdate

variable {delays : List ℕ} {db : CertificateDatabase}

theorem revokeCaChain_iff (hin : InOrder s.db) {old : CaRow} (hold : old ∈ s.db.cas)
    {change : Change} (hchange : change.oldRevoked = old.revokedDate.isSome)
    (haccepted : change.Accepted) (hrevokes : change.revokes = true)
    (hdb : revokeCaChain (setCa s.db old.id change) old.id s.clock delays = some db) :
    InOrder db ∧ DatesKept s.db db ↔ FreshBelow s old.id delays := by
  have hkeys := keys_setCa s.db old.id change
  have hvalidSet := hvalid.of_keys hkeys
  have hset := setCa_inOrder hvalid hin hold hchange haccepted
  have hback := datesKept_setCa_back s.db old.id change
  rcases map_eq_some_iff.mp hdb with ⟨chain, hchain, heq⟩
  subst heq
  have hchainOld : getCaChain s.db old.id = some chain := by
    rw [← getCaChain_of_keys hkeys]
    exact hchain
  have hcovered := @covered_writeDates _ _ hvalidSet chain s.clock delays _ hchain hset.1.covered
  have hrevoked : change.revoked = true ∧ old.revokedDate = none := by
    simpa [Change.revokes, hchange] using hrevokes
  have hown : ∀ row ∈ rows s.db, row.entry = .ca old.id → row.revokedDate = none := by
    intro row hrow hentry
    have hmem : ofCa old ∈ rows s.db := mem_append_left _ (List.mem_map_of_mem hold)
    rw [hvalid.eq_of_entry hrow hmem hentry]
    exact hrevoked.2
  have hdatesKept : DatesKept s.db (writeDates (setCa s.db old.id change)
          (stamped chain s.clock delays)) ↔
      DatesKept (setCa s.db old.id change) (writeDates (setCa s.db old.id change)
          (stamped chain s.clock delays)) :=
    ⟨hback.trans, hset.2.trans⟩
  have hfresh : RevokesFresh (setCa s.db old.id change) (stamped chain s.clock delays) ↔
      FreshBelow s old.id delays := by
    unfold RevokesFresh FreshBelow
    rw [rows_setCa, hchainOld]
    simp only [List.forall_mem_map, some.injEq, forall_eq']
    refine forall_congr' fun row => forall_congr' fun hrow => ?_
    by_cases hentry : row.entry = .ca old.id
    · have hnone := hown row hrow hentry
      simp [hentry, TableRow.changed, hnone, haccepted.distrusted hrevoked.1]
    · simp [hentry]
  calc InOrder (writeDates (setCa s.db old.id change)
            (stamped chain s.clock delays)) ∧
          DatesKept s.db (writeDates (setCa s.db old.id change) (stamped chain s.clock delays))
      ↔ Distrusted (writeDates (setCa s.db old.id change) (stamped chain s.clock delays)) ∧
          DatesKept (setCa s.db old.id change) (writeDates (setCa s.db old.id change)
              (stamped chain s.clock delays)) := by
        rw [hdatesKept]
        exact and_congr_left fun _ =>
          ⟨InOrder.distrusted, fun hdistrusted => ⟨hcovered, hdistrusted⟩⟩
    _ ↔ _ := writeDates_iff hvalidSet hset.1.distrusted _
    _ ↔ _ := hfresh

variable {id : ℕ} {data : Update}

theorem updateCa_iff (hin : InOrder s.db) (hdb : updateCa s.db s.clock id data delays = some db) :
    InOrder db ∧ DatesKept s.db db ↔ Respects s (.updateCa id data delays) := by
  rcases bind_eq_some_iff.mp hdb with ⟨old, hfind, hdb⟩
  have hold := mem_of_find?_eq_some hfind
  have hid : old.id = id := by simpa using find?_some hfind
  subst hid
  have hrevokedCa : RevokedCa s.db old.id ↔ old.revokedDate.isSome := by
    constructor
    · intro hrevoked
      rcases hrevoked with ⟨ca, hca, hid, hdate⟩
      rwa [hvalid.forest.eq_of_id hca hold hid] at hdate
    · exact fun hdate => ⟨old, hold, rfl, hdate⟩
  have hchange : (data.change old.name old.revokedDate
      old.addToTrustedStore).oldRevoked = old.revokedDate.isSome := rfl
  have hrespects : Respects s (.updateCa old.id data delays) ↔
      ((data.change old.name old.revokedDate old.addToTrustedStore).revokes = true →
        FreshBelow s old.id delays) := by
    change (data.revoked = some true → ¬RevokedCa s.db old.id → _) ↔ _
    rw [hrevokedCa, ← and_imp]
    simp only [Change.revokes, Update.change]
    cases old.revokedDate <;> cases data.revoked <;> simp
  rw [hrespects]
  generalize hdata : data.change old.name old.revokedDate
    old.addToTrustedStore = change at hdb hchange ⊢
  simp only at hdb
  split_ifs at hdb with hany herrors hrevokes
  · cases hdb
    have hnot : change.revokes = false := by
      simp only [Change.any, Bool.not_eq_true', Bool.or_eq_false_iff,
        decide_eq_false_iff_not, ne_eq, not_not] at hany
      rw [Change.revokes, hany.1.2]
      exact Bool.and_not_self _
    rw [hnot]
    exact iff_of_true ⟨hin, datesKept_refl s.db⟩ (fun hfalse => by cases hfalse)
  · rw [not_not] at herrors
    rw [revokeCaChain_iff hvalid hin hold hchange (accepted_of_caUpdateErrors herrors) hrevokes hdb]
    simp [hrevokes]
  · rw [not_not] at herrors
    cases hdb
    refine iff_of_true (setCa_inOrder hvalid hin hold hchange
      (accepted_of_caUpdateErrors herrors)) ?_
    exact fun htrue => absurd htrue hrevokes

theorem updateCertificate_inOrder (hin : InOrder s.db)
    (hdb : updateCertificate s.db s.clock id data delays = some db) :
    InOrder db ∧ DatesKept s.db db := by
  rcases bind_eq_some_iff.mp hdb with ⟨old, hfind, hdb⟩
  have hold := mem_of_find?_eq_some hfind
  have hid : old.id = id := by simpa using find?_some hfind
  subst hid
  have hchange : (data.change old.name old.revokedDate
      old.addToTrustedStore).oldRevoked = old.revokedDate.isSome := rfl
  generalize data.change old.name old.revokedDate old.addToTrustedStore = change at hdb hchange
  simp only at hdb
  split_ifs at hdb with hany herrors
  · cases hdb
    exact ⟨hin, datesKept_refl s.db⟩
  · rw [not_not] at herrors
    cases hdb
    have haccepted := accepted_of_certUpdateErrors herrors
    refine changed_inOrder hin (rows_setCert hvalid hold hchange _) ?_ ?_
    · intro row hrow hentry hdate
      have hmem : ofCert old ∈ rows s.db := mem_append_right _ (List.mem_map_of_mem hold)
      rw [hvalid.eq_of_entry hrow hmem hentry] at hdate
      apply haccepted.distrusted
      by_cases hrevokes : change.revokes = true
      · unfold Change.revokes at hrevokes
        rw [Bool.and_eq_true] at hrevokes
        exact hrevokes.1
      · rw [if_neg hrevokes, or_none] at hdate
        exact haccepted.stays (hchange.trans hdate)
    · intro _ caId hentry
      cases hentry

theorem step_iff {a : Action} (hin : InOrder s.db) (hnext : step csrFiled s a = some next) :
    InOrder next.db ∧ DatesKept s.db next.db ↔ Respects s a := by
  cases a with
  | createCa id data =>
    rcases map_eq_some_iff.mp hnext with ⟨db, hdb, heq⟩
    rcases createCa_eq_some hdb with ⟨row, hrow, _, hsigned, hdate, _⟩
    rw [← heq]
    simp only [hrow]
    rw [created_iff hin (fun _ => mem_rows_insertCa) hdate]
    change (∀ p, row.signedby = some p → _) ↔ ∀ p, data.signedby = some p → _
    rw [hsigned]
  | updateCa id data delays =>
    rcases map_eq_some_iff.mp hnext with ⟨db, hdb, heq⟩
    rw [← heq]
    exact updateCa_iff hvalid hin hdb
  | caSignCsr id data =>
    rcases map_eq_some_iff.mp hnext with ⟨db, hdb, heq⟩
    rcases caSignCsr_eq_some hdb with ⟨row, hrow, _, hsigned, hdate, _⟩
    rw [← heq]
    simp only [hrow]
    rw [created_iff hin (fun _ => mem_rows_insertCert) hdate]
    change (∀ p, row.signedby = some p → _) ↔ ¬RevokedCa s.db data.caId
    simp [hsigned]
  | createCertificate id data =>
    rcases map_eq_some_iff.mp hnext with ⟨db, hdb, heq⟩
    rcases createCertificate_eq_some hdb with ⟨row, hrow, _, hsigned, hdate, _⟩
    rw [← heq]
    simp only [hrow]
    rw [created_iff hin (fun _ => mem_rows_insertCert) hdate]
    change (∀ p, row.signedby = some p → _) ↔ ∀ p, data.signedby = some p → _
    rw [hsigned]
  | updateCertificate id data delays =>
    rcases map_eq_some_iff.mp hnext with ⟨db, hdb, heq⟩
    rw [← heq]
    exact iff_of_true (updateCertificate_inOrder hvalid hin hdb) trivial

omit hvalid

theorem keys_updateCa (hdb : updateCa s.db s.clock id data delays = some db) :
    keys db = keys s.db := by
  rcases bind_eq_some_iff.mp hdb with ⟨old, _, hdb⟩
  simp only at hdb
  split_ifs at hdb
  · cases hdb
    rfl
  · rcases map_eq_some_iff.mp hdb with ⟨chain, _, heq⟩
    rw [← heq, keys_writeDates, keys_setCa]
  · cases hdb
    exact keys_setCa _ _ _

theorem keys_updateCertificate (hdb : updateCertificate s.db s.clock id data delays = some db) :
    keys db = keys s.db := by
  rcases bind_eq_some_iff.mp hdb with ⟨old, _, hdb⟩
  simp only at hdb
  split_ifs at hdb
  · cases hdb
    rfl
  · cases hdb
    exact keys_setCert _ _ _ _

theorem step_valid {a : Action} (hvalid : Valid s.db depth)
    (hnext : step csrFiled s a = some next) :
    ∃ deeper, Valid next.db deeper := by
  cases a with
  | createCa id data =>
    rcases map_eq_some_iff.mp hnext with ⟨db, hdb, heq⟩
    rcases createCa_eq_some hdb with ⟨row, hrow, hid, _, _, hsigner⟩
    rw [← heq]
    simp only [hrow]
    exact hvalid.insertCa hid hsigner
  | updateCa id data delays =>
    rcases map_eq_some_iff.mp hnext with ⟨db, hdb, heq⟩
    rw [← heq]
    exact ⟨depth, hvalid.of_keys (keys_updateCa hdb)⟩
  | caSignCsr id data =>
    rcases map_eq_some_iff.mp hnext with ⟨db, hdb, heq⟩
    rcases caSignCsr_eq_some hdb with ⟨row, hrow, hid, _, _, hsigner⟩
    rw [← heq]
    simp only [hrow]
    exact ⟨depth, hvalid.insertCert hid hsigner⟩
  | createCertificate id data =>
    rcases map_eq_some_iff.mp hnext with ⟨db, hdb, heq⟩
    rcases createCertificate_eq_some hdb with ⟨row, hrow, hid, _, _, hsigner⟩
    rw [← heq]
    simp only [hrow]
    exact ⟨depth, hvalid.insertCert hid hsigner⟩
  | updateCertificate id data delays =>
    rcases map_eq_some_iff.mp hnext with ⟨db, hdb, heq⟩
    rw [← heq]
    exact ⟨depth, hvalid.of_keys (keys_updateCertificate hdb)⟩

end

theorem start_valid : Valid start.db (fun _ => 0) where
  forest := forest_nil
  certIds := nodup_nil
  signers := by simp [rows, start]

/-- In a run from empty tables revocation covers everything below, ends trust
and keeps its date exactly if every call respects what has been revoked. -/
theorem revocationFinal_iff (csrFiled : CertRow → Bool) {actions : List Action}
    {t : State} (hrun : run (step csrFiled) start actions = some t) :
    EveryStep (step csrFiled) Respects start actions ↔
      (∀ k u, run (step csrFiled) start (actions.take k) = some u →
        Covered u.db ∧ Distrusted u.db) ∧
      ∀ i j u v, i ≤ j → run (step csrFiled) start (actions.take i) = some u →
          run (step csrFiled) start (actions.take j) = some v → DatesKept u.db v.db := by
  refine @everyStep_iff_forall_rel_of_mem State Action (step csrFiled)
    (fun s => ∃ depth, Valid s.db depth) (fun s => Covered s.db ∧ Distrusted s.db)
    (fun s t => DatesKept s.db t.db) Respects (fun _ => True)
    (fun s => datesKept_refl s.db) (fun _ _ _ => DatesKept.trans) ?_ ?_ start t
    actions (fun _ _ => trivial) ⟨_, start_valid⟩ ?_ hrun
  · intro s a next _ hvalid hnext
    rcases hvalid with ⟨depth, hvalid⟩
    exact step_valid hvalid hnext
  · intro s a next _ hvalid hin hnext
    rcases hvalid with ⟨depth, hvalid⟩
    rw [← step_iff hvalid ⟨hin.1, hin.2⟩ hnext]
    exact and_congr_left fun _ =>
      ⟨fun hboth => ⟨hboth.1, hboth.2⟩, fun hboth => ⟨hboth.covered, hboth.distrusted⟩⟩
  · exact ⟨by simp [Covered, rows, start], by simp [Distrusted, rows, start]⟩

/-! ## Runs that break it -/

def createRoot : Action :=
  .createCa 1 {
    createType := .internal
    name := "root"
    serial := 7
    privatekey := false
    signedby := none
    addToTrustedStore := false }

def revokeRoot : Action :=
  .updateCa 1 { revoked := some true } [4]

def createSub : Action :=
  .createCa 2 {
    createType := .intermediate
    name := "sub"
    serial := 8
    privatekey := false
    signedby := some 1
    addToTrustedStore := false }

def createLeaf (addToTrustedStore : Bool) : Action :=
  .createCertificate 1 {
    createType := .internal
    name := "leaf"
    serial := 8
    signedby := some 1
    addToTrustedStore }

def revokeLeaf : Action :=
  .updateCertificate 1 { revoked := some true } [2]

theorem revocationFinal_leaf :
    (∀ k u, run (step fun _ => true) start
        ([createRoot, createLeaf false, revokeRoot].take k) = some u →
      Covered u.db ∧ Distrusted u.db) ∧
    ∀ i j u v, i ≤ j → run (step fun _ => true) start
          ([createRoot, createLeaf false, revokeRoot].take i) = some u →
        run (step fun _ => true) start
            ([createRoot, createLeaf false, revokeRoot].take j) = some v →
          DatesKept u.db v.db := by
  have hruns : (run (step fun _ => true) start
      [createRoot, createLeaf false, revokeRoot]).isSome := by decide
  refine (revocationFinal_iff (fun _ => true) (some_get hruns).symm).mp ?_
  refine everyStep_cons nofun rfl (everyStep_cons ?_ rfl (everyStep_cons ?_ rfl trivial))
  · rintro p _ ⟨ca, hmem, _, hrevoked⟩
    rw [mem_singleton.mp hmem] at hrevoked
    cases hrevoked
  · intro _ _ _ _ row hrow _ date _
    have hfresh : row.trusted = false ∧ row.revokedDate = none := by
      clear * - hrow
      revert row
      decide
    exact ⟨hfresh.1, fun old hold => by rw [hfresh.2] at hold; cases hold⟩

def rootRow (revokedDate : Option ℕ) : CaRow where
  id := 1
  name := "root"
  certificate := some { serial := some 7 }
  privatekey := true
  signedby := none
  revokedDate := revokedDate
  addToTrustedStore := false

def subRow : CaRow where
  id := 2
  name := "sub"
  certificate := some { serial := some 8 }
  privatekey := true
  signedby := some 1
  revokedDate := none
  addToTrustedStore := false

def leafRow (revokedDate : Option ℕ) (addToTrustedStore : Bool) : CertRow where
  id := 1
  name := "leaf"
  type := .internal
  certificate := some { serial := some 8 }
  privatekey := true
  signedby := some 1
  revokedDate := revokedDate
  addToTrustedStore := addToTrustedStore

/-- A CA under a revoked one, a trusted leaf of a revoked root, and a date that moves. -/
theorem revocation_notFinal : (run (step fun _ => true) start [createRoot, revokeRoot, createSub] =
        some { db := { cas := [rootRow (some 4), subRow], certs := [] }, clock := 4 } ∧
      ¬Covered { cas := [rootRow (some 4), subRow], certs := [] }) ∧
    (run (step fun _ => true) start [createRoot, createLeaf true, revokeRoot] = some {
          db := { cas := [rootRow (some 4)], certs := [leafRow (some 4) true] }
          clock := 4 } ∧
      ¬Distrusted { cas := [rootRow (some 4)], certs := [leafRow (some 4) true] }) ∧
    run (step fun _ => true) start [createRoot, createLeaf false, revokeLeaf] = some {
        db := { cas := [rootRow none], certs := [leafRow (some 2) false] }
        clock := 2 } ∧
    run (step fun _ => true) start [createRoot, createLeaf false, revokeLeaf, revokeRoot] = some {
        db := { cas := [rootRow (some 6)], certs := [leafRow (some 6) false] }
        clock := 6 } ∧
    ¬DatesKept { cas := [rootRow none], certs := [leafRow (some 2) false] }
      { cas := [rootRow (some 6)], certs := [leafRow (some 6) false] } := by
  refine ⟨⟨by decide, ?_⟩, ⟨by decide, ?_⟩, by decide, by decide, ?_⟩
  · intro hcovered
    have hsub := hcovered (ofCa subRow) (by simp [rows]) 1 rfl 1
      (TreeWalk.Below.refl 1) ⟨rootRow (some 4), by simp, rfl, rfl⟩
    cases hsub
  · intro hdistrusted
    have hleaf := hdistrusted (ofCert (leafRow (some 4) true)) (by simp [rows]) rfl
    cases hleaf
  · intro hkept
    rcases hkept (ofCert (leafRow (some 2) false)) (by simp [rows]) 2 rfl with
      ⟨later, hlater, hentry, kept, hdate, hle⟩
    simp only [rows, map_cons, map_nil, cons_append,
      nil_append, mem_cons, not_mem_nil, or_false] at hlater
    rcases hlater with heq | heq
    · rw [heq] at hentry
      cases hentry
    · rw [heq] at hdate
      cases hdate
      omega

end Middlewared.CaRevocation
