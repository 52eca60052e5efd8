import Middlewared.CaSerials
import Middlewared.Dict
import Middlewared.TransitionSystem

/-!
# Issuing certificates

A certificate is issued in three awaited parts: the next serial is read, the certificate is
generated, and the row is inserted.
-/

namespace Middlewared.CaIssuing

open CertificateDatabase TransitionSystem Option List Function

inductive IssueKind where
  | intermediate
  | internal
  | signCsr
deriving DecidableEq

/-- A task that has read a serial and not yet stored its certificate.  The
program keeps only the first three; `root` is the top of the tree, and the
lists are what had been issued and what was in the tables under it when the
serial was read. -/
structure Issuing where
  kind : IssueKind
  ca : ℕ
  serial : ℕ
  root : ℕ
  issuedThen : List ℕ
  presentThen : List ℕ

/-- `issued` is every certificate there ever was, as its root and serial. -/
structure State where
  db : CertificateDatabase
  tasks : Dict ℕ Issuing
  issued : List (ℕ × ℕ)

def start : State where
  db := { cas := [], certs := [] }
  tasks := Dict.empty
  issued := []

def rootId (db : CertificateDatabase) (caId : ℕ) : Option ℕ :=
  (rootCa db.cas.length db caId).map CaRow.id

def presentUnder (db : CertificateDatabase) (r : ℕ) : List ℕ :=
  (db.cas.filter fun ca => rootId db ca.id = some r).filterMap caSerial ++
    (db.certs.filter fun cert =>
      cert.signedby.bind (rootId db) = some r).filterMap certSerial

def issuedUnder (issued : List (ℕ × ℕ)) (r : ℕ) : List ℕ :=
  (issued.filter fun entry => entry.1 = r).map Prod.snd

def caRow (id : ℕ) (name : String) (serial : ℕ) (signedby : Option ℕ) : CaRow where
  id := id
  name := name
  certificate := some { serial := some serial }
  privatekey := true
  signedby := signedby
  revokedDate := none
  addToTrustedStore := false

def certRow (id : ℕ) (name : String) (serial : ℕ) (signedby : ℕ) : CertRow where
  id := id
  name := name
  type := .internal
  certificate := some { serial := some serial }
  privatekey := true
  signedby := some signedby
  revokedDate := none
  addToTrustedStore := false

inductive Action where
  | createInternalCa (id serial : ℕ) (name : String)
  | readSerial (task : ℕ) (kind : IssueKind) (ca : ℕ)
  | store (task id : ℕ) (name : String)
  | abandon (task : ℕ)
  | deleteCertificate (id : ℕ)

def createInternalCa (s : State) (id serial : ℕ) (name : String) :
    Option State :=
  if id ∈ s.db.caIds then none
  else
    some { s with
      db := { s.db with cas := s.db.cas ++ [caRow id name serial none] }
      issued := s.issued ++ [(id, serial)] }

/-- The lock lets one `create_internal` run at a time. -/
def readSerial (s : State) (task : ℕ) (kind : IssueKind) (ca : ℕ) :
    Option State :=
  if task ∈ s.tasks.keys ∨ (kind = .internal ∧
      s.tasks.entries.any fun entry => entry.2.kind = .internal) then none
  else do
    let serial ← s.db.getSerialForCertificate ca
    let root ← rootId s.db ca
    return { s with
      tasks := s.tasks.set task {
        kind, ca, serial, root
        issuedThen := issuedUnder s.issued root
        presentThen := presentUnder s.db root } }

def insertRow (db : CertificateDatabase) (kind : IssueKind) (id : ℕ)
    (name : String) (serial ca : ℕ) : Option CertificateDatabase :=
  match kind with
  | .intermediate =>
    if id ∈ db.caIds then none
    else some { db with cas := db.cas ++ [caRow id name serial (some ca)] }
  | .internal | .signCsr =>
    if id ∈ db.certs.map CertRow.id then none
    else some { db with certs := db.certs ++ [certRow id name serial ca] }

def store (s : State) (task id : ℕ) (name : String) : Option State := do
  let t ← s.tasks.get? task
  let db ← insertRow s.db t.kind id name t.serial t.ca
  return {
    db
    tasks := s.tasks.erase task
    issued := s.issued ++ [(t.root, t.serial)] }

def step (s : State) : Action → Option State
  | .createInternalCa id serial name => createInternalCa s id serial name
  | .readSerial task kind ca => readSerial s task kind ca
  | .store task id name => store s task id name
  | .abandon task =>
    if task ∈ s.tasks.keys then some { s with tasks := s.tasks.erase task }
    else none
  | .deleteCertificate id =>
    if id ∈ s.db.certs.map CertRow.id then
      some { s with
        db := { s.db with certs := s.db.certs.filter fun cert => cert.id ≠ id } }
    else none

/-- Nothing was stored under the root since the serial was read, and the largest
serial issued by then was still in the tables. -/
def StoresFresh (s : State) : Action → Prop
  | .store task _ _ => ∀ t, s.tasks.get? task = some t →
      issuedUnder s.issued t.root = t.issuedThen ∧ ∀ n ∈ t.issuedThen, ∃ m ∈ t.presentThen, n ≤ m
  | _ => True

/-- No two certificates issued under one root have the same serial. -/
def State.SerialsDistinct (s : State) : Prop := s.issued.Nodup

/-- A task's serial is one more than the largest that was in the tables, and
what had been issued then had no gaps. -/
structure TaskValid (s : State) (root : ℕ → ℕ) (t : Issuing) : Prop where
  ca : t.ca ∈ s.db.caIds
  rooted : root t.ca = t.root
  earlier : ∃ later, issuedUnder s.issued t.root = t.issuedThen ++ later
  serial : ∃ largest ∈ t.presentThen, t.serial = largest + 1 ∧ ∀ n ∈ t.presentThen, n ≤ largest
  issued : ∀ n ∈ t.presentThen, n ∈ t.issuedThen
  gapless : ∃ ca ∈ s.db.cas, ca.id = t.root ∧ ∃ first, caSerial ca = some first ∧
    ∀ n ∈ t.issuedThen, first ≤ n ∧ ∀ m, first ≤ m → m ≤ n → m ∈ t.issuedThen

/-- The serials issued under a root are those from its own serial on. -/
structure Valid (s : State) (root depth : ℕ → ℕ) : Prop where
  forest : Forest s.db.cas depth
  rooted : Rooted s.db.cas root
  parseable : s.db.Parseable
  present : ∀ r n, s.db.Present root r n → (r, n) ∈ s.issued
  gapless : ∀ r n, (r, n) ∈ s.issued → ∃ ca ∈ s.db.cas, ca.id = r ∧
    ∃ first, caSerial ca = some first ∧ first ≤ n ∧ ∀ m, first ≤ m → m ≤ n → (r, m) ∈ s.issued
  tasks : ∀ task t, s.tasks.get? task = some t → TaskValid s root t

theorem mem_issuedUnder {issued : List (ℕ × ℕ)} {r n : ℕ} :
    n ∈ issuedUnder issued r ↔ (r, n) ∈ issued := by
  unfold issuedUnder
  simp

theorem issuedUnder_append (issued : List (ℕ × ℕ)) (r n k : ℕ) :
    issuedUnder (issued ++ [(k, n)]) r = issuedUnder issued r ++ if k = r then [n] else [] := by
  unfold issuedUnder
  by_cases hroot : k = r
  · simp [hroot]
  · simp [hroot]

section

variable {s next : State} {root depth : ℕ → ℕ}

theorem start_valid : Valid start root depth where
  forest := forest_nil
  rooted := ⟨by simp [start], by simp [start]⟩
  parseable := ⟨by simp [start], by simp [start]⟩
  present := by simp [start, Present]
  gapless := by simp [start]
  tasks := by simp [start]

theorem rootId_eq (hvalid : Valid s root depth) {ca : ℕ}
    (hca : ca ∈ s.db.caIds) : rootId s.db ca = some (root ca) := by
  obtain ⟨row, hrow, rfl⟩ := List.mem_map.mp hca
  obtain ⟨top, _, hclimb, _, hid⟩ := rootCa_eq hvalid.forest hvalid.rooted hrow
    (hvalid.forest.bound row hrow)
  unfold rootId
  rw [hclimb, map_some, hid]

theorem mem_presentUnder (hvalid : Valid s root depth) {r n : ℕ} :
    n ∈ presentUnder s.db r ↔ s.db.Present root r n := by
  unfold presentUnder Present
  simp only [mem_append, mem_filterMap, mem_filter, decide_eq_true_eq]
  refine or_congr ?_ ?_
  · constructor
    · intro hn
      obtain ⟨ca, ⟨hca, hroot⟩, hserial⟩ := hn
      rw [rootId_eq hvalid (List.mem_map_of_mem hca), some.injEq] at hroot
      exact ⟨ca, hca, hroot, hserial⟩
    · intro hn
      obtain ⟨ca, hca, hroot, hserial⟩ := hn
      refine ⟨ca, ⟨hca, ?_⟩, hserial⟩
      rw [rootId_eq hvalid (List.mem_map_of_mem hca), hroot]
  · constructor
    · intro hn
      obtain ⟨cert, ⟨hcert, hroot⟩, hserial⟩ := hn
      obtain ⟨p, hsigned, hp⟩ := bind_eq_some_iff.mp hroot
      rw [rootId_eq hvalid (hvalid.parseable.signers cert hcert p hsigned), some.injEq] at hp
      exact ⟨cert, hcert, p, hsigned, hp, hserial⟩
    · intro hn
      obtain ⟨cert, hcert, p, hsigned, hp, hserial⟩ := hn
      refine ⟨cert, ⟨hcert, ?_⟩, hserial⟩
      rw [hsigned, bind_some,
        rootId_eq hvalid (hvalid.parseable.signers cert hcert p hsigned), hp]

theorem exists_root (hvalid : Valid s root depth) {ca : ℕ} (hca : ca ∈ s.db.caIds) :
    ∃ top ∈ s.db.cas, top.id = root ca ∧ ∃ first, caSerial top = some first ∧
      s.db.Present root (root ca) first := by
  obtain ⟨row, hrow, rfl⟩ := List.mem_map.mp hca
  obtain ⟨top, htop, _, hnone, hid⟩ := rootCa_eq hvalid.forest hvalid.rooted
    hrow (hvalid.forest.bound row hrow)
  obtain ⟨first, hfirst⟩ := hvalid.parseable.cas top htop
  refine ⟨top, htop, hid, first, hfirst, Or.inl ⟨top, htop, ?_, hfirst⟩⟩
  rw [hvalid.rooted.top top htop hnone, hid]

theorem Valid.fewer (hvalid : Valid s root depth) {certs : List CertRow}
    {tasks : Dict ℕ Issuing} (hcerts : ∀ cert ∈ certs, cert ∈ s.db.certs)
    (htasks : ∀ task t, tasks.get? task = some t → s.tasks.get? task = some t) :
    Valid { s with db := { s.db with certs }, tasks } root depth := { hvalid with
  parseable := {
    cas := hvalid.parseable.cas
    signers := fun cert hcert => hvalid.parseable.signers cert (hcerts cert hcert) }
  present := by
    intro r n hn
    apply hvalid.present
    rcases hn with hn | hn
    · exact Or.inl hn
    · obtain ⟨cert, hcert, hrest⟩ := hn
      exact Or.inr ⟨cert, hcerts cert hcert, hrest⟩
  tasks := by
    intro task t ht
    have hold := hvalid.tasks task t (htasks task t ht)
    exact { hold with } }

theorem taskValid_read (hvalid : Valid s root depth) (kind : IssueKind)
    {ca serial r : ℕ} (hserial : s.db.getSerialForCertificate ca = some serial)
    (hroot : rootId s.db ca = some r) :
    TaskValid s root {
      kind, ca, serial, root := r
      issuedThen := issuedUnder s.issued r
      presentThen := presentUnder s.db r } := by
  have hca : ca ∈ s.db.caIds := by
    unfold rootId rootCa at hroot
    cases hlength : s.db.cas.length with
    | zero => simp [hlength] at hroot
    | succ fuel =>
      rw [hlength] at hroot
      cases hfind : s.db.cas.find? fun row => row.id = ca with
      | none => simp [hfind] at hroot
      | some row =>
        have hid : row.id = ca := by simpa using find?_some hfind
        exact hid ▸ List.mem_map_of_mem (mem_of_find?_eq_some hfind)
  rw [rootId_eq hvalid hca, some.injEq] at hroot
  subst hroot
  obtain ⟨largest, hget, hpresent, hmax⟩ := getSerialForCertificate_eq
    hvalid.forest hvalid.rooted hvalid.parseable hca
  rw [hserial, some.injEq] at hget
  obtain ⟨top, htop, hid, first, hfirst, hfirstPresent⟩ := exists_root hvalid hca
  constructor
  · exact hca
  · rfl
  · exact ⟨[], (append_nil _).symm⟩
  · refine ⟨largest, (mem_presentUnder hvalid).mpr hpresent, hget, ?_⟩
    intro n hn
    exact hmax n ((mem_presentUnder hvalid).mp hn)
  · intro n hn
    exact mem_issuedUnder.mpr (hvalid.present _ n ((mem_presentUnder hvalid).mp hn))
  · refine ⟨top, htop, hid, first, hfirst, ?_⟩
    intro n hn
    obtain ⟨other, hother, hotherId, first', hfirst', hle, hall⟩ :=
      hvalid.gapless _ n (mem_issuedUnder.mp hn)
    have hsame : other = top := hvalid.forest.eq_of_id hother htop (hotherId.trans hid.symm)
    rw [hsame, hfirst, some.injEq] at hfirst'
    subst hfirst'
    exact ⟨hle, fun m hm hmn => mem_issuedUnder.mpr (hall m hm hmn)⟩

theorem readSerial_eq_some {task ca : ℕ} {kind : IssueKind}
    (hstep : readSerial s task kind ca = some next) :
    ∃ serial r, s.db.getSerialForCertificate ca = some serial ∧ rootId s.db ca = some r ∧
      next = { s with
        tasks := s.tasks.set task {
          kind, ca, serial, root := r
          issuedThen := issuedUnder s.issued r
          presentThen := presentUnder s.db r } } := by
  unfold readSerial at hstep
  split at hstep
  · cases hstep
  · obtain ⟨serial, hserial, hstep⟩ := bind_eq_some_iff.mp hstep
    obtain ⟨r, hroot, hstep⟩ := bind_eq_some_iff.mp hstep
    exact ⟨serial, r, hserial, hroot, (some.inj hstep).symm⟩

theorem Valid.readSerial (hvalid : Valid s root depth) {task ca : ℕ}
    {kind : IssueKind} (hstep : readSerial s task kind ca = some next) :
    Valid next root depth := by
  obtain ⟨serial, r, hserial, hroot, rfl⟩ := readSerial_eq_some hstep
  have hread := taskValid_read hvalid kind hserial hroot
  exact { hvalid with
    tasks := by
      intro other t ht
      rw [Dict.get?_set] at ht
      split at ht
      · rw [← some.inj ht]
        exact { hread with }
      · have hold := hvalid.tasks other t ht
        exact { hold with } }

/-! ## Steps that issue a certificate -/

theorem Valid.issue (hvalid : Valid s root depth) {db : CertificateDatabase}
    {tasks : Dict ℕ Issuing} {root' depth' : ℕ → ℕ} {r n : ℕ}
    (hforest : Forest db.cas depth') (hrooted : Rooted db.cas root')
    (hparse : db.Parseable) (hcas : ∀ ca ∈ s.db.cas, ca ∈ db.cas)
    (hroot : ∀ k ∈ s.db.caIds, root' k = root k)
    (hpresent : ∀ r' m, db.Present root' r' m → s.db.Present root r' m ∨ (r', m) = (r, n))
    (htop : ∃ ca ∈ db.cas, ca.id = r ∧ ∃ first, caSerial ca = some first ∧
      first ≤ n ∧ ∀ m, first ≤ m → m ≤ n → m = n ∨ (r, m) ∈ s.issued)
    (htasks : ∀ task t, tasks.get? task = some t → s.tasks.get? task = some t) :
    Valid { db, tasks, issued := s.issued ++ [(r, n)] } root' depth' where
  forest := hforest
  rooted := hrooted
  parseable := hparse
  present := by
    intro r' m hm
    rcases hpresent r' m hm with hold | hnew
    · exact mem_append_left _ (hvalid.present r' m hold)
    · rw [hnew]
      exact mem_append_right _ (mem_singleton_self _)
  gapless := by
    intro r' m hm
    rcases mem_append.mp hm with hm | hm
    · obtain ⟨ca, hca, hid, first, hfirst, hle, hall⟩ := hvalid.gapless r' m hm
      refine ⟨ca, hcas ca hca, hid, first, hfirst, hle, ?_⟩
      intro k hk hkm
      exact mem_append_left _ (hall k hk hkm)
    · rw [mem_singleton, Prod.mk.injEq] at hm
      obtain ⟨rfl, rfl⟩ := hm
      obtain ⟨ca, hca, hid, first, hfirst, hle, hall⟩ := htop
      refine ⟨ca, hca, hid, first, hfirst, hle, ?_⟩
      intro k hk hkn
      rcases hall k hk hkn with heq | hissued
      · rw [heq]
        exact mem_append_right _ (mem_singleton_self _)
      · exact mem_append_left _ hissued
  tasks := by
    intro task t ht
    have hold := hvalid.tasks task t (htasks task t ht)
    obtain ⟨row, hrow, hid⟩ := List.mem_map.mp hold.ca
    constructor
    · exact List.mem_map.mpr ⟨row, hcas row hrow, hid⟩
    · rw [hroot t.ca hold.ca, hold.rooted]
    · obtain ⟨later, hlater⟩ := hold.earlier
      rw [issuedUnder_append, hlater, append_assoc]
      exact ⟨_, rfl⟩
    · exact hold.serial
    · exact hold.issued
    · obtain ⟨ca, hca, hrest⟩ := hold.gapless
      exact ⟨ca, hcas ca hca, hrest⟩

def rootUnder (root : ℕ → ℕ) (id : ℕ) : Option ℕ → ℕ
  | none => id
  | some p => root p

theorem present_concat_ca {id serial : ℕ} {name : String} {signedby : Option ℕ}
    (hvalid : Valid s root depth) {root' : ℕ → ℕ}
    (hroot : ∀ k ∈ s.db.caIds, root' k = root k) {r m : ℕ}
    (hpresent : Present { s.db with cas := s.db.cas ++ [caRow id name serial signedby] }
      root' r m) :
    s.db.Present root r m ∨ (r, m) = (root' id, serial) := by
  rcases hpresent with hca | hcert
  · obtain ⟨ca, hca, hr, hm⟩ := hca
    rcases mem_append.mp hca with hca | hca
    · rw [hroot ca.id (List.mem_map_of_mem hca)] at hr
      exact Or.inl (Or.inl ⟨ca, hca, hr, hm⟩)
    · rw [mem_singleton.mp hca] at hr hm
      simp only [caSerial, caRow, bind_some, some.injEq] at hr hm
      rw [hr, hm]
      exact Or.inr rfl
  · obtain ⟨cert, hcert, p, hsigned, hr, hm⟩ := hcert
    rw [hroot p (hvalid.parseable.signers cert hcert p hsigned)] at hr
    exact Or.inl (Or.inr ⟨cert, hcert, p, hsigned, hr, hm⟩)

theorem Valid.insertCa (hvalid : Valid s root depth) {id serial : ℕ}
    {name : String} {signedby : Option ℕ} {tasks : Dict ℕ Issuing}
    (hid : id ∉ s.db.caIds)
    (hsigner : ∀ p, signedby = some p → p ∈ s.db.caIds)
    (htop : ∀ p, signedby = some p →
      ∃ ca ∈ s.db.cas, ca.id = root p ∧ ∃ first, caSerial ca = some first ∧ first ≤ serial ∧
        ∀ m, first ≤ m → m ≤ serial → m = serial ∨ (root p, m) ∈ s.issued)
    (htasks : ∀ task t, tasks.get? task = some t → s.tasks.get? task = some t) :
    Valid {
      db := { s.db with cas := s.db.cas ++ [caRow id name serial signedby] }
      tasks
      issued := s.issued ++ [(rootUnder root id signedby, serial)] }
      (Function.update root id (rootUnder root id signedby))
      (Function.update depth id (depthUnder depth signedby)) := by
  have hold : ∀ k ∈ s.db.caIds,
      Function.update root id (rootUnder root id signedby) k = root k := by
    intro k hk
    apply update_of_ne
    intro heq
    exact hid (heq ▸ hk)
  have hcas : ∀ ca ∈ s.db.cas, ca ∈ s.db.cas ++ [caRow id name serial signedby] :=
    fun ca hca => mem_append_left _ hca
  apply hvalid.issue (hvalid.forest.insert hid hsigner) _ _ hcas hold _ _ htasks
  · constructor
    · intro ca hca hnone
      rcases mem_append.mp hca with hca | hca
      · rw [hold ca.id (List.mem_map_of_mem hca)]
        exact hvalid.rooted.top ca hca hnone
      · rw [mem_singleton.mp hca] at hnone ⊢
        simp only [caRow] at hnone ⊢
        rw [hnone, update_self]
        rfl
    · intro ca hca p hp
      rcases mem_append.mp hca with hca | hca
      · rw [hold ca.id (List.mem_map_of_mem hca), hold p (hvalid.forest.signer ca hca p hp).1]
        exact hvalid.rooted.signed ca hca p hp
      · rw [mem_singleton.mp hca] at hp ⊢
        simp only [caRow] at hp ⊢
        rw [hold p (hsigner p hp), hp, update_self]
        rfl
  · constructor
    · intro ca hca
      rcases mem_append.mp hca with hca | hca
      · exact hvalid.parseable.cas ca hca
      · rw [mem_singleton.mp hca]
        exact ⟨serial, rfl⟩
    · intro cert hcert p hp
      obtain ⟨row, hrow, heq⟩ := List.mem_map.mp (hvalid.parseable.signers cert hcert p hp)
      exact List.mem_map.mpr ⟨row, hcas row hrow, heq⟩
  · intro r m hm
    have hpresent := present_concat_ca hvalid hold hm
    rwa [update_self] at hpresent
  · cases hsigned : signedby with
    | none =>
      refine ⟨caRow id name serial none, ?_, rfl, serial, rfl, le_rfl, ?_⟩
      · exact mem_append_right _ (mem_singleton_self _)
      · intro m hm hmn
        exact Or.inl (Nat.le_antisymm hmn hm)
    | some p =>
      obtain ⟨ca, hca, hrest⟩ := htop p hsigned
      exact ⟨ca, mem_append_left _ hca, hrest⟩

theorem Valid.insertCert (hvalid : Valid s root depth) {id serial p : ℕ}
    {name : String} {tasks : Dict ℕ Issuing} (hsigner : p ∈ s.db.caIds)
    (htop : ∃ ca ∈ s.db.cas, ca.id = root p ∧ ∃ first, caSerial ca = some first ∧ first ≤ serial ∧
        ∀ m, first ≤ m → m ≤ serial → m = serial ∨ (root p, m) ∈ s.issued)
    (htasks : ∀ task t, tasks.get? task = some t → s.tasks.get? task = some t) :
    Valid {
      db := { s.db with certs := s.db.certs ++ [certRow id name serial p] }
      tasks
      issued := s.issued ++ [(root p, serial)] } root depth := by
  refine @Valid.issue s root depth hvalid
    { s.db with certs := s.db.certs ++ [certRow id name serial p] } tasks root
    depth (root p) serial hvalid.forest hvalid.rooted ?_
    (fun _ hca => hca) (fun _ _ => rfl) ?_ htop htasks
  · constructor
    · exact hvalid.parseable.cas
    · intro cert hcert q hq
      rcases mem_append.mp hcert with hcert | hcert
      · exact hvalid.parseable.signers cert hcert q hq
      · rw [mem_singleton.mp hcert] at hq
        rw [← some.inj hq]
        exact hsigner
  · intro r m hm
    rcases hm with hca | hcert
    · exact Or.inl (Or.inl hca)
    · obtain ⟨cert, hcert, q, hsigned, hr, hserial⟩ := hcert
      rcases mem_append.mp hcert with hcert | hcert
      · exact Or.inl (Or.inr ⟨cert, hcert, q, hsigned, hr, hserial⟩)
      · rw [mem_singleton.mp hcert] at hsigned hserial
        simp only [certSerial, certRow, bind_some, some.injEq] at hsigned hserial
        rw [← hr, ← hsigned, ← hserial]
        exact Or.inr rfl

theorem TaskValid.top {t : Issuing} (htask : TaskValid s root t) :
    ∃ ca ∈ s.db.cas, ca.id = t.root ∧ ∃ first, caSerial ca = some first ∧ first ≤ t.serial ∧
      ∀ m, first ≤ m → m ≤ t.serial → m = t.serial ∨ (t.root, m) ∈ s.issued := by
  obtain ⟨largest, hlargest, hserial, _⟩ := htask.serial
  obtain ⟨ca, hca, hid, first, hfirst, hall⟩ := htask.gapless
  obtain ⟨hle, hbelow⟩ := hall largest (htask.issued largest hlargest)
  obtain ⟨later, hlater⟩ := htask.earlier
  refine ⟨ca, hca, hid, first, hfirst, by omega, ?_⟩
  intro m hm hmn
  by_cases hnew : m = t.serial
  · exact Or.inl hnew
  · have hthen : m ∈ t.issuedThen := hbelow m hm (by omega)
    refine Or.inr (mem_issuedUnder.mp ?_)
    rw [hlater]
    exact mem_append_left later hthen

theorem TaskValid.notMem_issued_iff (hvalid : Valid s root depth) {t : Issuing}
    (htask : TaskValid s root t) (hdistinct : s.SerialsDistinct) :
    (t.root, t.serial) ∉ s.issued ↔ issuedUnder s.issued t.root = t.issuedThen ∧
        ∀ n ∈ t.issuedThen, ∃ m ∈ t.presentThen, n ≤ m := by
  obtain ⟨largest, hlargest, hserial, hmax⟩ := htask.serial
  obtain ⟨ca, hca, hid, first, hfirst, hall⟩ := htask.gapless
  obtain ⟨later, hlater⟩ := htask.earlier
  have hfirstLe := (hall largest (htask.issued largest hlargest)).1
  constructor
  · intro hnew
    -- nothing above the largest serial in the tables was ever issued
    have hbelow : ∀ n ∈ issuedUnder s.issued t.root, n ≤ largest := by
      intro n hn
      by_contra hlt
      obtain ⟨other, hother, hotherId, first', hfirst', _, hissued⟩ :=
        hvalid.gapless t.root n (mem_issuedUnder.mp hn)
      rw [hvalid.forest.eq_of_id hother hca (hotherId.trans hid.symm), hfirst,
        some.injEq] at hfirst'
      exact hnew (hissued t.serial (by omega) (by omega))
    constructor
    · have hnone : later = [] := by
        rw [eq_nil_iff_forall_not_mem]
        intro n hn
        have hle : n ≤ largest := by
          apply hbelow n
          rw [hlater]
          exact mem_append_right t.issuedThen hn
        have hmem : (t.root, n) ∈ s.issued := by
          apply mem_issuedUnder.mp
          rw [hlater]
          exact mem_append_right t.issuedThen hn
        obtain ⟨other, hother, hotherId, first', hfirst', hfirstLe', _⟩ :=
          hvalid.gapless t.root n hmem
        rw [hvalid.forest.eq_of_id hother hca (hotherId.trans hid.symm), hfirst,
          some.injEq] at hfirst'
        have hthen : n ∈ t.issuedThen :=
          (hall largest (htask.issued largest hlargest)).2 n (by omega) hle
        -- so it would have been issued twice
        have hnodup : (issuedUnder s.issued t.root).Nodup := by
          apply List.Nodup.map_on
          · intro a ha b hb heq
            have haRoot : a.1 = t.root := by simpa using (mem_filter.mp ha).2
            have hbRoot : b.1 = t.root := by simpa using (mem_filter.mp hb).2
            exact Prod.ext (haRoot.trans hbRoot.symm) heq
          · exact List.Nodup.filter _ hdistinct
        rw [hlater] at hnodup
        exact (nodup_append.mp hnodup).2.2 n hthen n hn rfl
      rw [hlater, hnone, append_nil]
    · intro n hn
      refine ⟨largest, hlargest, hbelow n ?_⟩
      rw [hlater]
      exact mem_append_left later hn
  · intro hfresh hmem
    obtain ⟨hsame, hpresent⟩ := hfresh
    have hn := mem_issuedUnder.mpr hmem
    rw [hsame] at hn
    obtain ⟨m, hm, hle⟩ := hpresent t.serial hn
    have hbound := hmax m hm
    omega

/-! ## Every step -/

theorem store_eq_some {task id : ℕ} {name : String} (hstep : store s task id name = some next) :
    ∃ t db, s.tasks.get? task = some t ∧ insertRow s.db t.kind id name t.serial t.ca = some db ∧
      next = {
        db
        tasks := s.tasks.erase task
        issued := s.issued ++ [(t.root, t.serial)] } := by
  obtain ⟨t, ht, hstep⟩ := bind_eq_some_iff.mp hstep
  obtain ⟨db, hdb, hstep⟩ := bind_eq_some_iff.mp hstep
  exact ⟨t, db, ht, hdb, (some.inj hstep).symm⟩

theorem get?_of_erase {tasks : Dict ℕ Issuing} {task other : ℕ} {t : Issuing}
    (hget : (tasks.erase task).get? other = some t) :
    tasks.get? other = some t := by
  rw [Dict.get?_erase] at hget
  split at hget
  · cases hget
  · exact hget

theorem Valid.store (hvalid : Valid s root depth) {task id : ℕ} {name : String}
    (hstep : store s task id name = some next) :
    ∃ root' depth', Valid next root' depth' := by
  obtain ⟨t, db, ht, hinsert, rfl⟩ := store_eq_some hstep
  have htask := hvalid.tasks task t ht
  have htop := htask.top
  rw [← htask.rooted] at htop ⊢
  have htasks : ∀ other t', (s.tasks.erase task).get? other = some t' →
      s.tasks.get? other = some t' := fun _ _ => get?_of_erase
  unfold insertRow at hinsert
  cases hkind : t.kind with
  | intermediate =>
    simp only [hkind, ite_none_left_eq_some, some.injEq] at hinsert
    obtain ⟨hid, rfl⟩ := hinsert
    refine ⟨_, _, @Valid.insertCa s root depth hvalid id t.serial name
      (some t.ca) (s.tasks.erase task) hid ?_ ?_ htasks⟩
    · intro p hp
      rw [← some.inj hp]
      exact htask.ca
    · intro p hp
      rw [← some.inj hp]
      exact htop
  | internal =>
    simp only [hkind, ite_none_left_eq_some, some.injEq] at hinsert
    obtain ⟨_, rfl⟩ := hinsert
    exact ⟨root, depth, hvalid.insertCert htask.ca htop htasks⟩
  | signCsr =>
    simp only [hkind, ite_none_left_eq_some, some.injEq] at hinsert
    obtain ⟨_, rfl⟩ := hinsert
    exact ⟨root, depth, hvalid.insertCert htask.ca htop htasks⟩

theorem createInternalCa_eq_some {id serial : ℕ} {name : String}
    (hstep : createInternalCa s id serial name = some next) :
    id ∉ s.db.caIds ∧ next = { s with
        db := { s.db with cas := s.db.cas ++ [caRow id name serial none] }
        issued := s.issued ++ [(id, serial)] } := by
  unfold createInternalCa at hstep
  rw [ite_none_left_eq_some, some.injEq] at hstep
  exact ⟨hstep.1, hstep.2.symm⟩

theorem valid_step {a : Action} (hvalid : ∃ root depth, Valid s root depth)
    (hstep : step s a = some next) : ∃ root depth, Valid next root depth := by
  obtain ⟨root, depth, hvalid⟩ := hvalid
  cases a with
  | createInternalCa id serial name =>
    obtain ⟨hid, rfl⟩ := createInternalCa_eq_some hstep
    exact ⟨_, _, @Valid.insertCa s root depth hvalid id serial name none
      s.tasks hid (by simp) (by simp) (fun _ _ ht => ht)⟩
  | readSerial task kind ca =>
    exact ⟨root, depth, hvalid.readSerial hstep⟩
  | store task id name => exact hvalid.store hstep
  | abandon task =>
    obtain ⟨_, rfl⟩ := ite_some_none_eq_some.mp hstep
    exact ⟨root, depth, hvalid.fewer (fun _ hcert => hcert) fun _ _ => get?_of_erase⟩
  | deleteCertificate id =>
    obtain ⟨_, rfl⟩ := ite_some_none_eq_some.mp hstep
    exact ⟨root, depth, hvalid.fewer (fun _ hcert => mem_of_mem_filter hcert) fun _ _ ht => ht⟩

theorem serialsDistinct_step {a : Action}
    (hvalid : ∃ root depth, Valid s root depth) (hdistinct : s.SerialsDistinct)
    (hstep : step s a = some next) :
    next.SerialsDistinct ↔ StoresFresh s a := by
  obtain ⟨root, depth, hvalid⟩ := hvalid
  have hconcat : ∀ entry, (s.issued ++ [entry]).Nodup ↔ entry ∉ s.issued := by
    intro entry
    rw [nodup_append]
    constructor
    · intro hnodup hmem
      exact hnodup.2.2 entry hmem entry (mem_singleton_self entry) rfl
    · intro hnew
      refine ⟨hdistinct, nodup_singleton entry, ?_⟩
      intro other hother last hlast
      rw [mem_singleton.mp hlast]
      intro heq
      exact hnew (heq ▸ hother)
  cases a with
  | createInternalCa id serial name =>
    obtain ⟨hid, rfl⟩ := createInternalCa_eq_some hstep
    refine iff_of_true ((hconcat (id, serial)).mpr ?_) trivial
    intro hmem
    obtain ⟨ca, hca, heq, _⟩ := hvalid.gapless id serial hmem
    exact hid (heq ▸ List.mem_map_of_mem hca)
  | readSerial task kind ca =>
    obtain ⟨serial, r, _, _, rfl⟩ := readSerial_eq_some hstep
    exact iff_of_true hdistinct trivial
  | store task id name =>
    obtain ⟨t, db, ht, _, rfl⟩ := store_eq_some hstep
    have hfresh := (hvalid.tasks task t ht).notMem_issued_iff hvalid hdistinct
    refine (hconcat (t.root, t.serial)).trans (hfresh.trans ?_)
    unfold StoresFresh
    simp only [ht, some.injEq, forall_eq']
  | abandon task =>
    obtain ⟨_, rfl⟩ := ite_some_none_eq_some.mp hstep
    exact iff_of_true hdistinct trivial
  | deleteCertificate id =>
    obtain ⟨_, rfl⟩ := ite_some_none_eq_some.mp hstep
    exact iff_of_true hdistinct trivial

end

/-- Along a run from empty tables no serial is repeated under a root exactly
when every certificate that is stored had its serial read from tables that
still held the largest serial issued, with nothing stored under the root since. -/
theorem serialsDistinct_iff {actions : List Action} {s : State}
    (hrun : run step start actions = some s) :
    EveryStep step StoresFresh start actions ↔
      ∀ k u, run step start (actions.take k) = some u → u.SerialsDistinct :=
  everyStep_iff_forall_take (fun s => ∃ root depth, Valid s root depth) (fun _ _ _ => valid_step)
    (fun _ _ _ hvalid hdistinct hstep =>
      serialsDistinct_step hvalid hdistinct hstep)
    ⟨id, id, start_valid⟩ nodup_nil hrun

def oneByOne : List Action := [
  .createInternalCa 1 7 "root",
  .readSerial 1 .intermediate 1,
  .store 1 2 "below",
  .readSerial 2 .internal 2,
  .store 2 1 "leaf",
  .deleteCertificate 1]

theorem serialsDistinct_oneByOne : ∃ s, run step start oneByOne = some s ∧
    ∀ k u, run step start (oneByOne.take k) = some u → u.SerialsDistinct := by
  have hsome : (run step start oneByOne).isSome := by decide
  obtain ⟨s, hrun⟩ := isSome_iff_exists.mp hsome
  refine ⟨s, hrun, (serialsDistinct_iff hrun).mp ?_⟩
  refine everyStep_cons trivial rfl (everyStep_cons trivial rfl (everyStep_cons ?_ rfl
    (everyStep_cons trivial rfl (everyStep_cons ?_ rfl (everyStep_cons trivial rfl trivial)))))
  · intro t ht
    rw [← Option.some.inj ht]
    decide
  · intro t ht
    rw [← Option.some.inj ht]
    decide

def overlapping : List Action := [
  .createInternalCa 1 7 "root",
  .readSerial 1 .signCsr 1,
  .readSerial 2 .signCsr 1,
  .store 1 1 "first",
  .store 2 2 "second"]

/-- Two signings that overlap read the same next serial. -/
theorem serial_repeated : ∃ s, run step start overlapping = some s ∧ ¬ s.SerialsDistinct := by
  have hrun : (run step start overlapping).map State.issued =
      some [(1, 7), (1, 8), (1, 8)] := by decide
  obtain ⟨s, hs, hissued⟩ := map_eq_some_iff.mp hrun
  refine ⟨s, hs, ?_⟩
  unfold State.SerialsDistinct
  rw [hissued]
  decide

end Middlewared.CaIssuing
