import Middlewared.CaRevocation
import Middlewared.Dict

/-!
# What a call writes to the tables of certificates

Both tables are looked at as one list of entries: what revoking an authority
writes to it, what the change of one row does, and what a new row adds.
-/

namespace Middlewared.CaRevocation

open CertificateDatabase TransitionSystem List Option

structure TableRow where
  entry : ChainEntry
  (signedby revokedDate : Option ℕ)
  trusted : Bool

def ofCa (ca : CaRow) : TableRow where
  entry := .ca ca.id
  signedby := ca.signedby
  revokedDate := ca.revokedDate
  trusted := ca.addToTrustedStore

def ofCert (cert : CertRow) : TableRow where
  entry := .certificate cert.id
  signedby := cert.signedby
  revokedDate := cert.revokedDate
  trusted := cert.addToTrustedStore

def rows (db : CertificateDatabase) : List TableRow :=
  db.cas.map ofCa ++ db.certs.map ofCert

def RevokedCa (db : CertificateDatabase) (caId : ℕ) : Prop :=
  ∃ ca ∈ db.cas, ca.id = caId ∧ ca.revokedDate.isSome

/-- Whatever is signed, through any number of authorities, by one that is
revoked is revoked. -/
def Covered (db : CertificateDatabase) : Prop :=
  ∀ row ∈ rows db, ∀ p, row.signedby = some p →
    ∀ q, TreeWalk.Below (childIds db) q p → RevokedCa db q → row.revokedDate.isSome

def Distrusted (db : CertificateDatabase) : Prop :=
  ∀ row ∈ rows db, row.revokedDate.isSome → row.trusted = false

def DatesKept (before after : CertificateDatabase) : Prop :=
  ∀ row ∈ rows before, ∀ date, row.revokedDate = some date →
    ∃ later ∈ rows after, later.entry = row.entry ∧
      ∃ kept, later.revokedDate = some kept ∧ kept ≤ date

theorem datesKept_refl (db : CertificateDatabase) : DatesKept db db :=
  fun row hrow date hdate => ⟨row, hrow, rfl, date, hdate, le_refl date⟩

theorem DatesKept.trans {first second third : CertificateDatabase}
    (hfirst : DatesKept first second) (hsecond : DatesKept second third) :
    DatesKept first third := by
  intro row hrow date hdate
  rcases hfirst row hrow date hdate with
    ⟨middle, hmiddle, hentry, kept, hkept, hle⟩
  rcases hsecond middle hmiddle kept hkept with
    ⟨later, hlater, hentry', kept', hkept', hle'⟩
  exact ⟨later, hlater, hentry'.trans hentry, kept', hkept', hle'.trans hle⟩

variable {db : CertificateDatabase}

theorem revokedCa_iff {caId : ℕ} : RevokedCa db caId ↔
    ∃ row ∈ rows db, row.entry = .ca caId ∧ row.revokedDate.isSome := by
  constructor
  · intro hrevoked
    rcases hrevoked with ⟨ca, hca, hid, hdate⟩
    refine ⟨ofCa ca, ?_, by simp [ofCa, hid], hdate⟩
    exact mem_append_left _ (List.mem_map_of_mem hca)
  · intro hrow
    rcases hrow with ⟨row, hrow, hentry, hdate⟩
    rcases mem_append.mp hrow with hrow | hrow
    · rcases List.mem_map.mp hrow with ⟨ca, hca, heq⟩
      rw [← heq] at hentry hdate
      exact ⟨ca, hca, ChainEntry.ca.inj hentry, hdate⟩
    · rcases List.mem_map.mp hrow with ⟨cert, _, heq⟩
      rw [← heq] at hentry
      cases hentry

theorem covered_iff : Covered db ↔ ∀ row ∈ rows db, ∀ p, row.signedby = some p →
    RevokedCa db p → row.revokedDate.isSome := by
  constructor
  · intro hcovered row hrow p hp hrevoked
    exact hcovered row hrow p hp p (TreeWalk.Below.refl p) hrevoked
  · intro hsigner
    have hbelow : ∀ q p, TreeWalk.Below (childIds db) q p → RevokedCa db q → RevokedCa db p := by
      intro q p hbelow hrevoked
      induction hbelow with
      | refl => exact hrevoked
      | tail _ hchild ih =>
        rcases List.mem_map.mp hchild with ⟨ca, hca, hid⟩
        unfold signedCas at hca
        rw [mem_filter, decide_eq_true_eq] at hca
        have hmem : ofCa ca ∈ rows db := mem_append_left _ (List.mem_map_of_mem hca.1)
        exact ⟨ca, hca.1, hid, hsigner _ hmem _ hca.2 ih⟩
    intro row hrow p hp q hq hrevoked
    exact hsigner row hrow p hp (hbelow q p hq hrevoked)

def lastWrite (writes : List (ChainEntry × ℕ)) (entry : ChainEntry) :
    Option ℕ :=
  writes.reverse.lookup entry

def TableRow.dated (row : TableRow) (date : Option ℕ) : TableRow :=
  { row with revokedDate := date.or row.revokedDate }

theorem rows_setRevokedDate (db : CertificateDatabase) (entry : ChainEntry) (date : ℕ) :
    rows (setRevokedDate db entry date) = (rows db).map fun row =>
      row.dated (if row.entry = entry then some date else none) := by
  unfold rows setRevokedDate
  cases entry with
  | certificate id =>
    simp only [map_append, List.map_map]
    congr 1
    apply map_congr_left
    intro cert _
    by_cases hid : cert.id = id
    · simp [ofCert, TableRow.dated, hid]
    · simp [ofCert, TableRow.dated, hid]
  | ca id =>
    simp only [map_append, List.map_map]
    congr 1
    apply map_congr_left
    intro ca _
    by_cases hid : ca.id = id
    · simp [ofCa, TableRow.dated, hid]
    · simp [ofCa, TableRow.dated, hid]

theorem rows_writeDates (db : CertificateDatabase) (writes : List (ChainEntry × ℕ)) :
    rows (writeDates db writes) =
      (rows db).map fun row => row.dated (lastWrite writes row.entry) := by
  induction writes using List.reverseRecOn with
  | nil =>
    have hsame : ∀ row : TableRow, row.dated (lastWrite [] row.entry) = row := fun row => rfl
    simp [writeDates, hsame]
  | append_singleton writes write ih =>
    have hwrite : writeDates db (writes ++ [write]) =
        setRevokedDate (writeDates db writes) write.1 write.2 := by
      simp [writeDates]
    rw [hwrite, rows_setRevokedDate, ih, List.map_map]
    apply map_congr_left
    intro row _
    have hlast : lastWrite (writes ++ [write]) row.entry = if row.entry = write.1 then some write.2
        else lastWrite writes row.entry := by
      unfold lastWrite
      rw [reverse_append, reverse_singleton, singleton_append, lookup_cons]
      by_cases hentry : row.entry = write.1
      · simp [hentry]
      · have hne : (row.entry == write.1) = false := by simpa using hentry
        simp [hentry, hne]
    rw [hlast]
    by_cases hentry : row.entry = write.1
    · simp [TableRow.dated, hentry]
    · simp [TableRow.dated, hentry]

/-- Ids are unique, and a signer is there before what it signs. -/
structure Valid (db : CertificateDatabase) (depth : ℕ → ℕ) : Prop where
  forest : Forest db.cas depth
  certIds : (db.certs.map CertRow.id).Nodup
  signers : ∀ row ∈ rows db, ∀ p, row.signedby = some p → p ∈ db.caIds

variable {depth : ℕ → ℕ} {row : TableRow}

theorem Valid.eq_of_entry (hvalid : Valid db depth) {other : TableRow}
    (hrow : row ∈ rows db) (hother : other ∈ rows db)
    (hentry : row.entry = other.entry) : row = other := by
  unfold rows at hrow hother
  simp only [mem_append, List.mem_map] at hrow hother
  rcases hrow with ⟨ca, hca, heq⟩ | ⟨cert, hcert, heq⟩ <;>
    rcases hother with ⟨ca', hca', heq'⟩ | ⟨cert', hcert', heq'⟩ <;> rw [← heq, ← heq'] at hentry ⊢
  · rw [hvalid.forest.eq_of_id hca hca' (ChainEntry.ca.inj hentry)]
  · cases hentry
  · cases hentry
  · rw [inj_on_of_nodup_map hvalid.certIds hcert hcert' (ChainEntry.certificate.inj hentry)]

theorem getCaChain_eq (hforest : Forest db.cas depth) (caId : ℕ) :
    ∃ chain, getCaChain db caId = some chain ∧ .ca caId ∈ chain ∧
      ∀ row ∈ rows db, ∀ p, row.signedby = some p → .ca p ∈ chain → row.entry ∈ chain := by
  have hrank : ∀ a b, b ∈ childIds db a → db.cas.length - depth b < db.cas.length - depth a := by
    intro a b hb
    rcases List.mem_map.mp hb with ⟨ca, hca, hid⟩
    unfold signedCas at hca
    rw [mem_filter, decide_eq_true_eq] at hca
    have hless := (hforest.signer ca hca.1 a hca.2).2
    have hbound := hforest.bound ca hca.1
    rw [hid] at hless hbound
    omega
  have hfuel : db.cas.length - depth caId < db.cas.length + 1 := by omega
  have hgather := @TreeWalk.gather_eq_some _ _ _ (certEntries db)
    (fun id => [.ca id]) _ hrank _ caId hfuel
  rcases hgather with ⟨chain, hchain, hmem⟩
  have hbelow : ∀ p, .ca p ∈ chain ↔ TreeWalk.Below (childIds db) caId p := by
    intro p
    rw [hmem]
    constructor
    · intro hp
      rcases hp with ⟨b, hb, hcert | hca⟩
      · simp [certEntries] at hcert
      · rw [mem_singleton, ChainEntry.ca.injEq] at hca
        exact hca ▸ hb
    · intro hp
      exact ⟨p, hp, Or.inr (mem_singleton.mpr rfl)⟩
  refine ⟨chain, hchain, (hbelow caId).mpr (TreeWalk.Below.refl caId), ?_⟩
  intro row hrow p hp hchainCa
  rcases mem_append.mp hrow with hrow | hrow
  · rcases List.mem_map.mp hrow with ⟨ca, hca, heq⟩
    rw [← heq] at hp ⊢
    refine (hbelow ca.id).mpr (((hbelow p).mp hchainCa).tail ?_)
    refine List.mem_map.mpr ⟨ca, ?_, rfl⟩
    unfold signedCas
    rw [mem_filter, decide_eq_true_eq]
    exact ⟨hca, hp⟩
  · rcases List.mem_map.mp hrow with ⟨cert, hcert, heq⟩
    rw [← heq] at hp ⊢
    refine (hmem _).mpr ⟨p, (hbelow p).mp hchainCa, Or.inl ?_⟩
    refine List.mem_map.mpr ⟨cert, ?_, rfl⟩
    unfold signedCerts
    rw [mem_filter, decide_eq_true_eq]
    exact ⟨hcert, hp⟩

theorem lastWrite_stamped_isSome {chain : List ChainEntry} {clock : ℕ}
    {delays : List ℕ} {entry : ChainEntry} :
    (lastWrite (stamped chain clock delays) entry).isSome ↔ entry ∈ chain := by
  have hfst : (stamped chain clock delays).map Prod.fst = chain := by
    unfold stamped
    rw [List.map_map]
    exact zipIdx_map_fst 0 chain
  unfold lastWrite
  rw [Dict.lookup_isSome_iff, map_reverse, hfst, mem_reverse]

structure InOrder (db : CertificateDatabase) : Prop where
  covered : Covered db
  distrusted : Distrusted db

def RevokesFresh (db : CertificateDatabase) (writes : List (ChainEntry × ℕ)) :
    Prop :=
  ∀ row ∈ rows db, ∀ date, lastWrite writes row.entry = some date →
    row.trusted = false ∧ ∀ old, row.revokedDate = some old → date ≤ old

theorem mem_rows_writeDates {writes : List (ChainEntry × ℕ)} : row ∈ rows (writeDates db writes) ↔
    ∃ old ∈ rows db, old.dated (lastWrite writes old.entry) = row := by
  rw [rows_writeDates, List.mem_map]

theorem covered_writeDates (hvalid : Valid db depth) {chain : List ChainEntry}
    {clock : ℕ} {delays : List ℕ} {caId : ℕ}
    (hchain : getCaChain db caId = some chain) (hcovered : Covered db) :
    Covered (writeDates db (stamped chain clock delays)) := by
  rcases getCaChain_eq hvalid.forest caId with ⟨chain', hchain', _, hclosed⟩
  rw [hchain, some.injEq] at hchain'
  subst hchain'
  rw [covered_iff] at hcovered ⊢
  intro row hrow p hp hrevoked
  rcases mem_rows_writeDates.mp hrow with ⟨old, hold, heq⟩
  rw [← heq] at hp ⊢
  have holdSigned : old.signedby = some p := hp
  cases hwrite : lastWrite (stamped chain clock delays) old.entry with
  | some date => rfl
  | none =>
    -- the signer is not in the chain either, so that it was revoked before
    rcases revokedCa_iff.mp hrevoked with ⟨signer, hsigner, hentry, hdate⟩
    rcases mem_rows_writeDates.mp hsigner with ⟨oldSigner, hmem, hsame⟩
    rw [← hsame] at hentry hdate
    have hsignerEntry : oldSigner.entry = .ca p := hentry
    have hout : .ca p ∉ chain := by
      intro hin
      have hrowIn := hclosed old hold p holdSigned hin
      rw [← @lastWrite_stamped_isSome chain clock delays, hwrite] at hrowIn
      cases hrowIn
    have hnone : lastWrite (stamped chain clock delays) (.ca p) = none := by
      rw [← not_isSome_iff_eq_none, lastWrite_stamped_isSome]
      exact hout
    rw [hsignerEntry, hnone] at hdate
    exact hcovered old hold p holdSigned (revokedCa_iff.mpr ⟨oldSigner, hmem, hsignerEntry, hdate⟩)

theorem writeDates_iff (hvalid : Valid db depth) (hdistrusted : Distrusted db)
    (writes : List (ChainEntry × ℕ)) :
    Distrusted (writeDates db writes) ∧ DatesKept db (writeDates db writes) ↔
      RevokesFresh db writes := by
  constructor
  · intro hboth row hrow date hdate
    have hmem : row.dated (some date) ∈ rows (writeDates db writes) :=
      mem_rows_writeDates.mpr ⟨row, hrow, by rw [hdate]⟩
    have htrusted := hboth.1 _ hmem rfl
    refine ⟨htrusted, ?_⟩
    intro old hold
    rcases hboth.2 row hrow old hold with
      ⟨later, hlater, hentry, kept, hkept, hle⟩
    rcases mem_rows_writeDates.mp hlater with ⟨other, hother, heq⟩
    have hotherEntry : other.entry = row.entry := by
      rw [← hentry, ← heq]
      rfl
    have hsame := hvalid.eq_of_entry hother hrow hotherEntry
    rw [← heq, hsame, hdate] at hkept
    have hdateKept : date = kept := some.inj hkept
    rw [hdateKept]
    exact hle
  · intro hfresh
    constructor
    · intro row hrow hdate
      rcases mem_rows_writeDates.mp hrow with ⟨old, hold, heq⟩
      rw [← heq] at hdate ⊢
      cases hwrite : lastWrite writes old.entry with
      | none =>
        rw [hwrite] at hdate
        exact hdistrusted old hold hdate
      | some date => exact (hfresh old hold date hwrite).1
    · intro row hrow old hold
      refine ⟨_, mem_rows_writeDates.mpr ⟨row, hrow, rfl⟩, rfl, ?_⟩
      cases hwrite : lastWrite writes row.entry with
      | none => exact ⟨old, hold, le_refl old⟩
      | some date => exact ⟨date, rfl, (hfresh row hrow date hwrite).2 old hold⟩

/-! ## Changes that keep ids and signers -/

def keys (db : CertificateDatabase) :
    List (ℕ × Option ℕ) × List (ℕ × Option ℕ) :=
  (db.cas.map fun ca => (ca.id, ca.signedby), db.certs.map fun cert => (cert.id, cert.signedby))

section

variable {db other : CertificateDatabase} {depth : ℕ → ℕ}

variable (hkeys : keys other = keys db)

include hkeys

theorem caIds_of_keys : other.caIds = db.caIds := by
  have hfst := congrArg (fun both => both.1.map Prod.fst) hkeys
  simpa [keys, caIds, Function.comp_def] using hfst

theorem childIds_of_keys : childIds other = childIds db := by
  have heq : ∀ d : CertificateDatabase, childIds d = fun caId =>
      ((keys d).1.filter fun key => key.2 = some caId).map Prod.fst := by
    intro d
    funext caId
    unfold childIds signedCas keys
    rw [List.filter_map, List.map_map]
    rfl
  rw [heq, heq, hkeys]

theorem certEntries_of_keys : certEntries other = certEntries db := by
  have heq : ∀ d : CertificateDatabase, certEntries d = fun caId =>
      ((keys d).2.filter fun key => key.2 = some caId).map fun key =>
        .certificate key.1 := by
    intro d
    funext caId
    unfold certEntries signedCerts keys
    rw [List.filter_map, List.map_map]
    rfl
  rw [heq, heq, hkeys]

theorem getCaChain_of_keys : getCaChain other = getCaChain db := by
  have hlength : other.cas.length = db.cas.length := by
    have hboth := congrArg (fun both => both.1.length) hkeys
    simpa [keys] using hboth
  unfold getCaChain
  rw [childIds_of_keys hkeys, certEntries_of_keys hkeys, hlength]

omit hkeys

theorem Valid.of_keys (hvalid : Valid db depth) (hkeys : keys other = keys db) :
    Valid other depth := by
  have hcas : ∀ ca ∈ other.cas, ∃ old ∈ db.cas, old.id = ca.id ∧ old.signedby = ca.signedby := by
    intro ca hca
    have hmem : (ca.id, ca.signedby) ∈ (keys other).1 := List.mem_map.mpr ⟨ca, hca, rfl⟩
    rw [hkeys] at hmem
    rcases List.mem_map.mp hmem with ⟨old, hold, heq⟩
    exact ⟨old, hold, congrArg Prod.fst heq, congrArg Prod.snd heq⟩
  have hcerts : ∀ cert ∈ other.certs, ∃ old ∈ db.certs,
      old.id = cert.id ∧ old.signedby = cert.signedby := by
    intro cert hcert
    have hmem : (cert.id, cert.signedby) ∈ (keys other).2 := List.mem_map.mpr ⟨cert, hcert, rfl⟩
    rw [hkeys] at hmem
    rcases List.mem_map.mp hmem with ⟨old, hold, heq⟩
    exact ⟨old, hold, congrArg Prod.fst heq, congrArg Prod.snd heq⟩
  have hids := caIds_of_keys hkeys
  unfold caIds at hids
  constructor
  · constructor
    · rw [hids]
      exact hvalid.forest.ids
    · intro ca hca p hp
      rcases hcas ca hca with ⟨old, hold, hid, hsigned⟩
      rw [hids, ← hid]
      exact hvalid.forest.signer old hold p (hsigned.trans hp)
    · intro ca hca
      rcases hcas ca hca with ⟨old, hold, hid, _⟩
      have hlength := congrArg List.length hids
      rw [length_map, length_map] at hlength
      rw [← hid, hlength]
      exact hvalid.forest.bound old hold
  · have hcertIds := congrArg (fun both => both.2.map Prod.fst) hkeys
    have hsame : other.certs.map CertRow.id = db.certs.map CertRow.id := by
      simpa [keys, Function.comp_def] using hcertIds
    rw [hsame]
    exact hvalid.certIds
  · intro row hrow p hp
    rw [caIds_of_keys hkeys]
    rcases mem_append.mp hrow with hrow | hrow
    · rcases List.mem_map.mp hrow with ⟨ca, hca, heq⟩
      rcases hcas ca hca with ⟨old, hold, _, hsigned⟩
      rw [← heq] at hp
      exact hvalid.signers (ofCa old) (mem_append_left _ (List.mem_map_of_mem hold)) p
        (hsigned.trans hp)
    · rcases List.mem_map.mp hrow with ⟨cert, hcert, heq⟩
      rcases hcerts cert hcert with ⟨old, hold, _, hsigned⟩
      rw [← heq] at hp
      exact hvalid.signers (ofCert old) (mem_append_right _ (List.mem_map_of_mem hold)) p
        (hsigned.trans hp)

theorem keys_setRevokedDate (db : CertificateDatabase) (entry : ChainEntry)
    (date : ℕ) : keys (setRevokedDate db entry date) = keys db := by
  unfold keys setRevokedDate
  cases entry with
  | certificate id =>
    simp only [List.map_map, Prod.mk.injEq, true_and]
    apply map_congr_left
    intro cert _
    by_cases hid : cert.id = id <;> simp [hid]
  | ca id =>
    simp only [List.map_map, Prod.mk.injEq, and_true]
    apply map_congr_left
    intro ca _
    by_cases hid : ca.id = id <;> simp [hid]

theorem keys_writeDates (db : CertificateDatabase)
    (writes : List (ChainEntry × ℕ)) : keys (writeDates db writes) = keys db := by
  unfold writeDates
  induction writes generalizing db with
  | nil => rfl
  | cons write rest ih =>
    rw [foldl_cons, ih, keys_setRevokedDate]

theorem keys_setCa (db : CertificateDatabase) (id : ℕ) (change : Change) :
    keys (setCa db id change) = keys db := by
  unfold keys setCa
  simp only [List.map_map, Prod.mk.injEq, and_true]
  apply map_congr_left
  intro ca _
  by_cases hid : ca.id = id <;> simp [hid]

theorem keys_setCert (db : CertificateDatabase) (id : ℕ) (change : Change)
    (date : ℕ) : keys (setCert db id change date) = keys db := by
  unfold keys setCert
  simp only [List.map_map, Prod.mk.injEq, true_and]
  apply map_congr_left
  intro cert _
  by_cases hid : cert.id = id <;> simp [hid]

end

def TableRow.changed (row : TableRow) (trusted : Bool) (date : Option ℕ) :
    TableRow :=
  { row with trusted, revokedDate := row.revokedDate.or date }

theorem changed_inOrder {next : CertificateDatabase} {entry : ChainEntry}
    {trusted : Bool} {date : Option ℕ} (hin : InOrder db)
    (hrows : rows next = (rows db).map fun row =>
      if row.entry = entry then row.changed trusted date else row)
    (htrusted : ∀ row ∈ rows db, row.entry = entry →
      (row.revokedDate.or date).isSome → trusted = false)
    (hcertificate : date.isSome → ∀ id, entry ≠ .ca id) :
    InOrder next ∧ DatesKept db next := by
  have hmem : ∀ row, row ∈ rows next ↔ ∃ old ∈ rows db,
      (if old.entry = entry then old.changed trusted date else old) = row := by
    intro row
    rw [hrows, List.mem_map]
  have hrevoked : ∀ p, RevokedCa next p → RevokedCa db p := by
    intro p hp
    rcases revokedCa_iff.mp hp with ⟨row, hrow, hentry, hdate⟩
    rcases (hmem row).mp hrow with ⟨old, hold, heq⟩
    rw [← heq] at hentry hdate
    by_cases hsame : old.entry = entry
    · rw [if_pos hsame] at hentry hdate
      cases hnew : date with
      | none =>
        rw [hnew] at hdate
        exact revokedCa_iff.mpr ⟨old, hold, hentry, by simpa [TableRow.changed] using hdate⟩
      | some new =>
        have hne := hcertificate (by rw [hnew]; rfl) p
        exact absurd (hsame.symm.trans hentry) hne
    · rw [if_neg hsame] at hentry hdate
      exact revokedCa_iff.mpr ⟨old, hold, hentry, hdate⟩
  refine ⟨⟨?_, ?_⟩, ?_⟩
  · rw [covered_iff]
    intro row hrow p hp hsigner
    rcases (hmem row).mp hrow with ⟨old, hold, heq⟩
    have hsigned : old.signedby = some p := by
      rw [← heq] at hp
      split_ifs at hp
      · exact hp
      · exact hp
    have hold' := covered_iff.mp hin.covered old hold p hsigned (hrevoked p hsigner)
    rw [← heq]
    split_ifs
    · simp [TableRow.changed, hold']
    · exact hold'
  · intro row hrow hdate
    rcases (hmem row).mp hrow with ⟨old, hold, heq⟩
    rw [← heq] at hdate ⊢
    split_ifs at hdate ⊢ with hsame
    · exact htrusted old hold hsame hdate
    · exact hin.distrusted old hold hdate
  · intro row hrow old hold
    refine ⟨_, (hmem _).mpr ⟨row, hrow, rfl⟩, ?_, old, ?_, le_refl old⟩
    · split_ifs <;> rfl
    · split_ifs
      · simp [TableRow.changed, hold]
      · exact hold

theorem created_iff {next : CertificateDatabase} (hin : InOrder db)
    (hrows : ∀ other, other ∈ rows next ↔ other ∈ rows db ∨ other = row)
    (hdate : row.revokedDate = none) : InOrder next ∧ DatesKept db next ↔
    ∀ p, row.signedby = some p → ¬RevokedCa db p := by
  have hrevoked : ∀ p, RevokedCa next p ↔ RevokedCa db p := by
    intro p
    rw [revokedCa_iff, revokedCa_iff]
    constructor
    · intro hp
      rcases hp with ⟨other, hother, hentry, hsome⟩
      rcases (hrows other).mp hother with hold | hnew
      · exact ⟨other, hold, hentry, hsome⟩
      · rw [hnew, hdate] at hsome
        cases hsome
    · intro hp
      rcases hp with ⟨other, hother, hentry, hsome⟩
      exact ⟨other, (hrows other).mpr (Or.inl hother), hentry, hsome⟩
  constructor
  · intro hboth p hp hsigner
    have hsome := covered_iff.mp hboth.1.covered row
      ((hrows row).mpr (Or.inr rfl)) p hp ((hrevoked p).mpr hsigner)
    rw [hdate] at hsome
    cases hsome
  · intro hsigner
    refine ⟨⟨?_, ?_⟩, ?_⟩
    · rw [covered_iff]
      intro other hother p hp hrevokedCa
      rw [hrevoked] at hrevokedCa
      rcases (hrows other).mp hother with hold | hnew
      · exact covered_iff.mp hin.covered other hold p hp hrevokedCa
      · exact absurd hrevokedCa (hsigner p (hnew ▸ hp))
    · intro other hother hsome
      rcases (hrows other).mp hother with hold | hnew
      · exact hin.distrusted other hold hsome
      · rw [hnew, hdate] at hsome
        cases hsome
    · intro other hother date hdate'
      exact ⟨other, (hrows other).mpr (Or.inl hother), rfl, date, hdate', le_refl date⟩

structure Change.Accepted (change : Change) : Prop where
  stays : change.oldRevoked = true → change.revoked = true
  distrusted : change.revoked = true → change.trusted = false

variable {change : Change}

theorem withTrustError_eq_nil_iff {field : String} {errors : List VerrorEntry} :
    change.withTrustError field errors = [] ↔
      errors = [] ∧ (change.revoked = true → change.trusted = false) := by
  unfold Change.withTrustError
  by_cases herrors : errors = []
  · rw [if_pos herrors, errorIf_eq_nil_iff]
    simp [herrors]
  · simp [herrors]

theorem Change.revoked_of_lastErrors (change : Change) {p : Prop} [Decidable p]
    {error : VerrorEntry} {field errmsg : String}
    (hlast : (if p then [error]
      else errorIf (change.oldRevoked && !change.revoked) field errmsg) = [])
    (hrevoked : change.oldRevoked = true) : change.revoked = true := by
  split_ifs at hlast
  rw [errorIf_eq_nil_iff] at hlast
  simpa [hrevoked] using hlast

theorem accepted_of_caUpdateErrors {old : CaRow}
    (herrors : caUpdateErrors db old change = []) : change.Accepted := by
  rcases withTrustError_eq_nil_iff.mp herrors with ⟨hnone, hdistrusted⟩
  rw [append_eq_nil_iff] at hnone
  exact ⟨change.revoked_of_lastErrors hnone.2, hdistrusted⟩

theorem accepted_of_certUpdateErrors {old : CertRow}
    (herrors : certUpdateErrors db old change = []) : change.Accepted := by
  rcases withTrustError_eq_nil_iff.mp herrors with ⟨hnone, hdistrusted⟩
  rw [append_eq_nil_iff] at hnone
  exact ⟨change.revoked_of_lastErrors hnone.2, hdistrusted⟩

theorem rows_setCa (db : CertificateDatabase) (id : ℕ) (change : Change) :
    rows (setCa db id change) = (rows db).map fun row =>
      if row.entry = .ca id then row.changed change.trusted none else row := by
  unfold rows setCa
  simp only [map_append, List.map_map]
  congr 1
  apply map_congr_left
  intro ca _
  by_cases hid : ca.id = id
  · simp [ofCa, TableRow.changed, hid]
  · simp [ofCa, hid]

theorem rows_setCert (hvalid : Valid db depth) {old : CertRow} (hold : old ∈ db.certs)
    (hchange : change.oldRevoked = old.revokedDate.isSome) (date : ℕ) :
    rows (setCert db old.id change date) = (rows db).map fun row =>
      if row.entry = .certificate old.id then
        row.changed change.trusted (if change.revokes then some date else none)
      else row := by
  unfold rows setCert
  simp only [map_append, List.map_map]
  congr 1
  apply map_congr_left
  intro cert hcert
  by_cases hid : cert.id = old.id
  · have hsame : cert = old := inj_on_of_nodup_map hvalid.certIds hcert hold hid
    subst hsame
    by_cases hrevokes : change.revokes = true
    · have hnone : cert.revokedDate = none := by
        have hboth := hrevokes
        simp only [Change.revokes, hchange, Bool.and_eq_true,
          Bool.not_eq_true', isSome_eq_false_iff,
          isNone_iff_eq_none] at hboth
        exact hboth.2
      simp [ofCert, TableRow.changed, hrevokes, hnone]
    · simp [ofCert, TableRow.changed, hrevokes]
  · simp [ofCert, hid]

/-! ## Created rows -/

section

variable {db : CertificateDatabase} {depth : ℕ → ℕ}

theorem mem_rows_insertCa {row : CaRow} {other : TableRow} :
    other ∈ rows { db with cas := db.cas ++ [row] } ↔ other ∈ rows db ∨ other = ofCa row := by
  unfold rows
  simp only [map_append, mem_append, map_cons, map_nil, mem_singleton]
  tauto

theorem mem_rows_insertCert {row : CertRow} {other : TableRow} :
    other ∈ rows { db with certs := db.certs ++ [row] } ↔ other ∈ rows db ∨ other = ofCert row := by
  unfold rows
  simp only [map_append, mem_append, map_cons, map_nil, mem_singleton]
  tauto

theorem Valid.insertCa (hvalid : Valid db depth) {row : CaRow} (hid : row.id ∉ db.caIds)
    (hsigner : ∀ p, row.signedby = some p → p ∈ db.caIds) :
    ∃ deeper, Valid { db with cas := db.cas ++ [row] } deeper := by
  refine ⟨_, hvalid.forest.insert hid hsigner, hvalid.certIds, ?_⟩
  intro other hother p hp
  have hmem : p ∈ db.caIds := by
    rcases mem_rows_insertCa.mp hother with hold | hnew
    · exact hvalid.signers other hold p hp
    · rw [hnew] at hp
      exact hsigner p hp
  unfold caIds at hmem ⊢
  rw [map_append]
  exact mem_append_left _ hmem

theorem Valid.insertCert (hvalid : Valid db depth) {row : CertRow}
    (hid : row.id ∉ db.certs.map CertRow.id)
    (hsigner : ∀ p, row.signedby = some p → p ∈ db.caIds) :
    Valid { db with certs := db.certs ++ [row] } depth where
  forest := hvalid.forest
  certIds := by
    rw [map_append, map_singleton]
    exact hvalid.certIds.append (nodup_singleton row.id) (disjoint_singleton.mpr hid)
  signers := by
    intro other hother p hp
    rcases mem_rows_insertCert.mp hother with hold | hnew
    · exact hvalid.signers other hold p hp
    · rw [hnew] at hp
      exact hsigner p hp

theorem mem_caIds_of_signedbyErrors {signedby : Option ℕ} {schema : String}
    (herrors : signedbyErrors db signedby schema = []) :
    ∀ p, signedby = some p → p ∈ db.caIds := by
  intro p hp
  rw [hp, signedbyErrors, errorIf_eq_nil_iff, Bool.not_eq_false'] at herrors
  unfold validSigningCa at herrors
  rw [List.any_eq_true] at herrors
  rcases herrors with ⟨ca, hca, hboth⟩
  simp only [Bool.and_eq_true, decide_eq_true_eq] at hboth
  exact hboth.2 ▸ List.mem_map_of_mem hca

variable {id : ℕ} {next : CertificateDatabase}

theorem createCa_eq_some {data : CaCreate} (hnext : createCa db id data = some next) :
    ∃ row : CaRow, next = { db with cas := db.cas ++ [row] } ∧
      row.id ∉ db.caIds ∧ row.signedby = data.signedby ∧
      row.revokedDate = none ∧
      ∀ p, row.signedby = some p → p ∈ db.caIds := by
  unfold createCa at hnext
  split_ifs at hnext with hguard
  cases hnext
  have herrors := hguard.1
  unfold CaCreate.errors at herrors
  rw [append_eq_nil_iff] at herrors
  exact ⟨_, rfl, hguard.2.1, rfl, rfl, mem_caIds_of_signedbyErrors herrors.1⟩

theorem createCertificate_eq_some {data : CertCreate}
    (hnext : createCertificate db id data = some next) :
    ∃ row : CertRow, next = { db with certs := db.certs ++ [row] } ∧
      row.id ∉ db.certs.map CertRow.id ∧ row.signedby = data.signedby ∧
      row.revokedDate = none ∧
      ∀ p, row.signedby = some p → p ∈ db.caIds := by
  unfold createCertificate at hnext
  by_cases hguard : data.errors db = [] ∧ id ∉ db.certs.map CertRow.id ∧
      (data.createType = .internal ↔ data.signedby.isSome)
  swap
  · rw [if_neg hguard] at hnext
    cases hnext
  rw [if_pos hguard] at hnext
  cases hnext
  have herrors := hguard.1
  unfold CertCreate.errors at herrors
  rw [append_eq_nil_iff, append_eq_nil_iff] at herrors
  exact ⟨_, rfl, hguard.2.1, rfl, rfl, mem_caIds_of_signedbyErrors herrors.1.1⟩

theorem caSignCsr_eq_some {csrFiled : CertRow → Bool} {data : SignCsr}
    (hnext : caSignCsr csrFiled db id data = some next) :
    ∃ row : CertRow, next = { db with certs := db.certs ++ [row] } ∧
      row.id ∉ db.certs.map CertRow.id ∧ row.signedby = some data.caId ∧
      row.revokedDate = none ∧
      ∀ p, row.signedby = some p → p ∈ db.caIds := by
  unfold caSignCsr at hnext
  split_ifs at hnext with hguard
  cases hnext
  have herrors := hguard.1
  unfold SignCsr.errors at herrors
  rw [append_eq_nil_iff, append_eq_nil_iff] at herrors
  refine ⟨_, rfl, hguard.2, rfl, rfl, ?_⟩
  intro p hp
  cases hp
  have hca := herrors.1.1
  unfold SignCsr.caErrors at hca
  cases hfind : db.cas.find? fun ca => ca.id = data.caId with
  | none => simp [hfind] at hca
  | some ca =>
    have hid : ca.id = data.caId := by simpa using find?_some hfind
    exact hid ▸ List.mem_map_of_mem (mem_of_find?_eq_some hfind)

end

end Middlewared.CaRevocation
