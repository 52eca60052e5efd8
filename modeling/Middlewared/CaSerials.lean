import Middlewared.CertificateTables

/-!
# The next serial number of a certificate authority

`get_serial_for_certificate` climbs to the root of the tree, collects the
serials of everything that the tree has signed, and returns one more than the
largest of them.
-/

namespace Middlewared.CertificateDatabase

open TreeWalk List Option

def caSerial (ca : CaRow) : Option ℕ :=
  ca.certificate.bind Certificate.serial

def certSerial (cert : CertRow) : Option ℕ :=
  cert.certificate.bind Certificate.serial

/-- The recursion over `signedby`, at most `fuel` calls deep. -/
def rootCa : ℕ → CertificateDatabase → ℕ → Option CaRow
  | 0, _, _ => none
  | fuel + 1, db, caId =>
    match db.cas.find? fun ca => ca.id = caId with
    | none => none
    | some caData =>
      match caData.signedby with
      | none => some caData
      | some p => rootCa fuel db p

def certSerials (db : CertificateDatabase) (caId : ℕ) : List ℕ :=
  (db.signedCerts caId).filterMap certSerial

def serialChildren (db : CertificateDatabase) (ca : CaRow) : List CaRow :=
  (db.signedCas ca.id).filter fun child => child.certificate.isSome

def ownSerials (db : CertificateDatabase) (ca : CaRow) : List ℕ :=
  db.certSerials ca.id ++ (caSerial ca).toList

def childSerials (db : CertificateDatabase) (fuel : ℕ) (ca : CaRow) :
    Option (List ℕ) :=
  gather db.serialChildren (fun _ => []) db.ownSerials fuel ca

/-- `None` and zero are filtered out before the maximum is taken.  No recursion
goes deeper than there are authorities. -/
def getSerialForCertificate (db : CertificateDatabase) (caId : ℕ) :
    Option ℕ := do
  let caData ← rootCa db.cas.length db caId
  let children ← db.childSerials db.cas.length caData
  let caSignedCerts :=
    (db.certSerials caData.id ++ children).filter fun serial => serial ≠ 0
  return match caSignedCerts.max? with
    | none => (caSerial caData).getD 0 + 1
    | some largest => largest + 1

/-! ## What it returns -/

/-- `root` gives the authority at the top of each tree. -/
structure Rooted (cas : List CaRow) (root : ℕ → ℕ) : Prop where
  top : ∀ ca ∈ cas, ca.signedby = none → root ca.id = ca.id
  signed : ∀ ca ∈ cas, ∀ p, ca.signedby = some p → root ca.id = root p

/-- A certificate with the serial `n` is in the tables, under the root `r`. -/
def Present (db : CertificateDatabase) (root : ℕ → ℕ) (r n : ℕ) : Prop :=
  (∃ ca ∈ db.cas, root ca.id = r ∧ caSerial ca = some n) ∨
    ∃ cert ∈ db.certs, ∃ p, cert.signedby = some p ∧ root p = r ∧ certSerial cert = some n

/-- The tables hold what the middleware issued: every authority has a
certificate that can be parsed, and what is signed has its signer. -/
structure Parseable (db : CertificateDatabase) : Prop where
  cas : ∀ ca ∈ db.cas, ∃ n, caSerial ca = some n
  signers : ∀ cert ∈ db.certs, ∀ p, cert.signedby = some p → p ∈ db.caIds

section

variable {db : CertificateDatabase} {root depth : ℕ → ℕ}

variable {ca : CaRow}

theorem find?_ca (hforest : Forest db.cas depth) (hca : ca ∈ db.cas) :
    (db.cas.find? fun other => other.id = ca.id) = some ca := by
  have hsome : (db.cas.find? fun other => other.id = ca.id).isSome := by
    rw [find?_isSome]
    exact ⟨ca, hca, by simp⟩
  obtain ⟨found, hfound⟩ := Option.isSome_iff_exists.mp hsome
  have hid : found.id = ca.id := by simpa using find?_some hfound
  rw [hfound, hforest.eq_of_id (mem_of_find?_eq_some hfound) hca hid]

theorem rootCa_eq (hforest : Forest db.cas depth) (hroot : Rooted db.cas root)
    {fuel : ℕ} (hca : ca ∈ db.cas) (hfuel : depth ca.id < fuel) :
    ∃ top ∈ db.cas, rootCa fuel db ca.id = some top ∧ top.signedby = none ∧
      top.id = root ca.id := by
  induction fuel generalizing ca with
  | zero => omega
  | succ fuel ih =>
    unfold rootCa
    rw [find?_ca hforest hca]
    cases hsigned : ca.signedby with
    | none =>
      simp only [hsigned]
      exact ⟨ca, hca, rfl, hsigned, (hroot.top ca hca hsigned).symm⟩
    | some p =>
      obtain ⟨hmem, hless⟩ := hforest.signer ca hca p hsigned
      obtain ⟨signer, hsigner, hp⟩ := List.mem_map.mp hmem
      obtain ⟨top, htop, hclimb, hnone, hid⟩ := ih hsigner (by rw [hp]; omega)
      rw [hp] at hclimb hid
      simp only [hsigned]
      exact ⟨top, htop, hclimb, hnone, hid.trans (hroot.signed ca hca p hsigned).symm⟩

theorem mem_serialChildren (hparse : db.Parseable) {child : CaRow} : child ∈ db.serialChildren ca ↔
    child ∈ db.cas ∧ child.signedby = some ca.id := by
  unfold serialChildren signedCas
  rw [mem_filter, mem_filter, decide_eq_true_eq]
  refine ⟨fun hchild => hchild.1, ?_⟩
  intro hchild
  refine ⟨hchild, ?_⟩
  obtain ⟨n, hn⟩ := hparse.cas child hchild.1
  cases hcertificate : child.certificate with
  | none =>
    unfold caSerial at hn
    rw [hcertificate] at hn
    cases hn
  | some _ => rfl

theorem below_root_iff (hforest : Forest db.cas depth)
    (hroot : Rooted db.cas root) (hparse : db.Parseable) {top : CaRow}
    (htop : top ∈ db.cas) (hnone : top.signedby = none) :
    Below db.serialChildren top ca ↔ ca ∈ db.cas ∧ root ca.id = top.id := by
  constructor
  · intro hbelow
    induction hbelow with
    | refl => exact ⟨htop, hroot.top top htop hnone⟩
    | @tail ca child _ hstep ih =>
      obtain ⟨hchild, hsigned⟩ := (mem_serialChildren hparse).mp hstep
      rw [hroot.signed child hchild ca.id hsigned]
      exact ⟨hchild, ih.2⟩
  · intro hca
    obtain ⟨hmem, hid⟩ := hca
    -- up from the authority, one signer at a time
    generalize hd : depth ca.id = d
    induction d using Nat.strong_induction_on generalizing ca with
    | _ d ih =>
      cases hsigned : ca.signedby with
      | none =>
        rw [hroot.top ca hmem hsigned] at hid
        rw [hforest.eq_of_id hmem htop hid]
        exact Below.refl top
      | some p =>
        obtain ⟨hp, hless⟩ := hforest.signer ca hmem p hsigned
        obtain ⟨signer, hsigner, heq⟩ := List.mem_map.mp hp
        rw [← heq] at hless hsigned
        have hsignerRoot : root signer.id = top.id := by
          rw [← hroot.signed ca hmem signer.id hsigned]
          exact hid
        have habove := ih (depth signer.id) (by omega) hsigner hsignerRoot rfl
        exact habove.trans (Below.child ((mem_serialChildren hparse).mpr ⟨hmem, hsigned⟩)
            (Below.refl ca))

theorem mem_certSerials {caId n : ℕ} : n ∈ db.certSerials caId ↔
    ∃ cert ∈ db.certs, cert.signedby = some caId ∧ certSerial cert = some n := by
  unfold certSerials signedCerts
  simp [and_assoc]

theorem childSerials_eq (hforest : Forest db.cas depth)
    (hroot : Rooted db.cas root) (hparse : db.Parseable) {top : CaRow}
    (htop : top ∈ db.cas) (hnone : top.signedby = none) :
    ∃ serials, db.childSerials db.cas.length top = some serials ∧
      ∀ n, n ∈ serials ↔ db.Present root top.id n := by
  have hrank : ∀ a b : CaRow, b ∈ db.serialChildren a →
      db.cas.length - 1 - depth b.id < db.cas.length - 1 - depth a.id := by
    intro a b hb
    obtain ⟨hmem, hsigned⟩ := (mem_serialChildren hparse).mp hb
    have hless := (hforest.signer b hmem a.id hsigned).2
    have hbound := hforest.bound b hmem
    omega
  have hbound := hforest.bound top htop
  obtain ⟨serials, hgather, hmem⟩ :=
    @gather_eq_some _ _ db.serialChildren (fun _ => []) db.ownSerials
      (fun ca => db.cas.length - 1 - depth ca.id) hrank db.cas.length top
      (by omega)
  refine ⟨serials, hgather, ?_⟩
  intro n
  rw [hmem n]
  simp only [below_root_iff hforest hroot hparse htop hnone, not_mem_nil,
    false_or, ownSerials, mem_append, mem_certSerials, mem_toList]
  constructor
  · intro hn
    obtain ⟨ca, ⟨hca, hid⟩, hn⟩ := hn
    rcases hn with hn | hn
    · obtain ⟨cert, hcert, hsigned, hserial⟩ := hn
      exact Or.inr ⟨cert, hcert, ca.id, hsigned, hid, hserial⟩
    · exact Or.inl ⟨ca, hca, hid, hn⟩
  · intro hn
    rcases hn with hn | hn
    · obtain ⟨ca, hca, hid, hserial⟩ := hn
      exact ⟨ca, ⟨hca, hid⟩, Or.inr hserial⟩
    · obtain ⟨cert, hcert, p, hsigned, hid, hserial⟩ := hn
      obtain ⟨ca, hca, heq⟩ := List.mem_map.mp (hparse.signers cert hcert p hsigned)
      subst heq
      exact ⟨ca, ⟨hca, hid⟩, Or.inl ⟨cert, hcert, hsigned, hserial⟩⟩

theorem getSerialForCertificate_eq (hforest : Forest db.cas depth)
    (hroot : Rooted db.cas root) (hparse : db.Parseable) {caId : ℕ}
    (hca : caId ∈ db.caIds) :
    ∃ largest, db.getSerialForCertificate caId = some (largest + 1) ∧
      db.Present root (root caId) largest ∧
      ∀ n, db.Present root (root caId) n → n ≤ largest := by
  obtain ⟨ca, hmem, heq⟩ := List.mem_map.mp hca
  subst heq
  obtain ⟨top, htop, hclimb, hnone, hid⟩ := rootCa_eq hforest hroot hmem (hforest.bound ca hmem)
  obtain ⟨serials, hserials, hpresent⟩ := childSerials_eq hforest hroot hparse htop hnone
  rw [hid] at hpresent
  have hall : ∀ n, n ∈ db.certSerials top.id ++ serials ↔ db.Present root (root ca.id) n := by
    intro n
    rw [mem_append, hpresent n, or_iff_right_iff_imp, mem_certSerials]
    intro hn
    obtain ⟨cert, hcert, hsigned, hserial⟩ := hn
    have htopRoot : root top.id = root ca.id := by
      rw [hroot.top top htop hnone, hid]
    exact Or.inr ⟨cert, hcert, top.id, hsigned, htopRoot, hserial⟩
  obtain ⟨own, hown⟩ := hparse.cas top htop
  have hownPresent : db.Present root (root ca.id) own :=
    Or.inl ⟨top, htop, by rw [hroot.top top htop hnone, hid], hown⟩
  unfold getSerialForCertificate
  simp only [hclimb, hserials, bind_eq_bind, bind_some, Option.pure_def, Option.some.injEq]
  cases hmax : ((db.certSerials top.id ++ serials).filter fun serial => serial ≠ 0).max? with
  | none =>
    -- nothing but zeros under this root
    have hzero : ∀ n, db.Present root (root ca.id) n → n = 0 := by
      intro n hn
      have hnil := List.max?_eq_none_iff.mp hmax
      rw [filter_eq_nil_iff] at hnil
      simpa using hnil n ((hall n).mpr hn)
    refine ⟨own, ?_, hownPresent, ?_⟩
    · rw [hown, getD_some]
    · intro n hn
      rw [hzero n hn]
      exact Nat.zero_le own
  | some largest =>
    obtain ⟨hlargest, hle⟩ := List.max?_eq_some_iff.mp hmax
    refine ⟨largest, rfl, (hall largest).mp (mem_of_mem_filter hlargest), ?_⟩
    intro n hn
    by_cases hzero : n = 0
    · rw [hzero]
      exact Nat.zero_le largest
    · apply hle n
      exact List.mem_filter.mpr ⟨(hall n).mpr hn, by simpa using hzero⟩

end

end Middlewared.CertificateDatabase
