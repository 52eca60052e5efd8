import Middlewared.TreeWalk

/-!
# The tables of certificates

`system_certificateauthority` and `system_certificate`.
-/

namespace Middlewared

open List

/-- A certificate, as far as `get_serial_from_certificate_safe` reads it:
`none` when it cannot be parsed. -/
structure Certificate where
  serial : Option ℕ
deriving DecidableEq

structure CaRow where
  id : ℕ
  name : String
  certificate : Option Certificate
  privatekey : Bool
  (signedby revokedDate : Option ℕ)
  addToTrustedStore : Bool
deriving DecidableEq

inductive CertType where
  | existing
  | internal
  | csr
deriving DecidableEq

structure CertRow where
  id : ℕ
  name : String
  type : CertType
  certificate : Option Certificate
  privatekey : Bool
  (signedby revokedDate : Option ℕ)
  addToTrustedStore : Bool
deriving DecidableEq

structure CertificateDatabase where
  cas : List CaRow
  certs : List CertRow
deriving DecidableEq

namespace CertificateDatabase

/-- `[['signedby', '=', ca_id]]` -/
def signedCerts (db : CertificateDatabase) (caId : ℕ) : List CertRow :=
  db.certs.filter fun cert => cert.signedby = some caId

def signedCas (db : CertificateDatabase) (caId : ℕ) : List CaRow :=
  db.cas.filter fun ca => ca.signedby = some caId

def caIds (db : CertificateDatabase) : List ℕ :=
  db.cas.map CaRow.id

structure Forest (cas : List CaRow) (depth : ℕ → ℕ) : Prop where
  ids : (cas.map CaRow.id).Nodup
  signer : ∀ ca ∈ cas, ∀ p, ca.signedby = some p → p ∈ cas.map CaRow.id ∧ depth p < depth ca.id
  bound : ∀ ca ∈ cas, depth ca.id < cas.length

section

variable {cas : List CaRow} {depth : ℕ → ℕ}

theorem forest_nil : Forest [] depth where
  ids := nodup_nil
  signer := by simp
  bound := by simp

theorem Forest.eq_of_id (hforest : Forest cas depth) {ca other : CaRow}
    (hca : ca ∈ cas) (hother : other ∈ cas) (hid : ca.id = other.id) :
    ca = other :=
  inj_on_of_nodup_map hforest.ids hca hother hid

def depthUnder (depth : ℕ → ℕ) : Option ℕ → ℕ
  | none => 0
  | some p => depth p + 1

theorem Forest.insert (hforest : Forest cas depth) {row : CaRow} (hid : row.id ∉ cas.map CaRow.id)
    (hsigner : ∀ p, row.signedby = some p → p ∈ cas.map CaRow.id) :
    Forest (cas ++ [row]) (Function.update depth row.id (depthUnder depth row.signedby)) := by
  have hold : ∀ k ∈ cas.map CaRow.id,
      Function.update depth row.id (depthUnder depth row.signedby) k = depth k := by
    intro k hk
    apply Function.update_of_ne
    intro heq
    exact hid (heq ▸ hk)
  have hdepth : depthUnder depth row.signedby < cas.length + 1 := by
    cases hparent : row.signedby with
    | none => exact Nat.succ_pos cas.length
    | some p =>
      obtain ⟨ca, hca, hp⟩ := mem_map.mp (hsigner p hparent)
      have hbound := hforest.bound ca hca
      rw [hp] at hbound
      simp only [depthUnder]
      omega
  constructor
  · rw [map_append, map_singleton]
    exact hforest.ids.append (nodup_singleton row.id) (disjoint_singleton.mpr hid)
  · intro ca hca p hp
    rw [map_append, mem_append]
    rcases mem_append.mp hca with hca | hca
    · obtain ⟨hmem, hless⟩ := hforest.signer ca hca p hp
      rw [hold p hmem, hold ca.id (mem_map_of_mem hca)]
      exact ⟨Or.inl hmem, hless⟩
    · rw [mem_singleton.mp hca] at hp ⊢
      have hmem := hsigner p hp
      rw [hold p hmem, Function.update_self, hp]
      exact ⟨Or.inl hmem, Nat.lt_succ_self _⟩
  · intro ca hca
    rw [length_append, length_singleton]
    rcases mem_append.mp hca with hca | hca
    · rw [hold ca.id (mem_map_of_mem hca)]
      have hbound := hforest.bound ca hca
      omega
    · rw [mem_singleton.mp hca, Function.update_self]
      exact hdepth

end

end CertificateDatabase

end Middlewared
