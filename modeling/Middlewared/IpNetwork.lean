import Mathlib.Algebra.Order.Ring.Nat

/-!
# IP networks

The addresses and networks of Python's `ipaddress`, as numbers of 32 or 128 bits.
-/

namespace Middlewared

inductive IpVersion where
  | v4
  | v6
deriving DecidableEq

namespace IpVersion

/-- `max_prefixlen`. -/
def bits : IpVersion → ℕ
  | .v4 => 32
  | .v6 => 128

end IpVersion

structure IpAddress where
  version : IpVersion
  value : ℕ
  lt : value < 2 ^ version.bits
deriving DecidableEq

structure IpNetwork where
  version : IpVersion
  (networkAddress prefixlen : ℕ)
  lt : networkAddress < 2 ^ version.bits
  prefixlen_le : prefixlen ≤ version.bits
  hostBits_zero : networkAddress % 2 ^ (version.bits - prefixlen) = 0
deriving DecidableEq

namespace IpNetwork

variable (n m : IpNetwork)

def hostBits : ℕ :=
  n.version.bits - n.prefixlen

def size : ℕ :=
  2 ^ n.hostBits

def broadcastAddress : ℕ :=
  n.networkAddress + (n.size - 1)

/-- `__contains__`, with the `&` of the netmask as arithmetic. -/
def Contains (version : IpVersion) (value : ℕ) : Prop :=
  n.version = version ∧ value - value % n.size = n.networkAddress

instance (version : IpVersion) (value : ℕ) :
    Decidable (n.Contains version value) :=
  inferInstanceAs (Decidable (_ ∧ _))

instance : Membership IpAddress IpNetwork where
  mem network address := network.Contains address.version address.value

instance (address : IpAddress) : Decidable (address ∈ n) :=
  inferInstanceAs (Decidable (n.Contains address.version address.value))

def Overlaps : Prop :=
  n.Contains m.version m.networkAddress ∨ n.Contains m.version m.broadcastAddress ∨
      m.Contains n.version n.networkAddress ∨ m.Contains n.version n.broadcastAddress

instance : Decidable (n.Overlaps m) :=
  inferInstanceAs (Decidable (_ ∨ _))

/-- `0.0.0.0/0` and `::/0`. -/
def everything (version : IpVersion) : IpNetwork where
  version := version
  networkAddress := 0
  prefixlen := 0
  lt := Nat.two_pow_pos _
  prefixlen_le := Nat.zero_le _
  hostBits_zero := Nat.zero_mod _

variable {n m}

theorem contains_iff {version : IpVersion} {value : ℕ} : n.Contains version value ↔
    n.version = version ∧ value / n.size * n.size = n.networkAddress := by
  have hdiv := Nat.div_add_mod' value n.size
  have hsub : value - value % n.size = value / n.size * n.size := by omega
  rw [Contains, hsub]

theorem contains_networkAddress {version : IpVersion} {value : ℕ}
    (hle : n.hostBits ≤ m.hostBits) (hn : n.Contains version value)
    (hm : m.Contains version value) :
    m.Contains n.version n.networkAddress := by
  rw [contains_iff] at hn hm ⊢
  refine ⟨hm.1.trans hn.1.symm, ?_⟩
  have hsize : m.size = n.size * 2 ^ (m.hostBits - n.hostBits) := by
    rw [size, size, ← pow_add, Nat.add_sub_cancel' hle]
  have hpos : 0 < n.size := Nat.two_pow_pos _
  have hblock : n.networkAddress / m.size = value / m.size := by
    rw [← hn.2, hsize, ← Nat.div_div_eq_div_mul, ← Nat.div_div_eq_div_mul,
      Nat.mul_div_cancel _ hpos]
  rw [hblock]
  exact hm.2

theorem overlaps_of_mem {address : IpAddress} (hn : address ∈ n)
    (hm : address ∈ m) : n.Overlaps m := by
  by_cases hle : n.hostBits ≤ m.hostBits
  · exact Or.inr (Or.inr (Or.inl (contains_networkAddress hle hn hm)))
  · exact Or.inl (contains_networkAddress (Nat.le_of_not_le hle) hm hn)

theorem overlaps_everything (n : IpNetwork) : n.Overlaps (everything n.version) := by
  refine Or.inr (Or.inr (Or.inl ?_))
  rw [contains_iff]
  refine ⟨rfl, ?_⟩
  have hsize : (everything n.version).size = 2 ^ n.version.bits := rfl
  have hnone : n.networkAddress / 2 ^ n.version.bits = 0 := Nat.div_eq_of_lt n.lt
  rw [hsize, hnone, Nat.zero_mul]
  rfl

end IpNetwork

end Middlewared
