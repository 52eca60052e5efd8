import Mathlib.Data.List.Basic

/-!
# The case of ASCII letters

Changing the case of a letter moves its code by 32, and leaves a character that
is no letter of ASCII as it is.
-/

namespace Middlewared.AsciiCase

variable {c d : Char}

theorem toNat_toLower (c : Char) : c.toLower.toNat =
    if 65 ≤ c.toNat ∧ c.toNat ≤ 90 then c.toNat + 32 else c.toNat := by
  delta Char.toLower
  split
  · rename_i hletter
    have hcode : 65 ≤ c.toNat ∧ c.toNat ≤ 90 := hletter
    rw [if_pos hcode]
    simp at hcode ⊢
    omega
  · rename_i hletter
    exact (if_neg hletter).symm

theorem toNat_toUpper (c : Char) : c.toUpper.toNat =
    if 97 ≤ c.toNat ∧ c.toNat ≤ 122 then c.toNat - 32 else c.toNat := by
  delta Char.toUpper
  split
  · rename_i hletter
    have hcode : 97 ≤ c.toNat ∧ c.toNat ≤ 122 := hletter
    rw [if_pos hcode]
    simp at hcode ⊢
    omega
  · rename_i hletter
    exact (if_neg hletter).symm

theorem isLower_iff : c.isLower = true ↔ 97 ≤ c.toNat ∧ c.toNat ≤ 122 := by
  delta Char.isLower
  simp [UInt32.le_iff_toNat_le]

theorem toLower_toLower (c : Char) : c.toLower.toLower = c.toLower := by
  rw [← Char.toNat_inj, toNat_toLower c.toLower, toNat_toLower c]
  split_ifs <;> omega

theorem toLower_eq_iff_of_lt (hd : 122 < d.toNat) : c.toLower = d ↔ c = d := by
  rw [← Char.toNat_inj, ← Char.toNat_inj, toNat_toLower]
  split_ifs <;> omega

theorem toUpper_eq_toUpper_iff (hd : d.isLower = true) : c.toUpper = d.toUpper ↔ c.toLower = d := by
  rw [isLower_iff] at hd
  rw [← Char.toNat_inj, ← Char.toNat_inj, toNat_toLower, toNat_toUpper, toNat_toUpper]
  split_ifs <;> omega

end Middlewared.AsciiCase
