import Mathlib.Algebra.GroupWithZero.Nat

/-!
# Rounding by masks

`x & ~(2^k - 1)` rounds a word down to a multiple of `2^k`, and `(x + 2^k - 1) & ~(2^k - 1)` rounds it up, as long as
the sum does not wrap around.
-/

namespace Align

variable {w : Nat}

/-- `x & ~(2^k - 1)`. -/
def down (x : BitVec w) (k : Nat) : BitVec w := x &&& ~~~BitVec.ofNat w (2 ^ k - 1)

/-- `(x + 2^k - 1) & ~(2^k - 1)`. -/
def up (x : BitVec w) (k : Nat) : BitVec w := down (x + BitVec.ofNat w (2 ^ k - 1)) k

/-- A word is what two complementary masks leave of it. -/
theorem and_not_add_and (x m : BitVec w) : (x &&& ~~~m) + (x &&& m) = x := by
  rw [BitVec.add_eq_or_of_and_eq_zero]
  · ext i hi
    simp only [BitVec.getElem_or, BitVec.getElem_and, BitVec.getElem_not]
    cases x[i] <;> cases m[i] <;> rfl
  · ext i hi
    simp only [BitVec.getElem_and, BitVec.getElem_not, BitVec.getElem_zero]
    cases x[i] <;> cases m[i] <;> rfl

theorem toNat_mask {k : Nat} (hk : k ≤ w) : (BitVec.ofNat w (2 ^ k - 1)).toNat = 2 ^ k - 1 := by
  have hpow : 2 ^ k ≤ 2 ^ w := Nat.pow_le_pow_right (by decide) hk
  have hpos : 0 < 2 ^ k := Nat.two_pow_pos k
  rw [BitVec.toNat_ofNat]
  exact Nat.mod_eq_of_lt (by omega)

/-- The mask keeps the remainder. -/
theorem toNat_and_mask (x : BitVec w) {k : Nat} (hk : k ≤ w) :
    (x &&& BitVec.ofNat w (2 ^ k - 1)).toNat = x.toNat % 2 ^ k := by
  rw [BitVec.toNat_and, toNat_mask hk, Nat.and_two_pow_sub_one_eq_mod]

theorem toNat_down (x : BitVec w) {k : Nat} (hk : k ≤ w) : (down x k).toNat = x.toNat / 2 ^ k * 2 ^ k := by
  have hmod := toNat_and_mask x hk
  have hle : x.toNat % 2 ^ k ≤ x.toNat := Nat.mod_le _ _
  have hsub : down x k = x - (x &&& BitVec.ofNat w (2 ^ k - 1)) :=
    BitVec.eq_sub_iff_add_eq.2 (and_not_add_and x _)
  have hdiv := Nat.div_add_mod' x.toNat (2 ^ k)
  rw [hsub, BitVec.toNat_sub_of_le (by rw [BitVec.le_def, hmod]; exact hle), hmod]
  omega

/-- Rounding up, with the sum as it wraps around. -/
theorem toNat_up (x : BitVec w) {k : Nat} (hk : k ≤ w) :
    (up x k).toNat = (x.toNat + (2 ^ k - 1)) % 2 ^ w / 2 ^ k * 2 ^ k := by
  rw [up, toNat_down _ hk, BitVec.toNat_add, toNat_mask hk]

end Align
