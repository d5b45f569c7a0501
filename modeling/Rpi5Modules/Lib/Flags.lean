import Mathlib.Algebra.GroupWithZero.Nat

/-!
# Flag bits of a word

A flag is a word with one bit, `BitVec.twoPow w k`, as in `#define FLAG (1 << k)`; `x &&& flag ≠ 0` tests it,
`x ||| flag` sets it. `HasFlag x k` is the test, and computes through `|||` and `&&&` to the bits of the operands.
-/

namespace Flags

variable {w : Nat} {x y : BitVec w} {j k : Nat}

/-- `(x & (1 << k)) != 0`. -/
def HasFlag (x : BitVec w) (k : Nat) : Prop := x &&& BitVec.twoPow w k ≠ 0#w

instance (x : BitVec w) (k : Nat) : Decidable (HasFlag x k) := inferInstanceAs (Decidable (_ ≠ _))

/-- The test reads the bit. -/
theorem hasFlag_iff : HasFlag x k ↔ x.getLsbD k = true := by
  unfold HasFlag
  rw [BitVec.and_twoPow]
  by_cases hx : x.getLsbD k = true
  · rw [if_pos hx]
    refine ⟨fun _ => hx, fun _ hz => ?_⟩
    have hk : k < w := Decidable.byContradiction fun hk => by
      rw [BitVec.getLsbD_of_ge x k (Nat.le_of_not_lt hk)] at hx
      cases hx
    have hbit := congrArg (fun z => z.getLsbD k) hz
    simp [hk] at hbit
  · rw [if_neg hx]
    exact ⟨fun h => absurd rfl h, fun h => absurd h hx⟩

@[simp] theorem hasFlag_or : HasFlag (x ||| y) k ↔ HasFlag x k ∨ HasFlag y k := by simp [hasFlag_iff]

@[simp] theorem hasFlag_and : HasFlag (x &&& y) k ↔ HasFlag x k ∧ HasFlag y k := by simp [hasFlag_iff]

/-- `x &= ~y` clears the flags of `y`. -/
@[simp] theorem hasFlag_and_not : HasFlag (x &&& ~~~y) k ↔ HasFlag x k ∧ ¬HasFlag y k := by
  rw [hasFlag_and]
  apply and_congr_right
  intro hx
  have hk : k < w := Decidable.byContradiction fun hk => by
    rw [hasFlag_iff, BitVec.getLsbD_of_ge x k (Nat.le_of_not_lt hk)] at hx
    cases hx
  simp [hasFlag_iff, hk]

/-- `x ^ y` has the flags that differ. -/
theorem hasFlag_xor : HasFlag (x ^^^ y) k ↔ ¬(HasFlag x k ↔ HasFlag y k) := by
  simp only [hasFlag_iff, BitVec.getLsbD_xor]
  cases x.getLsbD k <;> cases y.getLsbD k <;> decide

@[simp] theorem not_hasFlag_zero : ¬HasFlag 0#w k := by simp [hasFlag_iff]

/-- A flag of a word of `w` bits is one of the first `w`. -/
theorem HasFlag.lt (h : HasFlag x k) : k < w := by
  rw [hasFlag_iff] at h
  exact BitVec.lt_of_getLsbD h

theorem hasFlag_twoPow : HasFlag (BitVec.twoPow w j) k ↔ j = k ∧ k < w := by
  rw [hasFlag_iff, BitVec.getLsbD_twoPow]
  simp only [Bool.and_eq_true, decide_eq_true_eq]
  constructor
  · rintro ⟨hj, rfl⟩
    exact ⟨rfl, hj⟩
  · rintro ⟨rfl, hk⟩
    exact ⟨hk, rfl⟩

/-- A word is the set of its flags. -/
theorem eq_of_hasFlag (h : ∀ k, HasFlag x k ↔ HasFlag y k) : x = y := by
  apply BitVec.eq_of_getLsbD_eq
  intro k _
  rw [Bool.eq_iff_iff, ← hasFlag_iff, ← hasFlag_iff]
  exact h k

/-- A number below `2 ^ n` has no flag from `n` on. -/
theorem not_hasFlag_of_lt {n : Nat} (hx : x.toNat < 2 ^ n) (hn : n ≤ k) : ¬HasFlag x k := by
  rw [hasFlag_iff]
  simp only [BitVec.getLsbD, Bool.not_eq_true]
  exact Nat.testBit_lt_two_pow (Nat.lt_of_lt_of_le hx (Nat.pow_le_pow_right (by decide) hn))

end Flags
