import Mathlib.Logic.Function.Iterate

/-!
# Unbounded searches

`while (!p(x)) x = f(x);` tests `x`, `f x`, `f (f x)`, … until one of them passes. `search f p fuel x` follows it for at
most `fuel` tests: it ends with what it found and the number of tests, or with `none` if the fuel does not suffice.

What the search ends with is an iterate that passes (`search_some`). It makes at most `k + 1` tests if the `k`-th one
does (`search_of_iterate`), and does not end if none does (`search_eq_none`).
-/

universe u

namespace Search

variable {σ : Type u} (f : σ → σ) (p : σ → Bool)

def search : (fuel : Nat) → σ → Option (σ × Nat)
  | 0, _ => none
  | fuel + 1, x => if p x then some (x, 1) else (search fuel (f x)).map fun r => (r.1, r.2 + 1)

variable {f p} {x : σ} {fuel : Nat}

theorem search_succ_pos (h : p x = true) : search f p (fuel + 1) x = some (x, 1) := if_pos h

theorem search_succ_neg (h : ¬p x = true) :
    search f p (fuel + 1) x = (search f p fuel (f x)).map fun r => (r.1, r.2 + 1) := if_neg h

/-- What is found is an iterate that passes, and the number of tests counts it. -/
theorem search_some {r : σ × Nat} (h : search f p fuel x = some r) :
    ∃ k, r = (f^[k] x, k + 1) ∧ k < fuel ∧ p (f^[k] x) = true := by
  induction fuel generalizing x r with
  | zero => cases h
  | succ fuel ih =>
    by_cases hp : p x = true
    · rw [search_succ_pos hp] at h
      cases h
      exact ⟨0, rfl, Nat.succ_pos fuel, hp⟩
    · rw [search_succ_neg hp, Option.map_eq_some_iff] at h
      obtain ⟨r', hr', rfl⟩ := h
      obtain ⟨k, rfl, hk, hpk⟩ := ih hr'
      exact ⟨k + 1, rfl, Nat.succ_lt_succ hk, hpk⟩

/-- If an iterate passes, the search ends there or before. -/
theorem search_of_iterate {k : Nat} (hp : p (f^[k] x) = true) (hk : k < fuel) :
    ∃ j, j ≤ k ∧ search f p fuel x = some (f^[j] x, j + 1) := by
  induction k generalizing x fuel with
  | zero =>
    obtain ⟨n, rfl⟩ := Nat.exists_eq_succ_of_ne_zero (Nat.ne_of_gt hk)
    exact ⟨0, Nat.le_refl 0, search_succ_pos hp⟩
  | succ k ih =>
    obtain ⟨n, rfl⟩ := Nat.exists_eq_succ_of_ne_zero (Nat.ne_of_gt (Nat.zero_lt_of_lt hk))
    by_cases hx : p x = true
    · exact ⟨0, Nat.zero_le _, search_succ_pos hx⟩
    · obtain ⟨j, hj, hs⟩ := ih hp (Nat.lt_of_succ_lt_succ hk)
      refine ⟨j + 1, Nat.succ_le_succ hj, ?_⟩
      rw [search_succ_neg hx, hs]
      rfl

/-- If no iterate passes, no fuel suffices. -/
theorem search_eq_none (h : ∀ k, ¬p (f^[k] x) = true) (fuel : Nat) : search f p fuel x = none := by
  cases hs : search f p fuel x with
  | none => rfl
  | some r =>
    obtain ⟨k, -, -, hp⟩ := search_some hs
    exact absurd hp (h k)

end Search
