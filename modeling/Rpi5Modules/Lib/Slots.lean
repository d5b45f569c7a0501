import Mathlib.Logic.Function.Basic
import Mathlib.Data.List.Perm.Basic

/-!
# Tables of slots

A table of `n` slots is a function `Nat → Option α`, of which the entries below `n` count; a slot that is `none` is
empty. `held` lists what the table holds. Filling an empty slot adds one entry, emptying a slot removes the one it
held (`held_put`, `held_take`), so what went in is what came out and what is held.
-/

namespace Slots

universe u

variable {α : Type u} {f : Nat → Option α} {n i : Nat} {a : α}

/-- The entries of the first `n` slots, in slot order. -/
def held (f : Nat → Option α) (n : Nat) : List α := (List.range n).filterMap f

theorem held_succ (f : Nat → Option α) (n : Nat) : held f (n + 1) = held f n ++ (f n).toList := by
  unfold held
  rw [List.range_succ, List.filterMap_append]
  cases h : f n <;> simp [h]

/-- What lies behind the table does not count. -/
theorem held_update_ge {v : Option α} (h : n ≤ i) : held (Function.update f i v) n = held f n := by
  induction n with
  | zero => rfl
  | succ n ih =>
    have hne : n ≠ i := by omega
    rw [held_succ, held_succ, ih (by omega), Function.update_of_ne hne]

/-- Filling an empty slot adds one entry. -/
theorem held_put (hi : i < n) (hf : f i = none) : (held (Function.update f i (some a)) n).Perm (a :: held f n) := by
  induction n with
  | zero => omega
  | succ n ih =>
    rw [held_succ, held_succ]
    by_cases hin : i = n
    · subst hin
      rw [Function.update_self, hf, held_update_ge (Nat.le_refl i), Option.toList_some, Option.toList_none,
        List.append_nil]
      exact List.perm_append_singleton a _
    · have hne : n ≠ i := fun h => hin h.symm
      rw [Function.update_of_ne hne, ← List.cons_append]
      exact (ih (by omega)).append_right _

/-- Emptying a slot removes the entry it held. -/
theorem held_take (hi : i < n) (hf : f i = some a) : (held f n).Perm (a :: held (Function.update f i none) n) := by
  have h := held_put (f := Function.update f i none) (a := a) hi (Function.update_self i none f)
  rwa [Function.update_idem, ← hf, Function.update_eq_self] at h

theorem held_none (h : ∀ i < n, f i = none) : held f n = [] := by
  unfold held
  rw [List.filterMap_eq_nil_iff]
  exact fun i hi => h i (List.mem_range.1 hi)

end Slots
