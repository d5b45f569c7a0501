import Mathlib.Algebra.GroupWithZero.Nat
import Mathlib.Data.List.GetD

/-!
# Rings that keep the last values

A ring of `N` slots with a position `next`: a new value goes to slot `next`, over whatever is there, and the position
moves on, from the last slot to the first. `Keeps` says that the ring holds the last `N` values of a history, newest
first, and free slots as long as there are fewer.

- a new value and a change of a kept one keep this (`Keeps.push`, `Keeps.modify`);
- every slot holds a value of its own age (`exists_back`, `back_inj`), so what is in the ring is what the last `N`
  entries of the history say (`Keeps.mem_slots_iff`).
-/

namespace FifoRing

/-- The slot of the value of age `k`. -/
def back (N next k : Nat) : Nat := if k < next then next - 1 - k else N + next - 1 - k

variable {α : Type*} {N next k : Nat} {d : α} {slots hist : List α}

/-- The slots hold the last `N` values of the history, and `d` while there are fewer. -/
structure Keeps (N : Nat) (d : α) (slots : List α) (next : Nat) (hist : List α) : Prop where
  next_lt : next < N
  length : slots.length = N
  slot : ∀ k < N, slots[back N next k]? = some (hist.getD k d)

theorem back_lt (hn : next < N) : back N next k < N := by
  unfold back
  split <;> omega

theorem back_inj {j : Nat} (hj : j < N) (hk : k < N) (h : back N next j = back N next k) :
    j = k := by
  unfold back at h
  split at h <;> split at h <;> omega

/-- Every slot holds the value of some age. -/
theorem exists_back {p : Nat} (hn : next < N) (hp : p < N) : ∃ k < N, back N next k = p := by
  unfold back
  rcases Nat.lt_or_ge p next with h | h
  · exact ⟨next - 1 - p, by omega, by rw [if_pos (by omega)]; omega⟩
  · exact ⟨N + next - 1 - p, by omega, by rw [if_neg (by omega)]; omega⟩

theorem Keeps.empty (hN : 0 < N) : Keeps N d (List.replicate N d) 0 [] where
  next_lt := hN
  length := List.length_replicate
  slot k hk := by
    rw [List.getElem?_replicate, if_pos (back_lt hN), List.getD_nil]

/-- A new value takes the place of the oldest. -/
theorem Keeps.push (h : Keeps N d slots next hist) (x : α) :
    Keeps N d (slots.set next x) ((next + 1) % N) (x :: hist) where
  next_lt := Nat.mod_lt _ (Nat.lt_of_le_of_lt (Nat.zero_le _) h.next_lt)
  length := by rw [List.length_set, h.length]
  slot k hk := by
    have hn := h.next_lt
    have hnext : (next + 1) % N = if next + 1 = N then 0 else next + 1 := by
      split
      · simp [*]
      · exact Nat.mod_eq_of_lt (by omega)
    have hback : back N ((next + 1) % N) k = if k = 0 then next else back N next (k - 1) := by
      rw [hnext]
      unfold back
      split <;> split <;> split <;> (try split) <;> omega
    rw [hback]
    cases k with
    | zero =>
      rw [if_pos rfl, List.getElem?_set_self (by rw [h.length]; exact hn)]
      rfl
    | succ k =>
      have hne : next ≠ back N next k := by
        unfold back
        split <;> omega
      rw [if_neg (Nat.succ_ne_zero k), Nat.add_sub_cancel, List.getElem?_set_ne hne, h.slot k (by omega)]
      rfl

/-- A kept value changes in its place. -/
theorem Keeps.modify (h : Keeps N d slots next hist) {k : Nat} (hk : k < N) (hlt : k < hist.length) (f : α → α) :
    Keeps N d (slots.modify (back N next k) f) next (hist.modify k f) where
  next_lt := h.next_lt
  length := by rw [List.length_modify, h.length]
  slot j hj := by
    rw [List.getElem?_modify, h.slot j hj, List.getD_eq_getElem?_getD, List.getD_eq_getElem?_getD,
      List.getElem?_modify]
    by_cases hjk : k = j
    · subst hjk
      simp [List.getElem?_eq_getElem hlt]
    · have hb : back N next k ≠ back N next j := fun hb => hjk (back_inj hk hj hb)
      simp [hjk, hb]

/-- A slot other than a free one holds one of the last `N` values. -/
theorem Keeps.slot_cases (h : Keeps N d slots next hist) {p : Nat} {x : α} (hp : slots[p]? = some x) (hx : x ≠ d) :
    ∃ k < N, p = back N next k ∧ hist[k]? = some x := by
  have hlt : p < N := h.length ▸ (List.getElem?_eq_some_iff.1 hp).1
  obtain ⟨k, hk, rfl⟩ := exists_back h.next_lt hlt
  rw [h.slot k hk] at hp
  cases hv : hist[k]? with
  | none =>
    rw [List.getD_eq_getElem?_getD, hv] at hp
    exact absurd (Option.some.inj hp).symm hx
  | some y =>
    rw [List.getD_eq_getElem?_getD, hv] at hp
    exact ⟨k, hk, rfl, hp ▸ hv⟩

/-- What is in the ring is what the last `N` entries of the history say. -/
theorem Keeps.mem_slots_iff (h : Keeps N d slots next hist) {x : α} (hx : x ≠ d) :
    x ∈ slots ↔ x ∈ hist.take N := by
  constructor
  · intro hm
    obtain ⟨p, hp⟩ := List.mem_iff_getElem?.1 hm
    obtain ⟨k, hk, -, hv⟩ := h.slot_cases hp hx
    exact List.mem_iff_getElem?.2 ⟨k, by rw [List.getElem?_take_of_lt hk, hv]⟩
  · intro hm
    obtain ⟨k, hv⟩ := List.mem_iff_getElem?.1 hm
    have hk : k < N := by
      have := (List.getElem?_eq_some_iff.1 hv).1
      rw [List.length_take] at this
      omega
    rw [List.getElem?_take_of_lt hk] at hv
    refine List.mem_iff_getElem?.2 ⟨back N next k, ?_⟩
    rw [h.slot k hk, List.getD_eq_getElem?_getD, hv]
    rfl

end FifoRing
