import Mathlib.Algebra.GroupWithZero.Nat
import Mathlib.Logic.Function.Iterate

/-!
# Laps of varying length

Chunks of up to `M` cells are laid one behind the other into a ring of `N` cells. A chunk never wraps inside: one that
ends within `M` cells of the end of the ring ends the lap, and the next chunk starts at cell 0. So a lap is between
`N - M` and `N - 1` cells long, depending on the chunks.

A chunk is a pair of its first cell and its length; `Linked s cs h` says that the chunks `cs` lie one behind the other
from cell `s` on and that the next one would start at `h`.

- while the chunks together have fewer than `N - M` cells, the shortest lap, they cover `[s, h)`, or `[s, L)` and
  `[0, h)` with `h < s`, and lie apart (`shape`);
- while they have fewer than `N - 2 M` cells, a further chunk fits behind them (`room`);
- a successor function that agrees with the chunks walks through their cells, from `s` to `h` (`iterate_total`,
  `cell_iff_iterate`, `start_iff_iterate`).
-/

namespace Laps

variable (N M : Nat)

/-- Where the chunk after the one at `s` with `n` cells starts. -/
def next (s n : Nat) : Nat := if s + n + M ≥ N then 0 else s + n

/-- The chunks lie one behind the other from `s` on, and the next one would start at `h`. -/
def Linked : Nat → List (Nat × Nat) → Nat → Prop
  | s, [], h => s = h
  | s, c :: cs, h => c.1 = s ∧ 0 < c.2 ∧ c.2 ≤ M ∧ Linked (next N M s c.2) cs h

/-- Cell `i` belongs to the chunk. -/
def Has (c : Nat × Nat) (i : Nat) : Prop := c.1 ≤ i ∧ i < c.1 + c.2

/-- Cell `i` belongs to one of the chunks. -/
def Covers (cs : List (Nat × Nat)) (i : Nat) : Prop := ∃ c ∈ cs, Has c i

/-- The number of cells. -/
def total (cs : List (Nat × Nat)) : Nat := (cs.map Prod.snd).sum

/-- No cell belongs to both. -/
def Apart (c d : Nat × Nat) : Prop := ∀ i, Has c i → ¬Has d i

variable {N M} {s h n i : Nat} {c : Nat × Nat} {cs : List (Nat × Nat)}

@[simp] theorem total_nil : total [] = 0 := rfl

@[simp] theorem total_cons : total (c :: cs) = c.2 + total cs := rfl

@[simp] theorem total_append {ds : List (Nat × Nat)} : total (cs ++ ds) = total cs + total ds := by
  simp [total]

@[simp] theorem covers_nil : ¬Covers [] i := by simp [Covers]

@[simp] theorem covers_cons : Covers (c :: cs) i ↔ Has c i ∨ Covers cs i := by simp [Covers]

/-- The next chunk may start where this one leads. -/
theorem next_lt (hs : s + M < N) : next N M s n + M < N := by
  unfold next
  split <;> omega

/-- A further chunk is laid where the others end. -/
theorem Linked.append (hl : Linked N M s cs h) (hn : 0 < n) (hM : n ≤ M) :
    Linked N M s (cs ++ [(h, n)]) (next N M h n) := by
  induction cs generalizing s with
  | nil =>
    obtain rfl : s = h := hl
    exact ⟨rfl, hn, hM, rfl⟩
  | cons c cs ih =>
    obtain ⟨hs, hpos, hle, hl⟩ := hl
    exact ⟨hs, hpos, hle, ih hl⟩

/-- The chunks behind one of them are linked from where it leads. -/
theorem Linked.drop {ds : List (Nat × Nat)} (hl : Linked N M s (cs ++ c :: ds) h) :
    Linked N M (next N M c.1 c.2) ds h := by
  induction cs generalizing s with
  | nil =>
    obtain ⟨hs, -, -, hl⟩ := hl
    rwa [hs]
  | cons d cs ih => exact ih hl.2.2.2

/-- Where the chunks lie: in one piece `[s, h)`, or in two pieces `[s, L)` and `[0, h)`, where `L` is the length of
the lap that ends between them. -/
inductive Shape (N M s h : Nat) (cs : List (Nat × Nat)) : Prop where
  | flat (hh : h = s + total cs) (hlt : h + M < N) (hcov : ∀ i, Covers cs i ↔ s ≤ i ∧ i < h)
  | wrapped (L : Nat) (hL : N ≤ L + M) (hLN : L < N) (hs : s < L) (hh : h + L = s + total cs) (hhs : h < s)
      (hcov : ∀ i, Covers cs i ↔ (s ≤ i ∧ i < L) ∨ i < h)

/-- **The shape of the chunks**, as long as they are fewer than the shortest lap. -/
theorem shape (hl : Linked N M s cs h) (hs : s + M < N) (ht : total cs + M < N) :
    Shape N M s h cs ∧ cs.Pairwise Apart := by
  induction cs generalizing s with
  | nil =>
    obtain rfl : s = h := hl
    exact ⟨.flat rfl hs fun i => by simp, List.Pairwise.nil⟩
  | cons c cs ih =>
    obtain ⟨hcs, hpos, hle, hl⟩ := hl
    rw [total_cons] at ht
    have hHas : ∀ i, Has c i ↔ s ≤ i ∧ i < s + c.2 := fun i => by rw [Has, hcs]
    by_cases hw : s + c.2 + M ≥ N
    · -- the lap ends with this chunk: the others start at 0 and do not fill the lap they are in
      rw [next, if_pos hw] at hl
      obtain ⟨hshape, hapart⟩ := ih hl (by omega) (by omega)
      cases hshape with
      | flat hh hlt hcov =>
        refine ⟨.wrapped (s + c.2) (by omega) (by omega) (by omega) (by rw [total_cons]; omega) (by omega) ?_, ?_⟩
        · intro i
          rw [covers_cons, hHas, hcov]
          omega
        · refine List.pairwise_cons.2 ⟨fun d hd i hi hdi => ?_, hapart⟩
          have := (hcov i).1 ⟨d, hd, hdi⟩
          have := (hHas i).1 hi
          omega
      | wrapped L hL hLN hs hh hhs hcov => omega
    · rw [next, if_neg hw] at hl
      obtain ⟨hshape, hapart⟩ := ih hl (by omega) (by omega)
      cases hshape with
      | flat hh hlt hcov =>
        refine ⟨.flat (by rw [total_cons]; omega) hlt ?_, ?_⟩
        · intro i
          rw [covers_cons, hHas, hcov]
          omega
        · refine List.pairwise_cons.2 ⟨fun d hd i hi hdi => ?_, hapart⟩
          have := (hcov i).1 ⟨d, hd, hdi⟩
          have := (hHas i).1 hi
          omega
      | wrapped L hL hLN hs' hh hhs hcov =>
        refine ⟨.wrapped L hL hLN (by omega) (by rw [total_cons]; omega) (by omega) ?_, ?_⟩
        · intro i
          rw [covers_cons, hHas, hcov]
          omega
        · refine List.pairwise_cons.2 ⟨fun d hd i hi hdi => ?_, hapart⟩
          have := (hcov i).1 ⟨d, hd, hdi⟩
          have := (hHas i).1 hi
          omega

section Facts

variable (hl : Linked N M s cs h) (hs : s + M < N) (ht : total cs + M < N)
include hl hs ht

theorem stop_lt : h + M < N := by
  cases (shape hl hs ht).1 with
  | flat _ hlt _ => exact hlt
  | wrapped _ _ _ _ _ hhs _ => omega

theorem covers_lt (hi : Covers cs i) : i < N := by
  cases (shape hl hs ht).1 with
  | flat _ hlt hcov =>
    have := (hcov i).1 hi
    omega
  | wrapped _ _ hLN _ _ hhs hcov =>
    have := (hcov i).1 hi
    omega

/-- The cell the next chunk starts at is free. -/
theorem stop_free : ¬Covers cs h := by
  cases (shape hl hs ht).1 with
  | flat _ _ hcov =>
    rw [hcov]
    omega
  | wrapped _ _ _ _ _ hhs hcov =>
    rw [hcov]
    omega

/-- **Room for one more chunk**: with `2 M` cells to spare, the `M` cells behind the chunks are free. -/
theorem room (hroom : total cs + 2 * M < N) {k : Nat} (hk : k < M) : h + k < N ∧ ¬Covers cs (h + k) := by
  cases (shape hl hs ht).1 with
  | flat _ hlt hcov =>
    rw [hcov]
    omega
  | wrapped _ _ _ _ _ _ hcov =>
    rw [hcov]
    omega

end Facts

/-! ## Walking through the cells -/

/-- `f` leads from each cell of the chunk to the next one, and from its last cell to where the next chunk starts. -/
def Follows (N M : Nat) (f : Nat → Nat) (c : Nat × Nat) : Prop :=
  ∀ o < c.2, f (c.1 + o) = if o + 1 = c.2 then next N M c.1 c.2 else c.1 + o + 1

section Walk

variable {f : Nat → Nat}

theorem iterate_in_chunk (hf : Follows N M f c) : ∀ o < c.2, f^[o] c.1 = c.1 + o
  | 0, _ => rfl
  | o + 1, ho => by
    rw [Function.iterate_succ_apply', iterate_in_chunk hf o (by omega), hf o (by omega), if_neg (by omega)]
    rfl

/-- The walk leaves the chunk for the start of the next one. -/
theorem iterate_chunk (hf : Follows N M f c) (hc : 0 < c.2) (k : Nat) :
    f^[c.2 + k] c.1 = f^[k] (next N M c.1 c.2) := by
  have hlast : f^[c.2] c.1 = next N M c.1 c.2 := by
    obtain ⟨o, ho⟩ : ∃ o, o + 1 = c.2 := ⟨c.2 - 1, by omega⟩
    have hstep := Function.iterate_succ_apply' f o c.1
    rw [iterate_in_chunk hf o (by omega), hf o (by omega), if_pos ho] at hstep
    rwa [Nat.succ_eq_add_one, ho] at hstep
  rw [Nat.add_comm, Function.iterate_add_apply, hlast]

/-- **As many steps as there are cells lead from `s` to `h`.** -/
theorem iterate_total (hl : Linked N M s cs h) (hf : ∀ c ∈ cs, Follows N M f c) : f^[total cs] s = h := by
  induction cs generalizing s with
  | nil => exact hl
  | cons c cs ih =>
    obtain ⟨rfl, hpos, -, hl⟩ := hl
    rw [total_cons, iterate_chunk (hf c List.mem_cons_self) hpos]
    exact ih hl fun d hd => hf d (List.mem_cons_of_mem c hd)

/-- The cells are those the walk meets on its way. -/
theorem cell_iff_iterate (hl : Linked N M s cs h) (hf : ∀ c ∈ cs, Follows N M f c) :
    Covers cs i ↔ ∃ k < total cs, f^[k] s = i := by
  induction cs generalizing s with
  | nil => simp
  | cons c cs ih =>
    obtain ⟨rfl, hpos, -, hl⟩ := hl
    have hfc := hf c List.mem_cons_self
    rw [covers_cons, ih hl fun d hd => hf d (List.mem_cons_of_mem c hd)]
    constructor
    · rintro (⟨hge, hlt⟩ | ⟨k, hk, rfl⟩)
      · exact ⟨i - c.1, by rw [total_cons]; omega, by rw [iterate_in_chunk hfc _ (by omega)]; omega⟩
      · exact ⟨c.2 + k, by rw [total_cons]; omega, iterate_chunk hfc hpos k⟩
    · rintro ⟨k, hk, rfl⟩
      by_cases hkc : k < c.2
      · rw [iterate_in_chunk hfc k hkc]
        exact .inl ⟨by omega, by omega⟩
      · obtain ⟨j, rfl⟩ : ∃ j, k = c.2 + j := ⟨k - c.2, by omega⟩
        rw [iterate_chunk hfc hpos]
        rw [total_cons] at hk
        exact .inr ⟨j, by omega, rfl⟩

/-- The first cells are the one the walk begins with and those it meets right after a last cell. -/
theorem start_iff_iterate (last : Nat → Prop) (hl : Linked N M s cs h) (hf : ∀ c ∈ cs, Follows N M f c)
    (hlast : ∀ c ∈ cs, ∀ o < c.2, (last (c.1 + o) ↔ o + 1 = c.2)) :
    (∃ c ∈ cs, c.1 = i) ↔ ∃ k < total cs, f^[k] s = i ∧ (k = 0 ∨ last (f^[k - 1] s)) := by
  induction cs generalizing s with
  | nil => simp
  | cons c cs ih =>
    obtain ⟨rfl, hpos, -, hl⟩ := hl
    have hfc := hf c List.mem_cons_self
    have hlc := hlast c List.mem_cons_self
    have ih := ih hl (fun d hd => hf d (List.mem_cons_of_mem c hd)) fun d hd => hlast d (List.mem_cons_of_mem c hd)
    have hend : f^[c.2 - 1] c.1 = c.1 + (c.2 - 1) := iterate_in_chunk hfc _ (by omega)
    have hsplit : (∃ d ∈ c :: cs, d.1 = i) ↔ c.1 = i ∨ ∃ d ∈ cs, d.1 = i := by simp
    rw [hsplit, ih]
    constructor
    · rintro (rfl | ⟨k, hk, hki, hkl⟩)
      · exact ⟨0, by rw [total_cons]; omega, rfl, .inl rfl⟩
      · refine ⟨c.2 + k, by rw [total_cons]; omega, by rw [iterate_chunk hfc hpos]; exact hki, .inr ?_⟩
        rcases hkl with rfl | hkl
        · rw [Nat.add_zero, hend, hlc (c.2 - 1) (Nat.sub_lt hpos Nat.one_pos)]
          exact Nat.sub_add_cancel hpos
        · by_cases hk0 : k = 0
          · rw [hk0, Nat.add_zero, hend, hlc (c.2 - 1) (Nat.sub_lt hpos Nat.one_pos)]
            exact Nat.sub_add_cancel hpos
          · rwa [Nat.add_sub_assoc (by omega), iterate_chunk hfc hpos]
    · rintro ⟨k, hk, hki, hkl⟩
      by_cases hkc : k < c.2
      · have hk0 : k = 0 := by
          rcases hkl with hk0 | hkl
          · exact hk0
          · rw [iterate_in_chunk hfc (k - 1) (by omega), hlc (k - 1) (by omega)] at hkl
            omega
        subst hk0
        exact .inl hki
      · obtain ⟨j, rfl⟩ : ∃ j, k = c.2 + j := ⟨k - c.2, by omega⟩
        rw [iterate_chunk hfc hpos] at hki
        rw [total_cons] at hk
        refine .inr ⟨j, by omega, hki, ?_⟩
        by_cases hj : j = 0
        · exact .inl hj
        · rcases hkl with hkl | hkl
          · omega
          · rw [Nat.add_sub_assoc (by omega), iterate_chunk hfc hpos] at hkl
            exact .inr hkl

end Walk

end Laps
