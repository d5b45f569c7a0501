/-!
# A countdown that every change restarts

`for (left = limit; left > 0; left--) { x = read(); if (stop(x)) break; if (x != last) { last = x; left = limit; } }`
reads values until one of them stops it, or until the same value has come `limit` times. `countdown` follows the loop
for at most `fuel` values of the sequence `v`; it ends with the number of values it has read and the counter, or with
`none` if the fuel does not suffice.

- the counter is `limit` less the number of equal values at the end of what was read, `standing` (`State.At`);
- so the loop ends at the first value that stops it or is the `limit`-th of equal ones (`countdown_some`,
  `countdown_of_ends`);
- a sequence that changes all the time is read for ever (`not_ends_of_changing`);
- if each change makes the value smaller, at most `limit - 1` values are read for each one below the first
  (`exists_ends_of_falling`).
-/

universe u

namespace Countdown

variable {α : Type u} [DecidableEq α]

/-- The last value, and how many more of it are read. -/
structure State (α : Type u) where
  last : α
  left : Nat

/-- A value that does not stop the loop, and the decrement behind it. -/
def State.next (limit : Nat) (s : State α) (x : α) : State α :=
  if x ≠ s.last then ⟨x, limit - 1⟩ else ⟨s.last, s.left - 1⟩

/-- The loop from the value with number `i` on. -/
def countdown (stop : α → Bool) (limit : Nat) (v : Nat → α) : Nat → Nat → State α → Option (Nat × Nat)
  | fuel, i, s =>
    if 0 < s.left then
      match fuel with
      | 0 => none
      | fuel + 1 =>
        if stop (v i) then some (i + 1, s.left)
        else countdown stop limit v fuel (i + 1) (s.next limit (v i))
    else some (i, s.left)

/-- How many equal values end the first `n` ones. -/
def standing (v : Nat → α) : Nat → Nat
  | 0 => 0
  | 1 => 1
  | n + 2 => if v (n + 1) = v n then standing v (n + 1) + 1 else 1

/-- The value with number `k` ends the loop. -/
def Ends (stop : α → Bool) (limit : Nat) (v : Nat → α) (k : Nat) : Prop :=
  stop (v k) = true ∨ limit ≤ standing v (k + 1)

section Standing

variable (v : Nat → α)

/-- The end of `m` equal values. -/
theorem le_standing_iff {m n : Nat} (hm : 0 < m) :
    m ≤ standing v (n + 1) ↔ m ≤ n + 1 ∧ ∀ j, n + 1 ≤ j + m → j ≤ n → v j = v n := by
  induction n generalizing m with
  | zero =>
    refine ⟨fun h => ⟨h, fun j _ hj => ?_⟩, fun h => h.1⟩
    rw [Nat.le_zero.1 hj]
  | succ n ih =>
    rw [standing]
    split
    next heq =>
      rcases Nat.eq_zero_or_pos (m - 1) with hm1 | hm1
      · refine iff_of_true (by omega) ⟨by omega, fun j hj hjn => ?_⟩
        rw [show j = n + 1 by omega]
      · rw [show m ≤ standing v (n + 1) + 1 ↔ m - 1 ≤ standing v (n + 1) by omega, ih hm1]
        constructor
        · rintro ⟨hle, h⟩
          refine ⟨by omega, fun j hj hjn => ?_⟩
          rcases Nat.lt_or_ge n j with hlt | hge
          · rw [show j = n + 1 by omega]
          · rw [h j (by omega) hge, heq]
        · rintro ⟨hle, h⟩
          refine ⟨by omega, fun j hj hjn => ?_⟩
          rw [h j (by omega) (by omega), heq]
    next hne =>
      constructor
      · intro h
        refine ⟨by omega, fun j hj hjn => ?_⟩
        rw [show j = n + 1 by omega]
      · rintro ⟨-, h⟩
        rcases Nat.lt_or_ge 1 m with hlt | hge
        · exact absurd (h n (by omega) (Nat.le_succ n)).symm hne
        · exact hge

/-- Two values in turn never stand. -/
theorem standing_le_one (h : ∀ i, v (i + 1) ≠ v i) (n : Nat) : standing v n ≤ 1 := by
  match n with
  | 0 => exact Nat.zero_le 1
  | 1 => exact Nat.le_refl 1
  | n + 2 => exact Nat.le_of_eq (if_neg (h n))

end Standing

/-! ## The loop -/

section Loop

variable {stop : α → Bool} {limit : Nat} {v : Nat → α}

/-- The state after `n` values, none of which ended the loop. -/
structure State.At (limit : Nat) (v : Nat → α) (n : Nat) (s : State α) : Prop where
  left : s.left + standing v n = limit
  last : ∀ k, n = k + 1 → s.last = v k
  pos : 0 < s.left

theorem State.at_start (x : α) (hl : 0 < limit) : State.At limit v 0 ⟨x, limit⟩ :=
  ⟨rfl, fun _ h => absurd h.symm (Nat.succ_ne_zero _), hl⟩

/-- The counter goes down as the values stand. -/
theorem State.At.next {n : Nat} {s : State α} (h : s.At limit v n) :
    (s.next limit (v n)).left + standing v (n + 1) = limit ∧ (s.next limit (v n)).last = v n := by
  have hleft := h.left
  have hpos := h.pos
  cases n with
  | zero =>
    simp only [standing] at hleft ⊢
    unfold State.next
    split
    · exact ⟨by dsimp only; omega, rfl⟩
    next heq => exact ⟨by dsimp only; omega, (Classical.not_not.1 heq).symm⟩
  | succ n =>
    have hlast := h.last n rfl
    rw [standing]
    unfold State.next
    rw [hlast]
    by_cases heq : v (n + 1) = v n
    · rw [if_neg (Classical.not_not.2 heq), if_pos heq]
      exact ⟨by dsimp only; omega, heq.symm⟩
    · rw [if_pos heq, if_neg heq]
      exact ⟨by dsimp only; omega, rfl⟩

theorem State.At.succ {n : Nat} {s : State α} (h : s.At limit v n) (hpos : 0 < (s.next limit (v n)).left) :
    (s.next limit (v n)).At limit v (n + 1) := by
  obtain ⟨hleft, hlast⟩ := h.next
  refine ⟨hleft, fun k hk => ?_, hpos⟩
  rw [hlast, Nat.succ.inj hk]

/-- A value that does not stop the loop ends it if it uses the counter up. -/
theorem State.At.ends_iff {n : Nat} {s : State α} (h : s.At limit v n) (hs : ¬stop (v n) = true) :
    Ends stop limit v n ↔ (s.next limit (v n)).left = 0 := by
  have hleft := h.next.1
  rw [Ends, or_iff_right hs]
  omega

theorem countdown_expired {s : State α} (h : s.left = 0) (fuel i : Nat) :
    countdown stop limit v fuel i s = some (i, 0) := by
  rw [countdown.eq_def]
  dsimp only
  rw [if_neg (Nat.not_lt.2 (Nat.le_of_eq h)), h]

theorem countdown_stop {s : State α} (h : 0 < s.left) (fuel : Nat) {i : Nat} (hs : stop (v i) = true) :
    countdown stop limit v (fuel + 1) i s = some (i + 1, s.left) := by
  rw [countdown, if_pos h, if_pos hs]

theorem countdown_next {s : State α} (h : 0 < s.left) (fuel : Nat) {i : Nat} (hs : ¬stop (v i) = true) :
    countdown stop limit v (fuel + 1) i s = countdown stop limit v fuel (i + 1) (s.next limit (v i)) := by
  rw [countdown, if_pos h, if_neg hs]

/-- Where the loop ends, and with which counter. -/
theorem countdown_some {fuel i : Nat} {s : State α} (h : s.At limit v i) {r : Nat × Nat}
    (hr : countdown stop limit v fuel i s = some r) :
    ∃ k, i ≤ k ∧ k < i + fuel ∧ r.1 = k + 1 ∧ Ends stop limit v k ∧ (∀ j, i ≤ j → j < k → ¬Ends stop limit v j) ∧
      (r.2 = 0 ↔ ¬stop (v k) = true) := by
  induction fuel generalizing i s with
  | zero =>
    rw [countdown, if_pos h.pos] at hr
    cases hr
  | succ fuel ih =>
    by_cases hs : stop (v i) = true
    · rw [countdown_stop h.pos fuel hs] at hr
      cases hr
      exact ⟨i, Nat.le_refl i, by omega, rfl, .inl hs, fun j hj hjk => absurd hjk (Nat.not_lt.2 hj),
        iff_of_false (Nat.ne_of_gt h.pos) (Classical.not_not.2 hs)⟩
    · rw [countdown_next h.pos fuel hs] at hr
      rcases Nat.eq_zero_or_pos (s.next limit (v i)).left with hzero | hpos
      · rw [countdown_expired hzero] at hr
        cases hr
        exact ⟨i, Nat.le_refl i, by omega, rfl, (h.ends_iff hs).2 hzero,
          fun j hj hjk => absurd hjk (Nat.not_lt.2 hj), iff_of_true rfl hs⟩
      · obtain ⟨k, hik, hk, hrk, hends, hfirst, hexp⟩ := ih (h.succ hpos) hr
        refine ⟨k, by omega, by omega, hrk, hends, fun j hj hjk => ?_, hexp⟩
        rcases Nat.eq_or_lt_of_le hj with heq | hlt
        · subst heq
          rw [h.ends_iff hs]
          exact Nat.ne_of_gt hpos
        · exact hfirst j hlt hjk

/-- If some value ends the loop, it ends there or before. -/
theorem countdown_of_ends {fuel i k : Nat} {s : State α} (h : s.At limit v i) (hk : i ≤ k) (hf : k < i + fuel)
    (hends : Ends stop limit v k) : ∃ r, countdown stop limit v fuel i s = some r ∧ r.1 ≤ k + 1 := by
  induction fuel generalizing i s with
  | zero => omega
  | succ fuel ih =>
    by_cases hs : stop (v i) = true
    · rw [countdown_stop h.pos fuel hs]
      exact ⟨_, rfl, Nat.succ_le_succ hk⟩
    · rw [countdown_next h.pos fuel hs]
      rcases Nat.eq_zero_or_pos (s.next limit (v i)).left with hzero | hpos
      · rw [countdown_expired hzero]
        exact ⟨_, rfl, Nat.succ_le_succ hk⟩
      · have hne : k ≠ i := by
          rintro rfl
          exact Nat.ne_of_gt hpos ((h.ends_iff hs).1 hends)
        exact ih (h.succ hpos) (by omega) (by omega)

/-- A sequence that changes all the time, and is never stopped, has no end. -/
theorem not_ends_of_changing (hstop : ∀ i, ¬stop (v i) = true) (h : ∀ i, v (i + 1) ≠ v i) (hl : 1 < limit) (k : Nat) :
    ¬Ends stop limit v k := by
  rintro (h' | h')
  · exact hstop k h'
  · exact absurd (Nat.le_trans h' (standing_le_one v h (k + 1))) (Nat.not_le.2 hl)

/-- If every change makes the measure `f` smaller and what measures zero stops the loop, it ends after at most
`limit - 1` values for each step of the measure. -/
theorem exists_ends_of_falling (f : α → Nat) (hzero : ∀ x, f x = 0 → stop x = true)
    (hfall : ∀ i, v (i + 1) ≠ v i → f (v (i + 1)) < f (v i)) (hl : 0 < limit) :
    ∃ k ≤ f (v 0) * (limit - 1), Ends stop limit v k := by
  apply Classical.byContradiction
  intro hno
  have hnone : ∀ k ≤ f (v 0) * (limit - 1), ¬Ends stop limit v k := fun k hk he => hno ⟨k, hk, he⟩
  -- a change gives up `limit - 1` of the bound, and the values since then have taken less
  have hpot : ∀ k ≤ f (v 0) * (limit - 1),
      k + 1 + f (v k) * (limit - 1) ≤ f (v 0) * (limit - 1) + standing v (k + 1) := by
    intro k hk
    induction k with
    | zero => rw [standing]; omega
    | succ k ih =>
      have ih := ih (Nat.le_of_succ_le hk)
      have hstand : standing v (k + 1) ≤ limit - 1 := by
        have hlt : standing v (k + 1) < limit :=
          Nat.lt_of_not_le fun h => hnone k (Nat.le_of_succ_le hk) (.inr h)
        omega
      rw [standing]
      by_cases heq : v (k + 1) = v k
      · rw [if_pos heq, heq]
        omega
      · rw [if_neg heq]
        have hmul := Nat.mul_le_mul_right (limit - 1) (Nat.succ_le_of_lt (hfall k heq))
        rw [Nat.succ_mul] at hmul
        omega
  have hlast := hpot _ (Nat.le_refl _)
  have hend := hnone _ (Nat.le_refl (f (v 0) * (limit - 1)))
  have hpos : 0 < f (v (f (v 0) * (limit - 1))) :=
    Nat.pos_of_ne_zero fun h => hend (.inl (hzero _ h))
  have hstand : standing v (f (v 0) * (limit - 1) + 1) < limit := Nat.lt_of_not_le fun h => hend (.inr h)
  have hmul := Nat.mul_le_mul_right (limit - 1) (Nat.succ_le_of_lt hpos)
  rw [Nat.succ_mul, Nat.zero_mul] at hmul
  omega

end Loop

end Countdown
