import Rpi5Modules.Lib.BufProg

/-!
# C strings

The functions of `string.h` as programs on a buffer, and what they read.

`Lies b off xs` says that the bytes `xs` are in the buffer from `off` on; a string is a list of bytes without NUL, and
it is terminated if a NUL lies behind it. On terminated strings `strnlen`, `strcmp` and `strlcpy` do what they are for
and read nothing behind the NUL; `strlcpy` reads on to the NUL of its source wherever that is (`not_within_strlcpy`).

A buffer of strings is split at its NULs (`List.splitOn 0`); `split_cases` is the induction a scan of such a buffer goes
by.
-/

namespace CString

open BufProg

variable {b : Nat → UInt8} {off n : Nat} {xs ys s : List UInt8} {x : UInt8}

/-! ## Bytes in a buffer -/

/-- The bytes are in the buffer from `off` on. -/
def Lies (b : Nat → UInt8) (off : Nat) (xs : List UInt8) : Prop :=
  ∀ k, (h : k < xs.length) → b (off + k) = xs.get ⟨k, h⟩

theorem lies_nil : Lies b off [] := fun _ h => absurd h (Nat.not_lt_zero _)

theorem lies_cons : Lies b off (x :: xs) ↔ b off = x ∧ Lies b (off + 1) xs := by
  constructor
  · intro h
    refine ⟨h 0 (Nat.succ_pos _), fun k hk => ?_⟩
    have hk' := h (k + 1) (Nat.succ_lt_succ hk)
    rw [Nat.add_right_comm]
    exact hk'
  · rintro ⟨h₀, h⟩ k hk
    cases k with
    | zero => exact h₀
    | succ k =>
      have hk' := h k (Nat.lt_of_succ_lt_succ hk)
      rw [Nat.add_right_comm] at hk'
      exact hk'

theorem lies_append : Lies b off (xs ++ ys) ↔ Lies b off xs ∧ Lies b (off + xs.length) ys := by
  induction xs generalizing off with
  | nil => simp [lies_nil]
  | cons x xs ih =>
    rw [List.cons_append, lies_cons, lies_cons, ih, List.length_cons, and_assoc, Nat.add_assoc, Nat.add_comm 1]

theorem lies_singleton : Lies b off [x] ↔ b off = x := by
  rw [lies_cons]
  exact and_iff_left lies_nil

/-! ## strnlen -/

/-- `strnlen(p, max)` with `p` at `off`. -/
def strnlen (off : Nat) : (max : Nat) → BufProg Nat
  | 0 => pure 0
  | max + 1 => do
    let c ← byte off
    if c = 0 then pure 0
    else do
      let k ← strnlen (off + 1) max
      pure (k + 1)

/-- A string whose NUL is in reach is read up to it. -/
theorem strnlen_terminated {max : Nat} (h : Lies b off (s ++ [0])) (hs : 0 ∉ s) (hmax : s.length < max) :
    (strnlen off max).result b = s.length ∧ ((strnlen off max).Within b n ↔ off + s.length < n) := by
  induction s generalizing off max with
  | nil =>
    obtain ⟨k, rfl⟩ := Nat.exists_eq_succ_of_ne_zero (Nat.ne_of_gt hmax)
    have h₀ : b off = 0 := lies_singleton.1 h
    simp [strnlen, h₀]
  | cons x s ih =>
    obtain ⟨k, rfl⟩ := Nat.exists_eq_succ_of_ne_zero (Nat.ne_of_gt (Nat.zero_lt_of_lt hmax))
    rw [List.cons_append, lies_cons] at h
    have hx : x ≠ 0 := fun hx => hs (hx ▸ List.mem_cons_self)
    obtain ⟨hr, hw⟩ := ih h.2 (fun hm => hs (List.mem_cons_of_mem x hm)) (Nat.lt_of_succ_lt_succ hmax)
    simp only [strnlen, result_bind, result_byte, h.1, hx, if_false, result_pure, hr, within_bind, within_byte, hw,
      within_pure, List.length_cons, and_true, true_and]
    omega

/-! ## strcmp -/

/-- `strcmp(p, t) == 0` with `p` at `off`. -/
def strcmpEq (off : Nat) : (t : List UInt8) → BufProg Bool
  | [] => do
    let c ← byte off
    pure (c = 0)
  | x :: t => do
    let c ← byte off
    if c = x then strcmpEq (off + 1) t else pure false

/-- On a terminated string the comparison is that of the strings, and it reads nothing behind the NUL. -/
theorem strcmpEq_terminated {t : List UInt8} (h : Lies b off (s ++ [0])) (hs : 0 ∉ s) (ht : 0 ∉ t) :
    ((strcmpEq off t).result b = true ↔ s = t) ∧ (off + s.length < n → (strcmpEq off t).Within b n) := by
  induction t generalizing off s with
  | nil =>
    cases s with
    | nil =>
      have h₀ : b off = 0 := lies_singleton.1 h
      simp [strcmpEq, h₀]
    | cons x s =>
      rw [List.cons_append, lies_cons] at h
      have hx : x ≠ 0 := fun hx => hs (hx ▸ List.mem_cons_self)
      simp only [strcmpEq, result_bind, result_byte, h.1, hx, result_pure, decide_false, within_bind, within_byte,
        within_pure, and_true, List.length_cons]
      exact ⟨by simp, by omega⟩
  | cons y t ih =>
    have hy : y ≠ 0 := fun hy => ht (hy ▸ List.mem_cons_self)
    cases s with
    | nil =>
      have h₀ : b off = 0 := lies_singleton.1 h
      simp [strcmpEq, h₀, Ne.symm hy]
    | cons x s =>
      rw [List.cons_append, lies_cons] at h
      obtain ⟨hr, hw⟩ := ih h.2 (fun hm => hs (List.mem_cons_of_mem x hm)) fun hm => ht (List.mem_cons_of_mem y hm)
      simp only [strcmpEq, result_bind, result_byte, h.1, within_bind, within_byte, within_ite, within_pure,
        List.length_cons, List.cons.injEq]
      by_cases hxy : x = y
      · rw [if_pos hxy]
        exact ⟨hr.trans (and_iff_right hxy).symm, fun hn => ⟨by omega, fun _ => hw (by omega), fun _ => trivial⟩⟩
      · rw [if_neg hxy]
        exact ⟨by simp [hxy], fun hn => ⟨by omega, fun h' => absurd h' hxy, fun _ => trivial⟩⟩

/-! ## strlcpy -/

/-- `strlcpy(dst, p, room + 1)` with `p` at `off`: the bytes that are copied. Behind them the source is read to its NUL,
for at most `fuel` bytes. -/
def strlcpy (fuel : Nat) (off : Nat) : (room : Nat) → BufProg (List UInt8)
  | 0 => do
    let _ ← strnlen off fuel
    pure []
  | room + 1 => do
    let c ← byte off
    if c = 0 then pure []
    else do
      let cs ← strlcpy fuel (off + 1) room
      pure (c :: cs)

/-- A terminated string is copied up to the room there is, and nothing behind its NUL is read. -/
theorem strlcpy_terminated {fuel : Nat} (room : Nat) (h : Lies b off (s ++ [0])) (hs : 0 ∉ s) (hf : s.length < fuel) :
    (strlcpy fuel off room).result b = s.take room ∧ (off + s.length < n → (strlcpy fuel off room).Within b n) := by
  induction room generalizing off s with
  | zero =>
    obtain ⟨-, hw⟩ := strnlen_terminated (n := n) h hs hf
    simp [strlcpy, hw]
  | succ room ih =>
    cases s with
    | nil =>
      have h₀ : b off = 0 := lies_singleton.1 h
      simp [strlcpy, h₀]
    | cons x s =>
      rw [List.cons_append, lies_cons] at h
      rw [List.length_cons] at hf
      have hx : x ≠ 0 := fun hx => hs (hx ▸ List.mem_cons_self)
      obtain ⟨hr, hw⟩ := ih h.2 (fun hm => hs (List.mem_cons_of_mem x hm)) (by omega)
      simp only [strlcpy, result_bind, result_byte, h.1, hx, if_false, result_pure, hr, within_bind, within_byte,
        within_pure, and_true, List.take_succ_cons, List.length_cons, true_and]
      exact fun hn => ⟨by omega, hw (by omega)⟩

/-- Of a string without a NUL the byte behind it is read too. -/
theorem not_within_strnlen {max : Nat} (h : Lies b off s) (hs : 0 ∉ s) (hmax : s.length < max) :
    ¬(strnlen off max).Within b (off + s.length) := by
  induction s generalizing off max with
  | nil =>
    obtain ⟨k, rfl⟩ := Nat.exists_eq_succ_of_ne_zero (Nat.ne_of_gt hmax)
    simp [strnlen]
  | cons x s ih =>
    obtain ⟨k, rfl⟩ := Nat.exists_eq_succ_of_ne_zero (Nat.ne_of_gt (Nat.zero_lt_of_lt hmax))
    rw [lies_cons] at h
    have hx : x ≠ 0 := fun hx => hs (hx ▸ List.mem_cons_self)
    have hno := ih h.2 (fun hm => hs (List.mem_cons_of_mem x hm)) (Nat.lt_of_succ_lt_succ hmax)
    rw [Nat.add_assoc, Nat.add_comm 1] at hno
    simp only [strnlen, within_bind, within_byte, result_byte, h.1, hx, if_false]
    exact fun hw => hno hw.2.1

theorem not_within_strlcpy {fuel : Nat} (room : Nat) (h : Lies b off s) (hs : 0 ∉ s) (hf : s.length < fuel) :
    ¬(strlcpy fuel off room).Within b (off + s.length) := by
  induction room generalizing off s with
  | zero => exact fun hw => not_within_strnlen h hs hf (within_bind.1 hw).1
  | succ room ih =>
    cases s with
    | nil => simp [strlcpy]
    | cons x s =>
      rw [lies_cons] at h
      rw [List.length_cons] at hf
      have hx : x ≠ 0 := fun hx => hs (hx ▸ List.mem_cons_self)
      have hno := ih h.2 (fun hm => hs (List.mem_cons_of_mem x hm)) (by omega)
      rw [Nat.add_assoc, Nat.add_comm 1] at hno
      simp only [strlcpy, within_bind, within_byte, result_byte, h.1, hx, if_false]
      exact fun hw => hno hw.2.1

/-! ## Buffers of strings -/

/-- A buffer of strings is one string without a NUL, or a terminated one and the rest. -/
theorem split_cases (xs : List UInt8) : 0 ∉ xs ∧ xs.splitOn 0 = [xs] ∨
    ∃ s ys, xs = s ++ 0 :: ys ∧ 0 ∉ s ∧ xs.splitOn 0 = s :: ys.splitOn 0 := by
  by_cases h : 0 ∈ xs
  · obtain ⟨s, ys, rfl, hs⟩ := List.eq_append_cons_of_mem h
    exact .inr ⟨s, ys, rfl, hs, List.splitOn_append_cons_self_of_not_mem hs ys⟩
  · exact .inl ⟨h, List.splitOn_eq_singleton h⟩

end CString
