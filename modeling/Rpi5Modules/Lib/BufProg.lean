/-!
# Programs that read one buffer

`BufProg α` is a computation whose only effect is reading bytes of a buffer, one index at a time. The buffer is the
whole memory that follows its start (`Nat → UInt8`), so an index past the end of what the buffer holds reads whatever
lies there, as in C.

- `result` is what the program computes, `touched` the indices it reads, in order;
- a program sees nothing but what it touches: two buffers equal on the touched indices give the same result
  (`result_congr`); so a program that stays below `n` (`Within`) does not depend on anything from `n` on
  (`Within.result_eq`);
- `byte`, `le16`, `le32`, `be16`, `be32`, `bytes`, `eqBytes` are the reads drivers are made of; `beNat` is the number
  in big-endian bytes;
- `shift` runs a program behind a pointer: it reads `off + i` where the program reads `i`.
-/

universe u v

/-- A computation that reads bytes of a buffer. -/
inductive BufProg (α : Type u) where
  | ret (a : α)
  | read (i : Nat) (k : UInt8 → BufProg α)

namespace BufProg

variable {α : Type u} {β : Type v}

def bind : BufProg α → (α → BufProg β) → BufProg β
  | ret a, f => f a
  | read i k, f => read i fun c => (k c).bind f

instance : Monad BufProg where
  pure := ret
  bind := bind

/-- What the program computes from the buffer `b`. -/
def result : BufProg α → (Nat → UInt8) → α
  | ret a, _ => a
  | read i k, b => (k (b i)).result b

/-- The indices the program reads of the buffer `b`. -/
def touched : BufProg α → (Nat → UInt8) → List Nat
  | ret _, _ => []
  | read i k, b => i :: (k (b i)).touched b

variable {γ δ : Type u} (b : Nat → UInt8)

@[simp] theorem result_pure (a : γ) : result (pure a) b = a := rfl

@[simp] theorem touched_pure (a : γ) : touched (pure a) b = [] := rfl

@[simp] theorem result_bind (p : BufProg γ) (f : γ → BufProg δ) : result (p >>= f) b = result (f (result p b)) b := by
  induction p with
  | ret a => rfl
  | read i k ih => exact ih (b i)

@[simp] theorem touched_bind (p : BufProg γ) (f : γ → BufProg δ) :
    touched (p >>= f) b = touched p b ++ touched (f (result p b)) b := by
  induction p with
  | ret a => rfl
  | read i k ih => exact congrArg (i :: ·) (ih (b i))

/-! ## A program sees what it touches -/

section Congr

variable {b} {c : Nat → UInt8} {n m : Nat}

theorem result_congr : ∀ (p : BufProg α), (∀ i ∈ p.touched b, b i = c i) → p.result b = p.result c
  | ret _, _ => rfl
  | read i k, h => by
    have hi : b i = c i := h i List.mem_cons_self
    have hk := result_congr (k (b i)) fun j hj => h j (List.mem_cons_of_mem i hj)
    show (k (b i)).result b = (k (c i)).result c
    rw [hk, hi]

/-- Every index the program reads of `b` is smaller than `n`. -/
def Within (p : BufProg α) (b : Nat → UInt8) (n : Nat) : Prop := ∀ i ∈ p.touched b, i < n

instance (p : BufProg α) (b : Nat → UInt8) (n : Nat) : Decidable (p.Within b n) :=
  inferInstanceAs (Decidable (∀ i ∈ p.touched b, i < n))

@[simp] theorem within_pure (a : γ) : Within (pure a) b n := fun _ h => by cases h

@[simp] theorem within_bind {p : BufProg γ} {f : γ → BufProg δ} :
    Within (p >>= f) b n ↔ Within p b n ∧ Within (f (p.result b)) b n := by
  simp only [Within, touched_bind, List.mem_append]
  exact ⟨fun h => ⟨fun i hi => h i (.inl hi), fun i hi => h i (.inr hi)⟩, fun h i hi => hi.elim (h.1 i) (h.2 i)⟩

@[simp] theorem within_ite {c : Prop} [Decidable c] {p q : BufProg α} :
    Within (if c then p else q) b n ↔ (c → Within p b n) ∧ (¬c → Within q b n) := by
  by_cases h : c <;> simp [h]

theorem Within.mono {p : BufProg α} (h : p.Within b n) (hnm : n ≤ m) : p.Within b m :=
  fun i hi => Nat.lt_of_lt_of_le (h i hi) hnm

/-- A program that stays below `n` does not depend on the buffer from `n` on. -/
theorem Within.result_eq {p : BufProg α} (h : p.Within b n) (hbc : ∀ i < n, b i = c i) : p.result b = p.result c :=
  result_congr p fun i hi => hbc i (h i hi)

end Congr

/-! ## Reads -/

/-- One byte. -/
def byte (i : Nat) : BufProg UInt8 := read i ret

/-- A little-endian 16-bit word. -/
def le16 (i : Nat) : BufProg UInt16 := do
  let b₀ ← byte i
  let b₁ ← byte (i + 1)
  pure (UInt16.ofNat (b₀.toNat + 256 * b₁.toNat))

/-- A little-endian 32-bit word. -/
def le32 (i : Nat) : BufProg UInt32 := do
  let b₀ ← byte i
  let b₁ ← byte (i + 1)
  let b₂ ← byte (i + 2)
  let b₃ ← byte (i + 3)
  pure (UInt32.ofNat (b₀.toNat + 256 * b₁.toNat + 65536 * b₂.toNat + 16777216 * b₃.toNat))

/-- A big-endian 16-bit word. -/
def be16 (i : Nat) : BufProg UInt16 := do
  let b₀ ← byte i
  let b₁ ← byte (i + 1)
  pure (UInt16.ofNat (256 * b₀.toNat + b₁.toNat))

/-- A big-endian 32-bit word. -/
def be32 (i : Nat) : BufProg UInt32 := do
  let b₀ ← byte i
  let b₁ ← byte (i + 1)
  let b₂ ← byte (i + 2)
  let b₃ ← byte (i + 3)
  pure (UInt32.ofNat (16777216 * b₀.toNat + 65536 * b₁.toNat + 256 * b₂.toNat + b₃.toNat))

/-- The number whose big-endian digits are the `len` bytes from `off` on. -/
def beNat (b : Nat → UInt8) (off : Nat) : (len : Nat) → Nat
  | 0 => 0
  | len + 1 => 256 * beNat b off len + (b (off + len)).toNat

/-- `len` bytes from `off` on, as `memcpy` reads them. -/
def bytes (off : Nat) : Nat → BufProg (List UInt8)
  | 0 => pure []
  | len + 1 => do
    let c ← byte off
    let cs ← bytes (off + 1) len
    pure (c :: cs)

@[simp] theorem result_byte (i : Nat) : (byte i).result b = b i := rfl

@[simp] theorem touched_byte (i : Nat) : (byte i).touched b = [i] := rfl

@[simp] theorem touched_le16 (i : Nat) : (le16 i).touched b = [i, i + 1] := rfl

@[simp] theorem touched_le32 (i : Nat) : (le32 i).touched b = [i, i + 1, i + 2, i + 3] := rfl

@[simp] theorem touched_be16 (i : Nat) : (be16 i).touched b = [i, i + 1] := rfl

@[simp] theorem touched_be32 (i : Nat) : (be32 i).touched b = [i, i + 1, i + 2, i + 3] := rfl

theorem toNat_be16 (i : Nat) : ((be16 i).result b).toNat = beNat b i 2 := by
  have h₀ := (b i).toNat_lt
  have h₁ := (b (i + 1)).toNat_lt
  show (256 * (b i).toNat + (b (i + 1)).toNat) % 2 ^ 16 = beNat b i 2
  simp only [beNat, Nat.add_zero]
  omega

theorem toNat_be32 (i : Nat) : ((be32 i).result b).toNat = beNat b i 4 := by
  have h₀ := (b i).toNat_lt
  have h₁ := (b (i + 1)).toNat_lt
  have h₂ := (b (i + 2)).toNat_lt
  have h₃ := (b (i + 3)).toNat_lt
  show (16777216 * (b i).toNat + 65536 * (b (i + 1)).toNat + 256 * (b (i + 2)).toNat + (b (i + 3)).toNat) % 2 ^ 32 =
    beNat b i 4
  simp only [beNat, Nat.add_zero]
  omega

@[simp] theorem result_bytes (off len : Nat) : (bytes off len).result b = (List.range' off len).map b := by
  induction len generalizing off with
  | zero => rfl
  | succ len ih => simp [bytes, ih, List.range'_succ]

@[simp] theorem touched_bytes (off len : Nat) : (bytes off len).touched b = List.range' off len := by
  induction len generalizing off with
  | zero => rfl
  | succ len ih => simp [bytes, ih, List.range'_succ]

variable {b} {n : Nat}

@[simp] theorem within_byte {i : Nat} : (byte i).Within b n ↔ i < n := by simp [Within]

@[simp] theorem within_le16 {i : Nat} : (le16 i).Within b n ↔ i + 1 < n := by
  simp only [Within, touched_le16, List.mem_cons, List.not_mem_nil, or_false, forall_eq_or_imp, forall_eq]
  omega

@[simp] theorem within_le32 {i : Nat} : (le32 i).Within b n ↔ i + 3 < n := by
  simp only [Within, touched_le32, List.mem_cons, List.not_mem_nil, or_false, forall_eq_or_imp, forall_eq]
  omega

@[simp] theorem within_be16 {i : Nat} : (be16 i).Within b n ↔ i + 1 < n := by
  simp only [Within, touched_be16, List.mem_cons, List.not_mem_nil, or_false, forall_eq_or_imp, forall_eq]
  omega

@[simp] theorem within_be32 {i : Nat} : (be32 i).Within b n ↔ i + 3 < n := by
  simp only [Within, touched_be32, List.mem_cons, List.not_mem_nil, or_false, forall_eq_or_imp, forall_eq]
  omega

theorem within_bytes {off len : Nat} : (bytes off len).Within b n ↔ len = 0 ∨ off + len ≤ n := by
  simp only [Within, touched_bytes, List.mem_range'_1]
  constructor
  · intro h
    by_cases hl : len = 0
    · exact .inl hl
    · have := h (off + len - 1) (by omega)
      exact .inr (by omega)
  · rintro (rfl | h) i hi <;> omega

/-- Compares the bytes from `off` on with a list, up to the first that differs, as a chain of `==` and `&&` does. -/
def eqBytes (off : Nat) : List UInt8 → BufProg Bool
  | [] => pure true
  | c :: cs => do
    let x ← byte off
    if x = c then eqBytes (off + 1) cs else pure false

/-- The comparison is that of the bytes read. -/
theorem result_eqBytes : ∀ (cs : List UInt8) (off : Nat),
    (eqBytes off cs).result b = true ↔ (List.range' off cs.length).map b = cs
  | [], _ => by simp [eqBytes]
  | c :: cs, off => by
    rw [List.length_cons, List.range'_succ, List.map_cons, List.cons.injEq, ← result_eqBytes cs (off + 1), eqBytes,
      result_bind, result_byte]
    by_cases h : b off = c
    · rw [if_pos h]
      exact (and_iff_right h).symm
    · rw [if_neg h]
      exact iff_of_false Bool.false_ne_true fun h' => h h'.1

theorem within_eqBytes : ∀ {cs : List UInt8} {off : Nat}, off + cs.length ≤ n → (eqBytes off cs).Within b n
  | [], _, _ => within_pure true
  | c :: cs, off, h => by
    rw [List.length_cons] at h
    rw [eqBytes, within_bind, within_byte]
    exact ⟨by omega, within_ite.2 ⟨fun _ => within_eqBytes (by omega), fun _ => within_pure false⟩⟩

/-! ## Behind a pointer -/

/-- The program on the buffer that starts `off` bytes further on. -/
def shift (off : Nat) : BufProg α → BufProg α
  | ret a => ret a
  | read i k => read (off + i) fun c => (k c).shift off

@[simp] theorem result_shift (off : Nat) (p : BufProg α) : (p.shift off).result b = p.result fun i => b (off + i) := by
  induction p with
  | ret a => rfl
  | read i k ih => exact ih _

theorem touched_shift (off : Nat) (p : BufProg α) :
    (p.shift off).touched b = (p.touched fun i => b (off + i)).map (off + ·) := by
  induction p with
  | ret a => rfl
  | read i k ih => exact congrArg (_ :: ·) (ih _)

/-- A program that stays in the first `m` bytes behind the pointer stays below `n` if they do. -/
theorem Within.shift {p : BufProg α} {off m : Nat} (h : p.Within (fun i => b (off + i)) m) (hn : off + m ≤ n) :
    (p.shift off).Within b n := by
  intro j hj
  rw [touched_shift, List.mem_map] at hj
  obtain ⟨i, hi, rfl⟩ := hj
  have := h i hi
  omega

theorem within_shift_le32 {off i : Nat} : ((le32 i).shift off).Within b n ↔ off + i + 3 < n := by
  simp only [Within, touched_shift, touched_le32, List.map_cons, List.map_nil, List.mem_cons, List.not_mem_nil,
    or_false, forall_eq_or_imp, forall_eq]
  omega

end BufProg
