import Mathlib.Algebra.GroupWithZero.Nat
import Mathlib.Data.List.Basic
import Mathlib.Tactic.Common

/-!
# Byte memory with 32-bit addresses

A memory is a function from addresses to bytes. `store` writes a block of bytes, wrapping at the top of the address
space as hardware does; `Holds` says that a list of bytes lies in the memory from an address on.

- two stores of which the second goes on where the first ends are one store (`store_store`);
- what is stored is held (`holds_store`), and what is held outside a store stays (`Holds.store`);
- blocks that lie one behind the other cover every address from the first to the last once (`Tiles.countP_eq`).
-/

namespace Memory

/-- Byte memory with 32-bit addresses. -/
abbrev Mem := UInt32 → UInt8

/-- `len` bytes of `buf` go to `addr` and the addresses after it. -/
def store (m : Mem) (addr : UInt32) (len : Nat) (buf : Nat → UInt8) : Mem := fun a =>
  if (a - addr).toNat < len then buf (a - addr).toNat else m a

/-- The bytes lie in the memory from `start` on. -/
def Holds (m : Mem) (start : Nat) (bytes : List UInt8) : Prop :=
  ∀ k, (h : k < bytes.length) → m (UInt32.ofNat (start + k)) = bytes.get ⟨k, h⟩

variable {m : Mem}

/-- The offset from an address `n` further on. -/
theorem toNat_sub_add (a addr : UInt32) (n : Nat) :
    (a - (addr + UInt32.ofNat n)).toNat = ((a - addr).toNat + (2 ^ 32 - n % 2 ^ 32)) % 2 ^ 32 := by
  have h : a - (addr + UInt32.ofNat n) = a - addr - UInt32.ofNat n := by
    rw [UInt32.sub_eq_add_neg, UInt32.neg_add, UInt32.sub_eq_add_neg, UInt32.sub_eq_add_neg, UInt32.sub_eq_add_neg,
      ← UInt32.add_assoc]
  rw [h, UInt32.toNat_sub, UInt32.toNat_ofNat', Nat.add_comm]

@[simp] theorem store_zero (addr : UInt32) (buf : Nat → UInt8) : store m addr 0 buf = m := by
  funext a
  rw [store, if_neg (Nat.not_lt_zero _)]

/-- Stores that follow one another are one store. -/
theorem store_store (addr : UInt32) {n k : Nat} (hnk : n + k ≤ 2 ^ 32) (buf : Nat → UInt8) :
    store (store m addr n buf) (addr + UInt32.ofNat n) k (fun i => buf (n + i)) = store m addr (n + k) buf := by
  funext a
  have hlt : (a - addr).toNat < 2 ^ 32 := (a - addr).toNat_lt
  rcases Nat.lt_or_ge k 1 with hk | hk
  · obtain rfl : k = 0 := by omega
    rw [store_zero]
    rfl
  · have hoff := toNat_sub_add a addr n
    unfold store
    by_cases hn : (a - addr).toNat < n
    · rw [if_neg (by omega), if_pos hn, if_pos (by omega)]
    · have hoff' : (a - (addr + UInt32.ofNat n)).toNat = (a - addr).toNat - n := by omega
      rw [hoff', if_neg hn]
      by_cases hnk' : (a - addr).toNat < n + k
      · rw [if_pos (by omega), if_pos hnk']
        exact congrArg buf (Nat.add_sub_cancel' (by omega))
      · rw [if_neg (by omega), if_neg hnk']

section Holds

variable {start addr : Nat} {bytes : List UInt8}

/-- Two addresses given as numbers are as far apart as the numbers, up to the size of the address space. -/
theorem toNat_ofNat_sub (x y : Nat) (hy : y < 2 ^ 32) :
    (UInt32.ofNat x - UInt32.ofNat y).toNat = (x + (2 ^ 32 - y)) % 2 ^ 32 := by
  rw [UInt32.toNat_sub, UInt32.toNat_ofNat', UInt32.toNat_ofNat', Nat.mod_eq_of_lt hy]
  omega

/-- What is stored is held. -/
theorem holds_store (hs : start < 2 ^ 32) (hlen : bytes.length ≤ 2 ^ 32) :
    Holds (store m (UInt32.ofNat start) bytes.length (bytes.getD · 0)) start bytes := by
  intro k hk
  have hoff : (UInt32.ofNat (start + k) - UInt32.ofNat start).toNat = k := by
    rw [toNat_ofNat_sub _ _ hs]
    omega
  unfold store
  rw [hoff, if_pos hk]
  exact (List.getElem_eq_getD 0).symm

/-- What is held outside a store stays. -/
theorem Holds.store (h : Holds m start bytes) {len : Nat} {buf : Nat → UInt8} (ha : addr + len ≤ 2 ^ 32)
    (hs : start + bytes.length ≤ 2 ^ 32) (hd : start + bytes.length ≤ addr ∨ addr + len ≤ start) :
    Holds (store m (UInt32.ofNat addr) len buf) start bytes := by
  intro k hk
  rcases Nat.lt_or_ge addr (2 ^ 32) with hlt | hge
  · have hout : ¬(UInt32.ofNat (start + k) - UInt32.ofNat addr).toNat < len := by
      rw [toNat_ofNat_sub _ _ hlt]
      omega
    rw [Memory.store, if_neg hout]
    exact h k hk
  · obtain rfl : len = 0 := by omega
    rw [store_zero]
    exact h k hk

end Holds

/-! ## Blocks one behind the other -/

section Tiles

/-- The blocks, given by start and length, lie one behind the other from `s` on and end at `e`. -/
def Tiles : List (Nat × Nat) → Nat → Nat → Prop
  | [], s, e => s = e
  | c :: cs, s, e => c.1 = s ∧ Tiles cs (s + c.2) e

/-- The block contains the address. -/
def inBlock (x : Nat) (c : Nat × Nat) : Bool := c.1 ≤ x && x < c.1 + c.2

theorem Tiles.le {cs : List (Nat × Nat)} {s e : Nat} (h : Tiles cs s e) : s ≤ e := by
  induction cs generalizing s with
  | nil => exact Nat.le_of_eq h
  | cons c cs ih => exact Nat.le_trans (Nat.le_add_right s c.2) (ih h.2)

/-- Every address from `s` to `e` lies in one block, and no other address in any. -/
theorem Tiles.countP_eq {cs : List (Nat × Nat)} {s e : Nat} (h : Tiles cs s e) (x : Nat) :
    cs.countP (inBlock x) = if s ≤ x ∧ x < e then 1 else 0 := by
  induction cs generalizing s with
  | nil =>
    have hse : s = e := h
    rw [List.countP_nil, if_neg (by omega)]
  | cons c cs ih =>
    obtain ⟨rfl, htl⟩ := h
    have hle := htl.le
    rw [List.countP_cons, ih htl]
    by_cases hx : c.1 ≤ x ∧ x < c.1 + c.2
    · have hin : inBlock x c = true := by simp [inBlock, hx]
      rw [if_pos hin, if_neg (by omega), if_pos (by omega)]
    · have hin : ¬inBlock x c = true := by simpa [inBlock] using fun h => Nat.le_of_not_lt fun h' => hx ⟨h, h'⟩
      rw [if_neg hin, Nat.add_zero]
      by_cases hx' : c.1 + c.2 ≤ x ∧ x < e
      · rw [if_pos hx', if_pos (by omega)]
      · rw [if_neg hx', if_neg (by omega)]

end Tiles

end Memory
