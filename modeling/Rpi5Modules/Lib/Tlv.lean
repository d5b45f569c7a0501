/-!
# Chains of elements

An element is a type byte, a length byte and as many bytes of content. A chain is a sequence of elements, one behind
the other; `Chain b p ps q` says that the elements at `ps` reach from `p` up to `q` in the buffer `b`.

What a buffer holds before `stop` is a chain of complete elements (`elems`), up to `chainEnd`, and possibly a truncated
element behind it. It is the longest chain that fits (`chain_elems`, `chainEnd_longest`). A walk over the chain that
keeps the last element of a kind computes `lastOf` (`lastOf_cons`).
-/

namespace Tlv

variable (b : Nat → UInt8)

/-- Where the element at `p` ends. -/
def next (p : Nat) : Nat := p + 2 + (b (p + 1)).toNat

/-- The elements at `ps`, one behind the other, reach from `p` to `q`. -/
inductive Chain : (p : Nat) → (ps : List Nat) → (q : Nat) → Prop
  | nil {p : Nat} : Chain p [] p
  | cons {p : Nat} {ps : List Nat} {q : Nat} : Chain (next b p) ps q → Chain p (p :: ps) q

theorem lt_next (p : Nat) : p < next b p := by
  unfold next
  omega

/-- The complete elements from `p` on, before `stop`. -/
def elems (p stop : Nat) : List Nat := if next b p ≤ stop then p :: elems (next b p) stop else []
termination_by stop - p
decreasing_by
  have := lt_next b p
  omega

/-- Where they end. -/
def chainEnd (p stop : Nat) : Nat := if next b p ≤ stop then chainEnd (next b p) stop else p
termination_by stop - p
decreasing_by
  have := lt_next b p
  omega

variable {b} {p q e stop : Nat} {ps : List Nat}

theorem elems_complete (h : next b p ≤ stop) : elems b p stop = p :: elems b (next b p) stop := by
  rw [elems, if_pos h]

theorem elems_truncated (h : ¬next b p ≤ stop) : elems b p stop = [] := by
  rw [elems, if_neg h]

theorem chainEnd_complete (h : next b p ≤ stop) : chainEnd b p stop = chainEnd b (next b p) stop := by
  rw [chainEnd, if_pos h]

theorem chainEnd_truncated (h : ¬next b p ≤ stop) : chainEnd b p stop = p := by
  rw [chainEnd, if_neg h]

theorem Chain.le (h : Chain b p ps q) : p ≤ q := by
  induction h with
  | nil => exact Nat.le_refl _
  | @cons p ps q _ ih => exact Nat.le_of_lt (Nat.lt_of_lt_of_le (lt_next b p) ih)

/-- Every element of a chain lies inside it. -/
theorem Chain.inside (h : Chain b p ps q) (he : e ∈ ps) : p ≤ e ∧ next b e ≤ q := by
  induction h with
  | nil => cases he
  | @cons p ps q h ih =>
    rcases List.mem_cons.1 he with rfl | he
    · exact ⟨Nat.le_refl _, h.le⟩
    · obtain ⟨hle, hq⟩ := ih he
      exact ⟨Nat.le_of_lt (Nat.lt_of_lt_of_le (lt_next b p) hle), hq⟩

/-- What is before `stop` is a chain. -/
theorem chain_elems (b : Nat → UInt8) (p stop : Nat) : Chain b p (elems b p stop) (chainEnd b p stop) := by
  by_cases h : next b p ≤ stop
  · rw [elems_complete h, chainEnd_complete h]
    exact (chain_elems b (next b p) stop).cons
  · rw [elems_truncated h, chainEnd_truncated h]
    exact Chain.nil
termination_by stop - p
decreasing_by
  have := lt_next b p
  omega

theorem chainEnd_le (b : Nat → UInt8) {p stop : Nat} (hp : p ≤ stop) : chainEnd b p stop ≤ stop := by
  by_cases h : next b p ≤ stop
  · rw [chainEnd_complete h]
    exact chainEnd_le b h
  · rw [chainEnd_truncated h]
    exact hp
termination_by stop - p
decreasing_by
  have := lt_next b p
  omega

/-- It is the longest one. -/
theorem chainEnd_longest (h : Chain b p ps q) (hq : q ≤ stop) : q ≤ chainEnd b p stop := by
  induction h with
  | nil => exact (chain_elems b _ stop).le
  | cons h ih =>
    rw [chainEnd_complete (Nat.le_trans h.le hq)]
    exact ih hq

/-! ## The last element of a kind -/

/-- The last of the elements that `P` accepts. -/
def lastOf (P : Nat → Bool) (ps : List Nat) : Option Nat := (ps.filter P).getLast?

theorem lastOf_cons (P : Nat → Bool) (p : Nat) (ps : List Nat) :
    lastOf P (p :: ps) = (lastOf P ps).or (if P p then some p else none) := by
  unfold lastOf
  by_cases h : P p = true
  · rw [List.filter_cons_of_pos h, if_pos h, List.getLast?_cons]
    cases (ps.filter P).getLast? with
    | none => rfl
    | some e => rfl
  · rw [List.filter_cons_of_neg h, if_neg h, Option.or_none]

end Tlv
