import Mathlib.Logic.Function.Basic

/-!
# Queues linked through their elements

The elements of a queue are linked through a field of their own. The queue keeps a pointer to its head and a pointer to
where the next element is linked in: the field of the last element, or the head itself while the queue is empty.

- `Chain next p l`: from `p` on, the fields lead through the elements `l` and end there;
- `Links.Holds m l`: the queue holds `l`, and its tail pointer points where it should;
- `Links.push` appends an element (`Holds.push`), `Links.clear` gives the whole chain away (`holds_clear`). Who was
  given it walks it by the fields alone; that others push meanwhile does not change it (`Chain.push`).
-/

namespace TailQueue

universe u

variable {ν : Type u}

/-- Where a pointer to an element is kept. -/
inductive Place (ν : Type u) where
  | head
  | link (a : ν)

/-- The fields of all elements, and the two pointers of the queue. -/
structure Links (ν : Type u) where
  next : ν → Option ν
  head : Option ν
  tail : Place ν

/-- From `p` on, the fields lead through `l`. -/
def Chain (next : ν → Option ν) : Option ν → List ν → Prop
  | p, [] => p = none
  | p, a :: l => p = some a ∧ Chain next (next a) l

/-- The place of the pointer behind the elements `l`. -/
def endOf (l : List ν) : Place ν :=
  match l.getLast? with
  | none => .head
  | some a => .link a

@[simp] theorem endOf_nil : endOf ([] : List ν) = .head := rfl

@[simp] theorem endOf_concat (l : List ν) (a : ν) : endOf (l ++ [a]) = .link a := by simp [endOf]

/-- The queue holds `l`. -/
structure Links.Holds (m : Links ν) (l : List ν) : Prop where
  chain : Chain m.next m.head l
  tail : m.tail = endOf l

/-! ## Operations -/

/-- An empty queue. -/
def Links.clear (m : Links ν) : Links ν := { m with head := none, tail := .head }

variable [DecidableEq ν]

/-- Writes the pointer kept at the place. -/
def Links.store (m : Links ν) (p : Place ν) (v : Option ν) : Links ν :=
  match p with
  | .head => { m with head := v }
  | .link a => { m with next := Function.update m.next a v }

/-- Links `a` in at the tail. -/
def Links.push (m : Links ν) (a : ν) : Links ν :=
  { (m.store (.link a) none).store m.tail (some a) with tail := .link a }

/-! ## Chains -/

variable {next : ν → Option ν} {p : Option ν} {l q : List ν} {m : Links ν} {a b : ν} {v : Option ν}

omit [DecidableEq ν] in
@[simp] theorem chain_nil : Chain next p [] ↔ p = none := Iff.rfl

omit [DecidableEq ν] in
@[simp] theorem chain_cons : Chain next p (a :: l) ↔ p = some a ∧ Chain next (next a) l := Iff.rfl

omit [DecidableEq ν] in
/-- A chain is walked by its head and then the rest. -/
theorem Chain.some_cons (h : Chain next (some a) l) : ∃ l', l = a :: l' ∧ Chain next (next a) l' := by
  cases l with
  | nil => cases h
  | cons b l' =>
    obtain ⟨hb, h⟩ := h
    cases hb
    exact ⟨l', rfl, h⟩

omit [DecidableEq ν] in
theorem Chain.eq_nil (h : Chain next none l) : l = [] := by
  cases l with
  | nil => rfl
  | cons b l' => cases h.1

/-- A chain does not depend on the field of an element that is not in it. -/
theorem Chain.update (h : Chain next p l) (ha : a ∉ l) : Chain (Function.update next a v) p l := by
  induction l generalizing p with
  | nil => exact h
  | cons b l ih =>
    rw [List.mem_cons, not_or] at ha
    refine ⟨h.1, ?_⟩
    rw [Function.update_of_ne (Ne.symm ha.1)]
    exact ih h.2 ha.2

/-- Writing the field of the last element makes the chain longer. -/
theorem Chain.concat (h : Chain next p (l ++ [b])) (hb : b ∉ l) (ha : a ∉ l) (hab : a ≠ b) (hn : next a = none) :
    Chain (Function.update next b (some a)) p (l ++ [b] ++ [a]) := by
  induction l generalizing p with
  | nil =>
    refine ⟨h.1, ?_⟩
    rw [Function.update_self]
    refine ⟨rfl, ?_⟩
    rw [Function.update_of_ne hab]
    exact hn
  | cons c l ih =>
    rw [List.mem_cons, not_or] at hb ha
    refine ⟨h.1, ?_⟩
    rw [Function.update_of_ne (Ne.symm hb.1)]
    exact ih h.2 hb.2 ha.2

/-! ## The queue -/

omit [DecidableEq ν] in
theorem Links.holds_clear (m : Links ν) : m.clear.Holds [] := ⟨rfl, rfl⟩

/-- The elements of the queue keep their order, and the new one follows them. -/
theorem Links.Holds.push (h : m.Holds q) (hq : q.Nodup) (ha : a ∉ q) : (m.push a).Holds (q ++ [a]) := by
  refine ⟨?_, (endOf_concat q a).symm⟩
  have hchain : Chain (Function.update m.next a none) m.head q := h.chain.update ha
  have ht := h.tail
  rcases q.eq_nil_or_concat with rfl | ⟨l, b, rfl⟩
  · simp only [Links.push, Links.store, ht, endOf_nil, List.nil_append]
    exact ⟨rfl, Function.update_self ..⟩
  · rw [List.concat_eq_append] at *
    rw [List.mem_append, List.mem_singleton, not_or] at ha
    have hb : b ∉ l := fun hbl => (List.nodup_append.1 hq).2.2 b hbl b (List.mem_singleton_self b) rfl
    simp only [Links.push, Links.store, ht, endOf_concat]
    exact hchain.concat hb ha.1 ha.2 (Function.update_self ..)

/-- A chain that shares no element with the queue stays as it is when `a` is pushed. -/
theorem Chain.push (h : Chain m.next p l) (hm : m.Holds q) (ha : a ∉ l) (hd : ∀ b ∈ q, b ∉ l) :
    Chain (m.push a).next p l := by
  have hchain : Chain (Function.update m.next a none) p l := h.update ha
  have ht := hm.tail
  rcases q.eq_nil_or_concat with rfl | ⟨q', b, rfl⟩
  · simpa only [Links.push, Links.store, ht, endOf_nil] using hchain
  · rw [List.concat_eq_append] at ht hd
    simp only [Links.push, Links.store, ht, endOf_concat]
    exact hchain.update (hd b (by simp))

end TailQueue
