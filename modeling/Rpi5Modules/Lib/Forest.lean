/-!
# Ordered forests and their depth-first search

A forest is empty, or a node with the forest of its children and the forest of the peers behind it. Data that gives a
node's first child and a node's next peer by two functions, with one value `zero` for none, denotes a forest if it is
finite (`Denotes`).

`find` is the search `if (test(a)) return a; for (c = child(a); c != 0; c = peer(c)) if ((r = find(c)) != 0) return r;`.
It makes its tests in preorder and stops behind the first that passes, which is what it returns (`find_eq`).
-/

universe u

inductive Forest (α : Type u) where
  | nil
  | node (a : α) (children peers : Forest α)

namespace Forest

variable {α : Type u}

/-- A node, what is below it, and then its peers. -/
def preorder : Forest α → List α
  | nil => []
  | node a children peers => a :: (children.preorder ++ peers.preorder)

/-- The functions enumerate the forest from the node on. -/
def Denotes (child peer : α → α) (zero : α) : α → Forest α → Prop
  | a, nil => a = zero
  | a, node b children peers =>
    a = b ∧ a ≠ zero ∧ Denotes child peer zero (child a) children ∧ Denotes child peer zero (peer a) peers

variable {child peer : α → α} {zero : α} {t : Forest α} {a : α}

theorem Denotes.ne_zero (h : Denotes child peer zero a t) : ∀ b ∈ t.preorder, b ≠ zero := by
  induction t generalizing a with
  | nil => exact fun b hb => absurd hb List.not_mem_nil
  | node b children peers ihc ihp =>
    obtain ⟨rfl, hne, hc, hp⟩ := h
    intro b hb
    rw [preorder, List.mem_cons, List.mem_append] at hb
    rcases hb with rfl | hb | hb
    · exact hne
    · exact ihc hc b hb
    · exact ihp hp b hb

/-! ## Lists up to a match -/

section UpTo

variable {p q : α → Bool} {l m : List α}

/-- The list up to the first element that passes, and with it. -/
def upTo (p : α → Bool) : List α → List α
  | [] => []
  | a :: l => a :: if p a then [] else upTo p l

theorem upTo_append_of_none (h : l.find? p = none) : upTo p (l ++ m) = l ++ upTo p m := by
  induction l with
  | nil => rfl
  | cons a l ih =>
    have ha : ¬p a = true := List.find?_eq_none.1 h a List.mem_cons_self
    rw [List.find?_cons_of_neg ha] at h
    rw [List.cons_append, upTo, if_neg ha, ih h, List.cons_append]

theorem upTo_append_of_some (h : l.find? p = some a) : upTo p (l ++ m) = upTo p l := by
  induction l with
  | nil => cases h
  | cons b l ih =>
    rw [List.cons_append, upTo, upTo]
    by_cases hb : p b = true
    · rw [if_pos hb, if_pos hb]
    · rw [List.find?_cons_of_neg hb] at h
      rw [if_neg hb, if_neg hb, ih h]

theorem mem_of_mem_upTo (h : a ∈ upTo p l) : a ∈ l := by
  induction l with
  | nil => exact h
  | cons b l ih =>
    rw [upTo, List.mem_cons] at h
    rcases h with rfl | h
    · exact List.mem_cons_self
    · by_cases hb : p b = true
      · rw [if_pos hb] at h
        exact absurd h List.not_mem_nil
      · rw [if_neg hb] at h
        exact List.mem_cons_of_mem b (ih h)

/-- Tests that agree up to the first match have the same first match. -/
theorem upTo_congr (h : ∀ a ∈ upTo q l, p a = q a) : upTo p l = upTo q l ∧ l.find? p = l.find? q := by
  induction l with
  | nil => exact ⟨rfl, rfl⟩
  | cons a l ih =>
    have ha : p a = q a := h a (by rw [upTo]; exact List.mem_cons_self)
    rw [upTo, upTo, List.find?_cons, List.find?_cons, ha]
    cases hq : q a with
    | true => exact ⟨rfl, rfl⟩
    | false =>
      have hl : ∀ b ∈ upTo q l, p b = q b := by
        intro b hb
        apply h b
        rw [upTo, hq]
        exact List.mem_cons_of_mem a hb
      obtain ⟨hup, hfind⟩ := ih hl
      exact ⟨congrArg (a :: ·) hup, hfind⟩

/-- What holds up to the first match, if it makes two tests agree, holds up to the first match of either. -/
theorem forall_upTo_congr {P : α → Prop} (h : ∀ a, P a → p a = q a) :
    (∀ a ∈ upTo p l, P a) ↔ ∀ a ∈ upTo q l, P a := by
  constructor
  · intro hp
    rwa [(upTo_congr fun a ha => (h a (hp a ha)).symm).1]
  · intro hq
    rwa [(upTo_congr fun a ha => h a (hq a ha)).1]

/-- The first element that passes, and the elements up to it. -/
def firstMatch (p : α → Bool) (zero : α) (l : List α) : α × List α := ((l.find? p).getD zero, upTo p l)

/-- The first match in two lists is in the first one, or in the second if the first has none. -/
theorem firstMatch_append [DecidableEq α] (hl : ∀ c ∈ l, c ≠ zero) : firstMatch p zero (l ++ m) =
    if (firstMatch p zero l).1 ≠ zero then firstMatch p zero l
    else ((firstMatch p zero m).1, (firstMatch p zero l).2 ++ (firstMatch p zero m).2) := by
  unfold firstMatch
  cases h : l.find? p with
  | some c =>
    have hc : c ≠ zero := hl c (List.mem_of_find?_eq_some h)
    rw [Option.getD_some, if_pos hc, List.find?_append, h, upTo_append_of_some h]
    rfl
  | none =>
    have hall : upTo p l = l := by
      have hnil := upTo_append_of_none (m := []) h
      rwa [List.append_nil, upTo, List.append_nil] at hnil
    rw [Option.getD_none, if_neg (not_not_intro rfl), List.find?_append, h, upTo_append_of_none h, hall]
    rfl

end UpTo

/-! ## The search -/

section Find

variable [DecidableEq α] (child peer zero) (test : α → Bool)

mutual

/-- The search from a node on: what it returns and the nodes it tests, in order. Followed for at most `fuel` calls one
in another. -/
def find : (fuel : Nat) → α → Option (α × List α)
  | 0, _ => none
  | fuel + 1, a => if test a then some (a, [a]) else (findPeers fuel (child a)).map fun r => (r.1, a :: r.2)

/-- The loop over a node and its peers. -/
def findPeers : (fuel : Nat) → α → Option (α × List α)
  | 0, _ => none
  | fuel + 1, a =>
    if a ≠ zero then
      (find fuel a).bind fun r =>
        if r.1 ≠ zero then some r else (findPeers fuel (peer a)).map fun s => (s.1, r.2 ++ s.2)
    else some (zero, [])

end

variable {child peer zero test} {fuel : Nat}

/-- The search from a node, if that over its children is right. -/
theorem find_of_findPeers (h : findPeers child peer zero test fuel (child a) = some (firstMatch test zero t.preorder)) :
    find child peer zero test (fuel + 1) a = some (firstMatch test zero (a :: t.preorder)) := by
  rw [find, firstMatch, List.find?_cons, upTo]
  cases ha : test a with
  | true => rfl
  | false =>
    rw [h]
    rfl

/-- **The loop over peers tests the forest in preorder, up to the first match.** -/
theorem findPeers_eq (h : Denotes child peer zero a t) (hf : 2 * t.preorder.length < fuel) :
    findPeers child peer zero test fuel a = some (firstMatch test zero t.preorder) := by
  induction t generalizing a fuel with
  | nil =>
    obtain ⟨n, rfl⟩ := Nat.exists_eq_succ_of_ne_zero (Nat.ne_of_gt hf)
    have hzero : ¬a ≠ zero := not_not_intro h
    rw [findPeers, if_neg hzero]
    rfl
  | node b children peers ihc ihp =>
    obtain ⟨rfl, hne, hc, hp⟩ := h
    have hnz : ∀ c ∈ a :: children.preorder, c ≠ zero := by
      intro c hmem
      rcases List.mem_cons.1 hmem with rfl | hmem
      · exact hne
      · exact hc.ne_zero c hmem
    rw [preorder, List.length_cons, List.length_append] at hf
    obtain ⟨n, rfl⟩ := Nat.exists_eq_add_of_le' (show 2 ≤ fuel by omega)
    have hchildren : findPeers child peer zero test n (child a) = some (firstMatch test zero children.preorder) :=
      ihc hc (by omega)
    have hbelow := find_of_findPeers hchildren
    have hpeers : findPeers child peer zero test (n + 1) (peer a) = some (firstMatch test zero peers.preorder) :=
      ihp hp (by omega)
    rw [preorder, ← List.cons_append, firstMatch_append hnz, findPeers, if_pos hne, hbelow, Option.bind_some, hpeers]
    split
    · rfl
    · rfl

/-- **The search returns the first node in preorder that passes, and tests the nodes up to it.** -/
theorem find_eq (h : Denotes child peer zero (child a) t) (hf : 2 * t.preorder.length + 1 < fuel) :
    find child peer zero test fuel a = some (firstMatch test zero (a :: t.preorder)) := by
  obtain ⟨n, rfl⟩ := Nat.exists_eq_succ_of_ne_zero (Nat.ne_of_gt (Nat.zero_lt_of_lt hf))
  exact find_of_findPeers (findPeers_eq h (Nat.lt_of_succ_lt_succ hf))

end Find

end Forest
