import Mathlib.Logic.Function.Basic

/-!
# Stores whose entries say where they belong

Owners put entries into a store, each at an address that the entry itself gives (`addr`). `live` is what each owner has
put there last and not taken away. Store and owners agree if the store holds the live entries, each at its address, and
nothing else.

Putting an entry in overwrites what was at its address, and taking one away empties a slot, whoever it belongs to: store
and owners go on to agree exactly if the slot is the owner's own (`Agree.update_iff`).
-/

namespace AddressedStore

open Function

universe u v w

variable {ι : Type u} {κ : Type v} {β : Type w}

/-- The store holds the live entries, each at its address. -/
def Agree (addr : β → κ) (store : κ → Option (ι × β)) (live : ι → Option β) : Prop :=
  ∀ a i x, store a = some (i, x) ↔ live i = some x ∧ addr x = a

/-- The slot `a` is free or `i`'s, and `i` has nothing elsewhere. -/
structure Own (addr : β → κ) (store : κ → Option (ι × β)) (live : ι → Option β) (i : ι) (a : κ) : Prop where
  slot : ∀ j x, store a = some (j, x) → j = i
  entry : ∀ x, live i = some x → addr x = a

theorem agree_empty (addr : β → κ) : Agree (ι := ι) addr (fun _ => none) fun _ => none := by
  intro a i x
  simp

variable [DecidableEq ι] [DecidableEq κ] {addr : β → κ} {store : κ → Option (ι × β)} {live : ι → Option β} {i : ι}
  {a : κ} {y : Option β}

/-- A slot that is another owner's, or an entry elsewhere, is lost. -/
theorem Agree.own_of_update (h : Agree addr store live) (hy : ∀ x, y = some x → addr x = a)
    (h' : Agree addr (update store a (y.map (Prod.mk i))) (update live i y)) : Own addr store live i a := by
  refine ⟨?_, ?_⟩
  · intro j x hs
    by_contra hne
    obtain ⟨hl, ha⟩ := (h a j x).1 hs
    have hl' : update live i y j = some x := by rw [update_of_ne hne, hl]
    have hs' := (h' a j x).2 ⟨hl', ha⟩
    rw [update_self] at hs'
    obtain ⟨z, -, hz⟩ := Option.map_eq_some_iff.1 hs'
    cases hz
    exact hne rfl
  · intro x hl
    by_contra hne
    have hs : store (addr x) = some (i, x) := (h (addr x) i x).2 ⟨hl, rfl⟩
    have hs' : update store a (y.map (Prod.mk i)) (addr x) = some (i, x) := by rw [update_of_ne hne, hs]
    have hl' := ((h' (addr x) i x).1 hs').1
    rw [update_self] at hl'
    exact hne (hy x hl')

/-- An owner's own slot takes its new entry. -/
theorem Agree.update (h : Agree addr store live) (hy : ∀ x, y = some x → addr x = a) (ho : Own addr store live i a) :
    Agree addr (update store a (y.map (Prod.mk i))) (update live i y) := by
  intro b j x
  by_cases hb : b = a
  · subst hb
    rw [update_self]
    by_cases hj : j = i
    · subst hj
      rw [update_self]
      constructor
      · intro hs
        obtain ⟨z, hz, hx⟩ := Option.map_eq_some_iff.1 hs
        cases hx
        exact ⟨hz, hy x hz⟩
      · rintro ⟨hx, -⟩
        rw [hx]
        rfl
    · rw [update_of_ne hj]
      constructor
      · intro hs
        obtain ⟨z, -, hx⟩ := Option.map_eq_some_iff.1 hs
        cases hx
        exact (hj rfl).elim
      · intro hl
        exact (hj (ho.slot j x ((h b j x).2 hl))).elim
  · rw [update_of_ne hb]
    by_cases hj : j = i
    · subst hj
      rw [update_self]
      constructor
      · intro hs
        obtain ⟨hl, ha⟩ := (h b j x).1 hs
        exact (hb (ha.symm.trans (ho.entry x hl))).elim
      · rintro ⟨hx, ha⟩
        exact (hb (ha.symm.trans (hy x hx))).elim
    · rw [update_of_ne hj]
      exact h b j x

/-- **The new entry of an owner keeps store and owners in agreement exactly if the slot is its own.** -/
theorem Agree.update_iff (h : Agree addr store live) (hy : ∀ x, y = some x → addr x = a) :
    Agree addr (Function.update store a (y.map (Prod.mk i))) (Function.update live i y) ↔ Own addr store live i a :=
  ⟨h.own_of_update hy, h.update hy⟩

end AddressedStore
