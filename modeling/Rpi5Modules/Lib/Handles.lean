import Mathlib.Logic.Function.Basic

/-!
# Objects behind handles

Objects that are created, loaded, unloaded and destroyed through a table of handles. A slot of the table is
overwritten by `create` whatever it holds; to load what is loaded, to unload what is not, to destroy what is loaded, or
any of these without an object, is an error.

`Exact P` says that the slots with `P` hold one loaded object each, the other slots nothing, and that there are no other
objects. It is kept by `create` and `load` in a free slot (`Exact.put`), by `create` and `destroy`
(`Exact.createDestroy`), by `unload` and `destroy` (`Exact.take`) and by a loop that does so (`Exact.drain`); behind a
`create` over a handle it does not hold (`Exact.not_exact_create`).
-/

open Function

universe u

/-- The table of handles, and for each object whether it is loaded. -/
structure Handles (ι : Type u) where
  slot : ι → Option Nat
  obj : Nat → Option Bool
  made : Nat

namespace Handles

variable {ι : Type u} [DecidableEq ι]

def init : Handles ι := ⟨fun _ => none, fun _ => none, 0⟩

def create (i : ι) (w : Handles ι) : Handles ι :=
  ⟨update w.slot i (some w.made), update w.obj w.made (some false), w.made + 1⟩

omit [DecidableEq ι] in
/-- The object behind slot `i`, if it is loaded or not as it should be. -/
def get (i : ι) (loaded : Bool) (w : Handles ι) : Option Nat :=
  (w.slot i).filter fun h => w.obj h = some loaded

def load (i : ι) (w : Handles ι) : Option (Handles ι) :=
  (w.get i false).map fun h => { w with obj := update w.obj h (some true) }

def unload (i : ι) (w : Handles ι) : Option (Handles ι) :=
  (w.get i true).map fun h => { w with obj := update w.obj h (some false) }

/-- The slot is cleared too. -/
def destroy (i : ι) (w : Handles ι) : Option (Handles ι) :=
  (w.get i false).map fun h => { w with slot := update w.slot i none, obj := update w.obj h none }

def put (i : ι) (w : Handles ι) : Option (Handles ι) := (w.create i).load i

def take (i : ι) (w : Handles ι) : Option (Handles ι) := (w.unload i).bind (destroy i)

/-- A loop over the slots that takes what is there. -/
def drain (p : ι → Bool) : List ι → Handles ι → Option (Handles ι)
  | [], w => some w
  | i :: is, w => if p i then (w.take i).bind (drain p is) else drain p is w

/-- A loop over the slots that destroys what is behind them. -/
def sweep : List ι → Handles ι → Option (Handles ι)
  | [], w => some w
  | i :: is, w => if (w.slot i).isSome then (w.destroy i).bind (sweep is) else sweep is w

/-- One loaded object in each slot with `P`, and nothing else. -/
structure Exact (P : ι → Prop) (w : Handles ι) : Prop where
  slot_iff : ∀ i, (w.slot i).isSome ↔ P i
  loaded : ∀ i h, w.slot i = some h → w.obj h = some true
  owned : ∀ h b, w.obj h = some b → ∃ i, w.slot i = some h
  inj : ∀ i j h, w.slot i = some h → w.slot j = some h → i = j
  fresh : ∀ h, w.made ≤ h → w.obj h = none

section Rules

variable {P Q : ι → Prop} {w : Handles ι} {i : ι} {h : Nat}

omit [DecidableEq ι] in
theorem Exact.congr (hw : Exact P w) (h : ∀ i, P i ↔ Q i) : Exact Q w :=
  ⟨fun i => (hw.slot_iff i).trans (h i), hw.loaded, hw.owned, hw.inj, hw.fresh⟩

omit [DecidableEq ι] in
theorem exact_init : Exact (fun _ : ι => False) init :=
  ⟨fun _ => by simp [init], nofun, nofun, nofun, fun _ _ => rfl⟩

omit [DecidableEq ι] in
theorem Exact.ne_made (hw : Exact P w) {j : ι} (hj : w.slot j = some h) : h ≠ w.made := by
  rintro rfl
  have hl := hw.loaded j _ hj
  rw [hw.fresh _ (Nat.le_refl _)] at hl
  cases hl

omit [DecidableEq ι] in
/-- Nothing in the slots, no objects. -/
theorem Exact.none (hw : Exact P w) (hP : ∀ i, ¬P i) : (∀ i, w.slot i = none) ∧ ∀ h, w.obj h = none := by
  have hslot : ∀ i, w.slot i = Option.none := fun i => by
    simpa using mt (hw.slot_iff i).1 (hP i)
  refine ⟨hslot, fun h => ?_⟩
  by_contra hne
  obtain ⟨b, hb⟩ := Option.ne_none_iff_exists'.1 hne
  obtain ⟨i, hi⟩ := hw.owned h b hb
  rw [hslot i] at hi
  cases hi

/-- A new object in a free slot, loaded. -/
theorem Exact.put (hw : Exact P w) (hi : ¬P i) :
    ∃ w', w.put i = some w' ∧ Exact (fun j => j = i ∨ P j) w' := by
  have hget : (w.create i).get i false = some w.made := by
    simp [get, create, Option.filter]
  refine ⟨_, by rw [Handles.put, load, hget, Option.map_some], ?_, ?_, ?_, ?_, ?_⟩
  · intro j
    by_cases hj : j = i
    · simp [create, hj]
    · simp [create, hj, hw.slot_iff j]
  · intro j h hs
    by_cases hj : j = i
    · subst hj
      simp only [create, update_self, Option.some.injEq] at hs
      simp [hs]
    · simp only [create, update_of_ne hj] at hs
      have hne := hw.ne_made hs
      simp [create, update_of_ne hne, hw.loaded j h hs]
  · intro h b hb
    by_cases hm : h = w.made
    · exact ⟨i, by simp [create, hm]⟩
    · simp only [create, update_of_ne hm] at hb
      obtain ⟨j, hj⟩ := hw.owned h b hb
      have hji : j ≠ i := by
        rintro rfl
        exact hi ((hw.slot_iff j).1 (by rw [hj]; rfl))
      exact ⟨j, by simp [create, update_of_ne hji, hj]⟩
  · intro j k h hj hk
    simp only [create, update_apply] at hj hk
    split at hj <;> split at hk
    · next hji hki => exact hji.trans hki.symm
    · cases hj
      exact absurd rfl (hw.ne_made hk)
    · cases hk
      exact absurd rfl (hw.ne_made hj)
    · exact hw.inj j k h hj hk
  · intro h hm
    have hm' : w.made + 1 ≤ h := hm
    have hne : h ≠ w.made := by omega
    simp [create, update_of_ne hne, hw.fresh h (by omega)]

/-- A new object in a free slot, destroyed again. -/
theorem Exact.createDestroy (hw : Exact P w) (hi : ¬P i) : ∃ w', (w.create i).destroy i = some w' ∧ Exact P w' := by
  have hget : (w.create i).get i false = some w.made := by
    simp [get, create, Option.filter]
  have hslot : w.slot i = Option.none := by simpa using mt (hw.slot_iff i).1 hi
  have hobj : w.obj w.made = Option.none := hw.fresh _ (Nat.le_refl _)
  refine ⟨⟨w.slot, w.obj, w.made + 1⟩, ?_, hw.slot_iff, hw.loaded, hw.owned, hw.inj, fun h hm => hw.fresh h ?_⟩
  · rw [destroy, hget, Option.map_some]
    simp [create, update_eq_self_iff.2, hslot, hobj]
  · exact Nat.le_of_succ_le hm

/-- The object of a slot goes. -/
theorem Exact.take (hw : Exact P w) (hi : P i) : ∃ w', w.take i = some w' ∧ Exact (fun j => j ≠ i ∧ P j) w' := by
  obtain ⟨h, hs⟩ := Option.isSome_iff_exists.1 ((hw.slot_iff i).2 hi)
  have hget : w.get i true = some h := by
    simp [get, hs, Option.filter, hw.loaded i h hs]
  have hother : ∀ {j k}, j ≠ i → w.slot j = some k → k ≠ h := by
    rintro j k hj hk rfl
    exact hj (hw.inj j i k hk hs)
  refine ⟨⟨update w.slot i Option.none, update w.obj h Option.none, w.made⟩, ?_, ?_, ?_, ?_, ?_, ?_⟩
  · rw [Handles.take, unload, hget, Option.map_some, Option.bind_some]
    simp [destroy, get, hs, Option.filter]
  · intro j
    by_cases hj : j = i
    · simp [hj]
    · simp [hj, hw.slot_iff j]
  · intro j k hk
    by_cases hj : j = i
    · simp [hj] at hk
    · simp only [update_of_ne hj] at hk
      simp only [update_of_ne (hother hj hk)]
      exact hw.loaded j k hk
  · intro k b hb
    by_cases hk : k = h
    · simp [hk] at hb
    · simp only [update_of_ne hk] at hb
      obtain ⟨j, hj⟩ := hw.owned k b hb
      have hji : j ≠ i := by
        rintro rfl
        exact hk (Option.some.inj (hj.symm.trans hs))
      exact ⟨j, by simp [update_of_ne hji, hj]⟩
  · intro j k l hj hk
    simp only [update_apply] at hj hk
    split at hj <;> split at hk
    · cases hj
    · cases hj
    · cases hk
    · exact hw.inj j k l hj hk
  · intro k hm
    simp only [update_apply]
    split
    · rfl
    · exact hw.fresh k hm

/-- A loop that takes the objects of the slots that have one. -/
theorem Exact.drain {p : ι → Bool} {is : List ι} (hnd : is.Nodup) (hp : ∀ i ∈ is, p i = true ↔ P i) (hw : Exact P w) :
    ∃ w', w.drain p is = some w' ∧ Exact (fun j => j ∉ is ∧ P j) w' := by
  induction is generalizing P w with
  | nil => exact ⟨w, rfl, hw.congr fun i => by simp⟩
  | cons i is ih =>
    obtain ⟨hni, hnd⟩ := List.nodup_cons.1 hnd
    have hpi := hp i List.mem_cons_self
    cases hb : p i with
    | true =>
      obtain ⟨v, hv, hexact⟩ := hw.take (hpi.1 hb)
      obtain ⟨w', hw', hexact'⟩ := ih hnd (fun j hj => by
        have hji : j ≠ i := fun h => hni (h ▸ hj)
        rw [hp j (List.mem_cons_of_mem i hj)]
        exact (and_iff_right hji).symm) hexact
      refine ⟨w', by rw [Handles.drain, if_pos hb, hv]; exact hw', hexact'.congr fun j => ?_⟩
      rw [List.mem_cons, not_or, and_left_comm, and_assoc]
    | false =>
      have hnot : ¬P i := fun h => Bool.false_ne_true (hb.symm.trans (hpi.2 h))
      obtain ⟨w', hw', hexact⟩ := ih hnd (fun j hj => hp j (List.mem_cons_of_mem i hj)) hw
      refine ⟨w', by rw [Handles.drain, if_neg (by simp [hb])]; exact hw', hexact.congr fun j => ?_⟩
      rw [List.mem_cons, not_or, and_assoc]
      refine ⟨fun h => ⟨?_, h⟩, fun h => h.2⟩
      rintro rfl
      exact hnot h.2

/-- The sweep of an empty table. -/
theorem sweep_of_empty (h : ∀ i, w.slot i = Option.none) (is : List ι) : w.sweep is = some w := by
  induction is with
  | nil => rfl
  | cons i is ih => rw [sweep, h i, if_neg (by simp), ih]

/-- An object whose handle is overwritten is in no slot. -/
theorem Exact.lost (hw : Exact P w) (hi : P i) :
    ∃ h, h ≠ w.made ∧ (w.create i).obj h = some true ∧ ∀ j, (w.create i).slot j ≠ some h := by
  obtain ⟨h, hs⟩ := Option.isSome_iff_exists.1 ((hw.slot_iff i).2 hi)
  have hne := hw.ne_made hs
  refine ⟨h, hne, by simp [create, update_of_ne hne, hw.loaded i h hs], fun j hj => ?_⟩
  simp only [create, update_apply] at hj
  split at hj
  · cases hj
    exact hne rfl
  · next hji => exact hji (hw.inj j i h hj hs)

/-- **A handle that is overwritten is not made up for** by loading or destroying the new object. -/
theorem Exact.not_exact_create (hw : Exact P w) (hi : P i) {w' : Handles ι}
    (h : w.put i = some w' ∨ (w.create i).destroy i = some w') : ¬Exact Q w' := by
  obtain ⟨l, hne, hobj, hslot⟩ := hw.lost hi
  have hget : (w.create i).get i false = some w.made := by
    simp [get, create, Option.filter]
  rcases h with h | h
  · rw [Handles.put, load, hget, Option.map_some] at h
    cases h
    intro hQ
    obtain ⟨j, hj⟩ := hQ.owned l true ((update_of_ne hne _ _).trans hobj)
    exact hslot j hj
  · rw [destroy, hget, Option.map_some] at h
    cases h
    intro hQ
    obtain ⟨j, hj⟩ := hQ.owned l true ((update_of_ne hne _ _).trans hobj)
    simp only [update_apply] at hj
    split at hj
    · cases hj
    · exact hslot j hj

end Rules

end Handles
