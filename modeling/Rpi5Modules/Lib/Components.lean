/-!
# Calls on the components of a state

A device has components (channels, pins) and takes calls, each of which is about one of them. `view` is what there is to
see of one component, and `mine` says which calls are about it.

- if the other calls change nothing of the component, and its own do to it what a machine of its own does (`Local`),
  then it goes through the run of that machine, and looks as if there had been only the calls on it
  (`Local.view_foldl`, `Local.view_filter`);
- if a call either sets a value or leaves it, the value is the one that was set last (`get_foldl`).
-/

namespace Components

universe u v w x

variable {σ : Type u} {ο : Type v} {α β : Type w} {γ : Type x} (exec : σ → ο → σ)

/-! ## One component -/

section Local

variable (mine : ο → Prop) [DecidablePred mine] (view : σ → γ) (step : γ → ο → γ)

/-- The component takes its own calls as the machine `step` does, and no others. -/
def Local : Prop := ∀ s o, view (exec s o) = if mine o then step (view s) o else view s

variable {exec mine view step}

/-- The component goes through the run of its machine. -/
theorem Local.view_foldl (h : Local exec mine view step) (os : List ο) (s : σ) :
    view (os.foldl exec s) = (os.filter mine).foldl step (view s) := by
  induction os generalizing s with
  | nil => rfl
  | cons o os ih =>
    rw [List.foldl_cons, ih, h]
    by_cases ho : mine o
    · rw [List.filter_cons_of_pos (by simpa using ho), if_pos ho]
      rfl
    · rw [List.filter_cons_of_neg (by simpa using ho), if_neg ho]

/-- **A component looks as if there had been only the calls on it.** -/
theorem Local.view_filter (h : Local exec mine view step) (os : List ο) (s : σ) :
    view (os.foldl exec s) = view ((os.filter mine).foldl exec s) := by
  rw [h.view_foldl, h.view_foldl, List.filter_filter]
  simp only [Bool.and_self]

end Local

/-! ## The last value -/

section Last

variable (f : ο → Option α)

/-- What the last call that sets a value sets it to. -/
def last : List ο → Option α
  | [] => none
  | o :: os => (last os).or (f o)

variable {exec f} {os os' : List ο} {o : ο} {a : α}

@[simp] theorem last_nil : last f [] = none := rfl

theorem last_eq_none_iff : last f os = none ↔ ∀ o ∈ os, f o = none := by
  induction os with
  | nil => simp
  | cons o os ih => rw [last, Option.or_eq_none_iff, ih, List.forall_mem_cons, and_comm]

/-- The value comes from a call, behind which there is none that sets another. -/
theorem last_eq_some_iff : last f os = some a ↔ ∃ pre o post, os = pre ++ o :: post ∧ f o = some a ∧
    ∀ o' ∈ post, f o' = none := by
  induction os with
  | nil => simp
  | cons o os ih =>
    rw [last, Option.or_eq_some_iff, ih, last_eq_none_iff]
    constructor
    · rintro (⟨pre, o', post, rfl, ho, hpost⟩ | ⟨hnone, ho⟩)
      · exact ⟨o :: pre, o', post, rfl, ho, hpost⟩
      · exact ⟨[], o, os, rfl, ho, hnone⟩
    · rintro ⟨pre, o', post, hos, ho, hpost⟩
      cases pre with
      | nil =>
        cases hos
        exact .inr ⟨hpost, ho⟩
      | cons b pre =>
        cases hos
        exact .inl ⟨pre, o', post, rfl, ho, hpost⟩

/-- **A value that calls set or leave alone is the one set last.** -/
theorem get_foldl (get : σ → α) (h : ∀ s o, get (exec s o) = (f o).getD (get s)) (os : List ο) (s : σ) :
    get (os.foldl exec s) = (last f os).getD (get s) := by
  induction os generalizing s with
  | nil => rfl
  | cons o os ih =>
    rw [List.foldl_cons, ih, h, last]
    cases last f os <;> rfl

theorem last_map {g : α → β} : last (fun o => (f o).map g) os = (last f os).map g := by
  induction os with
  | nil => rfl
  | cons o os ih =>
    rw [last, last, ih]
    cases last f os <;> rfl

end Last

end Components
