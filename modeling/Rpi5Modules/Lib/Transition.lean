/-!
# Runs of a step function

A system is a function `step : σ → α → Option σ`: in state `s` the action `a` is either not enabled or leads to one
state. What the environment decides (which party moves, what a device answers) is in the action, so a schedule is a
list of actions.

- `run` follows a schedule; `Reaches` is reachability by some schedule;
- `AllSteps C` says that every step a schedule takes meets `C`, `AllStates P` that every state it meets has `P`;
- an invariant of the steps is an invariant of the runs (`allStates_inv`), also when only the steps that meet a
  condition keep it (`allStates_of`);
- a schedule that breaks a condition has a first step that does (`exists_first_break`);
- a property of the states that forces a condition on the steps between them holds exactly of the runs that meet it,
  if the condition keeps an invariant that gives the property (`allStates_iff`);
- a condition on the steps decides a property of the states if runs that meet it have the property throughout, and a
  run that breaks it can go on, from the first step that does, to a state without it (`Decides`, `decides_of`,
  `decides_of_inv`);
- a system that records more of its past has the same runs (`allStates_erase`);
- an invariant of a system that simulates the steps is one of the runs too (`allStates_sim`).
-/

namespace Transition

universe u v

variable {σ : Type u} {α : Type v} (step : σ → α → Option σ)

/-- Follows a schedule; `none` as soon as an action is not enabled. -/
def run : σ → List α → Option σ
  | s, [] => some s
  | s, a :: as => (step s a).bind fun s' => run s' as

/-- Every step the schedule takes meets `C`. -/
def AllSteps (C : σ → α → Prop) : σ → List α → Prop
  | _, [] => True
  | s, a :: as => ∀ s', step s a = some s' → C s a ∧ AllSteps C s' as

/-- Every state the schedule goes through has `P`, the first one included. -/
def AllStates (P : σ → Prop) : σ → List α → Prop
  | s, [] => P s
  | s, a :: as => P s ∧ ∀ s', step s a = some s' → AllStates P s' as

/-- Some schedule leads from `s` to `t`. -/
def Reaches (s t : σ) : Prop := ∃ as, run step s as = some t

variable {step} {s t : σ} {a : α} {as bs : List α} {C D : σ → α → Prop} {P I : σ → Prop}

@[simp] theorem run_nil : run step s [] = some s := rfl

@[simp] theorem run_cons : run step s (a :: as) = (step s a).bind fun s' => run step s' as := rfl

theorem run_cons_some : run step s (a :: as) = some t ↔ ∃ s', step s a = some s' ∧ run step s' as = some t := by
  simp [Option.bind_eq_some_iff]

/-- A run splits where its schedule splits. -/
theorem run_append : run step s (as ++ bs) = (run step s as).bind fun s' => run step s' bs := by
  induction as generalizing s with
  | nil => rfl
  | cons a as ih =>
    rw [List.cons_append, run_cons, run_cons]
    cases step s a with
    | none => rfl
    | some s' => exact ih

theorem Reaches.refl (s : σ) : Reaches step s s := ⟨[], rfl⟩

theorem Reaches.trans {u : σ} (h : Reaches step s t) (h' : Reaches step t u) : Reaches step s u := by
  obtain ⟨as, ha⟩ := h
  obtain ⟨bs, hb⟩ := h'
  exact ⟨as ++ bs, by rw [run_append, ha]; exact hb⟩

/-- What holds of every state and action holds of every step. -/
theorem AllSteps.of_forall (h : ∀ s a, C s a) : ∀ (s : σ) (as : List α), AllSteps step C s as
  | _, [] => trivial
  | s, a :: as => fun s' _ => ⟨h s a, AllSteps.of_forall h s' as⟩

theorem AllSteps.and : ∀ {s : σ} {as : List α}, AllSteps step C s as → AllSteps step D s as →
    AllSteps step (fun s a => C s a ∧ D s a) s as
  | _, [], _, _ => trivial
  | _, _ :: _, h, h' => fun s' hs => ⟨⟨(h s' hs).1, (h' s' hs).1⟩, AllSteps.and (h s' hs).2 (h' s' hs).2⟩

/-- A schedule that meets the condition meets it up to any point. -/
theorem AllSteps.of_append (h : AllSteps step C s (as ++ bs)) : AllSteps step C s as := by
  induction as generalizing s with
  | nil => trivial
  | cons a as ih => exact fun s' hs => ⟨(h s' hs).1, ih (h s' hs).2⟩

/-- A schedule all of whose actions meet the condition anywhere. -/
theorem AllSteps.of_mem (h : ∀ a ∈ as, ∀ s, C s a) : AllSteps step C s as := by
  induction as generalizing s with
  | nil => trivial
  | cons a as ih => exact fun _ _ => ⟨h a List.mem_cons_self s, ih fun b hb => h b (List.mem_cons_of_mem a hb)⟩

/-- A schedule that meets the condition meets it from any point on. -/
theorem AllSteps.of_append_right (h : AllSteps step C s (as ++ bs)) (hr : run step s as = some t) :
    AllSteps step C t bs := by
  induction as generalizing s with
  | nil =>
    cases hr
    exact h
  | cons a as ih =>
    obtain ⟨s', hs, hr⟩ := run_cons_some.1 hr
    exact ih (h s' hs).2 hr

theorem AllSteps.append (h : AllSteps step C s as) (hr : run step s as = some t) (h' : AllSteps step C t bs) :
    AllSteps step C s (as ++ bs) := by
  induction as generalizing s with
  | nil =>
    cases hr
    exact h'
  | cons a as ih =>
    intro s' hs
    rw [run_cons, hs] at hr
    exact ⟨(h s' hs).1, ih (h s' hs).2 hr⟩

/-- A schedule that breaks the condition has a first step that does. -/
theorem exists_first_break (h : ¬AllSteps step C s as) : ∃ pre a post s₁ s₂, as = pre ++ a :: post ∧
    AllSteps step C s pre ∧ run step s pre = some s₁ ∧ step s₁ a = some s₂ ∧ ¬C s₁ a := by
  induction as generalizing s with
  | nil => exact (h trivial).elim
  | cons a as ih =>
    obtain ⟨s', h⟩ := Classical.not_forall.1 h
    obtain ⟨hs, h⟩ := Classical.not_imp.1 h
    by_cases hC : C s a
    · obtain ⟨pre, b, post, s₁, s₂, rfl, hpre, hr, hb⟩ := ih fun hs' => h ⟨hC, hs'⟩
      refine ⟨a :: pre, b, post, s₁, s₂, rfl, fun s₃ hs₃ => ?_, run_cons_some.2 ⟨s', hs, hr⟩, hb⟩
      cases hs.symm.trans hs₃
      exact ⟨hC, hpre⟩
    · exact ⟨[], a, as, s, s', rfl, trivial, rfl, hs, hC⟩

theorem AllStates.head (h : AllStates step P s as) : P s := by
  cases as with
  | nil => exact h
  | cons a as => exact h.1

/-- The state a schedule ends in is one of those it goes through. -/
theorem AllStates.last (h : AllStates step P s as) (hr : run step s as = some t) : P t := by
  induction as generalizing s with
  | nil => cases hr; exact h
  | cons a as ih =>
    obtain ⟨s', hs, hr⟩ := run_cons_some.1 hr
    exact ih (h.2 s' hs) hr

/-- The invariant holds all along a run of steps that meet the condition. -/
theorem allStates_of (hstep : ∀ s a s', I s → C s a → step s a = some s' → I s') (hI : I s)
    (hC : AllSteps step C s as) : AllStates step I s as := by
  induction as generalizing s with
  | nil => exact hI
  | cons a as ih => exact ⟨hI, fun s' hs => ih (hstep s a s' hI (hC s' hs).1 hs) (hC s' hs).2⟩

/-- What every step keeps holds all along every run. -/
theorem allStates_inv (hstep : ∀ s a s', I s → step s a = some s' → I s') (hI : I s) (as : List α) :
    AllStates step I s as := by
  induction as generalizing s with
  | nil => exact hI
  | cons a as ih => exact ⟨hI, fun s' hs => ih (hstep s a s' hI hs)⟩

theorem AllStates.and {Q : σ → Prop} (h : AllStates step P s as) (h' : AllStates step Q s as) :
    AllStates step (fun s => P s ∧ Q s) s as := by
  induction as generalizing s with
  | nil => exact ⟨h, h'⟩
  | cons a as ih => exact ⟨⟨h.1, h'.1⟩, fun s' hs => ih (h.2 s' hs) (h'.2 s' hs)⟩

theorem AllStates.mono {Q : σ → Prop} (hPQ : ∀ s, P s → Q s) (h : AllStates step P s as) : AllStates step Q s as := by
  induction as generalizing s with
  | nil => exact hPQ s h
  | cons a as ih => exact ⟨hPQ s h.1, fun s' hs => ih (h.2 s' hs)⟩

/-- If a property of the states forces the condition on each step taken between them, a run whose states have the
property meets the condition throughout. -/
theorem allSteps_of_allStates (h : ∀ s a s', P s → P s' → step s a = some s' → C s a) (hP : AllStates step P s as) :
    AllSteps step C s as := by
  induction as generalizing s with
  | nil => trivial
  | cons a as ih => exact fun s' hs => ⟨h s a s' hP.1 (hP.2 s' hs).head hs, ih (hP.2 s' hs)⟩

/-- What the steps of a run have to meet for its states to have a property: the condition keeps an invariant that gives
the property, and the property, once a step is taken, forces the condition on it. -/
theorem allStates_iff (hI : ∀ s a s', I s → C s a → step s a = some s' → I s') (hP : ∀ s, I s → P s)
    (hC : ∀ s a s', I s → step s a = some s' → P s' → C s a) (hs : I s) :
    AllStates step P s as ↔ AllSteps step C s as := by
  constructor
  · intro h
    induction as generalizing s with
    | nil => trivial
    | cons a as ih =>
      intro s' hst
      have hP' := h.2 s' hst
      have hCs := hC s a s' hs hst hP'.head
      exact ⟨hCs, ih (hI s a s' hs hCs hst) hP'⟩
  · intro h
    exact (allStates_of hI hs h).mono hP

/-- The first step of a schedule, where it is known. -/
theorem allSteps_cons (h : step s a = some t) : AllSteps step C s (a :: as) ↔ C s a ∧ AllSteps step C t as := by
  constructor
  · intro hC
    exact hC t h
  · intro hC s' hs
    cases h.symm.trans hs
    exact hC

/-- Two conditions that agree on every step from a state with `I`, which the steps that meet the first one keep, agree
on every run; `E` is what is assumed of the steps anyway. -/
theorem allSteps_iff {E : σ → α → Prop} (hI : ∀ s a s', I s → E s a → C s a → step s a = some s' → I s')
    (hCD : ∀ s a s', I s → E s a → step s a = some s' → (C s a ↔ D s a)) (hs : I s) (hE : AllSteps step E s as) :
    AllSteps step C s as ↔ AllSteps step D s as := by
  induction as generalizing s with
  | nil => exact Iff.rfl
  | cons a as ih =>
    constructor
    · intro h s' hst
      have hC := (h s' hst).1
      have hE' := hE s' hst
      exact ⟨(hCD s a s' hs hE'.1 hst).1 hC, (ih (hI s a s' hs hE'.1 hC hst) hE'.2).1 (h s' hst).2⟩
    · intro h s' hst
      have hE' := hE s' hst
      have hC := (hCD s a s' hs hE'.1 hst).2 (h s' hst).1
      exact ⟨hC, (ih (hI s a s' hs hE'.1 hC hst) hE'.2).2 (h s' hst).2⟩

/-! ## Conditions that decide -/

/-- Along the schedule `C` decides `P`: if all steps meet `C`, all states have `P`; if not, the first step that breaks
`C` can be followed, by steps that meet `E`, to a state without `P`. -/
def Decides (step : σ → α → Option σ) (E C : σ → α → Prop) (P : σ → Prop) (s : σ) (as : List α) : Prop :=
  (AllSteps step C s as → AllStates step P s as) ∧
    (¬AllSteps step C s as → ∃ pre a post s₁ bs t, as = pre ++ a :: post ∧
      (AllSteps step C s pre ∧ run step s pre = some s₁ ∧ ¬C s₁ a) ∧
      AllSteps step E s (pre ++ a :: bs) ∧ run step s (pre ++ a :: bs) = some t ∧ ¬P t)

/-- A condition whose steps keep an invariant that gives the property, and whose breaking leads out of it. -/
theorem decides_of {E : σ → α → Prop} (hI : ∀ s a s', I s → E s a → C s a → step s a = some s' → I s')
    (hP : ∀ s, I s → P s)
    (hbreak : ∀ s a s', I s → E s a → ¬C s a → step s a = some s' →
      ∃ bs t, AllSteps step E s' bs ∧ run step s' bs = some t ∧ ¬P t)
    (hs : I s) (hE : AllSteps step E s as) : Decides step E C P s as := by
  have hkeep : ∀ {bs}, AllSteps step E s bs → AllSteps step C s bs → AllStates step I s bs := by
    intro bs hEb hCb
    refine allStates_of (C := fun s a => E s a ∧ C s a) ?_ hs (hEb.and hCb)
    intro s a s' hIs hEC hst
    exact hI s a s' hIs hEC.1 hEC.2 hst
  refine ⟨fun hC => (hkeep hE hC).mono hP, fun hC => ?_⟩
  obtain ⟨pre, a, post, s₁, s₂, rfl, hpre, hrun, hst, hb⟩ := exists_first_break hC
  have hIs : I s₁ := (hkeep hE.of_append hpre).last hrun
  have hEa : E s₁ a := (hE.of_append_right hrun s₂ hst).1
  obtain ⟨bs, t, hEbs, hbs, hPt⟩ := hbreak s₁ a s₂ hIs hEa hb hst
  refine ⟨pre, a, post, s₁, bs, t, rfl, ⟨hpre, hrun, hb⟩, ?_, ?_, hPt⟩
  · exact hE.of_append.append hrun ((allSteps_cons hst).2 ⟨hEa, hEbs⟩)
  · rw [run_append, hrun]
    exact run_cons_some.2 ⟨s₂, hst, hbs⟩

/-- The same, where nothing is assumed of the steps. -/
theorem decides_of_inv (hI : ∀ s a s', I s → C s a → step s a = some s' → I s') (hP : ∀ s, I s → P s)
    (hbreak : ∀ s a s', I s → ¬C s a → step s a = some s' → ∃ bs t, run step s' bs = some t ∧ ¬P t)
    (hs : I s) (as : List α) : Decides step (fun _ _ => True) C P s as := by
  have hE : ∀ s as, AllSteps step (fun _ _ => True) s as := AllSteps.of_forall fun _ _ => trivial
  refine decides_of (fun s a s' hi _ => hI s a s' hi) hP ?_ hs (hE s as)
  intro s a s' hi _ hC hst
  obtain ⟨bs, t, hbs, ht⟩ := hbreak s a s' hi hC hst
  exact ⟨bs, t, hE s' bs, hbs, ht⟩

/-! ## History variables -/

/-- What a system that records more has all along a run is what the system does: erasing the record changes nothing. -/
theorem allStates_erase {τ : Type u} {step' : τ → α → Option τ} {f : τ → σ}
    (h : ∀ t a, (step' t a).map f = step (f t) a) {t : τ} :
    AllStates step P (f t) as ↔ AllStates step' (fun t => P (f t)) t as := by
  induction as generalizing t with
  | nil => exact Iff.rfl
  | cons a as ih =>
    constructor
    · rintro ⟨hP, hall⟩
      refine ⟨hP, fun t' ht => ih.1 (hall (f t') ?_)⟩
      rw [← h, ht]
      rfl
    · rintro ⟨hP, hall⟩
      refine ⟨hP, fun s' hs => ?_⟩
      rw [← h, Option.map_eq_some_iff] at hs
      obtain ⟨t', ht, rfl⟩ := hs
      exact ih.2 (hall t' ht)

/-! ## Simulation -/

/-- **The simulation rule**: if `R` relates each step of the system to a step `T` of another one, an invariant of the
other one holds, through `R`, all along the runs of the system. -/
theorem allStates_sim {τ : Type u} {β : Type v} {R : σ → τ → Prop} {T : τ → β → τ → Prop} {lab : α → β} {J : τ → Prop}
    {B : τ → β → Prop} (hsim : ∀ s t a s', R s t → step s a = some s' → ∃ t', T t (lab a) t' ∧ R s' t')
    (hcond : ∀ s t a s', R s t → C s a → step s a = some s' → B t (lab a))
    (hinv : ∀ s t b t', R s t → J t → B t b → T t b t' → J t') {t : τ} (hR : R s t) (hJ : J t)
    (hC : AllSteps step C s as) : AllStates step (fun s => ∃ t, R s t ∧ J t) s as := by
  refine allStates_of (C := C) ?_ ⟨t, hR, hJ⟩ hC
  rintro s a s' ⟨t, hR, hJ⟩ hCs hst
  obtain ⟨t', hT, hR'⟩ := hsim s t a s' hR hst
  exact ⟨t', hR', hinv s t (lab a) t' hR hJ (hcond s t a s' hR hCs hst) hT⟩

end Transition
