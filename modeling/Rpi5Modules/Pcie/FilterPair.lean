import Rpi5Modules.Lib.Transition

/-!
# The interrupt filter of `rp1_eth` and its argument

`bcm2712_pcie` keeps the filter and its argument in two words. One thread stores them, `bcm2712_pcie_filter` loads them
on another CPU, each store and each load a step of its own; a release store and an acquire load are in order.

The order of the stores keeps the pair together while a filter is registered for the first time, and while one is
taken away. It does not when a new argument is stored while a filter of another registration can still be called with
it: the one in `g_rp1_filter`, or the one an invocation has loaded already (`pcie_filter_unpaired`). These stores are
the only ones that tear the pair (`pcie_filter_decides`).
-/

namespace Pcie

open Transition

def cgemIntAny : UInt32 := 0x0000_0c8e

/-! ## State -/

/-- Where the thread that registers and deregisters is: before the store it names. `φ` are the filters, `α` the
arguments; NULL is `none`. -/
inductive CallerPc (φ α : Type) where
  | idle
  /-- `bcm2712_pcie_register_rp1_intr(filter, arg)`, before the store of the argument. -/
  | regArg (filter : Option φ) (arg : Option α)
  | regFilter (filter : Option φ)
  /-- `bcm2712_pcie_deregister_rp1_intr()`, before the store of the filter. -/
  | deregFilter
  | deregArg

/-- Where `bcm2712_pcie_filter` is: before the load it names. -/
inductive FilterPc (φ : Type) where
  | idle
  | loadFilter
  | loadArg (filter : φ)

/-- The two words, and the history: the pairs passed to register, and the calls `filter(filter_arg)`. -/
structure PcieIntr (φ α : Type) where
  gRp1Filter : Option φ
  gRp1Arg : Option α
  caller : CallerPc φ α
  filter : FilterPc φ
  registered : List (Option φ × Option α)
  called : List (φ × Option α)

/-- Nothing is registered. -/
def pcieInit (φ α : Type) : PcieIntr φ α := ⟨none, none, .idle, .idle, [], []⟩

/-! ## Steps -/

inductive PcieAct (φ α : Type) where
  | register (filter : Option φ) (arg : Option α)
  | deregister
  /-- The next store of the thread. -/
  | store
  /-- An interrupt, with the value of INT_STATUS. -/
  | intr (istat : UInt32)
  | loadFilter
  | loadArg

section

variable {φ α : Type}

def storeStep (s : PcieIntr φ α) : Option (PcieIntr φ α) :=
  match s.caller with
  | .regArg f a => some { s with gRp1Arg := a, caller := .regFilter f }
  | .regFilter f => some { s with gRp1Filter := f, caller := .idle }
  | .deregFilter => some { s with gRp1Filter := none, caller := .deregArg }
  | .deregArg => some { s with gRp1Arg := none, caller := .idle }
  | .idle => none

def pcieStep (s : PcieIntr φ α) : PcieAct φ α → Option (PcieIntr φ α)
  | .register f a =>
    match s.caller with
    | .idle => some { s with caller := .regArg f a, registered := (f, a) :: s.registered }
    | _ => none
  | .deregister =>
    match s.caller with
    | .idle => some { s with caller := .deregFilter }
    | _ => none
  | .store => storeStep s
  | .intr istat =>
    match s.filter with
    | .idle => some (if istat &&& cgemIntAny = 0 then s else { s with filter := .loadFilter })
    | _ => none
  | .loadFilter =>
    match s.filter with
    | .loadFilter => some { s with filter := (s.gRp1Filter.map FilterPc.loadArg).getD .idle }
    | _ => none
  | .loadArg =>
    match s.filter with
    | .loadArg f => some { s with filter := .idle, called := (f, s.gRp1Arg) :: s.called }
    | _ => none

/-! ## The pair -/

/-- Filter and argument were passed together. -/
def Together (s : PcieIntr φ α) (f : φ) (a : Option α) : Prop := (some f, a) ∈ s.registered

/-- Every call so far was made with a pair passed together. -/
def Paired (s : PcieIntr φ α) : Prop := ∀ c ∈ s.called, Together s c.1 c.2

/-- A filter that can still be called with what `g_rp1_arg` is to hold: the one in `g_rp1_filter`, or the one that an
invocation has loaded. -/
def Callable (s : PcieIntr φ α) (f : φ) : Prop := s.gRp1Filter = some f ∨ s.filter = .loadArg f

/-- The value that the thread's next store puts into `g_rp1_arg`, if it stores there. -/
def CallerPc.argStore : CallerPc φ α → Option (Option α)
  | regArg _ a => some a
  | deregArg => some none
  | _ => none

/-- A store to `g_rp1_arg` is made only when every filter that can still be called was passed together with it. -/
def StoreOk (s : PcieIntr φ α) : PcieAct φ α → Prop
  | .store => ∀ a, s.caller.argStore = some a → ∀ f, Callable s f → Together s f a
  | _ => True

/-- The filter the thread is about to store. -/
def CallerPc.filterStore : CallerPc φ α → Option (Option φ)
  | regFilter f => some f
  | _ => none

/-- **The invariant**: whatever can be called, now or after the thread's next store, belongs to `g_rp1_arg`. -/
structure PairInv (s : PcieIntr φ α) : Prop where
  paired : Paired s
  callable : ∀ f, Callable s f → Together s f s.gRp1Arg
  stored : ∀ f, s.caller.filterStore = some (some f) → Together s f s.gRp1Arg
  passed : ∀ f a, s.caller = .regArg (some f) a → Together s f a

variable {s s' : PcieIntr φ α}

theorem pairInv_init : PairInv (pcieInit φ α) := by
  refine ⟨?_, ?_, ?_, ?_⟩
  · intro c hc
    cases hc
  · rintro f (hf | hf) <;> cases hf
  · intro f hf
    cases hf
  · intro f a hf
    cases hf

theorem pairInv_store (hi : PairInv s) (hok : StoreOk s .store) (hs : storeStep s = some s') : PairInv s' := by
  unfold storeStep at hs
  cases hc : s.caller with
  | idle =>
    rw [hc] at hs
    cases hs
  | regArg f a =>
    rw [hc] at hs
    cases hs
    refine ⟨hi.paired, hok a (by rw [hc]; rfl), ?_, ?_⟩
    · intro g hg
      cases hg
      exact hi.passed g a hc
    · intro g b hg
      cases hg
  | regFilter f =>
    rw [hc] at hs
    cases hs
    refine ⟨hi.paired, ?_, ?_, ?_⟩
    · rintro g (hg | hg)
      · exact hi.stored g (by rw [hc]; exact congrArg some hg)
      · exact hi.callable g (.inr hg)
    · intro g hg
      cases hg
    · intro g b hg
      cases hg
  | deregFilter =>
    rw [hc] at hs
    cases hs
    refine ⟨hi.paired, ?_, ?_, ?_⟩
    · rintro g (hg | hg)
      · cases hg
      · exact hi.callable g (.inr hg)
    · intro g hg
      cases hg
    · intro g b hg
      cases hg
  | deregArg =>
    rw [hc] at hs
    cases hs
    refine ⟨hi.paired, hok none (by rw [hc]; rfl), ?_, ?_⟩
    · intro g hg
      cases hg
    · intro g b hg
      cases hg

theorem pairInv_register (hi : PairInv s) (f : Option φ) (a : Option α) :
    PairInv { s with caller := .regArg f a, registered := (f, a) :: s.registered } := by
  refine ⟨?_, ?_, ?_, ?_⟩
  · intro c hc
    exact List.mem_cons_of_mem _ (hi.paired c hc)
  · intro g hg
    exact List.mem_cons_of_mem _ (hi.callable g hg)
  · intro g hg
    cases hg
  · intro g b hg
    cases hg
    exact List.mem_cons_self

theorem pairInv_step {a : PcieAct φ α} (hi : PairInv s) (hok : StoreOk s a) (hs : pcieStep s a = some s') :
    PairInv s' := by
  cases a with
  | register f a =>
    simp only [pcieStep] at hs
    split at hs
    · cases hs
      exact pairInv_register hi f a
    · cases hs
  | deregister =>
    simp only [pcieStep] at hs
    split at hs
    · cases hs
      exact ⟨hi.paired, hi.callable, nofun, nofun⟩
    · cases hs
  | store => exact pairInv_store hi hok hs
  | intr istat =>
    simp only [pcieStep] at hs
    split at hs
    · cases hs
      split
      · exact hi
      · refine ⟨hi.paired, ?_, hi.stored, hi.passed⟩
        rintro g (hg | hg)
        · exact hi.callable g (.inl hg)
        · cases hg
    · cases hs
  | loadFilter =>
    simp only [pcieStep] at hs
    split at hs
    · cases hs
      refine ⟨hi.paired, ?_, hi.stored, hi.passed⟩
      rintro g (hg | hg)
      · exact hi.callable g (.inl hg)
      · -- what was loaded is what the word holds
        cases hf : s.gRp1Filter with
        | none => simp [hf] at hg
        | some f =>
          simp only [hf, Option.map_some, Option.getD_some, FilterPc.loadArg.injEq] at hg
          exact hi.callable g (.inl (hg ▸ hf))
    · cases hs
  | loadArg =>
    simp only [pcieStep] at hs
    split at hs
    · next f hf =>
      cases hs
      refine ⟨?_, ?_, hi.stored, hi.passed⟩
      · intro c hc
        rcases List.mem_cons.1 hc with rfl | hc
        · exact hi.callable f (.inr hf)
        · exact hi.paired c hc
      · rintro g (hg | hg)
        · exact hi.callable g (.inl hg)
        · cases hg
    · cases hs

/-! ## A store out of turn -/

/-- The filter in the word gets loaded by an invocation, after the one in progress. -/
theorem loads_registered {f : φ} (hf : s.gRp1Filter = some f) :
    ∃ bs called, run pcieStep s bs = some { s with filter := .loadArg f, called := called } := by
  cases hpc : s.filter with
  | idle => exact ⟨[.intr cgemIntAny, .loadFilter], s.called, by simp [pcieStep, hpc, hf, cgemIntAny]⟩
  | loadFilter => exact ⟨[.loadFilter], s.called, by simp [pcieStep, hpc, hf]⟩
  | loadArg g =>
    refine ⟨[.loadArg, .intr cgemIntAny, .loadFilter], (g, s.gRp1Arg) :: s.called, ?_⟩
    simp [pcieStep, hpc, hf, cgemIntAny]

/-- A loaded filter is called with what `g_rp1_arg` holds. -/
theorem unpaired_of_loaded {f : φ} (hf : s.filter = .loadArg f) (hn : ¬Together s f s.gRp1Arg) :
    ∃ t, run pcieStep s [.loadArg] = some t ∧ ¬Paired t := by
  refine ⟨{ s with filter := .idle, called := (f, s.gRp1Arg) :: s.called }, by simp [pcieStep, hf], ?_⟩
  intro h
  exact hn (h (f, s.gRp1Arg) List.mem_cons_self)

/-- A filter that can be called, with a `g_rp1_arg` it was not passed with, can come to be called with it. -/
theorem unpaired_of_callable {f : φ} (hf : Callable s f) (hn : ¬Together s f s.gRp1Arg) :
    ∃ bs t, run pcieStep s bs = some t ∧ ¬Paired t := by
  rcases hf with hf | hf
  · obtain ⟨bs, called, hbs⟩ := loads_registered hf
    obtain ⟨t, ht, hp⟩ := unpaired_of_loaded (s := { s with filter := .loadArg f, called := called }) rfl hn
    exact ⟨bs ++ [.loadArg], t, by rw [run_append, hbs]; exact ht, hp⟩
  · obtain ⟨t, ht, hp⟩ := unpaired_of_loaded hf hn
    exact ⟨[.loadArg], t, ht, hp⟩

theorem unpaired_of_store (hok : ¬StoreOk s .store) (hs : storeStep s = some s') :
    ∃ bs t, run pcieStep s' bs = some t ∧ ¬Paired t := by
  obtain ⟨a, hok⟩ := Classical.not_forall.1 hok
  obtain ⟨ha, hok⟩ := Classical.not_imp.1 hok
  obtain ⟨f, hok⟩ := Classical.not_forall.1 hok
  obtain ⟨hf, hn⟩ := Classical.not_imp.1 hok
  unfold storeStep at hs
  cases hc : s.caller with
  | regArg g b =>
    rw [hc] at hs ha
    cases hs
    cases ha
    exact unpaired_of_callable hf hn
  | deregArg =>
    rw [hc] at hs ha
    cases hs
    cases ha
    exact unpaired_of_callable hf hn
  | _ =>
    rw [hc] at ha
    cases ha

/-- **Filter and argument stay paired exactly as long as no argument is stored under a filter it was not passed with.**
For any calls of register and deregister, and any invocations: if every store to `g_rp1_arg` is made when the filters
that can still be called were passed together with the value stored, every call `filter(filter_arg)` is made with a
pair passed together; a store made otherwise can be followed by a call that is not. -/
theorem pcie_filter_decides (φ α : Type) (as : List (PcieAct φ α)) :
    Decides pcieStep (fun _ _ => True) StoreOk Paired (pcieInit φ α) as := by
  refine decides_of_inv (I := PairInv) ?_ (fun s hi => hi.paired) ?_ pairInv_init as
  · intro s a s' hi hok hs
    exact pairInv_step hi hok hs
  · intro s a s' _ hok hs
    cases a with
    | store => exact unpaired_of_store hok hs
    | _ => exact (hok trivial).elim

/-- An invocation loads filter 1; meanwhile it is deregistered, and filter 2 is registered with argument 20: filter 1
is called with 20. -/
theorem pcie_filter_unpaired : ∃ s, run pcieStep (pcieInit Nat Nat)
    [.register (some 1) (some 10), .store, .store, .intr cgemIntAny, .loadFilter, .deregister, .store, .store,
      .register (some 2) (some 20), .store, .store, .loadArg] = some s ∧ s.called = [(1, some 20)] ∧ ¬Paired s := by
  refine ⟨_, rfl, rfl, ?_⟩
  intro h
  have hm : (some 1, some 20) ∈ [(some 2, some 20), (some 1, some 10)] := h (1, some 20) List.mem_cons_self
  simp at hm

end

end Pcie
