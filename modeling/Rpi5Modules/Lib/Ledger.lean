import Mathlib.Data.Multiset.AddSub
import Rpi5Modules.Lib.Transition

/-!
# What a driver holds

`Acct R α` is a program that takes resources and gives them back, one at a time; `run` follows it on the multiset of
what is held, and has no result once something is given back that is not held.

- what a program does to what it has taken it does whatever else is held (`run_add`), so a part of a program is
  accounted for on its own (`run_bind_of`);
- a `Device` is taken up by `attach`, which may fail, and given up by `detach`. Over a sequence of loads and unloads,
  just what the attached device took is held, and nothing while it is not attached, exactly if every `attach` that fails
  and every `detach` gives back what was taken (`clean_iff`).
-/

universe u v w

/-- A program that takes and gives back resources. -/
inductive Acct (R : Type u) (α : Type v) where
  | ret (a : α)
  | take (r : R) (k : Acct R α)
  | drop (r : R) (k : Acct R α)

namespace Acct

variable {R : Type u} {α : Type v} {β : Type w}

def bind : Acct R α → (α → Acct R β) → Acct R β
  | ret a, f => f a
  | take r k, f => take r (k.bind f)
  | drop r k, f => drop r (k.bind f)

instance : Monad (Acct R) where
  pure := ret
  bind := bind

/-- Takes `r`. -/
def acquire (r : R) : Acct R Unit := take r (ret ())

/-- Gives `r` back. -/
def release (r : R) : Acct R Unit := drop r (ret ())

/-- Takes `r` if there is one. -/
def acquireIf (c : Bool) (r : R) : Acct R Unit := if c then acquire r else ret ()

def releaseIf (c : Bool) (r : R) : Acct R Unit := if c then release r else ret ()

variable [DecidableEq R]

/-- The result, and what is held behind the program. -/
def run : Acct R α → Multiset R → Option (α × Multiset R)
  | ret a, s => some (a, s)
  | take r k, s => k.run (r ::ₘ s)
  | drop r k, s => if r ∈ s then k.run (s.erase r) else none

section Rules

variable {γ δ : Type v} {m : Acct R γ} {f : γ → Acct R δ} {a : γ} {s t u : Multiset R} {r : R}

@[simp] theorem run_pure (a : γ) : run (pure a : Acct R γ) s = some (a, s) := rfl

@[simp] theorem run_ret (a : γ) : run (ret a : Acct R γ) s = some (a, s) := rfl

@[simp] theorem run_acquire : run (acquire r) s = some ((), r ::ₘ s) := rfl

@[simp] theorem run_release : run (release r) s = if r ∈ s then some ((), s.erase r) else none := rfl

@[simp] theorem run_bind (m : Acct R γ) (f : γ → Acct R δ) (s : Multiset R) :
    run (m >>= f) s = (run m s).bind fun x => run (f x.1) x.2 := by
  show run (m.bind f) s = _
  induction m generalizing s with
  | ret a => rfl
  | take r k ih => exact ih (r ::ₘ s)
  | drop r k ih =>
    simp only [bind, run]
    split
    · exact ih _
    · rfl

/-- **Frame**: what else is held stays held. -/
theorem run_add (m : Acct R γ) (h : run m s = some (a, t)) (u : Multiset R) : run m (s + u) = some (a, t + u) := by
  induction m generalizing s with
  | ret b =>
    cases h
    rfl
  | take r k ih =>
    show run k (r ::ₘ (s + u)) = _
    rw [← Multiset.cons_add]
    exact ih h
  | drop r k ih =>
    simp only [run] at h ⊢
    split at h
    · next hr =>
      rw [if_pos (Multiset.mem_add.2 (.inl hr)), Multiset.erase_add_left_pos u hr]
      exact ih h
    · cases h

/-- A program that takes `t` when nothing is held, and what follows it. -/
theorem run_bind_of (h : run m 0 = some (a, t)) (f : γ → Acct R δ) (s : Multiset R) :
    run (m >>= f) s = run (f a) (t + s) := by
  have hm := run_add m h s
  rw [Multiset.zero_add] at hm
  rw [run_bind, hm, Option.bind_some]

/-- A program that gives back all of `t`, and what follows it. -/
theorem run_bind_back (h : run m t = some (a, 0)) (f : γ → Acct R δ) (s : Multiset R) :
    run (m >>= f) (t + s) = run (f a) s := by
  have hm := run_add m h s
  rw [Multiset.zero_add] at hm
  rw [run_bind, hm, Option.bind_some]

end Rules

end Acct

/-! ## Devices -/

open Acct Transition

/-- A driver: what `attach` meets decides how far it gets; `none` is an error. -/
structure Device (R : Type u) where
  Env : Type
  Softc : Type
  attach : Env → Acct R (Option Softc)
  detach : Softc → Acct R Unit

namespace Device

variable {R : Type u} [DecidableEq R] (d : Device R)

/-- The attached device, and what is held; `none` once something was given back that was not. -/
structure Loaded where
  up : Option (d.Env × d.Softc)
  held : Option (Multiset R)

inductive Act where
  | load (e : d.Env)
  | unload

variable {d}

/-- What `attach` takes. -/
def taken (e : d.Env) : Multiset R :=
  match run (d.attach e) 0 with
  | none => 0
  | some (_, t) => t

variable (d)

/-- `attach` gives nothing back that it does not hold, and if it fails it holds nothing. -/
def AttachTidy (e : d.Env) : Prop :=
  match run (d.attach e) 0 with
  | none => False
  | some (none, t) => t = 0
  | some (some _, _) => True

/-- `detach` gives back what `attach` took. -/
def DetachTidy (e : d.Env) : Prop := ∀ sc t, run (d.attach e) 0 = some (some sc, t) → run (d.detach sc) t = some ((), 0)

variable {d}

namespace Loaded

def init : d.Loaded := ⟨none, some 0⟩

def load (s : d.Loaded) (e : d.Env) : d.Loaded :=
  match s.held.bind (run (d.attach e)) with
  | none => ⟨none, none⟩
  | some (none, h) => ⟨none, some h⟩
  | some (some sc, h) => ⟨some (e, sc), some h⟩

def step (s : d.Loaded) : d.Act → Option d.Loaded
  | .load e => if s.up.isNone then some (s.load e) else none
  | .unload => s.up.map fun x => ⟨none, (s.held.bind (run (d.detach x.2))).map Prod.snd⟩

/-- Held is what the attached device took. -/
def Clean (s : d.Loaded) : Prop :=
  s.held = some (match s.up with
    | none => 0
    | some (e, _) => taken e)

def StepTidy (s : d.Loaded) : d.Act → Prop
  | .load e => d.AttachTidy e
  | .unload => ∀ x ∈ s.up, d.DetachTidy x.1

/-- The device is one that `attach` made. -/
def Genuine (s : d.Loaded) : Prop := ∀ x ∈ s.up, run (d.attach x.1) 0 = some (some x.2, taken x.1)

end Loaded

section Runs

open Loaded

variable {s s' : d.Loaded} {a : d.Act} {e : d.Env}

theorem taken_of {x : Option d.Softc} {t : Multiset R} (h : run (d.attach e) 0 = some (x, t)) : taken e = t := by
  unfold taken
  rw [h]

/-- Loading with nothing held. -/
theorem load_clean (hup : s.up = none) (hc : s.Clean) :
    (s.load e).Genuine ∧ ((s.load e).Clean ↔ d.AttachTidy e) := by
  unfold Clean at hc
  rw [hup] at hc
  unfold load AttachTidy
  rw [hc, Option.bind_some]
  cases hr : run (d.attach e) 0 with
  | none => exact ⟨fun x hx => (Option.not_mem_none x hx).elim, iff_of_false (fun h => nomatch h) not_false⟩
  | some r =>
    obtain ⟨o, t⟩ := r
    cases o with
    | none =>
      refine ⟨fun x hx => (Option.not_mem_none x hx).elim, ?_⟩
      exact ⟨fun h => Option.some.inj h, fun h => congrArg some h⟩
    | some sc =>
      refine ⟨fun x hx => ?_, iff_of_true (congrArg some (taken_of hr).symm) trivial⟩
      obtain rfl := Option.mem_some.1 hx
      rw [hr, taken_of hr]

/-- Unloading the device that is attached. -/
theorem unload_clean {x : d.Env × d.Softc} (hup : s.up = some x) (hc : s.Clean) (hg : s.Genuine) :
    Loaded.Clean (d := d) ⟨none, (s.held.bind (run (d.detach x.2))).map Prod.snd⟩ ↔ d.DetachTidy x.1 := by
  have hx := hg x hup
  unfold Clean at hc ⊢
  rw [hup] at hc
  rw [hc, Option.bind_some]
  constructor
  · intro h sc t hr
    rw [hx] at hr
    obtain ⟨hsc, ht⟩ := Prod.mk.inj (Option.some.inj hr)
    obtain ⟨⟨⟨⟩, t'⟩, hrun, rfl⟩ := Option.map_eq_some_iff.1 h
    rw [← Option.some.inj hsc, ← ht]
    exact hrun
  · intro h
    rw [show run (d.detach x.2) (taken x.1) = some ((), 0) from h _ _ hx]
    rfl

theorem genuine_step (hc : s.Clean) (hs : s.step a = some s') : s'.Genuine := by
  cases a with
  | load e =>
    simp only [step] at hs
    split at hs
    · next hup =>
      cases hs
      exact (load_clean (Option.isNone_iff_eq_none.1 hup) hc).1
    · cases hs
  | unload =>
    simp only [step] at hs
    obtain ⟨x, -, rfl⟩ := Option.map_eq_some_iff.1 hs
    exact fun x hx => (Option.not_mem_none x hx).elim

/-- One step keeps the ledger clean exactly if it is tidy. -/
theorem clean_step (hg : s.Genuine) (hc : s.Clean) (hs : s.step a = some s') : s'.Clean ↔ s.StepTidy a := by
  cases a with
  | load e =>
    simp only [step] at hs
    split at hs
    · next hup =>
      cases hs
      exact (load_clean (Option.isNone_iff_eq_none.1 hup) hc).2
    · cases hs
  | unload =>
    simp only [step] at hs
    obtain ⟨x, hup, rfl⟩ := Option.map_eq_some_iff.1 hs
    rw [unload_clean hup hc hg]
    unfold StepTidy
    rw [hup]
    simp

/-- **A sequence of loads and unloads keeps the ledger clean exactly if every step of it is tidy**, in whatever terms
`C` puts that for a device that `attach` made. -/
theorem clean_iff {C : d.Loaded → d.Act → Prop} (hC : ∀ s a, s.Genuine → (s.StepTidy a ↔ C s a)) (as : List d.Act) :
    AllStates Loaded.step Loaded.Clean (Loaded.init (d := d)) as ↔ AllSteps Loaded.step C Loaded.init as := by
  refine allStates_iff (I := fun s => s.Genuine ∧ s.Clean) ?_ (fun s hi => hi.2) ?_
    ⟨fun x hx => (Option.not_mem_none x hx).elim, rfl⟩
  · intro s a s' hi ht hs
    exact ⟨genuine_step hi.2 hs, (clean_step hi.1 hi.2 hs).2 ((hC s a hi.1).2 ht)⟩
  · intro s a s' hi hs hc
    exact (hC s a hi.1).1 ((clean_step hi.1 hi.2 hs).1 hc)

end Runs

end Device
