import Mathlib.Logic.Function.Iterate

/-!
# A command port with an idle bit

A device takes one command at a time. It works on it for a while, in which an idle bit is clear, and then shows a
result; but the bit does not go down at once: for some time after a command is stored it still shows the idle port of
before. The program polls the bit, and every access and every delay of the program takes time, which is time of the
device.

- `Port.advance` lets time pass (`advance_add`: in one piece or in two);
- `Port.wait` is the polling loop: it sees the end of a command whose idle bit is down (`wait_settles`), and gives up
  exactly if the command takes too long (`wait_gives_up`);
- a command that is stored, and polled for after a pause, is executed once if the pause covers the lag of the idle bit
  and the poll is long enough (`transact`); otherwise the poll ends too early (`transact_early`) or gives up
  (`transact_late`).
-/

universe u v w

namespace BusyPort

/-- The times of a port, and what it shows while it works: `lag k` and `len k` are how long after the `k`-th command is
stored the idle bit goes down, and the command is done. -/
structure Env (ρ : Type w) where
  access : Nat
  lag : Nat → Nat
  len : Nat → Nat
  midway : Nat → Nat → ρ

/-- A command at work. -/
structure Job (γ : Type v) where
  cmd : γ
  lag : Nat
  left : Nat

structure Port (σ : Type u) (γ : Type v) (ρ : Type w) where
  dev : σ
  res : ρ
  job : Option (Job γ)
  issued : Nat

namespace Port

variable {σ : Type u} {γ : Type v} {ρ : Type w} (exec : σ → γ → ρ × σ) (e : Env ρ)

/-- `t` units of time pass. -/
def advance (p : Port σ γ ρ) (t : Nat) : Port σ γ ρ :=
  match p.job with
  | none => p
  | some j =>
    if j.left ≤ t then { p with dev := (exec p.dev j.cmd).2, res := (exec p.dev j.cmd).1, job := none }
    else { p with job := some { j with lag := j.lag - t, left := j.left - t } }

/-- The idle bit. -/
def idle (p : Port σ γ ρ) : Bool :=
  match p.job with
  | none => true
  | some j => 0 < j.lag ∨ j.left = 0

/-- The port with a command stored. -/
def stored (p : Port σ γ ρ) (c : γ) : Port σ γ ρ :=
  { p with job := some ⟨c, e.lag p.issued, e.len p.issued⟩, issued := p.issued + 1 }

/-- A command is stored; what that does to a port that is at work is not said. -/
def issue (p : Port σ γ ρ) (c : γ) : Option (Port σ γ ρ) :=
  match p.job with
  | none => some (p.stored e c)
  | some _ => none

/-- The port with a command executed. -/
def executed (p : Port σ γ ρ) (c : γ) : Port σ γ ρ :=
  { p with dev := (exec p.dev c).2, res := (exec p.dev c).1, issued := p.issued + 1 }

/-- What the port shows. -/
def shown (p : Port σ γ ρ) : ρ :=
  match p.job with
  | none => p.res
  | some j => e.midway p.issued j.left

/-- At most `n` tests of the idle bit, with a delay after each one that fails. -/
def wait (delay : Nat) : Nat → Port σ γ ρ → Bool × Port σ γ ρ
  | 0, p => (false, p)
  | n + 1, p => if p.idle then (true, p.advance exec e.access) else wait delay n (p.advance exec (e.access + delay))

/-- The port, once its command is done. -/
def finish (p : Port σ γ ρ) : Port σ γ ρ :=
  match p.job with
  | none => p
  | some j => { p with dev := (exec p.dev j.cmd).2, res := (exec p.dev j.cmd).1, job := none }

variable {exec e} {p : Port σ γ ρ} {j : Job γ} {t : Nat}

@[simp] theorem advance_none (h : p.job = none) (t : Nat) : p.advance exec t = p := by
  unfold advance
  rw [h]

theorem advance_done (h : p.job = some j) (ht : j.left ≤ t) : p.advance exec t = p.finish exec := by
  unfold advance finish
  rw [h]
  exact if_pos ht

theorem advance_working (h : p.job = some j) (ht : ¬j.left ≤ t) :
    p.advance exec t = { p with job := some { j with lag := j.lag - t, left := j.left - t } } := by
  unfold advance
  rw [h]
  exact if_neg ht

@[simp] theorem finish_none (h : p.job = none) : p.finish exec = p := by
  unfold finish
  rw [h]

@[simp] theorem finish_job (p : Port σ γ ρ) : (p.finish exec).job = none := by
  unfold finish
  split
  · assumption
  · rfl

@[simp] theorem finish_issued (p : Port σ γ ρ) : (p.finish exec).issued = p.issued := by
  unfold finish
  split <;> rfl

@[simp] theorem advance_issued (p : Port σ γ ρ) (t : Nat) : (p.advance exec t).issued = p.issued := by
  unfold advance
  split
  · rfl
  · split <;> rfl

theorem idle_none (h : p.job = none) : p.idle = true := by
  unfold idle
  rw [h]

theorem idle_some (h : p.job = some j) : p.idle = decide (0 < j.lag ∨ j.left = 0) := by
  unfold idle
  rw [h]

/-- Time passes in one piece or in two. -/
theorem advance_add (p : Port σ γ ρ) (s t : Nat) : p.advance exec (s + t) = (p.advance exec s).advance exec t := by
  cases h : p.job with
  | none => simp [h]
  | some j =>
    by_cases hs : j.left ≤ s
    · rw [advance_done h hs, advance_done h (Nat.le_add_right_of_le hs), advance_none (finish_job p)]
    · rw [advance_working h hs]
      by_cases ht : j.left ≤ s + t
      · rw [advance_done h ht, advance_done rfl (Nat.sub_le_iff_le_add'.2 ht)]
        unfold finish
        rw [h]
      · rw [advance_working h ht, advance_working rfl (by dsimp only; omega)]
        simp only [Nat.sub_sub]

/-- Nothing is lost by letting a command that will be done anyway work first. -/
theorem finish_advance (p : Port σ γ ρ) (t : Nat) : (p.advance exec t).finish exec = p.finish exec := by
  cases h : p.job with
  | none => simp [h]
  | some j =>
    by_cases ht : j.left ≤ t
    · rw [advance_done h ht, finish_none (finish_job p)]
    · rw [advance_working h ht]
      unfold finish
      rw [h]

theorem wait_idle (h : p.idle = true) (delay n : Nat) :
    p.wait exec e delay (n + 1) = (true, p.advance exec e.access) := if_pos h

theorem wait_busy (h : ¬p.idle = true) (delay n : Nat) :
    p.wait exec e delay (n + 1) = (p.advance exec (e.access + delay)).wait exec e delay n := if_neg h

/-- The idle bit is down, or the command is done. -/
def Clear (p : Port σ γ ρ) : Prop := ∀ j, p.job = some j → j.lag = 0

theorem Clear.advance (h : p.Clear) (t : Nat) : (p.advance exec t).Clear := by
  intro j hj
  cases hp : p.job with
  | none =>
    rw [advance_none hp, hp] at hj
    cases hj
  | some i =>
    by_cases ht : i.left ≤ t
    · rw [advance_done hp ht, finish_job] at hj
      cases hj
    · rw [advance_working hp ht] at hj
      cases hj
      dsimp only
      rw [h i hp, Nat.zero_sub]

/-- After the lag, the bit is down. -/
theorem clear_advance (h : p.job = some j) (ht : j.lag ≤ t) : (p.advance exec t).Clear := by
  intro i hi
  by_cases hl : j.left ≤ t
  · rw [advance_done h hl, finish_job] at hi
    cases hi
  · rw [advance_working h hl] at hi
    cases hi
    exact Nat.sub_eq_zero_of_le ht

/-- A test that finds the command at work. -/
theorem Clear.not_idle (hc : p.Clear) (h : p.job = some j) (hl : 0 < j.left) : ¬p.idle = true := by
  rw [idle_some h, hc j h]
  simp
  omega

/-- **The loop ends behind the command**, if the tests go on for long enough. -/
theorem wait_settles {delay n : Nat} (hc : p.Clear) (h : ∀ j, p.job = some j → j.left ≤ n * (e.access + delay)) :
    p.wait exec e delay (n + 1) = (true, p.finish exec) := by
  induction n generalizing p with
  | zero =>
    cases hj : p.job with
    | none => rw [wait_idle (idle_none hj), advance_none hj, finish_none hj]
    | some j =>
      have hl : j.left = 0 := by simpa using h j hj
      rw [wait_idle (by simp [idle_some hj, hl]), advance_done hj (by simp [hl])]
  | succ n ih =>
    by_cases hi : p.idle = true
    · rw [wait_idle hi]
      cases hj : p.job with
      | none => rw [advance_none hj, finish_none hj]
      | some j =>
        have hl : j.left = 0 := by simpa [idle_some hj, hc j hj] using hi
        rw [advance_done hj (by simp [hl])]
    · rw [wait_busy hi, ih (hc.advance _), finish_advance]
      intro i hi'
      cases hj : p.job with
      | none => exact absurd (idle_none hj) hi
      | some j =>
        have hleft := h j hj
        rw [Nat.succ_mul] at hleft
        by_cases hl : j.left ≤ e.access + delay
        · rw [advance_done hj hl, finish_job] at hi'
          cases hi'
        · rw [advance_working hj hl] at hi'
          cases hi'
          dsimp only
          omega

/-- The loop gives up if the command is still at work at the last test. -/
theorem wait_gives_up {delay n : Nat} (hc : p.Clear) (hj : p.job = some j) (h : n * (e.access + delay) < j.left) :
    p.wait exec e delay (n + 1) = (false, p.advance exec ((n + 1) * (e.access + delay))) := by
  induction n generalizing p j with
  | zero =>
    rw [wait_busy (hc.not_idle hj (by omega))]
    simp [wait]
  | succ n ih =>
    rw [Nat.succ_mul] at h
    have hl : ¬j.left ≤ e.access + delay := by omega
    rw [wait_busy (hc.not_idle hj (by omega)), ih (hc.advance _) (by rw [advance_working hj hl]) (by dsimp only; omega),
      ← advance_add, Nat.succ_mul (n + 1), Nat.add_comm]

@[simp] theorem executed_job (p : Port σ γ ρ) (c : γ) : (p.executed exec c).job = p.job := rfl

@[simp] theorem executed_dev (p : Port σ γ ρ) (c : γ) : (p.executed exec c).dev = (exec p.dev c).2 := rfl

@[simp] theorem executed_issued (p : Port σ γ ρ) (c : γ) : (p.executed exec c).issued = p.issued + 1 := rfl

theorem shown_none (h : p.job = none) : p.shown e = p.res := by
  unfold shown
  rw [h]

theorem issue_none (h : p.job = none) (c : γ) : p.issue e c = some (p.stored e c) := by
  unfold issue
  rw [h]

theorem finish_stored (h : p.job = none) (c : γ) : (p.stored e c).finish exec = p.executed exec c := by
  unfold finish stored executed
  dsimp only
  rw [h]

/-- **A command is executed once**, by a program that stores it, pauses for the lag of the idle bit at least, and polls
for long enough. -/
theorem transact {delay n pause : Nat} (c : γ) (hj : p.job = none) (hlag : e.lag p.issued ≤ pause)
    (hlen : e.len p.issued ≤ pause + n * (e.access + delay)) :
    ((p.stored e c).advance exec pause).wait exec e delay (n + 1) = (true, p.executed exec c) := by
  rw [wait_settles (clear_advance rfl hlag), finish_advance, finish_stored hj]
  intro i hi
  by_cases hl : e.len p.issued ≤ pause
  · rw [advance_done rfl hl, finish_job] at hi
    cases hi
  · rw [advance_working rfl hl] at hi
    cases hi
    dsimp only
    omega

/-- If the idle bit goes down later, the poll ends at once, with the command at work. -/
theorem transact_early {delay n pause : Nat} (c : γ) (hlag : pause < e.lag p.issued) (hlen : pause < e.len p.issued) :
    ((p.stored e c).advance exec pause).wait exec e delay (n + 1) =
      (true, (p.stored e c).advance exec (pause + e.access)) := by
  rw [wait_idle, ← advance_add]
  rw [advance_working rfl (Nat.not_le.2 hlen), idle_some rfl]
  exact decide_eq_true (.inl (Nat.sub_pos_of_lt hlag))

/-- If the command takes longer than the poll, that gives up. -/
theorem transact_late {delay n pause : Nat} (c : γ) (hlag : e.lag p.issued ≤ pause)
    (hlen : pause + n * (e.access + delay) < e.len p.issued) :
    (((p.stored e c).advance exec pause).wait exec e delay (n + 1)).1 = false := by
  have hl : ¬e.len p.issued ≤ pause := by omega
  rw [wait_gives_up (clear_advance rfl hlag) (by rw [advance_working rfl hl])]
  dsimp only [stored]
  omega

end Port

end BusyPort
