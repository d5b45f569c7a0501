import Mathlib.Data.List.Destutter
import Rpi5Modules.Eth.PhyConfig
import Rpi5Modules.Eth.Port

/-!
# The link as the tick sees it

Once a second `rp1eth_tick` reads BMSR twice and compares its link bit with `link_up`; on a difference it sets `link_up`
and tells the network stack. Between the ticks the link comes and goes, and the interface is brought up and down.

Along every run, what the stack is told are the changes of what the ticks found, in order (`link_watch`).
-/

namespace Eth

open Flags Transition

/-- The interface, the PHY behind its bus, what each tick found of the link (`samples`), and what was told to the stack
by `if_link_state_change` (`notes`). -/
structure Watch where
  port : Port
  mdio : MdioPort Bcm54213
  samples : List Bool
  notes : List Bool

inductive WatchAct where
  | phy (e : PhyEvent)
  | tick
  /-- A step of the interface that is not the tick. -/
  | act (a : PortAct)

/-- The idle bit goes down at once, and a frame takes 1 ms at most. -/
structure Gem.Quick (g : Gem) : Prop where
  lag : ∀ k, g.env.lag k ≤ g.env.access
  len : ∀ k, g.env.len k ≤ 1000000

namespace Watch

variable (g : Gem) (phy : BitVec 32)

/-- The two readings of BMSR in `rp1eth_tick`; `none` is a reading that failed. -/
def tickRead : MdioM Bcm54213 (Option (BitVec 16)) := do
  let _ ← rp1ethMdioRead bcm54213 (phy.setWidth 5) g phy miiBmsr
  let bmsr ← rp1ethMdioRead bcm54213 (phy.setWidth 5) g phy miiBmsr
  pure (if bmsr < 0 then none else some (BitVec.ofInt 16 bmsr))

/-- `rp1eth_tick` with its readings and its call of `if_link_state_change`. -/
def rp1ethTick (w : Watch) : Option Watch :=
  if w.port.serv.running then
    (tickRead g phy w.mdio).bind fun r =>
      (w.port.step (.tick r.1)).map fun port =>
        { port := port
          mdio := r.2
          samples := w.samples ++ [w.mdio.dev.link]
          notes := if port.linkUp ≠ w.port.linkUp then w.notes ++ [port.linkUp] else w.notes }
  else (w.port.step (.tick none)).map fun port => { w with port := port }

def step (w : Watch) : WatchAct → Option Watch
  | .phy e => some { w with mdio := { w.mdio with dev := w.mdio.dev.on e } }
  | .tick => w.rp1ethTick g phy
  | .act (.tick _) => none
  | .act a => (w.port.step a).map fun port => { w with port := port }

/-- After `rp1eth_attach`. -/
def attached (rxbufs : Int) (m : Mac) (cfgKva : Bool) (mdio : MdioPort Bcm54213) : Watch :=
  ⟨Port.attached rxbufs m cfgKva, mdio, [], []⟩

/-! ## The readings -/

section Readings

variable {g : Gem} {phy : BitVec 32}

theorem means_tickRead (hg : g.Quick) (hphy : phy.toNat < 32) :
    Means (tickRead g phy) fun s => (some s.sampled.readBmsr.1, s.sampled) := by
  have hread : Means (rp1ethMdioRead bcm54213 (phy.setWidth 5) g phy miiBmsr) fun s =>
      ((s.readBmsr.1.toNat : Int), s.readBmsr.2) := by
    intro p hp
    have hd := g.delay_le 5
    have hmul : 200 * 5000 ≤ 200 * (g.env.access + g.delay 5) := Nat.mul_le_mul_left 200 (by omega)
    have hlen := hg.len p.issued
    rw [rp1ethMdioRead_eq hp hphy (by decide) (hg.lag _) (by omega)]
    refine ⟨_, congrArg some (Prod.ext ?_ rfl), ?_, hp⟩
    · simp [Mdio.perform, bcm54213, Bcm54213.read, miiBmsr]
    · rw [BusyPort.Port.executed_dev, readFrame_eq, Mdio.exec_encode]
      simp [Mdio.perform, bcm54213, Bcm54213.read, miiBmsr]
  refine (hread.bind fun _ => hread.bind fun bmsr =>
    means_pure (if bmsr < 0 then none else some (BitVec.ofInt 16 bmsr))).congr fun s => ?_
  have hsome : ∀ v : BitVec 16, (if (v.toNat : Int) < 0 then none else some (BitVec.ofInt 16 v.toNat)) = some v := by
    intro v
    simp
  exact Prod.ext (hsome _) rfl

/-- What the tick makes of it is the link there is. -/
theorem tick_linkUp {p p' : Port} {s : Bcm54213} (hr : p.serv.running = true)
    (h : p.step (.tick (some s.sampled.readBmsr.1)) = some p') : p'.linkUp = s.link := by
  obtain ⟨sv, -, rfl⟩ := Option.map_eq_some_iff.1 h
  have hlink : (decide (∃ b ∈ some s.sampled.readBmsr.1, HasFlag b bmsrLinkBit)) = s.link := by
    simp [Bcm54213.hasFlag_readBmsr, Bcm54213.sampled]
  unfold Port.tick
  simp only [hr, hlink]
  split
  · simp_all
  · split <;> simp_all

end Readings

/-! ## Runs -/

section Runs

variable {g : Gem} {phy : BitVec 32} {w w' : Watch}

theorem destutter'_concat (b x : Bool) (l : List Bool) :
    (l ++ [x]).destutter' (· ≠ ·) b =
      if x = (b :: l).getLast (List.cons_ne_nil b l) then l.destutter' (· ≠ ·) b
      else l.destutter' (· ≠ ·) b ++ [x] := by
  induction l generalizing b with
  | nil =>
    cases b <;> cases x <;> rfl
  | cons a l ih =>
    by_cases hab : b = a
    · subst hab
      simpa [List.destutter'_cons] using ih b
    · simp only [List.cons_append, List.destutter'_cons, if_pos hab, ih a, List.getLast_cons_cons]
      split <;> rfl

theorem cons_tail_destutter' (b : Bool) (l : List Bool) :
    b :: (l.destutter' (· ≠ ·) b).tail = l.destutter' (· ≠ ·) b := by
  induction l with
  | nil => rfl
  | cons a l ih =>
    rw [List.destutter'_cons]
    split
    · rfl
    · exact ih

/-- The bus is idle, `link_up` is what the last tick found, and the stack was told the changes. -/
structure Told (w : Watch) : Prop where
  idle : w.mdio.job = none
  linkUp : w.port.linkUp = (false :: w.samples).getLast (List.cons_ne_nil _ _)
  notes : w.notes = (w.samples.destutter' (· ≠ ·) false).tail

theorem told_attached (rxbufs : Int) (m : Mac) (cfgKva : Bool) {mdio : MdioPort Bcm54213} (h : mdio.job = none) :
    (attached rxbufs m cfgKva mdio).Told := ⟨h, rfl, rfl⟩

/-- Only the tick sets `link_up`. -/
theorem linkUp_step {p p' : Port} {a : PortAct} (hs : Port.Step p a p') (ha : ∀ b, a ≠ .tick b) :
    p'.linkUp = p.linkUp := by
  cases hs with
  | tick hl => exact absurd rfl (ha _)
  | ifcap h => rw [Port.sioCSIFCap_eq]
  | _ => rfl

theorem step_act {a : PortAct} (h : w.step g phy (.act a) = some w') :
    ∃ port, w.port.step a = some port ∧ w' = { w with port := port } ∧ ∀ b, a ≠ .tick b := by
  cases a with
  | tick b => cases h
  | _ =>
    obtain ⟨port, hport, rfl⟩ := Option.map_eq_some_iff.1 h
    exact ⟨port, hport, rfl, nofun⟩

/-- What a tick of a running interface does: it finds the link there is. -/
theorem step_tick (hg : g.Quick) (hphy : phy.toNat < 32) (hidle : w.mdio.job = none)
    (hr : w.port.serv.running = true) (h : w.step g phy .tick = some w') :
    w'.mdio.job = none ∧ w'.mdio.dev = w.mdio.dev.sampled ∧ w'.port.linkUp = w.mdio.dev.link ∧
      w'.samples = w.samples ++ [w.mdio.dev.link] ∧
      w'.notes = if w'.port.linkUp ≠ w.port.linkUp then w.notes ++ [w'.port.linkUp] else w.notes := by
  obtain ⟨q, hq, hdev, hjob⟩ := means_tickRead hg hphy w.mdio hidle
  simp only [step, rp1ethTick] at h
  rw [if_pos hr, hq, Option.bind_some] at h
  obtain ⟨port, hport, rfl⟩ := Option.map_eq_some_iff.1 h
  exact ⟨hjob, hdev, tick_linkUp hr hport, rfl, rfl⟩

theorem told_step (hg : g.Quick) (hphy : phy.toNat < 32) {a : WatchAct} (h : w.Told)
    (hst : w.step g phy a = some w') : w'.Told := by
  cases a with
  | phy e =>
    cases hst
    exact ⟨h.idle, h.linkUp, h.notes⟩
  | act a =>
    obtain ⟨port, hport, rfl, ha⟩ := step_act hst
    exact ⟨h.idle, (linkUp_step (Port.step_cases hport) ha).trans h.linkUp, h.notes⟩
  | tick =>
    by_cases hr : w.port.serv.running = true
    · obtain ⟨hjob, -, hlink, hsamples, hnotes⟩ := step_tick hg hphy h.idle hr hst
      refine ⟨hjob, ?_, ?_⟩
      · simp [hsamples, hlink]
      · rw [hnotes, hsamples, destutter'_concat, hlink, h.linkUp, h.notes]
        by_cases hsame : w.mdio.dev.link = (false :: w.samples).getLast (List.cons_ne_nil _ _)
        · rw [if_neg (not_not.2 hsame), if_pos hsame]
        · rw [if_pos hsame, if_neg hsame, List.tail_append_of_ne_nil (List.destutter'_ne_nil _ _)]
    · simp only [step, rp1ethTick] at hst
      rw [if_neg hr] at hst
      obtain ⟨port, hport, rfl⟩ := Option.map_eq_some_iff.1 hst
      have hport' : port.linkUp = w.port.linkUp := by
        obtain ⟨sv, -, rfl⟩ := Option.map_eq_some_iff.1 hport
        simp [Port.tick, hr]
      exact ⟨h.idle, hport'.trans h.linkUp, h.notes⟩

/-- **What the network stack is told of the link.** Along every run, however the PHY and the other users of the
interface interleave with the ticks, the bus is idle when a tick reads, `link_up` is the link that the last tick of a
running interface found, and the stack is told the changes of what the ticks found, each once and in order, so up and
down in turn. -/
theorem link_watch (hg : g.Quick) (hphy : phy.toNat < 32) (rxbufs : Int) (m : Mac) (cfgKva : Bool)
    {mdio : MdioPort Bcm54213} (hm : mdio.job = none) (as : List WatchAct) :
    AllStates (step g phy)
      (fun w => (tickRead g phy w.mdio).isSome = true ∧
        w.port.linkUp = (false :: w.samples).getLast (List.cons_ne_nil _ _) ∧
        w.notes = (w.samples.destutter' (· ≠ ·) false).tail ∧ (false :: w.notes).IsChain (· ≠ ·))
      (attached rxbufs m cfgKva mdio) as := by
  refine AllStates.mono ?_ (allStates_inv (I := Told) (fun w a w' => told_step hg hphy) (told_attached _ _ _ hm) as)
  intro w h
  obtain ⟨q, hq, -, -⟩ := means_tickRead hg hphy w.mdio h.idle
  refine ⟨by rw [hq]; rfl, h.linkUp, h.notes, ?_⟩
  rw [h.notes, cons_tail_destutter']
  exact List.isChain_destutter' _ _ _

/-- A MAC whose idle bit goes down at once. -/
def quickGem : Gem := { slowGem with env := ⟨0, fun _ => 0, fun _ => 30000, fun _ _ => 0xffff⟩ }

theorem quickGem_quick : quickGem.Quick := ⟨fun _ => le_rfl, fun _ => Nat.le_of_ble_eq_true rfl⟩

/-- A link that goes down and comes up again between two ticks. -/
theorem link_watch_quick :
    AllStates (step quickGem 1)
      (fun w => (tickRead quickGem 1 w.mdio).isSome = true ∧
        w.port.linkUp = (false :: w.samples).getLast (List.cons_ne_nil _ _) ∧
        w.notes = (w.samples.destutter' (· ≠ ·) false).tail ∧ (false :: w.notes).IsChain (· ≠ ·))
      (attached 512 Mac.zero true ⟨freshPhy, 0, none, 0⟩)
      [.act (.init []), .tick, .phy (.up 0x0800 0), .tick, .phy .down, .phy (.up 0x0800 0), .tick] :=
  link_watch quickGem_quick (by decide) 512 Mac.zero true rfl _

end Runs

end Watch

end Eth
