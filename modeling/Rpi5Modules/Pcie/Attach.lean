import Rpi5Modules.Lib.Ledger

/-!
# What `bcm2712_pcie` holds

`bcm2712_pcie_attach` maps the configuration space of the PCIe core with `bus_space_map` and goes on without it if that
fails. Its error path does not undo the mapping, and `bcm2712_pcie_detach` undoes it in either case: the indented
statement is not part of the `if`. So the loads that fail behind the mapping leak it, and the unloads of a device
without the mapping unmap what is not mapped; all other loads and unloads leave nothing (`pcie_ledger_iff`).
-/

namespace Pcie

open Acct Transition

inductive PcieRes where
  /-- `mac_res` and `cfg_res`. -/
  | macRes
  | cfgRes
  /-- The window mapped at `pciecfg_bsh`. -/
  | pciecfg
  | irqRes
  | intrCookie
deriving DecidableEq

/-- What the softc says about them. -/
structure PcieSoftc where
  pciecfgMapped : Bool
  cfgRes : Bool
deriving DecidableEq

/-- Whether each of the calls of `attach` succeeds. -/
structure PcieEnv where
  macRes : Bool
  spaceMap : Bool
  cfgRes : Bool
  irqRes : Bool
  setupIntr : Bool

/-- `fail_mem`, which ends with an error. -/
def failMem (cfgRes : Bool) : Acct PcieRes (Option PcieSoftc) := do
  releaseIf cfgRes .cfgRes
  release .macRes
  pure none

/-- `fail_irq`. -/
def failIrq (cfgRes : Bool) : Acct PcieRes (Option PcieSoftc) := do
  release .irqRes
  failMem cfgRes

def attachIrq (e : PcieEnv) (sc : PcieSoftc) : Acct PcieRes (Option PcieSoftc) :=
  if !e.irqRes then failMem sc.cfgRes
  else do
    acquire .irqRes
    if !e.setupIntr then failIrq sc.cfgRes
    else do
      acquire .intrCookie
      pure (some sc)

def bcm2712PcieAttach (e : PcieEnv) : Acct PcieRes (Option PcieSoftc) :=
  if !e.macRes then pure none
  else do
    acquire .macRes
    acquireIf e.spaceMap .pciecfg
    acquireIf e.cfgRes .cfgRes
    attachIrq e ⟨e.spaceMap, e.cfgRes⟩

def bcm2712PcieDetach (sc : PcieSoftc) : Acct PcieRes Unit := do
  release .intrCookie
  release .irqRes
  -- `g_pciecfg_mapped = 0` is all that depends on `pciecfg_mapped`
  release .pciecfg
  releaseIf sc.cfgRes .cfgRes
  release .macRes

def pcieDevice : Device PcieRes := ⟨PcieEnv, PcieSoftc, bcm2712PcieAttach, bcm2712PcieDetach⟩

/-- The load does not fail behind the mapping; the device that is unloaded has it. -/
def LedgerOk (s : pcieDevice.Loaded) : pcieDevice.Act → Prop
  | .load e => e.macRes = true → e.spaceMap = true → e.irqRes = true ∧ e.setupIntr = true
  | .unload => ∀ x ∈ s.up, x.1.spaceMap = true

/-- How `attach` ends, and what it holds then. -/
theorem run_attach (e : PcieEnv) : run (bcm2712PcieAttach e) 0 =
    if !e.macRes then some (none, 0)
    else if e.irqRes && e.setupIntr then
      some (some ⟨e.spaceMap, e.cfgRes⟩, .intrCookie ::ₘ .irqRes ::ₘ
        ((if e.cfgRes then {.cfgRes} else 0) + ((if e.spaceMap then {.pciecfg} else 0) + {.macRes})))
    else some (none, if e.spaceMap then {.pciecfg} else 0) := by
  rcases e with ⟨macRes, spaceMap, cfgRes, irqRes, setupIntr⟩
  cases macRes <;> cases spaceMap <;> cases cfgRes <;> cases irqRes <;> cases setupIntr <;> rfl

theorem attachTidy_iff (e : PcieEnv) : pcieDevice.AttachTidy e ↔
    (e.macRes = true → e.spaceMap = true → e.irqRes = true ∧ e.setupIntr = true) := by
  unfold Device.AttachTidy
  rw [show run (pcieDevice.attach e) 0 = run (bcm2712PcieAttach e) 0 from rfl, run_attach]
  rcases e with ⟨macRes, spaceMap, cfgRes, irqRes, setupIntr⟩
  cases macRes <;> cases spaceMap <;> cases irqRes <;> cases setupIntr <;> simp

/-- `detach` gives all back if the mapping is there, and is stuck at it if it is not. -/
theorem run_detach (spaceMap cfgRes : Bool) :
    run (bcm2712PcieDetach ⟨spaceMap, cfgRes⟩) (.intrCookie ::ₘ .irqRes ::ₘ
      ((if cfgRes then {.cfgRes} else 0) + ((if spaceMap then {.pciecfg} else 0) + {.macRes}))) =
      if spaceMap then some ((), 0) else none := by
  cases spaceMap <;> cases cfgRes <;> rfl

theorem detachTidy_iff {e : PcieEnv} {sc : PcieSoftc} {t : Multiset PcieRes}
    (h : run (bcm2712PcieAttach e) 0 = some (some sc, t)) : pcieDevice.DetachTidy e ↔ e.spaceMap = true := by
  have hrun := run_attach e
  rw [h] at hrun
  split at hrun
  · cases hrun
  · split at hrun
    · cases hrun
      have hd := run_detach e.spaceMap e.cfgRes
      constructor
      · intro ht
        have hback := (ht _ _ h).symm.trans hd
        by_contra hs
        rw [if_neg hs] at hback
        cases hback
      · intro hs sc t h'
        cases h.symm.trans h'
        exact hd.trans (if_pos hs)
    · cases hrun

/-- **A sequence of loads and unloads holds what the attached device took, and nothing while there is none**, exactly if
no load fails behind the mapping of the configuration space and no device is unloaded that could not map it. -/
theorem pcie_ledger_iff (as : List pcieDevice.Act) :
    AllStates Device.Loaded.step Device.Loaded.Clean (Device.Loaded.init (d := pcieDevice)) as ↔
      AllSteps Device.Loaded.step LedgerOk Device.Loaded.init as := by
  apply Device.clean_iff
  intro s a hg
  cases a with
  | load e => exact attachTidy_iff e
  | unload => exact forall₂_congr fun x hx => detachTidy_iff (hg x hx)

end Pcie
