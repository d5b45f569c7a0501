import Rpi5Modules.Cyw.Events
import Rpi5Modules.Lib.Ledger

/-!
# What the driver holds

`cyw_attach` sets up its locks, the SDIO functions, net80211 with the event handlers, and the queues of the SDPCM layer,
each in a function with an error path of its own, and undoes them in the opposite order if one of them fails.

- an `attach` that fails leaves `ioctl_sx` behind in every case, F1 enabled if `cyw_sdio_attach` fails behind that, and
  the condition variable and the lock of the SDPCM layer if that is what fails (`run_attach`); F2, which
  `cyw_fw_download` enables, is disabled again in every case;
- so over a sequence of loads and unloads nothing is left exactly if no load fails (`cyw_ledger_iff`).
-/

namespace Cyw.Attach

open Acct Transition

inductive CywRes where
  | mtx
  | ioctlSx
  | sysctlCtx
  /-- Function 1 is enabled. -/
  | f1
  /-- Function 2 is enabled. -/
  | f2
  /-- `ieee80211_ifattach`. -/
  | ic
  | eventHandler (code : UInt32)
  | ioctlCv
  | f2Sx
  | rxTq
  | scanTq
  | rxCallout
  | txQueueMtx
deriving DecidableEq

/-! ## The layers -/

/-- Whether the steps of `cyw_sdio_attach` succeed. -/
structure SdioEnv where
  setBlockSize : Bool
  enableFunc : Bool
  enableClock : Bool
  chipId : Bool
  f2BlksizeLo : Bool
  f2BlksizeHi : Bool

/-- From `cyw_sdio_enable_clock` on. -/
def SdioEnv.enabled (e : SdioEnv) : Bool := e.enableClock && e.chipId && e.f2BlksizeLo && e.f2BlksizeHi

/-- `cyw_sdio_attach(sc)`; true is 0, and sets `sdio_attached`. -/
def cywSdioAttach (e : SdioEnv) : Acct CywRes Bool :=
  if !e.setBlockSize then pure false
  else if !e.enableFunc then pure false
  else do
    acquire .f1
    pure e.enabled

/-- `cyw_sdio_detach(sc)`; `f2` says whether F2 is enabled, as disabling a function that is not changes nothing. -/
def cywSdioDetach (sdioAttached f2 : Bool) : Acct CywRes Unit :=
  if !sdioAttached then pure ()
  else do
    releaseIf f2 .f2
    release .f1

/-- Whether the steps of `cyw_fw_download` succeed that can fail it. -/
structure FwEnv where
  imagesWrite : Bool
  forceHt : Bool
  enableFunc : Bool

def cywF2Bringup (e : FwEnv) : Acct CywRes Bool :=
  if !e.forceHt then pure false
  else if !e.enableFunc then pure false
  else do
    acquire .f2
    pure true

/-- `cyw_fw_download(sc)`; true is 0. -/
def cywFwDownload (e : FwEnv) : Acct CywRes Bool :=
  if !e.imagesWrite then pure false else cywF2Bringup e

def cywEventRegister (code : UInt32) : Acct CywRes Errno :=
  if code ≥ cywEventMaxCode then pure einval
  else do
    acquire (.eventHandler code)
    pure 0

def cywEventUnregister (code : UInt32) : Acct CywRes Unit :=
  if code ≥ cywEventMaxCode then pure () else release (.eventHandler code)

def cywScanAttach : Acct CywRes Errno := cywEventRegister cywEEscanResult

def cywScanDetach : Acct CywRes Unit := cywEventUnregister cywEEscanResult

def securityPskSup : Acct CywRes Errno := do
  let err ← cywEventRegister cywEPskSup
  if err ≠ 0 then do
    cywEventUnregister cywESetSsid
    cywEventUnregister cywELink
    pure err
  else pure 0

def securitySetSsid : Acct CywRes Errno := do
  let err ← cywEventRegister cywESetSsid
  if err ≠ 0 then do
    cywEventUnregister cywELink
    pure err
  else securityPskSup

def cywSecurityEventAttach : Acct CywRes Errno := do
  let err ← cywEventRegister cywELink
  if err ≠ 0 then pure err else securitySetSsid

def cywSecurityEventDetach : Acct CywRes Unit := do
  cywEventUnregister cywEPskSup
  cywEventUnregister cywESetSsid
  cywEventUnregister cywELink

/-- Whether the two IOVARs of `cyw_cfg_attach` succeed. -/
structure CfgEnv where
  curEtheraddr : Bool
  eventMsgs : Bool

def cfgSecurity : Acct CywRes Bool := do
  let err ← cywSecurityEventAttach
  if err ≠ 0 then do
    cywScanDetach
    release .ic
    pure false
  else pure true

def cfgScan : Acct CywRes Bool := do
  let err ← cywScanAttach
  if err ≠ 0 then do
    release .ic
    pure false
  else cfgSecurity

def cywCfgAttach (e : CfgEnv) : Acct CywRes Bool :=
  if !e.curEtheraddr then pure false
  else do
    acquire .ic
    if !e.eventMsgs then do
      release .ic
      pure false
    else cfgScan

def cywCfgDetach : Acct CywRes Unit := do
  cywSecurityEventDetach
  cywScanDetach
  release .ic

/-- Whether the two queues of `cyw_sdpcm_attach` can be created. -/
structure SdpcmEnv where
  rxTq : Bool
  scanTq : Bool

def cywSdpcmAttach (e : SdpcmEnv) : Acct CywRes Bool := do
  acquire .ioctlCv
  acquire .f2Sx
  if !e.rxTq then pure false
  else do
    acquire .rxTq
    if !e.scanTq then do
      release .rxTq
      pure false
    else do
      acquire .scanTq
      acquire .rxCallout
      acquire .txQueueMtx
      pure true

def cywSdpcmDetach (scanTq : Bool) : Acct CywRes Unit := do
  release .rxCallout
  release .rxTq
  releaseIf scanTq .scanTq
  release .txQueueMtx
  release .ioctlCv
  release .f2Sx

/-! ## `cyw_attach` -/

structure CywSoftc where
  sdioAttached : Bool
  f2Enabled : Bool
  scanTq : Bool

structure CywEnv where
  f1 : Bool
  f2 : Bool
  sdio : SdioEnv
  fw : FwEnv
  clmLoad : Bool
  cfg : CfgEnv
  sdpcm : SdpcmEnv

/-- `fail_mtx`, which ends with an error. -/
def failMtx : Acct CywRes (Option CywSoftc) := do
  release .mtx
  pure none

def failSysctl : Acct CywRes (Option CywSoftc) := do
  release .sysctlCtx
  failMtx

def failSdio (f2 : Bool) : Acct CywRes (Option CywSoftc) := do
  cywSdioDetach true f2
  failSysctl

def failCfg : Acct CywRes (Option CywSoftc) := do
  cywCfgDetach
  failSdio true

def attachSdpcm (e : CywEnv) : Acct CywRes (Option CywSoftc) := do
  let ok ← cywSdpcmAttach e.sdpcm
  if !ok then failCfg else pure (some ⟨true, true, true⟩)

def attachCfg (e : CywEnv) : Acct CywRes (Option CywSoftc) := do
  let ok ← cywCfgAttach e.cfg
  if !ok then failSdio true else attachSdpcm e

def attachFw (e : CywEnv) : Acct CywRes (Option CywSoftc) := do
  let ok ← cywFwDownload e.fw
  if !ok then failSdio false
  else if !e.clmLoad then failSdio true
  else attachCfg e

def attachSdio (e : CywEnv) : Acct CywRes (Option CywSoftc) := do
  let ok ← cywSdioAttach e.sdio
  if !ok then failSysctl else attachFw e

def cywAttach (e : CywEnv) : Acct CywRes (Option CywSoftc) := do
  acquire .mtx
  acquire .ioctlSx
  if !e.f1 then failMtx
  else if !e.f2 then failMtx
  else do
    acquire .sysctlCtx
    attachSdio e

def cywDetach (sc : CywSoftc) : Acct CywRes Unit := do
  cywCfgDetach
  cywSdpcmDetach sc.scanTq
  cywSdioDetach sc.sdioAttached sc.f2Enabled
  release .sysctlCtx
  release .ioctlSx
  release .mtx

def cywDevice : Device CywRes := ⟨CywEnv, CywSoftc, cywAttach, cywDetach⟩

/-! ## What the layers hold -/

def SdioEnv.ok (e : SdioEnv) : Bool := e.setBlockSize && e.enableFunc && e.enabled

/-- Function 1 is enabled, and stays enabled if anything fails behind that. -/
def SdioEnv.held (e : SdioEnv) : Multiset CywRes := if e.setBlockSize && e.enableFunc then {.f1} else 0

def FwEnv.ok (e : FwEnv) : Bool := e.imagesWrite && e.forceHt && e.enableFunc

def CfgEnv.ok (e : CfgEnv) : Bool := e.curEtheraddr && e.eventMsgs

def SdpcmEnv.ok (e : SdpcmEnv) : Bool := e.rxTq && e.scanTq

/-- net80211 and the four handlers. -/
def cfgHeld : Multiset CywRes :=
  {.eventHandler cywEPskSup, .eventHandler cywESetSsid, .eventHandler cywELink, .eventHandler cywEEscanResult, .ic}

def sdpcmHeld : Multiset CywRes := {.txQueueMtx, .rxCallout, .scanTq, .rxTq, .f2Sx, .ioctlCv}

/-- What `cyw_sdpcm_attach` leaves if it fails. -/
def sdpcmLeft : Multiset CywRes := {.f2Sx, .ioctlCv}

theorem run_sdioAttach (e : SdioEnv) : run (cywSdioAttach e) 0 = some (e.ok, e.held) := by
  rcases e with ⟨setBlockSize, enableFunc, enableClock, chipId, lo, hi⟩
  cases setBlockSize <;> cases enableFunc <;> rfl

/-- F2 is enabled exactly if nothing fails. -/
theorem run_fwDownload (e : FwEnv) : run (cywFwDownload e) 0 = some (e.ok, if e.ok then {.f2} else 0) := by
  rcases e with ⟨imagesWrite, forceHt, enableFunc⟩
  cases imagesWrite <;> cases forceHt <;> cases enableFunc <;> rfl

theorem run_cfgAttach (e : CfgEnv) : run (cywCfgAttach e) 0 = some (e.ok, if e.ok then cfgHeld else 0) := by
  rcases e with ⟨curEtheraddr, eventMsgs⟩
  cases curEtheraddr <;> cases eventMsgs <;> rfl

theorem run_cfgDetach : run cywCfgDetach cfgHeld = some ((), 0) := rfl

theorem run_sdpcmAttach (e : SdpcmEnv) :
    run (cywSdpcmAttach e) 0 = some (e.ok, if e.ok then sdpcmHeld else sdpcmLeft) := by
  rcases e with ⟨rxTq, scanTq⟩
  cases rxTq <;> cases scanTq <;> rfl

theorem run_sdpcmDetach : run (cywSdpcmDetach true) sdpcmHeld = some ((), 0) := by decide

/-! ## The whole -/

def CywEnv.ok (e : CywEnv) : Bool :=
  e.f1 && e.f2 && e.sdio.ok && e.fw.ok && e.clmLoad && e.cfg.ok && e.sdpcm.ok

/-- What a load leaves that fails. -/
def CywEnv.left (e : CywEnv) : Multiset CywRes :=
  if !(e.f1 && e.f2) then {.ioctlSx}
  else if !e.sdio.ok then e.sdio.held + {.ioctlSx}
  else if !(e.fw.ok && e.clmLoad && e.cfg.ok) then {.ioctlSx}
  else sdpcmLeft + {.ioctlSx}

/-- What a load takes that succeeds. -/
def cywHeld : Multiset CywRes := sdpcmHeld + (cfgHeld + ({.f2} + ({.f1} + {.sysctlCtx, .ioctlSx, .mtx})))

section Whole

variable {s : Multiset CywRes}

/-- The error paths give back the resources they name, whatever else is held. -/
theorem run_failMtx : run failMtx (.mtx ::ₘ s) = some (none, s) := by simp [failMtx]

theorem run_failSysctl : run failSysctl (.sysctlCtx ::ₘ .mtx ::ₘ s) = some (none, s) := by
  simp [failSysctl, run_failMtx]

theorem run_failSdio : run (failSdio false) (.f1 ::ₘ .sysctlCtx ::ₘ .mtx ::ₘ s) = some (none, s) ∧
    run (failSdio true) (.f2 ::ₘ .f1 ::ₘ .sysctlCtx ::ₘ .mtx ::ₘ s) = some (none, s) := by
  constructor <;> simp [failSdio, cywSdioDetach, releaseIf, run_failSysctl]

theorem run_failCfg : run failCfg (cfgHeld + .f2 ::ₘ .f1 ::ₘ .sysctlCtx ::ₘ .mtx ::ₘ s) = some (none, s) := by
  rw [failCfg, run_bind_back run_cfgDetach, run_failSdio.2]

/-- The last layer. -/
theorem run_attachSdpcm (e : CywEnv) :
    run (attachSdpcm e) (cfgHeld + ({.f2} + ({.f1} + {.sysctlCtx, .ioctlSx, .mtx}))) =
      if e.sdpcm.ok then some (some ⟨true, true, true⟩, cywHeld) else some (none, sdpcmLeft + {.ioctlSx}) := by
  rw [attachSdpcm, run_bind_of (run_sdpcmAttach e.sdpcm)]
  cases e.sdpcm.ok with
  | true => rfl
  | false =>
    have hperm : sdpcmLeft + (cfgHeld + ({.f2} + ({.f1} + {.sysctlCtx, .ioctlSx, .mtx}))) =
        cfgHeld + .f2 ::ₘ .f1 ::ₘ .sysctlCtx ::ₘ .mtx ::ₘ (sdpcmLeft + {.ioctlSx}) := by decide
    exact (congrArg (run failCfg) hperm).trans run_failCfg

theorem run_attachCfg (e : CywEnv) : run (attachCfg e) ({.f2} + ({.f1} + {.sysctlCtx, .ioctlSx, .mtx})) =
    if !e.cfg.ok then some (none, {.ioctlSx})
    else if e.sdpcm.ok then some (some ⟨true, true, true⟩, cywHeld) else some (none, sdpcmLeft + {.ioctlSx}) := by
  rw [attachCfg, run_bind_of (run_cfgAttach e.cfg)]
  cases e.cfg.ok with
  | true => exact run_attachSdpcm e
  | false => rfl

theorem run_attachFw (e : CywEnv) : run (attachFw e) ({.f1} + {.sysctlCtx, .ioctlSx, .mtx}) =
    if !(e.fw.ok && e.clmLoad && e.cfg.ok) then some (none, {.ioctlSx})
    else if e.sdpcm.ok then some (some ⟨true, true, true⟩, cywHeld) else some (none, sdpcmLeft + {.ioctlSx}) := by
  rw [attachFw, run_bind_of (run_fwDownload e.fw)]
  cases e.fw.ok with
  | false => rfl
  | true =>
    cases e.clmLoad with
    | false => rfl
    | true => exact run_attachCfg e

theorem held_of_ok {e : SdioEnv} (h : e.ok = true) : e.held = {.f1} := by
  simp only [SdioEnv.ok, Bool.and_eq_true] at h
  exact if_pos (Bool.and_eq_true _ _ ▸ h.1)

theorem run_attachSdio (e : CywEnv) : run (attachSdio e) {.sysctlCtx, .ioctlSx, .mtx} =
    if !e.sdio.ok then some (none, e.sdio.held + {.ioctlSx})
    else if !(e.fw.ok && e.clmLoad && e.cfg.ok) then some (none, {.ioctlSx})
    else if e.sdpcm.ok then some (some ⟨true, true, true⟩, cywHeld) else some (none, sdpcmLeft + {.ioctlSx}) := by
  rw [attachSdio, run_bind_of (run_sdioAttach e.sdio)]
  cases hsdio : e.sdio.ok with
  | false =>
    unfold SdioEnv.held
    cases e.sdio.setBlockSize && e.sdio.enableFunc <;> rfl
  | true =>
    rw [held_of_ok hsdio]
    exact run_attachFw e

/-- **What `cyw_attach` leaves**: the whole device if every layer comes up, and what `CywEnv.left` says if not. -/
theorem run_attach (e : CywEnv) : run (cywAttach e) 0 =
    if e.ok then some (some ⟨true, true, true⟩, cywHeld) else some (none, e.left) := by
  have hstart : run (cywAttach e) 0 = if !(e.f1 && e.f2) then some (none, {.ioctlSx})
      else run (attachSdio e) {.sysctlCtx, .ioctlSx, .mtx} := by
    unfold cywAttach
    cases e.f1 <;> cases e.f2 <;> rfl
  rw [hstart, run_attachSdio]
  unfold CywEnv.ok CywEnv.left
  cases e.f1 && e.f2 <;> cases e.sdio.ok <;> cases e.fw.ok <;> cases e.clmLoad <;> cases e.cfg.ok <;>
    cases e.sdpcm.ok <;> rfl

/-- `cyw_detach` gives back the whole device. -/
theorem run_detach : run (cywDetach ⟨true, true, true⟩) cywHeld = some ((), 0) := by
  have hperm : cywHeld = cfgHeld + (sdpcmHeld + {.f2, .f1, .sysctlCtx, .ioctlSx, .mtx}) := by decide
  rw [cywDetach, hperm, run_bind_back run_cfgDetach, run_bind_back run_sdpcmDetach]
  rfl

/-- The lock of the transactions is left behind by every load that fails. -/
theorem ioctlSx_mem_left (e : CywEnv) : .ioctlSx ∈ e.left := by
  unfold CywEnv.left
  split
  · simp
  · split
    · simp
    · split <;> simp

end Whole

/-- The load does not fail. -/
def LoadOk (_ : cywDevice.Loaded) : cywDevice.Act → Prop
  | .load e => CywEnv.ok e = true
  | .unload => True

/-- **Over a sequence of loads and unloads nothing is left behind, and nothing given back that was not taken, exactly if
no load fails.** A load that does not fail takes the whole device, and one that fails leaves what `CywEnv.left` says,
`ioctl_sx` in any case. -/
theorem cyw_ledger_iff :
    (∀ as : List cywDevice.Act,
      AllStates Device.Loaded.step Device.Loaded.Clean (Device.Loaded.init (d := cywDevice)) as ↔
        AllSteps Device.Loaded.step LoadOk Device.Loaded.init as) ∧
    ∀ e, (run (cywAttach e) 0 = if e.ok then some (some ⟨true, true, true⟩, cywHeld) else some (none, e.left)) ∧
      .ioctlSx ∈ e.left := by
  refine ⟨fun as => ?_, fun e => ⟨run_attach e, ioctlSx_mem_left e⟩⟩
  apply Device.clean_iff
  intro s a hg
  cases a with
  | load e =>
    show cywDevice.AttachTidy e ↔ CywEnv.ok e = true
    unfold Device.AttachTidy
    rw [show run (cywDevice.attach e) 0 = _ from run_attach e]
    cases CywEnv.ok e with
    | true => exact iff_of_true trivial rfl
    | false => exact iff_of_false (fun h => Multiset.notMem_zero _ (h ▸ ioctlSx_mem_left e)) Bool.false_ne_true
  | unload =>
    refine iff_of_true (fun x hx sc t h => ?_) trivial
    have hrun := run_attach x.1
    rw [show run (cywAttach x.1) 0 = some (some sc, t) from h] at hrun
    split at hrun
    · cases hrun
      exact run_detach
    · cases hrun

end Cyw.Attach
