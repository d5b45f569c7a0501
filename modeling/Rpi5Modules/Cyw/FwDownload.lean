import Mathlib.Data.Nat.Find
import Rpi5Modules.Cyw.BusWalk

/-!
# The firmware comes up

`cyw_fw_download` writes the images, starts the ARM, brings F2 up and unmasks the mailbox interrupts; then it polls
`TOHOSTMAILBOXDATA`, at most 200 times, for the bit by which the firmware says that it is ready. It returns 0 behind
the last poll as it does when the bit was seen.

What the backplane holds is given read by read, and the outcome of each bus operation too. An access takes effect if its
transfers succeed and the chip's window is the one of its address (`Reaches`); one that does not may still give the
driver a value, all ones where a transfer failed, and these have the bit (`Bus.shown`).

- the images, the debug mask and the SDIO core say which steps the bus takes as far as the handshake (`fwSteps`), and
  these are the steps of the bring-up (`fwBringup_walks`);
- the polls, and the accesses of them that take effect (`fwPoll_ops`);
- 0 means that the bit was seen exactly if the images are refused, or one of those steps fails whose error is returned,
  or, behind them, the write of `HOSTINTMASK` takes effect and one of the 200 polls is the first to show the bit, by a
  read that takes effect (`fw_download_iff`);
- on a bus that does not fail, exactly if `TOHOSTMAILBOXDATA` has the bit at one of the polls (`turnsReady_iff`).
-/

namespace Cyw

open Memory

/-! ## Registers -/

/-- F1 registers, by SDIO address. -/
def sbsdioWatermark : Nat := 0x10008
def sbsdioDeviceCtl : Nat := 0x10009
def sbsdioFunc1Chipclkcsr : Nat := 0x1000e
def sbsdioFunc1Mesbusyctrl : Nat := 0x1001d
def sbsdioFunc1Wakeupctrl : Nat := 0x1001e
def sdioCccrBrcmCardcap : Nat := 0xf0

def sbsdioForceHt : UInt8 := 0x02
def sbsdioDevctlF2wmEnab : UInt8 := 0x10
def cywF2Watermark : UInt8 := 0x40
def cywMesWatermark : UInt8 := 0xc0
def sbsdioFunc1WctrlHtwaitShift : UInt8 := 1
def sdioCccrBrcmCardcapCmd14Support : UInt8 := 0x02
def sdioCccrBrcmCardcapCmd14Ext : UInt8 := 0x04

/-- Backplane registers of ChipCommon, the ARM's wrapper and the SDIO core. -/
def ccChipctlAddr : UInt32 := 0x660
def ccChipctlData : UInt32 := 0x664
def cywArmWrapBase : UInt32 := 0x18102000
def bcmaIoctl : UInt32 := 0x0408
def bcmaResetCtl : UInt32 := 0x0800
def bcmaIoctlClk : UInt32 := 0x0001
def bcmaIoctlFgc : UInt32 := 0x0002
def bcmaIoctlCpuhalt : UInt32 := 0x0020
def bcmaResetCtlReset : UInt32 := 0x0001
def sdRegIntstatus : UInt32 := 0x020
def sdRegHostintmask : UInt32 := 0x024
def sdRegTosbmailboxdata : UInt32 := 0x048
def sdRegTohostmailboxdata : UInt32 := 0x04c
def sdpcmProtVersion : UInt32 := 4
def smbDataVersionShift : UInt32 := 16
def hmbDataFwready : UInt32 := 0x0008

/-! ## The chip -/

/-- The bus, what the backplane and the byte registers of F1 hold at each read to come, and the byte writes made. -/
structure Chip where
  bus : Bus
  mems : Nat → Mem
  regs : List (Nat → UInt8)
  writes : List SdioWrite

namespace Chip

/-- The bus at the next read of the backplane. -/
def now (c : Chip) : Bus := { c.bus with mem := c.mems 0 }

/-- `cyw_bp_read32`. -/
def read32 (c : Chip) (addr : UInt32) : UInt32 × Chip :=
  let (v, b) := cywBpRead32 c.now addr
  (v, { c with bus := b, mems := fun n => c.mems (n + 1) })

/-- `cyw_bp_write32`. -/
def write32 (c : Chip) (addr val : UInt32) : Chip := { c with bus := cywBpWrite32 c.bus addr val }

/-- `sdio_read_1` of F1: the value and the error. -/
def read1 (c : Chip) (reg : Nat) : UInt8 × Errno × Chip :=
  (if c.bus.next = 0 then c.regs.headD (fun _ => 0) reg else 0xff, c.bus.next,
    { c with bus := c.bus.tick, regs := c.regs.tail })

/-- `sdio_write_1` and `sdio_f0_write_1`. -/
def write1 (c : Chip) (fn reg : Nat) (val : UInt8) : Errno × Chip :=
  (c.bus.next, { c with bus := c.bus.tick, writes := c.writes ++ [⟨fn, reg, val⟩] })

/-- `sdio_enable_func(sc->f2)`. -/
def enableFunc (c : Chip) : Errno × Chip := (c.bus.next, { c with bus := c.bus.tick })

end Chip

/-! ## Bringing the firmware up -/

/-- `cyw_arm_release(sc, rstvec)`. -/
def cywArmRelease (c : Chip) (sdioCoreBase rstvec : UInt32) : Chip :=
  let c := c.write32 (cywSiEnumBase + ccChipctlAddr) 4
  let c := c.write32 (cywSiEnumBase + ccChipctlData) 2
  let c := if sdioCoreBase ≠ 0 then c.write32 (sdioCoreBase + sdRegIntstatus) 0xffffffff else c
  let c := if rstvec ≠ 0 then c.write32 0 rstvec else c
  let c := c.write32 (cywArmWrapBase + bcmaIoctl) (bcmaIoctlFgc ||| bcmaIoctlClk ||| bcmaIoctlCpuhalt)
  let c := (c.read32 (cywArmWrapBase + bcmaIoctl)).2
  let c := c.write32 (cywArmWrapBase + bcmaResetCtl) bcmaResetCtlReset
  let c := c.write32 (cywArmWrapBase + bcmaIoctl) bcmaIoctlCpuhalt
  let c := c.write32 (cywArmWrapBase + bcmaIoctl) (bcmaIoctlFgc ||| bcmaIoctlClk)
  let c := (c.read32 (cywArmWrapBase + bcmaIoctl)).2
  let c := c.write32 (cywArmWrapBase + bcmaResetCtl) 0
  let c := c.write32 (cywArmWrapBase + bcmaIoctl) bcmaIoctlClk
  let c := (c.read32 (cywArmWrapBase + bcmaIoctl)).2
  let c := (c.read32 (cywArmWrapBase + bcmaIoctl)).2
  (c.read32 (cywArmWrapBase + bcmaResetCtl)).2

/-- `cyw_f2_bringup(sc)`; each access sets `err` anew. -/
def cywF2Bringup (c : Chip) (sdioCoreBase : UInt32) : Errno × Chip :=
  let (_, c) := c.write1 1 sbsdioFunc1Chipclkcsr sbsdioForceHt
  let (_, err, c) := c.read1 sbsdioFunc1Chipclkcsr
  if err ≠ 0 then (err, c)
  else
    let c :=
      if sdioCoreBase ≠ 0 then
        c.write32 (sdioCoreBase + sdRegTosbmailboxdata) (sdpcmProtVersion <<< smbDataVersionShift)
      else c
    let (err, c) := c.enableFunc
    if err ≠ 0 then (err, c)
    else
      let (_, c) := c.write1 1 sbsdioWatermark cywF2Watermark
      let (devctl, _, c) := c.read1 sbsdioDeviceCtl
      let (_, c) := c.write1 1 sbsdioDeviceCtl (devctl ||| sbsdioDevctlF2wmEnab)
      let (_, c) := c.write1 1 sbsdioFunc1Mesbusyctrl cywMesWatermark
      (0, c)

/-- `cyw_sr_init(sc)`. -/
def cywSrInit (c : Chip) (srCapable : Bool) : Chip :=
  if srCapable then
    let (val, _, c) := c.read1 sbsdioFunc1Wakeupctrl
    let (_, c) := c.write1 1 sbsdioFunc1Wakeupctrl (val ||| 1 <<< sbsdioFunc1WctrlHtwaitShift)
    let (_, c) := c.write1 0 sdioCccrBrcmCardcap (sdioCccrBrcmCardcapCmd14Support ||| sdioCccrBrcmCardcapCmd14Ext)
    (c.write1 1 sbsdioFunc1Chipclkcsr sbsdioForceHt).2
  else c

/-- The fields of `sc` that `cyw_fw_download` reads, and what `cyw_fw_get` returns for the two images. -/
structure FwSoftc where
  sdioCoreBase : UInt32
  ramBase : UInt32
  ramSize : UInt32
  scDebug : UInt32
  srCapable : Bool
  fwp : Option (List UInt8)
  nvp : Option (List UInt8)

/-- `cyw_fw_download` as far as `cyw_sr_init`. -/
def fwBringup (c : Chip) (sc : FwSoftc) : Errno × Chip :=
  let (err, rstvec, b) := cywFwImagesWrite c.bus sc.ramBase sc.ramSize sc.scDebug sc.fwp sc.nvp 0
  let c := { c with bus := b }
  if err ≠ 0 then (err, c)
  else
    let (_, _, c) := c.read1 sbsdioFunc1Chipclkcsr
    let c := cywArmRelease c sc.sdioCoreBase rstvec
    let (err, c) := cywF2Bringup c sc.sdioCoreBase
    if err ≠ 0 then (err, c) else (0, cywSrInit c sc.srCapable)

/-! ## The handshake -/

/-- The access of `addr` takes effect: the window is switched or cached, the transfer succeeds, and the chip's window is
the one of `addr`. -/
def Reaches (b : Bus) (addr : UInt32) : Prop :=
  (cywSetBackplaneWindow b addr).1 = 0 ∧ (cywSetBackplaneWindow b addr).2.next = 0 ∧
    (cywSetBackplaneWindow b addr).2.hwWindow = winBase addr

instance (b : Bus) (addr : UInt32) : Decidable (Reaches b addr) := inferInstanceAs (Decidable (_ ∧ _ ∧ _))

/-- An access of a backplane register that took effect. -/
inductive RegOp where
  | read (addr val : UInt32)
  | write (addr val : UInt32)
deriving DecidableEq

/-- The chip, and the accesses that took effect from the write of `HOSTINTMASK` on. -/
structure Handshake where
  chip : Chip
  ops : List RegOp

def readOp (c : Chip) (addr : UInt32) : List RegOp := if Reaches c.now addr then [.read addr (c.read32 addr).1] else []

def writeOp (c : Chip) (addr val : UInt32) : List RegOp := if Reaches c.bus addr then [.write addr val] else []

namespace Handshake

def read32 (h : Handshake) (addr : UInt32) : UInt32 × Handshake :=
  ((h.chip.read32 addr).1, ⟨(h.chip.read32 addr).2, h.ops ++ readOp h.chip addr⟩)

def write32 (h : Handshake) (addr val : UInt32) : Handshake :=
  ⟨h.chip.write32 addr val, h.ops ++ writeOp h.chip addr val⟩

end Handshake

/-- The polling loop with `left` rounds to go, and whether it printed that the time is up. -/
def fwPoll (sdioCoreBase : UInt32) : (left : Nat) → Handshake → Handshake × Bool
  | 0, h => (h, true)
  | left + 1, h =>
    let (tohost, h) := h.read32 (sdioCoreBase + sdRegTohostmailboxdata)
    let (_, h) := h.read32 (sdioCoreBase + sdRegIntstatus)
    if tohost &&& hmbDataFwready ≠ 0 then (h, false) else fwPoll sdioCoreBase left h

/-- What `cyw_fw_download` returns, with the handshake and its message. -/
structure FwDownload where
  err : Errno
  handshake : Handshake
  timeout : Bool

/-- `cyw_fw_download(sc)`. -/
def cywFwDownload (c : Chip) (sc : FwSoftc) : FwDownload :=
  let (err, c) := fwBringup c sc
  if err ≠ 0 then ⟨err, ⟨c, []⟩, false⟩
  else if sc.sdioCoreBase = 0 then ⟨0, ⟨c, []⟩, false⟩
  else
    let h := Handshake.write32 ⟨c, []⟩ (sc.sdioCoreBase + sdRegHostintmask) (iHmbSwMask ||| iChipactive)
    let (h, timeout) := fwPoll sc.sdioCoreBase 200 h
    ⟨0, h, timeout⟩

/-! ## Accesses that take effect -/

/-- The offset of an access, in the window the chip has. -/
theorem target_access (b : Bus) (addr : UInt32) :
    b.target ((addr &&& sbsdioSbOftAddrMask) ||| sbsdioSbAccess24bFlag) =
      b.hwWindow + (addr &&& sbsdioSbOftAddrMask) := by
  have hoft : ((addr &&& sbsdioSbOftAddrMask) ||| sbsdioSbAccess24bFlag) &&& sbsdioSbOftAddrMask =
      addr &&& sbsdioSbOftAddrMask := by
    apply UInt32.eq_of_toBitVec_eq
    show ((addr.toBitVec &&& 0x7fff#32) ||| 0x8000#32) &&& 0x7fff#32 = addr.toBitVec &&& 0x7fff#32
    rw [BitVec.and_or_distrib_right, BitVec.and_assoc, BitVec.and_self]
    exact BitVec.or_zero
  rw [Bus.target, hoft]

theorem setWindow_mem (b : Bus) (addr : UInt32) : (cywSetBackplaneWindow b addr).2.mem = b.mem := by
  by_cases hc : winBase addr = b.bpWindow
  · rw [cywSetBackplaneWindow_cached hc]
  by_cases hl : b.next = 0
  · by_cases hm : b.tick.next = 0
    · by_cases hh : b.tick.tick.next = 0
      · rw [cywSetBackplaneWindow_ok hc hl hm hh]
        rfl
      · rw [cywSetBackplaneWindow_err_high hc hl hm hh]
        rfl
    · rw [cywSetBackplaneWindow_err_mid hc hl hm]
      rfl
  · rw [cywSetBackplaneWindow_err_low hc hl]
    rfl

/-- The register at `addr`. -/
def wordAt (m : Mem) (addr : UInt32) : UInt32 := (BufProg.le32 0).result fun k => m (addr + UInt32.ofNat k)

/-- What a read of `addr` shows when the backplane holds `m`: all ones if it fails, and else the register at the offset
of `addr` in the window the chip has. -/
def Bus.shown (b : Bus) (m : Mem) (addr : UInt32) : UInt32 :=
  if b.Fails (.access addr) then 0xffffffff
  else wordAt m ((cywSetBackplaneWindow b addr).2.hwWindow + (addr &&& sbsdioSbOftAddrMask))

theorem cywBpRead32_shown (b : Bus) (addr : UInt32) : (cywBpRead32 b addr).1 = b.port.shown b.mem addr := by
  have hmem := setWindow_mem b addr
  unfold Bus.shown cywBpRead32
  by_cases hf : b.Fails (.access addr)
  · rw [if_pos (port_fails_access.2 hf)]
    rcases hf with herr | hnext
    · simp only [herr, ne_eq, not_false_eq_true, if_true]
    · by_cases herr : (cywSetBackplaneWindow b addr).1 = 0
      · simp only [herr, ne_eq, not_true, if_false, Bus.read4, hnext]
      · simp only [herr, ne_eq, not_false_eq_true, if_true]
  · obtain ⟨herr, hnext⟩ := not_or.1 hf
    rw [if_neg (mt port_fails_access.1 hf), cywSetBackplaneWindow_port]
    simp only [not_not.1 herr, ne_eq, not_true, if_false, Bus.read4, not_not.1 hnext, if_true, target_access, hmem]
    rfl

/-- A read that takes effect shows the register at its address. -/
theorem Reaches.shown {b : Bus} {addr : UInt32} (h : Reaches b addr) (m : Mem) : b.shown m addr = wordAt m addr := by
  obtain ⟨herr, hnext, hwin⟩ := h
  have hf : ¬b.Fails (.access addr) := not_or.2 ⟨not_not_intro herr, not_not_intro hnext⟩
  rw [Bus.shown, if_neg hf, hwin, winBase_add_oft]

theorem reaches_port (b : Bus) (addr : UInt32) : Reaches b.port addr ↔ Reaches b addr := by
  rw [Reaches, cywSetBackplaneWindow_port]
  rfl

namespace Chip

variable (c : Chip) (addr : UInt32)

theorem port_read32 : (c.read32 addr).2.bus.port = c.bus.port.pass (.access addr) := port_cywBpRead32 c.now addr

theorem port_write32 (val : UInt32) : (c.write32 addr val).bus.port = c.bus.port.pass (.access addr) :=
  port_cywBpWrite32 c.bus addr val

theorem mems_read32 : (c.read32 addr).2.mems = fun n => c.mems (n + 1) := rfl

theorem mems_write32 (val : UInt32) : (c.write32 addr val).mems = c.mems := rfl

theorem shown_read32 : (c.read32 addr).1 = c.bus.port.shown (c.mems 0) addr := cywBpRead32_shown c.now addr

end Chip

/-! ## The steps as far as the handshake -/

section Plan

variable (sc : FwSoftc) (fw nv : List UInt8)

/-- The two images are there, and `cyw_fw_images_write` does not refuse them for their lengths. -/
structure FwSoftc.Accepts : Prop where
  fwp : sc.fwp = some fw
  nvp : sc.nvp = some nv
  four : 4 ≤ fw.length
  fits : fw.length ≤ sc.ramSize.toNat
  nonempty : nv ≠ []

/-- The first word of the firmware. -/
def rstvec : UInt32 := (BufProg.le32 0).result (fw.getD · 0)

def readbackAddrs : List UInt32 :=
  if sc.scDebug &&& cywDbgFw ≠ 0 then
    [cywFwLoadAddr + 0, cywFwLoadAddr + 4, cywFwLoadAddr + 8, cywFwLoadAddr + 0x40]
  else []

/-- `cyw_fw_images_write`: the chunks of the firmware, the debug reads, and the chunks of the NVRAM. -/
def imageSteps : List PlanStep :=
  blockSteps cywFwLoadAddr fw.length ++ (accessSteps (readbackAddrs sc) ++
    blockSteps (sc.ramBase + sc.ramSize - UInt32.ofNat (cywParseNvram nv).length) (cywParseNvram nv).length)

/-- The registers of `cyw_arm_release`. -/
def armAddrs : List UInt32 :=
  [cywSiEnumBase + ccChipctlAddr, cywSiEnumBase + ccChipctlData] ++
    (if sc.sdioCoreBase ≠ 0 then [sc.sdioCoreBase + sdRegIntstatus] else []) ++
    (if rstvec fw ≠ 0 then [0] else []) ++
    [cywArmWrapBase + bcmaIoctl, cywArmWrapBase + bcmaIoctl, cywArmWrapBase + bcmaResetCtl,
      cywArmWrapBase + bcmaIoctl, cywArmWrapBase + bcmaIoctl, cywArmWrapBase + bcmaIoctl,
      cywArmWrapBase + bcmaResetCtl, cywArmWrapBase + bcmaIoctl, cywArmWrapBase + bcmaIoctl,
      cywArmWrapBase + bcmaIoctl, cywArmWrapBase + bcmaResetCtl]

/-- `cyw_f2_bringup`: the errors of the read of `CHIPCLKCSR` and of enabling F2 are returned. -/
def f2Steps : List PlanStep :=
  byteSteps 1 ++ ([checkedByte] ++
    (accessSteps (if sc.sdioCoreBase ≠ 0 then [sc.sdioCoreBase + sdRegTosbmailboxdata] else []) ++
      ([checkedByte] ++ byteSteps 4)))

/-- The steps of the bus as far as the handshake: the images, the read of `CHIPCLKCSR`, the release of the ARM, F2, and
the registers of `cyw_sr_init`. -/
def fwSteps : List PlanStep :=
  imageSteps sc fw nv ++ (byteSteps 1 ++ (accessSteps (armAddrs sc fw) ++
    (f2Steps sc ++ byteSteps (if sc.srCapable then 4 else 0))))

end Plan

section Bringup

variable {c : Chip} {sc : FwSoftc} {fw nv : List UInt8}

theorem fwReadback_port (b : Bus) :
    (fwReadback b).port = b.port.passAll (accessSteps
      [cywFwLoadAddr + 0, cywFwLoadAddr + 4, cywFwLoadAddr + 8, cywFwLoadAddr + 0x40]) := by
  simp only [fwReadback, port_cywBpRead32, passAll_accesses, List.foldl_cons, List.foldl_nil]

/-- Accepted images go the way of their chunks. -/
theorem cywFwImagesWrite_walks (h : sc.Accepts fw nv) (b : Bus) :
    ∃ err b', cywFwImagesWrite b sc.ramBase sc.ramSize sc.scDebug sc.fwp sc.nvp 0 = (err, rstvec fw, b') ∧
      Walks b.port (imageSteps sc fw nv) err b'.port := by
  have hn : nv.length ≠ 0 := fun h' => h.nonempty (List.length_eq_zero_iff.1 h')
  have hw := cywBpWriteBlock_walks b cywFwLoadAddr (fw.getD · 0) fw.length
  unfold cywFwImagesWrite
  rw [h.fwp, h.nvp]
  simp only [Nat.not_lt.2 h.four, Nat.not_lt.2 h.fits, hn, if_false]
  generalize cywBpWriteBlock b cywFwLoadAddr (fw.getD · 0) fw.length = r at *
  obtain ⟨err, b₁⟩ := r
  dsimp only at *
  by_cases herr : err = 0
  · subst herr
    simp only [ne_eq, not_true, if_false]
    generalize hb₂ : (if ¬sc.scDebug &&& cywDbgFw = 0 then fwReadback b₁ else b₁) = b₂
    have hrb : Walks b₁.port (accessSteps (readbackAddrs sc)) 0 b₂.port := by
      rw [← hb₂, readbackAddrs]
      by_cases hd : sc.scDebug &&& cywDbgFw = 0
      · rw [if_neg (not_not_intro hd), if_neg (not_not_intro hd)]
        exact Walks.accesses _ []
      · rw [if_pos hd, if_pos hd, fwReadback_port]
        exact Walks.accesses _ _
    have hnv := cywBpWriteBlock_walks b₂ (sc.ramBase + sc.ramSize - UInt32.ofNat (cywParseNvram nv).length)
      ((cywParseNvram nv).getD · 0) (cywParseNvram nv).length
    generalize cywBpWriteBlock b₂ _ _ _ = r at *
    obtain ⟨err, b₃⟩ := r
    refine ⟨err, b₃, ?_, hw.append (hrb.append hnv)⟩
    by_cases herr : err = 0
    · subst herr
      rfl
    · simp only [herr, not_false_eq_true, if_true]
      rfl
  · refine ⟨err, b₁, ?_, hw.stop herr _⟩
    simp only [ne_eq, herr, not_false_eq_true, if_true]
    rfl

/-- Images that are not accepted are refused. -/
theorem cywFwImagesWrite_refused (h : ∀ fw nv, ¬sc.Accepts fw nv) (b : Bus) :
    (cywFwImagesWrite b sc.ramBase sc.ramSize sc.scDebug sc.fwp sc.nvp 0).1 ≠ 0 := by
  unfold cywFwImagesWrite
  cases hfw : sc.fwp with
  | none => exact (by decide : enoent ≠ 0)
  | some fw =>
    dsimp only
    by_cases h4 : fw.length < 4
    · rw [if_pos h4]
      exact (by decide : eftype ≠ 0)
    rw [if_neg h4]
    by_cases hle : fw.length > sc.ramSize.toNat
    · rw [if_pos hle]
      exact (by decide : efbig ≠ 0)
    rw [if_neg hle]
    generalize cywBpWriteBlock b cywFwLoadAddr (fw.getD · 0) fw.length = r
    obtain ⟨err, b₁⟩ := r
    dsimp only
    by_cases herr : err = 0
    · rw [if_neg (not_not_intro herr)]
      cases hnv : sc.nvp with
      | none => exact (by decide : enoent ≠ 0)
      | some nv =>
        dsimp only
        by_cases hn : nv.length = 0
        · rw [if_pos hn]
          exact (by decide : eftype ≠ 0)
        · exact absurd ⟨hfw, hnv, Nat.le_of_not_lt h4, Nat.le_of_not_lt hle, fun h' => hn (h' ▸ rfl)⟩ (h fw nv)
    · rw [if_pos herr]
      exact herr

/-- The release of the ARM goes the way of its registers and reads five of them. -/
theorem cywArmRelease_port (c : Chip) (sc : FwSoftc) (fw : List UInt8) :
    (cywArmRelease c sc.sdioCoreBase (rstvec fw)).bus.port =
        c.bus.port.passAll (accessSteps (armAddrs sc fw)) ∧
      (cywArmRelease c sc.sdioCoreBase (rstvec fw)).mems = fun n => c.mems (n + 5) := by
  unfold cywArmRelease armAddrs
  refine ⟨?_, ?_⟩
  · rw [passAll_accesses]
    by_cases hcore : sc.sdioCoreBase = 0
    · by_cases hrst : rstvec fw = 0
      · simp only [hcore, hrst, ne_eq, not_true, if_false, Chip.port_read32, Chip.port_write32, List.append_nil,
          List.cons_append, List.nil_append, List.foldl_cons, List.foldl_nil]
      · simp only [hcore, hrst, ne_eq, not_true, not_false_eq_true, if_false, if_true, Chip.port_read32,
          Chip.port_write32, List.append_nil, List.cons_append, List.nil_append, List.foldl_cons, List.foldl_nil]
    · by_cases hrst : rstvec fw = 0
      · simp only [hcore, hrst, ne_eq, not_true, not_false_eq_true, if_false, if_true, Chip.port_read32,
          Chip.port_write32, List.append_nil, List.cons_append, List.nil_append, List.foldl_cons, List.foldl_nil]
      · simp only [hcore, hrst, ne_eq, not_false_eq_true, if_true, Chip.port_read32, Chip.port_write32,
          List.cons_append, List.nil_append, List.foldl_cons, List.foldl_nil]
  · simp only [Chip.mems_read32, Chip.mems_write32]
    split <;> split <;> simp only [Chip.mems_write32]

/-- F2 is brought up step by step, with no read of the backplane. -/
theorem cywF2Bringup_walks (c : Chip) (sc : FwSoftc) :
    Walks c.bus.port (f2Steps sc) (cywF2Bringup c sc.sdioCoreBase).1 (cywF2Bringup c sc.sdioCoreBase).2.bus.port ∧
      (cywF2Bringup c sc.sdioCoreBase).2.mems = c.mems := by
  have hclk : Walks c.bus.port (byteSteps 1) 0 c.bus.tick.port := Walks.bytes _ 1
  unfold cywF2Bringup f2Steps
  dsimp only [Chip.write1, Chip.read1, Chip.enableFunc]
  have hcsr := Walks.checkedByte c.bus.tick.port
  rw [show c.bus.tick.port.next = c.bus.tick.next from rfl] at hcsr
  by_cases hread : c.bus.tick.next = 0
  · rw [if_neg (not_not_intro hread)]
    rw [hread] at hcsr
    generalize hc₁ : (if sc.sdioCoreBase ≠ 0 then Chip.write32 _ _ _ else _ : Chip) = c₁
    have hkick : Walks c.bus.tick.tick.port
        (accessSteps (if sc.sdioCoreBase ≠ 0 then [sc.sdioCoreBase + sdRegTosbmailboxdata] else [])) 0 c₁.bus.port := by
      rw [← hc₁]
      by_cases hcore : sc.sdioCoreBase ≠ 0
      · rw [if_pos hcore, if_pos hcore, Chip.port_write32]
        exact Walks.accesses _ [_]
      · rw [if_neg hcore, if_neg hcore]
        exact Walks.accesses _ []
    have hmems : c₁.mems = c.mems := by
      rw [← hc₁]
      split <;> rfl
    have henable := Walks.checkedByte c₁.bus.port
    rw [show c₁.bus.port.next = c₁.bus.next from rfl] at henable
    by_cases hen : c₁.bus.next = 0
    · rw [if_neg (not_not_intro hen)]
      rw [hen] at henable
      exact ⟨hclk.append (hcsr.append (hkick.append (henable.append (Walks.bytes _ 4)))), hmems⟩
    · rw [if_pos hen]
      exact ⟨hclk.append (hcsr.append (hkick.append (henable.stop hen _))), hmems⟩
  · rw [if_pos hread]
    exact ⟨hclk.append (hcsr.stop hread _), rfl⟩

theorem cywSrInit_port (c : Chip) (srCapable : Bool) :
    (cywSrInit c srCapable).bus.port = c.bus.port.passAll (byteSteps (if srCapable then 4 else 0)) ∧
      (cywSrInit c srCapable).mems = c.mems := by
  cases srCapable
  · exact ⟨rfl, rfl⟩
  · exact ⟨rfl, rfl⟩

/-- **The way to the handshake**: with accepted images, the bring-up goes the way of its steps, and reads the backplane
five times. -/
theorem fwBringup_walks (h : sc.Accepts fw nv) (c : Chip) :
    Walks c.bus.port (fwSteps sc fw nv) (fwBringup c sc).1 (fwBringup c sc).2.bus.port ∧
      ((fwBringup c sc).1 = 0 → (fwBringup c sc).2.mems = fun n => c.mems (n + 5)) := by
  obtain ⟨err, b, himg, hw⟩ := cywFwImagesWrite_walks h c.bus
  unfold fwBringup fwSteps
  rw [himg]
  dsimp only [Chip.read1]
  by_cases herr : err = 0
  · subst herr
    simp only [ne_eq, not_true, if_false]
    generalize hc₁ : Chip.mk b.tick c.mems _ _ = c₁
    have hb : c₁.bus.port = b.tick.port := by rw [← hc₁]
    obtain ⟨harm, hmems⟩ := cywArmRelease_port c₁ sc fw
    generalize cywArmRelease c₁ sc.sdioCoreBase (rstvec fw) = c₂ at *
    obtain ⟨hf2, hmems₂⟩ := cywF2Bringup_walks c₂ sc
    generalize cywF2Bringup c₂ sc.sdioCoreBase = r at *
    obtain ⟨err, c₃⟩ := r
    dsimp only at *
    have hcsr : Walks b.port (byteSteps 1) 0 c₁.bus.port := hb ▸ Walks.bytes b.port 1
    have harm' : Walks c₁.bus.port (accessSteps (armAddrs sc fw)) 0 c₂.bus.port := harm ▸ Walks.accesses _ _
    have hm : c₂.mems = fun n => c.mems (n + 5) := by rw [hmems, ← hc₁]
    by_cases herr : err = 0
    · subst herr
      obtain ⟨hsr, hmems₃⟩ := cywSrInit_port c₃ sc.srCapable
      simp only [not_true, if_false]
      refine ⟨?_, fun _ => hmems₃.trans (hmems₂.trans hm)⟩
      rw [hsr]
      exact hw.append (hcsr.append (harm'.append (hf2.append (Walks.bytes _ _))))
    · rw [if_pos herr]
      exact ⟨hw.append (hcsr.append (harm'.append (hf2.stop herr _))), fun h => absurd h herr⟩
  · rw [if_pos herr]
    exact ⟨hw.stop herr _, fun h => absurd h herr⟩

theorem fwBringup_refused (h : ∀ fw nv, ¬sc.Accepts fw nv) (c : Chip) : (fwBringup c sc).1 ≠ 0 := by
  have hr := cywFwImagesWrite_refused h c.bus
  unfold fwBringup
  generalize cywFwImagesWrite c.bus sc.ramBase sc.ramSize sc.scDebug sc.fwp sc.nvp 0 = r at *
  obtain ⟨err, rst, b⟩ := r
  dsimp only at *
  rw [if_pos hr]
  exact hr

end Bringup

/-! ## The polls -/

section Polls

variable (sdioCoreBase : UInt32)

/-- The bus behind a round of the polling loop. -/
def pollRound (p : Bus) : Bus :=
  (p.pass (.access (sdioCoreBase + sdRegTohostmailboxdata))).pass (.access (sdioCoreBase + sdRegIntstatus))

/-- The bus behind `n` rounds. -/
def polled (p : Bus) : Nat → Bus
  | 0 => p
  | n + 1 => polled (pollRound sdioCoreBase p) n

/-- A poll shows the bit when the backplane holds `m`. -/
def GivesReady (p : Bus) (m : Mem) : Prop :=
  p.shown m (sdioCoreBase + sdRegTohostmailboxdata) &&& hmbDataFwready ≠ 0

instance (p : Bus) (m : Mem) : Decidable (GivesReady sdioCoreBase p m) := inferInstanceAs (Decidable (_ ≠ _))

/-- Of the next `n` polls, of two reads each, there is a first one to show the bit, and its read takes effect. -/
def ReadyWithin (n : Nat) (p : Bus) (mems : Nat → Mem) : Prop :=
  ∃ k < n, (∀ j < k, ¬GivesReady sdioCoreBase (polled sdioCoreBase p j) (mems (2 * j))) ∧
    GivesReady sdioCoreBase (polled sdioCoreBase p k) (mems (2 * k)) ∧
    Reaches (polled sdioCoreBase p k) (sdioCoreBase + sdRegTohostmailboxdata)

/-- The write of `HOSTINTMASK` takes effect, and the firmware gets ready while it is polled: the condition on the bus
and on what the backplane holds at the reads to come. -/
def TurnsReady (p : Bus) (mems : Nat → Mem) : Prop :=
  Reaches p (sdioCoreBase + sdRegHostintmask) ∧
    ReadyWithin sdioCoreBase 200 (p.pass (.access (sdioCoreBase + sdRegHostintmask))) mems

/-- One of the accesses read the bit from `TOHOSTMAILBOXDATA`. -/
def SawReady (l : List RegOp) : Prop :=
  ∃ v, .read (sdioCoreBase + sdRegTohostmailboxdata) v ∈ l ∧ v &&& hmbDataFwready ≠ 0

variable {sdioCoreBase} {p : Bus} {mems : Nat → Mem} {c : Chip} {n : Nat}

theorem readyWithin_of_gives (hg : GivesReady sdioCoreBase p (mems 0)) :
    ReadyWithin sdioCoreBase (n + 1) p mems ↔ Reaches p (sdioCoreBase + sdRegTohostmailboxdata) := by
  constructor
  · rintro ⟨k, -, hbefore, -, hr⟩
    cases k with
    | zero => exact hr
    | succ k => exact absurd hg (hbefore 0 (Nat.succ_pos k))
  · intro hr
    exact ⟨0, Nat.succ_pos n, fun j hj => absurd hj (Nat.not_lt_zero j), hg, hr⟩

theorem readyWithin_of_not (hg : ¬GivesReady sdioCoreBase p (mems 0)) :
    ReadyWithin sdioCoreBase (n + 1) p mems ↔
      ReadyWithin sdioCoreBase n (pollRound sdioCoreBase p) fun i => mems (i + 2) := by
  constructor
  · rintro ⟨k, hk, hbefore, hgives, hr⟩
    cases k with
    | zero => exact absurd hgives hg
    | succ k =>
      exact ⟨k, Nat.lt_of_succ_lt_succ hk, fun j hj => hbefore (j + 1) (Nat.succ_lt_succ hj), hgives, hr⟩
  · rintro ⟨k, hk, hbefore, hgives, hr⟩
    refine ⟨k + 1, Nat.succ_lt_succ hk, fun j hj => ?_, hgives, hr⟩
    cases j with
    | zero => exact hg
    | succ j => exact hbefore j (Nat.lt_of_succ_lt_succ hj)

/-- The two registers of a round are apart. -/
theorem tohost_ne_intstatus : sdioCoreBase + sdRegTohostmailboxdata ≠ sdioCoreBase + sdRegIntstatus := by
  rw [Ne, UInt32.add_right_inj]
  decide

theorem sawReady_append {l l' : List RegOp} :
    SawReady sdioCoreBase (l ++ l') ↔ SawReady sdioCoreBase l ∨ SawReady sdioCoreBase l' := by
  simp only [SawReady, List.mem_append, or_and_right, exists_or]

/-- A read sees the bit if it is one of `TOHOSTMAILBOXDATA`, shows the bit and takes effect. -/
theorem sawReady_readOp (c : Chip) (addr : UInt32) :
    SawReady sdioCoreBase (readOp c addr) ↔
      addr = sdioCoreBase + sdRegTohostmailboxdata ∧ GivesReady sdioCoreBase c.bus.port (c.mems 0) ∧
        Reaches c.bus.port addr := by
  have hreach : Reaches c.bus.port addr ↔ Reaches c.now addr := reaches_port c.now addr
  unfold readOp
  rw [hreach]
  constructor
  · rintro ⟨v, hv, hbit⟩
    split at hv
    next hr =>
      obtain ⟨rfl, rfl⟩ := RegOp.read.inj (List.mem_singleton.1 hv)
      rw [Chip.shown_read32] at hbit
      exact ⟨rfl, hbit, hr⟩
    · cases hv
  · rintro ⟨rfl, hg, hr⟩
    rw [if_pos hr, Chip.shown_read32]
    exact ⟨_, List.mem_singleton_self _, hg⟩

/-- A round sees the bit if its first read shows it and takes effect. -/
theorem sawReady_round (sdioCoreBase : UInt32) (c : Chip) :
    SawReady sdioCoreBase (readOp c (sdioCoreBase + sdRegTohostmailboxdata) ++
      readOp (c.read32 (sdioCoreBase + sdRegTohostmailboxdata)).2 (sdioCoreBase + sdRegIntstatus)) ↔
      GivesReady sdioCoreBase c.bus.port (c.mems 0) ∧
        Reaches c.bus.port (sdioCoreBase + sdRegTohostmailboxdata) := by
  rw [sawReady_append, sawReady_readOp, sawReady_readOp, and_iff_right rfl]
  exact or_iff_left fun h => tohost_ne_intstatus h.1.symm

/-- A read only reads. -/
theorem readOp_read {addr : UInt32} {op : RegOp} (hop : op ∈ readOp c addr) : ∃ a v, op = .read a v := by
  unfold readOp at hop
  split at hop
  · exact ⟨_, _, List.mem_singleton.1 hop⟩
  · cases hop

/-- The polls read, and they see the bit if the first to show it takes effect. -/
theorem fwPoll_ops (sdioCoreBase : UInt32) (n : Nat) (h : Handshake) :
    ∃ l, (fwPoll sdioCoreBase n h).1.ops = h.ops ++ l ∧ (∀ op ∈ l, ∃ a v, op = .read a v) ∧
      (SawReady sdioCoreBase l ↔ ReadyWithin sdioCoreBase n h.chip.bus.port h.chip.mems) := by
  induction n generalizing h with
  | zero =>
    refine ⟨[], (List.append_nil _).symm, nofun, iff_of_false ?_ ?_⟩
    · rintro ⟨v, hv, -⟩
      cases hv
    · rintro ⟨k, hk, -⟩
      exact absurd hk (Nat.not_lt_zero k)
  | succ n ih =>
    generalize hround : readOp h.chip (sdioCoreBase + sdRegTohostmailboxdata) ++
      readOp (h.chip.read32 (sdioCoreBase + sdRegTohostmailboxdata)).2 (sdioCoreBase + sdRegIntstatus) = round
    have hreads : ∀ op ∈ round, ∃ a v, op = RegOp.read a v := by
      intro op hop
      rw [← hround] at hop
      rcases List.mem_append.1 hop with hop | hop
      · exact readOp_read hop
      · exact readOp_read hop
    have hsaw := sawReady_round sdioCoreBase h.chip
    rw [hround] at hsaw
    have hshown := h.chip.shown_read32 (sdioCoreBase + sdRegTohostmailboxdata)
    rw [fwPoll]
    simp only [Handshake.read32, List.append_assoc, hround]
    by_cases hg : GivesReady sdioCoreBase h.chip.bus.port (h.chip.mems 0)
    · rw [if_pos (show (h.chip.read32 _).1 &&& hmbDataFwready ≠ 0 from hshown.symm ▸ hg)]
      refine ⟨round, rfl, hreads, ?_⟩
      rw [hsaw, readyWithin_of_gives hg]
      exact and_iff_right hg
    · rw [if_neg (show ¬(h.chip.read32 _).1 &&& hmbDataFwready ≠ 0 from hshown.symm ▸ hg)]
      generalize hc : ((h.chip.read32 (sdioCoreBase + sdRegTohostmailboxdata)).2.read32
        (sdioCoreBase + sdRegIntstatus)).2 = c
      have hport : c.bus.port = pollRound sdioCoreBase h.chip.bus.port := by
        rw [← hc, Chip.port_read32, Chip.port_read32, pollRound]
      have hmems : c.mems = fun i => h.chip.mems (i + 2) := by rw [← hc, Chip.mems_read32, Chip.mems_read32]
      obtain ⟨l, hl, hlr, hls⟩ := ih ⟨c, h.ops ++ round⟩
      refine ⟨round ++ l, hl.trans (List.append_assoc _ _ _), fun op hop => ?_, ?_⟩
      · rcases List.mem_append.1 hop with hop | hop
        · exact hreads op hop
        · exact hlr op hop
      · rw [readyWithin_of_not hg, ← hport, ← hmems, ← hls, sawReady_append, hsaw]
        exact or_iff_right fun h => hg h.1

end Polls

/-! ## What 0 means -/

/-- A value with the bit was read from `TOHOSTMAILBOXDATA` after `HOSTINTMASK` was written. -/
def ReadySeen (sdioCoreBase : UInt32) (ops : List RegOp) : Prop :=
  ∃ pre v post, ops = pre ++ .read (sdioCoreBase + sdRegTohostmailboxdata) v :: post ∧
    .write (sdioCoreBase + sdRegHostintmask) (iHmbSwMask ||| iChipactive) ∈ pre ∧ v &&& hmbDataFwready ≠ 0

/-- The bit is seen by the polls behind the write. -/
theorem readySeen_iff (c : Chip) (sdioCoreBase : UInt32) :
    ReadySeen sdioCoreBase (fwPoll sdioCoreBase 200
      (Handshake.write32 ⟨c, []⟩ (sdioCoreBase + sdRegHostintmask) (iHmbSwMask ||| iChipactive))).1.ops ↔
      TurnsReady sdioCoreBase c.bus.port c.mems := by
  obtain ⟨l, hl, hreads, hsaw⟩ := fwPoll_ops sdioCoreBase 200
    (Handshake.write32 ⟨c, []⟩ (sdioCoreBase + sdRegHostintmask) (iHmbSwMask ||| iChipactive))
  rw [hl, TurnsReady, reaches_port]
  simp only [Handshake.write32, List.nil_append, Chip.port_write32, Chip.mems_write32] at hsaw ⊢
  rw [← hsaw, writeOp]
  constructor
  · rintro ⟨pre, v, post, hops, hw, hbit⟩
    have hread := List.mem_append_right pre
      (List.mem_cons_self (a := RegOp.read (sdioCoreBase + sdRegTohostmailboxdata) v) (l := post))
    have hwrite := List.mem_append_left (.read (sdioCoreBase + sdRegTohostmailboxdata) v :: post) hw
    rw [← hops] at hread hwrite
    by_cases hr : Reaches c.bus (sdioCoreBase + sdRegHostintmask)
    · refine ⟨hr, v, ?_, hbit⟩
      rw [if_pos hr] at hread
      rcases List.mem_append.1 hread with h | h
      · cases List.mem_singleton.1 h
      · exact h
    · rw [if_neg hr] at hwrite
      obtain ⟨a, u, h⟩ := hreads _ hwrite
      cases h
  · rintro ⟨hr, v, hv, hbit⟩
    obtain ⟨pre, post, rfl⟩ := List.append_of_mem hv
    rw [if_pos hr]
    exact ⟨_ :: pre, v, post, rfl, List.mem_cons_self, hbit⟩

/-! ## A bus that does not fail -/

section NoFaults

variable {sdioCoreBase : UInt32} {b : Bus}

theorem Bus.Ready.reaches (h : b.Ready) (addr : UInt32) : Reaches b addr := by
  obtain ⟨b', hb', hr, hw, -⟩ := h.setWindow addr
  rw [Reaches, hb']
  exact ⟨rfl, hr.next, hw⟩

theorem Bus.Ready.tick (h : b.Ready) : b.tick.Ready :=
  ⟨by rw [Bus.tick, h.faults, List.tail_nil], h.window⟩

theorem Bus.Ready.pass (h : b.Ready) (s : BusStep) : (b.pass s).Ready := by
  cases s with
  | access addr =>
    obtain ⟨b', hb', hr, -, -⟩ := h.setWindow addr
    rw [Bus.pass, hb', if_pos rfl]
    exact hr.tick
  | byte => exact h.tick

theorem Bus.Ready.not_fails (h : b.Ready) (s : BusStep) : ¬b.Fails s := by
  cases s with
  | access addr =>
    obtain ⟨herr, hnext, -⟩ := h.reaches addr
    exact not_or.2 ⟨not_not_intro herr, not_not_intro hnext⟩
  | byte => exact not_not_intro h.next

/-- No step fails, and the bus stays so. -/
theorem Bus.Ready.passAll (h : b.Ready) (l : List PlanStep) : ¬CheckedFails b l ∧ (b.passAll l).Ready := by
  induction l generalizing b with
  | nil => exact ⟨id, h⟩
  | cons s l ih =>
    obtain ⟨hl, hr⟩ := ih (h.pass s.step)
    exact ⟨not_or.2 ⟨fun hs => h.not_fails s.step hs.2, hl⟩, hr⟩

theorem polled_ready (h : b.Ready) (n : Nat) : (polled sdioCoreBase b n).Ready := by
  induction n generalizing b with
  | zero => exact h
  | succ n ih => exact ih ((h.pass _).pass _)

/-- On a bus that does not fail the firmware turns ready exactly if `TOHOSTMAILBOXDATA` has the bit at one of the
polls. -/
theorem turnsReady_iff (h : b.Ready) (mems : Nat → Mem) :
    TurnsReady sdioCoreBase b mems ↔
      ∃ k < 200, wordAt (mems (2 * k)) (sdioCoreBase + sdRegTohostmailboxdata) &&& hmbDataFwready ≠ 0 := by
  have hw := h.pass (.access (sdioCoreBase + sdRegHostintmask))
  rw [TurnsReady, and_iff_right (h.reaches _), ReadyWithin]
  generalize b.pass (.access (sdioCoreBase + sdRegHostintmask)) = p at *
  have hgives : ∀ k m, GivesReady sdioCoreBase (polled sdioCoreBase p k) m ↔
      wordAt m (sdioCoreBase + sdRegTohostmailboxdata) &&& hmbDataFwready ≠ 0 := by
    intro k m
    rw [GivesReady, ((polled_ready hw k).reaches _).shown]
  constructor
  · rintro ⟨k, hk, -, hg, -⟩
    exact ⟨k, hk, (hgives k _).1 hg⟩
  · rintro ⟨k, hk, hbit⟩
    have hex : ∃ k, GivesReady sdioCoreBase (polled sdioCoreBase p k) (mems (2 * k)) := ⟨k, (hgives k _).2 hbit⟩
    have hle : Nat.find hex ≤ k := Nat.find_min' hex ((hgives k _).2 hbit)
    exact ⟨Nat.find hex, Nat.lt_of_le_of_lt hle hk, fun j hj => Nat.find_min hex hj, Nat.find_spec hex,
      (polled_ready hw _).reaches _⟩

end NoFaults

/-! ## The download -/

theorem cywFwDownload_err {c : Chip} {sc : FwSoftc} : (cywFwDownload c sc).err = (fwBringup c sc).1 := by
  unfold cywFwDownload
  generalize fwBringup c sc = r
  obtain ⟨err, c'⟩ := r
  dsimp only
  split
  · rfl
  next herr =>
    rw [not_not.1 herr]
    split <;> rfl

theorem cywFwDownload_handshake {c : Chip} {sc : FwSoftc} (herr : (fwBringup c sc).1 = 0)
    (hcore : sc.sdioCoreBase ≠ 0) :
    (cywFwDownload c sc).handshake = (fwPoll sc.sdioCoreBase 200 (Handshake.write32 ⟨(fwBringup c sc).2, []⟩
      (sc.sdioCoreBase + sdRegHostintmask) (iHmbSwMask ||| iChipactive))).1 := by
  unfold cywFwDownload
  generalize fwBringup c sc = r at *
  obtain ⟨err, c'⟩ := r
  dsimp only at *
  rw [if_neg (not_not_intro herr), if_neg hcore]

/-- With accepted images, the download returns 0 if no step fails whose error is returned, and has then seen the bit if
the firmware turned ready behind these steps. -/
theorem cywFwDownload_spec {c : Chip} {sc : FwSoftc} {fw nv : List UInt8} (hcore : sc.sdioCoreBase ≠ 0)
    (h : sc.Accepts fw nv) :
    ((cywFwDownload c sc).err = 0 ↔ ¬CheckedFails c.bus.port (fwSteps sc fw nv)) ∧
      ((cywFwDownload c sc).err = 0 → (ReadySeen sc.sdioCoreBase (cywFwDownload c sc).handshake.ops ↔
        TurnsReady sc.sdioCoreBase (c.bus.port.passAll (fwSteps sc fw nv)) fun n => c.mems (n + 5))) := by
  obtain ⟨hw, hmems⟩ := fwBringup_walks h c
  rw [cywFwDownload_err]
  refine ⟨hw.err_iff, fun herr => ?_⟩
  rw [cywFwDownload_handshake herr hcore, readySeen_iff, hw.port herr, hmems herr]

/-- **When the download says that the firmware is ready**: whatever the backplane holds at each read and however the
transfers go, that 0 means that the bit was read from `TOHOSTMAILBOXDATA` after `HOSTINTMASK` was written holds exactly
if the images are not accepted, or on the way to the handshake a step fails whose error is returned, or behind that way
the write of `HOSTINTMASK` takes effect and, of the 200 polls, there is a first to show the bit, by a read that takes
effect. -/
theorem fw_download_iff (c : Chip) (sc : FwSoftc) (hcore : sc.sdioCoreBase ≠ 0) :
    ((cywFwDownload c sc).err = 0 → ReadySeen sc.sdioCoreBase (cywFwDownload c sc).handshake.ops) ↔
      ∀ fw nv, sc.Accepts fw nv → CheckedFails c.bus.port (fwSteps sc fw nv) ∨
        TurnsReady sc.sdioCoreBase (c.bus.port.passAll (fwSteps sc fw nv)) fun n => c.mems (n + 5) := by
  constructor
  · intro hready fw nv h
    obtain ⟨herr, hseen⟩ := cywFwDownload_spec (c := c) hcore h
    by_cases hf : CheckedFails c.bus.port (fwSteps sc fw nv)
    · exact .inl hf
    · exact .inr ((hseen (herr.2 hf)).1 (hready (herr.2 hf)))
  · intro hcond h0
    by_cases hacc : ∃ fw nv, sc.Accepts fw nv
    · obtain ⟨fw, nv, h⟩ := hacc
      obtain ⟨herr, hseen⟩ := cywFwDownload_spec (c := c) hcore h
      rcases hcond fw nv h with hf | ht
      · exact absurd hf (herr.1 h0)
      · exact (hseen h0).2 ht
    · have hno : ∀ fw nv, ¬sc.Accepts fw nv := fun fw nv h => hacc ⟨fw, nv, h⟩
      exact absurd (cywFwDownload_err.symm.trans h0) (fwBringup_refused hno c)

/-- A firmware of one instruction and an NVRAM of one line. -/
def smallFw : FwSoftc where
  sdioCoreBase := 0x18002000
  ramBase := cywRamBase
  ramSize := 0xc8000
  scDebug := 0
  srCapable := true
  fwp := some [0x18, 0xf0, 0x9f, 0xe5]
  nvp := some [0x61, 0x3d, 0x31]

/-- A chip whose transfers all succeed. -/
def chipWith (mems : Nat → Mem) : Chip where
  bus := .start 0 0 0x18 (fun _ => 0) []
  mems := mems
  regs := []
  writes := []

/-- The backplane with `val` in `TOHOSTMAILBOXDATA`. -/
def tohostIs (val : UInt32) : Mem := store (fun _ => 0) 0x1800204c 4 (le32Bytes val)

/-- The firmware gets ready for the third poll: five reads are those of `cyw_arm_release`, and each poll reads twice. -/
def thirdPoll : Chip := chipWith fun n => tohostIs (if n < 9 then 0x00040002 else 0x00040008)

theorem ready_chipWith (mems : Nat → Mem) : (chipWith mems).bus.port.Ready := ⟨rfl, rfl⟩

theorem fw_download_thirdPoll :
    (cywFwDownload thirdPoll smallFw).err = 0 ∧
      ReadySeen smallFw.sdioCoreBase (cywFwDownload thirdPoll smallFw).handshake.ops := by
  have herr : (cywFwDownload thirdPoll smallFw).err = 0 := by decide +kernel
  refine ⟨herr, (fw_download_iff thirdPoll smallFw (by decide)).2 (fun fw nv h => .inr ?_) herr⟩
  have hready := ((ready_chipWith thirdPoll.mems).passAll (fwSteps smallFw fw nv)).2
  exact (turnsReady_iff hready _).2 ⟨2, by decide, by decide +kernel⟩

/-- `TOHOSTMAILBOXDATA` holds `DEVREADY` from the firmware before at every read. -/
def stale : Chip := chipWith fun _ => tohostIs 0x00040002

/-- The firmware never gets ready, and the download returns 0. -/
theorem fw_download_stale :
    (cywFwDownload stale smallFw).err = 0 ∧
      ¬ReadySeen smallFw.sdioCoreBase (cywFwDownload stale smallFw).handshake.ops := by
  have hacc : smallFw.Accepts [0x18, 0xf0, 0x9f, 0xe5] [0x61, 0x3d, 0x31] :=
    ⟨rfl, rfl, by decide, by decide, List.cons_ne_nil _ _⟩
  have hready := (ready_chipWith fun _ => tohostIs 0x00040002).passAll
    (fwSteps smallFw [0x18, 0xf0, 0x9f, 0xe5] [0x61, 0x3d, 0x31])
  obtain ⟨herr, hseen⟩ := cywFwDownload_spec (c := stale) (by decide) hacc
  have h0 := herr.2 hready.1
  refine ⟨h0, fun h => ?_⟩
  obtain ⟨k, -, hbit⟩ := (turnsReady_iff hready.2 _).1 ((hseen h0).1 h)
  have hword : wordAt (tohostIs 0x00040002) (smallFw.sdioCoreBase + sdRegTohostmailboxdata) &&& hmbDataFwready = 0 := by
    decide +kernel
  exact hbit hword

end Cyw
