import Mathlib.Logic.Function.Basic
import Rpi5Modules.Lib.Flags

/-!
# The PWM controller of RP1

`rp1_pwm_driver.c` has four channels of one register block. A channel is configured with a period and a duty, both in
nanoseconds; `rp1_pwm_hw_config` finds a clock divider and a counter top for the period and a compare count for the
duty, and keeps the period and the count.

- `hwConfig_eq`: a call is accepted or not whatever the state, and one that is not changes nothing;
- `read_hwProgram`: the registers of a channel that was programmed, and those of the others.
-/

namespace Pwm

open Flags Function

/-- A `u_int` or `uint32_t`. -/
abbrev U32 := BitVec 32

/-- An `int` error return: `0` is success. -/
abbrev Errno := Nat

def einval : Errno := 22

/-! ## Registers -/

def rp1PwmBase : U32 := 0x000e0000
def rp1PwmOffsetCh (ch : U32) : U32 := 0x2800 * ch

/-- The register of a channel at offset `off`. -/
def rp1PwmReg (ch off : U32) : U32 := rp1PwmBase + rp1PwmOffsetCh ch + off

def rp1PwmCsr (ch : U32) : U32 := rp1PwmReg ch 0x00
def rp1PwmDiv (ch : U32) : U32 := rp1PwmReg ch 0x04
def rp1PwmTop (ch : U32) : U32 := rp1PwmReg ch 0x08
def rp1PwmCtra (ch : U32) : U32 := rp1PwmReg ch 0x10
def rp1PwmCtrb (ch : U32) : U32 := rp1PwmReg ch 0x14

def csrEnBit : Nat := 0
def csrNoinvertABit : Nat := 1
def csrNoinvertBBit : Nat := 2

def rp1PwmCsrEn : U32 := BitVec.twoPow 32 csrEnBit
def rp1PwmCsrNoinvertA : U32 := BitVec.twoPow 32 csrNoinvertABit
def rp1PwmCsrNoinvertB : U32 := BitVec.twoPow 32 csrNoinvertBBit

/-- A flag of `pwmbus`. -/
def pwmPolarityInverted : U32 := 1

/-! ## State -/

/-- `struct rp1_pwm_channel`. -/
structure Rp1PwmChannel where
  period : U32
  dutyA : U32
  flags : U32
  enabled : Bool
deriving DecidableEq

/-- `struct rp1_pwm_softc`; `regs off` is the register at `off`. -/
structure Rp1PwmSoftc where
  regs : U32 → U32
  channels : U32 → Rp1PwmChannel

namespace Rp1PwmSoftc

/-- `rp1_pwm_read(sc, offset)`. -/
def read (sc : Rp1PwmSoftc) (offset : U32) : U32 := sc.regs offset

/-- `rp1_pwm_write(sc, offset, value)`. -/
def write (sc : Rp1PwmSoftc) (offset value : U32) : Rp1PwmSoftc := { sc with regs := update sc.regs offset value }

def setChannel (sc : Rp1PwmSoftc) (channel : U32) (c : Rp1PwmChannel) : Rp1PwmSoftc :=
  { sc with channels := update sc.channels channel c }

variable (sc : Rp1PwmSoftc) (channel offset value : U32) (c : Rp1PwmChannel)

@[simp] theorem channels_write : (sc.write offset value).channels = sc.channels := rfl

@[simp] theorem read_setChannel (o : U32) : (sc.setChannel channel c).read o = sc.read o := rfl

@[simp] theorem channels_setChannel : (sc.setChannel channel c).channels = update sc.channels channel c := rfl

@[simp] theorem read_write (o : U32) : (sc.write offset value).read o = if o = offset then value else sc.read o :=
  update_apply _ _ _ _

end Rp1PwmSoftc

/-- `rp1_pwm_attach`, with whatever is in the registers. -/
def rp1PwmAttach (regs : U32 → U32) : Rp1PwmSoftc := ⟨regs, fun _ => ⟨41566, 0, 0, false⟩⟩

/-! ## Configuration -/

def clkFreq : U32 := 125000000

/-- TOP for a divider: the product has 32 bits, the quotient 64, and the result 32 again. -/
def topFor (period div : U32) : U32 := ((clkFreq / div * period).setWidth 64 / 1000000000).setWidth 32

/-- The loop over the dividers from `div` on, for `n` more of them: `div` and `top` behind it. -/
def divLoop (period : U32) : (n : Nat) → (div top : U32) → U32 × U32
  | 0, div, top => (div, top)
  | n + 1, div, _ =>
    let top := topFor period div
    if top > 0 ∧ top ≤ 0xffff then (div, top) else divLoop period n (div + 1) top

/-- The compare count. -/
def ccFor (period duty top : U32) : U32 :=
  let cc := duty * (top + 1) / period
  if cc > top then top else cc

/-- The registers and the stored configuration of an accepted call. -/
def hwProgram (sc : Rp1PwmSoftc) (channel period div top cc : U32) : Rp1PwmSoftc :=
  let csr := sc.read (rp1PwmCsr channel) &&& ~~~rp1PwmCsrEn
  let sc := sc.write (rp1PwmCsr channel) csr
  let sc := sc.write (rp1PwmTop channel) top
  let sc := sc.write (rp1PwmCtra channel) cc
  let sc := sc.write (rp1PwmCtrb channel) cc
  let sc := sc.write (rp1PwmDiv channel) div
  let csr := if (sc.channels channel).enabled then csr ||| rp1PwmCsrEn else csr
  let sc := sc.write (rp1PwmCsr channel) csr
  sc.setChannel channel { sc.channels channel with period := period, dutyA := cc }

/-- `rp1_pwm_hw_config(sc, channel, period, duty)`. -/
def rp1PwmHwConfig (sc : Rp1PwmSoftc) (channel period duty : U32) : Errno × Rp1PwmSoftc :=
  if channel ≥ 4 then (einval, sc)
  else if period = 0 ∨ duty > period then (einval, sc)
  else
    let loop := divLoop period 256 1 0
    let div := loop.1
    let top := loop.2
    if top > 0xffff ∨ top = 0 then (einval, sc)
    else
      let cc := ccFor period duty top
      (0, hwProgram sc channel period div top cc)

/-! ## The interface of `pwmbus` -/

/-- `rp1_pwm_channel_config(dev, channel, period, duty)`. -/
def rp1PwmChannelConfig (sc : Rp1PwmSoftc) (channel period duty : U32) : Errno × Rp1PwmSoftc :=
  rp1PwmHwConfig sc channel period duty

/-- `rp1_pwm_channel_get_config(dev, channel, period, duty)`, with what it stores through the pointers. -/
def rp1PwmChannelGetConfig (sc : Rp1PwmSoftc) (channel : U32) : Errno × Option (U32 × U32) :=
  if channel ≥ 4 then (einval, none) else (0, some ((sc.channels channel).period, (sc.channels channel).dutyA))

/-- `rp1_pwm_channel_enable(dev, channel, enable)`. -/
def rp1PwmChannelEnable (sc : Rp1PwmSoftc) (channel : U32) (enable : Bool) : Errno × Rp1PwmSoftc :=
  if channel ≥ 4 then (einval, sc)
  else
    let csr := sc.read (rp1PwmCsr channel)
    let csr := if enable then csr ||| rp1PwmCsrEn else csr &&& ~~~rp1PwmCsrEn
    let sc := sc.write (rp1PwmCsr channel) csr
    (0, sc.setChannel channel { sc.channels channel with enabled := enable })

/-- The polarity bit of CSR for a channel. -/
def csrNoinvert (channel : U32) : U32 := if channel = 0 ∨ channel = 1 then rp1PwmCsrNoinvertA else rp1PwmCsrNoinvertB

/-- `rp1_pwm_channel_set_flags(dev, channel, flags)`. -/
def rp1PwmChannelSetFlags (sc : Rp1PwmSoftc) (channel flags : U32) : Errno × Rp1PwmSoftc :=
  if channel ≥ 4 then (einval, sc)
  else
    let csr := sc.read (rp1PwmCsr channel)
    let csr :=
      if flags &&& pwmPolarityInverted ≠ 0 then csr &&& ~~~csrNoinvert channel else csr ||| csrNoinvert channel
    let sc := sc.write (rp1PwmCsr channel) csr
    (0, sc.setChannel channel { sc.channels channel with flags := flags })

/-! ## What a call does -/

/-- The loop finds a divider and the duty is at most the period. -/
def Accepts (channel period duty : U32) : Prop :=
  channel < 4 ∧ period ≠ 0 ∧ duty ≤ period ∧ (divLoop period 256 1 0).2 ≠ 0 ∧ (divLoop period 256 1 0).2 ≤ 0xffff

instance (channel period duty : U32) : Decidable (Accepts channel period duty) := inferInstanceAs (Decidable (_ ∧ _))

variable {sc sc' : Rp1PwmSoftc} {channel period duty div top cc ch : U32}

/-- Whether a call is accepted depends on its arguments alone, and a rejected call changes nothing. -/
theorem hwConfig_eq : rp1PwmHwConfig sc channel period duty =
    if Accepts channel period duty then
      (0, hwProgram sc channel period (divLoop period 256 1 0).1 (divLoop period 256 1 0).2
        (ccFor period duty (divLoop period 256 1 0).2))
    else (einval, sc) := by
  unfold rp1PwmHwConfig
  by_cases hA : Accepts channel period duty
  · rw [if_pos hA]
    obtain ⟨hc, h₀, hd, hz, hle⟩ := hA
    rw [if_neg (BitVec.not_le.2 hc), if_neg (not_or.2 ⟨h₀, BitVec.not_lt.2 hd⟩)]
    exact if_neg (not_or.2 ⟨BitVec.not_lt.2 hle, hz⟩)
  · rw [if_neg hA]
    by_cases hc : channel ≥ 4
    · rw [if_pos hc]
    · rw [if_neg hc]
      by_cases hp : period = 0 ∨ duty > period
      · rw [if_pos hp]
      · rw [if_neg hp]
        dsimp only
        obtain ⟨h₀, hd⟩ := not_or.1 hp
        refine if_pos (Decidable.byContradiction fun ht => hA ?_)
        obtain ⟨hle, hz⟩ := not_or.1 ht
        exact ⟨BitVec.not_le.1 hc, h₀, BitVec.not_lt.1 hd, hz, BitVec.not_lt.1 hle⟩

theorem toNat_rp1PwmReg {off : U32} (hch : ch < 4) (hoff : off.toNat < 0x1c) :
    (rp1PwmReg ch off).toNat = 0xe0000 + 0x2800 * ch.toNat + off.toNat := by
  have hch' : ch.toNat < 4 := hch
  unfold rp1PwmReg rp1PwmBase rp1PwmOffsetCh
  simp only [BitVec.toNat_add, BitVec.toNat_mul, BitVec.toNat_ofNat, BitVec.ofNat_eq_ofNat]
  omega

/-- The registers of the four channels are all different. -/
theorem rp1PwmReg_inj {ch ch' off off' : U32} (hch : ch < 4) (hch' : ch' < 4) (hoff : off.toNat < 0x1c)
    (hoff' : off'.toNat < 0x1c) : rp1PwmReg ch off = rp1PwmReg ch' off' ↔ ch = ch' ∧ off = off' := by
  constructor
  · intro h
    have hn := congrArg BitVec.toNat h
    rw [toNat_rp1PwmReg hch hoff, toNat_rp1PwmReg hch' hoff'] at hn
    exact ⟨BitVec.eq_of_toNat_eq (by omega), BitVec.eq_of_toNat_eq (by omega)⟩
  · rintro ⟨rfl, rfl⟩
    rfl

/-- The registers of the channel that is programmed. -/
theorem read_hwProgram (sc : Rp1PwmSoftc) (period div top cc : U32) (hch : channel < 4) :
    (hwProgram sc channel period div top cc).read (rp1PwmDiv channel) = div ∧
      (hwProgram sc channel period div top cc).read (rp1PwmTop channel) = top ∧
      (hwProgram sc channel period div top cc).read (rp1PwmCtra channel) = cc ∧
      (hwProgram sc channel period div top cc).read (rp1PwmCtrb channel) = cc := by
  simp [hwProgram, rp1PwmCsr, rp1PwmDiv, rp1PwmTop, rp1PwmCtra, rp1PwmCtrb, rp1PwmReg_inj hch hch]

/-- CSR of the channel that is programmed has EN as the channel's flag has it; CSR of another channel is untouched. -/
theorem csr_hwProgram (hchannel : channel < 4) (hch : ch < 4) :
    (hwProgram sc channel period div top cc).read (rp1PwmCsr ch) =
      if ch = channel then
        if (sc.channels channel).enabled then sc.read (rp1PwmCsr channel) &&& ~~~rp1PwmCsrEn ||| rp1PwmCsrEn
        else sc.read (rp1PwmCsr channel) &&& ~~~rp1PwmCsrEn
      else sc.read (rp1PwmCsr ch) := by
  by_cases h : ch = channel
  · subst h
    cases he : (sc.channels ch).enabled <;> simp [hwProgram, he]
  · simp [hwProgram, rp1PwmCsr, rp1PwmDiv, rp1PwmTop, rp1PwmCtra, rp1PwmCtrb, rp1PwmReg_inj hch hchannel, h]

theorem channels_hwProgram : (hwProgram sc channel period div top cc).channels =
    update sc.channels channel { sc.channels channel with period := period, dutyA := cc } := by
  simp [hwProgram]

end Pwm
