import Mathlib.Logic.Function.Basic
import Rpi5Modules.Lib.Flags

/-!
# The GPIO block of RP1

`rp1_gpio.c` drives 54 pins in three banks, through three register windows: IO_BANK with a CTRL register for each pin,
SYS_RIO with one bit for each pin of a bank, and PADS_BANK with a register for each pin. The registers of SYS_RIO have
aliases that set, clear and toggle the written bits.

Every access of a window is recorded (`accesses`).
-/

namespace Gpio

open Flags Function

/-- A `u_int` or `uint32_t`. -/
abbrev U32 := BitVec 32

/-- An `int` error return: `0` is success. -/
abbrev Errno := Nat

def einval : Errno := 22

/-! ## Pins and banks -/

def rp1NumGpios : U32 := 54

def rp1GpioBank (pin : U32) : Nat := if pin < 28 then 0 else if pin < 34 then 1 else 2

def rp1GpioPinInBank (pin : U32) : Nat :=
  if pin < 28 then pin.toNat else if pin < 34 then pin.toNat - 28 else pin.toNat - 34

/-! ## Register offsets -/

def rp1GpioRegionSize : Nat := 0xc000

def rp1BankOffset (bank : Nat) : Nat := bank * 0x4000

def rp1IoCtrl (idx : Nat) : Nat := idx * 8 + 4

def rp1RioRw : Nat := 0x0000
def rp1RioXor : Nat := 0x1000
def rp1RioSet : Nat := 0x2000
def rp1RioClr : Nat := 0x3000

def rp1RioOut : Nat := 0x00
def rp1RioOe : Nat := 0x04
def rp1RioInSync : Nat := 0x0c

def rp1RioOff (bank al reg : Nat) : Nat := rp1BankOffset bank + al + reg

def rp1PadOff (bank idx : Nat) : Nat := rp1BankOffset bank + (idx + 1) * 4

/-! ## Bit fields -/

def rp1CtrlFuncselMask : U32 := 0x1f
def rp1CtrlOutoverMask : U32 := 3 <<< 12
def rp1CtrlOeoverMask : U32 := 3 <<< 14
def rp1FselGpio : U32 := 0x05
def rp1PadIe : U32 := 1

def gpioPinInput : U32 := 0x00000001
def gpioPinOutput : U32 := 0x00000002
def gpioPinPullup : U32 := 0x00000020
def gpioPinPulldown : U32 := 0x00000040

/-! ## State -/

/-- The register windows. -/
inductive Window where
  | io
  | rio
  | pad
deriving DecidableEq

/-- The registers by offset into their windows, `sc_pins[pin].gp_flags`, and the accesses made. -/
structure Rp1GpioSoftc where
  io : Nat → U32
  rio : Nat → U32
  pad : Nat → U32
  gpFlags : U32 → U32
  accesses : List (Window × Nat)

namespace Rp1GpioSoftc

variable (sc : Rp1GpioSoftc)

def access (w : Window) (off : Nat) : Rp1GpioSoftc := { sc with accesses := (w, off) :: sc.accesses }

def setFlags (pin flags : U32) : Rp1GpioSoftc := { sc with gpFlags := update sc.gpFlags pin flags }

end Rp1GpioSoftc

/-- The offset of CTRL of a pin. -/
def ctrlOff (pin : U32) : Nat := rp1BankOffset (rp1GpioBank pin) + rp1IoCtrl (rp1GpioPinInBank pin)

/-- The offset of the pad register of a pin. -/
def padOff (pin : U32) : Nat := rp1PadOff (rp1GpioBank pin) (rp1GpioPinInBank pin)

/-- A store to SYS_RIO, at whichever alias the offset is of. -/
def rioStore (rio : Nat → U32) (off : Nat) (val : U32) : Nat → U32 :=
  let rw := off / 0x4000 * 0x4000 + off % 0x1000
  update rio rw
    (if off % 0x4000 / 0x1000 = 0 then val
    else if off % 0x4000 / 0x1000 = 1 then rio rw ^^^ val
    else if off % 0x4000 / 0x1000 = 2 then rio rw ||| val
    else rio rw &&& ~~~val)

/-! ## Accessors -/

section Accessors

variable (sc : Rp1GpioSoftc)

/-- `rp1_io_read(sc, pin)`. -/
def rp1IoRead (pin : U32) : U32 × Rp1GpioSoftc := (sc.io (ctrlOff pin), sc.access .io (ctrlOff pin))

/-- `rp1_io_write(sc, pin, val)`. -/
def rp1IoWrite (pin val : U32) : Rp1GpioSoftc :=
  { sc.access .io (ctrlOff pin) with io := update sc.io (ctrlOff pin) val }

/-- `rp1_rio_read(sc, bank, alias, reg)`; the driver reads at the RW alias only. -/
def rp1RioRead (bank al reg : Nat) : U32 × Rp1GpioSoftc :=
  (sc.rio (rp1RioOff bank al reg), sc.access .rio (rp1RioOff bank al reg))

/-- `rp1_rio_write(sc, bank, alias, reg, val)`. -/
def rp1RioWrite (bank al reg : Nat) (val : U32) : Rp1GpioSoftc :=
  { sc.access .rio (rp1RioOff bank al reg) with rio := rioStore sc.rio (rp1RioOff bank al reg) val }

/-- `rp1_pad_read(sc, pin)`. -/
def rp1PadRead (pin : U32) : U32 × Rp1GpioSoftc := (sc.pad (padOff pin), sc.access .pad (padOff pin))

/-- `rp1_pad_write(sc, pin, val)`. -/
def rp1PadWrite (pin val : U32) : Rp1GpioSoftc :=
  { sc.access .pad (padOff pin) with pad := update sc.pad (padOff pin) val }

end Accessors

/-! ## The methods -/

/-- `1u << RP1_GPIO_PIN_IN_BANK(pin)`. -/
def pinBit (pin : U32) : U32 := BitVec.twoPow 32 (rp1GpioPinInBank pin)

/-- `rp1_gpio_pin_getflags(dev, pin, flags)`, with what it stores through the pointer. -/
def rp1GpioPinGetflags (sc : Rp1GpioSoftc) (pin : U32) : Errno × Option U32 × Rp1GpioSoftc :=
  if pin ≥ rp1NumGpios then (einval, none, sc)
  else
    let ctrl := rp1IoRead sc pin
    let funcsel := ctrl.1 &&& rp1CtrlFuncselMask
    if funcsel = rp1FselGpio then
      let oe := rp1RioRead ctrl.2 (rp1GpioBank pin) rp1RioRw rp1RioOe
      let flags := if oe.1 &&& pinBit pin ≠ 0 then gpioPinOutput else gpioPinInput
      (0, some flags, oe.2.setFlags pin flags)
    else (0, some 0, ctrl.2.setFlags pin 0)

/-- `rp1_gpio_pin_setflags(dev, pin, flags)`. -/
def rp1GpioPinSetflags (sc : Rp1GpioSoftc) (pin flags : U32) : Errno × Rp1GpioSoftc :=
  if pin ≥ rp1NumGpios then (einval, sc)
  else if flags &&& (gpioPinInput ||| gpioPinOutput) = 0 then (0, sc)
  else
    let bank := rp1GpioBank pin
    let bit := pinBit pin
    let ctrl := rp1IoRead sc pin
    let val := ctrl.1 &&& ~~~(rp1CtrlFuncselMask ||| rp1CtrlOutoverMask ||| rp1CtrlOeoverMask)
    let sc := rp1IoWrite ctrl.2 pin (val ||| rp1FselGpio)
    let sc :=
      if flags &&& gpioPinOutput ≠ 0 then rp1RioWrite sc bank rp1RioSet rp1RioOe bit
      else rp1RioWrite sc bank rp1RioClr rp1RioOe bit
    let pad := rp1PadRead sc pin
    let sc := rp1PadWrite pad.2 pin (pad.1 ||| rp1PadIe)
    (0, sc.setFlags pin (flags &&& (gpioPinInput ||| gpioPinOutput ||| gpioPinPullup ||| gpioPinPulldown)))

/-- `rp1_gpio_pin_get(dev, pin, val)`, with what it stores through the pointer. -/
def rp1GpioPinGet (sc : Rp1GpioSoftc) (pin : U32) : Errno × Option U32 × Rp1GpioSoftc :=
  if pin ≥ rp1NumGpios then (einval, none, sc)
  else
    let val := rp1RioRead sc (rp1GpioBank pin) rp1RioRw rp1RioInSync
    (0, some (val.1 >>> rp1GpioPinInBank pin &&& 1), val.2)

/-- `rp1_gpio_pin_set(dev, pin, val)`. -/
def rp1GpioPinSet (sc : Rp1GpioSoftc) (pin val : U32) : Errno × Rp1GpioSoftc :=
  if pin ≥ rp1NumGpios then (einval, sc)
  else
    (0, rp1RioWrite sc (rp1GpioBank pin) (if val ≠ 0 then rp1RioSet else rp1RioClr) rp1RioOut (pinBit pin))

/-- `rp1_gpio_pin_toggle(dev, pin)`. -/
def rp1GpioPinToggle (sc : Rp1GpioSoftc) (pin : U32) : Errno × Rp1GpioSoftc :=
  if pin ≥ rp1NumGpios then (einval, sc)
  else (0, rp1RioWrite sc (rp1GpioBank pin) rp1RioXor rp1RioOut (pinBit pin))

/-! ## Offsets -/

variable {pin p : U32}

theorem bank_cases (pin : U32) :
    rp1GpioBank pin = 0 ∧ rp1GpioPinInBank pin = pin.toNat ∧ pin.toNat < 28 ∨
      rp1GpioBank pin = 1 ∧ rp1GpioPinInBank pin + 28 = pin.toNat ∧ pin.toNat < 34 ∨
      rp1GpioBank pin = 2 ∧ rp1GpioPinInBank pin + 34 = pin.toNat := by
  unfold rp1GpioBank rp1GpioPinInBank
  by_cases h : pin < 28
  · rw [if_pos h, if_pos h]
    exact .inl ⟨rfl, rfl, h⟩
  · have hn : 28 ≤ pin.toNat := BitVec.not_lt.1 h
    rw [if_neg h, if_neg h]
    by_cases h' : pin < 34
    · rw [if_pos h', if_pos h']
      exact .inr (.inl ⟨rfl, Nat.sub_add_cancel hn, h'⟩)
    · have hn' : 34 ≤ pin.toNat := BitVec.not_lt.1 h'
      rw [if_neg h', if_neg h']
      exact .inr (.inr ⟨rfl, Nat.sub_add_cancel hn'⟩)

theorem bank_lt (pin : U32) : rp1GpioBank pin < 3 := by
  have h := bank_cases pin
  omega

theorem pinInBank_lt (h : pin < rp1NumGpios) : rp1GpioPinInBank pin < 28 := by
  have h54 : pin.toNat < 54 := h
  have hc := bank_cases pin
  omega

/-- The bank and the index in the bank give the pin. -/
theorem pin_inj (h : rp1GpioBank pin = rp1GpioBank p) (h' : rp1GpioPinInBank pin = rp1GpioPinInBank p) : pin = p := by
  have hc := bank_cases pin
  have hc' := bank_cases p
  exact BitVec.eq_of_toNat_eq (by omega)

/-- The CTRL registers of the pins are all different. -/
theorem ctrlOff_inj (hpin : pin < rp1NumGpios) (hp : p < rp1NumGpios) : ctrlOff pin = ctrlOff p ↔ pin = p := by
  refine ⟨fun h => ?_, fun h => h ▸ rfl⟩
  have hi := pinInBank_lt hpin
  have hj := pinInBank_lt hp
  unfold ctrlOff rp1BankOffset rp1IoCtrl at h
  exact pin_inj (by omega) (by omega)

/-- So are the pad registers. -/
theorem padOff_inj (hpin : pin < rp1NumGpios) (hp : p < rp1NumGpios) : padOff pin = padOff p ↔ pin = p := by
  refine ⟨fun h => ?_, fun h => h ▸ rfl⟩
  have hi := pinInBank_lt hpin
  have hj := pinInBank_lt hp
  unfold padOff rp1PadOff rp1BankOffset at h
  exact pin_inj (by omega) (by omega)

end Gpio
