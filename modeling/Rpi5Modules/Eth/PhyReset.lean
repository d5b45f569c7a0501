import Mathlib.Tactic.IntervalCases
import Rpi5Modules.Gpio.Pins

/-!
# The reset line of the PHY

`rp1_eth_phy_reset` resets the PHY through a GPIO: it forces the pin low and then high with the override fields of its
CTRL register, and makes the pad of GPIO 32 push-pull. It shares these registers with `rp1_gpio.c`, whose
`rp1_gpio_pin_setflags` clears the override fields of the pin it is called for.

So the line is high until somebody configures the pin, whatever else is done with the pins; from then on it follows what
the pin methods put into SIO (`reset_line`).
-/

namespace Eth

open Gpio Function Components

def rp1GpioOutoverMask : U32 := 3 <<< 12
def rp1GpioOutoverLow : U32 := 2 <<< 12
def rp1GpioOutoverHigh : U32 := 3 <<< 12
def rp1GpioOeoverMask : U32 := 3 <<< 14
def rp1GpioOeoverForceEn : U32 := 3 <<< 14

/-- The offset of the pad of GPIO 32 in the window of `rp1_gpio.c`: bank 1, and 0x14 in it. -/
def rp1Gpio32PadOffset : Nat := 0x4000 + 0x14

def rp1PadOd : U32 := 1 <<< 7
def rp1PadPushpullHighIe : U32 := 0x57

/-- `ctrl_val` while the reset is asserted. -/
def assertCtrl (ctrl : U32) : U32 :=
  ctrl &&& ~~~(rp1GpioOutoverMask ||| rp1GpioOeoverMask) ||| (rp1GpioOeoverForceEn ||| rp1GpioOutoverLow)

/-- `ctrl_val` when it is released. -/
def releaseCtrl (ctrl : U32) : U32 := ctrl &&& ~~~rp1GpioOutoverMask ||| rp1GpioOutoverHigh

/-- `rp1_eth_phy_reset(sc)`: the registers in the pulse and after it; `pads` and `gpio` say whether the windows can be
mapped. -/
def rp1EthPhyReset (sc : Rp1GpioSoftc) (pads gpio : Bool) (gpioPin : U32) : Rp1GpioSoftc × Rp1GpioSoftc :=
  let sc := if pads then { sc with pad := update sc.pad rp1Gpio32PadOffset rp1PadPushpullHighIe } else sc
  if !gpio then (sc, sc)
  else
    let ctrlVal := assertCtrl (sc.io (ctrlOff gpioPin))
    let pulse := { sc with io := update sc.io (ctrlOff gpioPin) ctrlVal }
    (pulse, { pulse with io := update pulse.io (ctrlOff gpioPin) (releaseCtrl ctrlVal) })

/-- An override field: the signal itself, its inverse, or a fixed level. -/
def override (field : U32) (signal : Bool) : Bool :=
  if field = 0 then signal
  else if field = 1 then !signal
  else field = 3

/-- Output enable and output in front of the override: those of SIO, or those of the peripheral that is selected. -/
def signals (per : Bool × Bool) (x : Pin) : Bool × Bool :=
  if x.ctrl &&& rp1CtrlFuncselMask = rp1FselGpio then (x.oe, x.out) else per

/-- The level the pin drives its line to, if it does: an open-drain pad leaves a high output to others. -/
def level (per : Bool × Bool) (x : Pin) : Option Bool :=
  if override ((x.ctrl &&& rp1GpioOeoverMask) >>> 14) (signals per x).1 then
    if override ((x.ctrl &&& rp1GpioOutoverMask) >>> 12) (signals per x).2 then
      if x.pad &&& rp1PadOd = 0 then some true else none
    else some false
  else none

/-- What a call makes of the pin's bit in OUT. -/
def outBit (p : U32) (out : Bool) : Call → Bool
  | .set pin val => if pin = p then val ≠ 0 else out
  | .toggle pin => if pin = p then !out else out
  | .setflags _ _ | .getflags _ | .get _ => out

/-- The line of a pin configured in a direction, by its bit in OUT. -/
def configuredLevel (dir : U32) (out : Bool) : Option Bool := if dir = gpioPinOutput then some out else none

/-! ## The override fields -/

section Fields

variable (ctrl : U32)

theorem assertCtrl_fields : assertCtrl ctrl &&& rp1GpioOeoverMask = rp1GpioOeoverForceEn ∧
    assertCtrl ctrl &&& rp1GpioOutoverMask = rp1GpioOutoverLow := by
  constructor
  all_goals
    apply BitVec.eq_of_getLsbD_eq
    intro i hi
    simp only [assertCtrl, rp1GpioOeoverMask, rp1GpioOeoverForceEn, rp1GpioOutoverMask, rp1GpioOutoverLow]
    interval_cases i <;> simp

theorem releaseCtrl_fields (h : ctrl &&& rp1GpioOeoverMask = rp1GpioOeoverForceEn) :
    releaseCtrl ctrl &&& rp1GpioOeoverMask = rp1GpioOeoverForceEn ∧
      releaseCtrl ctrl &&& rp1GpioOutoverMask = rp1GpioOutoverHigh := by
  constructor
  · unfold releaseCtrl
    rw [BitVec.and_or_distrib_right, BitVec.and_assoc,
      show ~~~rp1GpioOutoverMask &&& rp1GpioOeoverMask = rp1GpioOeoverMask by decide, h]
    decide
  · apply BitVec.eq_of_getLsbD_eq
    intro i hi
    simp only [releaseCtrl, rp1GpioOutoverMask, rp1GpioOutoverHigh]
    interval_cases i <;> simp

/-- Nothing else of CTRL changes. -/
theorem ctrl_kept : assertCtrl ctrl &&& ~~~(rp1GpioOutoverMask ||| rp1GpioOeoverMask) =
      ctrl &&& ~~~(rp1GpioOutoverMask ||| rp1GpioOeoverMask) ∧
    releaseCtrl (assertCtrl ctrl) &&& ~~~(rp1GpioOutoverMask ||| rp1GpioOeoverMask) =
      ctrl &&& ~~~(rp1GpioOutoverMask ||| rp1GpioOeoverMask) := by
  constructor
  all_goals
    apply BitVec.eq_of_getLsbD_eq
    intro i hi
    simp only [releaseCtrl, assertCtrl, rp1GpioOeoverMask, rp1GpioOeoverForceEn, rp1GpioOutoverMask, rp1GpioOutoverLow,
      rp1GpioOutoverHigh]
    interval_cases i <;> simp

end Fields

/-! ## The line -/

section Line

variable {x : Pin} {p : U32} {sc : Rp1GpioSoftc} (per : Bool × Bool)

theorem level_low (h : x.ctrl &&& rp1GpioOeoverMask = rp1GpioOeoverForceEn ∧
    x.ctrl &&& rp1GpioOutoverMask = rp1GpioOutoverLow) : level per x = some false := by
  have hen : ∀ b, override (rp1GpioOeoverForceEn >>> 14) b = true := by decide
  have hlow : ∀ b, override (rp1GpioOutoverLow >>> 12) b = false := by decide
  simp [level, h.1, h.2, hen, hlow]

theorem level_high (h : x.ctrl &&& rp1GpioOeoverMask = rp1GpioOeoverForceEn ∧
    x.ctrl &&& rp1GpioOutoverMask = rp1GpioOutoverHigh) (hx : x.pad &&& rp1PadOd = 0) : level per x = some true := by
  have hen : ∀ b, override (rp1GpioOeoverForceEn >>> 14) b = true := by decide
  have hhigh : ∀ b, override (rp1GpioOutoverHigh >>> 12) b = true := by decide
  simp [level, h.1, h.2, hen, hhigh, hx]

/-- A pin that has been configured has no overrides, and SIO drives it. -/
theorem level_configured (ctrl : U32)
    (h : x.ctrl = ctrl &&& ~~~(rp1CtrlFuncselMask ||| rp1CtrlOutoverMask ||| rp1CtrlOeoverMask) ||| rp1FselGpio)
    (hx : x.pad &&& rp1PadOd = 0) : level per x = if x.oe = true then some x.out else none := by
  have hclear : ∀ mask, ~~~(rp1CtrlFuncselMask ||| rp1CtrlOutoverMask ||| rp1CtrlOeoverMask) &&& mask = 0 →
      rp1FselGpio &&& mask = 0 → x.ctrl &&& mask = 0 := by
    intro mask hmask hfsel
    rw [h, BitVec.and_or_distrib_right, BitVec.and_assoc, hmask, hfsel]
    simp
  have hoe : x.ctrl &&& rp1GpioOeoverMask = 0 := hclear _ rfl rfl
  have hout : x.ctrl &&& rp1GpioOutoverMask = 0 := hclear _ rfl rfl
  have hsio : signals per x = (x.oe, x.out) := if_pos (by rw [h]; exact funcsel_set ctrl)
  unfold level
  rw [hoe, hout, hsio]
  cases x.oe <;> cases x.out <;> simp [override, hx]

/-- The line as it would be with that bit in OUT and a push-pull pad. -/
def lineOf (x : Pin) (out : Bool) : Option Bool := level per { x with out := out, pad := 0 }

theorem level_eq_lineOf (hx : x.pad &&& rp1PadOd = 0) : level per x = lineOf per x x.out := by
  unfold lineOf level
  rw [hx]
  simp [signals]

/-- Only an effective call of `rp1_gpio_pin_setflags` changes how the line follows OUT. -/
theorem lineOf_exec (hp : p < rp1NumGpios) (sc : Rp1GpioSoftc) (c : Call) :
    lineOf per ((exec sc c).pin p) = ((c.direction p).map configuredLevel).getD (lineOf per (sc.pin p)) := by
  rw [pin_exec hp]
  cases c with
  | setflags q flags =>
    unfold Call.pin Call.direction
    dsimp only
    by_cases hq : q = p
    · by_cases hf : flags &&& (gpioPinInput ||| gpioPinOutput) = 0
      · rw [if_pos hq, if_neg fun h => h.2 hf]
        exact congrArg (lineOf per) (if_pos hf)
      · have hstep : (sc.pin p).step (.setflags q flags) = _ := if_neg hf
        rw [if_pos hq, if_pos ⟨hq, hf⟩, hstep]
        funext out
        unfold lineOf
        rw [level_configured per _ rfl (BitVec.zero_and)]
        by_cases hdir : flags &&& gpioPinOutput = 0#32
        · have hne : ¬gpioPinInput = gpioPinOutput := by decide
          simp [configuredLevel, hdir, hne]
        · simp [configuredLevel, hdir]
    · rw [if_neg hq, if_neg fun h => hq h.1]
      rfl
  | getflags q | get q | set q v | toggle q =>
    unfold Call.direction
    split <;> rfl

theorem out_exec (hp : p < rp1NumGpios) (sc : Rp1GpioSoftc) (c : Call) :
    ((exec sc c).pin p).out = outBit p (sc.pin p).out c := by
  rw [pin_exec hp]
  cases c with
  | setflags q flags =>
    unfold Pin.step outBit
    dsimp only
    split
    · split <;> rfl
    · rfl
  | getflags q | get q | set q v | toggle q =>
    unfold Call.pin Pin.step outBit
    dsimp only
    split <;> rfl

/-- A call leaves of the pad what input enable is not. -/
theorem pad_exec (hp : p < rp1NumGpios) (sc : Rp1GpioSoftc) (c : Call) :
    ((exec sc c).pin p).pad = (sc.pin p).pad ∨ ((exec sc c).pin p).pad = (sc.pin p).pad ||| rp1PadIe := by
  rw [pin_exec hp]
  by_cases hc : c.pin = p
  · rw [if_pos hc]
    cases c with
    | setflags q flags =>
      unfold Pin.step
      dsimp only
      split
      · exact .inl rfl
      · exact .inr rfl
    | _ => exact .inl rfl
  · rw [if_neg hc]
    exact .inl rfl

/-- So what holds of the pad and allows for input enable goes on holding. -/
theorem pad_foldl (hp : p < rp1NumGpios) {P : U32 → Prop} (hP : ∀ pad, P pad → P (pad ||| rp1PadIe)) (calls : List Call)
    (h : P (sc.pin p).pad) : P ((calls.foldl exec sc).pin p).pad := by
  induction calls generalizing sc with
  | nil => exact h
  | cons c calls ih =>
    apply ih
    rcases pad_exec hp sc c with heq | heq
    · rw [heq]
      exact h
    · rw [heq]
      exact hP _ h

/-- The line after any calls. -/
theorem level_foldl (hp : p < rp1NumGpios) (calls : List Call) (h : (sc.pin p).pad &&& rp1PadOd = 0)
    (hhigh : ∀ out, lineOf per (sc.pin p) out = some true) : level per ((calls.foldl exec sc).pin p) =
      match last (Call.direction p) calls with
      | none => some true
      | some dir => configuredLevel dir (calls.foldl (outBit p) (sc.pin p).out) := by
  have hod : ∀ pad : U32, pad &&& rp1PadOd = 0 → (pad ||| rp1PadIe) &&& rp1PadOd = 0 := by
    intro pad hpad
    rw [BitVec.and_or_distrib_right, hpad]
    decide
  have hline := get_foldl (fun sc : Rp1GpioSoftc => lineOf per (sc.pin p)) (lineOf_exec per hp) calls sc
  have hout : ((calls.foldl exec sc).pin p).out = calls.foldl (outBit p) (sc.pin p).out :=
    (List.foldl_hom (fun sc : Rp1GpioSoftc => (sc.pin p).out) fun sc c => (out_exec hp sc c).symm).symm
  rw [level_eq_lineOf per (pad_foldl (P := fun pad => pad &&& rp1PadOd = 0) hp hod calls h), hline, hout, last_map]
  cases last (Call.direction p) calls with
  | none => exact hhigh _
  | some dir => rfl

/-- The registers of every pin, in the pulse and after it. -/
theorem reset_pins (sc : Rp1GpioSoftc) (pads : Bool) (hp : p < rp1NumGpios) (q : U32) (hq : q < rp1NumGpios) :
    (rp1EthPhyReset sc pads true p).1.pin q = { sc.pin q with
      ctrl := if q = p then assertCtrl (sc.pin q).ctrl else (sc.pin q).ctrl
      pad := if pads = true ∧ q = 32 then rp1PadPushpullHighIe else (sc.pin q).pad } ∧
    (rp1EthPhyReset sc pads true p).2.pin q = { sc.pin q with
      ctrl := if q = p then releaseCtrl (assertCtrl (sc.pin q).ctrl) else (sc.pin q).ctrl
      pad := if pads = true ∧ q = 32 then rp1PadPushpullHighIe else (sc.pin q).pad } := by
  have hq32 : padOff q = rp1Gpio32PadOffset ↔ q = 32 := by
    rw [show rp1Gpio32PadOffset = padOff 32 by decide]
    exact padOff_inj hq (by decide)
  have hpad : (if pads = true then update sc.pad rp1Gpio32PadOffset rp1PadPushpullHighIe else sc.pad) (padOff q) =
      if pads = true ∧ q = 32 then rp1PadPushpullHighIe else sc.pad (padOff q) := by
    cases pads with
    | false => rfl
    | true => simp [update_apply, hq32]
  have hctrl : ∀ val, update sc.io (ctrlOff p) val (ctrlOff q) = if q = p then val else sc.io (ctrlOff q) := by
    intro val
    simp only [update_apply, ctrlOff_inj hq hp]
  have hpulse : (rp1EthPhyReset sc pads true p).1 = { sc with
      pad := if pads = true then update sc.pad rp1Gpio32PadOffset rp1PadPushpullHighIe else sc.pad
      io := update sc.io (ctrlOff p) (assertCtrl (sc.io (ctrlOff p))) } := by
    cases pads <;> rfl
  have hafter : (rp1EthPhyReset sc pads true p).2 = { sc with
      pad := if pads = true then update sc.pad rp1Gpio32PadOffset rp1PadPushpullHighIe else sc.pad
      io := update sc.io (ctrlOff p) (releaseCtrl (assertCtrl (sc.io (ctrlOff p)))) } := by
    cases pads <;> simp [rp1EthPhyReset]
  rw [hpulse, hafter]
  unfold Rp1GpioSoftc.pin
  dsimp only
  rw [hpad, hctrl, hctrl]
  by_cases h : q = p <;> simp [h]

/-- **The reset line.** `per` is what the peripherals do meanwhile. A pin with a push-pull pad, as GPIO 32 gets one,
drives its line low in the pulse and high behind it, whatever its registers held. Of all pins the overrides of this one
and the pad of GPIO 32 have changed. Whatever is then done with the pins, the line stays high until the pin is
configured; from then on it is not driven, as an input, or follows the pin's bit in OUT. The pad of GPIO 32 stays
push-pull. -/
theorem reset_line (sc : Rp1GpioSoftc) (pads : Bool) (hp : p < rp1NumGpios)
    (hpad : pads = true ∧ p = 32 ∨ (sc.pin p).pad &&& rp1PadOd = 0) :
    (level per ((rp1EthPhyReset sc pads true p).1.pin p) = some false ∧
      level per ((rp1EthPhyReset sc pads true p).2.pin p) = some true) ∧
    (∀ q, q < rp1NumGpios →
      (rp1EthPhyReset sc pads true p).1.pin q = { sc.pin q with
        ctrl := if q = p then assertCtrl (sc.pin q).ctrl else (sc.pin q).ctrl
        pad := if pads = true ∧ q = 32 then rp1PadPushpullHighIe else (sc.pin q).pad } ∧
      (rp1EthPhyReset sc pads true p).2.pin q = { sc.pin q with
        ctrl := if q = p then releaseCtrl (assertCtrl (sc.pin q).ctrl) else (sc.pin q).ctrl
        pad := if pads = true ∧ q = 32 then rp1PadPushpullHighIe else (sc.pin q).pad }) ∧
    (assertCtrl (sc.pin p).ctrl &&& ~~~(rp1GpioOutoverMask ||| rp1GpioOeoverMask) =
        (sc.pin p).ctrl &&& ~~~(rp1GpioOutoverMask ||| rp1GpioOeoverMask) ∧
      releaseCtrl (assertCtrl (sc.pin p).ctrl) &&& ~~~(rp1GpioOutoverMask ||| rp1GpioOeoverMask) =
        (sc.pin p).ctrl &&& ~~~(rp1GpioOutoverMask ||| rp1GpioOeoverMask)) ∧
    ∀ calls : List Call,
      (level per ((calls.foldl exec (rp1EthPhyReset sc pads true p).2).pin p) =
        match last (Call.direction p) calls with
        | none => some true
        | some dir => configuredLevel dir (calls.foldl (outBit p) (sc.pin p).out)) ∧
      (pads = true → ((calls.foldl exec (rp1EthPhyReset sc pads true p).2).pin 32).pad = rp1PadPushpullHighIe) := by
  obtain ⟨hpulse, hafter⟩ := reset_pins sc pads hp p hp
  have hassert := assertCtrl_fields (sc.pin p).ctrl
  have hrelease := releaseCtrl_fields _ hassert.1
  have hod : ((rp1EthPhyReset sc pads true p).2.pin p).pad &&& rp1PadOd = 0 := by
    rw [hafter]
    dsimp only
    split
    · decide
    · exact hpad.resolve_left ‹_›
  have hout : ((rp1EthPhyReset sc pads true p).2.pin p).out = (sc.pin p).out := by rw [hafter]
  have hctrl : ((rp1EthPhyReset sc pads true p).2.pin p).ctrl = releaseCtrl (assertCtrl (sc.pin p).ctrl) := by
    rw [hafter]
    simp
  refine ⟨⟨level_low per ?_, level_high per (hctrl.symm ▸ hrelease) hod⟩, reset_pins sc pads hp, ctrl_kept _, ?_⟩
  · rw [hpulse]
    simpa using hassert
  · intro calls
    refine ⟨?_, fun hpads => ?_⟩
    · rw [level_foldl per hp calls hod fun out => level_high per (hctrl.symm ▸ hrelease) BitVec.zero_and, hout]
    · apply pad_foldl (P := fun pad => pad = rp1PadPushpullHighIe) (by decide)
      · rintro _ rfl
        decide
      · rw [(reset_pins sc pads hp 32 (by decide)).2]
        exact if_pos ⟨hpads, rfl⟩

/-- GPIO 32, from what the firmware leaves: setting its bit and then making it an output keeps the line high. -/
theorem reset_line_32 :
    let sc := (rp1EthPhyReset (started (fun _ => 31) (fun _ => 0) (fun _ => 0xd6) fun _ => 0) true true 32).2
    level (false, false) (sc.pin 32) = some true ∧
      level (false, false) (([.set 32 1, .setflags 32 gpioPinOutput].foldl exec sc).pin 32) = some true ∧
      level (false, false) (([.setflags 32 gpioPinOutput, .get 32].foldl exec sc).pin 32) = some false ∧
      level (false, false) (([.set 7 0, .setflags 32 gpioPinInput].foldl exec sc).pin 32) = none := by
  have h := reset_line (false, false) (started (fun _ => 31) (fun _ => 0) (fun _ => 0xd6) fun _ => 0) true
    (p := 32) (by decide) (.inl ⟨rfl, rfl⟩)
  have hcalls := fun calls => (h.2.2.2 calls).1
  refine ⟨h.1.2, (hcalls _).trans ?_, (hcalls _).trans ?_, (hcalls _).trans ?_⟩
  · decide
  · decide
  · decide

end Line

end Eth
