import Mathlib.Logic.Function.Basic

/-!
# The cooling fan

`rpi5.c` samples the CPU temperature once a second, chooses one of five fan levels and programs the level's speed into a
PWM channel, through `bcm2712.c`.
-/

namespace Fan

/-- A `int` error return: `0` is success. -/
abbrev Errno := Nat

def enodev : Errno := 19
def einval : Errno := 22

/-! ## The PWM channels of `bcm2712.c` -/

def bcm2712PwmNchannels : UInt32 := 4
def rp1PwmClkPeriodNs : UInt32 := 163
def rp1PwmGlobalCtrl : UInt32 := 0x000
def rp1PwmChanCtrl (x : UInt32) : UInt32 := 0x014 + x * 16
def rp1PwmRange (x : UInt32) : UInt32 := 0x018 + x * 16
def rp1PwmDuty (x : UInt32) : UInt32 := 0x020 + x * 16
def rp1PwmChanDefault : UInt32 := 0x101
def rp1PwmChanEnable (x : UInt32) : UInt32 := (1 : UInt32) <<< x
def rp1PwmPolarity : UInt32 := (1 : UInt32) <<< 3
def rp1PwmSetUpdate : UInt32 := (1 : UInt32) <<< 31

/-- `struct bcm2712_pwm_channel`. -/
structure Bcm2712PwmChannel where
  period : UInt32
  dutyA : UInt32
  enabled : Bool

/-- The PWM part of `struct bcm2712_softc`; `base off` is the register at byte offset `off` of `pwm_vaddr`. -/
structure Bcm2712Softc where
  pwmMapped : Bool
  base : UInt32 → UInt32
  channels : UInt32 → Bcm2712PwmChannel

def Bcm2712Softc.wr (sc : Bcm2712Softc) (off v : UInt32) : Bcm2712Softc :=
  { sc with base := Function.update sc.base off v }

/-- Nanoseconds in PWM clock cycles. -/
def pwmTicks (ns : UInt32) : UInt32 := (ns + rp1PwmClkPeriodNs / 2) / rp1PwmClkPeriodNs

/-- `bcm2712_pwm_set_config(channel, period_ns, duty_ns)`; `none` is a NULL `bcm2712_sc`. -/
def bcm2712PwmSetConfig (sc : Option Bcm2712Softc) (channel periodNs dutyNs : UInt32) :
    Errno × Option Bcm2712Softc :=
  if channel ≥ bcm2712PwmNchannels then (einval, sc)
  else
    match sc with
    | none => (enodev, none)
    | some sc =>
      if !sc.pwmMapped then (enodev, some sc)
      else
        let range := pwmTicks periodNs
        let duty := pwmTicks dutyNs
        let chanCtrl := sc.base (rp1PwmChanCtrl channel) &&& ~~~0x1ff ||| (rp1PwmChanDefault ||| rp1PwmPolarity)
        let sc := sc.wr (rp1PwmChanCtrl channel) chanCtrl
        let sc := sc.wr (rp1PwmDuty channel) duty
        let sc := sc.wr (rp1PwmRange channel) range
        let sc := sc.wr rp1PwmGlobalCtrl (sc.base rp1PwmGlobalCtrl ||| rp1PwmSetUpdate)
        let chan := { sc.channels channel with period := periodNs, dutyA := dutyNs }
        (0, some { sc with channels := Function.update sc.channels channel chan })

/-- `bcm2712_pwm_enable(channel, enable)`. -/
def bcm2712PwmEnable (sc : Option Bcm2712Softc) (channel : UInt32) (enable : Bool) : Errno × Option Bcm2712Softc :=
  if channel ≥ bcm2712PwmNchannels then (einval, sc)
  else
    match sc with
    | none => (enodev, none)
    | some sc =>
      if !sc.pwmMapped then (enodev, some sc)
      else
        let chan := { sc.channels channel with enabled := enable }
        let sc := { sc with channels := Function.update sc.channels channel chan }
        let gctrl := sc.base rp1PwmGlobalCtrl
        let gctrl :=
          if enable then gctrl ||| rp1PwmChanEnable channel else gctrl &&& ~~~rp1PwmChanEnable channel
        (0, some (sc.wr rp1PwmGlobalCtrl (gctrl ||| rp1PwmSetUpdate)))

/-! ## The fan of `rpi5.c` -/

/-- `struct rpi5_cooling_fan`, with the defaults of `cooling_fan`; `calloutArmed` says that `thermal_callout` is
scheduled. -/
structure CoolingFan where
  pwmChannel : UInt32 := 3
  fanTemp0 : UInt32 := 50000
  fanTemp1 : UInt32 := 60000
  fanTemp2 : UInt32 := 67500
  fanTemp3 : UInt32 := 75000
  fanTemp0Hyst : UInt32 := 5000
  fanTemp1Hyst : UInt32 := 5000
  fanTemp2Hyst : UInt32 := 5000
  fanTemp3Hyst : UInt32 := 5000
  fanTemp0Speed : UInt32 := 75
  fanTemp1Speed : UInt32 := 125
  fanTemp2Speed : UInt32 := 175
  fanTemp3Speed : UInt32 := 250
  fanCurrentState : UInt32 := 0
  fanPrevState : UInt32 := 0
  cpuTemp : UInt32 := 50000
  thermalActive : Bool := false
  calloutArmed : Bool := false

/-- `~24 kHz` in ns. -/
def period : UInt32 := 41566

/-- The level `rpi5_update_fan_state` chooses. -/
def newState (f : CoolingFan) : UInt32 :=
  let temp := f.cpuTemp
  if temp ≥ f.fanTemp3 then 4
  else if temp ≥ f.fanTemp2 ∧ (f.fanPrevState < 3 ∨ temp ≥ f.fanTemp2 - f.fanTemp2Hyst) then 3
  else if temp ≥ f.fanTemp1 ∧ (f.fanPrevState < 2 ∨ temp ≥ f.fanTemp1 - f.fanTemp1Hyst) then 2
  else if temp ≥ f.fanTemp0 ∧ (f.fanPrevState = 0 ∨ temp ≥ f.fanTemp0 - f.fanTemp0Hyst) then 1
  else 0

/-- The state part of `rpi5_update_fan_state`: the previous level is remembered on transitions only. -/
def track (f : CoolingFan) : CoolingFan :=
  if newState f ≠ f.fanCurrentState then { f with fanPrevState := f.fanCurrentState, fanCurrentState := newState f }
  else f

/-- The speed of the current level. -/
def speed (f : CoolingFan) : UInt32 :=
  match f.fanCurrentState with
  | 0 => f.fanTemp0Speed
  | 1 => f.fanTemp1Speed
  | 2 => f.fanTemp2Speed
  | 3 => f.fanTemp3Speed
  | 4 => f.fanTemp3Speed
  | _ => f.fanTemp0Speed

/-- `(speed * period) / 255`: the `int` operands are converted to `uint32_t`. -/
def dutyNs (speed : UInt32) : UInt32 := speed * period / 255

/-- A call of `bcm2712_pwm_set_config` for the fan's channel, and the speed it was computed from, if it was. -/
structure PwmCall where
  speed : Option UInt32
  periodNs : UInt32
  dutyNs : UInt32

/-- `cooling_fan`, `bcm2712_sc`, and the calls of `bcm2712_pwm_set_config` so far. -/
structure System where
  fan : CoolingFan
  sc : Option Bcm2712Softc
  calls : List PwmCall

namespace System

/-- `bcm2712_pwm_set_config` and `bcm2712_pwm_enable` for the fan's channel. -/
def program (s : System) (c : PwmCall) : System :=
  let sc := (bcm2712PwmSetConfig s.sc s.fan.pwmChannel c.periodNs c.dutyNs).2
  { s with sc := (bcm2712PwmEnable sc s.fan.pwmChannel true).2, calls := s.calls ++ [c] }

/-- `rpi5_update_fan_state()`: the PWM is programmed on every call, not only on transitions. -/
def rpi5UpdateFanState (s : System) : System :=
  let s := { s with fan := track s.fan }
  s.program ⟨some (speed s.fan), period, dutyNs (speed s.fan)⟩

/-- `rpi5_thermal_tick()`; `reading` is what `bcm2712_read_cpu_temp` gives, `none` if it fails. -/
def rpi5ThermalTick (s : System) (reading : Option UInt32) : System :=
  let s := { s with fan := { s.fan with cpuTemp := reading.getD s.fan.cpuTemp } }
  let s := s.rpi5UpdateFanState
  { s with fan := { s.fan with calloutArmed := s.fan.thermalActive } }

/-- `MOD_LOAD` of `rpi5_modevent`: the fan is programmed off before the first tick. -/
def rpi5ModLoad (sc : Option Bcm2712Softc) : System :=
  let s := program ⟨{}, sc, []⟩ ⟨none, period, 0⟩
  { s with fan := { s.fan with thermalActive := true, calloutArmed := true } }

end System

/-! ## Temperatures by level -/

/-- `fan_temp0` to `fan_temp3`. -/
def fanTemp (f : CoolingFan) : Fin 4 → UInt32
  | 0 => f.fanTemp0
  | 1 => f.fanTemp1
  | 2 => f.fanTemp2
  | 3 => f.fanTemp3

/-- `fan_temp0_hyst` to `fan_temp3_hyst`. -/
def fanTempHyst (f : CoolingFan) : Fin 4 → UInt32
  | 0 => f.fanTemp0Hyst
  | 1 => f.fanTemp1Hyst
  | 2 => f.fanTemp2Hyst
  | 3 => f.fanTemp3Hyst

end Fan
