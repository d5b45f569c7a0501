import Rpi5Modules.Fan.Duty
import Rpi5Modules.Fan.Levels

/-!
# From the sensor to the fan

Once a second `bcm2712_thermal_update` converts a sample of the AVS sensor to a temperature, unless the sample is not
valid, and once a second `rpi5_thermal_tick` takes the temperature as it is then, chooses a level and programs the
speed of the level. Samples, updates, ticks and writes of the `hw.rpi5.fan` variables come in any order.

The conversion is exact (`toNat_thermalReadRaw`), and so is the way from a speed to the DUTY register
(`toNat_pwmTicks_dutyNs`): after each tick the registers hold the speed of the level that the last valid sample calls
for (`cooling_loop`).
-/

namespace Fan

open Transition

/-! ## The sensor of `bcm2712.c` -/

def bcm2712TempDataMsk : UInt32 := 0x03ff
/-- `-550`, as the multiplication with a `uint32_t` takes it. -/
def bcm2712TempSlope : UInt32 := -550
def bcm2712TempOffset : UInt32 := 450000

/-- The end of `bcm2712_thermal_read_raw`: the product and the sum are `uint32_t`, the temperature is an `int32_t`. -/
def codeToMc (rawCode : UInt32) : UInt32 :=
  let tempMc := (bcm2712TempSlope * rawCode + bcm2712TempOffset).toInt32
  let tempMc := if tempMc < 0 then 0 else tempMc
  let tempMc := if tempMc > 120000 then 120000 else tempMc
  tempMc.toUInt32

/-- `bcm2712_thermal_read_raw(sc)`; `none` is a monitor that is not mapped. -/
def bcm2712ThermalReadRaw (cachedTempMc : UInt32) : Option UInt32 → UInt32
  | none => cachedTempMc
  | some rawValue =>
    if rawValue &&& 0x10000 = 0 then cachedTempMc else codeToMc (rawValue &&& bcm2712TempDataMsk)

def bcm2712ThermalRawToMillic (tempMc : UInt32) : UInt32 := tempMc

/-! ## The system -/

/-- The sensor's register, `cached_temp_mc`, and the fan with its PWM channel; `valid` is the last sample that an update
found valid. -/
structure Cooling where
  avs : Option UInt32
  cachedTempMc : UInt32
  valid : Option UInt32
  fan : System

namespace Cooling

/-- Both modules are loaded. -/
def load (avs : Option UInt32) (sc : Bcm2712Softc) : Cooling := ⟨avs, 50000, none, System.rpi5ModLoad (some sc)⟩

inductive Act where
  /-- The sensor shows a new value. -/
  | sensor (rawValue : UInt32)
  /-- `bcm2712_thermal_update`. -/
  | update
  /-- A write of a `hw.rpi5.fan` variable. -/
  | write (o : FanOid) (v : UInt32)
  /-- `rpi5_thermal_tick`, with what `bcm2712_read_cpu_temp` gives. -/
  | tick

def step (w : Cooling) : Act → Option Cooling
  | .sensor rawValue => some { w with avs := w.avs.map fun _ => rawValue }
  | .update =>
    some { w with
      cachedTempMc := bcm2712ThermalRawToMillic (bcm2712ThermalReadRaw w.cachedTempMc w.avs)
      valid := (w.avs.filter fun rawValue => rawValue &&& 0x10000 ≠ 0).or w.valid }
  | .write o v => some { w with fan := { w.fan with fan := writeOid w.fan.fan v o } }
  | .tick => (Fan.step w.fan (.tick (some w.cachedTempMc))).map fun s => { w with fan := s }

/-- The thresholds stay in order, and no speed is above 255. -/
def WriteOk (w : Cooling) : Act → Prop
  | .write o v => Ordered (writeOid w.fan.fan v o) ∧ ∀ i, o = .speed i → v ≤ 255
  | _ => True

end Cooling

/-! ## The conversions -/

section Convert

theorem toInt_line {c : UInt32} (hc : c.toNat < 1024) :
    (bcm2712TempSlope * c + bcm2712TempOffset).toInt32.toInt = 450000 - 550 * (c.toNat : Int) := by
  have hcode : c.toInt32.toInt = c.toNat := by
    show c.toBitVec.toInt = c.toNat
    rw [BitVec.toInt_eq_toNat_of_lt]
    · rfl
    · show 2 * c.toNat < 2 ^ 32
      omega
  have hslope : bcm2712TempSlope.toInt32.toInt = -550 := by decide
  have hoff : bcm2712TempOffset.toInt32.toInt = 450000 := by decide
  have hmul : (-550 * (c.toNat : Int)).bmod (2 ^ 32) = -550 * c.toNat := Int.bmod_eq_of_le (by omega) (by omega)
  rw [UInt32.toInt32_add, UInt32.toInt32_mul, Int32.toInt_add, Int32.toInt_mul, hcode, hslope, hoff, hmul,
    Int.bmod_eq_of_le (by omega) (by omega)]
  omega

theorem toInt_raise (t u : Int32) : (if t < u then u else t).toInt = max t.toInt u.toInt := by
  simp only [Int32.lt_iff_toInt_lt]
  split <;> omega

theorem toInt_lower (t u : Int32) : (if t > u then u else t).toInt = min t.toInt u.toInt := by
  simp only [gt_iff_lt, Int32.lt_iff_toInt_lt]
  split <;> omega

/-- An equation of functions: to compare the two values the kernel would count up to the offset. -/
theorem codeToMc_eq : codeToMc = fun c =>
    let t := (bcm2712TempSlope * c + bcm2712TempOffset).toInt32
    let t := if t < 0 then 0 else t
    (if t > 120000 then 120000 else t).toUInt32 := rfl

/-- The line through the calibration points, cut to the range from 0 to 120 °C. -/
theorem toNat_codeToMc {c : UInt32} (hc : c.toNat < 1024) :
    (codeToMc c).toNat = min 120000 (450000 - 550 * c.toNat) := by
  have hzero : (0 : Int32).toInt = 0 := rfl
  have hmax : (120000 : Int32).toInt = 120000 := rfl
  have hnat : ∀ u : Int32, 0 ≤ u.toInt → u.toUInt32.toNat = u.toInt.toNat := fun u hu =>
    Int32.toNat_toUInt32_of_le (Int32.le_iff_toInt_le.2 hu)
  have hline := toInt_line hc
  rw [codeToMc_eq]
  dsimp only
  generalize (bcm2712TempSlope * c + bcm2712TempOffset).toInt32 = t at hline ⊢
  have hcut : (if (if t < 0 then 0 else t) > 120000 then 120000 else if t < 0 then 0 else t : Int32).toInt =
      (min 120000 (450000 - 550 * c.toNat) : Nat) := by
    rw [toInt_lower, toInt_raise, hzero, hmax, hline]
    omega
  rw [hnat _ (hcut ▸ Int.natCast_nonneg _), hcut, Int.toNat_natCast]

/-- The temperature a sample stands for. -/
def sampleMc : Option UInt32 → Nat
  | none => 50000
  | some rawValue => min 120000 (450000 - 550 * (rawValue.toNat % 1024))

theorem toNat_thermalReadRaw {cachedTempMc : UInt32} {valid : Option UInt32}
    (h : cachedTempMc.toNat = sampleMc valid) (avs : Option UInt32) :
    (bcm2712ThermalReadRaw cachedTempMc avs).toNat =
      sampleMc ((avs.filter fun rawValue => rawValue &&& 0x10000 ≠ 0).or valid) := by
  cases avs with
  | none => exact h
  | some rawValue =>
    rw [bcm2712ThermalReadRaw]
    split
    · next hbit =>
      simpa [Option.filter, hbit] using h
    · next hbit =>
      have hmask : (rawValue &&& bcm2712TempDataMsk).toNat = rawValue.toNat % 1024 := by
        rw [UInt32.toNat_and]
        exact Nat.and_two_pow_sub_one_eq_mod rawValue.toNat 10
      have hcode : (rawValue &&& bcm2712TempDataMsk).toNat < 1024 := by
        rw [hmask]
        exact Nat.mod_lt _ (by simp)
      simp [toNat_codeToMc hcode, hmask, Option.filter, hbit, sampleMc]

/-- A duty of `speed * 41566 / 255` ns is a count of `speed` cycles. -/
theorem toNat_pwmTicks_dutyNs {v : UInt32} (hv : v ≤ 255) : (pwmTicks (dutyNs v)).toNat = v.toNat := by
  have hle : v.toNat ≤ 255 := UInt32.le_iff_toNat_le.1 hv
  have hduty := toNat_dutyNs_of_le hv
  rw [toNat_period] at hduty
  simp only [pwmTicks, UInt32.toNat_div, UInt32.toNat_add, hduty]
  show (v.toNat * 41566 / 255 + 81) % 2 ^ 32 / 163 = v.toNat
  rw [Nat.mod_eq_of_lt (by omega)]
  omega

theorem pwmTicks_period : pwmTicks period = 255 := by decide

end Convert

/-! ## The registers behind a tick -/

section Registers

variable {s : System} {c : PwmCall}

/-- The bit of a channel is set, whatever else is. -/
theorem chanEnable_set (x : UInt32) :
    (x ||| rp1PwmChanEnable 3 ||| rp1PwmSetUpdate) &&& rp1PwmChanEnable 3 = rp1PwmChanEnable 3 := by
  apply UInt32.toBitVec_inj.1
  ext i hi
  simp
  intro h
  simp [h]

/-- A mapped controller stays mapped, and the fan's channel is enabled. -/
theorem program_mapped {sc : Bcm2712Softc} (hch : s.fan.pwmChannel = 3) (hsc : s.sc = some sc)
    (hm : sc.pwmMapped = true) : ∃ sc', (s.program c).sc = some sc' ∧ sc'.pwmMapped = true ∧
      sc'.base rp1PwmGlobalCtrl &&& rp1PwmChanEnable 3 = rp1PwmChanEnable 3 := by
  have hch' : ¬(3 : UInt32) ≥ bcm2712PwmNchannels := by decide
  unfold System.program bcm2712PwmSetConfig bcm2712PwmEnable
  simp only [hch, hch', if_false, hsc, hm, Bool.not_true, Bool.false_eq_true, Bcm2712Softc.wr, if_true]
  refine ⟨_, rfl, rfl, ?_⟩
  simpa using chanEnable_set _

end Registers

/-! ## Runs -/

namespace Cooling

variable {w w' t : Cooling} {a : Act}

/-- The level is the number of thresholds that the last valid sample reaches, and the registers of the fan's channel
hold the speed of the level. -/
def Follows (w : Cooling) : Prop :=
  (∀ i : Fin 4, i + 1 ≤ w.fan.fan.fanCurrentState.toNat ↔ (fanTemp w.fan.fan i).toNat ≤ sampleMc w.valid) ∧
    w.fan.fan.fanCurrentState.toNat ≤ 4 ∧
    ∃ sc, w.fan.sc = some sc ∧ sc.base (rp1PwmRange 3) = 255 ∧ sc.base (rp1PwmDuty 3) = speed w.fan.fan ∧
      sc.base rp1PwmGlobalCtrl &&& rp1PwmChanEnable 3 = rp1PwmChanEnable 3

/-- What `rpi5.c` keeps of its fan. -/
structure FanReady (f : CoolingFan) : Prop where
  channel : f.pwmChannel = 3
  active : f.thermalActive = true
  armed : f.calloutArmed = true
  ordered : Ordered f
  speeds : ∀ i, fanTempSpeed f i ≤ 255

/-- The invariant. -/
structure Sound (w : Cooling) : Prop where
  temp : w.cachedTempMc.toNat = sampleMc w.valid
  fan : FanReady w.fan.fan
  mapped : ∃ sc, w.fan.sc = some sc ∧ sc.pwmMapped = true

/-- It does not depend on the sample and the levels. -/
theorem FanReady.congr {f g : CoolingFan} (h : FanReady f) (hsame : SameTemps f g) (hch : g.pwmChannel = f.pwmChannel)
    (hact : g.thermalActive = f.thermalActive) (harm : g.calloutArmed = f.calloutArmed)
    (hspeed : fanTempSpeed g = fanTempSpeed f) : FanReady g :=
  ⟨hch.trans h.channel, hact.trans h.active, harm.trans h.armed, hsame.ordered h.ordered, fun i => by
    rw [hspeed]
    exact h.speeds i⟩

theorem fanReady_track {f : CoolingFan} (h : FanReady f) : FanReady (track f) := by
  unfold track
  split
  · exact h.congr ⟨rfl, rfl⟩ rfl rfl rfl rfl
  · exact h

theorem fanReady_write {f : CoolingFan} (h : FanReady f) {o : FanOid} {v : UInt32} (ho : Ordered (writeOid f v o))
    (hv : ∀ i, o = .speed i → v ≤ 255) : FanReady (writeOid f v o) := by
  obtain ⟨hch, hact, harm⟩ := writeOid_rest (f := f) v o
  refine ⟨hch.trans h.channel, hact.trans h.active, harm.trans h.armed, ho, fun i => ?_⟩
  rcases fanTempSpeed_write (f := f) v o i with ⟨hs, rfl⟩ | hs
  · rw [hs]
    exact hv i rfl
  · rw [hs]
    exact h.speeds i

theorem newState_le (f : CoolingFan) : (newState f).toNat ≤ 4 := by
  unfold newState
  dsimp only
  repeat' split
  all_goals simp

/-- **A tick** is due, and programs what the last valid sample calls for. -/
theorem tick_follows (h : Sound w) : ∃ t, step w .tick = some t ∧ Sound t ∧ t.valid = w.valid ∧ Follows t := by
  obtain ⟨sc, hsc, hm⟩ := h.mapped
  let f : CoolingFan := { w.fan.fan with cpuTemp := w.cachedTempMc }
  let c : PwmCall := ⟨some (speed (track f)), period, dutyNs (speed (track f))⟩
  let s : System := { w.fan with fan := track f }
  have hf : FanReady f := h.fan.congr ⟨rfl, rfl⟩ rfl rfl rfl rfl
  have htrack := fanReady_track hf
  obtain ⟨sc', hsc', hm', hen⟩ := program_mapped (s := s) (c := c) htrack.channel hsc hm
  obtain ⟨hduty, hrange⟩ := program_regs (s := s) (c := c) htrack.channel hsc' hm'
  obtain ⟨i, hi⟩ := speed_mem (track f)
  have hstep : step w .tick =
      some { w with fan := { s.program c with fan := { track f with calloutArmed := (track f).thermalActive } } } := by
    show (if w.fan.fan.calloutArmed then _ else _ : Option System).map _ = _
    rw [if_pos h.fan.armed]
    rfl
  refine ⟨_, hstep, ⟨h.temp, ?_, sc', hsc', hm'⟩, rfl, ?_, ?_, sc', hsc', ?_, ?_, hen⟩
  · exact htrack.congr ⟨rfl, rfl⟩ rfl rfl (htrack.active.trans htrack.armed.symm) rfl
  · intro j
    show j + 1 ≤ (track f).fanCurrentState.toNat ↔ (fanTemp (track f) j).toNat ≤ sampleMc w.valid
    rw [track_state, (sameTemps_track f).temp, succ_le_newState hf.ordered, UInt32.le_iff_toNat_le, ← h.temp]
  · show (track f).fanCurrentState.toNat ≤ 4
    rw [track_state]
    exact newState_le f
  · rw [hrange]
    exact pwmTicks_period
  · rw [hduty]
    apply UInt32.toNat_inj.1
    exact toNat_pwmTicks_dutyNs (hi ▸ htrack.speeds i)

theorem sound_step (h : Sound w) (hw : WriteOk w a) (hs : step w a = some w') : Sound w' := by
  cases a with
  | sensor rawValue =>
    cases hs
    exact ⟨h.temp, h.fan, h.mapped⟩
  | update =>
    cases hs
    exact ⟨toNat_thermalReadRaw h.temp w.avs, h.fan, h.mapped⟩
  | write o v =>
    cases hs
    exact ⟨h.temp, fanReady_write h.fan hw.1 hw.2, h.mapped⟩
  | tick =>
    obtain ⟨t, ht, hsound, -⟩ := tick_follows h
    rw [ht] at hs
    cases hs
    exact hsound

theorem sound_load (avs : Option UInt32) {sc : Bcm2712Softc} (hm : sc.pwmMapped = true) : Sound (load avs sc) := by
  obtain ⟨sc', hsc', hm', -⟩ := program_mapped (s := ⟨{}, some sc, []⟩) (c := ⟨none, period, 0⟩) rfl rfl hm
  have hordered : Ordered { thermalActive := true, calloutArmed := true } := by decide
  have hspeeds : ∀ i, fanTempSpeed { thermalActive := true, calloutArmed := true } i ≤ 255 := by decide
  exact ⟨rfl, ⟨rfl, rfl, rfl, hordered, hspeeds⟩, sc', hsc', hm'⟩

/-- **The cooling loop**: whatever samples, updates, ticks and writes come, as long as no write breaks the order of the
thresholds or sets a speed above 255, the next tick is due, and programs the speed of the level that the last valid
sample calls for. -/
theorem cooling_loop (avs : Option UInt32) {sc : Bcm2712Softc} (hm : sc.pwmMapped = true) {as : List Act}
    (hw : AllSteps step WriteOk (load avs sc) as) :
    AllStates step (fun w => w.cachedTempMc.toNat = sampleMc w.valid ∧
      ∃ t, step w .tick = some t ∧ t.valid = w.valid ∧ t.Follows) (load avs sc) as := by
  have hinv := allStates_of (fun _ _ _ => sound_step) (sound_load avs hm) hw
  refine hinv.mono fun w h => ⟨h.temp, ?_⟩
  obtain ⟨t, ht, -, hvalid, hfollows⟩ := tick_follows h
  exact ⟨t, ht, hvalid, hfollows⟩

/-- Thresholds stay in order when the second one is set to 62 °C; the sample after that is 54.55 °C, the next one not
valid. -/
theorem cooling_loop_sample :
    AllStates step (fun w => w.cachedTempMc.toNat = sampleMc w.valid ∧
      ∃ t, step w .tick = some t ∧ t.valid = w.valid ∧ t.Follows) (load (some 0) mappedPwm)
      [.write (.temp 1) 62000, .sensor 0x102CF, .update, .tick, .sensor 0x2CF, .update] :=
  have hordered : Ordered (writeOid (load (some 0) mappedPwm).fan.fan 62000 (.temp 1)) := by decide
  cooling_loop (some 0) rfl ((allSteps_cons rfl).2 ⟨⟨hordered, fun _ h => by cases h⟩,
    (allSteps_cons rfl).2 ⟨trivial, (allSteps_cons rfl).2 ⟨trivial, (allSteps_cons rfl).2 ⟨trivial,
      (allSteps_cons rfl).2 ⟨trivial, (allSteps_cons rfl).2 ⟨trivial, trivial⟩⟩⟩⟩⟩⟩)

end Cooling

end Fan
