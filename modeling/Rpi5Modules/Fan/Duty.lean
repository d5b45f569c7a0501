import Mathlib.Algebra.GroupWithZero.Nat
import Rpi5Modules.Fan.Defs
import Rpi5Modules.Lib.Transition

/-!
# The duty cycle

The `hw.rpi5.fan` variables are plain `SYSCTL_ADD_UINT`s: a write stores any 32-bit value, without the range checks of
the handlers in `rpi5.c`, which nothing registers. A speed reaches `bcm2712_pwm_set_config` as
`speed * 41566 / 255` in 32-bit arithmetic. For the speeds up to 255 that is exact and at most the period; a larger one
is harmless only if its product wraps around to a small value (`dutyNs_le_period_iff`). The duty never exceeds the
period exactly in the runs that write no other speed (`duty_decides`).
-/

namespace Fan

open Transition

/-! ## Writes and ticks -/

/-- The variables of `hw.rpi5.fan` that can be written. -/
inductive FanOid where
  | temp (i : Fin 4)
  | tempHyst (i : Fin 4)
  | speed (i : Fin 4)

/-- `sysctl_handle_int` on the variable: any value is stored. -/
def writeOid (f : CoolingFan) (v : UInt32) : FanOid → CoolingFan
  | .temp 0 => { f with fanTemp0 := v }
  | .temp 1 => { f with fanTemp1 := v }
  | .temp 2 => { f with fanTemp2 := v }
  | .temp 3 => { f with fanTemp3 := v }
  | .tempHyst 0 => { f with fanTemp0Hyst := v }
  | .tempHyst 1 => { f with fanTemp1Hyst := v }
  | .tempHyst 2 => { f with fanTemp2Hyst := v }
  | .tempHyst 3 => { f with fanTemp3Hyst := v }
  | .speed 0 => { f with fanTemp0Speed := v }
  | .speed 1 => { f with fanTemp1Speed := v }
  | .speed 2 => { f with fanTemp2Speed := v }
  | .speed 3 => { f with fanTemp3Speed := v }

inductive Action where
  | write (o : FanOid) (v : UInt32)
  | tick (reading : Option UInt32)

/-- A write of a variable, or the callout when it is scheduled. -/
def step (s : System) : Action → Option System
  | .write o v => some { s with fan := writeOid s.fan v o }
  | .tick reading => if s.fan.calloutArmed then some (s.rpi5ThermalTick reading) else none

/-- `fan_temp0_speed` to `fan_temp3_speed`. -/
def fanTempSpeed (f : CoolingFan) : Fin 4 → UInt32
  | 0 => f.fanTemp0Speed
  | 1 => f.fanTemp1Speed
  | 2 => f.fanTemp2Speed
  | 3 => f.fanTemp3Speed

/-! ## What is to hold -/

/-- The duty is at most the period, and exact for the speeds up to 255. -/
def PwmCall.Ok (c : PwmCall) : Prop :=
  c.dutyNs ≤ c.periodNs ∧
    ∀ v, c.speed = some v → v ≤ 255 → c.dutyNs.toNat = v.toNat * c.periodNs.toNat / 255

/-- DUTY is at most RANGE in the registers of the channel. -/
def Bcm2712Softc.Ok (sc : Bcm2712Softc) (channel : UInt32) : Prop :=
  sc.base (rp1PwmDuty channel) ≤ sc.base (rp1PwmRange channel)

/-- Every configuration programmed so far is in range, and so are the registers, if there are any. -/
def System.DutyOk (s : System) : Prop :=
  (∀ c ∈ s.calls, c.Ok) ∧ ∀ sc, s.sc = some sc → sc.pwmMapped → sc.Ok s.fan.pwmChannel

/-- The product of a speed with the period, modulo `2 ^ 32`, is not yet 255 times the next longer duty. -/
def SpeedFits (v : UInt32) : Prop := v.toNat * period.toNat % 2 ^ 32 < (period.toNat + 1) * 255

instance (v : UInt32) : Decidable (SpeedFits v) := inferInstanceAs (Decidable (_ < _))

/-- Each speed that is written fits. -/
def WritesFit (_ : System) : Action → Prop
  | .write (.speed _) v => SpeedFits v
  | _ => True

/-! ## Arithmetic of the duty -/

theorem toNat_period : period.toNat = 41566 := rfl

theorem toNat_dutyNs (v : UInt32) : (dutyNs v).toNat = v.toNat * period.toNat % 2 ^ 32 / 255 := by
  simp only [dutyNs, UInt32.toNat_div, UInt32.toNat_mul]
  rfl

/-- The speeds whose duty is at most the period. -/
theorem dutyNs_le_period_iff (v : UInt32) : dutyNs v ≤ period ↔ SpeedFits v := by
  rw [UInt32.le_iff_toNat_le, toNat_dutyNs, SpeedFits, toNat_period]
  omega

/-- For the speeds up to 255 nothing wraps around. -/
theorem toNat_dutyNs_of_le {v : UInt32} (h : v ≤ 255) : (dutyNs v).toNat = v.toNat * period.toNat / 255 := by
  have hv : v.toNat ≤ 255 := UInt32.le_iff_toNat_le.1 h
  rw [toNat_dutyNs, toNat_period, Nat.mod_eq_of_lt (by omega)]

/-- Rounding to clock cycles keeps the order below the period. -/
theorem pwmTicks_le {d : UInt32} (h : d ≤ period) : pwmTicks d ≤ pwmTicks period := by
  have hd := UInt32.le_iff_toNat_le.1 h
  rw [toNat_period] at hd
  have hticks : ∀ ns : UInt32, (pwmTicks ns).toNat = (ns.toNat + 81) % 2 ^ 32 / 163 := by
    intro ns
    simp only [pwmTicks, UInt32.toNat_div, UInt32.toNat_add]
    rfl
  rw [UInt32.le_iff_toNat_le, hticks, hticks, toNat_period]
  omega

/-! ## Programming the channel -/

section Program

variable {s : System} {c : PwmCall} {sc : Bcm2712Softc}

/-- What the registers of the fan's channel hold once it was programmed. -/
theorem program_regs (hch : s.fan.pwmChannel = 3) (hsc : (s.program c).sc = some sc) (hm : sc.pwmMapped) :
    sc.base (rp1PwmDuty 3) = pwmTicks c.dutyNs ∧ sc.base (rp1PwmRange 3) = pwmTicks c.periodNs := by
  have hch' : ¬(3 : UInt32) ≥ bcm2712PwmNchannels := by decide
  have hd : rp1PwmDuty 3 ≠ rp1PwmRange 3 ∧ rp1PwmDuty 3 ≠ rp1PwmGlobalCtrl ∧ rp1PwmRange 3 ≠ rp1PwmGlobalCtrl := by
    decide
  unfold System.program bcm2712PwmSetConfig bcm2712PwmEnable at hsc
  simp only [hch, hch', if_false] at hsc
  cases h : s.sc with
  | none =>
    rw [h] at hsc
    cases hsc
  | some sc₀ =>
    rw [h] at hsc
    cases hmap : sc₀.pwmMapped with
    | false =>
      simp only [hmap, Bool.not_false, if_true, Option.some.injEq] at hsc
      rw [← hsc, hmap] at hm
      exact absurd hm Bool.false_ne_true
    | true =>
      simp only [hmap, Bool.not_true, Bool.false_eq_true, if_false, Bcm2712Softc.wr, Option.some.injEq] at hsc
      subst hsc
      simp [Function.update_of_ne, hd.1, hd.2.1, hd.2.2]

/-- A configuration in range leaves everything in range. -/
theorem dutyOk_program (hch : s.fan.pwmChannel = 3) (hs : s.DutyOk) (hper : c.periodNs = period) (hc : c.Ok) :
    (s.program c).DutyOk := by
  constructor
  · intro c' hc'
    rcases List.mem_append.1 hc' with h | h
    · exact hs.1 c' h
    · rw [List.mem_singleton.1 h]
      exact hc
  · intro sc hsc hm
    obtain ⟨hduty, hrange⟩ := program_regs hch hsc hm
    show sc.base (rp1PwmDuty s.fan.pwmChannel) ≤ sc.base (rp1PwmRange s.fan.pwmChannel)
    rw [hch, hduty, hrange, hper]
    exact pwmTicks_le (hper ▸ hc.1)

end Program

/-! ## Runs -/

section Runs

variable {s s' : System} {a : Action} {f : CoolingFan}

/-- The fan is active, on its own channel, and every speed fits. -/
structure FanOk (f : CoolingFan) : Prop where
  channel : f.pwmChannel = 3
  active : f.thermalActive = true
  armed : f.calloutArmed = true
  speeds : ∀ i, SpeedFits (fanTempSpeed f i)

/-- The invariant. -/
def Good (s : System) : Prop := FanOk s.fan ∧ s.DutyOk

/-- Whatever the level, its speed is one of the four. -/
theorem speed_mem (f : CoolingFan) : ∃ i, speed f = fanTempSpeed f i := by
  unfold speed
  split
  · exact ⟨0, rfl⟩
  · exact ⟨1, rfl⟩
  · exact ⟨2, rfl⟩
  · exact ⟨3, rfl⟩
  · exact ⟨3, rfl⟩
  · exact ⟨0, rfl⟩

theorem fanOk_track (h : FanOk f) : FanOk (track f) := by
  unfold track
  split
  · exact ⟨h.channel, h.active, h.armed, h.speeds⟩
  · exact h

theorem good_update (h : Good s) : Good s.rpi5UpdateFanState := by
  have hf := fanOk_track h.1
  obtain ⟨i, hi⟩ := speed_mem (track s.fan)
  have hfit : SpeedFits (speed (track s.fan)) := hi ▸ hf.speeds i
  have hs : System.DutyOk { s with fan := track s.fan } := by
    refine ⟨h.2.1, fun sc hsc hm => ?_⟩
    have hreg := h.2.2 sc hsc hm
    rw [h.1.channel] at hreg
    show sc.Ok (track s.fan).pwmChannel
    rw [hf.channel]
    exact hreg
  refine ⟨hf, dutyOk_program hf.channel hs rfl ⟨(dutyNs_le_period_iff _).2 hfit, fun v hv hle => ?_⟩⟩
  cases hv
  exact toNat_dutyNs_of_le hle

theorem good_tick (h : Good s) (reading : Option UInt32) : Good (s.rpi5ThermalTick reading) := by
  have hu : Good (System.rpi5UpdateFanState { s with fan := { s.fan with cpuTemp := reading.getD s.fan.cpuTemp } }) :=
    good_update ⟨⟨h.1.channel, h.1.active, h.1.armed, h.1.speeds⟩, h.2⟩
  unfold System.rpi5ThermalTick
  dsimp only
  generalize System.rpi5UpdateFanState _ = u at hu ⊢
  exact ⟨⟨hu.1.channel, hu.1.active, hu.1.active, hu.1.speeds⟩, hu.2⟩

/-- A write of a speed changes that speed only, any other write no speed. -/
theorem fanTempSpeed_write (v : UInt32) (o : FanOid) (i : Fin 4) :
    fanTempSpeed (writeOid f v o) i = v ∧ o = .speed i ∨ fanTempSpeed (writeOid f v o) i = fanTempSpeed f i := by
  match o, i with
  | .speed 0, 0 | .speed 1, 1 | .speed 2, 2 | .speed 3, 3 => exact .inl ⟨rfl, rfl⟩
  | .speed 0, 1 | .speed 0, 2 | .speed 0, 3 | .speed 1, 0 | .speed 1, 2 | .speed 1, 3 => exact .inr rfl
  | .speed 2, 0 | .speed 2, 1 | .speed 2, 3 | .speed 3, 0 | .speed 3, 1 | .speed 3, 2 => exact .inr rfl
  | .temp 0, _ | .temp 1, _ | .temp 2, _ | .temp 3, _ => exact .inr rfl
  | .tempHyst 0, _ | .tempHyst 1, _ | .tempHyst 2, _ | .tempHyst 3, _ => exact .inr rfl

theorem fanTempSpeed_writeSpeed (v : UInt32) (i : Fin 4) : fanTempSpeed (writeOid f v (.speed i)) i = v := by
  match i with
  | 0 | 1 | 2 | 3 => rfl

/-- A write leaves everything but temperatures and speeds. -/
theorem writeOid_rest (v : UInt32) (o : FanOid) : (writeOid f v o).pwmChannel = f.pwmChannel ∧
    (writeOid f v o).thermalActive = f.thermalActive ∧ (writeOid f v o).calloutArmed = f.calloutArmed := by
  match o with
  | .temp 0 | .temp 1 | .temp 2 | .temp 3 => exact ⟨rfl, rfl, rfl⟩
  | .tempHyst 0 | .tempHyst 1 | .tempHyst 2 | .tempHyst 3 => exact ⟨rfl, rfl, rfl⟩
  | .speed 0 | .speed 1 | .speed 2 | .speed 3 => exact ⟨rfl, rfl, rfl⟩

theorem good_write (h : Good s) {v : UInt32} {o : FanOid} (hfit : WritesFit s (.write o v)) :
    Good { s with fan := writeOid s.fan v o } := by
  obtain ⟨hch, hact, harm⟩ := writeOid_rest (f := s.fan) v o
  refine ⟨⟨hch.trans h.1.channel, hact.trans h.1.active, harm.trans h.1.armed, fun i => ?_⟩, h.2.1, ?_⟩
  · rcases fanTempSpeed_write (f := s.fan) v o i with ⟨hv, rfl⟩ | hv
    · rw [hv]
      exact hfit
    · rw [hv]
      exact h.1.speeds i
  · intro sc hsc hm
    show sc.Ok (writeOid s.fan v o).pwmChannel
    rw [hch]
    exact h.2.2 sc hsc hm

/-- **One step** that writes no speed but one that fits keeps the invariant. -/
theorem good_step (h : Good s) (hfit : WritesFit s a) (hs : step s a = some s') : Good s' := by
  cases a with
  | write o v =>
    cases hs
    exact good_write h hfit
  | tick reading =>
    rw [step, if_pos h.1.armed] at hs
    cases hs
    exact good_tick h reading

theorem good_load (sc : Option Bcm2712Softc) : Good (System.rpi5ModLoad sc) := by
  have hspeeds : ∀ i, SpeedFits (fanTempSpeed {} i) := by decide
  have hcall : PwmCall.Ok ⟨none, period, 0⟩ := ⟨by decide, fun _ h => by cases h⟩
  refine ⟨⟨rfl, rfl, rfl, hspeeds⟩, fun c hc => ?_, fun sc' hsc hm => ?_⟩
  · rw [List.mem_singleton.1 hc]
    exact hcall
  · obtain ⟨hduty, hrange⟩ := program_regs (s := ⟨{}, sc, []⟩) rfl hsc hm
    show sc'.base (rp1PwmDuty 3) ≤ sc'.base (rp1PwmRange 3)
    rw [hduty, hrange]
    decide

/-- Writes that make a sample of 0 select level `i`, and the tick that samples it. -/
def selectLevel (i : Fin 4) : List Action :=
  [.write (.tempHyst 0) 0, .write (.tempHyst 1) 0, .write (.tempHyst 2) 0, .write (.temp 0) (if 0 < i then 0 else 1),
    .write (.temp 1) (if 1 < i then 0 else 1), .write (.temp 2) (if 2 < i then 0 else 1), .write (.temp 3) 1,
    .tick (some 0)]

/-- The fan after these writes and the sample. -/
def selected (f : CoolingFan) (i : Fin 4) : CoolingFan :=
  { f with
    fanTemp0Hyst := 0
    fanTemp1Hyst := 0
    fanTemp2Hyst := 0
    fanTemp0 := if 0 < i then 0 else 1
    fanTemp1 := if 1 < i then 0 else 1
    fanTemp2 := if 2 < i then 0 else 1
    fanTemp3 := 1
    cpuTemp := 0 }

theorem newState_selected (f : CoolingFan) (i : Fin 4) : newState (selected f i) = UInt32.ofNat i := by
  match i with
  | 0 | 1 | 2 => simp [newState, selected]
  | 3 =>
    have h : newState (selected f 3) = 3 := by simp [newState, selected]
    exact h

/-- The speed programmed at level `i`, up to level 3. -/
theorem speed_track {i : Fin 4} (h : newState f = UInt32.ofNat i) : speed (track f) = fanTempSpeed f i := by
  have hstate : (track f).fanCurrentState = UInt32.ofNat i := by
    unfold track
    split
    · exact h
    · next he => exact (not_not.1 he).symm.trans h
  have hspeed : fanTempSpeed (track f) = fanTempSpeed f := by
    unfold track
    split
    · rfl
    · rfl
  rw [← hspeed]
  unfold speed
  rw [hstate]
  match i with
  | 0 | 1 | 2 | 3 => rfl

theorem run_write (s : System) (o : FanOid) (v : UInt32) (as : List Action) :
    run step s (.write o v :: as) = run step { s with fan := writeOid s.fan v o } as := rfl

/-- Any speed can get programmed: its level can always be selected. -/
theorem run_selectLevel (harm : s.fan.calloutArmed = true) (i : Fin 4) : ∃ t, run step s (selectLevel i) = some t ∧
    ⟨some (fanTempSpeed s.fan i), period, dutyNs (fanTempSpeed s.fan i)⟩ ∈ t.calls := by
  let s₁ : System := { s with fan := { selected s.fan i with cpuTemp := s.fan.cpuTemp } }
  have hwrites : run step s (selectLevel i) = run step s₁ [.tick (some 0)] := by
    simp only [selectLevel, run_write, writeOid]
    rfl
  have htick : step s₁ (.tick (some 0)) = some (s₁.rpi5ThermalTick (some 0)) := if_pos harm
  have hrun : run step s (selectLevel i) = some (s₁.rpi5ThermalTick (some 0)) := by
    rw [hwrites, run_cons, htick]
    rfl
  have hspeed : speed (track (selected s.fan i)) = fanTempSpeed s.fan i :=
    speed_track (newState_selected s.fan i)
  refine ⟨_, hrun, ?_⟩
  show _ ∈ s.calls ++ [⟨some (speed (track (selected s.fan i))), period, dutyNs (speed (track (selected s.fan i)))⟩]
  rw [hspeed]
  exact List.mem_append_right _ (List.mem_singleton_self _)

/-- After a write of a speed that does not fit, a configuration with a duty above its period can be programmed. -/
theorem break_write (hs : Good s) (hbad : ¬WritesFit s a) (hst : step s a = some s') :
    ∃ bs t, run step s' bs = some t ∧ ¬t.DutyOk := by
  match a with
  | .tick _ | .write (.temp _) _ | .write (.tempHyst _) _ => exact absurd trivial hbad
  | .write (.speed i) v =>
    cases hst
    obtain ⟨-, -, harm⟩ := writeOid_rest (f := s.fan) v (.speed i)
    obtain ⟨t, hrun, hcall⟩ :=
      run_selectLevel (s := { s with fan := writeOid s.fan v (.speed i) }) (harm.trans hs.1.armed) i
    refine ⟨selectLevel i, t, hrun, fun hok => ?_⟩
    rw [fanTempSpeed_writeSpeed] at hcall
    exact hbad ((dutyNs_le_period_iff v).1 (hok.1 _ hcall).1)

/-- **The fan duty** never exceeds its period in the runs that write no speed but those that fit, and every write of
another one can be followed by a run that programs a duty above the period. -/
theorem duty_decides (sc : Option Bcm2712Softc) (as : List Action) :
    Decides step (fun _ _ => True) WritesFit System.DutyOk (System.rpi5ModLoad sc) as :=
  decides_of_inv (fun _ _ _ => good_step) (fun _ h => h.2) (fun _ _ _ => break_write) (good_load sc) as

/-- A mapped PWM controller whose registers are 0. -/
def mappedPwm : Bcm2712Softc := ⟨true, fun _ => 0, fun _ => ⟨0, 0, false⟩⟩

/-- Speed 256 is stored, and the next tick programs a duty of 41729 ns with a period of 41566 ns: DUTY is 256 and RANGE
255. -/
theorem duty_over :
    ∃ s, run step (System.rpi5ModLoad (some mappedPwm)) [.write (.speed 1) 256, .tick none] = some s ∧
      ⟨some 256, 41566, 41729⟩ ∈ s.calls ∧
      s.sc.map (fun sc => (sc.base (rp1PwmDuty 3), sc.base (rp1PwmRange 3))) = some (256, 255) ∧ ¬s.DutyOk := by
  have hcall : ∀ s, run step (System.rpi5ModLoad (some mappedPwm)) [.write (.speed 1) 256, .tick none] = some s →
      ⟨some 256, 41566, 41729⟩ ∈ s.calls := by
    intro s hs
    cases hs
    exact List.mem_append_right _ (List.mem_singleton_self _)
  refine ⟨_, rfl, hcall _ rfl, by decide, fun hok => ?_⟩
  exact absurd (hok.1 _ (hcall _ rfl)).1 (by decide)

end Runs

end Fan
