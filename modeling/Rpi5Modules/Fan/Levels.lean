import Rpi5Modules.Fan.Defs
import Rpi5Modules.Lib.Hysteresis

/-!
# The fan levels and their hysteresis

`rpi5_update_fan_state` compares a sample with `temp - hyst` only behind the comparison with `temp`, where it decides
nothing: the level is the number of thresholds the last sample reaches, whatever the level before (`succ_le_newState`).
So a level is lost with the first sample below its threshold, and the hysteresis shows exactly where no sample falls
into the band below a threshold (`fan_hysteresis_iff`).
-/

namespace Fan

open Hysteresis

/-- `temp0 < temp1 < temp2 < temp3`, and each hysteresis is at most its threshold. -/
structure Ordered (f : CoolingFan) : Prop where
  temp01 : f.fanTemp0 < f.fanTemp1
  temp12 : f.fanTemp1 < f.fanTemp2
  temp23 : f.fanTemp2 < f.fanTemp3
  hyst : ∀ i, fanTempHyst f i ≤ fanTemp f i

instance (f : CoolingFan) : Decidable (Ordered f) :=
  decidable_of_iff (f.fanTemp0 < f.fanTemp1 ∧ f.fanTemp1 < f.fanTemp2 ∧ f.fanTemp2 < f.fanTemp3 ∧
      ∀ i, fanTempHyst f i ≤ fanTemp f i)
    ⟨fun ⟨h₀, h₁, h₂, h₃⟩ => ⟨h₀, h₁, h₂, h₃⟩, fun h => ⟨h.temp01, h.temp12, h.temp23, h.hyst⟩⟩

namespace System

/-- A sample: `cpu_temp` is set and `rpi5_update_fan_state` called. -/
def sample (s : System) (t : UInt32) : System :=
  rpi5UpdateFanState { s with fan := { s.fan with cpuTemp := t } }

/-- The level after a sequence of samples. -/
def level (s : System) (ts : List UInt32) : Nat := (ts.foldl sample s).fan.fanCurrentState.toNat

/-- Level `i + 1` is reached with each sample of `temp i` or more, and kept until a sample is below
`temp i - hyst i`. -/
def HasHysteresis (s : System) (ts : List UInt32) : Prop :=
  ∀ i : Fin 4, Retains (fanTemp s.fan i - fanTempHyst s.fan i) (fun ts => i + 1 ≤ s.level ts) ts ∧
    Reacts (fanTemp s.fan i) (fun ts => i + 1 ≤ s.level ts) ts

end System

/-- No sample that reaches a threshold is followed by one in the hysteresis band below it. -/
def AvoidsBands (f : CoolingFan) (ts : List UInt32) : Prop :=
  ∀ i : Fin 4, ¬FallsIntoBand (fanTemp f i - fanTempHyst f i) (fanTemp f i) ts

/-! ## One sample -/

section Sample

variable {f : CoolingFan}

/-- A threshold that is reached passes the hysteresis test too. -/
theorem sub_le_of_le {temp hyst x : UInt32} (hh : hyst ≤ temp) (hx : temp ≤ x) : temp - hyst ≤ x := by
  rw [UInt32.le_iff_toNat_le, UInt32.toNat_sub_of_le _ _ hh]
  have := UInt32.le_iff_toNat_le.1 hx
  omega

/-- The conditions of the cascade, without what decides nothing. -/
theorem newState_eq (h : Ordered f) :
    newState f = if f.cpuTemp ≥ f.fanTemp3 then 4 else if f.cpuTemp ≥ f.fanTemp2 then 3
      else if f.cpuTemp ≥ f.fanTemp1 then 2 else if f.cpuTemp ≥ f.fanTemp0 then 1 else 0 := by
  have h₂ : f.cpuTemp ≥ f.fanTemp2 → f.cpuTemp ≥ f.fanTemp2 - f.fanTemp2Hyst := sub_le_of_le (h.hyst 2)
  have h₁ : f.cpuTemp ≥ f.fanTemp1 → f.cpuTemp ≥ f.fanTemp1 - f.fanTemp1Hyst := sub_le_of_le (h.hyst 1)
  have h₀ : f.cpuTemp ≥ f.fanTemp0 → f.cpuTemp ≥ f.fanTemp0 - f.fanTemp0Hyst := sub_le_of_le (h.hyst 0)
  simp only [newState, and_iff_left_of_imp fun h => Or.inr (h₂ h), and_iff_left_of_imp fun h => Or.inr (h₁ h),
    and_iff_left_of_imp fun h => Or.inr (h₀ h)]

/-- **The level of a sample** is the number of thresholds it reaches. -/
theorem succ_le_newState (h : Ordered f) (i : Fin 4) : i + 1 ≤ (newState f).toNat ↔ fanTemp f i ≤ f.cpuTemp := by
  have h01 := UInt32.lt_iff_toNat_lt.1 h.temp01
  have h12 := UInt32.lt_iff_toNat_lt.1 h.temp12
  have h23 := UInt32.lt_iff_toNat_lt.1 h.temp23
  rw [newState_eq h]
  simp only [ge_iff_le, UInt32.le_iff_toNat_le]
  match i with
  | 0 | 1 | 2 | 3 =>
    simp only [fanTemp]
    repeat' split
    all_goals
      simp
      omega

/-- The level becomes the one chosen. -/
theorem track_state (f : CoolingFan) : (track f).fanCurrentState = newState f := by
  unfold track
  split
  · rfl
  · next h => exact (not_not.1 h).symm

end Sample

/-! ## Sequences of samples -/

section Samples

variable {s : System} {t : UInt32} {ts : List UInt32}

/-- The two have the same thresholds and hystereses. -/
structure SameTemps (f g : CoolingFan) : Prop where
  temp : fanTemp g = fanTemp f
  hyst : fanTempHyst g = fanTempHyst f

theorem SameTemps.trans {f g k : CoolingFan} (h : SameTemps f g) (h' : SameTemps g k) : SameTemps f k :=
  ⟨h'.temp.trans h.temp, h'.hyst.trans h.hyst⟩

theorem SameTemps.ordered {f g : CoolingFan} (h : SameTemps f g) (hf : Ordered f) : Ordered g := by
  have htemp := congrFun h.temp
  refine ⟨?_, ?_, ?_, fun i => by rw [htemp, h.hyst]; exact hf.hyst i⟩
  · show fanTemp g 0 < fanTemp g 1
    rw [htemp, htemp]
    exact hf.temp01
  · show fanTemp g 1 < fanTemp g 2
    rw [htemp, htemp]
    exact hf.temp12
  · show fanTemp g 2 < fanTemp g 3
    rw [htemp, htemp]
    exact hf.temp23

theorem sameTemps_track (f : CoolingFan) : SameTemps f (track f) := by
  unfold track
  split
  · exact ⟨rfl, rfl⟩
  · exact ⟨rfl, rfl⟩

theorem sameTemps_sample (s : System) (t : UInt32) : SameTemps s.fan (s.sample t).fan := by
  have ht : SameTemps s.fan { s.fan with cpuTemp := t } := ⟨rfl, rfl⟩
  exact ht.trans (sameTemps_track _)

theorem sameTemps_samples (s : System) (ts : List UInt32) : SameTemps s.fan (ts.foldl System.sample s).fan := by
  induction ts generalizing s with
  | nil => exact ⟨rfl, rfl⟩
  | cons t ts ih => exact (sameTemps_sample s t).trans (ih (s.sample t))

/-- The level after a sample, whatever came before it. -/
theorem succ_le_level_concat (h : Ordered s.fan) (i : Fin 4) :
    i + 1 ≤ s.level (ts ++ [t]) ↔ fanTemp s.fan i ≤ t := by
  have hsame := sameTemps_samples s ts
  have hlevel : s.level (ts ++ [t]) = (newState { (ts.foldl System.sample s).fan with cpuTemp := t }).toNat := by
    unfold System.level
    rw [List.foldl_append, List.foldl_cons, List.foldl_nil]
    exact congrArg UInt32.toNat (track_state _)
  have hsame' : SameTemps s.fan { (ts.foldl System.sample s).fan with cpuTemp := t } := ⟨hsame.temp, hsame.hyst⟩
  rw [hlevel, succ_le_newState (hsame'.ordered h), hsame'.temp]

/-- From level 0 on, level `i + 1` is the plain comparison with its threshold. -/
theorem succ_le_level_iff (h0 : s.fan.fanCurrentState = 0) (h : Ordered s.fan) (i : Fin 4) (ts : List UInt32) :
    i + 1 ≤ s.level ts ↔ LastReaches (fanTemp s.fan i) ts := by
  rcases List.eq_nil_or_concat ts with rfl | ⟨ts, t, rfl⟩
  · have hl : s.level [] = 0 := congrArg UInt32.toNat h0
    rw [hl]
    exact iff_of_false (Nat.not_succ_le_zero _) not_lastReaches_nil
  · rw [List.concat_eq_append, succ_le_level_concat h, lastReaches_concat]

/-- **The hysteresis of the fan** shows exactly in the sequences where no sample that reaches a threshold is followed by
one below it that is still in its hysteresis band. -/
theorem fan_hysteresis_iff (s : System) (h0 : s.fan.fanCurrentState = 0) (h : Ordered s.fan) (ts : List UInt32) :
    s.HasHysteresis ts ↔ AvoidsBands s.fan ts := by
  apply forall_congr'
  intro i
  have hup := succ_le_level_iff h0 h i
  rw [Retains.congr hup, Reacts.congr hup, retains_lastReaches_iff]
  exact and_iff_left (reacts_lastReaches ts)

/-- The fan as it is loaded, before any sample. -/
def loadedFan : System := System.rpi5ModLoad none

theorem fan_hysteresis_default :
    loadedFan.HasHysteresis [50000, 61000, 40000] ↔ AvoidsBands loadedFan.fan [50000, 61000, 40000] :=
  fan_hysteresis_iff loadedFan rfl (by decide) _

/-- With the default temperatures a sample of 50150 m°C turns the fan to level 1, and the next value of the sensor,
550 m°C below, back to level 0. -/
theorem fan_hysteresis_lost :
    (Ordered loadedFan.fan ∧ loadedFan.level [50150] = 1 ∧ loadedFan.level [50150, 49600] = 0) ∧
      ¬loadedFan.HasHysteresis [50150, 49600] := by
  refine ⟨⟨by decide, by decide, by decide⟩, fun h => ?_⟩
  have hup : 1 ≤ loadedFan.level [50150, 49600] :=
    (h 0).1 [50150] [49600] [] rfl (by decide) (List.forall_mem_singleton.2 (by decide))
  exact absurd hup (by decide)

end Samples

end Fan
