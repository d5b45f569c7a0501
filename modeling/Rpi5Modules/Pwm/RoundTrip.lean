import Mathlib.Data.List.Induction
import Rpi5Modules.Lib.Components
import Rpi5Modules.Pwm.Divider

/-!
# What a channel says it is configured to

`rp1_pwm_hw_config` stores the compare count where `rp1_pwm_channel_get_config` reads the duty. The count is at most 4
and the period at least 8 ns, so the two are the same only for the duty 0 (`ccOf_eq_duty_iff`).

The enable bit of a channel is the stored flag once a configuration or an enable of the channel was accepted
(`en_after_driven`), and what it was at attach before (`en_after_untouched`).
-/

namespace Pwm

open Flags Function Components

/-! ## Calls -/

/-- A call on the interface of `pwmbus`. -/
inductive Call where
  | config (channel period duty : U32)
  | enable (channel : U32) (enable : Bool)
  | setFlags (channel flags : U32)

/-- The error and the state a call returns with. -/
def exec (sc : Rp1PwmSoftc) : Call → Errno × Rp1PwmSoftc
  | .config channel period duty => rp1PwmChannelConfig sc channel period duty
  | .enable channel enable => rp1PwmChannelEnable sc channel enable
  | .setFlags channel flags => rp1PwmChannelSetFlags sc channel flags

/-- After these calls, from attach on. -/
def after (regs : U32 → U32) (calls : List Call) : Rp1PwmSoftc :=
  calls.foldl (fun sc c => (exec sc c).2) (rp1PwmAttach regs)

/-- The call returns 0. -/
def Call.Accepted : Call → Prop
  | .config channel period duty => Accepts channel period duty
  | .enable channel _ | .setFlags channel _ => channel < 4

/-- A configuration or an enable of `ch` that is accepted: it sets the enable bit of the channel. -/
def Call.Drives (ch : U32) : Call → Prop
  | .config channel period duty => channel = ch ∧ Accepts channel period duty
  | .enable channel _ => channel = ch
  | .setFlags _ _ => False

/-- The period and the duty of an accepted configuration of `ch`. -/
def Call.configures (ch : U32) : Call → Option (U32 × U32)
  | .config channel period duty => if channel = ch ∧ Accepts channel period duty then some (period, duty) else none
  | _ => none

/-- The last accepted configuration of `ch`. -/
def lastConfig (ch : U32) (calls : List Call) : Option (U32 × U32) := last (Call.configures ch) calls

variable {sc : Rp1PwmSoftc} {c : Call} {ch channel period duty top : U32} {regs : U32 → U32} {calls : List Call}

/-! ## One call -/

theorem exec_config : exec sc (.config channel period duty) =
    if Accepts channel period duty then
      (0, hwProgram sc channel period (divLoop period 256 1 0).1 (divLoop period 256 1 0).2
        (ccFor period duty (divLoop period 256 1 0).2))
    else (einval, sc) := hwConfig_eq

theorem exec_enable {enable : Bool} (h : channel < 4) : exec sc (.enable channel enable) =
    (0, (sc.write (rp1PwmCsr channel) (if enable then sc.read (rp1PwmCsr channel) ||| rp1PwmCsrEn
      else sc.read (rp1PwmCsr channel) &&& ~~~rp1PwmCsrEn)).setChannel channel
        { sc.channels channel with enabled := enable }) := if_neg (BitVec.not_le.2 h)

theorem exec_setFlags {flags : U32} (h : channel < 4) : exec sc (.setFlags channel flags) =
    (0, (sc.write (rp1PwmCsr channel) (if flags &&& pwmPolarityInverted ≠ 0 then
      sc.read (rp1PwmCsr channel) &&& ~~~csrNoinvert channel
      else sc.read (rp1PwmCsr channel) ||| csrNoinvert channel)).setChannel channel
        { sc.channels channel with flags := flags }) := if_neg (BitVec.not_le.2 h)

/-- A rejected call returns an error and changes nothing. -/
theorem exec_rejected (h : ¬c.Accepted) : exec sc c = (einval, sc) := by
  cases c with
  | config channel period duty =>
    rw [exec_config]
    exact if_neg h
  | enable channel enable => exact if_pos (BitVec.not_lt.1 h)
  | setFlags channel flags => exact if_pos (BitVec.not_lt.1 h)

theorem exec_accepted : (exec sc c).1 = 0 ↔ c.Accepted := by
  refine ⟨fun h => Classical.byContradiction fun hA => ?_, fun h => ?_⟩
  · rw [exec_rejected hA] at h
    cases h
  · cases c with
    | config channel period duty =>
      rw [exec_config]
      exact congrArg Prod.fst (if_pos h)
    | enable channel enable => exact congrArg Prod.fst (if_neg (BitVec.not_le.2 h))
    | setFlags channel flags => exact congrArg Prod.fst (if_neg (BitVec.not_le.2 h))

/-- The period and the count that are stored. -/
def Rp1PwmSoftc.stored (sc : Rp1PwmSoftc) (ch : U32) : U32 × U32 := ((sc.channels ch).period, (sc.channels ch).dutyA)

/-- The count for a period and a duty. -/
def ccOf (period duty : U32) : U32 := ccFor period duty (divLoop period 256 1 0).2

/-- Only an accepted configuration of the channel changes what is stored for it. -/
theorem stored_exec (ch : U32) (sc : Rp1PwmSoftc) (c : Call) : (exec sc c).2.stored ch =
    ((c.configures ch).map fun r => (r.1, ccOf r.1 r.2)).getD (sc.stored ch) := by
  by_cases hA : c.Accepted
  · cases c with
    | config channel period duty =>
      rw [exec_config, if_pos (show Accepts channel period duty from hA)]
      unfold Rp1PwmSoftc.stored Call.configures ccOf
      dsimp only
      rw [channels_hwProgram, update_apply]
      by_cases hch : ch = channel
      · subst hch
        rw [if_pos rfl, if_pos ⟨rfl, hA⟩]
        rfl
      · rw [if_neg hch, if_neg fun h => hch h.1.symm]
        rfl
    | enable channel enable =>
      rw [exec_enable hA]
      unfold Rp1PwmSoftc.stored
      by_cases hch : ch = channel
      · subst hch
        simp [Call.configures]
      · simp [Call.configures, hch]
    | setFlags channel flags =>
      rw [exec_setFlags hA]
      unfold Rp1PwmSoftc.stored
      by_cases hch : ch = channel
      · subst hch
        simp [Call.configures]
      · simp [Call.configures, hch]
  · rw [exec_rejected hA]
    cases c with
    | config channel period duty =>
      unfold Call.configures
      dsimp only
      rw [if_neg fun h => hA h.2]
      rfl
    | enable channel enable | setFlags channel flags => rfl

/-- The enable bit of a channel in CSR. -/
def Rp1PwmSoftc.En (sc : Rp1PwmSoftc) (ch : U32) : Prop := HasFlag (sc.read (rp1PwmCsr ch)) csrEnBit

theorem csr_inj (hch : ch < 4) (hchannel : channel < 4) : rp1PwmCsr ch = rp1PwmCsr channel ↔ ch = channel := by
  unfold rp1PwmCsr
  rw [rp1PwmReg_inj hch hchannel (by decide) (by decide)]
  exact and_iff_left rfl

theorem hasFlag_csrEn : HasFlag rp1PwmCsrEn csrEnBit := by decide

theorem hasFlag_set (csr : U32) : HasFlag (csr ||| rp1PwmCsrEn) csrEnBit := hasFlag_or.2 (.inr hasFlag_csrEn)

theorem not_hasFlag_clear (csr : U32) : ¬HasFlag (csr &&& ~~~rp1PwmCsrEn) csrEnBit := fun h =>
  (hasFlag_and_not.1 h).2 hasFlag_csrEn

/-- A call that drives the channel sets its enable bit to its flag. -/
theorem en_exec_drives (hch : ch < 4) (hd : c.Drives ch) :
    (exec sc c).2.En ch ↔ ((exec sc c).2.channels ch).enabled = true := by
  unfold Rp1PwmSoftc.En
  cases c with
  | config channel period duty =>
    obtain ⟨rfl, hA⟩ := hd
    rw [exec_config, if_pos hA]
    dsimp only
    rw [csr_hwProgram hch hch, if_pos rfl, channels_hwProgram, update_self]
    cases (sc.channels channel).enabled with
    | true => exact iff_of_true (hasFlag_set _) rfl
    | false => exact iff_of_false (not_hasFlag_clear _) Bool.false_ne_true
  | enable channel enable =>
    obtain rfl : channel = ch := hd
    rw [exec_enable hch]
    simp only [Rp1PwmSoftc.read_setChannel, Rp1PwmSoftc.read_write, if_true, Rp1PwmSoftc.channels_setChannel,
      update_self]
    cases enable with
    | true => exact iff_of_true (hasFlag_set _) rfl
    | false => exact iff_of_false (not_hasFlag_clear _) Bool.false_ne_true
  | setFlags channel flags => exact hd.elim

/-- The polarity is not the enable bit. -/
theorem not_hasFlag_csrNoinvert (channel : U32) : ¬HasFlag (csrNoinvert channel) csrEnBit := by
  unfold csrNoinvert
  split
  · decide
  · decide

/-- Any other call leaves both as they are. -/
theorem en_exec_other (sc : Rp1PwmSoftc) (hch : ch < 4) (hd : ¬c.Drives ch) :
    ((exec sc c).2.En ch ↔ sc.En ch) ∧ ((exec sc c).2.channels ch).enabled = (sc.channels ch).enabled := by
  by_cases hA : c.Accepted
  · unfold Rp1PwmSoftc.En
    cases c with
    | config channel period duty =>
      have hne : ch ≠ channel := fun h => hd ⟨h.symm, hA⟩
      rw [exec_config, if_pos (show Accepts channel period duty from hA)]
      dsimp only
      rw [csr_hwProgram hA.1 hch, if_neg hne, channels_hwProgram, update_of_ne hne]
      exact ⟨Iff.rfl, rfl⟩
    | enable channel enable =>
      have hne : ch ≠ channel := fun h => hd h.symm
      rw [exec_enable hA]
      simp [csr_inj hch (show channel < 4 from hA), hne]
    | setFlags channel flags =>
      have hflag := not_hasFlag_csrNoinvert channel
      rw [exec_setFlags hA]
      by_cases hne : ch = channel
      · subst hne
        constructor
        · simp only [Rp1PwmSoftc.read_setChannel, Rp1PwmSoftc.read_write, if_true]
          split
          · rw [hasFlag_and_not]
            exact and_iff_left hflag
          · rw [hasFlag_or]
            exact or_iff_left hflag
        · simp
      · simp [csr_inj hch (show channel < 4 from hA), hne]
  · rw [exec_rejected hA]
    exact ⟨Iff.rfl, rfl⟩

/-! ## Sequences of calls -/

theorem after_concat (regs : U32 → U32) (calls : List Call) (c : Call) :
    after regs (calls ++ [c]) = (exec (after regs calls) c).2 := by
  unfold after
  rw [List.foldl_append]
  rfl

/-- What is stored comes from the last accepted configuration. -/
theorem stored_after (regs : U32 → U32) (calls : List Call) (ch : U32) : (after regs calls).stored ch =
    ((lastConfig ch calls).map fun r => (r.1, ccOf r.1 r.2)).getD (41566, 0) := by
  unfold after lastConfig
  have hstep : ∀ sc c, (exec sc c).2.stored ch = _ := stored_exec ch
  rw [get_foldl (fun sc : Rp1PwmSoftc => sc.stored ch) hstep, last_map]
  rfl

/-- Before a call drives the channel, its enable bit is what it was at attach, and its flag is false. -/
theorem en_after_untouched (regs : U32 → U32) (hch : ch < 4) (h : ∀ c ∈ calls, ¬c.Drives ch) :
    ((after regs calls).En ch ↔ HasFlag (regs (rp1PwmCsr ch)) csrEnBit) ∧
      ((after regs calls).channels ch).enabled = false := by
  induction calls using List.reverseRecOn with
  | nil => exact ⟨Iff.rfl, rfl⟩
  | append_singleton calls c ih =>
    obtain ⟨hold, hc⟩ := List.forall_mem_append.1 h
    obtain ⟨hen, hflag⟩ := en_exec_other (after regs calls) hch (hc c List.mem_cons_self)
    rw [after_concat, hen, hflag]
    exact ih hold

/-- From then on the enable bit is the flag. -/
theorem en_after_driven (regs : U32 → U32) (hch : ch < 4) (h : ∃ c ∈ calls, c.Drives ch) :
    (after regs calls).En ch ↔ ((after regs calls).channels ch).enabled = true := by
  induction calls using List.reverseRecOn with
  | nil =>
    obtain ⟨c, hc, -⟩ := h
    cases hc
  | append_singleton calls c ih =>
    rw [after_concat]
    by_cases hd : c.Drives ch
    · exact en_exec_drives hch hd
    · obtain ⟨hen, hflag⟩ := en_exec_other (after regs calls) hch hd
      rw [hen, hflag]
      obtain ⟨b, hb, hbd⟩ := h
      rcases List.mem_append.1 hb with hb | hb
      · exact ih ⟨b, hb, hbd⟩
      · rw [List.mem_singleton.1 hb] at hbd
        exact (hd hbd).elim

/-! ## The round trip -/

/-- An accepted call stores its duty only if that is 0: the period is longer than the top. -/
theorem ccOf_eq_duty_iff (h : Accepts channel period duty) : ccOf period duty = duty ↔ duty = 0 := by
  obtain ⟨-, -, -, htop, -⟩ := h
  obtain ⟨hs, ht⟩ := divLoop_stops period 256 1 0 (by decide) rfl htop
  have hp : 8 ≤ period.toNat := StopsAt.le_period hs
  have hle := topAt_le period.toNat (divLoop period 256 1 0).1.toNat
  rw [← ht] at hle
  unfold ccOf
  generalize (divLoop period 256 1 0).2 = top at hle
  constructor
  · intro hcc
    have hdt : duty.toNat ≤ top.toNat := by
      have hcc' := ccFor_le period duty top
      rw [hcc] at hcc'
      exact hcc'
    have hbound : duty.toNat * (top.toNat + 1) < 2 ^ 32 :=
      Nat.lt_of_le_of_lt (Nat.mul_le_mul (Nat.le_trans hdt hle) (Nat.succ_le_succ hle)) (by decide)
    have hmin : (ccFor period duty top).toNat = min (duty.toNat * (top.toNat + 1) / period.toNat) top.toNat :=
      toNat_ccFor hbound hle
    rw [hcc] at hmin
    have hdiv : duty.toNat ≤ duty.toNat * (top.toNat + 1) / period.toNat :=
      Nat.le_trans (Nat.le_of_eq hmin) (Nat.min_le_left _ _)
    have hmul := Nat.mul_le_of_le_div _ _ _ hdiv
    refine BitVec.eq_of_toNat_eq (Nat.eq_zero_of_not_pos fun hpos => ?_)
    have hperiod := Nat.le_of_mul_le_mul_left hmul hpos
    omega
  · rintro rfl
    have hbound : (0 : U32).toNat * (top.toNat + 1) < 2 ^ 32 := by simp
    apply BitVec.eq_of_toNat_eq
    rw [toNat_ccFor hbound hle]
    simp

/-- `rp1_pwm_channel_get_config` returns the last accepted configuration of each channel; a rejected call has changed
nothing; and after an accepted one the enable bit of each channel is its flag. -/
structure RoundTrip (regs : U32 → U32) (calls : List Call) : Prop where
  get : ∀ ch, ch < 4 → ∀ period duty, lastConfig ch calls = some (period, duty) →
    rp1PwmChannelGetConfig (after regs calls) ch = (0, some (period, duty))
  rejected : ∀ pre c, calls = pre ++ [c] → (exec (after regs pre) c).1 ≠ 0 → after regs calls = after regs pre
  enabled : ∀ pre c, calls = pre ++ [c] → (exec (after regs pre) c).1 = 0 → ∀ ch, ch < 4 →
    ((after regs calls).En ch ↔ ((after regs calls).channels ch).enabled = true)

/-- The last accepted configuration of each channel has the duty 0; and if the last call is accepted, each channel
whose enable bit was set at attach has been configured or enabled. -/
structure Consistent (regs : U32 → U32) (calls : List Call) : Prop where
  duty : ∀ ch, ch < 4 → ∀ period duty, lastConfig ch calls = some (period, duty) → duty = 0
  driven : ∀ pre c, calls = pre ++ [c] → c.Accepted → ∀ ch, ch < 4 → HasFlag (regs (rp1PwmCsr ch)) csrEnBit →
    ∃ b ∈ calls, b.Drives ch

/-- The channel of an accepted configuration. -/
theorem accepts_of_lastConfig (h : lastConfig ch calls = some (period, duty)) : Accepts ch period duty := by
  obtain ⟨pre, c, post, -, hc, -⟩ := last_eq_some_iff.1 h
  cases c with
  | config channel p d =>
    unfold Call.configures at hc
    dsimp only at hc
    split at hc
    · rename_i hA
      obtain ⟨rfl, hA⟩ := hA
      cases hc
      exact hA
    · cases hc
  | enable channel enable | setFlags channel flags => cases hc

theorem get_after (regs : U32 → U32) (hch : ch < 4) (h : lastConfig ch calls = some (period, duty)) :
    rp1PwmChannelGetConfig (after regs calls) ch = (0, some (period, ccOf period duty)) := by
  have hstored := stored_after regs calls ch
  rw [h] at hstored
  have hget : rp1PwmChannelGetConfig (after regs calls) ch = (0, some ((after regs calls).stored ch)) :=
    if_neg (BitVec.not_le.2 hch)
  rw [hget, hstored]
  rfl

/-- **Setting and getting agree exactly on the duty 0.** For every sequence of calls from attach on, accepted or
rejected, with whatever the registers held: get returns what was set last, a rejected call changed nothing and an
accepted one leaves the enable bits as the flags say, if and only if the last accepted configuration of each channel has
the duty 0 and, behind an accepted call, no channel that was running at attach is still untouched. -/
theorem round_trip_iff (regs : U32 → U32) (calls : List Call) : RoundTrip regs calls ↔ Consistent regs calls := by
  constructor
  · rintro ⟨hget, -, hen⟩
    constructor
    · intro ch hch period duty hl
      have hg := hget ch hch period duty hl
      rw [get_after regs hch hl] at hg
      exact (ccOf_eq_duty_iff (accepts_of_lastConfig hl)).1 (by simpa using hg)
    · intro pre c hcalls hA ch hch hflag
      by_contra hno
      have hafter := en_after_untouched regs hch fun b hb hbd => hno ⟨b, hb, hbd⟩
      have hon := (hen pre c hcalls (exec_accepted.2 hA) ch hch).1 (hafter.1.2 hflag)
      rw [hafter.2] at hon
      cases hon
  · rintro ⟨hduty, hdriven⟩
    refine ⟨?_, ?_, ?_⟩
    · intro ch hch period duty hl
      rw [get_after regs hch hl, (ccOf_eq_duty_iff (accepts_of_lastConfig hl)).2 (hduty ch hch period duty hl)]
    · rintro pre c rfl hrc
      rw [after_concat, exec_rejected fun hA => hrc (exec_accepted.2 hA)]
    · intro pre c hcalls hrc ch hch
      by_cases hd : ∃ b ∈ calls, b.Drives ch
      · exact en_after_driven regs hch hd
      · obtain ⟨hen, hflag⟩ := en_after_untouched regs hch fun b hb hbd => hd ⟨b, hb, hbd⟩
        rw [hen, hflag]
        refine iff_of_false (fun hset => hd ?_) Bool.false_ne_true
        exact hdriven pre c hcalls (exec_accepted.1 hrc) ch hch hset

/-- Half of the fan's period comes back as 2 ns. -/
theorem round_trip_half : ¬RoundTrip (fun _ => 0) [.config 3 41566 20783] := by
  intro h
  have hl : lastConfig 3 [.config 3 41566 20783] = some (41566, 20783) := by decide +kernel
  have hg := congrArg Prod.snd (h.get 3 (by decide) 41566 20783 hl)
  have hcc : (rp1PwmChannelGetConfig (after (fun _ => 0) [.config 3 41566 20783]) 3).2 = some (41566, 2) := by
    decide +kernel
  exact absurd (hcc.symm.trans hg) (by decide)

end Pwm
