import Mathlib.Algebra.Order.Field.Rat
import Mathlib.Data.Nat.Cast.Order.Field
import Mathlib.Tactic.FieldSimp
import Mathlib.Tactic.Linarith
import Mathlib.Tactic.Ring
import Rpi5Modules.Pwm.Config

/-!
# The divider and the top of a PWM period

`(clk_freq / div) * period` is a product of 32 bits, of which only the quotient by `1000000000ULL` has 64: what wraps
around leaves a top of at most 4 whatever the period is. The realised period is right exactly if the product does not
wrap at the divider at which the loop stops (`period_law_iff`), and that is the case of 43 periods (`fits_iff`).
-/

namespace Pwm

open Flags

/-! ## The loop -/

/-- The top for a divider, in numbers. -/
def topAt (period d : Nat) : Nat := 125000000 / d * period % 2 ^ 32 / 10 ^ 9

theorem topAt_le (period d : Nat) : topAt period d ≤ 4 := by
  unfold topAt
  omega

theorem toNat_topFor (period div : U32) : (topFor period div).toNat = topAt period.toNat div.toNat := by
  have hlt : 125000000 / div.toNat * period.toNat % 2 ^ 32 / 10 ^ 9 < 2 ^ 32 :=
    Nat.lt_of_le_of_lt (topAt_le period.toNat div.toNat) (by decide)
  have hprod : (clkFreq / div * period).toNat = 125000000 / div.toNat * period.toNat % 2 ^ 32 := by
    rw [BitVec.toNat_mul, BitVec.toNat_udiv]
    rfl
  unfold topFor
  rw [BitVec.toNat_setWidth, BitVec.toNat_udiv, BitVec.toNat_setWidth, hprod]
  unfold topAt
  have hwide : 125000000 / div.toNat * period.toNat % 2 ^ 32 % 2 ^ 64 =
      125000000 / div.toNat * period.toNat % 2 ^ 32 := by omega
  rw [hwide]
  exact Nat.mod_eq_of_lt hlt

/-- The loop stops at `d`, which is among the dividers from `lo` on. -/
structure StopsAt (period lo hi d : Nat) : Prop where
  le : lo ≤ d
  lt : d < hi
  top : topAt period d ≠ 0
  first : ∀ e, lo ≤ e → e < d → topAt period e = 0

/-- A top that is not 0 was found at the first divider that gives one. -/
theorem divLoop_stops (period : U32) (n : Nat) (div top : U32) (hn : div.toNat + n < 2 ^ 32) (ht : top = 0)
    (hr : (divLoop period n div top).2 ≠ 0) :
    StopsAt period.toNat div.toNat (div.toNat + n) (divLoop period n div top).1.toNat ∧
      (divLoop period n div top).2.toNat = topAt period.toNat (divLoop period n div top).1.toNat := by
  induction n generalizing div top with
  | zero => exact (hr ht).elim
  | succ n ih =>
    have htop := toNat_topFor period div
    have hle := topAt_le period.toNat div.toNat
    rw [divLoop] at hr ⊢
    by_cases hz : topAt period.toNat div.toNat = 0
    · have hzero : topFor period div = 0 := BitVec.eq_of_toNat_eq (htop.trans hz)
      have hdiv : (div + 1).toNat = div.toNat + 1 := by
        rw [BitVec.toNat_add]
        exact Nat.mod_eq_of_lt (by simp only [BitVec.toNat_ofNat, BitVec.ofNat_eq_ofNat]; omega)
      have hgo : ¬(topFor period div > 0 ∧ topFor period div ≤ 0xffff) := by
        rw [hzero]
        decide
      rw [if_neg hgo] at hr ⊢
      obtain ⟨⟨h₁, h₂, h₃, h₄⟩, h₅⟩ := ih (div + 1) (topFor period div) (by omega) hzero hr
      rw [hdiv] at h₁ h₂ h₄
      refine ⟨⟨by omega, by omega, h₃, ?_⟩, h₅⟩
      intro e he hed
      rcases Nat.eq_or_lt_of_le he with rfl | he'
      · exact hz
      · exact h₄ e he' hed
    · have hstop : topFor period div > 0 ∧ topFor period div ≤ 0xffff := by
        refine ⟨BitVec.lt_def.2 ?_, BitVec.le_def.2 ?_⟩
        · rw [htop]
          exact Nat.pos_of_ne_zero hz
        · rw [htop]
          exact Nat.le_trans hle (by decide)
      rw [if_pos hstop]
      refine ⟨⟨Nat.le_refl _, ?_, hz, fun e he hed => absurd he (Nat.not_le.2 hed)⟩, htop⟩
      exact Nat.lt_add_of_pos_right (Nat.succ_pos n)

/-! ## The realised period -/

variable {p d : Nat}

theorem clk_div (hd : 0 < d) : 125000000 / d * d ≤ 125000000 ∧ 125000000 < 125000000 / d * d + d := by
  have hmod := Nat.mod_lt 125000000 hd
  have hadd := Nat.div_add_mod' 125000000 d
  omega

/-- Without a wrap the period is right up to one tick. -/
theorem period_of_fits (hd : 0 < d) (hd' : d ≤ 256) (hx : 125000000 / d * p < 2 ^ 32) :
    8 * d * topAt p d ≤ p ∧ p ≤ 8 * d * (topAt p d + 1) := by
  obtain ⟨hq, hq'⟩ := clk_div hd
  have htop : topAt p d * 10 ^ 9 ≤ 125000000 / d * p ∧ 125000000 / d * p < (topAt p d + 1) * 10 ^ 9 := by
    unfold topAt
    rw [Nat.mod_eq_of_lt hx]
    omega
  have hlow : 488281 ≤ 125000000 / d := (Nat.le_div_iff_mul_le hd).2 (by omega)
  have hp : p ≤ 8796 := by
    have hmul := Nat.mul_le_mul_right p hlow
    omega
  generalize 125000000 / d = q at *
  generalize topAt p d = t at *
  constructor
  · have h₁ : d * (t * 10 ^ 9) ≤ d * (q * p) := Nat.mul_le_mul_left d htop.1
    have h₂ : q * d * p ≤ 125000000 * p := Nat.mul_le_mul_right p hq
    have h₃ : d * (q * p) = q * d * p := by ring
    have h₄ : d * (t * 10 ^ 9) = 10 ^ 9 * (d * t) := by ring
    have h₅ : 8 * d * t = 8 * (d * t) := by ring
    omega
  · have h₁ : d * (q * p) + d ≤ d * ((t + 1) * 10 ^ 9) := by
      rw [← Nat.mul_succ]
      exact Nat.mul_le_mul_left d htop.2
    have h₂ : 125000000 * p ≤ (q * d + d) * p := Nat.mul_le_mul_right p (Nat.le_of_lt hq')
    have h₃ : (q * d + d) * p = d * (q * p) + d * p := by ring
    have h₄ : d * ((t + 1) * 10 ^ 9) = 10 ^ 9 * (d * (t + 1)) := by ring
    have h₅ : 8 * d * (t + 1) = 8 * (d * (t + 1)) := by ring
    have h₆ : d * p ≤ 256 * 8796 := Nat.mul_le_mul hd' hp
    omega

/-- With one, the period is at least four ticks longer than the top says. -/
theorem period_of_wraps (hd : 0 < d) (hx : 2 ^ 32 ≤ 125000000 / d * p) : 8 * d * (topAt p d + 4) < p := by
  obtain ⟨hq, -⟩ := clk_div hd
  have htop : topAt p d * 10 ^ 9 + 2 ^ 32 ≤ 125000000 / d * p := by
    unfold topAt
    omega
  generalize 125000000 / d = q at *
  generalize topAt p d = t at *
  have h₁ : d * (t * 10 ^ 9 + 2 ^ 32) ≤ d * (q * p) := Nat.mul_le_mul_left d htop
  have h₂ : q * d * p ≤ 125000000 * p := Nat.mul_le_mul_right p hq
  have h₃ : d * (q * p) = q * d * p := by ring
  have h₄ : d * (t * 10 ^ 9 + 2 ^ 32) = 10 ^ 9 * (d * t) + 2 ^ 32 * d := by ring
  have h₅ : 8 * d * (t + 4) = 8 * (d * t) + 32 * d := by ring
  omega

/-! ## The periods without a wrap -/

theorem topAt_one : topAt p 1 = 125000000 * p % 2 ^ 32 / 10 ^ 9 := rfl

theorem topAt_two : topAt p 2 = 62500000 * p % 2 ^ 32 / 10 ^ 9 := rfl

/-- The first divider is passed over where the product has just wrapped. -/
theorem topAt_one_zero (h : 35 ≤ p ∧ p ≤ 42 ∨ 69 ≤ p ∧ p ≤ 76) : topAt p 1 = 0 := by
  rw [topAt_one]
  rcases h with ⟨h₁, h₂⟩ | ⟨h₁, h₂⟩
  · have hmod : 125000000 * p % 2 ^ 32 = 125000000 * p - 2 ^ 32 := by omega
    omega
  · have hmod : 125000000 * p % 2 ^ 32 = 125000000 * p - 2 * 2 ^ 32 := by omega
    omega

theorem topAt_two_zero (h₁ : 69 ≤ p) (h₂ : p ≤ 76) : topAt p 2 = 0 := by
  rw [topAt_two]
  have hmod : 62500000 * p % 2 ^ 32 = 62500000 * p - 2 ^ 32 := by omega
  omega

/-- The periods of 8 to 42 and of 69 to 76 nanoseconds. -/
def Exact (p : Nat) : Prop := 8 ≤ p ∧ p ≤ 42 ∨ 69 ≤ p ∧ p ≤ 76

instance (p : Nat) : Decidable (Exact p) := inferInstanceAs (Decidable (_ ∨ _))

/-- A divider at which the product wraps to a top that is not 0. -/
theorem exists_wraps (h : ¬Exact p) (hp : 8 ≤ p) (hp' : p ≤ 11050) :
    ∃ e, 0 < e ∧ e ≤ 256 ∧ 2 ^ 32 ≤ 125000000 / e * p ∧ topAt p e ≠ 0 := by
  unfold Exact at h
  rcases Nat.lt_or_ge p 86 with h86 | h86
  · -- the first one
    refine ⟨1, by decide, by decide, by rw [Nat.div_one]; omega, ?_⟩
    rw [topAt_one]
    have hcase : 43 ≤ p ∧ p ≤ 68 ∨ 77 ≤ p ∧ p ≤ 85 := by omega
    rcases hcase with ⟨h₁, h₂⟩ | ⟨h₁, h₂⟩
    · have hmod : 125000000 * p % 2 ^ 32 = 125000000 * p - 2 ^ 32 := by omega
      omega
    · have hmod : 125000000 * p % 2 ^ 32 = 125000000 * p - 2 * 2 ^ 32 := by omega
      omega
  · -- one at which the product is between `2 ^ 32 + 10 ^ 9` and `2 * 2 ^ 32`
    have he : 2 ≤ p / 43 := by omega
    have he' : p / 43 ≤ 256 := by omega
    obtain ⟨hq, hq'⟩ := clk_div (Nat.lt_of_lt_of_le Nat.two_pos he)
    have hlo : 43 * (p / 43) ≤ p := Nat.mul_div_le p 43
    have hhi : p < 43 * (p / 43) + 43 := by omega
    refine ⟨p / 43, by omega, he', ?_⟩
    unfold topAt
    generalize p / 43 = e at *
    have hq₂ : 125000000 / e ≤ 62500000 := Nat.div_le_of_le_mul (by omega)
    generalize 125000000 / e = q at *
    have h₁ : q * (43 * e) ≤ q * p := Nat.mul_le_mul_left q hlo
    have h₂ : q * p ≤ q * (43 * e + 43) := Nat.mul_le_mul_left q (Nat.le_of_lt hhi)
    have h₃ : q * (43 * e) = 43 * (q * e) := by ring
    have h₄ : q * (43 * e + 43) = 43 * (q * e) + 43 * q := by ring
    have hmod : q * p % 2 ^ 32 = q * p - 2 ^ 32 := by omega
    omega

/-- A shorter period is rejected. -/
theorem StopsAt.le_period (hs : StopsAt p 1 257 d) : 8 ≤ p := by
  by_contra h8
  have hq : 125000000 / d ≤ 125000000 := Nat.div_le_self _ _
  have hmul := Nat.mul_le_mul hq (show p ≤ 7 by omega)
  exact hs.top (Nat.div_eq_of_lt (Nat.lt_of_le_of_lt (Nat.mod_le _ _) (by omega)))

/-- Where the loop stops, the product does not wrap exactly for these periods. -/
theorem fits_iff (hs : StopsAt p 1 257 d) : 125000000 / d * p < 2 ^ 32 ↔ Exact p := by
  have hp := hs.le_period
  obtain ⟨hd, hd', htop, hfirst⟩ := hs
  constructor
  · intro hx
    by_contra hne
    rcases Nat.lt_or_ge 11050 p with hbig | hp'
    · have hlow : 488281 ≤ 125000000 / d := (Nat.le_div_iff_mul_le hd).2 (by omega)
      have hmul := Nat.mul_le_mul hlow hbig
      omega
    · obtain ⟨e, he, he', hwrap, htop'⟩ := exists_wraps hne hp hp'
      have hle : d ≤ e := by
        by_contra hlt
        exact htop' (hfirst e he (Nat.not_le.1 hlt))
      have hmul := Nat.mul_le_mul_right p (Nat.div_le_div_left (a := 125000000) hle hd)
      omega
  · intro hE
    have hpast : ∀ k, d ≠ k → k ≤ d → k + 1 ≤ d := fun k hne hk => Nat.lt_of_le_of_ne hk (Ne.symm hne)
    have hne : ∀ k, topAt p k = 0 → d ≠ k := by
      rintro k hk rfl
      exact htop hk
    have hq : ∀ k, 0 < k → k ≤ d → 125000000 / d * p ≤ 125000000 / k * p := fun k hk hle =>
      Nat.mul_le_mul_right p (Nat.div_le_div_left hle hk)
    have hcase : p ≤ 34 ∨ 35 ≤ p ∧ p ≤ 42 ∨ 69 ≤ p ∧ p ≤ 76 := by
      unfold Exact at hE
      omega
    rcases hcase with hp | hp | hp
    · have hx := hq 1 Nat.one_pos hd
      rw [Nat.div_one] at hx
      omega
    · have hd₂ := hpast 1 (hne 1 (topAt_one_zero (.inl hp))) hd
      have hx := hq 2 Nat.two_pos hd₂
      omega
    · have hd₂ := hpast 1 (hne 1 (topAt_one_zero (.inr hp))) hd
      have hd₃ := hpast 2 (hne 2 (topAt_two_zero hp.1 hp.2)) hd₂
      have hx := hq 3 (by decide) hd₃
      omega

/-! ## The compare count -/

variable {period duty top : U32}

theorem toNat_ccFor (h : duty.toNat * (top.toNat + 1) < 2 ^ 32) (ht : top.toNat ≤ 4) :
    (ccFor period duty top).toNat = min (duty.toNat * (top.toNat + 1) / period.toNat) top.toNat := by
  have hcc : (duty * (top + 1) / period).toNat = duty.toNat * (top.toNat + 1) / period.toNat := by
    have hadd : (top + 1).toNat = top.toNat + 1 := by
      rw [BitVec.toNat_add]
      exact Nat.mod_eq_of_lt (by simp only [BitVec.toNat_ofNat, BitVec.ofNat_eq_ofNat]; omega)
    rw [BitVec.toNat_udiv, BitVec.toNat_mul, hadd, Nat.mod_eq_of_lt h]
  unfold ccFor
  dsimp only
  split
  · rename_i hgt
    rw [gt_iff_lt, BitVec.lt_def, hcc] at hgt
    rw [Nat.min_eq_right (Nat.le_of_lt hgt)]
  · rename_i hgt
    rw [gt_iff_lt, BitVec.lt_def, hcc, Nat.not_lt] at hgt
    rw [hcc, Nat.min_eq_left hgt]

theorem ccFor_le (period duty top : U32) : ccFor period duty top ≤ top := by
  unfold ccFor
  dsimp only
  split
  · exact BitVec.le_refl top
  · rename_i hgt
    exact BitVec.not_lt.1 hgt

/-- Without a wrap the count is the share of the duty, rounded down or cut off at `top`. -/
theorem cc_of_fits (hp : 0 < period.toNat) (hd : duty ≤ period) (h : duty.toNat * (top.toNat + 1) < 2 ^ 32)
    (ht : top.toNat ≤ 4) : (ccFor period duty top).toNat * period.toNat ≤ duty.toNat * (top.toNat + 1) ∧
      duty.toNat * (top.toNat + 1) ≤ ((ccFor period duty top).toNat + 1) * period.toNat := by
  rw [toNat_ccFor h ht]
  have hle : duty.toNat * (top.toNat + 1) ≤ (top.toNat + 1) * period.toNat := by
    rw [Nat.mul_comm]
    exact Nat.mul_le_mul_left _ hd
  have hfloor := Nat.div_mul_le_self (duty.toNat * (top.toNat + 1)) period.toNat
  have hceil := Nat.lt_div_mul_add (a := duty.toNat * (top.toNat + 1)) hp
  constructor
  · exact Nat.le_trans (Nat.mul_le_mul_right _ (Nat.min_le_left _ _)) hfloor
  · rcases Nat.le_total (duty.toNat * (top.toNat + 1) / period.toNat) top.toNat with hmin | hmin
    · rw [Nat.min_eq_left hmin, Nat.succ_mul]
      exact Nat.le_of_lt hceil
    · rw [Nat.min_eq_right hmin]
      exact hle

/-! ## The law -/

/-- The divider, the top and the count are in range, the period is right up to two ticks of `div * 8` ns, and the count
is the share of the duty up to 1. -/
structure DividerLaw (period duty div top cc : U32) : Prop where
  divRange : 1 ≤ div.toNat ∧ div.toNat ≤ 256
  topRange : 1 ≤ top.toNat ∧ top.toNat ≤ 65535
  ccRange : cc ≤ top
  realised : |((top.toNat + 1) * div.toNat * 8 : ℤ) - period.toNat| ≤ 2 * (div.toNat * 8)
  share : |(cc.toNat : ℚ) - duty.toNat * (top.toNat + 1) / period.toNat| ≤ 1

/-- The part of the law about the period. -/
theorem period_law_iff (hs : StopsAt p 1 257 d) :
    |((topAt p d + 1) * d * 8 : ℤ) - p| ≤ 2 * (d * 8) ↔ 125000000 / d * p < 2 ^ 32 := by
  have hd : 0 < d := hs.le
  have hmul : 8 * d * topAt p d = 8 * (d * topAt p d) := Nat.mul_assoc 8 d _
  have hmul' : ((topAt p d + 1) * d * 8 : ℤ) = 8 * ((d * topAt p d : ℕ) : ℤ) + 8 * d := by
    push_cast
    ring
  rw [hmul', abs_le]
  constructor
  · intro hlaw
    by_contra hx
    have hwrap := period_of_wraps hd (Nat.not_lt.1 hx)
    rw [Nat.mul_add, hmul] at hwrap
    omega
  · intro hx
    obtain ⟨h₁, h₂⟩ := period_of_fits hd (Nat.le_of_lt_succ hs.lt) hx
    rw [Nat.mul_add] at h₂
    rw [hmul] at h₁ h₂
    omega

/-- **The programmed values are right for 43 periods.** Whenever `rp1_pwm_hw_config` accepts a period and a duty, the
divider, the top and the count it has programmed meet the law exactly if the period is one of 8 to 42 or 69 to 76
nanoseconds. -/
theorem divider_law_iff (sc sc' : Rp1PwmSoftc) (channel period duty : U32)
    (h : rp1PwmHwConfig sc channel period duty = (0, sc')) :
    (sc'.read (rp1PwmCtrb channel) = sc'.read (rp1PwmCtra channel) ∧
      DividerLaw period duty (sc'.read (rp1PwmDiv channel)) (sc'.read (rp1PwmTop channel))
        (sc'.read (rp1PwmCtra channel))) ↔ Exact period.toNat := by
  rw [hwConfig_eq] at h
  split at h
  · rename_i hA
    obtain ⟨hch, hp₀, hd, htop, -⟩ := hA
    obtain ⟨hs, ht⟩ := divLoop_stops period 256 1 0 (by decide) rfl htop
    cases h
    obtain ⟨hdiv', htop', hctra, hctrb⟩ := read_hwProgram sc period (divLoop period 256 1 0).1
      (divLoop period 256 1 0).2 (ccFor period duty (divLoop period 256 1 0).2) hch
    rw [hdiv', htop', hctra, hctrb]
    generalize (divLoop period 256 1 0).1 = div at *
    generalize (divLoop period 256 1 0).2 = top at *
    have hs' : StopsAt period.toNat 1 257 div.toNat := hs
    have hfits := fits_iff hs'
    have hperiod := period_law_iff hs'
    have hle := topAt_le period.toNat div.toNat
    rw [← ht] at hle hperiod
    constructor
    · rintro ⟨-, hlaw⟩
      exact hfits.1 (hperiod.1 hlaw.realised)
    · intro hE
      have hp : 0 < period.toNat := Nat.pos_of_ne_zero fun hz => hp₀ (BitVec.eq_of_toNat_eq hz)
      have hpQ : (0 : ℚ) < period.toNat := Nat.cast_pos.2 hp
      have hbound : duty.toNat * (top.toNat + 1) < 2 ^ 32 := by
        have hp76 : period.toNat ≤ 76 := by
          unfold Exact at hE
          omega
        exact Nat.lt_of_le_of_lt (Nat.mul_le_mul (Nat.le_trans hd hp76) (Nat.succ_le_succ hle)) (by decide)
      obtain ⟨h₁, h₂⟩ := cc_of_fits hp hd hbound hle
      have h₁' : ((ccFor period duty top).toNat : ℚ) * period.toNat ≤ duty.toNat * (top.toNat + 1) := by
        exact_mod_cast h₁
      have h₂' : (duty.toNat * (top.toNat + 1) : ℚ) ≤ ((ccFor period duty top).toNat + 1) * period.toNat := by
        exact_mod_cast h₂
      refine ⟨rfl, ⟨hs'.le, Nat.le_of_lt_succ hs'.lt⟩, ⟨?_, by omega⟩, ccFor_le _ _ _, hperiod.2 (hfits.2 hE), ?_⟩
      · rw [ht]
        exact Nat.pos_of_ne_zero hs'.top
      · rw [abs_le]
        have hlo := (le_div_iff₀ hpQ).2 h₁'
        have hhi := (div_le_iff₀ hpQ).2 h₂'
        constructor <;> linarith
  · cases h

/-- 42 ns: 3 ticks of 16 ns. -/
theorem divider_law_42 : ∃ sc', rp1PwmHwConfig (rp1PwmAttach fun _ => 0) 0 42 21 = (0, sc') ∧
    DividerLaw 42 21 (sc'.read (rp1PwmDiv 0)) (sc'.read (rp1PwmTop 0)) (sc'.read (rp1PwmCtra 0)) := by
  have hrc : (rp1PwmHwConfig (rp1PwmAttach fun _ => 0) 0 42 21).1 = 0 := by decide +kernel
  exact ⟨_, Prod.ext hrc rfl, ((divider_law_iff _ _ 0 42 21 (Prod.ext hrc rfl)).2 (by decide)).2⟩

/-- The period of the fan, 41566 ns, is programmed as 4 ticks of 8 ns. -/
theorem divider_law_fan : ∃ sc', rp1PwmHwConfig (rp1PwmAttach fun _ => 0) 3 41566 20783 = (0, sc') ∧
    ¬DividerLaw 41566 20783 (sc'.read (rp1PwmDiv 3)) (sc'.read (rp1PwmTop 3)) (sc'.read (rp1PwmCtra 3)) := by
  have hrc : (rp1PwmHwConfig (rp1PwmAttach fun _ => 0) 3 41566 20783).1 = 0 := by decide +kernel
  have hdiv : (rp1PwmHwConfig (rp1PwmAttach fun _ => 0) 3 41566 20783).2.read (rp1PwmDiv 3) = 1 := by decide +kernel
  have htop : (rp1PwmHwConfig (rp1PwmAttach fun _ => 0) 3 41566 20783).2.read (rp1PwmTop 3) = 3 := by decide +kernel
  refine ⟨(rp1PwmHwConfig (rp1PwmAttach fun _ => 0) 3 41566 20783).2, Prod.ext hrc rfl, fun hlaw => ?_⟩
  have hperiod := hlaw.realised
  rw [hdiv, htop] at hperiod
  exact absurd hperiod (by decide)

end Pwm
