import Rpi5Modules.Cyw.Defs
import Rpi5Modules.Lib.Countdown

/-!
# Recovery from a failed read of F2

`cyw_rxfail` aborts F2, has the chip throw the rest of the frame away, and then polls the two registers with the byte
count of the frame until the count is zero. It gives up after 65535 polls, but a count that is not the one before
restarts the counter.

A count that goes up is taken for progress like one that goes down. So the polling ends only if the count reaches zero
or stands still for 65535 polls (`rxfail_bounded_iff`), and a count that keeps changing is polled for ever
(`rxfail_alternating`). A count that only goes down is polled a bounded number of times (`rxfail_falling`).
-/

namespace Cyw

open Countdown

/-! ## `cyw_rxfail` -/

def sdIoCccrCtl : Nat := 0x06
def sbsdioFunc1Framectrl : Nat := 0x1000d
def sbsdioFunc1FramectrlRfTerm : UInt8 := 0x02

/-- What `SBSDIO_FUNC1_RFRAMEBCHI` and `SBSDIO_FUNC1_RFRAMEBCLO` read as, poll by poll. -/
structure RframeBc where
  hi : Nat → BitVec 8
  lo : Nat → BitVec 8

/-- `(uint16_t)(hi << 8) | lo`. -/
def RframeBc.rbc (f : RframeBc) (i : Nat) : BitVec 16 := (f.hi i).setWidth 16 <<< 8 ||| (f.lo i).setWidth 16

/-- The polling from poll `i` on: how many polls were made when it ended, and `retries` then. -/
def rxfailPoll (f : RframeBc) : Nat → Nat → BitVec 16 → Nat → Option (Nat × Nat)
  | fuel, i, lastrbc, retries =>
    if 0 < retries then
      match fuel with
      | 0 => none
      | fuel + 1 =>
        if f.hi i = 0 ∧ f.lo i = 0 then some (i + 1, retries)
        else if f.rbc i ≠ lastrbc then rxfailPoll f fuel (i + 1) (f.rbc i) (0xffff - 1)
        else rxfailPoll f fuel (i + 1) lastrbc (retries - 1)
    else some (i, retries)

/-- What a run of `cyw_rxfail` did: its writes, the number of register reads, and the count of its message if it gave
up. -/
structure Rxfail where
  writes : List SdioWrite
  reads : Nat
  timeout : Option (BitVec 16)

/-- `cyw_rxfail`, for at most `fuel` polls. -/
def cywRxfail (f : RframeBc) (fuel : Nat) : Option Rxfail :=
  (rxfailPoll f fuel 0 0xffff 0xffff).map fun r =>
    { writes := [⟨0, sdIoCccrCtl, 2⟩, ⟨1, sbsdioFunc1Framectrl, sbsdioFunc1FramectrlRfTerm⟩]
      reads := 2 * r.1
      timeout := if r.2 = 0 then some (f.rbc (r.1 - 1)) else none }

/-- `cyw_rxfail` returns, after at most `n` register reads. -/
def RxfailReturns (f : RframeBc) (n : Nat) : Prop := ∃ fuel r, cywRxfail f fuel = some r ∧ r.reads ≤ n

/-! ## When it returns -/

variable (f : RframeBc)

/-- The count is zero if both bytes are. -/
theorem rbc_eq_zero (i : Nat) : f.rbc i = 0 ↔ f.hi i = 0 ∧ f.lo i = 0 := by
  have hlo := (f.lo i).isLt
  have hhi := (f.hi i).isLt
  apply BitVec.or_eq_zero_iff.trans
  simp only [BitVec.toNat_eq, BitVec.toNat_shiftLeft, BitVec.toNat_setWidth, BitVec.ofNat_eq_ofNat,
    BitVec.toNat_ofNat, Nat.shiftLeft_eq]
  omega

/-- The polling is the countdown of the byte counts. -/
theorem rxfailPoll_eq (fuel i : Nat) (lastrbc : BitVec 16) (retries : Nat) :
    rxfailPoll f fuel i lastrbc retries =
      countdown (fun c => decide (c = 0)) 0xffff f.rbc fuel i ⟨lastrbc, retries⟩ := by
  induction fuel generalizing i lastrbc retries with
  | zero => rw [rxfailPoll, countdown]
  | succ fuel ih =>
    rw [rxfailPoll, countdown]
    simp only [decide_eq_true_eq, rbc_eq_zero, State.next]
    split
    · split
      · rfl
      · split
        · exact ih _ _ _
        · exact ih _ _ _
    · rfl

/-- The count stands still for 65535 polls, of which poll `k` is the last. -/
def RframeBc.Stands (k : Nat) : Prop := 0xfffe ≤ k ∧ ∀ j, k ≤ j + 0xfffe → j ≤ k → f.rbc j = f.rbc k

theorem ends_iff (k : Nat) : Ends (fun c => decide (c = 0)) 0xffff f.rbc k ↔ f.rbc k = 0 ∨ f.Stands k := by
  rw [Ends, decide_eq_true_iff, le_standing_iff f.rbc (by decide), RframeBc.Stands]
  refine or_congr_right (and_congr (by omega) (forall_congr' fun j => ?_))
  rw [show k + 1 ≤ j + 0xffff ↔ k ≤ j + 0xfffe by omega]

/-- What `cyw_rxfail` has done when it returns: two reads for each poll up to the first that ends it, and the message
if this one did not see a zero count. -/
theorem cywRxfail_some {fuel : Nat} {r : Rxfail} (h : cywRxfail f fuel = some r) :
    ∃ k, r.reads = 2 * (k + 1) ∧ (f.rbc k = 0 ∨ f.Stands k) ∧ (∀ j < k, f.rbc j ≠ 0 ∧ ¬f.Stands j) ∧
      r.timeout = if f.rbc k = 0 then none else some (f.rbc k) := by
  obtain ⟨⟨n, retries⟩, hpoll, rfl⟩ := Option.map_eq_some_iff.1 h
  rw [rxfailPoll_eq] at hpoll
  obtain ⟨k, -, -, rfl, hends, hfirst, hzero⟩ := countdown_some (State.at_start 0xffff (by decide)) hpoll
  refine ⟨k, rfl, (ends_iff f k).1 hends, fun j hj => ?_, ?_⟩
  · have hno := hfirst j (Nat.zero_le j) hj
    rwa [ends_iff, not_or] at hno
  · rw [decide_eq_true_iff] at hzero
    by_cases hk : f.rbc k = 0
    · rw [if_pos hk]
      exact if_neg fun h0 => hzero.1 h0 hk
    · rw [if_neg hk]
      exact if_pos (hzero.2 hk)

/-- A poll that ends it bounds it. -/
theorem rxfailReturns_of {k : Nat} (h : f.rbc k = 0 ∨ f.Stands k) : RxfailReturns f (2 * (k + 1)) := by
  obtain ⟨r, hr, hle⟩ : ∃ r, countdown (fun c => decide (c = 0)) 0xffff f.rbc (k + 1) 0 ⟨0xffff, 0xffff⟩ = some r ∧
      r.1 ≤ k + 1 :=
    countdown_of_ends (State.at_start 0xffff (by decide)) (Nat.zero_le k) (by omega) ((ends_iff f k).2 h)
  refine ⟨k + 1, _, by rw [cywRxfail, rxfailPoll_eq, hr]; rfl, ?_⟩
  show 2 * r.1 ≤ _
  omega

/-- **Recovery is bounded if the count reaches zero or stands still**: `cyw_rxfail` returns within `n` register reads
exactly if among the polls these make there is one that sees a zero count or is the 65535th of equal ones. -/
theorem rxfail_bounded_iff (n : Nat) :
    RxfailReturns f n ↔ ∃ k, 2 * (k + 1) ≤ n ∧ (f.rbc k = 0 ∨ f.Stands k) := by
  constructor
  · rintro ⟨fuel, r, hr, hn⟩
    obtain ⟨k, hreads, hends, -, -⟩ := cywRxfail_some f hr
    exact ⟨k, hreads ▸ hn, hends⟩
  · rintro ⟨k, hn, hends⟩
    obtain ⟨fuel, r, hr, hle⟩ := rxfailReturns_of f hends
    exact ⟨fuel, r, hr, Nat.le_trans hle hn⟩

/-- A count that reaches zero at the fourth poll. -/
example : (cywRxfail ⟨fun _ => 0, fun i => if i < 3 then 7 else 0⟩ 4).map (fun r => (r.reads, r.timeout)) =
    some (8, none) := by decide

/-- A bus that gives one byte count and another in turn. -/
def alternating : RframeBc where
  hi _ := 0
  lo i := if i % 2 = 0 then 1 else 2

theorem alternating_rbc (i : Nat) : alternating.rbc i = if i % 2 = 0 then 1 else 2 := by
  rw [RframeBc.rbc, alternating]
  dsimp only
  split <;> rfl

/-- The alternating count is polled for ever, so no bound holds for every sequence of readings. -/
theorem rxfail_alternating :
    (¬∃ fuel r, cywRxfail alternating fuel = some r) ∧ ¬∃ n, ∀ f, RxfailReturns f n := by
  have hnever : ∀ fuel r, cywRxfail alternating fuel ≠ some r := by
    intro fuel r hr
    obtain ⟨k, -, hends, -, -⟩ := cywRxfail_some alternating hr
    rw [← ends_iff] at hends
    refine not_ends_of_changing (fun i => ?_) (fun i => ?_) (by decide) k hends
    · rw [decide_eq_true_iff, alternating_rbc]
      split <;> decide
    · rw [alternating_rbc, alternating_rbc]
      have : (i + 1) % 2 = 0 ↔ ¬i % 2 = 0 := by omega
      by_cases hi : i % 2 = 0
      · rw [if_neg (fun h => this.1 h hi), if_pos hi]
        decide
      · rw [if_pos (this.2 hi), if_neg hi]
        decide
  exact ⟨fun ⟨fuel, r, hr⟩ => hnever fuel r hr, fun ⟨n, hn⟩ => by
    obtain ⟨fuel, r, hr, -⟩ := hn alternating
    exact hnever fuel r hr⟩

/-- A count that only goes down, as when the frame leaves the chip, bounds it. -/
theorem rxfail_falling (hfall : ∀ i, f.rbc (i + 1) ≠ f.rbc i → (f.rbc (i + 1)).toNat < (f.rbc i).toNat) :
    RxfailReturns f (2 * (0xffff * 0xfffe + 1)) := by
  have hzero : ∀ c : BitVec 16, c.toNat = 0 → decide (c = 0) = true :=
    fun c hc => decide_eq_true (BitVec.eq_of_toNat_eq hc)
  obtain ⟨k, hk, hends⟩ : ∃ k ≤ (f.rbc 0).toNat * 0xfffe, Ends (fun c => decide (c = 0)) 0xffff f.rbc k :=
    exists_ends_of_falling BitVec.toNat hzero hfall (Nat.succ_pos 0xfffe)
  have hle := Nat.mul_le_mul_right 0xfffe (Nat.le_pred_of_lt (f.rbc 0).isLt)
  obtain ⟨fuel, r, hr, hn⟩ := rxfailReturns_of f ((ends_iff f k).1 hends)
  refine ⟨fuel, r, hr, Nat.le_trans hn ?_⟩
  have : k ≤ 0xffff * 0xfffe := Nat.le_trans hk hle
  omega

end Cyw
