import Mathlib.Data.Nat.ModEq
import Mathlib.Logic.Function.Basic
import Rpi5Modules.Lib.Transition

/-!
# The statistics of the MAC

The MAC counts frames and octets in registers that reading clears, 32 bits each and 48 bits in two registers for the
octets; `cgem_poll_hw_stats` reads one after another, while the MAC goes on counting, and adds them up in `stats`.
`cgem_reset` clears the registers.

What a statistic shows, what its register holds and what resets have cleared is what the MAC has counted, modulo the
width of the statistic (`stats_exact`).
-/

namespace Eth

open Transition

/-- The fields of `stats`. -/
inductive Stat where
  | txBytes | txFrames | txFramesBcast | txFramesMulti | txFramesPause | txFrames64b | txFrames65to127b
  | txFrames128to255b | txFrames256to511b | txFrames512to1023b | txFrames1024to1536b | txUnderRuns
  | txSingleCollisn | txMultiCollisn | txExcsvCollisn | txLateCollisn | txDeferredFrames | txCarrierSenseErrs
  | rxBytes | rxFrames | rxFramesBcast | rxFramesMulti | rxFramesPause | rxFrames64b | rxFrames65to127b
  | rxFrames128to255b | rxFrames256to511b | rxFrames512to1023b | rxFrames1024to1536b | rxFramesUndersize
  | rxFramesOversize | rxFramesJabber | rxFramesFcsErrs | rxFramesLengthErrs | rxSymbolErrs | rxAlignErrs
  | rxResourceErrs | rxOverrunErrs | rxIpHdrCsumErrs | rxTcpCsumErrs | rxUdpCsumErrs
deriving DecidableEq

/-- The part of a counter that a register shows. -/
inductive Part where
  | bot
  | top
deriving DecidableEq

/-- One `RD4` of `cgem_poll_hw_stats`: the register, the field it is added to, and by how much it is shifted. -/
structure PollRead where
  reg : Nat
  stat : Stat
  shift : Nat
deriving DecidableEq

/-- The counter of the MAC behind a register, as `rp1_eth_hw.h` lists them. -/
def cgemCounter : Nat → Option (Stat × Part)
  | 0x100 => some (.txBytes, .bot)
  | 0x104 => some (.txBytes, .top)
  | 0x108 => some (.txFrames, .bot)
  | 0x10c => some (.txFramesBcast, .bot)
  | 0x110 => some (.txFramesMulti, .bot)
  | 0x114 => some (.txFramesPause, .bot)
  | 0x118 => some (.txFrames64b, .bot)
  | 0x11c => some (.txFrames65to127b, .bot)
  | 0x120 => some (.txFrames128to255b, .bot)
  | 0x124 => some (.txFrames256to511b, .bot)
  | 0x128 => some (.txFrames512to1023b, .bot)
  | 0x12c => some (.txFrames1024to1536b, .bot)
  | 0x134 => some (.txUnderRuns, .bot)
  | 0x138 => some (.txSingleCollisn, .bot)
  | 0x13c => some (.txMultiCollisn, .bot)
  | 0x140 => some (.txExcsvCollisn, .bot)
  | 0x144 => some (.txLateCollisn, .bot)
  | 0x148 => some (.txDeferredFrames, .bot)
  | 0x14c => some (.txCarrierSenseErrs, .bot)
  | 0x150 => some (.rxBytes, .bot)
  | 0x154 => some (.rxBytes, .top)
  | 0x158 => some (.rxFrames, .bot)
  | 0x15c => some (.rxFramesBcast, .bot)
  | 0x160 => some (.rxFramesMulti, .bot)
  | 0x164 => some (.rxFramesPause, .bot)
  | 0x168 => some (.rxFrames64b, .bot)
  | 0x16c => some (.rxFrames65to127b, .bot)
  | 0x170 => some (.rxFrames128to255b, .bot)
  | 0x174 => some (.rxFrames256to511b, .bot)
  | 0x178 => some (.rxFrames512to1023b, .bot)
  | 0x17c => some (.rxFrames1024to1536b, .bot)
  | 0x184 => some (.rxFramesUndersize, .bot)
  | 0x188 => some (.rxFramesOversize, .bot)
  | 0x18c => some (.rxFramesJabber, .bot)
  | 0x190 => some (.rxFramesFcsErrs, .bot)
  | 0x194 => some (.rxFramesLengthErrs, .bot)
  | 0x198 => some (.rxSymbolErrs, .bot)
  | 0x19c => some (.rxAlignErrs, .bot)
  | 0x1a0 => some (.rxResourceErrs, .bot)
  | 0x1a4 => some (.rxOverrunErrs, .bot)
  | 0x1a8 => some (.rxIpHdrCsumErrs, .bot)
  | 0x1ac => some (.rxTcpCsumErrs, .bot)
  | 0x1b0 => some (.rxUdpCsumErrs, .bot)
  | _ => none

/-- `cgem_poll_hw_stats`, read by read. -/
def cgemPollHwStats : List PollRead :=
  [⟨0x100, .txBytes, 0⟩, ⟨0x104, .txBytes, 32⟩, ⟨0x108, .txFrames, 0⟩, ⟨0x10c, .txFramesBcast, 0⟩,
    ⟨0x110, .txFramesMulti, 0⟩, ⟨0x114, .txFramesPause, 0⟩, ⟨0x118, .txFrames64b, 0⟩, ⟨0x11c, .txFrames65to127b, 0⟩,
    ⟨0x120, .txFrames128to255b, 0⟩, ⟨0x124, .txFrames256to511b, 0⟩, ⟨0x128, .txFrames512to1023b, 0⟩,
    ⟨0x12c, .txFrames1024to1536b, 0⟩, ⟨0x134, .txUnderRuns, 0⟩, ⟨0x138, .txSingleCollisn, 0⟩,
    ⟨0x13c, .txMultiCollisn, 0⟩, ⟨0x140, .txExcsvCollisn, 0⟩, ⟨0x144, .txLateCollisn, 0⟩,
    ⟨0x148, .txDeferredFrames, 0⟩, ⟨0x14c, .txCarrierSenseErrs, 0⟩, ⟨0x150, .rxBytes, 0⟩, ⟨0x154, .rxBytes, 32⟩,
    ⟨0x158, .rxFrames, 0⟩, ⟨0x15c, .rxFramesBcast, 0⟩, ⟨0x160, .rxFramesMulti, 0⟩, ⟨0x164, .rxFramesPause, 0⟩,
    ⟨0x168, .rxFrames64b, 0⟩, ⟨0x16c, .rxFrames65to127b, 0⟩, ⟨0x170, .rxFrames128to255b, 0⟩,
    ⟨0x174, .rxFrames256to511b, 0⟩, ⟨0x178, .rxFrames512to1023b, 0⟩, ⟨0x17c, .rxFrames1024to1536b, 0⟩,
    ⟨0x184, .rxFramesUndersize, 0⟩, ⟨0x188, .rxFramesOversize, 0⟩, ⟨0x18c, .rxFramesJabber, 0⟩,
    ⟨0x190, .rxFramesFcsErrs, 0⟩, ⟨0x194, .rxFramesLengthErrs, 0⟩, ⟨0x198, .rxSymbolErrs, 0⟩,
    ⟨0x19c, .rxAlignErrs, 0⟩, ⟨0x1a0, .rxResourceErrs, 0⟩, ⟨0x1a4, .rxOverrunErrs, 0⟩, ⟨0x1a8, .rxIpHdrCsumErrs, 0⟩,
    ⟨0x1ac, .rxTcpCsumErrs, 0⟩, ⟨0x1b0, .rxUdpCsumErrs, 0⟩]

/-- The part of a counter that a row reads. -/
def PollRead.part (r : PollRead) : Part := if r.shift = 0 then .bot else .top

namespace Stat

def octets : Stat → Bool
  | txBytes | rxBytes => true
  | _ => false

/-- The statistics that `IFCOUNTER_COLLISIONS` adds up. -/
def collision : Stat → Bool
  | txSingleCollisn | txMultiCollisn | txExcsvCollisn | txLateCollisn => true
  | _ => false

/-- The width of the field: `uint64_t` for the octets. -/
def bits (s : Stat) : Nat := if s.octets then 64 else 32

/-- The width of the counter of the MAC. -/
def hwBits (s : Stat) : Nat := if s.octets then 48 else 32

end Stat

namespace Part

/-- What the register shows of the counter `v`. -/
def shown (v : Nat) : Part → Nat
  | bot => v % 2 ^ 32
  | top => v / 2 ^ 32

/-- What is left of the counter when the register is cleared. -/
def left (v : Nat) : Part → Nat
  | bot => v / 2 ^ 32 * 2 ^ 32
  | top => v % 2 ^ 32

/-- By how much the code has to shift what the register shows. -/
def shift : Part → Nat
  | bot => 0
  | top => 32

end Part

/-- The counters of the MAC, what the code has added up, and the rest of a poll; `total` and `lost` are what the MAC has
counted, and what resets have cleared. -/
structure StatsSys where
  hw : Stat → Nat
  stats : Stat → Nat
  collisions : Nat
  todo : List PollRead
  total : Stat → Nat
  lost : Stat → Nat

inductive StatsAct where
  /-- The MAC counts `n`. -/
  | count (s : Stat) (n : Nat)
  /-- `rp1eth_tick` calls `cgem_poll_hw_stats`. -/
  | poll
  /-- The next read of the poll. -/
  | read
  /-- `cgem_reset`. -/
  | reset

namespace StatsSys

def init : StatsSys := ⟨fun _ => 0, fun _ => 0, 0, [], fun _ => 0, fun _ => 0⟩

/-- What a register shows. -/
def shown (w : StatsSys) (reg : Nat) : Nat :=
  match cgemCounter reg with
  | some (c, part) => part.shown (w.hw c)
  | none => 0

/-- The counters after a register has been read. -/
def cleared (w : StatsSys) (reg : Nat) : Stat → Nat :=
  match cgemCounter reg with
  | some (c, part) => Function.update w.hw c (part.left (w.hw c))
  | none => w.hw

/-- A register is read, and added to its field and to the collisions. -/
def take (w : StatsSys) (r : PollRead) : StatsSys :=
  { w with
    hw := w.cleared r.reg
    stats := Function.update w.stats r.stat ((w.stats r.stat + w.shown r.reg * 2 ^ r.shift) % 2 ^ r.stat.bits)
    collisions := if r.stat.collision then w.collisions + w.shown r.reg else w.collisions }

def step (w : StatsSys) : StatsAct → Option StatsSys
  | .count s n =>
    some { w with
      hw := Function.update w.hw s ((w.hw s + n) % 2 ^ s.hwBits)
      total := Function.update w.total s (w.total s + n) }
  | .poll => if w.todo.isEmpty then some { w with todo := cgemPollHwStats } else none
  | .read =>
    match w.todo with
    | [] => none
    | r :: rs => some { w.take r with todo := rs }
  | .reset =>
    if w.todo.isEmpty then some { w with hw := fun _ => 0, lost := fun s => w.lost s + w.hw s } else none

end StatsSys

/-! ## One read -/

/-- Each read adds what it clears: the register is a part of the field's counter, shifted into place. -/
theorem pollRead_part {r : PollRead} (h : r ∈ cgemPollHwStats) :
    ∃ part, cgemCounter r.reg = some (r.stat, part) ∧ r.shift = part.shift := by
  have hall : ∀ r ∈ cgemPollHwStats, cgemCounter r.reg = some (r.stat, r.part) ∧ r.shift = r.part.shift := by decide
  exact ⟨r.part, hall r h⟩

theorem pollRead_collision {r : PollRead} (h : r ∈ cgemPollHwStats) (hs : r.stat.collision = true) :
    r.shift = 0 ∧ r.stat.bits = 32 := by
  have hall : ∀ r ∈ cgemPollHwStats, r.stat.collision = true → r.shift = 0 ∧ r.stat.bits = 32 := by
    simp [cgemPollHwStats, Stat.collision, Stat.bits, Stat.octets]
  exact hall r h hs

/-- A counter is what its registers show. -/
theorem Part.shown_add_left (v : Nat) (part : Part) : part.shown v * 2 ^ part.shift + part.left v = v := by
  cases part
  · simp only [shown, left, shift]
    omega
  · simp only [shown, left, shift]
    omega

theorem Part.left_le (v : Nat) (part : Part) : part.left v ≤ v := by
  have h := Part.shown_add_left v part
  omega

namespace StatsSys

/-- What the four collision statistics add up to. -/
def collisionSum (f : Stat → Nat) : Nat :=
  f .txSingleCollisn + f .txMultiCollisn + f .txExcsvCollisn + f .txLateCollisn

theorem collisionSum_update (f : Stat → Nat) (s : Stat) (v : Nat) :
    collisionSum (Function.update f s v) + (if s.collision then f s else 0) =
      collisionSum f + (if s.collision then v else 0) := by
  cases s <;> simp [collisionSum, Stat.collision, Function.update] <;> omega

/-- The octet counters do not run over their 48 bits. -/
def InRange (w : StatsSys) : StatsAct → Prop
  | .count s n => s.octets = true → w.hw s + n < 2 ^ 48
  | _ => True

/-- What was counted is in the statistics, in the registers, or was cleared by a reset. -/
structure Counted (w : StatsSys) : Prop where
  todo : ∀ r ∈ w.todo, r ∈ cgemPollHwStats
  hw : ∀ s, w.hw s < 2 ^ s.hwBits
  sum : ∀ s, w.stats s + w.hw s + w.lost s ≡ w.total s [MOD 2 ^ s.bits]
  collisions : w.collisions ≡ collisionSum w.stats [MOD 2 ^ 32]

theorem counted_init : init.Counted := by
  refine ⟨by simp [init], fun s => ?_, fun s => rfl, rfl⟩
  exact Nat.two_pow_pos _

variable {w w' : StatsSys} {r : PollRead}

theorem counted_count (h : w.Counted) {s : Stat} {n : Nat} (hr : w.InRange (.count s n)) :
    Counted { w with
      hw := Function.update w.hw s ((w.hw s + n) % 2 ^ s.hwBits)
      total := Function.update w.total s (w.total s + n) } := by
  refine ⟨h.todo, fun s' => ?_, fun s' => ?_, h.collisions⟩
  · by_cases hs : s' = s
    · subst hs
      simpa using Nat.mod_lt _ (Nat.two_pow_pos s'.hwBits)
    · simpa [Function.update_of_ne hs] using h.hw s'
  · by_cases hs : s' = s
    · subst hs
      have hsum := (h.sum s').add_right n
      have hwrap : (w.hw s' + n) % 2 ^ s'.hwBits ≡ w.hw s' + n [MOD 2 ^ s'.bits] := by
        unfold InRange at hr
        unfold Stat.hwBits Stat.bits
        cases ho : s'.octets with
        | true =>
          rw [if_pos rfl, if_pos rfl, Nat.mod_eq_of_lt (hr ho)]
        | false => exact Nat.mod_modEq _ _
      simp only [Function.update_self]
      calc w.stats s' + (w.hw s' + n) % 2 ^ s'.hwBits + w.lost s'
          ≡ w.stats s' + (w.hw s' + n) + w.lost s' [MOD 2 ^ s'.bits] := (hwrap.add_left _).add_right _
        _ = w.stats s' + w.hw s' + w.lost s' + n := by omega
        _ ≡ w.total s' + n [MOD 2 ^ s'.bits] := hsum
    · simpa [Function.update_of_ne hs] using h.sum s'

theorem take_hw {part : Part} (hc : cgemCounter r.reg = some (r.stat, part)) :
    (w.take r).hw = Function.update w.hw r.stat (part.left (w.hw r.stat)) := by
  simp [take, cleared, hc]

theorem take_shown {part : Part} (hc : cgemCounter r.reg = some (r.stat, part)) :
    w.shown r.reg = part.shown (w.hw r.stat) := by
  simp [shown, hc]

theorem counted_take (h : w.Counted) (hr : r ∈ cgemPollHwStats) : (w.take r).Counted := by
  obtain ⟨part, hc, hshift⟩ := pollRead_part hr
  have hparts := Part.shown_add_left (w.hw r.stat) part
  refine ⟨h.todo, fun s => ?_, fun s => ?_, ?_⟩
  · rw [take_hw hc]
    by_cases hs : s = r.stat
    · subst hs
      rw [Function.update_self]
      exact Nat.lt_of_le_of_lt (part.left_le _) (h.hw _)
    · rw [Function.update_of_ne hs]
      exact h.hw s
  · rw [take_hw hc]
    by_cases hs : s = r.stat
    · subst hs
      simp only [take, Function.update_self, take_shown hc, hshift]
      calc (w.stats r.stat + part.shown (w.hw r.stat) * 2 ^ part.shift) % 2 ^ r.stat.bits + part.left (w.hw r.stat) +
            w.lost r.stat
          ≡ w.stats r.stat + part.shown (w.hw r.stat) * 2 ^ part.shift + part.left (w.hw r.stat) +
            w.lost r.stat [MOD 2 ^ r.stat.bits] := ((Nat.mod_modEq _ _).add_right _).add_right _
        _ = w.stats r.stat + w.hw r.stat + w.lost r.stat := by omega
        _ ≡ w.total r.stat [MOD 2 ^ r.stat.bits] := h.sum _
    · simp only [take, Function.update_of_ne hs]
      exact h.sum s
  · have hupd := collisionSum_update w.stats r.stat
      ((w.stats r.stat + w.shown r.reg * 2 ^ r.shift) % 2 ^ r.stat.bits)
    have hcoll := h.collisions
    unfold Nat.ModEq at hcoll ⊢
    simp only [take]
    cases hs : r.stat.collision with
    | false =>
      simp only [hs, Bool.false_eq_true, if_false, Nat.add_zero] at hupd ⊢
      rw [hupd, hcoll]
    | true =>
      obtain ⟨hshift, hbits⟩ := pollRead_collision hr hs
      simp only [hs, if_true, hshift, hbits, Nat.pow_zero, Nat.mul_one] at hupd ⊢
      omega

theorem counted_step {a : StatsAct} (h : w.Counted) (hr : w.InRange a) (hst : w.step a = some w') : w'.Counted := by
  cases a with
  | count s n =>
    cases hst
    exact counted_count h hr
  | poll =>
    obtain ⟨-, hst⟩ := Option.ite_none_right_eq_some.1 hst
    cases hst
    exact ⟨fun r hr => hr, h.hw, h.sum, h.collisions⟩
  | read =>
    simp only [step] at hst
    split at hst
    · cases hst
    next r rs htodo =>
      cases hst
      have hmem : ∀ x ∈ r :: rs, x ∈ cgemPollHwStats := htodo ▸ h.todo
      obtain ⟨-, hhw, hsum, hcoll⟩ := counted_take h (hmem r List.mem_cons_self)
      exact ⟨fun x hx => hmem x (List.mem_cons_of_mem r hx), hhw, hsum, hcoll⟩
  | reset =>
    obtain ⟨-, hst⟩ := Option.ite_none_right_eq_some.1 hst
    cases hst
    refine ⟨h.todo, fun s => Nat.two_pow_pos _, fun s => ?_, h.collisions⟩
    have hsum := h.sum s
    rwa [show w.stats s + 0 + (w.lost s + w.hw s) = w.stats s + w.hw s + w.lost s by omega]

/-! ## A whole poll -/

/-- The reads `rs`, one after another. -/
def takes (w : StatsSys) (rs : List PollRead) : StatsSys := rs.foldl take w

theorem run_reads (w : StatsSys) (rs : List PollRead) :
    run step { w with todo := rs } (List.replicate rs.length .read) = some { w.takes rs with todo := [] } := by
  induction rs generalizing w with
  | nil => rfl
  | cons r rs ih =>
    rw [List.length_cons, List.replicate_succ, run_cons]
    exact ih (w.take r)

/-- What the reads leave of a counter: each row of its field takes its part. -/
theorem takes_hw {rs : List PollRead} (hrs : ∀ r ∈ rs, r ∈ cgemPollHwStats) (s : Stat) :
    (w.takes rs).hw s = (rs.filter (·.stat = s)).foldl (fun v r => r.part.left v) (w.hw s) := by
  induction rs generalizing w with
  | nil => rfl
  | cons r rs ih =>
    obtain ⟨part, hc, hshift⟩ := pollRead_part (hrs r List.mem_cons_self)
    have hpart : part = r.part := by
      unfold PollRead.part
      rw [hshift]
      cases part <;> rfl
    have htail := ih (w := w.take r) fun x hx => hrs x (List.mem_cons_of_mem r hx)
    rw [take_hw hc, hpart] at htail
    by_cases hs : r.stat = s
    · subst hs
      simpa [takes] using htail
    · simpa [takes, hs, Function.update_of_ne (Ne.symm hs)] using htail

theorem counted_takes {rs : List PollRead} (hrs : ∀ r ∈ rs, r ∈ cgemPollHwStats) (h : w.Counted) :
    (w.takes rs).Counted ∧ (w.takes rs).total = w.total ∧ (w.takes rs).lost = w.lost := by
  induction rs generalizing w with
  | nil => exact ⟨h, rfl, rfl⟩
  | cons r rs ih =>
    exact ih (fun x hx => hrs x (List.mem_cons_of_mem r hx)) (counted_take h (hrs r List.mem_cons_self))

/-- The rows of a field read all of its counter. -/
theorem rows_left {v : Nat} (s : Stat) (hv : v < 2 ^ s.hwBits) :
    (cgemPollHwStats.filter (·.stat = s)).foldl (fun v r => r.part.left v) v = 0 := by
  unfold Stat.hwBits at hv
  cases s <;> simp [cgemPollHwStats, PollRead.part, Part.left, Stat.octets] at hv ⊢ <;> omega

/-- **The statistics of the MAC.** However the MAC counts between the reads of the polls, and whenever it is reset, what
it has counted is in the statistic, still in its register, or was cleared by a reset, modulo the width of the
statistic; for the octets, as long as their counters stay within 48 bits from poll to poll. A poll in which nothing is
counted leaves the registers empty. -/
theorem stats_exact {as : List StatsAct} (hC : AllSteps step InRange init as) :
    AllStates step (fun w =>
      (∀ s, w.stats s + w.hw s + w.lost s ≡ w.total s [MOD 2 ^ s.bits]) ∧
      w.collisions ≡ collisionSum w.stats [MOD 2 ^ 32] ∧
      (w.todo = [] → ∃ w', run step w (.poll :: List.replicate cgemPollHwStats.length .read) = some w' ∧
        w'.todo = [] ∧ ∀ s, w'.hw s = 0 ∧ w'.stats s + w.lost s ≡ w.total s [MOD 2 ^ s.bits])) init as := by
  refine AllStates.mono ?_ (allStates_of (I := Counted) (fun w a w' => counted_step) counted_init hC)
  intro w h
  refine ⟨h.sum, h.collisions, fun htodo => ?_⟩
  have hpoll : w.step .poll = some { w with todo := cgemPollHwStats } := by
    simp [step, htodo]
  refine ⟨{ w.takes cgemPollHwStats with todo := [] }, ?_, rfl, fun s => ?_⟩
  · rw [run_cons, hpoll, Option.bind_some]
    exact run_reads w cgemPollHwStats
  · obtain ⟨hcounted, htotal, hlost⟩ := counted_takes (fun r hr => hr) h
    have hzero : (w.takes cgemPollHwStats).hw s = 0 := by
      rw [takes_hw fun r hr => hr]
      exact rows_left s (h.hw s)
    have hsum := hcounted.sum s
    rw [hzero, htotal, hlost] at hsum
    exact ⟨hzero, hsum⟩

/-- Five gigabytes are sent between the reads of the two octet registers. -/
theorem stats_exact_split :
    AllStates step (fun w =>
      (∀ s, w.stats s + w.hw s + w.lost s ≡ w.total s [MOD 2 ^ s.bits]) ∧
      w.collisions ≡ collisionSum w.stats [MOD 2 ^ 32] ∧
      (w.todo = [] → ∃ w', run step w (.poll :: List.replicate cgemPollHwStats.length .read) = some w' ∧
        w'.todo = [] ∧ ∀ s, w'.hw s = 0 ∧ w'.stats s + w.lost s ≡ w.total s [MOD 2 ^ s.bits])) init
      [.count .txBytes 4294967295, .poll, .read, .count .txBytes 5368709120, .read] :=
  stats_exact <|
    (allSteps_cons rfl).2 ⟨fun _ => by decide, (allSteps_cons rfl).2 ⟨trivial, (allSteps_cons rfl).2 ⟨trivial,
      (allSteps_cons rfl).2 ⟨fun _ => by decide, (allSteps_cons rfl).2 ⟨trivial, trivial⟩⟩⟩⟩⟩

end StatsSys

end Eth
