import Rpi5Modules.Eth.TxInvariant

/-!
# What holds of the transmit ring in every run

The invariant of the frames in the ring, read off in the terms of the driver and of the hardware.

- the driver's view (`tx_ring_ok`): between two iterations the queued descriptors are those met going from the tail to
  the head by the WRAP bits, the others are USED, the next frame has room, the mbuf table holds the first descriptors'
  mbufs, and every mbuf taken from the queue is freed once or still held;
- the hardware's view (`tx_handoff_fifo`): what it emits is what was posted, in order, and whatever it may fetch
  belongs to the next frame posted, all of which is written.
-/

namespace Eth

open Flags Slots Laps

/-! ## The driver's view -/

/-- The descriptor after `i`, by its WRAP bit. -/
def follow (ring : Nat → TxDesc) (i : Nat) : Nat := if HasFlag (ring i).ctl txdescWrapBit then 0 else i + 1

/-- The `k`-th descriptor from the tail. -/
def TxState.walk (s : TxState) (k : Nat) : Nat := (follow s.txring)^[k] s.txringTlPtr

/-- Descriptor `i` is one of those counted in `txring_queued`. -/
def TxState.InFlight (s : TxState) (i : Nat) : Prop := ∃ k < s.txringQueued.toNat, s.walk k = i

/-- It is the first one of its frame: the tail, or next to a LAST_BUF. -/
def TxState.FirstOfFrame (s : TxState) (i : Nat) : Prop :=
  ∃ k < s.txringQueued.toNat, s.walk k = i ∧ (k = 0 ∨ HasFlag (s.txring (s.walk (k - 1))).ctl txdescLastBufBit)

/-- The transmit ring is in order, between two iterations of the driver. -/
structure TxRingOk (s : TxState) : Prop where
  hd_lt : s.txringHdPtr < rp1ethNumTxDescs
  tl_lt : s.txringTlPtr < rp1ethNumTxDescs
  queued_nonneg : 0 ≤ s.txringQueued
  /-- As many steps as are counted lead from the tail to the head, and no fewer. -/
  queued_walk : s.walk s.txringQueued.toNat = s.txringHdPtr
  queued_least : ∀ k < s.txringQueued.toNat, s.walk k ≠ s.txringHdPtr
  /-- A frame that may be posted fits in front of the end of the ring and overlaps none in flight. -/
  room : s.txringQueued < txAdmit → ∀ k < txMaxDmaSegs,
    s.txringHdPtr + k < rp1ethNumTxDescs ∧ ¬s.InFlight (s.txringHdPtr + k)
  used : ∀ i < rp1ethNumTxDescs, ¬s.InFlight i → HasFlag (s.txring i).ctl txdescUsedBit
  mbufs : ∀ i < rp1ethNumTxDescs, (s.txringM i).isSome ↔ s.FirstOfFrame i
  /-- The mbufs freed on completion are the first ones posted, and the hardware has emitted at least as many. -/
  completed : s.completed = (s.posted.map Prod.fst).take s.completed.length ∧ s.completed.length ≤ s.emitted.length

/-- Every mbuf taken from the queue was freed once, or is held once and was not freed. -/
def FreedOnce (s : TxState) : Prop := (s.freed ++ held s.txringM rp1ethNumTxDescs).Perm (List.range s.dequeued)

section Driver

variable {s : TxState} {dn lv : List Frame} {b : Nat}

/-- The flags of the descriptors of a frame in the ring. -/
theorem Cells.flags {ring : Nat → TxDesc} {pend : Nat → Prop} {f : Frame} (h : Cells ring none dn lv pend)
    (hf : f ∈ dn ++ lv) {o : Nat} (ho : o < f.sg.nsegs) :
    (HasFlag (ring (f.start + o)).ctl txdescLastBufBit ↔ HasFlag (f.desc o).ctl txdescLastBufBit) ∧
      (HasFlag (ring (f.start + o)).ctl txdescWrapBit ↔ HasFlag (f.desc o).ctl txdescWrapBit) := by
  rcases List.mem_append.1 hf with hf | hf
  · by_cases ho0 : o = 0
    · subst ho0
      exact ⟨(h.done_first f hf).last, (h.done_first f hf).wrap⟩
    · rw [h.done_rest f hf o (Nat.pos_of_ne_zero ho0) ho]
      exact ⟨Iff.rfl, Iff.rfl⟩
  · rw [h.live f hf o ho]
    exact ⟨Iff.rfl, Iff.rfl⟩

/-- The WRAP bits lead through the frames. -/
theorem Cells.follows {ring : Nat → TxDesc} {pend : Nat → Prop} (h : Cells ring none dn lv pend) :
    ∀ c ∈ (dn ++ lv).map Frame.chunk, Follows rp1ethNumTxDescs txMaxDmaSegs (follow ring) c := by
  intro c hc o ho
  obtain ⟨f, hf, rfl⟩ := List.mem_map.1 hc
  have ho : o < f.sg.nsegs := ho
  have hwrap := (h.flags hf ho).2.trans (segCtl_wrap _ _ _)
  show follow ring (f.start + o) = if o + 1 = f.sg.nsegs then f.after else f.start + o + 1
  unfold follow
  by_cases hl : o + 1 = f.sg.nsegs
  · rw [if_pos hl, after_eq, ← hl, Nat.add_assoc]
    by_cases hw : txWrap f.start f.sg.nsegs = true
    · rw [if_pos (hwrap.2 ⟨by omega, hw⟩), hl, if_pos hw]
    · rw [if_neg fun hx => hw (hwrap.1 hx).2, hl, if_neg hw]
  · rw [if_neg hl, if_neg fun hx => hl (by have := (hwrap.1 hx).1; omega)]

theorem Cells.lasts {ring : Nat → TxDesc} {pend : Nat → Prop} (h : Cells ring none dn lv pend) :
    ∀ c ∈ (dn ++ lv).map Frame.chunk, ∀ o < c.2,
      (HasFlag (ring (c.1 + o)).ctl txdescLastBufBit ↔ o + 1 = c.2) := by
  intro c hc o ho
  obtain ⟨f, hf, rfl⟩ := List.mem_map.1 hc
  have ho : o < f.sg.nsegs := ho
  have hlast : HasFlag (ring (f.start + o)).ctl txdescLastBufBit ↔ o = f.sg.nsegs - 1 :=
    (h.flags hf ho).1.trans (segCtl_last _ _ _)
  show HasFlag (ring (f.start + o)).ctl txdescLastBufBit ↔ o + 1 = f.sg.nsegs
  rw [hlast]
  omega

theorem covers_chunks {fs : List Frame} {i : Nat} : Covers (fs.map Frame.chunk) i ↔ ∃ f ∈ fs, Has f.chunk i := by
  simp [Covers]

/-- An mbuf is in the table exactly at the first descriptors of the frames. -/
theorem Mbufs.isSome_iff {table : Nat → Option Mbuf} {hd i : Nat} (h : Mbufs table hd dn lv none)
    (hi : i < rp1ethNumTxDescs) : (table i).isSome ↔ ∃ c ∈ (dn ++ lv).map Frame.chunk, c.1 = i := by
  constructor
  · intro hs
    apply Decidable.byContradiction
    intro hn
    rw [h.empty i hi (fun f hf he => hn ⟨_, List.mem_map_of_mem hf, he⟩) (.inl rfl)] at hs
    cases hs
  · rintro ⟨c, hc, rfl⟩
    obtain ⟨f, hf, rfl⟩ := List.mem_map.1 hc
    show (table f.start).isSome
    rw [h.held f hf]
    rfl

/-- The mbufs reclaimed are the first ones posted, and no more than were emitted. -/
theorem History.completed_le {posted : List (Mbuf × TxSegs)} {completed : List Mbuf}
    {emitted : List (List (BitVec 32 × BitVec 32))} (h : History posted completed emitted dn lv) :
    completed = (posted.map Prod.fst).take completed.length ∧ completed.length ≤ emitted.length := by
  have hout := congrArg List.length h.out
  have hrec := congrArg List.length h.reclaimed
  simp only [List.length_map, List.length_append] at hout hrec
  refine ⟨?_, by omega⟩
  rw [h.reclaimed, List.take_left]

theorem TxInvAt.ringOk (h : TxInvAt s none dn lv b) (hpc : s.pc = .idle) : TxRingOk s := by
  obtain ⟨-, htl, hq⟩ := h.idle hpc
  have hc := h.idle_cells hpc
  have hlink : Linked rp1ethNumTxDescs txMaxDmaSegs b ((dn ++ lv).map Frame.chunk) s.txringHdPtr := h.layout.linked
  have hqn : s.txringQueued.toNat = total ((dn ++ lv).map Frame.chunk) := by
    rw [hq]
    rfl
  have hcell : ∀ i, s.InFlight i ↔ ∃ f ∈ dn ++ lv, Has f.chunk i := by
    intro i
    rw [← covers_chunks, cell_iff_iterate hlink hc.follows, TxState.InFlight, hqn]
    simp only [TxState.walk, htl]
  refine ⟨h.hd_lt, ?_, ?_, ?_, ?_, ?_, ?_, ?_, h.history.completed_le⟩
  · rw [htl]
    exact Nat.lt_of_le_of_lt (Nat.le_add_right _ _) h.layout.base_lt
  · rw [hq]
    exact Int.natCast_nonneg _
  · rw [TxState.walk, hqn, htl]
    exact iterate_total hlink hc.follows
  · intro k hk he
    obtain ⟨f, hf, hhas⟩ := (hcell _).1 ⟨k, hk, he⟩
    exact h.layout.hd_free hf hhas
  · intro hfit k hk
    have hroom : total ((dn ++ lv).map Frame.chunk) + 2 * txMaxDmaSegs < rp1ethNumTxDescs := by
      rw [← hqn]
      simp only [txAdmit, rp1ethNumTxDescs, txMaxDmaSegs] at hfit ⊢
      omega
    obtain ⟨hlt, hfree⟩ := h.layout.room hroom hk
    refine ⟨hlt, fun hin => ?_⟩
    obtain ⟨f, hf, hhas⟩ := (hcell _).1 hin
    exact hfree f hf hhas
  · intro i hi hnot
    exact hc.used i hi (fun f hf hhas => hnot ((hcell i).2 ⟨f, hf, hhas⟩)) id
  · intro i hi
    rw [(h.idle_mbufs hpc).isSome_iff hi, TxState.FirstOfFrame, hqn,
      start_iff_iterate (fun j => HasFlag (s.txring j).ctl txdescLastBufBit) hlink hc.follows hc.lasts]
    simp only [TxState.walk, htl]

end Driver

/-- **The transmit ring invariant.** In every run of the driver and the hardware, no index leaves the ring and every
mbuf is accounted for; between two iterations the ring is in order; and a frame that cannot be mapped changes neither
pointers nor count, descriptors nor mbuf table. -/
theorem tx_ring_ok (acts : List TxAct) :
    Transition.AllStates txRingStep (fun s => s.fault = false ∧ FreedOnce s ∧ (s.pc = .idle → TxRingOk s))
        cgemSetupTx acts ∧
      ∀ s why t, startFail s why = some t →
        t.txringHdPtr = s.txringHdPtr ∧ t.txringTlPtr = s.txringTlPtr ∧ t.txringQueued = s.txringQueued ∧
          t.txring = s.txring ∧ t.txringM = s.txringM := by
  refine ⟨(Transition.allStates_inv (fun s a t h ht => txInv_step h ht) txInv_setup acts).mono ?_, ?_⟩
  · rintro s ⟨rc, dn, lv, b, h⟩
    refine ⟨h.fault, h.kept, fun hpc => ?_⟩
    obtain ⟨rfl, -⟩ := h.idle hpc
    exact h.ringOk hpc
  · intro s why t ht
    cases hpc : s.pc with
    | idle =>
      simp only [startFail, hpc, Option.ite_none_right_eq_some, Option.some_inj] at ht
      obtain ⟨-, rfl⟩ := ht
      unfold TxState.access
      split <;> exact ⟨rfl, rfl, rfl, rfl, rfl⟩
    | _ => simp [startFail, hpc] at ht

/-! ## The hardware's view -/

/-- The hand-off is in order. `fetch`: if the hardware's descriptor is not USED, it belongs to the next frame posted
that was not emitted; all descriptors of that frame are written, and the hardware is where it has got to in it. -/
structure HandoffOk (s : TxState) : Prop where
  emitted_prefix : s.emitted <+: s.posted.map fun p => p.2.pairs
  fetch : ¬HasFlag (s.txring s.hwPtr).ctl txdescUsedBit → ∃ f : Frame,
    s.posted[s.emitted.length]? = some (f.m, f.sg) ∧
      (∀ o < f.sg.nsegs, s.txring (f.start + o) = f.desc o) ∧
      s.hwFirst = f.start ∧ s.hwPtr = f.start + s.hwSegs.length ∧ s.hwSegs.length < f.sg.nsegs ∧
      s.hwSegs = f.sg.pairs.take s.hwSegs.length

theorem TxInvAt.handoffOk {s : TxState} {rc : Option (Frame × Nat)} {dn lv : List Frame} {b : Nat}
    (h : TxInvAt s rc dn lv b) : HandoffOk s := by
  refine ⟨⟨_, h.history.out.symm⟩, fun hnot => ?_⟩
  have hhw := h.hw
  cases lv with
  | nil =>
    obtain ⟨hptr, -, -⟩ := hhw
    rw [hptr] at hnot
    exact absurd h.head_used hnot
  | cons f lv =>
    obtain ⟨hptr, hfirst, hlt, hsegs⟩ := hhw
    refine ⟨f, ?_, h.cells.live f List.mem_cons_self, hfirst, hptr, hlt, hsegs⟩
    have hlive := congrArg (fun l => l[0]?) h.history.live
    simpa using hlive

/-- **The hand-off is a FIFO.** However the hardware's fetches fall between the driver's stores, it emits the frames
posted, in order, each with the segments of its DMA load, and it never fetches a descriptor that is not USED of a frame
not completely written, nor a stale one. -/
theorem tx_handoff_fifo (acts : List TxAct) : Transition.AllStates txRingStep HandoffOk cgemSetupTx acts := by
  apply (Transition.allStates_inv (fun s a t h ht => txInv_step h ht) txInv_setup acts).mono
  rintro s ⟨rc, dn, lv, b, h⟩
  exact h.handoffOk

end Eth
