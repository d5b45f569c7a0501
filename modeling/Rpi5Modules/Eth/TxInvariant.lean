import Rpi5Modules.Eth.TxRing
import Rpi5Modules.Lib.Laps

/-!
# The invariant of the transmit ring

The ring holds frames, each a chunk of descriptors, linked from the tail to the head: first the one `cgem_clean_tx` is
reclaiming (`rc`, with the number of its descriptors that are USED again), then those the hardware is done with
(`dn`), then those it is not (`lv`). `TxInv` says what the descriptors, the mbuf table, the hardware and the history
look like in these terms; every step keeps it (`txInv_step`).

- `Layout`: the frames are linked and together shorter than the shortest lap;
- `Cells`: the descriptors of `lv` are as written; those of `dn` too but for USED in the first; all others are USED,
  except those just being written;
- `HwAt`: the hardware is inside the first frame of `lv`, or at the head if there is none;
- `PcAt`: where the driver is and how the tail pointer and the count relate to the frames.
-/

namespace Eth

open Flags Slots Laps

/-! ## Frames in the ring -/

/-- A frame in the ring: where it starts, its segments and its mbuf. -/
structure Frame where
  start : Nat
  sg : TxSegs
  m : Mbuf

def Frame.chunk (f : Frame) : Nat × Nat := (f.start, f.sg.nsegs)

/-- Descriptor `o` of the frame, as `cgem_start_locked` writes it. -/
def Frame.desc (f : Frame) (o : Nat) : TxDesc :=
  ⟨(f.sg.seg o).dsAddr, segCtl f.sg (txWrap f.start f.sg.nsegs) o⟩

/-- Where the frame after it starts. -/
def Frame.after (f : Frame) : Nat := next rp1ethNumTxDescs txMaxDmaSegs f.start f.sg.nsegs

theorem after_eq (f : Frame) :
    f.after = if txWrap f.start f.sg.nsegs then 0 else f.start + f.sg.nsegs := by
  simp [Frame.after, next, txWrap]

/-- The frames in the ring, from the tail on. -/
def frames (rc : Option (Frame × Nat)) (dn lv : List Frame) : List Frame := (rc.map Prod.fst).toList ++ (dn ++ lv)

def chunks (rc : Option (Frame × Nat)) (dn lv : List Frame) : List (Nat × Nat) := (frames rc dn lv).map Frame.chunk

/-- The frames lie linked from `b` to the head, and are together shorter than the shortest lap. -/
structure Layout (b hd : Nat) (fs : List Frame) : Prop where
  base_lt : b + txMaxDmaSegs < rp1ethNumTxDescs
  linked : Linked rp1ethNumTxDescs txMaxDmaSegs b (fs.map Frame.chunk) hd
  total_lt : total (fs.map Frame.chunk) + txMaxDmaSegs < rp1ethNumTxDescs

section LayoutFacts

variable {b hd i : Nat} {fs gs : List Frame} {f g : Frame}

theorem Layout.hd_lt (h : Layout b hd fs) : hd + txMaxDmaSegs < rp1ethNumTxDescs :=
  stop_lt h.linked h.base_lt h.total_lt

theorem Layout.lt (h : Layout b hd fs) (hf : f ∈ fs) (hi : Has f.chunk i) : i < rp1ethNumTxDescs :=
  covers_lt h.linked h.base_lt h.total_lt ⟨_, List.mem_map_of_mem hf, hi⟩

theorem Layout.hd_free (h : Layout b hd fs) (hf : f ∈ fs) : ¬Has f.chunk hd :=
  fun hi => stop_free h.linked h.base_lt h.total_lt ⟨_, List.mem_map_of_mem hf, hi⟩

/-- With room for the admission test, no frame reaches into the descriptors behind the head. -/
theorem Layout.room (h : Layout b hd fs) (ht : total (fs.map Frame.chunk) + 2 * txMaxDmaSegs < rp1ethNumTxDescs)
    {k : Nat} (hk : k < txMaxDmaSegs) :
    hd + k < rp1ethNumTxDescs ∧ ∀ f ∈ fs, ¬Has f.chunk (hd + k) := by
  obtain ⟨hlt, hfree⟩ := Laps.room h.linked h.base_lt h.total_lt ht hk
  exact ⟨hlt, fun f hf hi => hfree ⟨_, List.mem_map_of_mem hf, hi⟩⟩

/-- No descriptor belongs to two frames. -/
theorem Layout.apart (h : Layout b hd (fs ++ gs)) (hf : f ∈ fs) (hg : g ∈ gs) (hi : Has f.chunk i) :
    ¬Has g.chunk i := by
  have hp := (shape h.linked h.base_lt h.total_lt).2
  rw [List.map_append, List.pairwise_append] at hp
  exact hp.2.2 _ (List.mem_map_of_mem hf) _ (List.mem_map_of_mem hg) i hi

theorem Layout.apart_head (h : Layout b hd (f :: fs)) (hg : g ∈ fs) (hi : Has f.chunk i) : ¬Has g.chunk i := by
  have hl : Layout b hd ([f] ++ fs) := h
  exact hl.apart (List.mem_singleton_self f) hg hi

/-- A frame written at the head. -/
theorem Layout.post (h : Layout b hd fs)
    (ht : total (fs.map Frame.chunk) + 2 * txMaxDmaSegs < rp1ethNumTxDescs) (hf : f.start = hd) :
    Layout b f.after (fs ++ [f]) := by
  have hchunk : f.chunk = (hd, f.sg.nsegs) := by rw [Frame.chunk, hf]
  refine ⟨h.base_lt, ?_, ?_⟩
  · rw [List.map_append, List.map_singleton, hchunk, Frame.after, hf]
    exact h.linked.append f.sg.nsegs_pos f.sg.nsegs_le
  · have hle : f.sg.nsegs ≤ txMaxDmaSegs := f.sg.nsegs_le
    simp only [List.map_append, List.map_singleton, hchunk, total_append, total_cons, total_nil]
    omega

/-- The first frame leaves the ring. -/
theorem Layout.tail (h : Layout b hd (f :: fs)) : f.start = b ∧ Layout f.after hd fs := by
  obtain ⟨hs, hpos, hle, hl⟩ := h.linked
  have hs : f.start = b := hs
  have ht : f.sg.nsegs + total (fs.map Frame.chunk) + txMaxDmaSegs < rp1ethNumTxDescs := h.total_lt
  refine ⟨hs, ?_, ?_, ?_⟩
  · exact next_lt (by rw [hs]; exact h.base_lt)
  · rw [Frame.after, hs]
    exact hl
  · omega

end LayoutFacts

/-! ## The parts of the invariant -/

/-- The first descriptor of a frame the hardware is done with: USED, and the driver's LAST_BUF and WRAP. -/
structure DoneDesc (f : Frame) (d : TxDesc) : Prop where
  used : HasFlag d.ctl txdescUsedBit
  last : HasFlag d.ctl txdescLastBufBit ↔ HasFlag (f.desc 0).ctl txdescLastBufBit
  wrap : HasFlag d.ctl txdescWrapBit ↔ HasFlag (f.desc 0).ctl txdescWrapBit

/-- The contents of the descriptors. `pend` are those `cgem_start_locked` has written of a frame it is not done
with. -/
structure Cells (ring : Nat → TxDesc) (rc : Option (Frame × Nat)) (dn lv : List Frame) (pend : Nat → Prop) : Prop where
  live : ∀ f ∈ lv, ∀ o < f.sg.nsegs, ring (f.start + o) = f.desc o
  done_first : ∀ f ∈ dn, DoneDesc f (ring f.start)
  done_rest : ∀ f ∈ dn, ∀ o, 0 < o → o < f.sg.nsegs → ring (f.start + o) = f.desc o
  reclaimed : ∀ f w, rc = some (f, w) → ∀ o < f.sg.nsegs, o < w → HasFlag (ring (f.start + o)).ctl txdescUsedBit
  unreclaimed : ∀ f w, rc = some (f, w) → ∀ o < f.sg.nsegs, w ≤ o → ring (f.start + o) = f.desc o
  used : ∀ i < rp1ethNumTxDescs, (∀ f ∈ frames rc dn lv, ¬Has f.chunk i) → ¬pend i → HasFlag (ring i).ctl txdescUsedBit

/-- The hardware waits at the head, or has collected part of the first frame of `lv`. -/
def HwAt (hwPtr hwFirst : Nat) (hwSegs : List (BitVec 32 × BitVec 32)) (hd : Nat) : List Frame → Prop
  | [] => hwPtr = hd ∧ hwFirst = hd ∧ hwSegs = []
  | f :: _ => hwPtr = f.start + hwSegs.length ∧ hwFirst = f.start ∧ hwSegs.length < f.sg.nsegs ∧
      hwSegs = f.sg.pairs.take hwSegs.length

/-- What was emitted and reclaimed, against what was posted. -/
structure History (posted : List (Mbuf × TxSegs)) (completed : List Mbuf)
    (emitted : List (List (BitVec 32 × BitVec 32))) (dn lv : List Frame) : Prop where
  out : posted.map (fun p => p.2.pairs) = emitted ++ lv.map fun f => f.sg.pairs
  reclaimed : posted.map Prod.fst = completed ++ (dn ++ lv).map Frame.m
  live : posted.drop emitted.length = lv.map fun f => (f.m, f.sg)

/-- The mbuf of a frame is in the table at its first descriptor; `nw` is the one of the frame being written. -/
structure Mbufs (table : Nat → Option Mbuf) (hd : Nat) (dn lv : List Frame) (nw : Option Mbuf) : Prop where
  held : ∀ f ∈ dn ++ lv, table f.start = some f.m
  new : ∀ m, nw = some m → table hd = some m
  empty : ∀ i < rp1ethNumTxDescs, (∀ f ∈ dn ++ lv, f.start ≠ i) → (nw = none ∨ i ≠ hd) → table i = none

/-- The descriptors of the frame being written that are done. -/
def Written (ring : Nat → TxDesc) (hd : Nat) (sg : TxSegs) (i : Nat) : Prop :=
  ∀ o, i < o → o < sg.nsegs → ring (hd + o) = ⟨(sg.seg o).dsAddr, segCtl sg (txWrap hd sg.nsegs) o⟩

def TxPc.new : TxPc → Option Mbuf
  | storeAddr m _ _ => some m
  | storeCtl m _ _ => some m
  | _ => none

def TxPc.pend (hd : Nat) : TxPc → Nat → Prop
  | storeAddr _ sg i, c => hd + i < c ∧ c < hd + sg.nsegs
  | storeCtl _ sg i, c => hd + i < c ∧ c < hd + sg.nsegs
  | _, _ => False

/-- The number of descriptors in the ring. -/
def cellsOf (rc : Option (Frame × Nat)) (dn lv : List Frame) : Nat := total (chunks rc dn lv)

/-- Where the driver is. -/
def PcAt (s : TxState) (rc : Option (Frame × Nat)) (dn lv : List Frame) (b : Nat) : Prop :=
  match s.pc with
  | .idle => rc = none ∧ s.txringTlPtr = b ∧ s.txringQueued = cellsOf rc dn lv
  | .storeAddr _ sg i => rc = none ∧ s.txringTlPtr = b ∧ s.txringQueued = cellsOf rc dn lv ∧
      cellsOf rc dn lv + 2 * txMaxDmaSegs < rp1ethNumTxDescs ∧ i < sg.nsegs ∧ Written s.txring s.txringHdPtr sg i
  | .storeCtl _ sg i => rc = none ∧ s.txringTlPtr = b ∧ s.txringQueued = cellsOf rc dn lv ∧
      cellsOf rc dn lv + 2 * txMaxDmaSegs < rp1ethNumTxDescs ∧ i < sg.nsegs ∧ Written s.txring s.txringHdPtr sg i ∧
      (s.txring (s.txringHdPtr + i)).addr = (sg.seg i).dsAddr
  | .cleaning ctl => ∃ f w, rc = some (f, w + 1) ∧ w < f.sg.nsegs ∧ s.txringTlPtr = f.start + w ∧
      s.txringQueued + w = cellsOf rc dn lv ∧
      (HasFlag ctl txdescLastBufBit ↔ HasFlag (f.desc w).ctl txdescLastBufBit) ∧
      (HasFlag ctl txdescWrapBit ↔ HasFlag (f.desc w).ctl txdescWrapBit)
  | .cleanStore ctl => ∃ f w, rc = some (f, w) ∧ 0 < w ∧ w < f.sg.nsegs ∧ s.txringTlPtr = f.start + w ∧
      s.txringQueued + w = cellsOf rc dn lv ∧ ctl = (f.desc w).ctl

/-- **The invariant**, for the frames in the ring. -/
structure TxInvAt (s : TxState) (rc : Option (Frame × Nat)) (dn lv : List Frame) (b : Nat) : Prop where
  fault : s.fault = false
  layout : Layout b s.txringHdPtr (frames rc dn lv)
  cells : Cells s.txring rc dn lv (s.pc.pend s.txringHdPtr)
  hw : HwAt s.hwPtr s.hwFirst s.hwSegs s.txringHdPtr lv
  history : History s.posted s.completed s.emitted dn lv
  mbufs : Mbufs s.txringM s.txringHdPtr dn lv s.pc.new
  kept : (s.freed ++ held s.txringM rp1ethNumTxDescs).Perm (List.range s.dequeued)
  pc : PcAt s rc dn lv b

/-- **The invariant of the transmit ring.** -/
def TxInv (s : TxState) : Prop := ∃ rc dn lv b, TxInvAt s rc dn lv b

section Basics

variable {s t : TxState} {rc : Option (Frame × Nat)} {dn lv : List Frame} {b i w : Nat} {f : Frame}

@[simp] theorem frames_none : frames none dn lv = dn ++ lv := rfl

theorem has_start (f : Frame) : Has f.chunk f.start := ⟨Nat.le_refl _, Nat.lt_add_of_pos_right f.sg.nsegs_pos⟩

theorem has_add {o : Nat} (ho : o < f.sg.nsegs) : Has f.chunk (f.start + o) :=
  ⟨Nat.le_add_right _ _, Nat.add_lt_add_left ho _⟩

theorem access_eq (hi : i < rp1ethNumTxDescs) : s.access i t = t := if_pos hi

theorem mem_frames_right (hf : f ∈ dn ++ lv) : f ∈ frames rc dn lv := List.mem_append_right _ hf

theorem mem_frames_rc : f ∈ frames (some (f, w)) dn lv := List.mem_cons_self

/-- Emission moves a frame from one list to the next: the frames stay. -/
theorem frames_emit : frames rc (dn ++ [f]) lv = frames rc dn (f :: lv) := by
  simp [frames]

theorem cellsOf_append : cellsOf rc dn (lv ++ [f]) = cellsOf rc dn lv + f.sg.nsegs := by
  simp [cellsOf, chunks, frames, Frame.chunk, Nat.add_assoc]

theorem TxInvAt.hd_lt (h : TxInvAt s rc dn lv b) : s.txringHdPtr < rp1ethNumTxDescs :=
  Nat.lt_of_le_of_lt (Nat.le_add_right _ _) h.layout.hd_lt

theorem TxInvAt.idle (h : TxInvAt s rc dn lv b) (hpc : s.pc = .idle) :
    rc = none ∧ s.txringTlPtr = b ∧ s.txringQueued = cellsOf rc dn lv := by
  have hp := h.pc
  unfold PcAt at hp
  rwa [hpc] at hp

/-- Between two iterations no descriptor is half written. -/
theorem TxInvAt.idle_cells (h : TxInvAt s rc dn lv b) (hpc : s.pc = .idle) :
    Cells s.txring rc dn lv fun _ => False := by
  have hc := h.cells
  rw [hpc] at hc
  exact hc

theorem TxInvAt.idle_mbufs (h : TxInvAt s rc dn lv b) (hpc : s.pc = .idle) :
    Mbufs s.txringM s.txringHdPtr dn lv none := by
  have hm := h.mbufs
  rw [hpc] at hm
  exact hm

/-- A write outside the frames leaves them, if it is to a descriptor being written or leaves USED in place. -/
theorem Cells.update_free {ring : Nat → TxDesc} {pend pend' : Nat → Prop} {a : Nat} {d : TxDesc}
    (h : Cells ring rc dn lv pend) (ha : ∀ f ∈ frames rc dn lv, ¬Has f.chunk a) (hp : ∀ i, pend i → pend' i)
    (hd : pend' a ∨ HasFlag d.ctl txdescUsedBit) : Cells (Function.update ring a d) rc dn lv pend' := by
  have hne : ∀ f ∈ frames rc dn lv, ∀ o < f.sg.nsegs, f.start + o ≠ a := by
    rintro f hf o ho rfl
    exact ha f hf (has_add ho)
  have hne0 : ∀ f ∈ frames rc dn lv, f.start ≠ a := fun f hf => hne f hf 0 f.sg.nsegs_pos
  refine ⟨fun f hf o ho => ?_, fun f hf => ?_, fun f hf o ho0 ho => ?_, ?_, ?_, fun i hi hfree hpi => ?_⟩
  · rw [Function.update_of_ne (hne f (mem_frames_right (List.mem_append_right _ hf)) o ho)]
    exact h.live f hf o ho
  · rw [Function.update_of_ne (hne0 f (mem_frames_right (List.mem_append_left _ hf)))]
    exact h.done_first f hf
  · rw [Function.update_of_ne (hne f (mem_frames_right (List.mem_append_left _ hf)) o ho)]
    exact h.done_rest f hf o ho0 ho
  · rintro f w rfl o ho how
    rw [Function.update_of_ne (hne f mem_frames_rc o ho)]
    exact h.reclaimed f w rfl o ho how
  · rintro f w rfl o ho how
    rw [Function.update_of_ne (hne f mem_frames_rc o ho)]
    exact h.unreclaimed f w rfl o ho how
  · by_cases hia : i = a
    · subst hia
      rw [Function.update_self]
      exact hd.resolve_left hpi
    · rw [Function.update_of_ne hia]
      exact h.used i hi hfree fun hp' => hpi (hp i hp')

/-- The last store of a frame, to its first descriptor, makes it one of those the hardware is to send. -/
theorem Cells.post {ring : Nat → TxDesc} (h : Cells ring none dn lv fun c => f.start < c ∧ c < f.start + f.sg.nsegs)
    (hfree : ∀ g ∈ dn ++ lv, ¬Has g.chunk f.start)
    (hw : ∀ o, 0 < o → o < f.sg.nsegs → ring (f.start + o) = f.desc o) :
    Cells (Function.update ring f.start (f.desc 0)) none dn (lv ++ [f]) fun _ => False := by
  have hc : Cells (Function.update ring f.start (f.desc 0)) none dn lv fun c => Has f.chunk c :=
    h.update_free hfree (fun c hc => ⟨Nat.le_of_lt hc.1, hc.2⟩) (.inl (has_start f))
  refine ⟨fun g hg o ho => ?_, hc.2, hc.3, hc.4, hc.5, fun i hi hg _ => ?_⟩
  · rcases List.mem_append.1 hg with hg | hg
    · exact hc.live g hg o ho
    · obtain rfl := List.mem_singleton.1 hg
      by_cases ho0 : o = 0
      · subst ho0
        exact Function.update_self _ _ _
      · rw [Function.update_of_ne (by omega)]
        exact hw o (Nat.pos_of_ne_zero ho0) ho
  · simp only [frames_none, ← List.append_assoc] at hg
    exact hc.used i hi (fun g hgm => hg g (List.mem_append_left _ hgm)) (hg f (List.mem_append_right _ (by simp)))

/-- A frame written at the head is what the hardware finds there. -/
theorem HwAt.post {hwPtr hwFirst hd hd' : Nat} {hwSegs : List (BitVec 32 × BitVec 32)}
    (h : HwAt hwPtr hwFirst hwSegs hd lv) (hf : f.start = hd) : HwAt hwPtr hwFirst hwSegs hd' (lv ++ [f]) := by
  cases lv with
  | nil =>
    obtain ⟨rfl, rfl, rfl⟩ := h
    exact ⟨hf.symm, hf.symm, f.sg.nsegs_pos, rfl⟩
  | cons g lv => exact h

/-- The writing of a frame begins: its mbuf goes into the table at the head. -/
theorem Mbufs.put {table : Nat → Option Mbuf} {hd : Nat} (h : Mbufs table hd dn lv none)
    (hfree : ∀ f ∈ dn ++ lv, f.start ≠ hd) (m : Mbuf) :
    Mbufs (Function.update table hd (some m)) hd dn lv (some m) := by
  refine ⟨fun f hf => ?_, fun m' hm => ?_, fun i hi hf hne => ?_⟩
  · rw [Function.update_of_ne (hfree f hf)]
    exact h.held f hf
  · cases hm
    exact Function.update_self _ _ _
  · rw [Function.update_of_ne (hne.resolve_left (Option.some_ne_none m))]
    exact h.empty i hi hf (.inl rfl)

/-- The frame at the head is complete. -/
theorem Mbufs.post {table : Nat → Option Mbuf} {hd hd' : Nat} (h : Mbufs table hd dn lv (some f.m))
    (hf : f.start = hd) : Mbufs table hd' dn (lv ++ [f]) none := by
  refine ⟨fun g hg => ?_, fun m hm => (Option.some_ne_none m hm.symm).elim, fun i hi hg _ => ?_⟩
  · rw [← List.append_assoc, List.mem_append, List.mem_singleton] at hg
    rcases hg with hg | rfl
    · exact h.held g hg
    · rw [hf]
      exact h.new _ rfl
  · rw [← List.append_assoc] at hg
    refine h.empty i hi (fun g hgm => hg g (List.mem_append_left _ hgm)) (.inr fun hi' => ?_)
    exact hg f (List.mem_append_right _ (List.mem_singleton_self f)) (hf.trans hi'.symm)

/-- The mbuf of the first frame is taken out of the table. -/
theorem Mbufs.take {table : Nat → Option Mbuf} {hd : Nat} (h : Mbufs table hd (f :: dn) lv none)
    (hne : ∀ g ∈ dn ++ lv, g.start ≠ f.start) : Mbufs (Function.update table f.start none) hd dn lv none := by
  refine ⟨fun g hg => ?_, fun m hm => (Option.some_ne_none m hm.symm).elim, fun i hi hg _ => ?_⟩
  · rw [Function.update_of_ne (hne g hg)]
    exact h.held g (List.mem_cons_of_mem f hg)
  · by_cases hif : i = f.start
    · rw [hif]
      exact Function.update_self _ _ _
    · rw [Function.update_of_ne hif]
      refine h.empty i hi (fun g hgm => ?_) (.inl rfl)
      rcases List.mem_cons.1 hgm with rfl | hgm
      · exact fun hi' => hif hi'.symm
      · exact hg g hgm

theorem History.post {posted : List (Mbuf × TxSegs)} {completed : List Mbuf}
    {emitted : List (List (BitVec 32 × BitVec 32))} (h : History posted completed emitted dn lv) :
    History (posted ++ [(f.m, f.sg)]) completed emitted dn (lv ++ [f]) := by
  have hlen : emitted.length ≤ posted.length := by
    have := congrArg List.length h.out
    simp only [List.length_map, List.length_append] at this
    omega
  refine ⟨?_, ?_, ?_⟩
  · rw [List.map_append, h.out, List.map_append, List.append_assoc]
    rfl
  · rw [List.map_append, h.reclaimed, ← List.append_assoc dn, @List.map_append _ _ _ _ [f], List.append_assoc]
    rfl
  · rw [List.drop_append_of_le_length hlen, h.live, List.map_append]
    rfl

theorem History.emit {posted : List (Mbuf × TxSegs)} {completed : List Mbuf}
    {emitted : List (List (BitVec 32 × BitVec 32))} (h : History posted completed emitted dn (f :: lv)) :
    History posted completed (emitted ++ [f.sg.pairs]) (dn ++ [f]) lv := by
  refine ⟨?_, ?_, ?_⟩
  · rw [h.out, List.map_cons, List.append_assoc, List.singleton_append]
  · rw [h.reclaimed, List.append_assoc, List.singleton_append]
  · rw [List.length_append, List.length_singleton, ← List.drop_drop, h.live, List.map_cons, List.drop_one,
      List.tail_cons]

theorem History.clean {posted : List (Mbuf × TxSegs)} {completed : List Mbuf}
    {emitted : List (List (BitVec 32 × BitVec 32))} (h : History posted completed emitted (f :: dn) lv) :
    History posted (completed ++ [f.m]) emitted dn lv := by
  refine ⟨h.out, ?_, h.live⟩
  rw [h.reclaimed, List.cons_append, List.map_cons, List.append_assoc, List.singleton_append]

end Basics

/-! ## Iterations of `cgem_start_locked` -/

section Start

variable {s t : TxState} {rc : Option (Frame × Nat)} {dn lv : List Frame} {b : Nat}

/-- One mbuf more was dequeued, and one more is freed or held. -/
theorem kept_dequeue {freed held freed' held' : List Mbuf} {n : Nat} (h : (freed ++ held).Perm (List.range n))
    (hnew : (freed' ++ held').Perm (n :: (freed ++ held))) : (freed' ++ held').Perm (List.range (n + 1)) := by
  rw [List.range_succ]
  exact hnew.trans ((h.cons n).trans (List.perm_append_singleton n _).symm)

theorem txInv_mapFail {why : MapFailure} (h : TxInvAt s rc dn lv b) (ht : startFail s why = some t) :
    TxInvAt t rc dn lv b := by
  cases hpc : s.pc with
  | idle =>
    simp only [startFail, hpc, Option.ite_none_right_eq_some, Option.some_inj] at ht
    obtain ⟨-, rfl⟩ := ht
    rw [access_eq h.hd_lt]
    refine ⟨h.fault, h.layout, h.idle_cells hpc, h.hw, h.history, h.idle_mbufs hpc, ?_, h.idle hpc⟩
    apply kept_dequeue h.kept
    rw [List.append_assoc, List.singleton_append]
    exact List.perm_middle
  | _ => simp [startFail, hpc] at ht

theorem txInv_full (h : TxInvAt s rc dn lv b) (ht : startFull s = some t) : TxInvAt t rc dn lv b := by
  cases hpc : s.pc with
  | idle =>
    simp only [startFull, hpc, Option.ite_none_right_eq_some, Option.some_inj] at ht
    obtain ⟨-, rfl⟩ := ht
    exact ⟨h.fault, h.layout, h.idle_cells hpc, h.hw, h.history, h.idle_mbufs hpc, h.kept, h.idle hpc⟩
  | _ => simp [startFull, hpc] at ht

theorem txInv_post {sg : TxSegs} {defrag : Bool} (h : TxInvAt s rc dn lv b)
    (ht : startPost s sg defrag = some t) : TxInvAt t rc dn lv b := by
  cases hpc : s.pc with
  | idle =>
    simp only [startPost, hpc, Option.ite_none_right_eq_some, Option.some_inj] at ht
    obtain ⟨hfit, rfl⟩ := ht
    obtain ⟨rfl, htl, hq⟩ := h.idle hpc
    rw [access_eq h.hd_lt]
    have hm := h.idle_mbufs hpc
    have hc := h.idle_cells hpc
    have hfree : ∀ f ∈ dn ++ lv, f.start ≠ s.txringHdPtr := fun f hf he =>
      h.layout.hd_free hf (he ▸ has_start f)
    have hempty : s.txringM s.txringHdPtr = none := hm.empty _ h.hd_lt hfree (.inl rfl)
    have hroom : cellsOf none dn lv + 2 * txMaxDmaSegs < rp1ethNumTxDescs := by
      rw [hq] at hfit
      simp only [txAdmit, rp1ethNumTxDescs, txMaxDmaSegs] at hfit ⊢
      omega
    have hlast : sg.nsegs - 1 < sg.nsegs := Nat.sub_lt sg.nsegs_pos Nat.one_pos
    refine ⟨h.fault, h.layout, ⟨hc.1, hc.2, hc.3, hc.4, hc.5, fun i hi hf _ => hc.used i hi hf id⟩, h.hw, h.history,
      hm.put hfree s.dequeued, ?_, rfl, htl, hq, hroom, hlast, fun o ho ho' => ?_⟩
    · apply kept_dequeue h.kept
      apply (List.Perm.append_left _ (held_put h.hd_lt hempty)).trans
      exact List.perm_middle
    · omega
  | _ => simp [startPost, hpc] at ht

/-- Before the first store of a frame, and after each, the descriptors behind the head are free. -/
theorem TxInvAt.room (h : TxInvAt s none dn lv b) (hroom : cellsOf none dn lv + 2 * txMaxDmaSegs < rp1ethNumTxDescs)
    {sg : TxSegs} {i : Nat} (hi : i < sg.nsegs) :
    s.txringHdPtr + i < rp1ethNumTxDescs ∧ ∀ f ∈ dn ++ lv, ¬Has f.chunk (s.txringHdPtr + i) :=
  h.layout.room hroom (Nat.lt_of_lt_of_le hi sg.nsegs_le)

theorem txInv_storeAddr {m : Mbuf} {sg : TxSegs} {i : Nat} (h : TxInvAt s rc dn lv b) (hpc : s.pc = .storeAddr m sg i)
    (ht : startStore s = some t) : TxInvAt t rc dn lv b := by
  simp only [startStore, hpc, Option.some_inj] at ht
  subst ht
  have hp := h.pc
  have hc := h.cells
  have hm := h.mbufs
  unfold PcAt at hp
  rw [hpc] at hp hc hm
  obtain ⟨rfl, htl, hq, hroom, hi, hw⟩ := hp
  obtain ⟨hlt, hfree⟩ := h.room hroom hi
  rw [access_eq hlt]
  have hpend : ¬TxPc.pend s.txringHdPtr (.storeAddr m sg i) (s.txringHdPtr + i) := fun hp => Nat.lt_irrefl _ hp.1
  refine ⟨h.fault, h.layout, hc.update_free hfree (fun _ hp => hp) (.inr (hc.used _ hlt hfree hpend)), h.hw, h.history,
    hm, h.kept, rfl, htl, hq, hroom, hi, fun o ho ho' => ?_, ?_⟩
  · have hne : s.txringHdPtr + o ≠ s.txringHdPtr + i := by omega
    exact (Function.update_of_ne hne _ _).trans (hw o ho ho')
  · show (Function.update s.txring (s.txringHdPtr + i) _ (s.txringHdPtr + i)).addr = _
    rw [Function.update_self]

theorem txInv_storeCtl {m : Mbuf} {sg : TxSegs} {i : Nat} (h : TxInvAt s rc dn lv b)
    (hpc : s.pc = .storeCtl m sg (i + 1)) (ht : startStore s = some t) : TxInvAt t rc dn lv b := by
  simp only [startStore, hpc, Option.some_inj] at ht
  subst ht
  have hp := h.pc
  have hc := h.cells
  have hm := h.mbufs
  unfold PcAt at hp
  rw [hpc] at hp hc hm
  obtain ⟨rfl, htl, hq, hroom, hi, hw, haddr⟩ := hp
  obtain ⟨hlt, hfree⟩ := h.room hroom hi
  have hempty : s.txringM (s.txringHdPtr + (i + 1)) = none := by
    refine hm.empty _ hlt (fun f hf he => hfree f hf (he ▸ has_start f)) (.inr ?_)
    omega
  have hM : Function.update s.txringM (s.txringHdPtr + (i + 1)) none = s.txringM :=
    Function.update_eq_self_iff.2 hempty.symm
  rw [access_eq hlt, if_pos (Nat.succ_ne_zero i), hM]
  refine ⟨h.fault, h.layout, hc.update_free hfree ?_ (.inl ⟨?_, ?_⟩), h.hw, h.history, hm, h.kept, rfl, htl, hq,
    hroom, Nat.lt_of_succ_lt hi, fun o ho ho' => ?_⟩
  · exact fun c hp => ⟨Nat.lt_of_succ_lt hp.1, hp.2⟩
  · exact Nat.lt_succ_self _
  · exact Nat.add_lt_add_left hi _
  show Function.update s.txring (s.txringHdPtr + (i + 1)) _ (s.txringHdPtr + o) = _
  by_cases hoi : o = i + 1
  · subst hoi
    rw [Function.update_self, haddr]
  · rw [Function.update_of_ne (by omega)]
    exact hw o (by omega) ho'

/-- The last store, and the head moves behind the frame. -/
theorem txInv_storeLast {m : Mbuf} {sg : TxSegs} (h : TxInvAt s rc dn lv b) (hpc : s.pc = .storeCtl m sg 0)
    (ht : startStore s = some t) : TxInvAt t rc dn (lv ++ [⟨s.txringHdPtr, sg, m⟩]) b := by
  simp only [startStore, hpc, Option.some_inj] at ht
  subst ht
  have hp := h.pc
  have hc := h.cells
  have hm := h.mbufs
  unfold PcAt at hp
  rw [hpc] at hp hc hm
  obtain ⟨rfl, htl, hq, hroom, hi, hw, haddr⟩ := hp
  obtain ⟨hlt, hfree⟩ := h.room hroom hi
  rw [access_eq hlt, if_neg (not_not_intro rfl)]
  have hval : ({ s.txring (s.txringHdPtr + 0) with ctl := segCtl sg (txWrap s.txringHdPtr sg.nsegs) 0 } : TxDesc) =
      (⟨s.txringHdPtr, sg, m⟩ : Frame).desc 0 := by
    show TxDesc.mk (s.txring (s.txringHdPtr + 0)).addr _ = _
    rw [haddr]
    rfl
  have hlay : Layout b (Frame.after ⟨s.txringHdPtr, sg, m⟩) (frames none dn (lv ++ [⟨s.txringHdPtr, sg, m⟩])) := by
    have hl := h.layout.post (f := ⟨s.txringHdPtr, sg, m⟩) hroom rfl
    rwa [frames_none, List.append_assoc] at hl
  rw [after_eq] at hlay
  rw [hval]
  refine ⟨h.fault, hlay, hc.post (f := ⟨s.txringHdPtr, sg, m⟩) hfree fun o ho ho' => hw o ho ho', h.hw.post rfl,
    h.history.post (f := ⟨s.txringHdPtr, sg, m⟩), hm.post (f := ⟨s.txringHdPtr, sg, m⟩) rfl, h.kept, rfl, htl, ?_⟩
  show s.txringQueued + (sg.nsegs : Int) = _
  rw [hq, cellsOf_append]
  exact (Int.natCast_add _ _).symm

end Start

/-! ## `cgem_clean_tx` -/

section Clean

variable {s t : TxState} {rc : Option (Frame × Nat)} {dn lv : List Frame} {f : Frame} {b w : Nat}

/-- Descriptor `w` of the frame being reclaimed is marked USED again. -/
theorem Cells.reclaim {ring : Nat → TxDesc} {pend : Nat → Prop} {hd : Nat} {d : TxDesc}
    (h : Cells ring (some (f, w)) dn lv pend) (hlay : Layout b hd (f :: (dn ++ lv))) (hw : w < f.sg.nsegs)
    (hd : HasFlag d.ctl txdescUsedBit) : Cells (Function.update ring (f.start + w) d) (some (f, w + 1)) dn lv pend := by
  have hne : ∀ g ∈ dn ++ lv, ∀ o < g.sg.nsegs, g.start + o ≠ f.start + w := by
    intro g hg o ho he
    exact hlay.apart_head hg (has_add hw) (he ▸ has_add ho)
  refine ⟨fun g hg o ho => ?_, fun g hg => ?_, fun g hg o ho0 ho => ?_, ?_, ?_, fun i hi hfree hpi => ?_⟩
  · rw [Function.update_of_ne (hne g (List.mem_append_right _ hg) o ho)]
    exact h.live g hg o ho
  · have hne0 : g.start ≠ f.start + w := hne g (List.mem_append_left _ hg) 0 g.sg.nsegs_pos
    rw [Function.update_of_ne hne0]
    exact h.done_first g hg
  · rw [Function.update_of_ne (hne g (List.mem_append_left _ hg) o ho)]
    exact h.done_rest g hg o ho0 ho
  · rintro g v ⟨⟩ o ho how
    by_cases how' : o = w
    · subst how'
      rw [Function.update_self]
      exact hd
    · rw [Function.update_of_ne (by omega)]
      exact h.reclaimed f w rfl o ho (by omega)
  · rintro g v ⟨⟩ o ho how
    rw [Function.update_of_ne (by omega)]
    exact h.unreclaimed f w rfl o ho (by omega)
  · have hia : i ≠ f.start + w := by
      rintro rfl
      exact hfree f mem_frames_rc (has_add hw)
    rw [Function.update_of_ne hia]
    exact h.used i hi hfree hpi

/-- A frame of which every descriptor is USED again is out of the ring. -/
theorem Cells.free {ring : Nat → TxDesc} {pend : Nat → Prop} (h : Cells ring (some (f, f.sg.nsegs)) dn lv pend) :
    Cells ring none dn lv pend := by
  refine ⟨h.live, h.done_first, h.done_rest, nofun, nofun, fun i hi hfree hpi => ?_⟩
  by_cases hif : Has f.chunk i
  · have hlt : i - f.start < f.sg.nsegs := Nat.sub_lt_left_of_lt_add hif.1 hif.2
    have hu := h.reclaimed f _ rfl (i - f.start) hlt hlt
    rwa [Nat.add_sub_cancel' (show f.start ≤ i from hif.1)] at hu
  · refine h.used i hi (fun g hg => ?_) hpi
    rcases List.mem_cons.1 hg with rfl | hg
    · exact hif
    · exact hfree g hg

/-- The reclaiming of the first frame the hardware is done with begins. -/
theorem Cells.take {ring : Nat → TxDesc} {pend : Nat → Prop} (h : Cells ring none (f :: dn) lv pend) :
    Cells ring (some (f, 1)) dn lv pend := by
  refine ⟨h.live, fun g hg => h.done_first g (List.mem_cons_of_mem f hg),
    fun g hg => h.done_rest g (List.mem_cons_of_mem f hg), ?_, ?_, h.used⟩
  · rintro g v ⟨⟩ o ho how
    obtain rfl : o = 0 := by omega
    exact (h.done_first f List.mem_cons_self).used
  · rintro g v ⟨⟩ o ho how
    exact h.done_rest f List.mem_cons_self o how ho

theorem txInv_clean (h : TxInvAt s rc dn lv b) (ht : cleanFrame s = some t) : ∃ rc' dn', TxInvAt t rc' dn' lv b := by
  cases hpc : s.pc with
  | idle =>
    simp only [cleanFrame, hpc, Option.ite_none_right_eq_some, Option.some_inj] at ht
    obtain ⟨⟨hpos, hused⟩, rfl⟩ := ht
    obtain ⟨rfl, htl, hq⟩ := h.idle hpc
    have hm := h.idle_mbufs hpc
    have hc := h.idle_cells hpc
    cases dn with
    | nil =>
      cases lv with
      | nil => exact absurd hq (by simp [cellsOf, chunks]; omega)
      | cons f lv =>
        obtain ⟨hf, -⟩ := h.layout.tail
        have hlive := hc.live f List.mem_cons_self 0 f.sg.nsegs_pos
        rw [Nat.add_zero, hf, ← htl] at hlive
        rw [hlive] at hused
        exact absurd hused (segCtl_used _ _ _)
    | cons f dn =>
      obtain ⟨hf, -⟩ := h.layout.tail
      have htl' : s.txringTlPtr = f.start := htl.trans hf.symm
      have hlt : s.txringTlPtr < rp1ethNumTxDescs := htl' ▸ h.layout.lt List.mem_cons_self (has_start f)
      have hmf : s.txringM f.start = some f.m := hm.held f List.mem_cons_self
      have hdone := hc.done_first f List.mem_cons_self
      have hne : ∀ g ∈ dn ++ lv, g.start ≠ f.start := fun g hg he =>
        h.layout.apart_head hg (has_start f) (he ▸ has_start g)
      rw [access_eq hlt]
      rw [htl', hmf, Option.toList_some]
      refine ⟨some (f, 1), dn, h.fault, h.layout, hc.take, h.hw, h.history.clean, hm.take hne, ?_,
        f, 0, rfl, f.sg.nsegs_pos, rfl, by rw [hq]; rfl, hdone.last, hdone.wrap⟩
      refine List.Perm.trans ?_ h.kept
      rw [List.append_assoc]
      exact List.Perm.append_left _ (held_take (htl' ▸ hlt) hmf).symm
  | _ => simp [cleanFrame, hpc] at ht

theorem txInv_cleaning {ctl : BitVec 32} (h : TxInvAt s rc dn lv b) (hpc : s.pc = .cleaning ctl)
    (ht : cleanStep s = some t) : ∃ rc' b', TxInvAt t rc' dn lv b' := by
  have hp := h.pc
  have hc := h.cells
  have hm := h.mbufs
  unfold PcAt at hp
  rw [hpc] at hp hc hm
  obtain ⟨f, w, rfl, hw, htl, hq, hlast, hwrap⟩ := hp
  have hlast' : HasFlag ctl txdescLastBufBit ↔ w = f.sg.nsegs - 1 := hlast.trans (segCtl_last _ _ _)
  have hwrap' : HasFlag ctl txdescWrapBit ↔ w = f.sg.nsegs - 1 ∧ txWrap f.start f.sg.nsegs = true :=
    hwrap.trans (segCtl_wrap _ _ _)
  simp only [cleanStep, hpc] at ht
  by_cases hl : w = f.sg.nsegs - 1
  · -- behind the frame
    rw [if_neg (not_not_intro (hlast'.2 hl)), Option.some_inj] at ht
    subst ht
    obtain ⟨hf, hlay⟩ := h.layout.tail
    have hn : w + 1 = f.sg.nsegs := by omega
    have hafter : (if HasFlag ctl txdescWrapBit then 0 else s.txringTlPtr + 1) = f.after := by
      rw [after_eq, htl]
      by_cases hwr : txWrap f.start f.sg.nsegs = true
      · rw [if_pos (hwrap'.2 ⟨hl, hwr⟩), if_pos hwr]
      · rw [if_neg fun hx => hwr (hwrap'.1 hx).2, if_neg hwr, ← hn, Nat.add_assoc]
    rw [hafter]
    rw [hn] at hc
    refine ⟨none, f.after, h.fault, hlay, hc.free, h.hw, h.history, hm, h.kept, rfl, rfl, ?_⟩
    have hcells : cellsOf (some (f, w + 1)) dn lv = f.sg.nsegs + cellsOf none dn lv := rfl
    rw [hcells] at hq
    show s.txringQueued - 1 = _
    omega
  · rw [if_pos fun hx => hl (hlast'.1 hx), if_neg fun hx => hl (hwrap'.1 hx).1, Option.some_inj] at ht
    subst ht
    have hw' : w + 1 < f.sg.nsegs := by omega
    have htl' : s.txringTlPtr + 1 = f.start + (w + 1) := by omega
    rw [htl', access_eq (h.layout.lt mem_frames_rc (has_add hw'))]
    refine ⟨some (f, w + 1), b, h.fault, h.layout, hc, h.hw, h.history, hm, h.kept, f, w + 1, rfl, Nat.succ_pos w, hw',
      rfl, ?_, congrArg TxDesc.ctl (hc.unreclaimed f _ rfl _ hw' (Nat.le_refl _))⟩
    show s.txringQueued - 1 + ((w + 1 : Nat) : Int) = _
    omega

theorem txInv_cleanStore {ctl : BitVec 32} (h : TxInvAt s rc dn lv b) (hpc : s.pc = .cleanStore ctl)
    (ht : cleanStep s = some t) : ∃ rc', TxInvAt t rc' dn lv b := by
  have hp := h.pc
  have hc := h.cells
  have hm := h.mbufs
  unfold PcAt at hp
  rw [hpc] at hp hc hm
  obtain ⟨f, w, rfl, hw0, hw, htl, hq, rfl⟩ := hp
  simp only [cleanStep, hpc, Option.some_inj] at ht
  subst ht
  rw [access_eq (htl ▸ h.layout.lt mem_frames_rc (has_add hw)), htl]
  refine ⟨some (f, w + 1), h.fault, h.layout, hc.reclaim h.layout hw ?_, h.hw, h.history, hm, h.kept, f, w, rfl, hw,
    rfl, hq, Iff.rfl, Iff.rfl⟩
  exact hasFlag_or.2 (.inr (by decide))

end Clean

/-! ## The hardware -/

section Hw

variable {s t : TxState} {rc : Option (Frame × Nat)} {dn lv : List Frame} {f : Frame} {b : Nat}

theorem pairs_take_succ {j : Nat} (sg : TxSegs) (hj : j < sg.nsegs) :
    sg.pairs.take (j + 1) = sg.pairs.take j ++ [((sg.seg j).dsAddr, (sg.seg j).dsLen)] := by
  have hlen : j < sg.segs.length := hj
  have hlen' : j < sg.pairs.length := by rwa [TxSegs.pairs, List.length_map]
  rw [List.take_succ_eq_append_getElem hlen']
  simp [TxSegs.pairs, TxSegs.seg, hlen]

/-- Where the frames behind one of them start. -/
theorem Layout.behind {gs hs : List Frame} {hd : Nat} (h : Layout b hd (gs ++ f :: hs)) :
    Linked rp1ethNumTxDescs txMaxDmaSegs f.after (hs.map Frame.chunk) hd := by
  have hl := h.linked
  rw [List.map_append, List.map_cons] at hl
  exact hl.drop

/-- The first frame of `lv` shares no descriptor with another. -/
theorem Layout.apart_live {hd i : Nat} {g : Frame} (h : Layout b hd (frames rc dn (f :: lv))) (hi : Has f.chunk i)
    (hg : g ∈ frames rc dn lv) : ¬Has g.chunk i := by
  have hl : Layout b hd (((rc.map Prod.fst).toList ++ dn) ++ (f :: lv)) := by
    rw [List.append_assoc]
    exact h
  have hr : Layout b hd (((rc.map Prod.fst).toList ++ dn ++ [f]) ++ lv) := by
    rw [List.append_assoc]
    exact hl
  unfold frames at hg
  rw [← List.append_assoc] at hg
  rcases List.mem_append.1 hg with hg | hg
  · exact fun hgi => hl.apart hg List.mem_cons_self hgi hi
  · exact hr.apart (List.mem_append_right _ (List.mem_singleton_self f)) hg hi

/-- The hardware marks the first descriptor of the frame it has sent. -/
theorem Cells.emit {ring : Nat → TxDesc} {pend : Nat → Prop} {hd : Nat} {d : TxDesc}
    (h : Cells ring rc dn (f :: lv) pend) (hlay : Layout b hd (frames rc dn (f :: lv))) (hd : DoneDesc f d) :
    Cells (Function.update ring f.start d) rc (dn ++ [f]) lv pend := by
  have hne : ∀ g ∈ frames rc dn lv, ∀ o < g.sg.nsegs, g.start + o ≠ f.start := by
    intro g hg o ho he
    exact hlay.apart_live (has_start f) hg (he ▸ has_add ho)
  refine ⟨fun g hg o ho => ?_, fun g hg => ?_, fun g hg o ho0 ho => ?_, ?_, ?_, fun i hi hfree hpi => ?_⟩
  · rw [Function.update_of_ne (hne g (mem_frames_right (List.mem_append_right _ hg)) o ho)]
    exact h.live g (List.mem_cons_of_mem f hg) o ho
  · rcases List.mem_append.1 hg with hg | hg
    · have hne0 : g.start ≠ f.start := hne g (mem_frames_right (List.mem_append_left _ hg)) 0 g.sg.nsegs_pos
      rw [Function.update_of_ne hne0]
      exact h.done_first g hg
    · obtain rfl := List.mem_singleton.1 hg
      rw [Function.update_self]
      exact hd
  · rcases List.mem_append.1 hg with hg | hg
    · rw [Function.update_of_ne (hne g (mem_frames_right (List.mem_append_left _ hg)) o ho)]
      exact h.done_rest g hg o ho0 ho
    · obtain rfl := List.mem_singleton.1 hg
      rw [Function.update_of_ne (by omega)]
      exact h.live g List.mem_cons_self o ho
  · rintro g w rfl o ho how
    rw [Function.update_of_ne (hne g mem_frames_rc o ho)]
    exact h.reclaimed g w rfl o ho how
  · rintro g w rfl o ho how
    rw [Function.update_of_ne (hne g mem_frames_rc o ho)]
    exact h.unreclaimed g w rfl o ho how
  · rw [frames_emit] at hfree
    have hia : i ≠ f.start := by
      rintro rfl
      exact hfree f (mem_frames_right (List.mem_append_right _ List.mem_cons_self)) (has_start f)
    rw [Function.update_of_ne hia]
    exact h.used i hi hfree hpi

/-- The driver's place does not depend on a descriptor of a frame in the ring. -/
theorem PcAt.emit (h : PcAt s rc dn (f :: lv) b) (hlay : Layout b s.txringHdPtr (frames rc dn (f :: lv)))
    (hring : ∀ i, i ≠ f.start → t.txring i = s.txring i) (hpc : t.pc = s.pc) (hhd : t.txringHdPtr = s.txringHdPtr)
    (htl : t.txringTlPtr = s.txringTlPtr) (hq : t.txringQueued = s.txringQueued) : PcAt t rc (dn ++ [f]) lv b := by
  have hcells : cellsOf rc (dn ++ [f]) lv = cellsOf rc dn (f :: lv) := by
    simp only [cellsOf, chunks, frames_emit]
  unfold PcAt at *
  rw [hpc, htl, hq, hhd, hcells]
  have hfree : ∀ {o : Nat} {sg : TxSegs}, cellsOf rc dn (f :: lv) + 2 * txMaxDmaSegs < rp1ethNumTxDescs →
      o < sg.nsegs → s.txringHdPtr + o ≠ f.start := by
    intro o sg hroom ho he
    have hlt : o < txMaxDmaSegs := Nat.lt_of_lt_of_le ho sg.nsegs_le
    apply (hlay.room hroom hlt).2 f (mem_frames_right (List.mem_append_right _ List.mem_cons_self))
    rw [he]
    exact has_start f
  cases hspc : s.pc with
  | idle => rwa [hspc] at h
  | storeAddr m sg i =>
    rw [hspc] at h
    obtain ⟨hrc, htl, hq, hroom, hi, hw⟩ := h
    refine ⟨hrc, htl, hq, hroom, hi, fun o ho ho' => ?_⟩
    rw [hring _ (hfree hroom ho')]
    exact hw o ho ho'
  | storeCtl m sg i =>
    rw [hspc] at h
    obtain ⟨hrc, htl, hq, hroom, hi, hw, haddr⟩ := h
    refine ⟨hrc, htl, hq, hroom, hi, fun o ho ho' => ?_, ?_⟩
    · rw [hring _ (hfree hroom ho')]
      exact hw o ho ho'
    · rw [hring _ (hfree hroom hi)]
      exact haddr
  | cleaning ctl => rwa [hspc] at h
  | cleanStore ctl => rwa [hspc] at h

/-- At the head the hardware finds nothing to send. -/
theorem TxInvAt.head_used (h : TxInvAt s rc dn lv b) : HasFlag (s.txring s.txringHdPtr).ctl txdescUsedBit := by
  apply h.cells.used _ h.hd_lt (fun f hf => h.layout.hd_free hf)
  cases s.pc with
  | storeAddr m sg i => exact fun hp => Nat.not_lt.2 (Nat.le_add_right _ _) hp.1
  | storeCtl m sg i => exact fun hp => Nat.not_lt.2 (Nat.le_add_right _ _) hp.1
  | _ => exact id

/-- A descriptor the hardware writes back. -/
theorem doneDesc_writeback (f : Frame) (status : BitVec 32) : DoneDesc f { f.desc 0 with
    ctl := (f.desc 0).ctl ||| cgemTxdescUsed ||| (status &&& txdescStatusMask) } := by
  have hst : ∀ k, ¬HasFlag txdescStatusMask k → ¬HasFlag (status &&& txdescStatusMask) k := by
    intro k hk
    rw [hasFlag_iff] at hk ⊢
    simp [hk]
  have hu : HasFlag cgemTxdescUsed txdescUsedBit := by decide
  have hul : ¬HasFlag cgemTxdescUsed txdescLastBufBit := by decide
  have huw : ¬HasFlag cgemTxdescUsed txdescWrapBit := by decide
  refine ⟨?_, ?_, ?_⟩
  · simp only [hasFlag_or, hu, or_true, true_or]
  · simp only [hasFlag_or, hul, hst _ (show ¬HasFlag txdescStatusMask txdescLastBufBit by decide), or_false]
  · simp only [hasFlag_or, huw, hst _ (show ¬HasFlag txdescStatusMask txdescWrapBit by decide), or_false]

/-- Behind the last descriptor of a frame the hardware goes to the next frame. -/
theorem next_after {j : Nat} (hj : j + 1 = f.sg.nsegs) :
    (if HasFlag (f.desc j).ctl txdescWrapBit then 0 else f.start + j + 1) = f.after := by
  have hwrap : HasFlag (f.desc j).ctl txdescWrapBit ↔ j = f.sg.nsegs - 1 ∧ txWrap f.start f.sg.nsegs = true :=
    segCtl_wrap _ _ _
  rw [after_eq]
  by_cases hwr : txWrap f.start f.sg.nsegs = true
  · rw [if_pos (hwrap.2 ⟨by omega, hwr⟩), if_pos hwr]
  · rw [if_neg fun hx => hwr (hwrap.1 hx).2, if_neg hwr, ← hj, Nat.add_assoc]

/-- There it starts over. -/
theorem TxInvAt.hwAt_behind (h : TxInvAt s rc dn (f :: lv) b) : HwAt f.after f.after [] s.txringHdPtr lv := by
  have hl : Layout b s.txringHdPtr (((rc.map Prod.fst).toList ++ dn) ++ f :: lv) := by
    rw [List.append_assoc]
    exact h.layout
  have hb := hl.behind
  cases lv with
  | nil => exact ⟨hb, hb, rfl⟩
  | cons g lv =>
    have hg : g.start = f.after := hb.1
    exact ⟨hg.symm, hg.symm, g.sg.nsegs_pos, rfl⟩

/-- A frame that was sent is still in the ring. -/
theorem Mbufs.emit {table : Nat → Option Mbuf} {hd : Nat} {nw : Option Mbuf} (h : Mbufs table hd dn (f :: lv) nw) :
    Mbufs table hd (dn ++ [f]) lv nw := by
  have happ : dn ++ [f] ++ lv = dn ++ f :: lv := by rw [List.append_assoc, List.singleton_append]
  exact ⟨happ ▸ h.held, h.new, happ ▸ h.empty⟩

theorem txInv_hw {status : BitVec 32} (h : TxInvAt s rc dn lv b) (ht : hwFetch s status = some t) :
    ∃ dn' lv', TxInvAt t rc dn' lv' b := by
  have hhw := h.hw
  cases lv with
  | nil =>
    obtain ⟨hptr, -, -⟩ := hhw
    have hused := h.head_used
    rw [← hptr] at hused
    simp [hwFetch, hused] at ht
  | cons f lv =>
    obtain ⟨hptr, hfirst, hlt, hsegs⟩ := hhw
    generalize hj : s.hwSegs.length = j at hptr hlt hsegs
    have hdesc : s.txring s.hwPtr = f.desc j := by
      rw [hptr]
      exact h.cells.live f List.mem_cons_self j hlt
    have hmem : f ∈ frames rc dn (f :: lv) := mem_frames_right (List.mem_append_right _ List.mem_cons_self)
    have hin : s.hwPtr < rp1ethNumTxDescs := hptr ▸ h.layout.lt hmem (has_add hlt)
    have hnused : ¬HasFlag (f.desc j).ctl txdescUsedBit := segCtl_used _ _ _
    have hlast : HasFlag (f.desc j).ctl txdescLastBufBit ↔ j = f.sg.nsegs - 1 := segCtl_last _ _ _
    have hwrap : HasFlag (f.desc j).ctl txdescWrapBit ↔ j = f.sg.nsegs - 1 ∧ txWrap f.start f.sg.nsegs = true :=
      segCtl_wrap _ _ _
    have hpair : ((f.desc j).addr, (f.desc j).ctl &&& cgemTxdescLengthMask) =
        ((f.sg.seg j).dsAddr, (f.sg.seg j).dsLen) := Prod.ext rfl (segCtl_length _ _ _)
    simp only [hwFetch, hdesc, hnused, if_false, Option.some_inj] at ht
    rw [hpair, hsegs, ← pairs_take_succ f.sg hlt, access_eq hin] at ht
    by_cases hl : j = f.sg.nsegs - 1
    · -- the frame goes out
      rw [if_pos (hlast.2 hl)] at ht
      have hn : j + 1 = f.sg.nsegs := by omega
      have hall : f.sg.pairs.take (j + 1) = f.sg.pairs :=
        List.take_of_length_le (by simp [TxSegs.pairs, hn, TxSegs.nsegs])
      have hnext : (if HasFlag (f.desc j).ctl txdescWrapBit then 0 else s.hwPtr + 1) = f.after := by
        rw [hptr]
        exact next_after hn
      rw [hall, hnext, hfirst] at ht
      have hfirstDesc : s.txring f.start = f.desc 0 := h.cells.live f List.mem_cons_self 0 f.sg.nsegs_pos
      have hdone : DoneDesc f { s.txring f.start with
          ctl := (s.txring f.start).ctl ||| cgemTxdescUsed ||| (status &&& txdescStatusMask) } := by
        rw [hfirstDesc]
        exact doneDesc_writeback f status
      refine ⟨dn ++ [f], lv, ?_⟩
      subst ht
      refine ⟨h.fault, frames_emit ▸ h.layout, h.cells.emit h.layout hdone, h.hwAt_behind, h.history.emit, h.mbufs.emit,
        h.kept, h.pc.emit h.layout (fun i hi => Function.update_of_ne hi _ _) rfl rfl rfl rfl⟩
    · rw [if_neg fun hx => hl (hlast.1 hx), if_neg fun hx => hl (hwrap.1 hx).1] at ht
      subst ht
      have hlen : (f.sg.pairs.take (j + 1)).length = j + 1 := by
        rw [List.length_take, TxSegs.pairs, List.length_map]
        exact Nat.min_eq_left hlt
      refine ⟨dn, f :: lv, h.fault, h.layout, h.cells, ⟨?_, hfirst, ?_, ?_⟩, h.history, h.mbufs, h.kept, h.pc⟩
      · show s.hwPtr + 1 = f.start + (f.sg.pairs.take (j + 1)).length
        rw [hlen, hptr, Nat.add_assoc]
      · show (f.sg.pairs.take (j + 1)).length < _
        rw [hlen]
        omega
      · show _ = f.sg.pairs.take (f.sg.pairs.take (j + 1)).length
        rw [hlen]

end Hw

/-! ## Set-up and stop -/

theorem txringUsed_used (i : Nat) : HasFlag (txringUsed i).ctl txdescUsedBit := by
  unfold txringUsed
  dsimp only
  split <;> decide

theorem layout_empty : Layout 0 0 [] := ⟨by decide, rfl, by decide⟩

theorem cells_empty : Cells txringUsed none [] [] fun _ => False :=
  ⟨nofun, nofun, nofun, nofun, nofun, fun i _ _ _ => txringUsed_used i⟩

theorem txInv_setup : TxInv cgemSetupTx := by
  have hnone : held cgemSetupTx.txringM rp1ethNumTxDescs = [] := held_none fun _ _ => rfl
  refine ⟨none, [], [], 0, rfl, layout_empty, cells_empty, ⟨rfl, rfl, rfl⟩, ⟨rfl, rfl, rfl⟩,
    ⟨nofun, nofun, fun _ _ _ _ => rfl⟩, ?_, rfl, rfl, rfl⟩
  rw [hnone]
  exact List.Perm.refl _

theorem txInv_stop {s t : TxState} {rc : Option (Frame × Nat)} {dn lv : List Frame} {b : Nat}
    (h : TxInvAt s rc dn lv b) (ht : cgemStopTx s = some t) : TxInvAt t none [] [] 0 := by
  cases hpc : s.pc with
  | idle =>
    simp only [cgemStopTx, hpc, Option.some_inj] at ht
    subst ht
    refine ⟨h.fault, layout_empty, cells_empty, ⟨rfl, rfl, rfl⟩, ⟨rfl, rfl, rfl⟩,
      ⟨nofun, nofun, fun i hi _ _ => if_pos hi⟩, ?_, rfl, rfl, rfl⟩
    show (s.freed ++ held s.txringM rp1ethNumTxDescs ++ held _ rp1ethNumTxDescs).Perm (List.range s.dequeued)
    rw [held_none fun i hi => if_pos hi, List.append_nil]
    exact h.kept
  | _ => simp [cgemStopTx, hpc] at ht

/-! ## Every step -/

/-- **Every step of the driver and of the hardware keeps the invariant.** -/
theorem txInv_step {s t : TxState} {a : TxAct} (h : TxInv s) (ht : txRingStep s a = some t) : TxInv t := by
  obtain ⟨rc, dn, lv, b, h⟩ := h
  cases a with
  | mapFail why => exact ⟨rc, dn, lv, b, txInv_mapFail h ht⟩
  | post sg defrag => exact ⟨rc, dn, lv, b, txInv_post h ht⟩
  | store =>
    cases hpc : s.pc with
    | storeAddr m sg i => exact ⟨rc, dn, lv, b, txInv_storeAddr h hpc ht⟩
    | storeCtl m sg i =>
      cases i with
      | zero => exact ⟨rc, dn, _, b, txInv_storeLast h hpc ht⟩
      | succ i => exact ⟨rc, dn, lv, b, txInv_storeCtl h hpc ht⟩
    | _ => simp [txRingStep, startStore, hpc] at ht
  | full => exact ⟨rc, dn, lv, b, txInv_full h ht⟩
  | clean =>
    obtain ⟨rc', dn', h'⟩ := txInv_clean h ht
    exact ⟨rc', dn', lv, b, h'⟩
  | cleanStep =>
    cases hpc : s.pc with
    | cleaning ctl =>
      obtain ⟨rc', b', h'⟩ := txInv_cleaning h hpc ht
      exact ⟨rc', dn, lv, b', h'⟩
    | cleanStore ctl =>
      obtain ⟨rc', h'⟩ := txInv_cleanStore h hpc ht
      exact ⟨rc', dn, lv, b, h'⟩
    | _ => simp [txRingStep, cleanStep, hpc] at ht
  | stop => exact ⟨none, [], [], 0, txInv_stop h ht⟩
  | hw status =>
    obtain ⟨dn', lv', h'⟩ := txInv_hw h ht
    exact ⟨rc, dn', lv', b, h'⟩

end Eth
