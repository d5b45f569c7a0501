import Rpi5Modules.Cyw.DataFraming
import Rpi5Modules.Lib.TailQueue
import Mathlib.Data.List.Forall2

/-!
# One pass of the receive task

`cyw_sdpcm_task` reads frames until there are no more, hands control and event frames to their dispatchers as they
come, and copies data frames into mbufs that it links into a list. The list is delivered when the F2 lock is free again.

- what a data frame delivers is a slice of it that the frame's own offsets name (`copyData_eq`), and bytes behind the
  frame have no part in it (`dataSlice_congr`);
- the list holds the mbufs in the order of their frames (`SdpcmTask.Ok`), and the delivery walks it to its end
  (`deliverLoop_chain`);
- so `if_input` gets every data frame that has room for an Ethernet header, in order and once (`cywSdpcmTask_demux`).
-/

namespace Cyw

open BufProg TailQueue

/-! ## The source -/

/-- What one call of `cyw_sdpcm_recv_one` leaves, and whether `m_getcl` has an mbuf for it. -/
structure RecvFrame where
  flen : UInt16
  buf : Nat → UInt8
  mGetcl : Bool

/-- `hdr->chan_flags & 0x0f`. -/
def RecvFrame.chan (f : RecvFrame) : UInt8 := sdpcmChanFlags.result f.buf &&& 0x0f

/-- The loop of `cyw_sdpcm_task`: `rxq`, the `m_nextpkt` fields and `rxq_tail`, the bytes in the mbufs, how many mbufs
there are, and the frames handed to `cyw_sdpcm_deliver_ctrl` and to `cyw_event_dispatch`. The mbufs are numbered in the
order they are allocated in. -/
structure SdpcmTask where
  links : Links Nat
  mbuf : Nat → List UInt8
  mbufs : Nat
  deliverCtrl : List RecvFrame
  eventDispatch : List RecvFrame

/-- `rxq = NULL; rxq_tail = &rxq;` -/
def SdpcmTask.start : SdpcmTask where
  links := ⟨fun _ => none, none, .head⟩
  mbuf := fun _ => []
  mbufs := 0
  deliverCtrl := []
  eventDispatch := []

/-- The `switch` on the channel of a frame. -/
def SdpcmTask.dispatch (s : SdpcmTask) (f : RecvFrame) : SdpcmTask :=
  if f.chan = cywSdpcmChanCtrl then { s with deliverCtrl := s.deliverCtrl ++ [f] }
  else if f.chan = cywSdpcmChanEvent then { s with eventDispatch := s.eventDispatch ++ [f] }
  else if f.chan = cywSdpcmChanData then
    match (cywSdpcmCopyData f.mGetcl f.flen).result f.buf with
    | none => s
    | some data =>
      { s with
        links := s.links.push s.mbufs
        mbuf := Function.update s.mbuf s.mbufs data
        mbufs := s.mbufs + 1 }
  else s

/-- The delivery: `rxq`, the `m_nextpkt` fields, the mbufs given to `if_input` and to `m_freem`, and the counters. -/
structure RxDelivery where
  rxq : Option Nat
  next : Nat → Option Nat
  ifInput : List Nat
  freed : List Nat
  rxDataFrames : UInt64
  rxDataBytes : UInt64
  rxEapolFrames : UInt64

/-- `is_eapol`. -/
def isEapol (data : List UInt8) : Bool := (be16 12).result (data.getD · 0) = ethertypePae

/-- One round of the delivery, for the mbuf `m` with the bytes `data`; `vap` says if there is a VAP with an ifnet. -/
def RxDelivery.round (s : RxDelivery) (vap : Bool) (m : Nat) (data : List UInt8) : RxDelivery :=
  let s := { s with rxq := s.next m, next := Function.update s.next m none }
  if !vap then { s with freed := s.freed ++ [m] }
  else
    { s with
      ifInput := s.ifInput ++ [m]
      rxDataFrames := s.rxDataFrames + 1
      rxDataBytes := s.rxDataBytes + UInt64.ofNat data.length
      rxEapolFrames := if isEapol data then s.rxEapolFrames + 1 else s.rxEapolFrames }

/-- `while (rxq != NULL)`, for at most `fuel` rounds. -/
def deliverLoop (vap : Bool) (mbuf : Nat → List UInt8) : Nat → RxDelivery → Option RxDelivery
  | 0, s => if s.rxq = none then some s else none
  | fuel + 1, s =>
    match s.rxq with
    | none => some s
    | some m => deliverLoop vap mbuf fuel (s.round vap m (mbuf m))

/-- `cyw_sdpcm_task(sc, pending)`, when `cyw_sdpcm_recv_one` returns `frames` before its first error. -/
def cywSdpcmTask (fuel : Nat) (vap : Bool) (frames : List RecvFrame) (rxDataFrames rxDataBytes rxEapolFrames : UInt64) :
    Option (SdpcmTask × RxDelivery) :=
  let s := frames.foldl SdpcmTask.dispatch SdpcmTask.start
  (deliverLoop vap s.mbuf fuel ⟨s.links.head, s.links.next, [], [], rxDataFrames, rxDataBytes, rxEapolFrames⟩).map
    fun d => (s, d)

/-! ## What a frame delivers -/

/-- The slice a frame delivers: a data frame whose offsets leave an Ethernet header. -/
def dataSlice (f : RecvFrame) : Option (List UInt8) :=
  let dataOffset := (f.buf 7).toNat
  let start := dataOffset + 4 + 4 * (f.buf (dataOffset + 3)).toNat
  if f.chan = cywSdpcmChanData ∧ dataOffset + 4 ≤ f.flen.toNat ∧ start + 14 ≤ f.flen.toNat then
    some ((List.range' start (f.flen.toNat - start)).map f.buf)
  else none

section Slice

variable {f g : RecvFrame}

theorem copyData_eq (hm : f.mGetcl = true) (hc : f.chan = cywSdpcmChanData) :
    (cywSdpcmCopyData f.mGetcl f.flen).result f.buf = dataSlice f := by
  have hflen := f.flen.toNat_lt
  have h14 : sizeofEtherHeader = 14 := rfl
  unfold dataSlice
  generalize hstart : (f.buf 7).toNat + 4 + (f.buf ((f.buf 7).toNat + 3)).toNat * 4 = start
  have hstart' : (f.buf 7).toNat + 4 + 4 * (f.buf ((f.buf 7).toNat + 3)).toNat = start := by omega
  simp only [hc, true_and, hstart']
  by_cases hoff : f.flen.toNat < (f.buf 7).toNat + 4
  · simp only [cywSdpcmCopyData, result_bind, sdpcmDataOffset, result_byte, hoff, if_true, result_pure]
    rw [if_neg (by omega)]
  · by_cases hover : start > f.flen.toNat
    · simp only [cywSdpcmCopyData, result_bind, sdpcmDataOffset, result_byte, hoff, if_false, bdcDataOffset, hstart,
        hover, if_true, result_pure]
      rw [if_neg (by omega)]
    · have hlen : (UInt16.ofNat (f.flen.toNat - start)).toNat = f.flen.toNat - start := by
        rw [UInt16.toNat_ofNat']
        omega
      by_cases hmin : f.flen.toNat - start < sizeofEtherHeader
      · simp only [cywSdpcmCopyData, result_bind, sdpcmDataOffset, result_byte, hoff, if_false, bdcDataOffset, hstart,
          hover, hlen, hmin, if_true, result_pure]
        rw [if_neg (by omega)]
      · simp only [cywSdpcmCopyData, result_bind, sdpcmDataOffset, result_byte, hoff, if_false, bdcDataOffset, hstart,
          hover, hlen, hmin, hm, Bool.not_true, Bool.false_eq_true, result_bytes, result_pure]
        rw [if_pos (by omega)]

/-- The same frame: the bytes behind it may differ. -/
structure RecvFrame.SameBelow (f g : RecvFrame) : Prop where
  flen : f.flen = g.flen
  mGetcl : f.mGetcl = g.mGetcl
  buf : ∀ i < f.flen.toNat, f.buf i = g.buf i

/-- A slice is inside its frame. -/
theorem dataSlice_congr (h : f.SameBelow g) (h12 : 12 ≤ f.flen.toNat) : dataSlice f = dataSlice g := by
  have hchan : f.chan = g.chan := congrArg (· &&& 0x0f) (h.buf 5 (by omega))
  have hoff : f.buf 7 = g.buf 7 := h.buf 7 (by omega)
  unfold dataSlice
  rw [← hchan, ← h.flen, ← hoff]
  dsimp only
  generalize (f.buf 7).toNat = off
  by_cases hle : off + 4 ≤ f.flen.toNat
  · rw [← h.buf (off + 3) (by omega)]
    generalize off + 4 + 4 * (f.buf (off + 3)).toNat = start
    have hmap : (List.range' start (f.flen.toNat - start)).map f.buf =
        (List.range' start (f.flen.toNat - start)).map g.buf := by
      apply List.map_congr_left
      intro i hi
      have := List.mem_range'_1.1 hi
      exact h.buf i (by omega)
    rw [hmap]
  · simp only [hle, false_and, and_false, if_false]

theorem length_dataSlice {data : List UInt8} (h : dataSlice f = some data) : data.length ≤ f.flen.toNat := by
  unfold dataSlice at h
  dsimp only at h
  split at h
  · rw [← Option.some.inj h, List.length_map, List.length_range']
    omega
  · cases h

end Slice

/-! ## The list -/

/-- After the frames `frames`, the list holds the mbufs in the order they were allocated in, with what the frames
deliver in them, and every other frame is with its dispatcher. -/
structure SdpcmTask.Ok (s : SdpcmTask) (frames : List RecvFrame) : Prop where
  links : s.links.Holds (List.range s.mbufs)
  mbuf : (List.range s.mbufs).map s.mbuf = frames.filterMap dataSlice
  deliverCtrl : s.deliverCtrl = frames.filter fun f => f.chan = cywSdpcmChanCtrl
  eventDispatch : s.eventDispatch = frames.filter fun f => f.chan = cywSdpcmChanEvent

theorem SdpcmTask.ok_start : SdpcmTask.start.Ok [] := ⟨⟨rfl, rfl⟩, rfl, rfl, rfl⟩

section Dispatch

variable {s : SdpcmTask} {frames : List RecvFrame} {f : RecvFrame}

theorem dataSlice_other (h : f.chan ≠ cywSdpcmChanData) : dataSlice f = none := if_neg fun hn => h hn.1

/-- A frame that is no data frame leaves the list alone. -/
theorem SdpcmTask.Ok.other (h : s.Ok frames) (hd : f.chan ≠ cywSdpcmChanData) :
    (s.dispatch f).Ok (frames ++ [f]) := by
  have hslices : (frames ++ [f]).filterMap dataSlice = frames.filterMap dataSlice := by
    rw [List.filterMap_append, List.filterMap_cons_none (dataSlice_other hd), List.filterMap_nil, List.append_nil]
  unfold SdpcmTask.dispatch
  by_cases hc : f.chan = cywSdpcmChanCtrl
  · have he : f.chan ≠ cywSdpcmChanEvent := by rw [hc]; decide
    rw [if_pos hc]
    exact ⟨h.links, hslices ▸ h.mbuf, by simp [h.deliverCtrl, hc], by simp [h.eventDispatch, he]⟩
  · rw [if_neg hc]
    by_cases he : f.chan = cywSdpcmChanEvent
    · rw [if_pos he]
      exact ⟨h.links, hslices ▸ h.mbuf, by simp [h.deliverCtrl, hc], by simp [h.eventDispatch, he]⟩
    · rw [if_neg he, if_neg hd]
      exact ⟨h.links, hslices ▸ h.mbuf, by simp [h.deliverCtrl, hc], by simp [h.eventDispatch, he]⟩

/-- The mbuf of a data frame goes to the end of the list. -/
theorem SdpcmTask.Ok.data (h : s.Ok frames) (hm : f.mGetcl = true) (hd : f.chan = cywSdpcmChanData) :
    (s.dispatch f).Ok (frames ++ [f]) := by
  have hc : f.chan ≠ cywSdpcmChanCtrl := by rw [hd]; decide
  have he : f.chan ≠ cywSdpcmChanEvent := by rw [hd]; decide
  have hctrl : s.deliverCtrl = (frames ++ [f]).filter fun f => f.chan = cywSdpcmChanCtrl := by
    simp [h.deliverCtrl, hc]
  have hevent : s.eventDispatch = (frames ++ [f]).filter fun f => f.chan = cywSdpcmChanEvent := by
    simp [h.eventDispatch, he]
  unfold SdpcmTask.dispatch
  rw [if_neg hc, if_neg he, if_pos hd, copyData_eq hm hd]
  cases hs : dataSlice f with
  | none =>
    refine ⟨h.links, ?_, hctrl, hevent⟩
    rw [List.filterMap_append, List.filterMap_cons_none hs, List.filterMap_nil, List.append_nil]
    exact h.mbuf
  | some data =>
    refine ⟨?_, ?_, hctrl, hevent⟩
    · show (s.links.push s.mbufs).Holds (List.range (s.mbufs + 1))
      rw [List.range_succ]
      exact h.links.push List.nodup_range List.not_mem_range_self
    · show (List.range (s.mbufs + 1)).map (Function.update s.mbuf s.mbufs data) = _
      have hold : (List.range s.mbufs).map (Function.update s.mbuf s.mbufs data) = (List.range s.mbufs).map s.mbuf :=
        List.map_congr_left fun i hi => Function.update_of_ne (Nat.ne_of_lt (List.mem_range.1 hi)) _ _
      rw [List.range_succ, List.map_append, hold, h.mbuf, List.filterMap_append, List.filterMap_cons_some hs,
        List.filterMap_nil, List.map_singleton, Function.update_self]

end Dispatch

/-- The loop over the frames. -/
theorem SdpcmTask.ok_frames {frames : List RecvFrame} (hm : ∀ f ∈ frames, f.mGetcl = true) :
    (frames.foldl SdpcmTask.dispatch SdpcmTask.start).Ok frames := by
  have hrun : ∀ (more before : List RecvFrame) (s : SdpcmTask), s.Ok before → (∀ f ∈ more, f.mGetcl = true) →
      (more.foldl SdpcmTask.dispatch s).Ok (before ++ more) := by
    intro more
    induction more with
    | nil =>
      intro before s h _
      rw [List.append_nil]
      exact h
    | cons f more ih =>
      intro before s h hm
      have hf := hm f List.mem_cons_self
      have hstep : (s.dispatch f).Ok (before ++ [f]) := by
        by_cases hd : f.chan = cywSdpcmChanData
        · exact h.data hf hd
        · exact h.other hd
      rw [List.foldl_cons, ← List.singleton_append, ← List.append_assoc]
      exact ih _ _ hstep fun g hg => hm g (List.mem_cons_of_mem _ hg)
  exact hrun frames [] _ SdpcmTask.ok_start hm

/-! ## The delivery -/

/-- The delivery walks the list to its end. -/
theorem deliverLoop_chain (mbuf : Nat → List UInt8) {l : List Nat} {s : RxDelivery} {fuel : Nat}
    (h : Chain s.next s.rxq l) (hl : l.Nodup) (hfuel : l.length ≤ fuel) :
    ∃ d, deliverLoop true mbuf fuel s = some d ∧ d.ifInput = s.ifInput ++ l ∧ d.freed = s.freed := by
  induction l generalizing s fuel with
  | nil =>
    have hq : s.rxq = none := h
    refine ⟨s, ?_, (List.append_nil _).symm, rfl⟩
    cases fuel <;> simp [deliverLoop, hq]
  | cons m l ih =>
    obtain ⟨hq, hrest⟩ := h
    obtain ⟨fuel, rfl⟩ : ∃ n, fuel = n + 1 := ⟨fuel - 1, by rw [List.length_cons] at hfuel; omega⟩
    have hround : Chain (s.round true m (mbuf m)).next (s.round true m (mbuf m)).rxq l :=
      hrest.update (List.nodup_cons.1 hl).1
    obtain ⟨d, hd, hin, hfree⟩ := ih hround (List.nodup_cons.1 hl).2 (Nat.le_of_succ_le_succ hfuel)
    refine ⟨d, ?_, ?_, hfree⟩
    · simp only [deliverLoop, hq]
      exact hd
    · rw [hin]
      show s.ifInput ++ [m] ++ l = _
      rw [List.append_assoc, List.singleton_append]

/-- Mbufs are numbered in the order of their allocation; each frame allocates one at most. -/
theorem SdpcmTask.Ok.mbufs_le {s : SdpcmTask} {frames : List RecvFrame} (h : s.Ok frames) :
    s.mbufs ≤ frames.length := by
  have hlen := congrArg List.length h.mbuf
  rw [List.length_map, List.length_range] at hlen
  rw [hlen]
  exact List.length_filterMap_le _ _

/-- What a pass over frames that all get an mbuf leaves, with a VAP. -/
theorem cywSdpcmTask_ok {frames : List RecvFrame} (hm : ∀ f ∈ frames, f.mGetcl = true) {fuel : Nat}
    (hfuel : frames.length ≤ fuel) (c₁ c₂ c₃ : UInt64) :
    ∃ s d, cywSdpcmTask fuel true frames c₁ c₂ c₃ = some (s, d) ∧ s.Ok frames ∧ d.ifInput = List.range s.mbufs ∧
      d.freed = [] := by
  have hok := SdpcmTask.ok_frames hm
  unfold cywSdpcmTask
  generalize frames.foldl SdpcmTask.dispatch SdpcmTask.start = s at hok
  have hlen : (List.range s.mbufs).length ≤ fuel := by
    rw [List.length_range]
    exact Nat.le_trans hok.mbufs_le hfuel
  obtain ⟨d, hd, hin, hfree⟩ := deliverLoop_chain s.mbuf
    (s := ⟨s.links.head, s.links.next, [], [], c₁, c₂, c₃⟩) hok.links.chain List.nodup_range hlen
  refine ⟨s, d, ?_, hok, hin, hfree⟩
  dsimp only
  rw [hd, Option.map_some]

theorem filterMap_dataSlice_congr {frames frames' : List RecvFrame}
    (h : List.Forall₂ RecvFrame.SameBelow frames frames') (h12 : ∀ f ∈ frames, 12 ≤ f.flen.toNat) :
    frames'.filterMap dataSlice = frames.filterMap dataSlice := by
  induction h with
  | nil => rfl
  | cons hf _ ih =>
    rw [List.filterMap_cons, List.filterMap_cons, ← dataSlice_congr hf (h12 _ List.mem_cons_self),
      ih fun g hg => h12 g (List.mem_cons_of_mem _ hg)]

theorem mGetcl_congr {frames frames' : List RecvFrame} (h : List.Forall₂ RecvFrame.SameBelow frames frames')
    (hm : ∀ f ∈ frames, f.mGetcl = true) : ∀ f ∈ frames', f.mGetcl = true := by
  induction h with
  | nil => exact fun f hf => by cases hf
  | cons hf _ ih =>
    refine List.forall_mem_cons.2 ⟨hf.mGetcl ▸ hm _ List.mem_cons_self, ih fun g hg => hm g (List.mem_cons_of_mem _ hg)⟩

/-- **Receive demultiplexing**: with an mbuf for every frame and a VAP, the pass ends, `if_input` gets the slices of the
data frames in order and once each, none longer than a cluster, whatever lies behind the frames, and every control and
event frame goes to its own dispatcher. -/
theorem cywSdpcmTask_demux (frames : List RecvFrame)
    (hframe : ∀ f ∈ frames, 12 ≤ f.flen.toNat ∧ f.flen.toNat ≤ 2048 ∧ f.mGetcl = true) (fuel : Nat)
    (hfuel : frames.length ≤ fuel) (c₁ c₂ c₃ : UInt64) :
    ∃ s d, cywSdpcmTask fuel true frames c₁ c₂ c₃ = some (s, d) ∧
      d.ifInput.Nodup ∧ d.ifInput.map s.mbuf = frames.filterMap dataSlice ∧ d.freed = [] ∧
      (∀ m ∈ d.ifInput, (s.mbuf m).length ≤ 2048) ∧
      s.deliverCtrl = frames.filter (fun f => f.chan = cywSdpcmChanCtrl) ∧
      s.eventDispatch = frames.filter (fun f => f.chan = cywSdpcmChanEvent) ∧
      ∀ frames', List.Forall₂ RecvFrame.SameBelow frames frames' →
        ∃ s' d', cywSdpcmTask fuel true frames' c₁ c₂ c₃ = some (s', d') ∧
          d'.ifInput.map s'.mbuf = d.ifInput.map s.mbuf := by
  have hm : ∀ f ∈ frames, f.mGetcl = true := fun f hf => (hframe f hf).2.2
  obtain ⟨s, d, hrun, hok, hin, hfree⟩ := cywSdpcmTask_ok hm hfuel c₁ c₂ c₃
  refine ⟨s, d, hrun, ?_, ?_, hfree, ?_, hok.deliverCtrl, hok.eventDispatch, ?_⟩
  · rw [hin]
    exact List.nodup_range
  · rw [hin, hok.mbuf]
  · intro m hmem
    have hslice : s.mbuf m ∈ frames.filterMap dataSlice := by
      rw [← hok.mbuf, ← hin]
      exact List.mem_map_of_mem hmem
    obtain ⟨f, hf, hdata⟩ := List.mem_filterMap.1 hslice
    exact Nat.le_trans (length_dataSlice hdata) (hframe f hf).2.1
  · intro frames' hsame
    obtain ⟨s', d', hrun', hok', hin', -⟩ :=
      cywSdpcmTask_ok (mGetcl_congr hsame hm) (hsame.length_eq ▸ hfuel) c₁ c₂ c₃
    refine ⟨s', d', hrun', ?_⟩
    rw [hin, hin', hok.mbuf, hok'.mbuf, filterMap_dataSlice_congr hsame fun f hf => (hframe f hf).1]

/-- A data frame of 32 bytes with the usual offsets and a control frame. -/
theorem cywSdpcmTask_demux_two :
    ∃ s d, cywSdpcmTask 2 true
        [⟨32, fun i => if i = 5 then 2 else if i = 7 then 12 else 0, true⟩, ⟨28, fun _ => 0, true⟩] 0 0 0 =
          some (s, d) ∧
      d.ifInput.map s.mbuf = [List.replicate 16 0] ∧ s.deliverCtrl.length = 1 := by
  obtain ⟨s, d, hrun, -, hin, -, -, hctrl, -⟩ := cywSdpcmTask_demux
    [⟨32, fun i => if i = 5 then 2 else if i = 7 then 12 else 0, true⟩, ⟨28, fun _ => 0, true⟩]
    (List.forall_mem_cons.2 ⟨by decide, List.forall_mem_singleton.2 (by decide)⟩) 2 (by decide) 0 0 0
  refine ⟨s, d, hrun, ?_, ?_⟩
  · rw [hin]
    rfl
  · rw [hctrl]
    rfl

end Cyw
