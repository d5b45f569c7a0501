import Mathlib.Logic.Function.Basic
import Rpi5Modules.Eth.Defs
import Rpi5Modules.Lib.Slots
import Rpi5Modules.Lib.Transition

/-!
# The GEM transmit ring

The driver side (`cgem_start_locked`, `cgem_clean_tx`, `cgem_stop`) and the hardware share the descriptor ring. The
driver runs under its lock, the hardware at any time, so the system is modelled at the granularity of single
descriptor stores: `pc` says where the driver is inside the body of a loop, and a schedule interleaves its stores with
the hardware's fetches. The driver's own variables change together with the store next to them.

- `post` begins an iteration of `cgem_start_locked` whose frame was mapped, `store` performs its next store;
- `mapFail` is an iteration whose frame could not be mapped, `full` the one that finds no room;
- `clean` begins an iteration of the outer loop of `cgem_clean_tx`, `cleanStep` goes on with it;
- `hw` is one fetch of the hardware.

The test of `IFF_DRV_OACTIVE` at the start of `cgem_start_locked` only suppresses calls, so it is not modelled: a
schedule may hold any calls.
-/

namespace Eth

open Flags Slots

/-! ## Frames -/

/-- A segment of a DMA load: at most `MCLBYTES` long. -/
structure DmaSeg where
  dsAddr : BitVec 32
  dsLen : BitVec 32
  len_le : dsLen.toNat ≤ 2048

instance : Inhabited DmaSeg := ⟨⟨0, 0, Nat.zero_le _⟩⟩

/-- The result of a DMA load: one to `TX_MAX_DMA_SEGS` segments. -/
structure TxSegs where
  segs : List DmaSeg
  nsegs_pos : 0 < segs.length
  nsegs_le : segs.length ≤ txMaxDmaSegs

def TxSegs.nsegs (sg : TxSegs) : Nat := sg.segs.length

/-- `segs[i]`. -/
def TxSegs.seg (sg : TxSegs) (i : Nat) : DmaSeg := sg.segs.getD i default

/-- The segments as (address, length). -/
def TxSegs.pairs (sg : TxSegs) : List (BitVec 32 × BitVec 32) := sg.segs.map fun g => (g.dsAddr, g.dsLen)

/-- A frame at this place ends the lap of the ring. -/
def txWrap (hd nsegs : Nat) : Bool := hd + nsegs + txMaxDmaSegs ≥ rp1ethNumTxDescs

/-- The control word of segment `i`. -/
def segCtl (sg : TxSegs) (wrap : Bool) (i : Nat) : BitVec 32 :=
  let ctl := (sg.seg i).dsLen
  if i = sg.nsegs - 1 then
    let ctl := ctl ||| cgemTxdescLastBuf
    if wrap then ctl ||| cgemTxdescWrap else ctl
  else ctl

/-! ## State -/

/-- Where the driver is: between two iterations, about to store the address or the control word of segment `i`, in the
inner loop of `cgem_clean_tx` with this `ctl`, or there about to store `ctl | USED`. -/
inductive TxPc where
  | idle
  | storeAddr (m : Mbuf) (sg : TxSegs) (i : Nat)
  | storeCtl (m : Mbuf) (sg : TxSegs) (i : Nat)
  | cleaning (ctl : BitVec 32)
  | cleanStore (ctl : BitVec 32)

/-- The counters. -/
structure TxStats where
  txfull : Nat
  txdefrags : Nat
  txdefragfails : Nat
  txdmamapfails : Nat
  opackets : Nat
  oerrors : Nat

/-- The transmit part of the softc, the hardware, and what happened so far. The `k`-th mbuf taken from the queue is
mbuf `k`; `fault` records an index outside the ring. `posted`, `completed` and `emitted` count from the last reset. -/
structure TxState where
  txring : Nat → TxDesc
  txringM : Nat → Option Mbuf
  txringHdPtr : Nat
  txringTlPtr : Nat
  txringQueued : Int
  stats : TxStats
  pc : TxPc
  fault : Bool
  /-- The descriptor the hardware looks at next. -/
  hwPtr : Nat
  /-- The first descriptor of the frame it is collecting, and the segments collected. -/
  hwFirst : Nat
  hwSegs : List (BitVec 32 × BitVec 32)
  dequeued : Nat
  freed : List Mbuf
  posted : List (Mbuf × TxSegs)
  completed : List Mbuf
  emitted : List (List (BitVec 32 × BitVec 32))

/-- The descriptors after set-up or stop. -/
def txringUsed (i : Nat) : TxDesc :=
  ⟨0, if i = rp1ethNumTxDescs - 1 then cgemTxdescUsed ||| cgemTxdescWrap else cgemTxdescUsed⟩

/-- The transmit part of `cgem_setup_descs`. -/
def cgemSetupTx : TxState where
  txring := txringUsed
  txringM _ := none
  txringHdPtr := 0
  txringTlPtr := 0
  txringQueued := 0
  stats := ⟨0, 0, 0, 0, 0, 0⟩
  pc := .idle
  fault := false
  hwPtr := 0
  hwFirst := 0
  hwSegs := []
  dequeued := 0
  freed := []
  posted := []
  completed := []
  emitted := []

/-- Continues with `t` after an access to the arrays at `i`. -/
def TxState.access (s : TxState) (i : Nat) (t : TxState) : TxState :=
  if i < rp1ethNumTxDescs then t else { s with fault := true }

/-! ## `cgem_start_locked` -/

/-- The bound of the admission test. -/
def txAdmit : Int := rp1ethNumTxDescs - txMaxDmaSegs * 2

/-- Why a frame could not be mapped: `bus_dmamap_create` fails, the load fails, `m_defrag` fails after `EFBIG`, or the
load of the defragmented frame fails. -/
inductive MapFailure where
  | create
  | load
  | defrag
  | reload

def MapFailure.count (st : TxStats) : MapFailure → TxStats
  | create => { st with txdmamapfails := st.txdmamapfails + 1 }
  | load => { st with txdmamapfails := st.txdmamapfails + 1 }
  | defrag => { st with txdefragfails := st.txdefragfails + 1 }
  | reload => { st with txdefrags := st.txdefrags + 1, txdmamapfails := st.txdmamapfails + 1 }

/-- An iteration whose frame could not be mapped: the mbuf is freed. -/
def startFail (s : TxState) (why : MapFailure) : Option TxState :=
  match s.pc with
  | .idle =>
    if s.txringQueued < txAdmit then
      some
        (s.access s.txringHdPtr
          { s with
            stats := why.count s.stats
            dequeued := s.dequeued + 1
            freed := s.freed ++ [s.dequeued] })
    else none
  | _ => none

/-- An iteration whose frame was mapped to `sg`, after a defragmentation or without: up to the first store. -/
def startPost (s : TxState) (sg : TxSegs) (defrag : Bool) : Option TxState :=
  match s.pc with
  | .idle =>
    if s.txringQueued < txAdmit then
      some
        (s.access s.txringHdPtr
          { s with
            stats := if defrag then { s.stats with txdefrags := s.stats.txdefrags + 1 } else s.stats
            txringM := Function.update s.txringM s.txringHdPtr (some s.dequeued)
            dequeued := s.dequeued + 1
            pc := .storeAddr s.dequeued sg (sg.nsegs - 1) })
    else none
  | _ => none

/-- The next store of the loop over the segments, which runs from the last one to the first. -/
def startStore (s : TxState) : Option TxState :=
  match s.pc with
  | .storeAddr m sg i =>
    let a := s.txringHdPtr + i
    some
      (s.access a
        { s with
          txring := Function.update s.txring a { s.txring a with addr := (sg.seg i).dsAddr }
          pc := .storeCtl m sg i })
  | .storeCtl m sg i =>
    let a := s.txringHdPtr + i
    let wrap := txWrap s.txringHdPtr sg.nsegs
    let ring := Function.update s.txring a { s.txring a with ctl := segCtl sg wrap i }
    some
      (s.access a
        (if i ≠ 0 then
          { s with
            txring := ring
            txringM := Function.update s.txringM a none
            pc := .storeAddr m sg (i - 1) }
        else
          { s with
            txring := ring
            txringHdPtr := if wrap then 0 else s.txringHdPtr + sg.nsegs
            txringQueued := s.txringQueued + sg.nsegs
            posted := s.posted ++ [(m, sg)]
            pc := .idle }))
  | _ => none

/-- The iteration that finds no room after `cgem_clean_tx`. -/
def startFull (s : TxState) : Option TxState :=
  match s.pc with
  | .idle =>
    if s.txringQueued ≥ txAdmit ∧ ¬HasFlag (s.txring s.txringTlPtr).ctl txdescUsedBit then
      some { s with stats := { s.stats with txfull := s.stats.txfull + 1 } }
    else none
  | _ => none

/-! ## `cgem_clean_tx` -/

/-- How a completed frame is counted. -/
def countCompleted (st : TxStats) (ctl : BitVec 32) : TxStats :=
  if HasFlag ctl txdescAhbErrBit then st
  else if HasFlag ctl txdescRetryErrBit ∨ HasFlag ctl txdescLateCollBit then { st with oerrors := st.oerrors + 1 }
  else { st with opackets := st.opackets + 1 }

/-- An iteration of the outer loop, up to the inner one: the mbuf of the tail descriptor is freed. -/
def cleanFrame (s : TxState) : Option TxState :=
  match s.pc with
  | .idle =>
    let tl := s.txringTlPtr
    let ctl := (s.txring tl).ctl
    if s.txringQueued > 0 ∧ HasFlag ctl txdescUsedBit then
      some
        (s.access tl
          { s with
            txringM := Function.update s.txringM tl none
            freed := s.freed ++ (s.txringM tl).toList
            completed := s.completed ++ (s.txringM tl).toList
            stats := countCompleted s.stats ctl
            pc := .cleaning ctl })
    else none
  | _ => none

/-- The inner loop: on to the next descriptor, whose control word is read, or behind the frame. -/
def cleanStep (s : TxState) : Option TxState :=
  match s.pc with
  | .cleaning ctl =>
    let tl := if HasFlag ctl txdescWrapBit then 0 else s.txringTlPtr + 1
    if ¬HasFlag ctl txdescLastBufBit then
      some
        (s.access tl
          { s with
            txringTlPtr := tl
            txringQueued := s.txringQueued - 1
            pc := .cleanStore (s.txring tl).ctl })
    else
      some
        { s with
          txringTlPtr := tl
          txringQueued := s.txringQueued - 1
          pc := .idle }
  | .cleanStore ctl =>
    let tl := s.txringTlPtr
    some
      (s.access tl
        { s with
          txring := Function.update s.txring tl { s.txring tl with ctl := ctl ||| cgemTxdescUsed }
          pc := .cleaning ctl })
  | _ => none

/-! ## `cgem_stop` and the hardware -/

/-- The transmit part of `cgem_stop`; the reset takes the hardware back to the first descriptor. -/
def cgemStopTx (s : TxState) : Option TxState :=
  match s.pc with
  | .idle =>
    some
      { s with
        txring := txringUsed
        txringM := fun i => if i < rp1ethNumTxDescs then none else s.txringM i
        freed := s.freed ++ held s.txringM rp1ethNumTxDescs
        txringHdPtr := 0
        txringTlPtr := 0
        txringQueued := 0
        hwPtr := 0
        hwFirst := 0
        hwSegs := []
        posted := []
        completed := []
        emitted := [] }
  | _ => none

/-- One fetch: nothing if the descriptor is USED; otherwise its segment is collected, and if it is the last of its
frame the frame goes out and its first descriptor is marked, with status bits of the hardware's choice. -/
def hwFetch (s : TxState) (status : BitVec 32) : Option TxState :=
  let d := s.txring s.hwPtr
  if HasFlag d.ctl txdescUsedBit then none
  else
    let segs := s.hwSegs ++ [(d.addr, d.ctl &&& cgemTxdescLengthMask)]
    let next := if HasFlag d.ctl txdescWrapBit then 0 else s.hwPtr + 1
    some
      (s.access s.hwPtr
        (if HasFlag d.ctl txdescLastBufBit then
          let first := s.txring s.hwFirst
          { s with
            txring := Function.update s.txring s.hwFirst
              { first with ctl := first.ctl ||| cgemTxdescUsed ||| (status &&& txdescStatusMask) }
            hwPtr := next
            hwFirst := next
            hwSegs := []
            emitted := s.emitted ++ [segs] }
        else { s with hwPtr := next, hwSegs := segs }))

/-! ## The system -/

inductive TxAct where
  | mapFail (why : MapFailure)
  | post (sg : TxSegs) (defrag : Bool)
  | store
  | full
  | clean
  | cleanStep
  | stop
  | hw (status : BitVec 32)

def txRingStep (s : TxState) : TxAct → Option TxState
  | .mapFail why => startFail s why
  | .post sg defrag => startPost s sg defrag
  | .store => startStore s
  | .full => startFull s
  | .clean => cleanFrame s
  | .cleanStep => cleanStep s
  | .stop => cgemStopTx s
  | .hw status => hwFetch s status

/-! ## Control words -/

section Ctl

variable (sg : TxSegs) (wrap : Bool) (i : Nat)

theorem dsLen_not_hasFlag {k : Nat} (hk : 12 ≤ k) : ¬HasFlag (sg.seg i).dsLen k :=
  not_hasFlag_of_lt (n := 12) (Nat.lt_of_le_of_lt (sg.seg i).len_le (by decide)) hk

theorem segCtl_used : ¬HasFlag (segCtl sg wrap i) txdescUsedBit := by
  have hlen := dsLen_not_hasFlag sg i (k := txdescUsedBit) (by decide)
  have hlast : ¬HasFlag cgemTxdescLastBuf txdescUsedBit := by decide
  have hwrap : ¬HasFlag cgemTxdescWrap txdescUsedBit := by decide
  unfold segCtl
  dsimp only
  split
  · split <;> simp [hlen, hlast, hwrap]
  · exact hlen

theorem segCtl_last : HasFlag (segCtl sg wrap i) txdescLastBufBit ↔ i = sg.nsegs - 1 := by
  have hlen := dsLen_not_hasFlag sg i (k := txdescLastBufBit) (by decide)
  have hlast : HasFlag cgemTxdescLastBuf txdescLastBufBit := by decide
  unfold segCtl
  dsimp only
  split
  · rename_i hi
    split <;> simp [hlast, hi]
  · rename_i hi
    exact iff_of_false hlen hi

theorem segCtl_wrap : HasFlag (segCtl sg wrap i) txdescWrapBit ↔ i = sg.nsegs - 1 ∧ wrap = true := by
  have hlen := dsLen_not_hasFlag sg i (k := txdescWrapBit) (by decide)
  have hlast : ¬HasFlag cgemTxdescLastBuf txdescWrapBit := by decide
  have hwrap : HasFlag cgemTxdescWrap txdescWrapBit := by decide
  unfold segCtl
  dsimp only
  split
  · rename_i hi
    cases wrap with
    | false => simpa [hlast, hi] using hi ▸ hlen
    | true => simp [hwrap, hi]
  · rename_i hi
    exact iff_of_false hlen fun h => hi h.1

theorem dsLen_and_mask : (sg.seg i).dsLen &&& cgemTxdescLengthMask = (sg.seg i).dsLen := by
  apply BitVec.eq_of_toNat_eq
  have hmask : cgemTxdescLengthMask.toNat = 2 ^ 14 - 1 := by decide
  rw [BitVec.toNat_and, hmask, Nat.and_two_pow_sub_one_eq_mod]
  exact Nat.mod_eq_of_lt (Nat.lt_of_le_of_lt (sg.seg i).len_le (by decide))

/-- The length field of a control word is the segment's length. -/
theorem segCtl_length : segCtl sg wrap i &&& cgemTxdescLengthMask = (sg.seg i).dsLen := by
  have hlast : cgemTxdescLastBuf &&& cgemTxdescLengthMask = 0#32 := by decide
  have hwrap : cgemTxdescWrap &&& cgemTxdescLengthMask = 0#32 := by decide
  unfold segCtl
  dsimp only
  split
  · cases wrap <;> simp [BitVec.and_or_distrib_right, dsLen_and_mask, hlast, hwrap]
  · exact dsLen_and_mask sg i

end Ctl

end Eth
