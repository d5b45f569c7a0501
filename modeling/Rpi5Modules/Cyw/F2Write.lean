import Rpi5Modules.Cyw.Defs
import Rpi5Modules.Lib.Align

/-!
# Frames written to F2

`cyw_fil_txrx` and `cyw_tx_data_frame` allocate a frame whose length is rounded up to 4 bytes, fill it, and hand it to
`cyw_f2_write_block` with that length. This rounds the length up to 64 for the transfer, and the bytes from the end of
the allocation on go to the device as well, unless the two roundings agree (`f2_write_inside_iff`).
-/

namespace Cyw

open BufProg

/-! ## Lengths -/

/-- `ALIGN4(x)`, in `size_t`. -/
def align4 (x : UInt64) : UInt64 := (x + 3) &&& ~~~3

/-- The transfer length of `cyw_f2_write_block(sc, buf, flen)`. -/
def f2TxLen (flen : UInt64) : UInt64 := (flen + 64 - 1) &&& ~~~(64 - 1)

/-- `strlen(name) + 1`, or 0 without a name. -/
def namelen : Option (List UInt8) → UInt64
  | none => 0
  | some name => UInt64.ofNat name.length + 1

/-! ## Frames -/

/-- Stores `bs` from `off` on. -/
def storeAt (b : Nat → UInt8) (off : Nat) (bs : List UInt8) : Nat → UInt8 := fun i =>
  if off ≤ i ∧ i < off + bs.length then bs.getD (i - off) 0 else b i

def bytesLe16 (x : UInt16) : List UInt8 := [x.toUInt8, (x >>> 8).toUInt8]

def bytesLe32 (x : UInt32) : List UInt8 := [x.toUInt8, (x >>> 8).toUInt8, (x >>> 16).toUInt8, (x >>> 24).toUInt8]

/-- A frame for F2: the size of its allocation, which is also the length handed to `cyw_f2_write_block`, and its bytes;
what lies behind the allocation is `heap`. -/
structure TxFrame where
  framelen : UInt64
  bytes : Nat → UInt8

/-- `malloc(framelen, …, M_ZERO)`, with `heap` behind it. -/
def allocFrame (heap : Nat → UInt8) (framelen : UInt64) : Nat → UInt8 := fun i =>
  if i < framelen.toNat then 0 else heap i

/-- The SDPCM header of a frame. -/
def sdpcmHeader (b : Nat → UInt8) (framelen : UInt64) (seq chan : UInt8) : Nat → UInt8 :=
  let b := storeAt b 0 (bytesLe16 framelen.toUInt16)
  let b := storeAt b 2 (bytesLe16 (~~~framelen.toUInt16))
  let b := storeAt b 5 [chan]
  let b := storeAt b 7 [12]
  storeAt b 4 [seq]

/-- An IOVAR or IOCTL for `cyw_fil_txrx`: `name` is without its NUL, `buf` is none for NULL. -/
structure FilReq where
  cmd : UInt32
  bcdcFlags : UInt32
  name : Option (List UInt8)
  buf : Option (Nat → UInt8)
  buflen : UInt64

/-- `CYW_SDPCM_HDR_LEN + CYW_BCDC_HDR_LEN + payload`. -/
def FilReq.unaligned (r : FilReq) : UInt64 := 12 + 16 + (namelen r.name + r.buflen)

/-- The frame `cyw_fil_txrx` builds, with request id `id` and sequence number `seq`. -/
def filTxrxFrame (heap : Nat → UInt8) (r : FilReq) (id : UInt16) (seq : UInt8) : TxFrame :=
  let payload := namelen r.name + r.buflen
  let framelen := align4 r.unaligned
  let b := sdpcmHeader (allocFrame heap framelen) framelen seq cywSdpcmChanCtrl
  let b := storeAt b 12 (bytesLe32 r.cmd)
  let b := storeAt b 16 (bytesLe32 payload.toUInt32)
  let b := storeAt b 20 (bytesLe32 (r.bcdcFlags ||| id.toUInt32 <<< bcdcDcmdIdShift))
  let b := match r.name with
    | none => b
    | some name => storeAt b 28 (name ++ [0])
  let b := match r.buf with
    | none => b
    | some buf =>
      if r.bcdcFlags &&& bcdcDcmdSet ≠ 0 then
        storeAt b (28 + (namelen r.name).toNat) ((List.range r.buflen.toNat).map buf)
      else b
  ⟨framelen, b⟩

def cywBcdcProtoVer : UInt8 := 2

/-- `CYW_SDPCM_HDR_LEN + CYW_BDC_DATA_HDR_LEN + eth_len`. -/
def dataUnaligned (ethLen : UInt64) : UInt64 := 12 + 4 + ethLen

/-- The frame `cyw_tx_data_frame` builds for the Ethernet frame `eth`, with sequence number `seq`. -/
def txDataFrame (heap : Nat → UInt8) (eth : List UInt8) (seq : UInt8) : TxFrame :=
  let framelen := align4 (dataUnaligned (UInt64.ofNat eth.length))
  let b := sdpcmHeader (allocFrame heap framelen) framelen seq cywSdpcmChanData
  let b := storeAt b 12 [cywBcdcProtoVer <<< 4, 0, 0, 0]
  ⟨framelen, storeAt b 16 eth⟩

/-! ## The transfer -/

/-- Every byte that `cyw_f2_write_block` transfers lies in the allocation. -/
def TxFrame.WriteInside (f : TxFrame) : Prop := ∀ i < (f2TxLen f.framelen).toNat, i < f.framelen.toNat

/-- What is written to F2: a request or an Ethernet frame. -/
inductive F2Payload where
  | filTxrx (r : FilReq) (id : UInt16) (seq : UInt8)
  | data (eth : List UInt8) (seq : UInt8)

def F2Payload.frame (heap : Nat → UInt8) : F2Payload → TxFrame
  | filTxrx r id seq => filTxrxFrame heap r id seq
  | data eth seq => txDataFrame heap eth seq

/-- The length of the frame, before it is rounded up. -/
def F2Payload.unaligned : F2Payload → UInt64
  | filTxrx r _ _ => r.unaligned
  | data eth _ => dataUnaligned (UInt64.ofNat eth.length)

/-- Rounding up to 4 and to 64 give the same, or the rounding to 64 wraps around to 0. -/
def F2Payload.Fits (p : F2Payload) : Prop :=
  p.unaligned.toNat % 64 = 0 ∨ 61 ≤ p.unaligned.toNat % 64 ∨ 2 ^ 64 - 64 < p.unaligned.toNat

theorem frame_framelen (heap : Nat → UInt8) (p : F2Payload) : (p.frame heap).framelen = align4 p.unaligned := by
  cases p with
  | filTxrx r id seq => rfl
  | data eth seq => rfl

theorem toNat_align4 (x : UInt64) : (align4 x).toNat = (x.toNat + 3) % 2 ^ 64 / 4 * 4 :=
  Align.toNat_up (k := 2) x.toBitVec (by decide)

theorem toNat_f2TxLen (x : UInt64) : (f2TxLen x).toNat = (x.toNat + 63) % 2 ^ 64 / 64 * 64 := by
  have hadd : x + 64 - 1 = x + 63 := by
    rw [UInt64.sub_eq_add_neg, UInt64.add_assoc]
    rfl
  rw [f2TxLen, hadd]
  exact Align.toNat_up (k := 6) x.toBitVec (by decide)

/-- **An F2 write stays inside its frame** exactly if the frame's length before rounding leaves 0 or at least 61 modulo
64 (or is so large that rounding it wraps around). -/
theorem f2_write_inside_iff (heap : Nat → UInt8) (p : F2Payload) : (p.frame heap).WriteInside ↔ p.Fits := by
  have hlt := p.unaligned.toNat_lt
  have hinside : (p.frame heap).WriteInside ↔
      (f2TxLen (p.frame heap).framelen).toNat ≤ (p.frame heap).framelen.toNat :=
    ⟨fun h => Nat.le_of_not_lt fun hlt => Nat.lt_irrefl _ (h _ hlt), fun h i hi => Nat.lt_of_lt_of_le hi h⟩
  rw [hinside, frame_framelen, toNat_f2TxLen, toNat_align4, F2Payload.Fits]
  omega

/-- A request for a 4-byte variable whose name has 3 letters: 36 bytes are allocated, 64 are transferred. -/
theorem f2_write_outside : (f2TxLen 36).toNat = 64 ∧ ∀ heap, ((F2Payload.filTxrx
    ⟨262, 0, some [0x6d, 0x70, 0x63], some fun _ => 0, 4⟩ 1 0).frame heap).framelen = 36 ∧ ¬((F2Payload.filTxrx
    ⟨262, 0, some [0x6d, 0x70, 0x63], some fun _ => 0, 4⟩ 1 0).frame heap).WriteInside := by
  have hlen : (f2TxLen 36).toNat = 64 := by decide
  refine ⟨hlen, fun heap => ⟨rfl, fun h => ?_⟩⟩
  have hlt : 36 < (f2TxLen 36).toNat := by omega
  exact absurd (h 36 hlt) (show ¬36 < 36 by decide)

end Cyw
