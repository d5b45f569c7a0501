import Rpi5Modules.Cyw.Events
import Rpi5Modules.Cyw.F2Write
import Rpi5Modules.Cyw.RecvFraming

/-!
# Data frames there and back

What `cyw_sdpcm_copy_data` makes of a frame that `cyw_tx_data_frame` built. The header of that frame does not carry the
length of what was put into it, only that length rounded up to 4 bytes, so the receiver takes the zeros behind the
Ethernet frame for a part of it (`copyData_txDataFrame`).
-/

namespace Cyw

open BufProg

/-! ## `cyw_sdpcm_copy_data` -/

/-- `cyw_sdpcm_copy_data(sc, buf, flen)`, reading `buf`: the bytes of the mbuf. `mGetcl` says if `m_getcl` has one. -/
def cywSdpcmCopyData (mGetcl : Bool) (flen : UInt16) : BufProg (Option (List UInt8)) := do
  let bdc ← sdpcmDataOffset
  if flen.toNat < bdc.toNat + 4 then pure none
  else do
    let bdcOffset ← bdcDataOffset bdc.toNat
    let frame := bdc.toNat + 4 + bdcOffset.toNat * 4
    if frame > flen.toNat then pure none
    else
      let frameLen := UInt16.ofNat (flen.toNat - frame)
      if frameLen.toNat < sizeofEtherHeader then pure none
      else if !mGetcl then pure none
      else do
        let data ← bytes frame frameLen.toNat
        pure (some data)

section CopyData

variable {b : Nat → UInt8} {flen : UInt16} {mGetcl : Bool}

/-- A frame with the usual offsets is everything from its 16th byte on. -/
theorem copyData_of_offsets (h7 : b 7 = 12) (h15 : b 15 = 0) (hlen : 30 ≤ flen.toNat) :
    (cywSdpcmCopyData mGetcl flen).result b =
      if mGetcl then some ((List.range' 16 (flen.toNat - 16)).map b) else none := by
  have hf := flen.toNat_lt
  have hbdc : ((12 : UInt8)).toNat = 12 := rfl
  have hpad : ((0 : UInt8)).toNat = 0 := rfl
  have hshort : ¬flen.toNat < 12 + 4 := by omega
  have hframe : (UInt16.ofNat (flen.toNat - (12 + 4 + 0 * 4))).toNat = flen.toNat - 16 := by
    rw [UInt16.toNat_ofNat']
    omega
  have hmin : ¬flen.toNat - 16 < sizeofEtherHeader := by
    unfold sizeofEtherHeader
    omega
  simp only [cywSdpcmCopyData, result_bind, sdpcmDataOffset, result_byte, h7, hbdc, hshort, if_false, bdcDataOffset,
    Nat.reduceAdd, h15, hpad, hframe, hmin]
  cases mGetcl with
  | true => simp only [Bool.not_true, Bool.false_eq_true, if_false, if_true, result_bind, result_bytes, result_pure,
      Nat.reduceMul, Nat.reduceAdd]
  | false => rfl

end CopyData

/-! ## The frame of `cyw_tx_data_frame` -/

section Store

variable {b : Nat → UInt8} {off i : Nat} {bs : List UInt8}

theorem storeAt_above (h : off + bs.length ≤ i) : storeAt b off bs i = b i := if_neg fun hi => by omega

theorem storeAt_below (h : i < off) : storeAt b off bs i = b i := if_neg fun hi => by omega

theorem storeAt_inside (h : i < bs.length) : storeAt b off bs (off + i) = bs[i] := by
  rw [storeAt, if_pos ⟨Nat.le_add_right _ _, by omega⟩, Nat.add_sub_cancel_left, List.getD_eq_getElem?_getD,
    List.getElem?_eq_getElem h, Option.getD_some]

/-- The header is stored in the first 8 bytes. -/
theorem sdpcmHeader_above {framelen : UInt64} {seq chan : UInt8} (h : 8 ≤ i) :
    sdpcmHeader b framelen seq chan i = b i := by
  apply (storeAt_above (show 4 + 1 ≤ i by omega)).trans
  apply (storeAt_above (show 7 + 1 ≤ i by omega)).trans
  apply (storeAt_above (show 5 + 1 ≤ i by omega)).trans
  apply (storeAt_above (show 2 + 2 ≤ i by omega)).trans
  exact storeAt_above (show 0 + 2 ≤ i by omega)

end Store

/-- The little-endian bytes of a word make the word. -/
theorem ofNat_bytesLe16 (x : UInt16) : UInt16.ofNat (x.toUInt8.toNat + 256 * (x >>> 8).toUInt8.toNat) = x := by
  have hx := x.toNat_lt
  have hlow : x.toUInt8.toNat = x.toNat % 256 := UInt16.toNat_toUInt8 x
  have hhigh : (x >>> 8).toUInt8.toNat = x.toNat / 256 % 256 := by
    rw [UInt16.toNat_toUInt8, UInt16.toNat_shiftRight]
    show x.toNat >>> 8 % 256 = x.toNat / 256 % 256
    rw [Nat.shiftRight_eq_div_pow]
  apply UInt16.toNat_inj.1
  rw [UInt16.toNat_ofNat', hlow, hhigh]
  omega

section Frame

variable (heap : Nat → UInt8) (eth : List UInt8) (seq : UInt8)

theorem txDataFrame_dataOffset : (txDataFrame heap eth seq).bytes 7 = 12 := by
  simp [txDataFrame, sdpcmHeader, storeAt]

theorem txDataFrame_bdcOffset : (txDataFrame heap eth seq).bytes 15 = 0 := by
  simp [txDataFrame, storeAt]

/-- The header carries the length of the frame as it is allocated. -/
theorem txDataFrame_len : sdpcmLen.result (txDataFrame heap eth seq).bytes =
    (txDataFrame heap eth seq).framelen.toUInt16 := by
  have h₀ : (txDataFrame heap eth seq).bytes 0 = (txDataFrame heap eth seq).framelen.toUInt16.toUInt8 := by
    simp [txDataFrame, sdpcmHeader, storeAt, bytesLe16]
  have h₁ : (txDataFrame heap eth seq).bytes 1 = ((txDataFrame heap eth seq).framelen.toUInt16 >>> 8).toUInt8 := by
    simp [txDataFrame, sdpcmHeader, storeAt, bytesLe16]
  show UInt16.ofNat (((txDataFrame heap eth seq).bytes 0).toNat + 256 * ((txDataFrame heap eth seq).bytes 1).toNat) = _
  rw [h₀, h₁, ofNat_bytesLe16]

theorem txDataFrame_eth {i : Nat} (h : i < eth.length) : (txDataFrame heap eth seq).bytes (16 + i) = eth[i] :=
  storeAt_inside h

/-- Behind the Ethernet frame, the allocation is still zero. -/
theorem txDataFrame_pad {i : Nat} (h : eth.length ≤ i) (hi : 16 + i < (txDataFrame heap eth seq).framelen.toNat) :
    (txDataFrame heap eth seq).bytes (16 + i) = 0 := by
  have hzero : allocFrame heap (txDataFrame heap eth seq).framelen (16 + i) = 0 := if_pos hi
  have hhdr : (txDataFrame heap eth seq).bytes (16 + i) =
      allocFrame heap (txDataFrame heap eth seq).framelen (16 + i) := by
    apply (storeAt_above (by omega)).trans
    apply (storeAt_above (show 12 + 4 ≤ 16 + i by omega)).trans
    exact sdpcmHeader_above (by omega)
  rw [hhdr, hzero]

/-- The payload, read up to the end of the allocation. -/
theorem txDataFrame_payload {n : Nat} (hn : 16 + n ≤ (txDataFrame heap eth seq).framelen.toNat)
    (hL : eth.length ≤ n) : (List.range' 16 n).map (txDataFrame heap eth seq).bytes =
      eth ++ List.replicate (n - eth.length) 0 := by
  apply List.ext_getElem
  · simp only [List.length_map, List.length_range', List.length_append, List.length_replicate]
    omega
  · intro i hi _
    simp only [List.length_map, List.length_range'] at hi
    rw [List.getElem_map, List.getElem_range', Nat.one_mul]
    by_cases hi' : i < eth.length
    · rw [List.getElem_append_left hi', txDataFrame_eth heap eth seq hi']
    · rw [List.getElem_append_right (by omega), List.getElem_replicate,
        txDataFrame_pad heap eth seq (by omega) (by omega)]

end Frame

/-! ## Round trip -/

section RoundTrip

variable (heap : Nat → UInt8) (eth : List UInt8) (seq : UInt8)

/-- What `cyw_sdpcm_copy_data` makes of the frame, with `flen` from its header. -/
def copyBack (mGetcl : Bool) : Option (List UInt8) :=
  let b := (txDataFrame heap eth seq).bytes
  (cywSdpcmCopyData mGetcl (sdpcmLen.result b)).result b

/-- The bytes between the Ethernet frame and the end of the allocation. -/
def ethPad (ethLen : Nat) : Nat := (ethLen + 3) / 4 * 4 - ethLen

variable {heap eth seq}

/-- **What comes back** is the Ethernet frame with its padding. -/
theorem copyData_txDataFrame (hmin : 14 ≤ eth.length) (hmax : 16 + eth.length ≤ 2048) (mGetcl : Bool) :
    copyBack heap eth seq mGetcl =
      if mGetcl then some (eth ++ List.replicate (ethPad eth.length) 0) else none := by
  have hlen : (UInt64.ofNat eth.length).toNat = eth.length := by
    rw [UInt64.toNat_ofNat']
    omega
  have hun : (dataUnaligned (UInt64.ofNat eth.length)).toNat = 16 + eth.length := by
    show (16 + (UInt64.ofNat eth.length).toNat) % 2 ^ 64 = 16 + eth.length
    rw [hlen]
    omega
  have hframe : (txDataFrame heap eth seq).framelen.toNat = (16 + eth.length + 3) / 4 * 4 := by
    rw [show (txDataFrame heap eth seq).framelen = align4 (dataUnaligned (UInt64.ofNat eth.length)) from rfl,
      toNat_align4, hun]
    omega
  have hflen : (sdpcmLen.result (txDataFrame heap eth seq).bytes).toNat = (16 + eth.length + 3) / 4 * 4 := by
    rw [txDataFrame_len, UInt64.toNat_toUInt16, hframe]
    omega
  have hpayload := txDataFrame_payload heap eth seq (n := (16 + eth.length + 3) / 4 * 4 - 16) (by omega) (by omega)
  have hpad : (16 + eth.length + 3) / 4 * 4 - 16 - eth.length = ethPad eth.length := by
    unfold ethPad
    omega
  unfold copyBack
  rw [copyData_of_offsets (txDataFrame_dataOffset heap eth seq) (txDataFrame_bdcOffset heap eth seq) (by omega), hflen,
    hpayload, hpad]

/-- **Round trip**: an Ethernet frame comes back as it was exactly if its length is a multiple of 4. -/
theorem data_roundTrip_iff (hmin : 14 ≤ eth.length) (hmax : 16 + eth.length ≤ 2048) :
    (∀ mGetcl, copyBack heap eth seq mGetcl = if mGetcl then some eth else none) ↔ 4 ∣ eth.length := by
  have hpad : ethPad eth.length = 0 ↔ 4 ∣ eth.length := by
    unfold ethPad
    omega
  rw [← hpad]
  constructor
  · intro h
    have htrue := h true
    rw [copyData_txDataFrame hmin hmax, if_pos rfl, if_pos rfl, Option.some.injEq, List.append_right_eq_self,
      List.replicate_eq_nil_iff] at htrue
    exact htrue
  · intro h mGetcl
    rw [copyData_txDataFrame hmin hmax, h, List.replicate_zero, List.append_nil]

/-- A frame of 60 bytes. -/
theorem data_roundTrip_sixty : copyBack (fun _ => 0) (List.replicate 60 1) 0 true = some (List.replicate 60 1) ∧
    copyBack (fun _ => 0) (List.replicate 60 1) 0 false = none := by
  have h : ∀ mGetcl, copyBack (fun _ => 0) (List.replicate 60 1) 0 mGetcl =
      if mGetcl then some (List.replicate 60 1) else none := (data_roundTrip_iff (by decide) (by decide)).2 (by decide)
  exact ⟨h true, h false⟩

/-- An ARP request has 42 bytes, and 44 come back. -/
theorem data_roundTrip_arp :
    copyBack (fun _ => 0) (List.replicate 42 1) 0 true = some (List.replicate 42 1 ++ [0, 0]) ∧
      copyBack (fun _ => 0) (List.replicate 42 1) 0 true ≠ some (List.replicate 42 1) := by
  have hback : copyBack (fun _ => 0) (List.replicate 42 1) 0 true = some (List.replicate 42 1 ++ [0, 0]) :=
    (copyData_txDataFrame (by decide) (by decide) true).trans rfl
  refine ⟨hback, ?_⟩
  rw [hback]
  decide

end RoundTrip

end Cyw
