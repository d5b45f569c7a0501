import Rpi5Modules.Cyw.ClmLoad

/-!
# Commands in frames

What the firmware reads in a frame of `cyw_fil_txrx`: the id, and the command with the name and the data behind it
(`readCommand`). The data is that of the caller for a SET and zeros for a GET; the padding of the frame and what lies
behind it have no part in it (`readCommand_filTxrxFrame`).
-/

namespace Cyw

open BufProg

/-! ## Commands -/

/-- What the firmware is asked. -/
structure Command where
  cmd : UInt32
  set : Bool
  payload : List UInt8
deriving DecidableEq

/-- The command at `bch` in a frame of `len` bytes, and its id. -/
def readBcdc (len bch : Nat) : BufProg (Option (UInt16 × Command)) := do
  let cmd ← le32 bch
  let n ← le32 (bch + 4)
  let flags ← bcdcFlags bch
  if len < bch + cywBcdcHdrLen + n.toNat then pure none
  else do
    let payload ← bytes (bch + cywBcdcHdrLen) n.toNat
    pure (some (bcdcId flags, ⟨cmd, flags &&& bcdcDcmdSet != 0, payload⟩))

/-- What the firmware makes of a frame. -/
def readCommand : BufProg (Option (UInt16 × Command)) := do
  let len ← sdpcmLen
  let lenInv ← sdpcmLenInv
  let chanFlags ← sdpcmChanFlags
  let dataOffset ← sdpcmDataOffset
  if lenInv ≠ ~~~len ∨ chanFlags &&& 0x0f ≠ cywSdpcmChanCtrl then pure none
  else readBcdc len.toNat dataOffset.toNat

namespace FilReq

def isSet (r : FilReq) : Bool := r.bcdcFlags &&& bcdcDcmdSet != 0

/-- The name with its NUL. -/
def nameBytes (r : FilReq) : List UInt8 :=
  match r.name with
  | none => []
  | some name => name ++ [0]

/-- What the caller has to say: its buffer for a SET, zeros for a GET. -/
def data (r : FilReq) : List UInt8 :=
  match r.isSet, r.buf with
  | true, some buf => (List.range r.buflen.toNat).map buf
  | _, _ => List.replicate r.buflen.toNat 0

def command (r : FilReq) : Command := ⟨r.cmd, r.isSet, r.nameBytes ++ r.data⟩

/-- The name is a string, the frame's length fits in 16 bits, and the flags leave the id alone. -/
structure Ok (r : FilReq) : Prop where
  name : ∀ name ∈ r.name, 0 ∉ name
  short : cywSdpcmHdrLen + cywBcdcHdrLen + (r.nameBytes.length + r.buflen.toNat) ≤ 65532
  flags : r.bcdcFlags.toNat < 2 ^ 16

end FilReq

section Frame

variable (heap : Nat → UInt8) {r : FilReq} (id : UInt16) (seq : UInt8)

theorem length_data (r : FilReq) : r.data.length = r.buflen.toNat := by
  unfold FilReq.data
  split <;> simp

theorem toNat_namelen (h : r.Ok) : (namelen r.name).toNat = r.nameBytes.length := by
  have hs := h.short
  unfold FilReq.nameBytes at hs ⊢
  cases hn : r.name with
  | none => rfl
  | some name =>
    rw [hn] at hs
    simp only [List.length_append, List.length_singleton, cywSdpcmHdrLen, cywBcdcHdrLen] at hs
    simp only [namelen, List.length_append, List.length_singleton]
    rw [UInt64.toNat_add, UInt64.toNat_ofNat']
    simp only [UInt64.reduceToNat]
    omega

theorem toNat_payload (h : r.Ok) : (namelen r.name + r.buflen).toNat = r.nameBytes.length + r.buflen.toNat := by
  have hs := h.short
  simp only [cywSdpcmHdrLen, cywBcdcHdrLen] at hs
  rw [UInt64.toNat_add, toNat_namelen h]
  omega

theorem toNat_filFramelen (h : r.Ok) : (filTxrxFrame heap r id seq).framelen.toNat =
    (28 + (r.nameBytes.length + r.buflen.toNat) + 3) / 4 * 4 := by
  have hs := h.short
  simp only [cywSdpcmHdrLen, cywBcdcHdrLen] at hs
  have hun : r.unaligned.toNat = 28 + (r.nameBytes.length + r.buflen.toNat) := by
    unfold FilReq.unaligned
    rw [UInt64.toNat_add, toNat_payload h]
    simp only [UInt64.reduceAdd, UInt64.reduceToNat]
    omega
  rw [show (filTxrxFrame heap r id seq).framelen = align4 r.unaligned from rfl, toNat_align4, hun]
  omega

/-- The two headers of the frame. -/
def filHeaders (heap : Nat → UInt8) (r : FilReq) (id : UInt16) (seq : UInt8) : Nat → UInt8 :=
  let framelen := align4 r.unaligned
  let b := sdpcmHeader (allocFrame heap framelen) framelen seq cywSdpcmChanCtrl
  let b := storeAt b 12 (bytesLe32 r.cmd)
  let b := storeAt b 16 (bytesLe32 (namelen r.name + r.buflen).toUInt32)
  storeAt b 20 (bytesLe32 (r.bcdcFlags ||| id.toUInt32 <<< bcdcDcmdIdShift))

/-- What is copied from the caller. -/
def FilReq.copied (r : FilReq) : List UInt8 :=
  match r.isSet, r.buf with
  | true, some buf => (List.range r.buflen.toNat).map buf
  | _, _ => []

theorem storeAt_nil (b : Nat → UInt8) (off : Nat) : storeAt b off [] = b := by
  funext i
  exact if_neg fun h => Nat.not_lt.2 h.1 h.2

/-- The name is stored behind the headers, and the caller's data behind the name. -/
theorem filTxrxFrame_bytes (heap : Nat → UInt8) (r : FilReq) (id : UInt16) (seq : UInt8) :
    (filTxrxFrame heap r id seq).bytes = storeAt (storeAt (filHeaders heap r id seq) 28 r.nameBytes)
      (28 + (namelen r.name).toNat) r.copied := by
  rcases r with ⟨cmd, flags, name, buf, buflen⟩
  by_cases h : flags &&& bcdcDcmdSet = 0
  · cases name <;> cases buf <;>
      simp [filTxrxFrame, FilReq.copied, FilReq.isSet, FilReq.nameBytes, filHeaders, storeAt_nil, namelen, h]
  · have hset : (flags &&& bcdcDcmdSet != 0) = true := bne_iff_ne.2 h
    cases name <;> cases buf <;>
      simp [filTxrxFrame, FilReq.copied, FilReq.isSet, FilReq.nameBytes, filHeaders, storeAt_nil, namelen, h, hset]

variable (r) in
theorem filTxrxFrame_head {i : Nat} (hi : i < 28) :
    (filTxrxFrame heap r id seq).bytes i = filHeaders heap r id seq i := by
  rw [filTxrxFrame_bytes]
  exact (storeAt_below (by omega)).trans (storeAt_below hi)

variable (r) in
/-- The SDPCM header says how long the frame is, twice, and that it is a command. -/
theorem filTxrxFrame_sdpcm :
    sdpcmLen.result (filTxrxFrame heap r id seq).bytes = (filTxrxFrame heap r id seq).framelen.toUInt16 ∧
      sdpcmLenInv.result (filTxrxFrame heap r id seq).bytes = ~~~(filTxrxFrame heap r id seq).framelen.toUInt16 ∧
      (filTxrxFrame heap r id seq).bytes 5 = cywSdpcmChanCtrl ∧ (filTxrxFrame heap r id seq).bytes 7 = 12 := by
  have hbyte : ∀ i < 12, (filTxrxFrame heap r id seq).bytes i =
      sdpcmHeader (allocFrame heap (align4 r.unaligned)) (align4 r.unaligned) seq cywSdpcmChanCtrl i := by
    intro i hi
    rw [filTxrxFrame_head heap r id seq (by omega)]
    exact ((storeAt_below (by omega)).trans (storeAt_below (by omega))).trans (storeAt_below hi)
  refine ⟨?_, ?_, ?_, ?_⟩
  · show UInt16.ofNat (((filTxrxFrame heap r id seq).bytes 0).toNat +
      256 * ((filTxrxFrame heap r id seq).bytes 1).toNat) = _
    rw [hbyte 0 (by omega), hbyte 1 (by omega)]
    exact ofNat_bytesLe16 _
  · show UInt16.ofNat (((filTxrxFrame heap r id seq).bytes 2).toNat +
      256 * ((filTxrxFrame heap r id seq).bytes 3).toNat) = _
    rw [hbyte 2 (by omega), hbyte 3 (by omega)]
    exact ofNat_bytesLe16 _
  · rw [hbyte 5 (by omega)]
    simp [sdpcmHeader, storeAt]
  · rw [hbyte 7 (by omega)]
    simp [sdpcmHeader, storeAt]

variable (r) in
/-- The words of the BCDC header. -/
theorem filTxrxFrame_bcdc : (le32 12).result (filTxrxFrame heap r id seq).bytes = r.cmd ∧
    (le32 16).result (filTxrxFrame heap r id seq).bytes = (namelen r.name + r.buflen).toUInt32 ∧
    (le32 20).result (filTxrxFrame heap r id seq).bytes = r.bcdcFlags ||| id.toUInt32 <<< bcdcDcmdIdShift := by
  have hword : ∀ (off : Nat) (x : UInt32), off + 3 < 28 →
      (∀ k < 4, filHeaders heap r id seq (off + k) = (bytesLe32 x).getD k 0) →
      (le32 off).result (filTxrxFrame heap r id seq).bytes = x := by
    intro off x hoff h
    show UInt32.ofNat (((filTxrxFrame heap r id seq).bytes off).toNat +
      256 * ((filTxrxFrame heap r id seq).bytes (off + 1)).toNat +
      65536 * ((filTxrxFrame heap r id seq).bytes (off + 2)).toNat +
      16777216 * ((filTxrxFrame heap r id seq).bytes (off + 3)).toNat) = x
    rw [filTxrxFrame_head heap r id seq (by omega), filTxrxFrame_head heap r id seq (by omega),
      filTxrxFrame_head heap r id seq (by omega), filTxrxFrame_head heap r id seq hoff, h 1 (by omega),
      h 2 (by omega), h 3 (by omega), show filHeaders heap r id seq off = _ from h 0 (by omega)]
    exact ofNat_bytesLe32 x
  have hlen : ∀ x, (bytesLe32 x).length = 4 := fun _ => rfl
  refine ⟨hword 12 _ (by omega) fun k hk => ?_, hword 16 _ (by omega) fun k hk => ?_,
    hword 20 _ (by omega) fun k hk => ?_⟩
  · rw [filHeaders, storeAt_below (by omega), storeAt_below (by omega), storeAt, if_pos (by rw [hlen]; omega),
      Nat.add_sub_cancel_left]
  · rw [filHeaders, storeAt_below (by omega), storeAt, if_pos (by rw [hlen]; omega), Nat.add_sub_cancel_left]
  · rw [filHeaders, storeAt, if_pos (by rw [hlen]; omega), Nat.add_sub_cancel_left]

/-- The flags word, in numbers. -/
theorem toNat_flagsWord {flags : UInt32} (h : flags.toNat < 2 ^ 16) :
    (flags ||| id.toUInt32 <<< bcdcDcmdIdShift).toNat = id.toNat * 2 ^ 16 + flags.toNat := by
  have hid := id.toNat_lt
  have hshift : (id.toUInt32 <<< bcdcDcmdIdShift).toNat = id.toNat <<< 16 := by
    rw [UInt32.toNat_shiftLeft]
    show id.toUInt32.toNat <<< 16 % 2 ^ 32 = _
    rw [UInt16.toNat_toUInt32, Nat.mod_eq_of_lt]
    rw [Nat.shiftLeft_eq]
    omega
  rw [UInt32.toNat_or, hshift, Nat.or_comm, ← Nat.shiftLeft_add_eq_or_of_lt h, Nat.shiftLeft_eq]

theorem bcdcId_flagsWord {flags : UInt32} (h : flags.toNat < 2 ^ 16) :
    bcdcId (flags ||| id.toUInt32 <<< bcdcDcmdIdShift) = id := by
  have hid := id.toNat_lt
  apply UInt16.toNat_inj.1
  unfold bcdcId
  rw [UInt32.toNat_toUInt16, UInt32.toNat_and, UInt32.toNat_shiftRight, toNat_flagsWord id h]
  show ((id.toNat * 2 ^ 16 + flags.toNat) >>> 16 &&& 2 ^ 16 - 1) % 2 ^ 16 = id.toNat
  rw [Nat.and_two_pow_sub_one_eq_mod, Nat.shiftRight_eq_div_pow]
  omega

/-- The id has no part in the flag. -/
theorem set_flagsWord (flags : UInt32) :
    (flags ||| id.toUInt32 <<< bcdcDcmdIdShift) &&& bcdcDcmdSet = flags &&& bcdcDcmdSet := by
  apply UInt32.toNat_inj.1
  apply Nat.eq_of_testBit_eq
  intro i
  rw [UInt32.toNat_and, UInt32.toNat_and, UInt32.toNat_or, UInt32.toNat_shiftLeft]
  by_cases hi : i = 1
  · subst hi
    show ((flags.toNat ||| id.toUInt32.toNat <<< 16 % 2 ^ 32) &&& 2).testBit 1 = (flags.toNat &&& 2).testBit 1
    rw [Nat.testBit_and, Nat.testBit_or, Nat.testBit_mod_two_pow, Nat.testBit_shiftLeft, Nat.testBit_and]
    simp
  · have hbit : bcdcDcmdSet.toNat.testBit i = false := by
      show (2 ^ 1 : Nat).testBit i = false
      exact Nat.testBit_two_pow_of_ne (Ne.symm hi)
    simp [hbit]

/-- Behind the headers, the allocation is still zero. -/
theorem filHeaders_behind {i : Nat} (hi : 28 ≤ i) (hlt : i < (align4 r.unaligned).toNat) :
    filHeaders heap r id seq i = 0 := by
  have hlen : ∀ x, (bytesLe32 x).length = 4 := fun _ => rfl
  apply (storeAt_above (by rw [hlen]; omega)).trans
  apply (storeAt_above (by rw [hlen]; omega)).trans
  apply (storeAt_above (by rw [hlen]; omega)).trans
  exact (sdpcmHeader_above (by omega)).trans (if_pos hlt)

/-- What is copied is the data; for a GET nothing is, and the data is zeros. -/
theorem copied_cases (r : FilReq) :
    r.copied = r.data ∨ r.copied = [] ∧ r.data = List.replicate r.buflen.toNat 0 := by
  unfold FilReq.copied FilReq.data
  split
  · exact .inl rfl
  · exact .inr ⟨rfl, rfl⟩

/-- The bytes behind the headers are the name and the data. -/
theorem filTxrxFrame_payload (h : r.Ok) :
    (List.range' 28 (r.nameBytes.length + r.buflen.toNat)).map (filTxrxFrame heap r id seq).bytes =
      r.nameBytes ++ r.data := by
  have hframe := toNat_filFramelen heap id seq h
  have hbytes : (filTxrxFrame heap r id seq).bytes = storeAt (storeAt (filHeaders heap r id seq) 28 r.nameBytes)
      (28 + r.nameBytes.length) r.copied := toNat_namelen h ▸ filTxrxFrame_bytes heap r id seq
  apply List.ext_getElem
  · simp [length_data]
  · intro i hi _
    simp only [List.length_map, List.length_range'] at hi
    rw [List.getElem_map, List.getElem_range', Nat.one_mul, hbytes]
    by_cases hi' : i < r.nameBytes.length
    · rw [List.getElem_append_left hi', storeAt_below (by omega), storeAt_inside hi']
    · obtain ⟨k, rfl⟩ : ∃ k, i = r.nameBytes.length + k := ⟨i - r.nameBytes.length, by omega⟩
      rw [List.getElem_append_right (Nat.le_of_not_lt hi'), ← Nat.add_assoc]
      simp only [Nat.add_sub_cancel_left]
      rcases copied_cases r with hc | ⟨hc, hz⟩
      · rw [hc, storeAt_inside (by rw [length_data]; omega)]
      · simp only [hc, hz, storeAt_nil, List.getElem_replicate]
        rw [storeAt_above (by omega)]
        exact filHeaders_behind heap id seq (by omega) (by
          have heq : (filTxrxFrame heap r id seq).framelen = align4 r.unaligned := rfl
          rw [← heq, hframe]
          omega)

/-- **The firmware reads the command that was asked**, whatever lies behind the frame. -/
theorem readCommand_filTxrxFrame (h : r.Ok) :
    readCommand.result (filTxrxFrame heap r id seq).bytes = some (id, r.command) := by
  obtain ⟨hlen, hinv, hchan, hoff⟩ := filTxrxFrame_sdpcm heap r id seq
  obtain ⟨hcmd, hn, hflags⟩ := filTxrxFrame_bcdc heap r id seq
  have hs := h.short
  simp only [cywSdpcmHdrLen, cywBcdcHdrLen] at hs
  have hn' : (namelen r.name + r.buflen).toUInt32.toNat = r.nameBytes.length + r.buflen.toNat := by
    rw [UInt64.toNat_toUInt32, toNat_payload h]
    omega
  have hflen : (filTxrxFrame heap r id seq).framelen.toUInt16.toNat =
      (28 + (r.nameBytes.length + r.buflen.toNat) + 3) / 4 * 4 := by
    rw [UInt64.toNat_toUInt16, toNat_filFramelen heap id seq h]
    omega
  have hroom : ¬(28 + (r.nameBytes.length + r.buflen.toNat) + 3) / 4 * 4 <
      12 + 16 + (r.nameBytes.length + r.buflen.toNat) := by omega
  have hctrl : ¬cywSdpcmChanCtrl &&& 0x0f ≠ cywSdpcmChanCtrl := by decide
  simp only [readCommand, readBcdc, result_bind, hlen, hinv, sdpcmChanFlags, sdpcmDataOffset, result_byte, hchan, hoff,
    ne_eq, not_true, false_or, hctrl, if_false, UInt8.reduceToNat, hcmd, hn, bcdcFlags, hflags, hn', hflen,
    cywBcdcHdrLen, hroom, result_bytes, result_pure, bcdcId_flagsWord id h.flags, set_flagsWord]
  rw [show 12 + 16 = 28 from rfl, filTxrxFrame_payload heap id seq h]
  rfl

end Frame

end Cyw
