import Rpi5Modules.Cyw.Defs

/-!
# Control responses

The two places that parse a BCDC response: `cyw_sdpcm_deliver_ctrl` (runtime, called by the SDPCM task) and the body
of the polling loop of `cyw_fil_txrx` (boot). Both check `flen` against the two headers and then place the BCDC
header at the `data_offset` byte of the frame.

What they read lies inside the frame exactly when the header at `data_offset` does (`ctrl_inside_iff`): the length
check takes the header to be at offset 12.
-/

namespace Cyw

open BufProg

/-! ## The runtime path -/

/-- The `ioctl_*` fields of the softc: the transaction `cyw_fil_txrx` waits for. A buffer is an address. -/
structure IoctlSlot where
  ioctlWaiting : Bool
  ioctlWaitId : UInt16
  ioctlRespBuf : Option Nat
  ioctlRespBuflen : Nat
  ioctlGet : Bool
  ioctlResult : Errno
  ioctlFwStatus : UInt32

/-- What a call of `cyw_sdpcm_deliver_ctrl` does: the slot it leaves, the `memcpy` into the waiting buffer, and
whether it signals `ioctl_cv`. -/
structure Delivery where
  slot : IoctlSlot
  copy : Option (Nat × List UInt8)
  signal : Bool

/-- Nothing happens: the frame is discarded. -/
def Delivery.none (sc : IoctlSlot) : Delivery := ⟨sc, .none, false⟩

/-- `cyw_sdpcm_deliver_ctrl(sc, buf, flen)`. -/
def cywSdpcmDeliverCtrl (sc : IoctlSlot) (flen : UInt16) : BufProg Delivery :=
  if flen.toNat < cywSdpcmHdrLen + cywBcdcHdrLen then pure (.none sc)
  else do
    let dataOffset ← sdpcmDataOffset
    let bch := dataOffset.toNat
    let flags ← bcdcFlags bch
    if !sc.ioctlWaiting || bcdcId flags != sc.ioctlWaitId then pure (.none sc)
    else if flags &&& bcdcDcmdError ≠ 0 then do
      let status ← bcdcStatus bch
      pure ⟨{ sc with ioctlFwStatus := status, ioctlResult := eio, ioctlWaiting := false }, .none, true⟩
    else
      match sc.ioctlGet, sc.ioctlRespBuf with
      | true, some respBuf => do
        let pp := bch + cywBcdcHdrLen
        let avail := ptrDiff flen.toNat pp
        let payload ← bytes pp (min sc.ioctlRespBuflen avail)
        pure ⟨{ sc with ioctlResult := 0, ioctlWaiting := false }, some (respBuf, payload), true⟩
      | _, _ => pure ⟨{ sc with ioctlResult := 0, ioctlWaiting := false }, .none, true⟩

/-! ## The boot path -/

/-- What `cyw_fil_txrx` was asked: whether `buf` is NULL, its length, and the `BCDC_DCMD_SET` flag. -/
structure Req where
  hasBuf : Bool
  buflen : Nat
  bcdcFlags : UInt32

def Req.isSet (r : Req) : Bool := r.bcdcFlags &&& bcdcDcmdSet != 0

/-- One frame in the polling loop of `cyw_fil_txrx`, after `cyw_sdpcm_recv_one` returned 0: `none` is `continue`,
otherwise the error the loop ends with and what it copied into the caller's buffer. -/
def cywFilTxrxPoll (r : Req) (id : UInt16) (flen : UInt16) : BufProg (Option (Errno × Option (List UInt8))) :=
  if flen.toNat < cywSdpcmHdrLen + cywBcdcHdrLen then pure none
  else do
    let chanFlags ← sdpcmChanFlags
    if chanFlags &&& 0x0f ≠ cywSdpcmChanCtrl then pure none
    else do
      let dataOffset ← sdpcmDataOffset
      let rbch := dataOffset.toNat
      let flags ← bcdcFlags rbch
      if bcdcId flags ≠ id then pure none
      else if flags &&& bcdcDcmdError ≠ 0 then do
        let _ ← bcdcStatus rbch
        pure (some (eio, none))
      else if r.hasBuf && !r.isSet then do
        let pp := rbch + cywBcdcHdrLen
        let avail := ptrDiff flen.toNat pp
        let payload ← bytes pp (min r.buflen avail)
        pure (some (0, some payload))
      else pure (some (0, none))

/-! ## What the two parsers read -/

/-- The frame is too short to be looked at, or the BCDC header its `data_offset` byte announces lies inside it. -/
def HdrInside (flen : UInt16) (dataOffset : UInt8) : Prop :=
  flen.toNat < cywSdpcmHdrLen + cywBcdcHdrLen ∨ dataOffset.toNat + cywBcdcHdrLen ≤ flen.toNat

instance (flen : UInt16) (dataOffset : UInt8) : Decidable (HdrInside flen dataOffset) :=
  inferInstanceAs (Decidable (_ ∨ _))

section Inside

variable {b : Nat → UInt8} {flen : UInt16}

/-- The payload copy ends at the end of the frame. -/
theorem payload_within {pp : Nat} (h : pp ≤ flen.toNat) (buflen : Nat) :
    (bytes pp (min buflen (ptrDiff flen.toNat pp))).Within b flen.toNat := by
  have hf : flen.toNat < 2 ^ 16 := flen.toNat_lt
  rw [ptrDiff_of_le h (by omega), within_bytes]
  omega

theorem cywSdpcmDeliverCtrl_within (sc : IoctlSlot) (h : HdrInside flen (b 7)) :
    (cywSdpcmDeliverCtrl sc flen).Within b flen.toNat := by
  unfold cywSdpcmDeliverCtrl
  simp only [within_ite, within_pure, implies_true, true_and]
  intro hlen
  simp only [HdrInside, cywSdpcmHdrLen, cywBcdcHdrLen] at h hlen
  have hoff : (b 7).toNat + 16 ≤ flen.toNat := by omega
  simp only [within_bind, sdpcmDataOffset, bcdcFlags, bcdcStatus, within_byte, within_le32, result_byte, ↓within_ite,
    within_pure, and_true, implies_true, true_and]
  refine ⟨by omega, by omega, fun _ => ⟨fun _ => by omega, fun _ => ?_⟩⟩
  split
  · simp only [within_bind, within_pure, and_true]
    exact payload_within hoff _
  · exact within_pure _

theorem cywFilTxrxPoll_within (r : Req) (id : UInt16) (h : HdrInside flen (b 7)) :
    (cywFilTxrxPoll r id flen).Within b flen.toNat := by
  unfold cywFilTxrxPoll
  simp only [within_ite, within_pure, implies_true, true_and]
  intro hlen
  simp only [HdrInside, cywSdpcmHdrLen, cywBcdcHdrLen] at h hlen
  have hoff : (b 7).toNat + 16 ≤ flen.toNat := by omega
  simp only [within_bind, sdpcmChanFlags, sdpcmDataOffset, bcdcFlags, bcdcStatus, within_byte, within_le32,
    result_byte, ↓within_ite, within_pure, and_true, implies_true, true_and]
  refine ⟨by omega, fun _ => ⟨by omega, by omega, fun _ => ⟨fun _ => by omega, fun _ _ => ?_⟩⟩⟩
  exact payload_within hoff _

end Inside

/-! ## A frame that announces a header outside it -/

/-- A GET of one byte, waiting for transaction 0. -/
def getSlot : IoctlSlot := ⟨true, 0, some 0, 1, true, etimedout, 0⟩

/-- The same transaction on the boot path. -/
def getReq : Req := ⟨true, 1, 0⟩

/-- A frame of zeros (channel 0, id 0, no error flag) with the given `data_offset` and first payload byte. -/
def zeroFrame (dataOffset c : UInt8) : Nat → UInt8 :=
  fun i => if i = dataOffset.toNat + cywBcdcHdrLen then c else if i = 7 then dataOffset else 0

section Outside

variable {flen : UInt16} {o c : UInt8}

theorem zeroFrame_offset : zeroFrame o c 7 = o := by simp [zeroFrame, cywBcdcHdrLen]

theorem zeroFrame_payload : zeroFrame o c (o.toNat + 16) = c := by simp [zeroFrame, cywBcdcHdrLen]

theorem zeroFrame_flags : (bcdcFlags o.toNat).result (zeroFrame o c) = 0 := by
  have h : ∀ k < 4, zeroFrame o c (o.toNat + 8 + k) = 0 := by
    intro k hk
    have h₁ : o.toNat + 8 + k ≠ o.toNat + 16 := by omega
    have h₂ : o.toNat + 8 + k ≠ 7 := by omega
    simp only [zeroFrame, cywBcdcHdrLen, h₁, h₂, if_false]
  have h₀ : zeroFrame o c (o.toNat + 8) = 0 := h 0 (by omega)
  simp only [bcdcFlags, le32, result_bind, result_byte, result_pure, h₀, h 1 (by omega), h 2 (by omega),
    h 3 (by omega)]
  rfl

/-- The two zero frames of one offset agree below any length that leaves the payload outside. -/
theorem zeroFrame_agree {d : UInt8} (ho : flen.toNat < o.toNat + cywBcdcHdrLen) :
    ∀ i < flen.toNat, zeroFrame o c i = zeroFrame o d i := by
  intro i hi
  have h : i ≠ o.toNat + cywBcdcHdrLen := by omega
  simp only [zeroFrame, h, if_false]

theorem hdrOutside (h : ¬HdrInside flen o) : 28 ≤ flen.toNat ∧ flen.toNat < o.toNat + cywBcdcHdrLen := by
  simp only [HdrInside, cywSdpcmHdrLen, cywBcdcHdrLen] at h ⊢
  omega

/-- The length of the copy is the wrapped pointer difference, so the one byte asked for is copied. -/
theorem copy_one (h : ¬HdrInside flen o) : min 1 (ptrDiff flen.toNat (o.toNat + 16)) = 1 := by
  have ho := (hdrOutside h).2
  have hb := o.toNat_lt
  have := ptrDiff_pos_of_lt ho (by simp only [cywBcdcHdrLen]; omega)
  simp only [cywBcdcHdrLen] at this
  omega

theorem deliver_zeroFrame (h : ¬HdrInside flen o) :
    (cywSdpcmDeliverCtrl getSlot flen).result (zeroFrame o c) =
        ⟨{ getSlot with ioctlResult := 0, ioctlWaiting := false }, some (0, [c]), true⟩ ∧
      o.toNat + 16 ∈ (cywSdpcmDeliverCtrl getSlot flen).touched (zeroFrame o c) := by
  have hlen : ¬flen.toNat < 12 + 16 := by have := (hdrOutside h).1; omega
  have hid : bcdcId 0 = 0 := rfl
  have herr : (0 : UInt32) &&& bcdcDcmdError = 0 := rfl
  simp [cywSdpcmDeliverCtrl, cywSdpcmHdrLen, cywBcdcHdrLen, hlen, sdpcmDataOffset, zeroFrame_offset, zeroFrame_flags,
    getSlot, hid, herr, copy_one h, zeroFrame_payload]

theorem poll_zeroFrame (h : ¬HdrInside flen o) :
    (cywFilTxrxPoll getReq 0 flen).result (zeroFrame o c) = some (0, some [c]) ∧
      o.toNat + 16 ∈ (cywFilTxrxPoll getReq 0 flen).touched (zeroFrame o c) := by
  have hlen : ¬flen.toNat < 12 + 16 := by have := (hdrOutside h).1; omega
  have hid : bcdcId 0 = 0 := rfl
  have herr : (0 : UInt32) &&& bcdcDcmdError = 0 := rfl
  have hchan : zeroFrame o c 5 &&& 0x0f = cywSdpcmChanCtrl := by simp [zeroFrame, cywBcdcHdrLen, cywSdpcmChanCtrl]
  have hset : getReq.isSet = false := rfl
  have hbuf : getReq.hasBuf = true := rfl
  have hbuflen : getReq.buflen = 1 := rfl
  simp [cywFilTxrxPoll, cywSdpcmHdrLen, cywBcdcHdrLen, hlen, sdpcmChanFlags, hchan, sdpcmDataOffset,
    zeroFrame_offset, zeroFrame_flags, hset, hbuf, hbuflen, hid, herr, copy_one h, zeroFrame_payload]

end Outside

/-! ## Inside the frame exactly when the header is -/

section Main

variable (flen : UInt16) (o : UInt8)

/-- Whatever the frame with this length and `data_offset` holds and whatever is waited for, the runtime path reads
only indices below `flen`. -/
def RuntimeInside : Prop :=
  ∀ b, b 7 = o → ∀ sc : IoctlSlot, (cywSdpcmDeliverCtrl sc flen).Within b flen.toNat

/-- The same for the boot path. -/
def BootInside : Prop :=
  ∀ b, b 7 = o → ∀ (r : Req) (id : UInt16), (cywFilTxrxPoll r id flen).Within b flen.toNat

/-- The match, the errno and the bytes copied, out of all a delivery does. -/
def Delivery.seen (d : Delivery) : Bool × Errno × Option (Nat × List UInt8) := (d.signal, d.slot.ioctlResult, d.copy)

/-- Buffers equal on their first `flen` bytes give the same match, errno and caller buffer on the runtime path. -/
def RuntimeDetermined : Prop :=
  ∀ b c, b 7 = o → (∀ i < flen.toNat, b i = c i) → ∀ sc : IoctlSlot,
    ((cywSdpcmDeliverCtrl sc flen).result b).seen = ((cywSdpcmDeliverCtrl sc flen).result c).seen

/-- The same for the boot path. -/
def BootDetermined : Prop :=
  ∀ b c, b 7 = o → (∀ i < flen.toNat, b i = c i) → ∀ (r : Req) (id : UInt16),
    (cywFilTxrxPoll r id flen).result b = (cywFilTxrxPoll r id flen).result c

variable {flen o}

theorem not_runtimeInside (h : ¬HdrInside flen o) : ¬RuntimeInside flen o := by
  intro hin
  have := hin (zeroFrame o 0) zeroFrame_offset getSlot _ (deliver_zeroFrame h).2
  have := (hdrOutside h).2
  simp only [cywBcdcHdrLen] at this
  omega

theorem not_bootInside (h : ¬HdrInside flen o) : ¬BootInside flen o := by
  intro hin
  have := hin (zeroFrame o 0) zeroFrame_offset getReq 0 _ (poll_zeroFrame h).2
  have := (hdrOutside h).2
  simp only [cywBcdcHdrLen] at this
  omega

theorem not_runtimeDetermined (h : ¬HdrInside flen o) : ¬RuntimeDetermined flen o := by
  intro hd
  have := hd (zeroFrame o 0) (zeroFrame o 1) zeroFrame_offset (zeroFrame_agree (hdrOutside h).2) getSlot
  rw [(deliver_zeroFrame h).1, (deliver_zeroFrame h).1] at this
  simp [Delivery.seen] at this

theorem not_bootDetermined (h : ¬HdrInside flen o) : ¬BootDetermined flen o := by
  intro hd
  have := hd (zeroFrame o 0) (zeroFrame o 1) zeroFrame_offset (zeroFrame_agree (hdrOutside h).2) getReq 0
  rw [(poll_zeroFrame h).1, (poll_zeroFrame h).1] at this
  simp at this

variable (flen o)

/-- **Control responses are read only inside the frame** exactly when the frame is shorter than the two headers or
the BCDC header lies, at the announced offset, inside it; the same condition makes the outcome a function of the
frame's own bytes. -/
theorem ctrl_inside_iff :
    (RuntimeInside flen o ↔ HdrInside flen o) ∧ (BootInside flen o ↔ HdrInside flen o) ∧
      (RuntimeDetermined flen o ↔ HdrInside flen o) ∧ (BootDetermined flen o ↔ HdrInside flen o) := by
  refine ⟨⟨fun h => ?_, fun h b hb sc => ?_⟩, ⟨fun h => ?_, fun h b hb r id => ?_⟩,
    ⟨fun h => ?_, fun h b c hb hbc sc => ?_⟩, ⟨fun h => ?_, fun h b c hb hbc r id => ?_⟩⟩
  · exact Decidable.byContradiction fun hn => not_runtimeInside hn h
  · exact cywSdpcmDeliverCtrl_within sc (hb ▸ h)
  · exact Decidable.byContradiction fun hn => not_bootInside hn h
  · exact cywFilTxrxPoll_within r id (hb ▸ h)
  · exact Decidable.byContradiction fun hn => not_runtimeDetermined hn h
  · rw [(cywSdpcmDeliverCtrl_within sc (hb ▸ h)).result_eq hbc]
  · exact Decidable.byContradiction fun hn => not_bootDetermined hn h
  · exact (cywFilTxrxPoll_within r id (hb ▸ h)).result_eq hbc

/-- A 28-byte frame, which `cyw_sdpcm_recv_one` accepts, that announces its header at 200: both paths read, and copy
to the caller, what lies behind it. -/
theorem ctrl_outside :
    (cywSdpcmHdrLen ≤ (28 : UInt16).toNat ∧ (28 : UInt16).toNat ≤ cywSdpcmMaxFrame) ∧ ¬RuntimeInside 28 200 ∧
      ¬BootInside 28 200 ∧ ¬RuntimeDetermined 28 200 ∧ ¬BootDetermined 28 200 := by
  have hout : ¬HdrInside 28 200 := by decide
  exact ⟨by decide, not_runtimeInside hout, not_bootInside hout, not_runtimeDetermined hout, not_bootDetermined hout⟩

end Main

end Cyw
