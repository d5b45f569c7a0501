import Rpi5Modules.Cyw.RecvFraming

/-!
# The reads of a received frame

`cyw_sdpcm_recv_one` again, with what each transfer may do to the caller's buffer: a transfer can fail at any point, and
may have stored any of its bytes by then. Every call logs its reads.

One read of 64 bytes and chunks of at most 448 cover the frame, rounded up to whole blocks, from the start of the buffer
on. So the reads stay in byte mode and inside the buffer, and what is counted and handed out changes with complete
frames only (`recv_one_bounds`). Where the transfers are those of the F2 FIFO, this is the function of `RecvFraming`
(`recv_one_fifo`).
-/

namespace Cyw.Rx

open BufProg

def cywSdpcmBufSize : Nat := cywSdpcmMaxFrame + cywF2Blksize

/-! ## `cyw_sdpcm_recv_one` -/

/-- An F2 read of `len` bytes into `buf + dst`. -/
structure F2Read where
  len : Nat
  dst : Nat

/-- The caller's buffer and `*out_flen` (`none` is a NULL `out_flen`), what the function writes in the softc, the
INTSTATUS bits it acknowledges, and its F2 reads. -/
structure RxState where
  buf : Nat → UInt8
  outFlen : Option UInt16
  sdpcmRxMax : UInt8
  rxOkCount : UInt64
  rxEioCount : UInt64
  rxEagainCount : UInt64
  acks : List UInt32
  reads : List F2Read

/-- What one call meets: INTSTATUS, if `sdio_core_base` is known, and for the transfer into `buf + dst` its outcome and
what it leaves at each index of its range, whether it succeeds or not. -/
structure RxEnv where
  intstatus : Option UInt32
  err : (dst : Nat) → Errno
  data : (dst i : Nat) → UInt8

namespace RxState

/-- `SDIO_READ_EXTENDED` of `len` bytes into `buf + dst`. -/
def f2Read (s : RxState) (e : RxEnv) (len dst : Nat) : RxState :=
  { s with
    buf := fun i => if dst ≤ i ∧ i < dst + len then e.data dst i else s.buf i
    reads := s.reads ++ [⟨len, dst⟩] }

/-- `cyw_rx_eio_diag` and `cyw_rxfail`. -/
def rxfail (s : RxState) : RxState := { s with rxEioCount := s.rxEioCount + 1 }

def bounce (s : RxState) : RxState := { s with rxEagainCount := s.rxEagainCount + 1 }

/-- Mailbox bits are acknowledged. -/
def ack (s : RxState) (e : RxEnv) : RxState :=
  match e.intstatus with
  | none => s
  | some intstatus =>
    if intstatus &&& iHmbSwMask ≠ 0 then { s with acks := s.acks ++ [intstatus &&& iHmbSwMask] } else s

end RxState

/-- INTSTATUS says that there is nothing to read. -/
def RxEnv.gated (e : RxEnv) : Bool :=
  match e.intstatus with
  | none => false
  | some intstatus => intstatus &&& (iHmbSwMask ||| iXmtdataAvail) == 0

/-- The loop over the tail of the frame: `remaining` bytes to `buf + dst`. -/
def rxTail (e : RxEnv) (s : RxState) (dst remaining : Nat) : Errno × RxState :=
  if 0 < remaining then
    let chunk := f2Chunk remaining
    let s := s.f2Read e chunk dst
    if e.err dst ≠ 0 then (e.err dst, s.rxfail) else rxTail e s (dst + chunk) (remaining - chunk)
  else (0, s)
termination_by remaining
decreasing_by
  have := f2Chunk_pos (show 0 < remaining by assumption)
  omega

/-- From the first block of a frame of `flen` bytes on. -/
def rxFrame (e : RxEnv) (s : RxState) (flen : UInt16) : Errno × RxState :=
  let remaining := if flen.toNat > cywF2Blksize then f2Blocks (flen.toNat - cywF2Blksize) else 0
  let (err, s) := rxTail e s cywF2Blksize remaining
  if err ≠ 0 then (err, s)
  else
    (0, { s with
      sdpcmRxMax := sdpcmCredit.result s.buf
      rxOkCount := s.rxOkCount + 1
      outFlen := s.outFlen.map fun _ => flen })

/-- `cyw_sdpcm_recv_one(sc, buf, out_flen)`. -/
def cywSdpcmRecvOne (e : RxEnv) (s : RxState) : Errno × RxState :=
  if e.gated then (eagain, s)
  else
    let s := (s.ack e).f2Read e cywF2Blksize 0
    if e.err 0 ≠ 0 then (e.err 0, s.rxfail)
    else
      let flen := sdpcmLen.result s.buf
      let lenInv := sdpcmLenInv.result s.buf
      if flen = 0 ∧ lenInv = 0 then (eagain, s)
      else if ~~~(flen ^^^ lenInv) ≠ 0 then (eagain, s.bounce)
      else if flen = 0xffff ∨ flen.toNat < cywSdpcmHdrLen then (eagain, s.bounce)
      else if flen.toNat > cywSdpcmMaxFrame then (einval, s)
      else rxFrame e s flen

/-! ## What a read is to be -/

/-- A positive multiple of 64 below 512, inside the buffer. -/
structure F2Read.Ok (r : F2Read) : Prop where
  pos : 0 < r.len
  blocks : cywF2Blksize ∣ r.len
  byteMode : r.len < 512
  inside : r.dst + r.len ≤ cywSdpcmBufSize

/-- The reads cover the bytes from `p` up to `q`, one behind the other. -/
def Cover : (p : Nat) → List F2Read → (q : Nat) → Prop
  | p, [], q => p = q
  | p, r :: rs, q => r.dst = p ∧ Cover (p + r.len) rs q

/-- What is counted and handed out is as before. -/
structure Kept (s t : RxState) : Prop where
  sdpcmRxMax : t.sdpcmRxMax = s.sdpcmRxMax
  rxOkCount : t.rxOkCount = s.rxOkCount
  outFlen : t.outFlen = s.outFlen

/-- The call goes from `s` to `t` by the reads `rs`, which are in order, and leaves the buffer from `stop` on. -/
structure ReadsBy (s t : RxState) (rs : List F2Read) (stop : Nat) : Prop where
  reads : t.reads = s.reads ++ rs
  ok : ∀ r ∈ rs, r.Ok
  kept : Kept s t
  behind : ∀ i, stop ≤ i → t.buf i = s.buf i

section Bounds

variable {e : RxEnv} {s t u : RxState} {rs rs' : List F2Read} {p q r stop dst remaining : Nat}

theorem Kept.trans (h : Kept s t) (h' : Kept t u) : Kept s u :=
  ⟨h'.sdpcmRxMax.trans h.sdpcmRxMax, h'.rxOkCount.trans h.rxOkCount, h'.outFlen.trans h.outFlen⟩

theorem ReadsBy.trans (h : ReadsBy s t rs stop) (h' : ReadsBy t u rs' stop) : ReadsBy s u (rs ++ rs') stop where
  reads := by rw [h'.reads, h.reads, List.append_assoc]
  ok := fun r hr => (List.mem_append.1 hr).elim (h.ok r) (h'.ok r)
  kept := h.kept.trans h'.kept
  behind := fun i hi => (h'.behind i hi).trans (h.behind i hi)

theorem readsBy_nil (s : RxState) (stop : Nat) : ReadsBy s s [] stop :=
  ⟨(List.append_nil _).symm, fun _ h => absurd h List.not_mem_nil, ⟨rfl, rfl, rfl⟩, fun _ _ => rfl⟩

theorem ReadsBy.rxfail (h : ReadsBy s t rs stop) : ReadsBy s t.rxfail rs stop :=
  ⟨h.reads, h.ok, ⟨h.kept.sdpcmRxMax, h.kept.rxOkCount, h.kept.outFlen⟩, h.behind⟩

theorem ReadsBy.bounce (h : ReadsBy s t rs stop) : ReadsBy s t.bounce rs stop :=
  ⟨h.reads, h.ok, ⟨h.kept.sdpcmRxMax, h.kept.rxOkCount, h.kept.outFlen⟩, h.behind⟩

theorem readsBy_ack (s : RxState) (e : RxEnv) (stop : Nat) : ReadsBy s (s.ack e) [] stop := by
  unfold RxState.ack
  split
  · exact readsBy_nil s stop
  · split
    · exact ⟨(List.append_nil _).symm, fun _ h => absurd h List.not_mem_nil, ⟨rfl, rfl, rfl⟩, fun _ _ => rfl⟩
    · exact readsBy_nil s stop

/-- One transfer. -/
theorem readsBy_f2Read {len : Nat} (hok : F2Read.Ok ⟨len, dst⟩) (hstop : dst + len ≤ stop) :
    ReadsBy s (s.f2Read e len dst) [⟨len, dst⟩] stop := by
  refine ⟨rfl, fun r hr => ?_, ⟨rfl, rfl, rfl⟩, fun i hi => if_neg (by omega)⟩
  rw [List.mem_singleton.1 hr]
  exact hok

theorem f2Chunk_ok (hpos : 0 < remaining) (hdvd : cywF2Blksize ∣ remaining)
    (hin : dst + remaining ≤ cywSdpcmBufSize) : F2Read.Ok ⟨f2Chunk remaining, dst⟩ := by
  have hle := f2Chunk_le remaining
  refine ⟨f2Chunk_pos hpos, ?_, ?_, Nat.le_trans (Nat.add_le_add_left hle dst) hin⟩
  · show cywF2Blksize ∣ f2Chunk remaining
    unfold f2Chunk
    split
    · decide
    · exact hdvd
  · show f2Chunk remaining < 512
    unfold f2Chunk
    split
    · decide
    · next h => exact Nat.lt_of_le_of_lt (Nat.le_of_not_lt h) (by decide)

/-- **The tail**: whatever fails, its reads are in range; if none fails, they cover the tail. -/
theorem rxTail_spec (hdvd : cywF2Blksize ∣ remaining) (hin : dst + remaining ≤ cywSdpcmBufSize) :
    ∃ rs, ReadsBy s (rxTail e s dst remaining).2 rs cywSdpcmBufSize ∧
      (∀ i < dst, (rxTail e s dst remaining).2.buf i = s.buf i) ∧
      ((rxTail e s dst remaining).1 = 0 → Cover dst rs (dst + remaining)) := by
  fun_induction rxTail e s dst remaining with
  | case1 s dst remaining hpos chunk t herr =>
    have hchunk : chunk ≤ remaining := f2Chunk_le remaining
    have hread : ReadsBy s t [⟨chunk, dst⟩] cywSdpcmBufSize :=
      readsBy_f2Read (f2Chunk_ok hpos hdvd hin) (by omega)
    refine ⟨[⟨chunk, dst⟩], hread.rxfail, fun i hi => if_neg (by omega), fun h => (herr h).elim⟩
  | case2 s dst remaining hpos chunk t herr ih =>
    have hchunk : chunk ≤ remaining := f2Chunk_le remaining
    have hok : F2Read.Ok ⟨chunk, dst⟩ := f2Chunk_ok hpos hdvd hin
    have hread : ReadsBy s t [⟨chunk, dst⟩] cywSdpcmBufSize := readsBy_f2Read hok (by omega)
    obtain ⟨rs, hrs, hbuf, hcover⟩ := ih (Nat.dvd_sub hdvd hok.blocks) (by omega)
    refine ⟨⟨chunk, dst⟩ :: rs, hread.trans hrs, fun i hi => ?_, fun h => ⟨rfl, ?_⟩⟩
    · rw [hbuf i (by omega)]
      exact if_neg (by omega)
    · have hend : dst + chunk + (remaining - chunk) = dst + remaining := by omega
      exact hend ▸ hcover h
  | case3 s dst remaining hpos =>
    exact ⟨[], readsBy_nil s _, fun _ _ => rfl, fun _ => by show dst = _; omega⟩

/-! ## One call -/

/-- The frame in the buffer has a length from 12 to 2048 with its complement behind it, and was read up to whole
blocks; the length was handed out, the credit taken and the frame counted. -/
structure Received (s t : RxState) (rs : List F2Read) : Prop where
  lower : 12 ≤ (sdpcmLen.result t.buf).toNat
  upper : (sdpcmLen.result t.buf).toNat ≤ 2048
  lenInv : sdpcmLenInv.result t.buf = ~~~sdpcmLen.result t.buf
  covered : Cover 0 rs (f2Blocks (sdpcmLen.result t.buf).toNat)
  outFlen : t.outFlen = s.outFlen.map fun _ => sdpcmLen.result t.buf
  sdpcmRxMax : t.sdpcmRxMax = sdpcmCredit.result t.buf
  rxOkCount : t.rxOkCount = s.rxOkCount + 1

/-- A call from `s` that returns `err` in `t`, by the reads `rs`. -/
structure Bounds (s : RxState) (err : Errno) (t : RxState) (rs : List F2Read) : Prop where
  reads : t.reads = s.reads ++ rs
  ok : ∀ r ∈ rs, r.Ok
  behind : ∀ i, cywSdpcmBufSize ≤ i → t.buf i = s.buf i
  received : err = 0 → Received s t rs
  failed : err ≠ 0 → Kept s t

/-- Every failure. -/
theorem ReadsBy.failed {err : Errno} (h : ReadsBy s t rs cywSdpcmBufSize) (herr : err ≠ 0) : Bounds s err t rs :=
  ⟨h.reads, h.ok, h.behind, fun h0 => absurd h0 herr, fun _ => h.kept⟩

theorem eq_not_of_not_xor {x y : UInt16} (h : ~~~(x ^^^ y) = 0) : y = ~~~x := by
  apply UInt16.eq_of_toBitVec_eq
  have hbits := congrArg UInt16.toBitVec h
  simp only [UInt16.toBitVec_not, UInt16.toBitVec_xor] at hbits ⊢
  ext i hi
  have hbit := congrArg (fun v => v.getLsbD i) hbits
  simp [hi] at hbit ⊢
  cases hx : x.toBitVec[i] <;> cases hy : y.toBitVec[i] <;> simp_all

/-- The header in the buffer is that of its first 64 bytes. -/
theorem header_congr {b c : Nat → UInt8} (h : ∀ i < cywF2Blksize, b i = c i) :
    sdpcmLen.result b = sdpcmLen.result c ∧ sdpcmLenInv.result b = sdpcmLenInv.result c := by
  have hlen : sdpcmLen.Within b cywF2Blksize := within_le16.2 (by decide)
  have hinv : sdpcmLenInv.Within b cywF2Blksize := within_le16.2 (by decide)
  exact ⟨hlen.result_eq h, hinv.result_eq h⟩

/-- The tail of a frame with a good header. -/
theorem rxFrame_bounds (hhead : ReadsBy s t [⟨cywF2Blksize, 0⟩] cywSdpcmBufSize)
    (hlower : cywSdpcmHdrLen ≤ (sdpcmLen.result t.buf).toNat)
    (hupper : (sdpcmLen.result t.buf).toNat ≤ cywSdpcmMaxFrame)
    (hinv : sdpcmLenInv.result t.buf = ~~~sdpcmLen.result t.buf) :
    ∃ rs, Bounds s (rxFrame e t (sdpcmLen.result t.buf)).1 (rxFrame e t (sdpcmLen.result t.buf)).2 rs := by
  have hsplit := f2Blocks_split (Nat.lt_of_lt_of_le (by decide) hlower)
  have hdvd : cywF2Blksize ∣ (if (sdpcmLen.result t.buf).toNat > cywF2Blksize
      then f2Blocks ((sdpcmLen.result t.buf).toNat - cywF2Blksize) else 0) := by
    split
    · exact Nat.dvd_mul_left _ _
    · exact Nat.dvd_zero _
  unfold rxFrame
  dsimp only
  generalize (if (sdpcmLen.result t.buf).toNat > cywF2Blksize
      then f2Blocks ((sdpcmLen.result t.buf).toNat - cywF2Blksize) else 0) = remaining at hsplit hdvd
  have hfits : cywF2Blksize + remaining ≤ cywSdpcmBufSize := by
    rw [hsplit]
    simp only [cywSdpcmMaxFrame] at hupper
    simp only [f2Blocks, cywF2Blksize, cywSdpcmBufSize, cywSdpcmMaxFrame]
    omega
  obtain ⟨rs, hrs, hkeep, hcover⟩ := rxTail_spec (e := e) (s := t) hdvd hfits
  generalize rxTail e t cywF2Blksize remaining = r at hrs hkeep hcover
  obtain ⟨err, u⟩ := r
  dsimp only at hrs hkeep hcover ⊢
  have hall := hhead.trans hrs
  refine ⟨[⟨cywF2Blksize, 0⟩] ++ rs, ?_⟩
  split
  · next herr => exact hall.failed herr
  next herr =>
  obtain ⟨hlen, hlenInv⟩ := header_congr hkeep
  refine ⟨hall.reads, hall.ok, hall.behind, fun _ => ⟨?_, ?_, ?_, ?_, ?_, rfl, ?_⟩, fun h => absurd rfl h⟩
  · rw [hlen]
    exact hlower
  · rw [hlen]
    exact hupper
  · rw [hlen, hlenInv]
    exact hinv
  · rw [hlen, ← hsplit]
    refine ⟨rfl, ?_⟩
    rw [Nat.zero_add]
    exact hcover (Decidable.not_not.1 herr)
  · rw [hlen]
    show u.outFlen.map _ = _
    rw [hall.kept.outFlen]
  · show u.rxOkCount + 1 = _
    rw [hall.kept.rxOkCount]

/-- **Bounds of a single frame read**: nothing is stored at or behind `CYW_SDPCM_BUF_SIZE`; every read is a positive
multiple of 64 below 512; 0 is returned only for a frame with a good header, read exactly up to whole blocks; otherwise
the credit, the count and `*out_flen` are left alone. -/
theorem recv_one_bounds (e : RxEnv) (s : RxState) :
    ∃ rs, Bounds s (cywSdpcmRecvOne e s).1 (cywSdpcmRecvOne e s).2 rs := by
  have hblk : F2Read.Ok ⟨cywF2Blksize, 0⟩ := ⟨by decide, by decide, by decide, by decide⟩
  have hhead : ReadsBy s ((s.ack e).f2Read e cywF2Blksize 0) [⟨cywF2Blksize, 0⟩] cywSdpcmBufSize :=
    (readsBy_ack s e _).trans (readsBy_f2Read hblk (by decide))
  have heagain : eagain ≠ 0 := by decide
  unfold cywSdpcmRecvOne
  split
  · exact ⟨[], (readsBy_nil s _).failed heagain⟩
  generalize (s.ack e).f2Read e cywF2Blksize 0 = t at hhead
  dsimp only
  split
  · next herr => exact ⟨_, hhead.rxfail.failed herr⟩
  split
  · exact ⟨_, hhead.failed heagain⟩
  split
  · exact ⟨_, hhead.bounce.failed heagain⟩
  next hinv =>
  split
  · exact ⟨_, hhead.bounce.failed heagain⟩
  next hlower =>
  split
  · exact ⟨_, hhead.failed (show einval ≠ 0 by decide)⟩
  next hupper =>
  obtain ⟨-, hlower⟩ := not_or.1 hlower
  exact rxFrame_bounds hhead (Nat.le_of_not_lt hlower) (Nat.le_of_not_lt hupper)
    (eq_not_of_not_xor (Decidable.not_not.1 hinv))

end Bounds

/-! ## The model of the FIFO -/

section Fifo

variable {ef : RecvEnv} {sf tf : RecvState} {s t : RxState} {dst remaining : Nat}

/-- The transfers of the FIFO model: one that succeeds stores the bytes of the FIFO, one that fails nothing. -/
def ofFifo (ef : RecvEnv) (sf : RecvState) : RxEnv where
  intstatus := ef.intstatus
  err := fun dst => if dst = 0 then ef.head else ef.tail dst
  data := fun dst i => if (if dst = 0 then ef.head else ef.tail dst) = 0 then sf.fifo.getD i 0 else sf.buf i

/-- The two have the same buffer, credit and counts. -/
structure Same (tf : RecvState) (t : RxState) : Prop where
  buf : t.buf = tf.buf
  sdpcmRxMax : t.sdpcmRxMax = tf.sdpcmRxMax
  rxOkCount : t.rxOkCount = tf.rxOkCount
  rxEioCount : t.rxEioCount = tf.rxEioCount
  rxEagainCount : t.rxEagainCount = tf.rxEagainCount

/-- `dst` bytes were taken from the FIFO of `sf`, and nothing was stored behind them. -/
structure Taken (sf : RecvState) (dst : Nat) (tf : RecvState) (t : RxState) : Prop where
  same : Same tf t
  fifo : tf.fifo = sf.fifo.drop dst
  behind : ∀ i, dst ≤ i → tf.buf i = sf.buf i

/-- The `int` that the call returns. -/
def errnoOf : Recv → Errno
  | .ok _ => 0
  | .error e => e

/-- A transfer that succeeds. -/
theorem Taken.f2Read {len : Nat} (h : Taken sf dst tf t) (hok : (ofFifo ef sf).err dst = 0) :
    Taken sf (dst + len) (tf.f2Read len dst) (t.f2Read (ofFifo ef sf) len dst) := by
  have hdata : ∀ i, (ofFifo ef sf).data dst i = sf.fifo.getD i 0 := fun i => if_pos hok
  refine ⟨⟨?_, h.same.sdpcmRxMax, h.same.rxOkCount, h.same.rxEioCount, h.same.rxEagainCount⟩, ?_, fun i hi => ?_⟩
  · funext i
    show (if dst ≤ i ∧ i < dst + len then (ofFifo ef sf).data dst i else t.buf i) =
      if dst ≤ i ∧ i < dst + len then tf.fifo.getD (i - dst) 0 else tf.buf i
    by_cases hi : dst ≤ i ∧ i < dst + len
    · rw [if_pos hi, if_pos hi, hdata, h.fifo, List.getD_eq_getElem?_getD, List.getD_eq_getElem?_getD,
        List.getElem?_drop, Nat.add_sub_cancel' hi.1]
    · rw [if_neg hi, if_neg hi, h.same.buf]
  · show tf.fifo.drop len = _
    rw [h.fifo, List.drop_drop]
  · show (if dst ≤ i ∧ i < dst + len then tf.fifo.getD (i - dst) 0 else tf.buf i) = _
    rw [if_neg (by omega)]
    exact h.behind i (by omega)

/-- A transfer that fails. -/
theorem Taken.fail {len : Nat} (h : Taken sf dst tf t) (herr : (ofFifo ef sf).err dst ≠ 0) :
    Same (tf.rxfail ef) (t.f2Read (ofFifo ef sf) len dst).rxfail := by
  have hdata : ∀ i, (ofFifo ef sf).data dst i = sf.buf i := fun i => if_neg herr
  refine ⟨?_, h.same.sdpcmRxMax, h.same.rxOkCount, congrArg (· + 1) h.same.rxEioCount, h.same.rxEagainCount⟩
  funext i
  show (if dst ≤ i ∧ i < dst + len then (ofFifo ef sf).data dst i else t.buf i) = tf.buf i
  by_cases hi : dst ≤ i ∧ i < dst + len
  · rw [if_pos hi, hdata, h.behind i hi.1]
  · rw [if_neg hi, h.same.buf]

theorem rxTail_fifo (ef : RecvEnv) {tf : RecvState} {t : RxState} {dst : Nat} (remaining : Nat) (hdst : dst ≠ 0)
    (h : Taken sf dst tf t) :
    (rxTail (ofFifo ef sf) t dst remaining).1 = (recvTail ef tf dst remaining).1 ∧
      Same (recvTail ef tf dst remaining).2 (rxTail (ofFifo ef sf) t dst remaining).2 := by
  have herr : (ofFifo ef sf).err dst = ef.tail dst := if_neg hdst
  rw [rxTail, recvTail]
  by_cases hpos : 0 < remaining
  · rw [if_pos hpos, if_pos hpos]
    dsimp only
    by_cases he : ef.tail dst ≠ 0
    · rw [herr, if_pos he, if_pos he]
      exact ⟨rfl, h.fail (herr ▸ he)⟩
    · have hok : (ofFifo ef sf).err dst = 0 := herr.trans (Decidable.not_not.1 he)
      have hlt := f2Chunk_pos hpos
      rw [herr, if_neg he, if_neg he]
      exact rxTail_fifo ef _ (by omega) (h.f2Read hok)
  · rw [if_neg hpos, if_neg hpos]
    exact ⟨rfl, h.same⟩
termination_by remaining
decreasing_by
  have := f2Chunk_pos hpos
  omega

theorem same_ack (ef : RecvEnv) (h : Same sf s) : Taken sf 0 sf (s.ack (ofFifo ef sf)) := by
  have hsame : Same sf (s.ack (ofFifo ef sf)) := by
    unfold RxState.ack
    split
    · exact h
    · split
      · exact { h with }
      · exact h
  exact ⟨hsame, rfl, fun _ _ => rfl⟩

/-- The FIFO model of the function is this one, for the transfers of a FIFO. -/
theorem recv_one_fifo (ef : RecvEnv) (h : Same sf s) :
    (cywSdpcmRecvOne (ofFifo ef sf) s).1 = errnoOf (Cyw.cywSdpcmRecvOne ef sf).1 ∧
      Same (Cyw.cywSdpcmRecvOne ef sf).2 (cywSdpcmRecvOne (ofFifo ef sf) s).2 := by
  have htaken := same_ack ef h
  have hgate : (ofFifo ef sf).gated = ef.gated := rfl
  have herr : (ofFifo ef sf).err 0 = ef.head := rfl
  unfold cywSdpcmRecvOne Cyw.cywSdpcmRecvOne
  rw [hgate, herr]
  by_cases hg : ef.gated = true
  · rw [if_pos hg, if_pos hg]
    exact ⟨rfl, h⟩
  rw [if_neg hg, if_neg hg]
  dsimp only
  by_cases he : ef.head ≠ 0
  · rw [if_pos he, if_pos he]
    exact ⟨rfl, htaken.fail he⟩
  rw [if_neg he, if_neg he]
  have hread : Taken sf (0 + cywF2Blksize) (sf.f2Read cywF2Blksize 0)
      ((s.ack (ofFifo ef sf)).f2Read (ofFifo ef sf) cywF2Blksize 0) := htaken.f2Read (Decidable.not_not.1 he)
  generalize sf.f2Read cywF2Blksize 0 = tf at hread
  generalize (s.ack (ofFifo ef sf)).f2Read (ofFifo ef sf) cywF2Blksize 0 = t at hread
  have hsame := hread.same
  rw [hsame.buf]
  split
  · exact ⟨rfl, hsame⟩
  split
  · exact ⟨rfl, hsame.buf, hsame.sdpcmRxMax, hsame.rxOkCount, hsame.rxEioCount, congrArg (· + 1) hsame.rxEagainCount⟩
  split
  · exact ⟨rfl, hsame.buf, hsame.sdpcmRxMax, hsame.rxOkCount, hsame.rxEioCount, congrArg (· + 1) hsame.rxEagainCount⟩
  split
  · exact ⟨rfl, hsame⟩
  unfold rxFrame
  dsimp only
  generalize (if (sdpcmLen.result tf.buf).toNat > cywF2Blksize
      then f2Blocks ((sdpcmLen.result tf.buf).toNat - cywF2Blksize) else 0) = remaining
  obtain ⟨herrs, htail⟩ := rxTail_fifo ef remaining (by decide) hread
  rw [Nat.zero_add] at herrs htail
  rw [herrs]
  split
  · exact ⟨rfl, htail⟩
  · exact ⟨rfl, htail.buf, congrArg sdpcmCredit.result htail.buf, congrArg (· + 1) htail.rxOkCount, htail.rxEioCount,
      htail.rxEagainCount⟩

end Fifo

end Cyw.Rx
