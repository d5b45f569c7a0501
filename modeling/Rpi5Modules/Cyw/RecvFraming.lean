import Rpi5Modules.Cyw.TxPaths

/-!
# Framing on the F2 FIFO

`cyw_sdpcm_recv_one` reads a block of 64 bytes, takes it for an SDPCM header, and reads the rest of the frame in chunks
of at most 448 bytes. The chip pads every frame to whole blocks, so a frame that is accepted is read to its end
(`recv_fits`), and the next call starts at a header.

A frame longer than `CYW_SDPCM_MAX_FRAME` is refused after its first block was read, and the rest of it stays in the
FIFO (`recv_long`): the next call takes payload for a header. Framing holds exactly when no such frame comes
(`recv_framing_iff`).
-/

namespace Cyw

open BufProg Transition

def cywF2Blksize : Nat := 64
def cywF2MaxByteXfer : Nat := 448

def sdpcmLen : BufProg UInt16 := BufProg.le16 0
def sdpcmLenInv : BufProg UInt16 := BufProg.le16 2

/-- `(n + CYW_F2_BLKSIZE - 1) & ~(size_t)(CYW_F2_BLKSIZE - 1)`: up to whole blocks. -/
def f2Blocks (n : Nat) : Nat := (n + cywF2Blksize - 1) / cywF2Blksize * cywF2Blksize

/-- The length of the next read of a frame's tail. -/
def f2Chunk (remaining : Nat) : Nat := if remaining > cywF2MaxByteXfer then cywF2MaxByteXfer else remaining

theorem f2Chunk_le (remaining : Nat) : f2Chunk remaining ≤ remaining := by
  unfold f2Chunk
  split <;> omega

theorem f2Chunk_pos {remaining : Nat} (h : 0 < remaining) : 0 < f2Chunk remaining := by
  unfold f2Chunk
  split
  · decide
  · exact h

/-! ## `cyw_sdpcm_recv_one` -/

/-- The FIFO, the caller's buffer, and what the function writes in the softc. -/
structure RecvState where
  fifo : List UInt8
  buf : Nat → UInt8
  sdpcmRxMax : UInt8
  rxOkCount : UInt64
  rxEioCount : UInt64
  rxEagainCount : UInt64

/-- What one call meets: INTSTATUS, if `sdio_core_base` is known; the outcome of the first read and of the one into
`buf + dst`; and what the chip leaves in the FIFO when `cyw_rxfail` makes it discard the current frame. -/
structure RecvEnv where
  intstatus : Option UInt32
  head : Errno
  tail : Nat → Errno
  discard : List UInt8 → List UInt8

namespace RecvState

/-- A read of `len` bytes into `buf + dst` that succeeds. An empty FIFO gives zeros. -/
def f2Read (s : RecvState) (len dst : Nat) : RecvState :=
  { s with
    fifo := s.fifo.drop len
    buf := fun i => if dst ≤ i ∧ i < dst + len then s.fifo.getD (i - dst) 0 else s.buf i }

/-- `cyw_rx_eio_diag` and `cyw_rxfail`. -/
def rxfail (s : RecvState) (e : RecvEnv) : RecvState :=
  { s with fifo := e.discard s.fifo, rxEioCount := s.rxEioCount + 1 }

def bounce (s : RecvState) : RecvState := { s with rxEagainCount := s.rxEagainCount + 1 }

end RecvState

/-- The loop over the tail of the frame: `remaining` bytes to `buf + dst`. -/
def recvTail (e : RecvEnv) (s : RecvState) (dst remaining : Nat) : Errno × RecvState :=
  if 0 < remaining then
    let chunk := f2Chunk remaining
    if e.tail dst ≠ 0 then (e.tail dst, s.rxfail e)
    else recvTail e (s.f2Read chunk dst) (dst + chunk) (remaining - chunk)
  else (0, s)
termination_by remaining
decreasing_by
  have := f2Chunk_pos (show 0 < remaining by assumption)
  omega

/-- INTSTATUS says that there is nothing to read. -/
def RecvEnv.gated (e : RecvEnv) : Bool :=
  match e.intstatus with
  | none => false
  | some intstatus => intstatus &&& (iHmbSwMask ||| iXmtdataAvail) == 0

/-- `cyw_sdpcm_recv_one(sc, buf, out_flen)`. -/
def cywSdpcmRecvOne (e : RecvEnv) (s : RecvState) : Recv × RecvState :=
  if e.gated then (.error eagain, s)
  else if e.head ≠ 0 then (.error e.head, s.rxfail e)
  else
    let s := s.f2Read cywF2Blksize 0
    let flen := sdpcmLen.result s.buf
    let lenInv := sdpcmLenInv.result s.buf
    if flen = 0 ∧ lenInv = 0 then (.error eagain, s)
    else if ~~~(flen ^^^ lenInv) ≠ 0 then (.error eagain, s.bounce)
    else if flen = 0xffff ∨ flen.toNat < cywSdpcmHdrLen then (.error eagain, s.bounce)
    else if flen.toNat > cywSdpcmMaxFrame then (.error einval, s)
    else
      let remaining := if flen.toNat > cywF2Blksize then f2Blocks (flen.toNat - cywF2Blksize) else 0
      let (err, s) := recvTail e s cywF2Blksize remaining
      if err ≠ 0 then (.error err, s)
      else (.ok ⟨flen, s.buf⟩, { s with sdpcmRxMax := sdpcmCredit.result s.buf, rxOkCount := s.rxOkCount + 1 })

/-! ## Frames on the wire -/

/-- A well-formed SDPCM frame with its padding. -/
structure WireFrame where
  flen : UInt16
  bytes : List UInt8
  lower : cywSdpcmHdrLen ≤ flen.toNat
  upper : flen.toNat ≤ 65534
  len : sdpcmLen.result (bytes.getD · 0) = flen
  lenInv : sdpcmLenInv.result (bytes.getD · 0) = ~~~flen
  padded : bytes.length = f2Blocks flen.toNat

/-- The frame without its padding. -/
def WireFrame.data (f : WireFrame) : List UInt8 := f.bytes.take f.flen.toNat

/-- The driver takes frames of this length. -/
def WireFrame.Fits (f : WireFrame) : Prop := f.flen.toNat ≤ cywSdpcmMaxFrame

instance (f : WireFrame) : Decidable f.Fits := inferInstanceAs (Decidable (_ ≤ _))

def wire (fs : List WireFrame) : List UInt8 := fs.flatMap WireFrame.bytes

/-- The bytes of a frame that was received. -/
def RxFrame.data (f : RxFrame) : List UInt8 := (List.range f.flen.toNat).map f.buf

/-- Data is available and no read fails. -/
structure RecvEnv.Quiet (e : RecvEnv) : Prop where
  avail : e.gated = false
  head : e.head = 0
  tail : ∀ dst, e.tail dst = 0

/-! ## One call -/

section Call

variable {e : RecvEnv} {s : RecvState} {f : WireFrame} {rest : List UInt8}

/-- Two reads in a row are one. -/
theorem f2Read_f2Read (s : RecvState) (a b dst : Nat) :
    (s.f2Read a dst).f2Read b (dst + a) = s.f2Read (a + b) dst := by
  simp only [RecvState.f2Read, List.drop_drop, RecvState.mk.injEq, and_true, true_and]
  funext i
  by_cases h₂ : dst + a ≤ i ∧ i < dst + a + b
  · have h : dst ≤ i ∧ i < dst + (a + b) := by omega
    have hi : a + (i - (dst + a)) = i - dst := by omega
    simp only [h₂, h, and_self, if_true, List.getD_eq_getElem?_getD, List.getElem?_drop, hi]
  · by_cases h₁ : dst ≤ i ∧ i < dst + a
    · have h : dst ≤ i ∧ i < dst + (a + b) := by omega
      rw [if_neg h₂, if_pos h₁, if_pos h]
    · have h : ¬(dst ≤ i ∧ i < dst + (a + b)) := by omega
      rw [if_neg h₂, if_neg h₁, if_neg h]

theorem f2Read_zero (s : RecvState) (dst : Nat) : s.f2Read 0 dst = s := by
  simp only [RecvState.f2Read, List.drop_zero]
  have h : (fun i => if dst ≤ i ∧ i < dst + 0 then s.fifo.getD (i - dst) 0 else s.buf i) = s.buf := by
    funext i
    rw [if_neg (by omega)]
  rw [h]

/-- The loop reads what remains, in however many chunks. -/
theorem recvTail_eq (hq : e.Quiet) (s : RecvState) (dst remaining : Nat) :
    recvTail e s dst remaining = (0, s.f2Read remaining dst) := by
  fun_induction recvTail e s dst remaining with
  | case1 s dst remaining hpos herr => exact (herr (hq.tail dst)).elim
  | case2 s dst remaining hpos chunk herr ih =>
    rw [ih, f2Read_f2Read, Nat.add_sub_cancel' (f2Chunk_le remaining)]
  | case3 s dst remaining hpos =>
    obtain rfl : remaining = 0 := by omega
    rw [f2Read_zero]

theorem f2Blocks_pos {n : Nat} (h : 0 < n) : cywF2Blksize ≤ f2Blocks n := by
  simp only [f2Blocks, cywF2Blksize]
  omega

theorem le_f2Blocks (n : Nat) : n ≤ f2Blocks n := by
  simp only [f2Blocks, cywF2Blksize]
  omega

/-- The first block and the tail, which is read in whole blocks, are the whole frame. -/
theorem f2Blocks_split {n : Nat} (h : 0 < n) :
    cywF2Blksize + (if n > cywF2Blksize then f2Blocks (n - cywF2Blksize) else 0) = f2Blocks n := by
  split
  · next hn =>
    simp only [f2Blocks, cywF2Blksize] at hn ⊢
    omega
  · next hn =>
    simp only [f2Blocks, cywF2Blksize] at hn ⊢
    omega

theorem WireFrame.flen_pos (f : WireFrame) : 0 < f.flen.toNat := by
  have h := f.lower
  simp only [cywSdpcmHdrLen] at h
  omega

theorem WireFrame.block_le (f : WireFrame) : cywF2Blksize ≤ f.bytes.length := by
  rw [f.padded]
  exact f2Blocks_pos f.flen_pos

/-- After a read of `n` bytes from a FIFO that starts with a frame, the buffer holds the start of the frame. -/
theorem f2Read_frame (hf : s.fifo = f.bytes ++ rest) {n i : Nat} (hi : i < n) (hn : n ≤ f.bytes.length) :
    (s.f2Read n 0).buf i = f.bytes.getD i 0 := by
  simp only [RecvState.f2Read, Nat.zero_le, Nat.zero_add, hi, and_self, if_true, Nat.sub_zero, hf]
  rw [List.getD_eq_getElem?_getD, List.getD_eq_getElem?_getD, List.getElem?_append_left (by omega)]

theorem head_len (hf : s.fifo = f.bytes ++ rest) :
    sdpcmLen.result (s.f2Read cywF2Blksize 0).buf = f.flen ∧
      sdpcmLenInv.result (s.f2Read cywF2Blksize 0).buf = ~~~f.flen := by
  have hagree : ∀ i < 4, (s.f2Read cywF2Blksize 0).buf i = f.bytes.getD i 0 := by
    intro i hi
    exact f2Read_frame hf (by simp only [cywF2Blksize]; omega) f.block_le
  have hlen : sdpcmLen.Within (s.f2Read cywF2Blksize 0).buf 4 := within_le16.2 (by omega)
  have hinv : sdpcmLenInv.Within (s.f2Read cywF2Blksize 0).buf 4 := within_le16.2 (by omega)
  exact ⟨(hlen.result_eq hagree).trans f.len, (hinv.result_eq hagree).trans f.lenInv⟩

theorem not_xor_not (x : UInt16) : ~~~(x ^^^ ~~~x) = 0 := by
  apply UInt16.eq_of_toBitVec_eq
  simp only [UInt16.toBitVec_not, UInt16.toBitVec_xor]
  ext i hi
  simp

/-- A frame that is on the wire passes the checks of its header. -/
theorem recv_head (hq : e.Quiet) (hf : s.fifo = f.bytes ++ rest) :
    cywSdpcmRecvOne e s =
      if f.flen.toNat > cywSdpcmMaxFrame then (.error einval, s.f2Read cywF2Blksize 0)
      else
        let t := s.f2Read f.bytes.length 0
        (.ok ⟨f.flen, t.buf⟩, { t with sdpcmRxMax := sdpcmCredit.result t.buf, rxOkCount := t.rxOkCount + 1 }) := by
  obtain ⟨hlen, hinv⟩ := head_len hf
  have hpos := f.flen_pos
  have h0 : ¬(f.flen = 0 ∧ ~~~f.flen = 0) := by
    rintro ⟨h, _⟩
    rw [h] at hpos
    cases hpos
  have hffff : ¬(f.flen = 0xffff ∨ f.flen.toNat < cywSdpcmHdrLen) := by
    rintro (h | h)
    · have hu := f.upper
      rw [h] at hu
      simp at hu
    · exact Nat.not_lt.2 f.lower h
  have htail := recvTail_eq hq (s.f2Read cywF2Blksize 0) cywF2Blksize
    (if f.flen.toNat > cywF2Blksize then f2Blocks (f.flen.toNat - cywF2Blksize) else 0)
  have hmerge := f2Read_f2Read s cywF2Blksize
    (if f.flen.toNat > cywF2Blksize then f2Blocks (f.flen.toNat - cywF2Blksize) else 0) 0
  rw [Nat.zero_add, f2Blocks_split hpos, ← f.padded] at hmerge
  rw [hmerge] at htail
  unfold cywSdpcmRecvOne
  simp only [hq.avail, hq.head, hlen, hinv, not_xor_not, h0, hffff, htail, ne_eq, not_true, Bool.false_eq_true,
    if_false]

/-- A frame that fits is returned, with its own bytes, and the FIFO stands behind it. -/
theorem recv_fits (hq : e.Quiet) (hf : s.fifo = f.bytes ++ rest) (hfit : f.Fits) :
    ∃ g t, cywSdpcmRecvOne e s = (.ok g, t) ∧ g.data = f.data ∧ t.fifo = rest := by
  refine ⟨_, _, (recv_head hq hf).trans (if_neg (Nat.not_lt.2 hfit)), ?_, ?_⟩
  · have hle : f.flen.toNat ≤ f.bytes.length := by
      rw [f.padded]
      exact le_f2Blocks _
    apply List.ext_getElem (by simp [RxFrame.data, WireFrame.data, hle])
    intro i hi _
    have hi' : i < f.flen.toNat := by simpa [RxFrame.data] using hi
    simp only [RxFrame.data, WireFrame.data, List.getElem_map, List.getElem_range, List.getElem_take]
    rw [f2Read_frame hf (by omega) (Nat.le_refl _), List.getD_eq_getElem?_getD, List.getElem?_eq_getElem (by omega)]
    rfl
  · simp [RecvState.f2Read, hf]

/-- A longer one is refused once its first block is read. -/
theorem recv_long (hq : e.Quiet) (hf : s.fifo = f.bytes ++ rest) (hlong : ¬f.Fits) :
    ∃ t, cywSdpcmRecvOne e s = (.error einval, t) ∧ t.fifo = (f.bytes ++ rest).drop cywF2Blksize :=
  ⟨_, (recv_head hq hf).trans (if_pos (Nat.lt_of_not_le hlong)), by rw [← hf]; rfl⟩

/-- From an empty FIFO nothing comes, and it stays empty. -/
theorem recv_empty (hq : e.Quiet) (hf : s.fifo = []) :
    ∃ t, cywSdpcmRecvOne e s = (.error eagain, t) ∧ t.fifo = [] := by
  have hlen : sdpcmLen.result (s.f2Read cywF2Blksize 0).buf = 0 ∧
      sdpcmLenInv.result (s.f2Read cywF2Blksize 0).buf = 0 := by
    simp [sdpcmLen, sdpcmLenInv, le16, RecvState.f2Read, hf, cywF2Blksize]
  refine ⟨s.f2Read cywF2Blksize 0, ?_, by simp [RecvState.f2Read, hf]⟩
  simp [cywSdpcmRecvOne, hq.avail, hq.head, hlen]

end Call

/-! ## Calls in a row -/

/-- The calls so far: the state they left, and the frames they returned. -/
structure RecvRun where
  st : RecvState
  got : List RxFrame

def recvStep (s : RecvRun) (e : RecvEnv) : Option RecvRun :=
  match cywSdpcmRecvOne e s.st with
  | (.ok f, t) => some ⟨t, s.got ++ [f]⟩
  | (.error _, t) => some { s with st := t }

/-- The FIFO holds the frames, and no call was made yet. -/
def recvStart (s : RecvState) (fs : List WireFrame) : RecvRun := ⟨{ s with fifo := wire fs }, []⟩

/-- Data is available and no read fails, in every call. -/
def QuietCall (_ : RecvRun) (e : RecvEnv) : Prop := e.Quiet

/-- The FIFO stands at a frame boundary, and of the frames before it those that fit were returned, in order and with
their own bytes. -/
def InSync (fs : List WireFrame) (s : RecvRun) : Prop :=
  ∃ done todo, fs = done ++ todo ∧ s.st.fifo = wire todo ∧
    s.got.map RxFrame.data = (done.filter (·.Fits)).map WireFrame.data

/-- All frames that fit were returned. -/
def AllGot (fs : List WireFrame) (s : RecvRun) : Prop :=
  s.got.map RxFrame.data = (fs.filter (·.Fits)).map WireFrame.data

section Calls

variable {e : RecvEnv} {s s' t : RecvRun} {f : WireFrame} {fs pre todo : List WireFrame} {as : List RecvEnv}

theorem step_fits (hq : e.Quiet) (hf : s.st.fifo = f.bytes ++ wire todo) (hfit : f.Fits)
    (hs : recvStep s e = some s') :
    s'.st.fifo = wire todo ∧ s'.got.map RxFrame.data = s.got.map RxFrame.data ++ [f.data] := by
  obtain ⟨g, t, hg, hdata, ht⟩ := recv_fits hq hf hfit
  simp only [recvStep, hg, Option.some.injEq] at hs
  subst hs
  exact ⟨ht, by simp [hdata]⟩

theorem step_empty (hq : e.Quiet) (hf : s.st.fifo = []) (hs : recvStep s e = some s') :
    s'.st.fifo = [] ∧ s'.got = s.got := by
  obtain ⟨t, ht, hfifo⟩ := recv_empty hq hf
  simp only [recvStep, ht, Option.some.injEq] at hs
  subst hs
  exact ⟨hfifo, rfl⟩

theorem step_long (hq : e.Quiet) (hf : s.st.fifo = f.bytes ++ wire todo) (hlong : ¬f.Fits)
    (hs : recvStep s e = some s') : s'.st.fifo = (f.bytes ++ wire todo).drop cywF2Blksize := by
  obtain ⟨t, ht, hfifo⟩ := recv_long hq hf hlong
  simp only [recvStep, ht, Option.some.injEq] at hs
  subst hs
  exact hfifo

/-- As long as the frames fit, a call receives the next one. -/
theorem inSync_step (hall : ∀ f ∈ fs, f.Fits) (hi : InSync fs s) (hq : e.Quiet) (hs : recvStep s e = some s') :
    InSync fs s' := by
  obtain ⟨done, todo, rfl, hfifo, hgot⟩ := hi
  cases todo with
  | nil =>
    obtain ⟨hfifo', hgot'⟩ := step_empty hq hfifo hs
    exact ⟨done, [], rfl, hfifo', by rw [hgot', hgot]⟩
  | cons f todo =>
    have hfit : f.Fits := hall f (by simp)
    obtain ⟨hfifo', hgot'⟩ := step_fits hq hfifo hfit hs
    refine ⟨done ++ [f], todo, by simp, hfifo', ?_⟩
    rw [hgot', hgot]
    simp [hfit]

/-- After as many calls as there are frames that fit before the others, or after more if there are no others. -/
theorem run_fits (hpre : ∀ f ∈ pre, f.Fits) (hlen : as.length ≤ pre.length ∨ todo = [])
    (hfifo : s.st.fifo = wire (pre ++ todo)) (hq : AllSteps recvStep QuietCall s as)
    (hr : run recvStep s as = some t) :
    t.st.fifo = wire (pre.drop as.length ++ todo) ∧
      t.got.map RxFrame.data = s.got.map RxFrame.data ++ (pre.take as.length).map WireFrame.data := by
  induction as generalizing s pre with
  | nil =>
    cases hr
    exact ⟨hfifo, by simp⟩
  | cons e as ih =>
    obtain ⟨s', hs, hr⟩ := run_cons_some.1 hr
    obtain ⟨hqe, hq⟩ := hq s' hs
    cases pre with
    | nil =>
      obtain rfl : todo = [] := by
        rcases hlen with hlen | hlen
        · cases hlen
        · exact hlen
      obtain ⟨hfifo', hgot'⟩ := step_empty hqe hfifo hs
      have hfifo' : s'.st.fifo = wire ([] ++ []) := hfifo'
      obtain ⟨h₁, h₂⟩ := ih hpre (.inr rfl) hfifo' hq hr
      exact ⟨by simpa using h₁, by simpa [hgot'] using h₂⟩
    | cons f pre =>
      obtain ⟨hfifo', hgot'⟩ := step_fits hqe hfifo (hpre f List.mem_cons_self) hs
      have hlen' : as.length ≤ pre.length ∨ todo = [] := hlen.imp_left Nat.le_of_succ_le_succ
      obtain ⟨h₁, h₂⟩ := ih (fun g hg => hpre g (List.mem_cons_of_mem f hg)) hlen' hfifo' hq hr
      exact ⟨h₁, by simp [h₂, hgot']⟩

theorem length_wire_append (xs ys : List WireFrame) :
    (wire (xs ++ ys)).length = (wire xs).length + (wire ys).length := by
  simp [wire]

/-- In the middle of a frame the FIFO is at no boundary. -/
theorem not_inSync_of_long (hlong : ¬f.Fits) (hfifo : s.st.fifo = (wire (f :: todo)).drop cywF2Blksize) :
    ¬InSync (pre ++ f :: todo) s := by
  rintro ⟨done, rest, hfs, hrest, -⟩
  have hlt : cywF2Blksize < f.bytes.length := by
    have h : cywSdpcmMaxFrame < f.flen.toNat := Nat.lt_of_not_le hlong
    have hle := le_f2Blocks f.flen.toNat
    rw [← f.padded] at hle
    simp only [cywSdpcmMaxFrame, cywF2Blksize] at h ⊢
    omega
  have hlen := congrArg List.length (hrest.symm.trans hfifo)
  have hcons : (wire (f :: todo)).length = f.bytes.length + (wire todo).length := by simp [wire]
  rw [List.length_drop, hcons] at hlen
  simp only [cywF2Blksize] at hlen hlt
  -- what is left starts at `f` or before, or behind it
  rcases List.append_eq_append_iff.1 hfs with ⟨xs, rfl, h⟩ | ⟨xs, rfl, h⟩
  · cases xs with
    | nil =>
      have hl := congrArg (fun l => (wire l).length) h
      simp only [List.nil_append, hcons] at hl
      omega
    | cons g xs =>
      rw [List.cons_append, List.cons.injEq] at h
      have hl := congrArg (fun l => (wire l).length) h.2
      simp only [length_wire_append] at hl
      omega
  · have hl := congrArg (fun l => (wire l).length) h
    simp only [length_wire_append, hcons] at hl
    omega

/-- A call that meets nothing special. -/
def quietCall : RecvEnv := ⟨none, 0, fun _ => 0, id⟩

theorem quiet_quietCall : quietCall.Quiet := ⟨rfl, rfl, fun _ => rfl⟩

theorem recvStep_some (s : RecvRun) (e : RecvEnv) : ∃ t, recvStep s e = some t := by
  unfold recvStep
  split <;> exact ⟨_, rfl⟩

theorem run_recv_some (as : List RecvEnv) : ∀ s : RecvRun, ∃ t, run recvStep s as = some t := by
  induction as with
  | nil => exact fun s => ⟨s, rfl⟩
  | cons e as ih =>
    intro s
    obtain ⟨s', hs⟩ := recvStep_some s e
    obtain ⟨t, ht⟩ := ih s'
    exact ⟨t, run_cons_some.2 ⟨s', hs, ht⟩⟩

/-- The frames before the first that does not fit are received, and the call after them leaves the FIFO inside it. -/
theorem exists_not_inSync (s : RecvState) (hlong : ¬∀ f ∈ fs, f.Fits) :
    ∃ as t, AllSteps recvStep QuietCall (recvStart s fs) as ∧ run recvStep (recvStart s fs) as = some t ∧
      ¬InSync fs t := by
  have hsplit := List.takeWhile_append_dropWhile (p := fun f : WireFrame => f.Fits) (l := fs)
  generalize hpre : fs.takeWhile (fun f : WireFrame => f.Fits) = pre at hsplit
  have hfits : ∀ f ∈ pre, f.Fits := by
    intro f hf
    rw [← hpre] at hf
    simpa using List.all_eq_true.1 (List.all_takeWhile (p := fun f : WireFrame => f.Fits) (l := fs)) f hf
  cases htodo : fs.dropWhile (fun f : WireFrame => f.Fits) with
  | nil =>
    rw [htodo, List.append_nil] at hsplit
    exact (hlong (hsplit ▸ hfits)).elim
  | cons f todo =>
    have hf : ¬f.Fits := by
      have h := List.head?_dropWhile_not (fun f : WireFrame => f.Fits) fs
      rw [htodo] at h
      simpa using h
    rw [htodo] at hsplit
    subst hsplit
    have hquiet : ∀ as, AllSteps recvStep QuietCall (recvStart s (pre ++ f :: todo)) (List.replicate as quietCall) := by
      intro n
      apply AllSteps.of_mem
      intro e he _
      obtain rfl := List.eq_of_mem_replicate he
      exact quiet_quietCall
    obtain ⟨t, ht⟩ := run_recv_some (List.replicate pre.length quietCall) (recvStart s (pre ++ f :: todo))
    obtain ⟨u, hu⟩ := recvStep_some t quietCall
    have hfifo := (run_fits hfits (.inl (by simp)) rfl (hquiet pre.length) ht).1
    rw [List.length_replicate, List.drop_length, List.nil_append] at hfifo
    refine ⟨List.replicate (pre.length + 1) quietCall, u, hquiet _, ?_, ?_⟩
    · rw [List.replicate_succ', run_append, ht]
      exact run_cons_some.2 ⟨u, hu, rfl⟩
    · exact not_inSync_of_long hf (step_long quiet_quietCall hfifo hf hu)

/-- **Framing holds exactly if every frame fits.** Over all calls of `cyw_sdpcm_recv_one` on a FIFO that holds the
frames, with data available and no read failing: after every call the FIFO stands at a frame boundary and the frames
before it that fit were returned, and after as many calls as there are frames all of them were, if and only if no frame
is longer than `CYW_SDPCM_MAX_FRAME`. -/
theorem recv_framing_iff (fs : List WireFrame) (s : RecvState) :
    (∀ as, AllSteps recvStep QuietCall (recvStart s fs) as →
      AllStates recvStep (InSync fs) (recvStart s fs) as ∧
        (fs.length ≤ as.length → ∀ t, run recvStep (recvStart s fs) as = some t → AllGot fs t)) ↔
      ∀ f ∈ fs, f.Fits := by
  constructor
  · intro h
    apply Classical.byContradiction
    intro hlong
    obtain ⟨as, t, hq, hr, ht⟩ := exists_not_inSync s hlong
    exact ht ((h as hq).1.last hr)
  · intro hall as hq
    refine ⟨?_, fun hlen t hr => ?_⟩
    · refine allStates_of (C := QuietCall) ?_ ⟨[], fs, rfl, rfl, rfl⟩ hq
      intro t e t' hi hqe hs
      exact inSync_step hall hi hqe hs
    · have hfifo : (recvStart s fs).st.fifo = wire (fs ++ []) := by simp [recvStart]
      have h := (run_fits hall (.inr rfl) hfifo hq hr).2
      have hfilter : fs.filter (·.Fits) = fs := List.filter_eq_self.2 fun f hf => by simpa using hall f hf
      simpa [AllGot, hfilter, recvStart, List.take_of_length_le hlen] using h

end Calls

/-! ## A frame too long -/

/-- A frame of 2049 bytes: the header, and zeros. -/
def longFrame : WireFrame where
  flen := 2049
  bytes := [0x01, 0x08, 0xfe, 0xf7] ++ List.replicate 2108 0
  lower := by decide
  upper := by decide
  len := rfl
  lenInv := rfl
  padded := by rw [List.length_append, List.length_replicate]; decide

/-- It is refused, and 2048 bytes of it stay in the FIFO. -/
theorem recv_framing_lost :
    ∃ t, run recvStep (recvStart ⟨[], fun _ => 0, 4, 0, 0, 0⟩ [longFrame]) [quietCall] = some t ∧
      t.st.fifo = List.replicate 2048 0 ∧ ¬InSync [longFrame] t := by
  obtain ⟨t, ht⟩ := recvStep_some (recvStart ⟨[], fun _ => 0, 4, 0, 0, 0⟩ [longFrame]) quietCall
  have hlong : ¬longFrame.Fits := Nat.not_le.2 (by decide : cywSdpcmMaxFrame < (2049 : UInt16).toNat)
  have hstart : (recvStart ⟨[], fun _ => 0, 4, 0, 0, 0⟩ [longFrame]).st.fifo = longFrame.bytes ++ wire [] := rfl
  have hfifo := step_long quiet_quietCall hstart hlong ht
  refine ⟨t, run_cons_some.2 ⟨t, ht, rfl⟩, hfifo.trans ?_, ?_⟩
  · simp [-List.reduceReplicate, longFrame, wire, cywF2Blksize, List.drop_replicate]
  · have hout : ¬InSync ([] ++ [longFrame]) t := not_inSync_of_long hlong (hfifo.trans (by simp [wire]))
    exact hout

end Cyw
