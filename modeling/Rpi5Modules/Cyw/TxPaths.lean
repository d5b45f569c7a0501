import Rpi5Modules.Cyw.CtrlResponse
import Rpi5Modules.Lib.Transition

/-!
# The three transmit paths, one after another

`cyw_fil_txrx` at boot (it polls F2 itself), `cyw_fil_txrx` at run time (the SDPCM task receives for it) and
`cyw_tx_data_frame`, each as one call from start to end. What the environment decides is an argument: the frames
received meanwhile, failed allocations, and the outcome of the F2 write.

Each path takes its sequence number before it writes and never gives it back: a call that reaches its F2 write
advances `sdpcm_tx_seq` by one, whatever the write returns, and any other call leaves it (`exec_spec`). So the numbers
handed to `cyw_f2_write_block` are consecutive over any mixture of calls, and those on the wire are if no write fails
(`tx_seq_consecutive`).
-/

namespace Cyw

open BufProg

/-! ## State -/

/-- A frame accepted by `cyw_sdpcm_recv_one`: its length and the receive buffer. -/
structure RxFrame where
  flen : UInt16
  buf : Nat → UInt8

/-- How `cyw_sdpcm_recv_one` ends: a non-zero error, or a frame. -/
abbrev Recv := Except Errno RxFrame

/-- The part of the softc the transmit paths share, the F2 writes so far (sequence byte and outcome), and the
payloads copied to callers by the runtime path. -/
structure TxState where
  sdpcmTxSeq : UInt8
  sdpcmRxMax : UInt8
  ioctlId : UInt16
  slot : IoctlSlot
  writes : List (UInt8 × Errno)
  copies : List (Nat × List UInt8)

/-- `(uint8_t)(sc->sdpcm_rx_max - sc->sdpcm_tx_seq)`. -/
def TxState.credits (s : TxState) : UInt8 := txCredits s.sdpcmRxMax s.sdpcmTxSeq

/-- The sequence bytes of the frames that reached the wire, in order. -/
def TxState.wire (s : TxState) : List UInt8 := (s.writes.filter fun w => w.2 = 0).map Prod.fst

/-- `cyw_f2_write_block` of a frame with this sequence byte, ending with `err`. -/
def TxState.f2Write (s : TxState) (seq : UInt8) (err : Errno) : TxState :=
  { s with writes := s.writes ++ [(seq, err)] }

/-- The credit update of `cyw_sdpcm_recv_one`. -/
def TxState.recvCredit (s : TxState) (f : RxFrame) : TxState :=
  { s with sdpcmRxMax := sdpcmCredit.result f.buf }

/-- What the SDPCM task does with a received frame: the credit update and, for a control frame, the delivery. -/
def TxState.taskFrame (s : TxState) (f : RxFrame) : TxState :=
  let s := s.recvCredit f
  if sdpcmChanFlags.result f.buf &&& 0x0f = cywSdpcmChanCtrl then
    let d := (cywSdpcmDeliverCtrl s.slot f.flen).result f.buf
    { s with slot := d.slot, copies := s.copies ++ d.copy.toList }
  else s

/-! ## `cyw_fil_txrx` at boot -/

/-- The drain loop, with `n` rounds left: the error it leaves with, if any. `recvs` are the outcomes of
`cyw_sdpcm_recv_one`, `EAGAIN` once they are used up. -/
def bootDrain : (n : Nat) → TxState → List Recv → Option Errno × TxState
  | 0, s, _ => (none, s)
  | n + 1, s, recvs =>
    if s.credits > 0 then (none, s)
    else
      match recvs.headD (.error eagain) with
      | .error e => if e ≠ eagain then (some e, s) else bootDrain n s recvs.tail
      | .ok f => bootDrain n (s.recvCredit f) recvs.tail

/-- The polling loop, with `n` rounds left: the error it ends with and what it copied into the caller's buffer. -/
def bootPoll (r : Req) (id : UInt16) : (n : Nat) → TxState → List Recv → (Errno × Option (List UInt8)) × TxState
  | 0, s, _ => ((etimedout, none), s)
  | n + 1, s, recvs =>
    match recvs.headD (.error eagain) with
    | .error e => if e = eagain then bootPoll r id n s recvs.tail else ((e, none), s)
    | .ok f =>
      match (cywFilTxrxPoll r id f.flen).result f.buf with
      | none => bootPoll r id n (s.recvCredit f) recvs.tail
      | some out => (out, s.recvCredit f)

/-- `cyw_fil_txrx` with `sdpcm_running` false. -/
def cywFilTxrxBoot (s : TxState) (r : Req) (drain : List Recv) (werr : Errno) (poll : List Recv) :
    (Errno × Option (List UInt8)) × TxState :=
  let id := s.ioctlId + 1
  let s := { s with ioctlId := id }
  let seq := s.sdpcmTxSeq
  match bootDrain 100 s drain with
  | (some e, s) => ((e, none), s)
  | (none, s) =>
    if s.credits = 0 then ((enobufs, none), s)
    else
      let s := { s with sdpcmTxSeq := s.sdpcmTxSeq + 1 }
      let s := s.f2Write seq werr
      if werr ≠ 0 then ((werr, none), s) else bootPoll r id 300 s poll

/-! ## `cyw_fil_txrx` at run time -/

/-- The credit wait, with `n` rounds left: the SDPCM task receives the frames of one list in each `DELAY`. -/
def runtimeWait : (n : Nat) → TxState → List (List RxFrame) → TxState
  | 0, s, _ => s
  | n + 1, s, arrivals =>
    if s.credits > 0 then s else runtimeWait n ((arrivals.headD []).foldl TxState.taskFrame s) arrivals.tail

/-- The slot a transaction sets up. -/
def ioctlArm (s : IoctlSlot) (r : Req) (id : UInt16) (buf : Nat) : IoctlSlot :=
  { s with
    ioctlWaiting := true
    ioctlWaitId := id
    ioctlRespBuf := if r.hasBuf then some buf else none
    ioctlRespBuflen := r.buflen
    ioctlGet := !r.isSet && r.hasBuf
    ioctlResult := etimedout }

/-- `cyw_fil_txrx` with `sdpcm_running` true: `arrivals` come in during the credit wait, `frames` after the write and
before the time is up. -/
def cywFilTxrxRuntime (s : TxState) (r : Req) (buf : Nat) (arrivals : List (List RxFrame)) (werr : Errno)
    (frames : List RxFrame) : Errno × TxState :=
  let id := s.ioctlId + 1
  let s := { s with ioctlId := id }
  let s := runtimeWait 200 s arrivals
  if s.credits = 0 then (enobufs, s)
  else
    let seq := s.sdpcmTxSeq
    let s := { s with sdpcmTxSeq := s.sdpcmTxSeq + 1, slot := ioctlArm s.slot r id buf }
    let s := s.f2Write seq werr
    if werr ≠ 0 then (werr, { s with slot := { s.slot with ioctlWaiting := false } })
    else
      let s := frames.foldl TxState.taskFrame s
      let s := { s with slot := { s.slot with ioctlWaiting := false } }
      (s.slot.ioctlResult, s)

/-! ## `cyw_tx_data_frame` -/

/-- `cyw_tx_data_frame(sc, m)`: the mbuf is one piece or `m_pullup` succeeds (`linear`), `malloc` succeeds
(`alloc`). -/
def cywTxDataFrame (s : TxState) (linear alloc : Bool) (werr : Errno) : Errno × TxState :=
  if !linear then (enobufs, s)
  else if s.credits = 0 then (enobufs, s)
  else if !alloc then (enobufs, s)
  else
    let seq := s.sdpcmTxSeq
    let s := { s with sdpcmTxSeq := s.sdpcmTxSeq + 1 }
    (werr, s.f2Write seq werr)

/-! ## Calls -/

/-- A call of one of the three paths, with what its environment does meanwhile. -/
inductive TxCall where
  | boot (r : Req) (drain : List Recv) (werr : Errno) (poll : List Recv)
  | runtime (r : Req) (buf : Nat) (arrivals : List (List RxFrame)) (werr : Errno) (frames : List RxFrame)
  | data (linear alloc : Bool) (werr : Errno)

/-- The outcome of the call's F2 write, should it come to it. -/
def TxCall.werr : TxCall → Errno
  | boot _ _ werr _ => werr
  | runtime _ _ _ werr _ => werr
  | data _ _ werr => werr

def TxCall.exec (s : TxState) : TxCall → TxState
  | boot r drain werr poll => (cywFilTxrxBoot s r drain werr poll).2
  | runtime r buf arrivals werr frames => (cywFilTxrxRuntime s r buf arrivals werr frames).2
  | data linear alloc werr => (cywTxDataFrame s linear alloc werr).2

/-! ## Receiving leaves the transmit side alone -/

/-- Same counter, same writes. -/
def SameTx (s t : TxState) : Prop := t.sdpcmTxSeq = s.sdpcmTxSeq ∧ t.writes = s.writes

theorem SameTx.rfl {s : TxState} : SameTx s s := ⟨Eq.refl _, Eq.refl _⟩

theorem SameTx.trans {s t u : TxState} (h : SameTx s t) (h' : SameTx t u) : SameTx s u :=
  ⟨h'.1.trans h.1, h'.2.trans h.2⟩

theorem sameTx_taskFrame (s : TxState) (f : RxFrame) : SameTx s (s.taskFrame f) := by
  unfold TxState.taskFrame
  dsimp only
  split
  · exact ⟨rfl, rfl⟩
  · exact ⟨rfl, rfl⟩

theorem sameTx_frames : ∀ (fs : List RxFrame) (s : TxState), SameTx s (fs.foldl TxState.taskFrame s)
  | [], _ => SameTx.rfl
  | f :: fs, s => (sameTx_taskFrame s f).trans (sameTx_frames fs _)

theorem sameTx_bootDrain : ∀ (n : Nat) (s : TxState) (recvs : List Recv), SameTx s (bootDrain n s recvs).2
  | 0, _, _ => SameTx.rfl
  | n + 1, s, recvs => by
    unfold bootDrain
    split
    · exact SameTx.rfl
    · cases recvs.headD (.error eagain) with
      | error e =>
        dsimp only
        split
        · exact SameTx.rfl
        · exact sameTx_bootDrain n s _
      | ok f =>
        have h : SameTx s (s.recvCredit f) := ⟨rfl, rfl⟩
        exact h.trans (sameTx_bootDrain n _ _)

theorem sameTx_bootPoll (r : Req) (id : UInt16) :
    ∀ (n : Nat) (s : TxState) (recvs : List Recv), SameTx s (bootPoll r id n s recvs).2
  | 0, _, _ => SameTx.rfl
  | n + 1, s, recvs => by
    unfold bootPoll
    cases recvs.headD (.error eagain) with
    | error e =>
      dsimp only
      split
      · exact sameTx_bootPoll r id n s _
      · exact SameTx.rfl
    | ok f =>
      have h : SameTx s (s.recvCredit f) := ⟨rfl, rfl⟩
      dsimp only
      cases (cywFilTxrxPoll r id f.flen).result f.buf with
      | none => exact h.trans (sameTx_bootPoll r id n _ _)
      | some out => exact h

theorem sameTx_runtimeWait : ∀ (n : Nat) (s : TxState) (arrivals : List (List RxFrame)),
    SameTx s (runtimeWait n s arrivals)
  | 0, _, _ => SameTx.rfl
  | n + 1, s, arrivals => by
    unfold runtimeWait
    split
    · exact SameTx.rfl
    · exact (sameTx_frames _ s).trans (sameTx_runtimeWait n _ _)

/-! ## One call -/

/-- The call took the number `s.sdpcmTxSeq` and handed it to the F2 write, which ended with `werr`. -/
def Transmitted (s t : TxState) (werr : Errno) : Prop :=
  t.sdpcmTxSeq = s.sdpcmTxSeq + 1 ∧ t.writes = s.writes ++ [(s.sdpcmTxSeq, werr)]

theorem boot_spec (s : TxState) (r : Req) (drain : List Recv) (werr : Errno) (poll : List Recv) :
    SameTx s (cywFilTxrxBoot s r drain werr poll).2 ∨ Transmitted s (cywFilTxrxBoot s r drain werr poll).2 werr := by
  have hd : SameTx s (bootDrain 100 { s with ioctlId := s.ioctlId + 1 } drain).2 :=
    sameTx_bootDrain 100 { s with ioctlId := s.ioctlId + 1 } drain
  unfold cywFilTxrxBoot
  dsimp only
  generalize bootDrain 100 { s with ioctlId := s.ioctlId + 1 } drain = d at hd
  obtain ⟨e, t⟩ := d
  cases e with
  | some e => exact .inl hd
  | none =>
    dsimp only at hd ⊢
    by_cases hc : t.credits = 0
    · rw [if_pos hc]
      exact .inl hd
    · rw [if_neg hc]
      have hw : Transmitted s (TxState.f2Write { t with sdpcmTxSeq := t.sdpcmTxSeq + 1 } s.sdpcmTxSeq werr) werr :=
        ⟨congrArg (· + 1) hd.1, congrArg (· ++ [(s.sdpcmTxSeq, werr)]) hd.2⟩
      apply Or.inr
      by_cases he : werr = 0
      · rw [if_neg (not_not_intro he)]
        have hp := sameTx_bootPoll r (s.ioctlId + 1) 300
          (TxState.f2Write { t with sdpcmTxSeq := t.sdpcmTxSeq + 1 } s.sdpcmTxSeq werr) poll
        exact ⟨hp.1.trans hw.1, hp.2.trans hw.2⟩
      · rw [if_pos he]
        exact hw

theorem runtime_spec (s : TxState) (r : Req) (buf : Nat) (arrivals : List (List RxFrame)) (werr : Errno)
    (frames : List RxFrame) :
    SameTx s (cywFilTxrxRuntime s r buf arrivals werr frames).2 ∨
      Transmitted s (cywFilTxrxRuntime s r buf arrivals werr frames).2 werr := by
  have ht : SameTx s (runtimeWait 200 { s with ioctlId := s.ioctlId + 1 } arrivals) :=
    sameTx_runtimeWait 200 { s with ioctlId := s.ioctlId + 1 } arrivals
  unfold cywFilTxrxRuntime
  dsimp only
  generalize runtimeWait 200 { s with ioctlId := s.ioctlId + 1 } arrivals = t at ht
  by_cases hc : t.credits = 0
  · rw [if_pos hc]
    exact .inl ht
  · rw [if_neg hc]
    apply Or.inr
    generalize ioctlArm t.slot r (s.ioctlId + 1) buf = armed
    have hw : Transmitted s
        (TxState.f2Write { t with sdpcmTxSeq := t.sdpcmTxSeq + 1, slot := armed } t.sdpcmTxSeq werr) werr := by
      refine ⟨congrArg (· + 1) ht.1, ?_⟩
      rw [← ht.1, ← ht.2]
      rfl
    by_cases he : werr = 0
    · rw [if_neg (not_not_intro he)]
      have hf := sameTx_frames frames
        (TxState.f2Write { t with sdpcmTxSeq := t.sdpcmTxSeq + 1, slot := armed } t.sdpcmTxSeq werr)
      exact ⟨hf.1.trans hw.1, hf.2.trans hw.2⟩
    · rw [if_pos he]
      exact hw

theorem data_spec (s : TxState) (linear alloc : Bool) (werr : Errno) :
    SameTx s (cywTxDataFrame s linear alloc werr).2 ∨ Transmitted s (cywTxDataFrame s linear alloc werr).2 werr := by
  unfold cywTxDataFrame
  split
  · exact .inl SameTx.rfl
  · split
    · exact .inl SameTx.rfl
    · split
      · exact .inl SameTx.rfl
      · exact .inr ⟨rfl, rfl⟩

/-- **One call**: it reaches its F2 write and takes the next number, or it does neither. -/
theorem exec_spec (s : TxState) (c : TxCall) : SameTx s (c.exec s) ∨ Transmitted s (c.exec s) c.werr := by
  cases c with
  | boot r drain werr poll => exact boot_spec s r drain werr poll
  | runtime r buf arrivals werr frames => exact runtime_spec s r buf arrivals werr frames
  | data linear alloc werr => exact data_spec s linear alloc werr

/-! ## Any mixture of calls -/

def txStep (s : TxState) (c : TxCall) : Option TxState := some (c.exec s)

/-- `n` consecutive sequence numbers, from `seq` on. -/
def seqRange (seq : UInt8) : (n : Nat) → List UInt8
  | 0 => []
  | n + 1 => seq :: seqRange (seq + 1) n

@[simp] theorem length_seqRange (seq : UInt8) (n : Nat) : (seqRange seq n).length = n := by
  induction n generalizing seq with
  | zero => rfl
  | succ n ih => simp [seqRange, ih]

/-- The call hands a frame to F2 exactly when it advances the counter, and then one frame, with the counter's value. -/
def AdvancesByWrite (s : TxState) (c : TxCall) : Prop :=
  (c.exec s).writes = s.writes ∧ (c.exec s).sdpcmTxSeq = s.sdpcmTxSeq ∨
    (c.exec s).writes = s.writes ++ [(s.sdpcmTxSeq, c.werr)] ∧ (c.exec s).sdpcmTxSeq = s.sdpcmTxSeq + 1

theorem exec_advancesByWrite (s : TxState) (c : TxCall) : AdvancesByWrite s c :=
  (exec_spec s c).imp And.symm And.symm

/-- The frames tried since `s` carry consecutive numbers, from the counter of `s` up to the counter after the calls. -/
theorem calls_tried : ∀ (calls : List TxCall) (s : TxState), ∃ tried : List (UInt8 × Errno),
    (calls.foldl TxCall.exec s).writes = s.writes ++ tried ∧
      tried.map Prod.fst = seqRange s.sdpcmTxSeq tried.length ∧
      (calls.foldl TxCall.exec s).sdpcmTxSeq = s.sdpcmTxSeq + UInt8.ofNat tried.length
  | [], s => ⟨[], by simp, rfl, by simp⟩
  | c :: calls, s => by
    obtain ⟨tried, hw, hm, hs⟩ := calls_tried calls (c.exec s)
    rw [List.foldl_cons]
    rcases exec_spec s c with hc | hc
    · exact ⟨tried, by rw [hw, hc.2], by rw [hm, hc.1], by rw [hs, hc.1]⟩
    · refine ⟨(s.sdpcmTxSeq, c.werr) :: tried, ?_, ?_, ?_⟩
      · rw [hw, hc.2, List.append_assoc, List.singleton_append]
      · rw [List.map_cons, hm, hc.1]
        rfl
      · rw [hs, hc.1, List.length_cons, UInt8.add_assoc, UInt8.ofNat_add, UInt8.add_comm 1]
        rfl

/-- **A sequence number is taken exactly when the F2 write is reached**, whether or not it succeeds: in any mixture of
calls each advances the counter by one if it hands a frame to F2 and leaves it otherwise, the numbers handed to F2 are
consecutive, the wire gets those whose write succeeded, and all of them if no write fails. -/
theorem tx_seq_consecutive (s : TxState) (calls : List TxCall) :
    Transition.AllSteps txStep AdvancesByWrite s calls ∧
      ∃ tried : List (UInt8 × Errno),
        (calls.foldl TxCall.exec s).writes = s.writes ++ tried ∧
        tried.map Prod.fst = seqRange s.sdpcmTxSeq tried.length ∧
        (calls.foldl TxCall.exec s).sdpcmTxSeq = s.sdpcmTxSeq + UInt8.ofNat tried.length ∧
        (calls.foldl TxCall.exec s).wire = s.wire ++ (tried.filter fun w => w.2 = 0).map Prod.fst ∧
        ((∀ w ∈ tried, w.2 = 0) →
          (calls.foldl TxCall.exec s).wire = s.wire ++ seqRange s.sdpcmTxSeq tried.length) := by
  refine ⟨Transition.AllSteps.of_forall exec_advancesByWrite s calls, ?_⟩
  obtain ⟨tried, hw, hm, hs⟩ := calls_tried calls s
  have hwire : (calls.foldl TxCall.exec s).wire = s.wire ++ (tried.filter fun w => w.2 = 0).map Prod.fst := by
    rw [TxState.wire, hw, List.filter_append, List.map_append]
    rfl
  refine ⟨tried, hw, hm, hs, hwire, fun hok => ?_⟩
  have hall : tried.filter (fun w => w.2 = 0) = tried := List.filter_eq_self.2 fun w hwm => by simp [hok w hwm]
  rw [hwire, hall, hm]

/-- No frame sent yet, ten credits. -/
def tenCredits : TxState := ⟨0, 10, 0, ⟨false, 0, none, 0, false, 0, 0⟩, [], []⟩

/-- On each path a failed write consumes a number, and the next frame leaves a gap on the wire. -/
theorem tx_seq_gap :
    ((TxCall.boot ⟨false, 0, 0⟩ [] eio []).exec tenCredits).sdpcmTxSeq = 1 ∧
      ((TxCall.runtime ⟨false, 0, 0⟩ 0 [] eio []).exec tenCredits).sdpcmTxSeq = 1 ∧
      ((TxCall.data true true eio).exec tenCredits).sdpcmTxSeq = 1 ∧
      ([TxCall.data true true 0, TxCall.data true true eio, TxCall.data true true 0].foldl TxCall.exec
        tenCredits).wire = [0, 2] :=
  ⟨rfl, rfl, rfl, rfl⟩

end Cyw
