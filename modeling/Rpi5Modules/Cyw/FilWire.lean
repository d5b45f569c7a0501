import Rpi5Modules.Cyw.Agree
import Rpi5Modules.Cyw.FilFrame

/-!
# Calls to the firmware

Every function of `cyw43455_fwil.c` that the rest of the driver calls is one `cyw_fil_txrx`: a command goes out in a
frame, and what comes back is the answer that bears its id. Before `cyw_sdpcm_attach` the call polls F2 itself, and
from then on it sleeps while the SDPCM task receives and delivers. Here the firmware is any function from commands to
answers.

- a call that gets its credit, its write and its answer in time returns what the firmware answered, on either path, and
  the firmware has executed the command once (`cywFilTxrx_served`);
- so a sequence of such calls, with data frames sent, frames received and the task attached and detached in between, is
  as if the firmware had been called directly (`fil_refines`), and a variable read is the variable last set
  (`int_get_last_set`).
-/

namespace Cyw

open BufProg

/-! ## One call -/

/-- What the polling loop has to know of a request. -/
def FilReq.req (r : FilReq) : Req := ⟨r.buf.isSome, r.buflen.toNat, r.bcdcFlags⟩

/-- The firmware: its answer to a command, a status or the bytes asked for, and what becomes of it. -/
abbrev Serve (σ : Type) := σ → Command → Except UInt32 (List UInt8) × σ

/-- The driver, with `sdpcm_running`, and the firmware. -/
structure FilSys (σ : Type) where
  drv : TxState
  running : Bool
  fw : σ

/-- What a call meets: what lies behind its frame, the address of its caller's buffer, and how its F2 write ends; at
boot what `cyw_sdpcm_recv_one` returns in its two loops; at run time what the SDPCM task receives in each `DELAY` of
the wait for a credit, and then from the write until the time is up. -/
structure FilEnv where
  heap : Nat → UInt8
  buf : Nat
  werr : Errno
  drain : List Recv
  polls : List Recv
  arrivals : List (List RxFrame)
  frames : List RxFrame

/-- What a call returns, and what is copied into its caller's buffer. -/
abbrev FilOut := Errno × List (List UInt8)

/-- `cyw_fil_txrx`, as far as the driver goes. -/
def filTransact {σ : Type} (r : FilReq) (e : FilEnv) (s : FilSys σ) : FilOut × TxState :=
  if s.running then
    let (err, drv) := cywFilTxrxRuntime s.drv r.req e.buf e.arrivals e.werr e.frames
    ((err, ((drv.copies.drop s.drv.copies.length).filter fun w => w.1 = e.buf).map Prod.snd), drv)
  else
    let (out, drv) := cywFilTxrxBoot s.drv r.req e.drain e.werr e.polls
    ((out.1, out.2.toList), drv)

/-- The frame a call hands to its F2 write. -/
def filFrame {σ : Type} (r : FilReq) (e : FilEnv) (s : FilSys σ) : TxFrame :=
  filTxrxFrame e.heap r (s.drv.ioctlId + 1) s.drv.sdpcmTxSeq

section Calls

variable {σ : Type} (serve : Serve σ)

/-- The firmware after it got a frame. -/
def fwReceive (fw : σ) (frame : TxFrame) : σ :=
  match readCommand.result frame.bytes with
  | none => fw
  | some (_, c) => (serve fw c).2

/-- `cyw_fil_txrx`, with the firmware at the other end of the wire. -/
def cywFilTxrx (r : FilReq) (e : FilEnv) (s : FilSys σ) : FilOut × FilSys σ :=
  let (out, drv) := filTransact r e s
  -- the frame is on the wire if its sequence number is
  if s.drv.wire.length < drv.wire.length then (out, ⟨drv, s.running, fwReceive serve s.fw (filFrame r e s)⟩)
  else (out, ⟨drv, s.running, s.fw⟩)

/-- What the call returns, and the bytes for its caller's buffer, when this is the answer. -/
def FilReq.answered (r : FilReq) : Except UInt32 (List UInt8) → Errno × Option (List UInt8)
  | .error _ => (eio, none)
  | .ok data => (0, if r.buf.isSome && !r.isSet then some (data.take r.buflen.toNat) else none)

/-- The same, as the call does it. -/
def FilReq.told (r : FilReq) (a : Except UInt32 (List UInt8)) : FilOut := ((r.answered a).1, (r.answered a).2.toList)

/-- The frame is the answer to the command with this id. -/
structure Replies (f : RxFrame) (id : UInt16) (a : Except UInt32 (List UInt8)) : Prop where
  bears : f.Bears id
  inside : f.Inside
  answer : match a with
    | .error status => f.IsError ∧ (bcdcStatus f.bch).result f.buf = status
    | .ok data => ¬f.IsError ∧
      (bytes (f.bch + cywBcdcHdrLen) (f.flen.toNat - (f.bch + cywBcdcHdrLen))).result f.buf = data

/-- The frames that come back while a call looks for its answer. -/
def FilEnv.heard (e : FilEnv) (running : Bool) : List RxFrame :=
  if running then e.frames else received (e.polls.take 300)

/-- There is a credit, or the drain loop receives one. -/
def Granted (rounds : Nat) (s : TxState) (drain : List Recv) : Prop :=
  ∃ k ≤ rounds, (∀ err, .error err ∈ drain.take k → err = eagain) ∧
    ((received (drain.take k)).foldl TxState.recvCredit s).credits > 0

/-- There is a credit, or the SDPCM task receives one in the wait. -/
def GrantedTask (rounds : Nat) (s : TxState) (arrivals : List (List RxFrame)) : Prop :=
  ∃ k ≤ rounds, ((arrivals.take k).flatten.foldl TxState.recvCredit s).credits > 0

/-- The call gets its credit, its write and, in time, the firmware's answer to the command that the firmware reads in
its frame; other frames come before and after it. -/
structure Served (r : FilReq) (e : FilEnv) (s : FilSys σ) : Prop where
  granted : if s.running then GrantedTask 200 s.drv e.arrivals else Granted 100 s.drv e.drain
  write : e.werr = 0
  quiet : s.running = false → ∀ err, .error err ∈ e.polls → err = eagain
  reply : ∃ id c before f after, readCommand.result (filFrame r e s).bytes = some (id, c) ∧
    e.heard s.running = before ++ f :: after ∧ (∀ g ∈ before, ¬g.Bears id) ∧ Replies f id (serve s.fw c).1

variable {serve} {r : FilReq} {e : FilEnv} {s : FilSys σ}

/-- The drain loop ends with a credit, and has touched nothing else. -/
theorem bootDrain_granted {n : Nat} {d : TxState} {drain : List Recv} (h : Granted n d drain) :
    ∃ d', bootDrain n d drain = (none, d') ∧ d'.credits > 0 ∧ d'.ioctlId = d.ioctlId := by
  induction n generalizing d drain with
  | zero =>
    obtain ⟨k, hk, -, hc⟩ := h
    obtain rfl : k = 0 := Nat.le_zero.1 hk
    exact ⟨d, rfl, hc, rfl⟩
  | succ n ih =>
    by_cases hc : d.credits > 0
    · refine ⟨d, ?_, hc, rfl⟩
      unfold bootDrain
      exact if_pos hc
    · obtain ⟨k, hk, herr, hcred⟩ := h
      cases k with
      | zero => exact absurd hcred hc
      | succ k =>
        unfold bootDrain
        rw [if_neg hc]
        cases drain with
        | nil => exact ih ⟨0, Nat.zero_le n, fun _ h => absurd h List.not_mem_nil, hcred⟩
        | cons o drain =>
          rw [List.take_succ_cons] at herr hcred
          have hrest : ∀ err, .error err ∈ drain.take k → err = eagain :=
            fun err h => herr err (List.mem_cons_of_mem o h)
          cases o with
          | error err =>
            obtain rfl : err = eagain := herr err List.mem_cons_self
            exact ih ⟨k, Nat.le_of_succ_le_succ hk, hrest, hcred⟩
          | ok f => exact ih ⟨k, Nat.le_of_succ_le_succ hk, hrest, hcred⟩

/-- The answer is what the call returns. -/
theorem Replies.outcome {f : RxFrame} {id : UInt16} {a : Except UInt32 (List UInt8)} (h : Replies f id a) :
    answerOutcome r.req f = r.answered a := by
  have hin := h.inside
  have hans := h.answer
  rw [answerOutcome]
  cases a with
  | error status =>
    rw [if_pos hans.1]
    rfl
  | ok data =>
    have hlt := f.flen.toNat_lt
    have htake : ∀ n off len : Nat, (bytes off (min n len)).result f.buf = ((bytes off len).result f.buf).take n := by
      intro n off len
      rw [result_bytes, result_bytes, ← List.map_take]
      rcases Nat.le_total n len with hn | hn
      · rw [Nat.min_eq_left hn, List.take_range'_of_length_ge hn]
      · rw [Nat.min_eq_right hn, List.take_range'_of_length_le hn]
    have hget : (r.req.hasBuf && !r.req.isSet) = (r.buf.isSome && !r.isSet) := rfl
    rw [if_neg hans.1, ptrDiff_of_le hin (by omega), htake, hans.2, hget, FilReq.answered]
    cases r.buf.isSome && !r.isSet <;> rfl

/-- The frames that bear another id are passed over. -/
theorem firstOutcome_reply {q : Req} {id : UInt16} {fs gs : List RxFrame} {f : RxFrame}
    (hfs : ∀ g ∈ fs, ¬g.Bears id) (hf : f.Bears id) :
    firstOutcome q id (fs ++ f :: gs) = answerOutcome q f := by
  induction fs with
  | nil => rw [List.nil_append, firstOutcome_cons, outcome_of_bears hf, Option.getD_some]
  | cons g fs ih =>
    rw [List.cons_append, firstOutcome_cons, outcome_of_not_bears (hfs g List.mem_cons_self), Option.getD_none]
    exact ih fun g hg => hfs g (List.mem_cons_of_mem _ hg)

/-- The credits a receiver finds depend on the two numbers only. -/
theorem credits_foldl (fs : List RxFrame) {d d' : TxState} (hrx : d.sdpcmRxMax = d'.sdpcmRxMax)
    (hseq : d.sdpcmTxSeq = d'.sdpcmTxSeq) :
    (fs.foldl TxState.recvCredit d).credits = (fs.foldl TxState.recvCredit d').credits := by
  induction fs generalizing d d' with
  | nil => rw [List.foldl_nil, List.foldl_nil, TxState.credits, TxState.credits, hrx, hseq]
  | cons f fs ih => exact ih rfl hseq

/-- The call takes its sequence number to the wire and goes on with its polls. -/
theorem cywFilTxrxBoot_granted {d : TxState} {q : Req} {drain polls : List Recv} (hg : Granted 100 d drain)
    (hp : ∀ err, .error err ∈ polls → err = eagain) :
    (cywFilTxrxBoot d q drain 0 polls).1 = firstOutcome q (d.ioctlId + 1) (received (polls.take 300)) ∧
      d.wire.length < (cywFilTxrxBoot d q drain 0 polls).2.wire.length := by
  have hg' : Granted 100 { d with ioctlId := d.ioctlId + 1 } drain := by
    obtain ⟨k, hk, herr, hc⟩ := hg
    have hcred : ((received (drain.take k)).foldl TxState.recvCredit d).credits =
        ((received (drain.take k)).foldl TxState.recvCredit { d with ioctlId := d.ioctlId + 1 }).credits :=
      credits_foldl _ rfl rfl
    exact ⟨k, hk, herr, hcred ▸ hc⟩
  obtain ⟨d', hd, hc, hid⟩ := bootDrain_granted hg'
  have hsame := sameTx_bootDrain 100 { d with ioctlId := d.ioctlId + 1 } drain
  rw [hd] at hsame
  have hne : ¬d'.credits = 0 := fun h => absurd (h ▸ hc) (by decide)
  have hpoll := sameTx_bootPoll q (d.ioctlId + 1) 300
    (TxState.f2Write { d' with sdpcmTxSeq := d'.sdpcmTxSeq + 1 } d.sdpcmTxSeq 0) polls
  have heq : cywFilTxrxBoot d q drain 0 polls = bootPoll q (d.ioctlId + 1) 300
      (TxState.f2Write { d' with sdpcmTxSeq := d'.sdpcmTxSeq + 1 } d.sdpcmTxSeq 0) polls := by
    unfold cywFilTxrxBoot
    dsimp only
    rw [hd]
    dsimp only
    rw [if_neg hne, if_neg (not_not_intro rfl)]
  rw [heq]
  refine ⟨bootPoll_spec q (d.ioctlId + 1) hp 300 _, ?_⟩
  rw [TxState.wire, TxState.wire, hpoll.2, TxState.f2Write, show d'.writes = d.writes from hsame.2]
  simp

end Calls

/-! ## The wait of a call at run time -/

section Task

variable {d : TxState}

/-- With nobody waiting, the task takes from a frame its credit alone. -/
theorem taskFrame_idle (h : d.slot.ioctlWaiting = false) (f : RxFrame) : d.taskFrame f = d.recvCredit f := by
  unfold TxState.taskFrame
  dsimp only
  split
  · rw [delivery_not_waiting (show (d.recvCredit f).slot.ioctlWaiting = false from h)]
    simp [Delivery.none, TxState.recvCredit]
  · rfl

theorem foldl_taskFrame_idle (h : d.slot.ioctlWaiting = false) (fs : List RxFrame) :
    fs.foldl TxState.taskFrame d = fs.foldl TxState.recvCredit d := by
  induction fs generalizing d with
  | nil => rfl
  | cons f fs ih =>
    rw [List.foldl_cons, List.foldl_cons, taskFrame_idle h]
    exact ih h

/-- Credits change one number. -/
theorem foldl_recvCredit (d : TxState) (fs : List RxFrame) :
    fs.foldl TxState.recvCredit d = { d with sdpcmRxMax := (fs.foldl TxState.recvCredit d).sdpcmRxMax } := by
  induction fs generalizing d with
  | nil => rfl
  | cons f fs ih =>
    rw [List.foldl_cons, ih]
    rfl

/-- The wait for a credit changes one number, and finds a credit that comes in time. -/
theorem runtimeWait_idle (h : d.slot.ioctlWaiting = false) (n : Nat) (arrivals : List (List RxFrame)) :
    ∃ m, runtimeWait n d arrivals = { d with sdpcmRxMax := m } ∧
      (GrantedTask n d arrivals → (runtimeWait n d arrivals).credits > 0) := by
  induction n generalizing d arrivals with
  | zero =>
    refine ⟨d.sdpcmRxMax, rfl, ?_⟩
    rintro ⟨k, hk, hc⟩
    obtain rfl : k = 0 := Nat.le_zero.1 hk
    exact hc
  | succ n ih =>
    unfold runtimeWait
    by_cases hc : d.credits > 0
    · rw [if_pos hc]
      exact ⟨d.sdpcmRxMax, rfl, fun _ => hc⟩
    · rw [if_neg hc, foldl_taskFrame_idle h]
      have hfold := foldl_recvCredit d (arrivals.headD [])
      obtain ⟨m, hm, hcred⟩ := ih (d := (arrivals.headD []).foldl TxState.recvCredit d)
        (by rw [hfold]; exact h) arrivals.tail
      refine ⟨m, hm.trans (by rw [hfold]), fun hg => hcred ?_⟩
      obtain ⟨k, hk, hcr⟩ := hg
      cases k with
      | zero => exact absurd hcr hc
      | succ k =>
        refine ⟨k, Nat.le_of_succ_le_succ hk, ?_⟩
        cases arrivals with
        | nil => simpa using hcr
        | cons a arrivals =>
          rw [List.take_succ_cons, List.flatten_cons, List.foldl_append] at hcr
          exact hcr

/-- A frame that does not bear the id waited for brings its credit alone. -/
theorem taskFrame_other {f : RxFrame} (h : ¬f.Bears d.slot.ioctlWaitId) : d.taskFrame f = d.recvCredit f := by
  unfold TxState.taskFrame
  dsimp only
  split
  · next hc =>
    have hdel : (cywSdpcmDeliverCtrl (d.recvCredit f).slot f.flen).result f.buf = .none (d.recvCredit f).slot :=
      delivery_ignored hc fun _ => h
    rw [hdel]
    simp [Delivery.none, TxState.recvCredit]
  · rfl

/-- The call waits for its answer, hears it, and is done. -/
theorem foldl_taskFrame_answer {c : Call} (hw : d.slot.ioctlWaiting = true) (hs : SlotOf d.slot c)
    {before : List RxFrame} {f : RxFrame} (hb : ∀ g ∈ before, ¬g.Bears c.id) (hf : f.Bears c.id)
    (after : List RxFrame) :
    ∃ d' : TxState, (before ++ f :: after).foldl TxState.taskFrame d = d' ∧ d'.writes = d.writes ∧
      d'.slot.ioctlWaiting = false ∧ d'.slot.ioctlResult = (answerOutcome c.req f).1 ∧
      d'.copies = d.copies ++ ((answerOutcome c.req f).2.map (Prod.mk c.buf)).toList := by
  induction before generalizing d with
  | nil =>
    obtain ⟨status, hdel⟩ := delivery_answer hw hs hf
    have hframe : d.taskFrame f = { d.recvCredit f with
        slot := { d.slot with
          ioctlFwStatus := status, ioctlResult := (answerOutcome c.req f).1, ioctlWaiting := false }
        copies := d.copies ++ ((answerOutcome c.req f).2.map (Prod.mk c.buf)).toList } := by
      unfold TxState.taskFrame
      dsimp only
      rw [if_pos (show sdpcmChanFlags.result f.buf &&& 0x0f = cywSdpcmChanCtrl from hf.ctrl),
        show (d.recvCredit f).slot = d.slot from rfl, hdel]
      rfl
    rw [List.nil_append, List.foldl_cons, hframe, foldl_taskFrame_idle rfl, foldl_recvCredit]
    exact ⟨_, rfl, rfl, rfl, rfl, rfl⟩
  | cons g before ih =>
    have hg : ¬g.Bears d.slot.ioctlWaitId := hs.id ▸ hb g List.mem_cons_self
    rw [List.cons_append, List.foldl_cons, taskFrame_other hg]
    exact ih (d := d.recvCredit g) hw hs fun g hg => hb g (List.mem_cons_of_mem _ hg)

end Task

/-! ## A served call -/

section Idle

variable {d : TxState} {q : Req}

theorem slot_bootDrain (n : Nat) (d : TxState) (recvs : List Recv) : (bootDrain n d recvs).2.slot = d.slot := by
  induction n generalizing d recvs with
  | zero => rfl
  | succ n ih =>
    unfold bootDrain
    split
    · rfl
    · cases recvs.headD (.error eagain) with
      | error e =>
        dsimp only
        split
        · rfl
        · exact ih _ _
      | ok f => exact ih _ _

theorem slot_bootPoll (q : Req) (id : UInt16) (n : Nat) (d : TxState) (recvs : List Recv) :
    (bootPoll q id n d recvs).2.slot = d.slot := by
  induction n generalizing d recvs with
  | zero => rfl
  | succ n ih =>
    unfold bootPoll
    cases recvs.headD (.error eagain) with
    | error e =>
      dsimp only
      split
      · exact ih _ _
      · rfl
    | ok f =>
      dsimp only
      cases (cywFilTxrxPoll q id f.flen).result f.buf with
      | none => exact ih _ _
      | some out => rfl

/-- At boot nobody touches the slot. -/
theorem slot_boot (d : TxState) (q : Req) (drain : List Recv) (werr : Errno) (polls : List Recv) :
    (cywFilTxrxBoot d q drain werr polls).2.slot = d.slot := by
  have hd := slot_bootDrain 100 { d with ioctlId := d.ioctlId + 1 } drain
  unfold cywFilTxrxBoot
  dsimp only
  generalize bootDrain 100 { d with ioctlId := d.ioctlId + 1 } drain = r at hd
  obtain ⟨err, d'⟩ := r
  cases err with
  | some err => exact hd
  | none =>
    dsimp only at hd ⊢
    split
    · exact hd
    · split
      · exact hd
      · exact (slot_bootPoll _ _ _ _ _).trans hd

/-- A call leaves nobody waiting. -/
theorem runtime_idle (h : d.slot.ioctlWaiting = false) (q : Req) (buf : Nat) (arrivals : List (List RxFrame))
    (werr : Errno) (frames : List RxFrame) :
    (cywFilTxrxRuntime d q buf arrivals werr frames).2.slot.ioctlWaiting = false := by
  obtain ⟨m, hm, -⟩ := runtimeWait_idle (d := { d with ioctlId := d.ioctlId + 1 }) h 200 arrivals
  unfold cywFilTxrxRuntime
  dsimp only
  rw [hm]
  split
  · exact h
  · split <;> rfl

/-- The call takes its sequence number to the wire, and returns what the answer comes to. -/
theorem cywFilTxrxRuntime_granted (h : d.slot.ioctlWaiting = false) (q : Req) (buf : Nat)
    {arrivals : List (List RxFrame)} (hg : GrantedTask 200 d arrivals) {before : List RxFrame} {f : RxFrame}
    (hb : ∀ g ∈ before, ¬g.Bears (d.ioctlId + 1)) (hf : f.Bears (d.ioctlId + 1)) (after : List RxFrame) :
    ∃ drv, cywFilTxrxRuntime d q buf arrivals 0 (before ++ f :: after) = ((answerOutcome q f).1, drv) ∧
      drv.copies = d.copies ++ ((answerOutcome q f).2.map (Prod.mk buf)).toList ∧
      d.wire.length < drv.wire.length := by
  obtain ⟨m, hm, hcred⟩ := runtimeWait_idle (d := { d with ioctlId := d.ioctlId + 1 }) h 200 arrivals
  have hg' : GrantedTask 200 { d with ioctlId := d.ioctlId + 1 } arrivals := by
    obtain ⟨k, hk, hc⟩ := hg
    have hsame : ((arrivals.take k).flatten.foldl TxState.recvCredit d).credits =
        ((arrivals.take k).flatten.foldl TxState.recvCredit { d with ioctlId := d.ioctlId + 1 }).credits :=
      credits_foldl _ rfl rfl
    exact ⟨k, hk, hsame ▸ hc⟩
  have hc := hcred hg'
  rw [hm] at hc
  generalize hd' : ({ d with ioctlId := d.ioctlId + 1, sdpcmRxMax := m } : TxState) = d' at hm hc
  have hne : ¬d'.credits = 0 := fun h => absurd (h ▸ hc) (by decide)
  obtain ⟨drv, hfold, hwrites, -, hres, hcopies⟩ := foldl_taskFrame_answer (c := ⟨0, q, buf, d.ioctlId + 1⟩)
    (d := TxState.f2Write { d' with sdpcmTxSeq := d'.sdpcmTxSeq + 1, slot := ioctlArm d'.slot q (d.ioctlId + 1) buf }
      d'.sdpcmTxSeq 0) rfl ⟨rfl, rfl, rfl, rfl⟩ hb hf after
  refine ⟨{ drv with slot := { drv.slot with ioctlWaiting := false } }, ?_, ?_, ?_⟩
  · unfold cywFilTxrxRuntime
    dsimp only
    rw [hm]
    rw [if_neg hne, if_neg (not_not_intro rfl), hfold, hres]
  · rw [hcopies, ← hd']
    rfl
  · show d.wire.length < drv.wire.length
    rw [TxState.wire, TxState.wire, hwrites, ← hd', TxState.f2Write]
    simp

end Idle

section Served

variable {σ : Type} {serve : Serve σ} {r : FilReq} {e : FilEnv} {s : FilSys σ}

/-- On either path the call returns what the firmware answers, and its frame is on the wire. -/
theorem filTransact_served (hidle : s.drv.slot.ioctlWaiting = false) (hok : r.Ok) (h : Served serve r e s) :
    (filTransact r e s).1 = r.told (serve s.fw r.command).1 ∧
      s.drv.wire.length < (filTransact r e s).2.wire.length := by
  obtain ⟨id, c, before, f, after, hread, hheard, hnot, hrep⟩ := h.reply
  have hgranted := h.granted
  rw [filFrame, readCommand_filTxrxFrame e.heap _ _ hok] at hread
  obtain ⟨rfl, rfl⟩ := Prod.mk.inj (Option.some.inj hread)
  have hans := hrep.outcome (r := r)
  unfold filTransact
  rw [h.write, FilReq.told, ← hans]
  cases hrun : s.running with
  | true =>
    simp only [hrun, if_true, FilEnv.heard] at hgranted hheard ⊢
    rw [hheard]
    obtain ⟨drv, hdrv, hcopies, hwire⟩ := cywFilTxrxRuntime_granted hidle r.req e.buf hgranted hnot
      hrep.bears after
    rw [hdrv]
    refine ⟨?_, hwire⟩
    dsimp only
    rw [hcopies, List.drop_left]
    cases (answerOutcome r.req f).2 with
    | none => rfl
    | some bs => simp
  | false =>
    simp only [hrun, Bool.false_eq_true, if_false, FilEnv.heard] at hgranted hheard ⊢
    obtain ⟨hout, hwire⟩ := cywFilTxrxBoot_granted (q := r.req) hgranted (h.quiet hrun)
    rw [hheard, firstOutcome_reply hnot hrep.bears] at hout
    rw [hout]
    exact ⟨rfl, hwire⟩

/-- A call leaves nobody waiting and the task as it is. -/
theorem filTransact_idle (hidle : s.drv.slot.ioctlWaiting = false) (r : FilReq) (e : FilEnv) :
    (filTransact r e s).2.slot.ioctlWaiting = false := by
  unfold filTransact
  split
  · exact runtime_idle hidle _ _ _ _ _
  · exact (congrArg IoctlSlot.ioctlWaiting (slot_boot _ _ _ _ _)).trans hidle

/-- **One call**: what it returns is what the firmware answers, and the firmware has executed the command once. -/
theorem cywFilTxrx_served (hidle : s.drv.slot.ioctlWaiting = false) (hok : r.Ok) (h : Served serve r e s) :
    ∃ drv : TxState, drv.slot.ioctlWaiting = false ∧ cywFilTxrx serve r e s =
      (r.told (serve s.fw r.command).1, ⟨drv, s.running, (serve s.fw r.command).2⟩) := by
  obtain ⟨hout, hwire⟩ := filTransact_served hidle hok h
  have hfw : fwReceive serve s.fw (filFrame r e s) = (serve s.fw r.command).2 := by
    rw [fwReceive, filFrame, readCommand_filTxrxFrame e.heap _ _ hok]
  refine ⟨(filTransact r e s).2, filTransact_idle hidle r e, ?_⟩
  unfold cywFilTxrx
  dsimp only
  rw [if_pos hwire, hfw, hout]

end Served

/-! ## The calls of the driver -/

def wlcGetVar : UInt32 := 262

/-- `&val`, in little-endian. -/
def leBuf (val : UInt32) : Nat → UInt8 := storeAt (fun _ => 0) 0 (bytesLe32 val)

def cywFilIovarDataGet (name : List UInt8) (buf : Nat → UInt8) (len : UInt64) : FilReq :=
  ⟨wlcGetVar, 0, some name, some buf, len⟩

def cywFilBsscfgDataSet (name : List UInt8) (buf : Nat → UInt8) (len : UInt64) : FilReq :=
  cywFilIovarDataSet name buf len

def cywFilIovarIntGet (name : List UInt8) : FilReq := cywFilIovarDataGet name (leBuf 0) 4

def cywFilIovarIntSet (name : List UInt8) (val : UInt32) : FilReq := cywFilIovarDataSet name (leBuf val) 4

def cywFilBsscfgIntSet (name : List UInt8) (val : UInt32) : FilReq := cywFilBsscfgDataSet name (leBuf val) 4

def cywFilCmdDataGet (cmd : UInt32) (buf : Nat → UInt8) (len : UInt64) : FilReq := ⟨cmd, 0, none, some buf, len⟩

def cywFilCmdDataSet (cmd : UInt32) (buf : Nat → UInt8) (len : UInt64) : FilReq :=
  ⟨cmd, bcdcDcmdSet, none, some buf, len⟩

def cywFilCmdIntSet (cmd val : UInt32) : FilReq := cywFilCmdDataSet cmd (leBuf val) 4

inductive FilCall where
  | iovarDataGet (name : List UInt8) (buf : Nat → UInt8) (len : UInt64)
  | iovarDataSet (name : List UInt8) (buf : Nat → UInt8) (len : UInt64)
  | bsscfgDataSet (name : List UInt8) (buf : Nat → UInt8) (len : UInt64)
  | iovarIntGet (name : List UInt8)
  | iovarIntSet (name : List UInt8) (val : UInt32)
  | bsscfgIntSet (name : List UInt8) (val : UInt32)
  | cmdDataGet (cmd : UInt32) (buf : Nat → UInt8) (len : UInt64)
  | cmdDataSet (cmd : UInt32) (buf : Nat → UInt8) (len : UInt64)
  | cmdIntSet (cmd val : UInt32)

/-- What a call leaves its caller: the error, and the buffer or, if there is no error, the number. -/
inductive FilRet where
  | done (err : Errno)
  | data (err : Errno) (buf : List UInt8)
  | int (err : Errno) (val : Option UInt32)
deriving DecidableEq

/-- The caller's buffer of `len` bytes after the call. -/
def filled (buf : Nat → UInt8) (len : UInt64) (copies : List (List UInt8)) : List UInt8 :=
  (List.range len.toNat).map (contents buf copies)

namespace FilCall

def req : FilCall → FilReq
  | iovarDataGet name buf len => cywFilIovarDataGet name buf len
  | iovarDataSet name buf len => cywFilIovarDataSet name buf len
  | bsscfgDataSet name buf len => cywFilBsscfgDataSet name buf len
  | iovarIntGet name => cywFilIovarIntGet name
  | iovarIntSet name val => cywFilIovarIntSet name val
  | bsscfgIntSet name val => cywFilBsscfgIntSet name val
  | cmdDataGet cmd buf len => cywFilCmdDataGet cmd buf len
  | cmdDataSet cmd buf len => cywFilCmdDataSet cmd buf len
  | cmdIntSet cmd val => cywFilCmdIntSet cmd val

/-- What becomes of the error and the copies of `cyw_fil_txrx`. -/
def ret (c : FilCall) (out : FilOut) : FilRet :=
  match c with
  | iovarDataGet _ buf len => .data out.1 (filled buf len out.2)
  | cmdDataGet _ buf len => .data out.1 (filled buf len out.2)
  | iovarIntGet _ =>
    .int out.1 (if out.1 = 0 then some ((BufProg.le32 0).result (contents (leBuf 0) out.2)) else none)
  | _ => .done out.1

end FilCall

/-- What the driver does: a call, `cyw_sdpcm_attach` and `cyw_sdpcm_detach` as far as they concern the calls, a data
frame, and a pass of the SDPCM task between the calls. -/
inductive FilAct where
  | call (c : FilCall) (e : FilEnv)
  | sdpcmAttach
  | sdpcmDetach
  | data (linear alloc : Bool) (werr : Errno)
  | receive (frames : List RxFrame)

def FilAct.call? : FilAct → Option FilCall
  | .call c _ => some c
  | _ => none

section Runs

variable {σ : Type} (serve : Serve σ)

def filStep (a : FilAct) (s : FilSys σ) : Option FilRet × FilSys σ :=
  match a with
  | .call c e =>
    let (out, s) := cywFilTxrx serve c.req e s
    (some (c.ret out), s)
  | .sdpcmAttach => (none, { s with drv := { s.drv with sdpcmRxMax := 4 }, running := true })
  | .sdpcmDetach =>
    let slot :=
      if s.drv.slot.ioctlWaiting then { s.drv.slot with ioctlWaiting := false, ioctlResult := enxio } else s.drv.slot
    (none, { s with drv := { s.drv with slot := slot }, running := false })
  | .data linear alloc werr => (none, { s with drv := (cywTxDataFrame s.drv linear alloc werr).2 })
  | .receive frames => (none, { s with drv := frames.foldl TxState.taskFrame s.drv })

/-- A sequence of actions, with what the calls return. -/
def filRun : List FilAct → FilSys σ → List FilRet × FilSys σ
  | [], s => ([], s)
  | a :: as, s =>
    let (out, s) := filStep serve a s
    let (rets, s) := filRun as s
    (out.toList ++ rets, s)

/-- The calls, made to the firmware directly. -/
def directRun : List FilCall → σ → List FilRet × σ
  | [], fw => ([], fw)
  | c :: cs, fw =>
    let (a, fw) := serve fw c.req.command
    let (rets, fw) := directRun cs fw
    (c.ret (c.req.told a) :: rets, fw)

/-- A call is of a request that fits, and is served. -/
def FilAct.Fine (s : FilSys σ) : FilAct → Prop
  | .call c e => c.req.Ok ∧ Served serve c.req e s
  | _ => True

/-- Every call of the sequence is. -/
def AllServed : List FilAct → FilSys σ → Prop
  | [], _ => True
  | a :: as, s => a.Fine serve s ∧ AllServed as (filStep serve a s).2

variable {serve} {s : FilSys σ}

/-- What one action does to the firmware and returns: what the firmware does when called directly. -/
theorem filStep_fine {a : FilAct} (hidle : s.drv.slot.ioctlWaiting = false) (h : a.Fine serve s) :
    (filStep serve a s).2.drv.slot.ioctlWaiting = false ∧
      (filStep serve a s).1.toList = (directRun serve a.call?.toList s.fw).1 ∧
      (filStep serve a s).2.fw = (directRun serve a.call?.toList s.fw).2 := by
  cases a with
  | call c e =>
    obtain ⟨drv, hdrv, heq⟩ := cywFilTxrx_served hidle h.1 h.2
    simp only [filStep, heq]
    exact ⟨hdrv, rfl, rfl⟩
  | sdpcmAttach => exact ⟨hidle, rfl, rfl⟩
  | sdpcmDetach =>
    refine ⟨?_, rfl, rfl⟩
    simp only [filStep, hidle, Bool.false_eq_true, if_false]
  | data linear alloc werr =>
    refine ⟨?_, rfl, rfl⟩
    have hslot : (cywTxDataFrame s.drv linear alloc werr).2.slot = s.drv.slot := by
      unfold cywTxDataFrame
      split
      · rfl
      · split
        · rfl
        · split <;> rfl
    exact (congrArg IoctlSlot.ioctlWaiting hslot).trans hidle
  | receive frames =>
    refine ⟨?_, rfl, rfl⟩
    show (frames.foldl TxState.taskFrame s.drv).slot.ioctlWaiting = false
    rw [foldl_taskFrame_idle hidle, foldl_recvCredit]
    exact hidle

theorem directRun_append (cs ds : List FilCall) (fw : σ) :
    directRun serve (cs ++ ds) fw = ((directRun serve cs fw).1 ++ (directRun serve ds (directRun serve cs fw).2).1,
      (directRun serve ds (directRun serve cs fw).2).2) := by
  induction cs generalizing fw with
  | nil => rfl
  | cons c cs ih => simp only [List.cons_append, directRun, ih]

/-- **The wire is transparent**: a sequence of calls, each with its credit, its write and its answer in time, before
and after `cyw_sdpcm_attach` and with data frames and other frames in between, returns what the firmware answers to the
commands one after another, and leaves it as it would be had they been executed once each, in order, without a
driver. -/
theorem fil_refines (as : List FilAct) (s : FilSys σ) (hidle : s.drv.slot.ioctlWaiting = false)
    (h : AllServed serve as s) :
    (filRun serve as s).1 = (directRun serve (as.filterMap FilAct.call?) s.fw).1 ∧
      (filRun serve as s).2.fw = (directRun serve (as.filterMap FilAct.call?) s.fw).2 := by
  induction as generalizing s with
  | nil => exact ⟨rfl, rfl⟩
  | cons a as ih =>
    obtain ⟨hidle', hret, hfw⟩ := filStep_fine hidle h.1
    obtain ⟨hrets, hfws⟩ := ih _ hidle' h.2
    have hcalls : (a :: as).filterMap FilAct.call? = a.call?.toList ++ as.filterMap FilAct.call? := by
      rw [List.filterMap_cons]
      cases a.call? <;> rfl
    rw [hcalls, directRun_append, ← hret, ← hfw, ← hrets, ← hfws]
    exact ⟨rfl, rfl⟩

/-- A frame of 28 bytes and the data, an answer to the command with this id, that grants ten credits. -/
def answerFrame (id : UInt8) (data : List UInt8) : RxFrame :=
  ⟨UInt16.ofNat (28 + data.length), fun i =>
    if i = 7 then 12 else if i = 9 then 10 else if i = 22 then id else if i < 28 then 0 else data.getD (i - 28) 0⟩

/-- A call that gets the answer with its second poll, or with the first frame the task receives. -/
def answerEnv (id : UInt8) (data : List UInt8) : FilEnv where
  heap := fun _ => 0xde
  buf := 0
  werr := 0
  drain := []
  polls := [.error eagain, .ok (answerFrame id data)]
  arrivals := []
  frames := [answerFrame id data]

/-- `"mpc"`. -/
def mpc : List UInt8 := [0x6d, 0x70, 0x63]

/-- A firmware that counts what it is asked, and answers with the count. -/
def countServe : Serve UInt8 := fun n _ => (.ok [n + 1, 0, 0, 0], n + 1)

theorem ok_mpc_get : (cywFilIovarIntGet mpc).Ok where
  name := by simp [cywFilIovarIntGet, cywFilIovarDataGet, mpc]
  short := by decide
  flags := by decide

/-- The answer's id is in its flags, and nothing else is. -/
theorem flags_answerFrame (id : UInt8) (data : List UInt8) :
    (answerFrame id data).flags = 0 ||| id.toUInt16.toUInt32 <<< bcdcDcmdIdShift := by
  have hid := id.toNat_lt
  apply UInt32.toNat_inj.1
  rw [toNat_flagsWord id.toUInt16 (by decide), UInt8.toNat_toUInt16]
  show (0 + 256 * 0 + 65536 * id.toNat + 16777216 * 0) % 2 ^ 32 = id.toNat * 2 ^ 16 + 0
  omega

theorem replies_answerFrame (id : UInt8) {data : List UInt8} (hlen : data.length ≤ 100) :
    Replies (answerFrame id data) id.toUInt16 (.ok data) := by
  have hflen : (answerFrame id data).flen.toNat = 28 + data.length := by
    show (UInt16.ofNat (28 + data.length)).toNat = _
    rw [UInt16.toNat_ofNat']
    omega
  have hbch : (answerFrame id data).bch = 12 := rfl
  have hctrl : (answerFrame id data).Ctrl := show (0 : UInt8) &&& 0x0f = cywSdpcmChanCtrl by decide
  refine ⟨⟨hctrl, ?_, ?_⟩, ?_, ?_, ?_⟩
  · rw [hflen]
    exact Nat.le_add_right 28 _
  · rw [RxFrame.id, flags_answerFrame]
    exact bcdcId_flagsWord _ (by decide)
  · rw [RxFrame.Inside, hbch, hflen]
    exact Nat.le_add_right 28 _
  · rw [RxFrame.IsError, flags_answerFrame]
    intro h
    apply h
    apply UInt32.toNat_inj.1
    rw [UInt32.toNat_and, toNat_flagsWord _ (by decide)]
    show (id.toUInt16.toNat * 2 ^ 16 + 0) &&& 2 ^ 1 - 1 = 0
    rw [Nat.and_two_pow_sub_one_eq_mod]
    omega
  · rw [hbch, hflen]
    simp only [cywBcdcHdrLen, Nat.reduceAdd, Nat.add_sub_cancel_left, result_bytes]
    apply List.ext_getElem
    · simp
    · intro i _ hi
      rw [List.getElem_map, List.getElem_range', Nat.one_mul]
      simp only [answerFrame, show ¬28 + i = 7 by omega, show ¬28 + i = 9 by omega, show ¬28 + i = 22 by omega,
        show ¬28 + i < 28 by omega, if_false, Nat.add_sub_cancel_left]
      rw [List.getD_eq_getElem?_getD, List.getElem?_eq_getElem hi, Option.getD_some]

theorem served_answerEnv {r : FilReq} {id : UInt8} {data : List UInt8} (hok : r.Ok) (hc : s.drv.credits > 0)
    (hid : s.drv.ioctlId + 1 = id.toUInt16) (hlen : data.length ≤ 100) (ha : (serve s.fw r.command).1 = .ok data) :
    Served serve r (answerEnv id data) s where
  granted := by
    cases s.running
    · exact ⟨0, Nat.zero_le _, fun _ h => absurd h List.not_mem_nil, hc⟩
    · exact ⟨0, Nat.zero_le _, hc⟩
  write := rfl
  quiet := by simp [answerEnv]
  reply := by
    refine ⟨_, _, [], answerFrame id data, [], readCommand_filTxrxFrame _ _ _ hok, ?_, nofun, ?_⟩
    · cases s.running <;> rfl
    · rw [hid, ha]
      exact replies_answerFrame id hlen

/-- Two reads, counted: one before and one after `cyw_sdpcm_attach`. -/
theorem fil_refines_count :
    (filRun countServe [.call (.iovarIntGet mpc) (answerEnv 1 [1, 0, 0, 0]), .sdpcmAttach,
      .call (.iovarIntGet mpc) (answerEnv 2 [2, 0, 0, 0])] ⟨tenCredits, false, 0⟩).1 =
        [.int 0 (some 1), .int 0 (some 2)] ∧
    (filRun countServe [.call (.iovarIntGet mpc) (answerEnv 1 [1, 0, 0, 0]), .sdpcmAttach,
      .call (.iovarIntGet mpc) (answerEnv 2 [2, 0, 0, 0])] ⟨tenCredits, false, 0⟩).2.fw = 2 :=
  fil_refines _ _ rfl ⟨⟨ok_mpc_get, served_answerEnv ok_mpc_get (by decide) rfl (by decide) rfl⟩, trivial,
    ⟨ok_mpc_get, served_answerEnv ok_mpc_get (by decide) rfl (by decide) rfl⟩, trivial⟩

end Runs

/-! ## Variables -/

/-- The name in the payload of an IOVAR. -/
def varName (payload : List UInt8) : List UInt8 := payload.takeWhile (· != 0)

/-- What is behind the name and its NUL. -/
def varData (payload : List UInt8) : List UInt8 := (payload.dropWhile (· != 0)).tail

/-- The IOVARs and the other settings of the firmware. -/
structure Vars where
  vars : List UInt8 → Option (List UInt8)
  cmds : UInt32 → Option (List UInt8)

/-- The status of a command the firmware does not know. -/
def bcmeUnsupported : UInt32 := 0xffffffe9

/-- A firmware that keeps what is set, and answers with as much of it as there is room for. -/
def Vars.serve : Serve Vars := fun v c =>
  let read (x : Option (List UInt8)) (room : Nat) : Except UInt32 (List UInt8) :=
    match x with
    | none => .error bcmeUnsupported
    | some x => .ok (x.take room)
  match c.set with
  | false =>
    if c.cmd = wlcGetVar then (read (v.vars (varName c.payload)) (varData c.payload).length, v)
    else (read (v.cmds c.cmd) c.payload.length, v)
  | true =>
    if c.cmd = wlcSetVar then
      (.ok [], { v with vars := Function.update v.vars (varName c.payload) (some (varData c.payload)) })
    else (.ok [], { v with cmds := Function.update v.cmds c.cmd (some c.payload) })

/-- The command sets the variable. -/
def Command.Sets (c : Command) (name : List UInt8) : Prop :=
  c.set = true ∧ c.cmd = wlcSetVar ∧ varName c.payload = name

section Vars

variable {v : Vars} {c : Command} {name : List UInt8} {s : FilSys Vars}

/-- A variable keeps its value as long as it is not set. -/
theorem Vars.serve_keeps (h : ¬c.Sets name) : (Vars.serve v c).2.vars name = v.vars name := by
  unfold Vars.serve
  cases hset : c.set with
  | false =>
    dsimp only
    split <;> rfl
  | true =>
    dsimp only
    split
    · next hcmd => exact Function.update_of_ne (fun hn => h ⟨hset, hcmd, hn.symm⟩) _ _
    · rfl

theorem varName_append {data : List UInt8} (h : 0 ∉ name) : varName (name ++ 0 :: data) = name := by
  have hne : ∀ x ∈ name, (x != 0) = true := fun x hx => bne_iff_ne.2 fun h0 => h (h0 ▸ hx)
  unfold varName
  rw [List.takeWhile_append_of_pos hne]
  simp

theorem varData_append {data : List UInt8} (h : 0 ∉ name) : varData (name ++ 0 :: data) = data := by
  have hne : ∀ x ∈ name, (x != 0) = true := fun x hx => bne_iff_ne.2 fun h0 => h (h0 ▸ hx)
  unfold varData
  rw [List.dropWhile_append_of_pos hne]
  simp

theorem filRun_append (serve : Serve Vars) (as bs : List FilAct) (s : FilSys Vars) :
    filRun serve (as ++ bs) s = ((filRun serve as s).1 ++ (filRun serve bs (filRun serve as s).2).1,
      (filRun serve bs (filRun serve as s).2).2) := by
  induction as generalizing s with
  | nil => rfl
  | cons a as ih => simp only [List.cons_append, filRun, ih, List.append_assoc]

theorem allServed_append {serve : Serve Vars} {as bs : List FilAct} :
    AllServed serve (as ++ bs) s ↔ AllServed serve as s ∧ AllServed serve bs (filRun serve as s).2 := by
  induction as generalizing s with
  | nil => exact (true_and _).to_iff.symm
  | cons a as ih => simp only [List.cons_append, AllServed, filRun, ih, and_assoc]

/-- The slot stays idle. -/
theorem filRun_idle {as : List FilAct} (hidle : s.drv.slot.ioctlWaiting = false) (h : AllServed Vars.serve as s) :
    (filRun Vars.serve as s).2.drv.slot.ioctlWaiting = false := by
  induction as generalizing s with
  | nil => exact hidle
  | cons a as ih => exact ih (filStep_fine hidle h.1).1 h.2

/-- The action does not set the variable. -/
def FilAct.Spares (name : List UInt8) (a : FilAct) : Prop := ∀ c ∈ a.call?, ¬c.req.command.Sets name

/-- Actions that do not set the variable leave it. -/
theorem filRun_keeps {as : List FilAct} (hidle : s.drv.slot.ioctlWaiting = false) (h : AllServed Vars.serve as s)
    (hno : ∀ a ∈ as, a.Spares name) : (filRun Vars.serve as s).2.fw.vars name = s.fw.vars name := by
  induction as generalizing s with
  | nil => rfl
  | cons a as ih =>
    obtain ⟨hidle', -, hfw⟩ := filStep_fine hidle h.1
    have hih := ih hidle' h.2 fun a ha => hno a (List.mem_cons_of_mem _ ha)
    have hspares := hno a List.mem_cons_self
    have hkeep : (directRun Vars.serve a.call?.toList s.fw).2.vars name = s.fw.vars name := by
      unfold FilAct.Spares at hspares
      cases hc : a.call? with
      | none => rfl
      | some c => exact Vars.serve_keeps (hspares c hc)
    exact hih.trans ((congrArg (Vars.vars · name) hfw).trans hkeep)

theorem command_intSet (name : List UInt8) (val : UInt32) :
    (cywFilIovarDataSet name (leBuf val) 4).command = ⟨wlcSetVar, true, name ++ 0 :: bytesLe32 val⟩ := by
  have hset : (cywFilIovarDataSet name (leBuf val) 4).isSet = true := by
    show (bcdcDcmdSet &&& bcdcDcmdSet != 0) = true
    decide
  unfold FilReq.command FilReq.data
  rw [hset]
  exact congrArg (Command.mk wlcSetVar true) (List.append_assoc name [0] (bytesLe32 val))

theorem isSet_intGet (name : List UInt8) : (cywFilIovarIntGet name).isSet = false := by
  show (0 &&& bcdcDcmdSet != 0) = false
  decide

theorem command_intGet (name : List UInt8) :
    (cywFilIovarIntGet name).command = ⟨wlcGetVar, false, name ++ 0 :: List.replicate 4 0⟩ := by
  unfold FilReq.command FilReq.data
  rw [isSet_intGet]
  exact congrArg (Command.mk wlcGetVar false) (List.append_assoc name [0] (List.replicate 4 0))

/-- The two calls that set a variable to a number. -/
def FilCall.IntSet (name : List UInt8) (val : UInt32) (c : FilCall) : Prop :=
  c = .iovarIntSet name val ∨ c = .bsscfgIntSet name val

theorem serve_intSet {c : FilCall} {val : UInt32} (h : c.IntSet name val) (hok : c.req.Ok) (v : Vars) :
    (Vars.serve v c.req.command).2.vars name = some (bytesLe32 val) := by
  have hreq : c.req = cywFilIovarDataSet name (leBuf val) 4 := by rcases h with rfl | rfl <;> rfl
  rw [hreq] at hok ⊢
  have hname : 0 ∉ name := hok.name name rfl
  rw [command_intSet]
  simp [Vars.serve, varName_append hname, varData_append hname]

theorem serve_intGet {val : UInt32} (hok : (cywFilIovarIntGet name).Ok) (hv : v.vars name = some (bytesLe32 val)) :
    (Vars.serve v (cywFilIovarIntGet name).command).1 = .ok (bytesLe32 val) := by
  have hname : 0 ∉ name := hok.name name rfl
  rw [command_intGet]
  simp only [Vars.serve, if_true, varName_append hname, varData_append hname, hv]
  rfl

/-- The number of an answer. -/
theorem ret_intGet (name : List UInt8) (val : UInt32) :
    (FilCall.iovarIntGet name).ret ((cywFilIovarIntGet name).told (.ok (bytesLe32 val))) = .int 0 (some val) := by
  have hout : (cywFilIovarIntGet name).told (.ok (bytesLe32 val)) = (0, [bytesLe32 val]) := by
    unfold FilReq.told FilReq.answered
    rw [isSet_intGet]
    rfl
  have hval : (BufProg.le32 0).result (contents (leBuf 0) [bytesLe32 val]) = val := by
    show UInt32.ofNat _ = val
    exact ofNat_bytesLe32 val
  rw [hout]
  simp only [FilCall.ret, if_true, hval]

/-- **A variable read is the variable last set**: whatever was done before the number was set, and whatever else has
been done since, on either path, as long as every call was served and none of the later ones set the variable. -/
theorem int_get_last_set {set : FilCall} {val : UInt32} (hset : set.IntSet name val)
    (hidle : s.drv.slot.ioctlWaiting = false) (before between : List FilAct) {e e' : FilEnv}
    (hno : ∀ a ∈ between, a.Spares name)
    (h : AllServed Vars.serve (before ++ .call set e :: between ++ [.call (.iovarIntGet name) e']) s) :
    (filRun Vars.serve (before ++ .call set e :: between ++ [.call (.iovarIntGet name) e']) s).1.getLast? =
      some (.int 0 (some val)) := by
  rw [allServed_append, allServed_append] at h
  obtain ⟨⟨hbefore, hfine, hbetween⟩, hget, -⟩ := h
  have hidle₁ := filRun_idle hidle hbefore
  obtain ⟨hidle₂, -, hfw⟩ := filStep_fine hidle₁ hfine
  have hkeep := filRun_keeps hidle₂ hbetween hno
  have hset' : (directRun Vars.serve (FilAct.call set e).call?.toList (filRun Vars.serve before s).2.fw).2.vars name =
      some (bytesLe32 val) := serve_intSet hset hfine.1 _
  have hmid : (filRun Vars.serve (before ++ .call set e :: between) s).2.fw.vars name = some (bytesLe32 val) := by
    rw [filRun_append]
    exact hkeep.trans ((congrArg (Vars.vars · name) hfw).trans hset')
  have hidle₃ : (filRun Vars.serve (before ++ .call set e :: between) s).2.drv.slot.ioctlWaiting = false := by
    have hi := filRun_idle hidle₂ hbetween
    rw [filRun_append]
    exact hi
  obtain ⟨drv, -, heq⟩ := cywFilTxrx_served hidle₃ hget.1 hget.2
  rw [filRun_append]
  simp only [filRun, filStep, heq, List.getLast?_append, Option.toList_some, List.append_nil, List.getLast?_singleton,
    Option.some_or]
  rw [show FilCall.req (.iovarIntGet name) = cywFilIovarIntGet name from rfl, serve_intGet hget.1 hmid, ret_intGet]

/-- `mpc` is set, the task attached, the interface brought up, and `mpc` read. -/
theorem int_get_last_set_mpc :
    (filRun Vars.serve [.call (.iovarIntSet mpc 7) (answerEnv 1 []), .sdpcmAttach,
      .call (.cmdIntSet 2 0) (answerEnv 2 []), .call (.iovarIntGet mpc) (answerEnv 3 [7, 0, 0, 0])]
      ⟨tenCredits, false, ⟨fun _ => none, fun _ => none⟩⟩).1.getLast? = some (.int 0 (some 7)) := by
  have hset : (cywFilIovarIntSet mpc 7).Ok := ⟨ok_mpc_get.name, by decide, by decide⟩
  have hup : (cywFilCmdIntSet 2 0).Ok := ⟨by simp [cywFilCmdIntSet, cywFilCmdDataSet], by decide, by decide⟩
  refine int_get_last_set (.inl rfl) rfl [] [.sdpcmAttach, .call (.cmdIntSet 2 0) (answerEnv 2 [])] ?_
    ⟨⟨hset, served_answerEnv hset (by decide) rfl (by decide) rfl⟩, trivial,
      ⟨hup, served_answerEnv hup (by decide) rfl (by decide) rfl⟩,
      ⟨ok_mpc_get, served_answerEnv ok_mpc_get (by decide) rfl (by decide) rfl⟩, trivial⟩
  intro a ha c hc hsets
  simp only [List.mem_cons, List.not_mem_nil, or_false] at ha
  rcases ha with rfl | rfl
  · cases hc
  · cases hc
    exact absurd hsets.2.1 (by decide)

end Vars

end Cyw
