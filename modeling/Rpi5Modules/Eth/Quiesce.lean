import Rpi5Modules.Eth.Service

/-!
# Stopping the interface

`cgem_stop` runs under the lock: it masks the interrupts, stops the callouts and empties the rings. `cgem_intr_task`
tests `IFF_DRV_RUNNING` once, when it takes the lock; then it gives the lock up inside `cgem_recv` and takes it back
without a second test. If the interface was stopped in between, the rest of the task runs on a stopped device: it
refills the ring, sends what waits, enables the interrupts and arms the poll (`stop_unquiet`).

A stop at any other time leaves a quiet interface (`stop_decides`): as long as the task takes the lock back with
`IFF_DRV_RUNNING` set, whoever holds the lock past its test has the interface running.
-/

namespace Eth

open Flags Slots Transition

/-! ## Rings at rest -/

/-- The receive ring holds nothing, and nothing is the hardware's to fill. -/
structure RxStill (rx : RxState) : Prop where
  queued : rx.rxringQueued = 0
  mbufs : ∀ i < rp1ethNumRxDescs, rx.rxringM i = none
  own : ∀ i, HasFlag (rx.rxring i).addr rxdescOwnBit

/-- The transmit ring holds nothing, and nothing is the hardware's to send. -/
structure TxStill (tx : TxState) : Prop where
  queued : tx.txringQueued = 0
  mbufs : ∀ i < rp1ethNumTxDescs, tx.txringM i = none
  used : ∀ i, HasFlag (tx.txring i).ctl txdescUsedBit

theorem hasFlag_rxOwn (i : Nat) :
    HasFlag (if i = rp1ethNumRxDescs - 1 then cgemRxdescOwn ||| cgemRxdescWrap else cgemRxdescOwn) rxdescOwnBit := by
  split <;> decide

theorem txringUsed_has (i : Nat) : HasFlag (txringUsed i).ctl txdescUsedBit := by
  unfold txringUsed
  split <;> decide

theorem rxStill_stop (rx : RxState) : RxStill (cgemStopRx rx) := by
  refine ⟨rfl, ?_, fun i => hasFlag_rxOwn i⟩
  intro i hi
  exact if_pos hi

theorem rxStill_setup (rxbufs : Int) (rxcsum : Bool) : RxStill (cgemSetupRx rxbufs rxcsum) :=
  ⟨rfl, fun _ _ => rfl, fun i => hasFlag_rxOwn i⟩

theorem txStill_stop {tx tx' : TxState} (h : cgemStopTx tx = some tx') : TxStill tx' ∧ tx'.pc = .idle := by
  unfold cgemStopTx at h
  split at h
  · next hpc =>
    cases h
    refine ⟨⟨rfl, ?_, txringUsed_has⟩, hpc⟩
    intro i hi
    exact if_pos hi
  · cases h

theorem txStill_setup : TxStill cgemSetupTx := ⟨rfl, fun _ _ => rfl, txringUsed_has⟩

/-- The hardware has nothing to do on a ring at rest. -/
theorem RxStill.hwFill (h : RxStill rx) (ctl : BitVec 32) : hwFill rx ctl = none := by
  unfold Eth.hwFill
  exact if_pos (h.own rx.hwPtr)

theorem TxStill.hwFetch (h : TxStill tx) (status : BitVec 32) : hwFetch tx status = none := by
  unfold Eth.hwFetch
  exact if_pos (h.used tx.hwPtr)

/-! ## A transmit call ends -/

theorem hwFetch_pc {tx tx' : TxState} {status : BitVec 32} (h : hwFetch tx status = some tx') : tx'.pc = tx.pc := by
  unfold hwFetch at h
  dsimp only at h
  split at h
  · cases h
  · cases h
    unfold TxState.access
    split
    · split <;> rfl
    · rfl

theorem txCall_idle {ok : TxAct → Bool} {tx tx' : TxState} {acts : List TxAct} (h : txCall ok tx acts = some tx') :
    tx'.pc = .idle := by
  unfold txCall at h
  split at h
  · obtain ⟨t, _, h⟩ := Option.bind_eq_some_iff.1 h
    split at h
    · next hpc =>
      cases h
      exact hpc
    · cases h
  · cases h

/-- A call that takes no step. -/
theorem txCall_nil {ok : TxAct → Bool} {tx : TxState} (h : tx.pc = .idle) : txCall ok tx [] = some tx := by
  simp [txCall, h]

theorem cgemCleanTx_nil {tx : TxState} (h : tx.pc = .idle) (hq : tx.txringQueued = 0) :
    cgemCleanTx tx [] = some tx := by
  simp [cgemCleanTx, txCall_nil h, hq]

namespace Serv

/-! ## Quiet -/

/-- Interrupts are masked, both rings are empty, and the poll is not armed. -/
structure Quiesced (s : Serv) : Prop where
  masked : Masked s.intrEn
  rxQueued : s.rx.rxringQueued = 0
  rxMbufs : ∀ i < rp1ethNumRxDescs, s.rx.rxringM i = none
  txQueued : s.tx.txringQueued = 0
  txMbufs : ∀ i < rp1ethNumTxDescs, s.tx.txringM i = none
  gemPoll : s.gemPoll = false

/-- A stopped interface is quiet, with the lock free and the task not in progress. -/
def StopQuiet (s : Serv) : Prop := s.running = false → s.lockFree = true → s.task = .idle → s.Quiesced

/-- The task takes the lock back in `cgem_recv` with the interface running. -/
def WindowOk (s : Serv) : ServAct → Prop
  | .taskNext => ∀ ist, s.task = .window ist → s.running = true
  | _ => True

/-- `cgem_start` is not called. -/
def NoStart (_ : Serv) : ServAct → Prop
  | .start _ => False
  | _ => True

/-- Interrupts, rings and poll of a stopped interface. -/
structure Still (s : Serv) : Prop where
  masked : Masked s.intrEn
  rx : RxStill s.rx
  tx : TxStill s.tx
  gemPoll : s.gemPoll = false

/-- **The invariant**: what is stopped is still, and who holds the lock past its test has the interface running. -/
structure QuietInv (s : Serv) : Prop where
  still : s.running = false → s.Still
  task : s.task.holds = true → s.running = true
  poll : s.poll.holds = true → s.running = true
  tx : s.tx.pc = .idle

variable {s s' : Serv} {a : ServAct}

theorem quietInv_attached (rxbufs : Int) (rxcsum : Bool) : (attached rxbufs rxcsum).QuietInv := by
  refine ⟨fun _ => ⟨?_, rxStill_setup rxbufs rxcsum, txStill_setup, rfl⟩, nofun, nofun, rfl⟩
  show Masked 0
  decide

/-- The filter leaves a still interface still. -/
theorem Still.mask (h : s.Still) (f : FilterPc) :
    Still { s with intrEn := intrDis s.intrEn cgemIntrAll, filter := f } :=
  ⟨masked_intrDis _, h.rx, h.tx, h.gemPoll⟩

theorem quietInv_down {tx : TxState} (hl : s.lockFree = true) (htx : cgemStopTx s.tx = some tx) :
    QuietInv
      { s with
        running := false
        tickCh := false
        gemPoll := false
        intrEn := intrDis s.intrEn cgemIntrAll
        tx := tx
        rx := cgemStopRx s.rx } := by
  obtain ⟨hp, ht⟩ := lockFree_iff.1 hl
  obtain ⟨hstill, hpc⟩ := txStill_stop htx
  refine ⟨fun _ => ⟨masked_intrDis _, rxStill_stop _, hstill, rfl⟩, ?_, ?_, hpc⟩
  · intro h
    cases ht.symm.trans h
  · intro h
    cases hp.symm.trans h

/-- A step that leaves the interface as it is, or makes it quieter. -/
theorem QuietInv.calm (hi : s.QuietInv) (hr : s'.running = s.running) (hstill : s.Still → s'.Still)
    (ht : s'.task.holds = true → s.running = true) (hp : s'.poll.holds = true → s.running = true)
    (htx : s'.tx.pc = .idle) : s'.QuietInv :=
  ⟨fun h => hstill (hi.still (hr ▸ h)), fun h => hr ▸ ht h, fun h => hr ▸ hp h, htx⟩

/-- A step of a running interface. -/
theorem QuietInv.of_running (hr : s'.running = true) (htx : s'.tx.pc = .idle) : s'.QuietInv :=
  ⟨fun h => Bool.noConfusion (hr.symm.trans h), fun _ => hr, fun _ => hr, htx⟩

theorem quietInv_step (hi : s.QuietInv) (hn : s.NoStart a) (hok : s.WindowOk a) (hs : s.step a = some s') :
    s'.QuietInv := by
  have hpoll : ∀ {p}, s.poll = p → p.holds = true → s.running = true := by
    rintro p rfl hp
    exact hi.poll hp
  have htask : ∀ {p}, s.task = p → p.holds = true → s.running = true := by
    rintro p rfl hp
    exact hi.task hp
  cases step_cases hs with
  | keep hb => exact hi
  | up os hl hr hb => exact .of_running rfl hi.tx
  | down hl hr htx => exact quietInv_down hl htx
  | start htx => exact hn.elim
  | ifcap rxcsum =>
    refine hi.calm rfl ?_ hi.task hi.poll hi.tx
    exact fun h => ⟨h.masked, ⟨h.rx.queued, h.rx.mbufs, h.rx.own⟩, h.tx, h.gemPoll⟩
  | sysctl rxbufs =>
    refine hi.calm rfl ?_ hi.task hi.poll hi.tx
    exact fun h => ⟨h.masked, ⟨h.rx.queued, h.rx.mbufs, h.rx.own⟩, h.tx, h.gemPoll⟩
  | rxHw hrx =>
    refine hi.calm rfl ?_ hi.task hi.poll hi.tx
    intro h
    cases (h.rx.hwFill _).symm.trans hrx
  | txHw htx =>
    refine hi.calm rfl ?_ hi.task hi.poll ((hwFetch_pc htx).trans hi.tx)
    intro h
    cases (h.tx.hwFetch _).symm.trans htx
  -- the filter only masks, and stops the poll
  | filter hf => exact hi.calm rfl (fun h => ⟨h.masked, h.rx, h.tx, h.gemPoll⟩) hi.task hi.poll hi.tx
  | filterMask hf => exact hi.calm rfl (fun h => ⟨masked_intrDis _, h.rx, h.tx, h.gemPoll⟩) hi.task hi.poll hi.tx
  | filterStore hf => exact hi.calm rfl (fun h => ⟨h.masked, h.rx, h.tx, h.gemPoll⟩) hi.task hi.poll hi.tx
  | filterEnqueue hf => exact hi.calm rfl (fun h => ⟨h.masked, h.rx, h.tx, h.gemPoll⟩) hi.task hi.poll hi.tx
  | filterStop hf => exact hi.calm rfl (fun h => ⟨h.masked, h.rx, h.tx, rfl⟩) hi.task hi.poll hi.tx
  -- past its test the poll holds the lock of a running interface
  | pollFire hp hg => exact hi.calm rfl (fun h => ⟨h.masked, h.rx, h.tx, rfl⟩) hi.task nofun hi.tx
  | pollLock hp hl hr => exact .of_running hr hi.tx
  | pollBack hp hr => exact hi.calm rfl (fun h => ⟨h.masked, h.rx, h.tx, h.gemPoll⟩) hi.task nofun hi.tx
  | pollStat hp ist => exact .of_running (hpoll hp rfl) hi.tx
  | pollNothing hp => exact .of_running (hpoll hp rfl) hi.tx
  | pollMask hp => exact .of_running (hpoll hp rfl) hi.tx
  | pollPend hp => exact .of_running (hpoll hp rfl) hi.tx
  | pollEnqueue hp => exact .of_running (hpoll hp rfl) hi.tx
  | pollRearm hp => exact .of_running (hpoll hp rfl) hi.tx
  | pollUnlock hp => exact .of_running (hpoll hp rfl) hi.tx
  -- so does the task, whose window ends with the interface running
  | taskRun ht hq => exact hi.calm rfl (fun h => ⟨h.masked, h.rx, h.tx, h.gemPoll⟩) nofun hi.poll hi.tx
  | taskStart ht => exact hi.calm rfl (fun h => ⟨h.masked, h.rx, h.tx, h.gemPoll⟩) nofun hi.poll hi.tx
  | taskLock ht hl hr => exact .of_running hr hi.tx
  | taskBack ht hr => exact hi.calm rfl (fun h => ⟨h.masked, h.rx, h.tx, h.gemPoll⟩) nofun hi.poll hi.tx
  | taskRecv ht hrx => exact .of_running (htask ht rfl) hi.tx
  | taskSkip ht => exact .of_running (htask ht rfl) hi.tx
  | taskWindow ht hl => exact .of_running (hok _ ht) hi.tx
  | taskTail ht htx htx' => exact .of_running (htask ht rfl) (txCall_idle htx')
  | taskEnable ht => exact .of_running (htask ht rfl) hi.tx
  | taskRearm ht => exact .of_running (htask ht rfl) hi.tx
  | taskUnlock ht => exact .of_running (htask ht rfl) hi.tx

theorem QuietInv.stopQuiet (hi : s.QuietInv) : s.StopQuiet := by
  intro hr _ _
  have h := hi.still hr
  exact ⟨h.masked, h.rx.queued, h.rx.mbufs, h.tx.queued, h.tx.mbufs, h.gemPoll⟩

/-! ## A stop in the window -/

/-- The rest of the task, with nothing to reclaim, to refill or to send. -/
def taskRest : List ServAct := [.taskTail [] [] [], .taskNext, .taskNext, .taskNext]

theorem run_taskRest {ist : BitVec 32} (ht : s.task = .tail ist) (hpc : s.tx.pc = .idle)
    (hq : s.tx.txringQueued = 0) :
    run step s taskRest = some
      { s with intrEn := s.intrEn ||| cgemIntrSources, gemPoll := true, task := .idle, serviced := true } := by
  simp [taskRest, step, taskTail, taskNext, ht, cgemCleanTx_nil hpc hq, cgemStartLocked, txCall_nil hpc, cgemFillRqueue]

/-- A task that goes on with the interface stopped arms the poll. -/
theorem unquiet_of_window (hi : s.QuietInv) (hok : ¬s.WindowOk a) (hs : s.step a = some s') :
    ∃ bs t, AllSteps step NoStart s' bs ∧ run step s' bs = some t ∧ ¬t.StopQuiet := by
  cases a with
  | taskNext =>
    simp only [WindowOk, Classical.not_forall, Bool.not_eq_true] at hok
    obtain ⟨ist, ht, hr⟩ := hok
    have hstill := hi.still hr
    simp only [step, taskNext, ht, Option.ite_none_right_eq_some, Option.some_inj] at hs
    obtain ⟨hl, rfl⟩ := hs
    refine ⟨taskRest, _, AllSteps.of_mem (by simp [taskRest, NoStart]), run_taskRest rfl hi.tx hstill.tx.queued, ?_⟩
    intro h
    have hfree : (!s.poll.holds && !TaskPc.idle.holds) = true := by simp [(lockFree_iff.1 hl).1, TaskPc.holds]
    cases (h hr hfree rfl).gemPoll
  | _ => exact (hok trivial).elim

/-- **A stop quiesces the interface unless the task takes the lock back afterwards.** In every run (without
`cgem_start`): as long as `cgem_intr_task` takes the lock back in `cgem_recv` only with the interface running, a
stopped interface has its interrupts masked, its rings empty and its poll not armed, whenever the lock is free and the
task not in progress; a task that takes it back otherwise can end with the poll armed. -/
theorem stop_decides (rxbufs : Int) (rxcsum : Bool) (as : List ServAct)
    (hn : AllSteps step NoStart (attached rxbufs rxcsum) as) :
    Decides step NoStart WindowOk StopQuiet (attached rxbufs rxcsum) as := by
  refine decides_of (I := QuietInv) ?_ (fun s hi => hi.stopQuiet) ?_ (quietInv_attached rxbufs rxcsum) hn
  · intro s a s' hi hn hok hs
    exact quietInv_step hi hn hok hs
  · intro s a s' hi _ hok hs
    exact unquiet_of_window hi hok hs

/-- The interface goes up; an interrupt for a received frame leads the task into its window. -/
def toWindow : List ServAct :=
  [.init [], .filter 0x2, .filterNext, .filterNext, .filterNext, .filterNext, .taskRun, .taskNext, .taskNext,
    .taskRecv []]

/-- The task ends before the interface goes down. -/
theorem stop_decides_after :
    Decides step NoStart WindowOk StopQuiet (attached 0 false)
      (toWindow ++ [.taskNext] ++ taskRest ++ [.ifflags false []]) :=
  stop_decides 0 false _ (AllSteps.of_mem (by simp [toWindow, taskRest, NoStart]))

/-- The interface goes down while the task is in its window: the task ends with the poll armed and the interrupts
enabled. -/
theorem stop_unquiet : ∃ s, run step (attached 0 false)
    (List.flatten [toWindow, [.ifflags false [], .taskNext], taskRest]) = some s ∧ s.running = false ∧
      s.lockFree = true ∧ s.gemPoll = true ∧ ¬Masked s.intrEn ∧ ¬s.StopQuiet := by
  refine ⟨_, rfl, rfl, rfl, rfl, ?_, ?_⟩
  · show ¬Masked (0xc0e : BitVec 32)
    decide
  · intro h
    cases (h rfl rfl rfl).gemPoll

end Serv

end Eth
