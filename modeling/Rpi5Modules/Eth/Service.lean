import Rpi5Modules.Eth.RxRing
import Rpi5Modules.Eth.TxRing

/-!
# Who services the interface

Three parties service a running interface: `cgem_intr_filter` at interrupt level and without the lock,
`cgem_intr_task` on `taskqueue_fast`, and `cgem_gem_poll`, a callout. They hand over to each other by enqueueing the
task and by arming or stopping the callout. Everything else that touches the interface (`cgem_init`, `cgem_ioctl`,
`cgem_start`, `rp1eth_tick`) holds the driver lock from start to end and is one step here. `SIOCADDMULTI` and
`SIOCDELMULTI` test `IFF_DRV_RUNNING` before they take the lock: here the test and the filter are one step, so nothing
comes between them.

- `FilterPc`, `PollPc`, `TaskPc` say where the three are; each names the call it is about to make, so a step is one
  call. The task gives up the lock in the middle, in `cgem_recv` (`TaskPc.window`);
- a callout that fires is no longer armed, and its handler runs; stopping it then does nothing to the handler, and
  resetting it arms it again. A task that is taken from the queue is no longer queued, and can be queued again;
- `Serv.step` takes one step, `Serv.Step` lists what a step can do (`Serv.step_cases`);
- the poll and the task never both have the lock (`Serv.Exclusive`, `Serv.exclusive_step`).

What the environment decides is in the action: interrupts and the status word read, allocations, frames in the send
queue, and when a callout fires or the task is picked up.
-/

namespace Eth

open Flags Slots Transition

/-! ## Interrupt sources -/

def cgemIntrAll : BitVec 32 := 0x7fffeff
def intrRxCompleteBit : Nat := 1
def intrRxUsedReadBit : Nat := 2

/-- `CGEM_INTR_RX_COMPLETE | CGEM_INTR_TX_USED_READ | CGEM_INTR_HRESP_NOT_OK | CGEM_INTR_RX_USED_READ |
CGEM_INTR_RX_OVERRUN`. -/
def cgemIntrSources : BitVec 32 := 0xc0e

/-- A write to INTR_DIS masks what it names. -/
def intrDis (en mask : BitVec 32) : BitVec 32 := en &&& ~~~mask

/-- No source is enabled. -/
def Masked (en : BitVec 32) : Prop := en &&& cgemIntrAll = 0

instance (en : BitVec 32) : Decidable (Masked en) := inferInstanceAs (Decidable (_ = _))

theorem masked_intrDis (en : BitVec 32) : Masked (intrDis en cgemIntrAll) := by
  unfold Masked intrDis
  rw [BitVec.and_assoc, BitVec.and_comm (~~~cgemIntrAll), BitVec.and_not_self]
  exact BitVec.and_zero

/-! ## Program counters -/

/-- `cgem_intr_filter`. -/
inductive FilterPc where
  | idle
  | mask (ist : BitVec 32)
  | store (ist : BitVec 32)
  | enqueue
  | stop

/-- `cgem_gem_poll`. From `stat` on it has the lock. -/
inductive PollPc where
  | idle
  | lock
  | stat
  | mask (ist : BitVec 32)
  | pend (ist : BitVec 32)
  | enqueue
  | rearm
  | unlock

/-- `cgem_intr_task`. From `body` on it has the lock, but for `window`. -/
inductive TaskPc where
  | idle
  | start
  | lock (ist : BitVec 32)
  | body (ist : BitVec 32)
  /-- In `cgem_recv`, handing the received mbufs to `if_input`. -/
  | window (ist : BitVec 32)
  | tail (ist : BitVec 32)
  | enable
  | rearm
  | unlock

def PollPc.holds : PollPc → Bool
  | idle => false
  | lock => false
  | _ => true

def TaskPc.holds : TaskPc → Bool
  | idle => false
  | start => false
  | lock _ => false
  | window _ => false
  | _ => true

/-! ## State -/

/-- The softc as far as servicing goes: `IFF_DRV_RUNNING`, the two callouts, the task, `intr_pending`, the enabled
interrupt sources, the rings, and the three program counters. `serviced` records that an invocation of the task or the
poll was completed since the interface was brought up. -/
structure Serv where
  running : Bool
  tickCh : Bool
  gemPoll : Bool
  intrTask : Bool
  intrPending : BitVec 32
  intrEn : BitVec 32
  rx : RxState
  tx : TxState
  filter : FilterPc
  poll : PollPc
  task : TaskPc
  serviced : Bool

namespace Serv

/-- Nobody holds `sc_mtx`. -/
def lockFree (s : Serv) : Bool := !s.poll.holds && !s.task.holds

/-- After `rp1eth_attach`. -/
def attached (rxbufs : Int) (rxcsum : Bool) : Serv where
  running := false
  tickCh := false
  gemPoll := false
  intrTask := false
  intrPending := 0
  intrEn := 0
  rx := cgemSetupRx rxbufs rxcsum
  tx := cgemSetupTx
  filter := .idle
  poll := .idle
  task := .idle
  serviced := false

end Serv

/-! ## The transmit ring, call by call -/

/-- The steps `cgem_clean_tx` is made of, and the hardware's. -/
def TxAct.ofClean : TxAct → Bool
  | clean => true
  | cleanStep => true
  | hw _ => true
  | _ => false

/-- The steps `cgem_start_locked` is made of, and the hardware's. -/
def TxAct.ofStart : TxAct → Bool
  | stop => false
  | _ => true

/-- A call that takes the given steps, to its end. -/
def txCall (ok : TxAct → Bool) (tx : TxState) (acts : List TxAct) : Option TxState :=
  if acts.all ok then
    (run txRingStep tx acts).bind fun tx' =>
      match tx'.pc with
      | .idle => some tx'
      | _ => none
  else none

/-- `cgem_clean_tx(sc)`: it ends when nothing is queued or the tail is not USED. -/
def cgemCleanTx (tx : TxState) (acts : List TxAct) : Option TxState :=
  (txCall TxAct.ofClean tx acts).bind fun tx' =>
    if tx'.txringQueued > 0 ∧ HasFlag (tx'.txring tx'.txringTlPtr).ctl txdescUsedBit then none else some tx'

/-- `cgem_start_locked(ifp)`. -/
def cgemStartLocked (tx : TxState) (acts : List TxAct) : Option TxState := txCall TxAct.ofStart tx acts

/-! ## Bringing up and down -/

/-- `cgem_init_locked(sc)`. -/
def cgemInitLocked (s : Serv) (os : List FillOutcome) : Serv :=
  if s.running then s
  else
    { s with
      running := true
      tickCh := true
      intrEn := intrDis s.intrEn cgemIntrAll ||| cgemIntrSources
      rx := cgemFillRqueue s.rx os
      serviced := false }

/-- `cgem_stop(sc)`. -/
def cgemStop (s : Serv) : Option Serv :=
  (cgemStopTx s.tx).map fun tx =>
    { s with
      tickCh := false
      gemPoll := false
      intrEn := intrDis s.intrEn cgemIntrAll
      tx := tx
      rx := cgemStopRx s.rx }

/-! ## Steps -/

inductive ServAct where
  /-- `cgem_init`. -/
  | init (os : List FillOutcome)
  /-- `SIOCSIFFLAGS`, with `IFF_UP` or without. -/
  | ifflags (up : Bool) (os : List FillOutcome)
  /-- `SIOCADDMULTI`, `SIOCDELMULTI`, `SIOCSIFMEDIA`. -/
  | ioctl
  /-- `SIOCSIFCAP`. -/
  | ifcap (rxcsum : Bool)
  | sysctl (rxbufs : Int)
  | start (acts : List TxAct)
  /-- `rp1eth_tick`, which always resets its callout. -/
  | tick
  | rxHw (ctl : BitVec 32)
  | txHw (status : BitVec 32)
  /-- `cgem_intr_filter` is called and reads INTR_STAT. -/
  | filter (istat : BitVec 32)
  | filterNext
  /-- The callout fires. -/
  | pollFire
  /-- The poll reads INTR_STAT. -/
  | pollStat (istat : BitVec 32)
  | pollNext
  /-- The task is taken from the queue. -/
  | taskRun
  | taskNext
  | taskRecv (os : List FillOutcome)
  | taskTail (clean : List TxAct) (os : List FillOutcome) (send : List TxAct)

namespace Serv

def filterNext (s : Serv) : Option Serv :=
  match s.filter with
  | .idle => none
  | .mask ist => some { s with intrEn := intrDis s.intrEn cgemIntrAll, filter := .store ist }
  | .store ist => some { s with intrPending := ist, filter := .enqueue }
  | .enqueue => some { s with intrTask := true, filter := .stop }
  | .stop => some { s with gemPoll := false, filter := .idle }

def pollNext (s : Serv) : Option Serv :=
  match s.poll with
  | .lock =>
    if !s.lockFree then none
    else if s.running then some { s with poll := .stat }
    else some { s with poll := .idle, serviced := true }
  | .mask ist => some { s with intrEn := intrDis s.intrEn cgemIntrAll, poll := .pend ist }
  | .pend ist => some { s with intrPending := s.intrPending ||| ist, poll := .enqueue }
  | .enqueue => some { s with intrTask := true, poll := .unlock }
  | .rearm => some { s with gemPoll := true, poll := .unlock }
  | .unlock => some { s with poll := .idle, serviced := true }
  | _ => none

def taskNext (s : Serv) : Option Serv :=
  match s.task with
  | .start => some { s with intrPending := 0, task := .lock s.intrPending }
  | .lock ist =>
    if !s.lockFree then none
    else if s.running then some { s with task := .body ist }
    else some { s with task := .idle, serviced := true }
  | .window ist => if s.lockFree then some { s with task := .tail ist } else none
  | .enable => some { s with intrEn := s.intrEn ||| cgemIntrSources, task := .rearm }
  | .rearm => some { s with gemPoll := true, task := .unlock }
  | .unlock => some { s with task := .idle, serviced := true }
  | _ => none

/-- `cgem_recv` up to its unlock, if a frame was received. -/
def taskRecv (s : Serv) (os : List FillOutcome) : Option Serv :=
  match s.task with
  | .body ist =>
    if HasFlag ist intrRxCompleteBit then (cgemRecv s.rx os).map fun rx => { s with rx := rx, task := .window ist }
    else some { s with task := .tail ist }
  | _ => none

/-- `cgem_clean_tx`, the refill if the hardware ran out of descriptors, and `cgem_start_locked` if frames wait. -/
def taskTail (s : Serv) (clean : List TxAct) (os : List FillOutcome) (send : List TxAct) : Option Serv :=
  match s.task with
  | .tail ist =>
    (cgemCleanTx s.tx clean).bind fun tx =>
      (cgemStartLocked tx send).map fun tx =>
        { s with
          tx := tx
          rx := if HasFlag ist intrRxUsedReadBit then cgemFillRqueue s.rx os else s.rx
          task := .enable }
  | _ => none

/-- A call that holds the lock from start to end. -/
def locked (s : Serv) (t : Option Serv) : Option Serv := if s.lockFree then t else none

def step (s : Serv) : ServAct → Option Serv
  | .init os => s.locked (some (cgemInitLocked s os))
  | .ifflags true os => s.locked (some (cgemInitLocked s os))
  | .ifflags false _ => s.locked (if s.running then cgemStop { s with running := false } else some s)
  | .ioctl => s.locked (some s)
  | .ifcap rxcsum => s.locked (some { s with rx := { s.rx with rxcsum := rxcsum } })
  | .sysctl rxbufs => some { s with rx := { s.rx with rxbufs := rxbufs } }
  | .start acts => s.locked ((cgemStartLocked s.tx acts).map fun tx => { s with tx := tx })
  | .tick => if s.tickCh then s.locked (some s) else none
  | .rxHw ctl => (hwFill s.rx ctl).map fun rx => { s with rx := rx }
  | .txHw status => (hwFetch s.tx status).map fun tx => { s with tx := tx }
  | .filter istat =>
    match s.filter with
    | .idle => some (if istat &&& cgemIntrAll = 0 then s else { s with filter := .mask istat })
    | _ => none
  | .filterNext => s.filterNext
  | .pollFire =>
    match s.poll with
    | .idle => if s.gemPoll then some { s with gemPoll := false, poll := .lock } else none
    | _ => none
  | .pollStat istat =>
    match s.poll with
    | .stat =>
      let ist := istat &&& cgemIntrSources
      some { s with poll := if ist ≠ 0 then .mask ist else .rearm }
    | _ => none
  | .pollNext => s.pollNext
  | .taskRun =>
    match s.task with
    | .idle => if s.intrTask then some { s with intrTask := false, task := .start } else none
    | _ => none
  | .taskNext => s.taskNext
  | .taskRecv os => s.taskRecv os
  | .taskTail clean os send => s.taskTail clean os send

/-- The action brings the interface up: `cgem_init_locked` gets past its test. -/
def BringsUp (s : Serv) : ServAct → Prop
  | .init _ => s.running = false
  | .ifflags true _ => s.running = false
  | _ => False

/-! ## What a step can do -/

/-- The steps, one constructor for each thing a step can do. -/
inductive Step (s : Serv) : ServAct → Serv → Prop where
  | keep {a : ServAct} (hb : ¬s.BringsUp a) : Step s a s
  | up {a : ServAct} (os : List FillOutcome) (hl : s.lockFree = true) (hr : s.running = false) (hb : s.BringsUp a) :
      Step s a
        { s with
          running := true
          tickCh := true
          intrEn := intrDis s.intrEn cgemIntrAll ||| cgemIntrSources
          rx := cgemFillRqueue s.rx os
          serviced := false }
  | down {os : List FillOutcome} {tx : TxState} (hl : s.lockFree = true) (hr : s.running = true)
      (htx : cgemStopTx s.tx = some tx) :
      Step s (.ifflags false os)
        { s with
          running := false
          tickCh := false
          gemPoll := false
          intrEn := intrDis s.intrEn cgemIntrAll
          tx := tx
          rx := cgemStopRx s.rx }
  | ifcap (rxcsum : Bool) : Step s (.ifcap rxcsum) { s with rx := { s.rx with rxcsum := rxcsum } }
  | sysctl (rxbufs : Int) : Step s (.sysctl rxbufs) { s with rx := { s.rx with rxbufs := rxbufs } }
  | start {acts : List TxAct} {tx : TxState} (htx : cgemStartLocked s.tx acts = some tx) :
      Step s (.start acts) { s with tx := tx }
  | rxHw {ctl : BitVec 32} {rx : RxState} (hrx : hwFill s.rx ctl = some rx) : Step s (.rxHw ctl) { s with rx := rx }
  | txHw {status : BitVec 32} {tx : TxState} (htx : hwFetch s.tx status = some tx) :
      Step s (.txHw status) { s with tx := tx }
  | filter {istat : BitVec 32} (hf : s.filter = .idle) : Step s (.filter istat) { s with filter := .mask istat }
  | filterMask {ist : BitVec 32} (hf : s.filter = .mask ist) :
      Step s .filterNext { s with intrEn := intrDis s.intrEn cgemIntrAll, filter := .store ist }
  | filterStore {ist : BitVec 32} (hf : s.filter = .store ist) :
      Step s .filterNext { s with intrPending := ist, filter := .enqueue }
  | filterEnqueue (hf : s.filter = .enqueue) : Step s .filterNext { s with intrTask := true, filter := .stop }
  | filterStop (hf : s.filter = .stop) : Step s .filterNext { s with gemPoll := false, filter := .idle }
  | pollFire (hp : s.poll = .idle) (hg : s.gemPoll = true) :
      Step s .pollFire { s with gemPoll := false, poll := .lock }
  | pollLock (hp : s.poll = .lock) (hl : s.lockFree = true) (hr : s.running = true) :
      Step s .pollNext { s with poll := .stat }
  | pollBack (hp : s.poll = .lock) (hr : s.running = false) :
      Step s .pollNext { s with poll := .idle, serviced := true }
  | pollStat {istat : BitVec 32} (hp : s.poll = .stat) (ist : BitVec 32) :
      Step s (.pollStat istat) { s with poll := .mask ist }
  | pollNothing {istat : BitVec 32} (hp : s.poll = .stat) : Step s (.pollStat istat) { s with poll := .rearm }
  | pollMask {ist : BitVec 32} (hp : s.poll = .mask ist) :
      Step s .pollNext { s with intrEn := intrDis s.intrEn cgemIntrAll, poll := .pend ist }
  | pollPend {ist : BitVec 32} (hp : s.poll = .pend ist) :
      Step s .pollNext { s with intrPending := s.intrPending ||| ist, poll := .enqueue }
  | pollEnqueue (hp : s.poll = .enqueue) : Step s .pollNext { s with intrTask := true, poll := .unlock }
  | pollRearm (hp : s.poll = .rearm) : Step s .pollNext { s with gemPoll := true, poll := .unlock }
  | pollUnlock (hp : s.poll = .unlock) : Step s .pollNext { s with poll := .idle, serviced := true }
  | taskRun (ht : s.task = .idle) (hq : s.intrTask = true) :
      Step s .taskRun { s with intrTask := false, task := .start }
  | taskStart (ht : s.task = .start) : Step s .taskNext { s with intrPending := 0, task := .lock s.intrPending }
  | taskLock {ist : BitVec 32} (ht : s.task = .lock ist) (hl : s.lockFree = true) (hr : s.running = true) :
      Step s .taskNext { s with task := .body ist }
  | taskBack {ist : BitVec 32} (ht : s.task = .lock ist) (hr : s.running = false) :
      Step s .taskNext { s with task := .idle, serviced := true }
  | taskRecv {ist : BitVec 32} {os : List FillOutcome} {rx : RxState} (ht : s.task = .body ist)
      (hrx : cgemRecv s.rx os = some rx) : Step s (.taskRecv os) { s with rx := rx, task := .window ist }
  | taskSkip {ist : BitVec 32} {os : List FillOutcome} (ht : s.task = .body ist) :
      Step s (.taskRecv os) { s with task := .tail ist }
  | taskWindow {ist : BitVec 32} (ht : s.task = .window ist) (hl : s.lockFree = true) :
      Step s .taskNext { s with task := .tail ist }
  | taskTail {ist : BitVec 32} {clean send : List TxAct} {os : List FillOutcome} {tx tx' : TxState}
      (ht : s.task = .tail ist) (htx : cgemCleanTx s.tx clean = some tx) (htx' : cgemStartLocked tx send = some tx') :
      Step s (.taskTail clean os send)
        { s with
          tx := tx'
          rx := if HasFlag ist intrRxUsedReadBit then cgemFillRqueue s.rx os else s.rx
          task := .enable }
  | taskEnable (ht : s.task = .enable) :
      Step s .taskNext { s with intrEn := s.intrEn ||| cgemIntrSources, task := .rearm }
  | taskRearm (ht : s.task = .rearm) : Step s .taskNext { s with gemPoll := true, task := .unlock }
  | taskUnlock (ht : s.task = .unlock) : Step s .taskNext { s with task := .idle, serviced := true }

variable {s s' : Serv}

theorem locked_some {t : Option Serv} (h : s.locked t = some s') : s.lockFree = true ∧ t = some s' := by
  unfold locked at h
  split at h
  · next hl => exact ⟨hl, h⟩
  · cases h

theorem init_cases {a : ServAct} {os : List FillOutcome} (hb : s.BringsUp a ↔ s.running = false)
    (h : s.locked (some (cgemInitLocked s os)) = some s') : Step s a s' := by
  obtain ⟨hl, h⟩ := locked_some h
  cases h
  unfold cgemInitLocked
  cases hr : s.running with
  | true => exact .keep fun h => by simp [hb.1 h] at hr
  | false => exact .up os hl hr (hb.2 hr)

theorem filterNext_cases (h : s.filterNext = some s') : Step s .filterNext s' := by
  unfold filterNext at h
  cases hf : s.filter with
  | idle =>
    rw [hf] at h
    cases h
  | mask ist =>
    rw [hf] at h
    cases h
    exact .filterMask hf
  | store ist =>
    rw [hf] at h
    cases h
    exact .filterStore hf
  | enqueue =>
    rw [hf] at h
    cases h
    exact .filterEnqueue hf
  | stop =>
    rw [hf] at h
    cases h
    exact .filterStop hf

theorem pollNext_cases (h : s.pollNext = some s') : Step s .pollNext s' := by
  unfold pollNext at h
  cases hp : s.poll with
  | lock =>
    simp only [hp] at h
    split at h
    · cases h
    · next hl =>
      split at h
      · next hr =>
        cases h
        exact .pollLock hp (by simpa using hl) hr
      · next hr =>
        cases h
        exact .pollBack hp (by simpa using hr)
  | mask ist =>
    rw [hp] at h
    cases h
    exact .pollMask hp
  | pend ist =>
    rw [hp] at h
    cases h
    exact .pollPend hp
  | enqueue =>
    rw [hp] at h
    cases h
    exact .pollEnqueue hp
  | rearm =>
    rw [hp] at h
    cases h
    exact .pollRearm hp
  | unlock =>
    rw [hp] at h
    cases h
    exact .pollUnlock hp
  | idle =>
    rw [hp] at h
    cases h
  | stat =>
    rw [hp] at h
    cases h

theorem taskNext_cases (h : s.taskNext = some s') : Step s .taskNext s' := by
  unfold taskNext at h
  cases ht : s.task with
  | start =>
    rw [ht] at h
    cases h
    exact .taskStart ht
  | lock ist =>
    simp only [ht] at h
    split at h
    · cases h
    · next hl =>
      split at h
      · next hr =>
        cases h
        exact .taskLock ht (by simpa using hl) hr
      · next hr =>
        cases h
        exact .taskBack ht (by simpa using hr)
  | window ist =>
    simp only [ht] at h
    split at h
    · next hl =>
      cases h
      exact .taskWindow ht hl
    · cases h
  | enable =>
    rw [ht] at h
    cases h
    exact .taskEnable ht
  | rearm =>
    rw [ht] at h
    cases h
    exact .taskRearm ht
  | unlock =>
    rw [ht] at h
    cases h
    exact .taskUnlock ht
  | idle =>
    rw [ht] at h
    cases h
  | body ist =>
    rw [ht] at h
    cases h
  | tail ist =>
    rw [ht] at h
    cases h

theorem taskRecv_cases {os : List FillOutcome} (h : s.taskRecv os = some s') : Step s (.taskRecv os) s' := by
  unfold taskRecv at h
  split at h
  · next ist ht =>
    split at h
    · obtain ⟨rx, hrx, rfl⟩ := Option.map_eq_some_iff.1 h
      exact .taskRecv ht hrx
    · cases h
      exact .taskSkip ht
  · cases h

theorem taskTail_cases {clean send : List TxAct} {os : List FillOutcome} (h : s.taskTail clean os send = some s') :
    Step s (.taskTail clean os send) s' := by
  unfold taskTail at h
  split at h
  · next ist ht =>
    obtain ⟨tx, htx, h⟩ := Option.bind_eq_some_iff.1 h
    obtain ⟨tx', htx', rfl⟩ := Option.map_eq_some_iff.1 h
    exact .taskTail ht htx htx'
  · cases h

/-- **Everything a step can do.** -/
theorem step_cases {a : ServAct} (h : s.step a = some s') : Step s a s' := by
  cases a with
  | init os => exact init_cases Iff.rfl h
  | ifflags up os =>
    cases up with
    | true => exact init_cases Iff.rfl h
    | false =>
      obtain ⟨hl, h⟩ := locked_some h
      split at h
      · next hr =>
        obtain ⟨tx, htx, rfl⟩ := Option.map_eq_some_iff.1 h
        exact .down hl hr htx
      · cases h
        exact .keep id
  | ioctl =>
    cases (locked_some h).2
    exact .keep id
  | ifcap rxcsum =>
    cases (locked_some h).2
    exact .ifcap rxcsum
  | sysctl rxbufs =>
    cases h
    exact .sysctl rxbufs
  | start acts =>
    obtain ⟨tx, htx, rfl⟩ := Option.map_eq_some_iff.1 (locked_some h).2
    exact .start htx
  | tick =>
    simp only [step] at h
    split at h
    · cases (locked_some h).2
      exact .keep id
    · cases h
  | rxHw ctl =>
    obtain ⟨rx, hrx, rfl⟩ := Option.map_eq_some_iff.1 h
    exact .rxHw hrx
  | txHw status =>
    obtain ⟨tx, htx, rfl⟩ := Option.map_eq_some_iff.1 h
    exact .txHw htx
  | filter istat =>
    simp only [step] at h
    split at h
    · next hf =>
      cases h
      split
      · exact .keep id
      · exact .filter hf
    · cases h
  | filterNext => exact filterNext_cases h
  | pollFire =>
    simp only [step] at h
    split at h
    · next hp =>
      split at h
      · next hg =>
        cases h
        exact .pollFire hp hg
      · cases h
    · cases h
  | pollStat istat =>
    simp only [step] at h
    split at h
    · next hp =>
      cases h
      split
      · exact .pollStat hp _
      · exact .pollNothing hp
    · cases h
  | pollNext => exact pollNext_cases h
  | taskRun =>
    simp only [step] at h
    split at h
    · next ht =>
      split at h
      · next hq =>
        cases h
        exact .taskRun ht hq
      · cases h
    · cases h
  | taskNext => exact taskNext_cases h
  | taskRecv os => exact taskRecv_cases h
  | taskTail clean os send => exact taskTail_cases h

/-! ## The lock -/

theorem lockFree_iff : s.lockFree = true ↔ s.poll.holds = false ∧ s.task.holds = false := by
  simp [lockFree]

/-- The poll and the task do not both have the lock. -/
def Exclusive (s : Serv) : Prop := s.poll.holds = true → s.task.holds = false

theorem exclusive_step {a : ServAct} (hi : s.Exclusive) (hs : s.step a = some s') : s'.Exclusive := by
  have hpoll : ∀ {p}, s.poll = p → p.holds = true → s.task.holds = false := by
    rintro p rfl hp
    exact hi hp
  have htask : ∀ {p}, s.task = p → p.holds = true → s.poll.holds = true → False := by
    rintro p rfl hp hq
    exact Bool.false_ne_true ((hi hq).symm.trans hp)
  cases step_cases hs with
  -- the poll takes the lock where nobody has it, keeps it, and gives it up
  | pollFire hp hg => exact fun h => absurd h Bool.false_ne_true
  | pollLock hp hl hr => exact fun _ => (lockFree_iff.1 hl).2
  | pollBack hp hr => exact fun h => absurd h Bool.false_ne_true
  | pollStat hp ist => exact fun _ => hpoll hp rfl
  | pollNothing hp => exact fun _ => hpoll hp rfl
  | pollMask hp => exact fun _ => hpoll hp rfl
  | pollPend hp => exact fun _ => hpoll hp rfl
  | pollEnqueue hp => exact fun _ => hpoll hp rfl
  | pollRearm hp => exact fun _ => hpoll hp rfl
  | pollUnlock hp => exact fun h => absurd h Bool.false_ne_true
  -- and so does the task
  | taskRun ht hq => exact fun _ => rfl
  | taskStart ht => exact fun _ => rfl
  | taskLock ht hl hr => exact fun h => absurd ((lockFree_iff.1 hl).1.symm.trans h) Bool.false_ne_true
  | taskBack ht hr => exact fun _ => rfl
  | taskRecv ht hrx => exact fun _ => rfl
  | taskSkip ht => exact fun h => (htask ht rfl h).elim
  | taskWindow ht hl => exact fun h => absurd ((lockFree_iff.1 hl).1.symm.trans h) Bool.false_ne_true
  | taskTail ht htx htx' => exact fun h => (htask ht rfl h).elim
  | taskEnable ht => exact fun h => (htask ht rfl h).elim
  | taskRearm ht => exact fun h => (htask ht rfl h).elim
  | taskUnlock ht => exact fun _ => rfl
  | _ => exact hi

end Serv

end Eth
