import Rpi5Modules.Cyw.TxPaths
import Mathlib.Logic.Function.Basic

/-!
# The runtime transmit paths, interleaved

With `sdpcm_running` true, any number of threads call `cyw_fil_txrx` while the thread of `rx_tq` runs `cyw_sdpcm_task`
(receive, deliver) and `cyw_tx_task` (`cyw_tx_data_frame`), one task at a time. They share the softc under three locks:
`ioctl_sx` for the length of a transaction, `mtx` for the `ioctl_*` fields and `sdpcm_rx_max`, `f2_sx` for F2.

- `Softc` is what they share, with one function for each thing done to it in one step;
- `CallerPc` and `RxTqPc` say where a thread is; a program counter stands before the step it names;
- `Runtime.step` takes one step of one thread. Steps are as small as what other threads can see: a lock is taken
  together with what follows it where nobody can come between, the load and the store of `sdpcm_tx_seq++` are two
  steps, and so are the two loads of a credit check.

What the environment decides is in the action: received frames, the outcome of an F2 write, a timeout, the wake-up of
`cyw_sdpcm_detach` (here at any time, any number of times).
-/

namespace Cyw

open BufProg

/-! ## Calls and the history -/

/-- A call of `cyw_fil_txrx` from `++sc->ioctl_id` on: its number among all calls, its arguments and its id. -/
structure Call where
  ord : Nat
  req : Req
  buf : Nat
  id : UInt16

/-- What happened to the transactions. A response comes with the number of the call it answers, if it answers one,
and with what the delivery did. -/
inductive IoctlEvent where
  | start (c : Call)
  | kassert (ok : Bool)
  | deliver (f : RxFrame) (origin : Option Nat) (d : Delivery)
  | writeErr (c : Call) (err : Errno)
  | ret (c : Call) (err : Errno)

/-- The two senders. -/
inductive Sender where
  | ctl
  | data
deriving DecidableEq

/-- What happened to the credits: a sender begins a credit check, a sender stores `sdpcm_tx_seq` (which then is
`sdpcm_rx_max` or not), a received frame moves `sdpcm_rx_max`. -/
inductive CreditEvent where
  | check (who : Sender)
  | took (who : Sender) (last : Bool)
  | moved

/-! ## The shared state -/

/-- The softc, as far as the transmit paths share it. `started`, `wire`, `hist` and `credits` record the run: calls so
far, sequence bytes written to F2 in order, and the two histories, the last event first. -/
structure Softc where
  slot : IoctlSlot
  ioctlId : UInt16
  sdpcmTxSeq : UInt8
  sdpcmRxMax : UInt8
  started : Nat
  wire : List UInt8
  hist : List IoctlEvent
  credits : List CreditEvent

namespace Softc

/-- `(uint8_t)(sc->sdpcm_rx_max - sc->sdpcm_tx_seq)`. -/
def credit (sc : Softc) : UInt8 := txCredits sc.sdpcmRxMax sc.sdpcmTxSeq

/-- The call that takes the next id. -/
def newCall (sc : Softc) (r : Req) (buf : Nat) : Call := ⟨sc.started + 1, r, buf, sc.ioctlId + 1⟩

/-- `id = ++sc->ioctl_id`. -/
def start (sc : Softc) (c : Call) : Softc :=
  { sc with ioctlId := c.id, started := c.ord, hist := .start c :: sc.hist }

/-- A sender begins a credit check: it loads `sdpcm_rx_max`. -/
def check (sc : Softc) (who : Sender) : Softc := { sc with credits := .check who :: sc.credits }

/-- `KASSERT(!sc->ioctl_waiting, …)`. -/
def kassert (sc : Softc) : Softc := { sc with hist := .kassert (!sc.slot.ioctlWaiting) :: sc.hist }

/-- The store of `sdpcm_tx_seq++`, where `seq` was loaded. -/
def storeSeq (sc : Softc) (who : Sender) (seq : UInt8) : Softc :=
  { sc with sdpcmTxSeq := seq + 1, credits := .took who (seq + 1 == sc.sdpcmRxMax) :: sc.credits }

/-- The transaction is set up. -/
def arm (sc : Softc) (c : Call) : Softc := { sc with slot := ioctlArm sc.slot c.req c.id c.buf }

/-- The frame with sequence byte `seq` is written to F2. -/
def wrote (sc : Softc) (seq : UInt8) : Softc := { sc with wire := sc.wire ++ [seq] }

def writeErr (sc : Softc) (c : Call) (err : Errno) : Softc := { sc with hist := .writeErr c err :: sc.hist }

/-- `sc->ioctl_waiting = false`. -/
def unwait (sc : Softc) : Softc := { sc with slot := { sc.slot with ioctlWaiting := false } }

def ret (sc : Softc) (c : Call) (err : Errno) : Softc := { sc with hist := .ret c err :: sc.hist }

/-- The credit update of `cyw_sdpcm_recv_one`. -/
def recvCredit (sc : Softc) (f : RxFrame) : Softc :=
  let new := sdpcmCredit.result f.buf
  { sc with
    sdpcmRxMax := new
    credits := if new = sc.sdpcmRxMax then sc.credits else .moved :: sc.credits }

/-- What `cyw_sdpcm_deliver_ctrl` does with the frame. -/
def delivery (sc : Softc) (f : RxFrame) : Delivery := (cywSdpcmDeliverCtrl sc.slot f.flen).result f.buf

def deliver (sc : Softc) (f : RxFrame) (origin : Option Nat) : Softc :=
  { sc with slot := (sc.delivery f).slot, hist := .deliver f origin (sc.delivery f) :: sc.hist }

/-- The wake-up of `cyw_sdpcm_detach`. -/
def detach (sc : Softc) : Softc :=
  if sc.slot.ioctlWaiting then { sc with slot := { sc.slot with ioctlWaiting := false, ioctlResult := enxio } } else sc

end Softc

/-! ## Program counters -/

/-- Where a caller of `cyw_fil_txrx` is. A thread that waits for `ioctl_sx` is still `idle`. -/
inductive CallerPc where
  | idle
  /-- Credit check `i` loads `sdpcm_rx_max`; check 200 is the one after the loop. -/
  | credit (c : Call) (i : Nat)
  /-- It has loaded `rxMax` and compares with `sdpcm_tx_seq`. -/
  | compare (c : Call) (i : Nat) (rxMax : UInt8)
  /-- `CYW_LOCK`, the `KASSERT`, and the load of `sdpcm_tx_seq`. -/
  | lock (c : Call)
  /-- With `mtx`: the store of `sdpcm_tx_seq` and the slot. -/
  | arming (c : Call) (seq : UInt8)
  | f2Lock (c : Call) (seq : UInt8)
  /-- With `f2_sx`: `cyw_f2_write_block`. -/
  | f2Write (c : Call) (seq : UInt8)
  /-- The write failed: `ioctl_waiting` is to be cleared. -/
  | failed (c : Call) (err : Errno)
  /-- `CYW_LOCK` and the test of `ioctl_waiting`. -/
  | wait (c : Call)
  /-- In `cv_timedwait`. -/
  | asleep (c : Call)
  /-- `cv_timedwait` returns `cerr` once it has `mtx` again. -/
  | woken (c : Call) (cerr : Errno)
  /-- At `out`. -/
  | out (c : Call) (err : Errno)

/-- Where the thread of `rx_tq` is. -/
inductive RxTqPc where
  | idle
  /-- In the loop of `cyw_sdpcm_task`, with `f2_sx`. -/
  | drain
  /-- A control frame was received, with `f2_sx`: `cyw_sdpcm_deliver_ctrl`. -/
  | deliver (f : RxFrame)
  /-- `cyw_tx_data_frame` has loaded `rxMax` and compares with `sdpcm_tx_seq`. -/
  | txCompare (rxMax : UInt8)
  /-- It takes `f2_sx` and loads `sdpcm_tx_seq`. -/
  | txLock
  | txStore (seq : UInt8)
  | txWrite (seq : UInt8)

inductive F2Owner (ι : Type) where
  | caller (i : ι)
  | rxTq

/-! ## Steps -/

/-- The system, for callers `ι`. `ioctlCv` is the sleep queue of `ioctl_cv`. -/
structure Runtime (ι : Type) where
  sc : Softc
  ioctlSx : Option ι
  f2Sx : Option (F2Owner ι)
  mtx : Option ι
  ioctlCv : List ι
  pc : ι → CallerPc
  rxTq : RxTqPc

/-- One step of one thread. `caller i` is the next step of caller `i` where it has only one; `write`, `timeout` and
the steps of the `rx_tq` thread come with what they depend on. -/
inductive Action (ι : Type) where
  | call (i : ι) (r : Req) (buf : Nat)
  | caller (i : ι)
  | write (i : ι) (err : Errno)
  | timeout (i : ι)
  | drain
  | recv (f : RxFrame)
  | deliver (origin : Option Nat)
  | drainEnd
  | txStart
  | txCompare (alloc : Bool)
  | txTake
  | txStore
  | txWrite (err : Errno)
  | detach

namespace Runtime

variable {ι : Type} [DecidableEq ι]

/-- `sx_xlock(&sc->ioctl_sx); id = ++sc->ioctl_id`. -/
def call (s : Runtime ι) (i : ι) (r : Req) (buf : Nat) : Option (Runtime ι) :=
  match s.pc i, s.ioctlSx with
  | .idle, none =>
    let c := s.sc.newCall r buf
    some { s with sc := s.sc.start c, ioctlSx := some i, pc := Function.update s.pc i (.credit c 0) }
  | _, _ => none

/-- The rest of `cyw_fil_txrx`, but for the F2 write and the end of the sleep. -/
def caller (s : Runtime ι) (i : ι) : Option (Runtime ι) :=
  match s.pc i, s.mtx with
  | .credit c n, _ =>
    some { s with sc := s.sc.check .ctl, pc := Function.update s.pc i (.compare c n s.sc.sdpcmRxMax) }
  | .compare c n rxMax, _ =>
    let credits := txCredits rxMax s.sc.sdpcmTxSeq
    if n < 200 then
      let next := if credits > 0 then 200 else n + 1
      some { s with pc := Function.update s.pc i (.credit c next) }
    else
      some { s with pc := Function.update s.pc i (if credits = 0 then .out c enobufs else .lock c) }
  | .lock c, none =>
    some { s with sc := s.sc.kassert, mtx := some i, pc := Function.update s.pc i (.arming c s.sc.sdpcmTxSeq) }
  | .arming c seq, _ =>
    some { s with sc := (s.sc.storeSeq .ctl seq).arm c, mtx := none, pc := Function.update s.pc i (.f2Lock c seq) }
  | .f2Lock c seq, _ =>
    if s.f2Sx.isNone then
      some { s with f2Sx := some (.caller i), pc := Function.update s.pc i (.f2Write c seq) }
    else none
  | .failed c err, none => some { s with sc := s.sc.unwait, pc := Function.update s.pc i (.out c err) }
  | .wait c, none =>
    if s.sc.slot.ioctlWaiting then
      some { s with ioctlCv := s.ioctlCv ++ [i], pc := Function.update s.pc i (.asleep c) }
    else some { s with pc := Function.update s.pc i (.out c s.sc.slot.ioctlResult) }
  | .woken c cerr, none =>
    let sc := if cerr ≠ 0 then s.sc.unwait else s.sc
    some { s with sc := sc, pc := Function.update s.pc i (.out c sc.slot.ioctlResult) }
  | .out c err, _ => some { s with sc := s.sc.ret c err, ioctlSx := none, pc := Function.update s.pc i .idle }
  | _, _ => none

/-- `cyw_f2_write_block` and the unlock of `f2_sx`. -/
def write (s : Runtime ι) (i : ι) (err : Errno) : Option (Runtime ι) :=
  match s.pc i with
  | .f2Write c seq =>
    if err = 0 then some { s with sc := s.sc.wrote seq, f2Sx := none, pc := Function.update s.pc i (.wait c) }
    else some { s with sc := s.sc.writeErr c err, f2Sx := none, pc := Function.update s.pc i (.failed c err) }
  | _ => none

/-- The three seconds of `cv_timedwait` are over. -/
def timeout (s : Runtime ι) (i : ι) : Option (Runtime ι) :=
  match s.pc i with
  | .asleep c =>
    some { s with ioctlCv := s.ioctlCv.erase i, pc := Function.update s.pc i (.woken c ewouldblock) }
  | _ => none

/-- `cv_signal(&sc->ioctl_cv)`. -/
def signal (s : Runtime ι) : Runtime ι :=
  match s.ioctlCv with
  | [] => s
  | i :: is =>
    match s.pc i with
    | .asleep c => { s with ioctlCv := is, pc := Function.update s.pc i (.woken c 0) }
    | _ => { s with ioctlCv := is }

/-- `sx_xlock(&sc->f2_sx)` of `cyw_sdpcm_task`. -/
def drain (s : Runtime ι) : Option (Runtime ι) :=
  match s.rxTq, s.f2Sx with
  | .idle, none => some { s with f2Sx := some .rxTq, rxTq := .drain }
  | _, _ => none

/-- `cyw_sdpcm_recv_one` accepts a frame. Those of the other channels are handled without touching this state. -/
def recv (s : Runtime ι) (f : RxFrame) : Option (Runtime ι) :=
  match s.rxTq, s.mtx with
  | .drain, none =>
    let isCtrl := sdpcmChanFlags.result f.buf &&& 0x0f = cywSdpcmChanCtrl
    some { s with sc := s.sc.recvCredit f, rxTq := if isCtrl then .deliver f else .drain }
  | _, _ => none

def deliver (s : Runtime ι) (origin : Option Nat) : Option (Runtime ι) :=
  match s.rxTq, s.mtx with
  | .deliver f, none =>
    let t := { s with sc := s.sc.deliver f origin, rxTq := .drain }
    some (if (s.sc.delivery f).signal then t.signal else t)
  | _, _ => none

/-- `cyw_sdpcm_recv_one` fails: the loop ends, `f2_sx` is released. -/
def drainEnd (s : Runtime ι) : Option (Runtime ι) :=
  match s.rxTq with
  | .drain => some { s with f2Sx := none, rxTq := .idle }
  | _ => none

/-- `cyw_tx_data_frame`, from a linear mbuf to the first load of the credit check. -/
def txStart (s : Runtime ι) : Option (Runtime ι) :=
  match s.rxTq with
  | .idle => some { s with sc := s.sc.check .data, rxTq := .txCompare s.sc.sdpcmRxMax }
  | _ => none

/-- The credit check and the `malloc`. -/
def txCompare (s : Runtime ι) (alloc : Bool) : Option (Runtime ι) :=
  match s.rxTq with
  | .txCompare rxMax =>
    if txCredits rxMax s.sc.sdpcmTxSeq = 0 then some { s with rxTq := .idle }
    else some { s with rxTq := if alloc then .txLock else .idle }
  | _ => none

/-- `sx_xlock(&sc->f2_sx)` and the load of `sdpcm_tx_seq++`. -/
def txTake (s : Runtime ι) : Option (Runtime ι) :=
  match s.rxTq, s.f2Sx with
  | .txLock, none => some { s with f2Sx := some .rxTq, rxTq := .txStore s.sc.sdpcmTxSeq }
  | _, _ => none

def txStore (s : Runtime ι) : Option (Runtime ι) :=
  match s.rxTq with
  | .txStore seq => some { s with sc := s.sc.storeSeq .data seq, rxTq := .txWrite seq }
  | _ => none

/-- `cyw_f2_write_block` and the unlock of `f2_sx`. -/
def txWrite (s : Runtime ι) (err : Errno) : Option (Runtime ι) :=
  match s.rxTq with
  | .txWrite seq => some { s with sc := if err = 0 then s.sc.wrote seq else s.sc, f2Sx := none, rxTq := .idle }
  | _ => none

def detach (s : Runtime ι) : Option (Runtime ι) :=
  match s.mtx with
  | none =>
    let t := { s with sc := s.sc.detach }
    some (if s.sc.slot.ioctlWaiting then t.signal else t)
  | some _ => none

def step (s : Runtime ι) : Action ι → Option (Runtime ι)
  | .call i r buf => s.call i r buf
  | .caller i => s.caller i
  | .write i err => s.write i err
  | .timeout i => s.timeout i
  | .drain => s.drain
  | .recv f => s.recv f
  | .deliver origin => s.deliver origin
  | .drainEnd => s.drainEnd
  | .txStart => s.txStart
  | .txCompare alloc => s.txCompare alloc
  | .txTake => s.txTake
  | .txStore => s.txStore
  | .txWrite err => s.txWrite err
  | .detach => s.detach

omit [DecidableEq ι] in
/-- At the end of `cyw_sdpcm_attach`: no transaction, no lock held, and counters left by the boot. -/
def init (ι : Type) (slot : IoctlSlot) (ioctlId : UInt16) (txSeq rxMax : UInt8) : Runtime ι where
  sc := ⟨{ slot with ioctlWaiting := false }, ioctlId, txSeq, rxMax, 0, [], [], []⟩
  ioctlSx := none
  f2Sx := none
  mtx := none
  ioctlCv := []
  pc := fun _ => .idle
  rxTq := .idle

end Runtime

end Cyw
