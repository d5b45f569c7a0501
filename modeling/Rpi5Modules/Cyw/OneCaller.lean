import Rpi5Modules.Cyw.Runtime

/-!
# One transaction at a time

`ioctl_sx` is held for the length of a transaction, so the callers of `cyw_fil_txrx` behave as one: `Core` is the
system with a single caller and without locks, and `Core.Step` its steps, where what a lock excludes is a condition on
the two program counters. Every step of the system is a step of it (`step_refines`).

The reachable states of the system are those of the form `Core.spread c o`: caller `o` is where `c` says, the others
are idle, and the locks are held by those whose program counters say so.
-/

namespace Cyw

/-! ## Locks, by program counter -/

@[simp] def CallerPc.holdsMtx : CallerPc → Bool
  | arming _ _ => true
  | _ => false

@[simp] def CallerPc.holdsF2 : CallerPc → Bool
  | f2Write _ _ => true
  | _ => false

@[simp] def CallerPc.sleeps : CallerPc → Bool
  | asleep _ => true
  | _ => false

def RxTqPc.holdsF2 : RxTqPc → Bool
  | drain => true
  | deliver _ => true
  | txStore _ => true
  | txWrite _ => true
  | _ => false

/-- Where a signal on `ioctl_cv` takes the caller. -/
@[simp] def CallerPc.wake : CallerPc → CallerPc
  | asleep c => woken c 0
  | p => p

/-! ## The system with one caller -/

structure Core where
  sc : Softc
  pc : CallerPc
  rxTq : RxTqPc

namespace Core

inductive Step : Core → Action Unit → Core → Prop where
  | call {sc : Softc} {q : RxTqPc} (r : Req) (buf : Nat) :
      Step ⟨sc, .idle, q⟩ (.call () r buf) ⟨sc.start (sc.newCall r buf), .credit (sc.newCall r buf) 0, q⟩
  | credit {sc : Softc} {q : RxTqPc} {c : Call} {n : Nat} :
      Step ⟨sc, .credit c n, q⟩ (.caller ()) ⟨sc.check .ctl, .compare c n sc.sdpcmRxMax, q⟩
  | again {sc : Softc} {q : RxTqPc} {c : Call} {n : Nat} {rxMax : UInt8} (m : Nat) :
      Step ⟨sc, .compare c n rxMax, q⟩ (.caller ()) ⟨sc, .credit c m, q⟩
  | refused {sc : Softc} {q : RxTqPc} {c : Call} {n : Nat} {rxMax : UInt8} (h : txCredits rxMax sc.sdpcmTxSeq = 0) :
      Step ⟨sc, .compare c n rxMax, q⟩ (.caller ()) ⟨sc, .out c enobufs, q⟩
  | granted {sc : Softc} {q : RxTqPc} {c : Call} {n : Nat} {rxMax : UInt8} (h : txCredits rxMax sc.sdpcmTxSeq ≠ 0) :
      Step ⟨sc, .compare c n rxMax, q⟩ (.caller ()) ⟨sc, .lock c, q⟩
  | lock {sc : Softc} {q : RxTqPc} {c : Call} :
      Step ⟨sc, .lock c, q⟩ (.caller ()) ⟨sc.kassert, .arming c sc.sdpcmTxSeq, q⟩
  | arm {sc : Softc} {q : RxTqPc} {c : Call} {seq : UInt8} :
      Step ⟨sc, .arming c seq, q⟩ (.caller ()) ⟨(sc.storeSeq .ctl seq).arm c, .f2Lock c seq, q⟩
  | f2Lock {sc : Softc} {q : RxTqPc} {c : Call} {seq : UInt8} (hq : q.holdsF2 = false) :
      Step ⟨sc, .f2Lock c seq, q⟩ (.caller ()) ⟨sc, .f2Write c seq, q⟩
  | wrote {sc : Softc} {q : RxTqPc} {c : Call} {seq : UInt8} :
      Step ⟨sc, .f2Write c seq, q⟩ (.write () 0) ⟨sc.wrote seq, .wait c, q⟩
  | writeErr {sc : Softc} {q : RxTqPc} {c : Call} {seq : UInt8} {err : Errno} (he : err ≠ 0) :
      Step ⟨sc, .f2Write c seq, q⟩ (.write () err) ⟨sc.writeErr c err, .failed c err, q⟩
  | failed {sc : Softc} {q : RxTqPc} {c : Call} {err : Errno} :
      Step ⟨sc, .failed c err, q⟩ (.caller ()) ⟨sc.unwait, .out c err, q⟩
  | sleep {sc : Softc} {q : RxTqPc} {c : Call} (hw : sc.slot.ioctlWaiting = true) :
      Step ⟨sc, .wait c, q⟩ (.caller ()) ⟨sc, .asleep c, q⟩
  | answered {sc : Softc} {q : RxTqPc} {c : Call} (hw : sc.slot.ioctlWaiting = false) :
      Step ⟨sc, .wait c, q⟩ (.caller ()) ⟨sc, .out c sc.slot.ioctlResult, q⟩
  | timeout {sc : Softc} {q : RxTqPc} {c : Call} :
      Step ⟨sc, .asleep c, q⟩ (.timeout ()) ⟨sc, .woken c ewouldblock, q⟩
  | timedOut {sc : Softc} {q : RxTqPc} {c : Call} {cerr : Errno} (he : cerr ≠ 0) :
      Step ⟨sc, .woken c cerr, q⟩ (.caller ()) ⟨sc.unwait, .out c sc.slot.ioctlResult, q⟩
  | signalled {sc : Softc} {q : RxTqPc} {c : Call} :
      Step ⟨sc, .woken c 0, q⟩ (.caller ()) ⟨sc, .out c sc.slot.ioctlResult, q⟩
  | out {sc : Softc} {q : RxTqPc} {c : Call} {err : Errno} :
      Step ⟨sc, .out c err, q⟩ (.caller ()) ⟨sc.ret c err, .idle, q⟩
  | drain {sc : Softc} {p : CallerPc} (hp : p.holdsF2 = false) : Step ⟨sc, p, .idle⟩ .drain ⟨sc, p, .drain⟩
  | recv {sc : Softc} {p : CallerPc} (f : RxFrame) (hp : p.holdsMtx = false) :
      Step ⟨sc, p, .drain⟩ (.recv f)
        ⟨sc.recvCredit f, p, if sdpcmChanFlags.result f.buf &&& 0x0f = cywSdpcmChanCtrl then .deliver f else .drain⟩
  | deliver {sc : Softc} {p : CallerPc} {f : RxFrame} (origin : Option Nat) (hp : p.holdsMtx = false) :
      Step ⟨sc, p, .deliver f⟩ (.deliver origin)
        ⟨sc.deliver f origin, if (sc.delivery f).signal then p.wake else p, .drain⟩
  | drainEnd {sc : Softc} {p : CallerPc} : Step ⟨sc, p, .drain⟩ .drainEnd ⟨sc, p, .idle⟩
  | txStart {sc : Softc} {p : CallerPc} :
      Step ⟨sc, p, .idle⟩ .txStart ⟨sc.check .data, p, .txCompare sc.sdpcmRxMax⟩
  | txDrop {sc : Softc} {p : CallerPc} {rxMax : UInt8} (alloc : Bool) :
      Step ⟨sc, p, .txCompare rxMax⟩ (.txCompare alloc) ⟨sc, p, .idle⟩
  | txGranted {sc : Softc} {p : CallerPc} {rxMax : UInt8} (h : txCredits rxMax sc.sdpcmTxSeq ≠ 0) :
      Step ⟨sc, p, .txCompare rxMax⟩ (.txCompare true) ⟨sc, p, .txLock⟩
  | txTake {sc : Softc} {p : CallerPc} (hp : p.holdsF2 = false) :
      Step ⟨sc, p, .txLock⟩ .txTake ⟨sc, p, .txStore sc.sdpcmTxSeq⟩
  | txStore {sc : Softc} {p : CallerPc} {seq : UInt8} :
      Step ⟨sc, p, .txStore seq⟩ .txStore ⟨sc.storeSeq .data seq, p, .txWrite seq⟩
  | txWrote {sc : Softc} {p : CallerPc} {seq : UInt8} :
      Step ⟨sc, p, .txWrite seq⟩ (.txWrite 0) ⟨sc.wrote seq, p, .idle⟩
  | txWriteErr {sc : Softc} {p : CallerPc} {seq : UInt8} {err : Errno} (he : err ≠ 0) :
      Step ⟨sc, p, .txWrite seq⟩ (.txWrite err) ⟨sc, p, .idle⟩
  | detach {sc : Softc} {p : CallerPc} {q : RxTqPc} (hp : p.holdsMtx = false) :
      Step ⟨sc, p, q⟩ .detach ⟨sc.detach, if sc.slot.ioctlWaiting then p.wake else p, q⟩

/-! ## Spreading it over the callers -/

variable {ι : Type} [DecidableEq ι]

/-- The state where caller `o` is the one in a transaction. -/
def spread (c : Core) (o : Option ι) : Runtime ι where
  sc := c.sc
  ioctlSx := o
  f2Sx := if c.pc.holdsF2 then o.map .caller else if c.rxTq.holdsF2 then some .rxTq else none
  mtx := if c.pc.holdsMtx then o else none
  ioctlCv := if c.pc.sleeps then o.toList else []
  pc := fun i => if o = some i then c.pc else .idle
  rxTq := c.rxTq

/-- F2 has one owner. -/
def Exclusive (c : Core) : Prop := c.pc.holdsF2 = true → c.rxTq.holdsF2 = false

/-- Someone is in a transaction exactly when `ioctl_sx` is held, and F2 has one owner. -/
structure Fits (c : Core) (o : Option ι) : Prop where
  idle : c.pc = .idle ↔ o = none
  f2 : c.Exclusive

/-- The state of the system is the one-caller state `c`, for some caller. -/
def Models (s : Runtime ι) (c : Core) : Prop := ∃ o, s = c.spread o ∧ Fits c o

/-- An action, whoever the caller is. -/
def label {ι : Type} : Action ι → Action Unit
  | .call _ r buf => .call () r buf
  | .caller _ => .caller ()
  | .write _ err => .write () err
  | .timeout _ => .timeout ()
  | .drain => .drain
  | .recv f => .recv f
  | .deliver origin => .deliver origin
  | .drainEnd => .drainEnd
  | .txStart => .txStart
  | .txCompare alloc => .txCompare alloc
  | .txTake => .txTake
  | .txStore => .txStore
  | .txWrite err => .txWrite err
  | .detach => .detach

/-! ## Every step is one of its steps -/

section Refines

variable {c : Core} {i : ι} {o : Option ι} {s' : Runtime ι}

/-- The caller in the transaction moves. -/
@[simp] theorem update_spread (i : ι) (p p' : CallerPc) :
    Function.update (fun j => if i = j then p else .idle) i p' = fun j => if i = j then p' else .idle := by
  funext j
  by_cases h : j = i
  · subst h
    simp
  · have h' : ¬i = j := fun hij => h hij.symm
    rw [Function.update_of_ne h, if_neg h', if_neg h']

/-- A caller enters. -/
@[simp] theorem update_idle (i : ι) (p : CallerPc) :
    Function.update (fun _ => CallerPc.idle) i p = fun j => if i = j then p else .idle := by
  have h := update_spread i .idle p
  simpa using h

/-- The state after a step of caller `i`. -/
theorem models_of_eq (h : s' = c.spread (some i)) (hi : c.pc ≠ .idle)
    (hf : c.pc.holdsF2 = true → c.rxTq.holdsF2 = false) : Models s' c :=
  ⟨some i, h, ⟨fun hc => (hi hc).elim, fun hn => by cases hn⟩, hf⟩

theorem refines_call {r : Req} {buf : Nat} (hf : Fits c o) (h : (c.spread o).call i r buf = some s') :
    ∃ c', Step c (.call () r buf) c' ∧ Models s' c' := by
  obtain ⟨sc, p, q⟩ := c
  cases o with
  | some j =>
    unfold Runtime.call at h
    split at h
    · next heq => cases heq
    · cases h
  | none =>
    obtain rfl : p = .idle := hf.idle.2 rfl
    simp only [Runtime.call, spread, reduceCtorEq, if_false, Option.some.injEq] at h
    subst h
    exact ⟨_, .call r buf, models_of_eq (i := i) (by simp [spread]) (by simp) (by simp)⟩

/-- Only the caller in the transaction has a next step. -/
theorem caller_holder (h : (c.spread o).caller i = some s') : o = some i := by
  apply Decidable.byContradiction
  intro hne
  simp [Runtime.caller, spread, hne] at h

theorem refines_caller (hf : Fits c o) (h : (c.spread o).caller i = some s') :
    ∃ c', Step c (.caller ()) c' ∧ Models s' c' := by
  obtain rfl := caller_holder h
  obtain ⟨sc, p, q⟩ := c
  cases p with
  | idle => exact (Option.some_ne_none i (hf.idle.1 rfl)).elim
  | credit c n =>
    simp only [Runtime.caller, spread, if_true, Option.some.injEq] at h
    subst h
    exact ⟨_, .credit, models_of_eq (i := i) (by simp [spread]) (by simp) (by simp)⟩
  | compare c n rxMax =>
    simp only [Runtime.caller, spread, if_true] at h
    by_cases hn : n < 200
    · rw [if_pos hn] at h
      cases h
      exact ⟨_, .again (if txCredits rxMax sc.sdpcmTxSeq > 0 then 200 else n + 1),
        models_of_eq (i := i) (by simp [spread]) (by simp) (by simp)⟩
    · rw [if_neg hn] at h
      by_cases hc : txCredits rxMax sc.sdpcmTxSeq = 0
      · rw [if_pos hc] at h
        cases h
        exact ⟨_, .refused hc, models_of_eq (i := i) (by simp [spread]) (by simp) (by simp)⟩
      · rw [if_neg hc] at h
        cases h
        exact ⟨_, .granted hc, models_of_eq (i := i) (by simp [spread]) (by simp) (by simp)⟩
  | lock c =>
    simp only [Runtime.caller, spread, if_true, CallerPc.holdsMtx, Bool.false_eq_true, if_false, Option.some.injEq] at h
    subst h
    exact ⟨_, .lock, models_of_eq (i := i) (by simp [spread]) (by simp) (by simp)⟩
  | arming c seq =>
    simp only [Runtime.caller, spread, if_true, Option.some.injEq] at h
    subst h
    exact ⟨_, .arm, models_of_eq (i := i) (by simp [spread]) (by simp) (by simp)⟩
  | f2Lock c seq =>
    cases hq : q.holdsF2 with
    | true => simp [Runtime.caller, spread, hq] at h
    | false =>
      simp [Runtime.caller, spread, hq] at h
      subst h
      exact ⟨_, .f2Lock hq, models_of_eq (i := i) (by simp [spread]) (by simp) fun _ => hq⟩
  | f2Write c seq => simp [Runtime.caller, spread] at h
  | failed c err =>
    simp only [Runtime.caller, spread, if_true, CallerPc.holdsMtx, Bool.false_eq_true, if_false, Option.some.injEq] at h
    subst h
    exact ⟨_, .failed, models_of_eq (i := i) (by simp [spread]) (by simp) (by simp)⟩
  | wait c =>
    simp only [Runtime.caller, spread, if_true, CallerPc.holdsMtx, Bool.false_eq_true, if_false] at h
    cases hw : sc.slot.ioctlWaiting with
    | true =>
      rw [if_pos hw] at h
      cases h
      exact ⟨_, .sleep hw, models_of_eq (i := i) (by simp [spread]) (by simp) (by simp)⟩
    | false =>
      rw [if_neg (by simp [hw])] at h
      cases h
      exact ⟨_, .answered hw, models_of_eq (i := i) (by simp [spread]) (by simp) (by simp)⟩
  | asleep c => simp [Runtime.caller, spread] at h
  | woken c cerr =>
    simp only [Runtime.caller, spread, if_true, CallerPc.holdsMtx, Bool.false_eq_true, if_false, Option.some.injEq] at h
    subst h
    by_cases he : cerr = 0
    · subst he
      exact ⟨_, .signalled, models_of_eq (i := i) (by simp [spread]) (by simp) (by simp)⟩
    · refine ⟨_, .timedOut he, models_of_eq (i := i) ?_ (by simp) (by simp)⟩
      simp [spread, he, Softc.unwait]
  | out c err =>
    simp only [Runtime.caller, spread, if_true, Option.some.injEq] at h
    subst h
    exact ⟨_, .out, none, by simp [spread], ⟨by simp, nofun⟩⟩

theorem refines_write {err : Errno} (hf : Fits c o) (h : (c.spread o).write i err = some s') :
    ∃ c', Step c (.write () err) c' ∧ Models s' c' := by
  obtain ⟨sc, p, q⟩ := c
  by_cases ho : o = some i
  · subst ho
    cases p with
    | f2Write c seq =>
      have hq : q.holdsF2 = false := hf.f2 rfl
      simp only [Runtime.write, spread, if_true] at h
      by_cases he : err = 0
      · rw [if_pos he] at h
        cases h
        subst he
        exact ⟨_, .wrote, models_of_eq (i := i) (by simp [spread, hq]) (by simp) (by simp)⟩
      · rw [if_neg he] at h
        cases h
        exact ⟨_, .writeErr he, models_of_eq (i := i) (by simp [spread, hq]) (by simp) (by simp)⟩
    | _ => simp [Runtime.write, spread] at h
  · simp [Runtime.write, spread, ho] at h

theorem refines_timeout (h : (c.spread o).timeout i = some s') :
    ∃ c', Step c (.timeout ()) c' ∧ Models s' c' := by
  obtain ⟨sc, p, q⟩ := c
  by_cases ho : o = some i
  · subst ho
    cases p with
    | asleep c =>
      simp only [Runtime.timeout, spread, if_true, Option.some.injEq] at h
      subst h
      exact ⟨_, .timeout, models_of_eq (i := i) (by simp [spread]) (by simp) (by simp)⟩
    | _ => simp [Runtime.timeout, spread] at h
  · simp [Runtime.timeout, spread, ho] at h

omit [DecidableEq ι] in
/-- The state where the `rx_tq` thread moved. -/
theorem Fits.of_eq {c' : Core} (hf : Fits c o) (hp : c'.pc = c.pc)
    (hq : c.pc.holdsF2 = true → c'.rxTq.holdsF2 = false) : Fits c' o :=
  ⟨by rw [hp]; exact hf.idle, fun h => hq (by rwa [← hp])⟩

/-- A signal wakes the caller. -/
theorem signal_spread (hf : Fits c o) : (c.spread o).signal = spread { c with pc := c.pc.wake } o := by
  obtain ⟨sc, p, q⟩ := c
  cases p with
  | asleep c =>
    cases o with
    | none => cases hf.idle.2 rfl
    | some i => simp [Runtime.signal, spread]
  | _ => simp [Runtime.signal, spread]

omit [DecidableEq ι] in
theorem Fits.wake (hf : Fits c o) : Fits { c with pc := c.pc.wake } o := by
  obtain ⟨sc, p, q⟩ := c
  cases p with
  | asleep c => exact ⟨⟨nofun, fun h => nomatch hf.idle.2 h⟩, nofun⟩
  | _ => exact ⟨hf.idle, hf.f2⟩

/-- No lock is held by a caller whose program counter does not say so. -/
theorem mtx_free (hf : Fits c o) (h : (c.spread o).mtx = none) : c.pc.holdsMtx = false := by
  cases hp : c.pc.holdsMtx with
  | false => rfl
  | true =>
    have hn : (if c.pc.holdsMtx then o else none) = none := h
    rw [hp, if_pos rfl] at hn
    rw [hf.idle.2 hn] at hp
    cases hp

theorem f2_free (hf : Fits c o) (h : (c.spread o).f2Sx = none) : c.pc.holdsF2 = false := by
  cases hp : c.pc.holdsF2 with
  | false => rfl
  | true =>
    have hn : (if c.pc.holdsF2 then o.map F2Owner.caller else if c.rxTq.holdsF2 then some F2Owner.rxTq else none) =
      none := h
    rw [hp, if_pos rfl, Option.map_eq_none_iff] at hn
    rw [hf.idle.2 hn] at hp
    cases hp

/-- The `rx_tq` thread moves and keeps what it holds. -/
theorem rx_moves (hf : Fits c o) (sc : Softc) {q : RxTqPc} (hq : q.holdsF2 = c.rxTq.holdsF2) :
    Models { c.spread o with sc := sc, rxTq := q } ⟨sc, c.pc, q⟩ := by
  refine ⟨o, ?_, hf.of_eq rfl fun h => hq.trans (hf.f2 h)⟩
  simp only [spread, hq]

/-- It takes `f2_sx`. -/
theorem rx_takes (hf : Fits c o) (hp : c.pc.holdsF2 = false) (sc : Softc) {q : RxTqPc} (hq : q.holdsF2 = true) :
    Models { c.spread o with sc := sc, f2Sx := some .rxTq, rxTq := q } ⟨sc, c.pc, q⟩ := by
  refine ⟨o, ?_, hf.of_eq rfl fun h => ?_⟩
  · simp only [spread, hp, hq]
    rfl
  · rw [hp] at h
    cases h

/-- It releases `f2_sx`. -/
theorem rx_releases (hf : Fits c o) (h : c.rxTq.holdsF2 = true) (sc : Softc) {q : RxTqPc} (hq : q.holdsF2 = false) :
    Models { c.spread o with sc := sc, f2Sx := none, rxTq := q } ⟨sc, c.pc, q⟩ := by
  refine ⟨o, ?_, hf.of_eq rfl fun _ => hq⟩
  cases hp : c.pc.holdsF2 with
  | true =>
    rw [hf.f2 hp] at h
    cases h
  | false =>
    simp only [spread, hp, hq]
    rfl

theorem refines_drain (hf : Fits c o) (h : (c.spread o).drain = some s') : ∃ c', Step c .drain c' ∧ Models s' c' := by
  unfold Runtime.drain at h
  split at h
  · next hq hn =>
    cases h
    have hp := f2_free hf hn
    obtain ⟨sc, p, q⟩ := c
    obtain rfl : q = .idle := hq
    exact ⟨_, .drain hp, rx_takes hf hp sc rfl⟩
  · cases h

theorem refines_recv {f : RxFrame} (hf : Fits c o) (h : (c.spread o).recv f = some s') :
    ∃ c', Step c (.recv f) c' ∧ Models s' c' := by
  unfold Runtime.recv at h
  split at h
  · next hq hn =>
    cases h
    have hp := mtx_free hf hn
    obtain ⟨sc, p, q⟩ := c
    obtain rfl : q = .drain := hq
    refine ⟨_, .recv f hp, rx_moves hf (sc.recvCredit f) ?_⟩
    split <;> rfl
  · cases h

theorem refines_deliver {origin : Option Nat} (hf : Fits c o) (h : (c.spread o).deliver origin = some s') :
    ∃ c', Step c (.deliver origin) c' ∧ Models s' c' := by
  unfold Runtime.deliver at h
  split at h
  · next f hq hn =>
    cases h
    have hp := mtx_free hf hn
    obtain ⟨sc, p, q⟩ := c
    obtain rfl : q = .deliver f := hq
    have hfit : Fits ⟨sc.deliver f origin, p, .drain⟩ o := hf.of_eq rfl hf.f2
    refine ⟨_, .deliver origin hp, ?_⟩
    show Models (if (sc.delivery f).signal then (spread ⟨sc.deliver f origin, p, .drain⟩ o).signal
      else spread ⟨sc.deliver f origin, p, .drain⟩ o) _
    by_cases hd : (sc.delivery f).signal
    · rw [if_pos hd, if_pos hd]
      exact ⟨o, signal_spread hfit, hfit.wake⟩
    · rw [if_neg hd, if_neg hd]
      exact ⟨o, rfl, hfit⟩
  · cases h

theorem refines_drainEnd (hf : Fits c o) (h : (c.spread o).drainEnd = some s') :
    ∃ c', Step c .drainEnd c' ∧ Models s' c' := by
  unfold Runtime.drainEnd at h
  split at h
  · next hq =>
    cases h
    obtain ⟨sc, p, q⟩ := c
    obtain rfl : q = .drain := hq
    exact ⟨_, .drainEnd, rx_releases hf rfl sc rfl⟩
  · cases h

theorem refines_txStart (hf : Fits c o) (h : (c.spread o).txStart = some s') :
    ∃ c', Step c .txStart c' ∧ Models s' c' := by
  unfold Runtime.txStart at h
  split at h
  · next hq =>
    cases h
    obtain ⟨sc, p, q⟩ := c
    obtain rfl : q = .idle := hq
    exact ⟨_, .txStart, rx_moves hf (sc.check .data) rfl⟩
  · cases h

theorem refines_txCompare {alloc : Bool} (hf : Fits c o) (h : (c.spread o).txCompare alloc = some s') :
    ∃ c', Step c (.txCompare alloc) c' ∧ Models s' c' := by
  unfold Runtime.txCompare at h
  split at h
  · next rxMax hq =>
    obtain ⟨sc, p, q⟩ := c
    obtain rfl : q = .txCompare rxMax := hq
    by_cases hc : txCredits rxMax (spread ⟨sc, p, .txCompare rxMax⟩ o).sc.sdpcmTxSeq = 0
    · rw [if_pos hc] at h
      cases h
      exact ⟨_, .txDrop alloc, rx_moves hf sc rfl⟩
    · rw [if_neg hc] at h
      cases h
      cases alloc with
      | true => exact ⟨_, .txGranted hc, rx_moves hf sc rfl⟩
      | false => exact ⟨_, .txDrop false, rx_moves hf sc rfl⟩
  · cases h

theorem refines_txTake (hf : Fits c o) (h : (c.spread o).txTake = some s') :
    ∃ c', Step c .txTake c' ∧ Models s' c' := by
  unfold Runtime.txTake at h
  split at h
  · next hq hn =>
    cases h
    have hp := f2_free hf hn
    obtain ⟨sc, p, q⟩ := c
    obtain rfl : q = .txLock := hq
    exact ⟨_, .txTake hp, rx_takes hf hp sc rfl⟩
  · cases h

theorem refines_txStore (hf : Fits c o) (h : (c.spread o).txStore = some s') :
    ∃ c', Step c .txStore c' ∧ Models s' c' := by
  unfold Runtime.txStore at h
  split at h
  · next seq hq =>
    cases h
    obtain ⟨sc, p, q⟩ := c
    obtain rfl : q = .txStore seq := hq
    exact ⟨_, .txStore, rx_moves hf (sc.storeSeq .data seq) rfl⟩
  · cases h

theorem refines_txWrite {err : Errno} (hf : Fits c o) (h : (c.spread o).txWrite err = some s') :
    ∃ c', Step c (.txWrite err) c' ∧ Models s' c' := by
  unfold Runtime.txWrite at h
  split at h
  · next seq hq =>
    cases h
    obtain ⟨sc, p, q⟩ := c
    obtain rfl : q = .txWrite seq := hq
    by_cases he : err = 0
    · subst he
      exact ⟨_, .txWrote, rx_releases hf rfl (sc.wrote seq) rfl⟩
    · rw [if_neg he]
      exact ⟨_, .txWriteErr he, rx_releases hf rfl sc rfl⟩
  · cases h

theorem refines_detach (hf : Fits c o) (h : (c.spread o).detach = some s') :
    ∃ c', Step c .detach c' ∧ Models s' c' := by
  unfold Runtime.detach at h
  split at h
  · next hn =>
    cases h
    have hp := mtx_free hf hn
    obtain ⟨sc, p, q⟩ := c
    have hfit : Fits ⟨sc.detach, p, q⟩ o := hf.of_eq rfl hf.f2
    refine ⟨_, .detach hp, ?_⟩
    show Models (if sc.slot.ioctlWaiting then (spread ⟨sc.detach, p, q⟩ o).signal else spread ⟨sc.detach, p, q⟩ o) _
    by_cases hd : sc.slot.ioctlWaiting
    · rw [if_pos hd, if_pos hd]
      exact ⟨o, signal_spread hfit, hfit.wake⟩
    · rw [if_neg hd, if_neg hd]
      exact ⟨o, rfl, hfit⟩
  · cases h

/-- **Every step of the system is a step of the system with one caller.** -/
theorem step_refines {s : Runtime ι} {a : Action ι} (hm : Models s c) (h : s.step a = some s') :
    ∃ c', Step c (label a) c' ∧ Models s' c' := by
  obtain ⟨o, rfl, hf⟩ := hm
  cases a with
  | call i r buf => exact refines_call hf h
  | caller i => exact refines_caller hf h
  | write i err => exact refines_write hf h
  | timeout i => exact refines_timeout h
  | drain => exact refines_drain hf h
  | recv f => exact refines_recv hf h
  | deliver origin => exact refines_deliver hf h
  | drainEnd => exact refines_drainEnd hf h
  | txStart => exact refines_txStart hf h
  | txCompare alloc => exact refines_txCompare hf h
  | txTake => exact refines_txTake hf h
  | txStore => exact refines_txStore hf h
  | txWrite err => exact refines_txWrite hf h
  | detach => exact refines_detach hf h

/-! ## What is proved of one caller -/

variable {s : Runtime ι}

theorem Models.sc_eq (h : Models s c) : s.sc = c.sc := by
  obtain ⟨o, rfl, _⟩ := h
  rfl

theorem Models.rxTq_eq (h : Models s c) : s.rxTq = c.rxTq := by
  obtain ⟨o, rfl, _⟩ := h
  rfl

/-- A caller in a transaction is the one. -/
theorem Models.pc_eq (h : Models s c) (hi : s.pc i ≠ .idle) : s.pc i = c.pc := by
  obtain ⟨o, rfl, _⟩ := h
  simp only [spread] at hi ⊢
  split at hi
  · next ho => rw [if_pos ho]
  · exact (hi rfl).elim

/-- The caller that moves is the one. -/
theorem Models.caller_pc (h : Models s c) (hs : s.caller i = some s') : s.pc i = c.pc := by
  apply h.pc_eq
  intro hi
  simp [Runtime.caller, hi] at hs

/-- A caller in a transaction has `ioctl_sx`. -/
theorem Models.holder (h : Models s c) (hi : s.pc i ≠ .idle) : s.ioctlSx = some i := by
  obtain ⟨o, rfl, _⟩ := h
  by_cases ho : o = some i
  · exact ho
  · exact (hi (if_neg ho)).elim

/-- With `ioctl_sx` free nobody is in a transaction. -/
theorem Models.all_idle (h : Models s c) (hf : s.ioctlSx = none) (i : ι) : s.pc i = .idle := by
  apply Classical.byContradiction
  intro hi
  cases hf.symm.trans (h.holder hi)

/-- What is done to the softc from outside. -/
theorem Models.with_sc (h : Models s c) (sc : Softc) : Models { s with sc := sc } { c with sc := sc } := by
  obtain ⟨o, rfl, hf⟩ := h
  exact ⟨o, rfl, hf.idle, hf.f2⟩

/-- The one is one of the callers. -/
theorem Models.exists_pc (h : Models s c) (hc : c.pc ≠ .idle) : ∃ i, s.pc i = c.pc := by
  obtain ⟨o, rfl, hf⟩ := h
  cases o with
  | none => exact (hc (hf.idle.2 rfl)).elim
  | some i => exact ⟨i, if_pos rfl⟩

theorem models_init (slot : IoctlSlot) (ioctlId : UInt16) (txSeq rxMax : UInt8) :
    Models (Runtime.init ι slot ioctlId txSeq rxMax)
      ⟨⟨{ slot with ioctlWaiting := false }, ioctlId, txSeq, rxMax, 0, [], [], []⟩, .idle, .idle⟩ :=
  ⟨none, rfl, ⟨fun _ => rfl, fun _ => rfl⟩, nofun⟩

/-- **An invariant of the system with one caller holds in all states of the runs of the system.** -/
theorem allStates_core {J : Core → Prop} {C : Runtime ι → Action ι → Prop} {B : Core → Action Unit → Prop}
    (hcond : ∀ s c a s', Models s c → C s a → s.step a = some s' → B c (label a))
    (hinv : ∀ c a c', c.Exclusive → J c → B c a → Step c a c' → J c') (hm : Models s c) (hJ : J c)
    {as : List (Action ι)} (hC : Transition.AllSteps Runtime.step C s as) :
    Transition.AllStates Runtime.step (fun s => ∃ c, Models s c ∧ J c) s as := by
  refine Transition.allStates_sim (fun _ _ _ _ hm h => step_refines hm h) hcond ?_ hm hJ hC
  rintro s c b c' ⟨o, _, hf⟩ hJ hB hstep
  exact hinv c b c' hf.f2 hJ hB hstep

end Refines

end Core

end Cyw
