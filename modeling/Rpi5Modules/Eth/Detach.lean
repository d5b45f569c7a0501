import Rpi5Modules.Eth.Quiesce
import Rpi5Modules.Pcie.FilterPair

/-!
# Unloading the driver

`rp1eth_detach` stops the interface under the lock and then, without it, drains the two callouts, takes its filter out
of `bcm2712_pcie`, drains the task and frees the softc. Meanwhile the poll, the task and an interrupt can be at any
point.

The order leaves two gaps. A task in its window arms the poll after that was drained, and the poll is still armed when
the softc is freed (`detach_poll_armed`). An invocation of the filter that was called before it was deregistered
enqueues the task after that was drained (`detach_freed_used`). Nothing else is left pending (`detach_decides`).
-/

namespace Eth

open Transition Pcie

/-! ## State -/

/-- `rp1eth_detach`: before the call, or the store, that it names. -/
inductive DetachPc where
  | stop
  | drainTick
  | drainPoll
  | deregister
  | clearFilter
  | clearArg
  | drainTask
  | free
  | done

/-- The interface has been stopped. -/
def DetachPc.stopped : DetachPc → Bool
  | stop => false
  | _ => true

/-- `gem_poll` has been drained. -/
def DetachPc.pollDrained : DetachPc → Bool
  | stop => false
  | drainTick => false
  | drainPoll => false
  | _ => true

/-- `intr_task` has been drained. -/
def DetachPc.taskDrained : DetachPc → Bool
  | free => true
  | done => true
  | _ => false

/-- The softc is free. -/
def DetachPc.freed : DetachPc → Bool
  | done => true
  | _ => false

/-- The driver and `bcm2712_pcie`, where `cgem_intr_filter` and the softc are the only filter and argument. `call` is
the argument of the call that `bcm2712_pcie_filter` is about to make; `uaf` records a step that touched the softc after
it was freed. -/
structure DetachState where
  sv : Serv
  pcie : PcieIntr Unit Unit
  call : Option (Option Unit)
  detach : DetachPc
  uaf : Bool

/-- The stores of `bcm2712_pcie_register_rp1_intr(cgem_intr_filter, sc)` are made. -/
def pcieRegistered : PcieIntr Unit Unit := ⟨some (), some (), .idle, .idle, [(some (), some ())], []⟩

example : run pcieStep (pcieInit Unit Unit) [.register (some ()) (some ()), .store, .store] = some pcieRegistered := rfl

namespace DetachState

def attached (rxbufs : Int) (rxcsum : Bool) : DetachState where
  sv := Serv.attached rxbufs rxcsum
  pcie := pcieRegistered
  call := none
  detach := .stop
  uaf := false

end DetachState

/-! ## Steps -/

/-- What goes on by itself while the driver is detached. `cgem_intr_filter` is entered through `bcm2712_pcie_filter`. -/
def ServAct.async : ServAct → Bool
  | tick => true
  | rxHw _ => true
  | txHw _ => true
  | filterNext => true
  | pollFire => true
  | pollStat _ => true
  | pollNext => true
  | taskRun => true
  | taskNext => true
  | taskRecv _ => true
  | taskTail _ _ _ => true
  | _ => false

/-- What may be done while `rp1eth_detach` is at the given point: everything until it has stopped the interface. -/
def ServAct.allowed (detach : DetachPc) : ServAct → Bool
  | filter _ => false
  | a => a.async || !detach.stopped

/-- The step is the hardware's. -/
def ServAct.hardware : ServAct → Bool
  | rxHw _ => true
  | txHw _ => true
  | _ => false

inductive DetachAct where
  | serv (a : ServAct)
  /-- An interrupt reaches `bcm2712_pcie_filter`, which reads INT_STATUS. -/
  | intr (istat : UInt32)
  | loadFilter
  | loadArg
  /-- `filter(filter_arg)`, up to its read of INTR_STAT. -/
  | call (istat : BitVec 32)
  | detach

namespace DetachState

/-- The next call of `rp1eth_detach`. The drains wait for an instance that is running and remove one that is pending. -/
def detachNext (s : DetachState) : Option DetachState :=
  match s.detach with
  | .stop => s.sv.locked ((cgemStop s.sv).map fun sv => { sv with running := false }) |>.map fun sv =>
      { s with sv := sv, detach := .drainTick }
  | .drainTick => some { s with sv := { s.sv with tickCh := false }, detach := .drainPoll }
  | .drainPoll =>
    match s.sv.poll with
    | .idle => some { s with sv := { s.sv with gemPoll := false }, detach := .deregister }
    | _ => none
  | .deregister => (pcieStep s.pcie .deregister).map fun pcie => { s with pcie := pcie, detach := .clearFilter }
  | .clearFilter => (storeStep s.pcie).map fun pcie => { s with pcie := pcie, detach := .clearArg }
  | .clearArg => (storeStep s.pcie).map fun pcie => { s with pcie := pcie, detach := .drainTask }
  | .drainTask =>
    match s.sv.task with
    | .idle => some { s with sv := { s.sv with intrTask := false }, detach := .free }
    | _ => none
  | .free => some { s with detach := .done }
  | .done => none

def step (s : DetachState) : DetachAct → Option DetachState
  | .serv a =>
    if a.allowed s.detach then
      (s.sv.step a).map fun sv => { s with sv := sv, uaf := s.uaf || (s.detach.freed && !a.hardware) }
    else none
  | .intr istat =>
    match s.call, s.sv.filter with
    | none, .idle => (pcieStep s.pcie (.intr istat)).map fun pcie => { s with pcie := pcie }
    | _, _ => none
  | .loadFilter => (pcieStep s.pcie .loadFilter).map fun pcie => { s with pcie := pcie }
  | .loadArg => (pcieStep s.pcie .loadArg).map fun pcie => { s with pcie := pcie, call := some s.pcie.gRp1Arg }
  | .call istat =>
    match s.call with
    | some (some _) =>
      (s.sv.step (.filter istat)).map fun sv => { s with sv := sv, call := none, uaf := s.uaf || s.detach.freed }
    | _ => none
  | .detach => s.detachNext

end DetachState

/-! ## A stopped interface -/

/-- Past its test of `IFF_DRV_RUNNING`, and not yet past `callout_reset`. -/
def TaskPc.armsPoll : TaskPc → Bool
  | body _ => true
  | window _ => true
  | tail _ => true
  | enable => true
  | rearm => true
  | _ => false

/-- Past its test, with the transmit ring still as it found it. -/
def TaskPc.unsent : TaskPc → Bool
  | window _ => true
  | tail _ => true
  | _ => false

/-- The interface is stopped for good: nobody gets past the test any more, and a task that had is on its way out. -/
structure Stopped (sv : Serv) : Prop where
  running : sv.running = false
  tickCh : sv.tickCh = false
  poll : sv.poll.holds = false
  body : ∀ ist, sv.task ≠ .body ist
  tx : sv.task.unsent = true → TxStill sv.tx ∧ sv.tx.pc = .idle

/-- The poll is gone, and nobody arms it any more. -/
structure PollGone (sv : Serv) : Prop where
  gemPoll : sv.gemPoll = false
  poll : sv.poll = .idle
  task : sv.task.armsPoll = false

/-- The task is gone, and nobody enqueues it any more. -/
structure TaskGone (sv : Serv) : Prop where
  intrTask : sv.intrTask = false
  task : sv.task = .idle
  filter : sv.filter = .idle

section

variable {sv sv' : Serv} {a : ServAct}

theorem not_bringsUp_of_async (ha : a.async = true) : ¬sv.BringsUp a := by
  cases a with
  | init os => cases ha
  | ifflags up os => cases ha
  | _ => exact id

theorem stopped_stop {t : Serv} (hl : sv.lockFree = true) (h : cgemStop sv = some t) :
    Stopped { t with running := false } := by
  obtain ⟨tx, htx, rfl⟩ := Option.map_eq_some_iff.1 h
  obtain ⟨hp, ht⟩ := Serv.lockFree_iff.1 hl
  refine ⟨rfl, rfl, hp, ?_, fun _ => txStill_stop htx⟩
  intro ist hb
  rw [hb] at ht
  cases ht

theorem stopped_step (h : Stopped sv) (ha : a.async = true) (hs : sv.step a = some sv') : Stopped sv' := by
  have hpoll : ∀ {p}, sv.poll = p → p.holds ≠ true := by
    rintro p rfl
    simp [h.poll]
  cases Serv.step_cases hs with
  | keep hb => exact h
  | up os hl hr hb => exact (not_bringsUp_of_async ha hb).elim
  | down | ifcap | sysctl | start => cases ha
  | rxHw hrx => exact { h with }
  | txHw htx =>
    refine { h with tx := fun hu => ?_ }
    cases ((h.tx hu).1.hwFetch _).symm.trans htx
  | filter | filterMask | filterStore | filterEnqueue | filterStop =>
    exact { h with }
  | pollFire hp hg => exact { h with poll := rfl }
  | pollBack hp hr => exact { h with poll := rfl }
  | pollLock hp hl hr => cases h.running.symm.trans hr
  | pollStat hp | pollNothing hp | pollMask hp | pollPend hp | pollEnqueue hp | pollRearm hp | pollUnlock hp =>
    exact (hpoll hp rfl).elim
  | taskRun | taskStart | taskBack | taskEnable | taskRearm | taskUnlock =>
    exact ⟨h.running, h.tickCh, h.poll, nofun, nofun⟩
  | taskLock ht hl hr => cases h.running.symm.trans hr
  | taskRecv ht | taskSkip ht => exact (h.body _ ht).elim
  | taskWindow ht hl => exact ⟨h.running, h.tickCh, h.poll, nofun, fun _ => h.tx (by rw [ht]; rfl)⟩
  | taskTail ht htx htx' => exact ⟨h.running, h.tickCh, h.poll, nofun, nofun⟩

theorem pollGone_step (h : Stopped sv) (hp : PollGone sv) (ha : a.async = true) (hs : sv.step a = some sv') :
    PollGone sv' := by
  have htask : ∀ {p}, sv.task = p → p.armsPoll ≠ true := by
    rintro p rfl
    simp [hp.task]
  cases Serv.step_cases hs with
  | keep hb => exact hp
  | up os hl hr hb => exact (not_bringsUp_of_async ha hb).elim
  | down | ifcap | sysctl | start => cases ha
  | rxHw | txHw | filter | filterMask | filterStore | filterEnqueue => exact ⟨hp.gemPoll, hp.poll, hp.task⟩
  | filterStop => exact ⟨rfl, hp.poll, hp.task⟩
  | pollFire _ hg => cases hp.gemPoll.symm.trans hg
  | pollLock h' | pollBack h' | pollStat h' | pollNothing h' | pollMask h' | pollPend h' | pollEnqueue h' | pollRearm h'
  | pollUnlock h' => cases hp.poll.symm.trans h'
  | taskRun | taskStart | taskBack => exact ⟨hp.gemPoll, hp.poll, rfl⟩
  | taskLock ht hl hr => cases h.running.symm.trans hr
  | taskRecv ht | taskSkip ht | taskWindow ht | taskTail ht | taskEnable ht | taskRearm ht => exact (htask ht rfl).elim
  | taskUnlock => exact ⟨hp.gemPoll, hp.poll, rfl⟩

/-- With all of them gone, only the hardware is left to do anything, and it leaves them alone. -/
theorem taskGone_step (h : Stopped sv) (hp : PollGone sv) (ht : TaskGone sv) (ha : a.async = true)
    (hs : sv.step a = some sv') : TaskGone sv' ∧ a.hardware = true := by
  cases a with
  | tick => simp [Serv.step, h.tickCh] at hs
  | filterNext => simp [Serv.step, Serv.filterNext, ht.filter] at hs
  | pollFire => simp [Serv.step, hp.poll, hp.gemPoll] at hs
  | pollStat istat => simp [Serv.step, hp.poll] at hs
  | pollNext => simp [Serv.step, Serv.pollNext, hp.poll] at hs
  | taskRun => simp [Serv.step, ht.task, ht.intrTask] at hs
  | taskNext => simp [Serv.step, Serv.taskNext, ht.task] at hs
  | taskRecv os => simp [Serv.step, Serv.taskRecv, ht.task] at hs
  | taskTail clean os send => simp [Serv.step, Serv.taskTail, ht.task] at hs
  | rxHw ctl =>
    obtain ⟨rx, _, rfl⟩ := Option.map_eq_some_iff.1 hs
    exact ⟨⟨ht.intrTask, ht.task, ht.filter⟩, rfl⟩
  | txHw status =>
    obtain ⟨tx, _, rfl⟩ := Option.map_eq_some_iff.1 hs
    exact ⟨⟨ht.intrTask, ht.task, ht.filter⟩, rfl⟩
  | _ => cases ha

/-- The filter, on its way in, touches nothing but its own counter. -/
theorem filter_step {istat : BitVec 32} (hs : sv.step (.filter istat) = some sv') :
    ∃ f, sv' = { sv with filter := f } := by
  simp only [Serv.step] at hs
  split at hs
  · cases hs
    split
    · exact ⟨sv.filter, rfl⟩
    · exact ⟨.mask istat, rfl⟩
  · cases hs

end

namespace DetachState

/-! ## What is left pending -/

/-- When the softc is free, nothing is armed or queued; and nobody touches it afterwards. -/
def NothingPending (s : DetachState) : Prop :=
  (s.detach.freed = true → s.sv.tickCh = false ∧ s.sv.gemPoll = false ∧ s.sv.intrTask = false) ∧ s.uaf = false

/-- The poll is drained with no task past its test that is yet to arm it, and the task is drained with no invocation of
the filter that is in progress, or called with the softc. -/
def DrainOk (s : DetachState) : DetachAct → Prop
  | .detach =>
    match s.detach with
    | .drainPoll => s.sv.task.armsPoll = false
    | .drainTask => s.sv.filter = .idle ∧ s.call ≠ some (some ())
    | _ => True
  | _ => True

/-- What the stores of `bcm2712_pcie_deregister_rp1_intr` have come to. -/
def PcieAt (pcie : PcieIntr Unit Unit) : DetachPc → Prop
  | .clearFilter => pcie.caller = .deregFilter
  | .clearArg => pcie.caller = .deregArg
  | .drainTask => pcie.gRp1Arg = none
  | .free => pcie.gRp1Arg = none
  | .done => pcie.gRp1Arg = none
  | _ => pcie.caller = .idle

/-- **The invariant**: what `rp1eth_detach` is past is gone. -/
structure DetachInv (s : DetachState) : Prop where
  uaf : s.uaf = false
  stopped : s.detach.stopped = true → Stopped s.sv
  poll : s.detach.pollDrained = true → PollGone s.sv
  task : s.detach.taskDrained = true → TaskGone s.sv ∧ s.call ≠ some (some ())
  pcie : PcieAt s.pcie s.detach

variable {s s' : DetachState} {a : DetachAct}

theorem detachInv_attached (rxbufs : Int) (rxcsum : Bool) : (attached rxbufs rxcsum).DetachInv :=
  ⟨rfl, nofun, nofun, nofun, rfl⟩

theorem not_nothingPending_of_uaf (h : s.uaf = true) : ¬s.NothingPending :=
  fun hn => absurd (hn.2.symm.trans h) Bool.false_ne_true

theorem DetachInv.nothingPending (hi : s.DetachInv) : s.NothingPending := by
  refine ⟨fun hf => ?_, hi.uaf⟩
  cases hd : s.detach with
  | done =>
    have hstop := hi.stopped (by rw [hd]; rfl)
    have hpoll := hi.poll (by rw [hd]; rfl)
    have htask := hi.task (by rw [hd]; rfl)
    exact ⟨hstop.tickCh, hpoll.gemPoll, htask.1.intrTask⟩
  | _ =>
    rw [hd] at hf
    cases hf

theorem async_of_allowed {d : DetachPc} {b : ServAct} (h : b.allowed d = true) (hd : d.stopped = true) :
    b.async = true := by
  cases b <;> simp_all [ServAct.allowed, ServAct.async]

/-- What needs no caller is always allowed. -/
theorem allowed_of_async {d : DetachPc} {b : ServAct} (h : b.async = true) : b.allowed d = true := by
  cases b with
  | filter _ => cases h
  | _ => simp only [ServAct.allowed, h, Bool.true_or]

theorem taskDrained_of_freed {d : DetachPc} (h : d.freed = true) : d.taskDrained = true := by
  cases d <;> first | rfl | cases h

theorem pollDrained_of_taskDrained {d : DetachPc} (h : d.taskDrained = true) : d.pollDrained = true := by
  cases d <;> first | rfl | cases h

theorem stopped_of_pollDrained {d : DetachPc} (h : d.pollDrained = true) : d.stopped = true := by
  cases d <;> first | rfl | cases h

theorem detachInv_serv {b : ServAct} (hi : s.DetachInv) (hs : s.step (.serv b) = some s') : s'.DetachInv := by
  simp only [step] at hs
  split at hs
  · next hb =>
    obtain ⟨sv, hsv, rfl⟩ := Option.map_eq_some_iff.1 hs
    have hgone : s.detach.taskDrained = true → TaskGone sv ∧ b.hardware = true := by
      intro hd
      have hd' := pollDrained_of_taskDrained hd
      have hd'' := stopped_of_pollDrained hd'
      exact taskGone_step (hi.stopped hd'') (hi.poll hd') (hi.task hd).1 (async_of_allowed hb hd'') hsv
    refine ⟨?_, ?_, ?_, ?_, hi.pcie⟩
    · simp only [hi.uaf, Bool.false_or, Bool.and_eq_false_iff, Bool.not_eq_false']
      cases hd : s.detach.freed with
      | false => exact .inl rfl
      | true => exact .inr (hgone (taskDrained_of_freed hd)).2
    · intro hd
      exact stopped_step (hi.stopped hd) (async_of_allowed hb hd) hsv
    · intro hd
      have hd' := stopped_of_pollDrained hd
      exact pollGone_step (hi.stopped hd') (hi.poll hd) (async_of_allowed hb hd') hsv
    · intro hd
      exact ⟨(hgone hd).1, (hi.task hd).2⟩
  · cases hs

theorem detachInv_call {istat : BitVec 32} (hi : s.DetachInv) (hs : s.step (.call istat) = some s') :
    s'.DetachInv := by
  simp only [step] at hs
  split at hs
  · next hc =>
    obtain ⟨sv, hsv, rfl⟩ := Option.map_eq_some_iff.1 hs
    obtain ⟨f, rfl⟩ := filter_step hsv
    have hd : s.detach.taskDrained = false := by
      cases hd : s.detach.taskDrained with
      | false => rfl
      | true => exact ((hi.task hd).2 hc).elim
    refine ⟨?_, ?_, ?_, ?_, hi.pcie⟩
    · cases hf : s.detach.freed with
      | false => simp [hi.uaf]
      | true => cases hd.symm.trans (taskDrained_of_freed hf)
    · intro h
      obtain ⟨h1, h2, h3, h4, h5⟩ := hi.stopped h
      exact ⟨h1, h2, h3, h4, h5⟩
    · intro h
      obtain ⟨h1, h2, h3⟩ := hi.poll h
      exact ⟨h1, h2, h3⟩
    · intro h
      cases hd.symm.trans h
  · cases hs

theorem detachInv_detach (hi : s.DetachInv) (hok : s.DrainOk .detach) (hs : s.detachNext = some s') :
    s'.DetachInv := by
  have hpcie := hi.pcie
  have hno {p : Prop} (h : false = true) : p := (Bool.false_ne_true h).elim
  unfold detachNext at hs
  cases hd : s.detach with
  | stop =>
    rw [hd] at hs
    obtain ⟨sv, hsv, rfl⟩ := Option.map_eq_some_iff.1 hs
    obtain ⟨hl, hsv⟩ := Serv.locked_some hsv
    obtain ⟨t, ht, rfl⟩ := Option.map_eq_some_iff.1 hsv
    rw [hd] at hpcie
    exact ⟨hi.uaf, fun _ => stopped_stop hl ht, hno, hno, hpcie⟩
  | drainTick =>
    rw [hd] at hs hpcie
    cases hs
    obtain ⟨h1, h2, h3, h4, h5⟩ := hi.stopped (by rw [hd]; rfl)
    exact ⟨hi.uaf, fun _ => ⟨h1, rfl, h3, h4, h5⟩, hno, hno, hpcie⟩
  | drainPoll =>
    simp only [hd] at hs
    simp only [DrainOk, hd] at hok
    rw [hd] at hpcie
    split at hs
    · next hp =>
      cases hs
      obtain ⟨h1, h2, h3, h4, h5⟩ := hi.stopped (by rw [hd]; rfl)
      exact ⟨hi.uaf, fun _ => ⟨h1, h2, h3, h4, h5⟩, fun _ => ⟨rfl, hp, hok⟩, hno, hpcie⟩
    · cases hs
  | deregister =>
    rw [hd] at hs hpcie
    have hc : s.pcie.caller = .idle := hpcie
    simp only [pcieStep, hc, Option.map_some, Option.some.injEq] at hs
    subst hs
    exact ⟨hi.uaf, fun _ => hi.stopped (by rw [hd]; rfl), fun _ => hi.poll (by rw [hd]; rfl), hno, rfl⟩
  | clearFilter =>
    rw [hd] at hs hpcie
    have hc : s.pcie.caller = .deregFilter := hpcie
    simp only [storeStep, hc, Option.map_some, Option.some.injEq] at hs
    subst hs
    exact ⟨hi.uaf, fun _ => hi.stopped (by rw [hd]; rfl), fun _ => hi.poll (by rw [hd]; rfl), hno, rfl⟩
  | clearArg =>
    rw [hd] at hs hpcie
    have hc : s.pcie.caller = .deregArg := hpcie
    simp only [storeStep, hc, Option.map_some, Option.some.injEq] at hs
    subst hs
    exact ⟨hi.uaf, fun _ => hi.stopped (by rw [hd]; rfl), fun _ => hi.poll (by rw [hd]; rfl), hno, rfl⟩
  | drainTask =>
    simp only [hd] at hs
    simp only [DrainOk, hd] at hok
    rw [hd] at hpcie
    split at hs
    · next ht =>
      cases hs
      obtain ⟨h1, h2, h3, h4, h5⟩ := hi.stopped (by rw [hd]; rfl)
      obtain ⟨h6, h7, h8⟩ := hi.poll (by rw [hd]; rfl)
      refine ⟨hi.uaf, fun _ => ⟨h1, h2, h3, h4, h5⟩, fun _ => ⟨h6, h7, h8⟩, fun _ => ⟨⟨rfl, ht, hok.1⟩, hok.2⟩, hpcie⟩
    · cases hs
  | free =>
    rw [hd] at hs hpcie
    cases hs
    refine ⟨hi.uaf, fun _ => hi.stopped (by rw [hd]; rfl), fun _ => hi.poll (by rw [hd]; rfl), fun _ => ?_, hpcie⟩
    exact hi.task (by rw [hd]; rfl)
  | done =>
    rw [hd] at hs
    cases hs

/-- The loads leave alone what the thread stores. -/
theorem PcieAt.load {pcie pcie' : PcieIntr Unit Unit} {b : PcieAct Unit Unit} {d : DetachPc} (h : PcieAt pcie d)
    (hb : b = .loadFilter ∨ b = .loadArg ∨ ∃ istat, b = .intr istat) (hs : pcieStep pcie b = some pcie') :
    PcieAt pcie' d := by
  have hkept : pcie'.caller = pcie.caller ∧ pcie'.gRp1Arg = pcie.gRp1Arg := by
    rcases hb with rfl | rfl | ⟨istat, rfl⟩
    · simp only [pcieStep] at hs
      split at hs <;> cases hs
      exact ⟨rfl, rfl⟩
    · simp only [pcieStep] at hs
      split at hs <;> cases hs
      exact ⟨rfl, rfl⟩
    · simp only [pcieStep] at hs
      split at hs <;> cases hs
      split <;> exact ⟨rfl, rfl⟩
  cases d <;> first | exact hkept.1.trans h | exact hkept.2.trans h

/-- Once the task is drained the argument is cleared. -/
theorem PcieAt.arg {pcie : PcieIntr Unit Unit} {d : DetachPc} (h : PcieAt pcie d) (hd : d.taskDrained = true) :
    pcie.gRp1Arg = none := by
  cases d <;> first | exact h | cases hd

theorem detachInv_step (hi : s.DetachInv) (hok : s.DrainOk a) (hs : s.step a = some s') : s'.DetachInv := by
  cases a with
  | serv b => exact detachInv_serv hi hs
  | call istat => exact detachInv_call hi hs
  | detach => exact detachInv_detach hi hok hs
  | intr istat =>
    simp only [step] at hs
    split at hs
    · obtain ⟨pcie, hp, rfl⟩ := Option.map_eq_some_iff.1 hs
      exact { hi with pcie := hi.pcie.load (.inr (.inr ⟨istat, rfl⟩)) hp }
    · cases hs
  | loadFilter =>
    obtain ⟨pcie, hp, rfl⟩ := Option.map_eq_some_iff.1 hs
    exact { hi with pcie := hi.pcie.load (.inl rfl) hp }
  | loadArg =>
    obtain ⟨pcie, hp, rfl⟩ := Option.map_eq_some_iff.1 hs
    refine { hi with task := fun hd => ⟨(hi.task hd).1, ?_⟩, pcie := hi.pcie.load (.inr (.inl rfl)) hp }
    simp [hi.pcie.arg hd]

/-! ## A drain too early -/

/-- Until the softc is free, a run of the driver is one of the whole. -/
theorem run_serv {bs : List ServAct} {sv : Serv} (hb : ∀ b ∈ bs, b.async = true) (hd : s.detach.freed = false)
    (hr : run Serv.step s.sv bs = some sv) : run step s (bs.map .serv) = some { s with sv := sv } := by
  induction bs generalizing s with
  | nil =>
    cases hr
    rfl
  | cons b bs ih =>
    obtain ⟨t, ht, hr⟩ := run_cons_some.1 hr
    have hal : b.allowed s.detach = true := allowed_of_async (hb b List.mem_cons_self)
    have hst : s.step (.serv b) = some { s with sv := t } := by simp [step, hal, ht, hd]
    refine run_cons_some.2 ⟨_, hst, ?_⟩
    exact ih (s := { s with sv := t }) (fun c hc => hb c (List.mem_cons_of_mem b hc)) hd hr

/-- A task past its test arms the poll and ends. -/
theorem arms_poll {sv : Serv} (h : Stopped sv) (ht : sv.task.armsPoll = true) (hl : sv.poll = .idle) :
    ∃ bs t, (∀ b ∈ bs, b.async = true) ∧ run Serv.step sv bs = some t ∧ t.gemPoll = true ∧ t.task = .idle := by
  cases htask : sv.task with
  | idle | start | lock ist | unlock =>
    rw [htask] at ht
    cases ht
  | body ist => exact (h.body ist htask).elim
  | window ist =>
    obtain ⟨htx, hpc⟩ := h.tx (by rw [htask]; rfl)
    have hrest := Serv.run_taskRest (s := { sv with task := .tail ist }) rfl hpc htx.queued
    have hback : sv.step .taskNext = some { sv with task := .tail ist } := by
      simp [Serv.step, Serv.taskNext, htask, Serv.lockFree, hl, PollPc.holds, TaskPc.holds]
    have hrun := run_cons_some.2 ⟨_, hback, hrest⟩
    exact ⟨.taskNext :: Serv.taskRest, _, by simp [Serv.taskRest, ServAct.async], hrun, rfl, rfl⟩
  | tail ist =>
    obtain ⟨htx, hpc⟩ := h.tx (by rw [htask]; rfl)
    have hrest := Serv.run_taskRest htask hpc htx.queued
    exact ⟨Serv.taskRest, _, by simp [Serv.taskRest, ServAct.async], hrest, rfl, rfl⟩
  | enable =>
    have hrun : run Serv.step sv [.taskNext, .taskNext, .taskNext] = some
        { sv with intrEn := sv.intrEn ||| cgemIntrSources, gemPoll := true, task := .idle, serviced := true } := by
      simp [Serv.step, Serv.taskNext, htask]
    exact ⟨_, _, by simp [ServAct.async], hrun, rfl, rfl⟩
  | rearm =>
    have hrun : run Serv.step sv [.taskNext, .taskNext] = some
        { sv with gemPoll := true, task := .idle, serviced := true } := by
      simp [Serv.step, Serv.taskNext, htask]
    exact ⟨_, _, by simp [ServAct.async], hrun, rfl, rfl⟩

/-- With no task in progress `rp1eth_detach` goes on to free the softc, whatever is armed. -/
theorem run_free (hd : s.detach = .deregister) (hc : s.pcie.caller = .idle) (ht : s.sv.task = .idle) :
    ∃ t, run step s [.detach, .detach, .detach, .detach, .detach] = some t ∧ t.detach = .done ∧
      t.sv.gemPoll = s.sv.gemPoll := by
  simp [step, detachNext, pcieStep, storeStep, hd, hc, ht]

theorem pending_of_poll (hi : s.DetachInv) (hd : s.detach = .drainPoll) (ht : s.sv.task.armsPoll = true)
    (hs : s.detachNext = some s') : ∃ bs t, run step s' bs = some t ∧ ¬t.NothingPending := by
  have hpcie := hi.pcie
  rw [hd] at hpcie
  simp only [detachNext, hd] at hs
  split at hs
  · next hp =>
    cases hs
    obtain ⟨h1, h2, h3, h4, h5⟩ := hi.stopped (by rw [hd]; rfl)
    have hstopped : Stopped { s.sv with gemPoll := false } := ⟨h1, h2, h3, h4, h5⟩
    obtain ⟨bs, sv, hb, hr, hg, htask⟩ := arms_poll hstopped ht hp
    have hrun := run_serv (s := { s with sv := { s.sv with gemPoll := false }, detach := .deregister }) hb rfl hr
    obtain ⟨t, hfree, hdone, hgem⟩ := run_free (s := { s with sv := sv, detach := .deregister }) rfl hpcie htask
    have hall : run step { s with sv := { s.sv with gemPoll := false }, detach := .deregister }
        (bs.map DetachAct.serv ++ [.detach, .detach, .detach, .detach, .detach]) = some t := by
      rw [run_append, hrun]
      exact hfree
    refine ⟨_, t, hall, ?_⟩
    · intro h
      cases (hgem.trans hg).symm.trans (h.1 (by rw [hdone]; rfl)).2.1
  · cases hs

/-- An invocation that is in progress goes on. -/
theorem filterNext_some {sv : Serv} (hf : sv.filter ≠ .idle) : ∃ t, sv.filterNext = some t := by
  unfold Serv.filterNext
  cases h : sv.filter with
  | idle => exact (hf h).elim
  | _ => exact ⟨_, rfl⟩

/-- An invocation of the filter that `taskqueue_drain` did not wait for goes on with a softc that is free. -/
theorem pending_of_filter (hd : s.detach = .drainTask) (hf : ¬(s.sv.filter = .idle ∧ s.call ≠ some (some ())))
    (hs : s.detachNext = some s') : ∃ bs t, run step s' bs = some t ∧ ¬t.NothingPending := by
  simp only [detachNext, hd] at hs
  split at hs
  · cases hs
    by_cases hidle : s.sv.filter = .idle
    · have hc : s.call = some (some ()) := by simpa [hidle] using hf
      let sv := { s.sv with intrTask := false, filter := .idle }
      refine ⟨[.detach, .call 0], { s with sv := sv, call := none, detach := .done, uaf := true }, ?_,
        not_nothingPending_of_uaf rfl⟩
      simp [sv, step, detachNext, hc, Serv.step, hidle, DetachPc.freed]
    · have hbusy : ({ s.sv with intrTask := false } : Serv).filter ≠ .idle := hidle
      obtain ⟨t, ht⟩ := filterNext_some hbusy
      refine ⟨[.detach, .serv .filterNext], { s with sv := t, detach := .done, uaf := true }, ?_,
        not_nothingPending_of_uaf rfl⟩
      simp [step, detachNext, ServAct.allowed, ServAct.async, ServAct.hardware, Serv.step, ht, DetachPc.freed]
  · cases hs

/-- **Detach leaves something pending exactly if it drains too early.** In every interleaving from attach on: as long as
`gem_poll` is drained with no task past its test and yet to arm it, and `intr_task` with no invocation of the filter in
progress, nothing is armed or queued when the softc is freed and nobody touches it later; a drain at any other time can
be followed by a state where something is, or a step that does. -/
theorem detach_decides (rxbufs : Int) (rxcsum : Bool) (as : List DetachAct) :
    Decides step (fun _ _ => True) DrainOk NothingPending (attached rxbufs rxcsum) as := by
  refine decides_of_inv (I := DetachInv) ?_ (fun s hi => hi.nothingPending) ?_ (detachInv_attached rxbufs rxcsum) as
  · intro s a s' hi hok hs
    exact detachInv_step hi hok hs
  · intro s a s' hi hok hs
    cases a with
    | detach =>
      cases hd : s.detach with
      | drainPoll =>
        simp only [DrainOk, hd, Bool.not_eq_false] at hok
        exact pending_of_poll hi hd hok hs
      | drainTask =>
        simp only [DrainOk, hd] at hok
        exact pending_of_filter hd hok hs
      | _ => simp [DrainOk, hd] at hok
    | _ => exact (hok trivial).elim

/-- The task is in its window when the interface is stopped, and ends after `gem_poll` was drained: the softc is freed
with the poll armed. -/
theorem detach_poll_armed : ∃ s, run step (attached 0 false)
    (List.flatten [[.serv (.init []), .intr Pcie.cgemIntAny, .loadFilter, .loadArg, .call 0x2],
      List.map .serv [.filterNext, .filterNext, .filterNext, .filterNext, .taskRun, .taskNext, .taskNext, .taskRecv []],
      [.detach, .detach, .detach], List.map .serv (.taskNext :: Serv.taskRest),
      [.detach, .detach, .detach, .detach, .detach]]) = some s ∧
    s.detach.freed = true ∧ s.sv.gemPoll = true ∧ ¬s.NothingPending := by
  refine ⟨_, rfl, rfl, rfl, ?_⟩
  intro h
  cases (h.1 rfl).2.1

/-- The filter is called and masks its interrupts; it enqueues the task after `rp1eth_detach` has drained it and freed
the softc. -/
theorem detach_freed_used : ∃ s, run step (attached 0 false)
    (List.flatten [[.serv (.init []), .intr Pcie.cgemIntAny, .loadFilter, .loadArg, .call 0x2],
      [.serv .filterNext, .detach, .detach, .detach, .detach, .detach, .detach, .detach, .detach],
      [.serv .filterNext, .serv .filterNext]]) = some s ∧
    s.detach.freed = true ∧ s.sv.intrTask = true ∧ s.uaf = true :=
  ⟨_, rfl, rfl, rfl, rfl⟩

end DetachState

end Eth
