import Rpi5Modules.Cyw.OneCaller

/-!
# Unloading the driver under a reader

A reader of `fw_wsec`, `fw_wpa_auth` or `fw_auth` tests `sdpcm_running` in `cyw_sysctl_fw_iovar` and calls
`cyw_fil_iovar_int_get`. `cyw_fil_txrx` tests it again under `ioctl_sx`: a thread that finds it true goes through
`Runtime`, one that finds it false polls by itself, as during the boot.

`cyw_detach` clears the flag, drains `rx_tq`, wakes one sleeper and destroys `ioctl_cv` and `f2_sx`. Only then does it
wait for the readers, in `sysctl_ctx_free`; `ioctl_sx` and `mtx` go last. So the last two are never used afterwards, and
the first two are if a thread that found the flag true is still on its way to them (`iovar_outlives_f2`). That is the
only case (`iovar_locks_decide`).
-/

namespace Cyw

open Transition

/-! ## What a step locks, unlocks, waits on or signals -/

inductive LockObj where
  | ioctlCv
  | f2Sx
  | ioctlSx
  | mtx
deriving DecidableEq

/-- The next step of a caller; `waiting` is `ioctl_waiting`. -/
def CallerPc.uses (waiting : Bool) : CallerPc → List LockObj
  | idle => [.ioctlSx]
  | credit _ _ => []
  | compare _ _ _ => []
  | lock _ => [.mtx]
  | arming _ _ => [.mtx]
  | f2Lock _ _ => [.f2Sx]
  | f2Write _ _ => [.f2Sx]
  | failed _ _ => [.mtx]
  | wait _ => if waiting then [.mtx, .ioctlCv] else [.mtx]
  | asleep _ => [.ioctlCv]
  | woken _ _ => [.mtx]
  | out _ _ => [.ioctlSx]

def Action.uses {ι : Type} (s : Runtime ι) : Action ι → List LockObj
  | call _ _ _ => [.ioctlSx]
  | caller i => (s.pc i).uses s.sc.slot.ioctlWaiting
  | write i _ => (s.pc i).uses s.sc.slot.ioctlWaiting
  | timeout i => (s.pc i).uses s.sc.slot.ioctlWaiting
  | drain => [.f2Sx]
  | recv _ => [.mtx]
  | deliver _ => [.mtx, .ioctlCv]
  | drainEnd => [.f2Sx]
  | txStart => []
  | txCompare _ => []
  | txTake => [.f2Sx]
  | txStore => []
  | txWrite _ => [.f2Sx]
  | detach => [.mtx, .ioctlCv]

/-! ## State -/

/-- `cyw_detach`: before the call, or the part of `cyw_sdpcm_detach`, that it names. -/
inductive DetachPc where
  | stop
  /-- `callout_drain`, the two `taskqueue_drain`, `taskqueue_free`. -/
  | drainRx
  | wake
  | cvDestroy
  | f2Destroy
  /-- `cyw_sdio_detach`, which takes no lock, and `sysctl_ctx_free`. -/
  | sysctlFree
  | ioctlDestroy
  | mtxDestroy
  | done

def DetachPc.rank : DetachPc → Nat
  | stop => 0
  | drainRx => 1
  | wake => 2
  | cvDestroy => 3
  | f2Destroy => 4
  | sysctlFree => 5
  | ioctlDestroy => 6
  | mtxDestroy => 7
  | done => 8

/-- The call that destroys the object has been made. -/
def DetachPc.dead (d : DetachPc) : LockObj → Bool
  | .ioctlCv => d.rank > 3
  | .f2Sx => d.rank > 4
  | .ioctlSx => d.rank > 6
  | .mtx => d.rank > 7

/-- The driver while readers and `cyw_detach` run. `passed` are the threads past the test of `cyw_sysctl_fw_iovar` that
have not taken `ioctl_sx` yet; `boot` is the one that holds it on the polling path (`rt.ioctlSx` one on the other
path). `fault` records the use of an object that was destroyed. -/
structure Unload (ι : Type) where
  rt : Runtime ι
  sdpcmRunning : Bool
  passed : List ι
  boot : Option ι
  detach : DetachPc
  fault : Bool

inductive UnloadAct (ι : Type) where
  /-- A reader enters `cyw_sysctl_fw_iovar` and tests `sdpcm_running`. -/
  | enter (i : ι)
  /-- It calls `cyw_fil_txrx`, takes `ioctl_sx` and tests `sdpcm_running` again. -/
  | call (i : ι) (r : Req) (buf : Nat)
  | rt (a : Action ι)
  /-- On the polling path: `cyw_sdpcm_recv_one`, which takes `mtx` to count an error or to note the credit. -/
  | bootRecv (f : Option RxFrame)
  /-- `sc->sdpcm_tx_seq++` and the F2 write. -/
  | bootSend
  | bootOut
  | detach

namespace Unload

/-- In operation: readers come and go through the runtime path. -/
def init (ι : Type) (slot : IoctlSlot) (ioctlId : UInt16) (txSeq rxMax : UInt8) : Unload ι :=
  ⟨Runtime.init ι slot ioctlId txSeq rxMax, true, [], none, .stop, false⟩

/-! ## Steps -/

/-- `rx_tq` works until it is drained; the callers go on. -/
def rtAllowed {ι : Type} (d : DetachPc) : Action ι → Bool
  | .call _ _ _ => false
  | .caller _ => true
  | .write _ _ => true
  | .timeout _ => true
  | .detach => false
  | _ => d.rank ≤ 1

variable {ι : Type} [DecidableEq ι]

omit [DecidableEq ι] in
/-- The use of an object that is destroyed. -/
def faultOf (s : Unload ι) (os : List LockObj) : Bool := s.fault || os.any s.detach.dead

def enter (s : Unload ι) (i : ι) : Option (Unload ι) :=
  if s.detach.rank ≤ 5 ∧ i ∉ s.passed then
    match s.rt.pc i with
    | .idle => if s.boot = some i then none else some (if s.sdpcmRunning then { s with passed := i :: s.passed } else s)
    | _ => none
  else none

def call (s : Unload ι) (i : ι) (r : Req) (buf : Nat) : Option (Unload ι) :=
  if i ∈ s.passed ∧ s.boot.isNone ∧ s.rt.ioctlSx.isNone then
    let t := { s with passed := s.passed.erase i, fault := s.faultOf [.ioctlSx] }
    if s.sdpcmRunning then (s.rt.call i r buf).map fun rt => { t with rt := rt }
    else some { t with rt := { s.rt with sc := s.rt.sc.start (s.rt.sc.newCall r buf) }, boot := some i }
  else none

def bootRecv (s : Unload ι) (f : Option RxFrame) : Option (Unload ι) :=
  match s.boot, s.rt.mtx with
  | some _, none =>
    some { s with rt := { s.rt with sc := (f.map s.rt.sc.recvCredit).getD s.rt.sc }, fault := s.faultOf [.mtx] }
  | _, _ => none

def bootSend (s : Unload ι) : Option (Unload ι) :=
  match s.boot with
  | some _ =>
    some { s with rt := { s.rt with sc := { s.rt.sc with sdpcmTxSeq := s.rt.sc.sdpcmTxSeq + 1 } } }
  | none => none

def bootOut (s : Unload ι) : Option (Unload ι) :=
  match s.boot with
  | some _ => some { s with boot := none, fault := s.faultOf [.ioctlSx] }
  | none => none

/-- The next call of `cyw_detach`. -/
def detachNext (s : Unload ι) : Option (Unload ι) :=
  match s.detach with
  | .stop => some { s with sdpcmRunning := false, detach := .drainRx }
  | .drainRx =>
    match s.rt.rxTq with
    | .idle => some { s with detach := .wake }
    | _ => none
  | .wake =>
    s.rt.detach.map fun rt => { s with rt := rt, detach := .cvDestroy, fault := s.faultOf (Action.uses s.rt .detach) }
  | .cvDestroy => some { s with detach := .f2Destroy }
  | .f2Destroy => some { s with detach := .sysctlFree }
  | .sysctlFree =>
    -- it waits for the handlers
    if s.passed = [] ∧ s.rt.ioctlSx.isNone ∧ s.boot.isNone then some { s with detach := .ioctlDestroy } else none
  | .ioctlDestroy => some { s with detach := .mtxDestroy }
  | .mtxDestroy => some { s with detach := .done }
  | .done => none

def step (s : Unload ι) : UnloadAct ι → Option (Unload ι)
  | .enter i => s.enter i
  | .call i r buf => s.call i r buf
  | .rt a =>
    if rtAllowed s.detach a then
      (s.rt.step a).map fun rt => { s with rt := rt, fault := s.faultOf (a.uses s.rt) }
    else none
  | .bootRecv f => s.bootRecv f
  | .bootSend => s.bootSend
  | .bootOut => s.bootOut
  | .detach => s.detachNext

end Unload

/-! ## Who is still on the way to `ioctl_cv` or `f2_sx` -/

/-- With nobody left to raise `sdpcm_rx_max` or to clear `ioctl_waiting`, the caller will not wait on `ioctl_cv`: it
finds no credit, or finds `ioctl_waiting` cleared, or is past the wait. -/
def CallerPc.CvFree (sc : Softc) : CallerPc → Prop
  | credit _ _ => sc.credit = 0
  | compare _ n rxMax => if n < 200 then sc.credit = 0 else txCredits rxMax sc.sdpcmTxSeq = 0
  | lock _ => False
  | arming _ _ => False
  | f2Lock _ _ => sc.slot.ioctlWaiting = false
  | f2Write _ _ => sc.slot.ioctlWaiting = false
  | wait _ => sc.slot.ioctlWaiting = false
  | asleep _ => False
  | _ => True

/-- The caller is about to take `f2_sx`, or holds it. -/
def CallerPc.F2Free : CallerPc → Prop
  | f2Lock _ _ => False
  | f2Write _ _ => False
  | _ => True

section

variable {ι : Type} [DecidableEq ι] {s s' : Runtime ι} {i j : ι}

/-- A caller's step moves the caller, and leaves the thread of `rx_tq` where it is. -/
structure Moves (s s' : Runtime ι) (i : ι) : Prop where
  pc : ∃ p, s'.pc = Function.update s.pc i p
  rxTq : s'.rxTq = s.rxTq
  free : s.ioctlSx = none → s'.ioctlSx = none

theorem moves_caller (h : s.caller i = some s') : Moves s s' i := by
  unfold Runtime.caller at h
  split at h <;> try cases h
  all_goals try exact ⟨⟨_, rfl⟩, rfl, id⟩
  · dsimp only at h
    split at h <;> cases h <;> exact ⟨⟨_, rfl⟩, rfl, id⟩
  · split at h
    · cases h
      exact ⟨⟨_, rfl⟩, rfl, id⟩
    · cases h
  · split at h <;> cases h <;> exact ⟨⟨_, rfl⟩, rfl, id⟩
  · exact ⟨⟨_, rfl⟩, rfl, fun _ => rfl⟩

theorem moves_write {err : Errno} (h : s.write i err = some s') : Moves s s' i := by
  unfold Runtime.write at h
  split at h
  · split at h <;> cases h <;> exact ⟨⟨_, rfl⟩, rfl, id⟩
  · cases h

theorem moves_timeout (h : s.timeout i = some s') : Moves s s' i := by
  unfold Runtime.timeout at h
  split at h
  · cases h
    exact ⟨⟨_, rfl⟩, rfl, id⟩
  · cases h

/-- Once off the way to `ioctl_cv`, a caller stays off, and uses it no more. -/
theorem cvFree_caller (hf : (s.pc i).CvFree s.sc) (h : s.caller i = some s') :
    (s'.pc i).CvFree s'.sc ∧ .ioctlCv ∉ (s.pc i).uses s.sc.slot.ioctlWaiting := by
  unfold Runtime.caller at h
  cases hp : s.pc i with
  | idle | asleep c | f2Write c seq => simp [hp] at h
  | lock c | arming c seq =>
    rw [hp] at hf
    cases hf
  | credit c n =>
    simp only [hp, Option.some.injEq] at h
    subst h
    rw [hp] at hf
    have hc : s.sc.credit = 0 := hf
    refine ⟨?_, by simp [CallerPc.uses]⟩
    simp only [Function.update_self, CallerPc.CvFree]
    split
    · exact hc
    · exact hc
  | compare c n rxMax =>
    rw [hp] at hf
    simp only [hp] at h
    simp only [CallerPc.CvFree] at hf
    refine ⟨?_, by simp [CallerPc.uses]⟩
    split at h
    · next hn =>
      cases h
      rw [if_pos hn] at hf
      simpa [CallerPc.CvFree] using hf
    · next hn =>
      cases h
      rw [if_neg hn] at hf
      simp [hf, CallerPc.CvFree]
  | f2Lock c seq =>
    rw [hp] at hf
    simp only [hp] at h
    split at h
    · cases h
      exact ⟨by simpa [CallerPc.CvFree] using hf, by simp [CallerPc.uses]⟩
    · cases h
  | wait c =>
    rw [hp] at hf
    have hw : s.sc.slot.ioctlWaiting = false := hf
    cases hm : s.mtx with
    | some k => simp [hp, hm] at h
    | none =>
      simp only [hp, hm, hw, Bool.false_eq_true, if_false, Option.some.injEq] at h
      subst h
      exact ⟨by simp [CallerPc.CvFree], by simp [CallerPc.uses, hw]⟩
  | failed c err =>
    cases hm : s.mtx with
    | some k => simp [hp, hm] at h
    | none =>
      simp only [hp, hm, Option.some.injEq] at h
      subst h
      exact ⟨by simp [CallerPc.CvFree], by simp [CallerPc.uses]⟩
  | woken c cerr =>
    cases hm : s.mtx with
    | some k => simp [hp, hm] at h
    | none =>
      simp only [hp, hm, Option.some.injEq] at h
      subst h
      exact ⟨by simp [CallerPc.CvFree], by simp [CallerPc.uses]⟩
  | out c err =>
    simp only [hp, Option.some.injEq] at h
    subst h
    exact ⟨by simp [CallerPc.CvFree], by simp [CallerPc.uses]⟩

/-- Past `f2_sx` and off the way to `ioctl_cv`, a caller uses `f2_sx` no more. -/
theorem f2Free_caller (hc : (s.pc i).CvFree s.sc) (hf : (s.pc i).F2Free) (h : s.caller i = some s') :
    (s'.pc i).F2Free ∧ .f2Sx ∉ (s.pc i).uses s.sc.slot.ioctlWaiting := by
  unfold Runtime.caller at h
  cases hp : s.pc i with
  | idle | asleep c | f2Write c seq => simp [hp] at h
  | lock c | arming c seq =>
    rw [hp] at hc
    cases hc
  | f2Lock c seq =>
    rw [hp] at hf
    cases hf
  | credit c n =>
    simp only [hp, Option.some.injEq] at h
    subst h
    exact ⟨by simp [CallerPc.F2Free], by simp [CallerPc.uses]⟩
  | compare c n rxMax =>
    simp only [hp] at h
    refine ⟨?_, by simp [CallerPc.uses]⟩
    split at h
    · cases h
      simp [CallerPc.F2Free]
    · cases h
      simp only [Function.update_self]
      split <;> trivial
  | wait c =>
    cases hm : s.mtx with
    | some k => simp [hp, hm] at h
    | none =>
      simp only [hp, hm] at h
      split at h <;> cases h <;> exact ⟨by simp [CallerPc.F2Free], by simp [CallerPc.uses]; split <;> simp⟩
  | failed c err | woken c cerr =>
    cases hm : s.mtx with
    | some k => simp [hp, hm] at h
    | none =>
      simp only [hp, hm, Option.some.injEq] at h
      subst h
      exact ⟨by simp [CallerPc.F2Free], by simp [CallerPc.uses]⟩
  | out c err =>
    simp only [hp, Option.some.injEq] at h
    subst h
    exact ⟨by simp [CallerPc.F2Free], by simp [CallerPc.uses]⟩

/-! ## Steps of the callers -/

/-- The caller that takes the step. -/
def Action.by {ι : Type} : Action ι → Option ι
  | caller i => some i
  | write i _ => some i
  | timeout i => some i
  | _ => none

variable {a : Action ι}

theorem moves_step (ha : a.by = some i) (h : s.step a = some s') : Moves s s' i := by
  cases a with
  | caller k =>
    cases ha
    exact moves_caller h
  | write k err =>
    cases ha
    exact moves_write h
  | timeout k =>
    cases ha
    exact moves_timeout h
  | _ => cases ha

omit [DecidableEq ι] in
theorem uses_by (ha : a.by = some i) : a.uses s = (s.pc i).uses s.sc.slot.ioctlWaiting := by
  cases a <;> cases ha <;> rfl

theorem not_idle_of_by (ha : a.by = some i) (h : s.step a = some s') : s.pc i ≠ .idle := by
  intro hi
  cases a with
  | caller k =>
    cases ha
    simp [Runtime.step, Runtime.caller, hi] at h
  | write k err =>
    cases ha
    simp [Runtime.step, Runtime.write, hi] at h
  | timeout k =>
    cases ha
    simp [Runtime.step, Runtime.timeout, hi] at h
  | _ => cases ha

theorem cvFree_step (ha : a.by = some i) (hf : (s.pc i).CvFree s.sc) (h : s.step a = some s') :
    (s'.pc i).CvFree s'.sc ∧ .ioctlCv ∉ a.uses s := by
  rw [uses_by ha]
  cases a with
  | caller k =>
    cases ha
    exact cvFree_caller hf h
  | write k err =>
    cases ha
    simp only [Runtime.step, Runtime.write] at h
    split at h
    · next c seq hp =>
      rw [hp] at hf ⊢
      split at h <;> cases h
      · exact ⟨by simpa [CallerPc.CvFree, Softc.wrote] using hf, by simp [CallerPc.uses]⟩
      · exact ⟨by simp [CallerPc.CvFree], by simp [CallerPc.uses]⟩
    · cases h
  | timeout k =>
    cases ha
    simp only [Runtime.step, Runtime.timeout] at h
    split at h
    · next c hp =>
      rw [hp] at hf
      cases hf
    · cases h
  | _ => cases ha

theorem f2Free_step (ha : a.by = some i) (hc : (s.pc i).CvFree s.sc) (hf : (s.pc i).F2Free)
    (h : s.step a = some s') : (s'.pc i).F2Free ∧ .f2Sx ∉ a.uses s := by
  rw [uses_by ha]
  cases a with
  | caller k =>
    cases ha
    exact f2Free_caller hc hf h
  | write k err =>
    cases ha
    simp only [Runtime.step, Runtime.write] at h
    split at h
    · next c seq hp =>
      rw [hp] at hf
      cases hf
    · cases h
  | timeout k =>
    cases ha
    simp only [Runtime.step, Runtime.timeout] at h
    split at h
    · next c hp =>
      rw [hp] at hc
      cases hc
    · cases h
  | _ => cases ha

/-- The other callers are idle, before and after. -/
theorem Moves.other {c : Core} (hm : Moves s s' i) (h : Core.Models s c) (hi : s.pc i ≠ .idle) (hj : j ≠ i) :
    s'.pc j = .idle := by
  obtain ⟨p, hp⟩ := hm.pc
  rw [hp, Function.update_of_ne hj]
  apply Classical.byContradiction
  intro hne
  cases (h.holder hi).symm.trans (h.holder hne)
  exact hj rfl

/-- The thread of `rx_tq` does not touch `ioctl_sx`, nor does the wake-up. -/
theorem signal_ioctlSx (s : Runtime ι) : s.signal.ioctlSx = s.ioctlSx ∧ s.signal.rxTq = s.rxTq := by
  unfold Runtime.signal
  split
  · exact ⟨rfl, rfl⟩
  · split <;> exact ⟨rfl, rfl⟩

theorem detach_keeps (h : s.detach = some s') : s'.ioctlSx = s.ioctlSx ∧ s'.rxTq = s.rxTq := by
  unfold Runtime.detach at h
  split at h
  · cases h
    split
    · exact signal_ioctlSx _
    · exact ⟨rfl, rfl⟩
  · cases h

theorem rx_keeps {d : DetachPc} (ha : Unload.rtAllowed d a = true) (hb : a.by = none) (h : s.step a = some s') :
    s'.ioctlSx = s.ioctlSx := by
  cases a with
  | drain | recv f | drainEnd | txStart | txTake | txStore | txWrite err =>
    simp only [Runtime.step, Runtime.drain, Runtime.recv, Runtime.drainEnd, Runtime.txStart, Runtime.txTake,
      Runtime.txStore, Runtime.txWrite] at h
    split at h <;> cases h
    rfl
  | txCompare alloc =>
    simp only [Runtime.step, Runtime.txCompare] at h
    split at h
    · split at h <;> cases h <;> rfl
    · cases h
  | deliver origin =>
    simp only [Runtime.step, Runtime.deliver] at h
    split at h
    · cases h
      split
      · exact (signal_ioctlSx _).1
      · rfl
    · cases h
  | caller i | write i err | timeout i => cases hb
  | call i r buf | detach => cases ha

end

namespace Unload

/-! ## Nobody uses what is destroyed -/

variable {ι : Type} [DecidableEq ι]

/-- No step used an object that was destroyed, and nobody sleeps on `ioctl_cv` when that is. -/
def NoFault (s : Unload ι) : Prop :=
  s.fault = false ∧ (s.detach.dead .ioctlCv = true → ∀ i c, s.rt.pc i ≠ .asleep c)

/-- `ioctl_cv` and `f2_sx` are destroyed when no caller of the runtime path is on its way to them. -/
def DestroyOk (s : Unload ι) : UnloadAct ι → Prop
  | .detach =>
    match s.detach with
    | .cvDestroy => ∀ i, (s.rt.pc i).CvFree s.rt.sc
    | .f2Destroy => ∀ i, (s.rt.pc i).F2Free
    | _ => True
  | _ => True

/-- **The invariant**, by how far `cyw_detach` is. -/
structure UnloadInv (s : Unload ι) : Prop where
  fault : s.fault = false
  models : ∃ c, Core.Models s.rt c
  boot : s.boot ≠ none → s.rt.ioctlSx = none
  stopped : 0 < s.detach.rank → s.sdpcmRunning = false
  drained : 1 < s.detach.rank → s.rt.rxTq = .idle
  cv : 3 < s.detach.rank → ∀ i, (s.rt.pc i).CvFree s.rt.sc
  f2 : 4 < s.detach.rank → ∀ i, (s.rt.pc i).F2Free
  gone : 5 < s.detach.rank → s.passed = [] ∧ s.rt.ioctlSx = none ∧ s.boot = none

variable {s s' : Unload ι} {a : UnloadAct ι}

theorem unloadInv_init (slot : IoctlSlot) (ioctlId : UInt16) (txSeq rxMax : UInt8) :
    (Unload.init ι slot ioctlId txSeq rxMax).UnloadInv := by
  refine ⟨rfl, ⟨_, Core.models_init slot ioctlId txSeq rxMax⟩, nofun, nofun, nofun, ?_, ?_, ?_⟩
  · intro h
    cases h
  · intro h
    simp [Unload.init, DetachPc.rank] at h
  · intro h
    simp [Unload.init, DetachPc.rank] at h

theorem UnloadInv.noFault (hi : s.UnloadInv) : s.NoFault := by
  refine ⟨hi.fault, fun hd i c hp => ?_⟩
  have h := hi.cv (by simpa [DetachPc.dead] using hd) i
  rw [hp] at h
  cases h

omit [DecidableEq ι] in
theorem faultOf_eq_false {os : List LockObj} (hf : s.fault = false) (h : ∀ o ∈ os, s.detach.dead o = false) :
    s.faultOf os = false := by
  simp only [faultOf, hf, Bool.false_or, List.any_eq_false]
  intro o ho
  simp [h o ho]

/-- A caller that moves uses nothing that is destroyed. -/
theorem UnloadInv.uses_alive {b : Action ι} {rt : Runtime ι} {i : ι} (hi : s.UnloadInv) (hb : b.by = some i)
    (h : s.rt.step b = some rt) : ∀ o ∈ b.uses s.rt, s.detach.dead o = false := by
  obtain ⟨c, hm⟩ := hi.models
  have hrank : s.detach.rank ≤ 5 := by
    apply Nat.le_of_not_lt
    intro hr
    exact not_idle_of_by hb h (hm.all_idle (hi.gone hr).2.1 i)
  intro o ho
  cases o with
  | ioctlCv =>
    by_cases hr : 3 < s.detach.rank
    · exact ((cvFree_step hb (hi.cv hr i) h).2 ho).elim
    · simpa [DetachPc.dead] using hr
  | f2Sx =>
    by_cases hr : 4 < s.detach.rank
    · exact ((f2Free_step hb (hi.cv (by omega) i) (hi.f2 hr i) h).2 ho).elim
    · simpa [DetachPc.dead] using hr
  | ioctlSx =>
    simp only [DetachPc.dead, decide_eq_false_iff_not]
    omega
  | mtx =>
    simp only [DetachPc.dead, decide_eq_false_iff_not]
    omega

theorem unloadInv_by {b : Action ι} {rt : Runtime ι} {i : ι} (hi : s.UnloadInv) (hb : b.by = some i)
    (h : s.rt.step b = some rt) : UnloadInv { s with rt := rt, fault := s.faultOf (b.uses s.rt) } := by
  obtain ⟨c, hm⟩ := hi.models
  obtain ⟨c', _, hm'⟩ := Core.step_refines hm h
  have hmv := moves_step hb h
  have hidle := not_idle_of_by hb h
  refine ⟨faultOf_eq_false hi.fault (hi.uses_alive hb h), ⟨c', hm'⟩, fun hn => hmv.free (hi.boot hn), hi.stopped,
    fun hr => hmv.rxTq.trans (hi.drained hr), ?_, ?_, ?_⟩
  · intro hr j
    by_cases hj : j = i
    · subst hj
      exact (cvFree_step hb (hi.cv hr j) h).1
    · rw [hmv.other hm hidle hj]
      trivial
  · intro hr j
    by_cases hj : j = i
    · subst hj
      have hr' : 4 < s.detach.rank := hr
      exact (f2Free_step hb (hi.cv (by omega) j) (hi.f2 hr j) h).1
    · rw [hmv.other hm hidle hj]
      trivial
  · intro hr
    obtain ⟨hpassed, hfree, hboot⟩ := hi.gone hr
    exact ⟨hpassed, hmv.free hfree, hboot⟩

theorem unloadInv_rt {b : Action ι} (hi : s.UnloadInv) (hs : s.step (.rt b) = some s') : s'.UnloadInv := by
  simp only [step] at hs
  split at hs
  · next hal =>
    obtain ⟨rt, h, rfl⟩ := Option.map_eq_some_iff.1 hs
    cases hb : b.by with
    | some i => exact unloadInv_by hi hb h
    | none =>
      -- the thread of `rx_tq`, before it is drained
      have hr : s.detach.rank ≤ 1 := by
        cases b <;> simp_all [rtAllowed, Action.by]
      obtain ⟨c, hm⟩ := hi.models
      obtain ⟨c', _, hm'⟩ := Core.step_refines hm h
      have halive : ∀ o : LockObj, s.detach.dead o = false := by
        intro o
        cases o <;> simp only [DetachPc.dead, decide_eq_false_iff_not] <;> omega
      refine ⟨faultOf_eq_false hi.fault fun o _ => halive o, ⟨c', hm'⟩, ?_, hi.stopped, ?_, ?_, ?_, ?_⟩
      · intro hn
        exact (rx_keeps hal hb h).trans (hi.boot hn)
      all_goals
        intro hlt
        have hlt' : _ < s.detach.rank := hlt
        omega
  · cases hs

/-- With `ioctl_sx` free, or held on the polling path, the runtime path is empty. -/
theorem unloadInv_idle (hi : s.UnloadInv) (hfree : s.rt.ioctlSx = none) (hr : s.detach.rank ≤ 5) (sc : Softc)
    (passed : List ι) (boot : Option ι) {f : Bool} (hf : f = false) :
    UnloadInv { s with rt := { s.rt with sc := sc }, passed := passed, boot := boot, fault := f } := by
  obtain ⟨c, hm⟩ := hi.models
  have hidle := hm.all_idle hfree
  refine ⟨hf, ⟨_, hm.with_sc sc⟩, fun _ => hfree, hi.stopped, hi.drained, fun _ i => ?_, fun _ i => ?_, fun hr' => ?_⟩
  · simp [hidle i, CallerPc.CvFree]
  · simp [hidle i, CallerPc.F2Free]
  · have hr'' : 5 < s.detach.rank := hr'
    omega

theorem UnloadInv.rank_of_boot (hi : s.UnloadInv) (hb : s.boot ≠ none) : s.detach.rank ≤ 5 :=
  Nat.le_of_not_lt fun hr => hb (hi.gone hr).2.2

omit [DecidableEq ι] in
/-- Until the readers are gone, `ioctl_sx` and `mtx` exist. -/
theorem faultOf_late {o : LockObj} (hf : s.fault = false) (hr : s.detach.rank ≤ 5) (ho : o = .ioctlSx ∨ o = .mtx) :
    s.faultOf [o] = false := by
  apply faultOf_eq_false hf
  intro o' ho'
  obtain rfl : o' = o := by simpa using ho'
  rcases ho with rfl | rfl <;> simp only [DetachPc.dead, decide_eq_false_iff_not] <;> omega

theorem unloadInv_enter {i : ι} (hi : s.UnloadInv) (hs : s.enter i = some s') : s'.UnloadInv := by
  unfold enter at hs
  split at hs
  · next hr =>
    split at hs
    · split at hs
      · cases hs
      · cases hs
        split
        · refine { hi with gone := fun hr' => ?_ }
          have hr'' : 5 < s.detach.rank := hr'
          omega
        · exact hi
    · cases hs
  · cases hs

theorem unloadInv_call {i : ι} {r : Req} {buf : Nat} (hi : s.UnloadInv) (hs : s.call i r buf = some s') :
    s'.UnloadInv := by
  unfold call at hs
  split at hs
  · next hg =>
    obtain ⟨hmem, hboot, hfree⟩ := hg
    have hboot : s.boot = none := Option.isNone_iff_eq_none.1 hboot
    have hfree : s.rt.ioctlSx = none := Option.isNone_iff_eq_none.1 hfree
    have hr : s.detach.rank ≤ 5 := by
      apply Nat.le_of_not_lt
      intro hr
      rw [(hi.gone hr).1] at hmem
      cases hmem
    have hf := faultOf_late hi.fault hr (.inl rfl)
    dsimp only at hs
    split at hs
    · next hrun =>
      obtain ⟨rt, h, rfl⟩ := Option.map_eq_some_iff.1 hs
      obtain ⟨c, hm⟩ := hi.models
      obtain ⟨c', _, hm'⟩ := Core.step_refines (a := .call i r buf) hm h
      have h0 : s.detach.rank = 0 := by
        apply Nat.eq_zero_of_not_pos
        intro hpos
        cases (hi.stopped hpos).symm.trans hrun
      refine ⟨hf, ⟨c', hm'⟩, fun hb => (hb hboot).elim, hi.stopped, ?_, ?_, ?_, ?_⟩
      all_goals
        intro hlt
        have hlt' : _ < s.detach.rank := hlt
        omega
    · cases hs
      exact unloadInv_idle hi hfree hr _ _ _ hf
  · cases hs

theorem unloadInv_bootRecv {f : Option RxFrame} (hi : s.UnloadInv) (hs : s.bootRecv f = some s') : s'.UnloadInv := by
  unfold bootRecv at hs
  split at hs
  · next i hb _ =>
    cases hs
    have hn : s.boot ≠ none := by simp [hb]
    have hr := hi.rank_of_boot hn
    exact unloadInv_idle hi (hi.boot hn) hr _ _ _ (faultOf_late hi.fault hr (.inr rfl))
  · cases hs

theorem unloadInv_bootSend (hi : s.UnloadInv) (hs : s.bootSend = some s') : s'.UnloadInv := by
  unfold bootSend at hs
  split at hs
  · next i hb =>
    cases hs
    have hn : s.boot ≠ none := by simp [hb]
    exact unloadInv_idle hi (hi.boot hn) (hi.rank_of_boot hn) _ _ _ hi.fault
  · cases hs

theorem unloadInv_bootOut (hi : s.UnloadInv) (hs : s.bootOut = some s') : s'.UnloadInv := by
  unfold bootOut at hs
  split at hs
  · next i hb =>
    cases hs
    have hn : s.boot ≠ none := by simp [hb]
    have hr := hi.rank_of_boot hn
    exact unloadInv_idle hi (hi.boot hn) hr s.rt.sc _ _ (faultOf_late hi.fault hr (.inl rfl))
  · cases hs

theorem unloadInv_detach (hi : s.UnloadInv) (hok : s.DestroyOk .detach) (hs : s.detachNext = some s') :
    s'.UnloadInv := by
  obtain ⟨hfault, hmod, hboot, hstop, hdrain, hcv, hf2, hgone⟩ := hi
  unfold detachNext at hs
  cases hd : s.detach with
  | stop =>
    rw [hd] at hs
    cases hs
    exact ⟨hfault, hmod, hboot, fun _ => rfl, by simp [DetachPc.rank], by simp [DetachPc.rank], by simp [DetachPc.rank],
      by simp [DetachPc.rank]⟩
  | drainRx =>
    simp only [hd] at hs
    rw [hd] at hstop
    split at hs
    · next hq =>
      cases hs
      exact ⟨hfault, hmod, hboot, fun _ => hstop (by decide), fun _ => hq, by simp [DetachPc.rank],
        by simp [DetachPc.rank], by simp [DetachPc.rank]⟩
    · cases hs
  | wake =>
    rw [hd] at hs hstop hdrain
    obtain ⟨rt, h, rfl⟩ := Option.map_eq_some_iff.1 hs
    obtain ⟨hsx, hq⟩ := detach_keeps h
    obtain ⟨c, hm⟩ := hmod
    obtain ⟨c', _, hm'⟩ := Core.step_refines (a := .detach) hm h
    refine ⟨faultOf_eq_false hfault ?_, ⟨c', hm'⟩, fun hn => hsx.trans (hboot hn), fun _ => hstop (by decide),
      fun _ => hq.trans (hdrain (by decide)), by simp [DetachPc.rank], by simp [DetachPc.rank], by simp [DetachPc.rank]⟩
    intro o _
    rw [hd]
    cases o <;> rfl
  | cvDestroy =>
    rw [hd] at hs hstop hdrain
    cases hs
    simp only [DestroyOk, hd] at hok
    exact ⟨hfault, hmod, hboot, fun _ => hstop (by decide), fun _ => hdrain (by decide), fun _ => hok,
      by simp [DetachPc.rank], by simp [DetachPc.rank]⟩
  | f2Destroy =>
    rw [hd] at hs hstop hdrain hcv
    cases hs
    simp only [DestroyOk, hd] at hok
    exact ⟨hfault, hmod, hboot, fun _ => hstop (by decide), fun _ => hdrain (by decide), fun _ => hcv (by decide),
      fun _ => hok, by simp [DetachPc.rank]⟩
  | sysctlFree =>
    simp only [hd] at hs
    rw [hd] at hstop hdrain hcv hf2
    split at hs
    · next hg =>
      cases hs
      refine ⟨hfault, hmod, hboot, fun _ => hstop (by decide), fun _ => hdrain (by decide), fun _ => hcv (by decide),
        fun _ => hf2 (by decide), fun _ => ?_⟩
      exact ⟨hg.1, Option.isNone_iff_eq_none.1 hg.2.1, Option.isNone_iff_eq_none.1 hg.2.2⟩
    · cases hs
  | ioctlDestroy | mtxDestroy =>
    rw [hd] at hs hstop hdrain hcv hf2 hgone
    cases hs
    exact ⟨hfault, hmod, hboot, fun _ => hstop (by decide), fun _ => hdrain (by decide), fun _ => hcv (by decide),
      fun _ => hf2 (by decide), fun _ => hgone (by decide)⟩
  | done =>
    rw [hd] at hs
    cases hs

theorem unloadInv_step (hi : s.UnloadInv) (hok : s.DestroyOk a) (hs : s.step a = some s') : s'.UnloadInv := by
  cases a with
  | enter i => exact unloadInv_enter hi hs
  | call i r buf => exact unloadInv_call hi hs
  | rt b => exact unloadInv_rt hi hs
  | bootRecv f => exact unloadInv_bootRecv hi hs
  | bootSend => exact unloadInv_bootSend hi hs
  | bootOut => exact unloadInv_bootOut hi hs
  | detach => exact unloadInv_detach hi hok hs

end Unload

/-! ## A caller on its way gets there -/

section

variable {ι : Type} [DecidableEq ι] {i : ι} {sc : Softc} {c : Call} {seq rxMax : UInt8} {n : Nat}

/-- By steps of its own, with `rx_tq` drained, the caller goes to sleep on `ioctl_cv`. -/
def Sleeps (i : ι) (p : Core) : Prop :=
  ∃ as t cl, (∀ a ∈ as, a.by = some i) ∧ run Runtime.step (p.spread (some i)) as = some t ∧ t.pc i = .asleep cl

theorem Sleeps.step {p p' : Core} {a : Action ι} (hs : Sleeps i p') (ha : a.by = some i)
    (h : (p.spread (some i)).step a = some (p'.spread (some i))) : Sleeps i p := by
  obtain ⟨as, t, cl, has, hr, ht⟩ := hs
  refine ⟨a :: as, t, cl, ?_, run_cons_some.2 ⟨_, h, hr⟩, ht⟩
  intro b hb
  rcases List.mem_cons.1 hb with rfl | hb
  · exact ha
  · exact has b hb

theorem sleeps_asleep : Sleeps i ⟨sc, .asleep c, .idle⟩ := ⟨[], _, c, nofun, rfl, if_pos rfl⟩

theorem sleeps_wait (hw : sc.slot.ioctlWaiting = true) : Sleeps i ⟨sc, .wait c, .idle⟩ := by
  have h : Sleeps i ⟨sc, .asleep c, .idle⟩ := sleeps_asleep
  apply h.step (a := .caller i) rfl
  simp [Runtime.step, Runtime.caller, Core.spread, hw]

theorem sleeps_f2Write (hw : sc.slot.ioctlWaiting = true) : Sleeps i ⟨sc, .f2Write c seq, .idle⟩ := by
  have h : Sleeps i ⟨sc.wrote seq, .wait c, .idle⟩ := sleeps_wait hw
  apply h.step (a := .write i 0) rfl
  simp [Runtime.step, Runtime.write, Core.spread, RxTqPc.holdsF2]

theorem sleeps_f2Lock (hw : sc.slot.ioctlWaiting = true) : Sleeps i ⟨sc, .f2Lock c seq, .idle⟩ := by
  have h : Sleeps i ⟨sc, .f2Write c seq, .idle⟩ := sleeps_f2Write hw
  apply h.step (a := .caller i) rfl
  simp [Runtime.step, Runtime.caller, Core.spread, RxTqPc.holdsF2]

theorem sleeps_arming : Sleeps i ⟨sc, .arming c seq, .idle⟩ := by
  have h : Sleeps i ⟨(sc.storeSeq .ctl seq).arm c, .f2Lock c seq, .idle⟩ := sleeps_f2Lock rfl
  apply h.step (a := .caller i) rfl
  simp [Runtime.step, Runtime.caller, Core.spread]

theorem sleeps_lock : Sleeps i ⟨sc, .lock c, .idle⟩ := by
  have h : Sleeps i ⟨sc.kassert, .arming c sc.sdpcmTxSeq, .idle⟩ := sleeps_arming
  apply h.step (a := .caller i) rfl
  simp [Runtime.step, Runtime.caller, Core.spread]

/-- The check after the loop. -/
theorem sleeps_last (hn : ¬n < 200) (hc : txCredits rxMax sc.sdpcmTxSeq ≠ 0) :
    Sleeps i ⟨sc, .compare c n rxMax, .idle⟩ := by
  have h : Sleeps i ⟨sc, .lock c, .idle⟩ := sleeps_lock
  apply h.step (a := .caller i) rfl
  simp [Runtime.step, Runtime.caller, Core.spread, hn, hc]

theorem sleeps_credit_last (hn : ¬n < 200) (hc : sc.credit ≠ 0) : Sleeps i ⟨sc, .credit c n, .idle⟩ := by
  have h : Sleeps i ⟨sc.check .ctl, .compare c n sc.sdpcmRxMax, .idle⟩ := sleeps_last hn hc
  apply h.step (a := .caller i) rfl
  simp [Runtime.step, Runtime.caller, Core.spread]

theorem sleeps_credit (hc : sc.credit ≠ 0) : Sleeps i ⟨sc, .credit c n, .idle⟩ := by
  by_cases hn : n < 200
  · -- the check finds the credit, and leaves the loop
    have hlast : Sleeps i ⟨sc.check .ctl, .credit c 200, .idle⟩ := sleeps_credit_last (by omega) hc
    have hcheck : Sleeps i ⟨sc.check .ctl, .compare c n sc.sdpcmRxMax, .idle⟩ := by
      apply hlast.step (a := .caller i) rfl
      have hpos : 0 < txCredits sc.sdpcmRxMax sc.sdpcmTxSeq := UInt8.pos_iff_ne_zero.2 hc
      simp [Runtime.step, Runtime.caller, Core.spread, hn, Softc.check, hpos]
    apply hcheck.step (a := .caller i) rfl
    simp [Runtime.step, Runtime.caller, Core.spread]
  · exact sleeps_credit_last hn hc

theorem sleeps_compare (hn : n < 200) (hc : sc.credit ≠ 0) : Sleeps i ⟨sc, .compare c n rxMax, .idle⟩ := by
  refine (sleeps_credit (c := c) (n := if txCredits rxMax sc.sdpcmTxSeq > 0 then 200 else n + 1) hc).step
    (a := .caller i) rfl ?_
  simp [Runtime.step, Runtime.caller, Core.spread, hn]

theorem sleeps_of_not_cvFree {p : CallerPc} (hp : ¬p.CvFree sc) : Sleeps i ⟨sc, p, .idle⟩ := by
  cases p with
  | credit c n => exact sleeps_credit hp
  | compare c n rxMax =>
    simp only [CallerPc.CvFree] at hp
    split at hp
    · next hn => exact sleeps_compare hn hp
    · next hn => exact sleeps_last hn hp
  | lock c => exact sleeps_lock
  | arming c seq => exact sleeps_arming
  | f2Lock c seq => exact sleeps_f2Lock (by simpa [CallerPc.CvFree] using hp)
  | f2Write c seq => exact sleeps_f2Write (by simpa [CallerPc.CvFree] using hp)
  | wait c => exact sleeps_wait (by simpa [CallerPc.CvFree] using hp)
  | asleep c => exact sleeps_asleep
  | idle | failed c err | woken c cerr | out c err => exact (hp trivial).elim

end

namespace Unload

/-! ## An object destroyed too early -/

variable {ι : Type} [DecidableEq ι] {s s' : Unload ι} {a : UnloadAct ι}

/-- Steps of a caller are steps of the whole, at any time. -/
theorem run_by {i : ι} {as : List (Action ι)} {t : Runtime ι} (has : ∀ a ∈ as, a.by = some i)
    (hr : run Runtime.step s.rt as = some t) : ∃ f, run step s (as.map .rt) = some { s with rt := t, fault := f } := by
  induction as generalizing s with
  | nil =>
    cases hr
    exact ⟨s.fault, rfl⟩
  | cons a as ih =>
    obtain ⟨rt, ht, hr⟩ := run_cons_some.1 hr
    have ha := has a List.mem_cons_self
    have hal : rtAllowed s.detach a = true := by
      cases a <;> first | rfl | cases ha
    have hst : s.step (.rt a) = some { s with rt := rt, fault := s.faultOf (a.uses s.rt) } := by simp [step, hal, ht]
    obtain ⟨f, hf⟩ := ih (s := { s with rt := rt, fault := s.faultOf (a.uses s.rt) })
      (fun b hb => has b (List.mem_cons_of_mem a hb)) hr
    exact ⟨f, run_cons_some.2 ⟨_, hst, hf⟩⟩

/-- The caller of the runtime path, with `rx_tq` drained. -/
theorem UnloadInv.spread (hi : s.UnloadInv) (hr : 1 < s.detach.rank) {i : ι} (hp : s.rt.pc i ≠ .idle) :
    s.rt = Core.spread ⟨s.rt.sc, s.rt.pc i, .idle⟩ (some i) := by
  obtain ⟨c, hm⟩ := hi.models
  have hq := (hm.rxTq_eq).symm.trans (hi.drained hr)
  have hpc := hm.pc_eq hp
  have hsc := hm.sc_eq
  have hsx := hm.holder hp
  obtain ⟨o, ho, _⟩ := hm
  obtain rfl : o = some i := by rw [ho] at hsx; exact hsx
  obtain ⟨sc, p, q⟩ := c
  rw [hpc, hsc, ho]
  cases hq
  rfl

theorem fault_of_cv (hi : s.UnloadInv) (hd : s.detach = .cvDestroy) (hok : ¬∀ i, (s.rt.pc i).CvFree s.rt.sc)
    (hs : s.detachNext = some s') : ∃ bs t, run step s' bs = some t ∧ ¬t.NoFault := by
  obtain ⟨i, hp⟩ := Classical.not_forall.1 hok
  have hidle : s.rt.pc i ≠ .idle := fun h => hp (by rw [h]; trivial)
  have hsleeps : Sleeps i ⟨s.rt.sc, s.rt.pc i, .idle⟩ := sleeps_of_not_cvFree hp
  obtain ⟨as, t, cl, has, hrun, ht⟩ := hsleeps
  rw [← hi.spread (by rw [hd]; decide) hidle] at hrun
  simp only [detachNext, hd, Option.some.injEq] at hs
  subst hs
  obtain ⟨f, hf⟩ := run_by (s := { s with detach := .f2Destroy }) has hrun
  refine ⟨_, _, hf, fun h => ?_⟩
  exact h.2 rfl i cl ht

theorem fault_of_f2 (hi : s.UnloadInv) (hd : s.detach = .f2Destroy) (hok : ¬∀ i, (s.rt.pc i).F2Free)
    (hs : s.detachNext = some s') : ∃ bs t, run step s' bs = some t ∧ ¬t.NoFault := by
  obtain ⟨i, hp⟩ := Classical.not_forall.1 hok
  have hidle : s.rt.pc i ≠ .idle := fun h => hp (by rw [h]; trivial)
  have hrt := hi.spread (by rw [hd]; decide) hidle
  simp only [detachNext, hd, Option.some.injEq] at hs
  subst hs
  have hfault : ∀ {b : Action ι} {rt : Runtime ι}, rtAllowed .sysctlFree b = true → s.rt.step b = some rt →
      b.uses s.rt = [.f2Sx] → ∃ bs t, run step { s with detach := .sysctlFree } bs = some t ∧ ¬t.NoFault := by
    intro b rt hal hst hu
    refine ⟨[.rt b], { s with rt := rt, detach := .sysctlFree, fault := true }, ?_, nofun⟩
    simp [step, hal, hst, hu, faultOf, DetachPc.dead, DetachPc.rank]
  cases hpc : s.rt.pc i with
  | f2Lock c seq =>
    have hst : s.rt.step (.caller i) = some
        { s.rt with f2Sx := some (.caller i), pc := Function.update s.rt.pc i (.f2Write c seq) } := by
      have hfree : s.rt.f2Sx = none := by
        rw [hrt, hpc]
        simp [Core.spread, RxTqPc.holdsF2]
      simp [Runtime.step, Runtime.caller, hpc, hfree]
    exact hfault rfl hst (by simp [Action.uses, hpc, CallerPc.uses])
  | f2Write c seq =>
    have hst : s.rt.step (.write i 0) = some
        { s.rt with sc := s.rt.sc.wrote seq, f2Sx := none, pc := Function.update s.rt.pc i (.wait c) } := by
      simp [Runtime.step, Runtime.write, hpc]
    exact hfault rfl hst (by simp [Action.uses, hpc, CallerPc.uses])
  | _ =>
    rw [hpc] at hp
    exact (hp trivial).elim

/-- **The locks outlive the readers exactly if nobody is on the way to them when they are destroyed.** For any number of
readers and any interleaving with `cyw_detach`: as long as `ioctl_cv` is destroyed with no caller of the runtime path
still going to wait on it, and `f2_sx` with none that is about to take it or has it, nobody uses an object that is
destroyed; an object destroyed at any other time can be used afterwards. -/
theorem iovar_locks_decide (ι : Type) [DecidableEq ι] (slot : IoctlSlot) (ioctlId : UInt16) (txSeq rxMax : UInt8)
    (as : List (UnloadAct ι)) :
    Decides step (fun _ _ => True) DestroyOk NoFault (Unload.init ι slot ioctlId txSeq rxMax) as := by
  refine decides_of_inv (I := UnloadInv) ?_ (fun s hi => hi.noFault) ?_ (unloadInv_init slot ioctlId txSeq rxMax) as
  · intro s a s' hi hok hs
    exact unloadInv_step hi hok hs
  · intro s a s' hi hok hs
    cases a with
    | detach =>
      cases hd : s.detach with
      | cvDestroy =>
        simp only [DestroyOk, hd] at hok
        exact fault_of_cv hi hd hok hs
      | f2Destroy =>
        simp only [DestroyOk, hd] at hok
        exact fault_of_f2 hi hd hok hs
      | _ => simp [DestroyOk, hd] at hok
    | _ => exact (hok trivial).elim

/-- A reader is about to take `f2_sx` for its frame when `cyw_sdpcm_detach` runs to its end. -/
theorem iovar_outlives_f2 : ∃ s, run step (Unload.init Unit ⟨false, 0, none, 0, false, 0, 0⟩ 0 0 4)
    (List.flatten [[.enter (), .call () ⟨true, 4, 0⟩ 0], List.replicate 6 (.rt (.caller ())), List.replicate 5 .detach,
      [.rt (.caller ())]]) = some s ∧ s.detach.dead .f2Sx = true ∧ s.fault = true ∧ ¬s.NoFault :=
  ⟨_, rfl, rfl, rfl, nofun⟩

end Unload

end Cyw
