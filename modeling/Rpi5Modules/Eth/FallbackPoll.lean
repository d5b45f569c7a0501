import Rpi5Modules.Eth.Service

/-!
# The fallback poll

`gem_poll` catches what arrives while interrupts do not. It is armed by `cgem_intr_task` when it ends, and by itself as
long as it finds nothing to do; `cgem_intr_filter` stops it after it has enqueued the task, which arms it again.

- the filter enqueues first and stops the callout afterwards, so the task can run to its end in between, and then it is
  the newly armed poll that is stopped (`gem_poll_lost`). This is the only way to lose it (`gem_poll_decides`);
- `cgem_init_locked` arms nothing, so without an interrupt nobody ever does: an interface that is brought up and gets
  none is not serviced (`no_intr_iff`).
-/

namespace Eth

open Transition

/-! ## Who will service the interface -/

/-- The invocation of the poll will arm the callout or enqueue the task. -/
def PollPc.services : PollPc → Bool
  | idle => false
  | unlock => false
  | _ => true

/-- The invocation of the task will arm the callout, if the interface runs. -/
def TaskPc.rearms : TaskPc → Bool
  | idle => false
  | unlock => false
  | _ => true

namespace Serv

/-- The callout is armed, the task is queued, or one of the two is on its way there. -/
def WillService (s : Serv) : Prop :=
  s.gemPoll = true ∨ s.intrTask = true ∨ s.poll.services = true ∨ s.task.rearms = true

/-- An invocation of the task or the poll was completed since the interface was brought up, or is about to be. -/
def UnderService (s : Serv) : Prop := s.serviced = true ∨ s.poll = .unlock ∨ s.task = .unlock

/-- A running interface, once serviced, has its poll armed or its task queued whenever none of the three is in
progress. -/
def PollKept (s : Serv) : Prop :=
  s.running = true → s.serviced = true → s.filter = .idle → s.poll = .idle → s.task = .idle →
    s.gemPoll = true ∨ s.intrTask = true

/-- The filter stops the poll only if the task is queued or yet to arm it, or the poll is on its way. -/
def StopOk (s : Serv) : ServAct → Prop
  | .filterNext => s.filter = .stop → s.running = true → s.UnderService → s.gemPoll = true →
      s.intrTask = true ∨ s.poll.services = true ∨ s.task.rearms = true
  | _ => True

/-- **The invariant.** -/
def PollInv (s : Serv) : Prop := s.running = true → s.UnderService → s.WillService

variable {s s' : Serv} {a : ServAct}

theorem lockFree_poll (hl : s.lockFree = true) : s.poll ≠ .unlock := by
  intro hp
  simp [lockFree, hp, PollPc.holds] at hl

theorem lockFree_task (hl : s.lockFree = true) : s.task ≠ .unlock := by
  intro ht
  simp [lockFree, ht, TaskPc.holds] at hl

theorem pollInv_step (hi : s.PollInv) (hok : s.StopOk a) (hs : s.step a = some s') : s'.PollInv := by
  have hs := step_cases hs
  cases hs with
  | keep hb => exact hi
  | up os hl hr hb =>
    -- nothing is completed since
    rintro - (h | h | h)
    · cases h
    · exact (lockFree_poll hl h).elim
    · exact (lockFree_task hl h).elim
  | down hl hr htx => exact nofun
  | ifcap rxcsum => exact hi
  | sysctl rxbufs => exact hi
  | start htx => exact hi
  | rxHw hrx => exact hi
  | txHw htx => exact hi
  | filter hf => exact hi
  | filterMask hf => exact hi
  | filterStore hf => exact hi
  | filterEnqueue hf =>
    intro _ _
    exact .inr (.inl rfl)
  | filterStop hf =>
    intro hr hu
    rcases hi hr hu with h | h
    · exact .inr (hok hf hr hu h)
    · exact .inr h
  | pollFire hp hg =>
    intro _ _
    exact .inr (.inr (.inl rfl))
  | pollLock hp hl hr =>
    intro _ _
    exact .inr (.inr (.inl rfl))
  | pollBack hp hr =>
    intro h
    cases hr.symm.trans h
  | pollStat hp ist =>
    intro _ _
    exact .inr (.inr (.inl rfl))
  | pollNothing hp =>
    intro _ _
    exact .inr (.inr (.inl rfl))
  | pollMask hp =>
    intro _ _
    exact .inr (.inr (.inl rfl))
  | pollPend hp =>
    intro _ _
    exact .inr (.inr (.inl rfl))
  | pollEnqueue hp =>
    intro _ _
    exact .inr (.inl rfl)
  | pollRearm hp =>
    intro _ _
    exact .inl rfl
  | pollUnlock hp =>
    intro hr _
    have h := hi hr (.inr (.inl hp))
    rwa [WillService, hp] at h
  | taskRun ht hq =>
    intro _ _
    exact .inr (.inr (.inr rfl))
  | taskStart ht =>
    intro _ _
    exact .inr (.inr (.inr rfl))
  | taskLock ht hl hr =>
    intro _ _
    exact .inr (.inr (.inr rfl))
  | taskBack ht hr =>
    intro h
    cases hr.symm.trans h
  | taskRecv ht hrx =>
    intro _ _
    exact .inr (.inr (.inr rfl))
  | taskSkip ht =>
    intro _ _
    exact .inr (.inr (.inr rfl))
  | taskWindow ht hl =>
    intro _ _
    exact .inr (.inr (.inr rfl))
  | taskTail ht htx htx' =>
    intro _ _
    exact .inr (.inr (.inr rfl))
  | taskEnable ht =>
    intro _ _
    exact .inr (.inr (.inr rfl))
  | taskRearm ht =>
    intro _ _
    exact .inl rfl
  | taskUnlock ht =>
    intro hr _
    have h := hi hr (.inr (.inr ht))
    rwa [WillService, ht] at h

theorem PollInv.kept (hi : s.PollInv) : s.PollKept := by
  intro hr hserv _ hp ht
  rcases hi hr (.inl hserv) with h | h | h | h
  · exact .inl h
  · exact .inr h
  · rw [hp] at h
    cases h
  · rw [ht] at h
    cases h

/-! ## A poll that is lost -/

/-- A running interface that nobody will service is not serviced once the poll and the task in progress end. -/
theorem lost_of_not_willService (hr : s.running = true) (hu : s.UnderService) (hf : s.filter = .idle)
    (hn : ¬s.WillService) : ∃ bs t, run step s bs = some t ∧ ¬t.PollKept := by
  simp only [WillService, not_or, Bool.not_eq_true] at hn
  obtain ⟨hg, hq, hp, ht⟩ := hn
  have hpoll : s.poll = .idle ∨ s.poll = .unlock := by
    cases hp' : s.poll <;> simp [hp', PollPc.services] at hp ⊢
  have htask : s.task = .idle ∨ s.task = .unlock := by
    cases ht' : s.task <;> simp [ht', TaskPc.rearms] at ht ⊢
  rcases hpoll with hp | hp <;> rcases htask with ht | ht
  · have hserv : s.serviced = true := by simpa [UnderService, hp, ht] using hu
    exact ⟨[], s, rfl, by simp [PollKept, hr, hserv, hf, hp, ht, hg, hq]⟩
  · exact ⟨[.taskNext], _, by simp [step, taskNext, ht]; rfl, by simp [PollKept, hr, hf, hp, hg, hq]⟩
  · exact ⟨[.pollNext], _, by simp [step, pollNext, hp]; rfl, by simp [PollKept, hr, hf, ht, hg, hq]⟩
  · refine ⟨[.pollNext, .taskNext], { s with poll := .idle, task := .idle, serviced := true }, ?_, ?_⟩
    · simp [step, pollNext, taskNext, hp, ht]
    · simp [PollKept, hr, hf, hg, hq]

theorem lost_of_stop (hok : ¬s.StopOk a) (hs : s.step a = some s') :
    ∃ bs t, run step s' bs = some t ∧ ¬t.PollKept := by
  cases a with
  | filterNext =>
    simp only [StopOk, Classical.not_imp] at hok
    obtain ⟨hf, hr, hu, hg, hn⟩ := hok
    simp only [step, filterNext, hf, Option.some.injEq] at hs
    subst hs
    refine lost_of_not_willService hr hu rfl ?_
    rintro (h | h)
    · cases h
    · exact hn h
  | _ => exact (hok trivial).elim

/-- **The fallback poll is lost exactly where the filter stops it after the task has armed it.** In every run from
attach on: as long as the filter stops an armed poll only while the task is queued or yet to arm it (or the poll is on
its way), a running interface that was serviced once has its poll armed or its task queued whenever nothing is in
progress; a stop at any other time can be followed by a state where it has neither. -/
theorem gem_poll_decides (rxbufs : Int) (rxcsum : Bool) (as : List ServAct) :
    Decides step (fun _ _ => True) StopOk PollKept (attached rxbufs rxcsum) as := by
  have h0 : (attached rxbufs rxcsum).PollInv := nofun
  refine decides_of_inv (I := PollInv) ?_ (fun s hi => hi.kept) ?_ h0 as
  · intro s a s' hi hok hs
    exact pollInv_step hi hok hs
  · intro s a s' _ hok hs
    exact lost_of_stop hok hs

/-- The interface is brought up; the first interrupt is filtered up to the enqueue; the task runs to its end and arms
the poll; then the filter stops it. -/
theorem gem_poll_lost : ∃ s, run step (attached 0 false)
    [.init [], .filter 0x8, .filterNext, .filterNext, .filterNext, .taskRun, .taskNext, .taskNext, .taskRecv [],
      .taskTail [] [] [], .taskNext, .taskNext, .taskNext, .filterNext] = some s ∧
    s.running = true ∧ s.gemPoll = false ∧ s.intrTask = false ∧ ¬s.PollKept := by
  refine ⟨_, rfl, rfl, rfl, rfl, ?_⟩
  intro h
  rcases h rfl rfl rfl rfl rfl with h | h <;> cases h

/-! ## Without interrupts -/

/-- With the lock free, a running interface has its poll armed or its task queued. -/
def Serviced (s : Serv) : Prop := s.running = true → s.lockFree = true → s.gemPoll = true ∨ s.intrTask = true

/-- `cgem_intr_filter` is never called. -/
def NoIntr (_ : Serv) : ServAct → Prop
  | .filter _ => False
  | _ => True

/-- Nobody is at work, and nobody will be. -/
structure Dormant (s : Serv) : Prop where
  gemPoll : s.gemPoll = false
  intrTask : s.intrTask = false
  filter : s.filter = .idle
  poll : s.poll = .idle
  task : s.task = .idle

theorem Dormant.lockFree (hd : s.Dormant) : s.lockFree = true := by
  simp [Serv.lockFree, hd.poll, hd.task, PollPc.holds, TaskPc.holds]

/-- Without an interrupt there is no first one to arm the poll or enqueue the task. -/
theorem dormant_step (hd : s.Dormant) (hn : s.NoIntr a) (hs : s.step a = some s') : s'.Dormant := by
  have hs := step_cases hs
  have hf := hd.filter
  have hp := hd.poll
  have ht := hd.task
  cases hs with
  | keep hb => exact hd
  | up os hl hr hb => exact ⟨hd.gemPoll, hd.intrTask, hf, hp, ht⟩
  | down hl hr htx => exact ⟨rfl, hd.intrTask, hf, hp, ht⟩
  | ifcap rxcsum => exact ⟨hd.gemPoll, hd.intrTask, hf, hp, ht⟩
  | sysctl rxbufs => exact ⟨hd.gemPoll, hd.intrTask, hf, hp, ht⟩
  | start htx => exact ⟨hd.gemPoll, hd.intrTask, hf, hp, ht⟩
  | rxHw hrx => exact ⟨hd.gemPoll, hd.intrTask, hf, hp, ht⟩
  | txHw htx => exact ⟨hd.gemPoll, hd.intrTask, hf, hp, ht⟩
  | filter _ => exact hn.elim
  | pollFire _ hg => cases hd.gemPoll.symm.trans hg
  | taskRun _ hq => cases hd.intrTask.symm.trans hq
  | filterMask h | filterStore h | filterEnqueue h | filterStop h => cases hf.symm.trans h
  | pollLock h | pollBack h | pollStat h | pollNothing h | pollMask h | pollPend h | pollEnqueue h | pollRearm h
  | pollUnlock h => cases hp.symm.trans h
  | taskStart h | taskLock h | taskBack h | taskRecv h | taskSkip h | taskWindow h | taskTail h | taskEnable h
  | taskRearm h | taskUnlock h => cases ht.symm.trans h

theorem running_of_bringsUp (hb : s.BringsUp a) (hs : s.step a = some s') : s'.running = true := by
  have hup : ∀ os : List FillOutcome, s.running = false → s.locked (some (cgemInitLocked s os)) = some s' →
      s'.running = true := by
    intro os hr h
    cases (locked_some h).2
    simp [cgemInitLocked, hr]
  cases a with
  | init os => exact hup os hb hs
  | ifflags up os =>
    cases up with
    | true => exact hup os hb hs
    | false => cases hb
  | _ => cases hb

theorem running_of_not_bringsUp (hb : ¬s.BringsUp a) (hr : s.running = false) (hs : s.step a = some s') :
    s'.running = false := by
  have hs := step_cases hs
  cases hs with
  | up os hl hr hb' => exact (hb hb').elim
  | down hl hr htx => rfl
  | _ => exact hr

/-- **Without interrupts a running interface is never serviced.** In every run in which `cgem_intr_filter` is not
called, each state with `IFF_DRV_RUNNING` set and the lock free has the poll armed or the task queued exactly when no
step brings the interface up. -/
theorem no_intr_iff (rxbufs : Int) (rxcsum : Bool) (as : List ServAct)
    (hn : AllSteps step NoIntr (attached rxbufs rxcsum) as) :
    AllStates step Serviced (attached rxbufs rxcsum) as ↔
      AllSteps step (fun s a => ¬s.BringsUp a) (attached rxbufs rxcsum) as := by
  have hd : (attached rxbufs rxcsum).Dormant := ⟨rfl, rfl, rfl, rfl, rfl⟩
  have hall : AllStates step Dormant (attached rxbufs rxcsum) as :=
    allStates_of (fun s a s' hd hn hs => dormant_step hd hn hs) hd hn
  constructor
  · intro h
    refine allSteps_of_allStates (P := fun s => s.Dormant ∧ s.Serviced) ?_ (hall.and h)
    rintro s a s' - ⟨hd', hserv⟩ hs hb
    rcases hserv (running_of_bringsUp hb hs) hd'.lockFree with h | h
    · cases hd'.gemPoll.symm.trans h
    · cases hd'.intrTask.symm.trans h
  · intro h
    refine (allStates_of (I := fun s => s.running = false) ?_ rfl h).mono ?_
    · intro s a s' hr hb hs
      exact running_of_not_bringsUp hb hr hs
    · intro s hr h
      cases hr.symm.trans h

/-- The interface is asked for its flags, brought up and ticks. -/
theorem no_intr_iff_init :
    AllStates step Serviced (attached 128 false) [.ifflags false [], .init [], .tick] ↔
      AllSteps step (fun s a => ¬s.BringsUp a) (attached 128 false) [.ifflags false [], .init [], .tick] := by
  apply no_intr_iff 128 false _
  exact AllSteps.of_mem (by simp [NoIntr])

/-- Brought up without an interrupt, the interface has neither its poll armed nor its task queued. -/
theorem no_intr_unserviced : ∃ s, run step (attached 128 false) [.init []] = some s ∧ s.running = true ∧
    s.lockFree = true ∧ s.gemPoll = false ∧ s.intrTask = false :=
  ⟨_, rfl, rfl, rfl, rfl, rfl⟩

end Serv

end Eth
