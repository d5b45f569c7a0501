import Rpi5Modules.Eth.Port

/-!
# RGMII mode

The hardware resets USER_IO whenever NET_CTRL is written, and 1 in USER_IO is RGMII mode. `cgem_reset` and `cgem_config`
restore it, and so does `cgem_start_locked` after each frame it posts; `cgem_intr_task` writes NET_CTRL when the
hardware ran out of receive descriptors, and leaves it to `cgem_start_locked`, which may have nothing to post.

- `startTx_userIo`, `served_userIo_iff`: what servicing leaves in USER_IO;
- that the task posts a frame whenever it writes NET_CTRL decides whether USER_IO is 1 where the lock is free
  (`user_io_decides`).
-/

namespace Eth

open Flags Transition

/-- The step posts a frame. -/
def TxAct.posts : TxAct → Bool
  | post _ _ => true
  | _ => false

/-- Each frame posted restores RGMII mode. -/
theorem startTx_userIo (m : Mac) (acts : List TxAct) :
    (m.startTx acts).userIo = if acts.any TxAct.posts then 1 else m.userIo := by
  unfold Mac.startTx
  induction acts generalizing m with
  | nil => rfl
  | cons a acts ih =>
    rw [List.foldl_cons, List.any_cons, ih]
    cases a with
    | post sg defrag =>
      rw [TxAct.posts, Bool.true_or, if_pos rfl]
      exact ite_self 1
    | _ => rfl

namespace Port

/-- USER_IO is 1 where the lock is free. -/
def RgmiiOk (p : Port) : Prop := p.serv.lockFree = true → p.mac.userIo = 1

/-- The task, where the hardware ran out of receive descriptors, posts a frame. -/
def Restores (p : Port) : PortAct → Prop
  | .serv (.taskTail _ _ send) =>
    ∀ ist, p.serv.task = .tail ist → HasFlag ist intrRxUsedReadBit → send.any TxAct.posts = true
  | _ => True

/-- RGMII mode is on, and one party at most has the lock. -/
structure RgmiiInv (p : Port) : Prop where
  userIo : p.mac.userIo = 1
  exclusive : p.serv.Exclusive

variable {p p' : Port} {a : PortAct}

/-- Servicing leaves RGMII mode on exactly if the task posts a frame where it has to. -/
theorem served_userIo_iff (h : p.mac.userIo = 1) (a : ServAct) : (p.served a).userIo = 1 ↔ p.Restores (.serv a) := by
  cases a with
  | start acts =>
    refine iff_of_true ?_ trivial
    show (p.mac.startTx acts).userIo = 1
    rw [startTx_userIo, h]
    exact ite_self 1
  | taskTail clean os send =>
    unfold served
    cases ht : p.serv.task with
    | tail ist =>
      simp only [Restores, ht, TaskPc.tail.injEq, forall_eq']
      rw [startTx_userIo]
      unfold Mac.flush
      split
      · next hp => exact iff_of_true rfl fun _ => hp
      · next hp =>
        split
        · next hf =>
          refine iff_of_false ?_ fun h => hp (h hf)
          exact fun h0 => absurd (show (0 : BitVec 32) = 1 from h0) (by decide)
        · next hf => exact iff_of_true h fun h => absurd h hf
    | _ => exact iff_of_true h fun _ h => by rw [ht] at h; cases h
  | _ => exact iff_of_true h trivial

theorem rgmiiInv_attached (rxbufs : Int) (m : Mac) (cfgKva : Bool) : (attached rxbufs m cfgKva).RgmiiInv :=
  ⟨rfl, fun _ => rfl⟩

theorem rgmiiInv_step (h : p.RgmiiInv) (hr : p.Restores a) (hst : Step p a p') : p'.RgmiiInv := by
  have hturns : ∀ {sv : Serv}, Turns p.serv sv → sv.Exclusive := by
    intro sv ht _
    exact (Serv.lockFree_iff.1 ht.lockFree_after).2
  cases hst with
  | up hrun ht => exact ⟨rfl, hturns ht⟩
  | flagsUp hu hrun ht => exact ⟨rfl, hturns ht⟩
  | flagsDown hu hrun ht => exact ⟨rfl, hturns ht⟩
  | ifcap ht =>
    rw [sioCSIFCap_eq]
    refine ⟨h.userIo, ?_⟩
    unfold Serv.Exclusive
    rw [ht.poll, ht.task]
    exact h.exclusive
  | tick hl =>
    rw [tick_eq]
    exact ⟨h.userIo, h.exclusive⟩
  | serv hs hrun => exact ⟨(served_userIo_iff h.userIo _).2 hr, Serv.exclusive_step h.exclusive hs⟩
  | _ => exact ⟨h.userIo, h.exclusive⟩

/-- The rest of the task, from its tail on. -/
def taskEnd : List PortAct := [.serv .taskNext, .serv .taskNext, .serv .taskNext]

theorem run_taskEnd (ht : p.serv.task = .enable) :
    run step p taskEnd =
      some { p with serv :=
        { p.serv with
          intrEn := p.serv.intrEn ||| cgemIntrSources
          gemPoll := true
          task := .idle
          serviced := true } } := by
  simp [taskEnd, step, ServAct.beside, Serv.step, Serv.taskNext, served, ht]

/-- At the end of its tail, the task still has the lock. -/
theorem taskTail_some {s s' : Serv} {clean send : List TxAct} {os : List FillOutcome}
    (h : s.taskTail clean os send = some s') : s.task.holds = true ∧ s'.task = .enable ∧ s'.poll = s.poll := by
  unfold Serv.taskTail at h
  cases ht : s.task with
  | tail ist =>
    rw [ht] at h
    obtain ⟨tx, -, h⟩ := Option.bind_eq_some_iff.1 h
    obtain ⟨tx', -, rfl⟩ := Option.map_eq_some_iff.1 h
    exact ⟨rfl, rfl, rfl⟩
  | _ =>
    rw [ht] at h
    cases h

/-- A task that does not restore RGMII mode ends without it. -/
theorem rgmii_lost (h : p.RgmiiInv) (hr : ¬p.Restores a) (hst : p.step a = some p') :
    ∃ bs t, run step p' bs = some t ∧ ¬t.RgmiiOk := by
  cases a with
  | serv a =>
    have hio : (p.served a).userIo ≠ 1 := mt (served_userIo_iff h.userIo a).1 hr
    simp only [step, Option.ite_none_right_eq_some] at hst
    obtain ⟨sv, hs, rfl⟩ := Option.map_eq_some_iff.1 hst.2
    cases a with
    | taskTail clean os send =>
      obtain ⟨hhold, hen, hpoll⟩ := taskTail_some hs
      have hfree : sv.poll.holds = false := by
        rw [hpoll]
        exact Bool.eq_false_iff.2 fun hp => Bool.false_ne_true ((h.exclusive hp).symm.trans hhold)
      exact ⟨taskEnd, _, run_taskEnd hen, fun hok => hio (hok (Serv.lockFree_iff.2 ⟨hfree, rfl⟩))⟩
    | _ => exact (hr trivial).elim
  | _ => exact (hr trivial).elim

/-- **RGMII mode survives exactly as long as the task posts a frame when it flushes.** For every order of the ioctls, of
`cgem_init`, of `cgem_start` with any frames, of the tick and of the steps of servicing, with any interrupts and any
work of the hardware: if `cgem_intr_task`, wherever it is handed RX_USED_READ, ends with a frame posted, USER_IO is 1
whenever the lock is free; the first task that does not can end with the lock free and USER_IO not 1. -/
theorem user_io_decides (rxbufs : Int) (m : Mac) (cfgKva : Bool) (as : List PortAct) :
    Decides step (fun _ _ => True) Restores RgmiiOk (attached rxbufs m cfgKva) as := by
  refine decides_of_inv (I := RgmiiInv) ?_ ?_ ?_ (rgmiiInv_attached rxbufs m cfgKva) as
  · intro p a p' h hr hst
    exact rgmiiInv_step h hr (step_cases hst)
  · intro p h _
    exact h.userIo
  · intro p a p' h hr hst
    exact rgmii_lost h hr hst

/-- The hardware runs out of descriptors with nothing queued to send. -/
theorem user_io_flush : ∃ t, run step (attached 0 Mac.zero false)
    ([.ifflags 0x8803 [], .serv (.filter 0x4), .serv .filterNext, .serv .filterNext, .serv .filterNext,
      .serv .filterNext, .serv .taskRun, .serv .taskNext, .serv .taskNext, .serv (.taskRecv []),
      .serv (.taskTail [] [] [])] ++ taskEnd) = some t ∧
      t.serv.running = true ∧ t.serv.lockFree = true ∧ t.mac.userIo = 0 ∧ ¬t.RgmiiOk := by
  refine ⟨_, rfl, rfl, rfl, rfl, ?_⟩
  intro h
  exact absurd (show (0 : BitVec 32) = 1 from h rfl) (by decide)

end Port

end Eth
