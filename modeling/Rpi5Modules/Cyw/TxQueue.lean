import Rpi5Modules.Cyw.Defs
import Rpi5Modules.Lib.TailQueue
import Rpi5Modules.Lib.Transition

/-!
# The transmit queue

`cyw_vap_transmit` may not sleep, so it links the mbuf in at the tail of `tx_queue` and enqueues `tx_task`.
`cyw_tx_task` takes the whole queue away under `tx_queue_mtx` and then, without the lock, hands one mbuf after the other
to `cyw_tx_data_frame`, unlinking each before it does. `cyw_sdpcm_detach` drains the task and frees what is left.

The queue is the one in memory: the `m_nextpkt` of all mbufs and the two pointers (`TailQueue.Links`). An mbuf that the
driver does not hold belongs to somebody else, who may write its `m_nextpkt` and pass it to the driver, for the first
time or again. What a section under `tx_queue_mtx` does is one step; the calls in progress are as many as there are.

- `FifoInv s r q` is the invariant: `q` is in the queue, `r` in the hands of the task;
- `tx_queue_fifo`: what was queued is, in its order, what was handed over, what the task still has, what `detach` freed
  and what is in the queue.
-/

namespace Cyw

open TailQueue Transition

/-- An mbuf, by its pointer. -/
abbrev Mbuf := Nat

/-! ## State -/

/-- `cyw_tx_task`: idle, before its locked section, at the test of its loop, or in `cyw_tx_data_frame(sc, m)`. -/
inductive TxTaskPc where
  | idle
  | start
  | loop (txList : Option Mbuf)
  | send (m : Mbuf) (txList : Option Mbuf)
deriving DecidableEq

/-- The local variable `tx_list`. -/
def TxTaskPc.txList : TxTaskPc → Option Mbuf
  | loop p => p
  | send _ p => p
  | _ => none

/-- The mbuf `cyw_tx_data_frame` has. -/
def TxTaskPc.sending : TxTaskPc → List Mbuf
  | send m _ => [m]
  | _ => []

/-- `cyw_sdpcm_detach`: not called, in `taskqueue_drain`, in the section that frees the queue, or past it. -/
inductive TxDetachPc where
  | idle
  | drain
  | free
  | done
deriving DecidableEq

/-- The queue and those who work on it. `entering` are the calls of `cyw_vap_transmit` before their locked section,
`waking` those behind it and before `taskqueue_enqueue`; each by its mbuf. `held` are the mbufs the driver has, and the
other lists say what became of them: `queued` in the queue, `returned` those whose call has returned 0, `handed` given
to `cyw_tx_data_frame`, `freed` by `cyw_sdpcm_detach`. -/
structure TxQueue where
  links : Links Mbuf
  entering : List Mbuf
  waking : List Mbuf
  txTask : Bool
  task : TxTaskPc
  detach : TxDetachPc
  held : List Mbuf
  queued : List Mbuf
  returned : List Mbuf
  handed : List Mbuf
  freed : List Mbuf

namespace TxQueue

/-- After `cyw_sdpcm_attach`; `next` is what lies in the `m_nextpkt` of the mbufs there are. -/
def attached (next : Mbuf → Option Mbuf) : TxQueue where
  links := ⟨next, none, .head⟩
  entering := []
  waking := []
  txTask := false
  task := .idle
  detach := .idle
  held := []
  queued := []
  returned := []
  handed := []
  freed := []

/-! ## Steps -/

/-- `cyw_vap_transmit(ifp, m)` up to its locked section; `run` is `iv_state == RUN`, `etherType` the type of a frame
that has an Ethernet header. A frame it refuses is freed. -/
def cywVapTransmit (s : TxQueue) (m : Mbuf) (run : Bool) (etherType : Option UInt16) : TxQueue :=
  if run ∨ etherType = some ethertypePae then { s with entering := m :: s.entering, held := m :: s.held }
  else s

/-- The locked section of `cyw_vap_transmit`. -/
def enqueue (s : TxQueue) (m : Mbuf) : TxQueue :=
  { s with
    links := s.links.push m
    entering := s.entering.erase m
    waking := m :: s.waking
    queued := s.queued ++ [m] }

/-- `taskqueue_enqueue` and `return (0)`. -/
def wake (s : TxQueue) (m : Mbuf) : TxQueue :=
  { s with txTask := true, waking := s.waking.erase m, returned := s.returned ++ [m] }

/-- The next step of `cyw_tx_task`. -/
def taskNext (s : TxQueue) : Option TxQueue :=
  match s.task with
  | .idle => none
  | .start => some { s with links := s.links.clear, task := .loop s.links.head }
  | .loop none => some { s with task := .idle }
  | .loop (some m) =>
    some
      { s with
        links := s.links.store (.link m) none
        task := .send m (s.links.next m)
        handed := s.handed ++ [m] }
  | .send m txList => some { s with task := .loop txList, held := s.held.erase m }

/-- The next step of `cyw_sdpcm_detach`: the drain returns, one iteration of the loop, or its end. -/
def detachNext (s : TxQueue) : Option TxQueue :=
  match s.detach with
  | .drain => if s.txTask = false ∧ s.task = .idle then some { s with detach := .free } else none
  | .free =>
    match s.links.head with
    | some m =>
      some
        { s with
          links := { s.links with head := s.links.next m }
          held := s.held.erase m
          freed := s.freed ++ [m] }
    | none => some { s with links := { s.links with tail := .head }, detach := .done }
  | _ => none

inductive TxQueueAct where
  | transmit (m : Mbuf) (run : Bool) (etherType : Option UInt16)
  | enqueue (m : Mbuf)
  | wake (m : Mbuf)
  /-- The owner of an mbuf writes its `m_nextpkt`. -/
  | foreign (m : Mbuf) (v : Option Mbuf)
  | taskRun
  | taskNext
  | detach
  | detachNext

def step (s : TxQueue) : TxQueueAct → Option TxQueue
  | .transmit m run etherType =>
    if s.detach = .idle ∧ m ∉ s.held then some (s.cywVapTransmit m run etherType) else none
  | .enqueue m => if m ∈ s.entering then some (s.enqueue m) else none
  | .wake m => if m ∈ s.waking then some (s.wake m) else none
  | .foreign m v => if m ∉ s.held then some { s with links := s.links.store (.link m) v } else none
  | .taskRun => if s.txTask ∧ s.task = .idle then some { s with txTask := false, task := .start } else none
  | .taskNext => s.taskNext
  | .detach =>
    if s.detach = .idle ∧ s.entering = [] ∧ s.waking = [] then some { s with detach := .drain } else none
  | .detachNext => s.detachNext

/-! ## The invariant -/

/-- The mbufs the driver has, by where they are. -/
def owned (s : TxQueue) (r q : List Mbuf) : List Mbuf := s.entering ++ s.task.sending ++ r ++ q

/-- **The invariant**: `q` is in the queue and `r` in the hands of the task. -/
structure FifoInv (s : TxQueue) (r q : List Mbuf) : Prop where
  queue : Chain s.links.next s.links.head q
  tail : s.detach ≠ .free → s.links.tail = endOf q
  rest : Chain s.links.next s.task.txList r
  queued : s.queued = s.handed ++ r ++ s.freed ++ q
  nodup : s.held.Nodup
  held : s.held.Perm (s.owned r q)
  returned : s.queued.Perm (s.returned ++ s.waking)
  /-- `detach` waits for the calls, and then for the task. -/
  freed : s.detach = .idle ∨ s.detach = .drain → s.freed = []
  calls : s.detach ≠ .idle → s.entering = [] ∧ s.waking = []
  drained : s.detach = .free ∨ s.detach = .done → s.txTask = false ∧ s.task = .idle
  done : s.detach = .done → q = []

variable {s s' : TxQueue} {r q : List Mbuf} {m : Mbuf}

theorem FifoInv.nodup_owned (h : FifoInv s r q) : (s.owned r q).Nodup := h.held.nodup_iff.1 h.nodup

theorem FifoInv.mem_held (h : FifoInv s r q) : m ∈ s.held ↔ m ∈ s.entering ∨ m ∈ s.task.sending ∨ m ∈ r ∨ m ∈ q := by
  rw [h.held.mem_iff]
  simp [owned]

theorem fifoInv_attached (next : Mbuf → Option Mbuf) : FifoInv (attached next) [] [] := by
  refine ⟨rfl, fun _ => rfl, rfl, rfl, List.nodup_nil, .nil, .nil, fun _ => rfl, fun _ => ⟨rfl, rfl⟩, ?_, fun _ => rfl⟩
  exact fun _ => ⟨rfl, rfl⟩

/-- Somebody else's mbuf is not linked. -/
theorem fifoInv_foreign {v : Option Mbuf} (h : FifoInv s r q) (hm : m ∉ s.held) :
    FifoInv { s with links := s.links.store (.link m) v } r q := by
  rw [h.mem_held, not_or, not_or, not_or] at hm
  obtain ⟨-, -, hr, hq⟩ := hm
  exact ⟨h.queue.update hq, h.tail, h.rest.update hr, h.queued, h.nodup, h.held, h.returned, h.freed, h.calls,
    h.drained, h.done⟩

theorem fifoInv_transmit {run : Bool} {etherType : Option UInt16} (h : FifoInv s r q) (hd : s.detach = .idle)
    (hm : m ∉ s.held) : FifoInv (s.cywVapTransmit m run etherType) r q := by
  unfold cywVapTransmit
  split
  · exact
      { h with
        nodup := List.nodup_cons.2 ⟨hm, h.nodup⟩
        held := h.held.cons m
        calls := fun hne => (hne hd).elim }
  · exact h

theorem fifoInv_enqueue (h : FifoInv s r q) (hm : m ∈ s.entering) : FifoInv (s.enqueue m) r (q ++ [m]) := by
  have hidle : s.detach = .idle := by
    apply Decidable.byContradiction
    intro hne
    rw [(h.calls hne).1] at hm
    cases hm
  have hnd := h.nodup_owned
  unfold owned at hnd
  obtain ⟨hndr, hq, hrq⟩ := List.nodup_append.1 hnd
  obtain ⟨-, -, her⟩ := List.nodup_append.1 hndr
  have hmq : m ∉ q := fun hq' => hrq m (by simp [hm]) m hq' rfl
  have hmr : m ∉ r := fun hr' => her m (by simp [hm]) m hr' rfl
  have hdisj : ∀ b ∈ q, b ∉ r := fun b hb hr' => hrq b (by simp [hr']) b hb rfl
  have hholds : s.links.Holds q := ⟨h.queue, h.tail (by rw [hidle]; decide)⟩
  have hpush := hholds.push hq hmq
  have hfreed := h.freed (.inl hidle)
  refine ⟨hpush.chain, fun _ => hpush.tail, h.rest.push hholds hmr hdisj, ?_, h.nodup, ?_, ?_, h.freed, ?_,
    h.drained, ?_⟩
  · simp [enqueue, h.queued]
  · apply h.held.trans
    have hperm : (s.owned r q).Perm (m :: (s.entering.erase m ++ s.task.sending ++ r ++ q)) :=
      (((List.perm_cons_erase hm).append_right _).append_right _).append_right _
    apply hperm.trans
    simpa [owned, enqueue] using (List.perm_append_singleton m (s.entering.erase m ++ s.task.sending ++ r ++ q)).symm
  · refine (List.perm_append_singleton m s.queued).trans ((h.returned.cons m).trans ?_)
    exact List.perm_middle.symm
  · exact fun hne => (hne hidle).elim
  · intro hdone
    cases hidle.symm.trans hdone

theorem fifoInv_wake (h : FifoInv s r q) (hm : m ∈ s.waking) : FifoInv (s.wake m) r q := by
  have hidle : s.detach = .idle := by
    apply Decidable.byContradiction
    intro hne
    rw [(h.calls hne).2] at hm
    cases hm
  refine { h with returned := ?_, calls := fun hne => (hne hidle).elim, drained := ?_ }
  · refine h.returned.trans (((List.perm_cons_erase hm).append_left _).trans ?_)
    simp [wake]
  · rintro (hd | hd) <;> cases hidle.symm.trans hd

theorem fifoInv_taskRun (h : FifoInv s r q) (hq : s.txTask = true) (ht : s.task = .idle) :
    FifoInv { s with txTask := false, task := .start } r q := by
  have hrest := h.rest
  have hheld := h.held
  simp only [owned, ht] at hrest hheld
  refine ⟨h.queue, h.tail, hrest, h.queued, h.nodup, hheld, h.returned, h.freed, h.calls, ?_, h.done⟩
  intro hd
  cases (h.drained hd).1.symm.trans hq

theorem fifoInv_taskNext (h : FifoInv s r q) (hs : s.taskNext = some s') : ∃ r' q', FifoInv s' r' q' := by
  have hdet : s.task ≠ .idle → s.detach = .idle ∨ s.detach = .drain := by
    intro hne
    cases hd : s.detach with
    | idle => exact .inl rfl
    | drain => exact .inr rfl
    | free => exact (hne (h.drained (.inl hd)).2).elim
    | done => exact (hne (h.drained (.inr hd)).2).elim
  have hnot : s.task ≠ .idle → ¬(s.detach = .free ∨ s.detach = .done) := by
    intro hne hd
    exact hne (h.drained hd).2
  have hrest := h.rest
  have hheld := h.held
  unfold taskNext at hs
  cases ht : s.task with
  | idle =>
    rw [ht] at hs
    cases hs
  | start =>
    -- the queue becomes the rest
    rw [ht] at hs hrest
    cases hs
    have hne : s.task ≠ .idle := by rw [ht]; nofun
    have hr : r = [] := Chain.eq_nil hrest
    subst hr
    have hfreed := h.freed (hdet hne)
    have hclear := s.links.holds_clear
    refine ⟨q, [], hclear.chain, fun _ => hclear.tail, h.queue, ?_, h.nodup, ?_, h.returned, h.freed, h.calls, ?_,
      fun _ => rfl⟩
    · simp [h.queued, hfreed]
    · simpa [owned, ht, TxTaskPc.sending] using hheld
    · exact fun hd => (hnot hne hd).elim
  | loop txList =>
    have hne : s.task ≠ .idle := by rw [ht]; nofun
    cases txList with
    | none =>
      rw [ht] at hs hrest
      cases hs
      refine ⟨r, q, h.queue, h.tail, hrest, h.queued, h.nodup, ?_, h.returned, h.freed, h.calls, ?_, h.done⟩
      · simpa [owned, ht, TxTaskPc.sending] using hheld
      · exact fun hd => (hnot hne hd).elim
    | some m =>
      rw [ht] at hs hrest
      cases hs
      obtain ⟨r', rfl, hr'⟩ := Chain.some_cons hrest
      have hnd := h.nodup_owned
      simp only [owned, ht, TxTaskPc.sending, List.append_nil, List.append_assoc] at hnd
      obtain ⟨-, hnd, -⟩ := List.nodup_append.1 hnd
      rw [List.cons_append, List.nodup_cons, List.mem_append, not_or] at hnd
      refine ⟨r', q, h.queue.update hnd.1.2, h.tail, hr'.update hnd.1.1, ?_, h.nodup, ?_, h.returned, h.freed, h.calls,
        ?_, h.done⟩
      · simp [h.queued]
      · simpa [owned, ht, TxTaskPc.sending] using hheld
      · exact fun hd => (hnot hne hd).elim
  | send m txList =>
    have hne : s.task ≠ .idle := by rw [ht]; nofun
    rw [ht] at hs hrest
    cases hs
    refine ⟨r, q, h.queue, h.tail, hrest, h.queued, h.nodup.erase m, ?_, h.returned, h.freed, h.calls, ?_, h.done⟩
    · -- the mbuf is gone
      have hperm : s.held.Perm (m :: (s.entering ++ (r ++ q))) := by
        apply hheld.trans
        simp [owned, ht, TxTaskPc.sending]
      have herase := hperm.erase m
      rw [List.erase_cons_head] at herase
      simpa [owned, TxTaskPc.sending] using herase
    · exact fun hd => (hnot hne hd).elim

theorem fifoInv_detachNext (h : FifoInv s r q) (hs : s.detachNext = some s') : ∃ q', FifoInv s' r q' := by
  unfold detachNext at hs
  cases hd : s.detach with
  | idle =>
    rw [hd] at hs
    cases hs
  | done =>
    rw [hd] at hs
    cases hs
  | drain =>
    simp only [hd] at hs
    split at hs
    · next hidle =>
      cases hs
      have hcalls := h.calls (by rw [hd]; decide)
      refine ⟨q, h.queue, fun hne => (hne rfl).elim, h.rest, h.queued, h.nodup, h.held, h.returned, ?_, fun _ => hcalls,
        fun _ => hidle, nofun⟩
      rintro (hd' | hd') <;> cases hd'
    · cases hs
  | free =>
    have hdrained := h.drained (.inl hd)
    have hcalls := h.calls (by rw [hd]; decide)
    have hr : r = [] := Chain.eq_nil (hdrained.2 ▸ h.rest)
    subst hr
    have hqueue := h.queue
    have hheld := h.held
    simp only [hd] at hs
    split at hs
    · next m hm =>
      cases hs
      rw [hm] at hqueue
      obtain ⟨q', rfl, hq'⟩ := Chain.some_cons hqueue
      refine ⟨q', hq', fun hne => (hne rfl).elim, h.rest, ?_, h.nodup.erase m, ?_, h.returned, ?_, fun _ => hcalls,
        fun _ => hdrained, ?_⟩
      · simp [h.queued]
      · have hperm : s.held.Perm (m :: q') := by
          apply hheld.trans
          simp [owned, hcalls.1, hdrained.2, TxTaskPc.sending]
        have herase := hperm.erase m
        rw [List.erase_cons_head] at herase
        simpa [owned, hcalls.1, hdrained.2, TxTaskPc.sending] using herase
      · rintro (hd' | hd') <;> cases hd'
      · intro hd'
        cases hd'
    · next hm =>
      cases hs
      rw [hm] at hqueue
      have hq : q = [] := Chain.eq_nil hqueue
      subst hq
      refine ⟨[], h.queue, fun _ => rfl, h.rest, h.queued, h.nodup, h.held, h.returned, ?_, fun _ => hcalls,
        fun _ => hdrained, fun _ => rfl⟩
      rintro (hd' | hd') <;> cases hd'

theorem fifoInv_step {a : TxQueueAct} (h : FifoInv s r q) (hs : s.step a = some s') : ∃ r' q', FifoInv s' r' q' := by
  cases a with
  | transmit m run etherType =>
    simp only [step, Option.ite_none_right_eq_some, Option.some.injEq] at hs
    obtain ⟨⟨hd, hm⟩, rfl⟩ := hs
    exact ⟨r, q, fifoInv_transmit h hd hm⟩
  | enqueue m =>
    simp only [step, Option.ite_none_right_eq_some, Option.some.injEq] at hs
    obtain ⟨hm, rfl⟩ := hs
    exact ⟨r, q ++ [m], fifoInv_enqueue h hm⟩
  | wake m =>
    simp only [step, Option.ite_none_right_eq_some, Option.some.injEq] at hs
    obtain ⟨hm, rfl⟩ := hs
    exact ⟨r, q, fifoInv_wake h hm⟩
  | foreign m v =>
    simp only [step, Option.ite_none_right_eq_some, Option.some.injEq] at hs
    obtain ⟨hm, rfl⟩ := hs
    exact ⟨r, q, fifoInv_foreign h hm⟩
  | taskRun =>
    simp only [step, Option.ite_none_right_eq_some, Option.some.injEq] at hs
    obtain ⟨⟨hq, ht⟩, rfl⟩ := hs
    exact ⟨r, q, fifoInv_taskRun h hq ht⟩
  | taskNext => exact fifoInv_taskNext h hs
  | detach =>
    simp only [step, Option.ite_none_right_eq_some, Option.some.injEq] at hs
    obtain ⟨⟨hd, hcalls⟩, rfl⟩ := hs
    refine ⟨r, q, h.queue, fun _ => h.tail (by rw [hd]; decide), h.rest, h.queued, h.nodup, h.held, h.returned,
      fun _ => h.freed (.inl hd), fun _ => hcalls, ?_, nofun⟩
    rintro (hd' | hd') <;> cases hd'
  | detachNext =>
    obtain ⟨q', h'⟩ := fifoInv_detachNext h hs
    exact ⟨r, q', h'⟩

/-! ## The queue is a FIFO -/

/-- The queue in memory is `q`, and its tail pointer is where the next mbuf is to be linked in. What was queued is, in
this order, what was handed to `cyw_tx_data_frame`, what the task is still to hand over, what `detach` freed and what is
in the queue. -/
structure Fifo (s : TxQueue) (r q : List Mbuf) : Prop where
  queue : Chain s.links.next s.links.head q
  /-- Except while `detach` empties the queue, under the lock. -/
  tail : s.detach ≠ .free → s.links.tail = endOf q
  rest : Chain s.links.next s.task.txList r
  order : s.queued = s.handed ++ r ++ s.freed ++ q
  /-- What is linked was not freed. -/
  linked : ∀ m ∈ r ++ q, m ∈ s.held

/-- The queue is a FIFO; the calls that have returned 0 are those for the queued mbufs, but for the calls still in
progress; and after `detach` each of these mbufs was handed over or freed, in the order in which they were queued. -/
structure Lossless (s : TxQueue) : Prop where
  fifo : ∃ r q, s.Fifo r q
  returned : s.queued.Perm (s.returned ++ s.waking)
  done : s.detach = .done → s.queued = s.handed ++ s.freed ∧ s.returned.Perm (s.handed ++ s.freed) ∧ s.held = []

theorem FifoInv.lossless (h : FifoInv s r q) : s.Lossless := by
  refine ⟨⟨r, q, h.queue, h.tail, h.rest, h.queued, ?_⟩, h.returned, ?_⟩
  · intro m hm
    rw [h.mem_held]
    rcases List.mem_append.1 hm with hm | hm
    · exact .inr (.inr (.inl hm))
    · exact .inr (.inr (.inr hm))
  · intro hd
    obtain ⟨he, hw⟩ := h.calls (by rw [hd]; decide)
    obtain ⟨-, ht⟩ := h.drained (.inr hd)
    have hr : r = [] := Chain.eq_nil (ht ▸ h.rest)
    have hq := h.done hd
    subst hr hq
    have hqueued : s.queued = s.handed ++ s.freed := by simpa using h.queued
    refine ⟨hqueued, ?_, ?_⟩
    · have hret := h.returned
      rw [hw, List.append_nil, hqueued] at hret
      exact hret.symm
    · have hheld := h.held
      simp only [owned, he, ht, TxTaskPc.sending, List.append_nil] at hheld
      exact hheld.eq_nil

/-- **The transmit queue loses nothing and keeps the order.** In every interleaving of calls of `cyw_vap_transmit` with
`cyw_tx_task`, up to a `cyw_sdpcm_detach` that is called once no call is in progress. -/
theorem tx_queue_fifo (next : Mbuf → Option Mbuf) (as : List TxQueueAct) :
    AllStates step Lossless (attached next) as := by
  have h0 : ∃ r q, FifoInv (attached next) r q := ⟨[], [], fifoInv_attached next⟩
  refine (allStates_inv (I := fun s => ∃ r q, FifoInv s r q) ?_ h0 as).mono ?_
  · rintro s a s' ⟨r, q, h⟩ hs
    exact fifoInv_step h hs
  · rintro s ⟨r, q, h⟩
    exact h.lossless

end TxQueue

end Cyw
