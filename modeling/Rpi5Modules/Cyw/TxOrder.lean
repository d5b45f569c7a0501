import Rpi5Modules.Cyw.OneCaller

/-!
# The order of sequence numbers on the wire

`cyw_tx_data_frame` takes its sequence number and writes its frame in one hold of `f2_sx`; `cyw_fil_txrx` takes its
number under `mtx` and takes `f2_sx` only later. So a data frame can take the next number, and be written, between a
control frame's number and its write, and each can load `sdpcm_tx_seq` before the other has stored it
(`tx_wire_swapped`).

In a run where neither happens (`Runtime.Orderly`) and no write fails, the numbers on the wire are consecutive: at most
two numbers are taken and not written, first the data frame's, then the control frame's, and `sdpcm_tx_seq` is the
number after those stored. Where either happens, the wire is out of order once the two frames are written
(`tx_wire_decides`).
-/

namespace Cyw

/-! ## Numbers taken and not written -/

/-- The number a caller has loaded and not written to F2. -/
def CallerPc.taken : CallerPc → Option UInt8
  | arming _ seq => some seq
  | f2Lock _ seq => some seq
  | f2Write _ seq => some seq
  | _ => none

/-- The caller's number is `next`, or `sdpcm_tx_seq` is. -/
def CallerPc.Pending (next txSeq : UInt8) : CallerPc → Prop
  | arming _ seq => seq = next ∧ txSeq = next
  | f2Lock _ seq => seq = next ∧ txSeq = next + 1
  | f2Write _ seq => seq = next ∧ txSeq = next + 1
  | _ => txSeq = next

/-- The numbers taken, where `next` is the one after those on the wire. -/
def Pending (p : CallerPc) (next txSeq : UInt8) : RxTqPc → Prop
  | .txStore seq => seq = next ∧ txSeq = next ∧ p.taken = none
  | .txWrite seq => seq = next ∧ p.Pending (next + 1) txSeq
  | _ => p.Pending next txSeq

/-- The number after those on the wire, from `first` on. -/
def nextOnWire (first : UInt8) (wire : List UInt8) : UInt8 := first + UInt8.ofNat wire.length

/-- **The invariant of the order**: the wire carries consecutive numbers from `first` on, and those taken are next. -/
structure OrderInv (first : UInt8) (c : Core) : Prop where
  wire : c.sc.wire = seqRange first c.sc.wire.length
  pending : Pending c.pc (nextOnWire first c.sc.wire) c.sc.sdpcmTxSeq c.rxTq

/-- What is asked of a step: writes succeed, and no number is taken while another sender's is in the way. -/
def Core.Orderly (c : Core) : Action Unit → Prop
  | .caller _ => ∀ d, c.pc = .lock d → ∀ seq, c.rxTq ≠ .txStore seq
  | .txTake => c.pc.taken = none
  | .write _ err => err = 0
  | .txWrite err => err = 0
  | _ => True

section Steps

variable {first next txSeq seq : UInt8} {wire : List UInt8} {sc : Softc} {p : CallerPc} {q : RxTqPc} {c : Call}

theorem seqRange_succ (first : UInt8) (n : Nat) :
    seqRange first (n + 1) = seqRange first n ++ [first + UInt8.ofNat n] := by
  induction n generalizing first with
  | zero => simp [seqRange]
  | succ n ih =>
    show first :: seqRange (first + 1) (n + 1) = first :: (seqRange (first + 1) n ++ [first + UInt8.ofNat (n + 1)])
    rw [ih, UInt8.add_assoc, UInt8.ofNat_add, UInt8.add_comm 1]
    rfl

theorem nextOnWire_append (first : UInt8) (wire : List UInt8) (seq : UInt8) :
    nextOnWire first (wire ++ [seq]) = nextOnWire first wire + 1 := by
  unfold nextOnWire
  rw [List.length_append, List.length_singleton, UInt8.ofNat_add, ← UInt8.add_assoc]
  rfl

/-- The next number is written. -/
theorem wire_append (hw : wire = seqRange first wire.length) (hs : seq = nextOnWire first wire) :
    wire ++ [seq] = seqRange first (wire ++ [seq]).length := by
  rw [List.length_append, List.length_singleton, seqRange_succ, ← hw, hs]
  rfl

/-- A caller that has taken no number. -/
theorem CallerPc.pending_none (hp : p.taken = none) : p.Pending next txSeq ↔ txSeq = next := by
  cases p with
  | arming c seq => cases hp
  | f2Lock c seq => cases hp
  | f2Write c seq => cases hp
  | _ => exact Iff.rfl

theorem CallerPc.taken_wake (p : CallerPc) : p.wake.taken = p.taken := by
  cases p <;> rfl

theorem CallerPc.pending_wake (p : CallerPc) : p.wake.Pending next txSeq ↔ p.Pending next txSeq := by
  cases p <;> exact Iff.rfl

/-- A caller moves that has taken no number and takes none. -/
theorem Pending.move {p' : CallerPc} (h : Pending p next txSeq q) (hp : p.taken = none) (hp' : p'.taken = none) :
    Pending p' next txSeq q := by
  have hiff : ∀ next, p.Pending next txSeq → p'.Pending next txSeq := fun next hn =>
    (CallerPc.pending_none hp').2 ((CallerPc.pending_none hp).1 hn)
  cases q with
  | txStore seq => exact ⟨h.1, h.2.1, hp'⟩
  | txWrite seq => exact ⟨h.1, hiff _ h.2⟩
  | _ => exact hiff _ h

theorem Pending.wake (h : Pending p next txSeq q) : Pending p.wake next txSeq q := by
  cases q with
  | txStore seq => exact ⟨h.1, h.2.1, (CallerPc.taken_wake p).trans h.2.2⟩
  | txWrite seq => exact ⟨h.1, (CallerPc.pending_wake p).2 h.2⟩
  | _ => exact (CallerPc.pending_wake p).2 h

/-- A caller takes a number: no data frame's number waits to be stored. -/
theorem Pending.lock (h : Pending (.lock c) next txSeq q) (hq : ∀ seq, q ≠ .txStore seq) :
    Pending (.arming c txSeq) next txSeq q := by
  cases q with
  | txStore seq => exact (hq seq rfl).elim
  | txWrite seq => exact ⟨h.1, h.2, h.2⟩
  | _ => exact ⟨h, h⟩

/-- It stores the number after it. -/
theorem Pending.arm (h : Pending (.arming c seq) next txSeq q) : Pending (.f2Lock c seq) next (seq + 1) q := by
  cases q with
  | txStore m => cases h.2.2
  | txWrite m => exact ⟨h.1, h.2.1, congrArg (· + 1) h.2.1⟩
  | _ => exact ⟨h.1, congrArg (· + 1) h.1⟩

theorem Pending.f2Lock (h : Pending (.f2Lock c seq) next txSeq q) : Pending (.f2Write c seq) next txSeq q := by
  cases q with
  | txStore m => cases h.2.2
  | _ => exact h

/-- Its frame is written: it is the next one, as the `rx_tq` thread does not hold `f2_sx`. -/
theorem Pending.wrote (h : Pending (.f2Write c seq) next txSeq q) (hq : q.holdsF2 = false) :
    seq = next ∧ Pending (.wait c) (next + 1) txSeq q := by
  cases q with
  | txStore m => cases hq
  | txWrite m => cases hq
  | _ => exact h

/-- A step that takes, stores and writes nothing. -/
theorem OrderInv.keep {sc' : Softc} {p' : CallerPc} {q' : RxTqPc} (hi : OrderInv first ⟨sc, p, q⟩)
    (hw : sc'.wire = sc.wire) (h : Pending p' (nextOnWire first sc.wire) sc'.sdpcmTxSeq q') :
    OrderInv first ⟨sc', p', q'⟩ := by
  constructor
  · show sc'.wire = seqRange first sc'.wire.length
    rw [hw]
    exact hi.wire
  · show Pending p' (nextOnWire first sc'.wire) sc'.sdpcmTxSeq q'
    rw [hw]
    exact h

/-- The next number is written to F2. -/
theorem OrderInv.wrote {p' : CallerPc} {q' : RxTqPc} (hi : OrderInv first ⟨sc, p, q⟩)
    (hs : seq = nextOnWire first sc.wire) (h : Pending p' (nextOnWire first sc.wire + 1) sc.sdpcmTxSeq q') :
    OrderInv first ⟨sc.wrote seq, p', q'⟩ := by
  refine ⟨wire_append hi.wire hs, ?_⟩
  show Pending p' (nextOnWire first (sc.wire ++ [seq])) sc.sdpcmTxSeq q'
  rw [nextOnWire_append]
  exact h

theorem detach_wire (sc : Softc) : sc.detach.wire = sc.wire := by
  unfold Softc.detach
  split <;> rfl

theorem detach_txSeq (sc : Softc) : sc.detach.sdpcmTxSeq = sc.sdpcmTxSeq := by
  unfold Softc.detach
  split <;> rfl

theorem orderInv_step {t t' : Core} {a : Action Unit} (hx : t.Exclusive) (hi : OrderInv first t) (ho : t.Orderly a)
    (hs : t.Step a t') : OrderInv first t' := by
  have hp := hi.pending
  cases hs with
  | call r buf => exact hi.keep rfl (Pending.move hp rfl rfl)
  | credit => exact hi.keep rfl (Pending.move hp rfl rfl)
  | again m => exact hi.keep rfl (Pending.move hp rfl rfl)
  | refused hc => exact hi.keep rfl (Pending.move hp rfl rfl)
  | granted hc => exact hi.keep rfl (Pending.move hp rfl rfl)
  | lock => exact hi.keep rfl (Pending.lock hp (ho _ rfl))
  | arm => exact hi.keep rfl (Pending.arm hp)
  | f2Lock hq => exact hi.keep rfl (Pending.f2Lock hp)
  | wrote =>
    obtain ⟨hseq, hp⟩ := Pending.wrote hp (hx rfl)
    exact hi.wrote hseq hp
  | writeErr he => exact (he ho).elim
  | failed => exact hi.keep rfl (Pending.move hp rfl rfl)
  | sleep hw => exact hi.keep rfl (Pending.move hp rfl rfl)
  | answered hw => exact hi.keep rfl (Pending.move hp rfl rfl)
  | timeout => exact hi.keep rfl (Pending.move hp rfl rfl)
  | timedOut he => exact hi.keep rfl (Pending.move hp rfl rfl)
  | signalled => exact hi.keep rfl (Pending.move hp rfl rfl)
  | out => exact hi.keep rfl (Pending.move hp rfl rfl)
  | drain hq => exact hi.keep rfl hp
  | recv f hm =>
    refine hi.keep rfl ?_
    split
    · exact hp
    · exact hp
  | deliver origin hm =>
    refine hi.keep rfl ?_
    split
    · exact Pending.wake (q := .drain) hp
    · exact hp
  | drainEnd => exact hi.keep rfl hp
  | txStart => exact hi.keep rfl hp
  | txDrop alloc => exact hi.keep rfl hp
  | txGranted hc => exact hi.keep rfl hp
  | txTake hf =>
    have hnone : (_ : CallerPc).taken = none := ho
    have hseq := (CallerPc.pending_none hnone).1 hp
    exact hi.keep rfl ⟨hseq, hseq, hnone⟩
  | txStore =>
    obtain ⟨hseq, _, hnone⟩ := hp
    exact hi.keep rfl ⟨hseq, (CallerPc.pending_none hnone).2 (congrArg (· + 1) hseq)⟩
  | txWrote => exact hi.wrote hp.1 hp.2
  | txWriteErr he => exact (he ho).elim
  | detach hm =>
    apply hi.keep (detach_wire _)
    rw [detach_txSeq]
    split
    · exact Pending.wake hp
    · exact hp

end Steps

/-! ## Every orderly run -/

section Runs

open Transition

variable {ι : Type}

/-- Every F2 write succeeds. -/
def Runtime.WriteOk (_ : Runtime ι) : Action ι → Prop
  | .write _ err => err = 0
  | .txWrite err => err = 0
  | _ => True

/-- No sender takes a number while the other's is in the way: a caller loads `sdpcm_tx_seq` when no data frame waits to
store it, and a data frame loads it when no caller has a number whose frame is not written. -/
def Runtime.Orderly (s : Runtime ι) : Action ι → Prop
  | .caller i => ∀ c, s.pc i = .lock c → ∀ seq, s.rxTq ≠ .txStore seq
  | .txTake => ∀ i, (s.pc i).taken = none
  | _ => True

variable [DecidableEq ι]

theorem Core.orderly_of_models {s s' : Runtime ι} {c : Core} {a : Action ι} (hm : Models s c)
    (h : s.WriteOk a ∧ s.Orderly a) (hs : s.step a = some s') : c.Orderly (label a) := by
  cases a with
  | caller i =>
    have ho : ∀ c, s.pc i = .lock c → ∀ seq, s.rxTq ≠ .txStore seq := h.2
    rw [hm.caller_pc hs, hm.rxTq_eq] at ho
    exact ho
  | txTake =>
    have ho : ∀ i, (s.pc i).taken = none := h.2
    show c.pc.taken = none
    by_cases hidle : c.pc = .idle
    · rw [hidle]
      rfl
    · obtain ⟨i, hi⟩ := hm.exists_pc hidle
      rw [← hi]
      exact ho i
  | write i err => exact h.1
  | txWrite err => exact h.1
  | _ => trivial

omit [DecidableEq ι] in
theorem orderInv_init (slot : IoctlSlot) (ioctlId : UInt16) (txSeq rxMax : UInt8) :
    OrderInv txSeq ⟨(Runtime.init ι slot ioctlId txSeq rxMax).sc, .idle, .idle⟩ :=
  ⟨rfl, (UInt8.add_zero txSeq).symm⟩

/-- An orderly run keeps the invariant. -/
theorem orderInv_run {slot : IoctlSlot} {ioctlId : UInt16} {txSeq rxMax : UInt8} {as : List (Action ι)}
    (hw : AllSteps Runtime.step Runtime.WriteOk (Runtime.init ι slot ioctlId txSeq rxMax) as)
    (ho : AllSteps Runtime.step Runtime.Orderly (Runtime.init ι slot ioctlId txSeq rxMax) as) :
    AllStates Runtime.step (fun s => ∃ c, Core.Models s c ∧ OrderInv txSeq c)
      (Runtime.init ι slot ioctlId txSeq rxMax) as :=
  Core.allStates_core (fun _ _ _ _ hm h hs => Core.orderly_of_models hm h hs)
    (fun _ _ _ hx hi ho hs => orderInv_step hx hi ho hs) (Core.models_init slot ioctlId txSeq rxMax)
    (orderInv_init (ι := ι) slot ioctlId txSeq rxMax) (hw.and ho)

/-! ## A number taken out of turn -/

section OutOfTurn

variable {sc : Softc} {d : Call} {m n : UInt8} {i : ι} {s s' : Runtime ι} {c c' : Core} {a : Action ι} {first : UInt8}

/-- Consecutive numbers end in consecutive numbers. -/
theorem seqRange_last {wire : List UInt8} (h : wire ++ [m, n] = seqRange first (wire ++ [m, n]).length) :
    n = m + 1 := by
  rw [List.length_append, show [m, n].length = 1 + 1 from rfl, ← Nat.add_assoc, seqRange_succ, seqRange_succ,
    List.append_assoc] at h
  have htail := (List.append_inj h (length_seqRange first wire.length).symm).2
  rw [List.singleton_append, List.cons.injEq, List.cons.injEq, UInt8.ofNat_add, ← UInt8.add_assoc] at htail
  obtain ⟨rfl, rfl, _⟩ := htail
  rfl

/-- The frames in flight are written: the data frame's, then the control frame's. -/
def finish (i : ι) : List (Action ι) := [.txStore, .txWrite 0, .caller i, .write i 0]

omit [DecidableEq ι] in
theorem finish_writeOk (i : ι) : ∀ b ∈ finish i, ∀ s : Runtime ι, s.WriteOk b := by
  simp [finish, Runtime.WriteOk]

theorem run_finish_f2Lock : (run Runtime.step (Core.spread ⟨sc, .f2Lock d n, .txStore m⟩ (some i)) (finish i)).map
    (fun t => t.sc.wire) = some (sc.wire ++ [m, n]) := by
  simp [finish, Runtime.step, Runtime.txStore, Runtime.txWrite, Runtime.caller, Runtime.write, Core.spread,
    Softc.wrote, Softc.storeSeq]

theorem run_finish_arming : (run Runtime.step (Core.spread ⟨sc, .arming d n, .txStore m⟩ (some i))
    (.caller i :: finish i)).map (fun t => t.sc.wire) = some (sc.wire ++ [m, n]) := by
  simp [finish, Runtime.step, Runtime.txStore, Runtime.txWrite, Runtime.caller, Runtime.write, Core.spread,
    Softc.wrote, Softc.storeSeq, Softc.arm]

/-- The run goes on, with no write failing, to a wire that does not carry consecutive numbers. -/
def Spoiled (s : Runtime ι) : Prop := ∃ bs t, (∀ b ∈ bs, ∀ s : Runtime ι, s.WriteOk b) ∧
  run Runtime.step s bs = some t ∧ ∀ first, t.sc.wire ≠ seqRange first t.sc.wire.length

theorem spoiled_of_wire {wire : List UInt8} {bs : List (Action ι)} (hw : ∀ b ∈ bs, ∀ s : Runtime ι, s.WriteOk b)
    (hr : (run Runtime.step s bs).map (fun t => t.sc.wire) = some (wire ++ [m, n])) (hne : n ≠ m + 1) : Spoiled s := by
  obtain ⟨t, ht, hwire⟩ := Option.map_eq_some_iff.1 hr
  refine ⟨bs, t, hw, ht, fun first h => hne ?_⟩
  rw [hwire] at h
  exact seqRange_last h

/-- Both senders have a number, and the data frame's is not the one before the control frame's. -/
theorem spoiled_of_taken (hm : Core.Models s c) (hq : c.rxTq = .txStore m)
    (hp : (∃ d, c.pc = .arming d n) ∨ ∃ d, c.pc = .f2Lock d n) (hne : n ≠ m + 1) : Spoiled s := by
  obtain ⟨o, rfl, hf⟩ := hm
  obtain ⟨sc, p, q⟩ := c
  obtain rfl : q = .txStore m := hq
  rcases hp with ⟨d, hp⟩ | ⟨d, hp⟩
  · obtain rfl : p = .arming d n := hp
    cases o with
    | none => cases hf.idle.2 rfl
    | some i =>
      have hw : ∀ s : Runtime ι, s.WriteOk (.caller i) := fun _ => trivial
      exact spoiled_of_wire (List.forall_mem_cons.2 ⟨hw, finish_writeOk i⟩) run_finish_arming hne
  · obtain rfl : p = .f2Lock d n := hp
    cases o with
    | none => cases hf.idle.2 rfl
    | some i => exact spoiled_of_wire (finish_writeOk i) run_finish_f2Lock hne

theorem ne_add_one (x : UInt8) : x ≠ x + 1 := by
  intro h
  exact absurd (UInt8.left_eq_add.1 h) (by decide)

theorem ne_add_one_add_one (x : UInt8) : x ≠ x + 1 + 1 := by
  intro h
  rw [UInt8.add_assoc] at h
  exact absurd (UInt8.left_eq_add.1 h) (by decide)

/-- **A step out of turn spoils the order**: once the two frames are written, the wire is not consecutive. -/
theorem spoiled_of_not_orderly (hm : Core.Models s c) (hi : OrderInv first c) (hs : s.step a = some s')
    (ho : ¬s.Orderly a) : Spoiled s' := by
  obtain ⟨c', hstep, hm'⟩ := Core.step_refines hm hs
  have hpend := hi.pending
  cases a with
  | caller i =>
    have ho : ¬∀ d, s.pc i = .lock d → ∀ seq, s.rxTq ≠ .txStore seq := ho
    rw [hm.caller_pc hs, hm.rxTq_eq] at ho
    obtain ⟨sc, p, q⟩ := c
    obtain ⟨d, ho⟩ := Classical.not_forall.1 ho
    obtain ⟨hp, ho⟩ := Classical.not_imp.1 ho
    obtain ⟨m, hq⟩ := Classical.not_forall_not.1 ho
    obtain rfl : p = .lock d := hp
    obtain rfl : q = .txStore m := hq
    cases hstep with
    | lock =>
      apply spoiled_of_taken hm' rfl (.inl ⟨d, rfl⟩)
      rw [hpend.2.1, hpend.1]
      exact ne_add_one _
  | txTake =>
    have ho : ¬∀ i, (s.pc i).taken = none := ho
    obtain ⟨i, htaken⟩ := Classical.not_forall.1 ho
    have hpc : s.pc i = c.pc := by
      refine hm.pc_eq fun hidle => htaken ?_
      rw [hidle]
      rfl
    rw [hpc] at htaken
    obtain ⟨sc, p, q⟩ := c
    cases hstep with
    | txTake hp =>
      cases p with
      | arming d n =>
        apply spoiled_of_taken hm' rfl (.inl ⟨d, rfl⟩)
        rw [hpend.2, hpend.1]
        exact ne_add_one _
      | f2Lock d n =>
        apply spoiled_of_taken hm' rfl (.inr ⟨d, rfl⟩)
        rw [hpend.2, hpend.1]
        exact ne_add_one_add_one _
      | f2Write d n => cases hp
      | _ => exact (htaken rfl).elim
  | _ => exact (ho trivial).elim

end OutOfTurn

/-- **The wire carries consecutive sequence numbers, unless a number is taken out of turn.** Take a run in which the F2
writes succeed. If no sender takes a number while the other's is in the way, the wire carries consecutive numbers in
every state; if one does, the first such step can be followed, writing the two frames, by a wire that does not. -/
theorem tx_wire_decides (slot : IoctlSlot) (ioctlId : UInt16) (txSeq rxMax : UInt8) (as : List (Action ι))
    (hw : AllSteps Runtime.step Runtime.WriteOk (Runtime.init ι slot ioctlId txSeq rxMax) as) :
    (AllSteps Runtime.step Runtime.Orderly (Runtime.init ι slot ioctlId txSeq rxMax) as →
      AllStates Runtime.step (fun s => s.sc.wire = seqRange txSeq s.sc.wire.length)
        (Runtime.init ι slot ioctlId txSeq rxMax) as) ∧
    (¬AllSteps Runtime.step Runtime.Orderly (Runtime.init ι slot ioctlId txSeq rxMax) as →
      ∃ pre a post s₁ bs t, as = pre ++ a :: post ∧
        (AllSteps Runtime.step Runtime.Orderly (Runtime.init ι slot ioctlId txSeq rxMax) pre ∧
          run Runtime.step (Runtime.init ι slot ioctlId txSeq rxMax) pre = some s₁ ∧ ¬Runtime.Orderly s₁ a) ∧
        AllSteps Runtime.step Runtime.WriteOk (Runtime.init ι slot ioctlId txSeq rxMax) (pre ++ a :: bs) ∧
        run Runtime.step (Runtime.init ι slot ioctlId txSeq rxMax) (pre ++ a :: bs) = some t ∧
        ∀ first, t.sc.wire ≠ seqRange first t.sc.wire.length) := by
  constructor
  · intro ho
    apply (orderInv_run hw ho).mono
    rintro s ⟨c, hm, hi⟩
    rw [hm.sc_eq]
    exact hi.wire
  · intro ho
    obtain ⟨pre, a, post, s₁, s₂, rfl, hpre, hrun, hstep, hbreak⟩ := exists_first_break ho
    have hall := orderInv_run (AllSteps.of_append hw) hpre
    obtain ⟨c, hm, hi⟩ := hall.last hrun
    obtain ⟨bs, t, hbs, ht, hwire⟩ := spoiled_of_not_orderly hm hi hstep hbreak
    refine ⟨pre, a, post, s₁, bs, t, rfl, ⟨hpre, hrun, hbreak⟩, ?_, ?_, hwire⟩
    · refine (AllSteps.of_append hw).append hrun ((allSteps_cons hstep).2 ⟨?_, AllSteps.of_mem hbs⟩)
      exact ((allSteps_cons hstep).1 (AllSteps.of_append_right hw hrun)).1
    · rw [run_append, hrun]
      exact run_cons_some.2 ⟨s₂, hstep, ht⟩

/-- A control frame, up to the step before it takes its number. -/
def ctlChecked : List (Action Unit) := .call () ⟨false, 0, 0⟩ 0 :: List.replicate 4 (.caller ())

/-- A data frame, up to the step before it takes its number. -/
def dataChecked : List (Action Unit) := [.txStart, .txCompare true]

/-- Four credits, and no frame sent yet. -/
def fourCredits : Runtime Unit := .init Unit getSlot 0 0 4

/-- A control frame is sent, and then a data frame. -/
def ctlThenData : List (Action Unit) :=
  List.flatten [ctlChecked, [.caller (), .caller (), .caller (), .write () 0], dataChecked,
    [.txTake, .txStore, .txWrite 0]]

theorem tx_wire_decides_two :
    AllStates Runtime.step (fun s => s.sc.wire = seqRange 0 s.sc.wire.length) fourCredits ctlThenData := by
  refine (tx_wire_decides getSlot 0 0 4 ctlThenData ?_).1 ?_
  · iterate 8 refine (allSteps_cons rfl).2 ⟨trivial, ?_⟩
    refine (allSteps_cons rfl).2 ⟨rfl, ?_⟩
    iterate 4 refine (allSteps_cons rfl).2 ⟨trivial, ?_⟩
    exact (allSteps_cons rfl).2 ⟨rfl, trivial⟩
  · refine (allSteps_cons rfl).2 ⟨trivial, ?_⟩
    iterate 7 refine (allSteps_cons rfl).2 ⟨fun _ _ _ => nofun, ?_⟩
    iterate 3 refine (allSteps_cons rfl).2 ⟨trivial, ?_⟩
    refine (allSteps_cons rfl).2 ⟨fun _ => rfl, ?_⟩
    iterate 2 refine (allSteps_cons rfl).2 ⟨trivial, ?_⟩
    exact trivial

/-- The data frame takes its number and is written between the control frame's number and its write; or both load the
same number. No write fails, and the wire carries 1, 0 in the one run and 0, 0 in the other. -/
theorem tx_wire_swapped :
    ((run Runtime.step fourCredits (List.flatten [ctlChecked, [.caller (), .caller ()], dataChecked,
      [.txTake, .txStore, .txWrite 0, .caller (), .write () 0]])).map fun s => s.sc.wire) = some [1, 0] ∧
    ((run Runtime.step fourCredits (List.flatten [ctlChecked, [.caller ()], dataChecked,
      [.txTake, .txStore, .txWrite 0, .caller (), .caller (), .write () 0]])).map fun s => s.sc.wire) = some [0, 0] ∧
    ∀ first, seqRange first 2 ≠ [1, 0] ∧ seqRange first 2 ≠ [0, 0] := by
  refine ⟨rfl, rfl, fun first => ⟨?_, ?_⟩⟩
  · intro h
    obtain ⟨rfl, h⟩ := List.cons.inj h
    exact absurd (List.cons.inj h).1 (by decide)
  · intro h
    obtain ⟨rfl, h⟩ := List.cons.inj h
    exact absurd (List.cons.inj h).1 (by decide)

end Runs

end Cyw
