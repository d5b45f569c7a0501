import Rpi5Modules.Cyw.TxOrder

/-!
# The credit window

A sender may take the number `sdpcm_tx_seq` while it is not `sdpcm_rx_max`. Each sender checks that in one step and
takes the number in a later one, under a lock that the other does not hold: between the two the other sender can take
the last credit (`tx_credit_overrun`).

That is the only way: in any run whose updates move `sdpcm_rx_max` forward, the window is overrun exactly when a sender
takes its number after the other took the last credit and before an update arrived, all since its own check began
(`tx_credit_iff`). The invariant keeps, for each sender between its check and its number, that there is credit unless
this has happened.
-/

namespace Cyw

/-! ## Overtaken senders -/

/-- Since `me` began its last credit check, the other sender has taken the last credit, and no update has arrived
since. The last event comes first. -/
def overtaken (me : Sender) : List CreditEvent → Bool
  | [] => false
  | .check who :: h => if who = me then false else overtaken me h
  | .took who last :: h => if who = me then overtaken me h else last || overtaken me h
  | .moved :: _ => false

/-! ## The invariant -/

/-- The thread of `rx_tq` has loaded a number it has not stored. -/
def RxTqPc.storing : RxTqPc → Bool
  | txStore _ => true
  | _ => false

/-- A caller between its credit check and the store of its number; `late` says that it has been overtaken. -/
def CtlOk (rxMax txSeq : UInt8) (late : Bool) (q : RxTqPc) : CallerPc → Prop
  | .compare _ _ r => (late = true → rxMax = txSeq ∧ q.storing = false) ∧ (late = false → r = rxMax ∨ rxMax ≠ txSeq)
  | .lock _ => (late = true → rxMax = txSeq ∧ q.storing = false) ∧ (late = false → rxMax ≠ txSeq)
  | .arming _ seq => rxMax ≠ seq
  | _ => True

/-- The thread of `rx_tq` between its credit check and the store of its number. -/
def DataOk (rxMax txSeq : UInt8) (late : Bool) (p : CallerPc) : RxTqPc → Prop
  | .txCompare r => r = rxMax ∧ (late = true → rxMax = txSeq ∧ p.holdsMtx = false)
  | .txLock => (late = true → rxMax = txSeq ∧ p.holdsMtx = false) ∧ (late = false → rxMax ≠ txSeq)
  | .txStore seq => rxMax ≠ seq
  | _ => True

/-- **The invariant of the credit window.** -/
structure CreditInv (c : Core) : Prop where
  ctl : CtlOk c.sc.sdpcmRxMax c.sc.sdpcmTxSeq (overtaken .ctl c.sc.credits) c.rxTq c.pc
  data : DataOk c.sc.sdpcmRxMax c.sc.sdpcmTxSeq (overtaken .data c.sc.credits) c.pc c.rxTq

/-- The update moves `sdpcm_rx_max` forward, to at most 127 credits. -/
def Forward (sc : Softc) (f : RxFrame) : Prop :=
  sc.credit ≤ (sc.recvCredit f).credit ∧ (sc.recvCredit f).credit ≤ 127

/-- What is assumed of a step. -/
def Core.Forward (c : Core) : Action Unit → Prop
  | .recv f => Cyw.Forward c.sc f
  | _ => True

/-- No sender takes a number when it has been overtaken. -/
def Core.Timely (c : Core) : Action Unit → Prop
  | .caller _ => ∀ d, c.pc = .lock d → overtaken .ctl c.sc.credits = false
  | .txTake => overtaken .data c.sc.credits = false
  | _ => True

section Parts

variable {rxMax txSeq seq r : UInt8} {late : Bool} {p p' : CallerPc} {q q' : RxTqPc} {c : Call} {n : Nat} {sc : Softc}

theorem txCredits_eq_zero : txCredits rxMax txSeq = 0 ↔ rxMax = txSeq := by
  unfold txCredits
  rw [UInt8.sub_eq_iff_eq_add, UInt8.zero_add]

/-- The other party moves without taking a number. -/
theorem CtlOk.move (hc : CtlOk rxMax txSeq late q p) (hq : q'.storing = false) : CtlOk rxMax txSeq late q' p := by
  cases p with
  | compare c n r => exact ⟨fun ho => ⟨(hc.1 ho).1, hq⟩, hc.2⟩
  | lock c => exact ⟨fun ho => ⟨(hc.1 ho).1, hq⟩, hc.2⟩
  | _ => exact hc

theorem DataOk.move (hd : DataOk rxMax txSeq late p q) (hp : p'.holdsMtx = false) : DataOk rxMax txSeq late p' q := by
  cases q with
  | txCompare r => exact ⟨hd.1, fun ho => ⟨(hd.2 ho).1, hp⟩⟩
  | txLock => exact ⟨fun ho => ⟨(hd.1 ho).1, hp⟩, hd.2⟩
  | _ => exact hd

theorem CtlOk.wake (hc : CtlOk rxMax txSeq late q p) : CtlOk rxMax txSeq late q p.wake := by
  cases p with
  | asleep c => trivial
  | _ => exact hc

/-- A check begins. -/
theorem CtlOk.check : CtlOk rxMax txSeq false q (.compare c n rxMax) := ⟨nofun, fun _ => .inl rfl⟩

theorem DataOk.check : DataOk rxMax txSeq false p (.txCompare rxMax) := ⟨rfl, nofun⟩

/-- The check passes. -/
theorem CtlOk.granted (hc : CtlOk rxMax txSeq late q (.compare c n r)) (hr : txCredits r txSeq ≠ 0) :
    CtlOk rxMax txSeq late q (.lock c) := by
  refine ⟨hc.1, fun ho => ?_⟩
  rcases hc.2 ho with rfl | hne
  · exact fun heq => hr (txCredits_eq_zero.2 heq)
  · exact hne

theorem DataOk.granted (hd : DataOk rxMax txSeq late p (.txCompare r)) (hr : txCredits r txSeq ≠ 0) :
    DataOk rxMax txSeq late p .txLock := by
  obtain ⟨rfl, hd⟩ := hd
  exact ⟨hd, fun _ heq => hr (txCredits_eq_zero.2 heq)⟩

/-- A sender that has checked has credit exactly when it has not been overtaken. -/
theorem CtlOk.credit_iff (hc : CtlOk rxMax txSeq late q (.lock c)) : late = false ↔ txCredits rxMax txSeq ≠ 0 := by
  rw [Ne, txCredits_eq_zero]
  cases late with
  | true => exact iff_of_false nofun fun hne => hne (hc.1 rfl).1
  | false => exact iff_of_true rfl (hc.2 rfl)

theorem DataOk.credit_iff (hd : DataOk rxMax txSeq late p .txLock) : late = false ↔ txCredits rxMax txSeq ≠ 0 := by
  rw [Ne, txCredits_eq_zero]
  cases late with
  | true => exact iff_of_false nofun fun hne => hne (hd.1 rfl).1
  | false => exact iff_of_true rfl (hd.2 rfl)

/-- While there is credit, the other party may begin to take a number. -/
theorem CtlOk.storing (hc : CtlOk rxMax txSeq late q p) (hne : rxMax ≠ txSeq) : CtlOk rxMax txSeq late q' p := by
  cases p with
  | compare c n r => exact ⟨fun ho => (hne (hc.1 ho).1).elim, hc.2⟩
  | lock c => exact ⟨fun ho => (hne (hc.1 ho).1).elim, hc.2⟩
  | _ => exact hc

theorem DataOk.arming (hd : DataOk rxMax txSeq late p q) (hne : rxMax ≠ txSeq) : DataOk rxMax txSeq late p' q := by
  cases q with
  | txCompare r => exact ⟨hd.1, fun ho => (hne (hd.2 ho).1).elim⟩
  | txLock => exact ⟨fun ho => (hne (hd.1 ho).1).elim, hd.2⟩
  | _ => exact hd

theorem last_iff : (seq + 1 == rxMax) = true ↔ rxMax = seq + 1 := by
  rw [beq_iff_eq]
  exact eq_comm

theorem not_last_iff : (seq + 1 == rxMax) = false ↔ rxMax ≠ seq + 1 := by
  rw [beq_eq_false_iff_ne]
  exact ne_comm

/-- While a sender stores its number the other one has not been overtaken, so it has afterwards exactly if that number
was the last. -/
theorem late_took {A : Prop} {b last : Bool} (hno : late = true → A ∧ b = false) (hb : b = true) :
    (last || late) = last := by
  cases late with
  | false => exact Bool.or_false last
  | true => exact absurd ((hno rfl).2.symm.trans hb) nofun

/-- A data frame stores its number: it may have taken the last credit. -/
theorem CtlOk.took (hc : CtlOk rxMax txSeq late q p) (hq : q.storing = true) (hq' : q'.storing = false) :
    CtlOk rxMax (seq + 1) (seq + 1 == rxMax || late) q' p := by
  cases p with
  | compare c n r =>
    rw [late_took hc.1 hq]
    exact ⟨fun hl => ⟨last_iff.1 hl, hq'⟩, fun hl => .inr (not_last_iff.1 hl)⟩
  | lock c =>
    rw [late_took hc.1 hq]
    exact ⟨fun hl => ⟨last_iff.1 hl, hq'⟩, fun hl => not_last_iff.1 hl⟩
  | _ => exact hc

/-- A caller stores its number: it may have taken the last credit. -/
theorem DataOk.took (hd : DataOk rxMax txSeq late p q) (hp : p.holdsMtx = true) (hp' : p'.holdsMtx = false) :
    DataOk rxMax (seq + 1) (seq + 1 == rxMax || late) p' q := by
  cases q with
  | txCompare r =>
    rw [late_took hd.2 hp]
    exact ⟨hd.1, fun hl => ⟨last_iff.1 hl, hp'⟩⟩
  | txLock =>
    rw [late_took hd.1 hp]
    exact ⟨fun hl => ⟨last_iff.1 hl, hp'⟩, fun hl => not_last_iff.1 hl⟩
  | _ => exact hd

/-- An update that moves `sdpcm_rx_max` forward grants credit. -/
theorem Forward.credit {f : RxFrame} (hf : Forward sc f) (hne : sdpcmCredit.result f.buf ≠ sc.sdpcmRxMax) :
    sdpcmCredit.result f.buf ≠ sc.sdpcmTxSeq := by
  intro heq
  have hzero : (sc.recvCredit f).credit = 0 := txCredits_eq_zero.2 heq
  have hle := hf.1
  rw [hzero, UInt8.le_iff_toNat_le] at hle
  have hold : sc.credit = 0 := UInt8.toNat_inj.1 (Nat.le_zero.1 hle)
  exact hne (heq.trans (txCredits_eq_zero.1 hold).symm)

/-- An update arrives: the thread of `rx_tq` is not sending then, and no caller holds `mtx`. -/
theorem CtlOk.recv {f : RxFrame} (hf : Forward sc f) (hp : p.holdsMtx = false) (hq : q'.storing = false)
    (hc : CtlOk sc.sdpcmRxMax sc.sdpcmTxSeq (overtaken .ctl sc.credits) q p) :
    CtlOk (sc.recvCredit f).sdpcmRxMax sc.sdpcmTxSeq (overtaken .ctl (sc.recvCredit f).credits) q' p := by
  by_cases heq : sdpcmCredit.result f.buf = sc.sdpcmRxMax
  · simp only [Softc.recvCredit, heq, if_true]
    exact hc.move hq
  · have hcredit := hf.credit heq
    simp only [Softc.recvCredit, heq, if_false]
    cases p with
    | compare c n r => exact ⟨nofun, fun _ => .inr hcredit⟩
    | lock c => exact ⟨nofun, fun _ => hcredit⟩
    | arming c seq => cases hp
    | _ => trivial

theorem detach_rxMax (sc : Softc) : sc.detach.sdpcmRxMax = sc.sdpcmRxMax := by
  unfold Softc.detach
  split <;> rfl

theorem detach_credits (sc : Softc) : sc.detach.credits = sc.credits := by
  unfold Softc.detach
  split <;> rfl

/-- The detach changes nothing the senders see. -/
theorem CreditInv.detach (hi : CreditInv ⟨sc, p, q⟩) (hp : p.holdsMtx = false) :
    CreditInv ⟨sc.detach, if sc.slot.ioctlWaiting then p.wake else p, q⟩ := by
  have hwake : p.wake.holdsMtx = false := by
    cases p with
    | arming c seq => cases hp
    | _ => rfl
  have hctl : CtlOk sc.sdpcmRxMax sc.sdpcmTxSeq (overtaken .ctl sc.credits) q p := hi.ctl
  have hdata : DataOk sc.sdpcmRxMax sc.sdpcmTxSeq (overtaken .data sc.credits) p q := hi.data
  constructor
  · show CtlOk sc.detach.sdpcmRxMax sc.detach.sdpcmTxSeq (overtaken .ctl sc.detach.credits) q _
    rw [detach_rxMax, detach_txSeq, detach_credits]
    split
    · exact hctl.wake
    · exact hctl
  · show DataOk sc.detach.sdpcmRxMax sc.detach.sdpcmTxSeq (overtaken .data sc.detach.credits) _ q
    rw [detach_rxMax, detach_txSeq, detach_credits]
    split
    · exact hdata.move hwake
    · exact hdata

theorem creditInv_step {t t' : Core} {a : Action Unit} (hi : CreditInv t) (hf : t.Forward a) (ht : t.Timely a)
    (hs : t.Step a t') : CreditInv t' := by
  have hc := hi.ctl
  have hd := hi.data
  cases hs with
  | call r buf => exact ⟨trivial, DataOk.move hd rfl⟩
  | credit => exact ⟨CtlOk.check, DataOk.move hd rfl⟩
  | again m => exact ⟨trivial, DataOk.move hd rfl⟩
  | refused hr => exact ⟨trivial, DataOk.move hd rfl⟩
  | granted hr => exact ⟨CtlOk.granted hc hr, DataOk.move hd rfl⟩
  | lock =>
    have hne := (CtlOk.credit_iff hc).1 (ht _ rfl)
    rw [Ne, txCredits_eq_zero] at hne
    exact ⟨hne, DataOk.arming hd hne⟩
  | arm => exact ⟨trivial, DataOk.took hd rfl rfl⟩
  | f2Lock hq => exact ⟨trivial, DataOk.move hd rfl⟩
  | wrote => exact ⟨trivial, DataOk.move hd rfl⟩
  | writeErr he => exact ⟨trivial, DataOk.move hd rfl⟩
  | failed => exact ⟨trivial, DataOk.move hd rfl⟩
  | sleep hw => exact ⟨trivial, DataOk.move hd rfl⟩
  | answered hw => exact ⟨trivial, DataOk.move hd rfl⟩
  | timeout => exact ⟨trivial, DataOk.move hd rfl⟩
  | timedOut he => exact ⟨trivial, DataOk.move hd rfl⟩
  | signalled => exact ⟨trivial, DataOk.move hd rfl⟩
  | out => exact ⟨trivial, DataOk.move hd rfl⟩
  | drain hp => exact ⟨CtlOk.move hc rfl, trivial⟩
  | recv f hp =>
    constructor
    · split
      · exact CtlOk.recv hf hp rfl hc
      · exact CtlOk.recv hf hp rfl hc
    · split
      · trivial
      · trivial
  | deliver origin hp =>
    refine ⟨?_, trivial⟩
    split
    · exact CtlOk.wake (CtlOk.move hc rfl)
    · exact CtlOk.move hc rfl
  | drainEnd => exact ⟨CtlOk.move hc rfl, trivial⟩
  | txStart => exact ⟨CtlOk.move hc rfl, DataOk.check⟩
  | txDrop alloc => exact ⟨CtlOk.move hc rfl, trivial⟩
  | txGranted hr => exact ⟨CtlOk.move hc rfl, DataOk.granted hd hr⟩
  | txTake hp =>
    have hne := (DataOk.credit_iff hd).1 ht
    rw [Ne, txCredits_eq_zero] at hne
    exact ⟨CtlOk.storing hc hne, hne⟩
  | txStore => exact ⟨CtlOk.took hc rfl rfl, trivial⟩
  | txWrote => exact ⟨CtlOk.move hc rfl, trivial⟩
  | txWriteErr he => exact ⟨CtlOk.move hc rfl, trivial⟩
  | detach hp => exact hi.detach hp

end Parts

/-! ## What a step does to the credit -/

/-- The step takes a sequence number. -/
def Core.Takes (c : Core) : Action Unit → Prop
  | .caller _ => ∃ d, c.pc = .lock d
  | .txTake => True
  | _ => False

section Steps

variable {t t' : Core} {a : Action Unit} {seq : UInt8} {sc : Softc}

/-- Storing a number that there was credit for does not step over the end of the window. -/
theorem storeSeq_credit (hne : sc.sdpcmRxMax ≠ seq) (who : Sender) : (sc.storeSeq who seq).credit ≠ 255 := by
  intro heq
  have hsum : sc.sdpcmRxMax = 255 + (seq + 1) := UInt8.sub_eq_iff_eq_add.1 heq
  refine hne (hsum.trans ?_)
  rw [UInt8.add_comm seq, ← UInt8.add_assoc]
  exact UInt8.zero_add seq

/-- A step leaves the credit, or it is an update or a store. -/
theorem credit_step (hi : CreditInv t) (hf : t.Forward a) (hs : t.Step a t') :
    t'.sc.credit = t.sc.credit ∨ t'.sc.credit ≠ 255 := by
  cases hs with
  | arm => exact .inr (storeSeq_credit hi.ctl .ctl)
  | txStore => exact .inr (storeSeq_credit hi.data .data)
  | recv f hp =>
    refine .inr fun heq => ?_
    have hle := hf.2
    rw [show (_ : Softc).credit = 255 from heq] at hle
    exact absurd hle (by decide)
  | detach hp =>
    apply Or.inl
    show txCredits (_ : Softc).detach.sdpcmRxMax _ = _
    rw [detach_rxMax, detach_txSeq]
    rfl
  | _ => exact .inl rfl

/-- A sender takes its number in time exactly when there is credit. -/
theorem timely_iff (hi : CreditInv t) (hs : t.Step a t') : t.Timely a ↔ (t.Takes a → t.sc.credit ≠ 0) := by
  cases a with
  | caller u =>
    constructor
    · rintro ht ⟨d, hd⟩
      have hc := hi.ctl
      rw [hd] at hc
      exact hc.credit_iff.1 (ht d hd)
    · intro ht d hd
      have hc := hi.ctl
      rw [hd] at hc
      exact hc.credit_iff.2 (ht ⟨d, hd⟩)
  | txTake =>
    cases hs with
    | txTake hp =>
      have hd := DataOk.credit_iff hi.data
      exact ⟨fun ht _ => hd.1 ht, fun ht => hd.2 (ht trivial)⟩
  | _ => exact iff_of_true trivial nofun

end Steps

/-! ## Every run -/

section Runs

open Transition

variable {ι : Type}

/-- What is assumed of a step: updates move `sdpcm_rx_max` forward, to at most 127 credits. -/
def Runtime.Forward (s : Runtime ι) : Action ι → Prop
  | .recv f => Cyw.Forward s.sc f
  | _ => True

/-- No sender takes a number when it has been overtaken. -/
def Runtime.Timely (s : Runtime ι) : Action ι → Prop
  | .caller i => ∀ c, s.pc i = .lock c → overtaken .ctl s.sc.credits = false
  | .txTake => overtaken .data s.sc.credits = false
  | _ => True

/-- The step takes a sequence number. -/
def Runtime.Takes (s : Runtime ι) : Action ι → Prop
  | .caller i => ∃ c, s.pc i = .lock c
  | .txTake => True
  | _ => False

variable [DecidableEq ι]

/-- The step keeps to the window: no number is taken without credit, and the credit does not step from 0 to 255. -/
def Runtime.InWindow (s : Runtime ι) (a : Action ι) : Prop :=
  (s.Takes a → s.sc.credit ≠ 0) ∧ ∀ s', s.step a = some s' → s.sc.credit = 0 → s'.sc.credit ≠ 255

section Models

variable {s s' : Runtime ι} {c : Core} {a : Action ι}

theorem Core.forward_iff (hm : Models s c) : s.Forward a ↔ c.Forward (label a) := by
  cases a with
  | recv f =>
    show Cyw.Forward s.sc f ↔ Cyw.Forward c.sc f
    rw [hm.sc_eq]
  | _ => exact Iff.rfl

theorem Core.timely_models (hm : Models s c) (hs : s.step a = some s') : s.Timely a ↔ c.Timely (label a) := by
  cases a with
  | caller i =>
    show (∀ d, s.pc i = .lock d → overtaken .ctl s.sc.credits = false) ↔ _
    rw [hm.caller_pc hs, hm.sc_eq]
    exact Iff.rfl
  | txTake =>
    show overtaken .data s.sc.credits = false ↔ _
    rw [hm.sc_eq]
    exact Iff.rfl
  | _ => exact Iff.rfl

theorem Core.takes_models (hm : Models s c) (hs : s.step a = some s') : s.Takes a ↔ c.Takes (label a) := by
  cases a with
  | caller i =>
    show (∃ d, s.pc i = .lock d) ↔ _
    rw [hm.caller_pc hs]
    exact Iff.rfl
  | _ => exact Iff.rfl

/-- **One step**: it keeps to the window exactly when it is timely. -/
theorem timely_iff_inWindow (hm : Core.Models s c) (hi : CreditInv c) (hf : s.Forward a) (hs : s.step a = some s') :
    s.Timely a ↔ s.InWindow a := by
  obtain ⟨c', hstep, _⟩ := Core.step_refines hm hs
  have htimely := timely_iff hi hstep
  rw [← Core.timely_models hm hs, ← Core.takes_models hm hs, ← hm.sc_eq] at htimely
  rw [htimely]
  refine (and_iff_left ?_).symm
  intro s₁ hs₁ hzero
  obtain ⟨c₁, hstep₁, hm₁⟩ := Core.step_refines hm hs₁
  rw [hm₁.sc_eq]
  rcases credit_step hi ((Core.forward_iff hm).1 hf) hstep₁ with heq | hne
  · rw [heq, ← hm.sc_eq, hzero]
    decide
  · exact hne

end Models

omit [DecidableEq ι] in
theorem creditInv_init (slot : IoctlSlot) (ioctlId : UInt16) (txSeq rxMax : UInt8) :
    CreditInv ⟨(Runtime.init ι slot ioctlId txSeq rxMax).sc, .idle, .idle⟩ := ⟨trivial, trivial⟩

/-- **The credit window is overrun exactly when a sender is overtaken**: in every run whose updates move
`sdpcm_rx_max` forward, each number is taken with credit left, and the credit never steps from 0 to 255, if and only
if no sender takes its number after the other took the last credit and before an update, all since its own check
began. -/
theorem tx_credit_iff (slot : IoctlSlot) (ioctlId : UInt16) (txSeq rxMax : UInt8) (as : List (Action ι))
    (hf : AllSteps Runtime.step Runtime.Forward (Runtime.init ι slot ioctlId txSeq rxMax) as) :
    AllSteps Runtime.step Runtime.Timely (Runtime.init ι slot ioctlId txSeq rxMax) as ↔
      AllSteps Runtime.step Runtime.InWindow (Runtime.init ι slot ioctlId txSeq rxMax) as := by
  refine allSteps_iff (I := fun s => ∃ c, Core.Models s c ∧ CreditInv c) ?_ ?_ ?_ hf
  · rintro s a s' ⟨c, hm, hi⟩ hf ht hs
    obtain ⟨c', hstep, hm'⟩ := Core.step_refines hm hs
    have hf' := (Core.forward_iff hm).1 hf
    have ht' := (Core.timely_models hm hs).1 ht
    exact ⟨c', hm', creditInv_step hi hf' ht' hstep⟩
  · rintro s a s' ⟨c, hm, hi⟩ hf hs
    exact timely_iff_inWindow hm hi hf hs
  · exact ⟨_, Core.models_init slot ioctlId txSeq rxMax, creditInv_init (ι := ι) slot ioctlId txSeq rxMax⟩

/-- One credit left. -/
def oneCredit : Runtime Unit := .init Unit getSlot 3 3 4

/-- A data frame takes it after an update granted one more, and a control frame that. -/
def grantedRun : List (Action Unit) :=
  List.flatten [[.drain, .recv ⟨12, fun i => if i = 5 then 2 else if i = 9 then 5 else 0⟩, .drainEnd], ctlChecked,
    dataChecked, [.txTake, .txStore, .txWrite 0, .caller (), .caller ()]]

theorem tx_credit_iff_granted :
    AllSteps Runtime.step Runtime.Timely oneCredit grantedRun ↔
      AllSteps Runtime.step Runtime.InWindow oneCredit grantedRun := by
  apply tx_credit_iff getSlot 3 3 4 grantedRun
  refine (allSteps_cons rfl).2 ⟨trivial, ?_⟩
  refine (allSteps_cons rfl).2 ⟨(by decide : (1 : UInt8) ≤ 2 ∧ (2 : UInt8) ≤ 127), ?_⟩
  iterate 13 refine (allSteps_cons rfl).2 ⟨trivial, ?_⟩
  exact trivial

/-- The control frame has checked, the data frame takes the last credit, and the control frame takes a number with no
credit left: then there are 255. -/
theorem tx_credit_overrun :
    ((run Runtime.step oneCredit (List.flatten [ctlChecked, dataChecked, [.txTake, .txStore, .txWrite 0]])).map
      fun s => (s.sc.credit, s.pc ())) = some (0, .lock ⟨1, ⟨false, 0, 0⟩, 0, 4⟩) ∧
    ((run Runtime.step oneCredit (List.flatten [ctlChecked, dataChecked, [.txTake, .txStore, .txWrite 0],
      [.caller (), .caller ()]])).map fun s => s.sc.credit) = some 255 :=
  ⟨rfl, rfl⟩

end Runs

end Cyw
