import Mathlib.Logic.Function.Basic
import Rpi5Modules.Eth.Defs
import Rpi5Modules.Lib.Slots
import Rpi5Modules.Lib.Transition

/-!
# The GEM receive ring

`cgem_fill_rqueue` posts buffers at the head, the hardware fills them in ring order, `cgem_recv` takes them off at the
tail, `cgem_stop` frees the rest. The fill loop is bounded by `rxbufs`, which a sysctl can set to any value at any
time, and by nothing else.

The system is modelled at the granularity of loop iterations, so that hardware completions and sysctl writes fall
between any two of them; a call of `cgem_fill_rqueue` or `cgem_recv` is a run of iterations
(`cgemFillRqueue_run`, `cgemRecv_run`). The ring invariant holds all along a run exactly when no iteration posts a
buffer while all 256 descriptors are queued (`rx_ring_iff`).
-/

namespace Eth

open Flags Slots

/-! ## State -/

/-- The address of a receive cluster: its two low bits are free for WRAP and OWN. -/
structure ClusterAddr where
  addr : BitVec 32
  aligned : addr &&& 3#32 = 0#32

/-- The checksum flags `cgem_recv` sets: none, IP checked and valid, or these and data valid with the pseudo
header. -/
inductive RxCsum where
  | none
  | ip
  | ipData
deriving DecidableEq

/-- An mbuf as `cgem_recv` hands it to `if_input`. -/
structure RxPacket where
  m : Mbuf
  mLen : Nat
  csum : RxCsum

/-- The receive part of the softc, the descriptor the hardware looks at next, and what became of the mbufs posted so
far. -/
structure RxState where
  rxring : Nat → RxDesc
  rxringM : Nat → Option Mbuf
  rxringHdPtr : Nat
  rxringTlPtr : Nat
  rxringQueued : Int
  rxbufs : Int
  rxdmamapfails : Nat
  /-- `IFCAP_RXCSUM` is enabled. -/
  rxcsum : Bool
  hwPtr : Nat
  posted : List Mbuf
  delivered : List RxPacket
  freed : List Mbuf

/-- The receive part of `cgem_setup_descs`. -/
def cgemSetupRx (rxbufs : Int) (rxcsum : Bool) : RxState where
  rxring i := ⟨if i = rp1ethNumRxDescs - 1 then cgemRxdescOwn ||| cgemRxdescWrap else cgemRxdescOwn, 0⟩
  rxringM _ := none
  rxringHdPtr := 0
  rxringTlPtr := 0
  rxringQueued := 0
  rxbufs := rxbufs
  rxdmamapfails := 0
  rxcsum := rxcsum
  hwPtr := 0
  posted := []
  delivered := []
  freed := []

/-! ## `cgem_fill_rqueue` -/

/-- How the allocations of one iteration go: no mbuf, `bus_dmamap_create` fails, `bus_dmamap_load_mbuf_sg` fails, or
the mbuf is mapped at an address. -/
inductive FillOutcome where
  | noMbuf
  | noMap
  | noLoad
  | mapped (m : Mbuf) (seg : ClusterAddr)

/-- The body of the loop; `false` is `break`. -/
def fillBody (s : RxState) : FillOutcome → Bool × RxState
  | .noMbuf => (false, s)
  | .noMap => (false, { s with rxdmamapfails := s.rxdmamapfails + 1 })
  | .noLoad => (false, { s with rxdmamapfails := s.rxdmamapfails + 1 })
  | .mapped m seg =>
    let hd := s.rxringHdPtr
    let s := { s with rxringM := Function.update s.rxringM hd (some m), posted := s.posted ++ [m] }
    let s :=
      if hd = rp1ethNumRxDescs - 1 then
        { s with rxring := Function.update s.rxring hd ⟨seg.addr ||| cgemRxdescWrap, 0⟩, rxringHdPtr := 0 }
      else { s with rxring := Function.update s.rxring hd ⟨seg.addr, 0⟩, rxringHdPtr := hd + 1 }
    (true, { s with rxringQueued := s.rxringQueued + 1 })

/-- `cgem_fill_rqueue(sc)`; the allocations go as listed, and fail from then on. -/
def cgemFillRqueue (s : RxState) : List FillOutcome → RxState
  | [] => s
  | o :: os =>
    if s.rxringQueued < s.rxbufs then
      match fillBody s o with
      | (true, s) => cgemFillRqueue s os
      | (false, s) => s
    else s

/-! ## `cgem_recv` -/

/-- The loop condition: something is queued and the hardware is done with the tail descriptor. -/
def RxReady (s : RxState) : Prop :=
  s.rxringQueued > 0 ∧ HasFlag (s.rxring s.rxringTlPtr).addr rxdescOwnBit

instance (s : RxState) : Decidable (RxReady s) := inferInstanceAs (Decidable (_ ∧ _))

/-- The frame is damaged or not in one buffer. -/
def rxBad (ctl : BitVec 32) : Bool :=
  ctl &&& cgemRxdescBadFcs != 0 ||
    ctl &&& (cgemRxdescSof ||| cgemRxdescEof) != cgemRxdescSof ||| cgemRxdescEof

def rxCsum (rxcsum : Bool) (ctl : BitVec 32) : RxCsum :=
  if !rxcsum then .none
  else if ctl &&& cgemRxdescCksumStatMask = cgemRxdescCksumStatTcpGood ∨
      ctl &&& cgemRxdescCksumStatMask = cgemRxdescCksumStatUdpGood then .ipData
  else if ctl &&& cgemRxdescCksumStatMask = cgemRxdescCksumStatIpGood then .ip
  else .none

/-- The body of the loop; `none` if the slot holds no mbuf, which the code would follow as a pointer. -/
def recvBody (s : RxState) : Option RxState :=
  let tl := s.rxringTlPtr
  let ctl := (s.rxring tl).ctl
  match s.rxringM tl with
  | none => none
  | some m =>
    let s :=
      { s with
        rxringM := Function.update s.rxringM tl none
        rxringTlPtr := if tl + 1 = rp1ethNumRxDescs then 0 else tl + 1
        rxringQueued := s.rxringQueued - 1 }
    some
      (if rxBad ctl then { s with freed := s.freed ++ [m] }
      else
        { s with delivered := s.delivered ++ [⟨m, (ctl &&& cgemRxdescLengthMask).toNat, rxCsum s.rxcsum ctl⟩] })

/-- The loop of `cgem_recv`, with at most `n` rounds; `rxring_queued` rounds are enough. -/
def recvLoop : (n : Nat) → RxState → Option RxState
  | 0, s => some s
  | n + 1, s => if RxReady s then (recvBody s).bind (recvLoop n) else some s

/-- `cgem_recv(sc)`, with the allocations of the refill. -/
def cgemRecv (s : RxState) (os : List FillOutcome) : Option RxState :=
  (recvLoop s.rxringQueued.toNat s).map fun s => cgemFillRqueue s os

/-! ## `cgem_stop`, the hardware and the sysctl -/

/-- The receive part of `cgem_stop`; the reset takes the hardware back to the first descriptor. -/
def cgemStopRx (s : RxState) : RxState :=
  { s with
    rxring := fun i => ⟨if i = rp1ethNumRxDescs - 1 then cgemRxdescOwn ||| cgemRxdescWrap else cgemRxdescOwn, 0⟩
    rxringM := fun i => if i < rp1ethNumRxDescs then none else s.rxringM i
    freed := s.freed ++ held s.rxringM rp1ethNumRxDescs
    rxringHdPtr := 0
    rxringTlPtr := 0
    rxringQueued := 0
    hwPtr := 0 }

/-- The hardware fills the buffer at its pointer, unless that is not its to fill, and goes on in ring order. -/
def hwFill (s : RxState) (ctl : BitVec 32) : Option RxState :=
  let d := s.rxring s.hwPtr
  if HasFlag d.addr rxdescOwnBit then none
  else
    some
      { s with
        rxring := Function.update s.rxring s.hwPtr ⟨d.addr ||| cgemRxdescOwn, ctl⟩
        hwPtr := if HasFlag d.addr rxdescWrapBit then 0 else s.hwPtr + 1 }

/-! ## The system -/

/-- What can happen: an iteration of a loop, a stop, a hardware completion with any control word, and a write of the
`rxbufs` sysctl. -/
inductive RxAct where
  | fill (o : FillOutcome)
  | recv
  | stop
  | hw (ctl : BitVec 32)
  | sysctl (rxbufs : Int)

def rxStep (s : RxState) : RxAct → Option RxState
  | .fill o => if s.rxringQueued < s.rxbufs then some (fillBody s o).2 else none
  | .recv => if RxReady s then recvBody s else none
  | .stop => some (cgemStopRx s)
  | .hw ctl => hwFill s ctl
  | .sysctl v => some { s with rxbufs := v }

/-- A call of `cgem_fill_rqueue` is a run of iterations. -/
theorem cgemFillRqueue_run : ∀ (os : List FillOutcome) (s : RxState), Transition.Reaches rxStep s (cgemFillRqueue s os)
  | [], s => Transition.Reaches.refl s
  | o :: os, s => by
    unfold cgemFillRqueue
    by_cases h : s.rxringQueued < s.rxbufs
    · have hstep : Transition.Reaches rxStep s (fillBody s o).2 := ⟨[.fill o], by simp [rxStep, h]⟩
      rw [if_pos h]
      split
      · rename_i t heq
        rw [heq] at hstep
        exact hstep.trans (cgemFillRqueue_run os t)
      · rename_i t heq
        rwa [heq] at hstep
    · rw [if_neg h]
      exact Transition.Reaches.refl s

theorem recvLoop_run : ∀ (n : Nat) {s t : RxState}, recvLoop n s = some t → Transition.Reaches rxStep s t
  | 0, s, t, h => by
    cases h
    exact Transition.Reaches.refl s
  | n + 1, s, t, h => by
    unfold recvLoop at h
    by_cases hr : RxReady s
    · rw [if_pos hr] at h
      obtain ⟨u, hu, ht⟩ := Option.bind_eq_some_iff.1 h
      have hstep : Transition.Reaches rxStep s u := ⟨[.recv], by simp [rxStep, hr, hu]⟩
      exact hstep.trans (recvLoop_run n ht)
    · rw [if_neg hr] at h
      cases h
      exact Transition.Reaches.refl s

/-- A call of `cgem_recv` is a run of iterations. -/
theorem cgemRecv_run {s t : RxState} {os : List FillOutcome} (h : cgemRecv s os = some t) :
    Transition.Reaches rxStep s t := by
  obtain ⟨u, hu, rfl⟩ := Option.map_eq_some_iff.1 h
  exact (recvLoop_run _ hu).trans (cgemFillRqueue_run os u)

/-- `j` comes after `i` in the ring. -/
def RxNext (i j : Nat) : Prop :=
  i + 1 = rp1ethNumRxDescs ∧ j = 0 ∨ i + 1 ≠ rp1ethNumRxDescs ∧ j = i + 1

/-- The mbufs that were handed to `if_input` or freed. -/
def RxState.gone (s : RxState) : List Mbuf := s.delivered.map RxPacket.m ++ s.freed

/-- What one round of `cgem_recv` changes: the tail slot is emptied, and its mbuf delivered or freed. -/
theorem recvBody_spec {s t : RxState} (h : recvBody s = some t) :
    ∃ m, s.rxringM s.rxringTlPtr = some m ∧
      t.rxringM = Function.update s.rxringM s.rxringTlPtr none ∧
      RxNext s.rxringTlPtr t.rxringTlPtr ∧ t.rxringQueued = s.rxringQueued - 1 ∧
      t.rxringHdPtr = s.rxringHdPtr ∧ t.rxring = s.rxring ∧ t.posted = s.posted ∧ t.gone.Perm (m :: s.gone) := by
  unfold recvBody at h
  dsimp only at h
  cases hm : s.rxringM s.rxringTlPtr with
  | none =>
    rw [hm] at h
    cases h
  | some m =>
    rw [hm] at h
    dsimp only at h
    rw [Option.some_inj] at h
    subst h
    have hnext : RxNext s.rxringTlPtr (if s.rxringTlPtr + 1 = rp1ethNumRxDescs then 0 else s.rxringTlPtr + 1) := by
      by_cases hl : s.rxringTlPtr + 1 = rp1ethNumRxDescs
      · exact .inl ⟨hl, if_pos hl⟩
      · exact .inr ⟨hl, if_neg hl⟩
    refine ⟨m, rfl, ?_⟩
    by_cases hb : rxBad (s.rxring s.rxringTlPtr).ctl
    · rw [if_pos hb]
      refine ⟨rfl, hnext, rfl, rfl, rfl, rfl, ?_⟩
      simp only [RxState.gone]
      rw [← List.append_assoc]
      exact List.perm_append_singleton m _
    · rw [if_neg hb]
      refine ⟨rfl, hnext, rfl, rfl, rfl, rfl, ?_⟩
      simp only [RxState.gone, List.map_append, List.map_cons, List.map_nil]
      rw [List.append_assoc, List.singleton_append]
      exact List.perm_middle

/-- The rounds `cgem_recv` is given are enough: its loop ends because its condition is false. -/
theorem recvLoop_done : ∀ (n : Nat) {s t : RxState}, s.rxringQueued ≤ n → recvLoop n s = some t → ¬RxReady t
  | 0, s, t, hn, h, hr => by
    cases h
    exact absurd hr.1 (Int.not_lt.2 hn)
  | n + 1, s, t, hn, h, hr => by
    unfold recvLoop at h
    by_cases hs : RxReady s
    · rw [if_pos hs] at h
      obtain ⟨u, hu, ht⟩ := Option.bind_eq_some_iff.1 h
      obtain ⟨_, _, _, _, hq, _⟩ := recvBody_spec hu
      exact recvLoop_done n (by omega) ht hr
    · rw [if_neg hs] at h
      cases h
      exact hs hr

/-! ## The ring invariant -/

/-- Slot `i` is one of the `rxring_queued` slots from `rxring_tl_ptr` on. -/
def RxQueuedSlot (s : RxState) (i : Nat) : Prop :=
  ((i + rp1ethNumRxDescs - s.rxringTlPtr) % rp1ethNumRxDescs : Nat) < s.rxringQueued

/-- The receive ring is in order. `kept`: every mbuf posted was delivered, or freed, or is still in its slot, so none
was replaced. -/
structure RxOk (s : RxState) : Prop where
  queued_nonneg : 0 ≤ s.rxringQueued
  queued_le : s.rxringQueued ≤ rp1ethNumRxDescs
  hd_lt : s.rxringHdPtr < rp1ethNumRxDescs
  tl_lt : s.rxringTlPtr < rp1ethNumRxDescs
  hd_eq : (s.rxringHdPtr : Int) = (s.rxringTlPtr + s.rxringQueued) % rp1ethNumRxDescs
  slots : ∀ i < rp1ethNumRxDescs, (s.rxringM i).isSome ↔ RxQueuedSlot s i
  wrap : ∀ i < rp1ethNumRxDescs, HasFlag (s.rxring i).addr rxdescWrapBit ↔ i = rp1ethNumRxDescs - 1
  kept : s.posted.Perm (s.gone ++ held s.rxringM rp1ethNumRxDescs)

/-- The iteration does not post a buffer while the ring is full. -/
def FillOk (s : RxState) : RxAct → Prop
  | .fill (.mapped _ _) => s.rxringQueued < rp1ethNumRxDescs
  | _ => True

section Invariant

variable {s t : RxState}

/-- The descriptors after set-up or stop: WRAP in the last one only. -/
theorem wrap_initial (i : Nat) :
    HasFlag (if i = rp1ethNumRxDescs - 1 then cgemRxdescOwn ||| cgemRxdescWrap else cgemRxdescOwn) rxdescWrapBit ↔
      i = rp1ethNumRxDescs - 1 := by
  by_cases hi : i = rp1ethNumRxDescs - 1
  · rw [if_pos hi]
    exact iff_of_true (by decide) hi
  · rw [if_neg hi]
    exact iff_of_false (by decide) hi

theorem rxOk_setup (rxbufs : Int) (rxcsum : Bool) : RxOk (cgemSetupRx rxbufs rxcsum) where
  queued_nonneg := Int.le_refl 0
  queued_le := Int.natCast_nonneg _
  hd_lt := Nat.zero_lt_succ _
  tl_lt := Nat.zero_lt_succ _
  hd_eq := rfl
  slots := fun i _ => by
    simp only [cgemSetupRx, RxQueuedSlot, Option.isSome_none, Bool.false_eq_true, false_iff]
    omega
  wrap := fun i _ => wrap_initial i
  kept := by
    have hnone : held (cgemSetupRx rxbufs rxcsum).rxringM rp1ethNumRxDescs = [] := held_none fun _ _ => rfl
    rw [hnone]
    exact List.Perm.refl _

theorem rxOk_stop (h : RxOk s) : RxOk (cgemStopRx s) where
  queued_nonneg := Int.le_refl 0
  queued_le := Int.natCast_nonneg _
  hd_lt := Nat.zero_lt_succ _
  tl_lt := Nat.zero_lt_succ _
  hd_eq := rfl
  slots := fun i hi => by
    simp only [cgemStopRx, hi, if_true, RxQueuedSlot, Option.isSome_none, Bool.false_eq_true, false_iff]
    omega
  wrap := fun i _ => wrap_initial i
  kept := by
    have hnone : held (cgemStopRx s).rxringM rp1ethNumRxDescs = [] :=
      held_none fun i hi => by simp only [cgemStopRx, hi, if_true]
    rw [hnone, List.append_nil]
    apply h.kept.trans
    simp only [RxState.gone, cgemStopRx, List.append_assoc]
    exact List.Perm.refl _

theorem rxOk_hw {ctl : BitVec 32} (h : RxOk s) (ht : hwFill s ctl = some t) : RxOk t := by
  unfold hwFill at ht
  dsimp only at ht
  split at ht
  · cases ht
  · cases ht
    refine { h with wrap := fun i hi => ?_ }
    by_cases hp : i = s.hwPtr
    · subst hp
      have hown : ¬HasFlag cgemRxdescOwn rxdescWrapBit := by decide
      simp only [Function.update_self, hasFlag_or, hown, or_false]
      exact h.wrap _ hi
    · simp only [Function.update_of_ne hp]
      exact h.wrap i hi

theorem rxOk_recv (h : RxOk s) (hq : 0 < s.rxringQueued) (ht : recvBody s = some t) : RxOk t := by
  obtain ⟨m, hm, hM, htl, hqt, hhd, hring, hposted, hgone⟩ := recvBody_spec ht
  have hlt := h.tl_lt
  have hle := h.queued_le
  have hhdlt := h.hd_lt
  have hhdeq := h.hd_eq
  simp only [RxNext, rp1ethNumRxDescs] at htl hlt hle hhdlt hhdeq
  refine ⟨?_, ?_, ?_, ?_, ?_, fun i hi => ?_, fun i hi => ?_, ?_⟩
  · omega
  · simp only [rp1ethNumRxDescs]
    omega
  · simp only [rp1ethNumRxDescs]
    omega
  · simp only [rp1ethNumRxDescs]
    omega
  · simp only [rp1ethNumRxDescs]
    rw [hhd, hqt]
    omega
  · have hs := h.slots i hi
    simp only [RxQueuedSlot, rp1ethNumRxDescs] at hs hi ⊢
    rw [hM, hqt]
    by_cases hit : i = s.rxringTlPtr
    · subst hit
      simp only [Function.update_self, Option.isSome_none, Bool.false_eq_true, false_iff]
      omega
    · rw [Function.update_of_ne hit, hs]
      omega
  · rw [hring]
    exact h.wrap i hi
  · rw [hposted, hM]
    refine h.kept.trans ((List.Perm.append_left _ (held_take h.tl_lt hm)).trans ?_)
    exact List.perm_middle.trans (hgone.symm.append_right _)

theorem not_wrap_aligned (seg : ClusterAddr) : ¬HasFlag seg.addr rxdescWrapBit := by
  rw [hasFlag_iff]
  have hbit := congrArg (fun z => z.getLsbD 1) seg.aligned
  simpa [rxdescWrapBit] using hbit

/-- What posting a buffer changes. -/
theorem fillBody_mapped (s : RxState) (m : Mbuf) (seg : ClusterAddr) :
    let t := (fillBody s (.mapped m seg)).2
    t.rxringM = Function.update s.rxringM s.rxringHdPtr (some m) ∧
      RxNext s.rxringHdPtr t.rxringHdPtr ∧ t.rxringTlPtr = s.rxringTlPtr ∧ t.rxringQueued = s.rxringQueued + 1 ∧
      (∀ i, i ≠ s.rxringHdPtr → t.rxring i = s.rxring i) ∧
      (HasFlag (t.rxring s.rxringHdPtr).addr rxdescWrapBit ↔ s.rxringHdPtr = rp1ethNumRxDescs - 1) ∧
      t.posted = s.posted ++ [m] ∧ t.gone = s.gone := by
  unfold fillBody
  dsimp only
  by_cases hhd : s.rxringHdPtr = rp1ethNumRxDescs - 1
  · rw [if_pos hhd]
    refine ⟨rfl, .inl ⟨?_, rfl⟩, rfl, rfl, fun i hi => Function.update_of_ne hi _ _, ?_, rfl, rfl⟩
    · rw [hhd]
      rfl
    · simp only [Function.update_self, hasFlag_or]
      exact iff_of_true (.inr (by decide)) hhd
  · rw [if_neg hhd]
    refine ⟨rfl, .inr ⟨?_, rfl⟩, rfl, rfl, fun i hi => Function.update_of_ne hi _ _, ?_, rfl, rfl⟩
    · exact fun hl => hhd (Nat.eq_sub_of_add_eq hl)
    · simp only [Function.update_self]
      exact iff_of_false (not_wrap_aligned seg) hhd

theorem rxOk_post (h : RxOk s) (hq : s.rxringQueued < rp1ethNumRxDescs) (m : Mbuf) (seg : ClusterAddr) :
    RxOk (fillBody s (.mapped m seg)).2 := by
  obtain ⟨hM, hhd, htl, hqt, hring, hwrap, hposted, hgone⟩ := fillBody_mapped s m seg
  generalize (fillBody s (.mapped m seg)).2 = t at *
  have hlt := h.tl_lt
  have hnn := h.queued_nonneg
  have hhdlt := h.hd_lt
  have hhdeq := h.hd_eq
  have hempty : s.rxringM s.rxringHdPtr = none := by
    have hs := h.slots _ hhdlt
    rw [← Option.not_isSome_iff_eq_none, hs]
    simp only [RxQueuedSlot, rp1ethNumRxDescs] at *
    omega
  simp only [RxNext, rp1ethNumRxDescs] at hhd hlt hhdlt hhdeq hq
  refine ⟨?_, ?_, ?_, ?_, ?_, fun i hi => ?_, fun i hi => ?_, ?_⟩
  · omega
  · simp only [rp1ethNumRxDescs]
    omega
  · simp only [rp1ethNumRxDescs]
    omega
  · simp only [rp1ethNumRxDescs]
    omega
  · simp only [rp1ethNumRxDescs]
    rw [htl, hqt]
    omega
  · have hs := h.slots i hi
    simp only [RxQueuedSlot, rp1ethNumRxDescs] at hs hi ⊢
    rw [htl, hM, hqt]
    by_cases hit : i = s.rxringHdPtr
    · subst hit
      simp only [Function.update_self, Option.isSome_some, true_iff]
      omega
    · rw [Function.update_of_ne hit, hs]
      omega
  · by_cases hit : i = s.rxringHdPtr
    · subst hit
      exact hwrap
    · rw [hring i hit]
      exact h.wrap i hi
  · rw [hposted, hgone, hM]
    apply (h.kept.append_right [m]).trans
    rw [List.append_assoc]
    refine List.Perm.append_left _ ((List.perm_append_singleton m _).trans ?_)
    exact (held_put h.hd_lt hempty).symm

theorem rxOk_step {a : RxAct} (h : RxOk s) (hf : FillOk s a) (ht : rxStep s a = some t) : RxOk t := by
  cases a with
  | fill o =>
    simp only [rxStep, Option.ite_none_right_eq_some, Option.some_inj] at ht
    obtain ⟨-, rfl⟩ := ht
    cases o with
    | noMbuf => exact h
    | noMap => exact { h with }
    | noLoad => exact { h with }
    | mapped m seg => exact rxOk_post h hf m seg
  | recv =>
    simp only [rxStep, Option.ite_none_right_eq_some] at ht
    exact rxOk_recv h ht.1.1 ht.2
  | stop =>
    cases ht
    exact rxOk_stop h
  | hw ctl => exact rxOk_hw h ht
  | sysctl v =>
    cases ht
    exact { h with }

/-- A step into a state with at most 256 buffers queued posted none on a full ring. -/
theorem fillOk_of_rxOk {a : RxAct} (h' : RxOk t) (ht : rxStep s a = some t) : FillOk s a := by
  cases a with
  | fill o =>
    cases o with
    | mapped m seg =>
      simp only [rxStep, Option.ite_none_right_eq_some, Option.some_inj] at ht
      obtain ⟨-, rfl⟩ := ht
      have hq := (fillBody_mapped s m seg).2.2.2.1
      have := h'.queued_le
      simp only [FillOk]
      omega
    | _ => trivial
  | _ => trivial

end Invariant

/-- Under the invariant no round of `cgem_recv` meets an empty slot. -/
theorem recv_slot_some {s : RxState} (h : RxOk s) (hr : RxReady s) : (recvBody s).isSome := by
  have hslot : (s.rxringM s.rxringTlPtr).isSome := by
    rw [h.slots _ h.tl_lt]
    have := hr.1
    simp only [RxQueuedSlot, rp1ethNumRxDescs]
    omega
  obtain ⟨m, hm⟩ := Option.isSome_iff_exists.1 hslot
  simp [recvBody, hm]

/-- **The receive ring invariant** holds all along a run, whatever the allocations, the hardware, the stops and the
sysctl do, exactly when no iteration of `cgem_fill_rqueue` posts a buffer while all 256 descriptors are queued. -/
theorem rx_ring_iff (rxbufs : Int) (rxcsum : Bool) (acts : List RxAct) :
    Transition.AllStates rxStep RxOk (cgemSetupRx rxbufs rxcsum) acts ↔
      Transition.AllSteps rxStep FillOk (cgemSetupRx rxbufs rxcsum) acts := by
  refine Transition.allStates_iff (I := RxOk) ?_ (fun _ h => h) ?_ (rxOk_setup rxbufs rxcsum)
  · intro s a t h hf ht
    exact rxOk_step h hf ht
  · intro s a t _ ht h'
    exact fillOk_of_rxOk h' ht

/-- With `rxbufs` at most 256 throughout, no iteration posts on a full ring. -/
theorem fillOk_of_rxbufs_le {s : RxState} {a : RxAct} (hs : s.rxbufs ≤ rp1ethNumRxDescs)
    {t : RxState} (ht : rxStep s a = some t) : FillOk s a := by
  cases a with
  | fill o =>
    cases o with
    | mapped m seg =>
      simp only [rxStep, Option.ite_none_right_eq_some] at ht
      simp only [FillOk]
      omega
    | _ => trivial
  | _ => trivial

/-- While `rxbufs` asks for more, the fill loop goes on posting. -/
theorem fills_run : ∀ (bufs : List (Mbuf × ClusterAddr)) (s : RxState), s.rxringQueued + bufs.length ≤ s.rxbufs →
    ∃ t, Transition.run rxStep s (bufs.map fun b => .fill (.mapped b.1 b.2)) = some t ∧
      t.rxringQueued = s.rxringQueued + bufs.length
  | [], s, _ => ⟨s, rfl, by simp⟩
  | (m, seg) :: bufs, s, h => by
    rw [List.length_cons] at h ⊢
    have hq := (fillBody_mapped s m seg).2.2.2.1
    have hb : (fillBody s (.mapped m seg)).2.rxbufs = s.rxbufs := by
      unfold fillBody
      dsimp only
      split <;> rfl
    obtain ⟨t, ht, hqt⟩ := fills_run bufs (fillBody s (.mapped m seg)).2 (by omega)
    refine ⟨t, Transition.run_cons_some.2 ⟨_, if_pos (by omega), ht⟩, by omega⟩

/-- The `k`-th 2 KB cluster of memory. -/
def cluster (k : Nat) : ClusterAddr where
  addr := BitVec.ofNat 32 k <<< 11
  aligned := by
    apply BitVec.eq_of_getLsbD_eq
    intro i hi
    have h3 : ∀ j < 32, (3#32).getLsbD j = decide (j < 2) := by decide
    rw [BitVec.getLsbD_and, BitVec.getLsbD_shiftLeft, h3 i hi]
    simp
    omega

/-- The ring is set up with 128 buffers to queue, the sysctl is set to 257, and the allocations succeed: the 257th
buffer takes the place of the first. -/
theorem rx_ring_overfull :
    ¬Transition.AllStates rxStep RxOk (cgemSetupRx rp1ethDefaultRxbufs false)
      (.sysctl 257 :: ((List.range 257).map fun k => (k, cluster k)).map fun b => .fill (.mapped b.1 b.2)) := by
  intro h
  have hfill := h.2 _ rfl
  obtain ⟨t, ht, hq⟩ := fills_run ((List.range 257).map fun k => (k, cluster k))
    { cgemSetupRx rp1ethDefaultRxbufs false with rxbufs := 257 } (by simp [cgemSetupRx])
  have hle := (hfill.last ht).queued_le
  rw [hq, List.length_map, List.length_range] at hle
  exact absurd hle (by decide)

end Eth
