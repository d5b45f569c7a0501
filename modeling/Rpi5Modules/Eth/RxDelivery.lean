import Mathlib.Data.List.Nodup
import Rpi5Modules.Eth.RxRing
import Rpi5Modules.Lib.TailQueue

/-!
# What becomes of the buffers the GEM fills

`cgem_recv` takes the buffers the hardware is done with off the ring, frees the bad ones and chains the good ones;
then it refills the ring, drops the lock and hands the chain to `if_input`. The descriptors of buffers that were taken
keep their OWN bit until they are refilled.

The ring is the one of `RxRing` (`rxSysStep_ring`); here every completion of the hardware is recorded with its control
word, and the mbufs are numbered in the order they are posted in.

- the buffers the hardware has completed and the software has not taken are the first ones of the queue, and only these
  and the empty slots have OWN set (`RxQueue`);
- so a round of `cgem_recv` takes the oldest completion that is left (`RxQueue.takes`);
- hence `if_input` and `m_free` get the completions in order, each in one of the two ways, and none that the hardware
  still owns (`rx_delivery`).
-/

namespace Eth

open Flags TailQueue

/-! ## State -/

/-- Where the data of an mbuf starts in its cluster, its length, and its checksum flags. -/
structure RxMbuf where
  mData : Nat
  mLen : Nat
  csum : RxCsum

/-- Where `cgem_recv` is: not called, in its first loop, in the refill, or without the lock in its second loop. -/
inductive RecvPc where
  | idle
  | draining
  | filling
  | delivering
deriving DecidableEq

/-- The receive side with the locals of `cgem_recv`: `m_hd`, the `m_next` fields and `m_tl`. The calls of `if_input`
are recorded, and the completions of the hardware. -/
structure RxSys where
  ring : RxState
  pc : RecvPc
  links : Links Mbuf
  mbuf : Mbuf → RxMbuf
  ifInput : List (Mbuf × RxMbuf)
  ierrors : Nat
  ipackets : Nat
  completed : List (Mbuf × BitVec 32)

/-- The system when the ring is set up. -/
def RxSys.start (rxbufs : Int) (rxcsum : Bool) : RxSys where
  ring := cgemSetupRx rxbufs rxcsum
  pc := .idle
  links := ⟨fun _ => none, none, .head⟩
  mbuf _ := ⟨0, 0, .none⟩
  ifInput := []
  ierrors := 0
  ipackets := 0
  completed := []

/-! ## Steps -/

/-- How the allocations of an iteration of `cgem_fill_rqueue` go. -/
inductive FillAlloc where
  | noMbuf
  | noMap
  | noLoad
  | mapped (seg : ClusterAddr)

/-- The same for `fillBody`, with the mbuf `m`. -/
def FillAlloc.outcome (m : Mbuf) : FillAlloc → FillOutcome
  | noMbuf => .noMbuf
  | noMap => .noMap
  | noLoad => .noLoad
  | mapped seg => .mapped m seg

namespace RxSys

/-- A round of the first loop of `cgem_recv`. -/
def recv (s : RxSys) : Option RxSys :=
  let ctl := (s.ring.rxring s.ring.rxringTlPtr).ctl
  match s.ring.rxringM s.ring.rxringTlPtr, recvBody s.ring with
  | some m, some ring =>
    if rxBad ctl then some { s with ring := ring, ierrors := s.ierrors + 1 }
    else
      some
        { s with
          ring := ring
          mbuf := Function.update s.mbuf m
            ⟨(s.mbuf m).mData + etherAlign.toNat, (ctl &&& cgemRxdescLengthMask).toNat, rxCsum s.ring.rxcsum ctl⟩
          links := s.links.push m }
  | _, _ => none

/-- An iteration of `cgem_fill_rqueue`; the mbuf it posts gets the next number. -/
def fill (s : RxSys) (o : FillAlloc) : RxSys :=
  let m := s.ring.posted.length
  { s with
    ring := (fillBody s.ring (o.outcome m)).2
    mbuf := match o with
      | .mapped _ => Function.update s.mbuf m ⟨0, mclbytes, .none⟩
      | _ => s.mbuf }

/-- A round of the second loop of `cgem_recv`, or its end. -/
def input (s : RxSys) : RxSys :=
  match s.links.head with
  | none => { s with pc := .idle }
  | some m =>
    { s with
      links := { s.links with head := s.links.next m, next := Function.update s.links.next m none }
      ipackets := s.ipackets + 1
      ifInput := s.ifInput ++ [(m, s.mbuf m)] }

/-- The hardware completes the descriptor it is at. -/
def hw (s : RxSys) (ctl : BitVec 32) : Option RxSys :=
  match s.ring.rxringM s.ring.hwPtr, hwFill s.ring ctl with
  | some m, some ring => some { s with ring := ring, completed := s.completed ++ [(m, ctl)] }
  | none, some ring => some { s with ring := ring }
  | _, none => none

end RxSys

/-- What can happen: `cgem_recv` is called, goes through a round of its first loop, leaves this loop, drops the lock,
goes through a round of its second loop; an iteration of a `cgem_fill_rqueue`; a completion; and a write of the
sysctl. -/
inductive RecvAct where
  | call
  | recv
  | drained
  | unlock
  | input
  | fill (o : FillAlloc)
  | hw (ctl : BitVec 32)
  | sysctl (rxbufs : Int)

def rxSysStep (s : RxSys) : RecvAct → Option RxSys
  | .call => if s.pc = .idle then some { s with pc := .draining, links := s.links.clear } else none
  | .recv => if s.pc = .draining ∧ RxReady s.ring then s.recv else none
  | .drained => if s.pc = .draining ∧ ¬RxReady s.ring then some { s with pc := .filling } else none
  | .unlock => if s.pc = .filling then some { s with pc := .delivering } else none
  | .input => if s.pc = .delivering then some s.input else none
  | .fill o => if s.pc ≠ .draining ∧ s.ring.rxringQueued < s.ring.rxbufs then some (s.fill o) else none
  | .hw ctl => s.hw ctl
  | .sysctl v => some { s with ring := { s.ring with rxbufs := v } }

/-- A completion has a length that fits the buffer behind its first two bytes, and the sysctl is at most 256. -/
def RecvAct.Ok : RecvAct → Prop
  | .hw ctl => (ctl &&& cgemRxdescLengthMask).toNat ≤ 2046
  | .sysctl v => v ≤ rp1ethNumRxDescs
  | _ => True

/-! ## The queue -/

/-- The packet a completion makes. -/
def rxPacketOf (rxcsum : Bool) (c : Mbuf × BitVec 32) : RxPacket :=
  ⟨c.1, (c.2 &&& cgemRxdescLengthMask).toNat, rxCsum rxcsum c.2⟩

/-- The slot `j` places behind the tail. -/
def rxSlot (r : RxState) (j : Nat) : Nat := (r.rxringTlPtr + j) % rp1ethNumRxDescs

/-- The queue holds the mbufs in the order they were posted in. The hardware has completed the first ones, `pending`;
their control words are in the ring, and of the queued slots only theirs have OWN set. The software has taken those of
`consumed`. -/
structure RxQueue (r : RxState) (consumed pending : List (Mbuf × BitVec 32)) : Prop where
  le : (pending.length : Int) ≤ r.rxringQueued
  slot : ∀ j : Nat, (j : Int) < r.rxringQueued → r.rxringM (rxSlot r j) = some (consumed.length + j)
  ids : (consumed ++ pending).map Prod.fst = List.range (consumed ++ pending).length
  posted : (r.posted.length : Int) = consumed.length + r.rxringQueued
  ctl : ∀ j c, pending[j]? = some c → (r.rxring (rxSlot r j)).ctl = c.2
  own : ∀ j < rp1ethNumRxDescs,
    HasFlag (r.rxring (rxSlot r j)).addr rxdescOwnBit ↔ j < pending.length ∨ r.rxringQueued ≤ j
  hw : r.hwPtr = rxSlot r pending.length

section Queue

variable {r t : RxState} {consumed pending : List (Mbuf × BitVec 32)}

theorem rxSlot_lt (r : RxState) (j : Nat) : rxSlot r j < rp1ethNumRxDescs := Nat.mod_lt _ (by decide)

theorem rxSlot_inj (h : RxOk r) {i j : Nat} (hi : i < rp1ethNumRxDescs) (hj : j < rp1ethNumRxDescs)
    (hij : rxSlot r i = rxSlot r j) : i = j := by
  have htl := h.tl_lt
  simp only [rxSlot, rp1ethNumRxDescs] at *
  omega

theorem rxSlot_zero (h : RxOk r) : rxSlot r 0 = r.rxringTlPtr := Nat.mod_eq_of_lt h.tl_lt

/-- The descriptors after set-up all have OWN set. -/
theorem rxQueue_setup (rxbufs : Int) (rxcsum : Bool) : RxQueue (cgemSetupRx rxbufs rxcsum) [] [] where
  le := Int.le_refl 0
  slot j hj := absurd hj (Int.not_lt.2 (Int.natCast_nonneg j))
  ids := rfl
  posted := rfl
  ctl j c hc := by simp at hc
  own j _ := by
    refine iff_of_true ?_ (.inr (Int.natCast_nonneg j))
    simp only [cgemSetupRx]
    split <;> decide
  hw := rfl

/-- What a completion changes: the descriptor and the pointer of the hardware. -/
theorem hwFill_spec {ctl : BitVec 32} (ht : hwFill r ctl = some t) :
    ¬HasFlag (r.rxring r.hwPtr).addr rxdescOwnBit ∧
      t.rxring = Function.update r.rxring r.hwPtr ⟨(r.rxring r.hwPtr).addr ||| cgemRxdescOwn, ctl⟩ ∧
      t.hwPtr = (if HasFlag (r.rxring r.hwPtr).addr rxdescWrapBit then 0 else r.hwPtr + 1) ∧
      t.rxringM = r.rxringM ∧ t.rxringTlPtr = r.rxringTlPtr ∧ t.rxringQueued = r.rxringQueued ∧
      t.posted = r.posted ∧ t.delivered = r.delivered ∧ t.freed = r.freed ∧ t.rxbufs = r.rxbufs ∧
      t.rxcsum = r.rxcsum := by
  unfold hwFill at ht
  dsimp only at ht
  split at ht
  · cases ht
  · rename_i hown
    cases ht
    exact ⟨hown, rfl, rfl, rfl, rfl, rfl, rfl, rfl, rfl, rfl, rfl⟩

/-- The slot the hardware may fill is a queued one: everywhere else OWN is set. -/
theorem RxQueue.hw_lt (h : RxOk r) (hq : RxQueue r consumed pending)
    (hown : ¬HasFlag (r.rxring r.hwPtr).addr rxdescOwnBit) : (pending.length : Int) < r.rxringQueued := by
  have hle := h.queued_le
  have hpq := hq.le
  rw [hq.hw] at hown
  rcases Nat.lt_or_ge pending.length rp1ethNumRxDescs with hp | hp
  · rw [hq.own _ hp] at hown
    omega
  · -- all 256 are completed, and the hardware is at the tail
    have hfull : pending.length = rp1ethNumRxDescs := by omega
    have hzero : rxSlot r pending.length = rxSlot r 0 := by
      simp only [rxSlot, hfull, rp1ethNumRxDescs]
      omega
    rw [hzero, hq.own 0 (by decide)] at hown
    exact absurd (.inl (by rw [hfull]; decide)) hown

/-- The hardware completes the oldest buffer that it has not completed. -/
theorem RxQueue.completes (h : RxOk r) (hq : RxQueue r consumed pending) {ctl : BitVec 32}
    (ht : hwFill r ctl = some t) :
    r.rxringM r.hwPtr = some (consumed.length + pending.length) ∧
      RxQueue t consumed (pending ++ [(consumed.length + pending.length, ctl)]) := by
  obtain ⟨hown, hring, hhw, hM, htl, hqt, hposted, -⟩ := hwFill_spec ht
  have hlt := hq.hw_lt h hown
  have hle := h.queued_le
  have htllt := h.tl_lt
  have hp : pending.length < rp1ethNumRxDescs := by omega
  have hwrap := h.wrap _ (rxSlot_lt r pending.length)
  have hslot : ∀ j, rxSlot t j = rxSlot r j := fun j => by rw [rxSlot, htl, rxSlot]
  have hne : ∀ j < rp1ethNumRxDescs, j ≠ pending.length → rxSlot r j ≠ rxSlot r pending.length :=
    fun j hj hjp he => hjp (rxSlot_inj h hj hp he)
  rw [hq.hw] at hring hhw ⊢
  have hlen : (pending ++ [(consumed.length + pending.length, ctl)]).length = pending.length + 1 := by
    rw [List.length_append, List.length_singleton]
  refine ⟨hq.slot _ hlt, ?_, fun j hj => ?_, ?_, ?_, fun j c hc => ?_, fun j hj => ?_, ?_⟩
  · rw [hlen, hqt]
    omega
  · rw [hslot, hM]
    exact hq.slot j (hqt ▸ hj)
  · rw [List.length_append, hlen, ← Nat.add_assoc, List.range_succ, ← List.append_assoc, List.map_append, hq.ids,
      List.length_append]
    rfl
  · rw [hposted, hqt]
    exact hq.posted
  · rw [hslot, hring]
    have hj : j < pending.length + 1 := hlen ▸ (List.getElem?_eq_some_iff.1 hc).1
    by_cases hjp : j = pending.length
    · subst hjp
      rw [List.getElem?_concat_length] at hc
      cases hc
      rw [Function.update_self]
    · have hjlt : j < pending.length := by omega
      rw [List.getElem?_append_left hjlt] at hc
      rw [Function.update_of_ne (hne j (Nat.lt_trans hjlt hp) hjp)]
      exact hq.ctl j c hc
  · rw [hslot, hring, hlen, hqt]
    by_cases hjp : j = pending.length
    · subst hjp
      rw [Function.update_self, hasFlag_or]
      exact iff_of_true (.inr (by decide)) (.inl (Nat.lt_succ_self _))
    · rw [Function.update_of_ne (hne j hj hjp), hq.own j hj]
      omega
  · rw [hslot, hhw, hlen]
    by_cases hlast : rxSlot r pending.length = rp1ethNumRxDescs - 1
    · rw [if_pos (hwrap.2 hlast)]
      simp only [rxSlot, rp1ethNumRxDescs] at *
      omega
    · rw [if_neg fun hf => hlast (hwrap.1 hf)]
      simp only [rxSlot, rp1ethNumRxDescs] at *
      omega

/-- Where the mbuf of a round of `cgem_recv` goes, and what the round does not change. -/
theorem recvBody_outcome {m : Mbuf} (hm : r.rxringM r.rxringTlPtr = some m) (ht : recvBody r = some t) :
    (if rxBad (r.rxring r.rxringTlPtr).ctl then t.freed = r.freed ++ [m] ∧ t.delivered = r.delivered
      else t.freed = r.freed ∧
        t.delivered = r.delivered ++ [rxPacketOf r.rxcsum (m, (r.rxring r.rxringTlPtr).ctl)]) ∧
      t.hwPtr = r.hwPtr ∧ t.rxbufs = r.rxbufs ∧ t.rxcsum = r.rxcsum := by
  unfold recvBody at ht
  dsimp only at ht
  rw [hm] at ht
  dsimp only at ht
  rw [Option.some_inj] at ht
  rw [← ht]
  split <;> exact ⟨⟨rfl, rfl⟩, rfl, rfl, rfl⟩

/-- OWN at the tail means that the first of the queue is completed. -/
theorem RxQueue.pending_pos (h : RxOk r) (hq : RxQueue r consumed pending) (hr : RxReady r) : 0 < pending.length := by
  have hown := hr.2
  rw [← rxSlot_zero h, hq.own 0 (by decide)] at hown
  have hqueued := hr.1
  omega

/-- The first completion has the number behind the consumed ones. -/
theorem RxQueue.head_id {m : Mbuf} {ctl : BitVec 32} {rest : List (Mbuf × BitVec 32)}
    (hq : RxQueue r consumed ((m, ctl) :: rest)) : m = consumed.length := by
  have hid : ((consumed ++ (m, ctl) :: rest).map Prod.fst)[consumed.length]? = some m := by
    rw [List.getElem?_map, List.getElem?_append_right (Nat.le_refl _), Nat.sub_self]
    rfl
  rw [hq.ids, List.getElem?_range (by rw [List.length_append, List.length_cons]; omega)] at hid
  exact (Option.some.inj hid).symm

/-- A round of `cgem_recv` takes the oldest completion. -/
theorem RxQueue.takes (h : RxOk r) (hq : RxQueue r consumed pending) (hr : RxReady r) (ht : recvBody r = some t) :
    ∃ ctl rest, pending = (consumed.length, ctl) :: rest ∧ r.rxringM r.rxringTlPtr = some consumed.length ∧
      (r.rxring r.rxringTlPtr).ctl = ctl ∧ RxQueue t (consumed ++ [(consumed.length, ctl)]) rest := by
  obtain ⟨m, hm, hM, htl, hqt, -, hring, hposted, -⟩ := recvBody_spec ht
  have hhw := (recvBody_outcome hm ht).2.1
  have htllt := h.tl_lt
  have hle := h.queued_le
  have hzero := rxSlot_zero h
  obtain ⟨⟨m', ctl⟩, rest, rfl⟩ := List.exists_cons_of_length_pos (hq.pending_pos h hr)
  obtain rfl := hq.head_id
  have hnext : t.rxringTlPtr = rxSlot r 1 := by
    simp only [RxNext, rp1ethNumRxDescs, rxSlot] at *
    omega
  have hslot : ∀ j, rxSlot t j = rxSlot r (j + 1) := fun j => by
    simp only [rxSlot, hnext, rp1ethNumRxDescs]
    omega
  have hctl := hq.ctl 0 _ rfl
  rw [hzero] at hctl
  have hlen : (consumed ++ [(consumed.length, ctl)]).length = consumed.length + 1 := by
    rw [List.length_append, List.length_singleton]
  refine ⟨ctl, rest, rfl, ?_, hctl, ?_, fun j hj => ?_, ?_, ?_, fun j c hc => ?_, fun j hj => ?_, ?_⟩
  · rw [← hzero]
    exact hq.slot 0 hr.1
  · have := hq.le
    rw [List.length_cons] at this
    omega
  · have hj256 : j + 1 < rp1ethNumRxDescs := by omega
    have hne : rxSlot r (j + 1) ≠ r.rxringTlPtr := fun he =>
      absurd (rxSlot_inj h hj256 (by decide) (he.trans hzero.symm)) (Nat.succ_ne_zero j)
    rw [hslot, hM, Function.update_of_ne hne, hq.slot (j + 1) (by omega), hlen]
    exact congrArg some (by omega)
  · rw [List.append_assoc, List.singleton_append]
    exact hq.ids
  · rw [hposted, hqt, hlen]
    have := hq.posted
    omega
  · rw [hslot, hring]
    exact hq.ctl (j + 1) c hc
  · rw [hslot, hring, hqt]
    by_cases hlast : j + 1 = rp1ethNumRxDescs
    · -- the slot that was emptied comes last, and its OWN bit stays
      have hback : rxSlot r (j + 1) = r.rxringTlPtr := by
        rw [hlast, rxSlot, Nat.add_mod_right, Nat.mod_eq_of_lt htllt]
      rw [hback]
      exact iff_of_true hr.2 (.inr (by omega))
    · rw [hq.own (j + 1) (by omega), List.length_cons]
      omega
  · rw [hhw, hq.hw, hslot, List.length_cons]

theorem not_own_aligned (seg : ClusterAddr) : ¬HasFlag seg.addr rxdescOwnBit := by
  rw [hasFlag_iff]
  have hbit := congrArg (fun z => z.getLsbD 0) seg.aligned
  simpa [rxdescOwnBit] using hbit

/-- A buffer is posted without OWN, behind those that are queued. -/
theorem RxQueue.posts (h : RxOk r) (hq : RxQueue r consumed pending) (hlt : r.rxringQueued < rp1ethNumRxDescs)
    (seg : ClusterAddr) : RxQueue (fillBody r (.mapped r.posted.length seg)).2 consumed pending := by
  obtain ⟨hM, -, htl, hqt, hring, -, hposted, -⟩ := fillBody_mapped r r.posted.length seg
  have hown : ¬HasFlag ((fillBody r (.mapped r.posted.length seg)).2.rxring r.rxringHdPtr).addr rxdescOwnBit := by
    have hseg := not_own_aligned seg
    have hwrap : ¬HasFlag cgemRxdescWrap rxdescOwnBit := by decide
    unfold fillBody
    dsimp only
    split <;> simp only [Function.update_self, hasFlag_or, hseg, hwrap, or_self, not_false_eq_true]
  have hhw : (fillBody r (.mapped r.posted.length seg)).2.hwPtr = r.hwPtr := by
    unfold fillBody
    dsimp only
    split <;> rfl
  generalize (fillBody r (.mapped r.posted.length seg)).2 = t at *
  obtain ⟨n, hn⟩ := Int.eq_ofNat_of_zero_le h.queued_nonneg
  have hn' : n < rp1ethNumRxDescs := by omega
  have hslot : ∀ j, rxSlot t j = rxSlot r j := fun j => by rw [rxSlot, htl, rxSlot]
  have hhd : r.rxringHdPtr = rxSlot r n := by
    have hhdeq := h.hd_eq
    simp only [rxSlot, rp1ethNumRxDescs] at *
    omega
  have hne : ∀ j < rp1ethNumRxDescs, j ≠ n → rxSlot r j ≠ r.rxringHdPtr := fun j hj hjn he =>
    hjn (rxSlot_inj h hj hn' (he.trans hhd))
  have hle := hq.le
  have hpost := hq.posted
  refine ⟨?_, fun j hj => ?_, hq.ids, ?_, fun j c hc => ?_, fun j hj => ?_, ?_⟩
  · omega
  · rw [hslot, hM]
    by_cases hjn : j = n
    · subst hjn
      have hnum : r.posted.length = consumed.length + j := by omega
      rw [← hhd, Function.update_self, hnum]
    · rw [Function.update_of_ne (hne j (by omega) hjn)]
      exact hq.slot j (by omega)
  · rw [hposted, hqt, List.length_append, List.length_singleton]
    omega
  · have hj : j < pending.length := (List.getElem?_eq_some_iff.1 hc).1
    rw [hslot, hring _ (hne j (by omega) (by omega))]
    exact hq.ctl j c hc
  · rw [hslot, hqt]
    by_cases hjn : j = n
    · subst hjn
      rw [← hhd]
      exact iff_of_false hown (by omega)
    · rw [hring _ (hne j hj hjn), hq.own j hj]
      omega
  · rw [hhw, hslot]
    exact hq.hw

end Queue

/-! ## The system -/

/-- A step of the system is one of the ring, or leaves the ring alone. -/
theorem rxSysStep_ring {s t : RxSys} {a : RecvAct} (h : rxSysStep s a = some t) :
    t.ring = s.ring ∨ ∃ b, rxStep s.ring b = some t.ring := by
  cases a with
  | call | drained | unlock =>
    simp only [rxSysStep, Option.ite_none_right_eq_some, Option.some_inj] at h
    exact .inl (by rw [← h.2])
  | input =>
    simp only [rxSysStep, Option.ite_none_right_eq_some, Option.some_inj] at h
    apply Or.inl
    rw [← h.2, RxSys.input]
    split <;> rfl
  | recv =>
    simp only [rxSysStep, Option.ite_none_right_eq_some] at h
    obtain ⟨⟨-, hr⟩, h⟩ := h
    refine .inr ⟨.recv, ?_⟩
    rw [rxStep, if_pos hr]
    unfold RxSys.recv at h
    dsimp only at h
    split at h
    · rename_i ring _ hring
      rw [hring]
      split at h <;> rw [← Option.some.inj h]
    · cases h
  | fill o =>
    simp only [rxSysStep, Option.ite_none_right_eq_some, Option.some_inj] at h
    obtain ⟨⟨-, hlt⟩, rfl⟩ := h
    exact .inr ⟨.fill (o.outcome s.ring.posted.length), if_pos hlt⟩
  | hw ctl =>
    refine .inr ⟨.hw ctl, ?_⟩
    simp only [rxSysStep, RxSys.hw] at h
    show hwFill s.ring ctl = some t.ring
    split at h
    · rename_i ring _ hring
      rw [hring, ← Option.some.inj h]
    · rename_i ring _ hring
      rw [hring, ← Option.some.inj h]
    · cases h
  | sysctl v =>
    cases h
    exact .inr ⟨.sysctl v, rfl⟩

/-- What `if_input` gets for a packet. -/
def RxPacket.input (p : RxPacket) : Mbuf × RxMbuf := (p.m, ⟨etherAlign.toNat, p.mLen, p.csum⟩)

/-- The completions of frames that are whole and sound, and the others. -/
def goodOnes (cs : List (Mbuf × BitVec 32)) : List (Mbuf × BitVec 32) := cs.filter fun c => !rxBad c.2
def badOnes (cs : List (Mbuf × BitVec 32)) : List (Mbuf × BitVec 32) := cs.filter fun c => rxBad c.2

/-- The software has taken the completions `consumed`, of which those of `chain` are on their way to `if_input`. -/
structure RxSys.Ok (s : RxSys) (csumOn : Bool) (consumed pending : List (Mbuf × BitVec 32)) (chain : List Mbuf) :
    Prop where
  ring : RxOk s.ring
  rxbufs : s.ring.rxbufs ≤ rp1ethNumRxDescs
  rxcsum : s.ring.rxcsum = csumOn
  queue : RxQueue s.ring consumed pending
  completed : s.completed = consumed ++ pending
  delivered : s.ring.delivered = (goodOnes consumed).map (rxPacketOf csumOn)
  freed : s.ring.freed = (badOnes consumed).map Prod.fst
  ierrors : s.ierrors = s.ring.freed.length
  ipackets : s.ipackets = s.ifInput.length
  linked : Chain s.links.next s.links.head chain
  tail : s.pc = .draining → s.links.tail = endOf chain
  input : s.ifInput ++ chain.map (fun m => (m, s.mbuf m)) = s.ring.delivered.map RxPacket.input
  idle : s.pc = .idle → chain = []
  fresh : ∀ m, consumed.length ≤ m → m < s.ring.posted.length → s.mbuf m = ⟨0, mclbytes, .none⟩

theorem RxSys.ok_start (rxbufs : Int) (csumOn : Bool) (hr : rxbufs ≤ rp1ethNumRxDescs) :
    (RxSys.start rxbufs csumOn).Ok csumOn [] [] [] where
  ring := rxOk_setup rxbufs csumOn
  rxbufs := hr
  rxcsum := rfl
  queue := rxQueue_setup rxbufs csumOn
  completed := rfl
  delivered := rfl
  freed := rfl
  ierrors := rfl
  ipackets := rfl
  linked := rfl
  tail _ := rfl
  input := rfl
  idle _ := rfl
  fresh _ _ h := absurd h (Nat.not_lt_zero _)

section Steps

variable {s t : RxSys} {csumOn : Bool} {consumed pending : List (Mbuf × BitVec 32)} {chain : List Mbuf}

/-- The completions are numbered in their order. -/
theorem RxSys.Ok.consumed_ids (h : s.Ok csumOn consumed pending chain) :
    consumed.map Prod.fst = List.range consumed.length := by
  have hids := h.queue.ids
  have htake := congrArg (List.take consumed.length) hids
  rw [List.map_append, List.take_left' (List.length_map _), List.take_range, List.length_append,
    Nat.min_eq_left (Nat.le_add_right _ _)] at htake
  exact htake

/-- What is in the chain has been taken. -/
theorem RxSys.Ok.chain_lt (h : s.Ok csumOn consumed pending chain) {m : Mbuf} (hm : m ∈ chain) :
    m < consumed.length := by
  have hmem : (m, s.mbuf m) ∈ s.ring.delivered.map RxPacket.input := by
    rw [← h.input]
    exact List.mem_append_right _ (List.mem_map.2 ⟨m, hm, rfl⟩)
  rw [h.delivered, List.map_map, List.mem_map] at hmem
  obtain ⟨c, hc, hcm⟩ := hmem
  have hid : c.1 = m := congrArg Prod.fst hcm
  have hc' : c.1 ∈ consumed.map Prod.fst := List.mem_map_of_mem (List.mem_of_mem_filter hc)
  rw [h.consumed_ids, List.mem_range] at hc'
  exact hid ▸ hc'

theorem RxSys.Ok.chain_nodup (h : s.Ok csumOn consumed pending chain) : chain.Nodup := by
  have hmap := congrArg (List.map Prod.fst) h.input
  rw [List.map_append, List.map_map, List.map_map, h.delivered, List.map_map] at hmap
  have hsub : ((goodOnes consumed).map Prod.fst).Nodup := by
    have hall : (consumed.map Prod.fst).Nodup := by
      rw [h.consumed_ids]
      exact List.nodup_range
    exact hall.sublist ((List.filter_sublist (l := consumed)).map _)
  have hchain : chain.map (Prod.fst ∘ fun m => (m, s.mbuf m)) = chain := List.map_id' chain
  rw [hchain] at hmap
  have hright : (s.ifInput.map Prod.fst ++ chain).Nodup := by
    rw [hmap]
    exact hsub
  exact (List.nodup_append.1 hright).2.1

/-- A change of one mbuf is none for a list it is not in. -/
theorem map_update {α : Type} (f : Mbuf → α) {a : Mbuf} (v : α) {l : List Mbuf} (ha : a ∉ l) :
    l.map (fun m => (m, Function.update f a v m)) = l.map fun m => (m, f m) := by
  apply List.map_congr_left
  intro m hm
  have hne : m ≠ a := fun he => ha (he ▸ hm)
  rw [Function.update_of_ne hne]

section Taking

variable {ring : RxState} {ctl : BitVec 32} {rest : List (Mbuf × BitVec 32)}

/-- A bad frame is freed and counted. -/
theorem RxSys.Ok.frees (h : s.Ok csumOn consumed ((consumed.length, ctl) :: rest) chain) (hok : RxOk ring)
    (hqueue : RxQueue ring (consumed ++ [(consumed.length, ctl)]) rest) (hbad : rxBad ctl = true)
    (hfreed : ring.freed = s.ring.freed ++ [consumed.length]) (hdelivered : ring.delivered = s.ring.delivered)
    (hposted : ring.posted = s.ring.posted) (hbufs : ring.rxbufs = s.ring.rxbufs)
    (hcsum : ring.rxcsum = s.ring.rxcsum) :
    RxSys.Ok { s with ring := ring, ierrors := s.ierrors + 1 } csumOn (consumed ++ [(consumed.length, ctl)]) rest
      chain where
  ring := hok
  rxbufs := hbufs ▸ h.rxbufs
  rxcsum := hcsum.trans h.rxcsum
  queue := hqueue
  completed := by
    show s.completed = _
    rw [h.completed, List.append_assoc, List.singleton_append]
  delivered := by
    have hgood : goodOnes (consumed ++ [(consumed.length, ctl)]) = goodOnes consumed := by
      simp [goodOnes, List.filter_append, hbad]
    show ring.delivered = _
    rw [hdelivered, h.delivered, hgood]
  freed := by
    have hbadOnes : badOnes (consumed ++ [(consumed.length, ctl)]) = badOnes consumed ++ [(consumed.length, ctl)] := by
      simp [badOnes, List.filter_append, hbad]
    show ring.freed = _
    rw [hfreed, h.freed, hbadOnes, List.map_append, List.map_singleton]
  ierrors := by
    show s.ierrors + 1 = ring.freed.length
    rw [hfreed, h.ierrors, List.length_append, List.length_singleton]
  ipackets := h.ipackets
  linked := h.linked
  tail := h.tail
  input := by
    show _ = ring.delivered.map RxPacket.input
    rw [hdelivered]
    exact h.input
  idle := h.idle
  fresh m hge hlt := by
    rw [List.length_append, List.length_singleton] at hge
    exact h.fresh m (by omega) (hposted ▸ hlt)

/-- A good frame goes to the end of the chain, behind the two bytes and with the length from its control word. -/
theorem RxSys.Ok.chains (h : s.Ok csumOn consumed ((consumed.length, ctl) :: rest) chain) (hpc : s.pc = .draining)
    (hok : RxOk ring) (hqueue : RxQueue ring (consumed ++ [(consumed.length, ctl)]) rest) (hbad : ¬rxBad ctl = true)
    (hfreed : ring.freed = s.ring.freed)
    (hdelivered : ring.delivered = s.ring.delivered ++ [rxPacketOf s.ring.rxcsum (consumed.length, ctl)])
    (hposted : ring.posted = s.ring.posted) (hbufs : ring.rxbufs = s.ring.rxbufs)
    (hcsum : ring.rxcsum = s.ring.rxcsum) (hlt : consumed.length < s.ring.posted.length) :
    RxSys.Ok
      { s with
        ring := ring
        mbuf := Function.update s.mbuf consumed.length
          ⟨(s.mbuf consumed.length).mData + etherAlign.toNat, (ctl &&& cgemRxdescLengthMask).toNat,
            rxCsum s.ring.rxcsum ctl⟩
        links := s.links.push consumed.length }
      csumOn (consumed ++ [(consumed.length, ctl)]) rest (chain ++ [consumed.length]) where
  ring := hok
  rxbufs := hbufs ▸ h.rxbufs
  rxcsum := hcsum.trans h.rxcsum
  queue := hqueue
  completed := by
    show s.completed = _
    rw [h.completed, List.append_assoc, List.singleton_append]
  delivered := by
    have hgood : goodOnes (consumed ++ [(consumed.length, ctl)]) =
        goodOnes consumed ++ [(consumed.length, ctl)] := by
      simp [goodOnes, List.filter_append, hbad]
    show ring.delivered = _
    rw [hdelivered, h.delivered, hgood, List.map_append, List.map_singleton, h.rxcsum]
  freed := by
    have hbadOnes : badOnes (consumed ++ [(consumed.length, ctl)]) = badOnes consumed := by
      simp [badOnes, List.filter_append, hbad]
    show ring.freed = _
    rw [hfreed, h.freed, hbadOnes]
  ierrors := by
    show s.ierrors = ring.freed.length
    rw [hfreed, h.ierrors]
  ipackets := h.ipackets
  linked := (Links.Holds.push ⟨h.linked, h.tail hpc⟩ h.chain_nodup fun hm => Nat.lt_irrefl _ (h.chain_lt hm)).chain
  tail _ := (Links.Holds.push ⟨h.linked, h.tail hpc⟩ h.chain_nodup fun hm => Nat.lt_irrefl _ (h.chain_lt hm)).tail
  input := by
    have hnot : consumed.length ∉ chain := fun hm => Nat.lt_irrefl _ (h.chain_lt hm)
    show s.ifInput ++ (chain ++ [consumed.length]).map (fun m => (m, Function.update s.mbuf consumed.length _ m)) =
      ring.delivered.map RxPacket.input
    rw [List.map_append, map_update s.mbuf _ hnot, ← List.append_assoc, h.input, hdelivered, List.map_append,
      List.map_singleton, List.map_singleton, Function.update_self, h.fresh _ (Nat.le_refl _) hlt]
    rfl
  idle hidle := by
    rw [show s.pc = .idle from hidle] at hpc
    cases hpc
  fresh m hge hlt' := by
    rw [List.length_append, List.length_singleton] at hge
    have hne : m ≠ consumed.length := by omega
    show Function.update s.mbuf consumed.length _ m = _
    rw [Function.update_of_ne hne]
    exact h.fresh m (by omega) (hposted ▸ hlt')

end Taking

/-- A round of the first loop takes the oldest completion. -/
theorem RxSys.Ok.recv (h : s.Ok csumOn consumed pending chain) (hpc : s.pc = .draining) (hr : RxReady s.ring)
    (ht : s.recv = some t) : ∃ consumed' pending' chain', t.Ok csumOn consumed' pending' chain' := by
  obtain ⟨ring, hring⟩ := Option.isSome_iff_exists.1 (recv_slot_some h.ring hr)
  obtain ⟨ctl, rest, rfl, hm, hctl, hqueue⟩ := h.queue.takes h.ring hr hring
  have hok : RxOk ring := rxOk_recv h.ring hr.1 hring
  obtain ⟨_, _, _, _, _, _, _, hposted, _⟩ := recvBody_spec hring
  obtain ⟨hout, -, hbufs, hcsum⟩ := recvBody_outcome hm hring
  have hlt : consumed.length < s.ring.posted.length := by
    have := h.queue.posted
    have := hr.1
    omega
  rw [hctl] at hout
  unfold RxSys.recv at ht
  dsimp only at ht
  rw [hm, hring] at ht
  dsimp only at ht
  rw [hctl] at ht
  by_cases hbad : rxBad ctl = true
  · rw [if_pos hbad] at ht hout
    cases ht
    exact ⟨_, _, _, h.frees hok hqueue hbad hout.1 hout.2 hposted hbufs hcsum⟩
  · rw [if_neg hbad] at ht hout
    cases ht
    exact ⟨_, _, _, h.chains hpc hok hqueue hbad hout.1 hout.2 hposted hbufs hcsum hlt⟩

/-- An iteration of the fill loop leaves what was delivered and freed alone. -/
theorem fillBody_keeps (r : RxState) (o : FillOutcome) :
    (fillBody r o).2.delivered = r.delivered ∧ (fillBody r o).2.freed = r.freed ∧
      (fillBody r o).2.rxbufs = r.rxbufs ∧ (fillBody r o).2.rxcsum = r.rxcsum := by
  cases o with
  | mapped m seg =>
    unfold fillBody
    dsimp only
    split <;> exact ⟨rfl, rfl, rfl, rfl⟩
  | _ => exact ⟨rfl, rfl, rfl, rfl⟩

/-- An iteration that posts nothing changes a counter at most. -/
theorem RxQueue.counts {r : RxState} (hq : RxQueue r consumed pending) (n : Nat) :
    RxQueue { r with rxdmamapfails := n } consumed pending :=
  { hq with }

theorem RxSys.Ok.fill (h : s.Ok csumOn consumed pending chain) (hlt : s.ring.rxringQueued < s.ring.rxbufs)
    (o : FillAlloc) : (s.fill o).Ok csumOn consumed pending chain := by
  have hq : s.ring.rxringQueued < rp1ethNumRxDescs := Int.lt_of_lt_of_le hlt h.rxbufs
  have hkeep := fillBody_keeps s.ring (o.outcome s.ring.posted.length)
  have hle : consumed.length ≤ s.ring.posted.length := by
    have := h.queue.posted
    have := h.ring.queued_nonneg
    omega
  have hnot : s.ring.posted.length ∉ chain := fun hm => absurd (h.chain_lt hm) (Nat.not_lt.2 hle)
  have hring : RxOk (s.fill o).ring := by
    have hstep : rxStep s.ring (.fill (o.outcome s.ring.posted.length)) = some (s.fill o).ring := if_pos hlt
    exact rxOk_step h.ring (fillOk_of_rxbufs_le h.rxbufs hstep) hstep
  have hqueue : RxQueue (s.fill o).ring consumed pending := by
    cases o with
    | noMbuf => exact h.queue
    | noMap => exact h.queue.counts _
    | noLoad => exact h.queue.counts _
    | mapped seg => exact h.queue.posts h.ring hq seg
  have hmbuf : chain.map (fun m => (m, (s.fill o).mbuf m)) = chain.map fun m => (m, s.mbuf m) := by
    cases o with
    | mapped seg => exact map_update s.mbuf _ hnot
    | _ => rfl
  have hfresh : ∀ m, consumed.length ≤ m → m < (s.fill o).ring.posted.length →
      (s.fill o).mbuf m = ⟨0, mclbytes, .none⟩ := by
    intro m hge hm
    cases o with
    | mapped seg =>
      have hposted : (s.fill (.mapped seg)).ring.posted = s.ring.posted ++ [s.ring.posted.length] :=
        (fillBody_mapped s.ring s.ring.posted.length seg).2.2.2.2.2.2.1
      rw [hposted, List.length_append, List.length_singleton] at hm
      show Function.update s.mbuf s.ring.posted.length _ m = _
      by_cases hmp : m = s.ring.posted.length
      · rw [hmp, Function.update_self]
      · rw [Function.update_of_ne hmp]
        exact h.fresh m hge (by omega)
    | _ => exact h.fresh m hge hm
  exact
    { h with
      ring := hring
      rxbufs := hkeep.2.2.1 ▸ h.rxbufs
      rxcsum := hkeep.2.2.2.trans h.rxcsum
      queue := hqueue
      delivered := hkeep.1.trans h.delivered
      freed := hkeep.2.1.trans h.freed
      ierrors := h.ierrors.trans (congrArg List.length hkeep.2.1).symm
      input := by
        rw [hmbuf]
        exact h.input.trans (congrArg (List.map RxPacket.input) hkeep.1).symm
      fresh := hfresh }

/-- A completion is recorded behind the others. -/
theorem RxSys.Ok.hw (h : s.Ok csumOn consumed pending chain) {ctl : BitVec 32} (ht : s.hw ctl = some t) :
    ∃ pending', t.Ok csumOn consumed pending' chain := by
  unfold RxSys.hw at ht
  cases hring : hwFill s.ring ctl with
  | none =>
    rw [hring] at ht
    split at ht <;> simp_all
  | some ring =>
    obtain ⟨hm, hqueue⟩ := h.queue.completes h.ring hring
    obtain ⟨-, -, -, -, -, -, hposted, hdelivered, hfreed, hbufs, hcsum⟩ := hwFill_spec hring
    rw [hm, hring] at ht
    cases ht
    refine ⟨pending ++ [(consumed.length + pending.length, ctl)], ?_⟩
    exact
      { h with
        ring := rxOk_hw h.ring hring
        rxbufs := hbufs ▸ h.rxbufs
        rxcsum := hcsum.trans h.rxcsum
        queue := hqueue
        completed := by
          show s.completed ++ _ = _
          rw [h.completed, List.append_assoc]
        delivered := hdelivered.trans h.delivered
        freed := hfreed.trans h.freed
        ierrors := h.ierrors.trans (congrArg List.length hfreed).symm
        input := h.input.trans (congrArg (List.map RxPacket.input) hdelivered).symm
        fresh := fun m hge hm => h.fresh m hge (hposted ▸ hm) }

/-- `cgem_recv` goes on behind its first loop. -/
theorem RxSys.Ok.goOn (h : s.Ok csumOn consumed pending chain) {pc : RecvPc} (hd : pc ≠ .draining)
    (hi : pc = .idle → chain = []) : RxSys.Ok { s with pc := pc } csumOn consumed pending chain :=
  { h with
    tail := fun hpc => absurd hpc hd
    idle := hi }

/-- A round of the second loop hands the first mbuf of the chain over. -/
theorem RxSys.Ok.inputs (h : s.Ok csumOn consumed pending chain) (hpc : s.pc = .delivering) :
    ∃ chain', s.input.Ok csumOn consumed pending chain' := by
  unfold RxSys.input
  cases hhead : s.links.head with
  | none =>
    have hnil : chain = [] := (hhead ▸ h.linked).eq_nil
    exact ⟨chain, h.goOn (by decide) fun _ => hnil⟩
  | some m =>
    obtain ⟨l, rfl, hl⟩ := (hhead ▸ h.linked).some_cons
    have hnot : m ∉ l := (List.nodup_cons.1 h.chain_nodup).1
    refine ⟨l, ?_⟩
    exact
      { h with
        ipackets := by
          show s.ipackets + 1 = (s.ifInput ++ _).length
          rw [h.ipackets, List.length_append, List.length_singleton]
        linked := hl.update hnot
        tail := fun hd => by
          rw [show s.pc = .draining from hd] at hpc
          cases hpc
        input := by
          show s.ifInput ++ _ ++ l.map (fun m => (m, s.mbuf m)) = _
          rw [List.append_assoc]
          exact h.input
        idle := fun hd => by
          rw [show s.pc = .idle from hd] at hpc
          cases hpc }

/-- Every step keeps the completions in order. -/
theorem RxSys.Ok.step {a : RecvAct} (h : s.Ok csumOn consumed pending chain) (ha : a.Ok)
    (ht : rxSysStep s a = some t) : ∃ consumed' pending' chain', t.Ok csumOn consumed' pending' chain' := by
  cases a with
  | call =>
    simp only [rxSysStep, Option.ite_none_right_eq_some, Option.some_inj] at ht
    obtain ⟨hpc, rfl⟩ := ht
    obtain rfl := h.idle hpc
    exact ⟨consumed, pending, [],
      { h with
        linked := rfl
        tail := fun _ => rfl
        idle := fun _ => rfl }⟩
  | drained | unlock =>
    simp only [rxSysStep, Option.ite_none_right_eq_some, Option.some_inj] at ht
    obtain ⟨-, rfl⟩ := ht
    exact ⟨consumed, pending, chain, h.goOn (by decide) fun hi => absurd hi (by decide)⟩
  | recv =>
    simp only [rxSysStep, Option.ite_none_right_eq_some] at ht
    exact h.recv ht.1.1 ht.1.2 ht.2
  | input =>
    simp only [rxSysStep, Option.ite_none_right_eq_some, Option.some_inj] at ht
    obtain ⟨hpc, rfl⟩ := ht
    exact ⟨consumed, pending, h.inputs hpc⟩
  | fill o =>
    simp only [rxSysStep, Option.ite_none_right_eq_some, Option.some_inj] at ht
    obtain ⟨⟨-, hlt⟩, rfl⟩ := ht
    exact ⟨consumed, pending, chain, h.fill hlt o⟩
  | hw ctl =>
    obtain ⟨pending', h'⟩ := h.hw ht
    exact ⟨consumed, pending', chain, h'⟩
  | sysctl v =>
    cases ht
    exact ⟨consumed, pending, chain,
      { h with
        ring := { h.ring with }
        rxbufs := ha
        queue := { h.queue with } }⟩

end Steps

/-! ## Runs -/

/-- A step records one completion at most. -/
theorem rxSysStep_completed {s t : RxSys} {a : RecvAct} (h : rxSysStep s a = some t) :
    t.completed = s.completed ∨ ∃ m ctl, a = .hw ctl ∧ t.completed = s.completed ++ [(m, ctl)] := by
  cases a with
  | hw ctl =>
    simp only [rxSysStep, RxSys.hw] at h
    split at h
    · cases h
      exact .inr ⟨_, ctl, rfl, rfl⟩
    · cases h
      exact .inl rfl
    · cases h
  | recv =>
    simp only [rxSysStep, Option.ite_none_right_eq_some] at h
    obtain ⟨-, h⟩ := h
    unfold RxSys.recv at h
    dsimp only at h
    split at h
    · split at h <;> rw [← Option.some.inj h] <;> exact .inl rfl
    · cases h
  | input =>
    simp only [rxSysStep, Option.ite_none_right_eq_some, Option.some_inj] at h
    apply Or.inl
    rw [← h.2, RxSys.input]
    split <;> rfl
  | fill o =>
    simp only [rxSysStep, Option.ite_none_right_eq_some, Option.some_inj] at h
    apply Or.inl
    rw [← h.2]
    rfl
  | call | drained | unlock =>
    simp only [rxSysStep, Option.ite_none_right_eq_some, Option.some_inj] at h
    exact .inl (by rw [← h.2])
  | sysctl v =>
    cases h
    exact .inl rfl

/-- All along a run the completions are in order, and none is too long for its buffer. -/
theorem rxSys_run {rxbufs : Int} {csumOn : Bool} (hbufs : rxbufs ≤ rp1ethNumRxDescs) {acts : List RecvAct}
    (hacts : ∀ a ∈ acts, a.Ok) {s : RxSys}
    (hrun : Transition.run rxSysStep (RxSys.start rxbufs csumOn) acts = some s) :
    (∃ consumed pending chain, s.Ok csumOn consumed pending chain) ∧
      ∀ c ∈ s.completed, (c.2 &&& cgemRxdescLengthMask).toNat ≤ 2046 := by
  have hstep : ∀ (s : RxSys) (a : RecvAct) (t : RxSys),
      ((∃ consumed pending chain, s.Ok csumOn consumed pending chain) ∧
        ∀ c ∈ s.completed, (c.2 &&& cgemRxdescLengthMask).toNat ≤ 2046) → a.Ok → rxSysStep s a = some t →
      (∃ consumed pending chain, t.Ok csumOn consumed pending chain) ∧
        ∀ c ∈ t.completed, (c.2 &&& cgemRxdescLengthMask).toNat ≤ 2046 := by
    rintro s a t ⟨⟨_, _, _, h⟩, hlen⟩ ha ht
    refine ⟨h.step ha ht, ?_⟩
    rcases rxSysStep_completed ht with heq | ⟨m, ctl, rfl, heq⟩
    · rw [heq]
      exact hlen
    · rw [heq]
      intro c hc
      rcases List.mem_append.1 hc with hc | hc
      · exact hlen c hc
      · rw [List.mem_singleton.1 hc]
        exact ha
  have hall : Transition.AllSteps rxSysStep (fun _ a => a.Ok) (RxSys.start rxbufs csumOn) acts :=
    Transition.AllSteps.of_mem fun a ha _ => hacts a ha
  exact (Transition.allStates_of hstep
    ⟨⟨[], [], [], RxSys.ok_start rxbufs csumOn hbufs⟩, fun c hc => by cases hc⟩ hall).last hrun

/-- The hardware owns the buffer: it is in the ring, and OWN is clear. -/
def HwOwns (r : RxState) (m : Mbuf) : Prop :=
  ∃ i < rp1ethNumRxDescs, r.rxringM i = some m ∧ ¬HasFlag (r.rxring i).addr rxdescOwnBit

section Consequences

variable {s : RxSys} {csumOn : Bool} {consumed pending : List (Mbuf × BitVec 32)} {chain : List Mbuf}

/-- What the hardware owns has not been taken. -/
theorem RxSys.Ok.hwOwns_ge (h : s.Ok csumOn consumed pending chain) {m : Mbuf} (hm : HwOwns s.ring m) :
    consumed.length ≤ m := by
  obtain ⟨i, hi, hslot, -⟩ := hm
  have hqueued := (h.ring.slots i hi).1 (by rw [hslot]; rfl)
  have hback : rxSlot s.ring ((i + rp1ethNumRxDescs - s.ring.rxringTlPtr) % rp1ethNumRxDescs) = i := by
    have := h.ring.tl_lt
    simp only [rxSlot, rp1ethNumRxDescs] at *
    omega
  have hm := h.queue.slot _ hqueued
  rw [hback, hslot] at hm
  rw [Option.some.inj hm]
  exact Nat.le_add_right _ _

/-- What was given away has been taken. -/
theorem RxSys.Ok.gone_lt (h : s.Ok csumOn consumed pending chain) {m : Mbuf}
    (hm : m ∈ s.ifInput.map Prod.fst ∨ m ∈ chain ∨ m ∈ s.ring.freed) : m < consumed.length := by
  have hids : ∀ c ∈ consumed, c.1 < consumed.length := by
    intro c hc
    have := List.mem_map_of_mem (f := Prod.fst) hc
    rwa [h.consumed_ids, List.mem_range] at this
  rcases hm with hm | hm | hm
  · obtain ⟨p, hp, rfl⟩ := List.mem_map.1 hm
    have hmem : p ∈ s.ring.delivered.map RxPacket.input := by
      rw [← h.input]
      exact List.mem_append_left _ hp
    rw [h.delivered, List.map_map] at hmem
    obtain ⟨c, hc, rfl⟩ := List.mem_map.1 hmem
    exact hids c (List.mem_of_mem_filter hc)
  · exact h.chain_lt hm
  · rw [h.freed] at hm
    obtain ⟨c, hc, rfl⟩ := List.mem_map.1 hm
    exact hids c (List.mem_of_mem_filter hc)

/-- No buffer is freed and handed over. -/
theorem RxSys.Ok.freed_apart (h : s.Ok csumOn consumed pending chain) {m : Mbuf} (hm : m ∈ s.ring.freed) :
    m ∉ s.ifInput.map Prod.fst ∧ m ∉ chain := by
  rw [h.freed] at hm
  obtain ⟨c, hc, rfl⟩ := List.mem_map.1 hm
  obtain ⟨hc, hbad⟩ := List.mem_filter.1 hc
  have hnodup : (consumed.map Prod.fst).Nodup := by
    rw [h.consumed_ids]
    exact List.nodup_range
  have hnot : c.1 ∉ (s.ifInput ++ chain.map (fun m => (m, s.mbuf m))).map Prod.fst := by
    intro hmem
    rw [h.input, h.delivered, List.map_map, List.map_map] at hmem
    obtain ⟨c', hc', he⟩ := List.mem_map.1 hmem
    obtain ⟨hc', hgood⟩ := List.mem_filter.1 hc'
    have heq : c' = c := List.inj_on_of_nodup_map hnodup hc' hc he
    rw [heq] at hgood
    simp [hbad] at hgood
  rw [List.map_append, List.map_map, List.mem_append, not_or] at hnot
  refine ⟨hnot.1, fun hm => hnot.2 ?_⟩
  exact List.mem_map.2 ⟨c.1, hm, rfl⟩

/-- With the loop condition false, every completion has been taken. -/
theorem RxSys.Ok.drained (h : s.Ok csumOn consumed pending chain) (hr : ¬RxReady s.ring) : pending = [] := by
  rcases pending with _ | ⟨c, rest⟩
  · rfl
  · have hle := h.queue.le
    have hown := (h.queue.own 0 (by decide)).2 (.inl (Nat.succ_pos _))
    rw [rxSlot_zero h.ring] at hown
    rw [List.length_cons] at hle
    exact absurd ⟨by omega, hown⟩ hr

end Consequences

/-- **The GEM receive side delivers every buffer once**: with at most 256 buffers queued, along any run `if_input` and
the chain have the good completions, and `m_free` the bad ones, in order and up to the oldest that is not taken yet; a
drained `cgem_recv` leaves none, and nothing the hardware owns is given away. -/
theorem rx_delivery (rxbufs : Int) (csumOn : Bool) (hbufs : rxbufs ≤ rp1ethNumRxDescs) (acts : List RecvAct)
    (hacts : ∀ a ∈ acts, a.Ok) (s : RxSys)
    (hrun : Transition.run rxSysStep (RxSys.start rxbufs csumOn) acts = some s) :
    ∃ consumed pending chain,
      s.completed = consumed ++ pending ∧ Chain s.links.next s.links.head chain ∧
      s.ifInput ++ chain.map (fun m => (m, s.mbuf m)) =
        (goodOnes consumed).map (fun c => (c.1, ⟨2, (c.2 &&& cgemRxdescLengthMask).toNat, rxCsum csumOn c.2⟩)) ∧
      s.ring.freed = (badOnes consumed).map Prod.fst ∧ s.ierrors = (badOnes consumed).length ∧
      (s.pc = .idle → chain = []) ∧ (¬RxReady s.ring → pending = []) ∧
      (s.completed.map Prod.fst).Nodup ∧ (∀ m ∈ s.ring.freed, m ∉ s.ifInput.map Prod.fst ∧ m ∉ chain) ∧
      (∀ c ∈ s.completed, 2 + (c.2 &&& cgemRxdescLengthMask).toNat ≤ mclbytes) ∧
      ∀ m, HwOwns s.ring m → m ∉ s.ifInput.map Prod.fst ∧ m ∉ chain ∧ m ∉ s.ring.freed := by
  obtain ⟨⟨consumed, pending, chain, h⟩, hlen⟩ := rxSys_run hbufs hacts hrun
  refine ⟨consumed, pending, chain, h.completed, h.linked, ?_, h.freed, ?_, h.idle, h.drained, ?_,
    fun m hm => h.freed_apart hm, ?_, ?_⟩
  · rw [h.input, h.delivered, List.map_map]
    rfl
  · rw [h.ierrors, h.freed, List.length_map]
  · rw [h.completed, h.queue.ids]
    exact List.nodup_range
  · intro c hc
    have := hlen c hc
    have : mclbytes = 2048 := rfl
    omega
  · intro m hm
    have hge := h.hwOwns_ge hm
    exact ⟨fun h' => absurd (h.gone_lt (.inl h')) (Nat.not_lt.2 hge),
      fun h' => absurd (h.gone_lt (.inr (.inl h'))) (Nat.not_lt.2 hge),
      fun h' => absurd (h.gone_lt (.inr (.inr h'))) (Nat.not_lt.2 hge)⟩

/-- Two buffers are posted; a frame of 60 bytes and a damaged one come, and `cgem_recv` takes both. -/
def twoFrames : List RecvAct :=
  [.fill (.mapped (cluster 0)), .fill (.mapped (cluster 1)), .hw 0xc03c, .hw 0xe03c, .call, .recv, .recv, .drained,
    .unlock, .input, .input]

theorem rx_delivery_twoFrames : ∃ s,
    Transition.run rxSysStep (RxSys.start rp1ethDefaultRxbufs false) twoFrames = some s ∧
      s.ifInput.map Prod.fst = [0] ∧ s.ring.freed = [1] ∧ s.ierrors = 1 ∧ s.completed.length = 2 ∧
      (s.completed.map Prod.fst).Nodup := by
  have hrun : (Transition.run rxSysStep (RxSys.start rp1ethDefaultRxbufs false) twoFrames).map
      (fun s => (s.ifInput.map Prod.fst, s.ring.freed, s.ierrors, s.completed.length)) = some ([0], [1], 1, 2) := by
    decide +kernel
  obtain ⟨s, hs, hout⟩ := Option.map_eq_some_iff.1 hrun
  simp only [Prod.mk.injEq] at hout
  have hacts : ∀ a ∈ twoFrames, a.Ok := by
    simp only [twoFrames, List.forall_mem_cons, RecvAct.Ok, List.not_mem_nil, false_imp_iff, implies_true, true_and,
      and_true]
    decide
  obtain ⟨_, _, _, -, -, -, -, -, -, -, hnodup, -⟩ :=
    rx_delivery rp1ethDefaultRxbufs false (by decide) twoFrames hacts s hs
  exact ⟨s, hs, hout.1, hout.2.1, hout.2.2.1, hout.2.2.2, hnodup⟩

end Eth
