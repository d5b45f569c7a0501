import Mathlib.Data.List.Nodup
import Rpi5Modules.Eth.RxRing
import Rpi5Modules.Eth.TxInvariant
import Rpi5Modules.Lib.Handles

/-!
# The DMA maps of the rings

The mbufs in the rings are mapped for DMA, each through a map of `mbuf_dma_tag` whose handle is in `rxring_m_dmamap` or
`txring_m_dmamap`, in the slot of the mbuf. The loops of the driver create, load, unload and destroy these maps;
`rp1eth_detach` destroys the tag, which must not have maps left.

The rings and the hardware interleave as in `RxRing` and `TxRing`, in more orders than the lock of the driver allows.
Along a run no map is misused, each mbuf in a ring has one map, loaded, and there are no others, exactly if no iteration
of `cgem_fill_rqueue` gets as far as a map while all 256 descriptors are queued (`dma_maps_iff`).
-/

namespace Eth

open Transition Function

/-- The slots of the two tables. -/
inductive RingSlot where
  | rx (i : Nat)
  | tx (i : Nat)
deriving DecidableEq

/-- The rings and their maps; `none` once a map was misused. -/
structure DmaSys where
  rx : RxState
  tx : TxState
  maps : Option (Handles RingSlot)

namespace DmaSys

/-- Behind `cgem_setup_descs`. -/
def setup (rxbufs : Int) (rxcsum : Bool) : DmaSys := ⟨cgemSetupRx rxbufs rxcsum, cgemSetupTx, some .init⟩

/-- The slot is one of a ring, with an mbuf. -/
def Holds (s : DmaSys) : RingSlot → Prop
  | .rx i => i < rp1ethNumRxDescs ∧ (s.rx.rxringM i).isSome
  | .tx i => i < rp1ethNumTxDescs ∧ (s.tx.txringM i).isSome

instance (s : DmaSys) : DecidablePred s.Holds
  | .rx _ => inferInstanceAs (Decidable (_ ∧ _))
  | .tx _ => inferInstanceAs (Decidable (_ ∧ _))

end DmaSys

section Code

variable (w : Handles RingSlot)

/-- An iteration of `cgem_fill_rqueue`; a `bus_dmamap_create` that fails stores no handle. -/
def fillMaps (hd : Nat) : FillOutcome → Option (Handles RingSlot)
  | .noMbuf => some w
  | .noMap => some w
  | .noLoad => (w.create (.rx hd)).destroy (.rx hd)
  | .mapped _ _ => (w.create (.rx hd)).load (.rx hd)

/-- An iteration of `cgem_start_locked` whose frame could not be mapped. -/
def failMaps (hd : Nat) : MapFailure → Option (Handles RingSlot)
  | .create => some w
  | .load => (w.create (.tx hd)).destroy (.tx hd)
  | .defrag => (w.create (.tx hd)).destroy (.tx hd)
  | .reload => (w.create (.tx hd)).destroy (.tx hd)

def rxMaps (s : RxState) : RxAct → Option (Handles RingSlot)
  | .fill o => fillMaps w s.rxringHdPtr o
  | .recv => (w.unload (.rx s.rxringTlPtr)).bind (Handles.destroy (.rx s.rxringTlPtr))
  | _ => some w

def txMaps (s : TxState) : TxAct → Option (Handles RingSlot)
  | .mapFail why => failMaps w s.txringHdPtr why
  | .post _ _ => (w.create (.tx s.txringHdPtr)).load (.tx s.txringHdPtr)
  | .clean => (w.unload (.tx s.txringTlPtr)).bind (Handles.destroy (.tx s.txringTlPtr))
  | _ => some w

/-- The loops of `cgem_stop` and of `rp1eth_detach` go over these. -/
def txSlots : List RingSlot := (List.range rp1ethNumTxDescs).map .tx

def rxSlots : List RingSlot := (List.range rp1ethNumRxDescs).map .rx

/-- The two loops of `cgem_stop`. -/
def stopMaps (s : DmaSys) : Option (Handles RingSlot) := w.drain (fun i => decide (s.Holds i)) (txSlots ++ rxSlots)

/-- The two loops of `rp1eth_detach`. -/
def detachMaps : Option (Handles RingSlot) := w.sweep (rxSlots ++ txSlots)

end Code

namespace DmaSys

inductive Act where
  | rx (a : RxAct)
  | tx (a : TxAct)
  /-- `cgem_stop`, which stops both rings. -/
  | stop

def step (s : DmaSys) : Act → Option DmaSys
  | .rx .stop => none
  | .tx .stop => none
  | .rx a => (rxStep s.rx a).map fun rx => { s with rx := rx, maps := s.maps.bind fun w => rxMaps w s.rx a }
  | .tx a => (txRingStep s.tx a).map fun tx => { s with tx := tx, maps := s.maps.bind fun w => txMaps w s.tx a }
  | .stop => (cgemStopTx s.tx).map fun tx => ⟨cgemStopRx s.rx, tx, s.maps.bind fun w => stopMaps w s⟩

/-- The iteration does not get as far as a map while the receive ring is full. -/
def MapRoom (s : DmaSys) : Act → Prop
  | .rx (.fill .noLoad) => s.rx.rxringQueued < rp1ethNumRxDescs
  | .rx (.fill (.mapped _ _)) => s.rx.rxringQueued < rp1ethNumRxDescs
  | _ => True

end DmaSys

/-! ## The tables of mbufs -/

section Tables

/-- The slot at the head is free while there is room, and taken when there is none. -/
theorem RxOk.head_iff {s : RxState} (h : RxOk s) :
    (s.rxringM s.rxringHdPtr).isSome ↔ ¬s.rxringQueued < rp1ethNumRxDescs := by
  have hlt := h.tl_lt
  have hnn := h.queued_nonneg
  have hle := h.queued_le
  have hhd := h.hd_eq
  rw [h.slots _ h.hd_lt]
  simp only [RxQueuedSlot, rp1ethNumRxDescs] at *
  omega

variable {s t : TxState}

theorem access_table {i : Nat} (h : t.txringM = s.txringM) : (s.access i t).txringM = s.txringM := by
  unfold TxState.access
  split
  · exact h
  · rfl

theorem TxInv.head_free (h : TxInv s) (hpc : s.pc = .idle) :
    s.txringHdPtr < rp1ethNumTxDescs ∧ s.txringM s.txringHdPtr = none := by
  obtain ⟨rc, dn, lv, b, h⟩ := h
  obtain ⟨rfl, -, -⟩ := h.idle hpc
  refine ⟨h.hd_lt, (h.idle_mbufs hpc).empty _ h.hd_lt (fun f hf he => ?_) (.inl rfl)⟩
  exact h.layout.hd_free hf (he ▸ has_start f)

/-- What is stored in the table behind the first descriptor of a frame is what it held. -/
theorem TxInv.store_table (h : TxInv s) (ht : startStore s = some t) : t.txringM = s.txringM := by
  obtain ⟨rc, dn, lv, b, h⟩ := h
  have hp := h.pc
  have hm := h.mbufs
  unfold PcAt at hp
  cases hpc : s.pc with
  | storeAddr m sg i =>
    simp only [startStore, hpc, Option.some_inj] at ht
    exact ht ▸ access_table rfl
  | storeCtl m sg i =>
    rw [hpc] at hp hm
    obtain ⟨rfl, -, -, hroom, hi, -⟩ := hp
    obtain ⟨hlt, hfree⟩ := h.room hroom hi
    simp only [startStore, hpc, Option.some_inj] at ht
    rw [access_eq hlt] at ht
    split at ht
    · next hi0 =>
      rw [← ht]
      refine update_eq_self_iff.2 (hm.empty _ hlt (fun f hf he => hfree f hf (he ▸ has_start f)) (.inr ?_)).symm
      omega
    · rw [← ht]
  | _ => simp [startStore, hpc] at ht

theorem TxInv.clean_table (h : TxInv s) (ht : cleanFrame s = some t) :
    s.txringTlPtr < rp1ethNumTxDescs ∧ (s.txringM s.txringTlPtr).isSome ∧
      t.txringM = update s.txringM s.txringTlPtr none := by
  obtain ⟨rc, dn, lv, b, h⟩ := h
  cases hpc : s.pc with
  | idle =>
    simp only [cleanFrame, hpc, Option.ite_none_right_eq_some, Option.some_inj] at ht
    obtain ⟨⟨hpos, hused⟩, rfl⟩ := ht
    obtain ⟨rfl, htl, hq⟩ := h.idle hpc
    have hc := h.idle_cells hpc
    -- what is queued is not waiting for the hardware, so the first frame is done
    cases dn with
    | nil =>
      cases lv with
      | nil => exact absurd hq (by simp [cellsOf, chunks]; omega)
      | cons f lv =>
        obtain ⟨hf, -⟩ := h.layout.tail
        have hlive := hc.live f List.mem_cons_self 0 f.sg.nsegs_pos
        rw [Nat.add_zero, hf, ← htl] at hlive
        rw [hlive] at hused
        exact absurd hused (segCtl_used _ _ _)
    | cons f dn =>
      obtain ⟨hf, -⟩ := h.layout.tail
      have htl' : s.txringTlPtr = f.start := htl.trans hf.symm
      have hlt : s.txringTlPtr < rp1ethNumTxDescs := htl' ▸ h.layout.lt List.mem_cons_self (has_start f)
      have hmf : s.txringM f.start = some f.m := (h.idle_mbufs hpc).held f List.mem_cons_self
      refine ⟨hlt, by rw [htl', hmf]; rfl, ?_⟩
      rw [access_eq hlt]
  | _ => simp [cleanFrame, hpc] at ht

end Tables

/-! ## The maps -/

section Maps

namespace DmaSys

variable {s t : DmaSys} {a : Act} {w : Handles RingSlot}

/-- The system is in order. -/
structure Ok (s : DmaSys) : Prop where
  rx : RxOk s.rx
  tx : TxInv s.tx
  maps : ∃ w, s.maps = some w ∧ w.Exact s.Holds

theorem ok_setup (rxbufs : Int) (rxcsum : Bool) : (setup rxbufs rxcsum).Ok := by
  refine ⟨rxOk_setup rxbufs rxcsum, txInv_setup, .init, rfl, Handles.exact_init.congr fun i => ?_⟩
  cases i <;> simp [setup, Holds, cgemSetupRx, cgemSetupTx]

theorem holds_put_rx {hd : Nat} {m : Mbuf} {rx : RxState} (hhd : hd < rp1ethNumRxDescs)
    (hM : rx.rxringM = update s.rx.rxringM hd (some m)) (maps : Option (Handles RingSlot)) (i : RingSlot) :
    i = .rx hd ∨ s.Holds i ↔ Holds ⟨rx, s.tx, maps⟩ i := by
  cases i with
  | rx i =>
    by_cases hi : i = hd
    · simp [Holds, hM, hi, hhd]
    · simp [Holds, hM, hi]
  | tx i => simp [Holds]

theorem holds_take_rx {tl : Nat} {rx : RxState} (hM : rx.rxringM = update s.rx.rxringM tl none)
    (maps : Option (Handles RingSlot)) (i : RingSlot) :
    i ≠ .rx tl ∧ s.Holds i ↔ Holds ⟨rx, s.tx, maps⟩ i := by
  cases i with
  | rx i =>
    by_cases hi : i = tl
    · simp [Holds, hM, hi]
    · simp [Holds, hM, hi]
  | tx i => simp [Holds]

theorem holds_put_tx {hd : Nat} {m : Mbuf} {tx : TxState} (hhd : hd < rp1ethNumTxDescs)
    (hM : tx.txringM = update s.tx.txringM hd (some m)) (maps : Option (Handles RingSlot)) (i : RingSlot) :
    i = .tx hd ∨ s.Holds i ↔ Holds ⟨s.rx, tx, maps⟩ i := by
  cases i with
  | rx i => simp [Holds]
  | tx i =>
    by_cases hi : i = hd
    · simp [Holds, hM, hi, hhd]
    · simp [Holds, hM, hi]

theorem holds_take_tx {tl : Nat} {tx : TxState} (hM : tx.txringM = update s.tx.txringM tl none)
    (maps : Option (Handles RingSlot)) (i : RingSlot) :
    i ≠ .tx tl ∧ s.Holds i ↔ Holds ⟨s.rx, tx, maps⟩ i := by
  cases i with
  | rx i => simp [Holds]
  | tx i =>
    by_cases hi : i = tl
    · simp [Holds, hM, hi]
    · simp [Holds, hM, hi]

/-- An iteration of the receive ring that has room for its map. -/
theorem exact_rx {b : RxAct} {rx : RxState} (h : RxOk s.rx) (hw : w.Exact s.Holds) (hb : b ≠ .stop)
    (hroom : s.MapRoom (.rx b)) (ht : rxStep s.rx b = some rx) (maps : Option (Handles RingSlot)) :
    ∃ w', rxMaps w s.rx b = some w' ∧ w'.Exact (Holds ⟨rx, s.tx, maps⟩) := by
  have hfree : s.rx.rxringQueued < rp1ethNumRxDescs → ¬s.Holds (.rx s.rx.rxringHdPtr) :=
    fun hq hh => (h.head_iff.1 hh.2) hq
  cases b with
  | fill o =>
    simp only [rxStep, Option.ite_none_right_eq_some, Option.some_inj] at ht
    obtain ⟨-, rfl⟩ := ht
    cases o with
    | noMbuf => exact ⟨w, rfl, hw⟩
    | noMap => exact ⟨w, rfl, hw⟩
    | noLoad => exact hw.createDestroy (hfree hroom)
    | mapped m seg =>
      obtain ⟨w', hw', he⟩ := hw.put (hfree hroom)
      exact ⟨w', hw', he.congr (holds_put_rx h.hd_lt (fillBody_mapped s.rx m seg).1 maps)⟩
  | recv =>
    simp only [rxStep, Option.ite_none_right_eq_some] at ht
    obtain ⟨m, hm, hM, -⟩ := recvBody_spec ht.2
    have hsl : s.Holds (.rx s.rx.rxringTlPtr) := ⟨h.tl_lt, by rw [hm]; rfl⟩
    obtain ⟨w', hw', he⟩ := hw.take hsl
    exact ⟨w', hw', he.congr (holds_take_rx hM maps)⟩
  | stop => exact absurd rfl hb
  | hw ctl =>
    simp only [rxStep, hwFill] at ht
    split at ht
    · cases ht
    · cases ht
      exact ⟨w, rfl, hw⟩
  | sysctl v =>
    cases ht
    exact ⟨w, rfl, hw⟩

/-- A step of the transmit ring. -/
theorem exact_tx {b : TxAct} {tx : TxState} (h : TxInv s.tx) (hw : w.Exact s.Holds) (hb : b ≠ .stop)
    (ht : txRingStep s.tx b = some tx) (maps : Option (Handles RingSlot)) :
    ∃ w', txMaps w s.tx b = some w' ∧ w'.Exact (Holds ⟨s.rx, tx, maps⟩) := by
  have hsame : tx.txringM = s.tx.txringM → ∀ i, s.Holds i ↔ Holds ⟨s.rx, tx, maps⟩ i := by
    intro hM i
    cases i <;> simp [Holds, hM]
  cases b with
  | mapFail why =>
    cases hpc : s.tx.pc with
    | idle =>
      obtain ⟨hlt, hfree⟩ := h.head_free hpc
      simp only [txRingStep, startFail, hpc, Option.ite_none_right_eq_some, Option.some_inj] at ht
      obtain ⟨-, rfl⟩ := ht
      rw [access_eq hlt] at hsame ⊢
      have hno : ¬s.Holds (.tx s.tx.txringHdPtr) := fun hh => by simp [hfree, Holds] at hh
      cases why with
      | create => exact ⟨w, rfl, hw⟩
      | _ =>
        obtain ⟨w', hw', he⟩ := hw.createDestroy hno
        exact ⟨w', hw', he⟩
    | _ => simp [txRingStep, startFail, hpc] at ht
  | post sg defrag =>
    cases hpc : s.tx.pc with
    | idle =>
      obtain ⟨hlt, hfree⟩ := h.head_free hpc
      simp only [txRingStep, startPost, hpc, Option.ite_none_right_eq_some, Option.some_inj] at ht
      obtain ⟨-, rfl⟩ := ht
      have hno : ¬s.Holds (.tx s.tx.txringHdPtr) := fun hh => by simp [hfree, Holds] at hh
      obtain ⟨w', hw', he⟩ := hw.put hno
      rw [access_eq hlt]
      exact ⟨w', hw', he.congr (holds_put_tx hlt rfl maps)⟩
    | _ => simp [txRingStep, startPost, hpc] at ht
  | store => exact ⟨w, rfl, hw.congr (hsame (h.store_table ht))⟩
  | full =>
    cases hpc : s.tx.pc with
    | idle =>
      simp only [txRingStep, startFull, hpc, Option.ite_none_right_eq_some, Option.some_inj] at ht
      obtain ⟨-, rfl⟩ := ht
      exact ⟨w, rfl, hw⟩
    | _ => simp [txRingStep, startFull, hpc] at ht
  | clean =>
    obtain ⟨hlt, hsome, hM⟩ := h.clean_table ht
    have hsl : s.Holds (.tx s.tx.txringTlPtr) := ⟨hlt, hsome⟩
    obtain ⟨w', hw', he⟩ := hw.take hsl
    exact ⟨w', hw', he.congr (holds_take_tx hM maps)⟩
  | cleanStep =>
    refine ⟨w, rfl, hw.congr (hsame ?_)⟩
    simp only [txRingStep, cleanStep] at ht
    split at ht
    · split at ht <;> cases ht
      · exact access_table rfl
      · rfl
    · cases ht
      exact access_table rfl
    · cases ht
  | stop => exact absurd rfl hb
  | hw status =>
    refine ⟨w, rfl, hw.congr (hsame ?_)⟩
    simp only [txRingStep, hwFetch] at ht
    split at ht
    · cases ht
    · cases ht
      apply access_table
      split <;> rfl

theorem nodup_slots : (txSlots ++ rxSlots).Nodup := by
  refine List.nodup_append.2 ⟨?_, ?_, ?_⟩
  · exact List.Nodup.map (fun i j h => RingSlot.tx.inj h) List.nodup_range
  · exact List.Nodup.map (fun i j h => RingSlot.rx.inj h) List.nodup_range
  · simp [txSlots, rxSlots]

theorem mem_slots {i : RingSlot} (h : s.Holds i) : i ∈ txSlots ++ rxSlots := by
  cases i with
  | rx i => simpa [txSlots, rxSlots] using h.1
  | tx i => simpa [txSlots, rxSlots] using h.1

/-- `cgem_stop` leaves no map. -/
theorem exact_stop (hw : w.Exact s.Holds) : ∃ w', stopMaps w s = some w' ∧ w'.Exact fun _ => False := by
  obtain ⟨w', hw', he⟩ := hw.drain nodup_slots fun i _ => decide_eq_true_iff
  exact ⟨w', hw', he.congr fun i => iff_of_false (fun h => h.1 (mem_slots h.2)) not_false⟩

/-- A step of a ring is a step of its own, and what it does with the maps. -/
theorem step_rx {b : RxAct} (ht : s.step (.rx b) = some t) : b ≠ .stop ∧ ∃ rx, rxStep s.rx b = some rx ∧
    t = { s with rx := rx, maps := s.maps.bind fun w => rxMaps w s.rx b } := by
  cases b with
  | stop => cases ht
  | _ =>
    simp only [step, Option.map_eq_some_iff] at ht
    obtain ⟨rx, hrx, rfl⟩ := ht
    exact ⟨nofun, rx, hrx, rfl⟩

theorem step_tx {b : TxAct} (ht : s.step (.tx b) = some t) : b ≠ .stop ∧ ∃ tx, txRingStep s.tx b = some tx ∧
    t = { s with tx := tx, maps := s.maps.bind fun w => txMaps w s.tx b } := by
  cases b with
  | stop => cases ht
  | _ =>
    simp only [step, Option.map_eq_some_iff] at ht
    obtain ⟨tx, htx, rfl⟩ := ht
    exact ⟨nofun, tx, htx, rfl⟩

/-- Behind `cgem_stop` no mbuf is in a ring. -/
theorem not_holds_stop {tx : TxState} (ht : cgemStopTx s.tx = some tx) (maps : Option (Handles RingSlot))
    (i : RingSlot) : ¬Holds ⟨cgemStopRx s.rx, tx, maps⟩ i := by
  cases i with
  | rx i =>
    rintro ⟨hi, hh⟩
    simp [cgemStopRx, hi] at hh
  | tx i =>
    rintro ⟨hi, hh⟩
    unfold cgemStopTx at ht
    split at ht
    · cases ht
      simp [hi] at hh
    · cases ht

theorem fillOk_of_mapRoom {b : RxAct} (h : s.MapRoom (.rx b)) : FillOk s.rx b := by
  cases b with
  | fill o =>
    cases o with
    | mapped m seg => exact h
    | _ => trivial
  | _ => trivial

theorem ok_step (h : s.Ok) (hroom : s.MapRoom a) (ht : s.step a = some t) : t.Ok := by
  obtain ⟨w, hmaps, hw⟩ := h.maps
  cases a with
  | rx b =>
    obtain ⟨hb, rx, hrx, rfl⟩ := step_rx ht
    obtain ⟨w', hw', he⟩ := exact_rx h.rx hw hb hroom hrx (s.maps.bind fun w => rxMaps w s.rx b)
    exact ⟨rxOk_step h.rx (fillOk_of_mapRoom hroom) hrx, h.tx, w', by rw [hmaps]; exact hw', he⟩
  | tx b =>
    obtain ⟨hb, tx, htx, rfl⟩ := step_tx ht
    obtain ⟨w', hw', he⟩ := exact_tx h.tx hw hb htx (s.maps.bind fun w => txMaps w s.tx b)
    exact ⟨h.rx, txInv_step h.tx htx, w', by rw [hmaps]; exact hw', he⟩
  | stop =>
    obtain ⟨tx, htx, rfl⟩ := Option.map_eq_some_iff.1 ht
    obtain ⟨w', hw', he⟩ := exact_stop hw
    refine ⟨rxOk_stop h.rx, txInv_step (a := .stop) h.tx htx, w', by rw [hmaps]; exact hw', he.congr fun i => ?_⟩
    exact iff_of_false id (not_holds_stop htx _ i)

/-- One loaded map for each mbuf in a ring and no other; and `cgem_stop` and `rp1eth_detach` destroy them all. -/
def MapsExact (s : DmaSys) : Prop :=
  (∃ w, s.maps = some w ∧ w.Exact s.Holds) ∧
    ∀ t, s.step .stop = some t → ∃ w', t.maps.bind detachMaps = some w' ∧ ∀ h, w'.obj h = none

theorem Ok.mapsExact (h : s.Ok) : s.MapsExact := by
  refine ⟨h.maps, fun t ht => ?_⟩
  obtain ⟨w, hmaps, hw⟩ := h.maps
  obtain ⟨tx, -, rfl⟩ := Option.map_eq_some_iff.1 ht
  obtain ⟨w', hw', he⟩ := exact_stop hw
  obtain ⟨hslot, hobj⟩ := he.none fun _ => id
  refine ⟨w', ?_, hobj⟩
  simp only [hmaps, Option.bind_some, hw']
  exact Handles.sweep_of_empty hslot _

/-- A map that is created while the ring is full takes the place of another. -/
theorem mapRoom_of_exact (h : s.Ok) (ht : s.step a = some t) (he : ∃ w, t.maps = some w ∧ w.Exact t.Holds) :
    s.MapRoom a := by
  obtain ⟨w, hmaps, hw⟩ := h.maps
  obtain ⟨w', hmaps', he⟩ := he
  have htaken : ¬s.rx.rxringQueued < rp1ethNumRxDescs → s.Holds (.rx s.rx.rxringHdPtr) :=
    fun hq => ⟨h.rx.hd_lt, h.rx.head_iff.2 hq⟩
  cases a with
  | rx b =>
    obtain ⟨-, rx, -, rfl⟩ := step_rx ht
    rw [hmaps] at hmaps'
    cases b with
    | fill o =>
      cases o with
      | noLoad =>
        by_contra hq
        exact hw.not_exact_create (htaken hq) (.inr hmaps') he
      | mapped m seg =>
        by_contra hq
        exact hw.not_exact_create (htaken hq) (.inl hmaps') he
      | _ => trivial
    | _ => trivial
  | _ => trivial

end DmaSys

end Maps

/-- **The DMA maps of the rings.** However the two rings, the hardware, the stops and the sysctl interleave and whatever
the allocations do, no map is misused, each mbuf in a ring has one map, which is loaded, and there are no other maps,
and none at all when `rp1eth_detach` destroys the tag, exactly if no iteration of `cgem_fill_rqueue` gets as far as a
map while all 256 descriptors are queued. -/
theorem dma_maps_iff (rxbufs : Int) (rxcsum : Bool) (as : List DmaSys.Act) :
    AllStates DmaSys.step DmaSys.MapsExact (DmaSys.setup rxbufs rxcsum) as ↔
      AllSteps DmaSys.step DmaSys.MapRoom (DmaSys.setup rxbufs rxcsum) as := by
  refine allStates_iff (I := DmaSys.Ok) ?_ (fun _ h => h.mapsExact) ?_ (DmaSys.ok_setup rxbufs rxcsum)
  · intro s a t h hroom ht
    exact DmaSys.ok_step h hroom ht
  · intro s a t h ht he
    exact DmaSys.mapRoom_of_exact h ht he.1

end Eth
