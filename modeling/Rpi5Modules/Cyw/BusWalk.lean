import Rpi5Modules.Cyw.FwImages

/-!
# The way of a run of accesses

Which accesses of a run take effect depends on the window registers, the cached window and the outcomes of the bus
operations (`Bus.port`), and on nothing that is read or written. A run is therefore given by its addresses alone: an
access switches the window and, if that succeeds, makes one transfer (`Bus.pass`). Of some accesses the driver returns
the error; of the others it does not look at it.

- the operations of the backplane go the way of their accesses (`port_cywBpRead32`, `port_cywBpWrite32`,
  `cywBpWriteBlock_walks`);
- runs one behind the other (`Walks.append`, `Walks.stop`).
-/

namespace Cyw

open Memory

/-! ## Steps -/

/-- Window registers, cached window and outcomes to come. -/
def Bus.port (b : Bus) : Bus := { b with mem := fun _ => 0, log := [] }

/-- An access of the backplane, or one of a byte register or of the function enables, which needs no window. -/
inductive BusStep where
  | access (addr : UInt32)
  | byte
deriving DecidableEq

/-- The step fails: a window register cannot be written, or the transfer fails. -/
def Bus.Fails (b : Bus) : BusStep → Prop
  | .access addr => (cywSetBackplaneWindow b addr).1 ≠ 0 ∨ (cywSetBackplaneWindow b addr).2.next ≠ 0
  | .byte => b.next ≠ 0

instance (b : Bus) (s : BusStep) : Decidable (b.Fails s) :=
  match s with
  | .access _ => inferInstanceAs (Decidable (_ ∨ _))
  | .byte => inferInstanceAs (Decidable (_ ≠ _))

/-- The bus behind the step. -/
def Bus.pass (b : Bus) : BusStep → Bus
  | .access addr =>
    if (cywSetBackplaneWindow b addr).1 = 0 then (cywSetBackplaneWindow b addr).2.tick
    else (cywSetBackplaneWindow b addr).2
  | .byte => b.tick

/-- A step, and whether the driver returns its error. -/
structure PlanStep where
  step : BusStep
  checked : Bool
deriving DecidableEq

/-- An access whose error is returned, accesses that are only tried, and the same for byte registers. -/
def checkedAccess (addr : UInt32) : PlanStep := ⟨.access addr, true⟩
def accessSteps (addrs : List UInt32) : List PlanStep := addrs.map fun addr => ⟨.access addr, false⟩
def checkedByte : PlanStep := ⟨.byte, true⟩
def byteSteps (n : Nat) : List PlanStep := List.replicate n ⟨.byte, false⟩

/-- The bus behind all of the steps. -/
def Bus.passAll (b : Bus) (l : List PlanStep) : Bus := l.foldl (fun b s => b.pass s.step) b

/-- A step whose error the driver returns fails, in its turn. -/
def CheckedFails : Bus → List PlanStep → Prop
  | _, [] => False
  | b, s :: l => s.checked = true ∧ b.Fails s.step ∨ CheckedFails (b.pass s.step) l

instance decidableCheckedFails : (b : Bus) → (l : List PlanStep) → Decidable (CheckedFails b l)
  | _, [] => isFalse id
  | b, s :: l => @instDecidableOr _ _ _ (decidableCheckedFails (b.pass s.step) l)

/-- Where the chunks of a block write begin, from byte `done` on: each goes up to the end of its window. -/
def chunkAddrs (addr : UInt32) (total done : Nat) : List UInt32 :=
  if done < total then
    let a := addr + UInt32.ofNat done
    a :: chunkAddrs addr total
      (done + min (total - done) (sbsdioSbOftAddrMask.toNat + 1 - (a &&& sbsdioSbOftAddrMask).toNat))
  else []
termination_by total - done
decreasing_by
  have h := sbOft_lt (addr + UInt32.ofNat done)
  have : sbsdioSbOftAddrMask.toNat = 0x7fff := rfl
  omega

/-- The steps of `cyw_bp_write_block`. -/
def blockSteps (addr : UInt32) (total : Nat) : List PlanStep :=
  (chunkAddrs addr total 0).map checkedAccess

section Steps

variable {b : Bus} {l l' : List PlanStep}

theorem passAll_append (b : Bus) (l l' : List PlanStep) : b.passAll (l ++ l') = (b.passAll l).passAll l' :=
  List.foldl_append

theorem passAll_accesses (b : Bus) (addrs : List UInt32) :
    b.passAll (accessSteps addrs) = addrs.foldl (fun b addr => b.pass (.access addr)) b := List.foldl_map

theorem checkedFails_append : CheckedFails b (l ++ l') ↔ CheckedFails b l ∨ CheckedFails (b.passAll l) l' := by
  induction l generalizing b with
  | nil => exact (or_iff_right id).symm
  | cons s l ih =>
    rw [List.cons_append, CheckedFails, CheckedFails, ih, or_assoc]
    rfl

/-- Steps the driver does not look at never end a run. -/
theorem not_checkedFails (b : Bus) (h : ∀ s ∈ l, s.checked = false) : ¬CheckedFails b l := by
  induction l generalizing b with
  | nil => exact id
  | cons s l ih =>
    rintro (hs | hl)
    · exact Bool.false_ne_true ((h s List.mem_cons_self).symm.trans hs.1)
    · exact ih _ (fun s hs => h s (List.mem_cons_of_mem _ hs)) hl

end Steps

/-! ## The way of the operations -/

section Port

variable (b : Bus) (addr : UInt32)

/-- A switch of the window looks at the port alone. -/
theorem cywSetBackplaneWindow_port :
    cywSetBackplaneWindow b.port addr = ((cywSetBackplaneWindow b addr).1, (cywSetBackplaneWindow b addr).2.port) := by
  by_cases hc : winBase addr = b.bpWindow
  · rw [cywSetBackplaneWindow_cached hc, cywSetBackplaneWindow_cached (show winBase addr = b.port.bpWindow from hc)]
  by_cases hl : b.next = 0
  · by_cases hm : b.tick.next = 0
    · by_cases hh : b.tick.tick.next = 0
      · rw [cywSetBackplaneWindow_ok hc hl hm hh]
        exact cywSetBackplaneWindow_ok (b := b.port) hc hl hm hh
      · rw [cywSetBackplaneWindow_err_high hc hl hm hh]
        exact cywSetBackplaneWindow_err_high (b := b.port) hc hl hm hh
    · rw [cywSetBackplaneWindow_err_mid hc hl hm]
      exact cywSetBackplaneWindow_err_mid (b := b.port) hc hl hm
  · rw [cywSetBackplaneWindow_err_low hc hl]
    exact cywSetBackplaneWindow_err_low (b := b.port) hc hl

variable {b addr}

theorem port_pass_ok (h : (cywSetBackplaneWindow b addr).1 = 0) :
    b.port.pass (.access addr) = (cywSetBackplaneWindow b addr).2.tick.port := by
  rw [Bus.pass, cywSetBackplaneWindow_port, if_pos h]
  rfl

theorem port_pass_err (h : (cywSetBackplaneWindow b addr).1 ≠ 0) :
    b.port.pass (.access addr) = (cywSetBackplaneWindow b addr).2.port := by
  rw [Bus.pass, cywSetBackplaneWindow_port, if_neg h]

theorem port_fails_access : b.port.Fails (.access addr) ↔ b.Fails (.access addr) := by
  rw [Bus.Fails, cywSetBackplaneWindow_port]
  rfl

theorem port_cywBpRead32 (b : Bus) (addr : UInt32) : (cywBpRead32 b addr).2.port = b.port.pass (.access addr) := by
  unfold cywBpRead32
  by_cases h : (cywSetBackplaneWindow b addr).1 = 0
  · rw [port_pass_ok h]
    simp only [h, ne_eq, not_true, if_false]
    rfl
  · rw [port_pass_err h]
    simp only [h, ne_eq, not_false_eq_true, if_true]

theorem port_writeExtended (b : Bus) (addr off : UInt32) (len : Nat) (buf : Nat → UInt8) :
    (b.writeExtended addr off len buf).2.port = b.tick.port := by
  unfold Bus.writeExtended
  dsimp only
  split <;> rfl

theorem port_cywBpWrite32 (b : Bus) (addr val : UInt32) :
    (cywBpWrite32 b addr val).port = b.port.pass (.access addr) := by
  unfold cywBpWrite32
  by_cases h : (cywSetBackplaneWindow b addr).1 = 0
  · rw [port_pass_ok h]
    simp only [h, ne_eq, not_true, if_false]
    exact port_writeExtended _ _ _ _ _
  · rw [port_pass_err h]
    simp only [h, ne_eq, not_false_eq_true, if_true]

end Port

/-! ## Runs that stop -/

/-- The run stops with `err` at the first step to fail whose error is returned; without one it ends at `p'`. -/
structure Walks (p : Bus) (l : List PlanStep) (err : Errno) (p' : Bus) : Prop where
  err_iff : err = 0 ↔ ¬CheckedFails p l
  port : err = 0 → p' = p.passAll l

namespace Walks

variable {p p₁ p₂ : Bus} {l l' : List PlanStep} {err : Errno}

theorem append (h : Walks p l 0 p₁) (h' : Walks p₁ l' err p₂) : Walks p (l ++ l') err p₂ := by
  have hp := h.port rfl
  have hl := h.err_iff.1 rfl
  subst hp
  constructor
  · rw [h'.err_iff, checkedFails_append, or_iff_right hl]
  · intro he
    rw [h'.port he, passAll_append]

theorem stop (h : Walks p l err p₁) (herr : err ≠ 0) (l' : List PlanStep) : Walks p (l ++ l') err p₂ := by
  have hl : CheckedFails p l := not_not.1 fun hn => herr (h.err_iff.2 hn)
  exact ⟨iff_of_false herr (not_not_intro (checkedFails_append.2 (.inl hl))), fun he => absurd he herr⟩

theorem unchecked (p : Bus) (h : ∀ s ∈ l, s.checked = false) : Walks p l 0 (p.passAll l) :=
  ⟨iff_of_true rfl (not_checkedFails p h), fun _ => rfl⟩

theorem accesses (p : Bus) (addrs : List UInt32) : Walks p (accessSteps addrs) 0 (p.passAll (accessSteps addrs)) := by
  refine unchecked p fun s hs => ?_
  obtain ⟨_, -, rfl⟩ := List.mem_map.1 hs
  rfl

theorem bytes (p : Bus) (n : Nat) : Walks p (byteSteps n) 0 (p.passAll (byteSteps n)) := by
  refine unchecked p fun s hs => ?_
  rw [List.eq_of_mem_replicate hs]

/-- One step whose error is returned. -/
theorem checked {s : PlanStep} (hs : s.checked = true) (herr : err = 0 ↔ ¬p.Fails s.step)
    (hp : err = 0 → p₁ = p.pass s.step) : Walks p [s] err p₁ := by
  refine ⟨?_, hp⟩
  rw [herr, CheckedFails, CheckedFails, or_false, and_iff_right hs]

theorem checkedByte (p : Bus) : Walks p [checkedByte] p.next p.tick :=
  checked rfl not_not.symm fun _ => rfl

end Walks

theorem cywBpWriteBlockLoop_walks (b : Bus) (addr : UInt32) (buf : Nat → UInt8) (total done : Nat) :
    Walks b.port ((chunkAddrs addr total done).map checkedAccess)
      (cywBpWriteBlockLoop b addr buf total done).1 (cywBpWriteBlockLoop b addr buf total done).2.port := by
  by_cases hlt : done < total
  · generalize ha : addr + UInt32.ofNat done = a
    generalize hchunk : min (total - done) (sbsdioSbOftAddrMask.toNat + 1 - (a &&& sbsdioSbOftAddrMask).toNat) = chunk
    have hpos : 0 < chunk := by
      have := sbOft_lt a
      have : sbsdioSbOftAddrMask.toNat = 0x7fff := rfl
      omega
    have haddrs : chunkAddrs addr total done = a :: chunkAddrs addr total (done + chunk) := by
      rw [chunkAddrs, if_pos hlt]
      simp only [ha, hchunk]
    rw [haddrs, List.map_cons, cywBpWriteBlockLoop, if_pos hlt]
    simp only [ha, hchunk]
    change Walks _ ([checkedAccess a] ++ _) _ _
    by_cases hs : (cywSetBackplaneWindow b a).1 = 0
    · simp only [hs, ne_eq, not_true, if_false]
      generalize hw : (cywSetBackplaneWindow b a).2.writeExtended a (a &&& sbsdioSbOftAddrMask) chunk
        (fun k => buf (done + k)) = r
      have herr : r.1 = (cywSetBackplaneWindow b a).2.next := by rw [← hw, Bus.writeExtended]
      have hport : r.2.port = b.port.pass (.access a) := by
        rw [← hw, port_writeExtended, port_pass_ok hs]
      have hstep : Walks b.port [checkedAccess a] r.1 r.2.port := by
        refine Walks.checked rfl ?_ fun _ => hport
        rw [checkedAccess, port_fails_access, Bus.Fails, hs, herr]
        simp
      by_cases hr : r.1 = 0
      · simp only [hr, not_true, if_false]
        rw [hr] at hstep
        exact hstep.append (cywBpWriteBlockLoop_walks r.2 addr buf total (done + chunk))
      · simp only [hr, not_false_eq_true, if_true]
        exact hstep.stop hr _
    · simp only [hs, ne_eq, not_false_eq_true, if_true]
      have hstep : Walks b.port [checkedAccess a] (cywSetBackplaneWindow b a).1 b.port := by
        refine Walks.checked rfl ?_ fun h => absurd h hs
        rw [checkedAccess, port_fails_access, Bus.Fails]
        exact iff_of_false hs (not_not_intro (.inl hs))
      exact hstep.stop hs _
  · rw [cywBpWriteBlockLoop_done hlt, chunkAddrs, if_neg hlt]
    exact Walks.accesses b.port []
termination_by total - done
decreasing_by omega

/-- A block write stops at the first chunk that fails. -/
theorem cywBpWriteBlock_walks (b : Bus) (addr : UInt32) (buf : Nat → UInt8) (total : Nat) :
    Walks b.port (blockSteps addr total) (cywBpWriteBlock b addr buf total).1
      (cywBpWriteBlock b addr buf total).2.port :=
  cywBpWriteBlockLoop_walks b addr buf total 0

end Cyw
