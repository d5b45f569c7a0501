import Rpi5Modules.Cyw.FwImages

/-!
# A block write as one copy

`cyw_bp_write_block` cuts a block at the ends of the 32 KB windows and transfers each piece through its own window. On a
bus without faults whose window the driver knows, the transfers lie one behind the other, none crosses the end of its
window (`cywBpWriteBlockLoop_tiles`), and the memory after them is the one flat copy leaves (`cywBpWriteBlock_flat`).
-/

namespace Cyw

open Memory

/-- The transfer does not reach beyond the window it starts in. -/
def Access.InWindow (a : Access) : Prop := a.addr.toNat % 0x8000 + a.len ≤ 0x8000

/-- The addresses of a transfer. -/
def Access.block (a : Access) : Nat × Nat := (a.addr.toNat, a.len)

theorem sbOft_eq (addr : UInt32) : (addr &&& sbsdioSbOftAddrMask).toNat = addr.toNat % 0x8000 := by
  rw [UInt32.toNat_and]
  exact Nat.and_two_pow_sub_one_eq_mod _ 15

namespace Bus.Ready

variable {b : Bus}

theorem setWindow_log (h : b.Ready) (addr : UInt32) :
    ∃ b', cywSetBackplaneWindow b addr = (0, b') ∧ b'.Ready ∧ b'.hwWindow = winBase addr ∧ b'.log = b.log := by
  obtain ⟨b', hb', hr, hw, -⟩ := h.setWindow addr
  have hlog := cywSetBackplaneWindow_log (b := b) addr
  rw [hb'] at hlog
  exact ⟨b', hb', hr, hw, hlog⟩

end Bus.Ready

/-- The transfers of the loop: one behind the other, each through its window and inside it. -/
theorem cywBpWriteBlockLoop_tiles {b : Bus} (h : b.Ready) (addr : UInt32) (buf : Nat → UInt8) {total done : Nat}
    (hle : done ≤ total) (hfit : addr.toNat + total ≤ 2 ^ 32) :
    ∃ acc, Issued b (cywBpWriteBlockLoop b addr buf total done).2 acc ∧
      Tiles (acc.map Access.block) (addr.toNat + done) (addr.toNat + total) ∧
      ∀ a ∈ acc, a.Through ∧ a.InWindow := by
  by_cases hlt : done < total
  · have ha : (addr + UInt32.ofNat done).toNat = addr.toNat + done := by
      rw [UInt32.toNat_add, UInt32.toNat_ofNat']
      omega
    have hoft := sbOft_eq (addr + UInt32.ofNat done)
    rw [cywBpWriteBlockLoop, if_pos hlt]
    generalize addr + UInt32.ofNat done = a at ha hoft
    generalize hchunk : min (total - done) (sbsdioSbOftAddrMask.toNat + 1 - (a &&& sbsdioSbOftAddrMask).toNat) = chunk
    have hmask : sbsdioSbOftAddrMask.toNat = 0x7fff := rfl
    have hpos : 0 < chunk ∧ done + chunk ≤ total ∧ a.toNat % 0x8000 + chunk ≤ 0x8000 := by omega
    obtain ⟨b₁, hb₁, hr₁, hw₁, hl₁⟩ := h.setWindow_log a
    obtain ⟨b₂, hb₂, hr₂, -⟩ := writeExtended_mem hr₁ hw₁ chunk fun k => buf (done + k)
    have hl₂ := writeExtended_log (b := b₁) a (a &&& sbsdioSbOftAddrMask) chunk fun k => buf (done + k)
    rw [hb₂, hw₁, hl₁] at hl₂
    obtain ⟨acc, hacc, htiles, hin⟩ := cywBpWriteBlockLoop_tiles hr₂ addr buf hpos.2.1 hfit
    refine ⟨⟨a, winBase a, chunk⟩ :: acc, ?_, ⟨ha, ?_⟩, ?_⟩
    · simp only [hchunk, hb₁, hb₂, ne_eq, not_true, if_false]
      rw [Issued, hacc, hl₂, List.append_assoc, List.singleton_append]
    · rw [Nat.add_assoc]
      exact htiles
    · exact List.forall_mem_cons.2 ⟨⟨rfl, hpos.2.2⟩, hin⟩
  · obtain rfl : done = total := by omega
    refine ⟨[], ?_, rfl, fun a ha => by cases ha⟩
    rw [cywBpWriteBlockLoop_done hlt, Issued, List.append_nil]
termination_by total - done
decreasing_by omega

/-- **Windowed block write**: the loop ends without error, every transfer stays inside its window and goes through it,
every byte of the block is transferred once and to its place, and nothing else is. -/
theorem cywBpWriteBlock_flat {b : Bus} (h : b.Ready) (addr : UInt32) (buf : Nat → UInt8) (total : Nat)
    (hfit : addr.toNat + total ≤ 2 ^ 32) :
    ∃ b' acc, cywBpWriteBlock b addr buf total = (0, b') ∧ b'.Ready ∧ b'.log = b.log ++ acc ∧
      (∀ a ∈ acc, a.Through ∧ a.InWindow) ∧
      (∀ x, (acc.map Access.block).countP (inBlock x) =
        if addr.toNat ≤ x ∧ x < addr.toNat + total then 1 else 0) ∧
      (∀ k < total, b'.mem (addr + UInt32.ofNat k) = buf k) ∧
      ∀ a, (∀ k < total, a ≠ addr + UInt32.ofNat k) → b'.mem a = b.mem a := by
  obtain ⟨b', hb', hr, hmem⟩ := cywBpWriteBlock_spec h addr buf total
  obtain ⟨acc, hacc, htiles, hin⟩ := cywBpWriteBlockLoop_tiles h addr buf (Nat.zero_le total) hfit
  have hm := hmem (by omega)
  have hlog : b'.log = b.log ++ acc := by
    rw [← hacc]
    exact congrArg (fun r : Errno × Bus => r.2.log) hb'.symm
  refine ⟨b', acc, hb', hr, hlog, hin, htiles.countP_eq, fun k hk => ?_, fun a ha => ?_⟩
  · have hoff : (addr + UInt32.ofNat k - addr).toNat = k := by
      rw [UInt32.add_comm, UInt32.add_sub_cancel, UInt32.toNat_ofNat']
      omega
    rw [hm, store, hoff, if_pos hk]
  · have hoff : ¬(a - addr).toNat < total := by
      intro hlt
      apply ha _ hlt
      rw [UInt32.ofNat_toNat, UInt32.add_comm, UInt32.sub_add_cancel]
    rw [hm, store, if_neg hoff]

/-- Three bytes written two bytes below the end of a window: two transfers. -/
theorem cywBpWriteBlock_flat_across :
    ∃ b' acc, cywBpWriteBlock (Bus.start 0 0 0 (fun _ => 0) []) 0x7ffe (fun k => UInt8.ofNat (k + 1)) 3 = (0, b') ∧
      b'.log = [] ++ acc ∧ (∀ a ∈ acc, a.Through ∧ a.InWindow) ∧
      b'.mem (0x7ffe + UInt32.ofNat 2) = UInt8.ofNat (2 + 1) := by
  obtain ⟨b', acc, hb', -, hlog, hin, -, hmem, -⟩ :=
    cywBpWriteBlock_flat (b := Bus.start 0 0 0 (fun _ => 0) []) ⟨rfl, rfl⟩ 0x7ffe (fun k => UInt8.ofNat (k + 1)) 3
      (by decide)
  exact ⟨b', acc, hb', hlog, hin, hmem 2 (by decide)⟩

end Cyw
