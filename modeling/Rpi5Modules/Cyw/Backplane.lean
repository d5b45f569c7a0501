import Rpi5Modules.Cyw.Defs
import Rpi5Modules.Lib.Transition

/-!
# The F1 backplane window

The chip shows 32 KB of its backplane at a time; three byte registers (SBADDRLOW/MID/HIGH) select which. The driver
caches the selected window in `bp_window` and reprograms the registers only when the cache says they differ.

The bus is modelled with its faults: `faults` holds the outcome of each bus operation to come (`0` for success, and
success once the list is used up). Every data access that is issued is logged with the address the driver means and
the window the chip has at that moment.

- a switch of the window that succeeds leaves registers and cache at the new window (`cywSetBackplaneWindow_spec`);
  one that fails part-way leaves the registers at a mix of two windows and the cache at the old one
  (`cywSetBackplaneWindow_err_mid`, `cywSetBackplaneWindow_err_high`);
- the accesses of a run all go through their own window exactly when no call starts at the cached window while the
  registers hold another one (`bp_access_iff`).
-/

namespace Cyw

def sbsdioSbOftAddrMask : UInt32 := 0x00007fff
def sbsdioSbAccess24bFlag : UInt32 := 0x00008000

/-- `addr & ~SBSDIO_SB_OFT_ADDR_MASK`. -/
def winBase (addr : UInt32) : UInt32 := addr &&& ~~~sbsdioSbOftAddrMask

/-- A data access that was issued: the backplane address the driver means, the chip's window at that moment, and the
number of bytes. -/
structure Access where
  addr : UInt32
  window : UInt32
  len : Nat

/-- The access goes through the window of its address. -/
def Access.Through (a : Access) : Prop := a.window = winBase a.addr

instance (a : Access) : Decidable a.Through := inferInstanceAs (Decidable (_ = _))

/-- The chip's window registers and backplane memory, the driver's cached window, the outcomes of the bus operations
to come, and the data accesses issued so far. -/
structure Bus where
  sbaddrLow : UInt8
  sbaddrMid : UInt8
  sbaddrHigh : UInt8
  mem : UInt32 → UInt8
  bpWindow : UInt32
  faults : List Errno
  log : List Access

/-- The window the three registers select. -/
def Bus.hwWindow (b : Bus) : UInt32 :=
  b.sbaddrHigh.toUInt32 <<< 24 ||| b.sbaddrMid.toUInt32 <<< 16 ||| b.sbaddrLow.toUInt32 <<< 8

/-- The outcome of the next bus operation. -/
def Bus.next (b : Bus) : Errno := b.faults.headD 0

/-- A bus operation takes place. -/
def Bus.tick (b : Bus) : Bus := { b with faults := b.faults.tail }

/-! ## Bus operations -/

/-- `sdio_write_1` of SBADDRLOW; a failed write leaves the byte as it is. -/
def Bus.writeLow (b : Bus) (val : UInt8) : Errno × Bus :=
  (b.next, if b.next = 0 then { b.tick with sbaddrLow := val } else b.tick)

/-- `sdio_write_1` of SBADDRMID. -/
def Bus.writeMid (b : Bus) (val : UInt8) : Errno × Bus :=
  (b.next, if b.next = 0 then { b.tick with sbaddrMid := val } else b.tick)

/-- `sdio_write_1` of SBADDRHIGH. -/
def Bus.writeHigh (b : Bus) (val : UInt8) : Errno × Bus :=
  (b.next, if b.next = 0 then { b.tick with sbaddrHigh := val } else b.tick)

/-- The backplane address an F1 offset selects through the window. -/
def Bus.target (b : Bus) (f1Off : UInt32) : UInt32 := b.hwWindow + (f1Off &&& sbsdioSbOftAddrMask)

/-- Issues a data access meant for `addr`. -/
def Bus.issue (b : Bus) (addr : UInt32) (len : Nat) : Bus :=
  { b.tick with log := b.log ++ [⟨addr, b.hwWindow, len⟩] }

/-- `sdio_read_4`: all ones when the transfer fails. -/
def Bus.read4 (b : Bus) (addr f1Off : UInt32) : UInt32 × Bus :=
  (if b.next = 0 then (BufProg.le32 0).result fun k => b.mem (b.target f1Off + UInt32.ofNat k) else 0xffffffff,
    b.issue addr 4)

/-- `SDIO_WRITE_EXTENDED` to F1 with incrementing address: byte `k` goes to offset `f1Off + k`. -/
def Bus.writeExtended (b : Bus) (addr f1Off : UInt32) (len : Nat) (buf : Nat → UInt8) : Errno × Bus :=
  (b.next,
    if b.next = 0 then
      { b.issue addr len with
        mem := fun a => if (a - b.target f1Off).toNat < len then buf (a - b.target f1Off).toNat else b.mem a }
    else b.issue addr len)

/-- The bytes of a little-endian word. -/
def le32Bytes (val : UInt32) (k : Nat) : UInt8 := (val >>> UInt32.ofNat (8 * k)).toUInt8

/-- `sdio_write_4`. -/
def Bus.write4 (b : Bus) (addr f1Off val : UInt32) : Bus := (b.writeExtended addr f1Off 4 (le32Bytes val)).2

/-! ## The driver -/

/-- `cyw_set_backplane_window(sc, addr)`. -/
def cywSetBackplaneWindow (b : Bus) (addr : UInt32) : Errno × Bus :=
  let newWin := winBase addr
  if newWin = b.bpWindow then (0, b)
  else
    let (err, b) := b.writeLow ((newWin >>> 8) &&& 0xff).toUInt8
    if err ≠ 0 then (err, b)
    else
      let (err, b) := b.writeMid ((newWin >>> 16) &&& 0xff).toUInt8
      if err ≠ 0 then (err, b)
      else
        let (err, b) := b.writeHigh ((newWin >>> 24) &&& 0xff).toUInt8
        if err ≠ 0 then (err, b) else (0, { b with bpWindow := newWin })

/-- `cyw_bp_read32(sc, addr)`. -/
def cywBpRead32 (b : Bus) (addr : UInt32) : UInt32 × Bus :=
  let (err, b) := cywSetBackplaneWindow b addr
  if err ≠ 0 then (0xffffffff, b)
  else b.read4 addr ((addr &&& sbsdioSbOftAddrMask) ||| sbsdioSbAccess24bFlag)

/-- `cyw_bp_write32(sc, addr, val)`. -/
def cywBpWrite32 (b : Bus) (addr val : UInt32) : Bus :=
  let (err, b) := cywSetBackplaneWindow b addr
  if err ≠ 0 then b
  else b.write4 addr ((addr &&& sbsdioSbOftAddrMask) ||| sbsdioSbAccess24bFlag) val

theorem sbOft_lt (addr : UInt32) : (addr &&& sbsdioSbOftAddrMask).toNat < 0x8000 := by
  rw [UInt32.toNat_and]
  exact Nat.lt_of_le_of_lt Nat.and_le_right (by decide)

/-- The loop of `cyw_bp_write_block`, with `done` bytes written: one chunk goes up to the end of its window. -/
def cywBpWriteBlockLoop (b : Bus) (addr : UInt32) (buf : Nat → UInt8) (total done : Nat) : Errno × Bus :=
  if done < total then
    let f1Off := (addr + UInt32.ofNat done) &&& sbsdioSbOftAddrMask
    let chunk := min (total - done) (sbsdioSbOftAddrMask.toNat + 1 - f1Off.toNat)
    let (err, b) := cywSetBackplaneWindow b (addr + UInt32.ofNat done)
    if err ≠ 0 then (err, b)
    else
      let (err, b) := b.writeExtended (addr + UInt32.ofNat done) f1Off chunk fun k => buf (done + k)
      if err ≠ 0 then (err, b) else cywBpWriteBlockLoop b addr buf total (done + chunk)
  else (0, b)
termination_by total - done
decreasing_by
  have h := sbOft_lt (addr + UInt32.ofNat done)
  have : sbsdioSbOftAddrMask.toNat = 0x7fff := rfl
  omega

/-- `cyw_bp_write_block(sc, addr, buf, total)`. -/
def cywBpWriteBlock (b : Bus) (addr : UInt32) (buf : Nat → UInt8) (total : Nat) : Errno × Bus :=
  cywBpWriteBlockLoop b addr buf total 0

/-! ## The three bytes make up the window -/

theorem getLsbD_ff (k : Nat) : (0xff#32).getLsbD k = decide (k < 8) := by
  rcases Nat.lt_or_ge k 32 with h | h
  · revert k
    decide
  · rw [BitVec.getLsbD_of_ge _ _ h]
    exact (decide_eq_false (by omega)).symm

/-- A byte of a word, put back where it was. -/
theorem getLsbD_byteAt (x : BitVec 32) (k : Nat) {i : Nat} (hi : i < 32) :
    (((x >>> k &&& 0xff).setWidth 8).setWidth 32 <<< k).getLsbD i = (decide (k ≤ i ∧ i < k + 8) && x.getLsbD i) := by
  have hff : (0xff : BitVec 32).getLsbD (i - k) = decide (i - k < 8) := getLsbD_ff (i - k)
  rw [BitVec.getLsbD_shiftLeft, BitVec.getLsbD_setWidth, BitVec.getLsbD_setWidth, BitVec.getLsbD_and,
    BitVec.getLsbD_ushiftRight, hff]
  rcases Nat.lt_or_ge i k with h | h
  · simp [h, Nat.not_le.2 h]
  · have hlt : decide (i - k < 8) = decide (i < k + 8) := decide_eq_decide.2 (by omega)
    have hlt' : i - k < 32 := by omega
    rw [Nat.add_sub_cancel' h, hlt, Bool.decide_and]
    cases decide (i < k + 8) <;> simp [hi, h, hlt', Nat.not_lt.2 h]

theorem join_bytes (x : BitVec 32) :
    ((x >>> 24 &&& 0xff).setWidth 8).setWidth 32 <<< 24 ||| ((x >>> 16 &&& 0xff).setWidth 8).setWidth 32 <<< 16 |||
      ((x >>> 8 &&& 0xff).setWidth 8).setWidth 32 <<< 8 = x &&& 0xffffff00#32 := by
  have hmask : ∀ k < 32, (0xffffff00#32).getLsbD k = decide (8 ≤ k) := by decide
  apply BitVec.eq_of_getLsbD_eq
  intro i hi
  rw [BitVec.getLsbD_or, BitVec.getLsbD_or, BitVec.getLsbD_and, getLsbD_byteAt x 24 hi, getLsbD_byteAt x 16 hi,
    getLsbD_byteAt x 8 hi, hmask i hi]
  grind

/-- The registers written with the bytes of a window base select that window. -/
theorem hwWindow_programmed {b : Bus} {addr : UInt32}
    (hl : b.sbaddrLow = ((winBase addr >>> 8) &&& 0xff).toUInt8)
    (hm : b.sbaddrMid = ((winBase addr >>> 16) &&& 0xff).toUInt8)
    (hh : b.sbaddrHigh = ((winBase addr >>> 24) &&& 0xff).toUInt8) : b.hwWindow = winBase addr := by
  have hbase : winBase addr &&& 0xffffff00 = winBase addr := by
    unfold winBase
    rw [UInt32.and_assoc]
    rfl
  have hjoin : b.hwWindow = winBase addr &&& 0xffffff00 := by
    apply UInt32.eq_of_toBitVec_eq
    rw [Bus.hwWindow, hl, hm, hh]
    exact join_bytes (winBase addr).toBitVec
  rw [hjoin, hbase]

/-! ## What a switch of the window does -/

/-- The driver may take the short cut for `addr`: if the cached window is the one of `addr`, the registers hold it. -/
def ShortcutOk (b : Bus) (addr : UInt32) : Prop := winBase addr = b.bpWindow → b.hwWindow = b.bpWindow

instance (b : Bus) (addr : UInt32) : Decidable (ShortcutOk b addr) := inferInstanceAs (Decidable (_ → _))

section SetWindow

variable (b : Bus)

theorem writeLow_ok {v : UInt8} (h : b.next = 0) : b.writeLow v = (0, { b.tick with sbaddrLow := v }) := by
  simp only [Bus.writeLow, h, if_true]

theorem writeLow_err {v : UInt8} (h : b.next ≠ 0) : b.writeLow v = (b.next, b.tick) := by
  simp only [Bus.writeLow, h, if_false]

theorem writeMid_ok {v : UInt8} (h : b.next = 0) : b.writeMid v = (0, { b.tick with sbaddrMid := v }) := by
  simp only [Bus.writeMid, h, if_true]

theorem writeMid_err {v : UInt8} (h : b.next ≠ 0) : b.writeMid v = (b.next, b.tick) := by
  simp only [Bus.writeMid, h, if_false]

theorem writeHigh_ok {v : UInt8} (h : b.next = 0) : b.writeHigh v = (0, { b.tick with sbaddrHigh := v }) := by
  simp only [Bus.writeHigh, h, if_true]

theorem writeHigh_err {v : UInt8} (h : b.next ≠ 0) : b.writeHigh v = (b.next, b.tick) := by
  simp only [Bus.writeHigh, h, if_false]

variable {b} {addr : UInt32}

theorem cywSetBackplaneWindow_cached (hc : winBase addr = b.bpWindow) : cywSetBackplaneWindow b addr = (0, b) := by
  simp only [cywSetBackplaneWindow, hc, if_true]

/-- A switch whose first register write fails leaves the registers as they were. -/
theorem cywSetBackplaneWindow_err_low (hc : winBase addr ≠ b.bpWindow) (hl : b.next ≠ 0) :
    cywSetBackplaneWindow b addr = (b.next, b.tick) := by
  simp only [cywSetBackplaneWindow, hc, if_false, writeLow_err b hl, ne_eq, hl, not_false_eq_true, if_true]

/-- **Where the mix comes from**: a switch that fails after its first write leaves the low byte of the new window
under the cache of the old one. -/
theorem cywSetBackplaneWindow_err_mid (hc : winBase addr ≠ b.bpWindow) (hl : b.next = 0) (hm : b.tick.next ≠ 0) :
    cywSetBackplaneWindow b addr =
      (b.tick.next, { b.tick.tick with sbaddrLow := ((winBase addr >>> 8) &&& 0xff).toUInt8 }) := by
  have hm' : ({ b.tick with sbaddrLow := ((winBase addr >>> 8) &&& 0xff).toUInt8 } : Bus).next ≠ 0 := hm
  simp only [cywSetBackplaneWindow, hc, if_false, writeLow_ok b hl, writeMid_err _ hm', ne_eq, not_true, hm',
    not_false_eq_true, if_true]
  rfl

/-- The same when the third write fails: two bytes of the new window. -/
theorem cywSetBackplaneWindow_err_high (hc : winBase addr ≠ b.bpWindow) (hl : b.next = 0) (hm : b.tick.next = 0)
    (hh : b.tick.tick.next ≠ 0) :
    cywSetBackplaneWindow b addr =
      (b.tick.tick.next,
        { b.tick.tick.tick with
          sbaddrLow := ((winBase addr >>> 8) &&& 0xff).toUInt8
          sbaddrMid := ((winBase addr >>> 16) &&& 0xff).toUInt8 }) := by
  have hm' : ({ b.tick with sbaddrLow := ((winBase addr >>> 8) &&& 0xff).toUInt8 } : Bus).next = 0 := hm
  have hh' : ({ ({ b.tick with sbaddrLow := ((winBase addr >>> 8) &&& 0xff).toUInt8 } : Bus).tick with
      sbaddrMid := ((winBase addr >>> 16) &&& 0xff).toUInt8 } : Bus).next ≠ 0 := hh
  simp only [cywSetBackplaneWindow, hc, if_false, writeLow_ok b hl, writeMid_ok _ hm', writeHigh_err _ hh', ne_eq,
    not_true, hh', not_false_eq_true, if_true]
  rfl

theorem cywSetBackplaneWindow_ok (hc : winBase addr ≠ b.bpWindow) (hl : b.next = 0) (hm : b.tick.next = 0)
    (hh : b.tick.tick.next = 0) :
    cywSetBackplaneWindow b addr =
      (0,
        { b.tick.tick.tick with
          sbaddrLow := ((winBase addr >>> 8) &&& 0xff).toUInt8
          sbaddrMid := ((winBase addr >>> 16) &&& 0xff).toUInt8
          sbaddrHigh := ((winBase addr >>> 24) &&& 0xff).toUInt8
          bpWindow := winBase addr }) := by
  have hm' : ({ b.tick with sbaddrLow := ((winBase addr >>> 8) &&& 0xff).toUInt8 } : Bus).next = 0 := hm
  have hh' : ({ ({ b.tick with sbaddrLow := ((winBase addr >>> 8) &&& 0xff).toUInt8 } : Bus).tick with
      sbaddrMid := ((winBase addr >>> 16) &&& 0xff).toUInt8 } : Bus).next = 0 := hh
  simp only [cywSetBackplaneWindow, hc, if_false, writeLow_ok b hl, writeMid_ok _ hm', writeHigh_ok _ hh', ne_eq,
    not_true]
  rfl

/-- The window is cached and nothing happens, or it is switched, or a register write fails and the cache stays. -/
theorem cywSetBackplaneWindow_spec (b : Bus) (addr : UInt32) :
    (winBase addr = b.bpWindow ∧ cywSetBackplaneWindow b addr = (0, b)) ∨
      (winBase addr ≠ b.bpWindow ∧ (cywSetBackplaneWindow b addr).1 = 0 ∧
        (cywSetBackplaneWindow b addr).2.bpWindow = winBase addr ∧
        (cywSetBackplaneWindow b addr).2.hwWindow = winBase addr ∧
        (cywSetBackplaneWindow b addr).2.log = b.log) ∨
      (winBase addr ≠ b.bpWindow ∧ (cywSetBackplaneWindow b addr).1 ≠ 0 ∧
        (cywSetBackplaneWindow b addr).2.bpWindow = b.bpWindow ∧
        (cywSetBackplaneWindow b addr).2.log = b.log) := by
  by_cases hc : winBase addr = b.bpWindow
  · exact .inl ⟨hc, cywSetBackplaneWindow_cached hc⟩
  by_cases hl : b.next = 0
  · by_cases hm : b.tick.next = 0
    · by_cases hh : b.tick.tick.next = 0
      · rw [cywSetBackplaneWindow_ok hc hl hm hh]
        exact .inr (.inl ⟨hc, rfl, rfl, hwWindow_programmed rfl rfl rfl, rfl⟩)
      · rw [cywSetBackplaneWindow_err_high hc hl hm hh]
        exact .inr (.inr ⟨hc, hh, rfl, rfl⟩)
    · rw [cywSetBackplaneWindow_err_mid hc hl hm]
      exact .inr (.inr ⟨hc, hm, rfl, rfl⟩)
  · rw [cywSetBackplaneWindow_err_low hc hl]
    exact .inr (.inr ⟨hc, hl, rfl, rfl⟩)

end SetWindow

/-! ## The accesses of one call -/

/-- A call of the backplane interface. -/
inductive BpCall where
  | read32 (addr : UInt32)
  | write32 (addr val : UInt32)
  | writeBlock (addr : UInt32) (buf : Nat → UInt8) (total : Nat)

/-- The bus after the call. -/
def BpCall.exec (b : Bus) : BpCall → Bus
  | read32 addr => (cywBpRead32 b addr).2
  | write32 addr val => cywBpWrite32 b addr val
  | writeBlock addr buf total => (cywBpWriteBlock b addr buf total).2

/-- The call has something to transfer, and starts at `addr`. -/
def BpCall.StartsAt : BpCall → UInt32 → Prop
  | read32 addr, a => a = addr
  | write32 addr _, a => a = addr
  | writeBlock addr _ total, a => 0 < total ∧ a = addr

/-- The call does not start in the cached window while the registers hold another one. -/
def NoStaleShortcut (b : Bus) (c : BpCall) : Prop := ∀ addr, c.StartsAt addr → ShortcutOk b addr

/-- The accesses issued since `b` are those of `acc`. -/
def Issued (b b' : Bus) (acc : List Access) : Prop := b'.log = b.log ++ acc

section Calls

variable {b : Bus}

/-- One access after a switch that did not fail goes through its window iff the short cut was in order. -/
theorem access_through {addr : UInt32} (h : (cywSetBackplaneWindow b addr).1 = 0) (len : Nat) :
    (⟨addr, (cywSetBackplaneWindow b addr).2.hwWindow, len⟩ : Access).Through ↔ ShortcutOk b addr := by
  rcases cywSetBackplaneWindow_spec b addr with ⟨hc, hr⟩ | ⟨hc, -, -, hw, -⟩ | ⟨-, he, -⟩
  · rw [hr]
    exact ⟨fun ht _ => hc ▸ ht, fun hs => (hs hc).trans hc.symm⟩
  · exact ⟨fun _ hn => absurd hn hc, fun _ => hw⟩
  · exact absurd h he

theorem shortcutOk_of_err {addr : UInt32} (h : (cywSetBackplaneWindow b addr).1 ≠ 0) : ShortcutOk b addr := by
  rcases cywSetBackplaneWindow_spec b addr with ⟨-, hr⟩ | ⟨hc, -⟩ | ⟨hc, -⟩
  · exact absurd (by rw [hr]) h
  · exact fun hn => absurd hn hc
  · exact fun hn => absurd hn hc

theorem cywSetBackplaneWindow_log (addr : UInt32) : (cywSetBackplaneWindow b addr).2.log = b.log := by
  rcases cywSetBackplaneWindow_spec b addr with ⟨-, hr⟩ | ⟨-, -, -, -, hl⟩ | ⟨-, -, -, hl⟩
  · rw [hr]
  · exact hl
  · exact hl

/-- If the first access goes through its window, registers and cache agree from there on. -/
theorem coherent_of_through {addr : UInt32} (h : (cywSetBackplaneWindow b addr).1 = 0) (hs : ShortcutOk b addr) :
    (cywSetBackplaneWindow b addr).2.hwWindow = (cywSetBackplaneWindow b addr).2.bpWindow := by
  rcases cywSetBackplaneWindow_spec b addr with ⟨hc, hr⟩ | ⟨-, -, hb, hw, -⟩ | ⟨-, he, -⟩
  · rw [hr]
    exact hs hc
  · rw [hb, hw]
  · exact absurd h he

/-- The bus after a word transfer: one access if the window could be selected, none otherwise. -/
theorem word_issued {b' : Bus} {addr : UInt32}
    (hok : (cywSetBackplaneWindow b addr).1 = 0 →
      b'.log = b.log ++ [⟨addr, (cywSetBackplaneWindow b addr).2.hwWindow, 4⟩])
    (herr : (cywSetBackplaneWindow b addr).1 ≠ 0 → b'.log = b.log) :
    ∃ acc, Issued b b' acc ∧ ((∀ a ∈ acc, a.Through) ↔ ShortcutOk b addr) := by
  by_cases h : (cywSetBackplaneWindow b addr).1 = 0
  · refine ⟨_, hok h, ?_⟩
    simp only [List.mem_singleton, forall_eq]
    exact access_through h 4
  · exact ⟨[], by rw [Issued, herr h, List.append_nil], by simp [shortcutOk_of_err h]⟩

theorem cywBpRead32_issued (addr : UInt32) :
    ∃ acc, Issued b (cywBpRead32 b addr).2 acc ∧ ((∀ a ∈ acc, a.Through) ↔ ShortcutOk b addr) := by
  refine word_issued (fun h => ?_) (fun h => ?_)
  · simp only [cywBpRead32, h, ne_eq, not_true, if_false, Bus.read4, Bus.issue, Bus.tick, cywSetBackplaneWindow_log]
  · simp only [cywBpRead32, ne_eq, h, not_false_eq_true, if_true, cywSetBackplaneWindow_log]

theorem writeExtended_log (addr off : UInt32) (len : Nat) (buf : Nat → UInt8) :
    (b.writeExtended addr off len buf).2.log = b.log ++ [⟨addr, b.hwWindow, len⟩] := by
  unfold Bus.writeExtended
  split <;> rfl

theorem cywBpWrite32_issued (addr val : UInt32) :
    ∃ acc, Issued b (cywBpWrite32 b addr val) acc ∧ ((∀ a ∈ acc, a.Through) ↔ ShortcutOk b addr) := by
  refine word_issued (fun h => ?_) (fun h => ?_)
  · simp only [cywBpWrite32, h, ne_eq, not_true, if_false, Bus.write4, writeExtended_log, cywSetBackplaneWindow_log]
  · simp only [cywBpWrite32, ne_eq, h, not_false_eq_true, if_true, cywSetBackplaneWindow_log]

/-! ### Blocks -/

theorem cywBpWriteBlockLoop_done {addr : UInt32} {buf : Nat → UInt8} {total done : Nat} (h : ¬done < total) :
    cywBpWriteBlockLoop b addr buf total done = (0, b) := by
  rw [cywBpWriteBlockLoop, if_neg h]

/-- The first chunk decides: if it goes through its window, so do all that follow it. -/
theorem cywBpWriteBlockLoop_issued (b : Bus) (addr : UInt32) (buf : Nat → UInt8) {total done : Nat}
    (hlt : done < total) :
    ∃ acc, Issued b (cywBpWriteBlockLoop b addr buf total done).2 acc ∧
      ((∀ a ∈ acc, a.Through) ↔ ShortcutOk b (addr + UInt32.ofNat done)) := by
  generalize ha : addr + UInt32.ofNat done = a
  generalize hchunk : min (total - done) (sbsdioSbOftAddrMask.toNat + 1 - (a &&& sbsdioSbOftAddrMask).toNat) = chunk
  have hpos : 0 < chunk := by
    have := sbOft_lt a
    have : sbsdioSbOftAddrMask.toNat = 0x7fff := rfl
    omega
  rw [cywBpWriteBlockLoop, if_pos hlt]
  simp only [ha, hchunk]
  by_cases h : (cywSetBackplaneWindow b a).1 = 0
  · simp only [h, ne_eq, not_true, if_false]
    generalize hb₁ : (cywSetBackplaneWindow b a).2 = b₁
    generalize hw : b₁.writeExtended a (a &&& sbsdioSbOftAddrMask) chunk (fun k => buf (done + k)) = r
    have hlog : r.2.log = b.log ++ [⟨a, b₁.hwWindow, chunk⟩] := by
      rw [← hw, writeExtended_log, ← hb₁, cywSetBackplaneWindow_log]
    have hthrough : (⟨a, b₁.hwWindow, chunk⟩ : Access).Through ↔ ShortcutOk b a := hb₁ ▸ access_through h chunk
    have hwin : r.2.hwWindow = b₁.hwWindow ∧ r.2.bpWindow = b₁.bpWindow := by
      rw [← hw]
      unfold Bus.writeExtended
      split <;> exact ⟨rfl, rfl⟩
    by_cases he : r.1 = 0 ∧ done + chunk < total
    · simp only [he.1, not_true, if_false]
      obtain ⟨acc, hacc, hiff⟩ := cywBpWriteBlockLoop_issued r.2 addr buf he.2
      refine ⟨⟨a, b₁.hwWindow, chunk⟩ :: acc, ?_, ?_⟩
      · rw [Issued, hacc, hlog, List.append_assoc, List.singleton_append]
      · rw [List.forall_mem_cons, hthrough, hiff]
        refine ⟨And.left, fun hs => ⟨hs, fun _ => ?_⟩⟩
        rw [hwin.1, hwin.2, ← hb₁]
        exact coherent_of_through h hs
    · refine ⟨[⟨a, b₁.hwWindow, chunk⟩], ?_, by simpa using hthrough⟩
      by_cases hr : r.1 = 0
      · simp only [hr, not_true, if_false]
        rw [cywBpWriteBlockLoop_done fun hlt' => he ⟨hr, hlt'⟩]
        exact hlog
      · simp only [hr, not_false_eq_true, if_true]
        exact hlog
  · simp only [ne_eq, h, not_false_eq_true, if_true]
    refine ⟨[], ?_, by simp [shortcutOk_of_err h]⟩
    rw [Issued, cywSetBackplaneWindow_log, List.append_nil]
termination_by total - done
decreasing_by omega

theorem exec_issued (b : Bus) (c : BpCall) :
    ∃ acc, Issued b (c.exec b) acc ∧ ((∀ a ∈ acc, a.Through) ↔ NoStaleShortcut b c) := by
  cases c with
  | read32 addr => simpa [BpCall.exec, NoStaleShortcut, BpCall.StartsAt] using cywBpRead32_issued addr
  | write32 addr val => simpa [BpCall.exec, NoStaleShortcut, BpCall.StartsAt] using cywBpWrite32_issued addr val
  | writeBlock addr buf total =>
    by_cases h : 0 < total
    · have := cywBpWriteBlockLoop_issued b addr buf h
      simpa [BpCall.exec, cywBpWriteBlock, NoStaleShortcut, BpCall.StartsAt, h] using this
    · refine ⟨[], ?_, by simp [NoStaleShortcut, BpCall.StartsAt, h]⟩
      rw [Issued, BpCall.exec, cywBpWriteBlock, cywBpWriteBlockLoop_done h, List.append_nil]

end Calls

/-! ## Runs -/

/-- The bus with `bp_window` equal to the window the registers select, before any access; `faults` says how each of
the bus operations to come ends. -/
def Bus.start (low mid high : UInt8) (mem : UInt32 → UInt8) (faults : List Errno) : Bus where
  sbaddrLow := low
  sbaddrMid := mid
  sbaddrHigh := high
  mem := mem
  bpWindow := high.toUInt32 <<< 24 ||| mid.toUInt32 <<< 16 ||| low.toUInt32 <<< 8
  faults := faults
  log := []

def bpStep (b : Bus) (c : BpCall) : Option Bus := some (c.exec b)

/-- Every access issued so far went through the window of its address. -/
def AllThrough (b : Bus) : Prop := ∀ a ∈ b.log, a.Through

/-- **Backplane window coherence**: on a bus that starts coherent, with whatever faults and whatever calls, every
data access goes through the window of its address exactly when no call starts in the cached window while the
registers hold another one. -/
theorem bp_access_iff (low mid high : UInt8) (mem : UInt32 → UInt8) (faults : List Errno) (calls : List BpCall) :
    Transition.AllStates bpStep AllThrough (Bus.start low mid high mem faults) calls ↔
      Transition.AllSteps bpStep NoStaleShortcut (Bus.start low mid high mem faults) calls := by
  have hstep : ∀ b c b', bpStep b c = some b' →
      ∃ acc, Issued b b' acc ∧ ((∀ a ∈ acc, a.Through) ↔ NoStaleShortcut b c) := by
    rintro b c b' ⟨⟩
    exact exec_issued b c
  refine Transition.allStates_iff (I := AllThrough) ?_ (fun _ h => h) ?_ (fun a ha => by cases ha)
  · intro b c b' hb hc hs
    obtain ⟨acc, hacc, hiff⟩ := hstep b c b' hs
    intro a ha
    rw [hacc, List.mem_append] at ha
    exact ha.elim (hb a) (hiff.2 hc a)
  · intro b c b' _ hs hb'
    obtain ⟨acc, hacc, hiff⟩ := hstep b c b' hs
    exact hiff.1 fun a ha => hb' a (by rw [hacc]; exact List.mem_append_right _ ha)

/-- The write of SBADDRMID fails on the way from window 0 to 0x18000; the read of address 0 that follows takes the
short cut and goes through window 0x8000. -/
theorem bp_access_stale :
    ((BpCall.read32 0).exec ((BpCall.read32 0x18000).exec (Bus.start 0 0 0 (fun _ => 0) [0, eio]))).log =
        [⟨0, 0x8000, 4⟩] ∧
      ¬Transition.AllStates bpStep AllThrough (Bus.start 0 0 0 (fun _ => 0) [0, eio])
        [BpCall.read32 0x18000, BpCall.read32 0] := by
  have hlog : ((BpCall.read32 0).exec ((BpCall.read32 0x18000).exec (Bus.start 0 0 0 (fun _ => 0) [0, eio]))).log =
      [⟨0, 0x8000, 4⟩] := rfl
  refine ⟨hlog, fun h => ?_⟩
  have hlast := h.last (t := (BpCall.read32 0).exec ((BpCall.read32 0x18000).exec _)) rfl
  exact absurd (hlast ⟨0, 0x8000, 4⟩ (by rw [hlog]; exact List.mem_singleton_self _)) (by decide)

end Cyw
