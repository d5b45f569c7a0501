import Rpi5Modules.Cyw.Backplane
import Rpi5Modules.Lib.Memory

/-!
# Firmware and NVRAM in chip RAM

`cyw_cr4_ram_size` adds up the banks of the CR4 TCM, `cyw_parse_nvram` packs the NVRAM text, and `cyw_fw_images_write`
writes the firmware to the bottom of the RAM and the packed NVRAM to its top. Here no bus operation fails.

- the packed NVRAM fits the buffer `cyw_parse_nvram` allocates (`length_cywParseNvram_le`);
- a block write on such a bus is one store of the whole block, across all windows (`cywBpWriteBlock_spec`);
- `cyw_fw_images_write` compares the firmware with the RAM and the NVRAM with nothing: both images are in their places
  exactly when together they fit (`Download.placed_iff`).
-/

namespace Cyw

open Memory

def enoent : Errno := 2
def efbig : Errno := 27
def eftype : Errno := 79

def cywSiEnumBase : UInt32 := 0x18000000
def cywChipcommonIdOff : UInt32 := 0x00
def cywRamBase : UInt32 := 0x00198000
def cywFwLoadAddr : UInt32 := cywRamBase
def cywDbgFw : UInt32 := 0x01

/-! ## The size of the RAM -/

def armcr4BszMask : UInt32 := 0x7f
def armcr4BszMult : UInt32 := 8192
def armcr4Blk1kMask : UInt32 := 0x200
def armcr4TcbanbMask : UInt32 := 0x00f
def armcr4TcbbnbMask : UInt32 := 0x0f0

/-- `banksz` of a bank whose ARMCR4_BANKINFO register reads `bxinfo`. -/
def banksz (bxinfo : UInt32) : UInt32 :=
  let blksize := if bxinfo &&& armcr4Blk1kMask ≠ 0 then armcr4BszMult >>> 3 else armcr4BszMult
  ((bxinfo &&& armcr4BszMask) + 1) * blksize

/-- `cyw_cr4_ram_size(sc)`, where ARMCR4_CAP reads `corecap` and ARMCR4_BANKINFO reads `bxinfo idx` for bank `idx`. -/
def cywCr4RamSize (corecap : UInt32) (bxinfo : Nat → UInt32) : UInt32 :=
  let nab := corecap &&& armcr4TcbanbMask
  let nbb := (corecap &&& armcr4TcbbnbMask) >>> 4
  (List.range (nab + nbb).toNat).foldl (fun memsize idx => memsize + banksz (bxinfo idx)) 0

/-! ## The NVRAM text -/

/-- The locals of the loop of `cyw_parse_nvram`: the first `buflen` bytes of `buf`, and the two flags. -/
structure NvramScan where
  buf : List UInt8
  inComment : Bool
  atBol : Bool

/-- `buflen > 0 && buf[buflen - 1] != '\0'`. -/
def unterminated (buf : List UInt8) : Bool := buf.getLastD 0 != 0

/-- One round of the loop of `cyw_parse_nvram`. -/
def NvramScan.step (s : NvramScan) (c : UInt8) : NvramScan :=
  if c = '\r'.toUInt8 then s
  else if c = '\n'.toUInt8 then
    { buf := if !s.inComment && !s.atBol && unterminated s.buf then s.buf ++ [0] else s.buf
      inComment := false
      atBol := true }
  else if s.atBol && c = '#'.toUInt8 then { s with inComment := true, atBol := false }
  else if s.inComment then { s with atBol := false }
  else { s with buf := s.buf ++ [c], atBol := false }

/-- The loop of `cyw_parse_nvram`. -/
def nvramScan (raw : List UInt8) : NvramScan := raw.foldl NvramScan.step ⟨[], false, true⟩

/-- `cyw_parse_nvram(raw, rawlen, outlen)`. -/
def cywParseNvram (raw : List UInt8) : List UInt8 :=
  let buf := (nvramScan raw).buf
  let buf := if unterminated buf then buf ++ [0] else buf
  -- the buffer comes zeroed from `malloc`
  let buf := buf ++ [0]
  let buf := buf ++ List.replicate ((4 - buf.length % 4) % 4) 0
  let nwords := UInt32.ofNat (buf.length / 4)
  let token := ((~~~nwords &&& 0xffff) <<< 16) ||| (nwords &&& 0xffff)
  buf ++ (List.range 4).map (le32Bytes token)

example : cywParseNvram ("#c\r\na=1\n\nb".toList.map Char.toUInt8) =
    [0x61, 0x3d, 0x31, 0, 0x62, 0, 0, 0, 2, 0, 0xfd, 0xff] := by decide

/-! ## The download -/

/-- The four debug reads of the firmware. -/
def fwReadback (b : Bus) : Bus :=
  let b := (cywBpRead32 b (cywFwLoadAddr + 0)).2
  let b := (cywBpRead32 b (cywFwLoadAddr + 4)).2
  let b := (cywBpRead32 b (cywFwLoadAddr + 8)).2
  (cywBpRead32 b (cywFwLoadAddr + 0x40)).2

/-- `cyw_fw_images_write(sc, out_rstvec)`: `fwp` and `nvp` are what `cyw_fw_get` returns for the two images. -/
def cywFwImagesWrite (b : Bus) (ramBase ramSize scDebug : UInt32) (fwp nvp : Option (List UInt8))
    (outRstvec : UInt32) : Errno × UInt32 × Bus :=
  match fwp with
  | none => (enoent, outRstvec, b)
  | some fw =>
    if fw.length < 4 then (eftype, outRstvec, b)
    else if fw.length > ramSize.toNat then (efbig, outRstvec, b)
    else
      let outRstvec := (BufProg.le32 0).result (fw.getD · 0)
      let (err, b) := cywBpWriteBlock b cywFwLoadAddr (fw.getD · 0) fw.length
      if err ≠ 0 then (err, outRstvec, b)
      else
        let b := if scDebug &&& cywDbgFw ≠ 0 then fwReadback b else b
        match nvp with
        | none => (enoent, outRstvec, b)
        | some nv =>
          if nv.length = 0 then (eftype, outRstvec, b)
          else
            let nvram := cywParseNvram nv
            let nvramAddr := ramBase + ramSize - UInt32.ofNat nvram.length
            let (err, b) := cywBpWriteBlock b nvramAddr (nvram.getD · 0) nvram.length
            if err ≠ 0 then (err, outRstvec, b) else (0, outRstvec, b)

/-! ## Sizes -/

theorem banksz_le (bxinfo : UInt32) : (banksz bxinfo).toNat ≤ 0x100000 := by
  have hm : (bxinfo &&& armcr4BszMask).toNat ≤ 0x7f := by
    rw [UInt32.toNat_and]
    exact Nat.and_le_right
  have h1 : ((bxinfo &&& armcr4BszMask) + 1).toNat ≤ 0x80 := by
    rw [UInt32.toNat_add]
    exact Nat.le_trans (Nat.mod_le _ _) (Nat.succ_le_succ hm)
  have hb : (if bxinfo &&& armcr4Blk1kMask ≠ 0 then armcr4BszMult >>> 3 else armcr4BszMult).toNat ≤ 8192 := by
    split <;> decide
  unfold banksz
  rw [UInt32.toNat_mul]
  exact Nat.le_trans (Nat.mod_le _ _) (Nat.mul_le_mul h1 hb)

/-- The scan finds at most 30 banks of a megabyte. -/
theorem cywCr4RamSize_le (corecap : UInt32) (bxinfo : Nat → UInt32) :
    (cywCr4RamSize corecap bxinfo).toNat ≤ 30 * 0x100000 := by
  have hsum : ∀ n, ((List.range n).foldl (fun memsize idx => memsize + banksz (bxinfo idx)) 0).toNat ≤
      n * 0x100000 := by
    intro n
    induction n with
    | zero => exact Nat.le_refl _
    | succ n ih =>
      have hb := banksz_le (bxinfo n)
      rw [List.range_succ, List.foldl_append, List.foldl_cons, List.foldl_nil, UInt32.toNat_add]
      apply Nat.le_trans (Nat.mod_le _ _)
      omega
  have hnab : (corecap &&& armcr4TcbanbMask).toNat ≤ 15 := by
    rw [UInt32.toNat_and]
    exact Nat.and_le_right
  have hnbb : ((corecap &&& armcr4TcbbnbMask) >>> 4).toNat ≤ 15 := by
    have hm : (corecap &&& armcr4TcbbnbMask).toNat ≤ 0xf0 := by
      rw [UInt32.toNat_and]
      exact Nat.and_le_right
    rw [UInt32.toNat_shiftRight, Nat.shiftRight_eq_div_pow]
    exact Nat.le_trans (Nat.div_le_div_right hm) (by decide)
  have hn : ((corecap &&& armcr4TcbanbMask) + ((corecap &&& armcr4TcbbnbMask) >>> 4)).toNat ≤ 30 := by
    rw [UInt32.toNat_add]
    exact Nat.le_trans (Nat.mod_le _ _) (by omega)
  exact Nat.le_trans (hsum _) (Nat.mul_le_mul_right _ hn)

/-- A round of the loop writes at most one byte. -/
theorem length_step_le (s : NvramScan) (c : UInt8) : (s.step c).buf.length ≤ s.buf.length + 1 := by
  unfold NvramScan.step
  split_ifs <;> simp

theorem length_nvramScan_le (raw : List UInt8) : (nvramScan raw).buf.length ≤ raw.length := by
  have hrun : ∀ (raw : List UInt8) (s : NvramScan),
      (raw.foldl NvramScan.step s).buf.length ≤ s.buf.length + raw.length := by
    intro raw
    induction raw with
    | nil => exact fun s => Nat.le_refl _
    | cons c raw ih =>
      intro s
      have hs := length_step_le s c
      have := ih (s.step c)
      rw [List.foldl_cons, List.length_cons]
      omega
  exact Nat.le_trans (hrun raw ⟨[], false, true⟩) (Nat.le_of_eq (Nat.zero_add _))

/-- The packed NVRAM is as long as the buffer `cyw_parse_nvram` allocates, `roundup(rawlen + 2, 4) + 4`, or shorter. -/
theorem length_cywParseNvram_le (raw : List UInt8) :
    (cywParseNvram raw).length ≤ (raw.length + 2 + 3) / 4 * 4 + 4 := by
  have hs := length_nvramScan_le raw
  unfold cywParseNvram
  dsimp only
  split <;> simp only [List.length_append, List.length_replicate, List.length_map, List.length_range,
    List.length_cons, List.length_nil] <;> omega

/-! ## A bus that does not fail -/

/-- No bus operation fails, and the driver knows the window. -/
structure Bus.Ready (b : Bus) : Prop where
  faults : b.faults = []
  window : b.hwWindow = b.bpWindow

namespace Bus.Ready

variable {b : Bus}

theorem next (h : b.Ready) : b.next = 0 := by rw [Bus.next, h.faults, List.headD_nil]

/-- The window is switched, and nothing else happens. -/
theorem setWindow (h : b.Ready) (addr : UInt32) :
    ∃ b', cywSetBackplaneWindow b addr = (0, b') ∧ b'.Ready ∧ b'.hwWindow = winBase addr ∧ b'.mem = b.mem := by
  by_cases hc : winBase addr = b.bpWindow
  · exact ⟨b, cywSetBackplaneWindow_cached hc, h, h.window.trans hc.symm, rfl⟩
  · have ht : b.tick.faults = [] := by rw [Bus.tick, h.faults, List.tail_nil]
    have htt : b.tick.tick.faults = [] := by rw [Bus.tick, ht, List.tail_nil]
    have hm : b.tick.next = 0 := by rw [Bus.next, ht, List.headD_nil]
    have hh : b.tick.tick.next = 0 := by rw [Bus.next, htt, List.headD_nil]
    refine ⟨_, cywSetBackplaneWindow_ok hc h.next hm hh, ⟨?_, ?_⟩, ?_, rfl⟩
    · exact (congrArg List.tail htt).trans List.tail_nil
    · exact hwWindow_programmed rfl rfl rfl
    · exact hwWindow_programmed rfl rfl rfl

theorem issue (h : b.Ready) (addr : UInt32) (len : Nat) : (b.issue addr len).Ready :=
  ⟨by rw [Bus.issue, Bus.tick, h.faults, List.tail_nil], h.window⟩

theorem writeExtended (h : b.Ready) (addr off : UInt32) (len : Nat) (buf : Nat → UInt8) :
    (b.writeExtended addr off len buf).2.Ready := by
  simp only [Bus.writeExtended, h.next, if_true]
  exact ⟨(h.issue addr len).faults, h.window⟩

theorem cywBpRead32 (h : b.Ready) (addr : UInt32) :
    (cywBpRead32 b addr).2.Ready ∧ (cywBpRead32 b addr).2.mem = b.mem := by
  obtain ⟨b', hb', hr, -, hm⟩ := h.setWindow addr
  unfold Cyw.cywBpRead32
  rw [hb']
  exact ⟨hr.issue addr 4, hm⟩

end Bus.Ready

/-- The offset in the window, put back on the window. -/
theorem winBase_add_oft (addr : UInt32) : winBase addr + (addr &&& sbsdioSbOftAddrMask) = addr := by
  apply UInt32.eq_of_toBitVec_eq
  show (addr.toBitVec &&& ~~~0x7fff#32) + (addr.toBitVec &&& 0x7fff#32) = addr.toBitVec
  generalize addr.toBitVec = x
  rw [BitVec.add_eq_or_of_and_eq_zero]
  · ext i hi
    simp only [BitVec.getElem_or, BitVec.getElem_and, BitVec.getElem_not]
    cases x[i] <;> cases (0x7fff#32)[i] <;> rfl
  · ext i hi
    simp only [BitVec.getElem_and, BitVec.getElem_not, BitVec.getElem_zero]
    cases x[i] <;> cases (0x7fff#32)[i] <;> rfl

/-- A chunk that stays in the window is a store at its address. -/
theorem writeExtended_mem {b : Bus} (h : b.Ready) {addr : UInt32} (hw : b.hwWindow = winBase addr) (len : Nat)
    (buf : Nat → UInt8) :
    ∃ b', b.writeExtended addr (addr &&& sbsdioSbOftAddrMask) len buf = (0, b') ∧ b'.Ready ∧
      b'.mem = store b.mem addr len buf := by
  have ht : b.target (addr &&& sbsdioSbOftAddrMask) = addr := by
    rw [Bus.target, hw, UInt32.and_assoc, UInt32.and_self, winBase_add_oft]
  refine ⟨{ b.issue addr len with mem := store b.mem addr len buf }, ?_, ⟨(h.issue addr len).faults, h.window⟩, rfl⟩
  simp only [Bus.writeExtended, h.next, if_true, ht]
  rfl

/-- The chunks of the loop follow one another. -/
theorem cywBpWriteBlockLoop_spec {b : Bus} (h : b.Ready) (addr : UInt32) (buf : Nat → UInt8) {total done : Nat}
    (hle : done ≤ total) :
    ∃ b', cywBpWriteBlockLoop b addr buf total done = (0, b') ∧ b'.Ready ∧
      (total ≤ 2 ^ 32 →
        b'.mem = store b.mem (addr + UInt32.ofNat done) (total - done) fun k => buf (done + k)) := by
  by_cases hlt : done < total
  · generalize ha : addr + UInt32.ofNat done = a
    generalize hchunk : min (total - done) (sbsdioSbOftAddrMask.toNat + 1 - (a &&& sbsdioSbOftAddrMask).toNat) = chunk
    have hpos : 0 < chunk ∧ done + chunk ≤ total := by
      have := sbOft_lt a
      have : sbsdioSbOftAddrMask.toNat = 0x7fff := rfl
      omega
    obtain ⟨b₁, hb₁, hr₁, hw₁, hm₁⟩ := h.setWindow a
    obtain ⟨b₂, hb₂, hr₂, hm₂⟩ := writeExtended_mem hr₁ hw₁ chunk fun k => buf (done + k)
    obtain ⟨b₃, hb₃, hr₃, hm₃⟩ := cywBpWriteBlockLoop_spec hr₂ addr buf hpos.2
    refine ⟨b₃, ?_, hr₃, fun ht => ?_⟩
    · rw [cywBpWriteBlockLoop, if_pos hlt]
      simp only [ha, hchunk, hb₁, hb₂, hb₃, ne_eq, not_true, if_false]
    · have hbuf : (fun k => buf (done + chunk + k)) = fun k => (fun k => buf (done + k)) (chunk + k) := by
        funext k
        rw [Nat.add_assoc]
      have haddr : addr + UInt32.ofNat (done + chunk) = a + UInt32.ofNat chunk := by
        rw [← ha, UInt32.ofNat_add, UInt32.add_assoc]
      rw [hm₃ ht, hm₂, hm₁, hbuf, haddr, store_store a (by omega)]
      congr 1
      omega
  · obtain rfl : done = total := by omega
    refine ⟨b, cywBpWriteBlockLoop_done hlt, h, fun _ => ?_⟩
    rw [Nat.sub_self, store_zero]
termination_by total - done
decreasing_by omega

/-- **A block write is one store**, however many windows it crosses. -/
theorem cywBpWriteBlock_spec {b : Bus} (h : b.Ready) (addr : UInt32) (buf : Nat → UInt8) (total : Nat) :
    ∃ b', cywBpWriteBlock b addr buf total = (0, b') ∧ b'.Ready ∧
      (total ≤ 2 ^ 32 → b'.mem = store b.mem addr total buf) := by
  obtain ⟨b', hb', hr, hm⟩ := cywBpWriteBlockLoop_spec h addr buf (Nat.zero_le total)
  refine ⟨b', hb', hr, fun ht => ?_⟩
  rw [hm ht]
  simp

theorem fwReadback_spec {b : Bus} (h : b.Ready) : (fwReadback b).Ready ∧ (fwReadback b).mem = b.mem := by
  obtain ⟨h₁, hm₁⟩ := h.cywBpRead32 (cywFwLoadAddr + 0)
  obtain ⟨h₂, hm₂⟩ := h₁.cywBpRead32 (cywFwLoadAddr + 4)
  obtain ⟨h₃, hm₃⟩ := h₂.cywBpRead32 (cywFwLoadAddr + 8)
  obtain ⟨h₄, hm₄⟩ := h₃.cywBpRead32 (cywFwLoadAddr + 0x40)
  unfold fwReadback
  refine ⟨h₄, ?_⟩
  rw [hm₄, hm₃, hm₂, hm₁]

/-- Any call of the backplane interface leaves such a bus as one. -/
theorem Bus.Ready.exec {b : Bus} (h : b.Ready) (c : BpCall) : (c.exec b).Ready := by
  cases c with
  | read32 addr => exact (h.cywBpRead32 addr).1
  | write32 addr val =>
    obtain ⟨b₁, hb₁, hr₁, -⟩ := h.setWindow addr
    have hw : cywBpWrite32 b addr val =
        b₁.write4 addr ((addr &&& sbsdioSbOftAddrMask) ||| sbsdioSbAccess24bFlag) val := by
      rw [cywBpWrite32, hb₁]
      rfl
    rw [BpCall.exec, hw]
    exact hr₁.writeExtended addr _ 4 (le32Bytes val)
  | writeBlock addr buf total =>
    obtain ⟨b₁, hb₁, hr₁, -⟩ := cywBpWriteBlock_spec h addr buf total
    rw [BpCall.exec, hb₁]
    exact hr₁

/-! ## Where the images end up -/

/-- Everything `cyw_fw_images_write` depends on: the chip's window registers and memory when the driver attaches, the
backplane calls `cyw_sdio_attach` makes after it has read the chip id, what the TCM bank scan reads, the debug mask
and the two images. -/
structure Download where
  sbaddrLow : UInt8
  sbaddrMid : UInt8
  sbaddrHigh : UInt8
  mem : Mem
  calls : List BpCall
  corecap : UInt32
  bxinfo : Nat → UInt32
  scDebug : UInt32
  fwp : Option (List UInt8)
  nvp : Option (List UInt8)
  outRstvec : UInt32

namespace Download

variable (d : Download)

/-- `sc->ram_size`. -/
def ramSize : UInt32 := cywCr4RamSize d.corecap d.bxinfo

/-- The bus when `cyw_fw_images_write` is called; `bp_window` is 0 before the chip id is read. -/
def bus : Bus :=
  d.calls.foldl BpCall.exec
    ((BpCall.read32 (cywSiEnumBase + cywChipcommonIdOff)).exec
      ⟨d.sbaddrLow, d.sbaddrMid, d.sbaddrHigh, d.mem, 0, [], []⟩)

def run : Errno × UInt32 × Bus :=
  cywFwImagesWrite d.bus cywRamBase d.ramSize d.scDebug d.fwp d.nvp d.outRstvec

end Download

/-- The firmware at its load address and the NVRAM at the top of the RAM `[base, base + size)`, apart. -/
structure Placed (mem : Mem) (base size : Nat) (fw nvram : List UInt8) : Prop where
  holdsFw : Holds mem 0x198000 fw
  holdsNvram : Holds mem (base + size - nvram.length) nvram
  fwInside : base ≤ 0x198000 ∧ 0x198000 + fw.length ≤ base + size
  nvramInside : base + nvram.length ≤ base + size
  disjoint : 0x198000 + fw.length ≤ base + size - nvram.length ∨ base + size ≤ 0x198000

namespace Download

variable (d : Download)

/-- What `cyw_fw_images_write` promises when it returns 0. -/
def ImagesPlaced : Prop :=
  d.run.1 = 0 → ∀ fw ∈ d.fwp, ∀ nv ∈ d.nvp,
    Placed d.run.2.2.mem cywRamBase.toNat d.ramSize.toNat fw (cywParseNvram nv)

/-- Images that `cyw_fw_images_write` does not refuse fit the RAM together. -/
def ImagesFit : Prop :=
  ∀ fw ∈ d.fwp, ∀ nv ∈ d.nvp, 4 ≤ fw.length → fw.length ≤ d.ramSize.toNat → nv ≠ [] →
    fw.length + (cywParseNvram nv).length ≤ d.ramSize.toNat

theorem ready_bus : d.bus.Ready := by
  have hrun : ∀ (calls : List BpCall) (b : Bus), b.Ready → (calls.foldl BpCall.exec b).Ready := by
    intro calls
    induction calls with
    | nil => exact fun b h => h
    | cons c calls ih => exact fun b h => ih _ (h.exec c)
  refine hrun d.calls _ ⟨rfl, ?_⟩
  exact hwWindow_programmed rfl rfl rfl

variable {d}

/-- With both images read and none refused, the run is two block writes. -/
theorem run_ok {fw nv : List UInt8} (hfw : d.fwp = some fw) (hnv : d.nvp = some nv) (h4 : 4 ≤ fw.length)
    (hle : fw.length ≤ d.ramSize.toNat) (hne : nv ≠ []) :
    d.run.1 = 0 ∧
      ((cywParseNvram nv).length ≤ 2 ^ 32 →
        d.run.2.2.mem =
          store (store d.bus.mem cywFwLoadAddr fw.length (fw.getD · 0))
            (cywRamBase + d.ramSize - UInt32.ofNat (cywParseNvram nv).length) (cywParseNvram nv).length
            ((cywParseNvram nv).getD · 0)) := by
  have hfw32 : fw.length ≤ 2 ^ 32 := Nat.le_trans hle (Nat.le_of_lt d.ramSize.toNat_lt)
  obtain ⟨b₁, hb₁, hr₁, hm₁⟩ := cywBpWriteBlock_spec d.ready_bus cywFwLoadAddr (fw.getD · 0) fw.length
  generalize hb₂ : (if d.scDebug &&& cywDbgFw ≠ 0 then fwReadback b₁ else b₁) = b₂
  have hrb : b₂.Ready ∧ b₂.mem = b₁.mem := by
    rw [← hb₂]
    split
    · exact fwReadback_spec hr₁
    · exact ⟨hr₁, rfl⟩
  obtain ⟨b₃, hb₃, -, hm₃⟩ := cywBpWriteBlock_spec hrb.1
    (cywRamBase + d.ramSize - UInt32.ofNat (cywParseNvram nv).length) ((cywParseNvram nv).getD · 0)
    (cywParseNvram nv).length
  have hrun : d.run = (0, (BufProg.le32 0).result (fw.getD · 0), b₃) := by
    have hn : nv.length ≠ 0 := fun h => hne (List.length_eq_zero_iff.1 h)
    unfold run cywFwImagesWrite
    rw [hfw, hnv]
    simp only [Nat.not_lt.2 h4, Nat.not_lt.2 hle, hb₁, hb₂, hb₃, hn, if_false, ne_eq, not_true]
  rw [hrun]
  refine ⟨rfl, fun hlen => ?_⟩
  rw [hm₃ hlen, hrb.2, hm₁ hfw32]

/-- What `cyw_fw_images_write` has checked when it returns 0. -/
theorem run_checked (h : d.run.1 = 0) {fw nv : List UInt8} (hfw : d.fwp = some fw) (hnv : d.nvp = some nv) :
    4 ≤ fw.length ∧ fw.length ≤ d.ramSize.toNat ∧ nv ≠ [] := by
  unfold run cywFwImagesWrite at h
  rw [hfw, hnv] at h
  dsimp only at h
  by_cases h4 : fw.length < 4
  · rw [if_pos h4] at h
    exact absurd (show eftype = 0 from h) (by decide)
  · rw [if_neg h4] at h
    by_cases hle : fw.length > d.ramSize.toNat
    · rw [if_pos hle] at h
      exact absurd (show efbig = 0 from h) (by decide)
    · refine ⟨Nat.le_of_not_lt h4, Nat.le_of_not_lt hle, ?_⟩
      rintro rfl
      obtain ⟨b₁, hb₁, -⟩ := cywBpWriteBlock_spec d.ready_bus cywFwLoadAddr (fw.getD · 0) fw.length
      rw [if_neg hle, hb₁] at h
      exact absurd (show eftype = 0 from h) (by decide)

/-- The address of the NVRAM, as a number. -/
theorem nvramAddr_eq (d : Download) {n : Nat} (hn : n ≤ d.ramSize.toNat) :
    cywRamBase + d.ramSize - UInt32.ofNat n = UInt32.ofNat (cywRamBase.toNat + d.ramSize.toNat - n) := by
  have hs : d.ramSize.toNat ≤ 30 * 0x100000 := cywCr4RamSize_le d.corecap d.bxinfo
  have hb : cywRamBase.toNat = 0x198000 := rfl
  apply UInt32.toNat_inj.1
  rw [UInt32.toNat_sub, UInt32.toNat_add, UInt32.toNat_ofNat', UInt32.toNat_ofNat', hb]
  omega

/-- **Firmware and NVRAM placement**: when `cyw_fw_images_write` returns 0, both images lie in the RAM unchanged, each
in its place, exactly if images that pass its checks fit the RAM together, the NVRAM with its padding and token. -/
theorem placed_iff (d : Download) : d.ImagesPlaced ↔ d.ImagesFit := by
  have hs : d.ramSize.toNat ≤ 30 * 0x100000 := cywCr4RamSize_le d.corecap d.bxinfo
  have hb : cywRamBase.toNat = 0x198000 := rfl
  constructor
  · intro hp fw hfw nv hnv h4 hle hne
    have hok := run_ok hfw hnv h4 hle hne
    have hplaced := hp hok.1 fw hfw nv hnv
    have hin := hplaced.nvramInside
    rcases hplaced.disjoint with hd | hd
    · omega
    · omega
  · intro hfit hrun fw hfw nv hnv
    obtain ⟨h4, hle, hne⟩ := run_checked hrun hfw hnv
    have hsum := hfit fw hfw nv hnv h4 hle hne
    have hmem := (run_ok hfw hnv h4 hle hne).2 (by omega)
    rw [nvramAddr_eq d (by omega)] at hmem
    refine ⟨?_, ?_, ⟨by omega, by omega⟩, by omega, .inl (by omega)⟩
    · rw [hmem]
      have hfwHeld : Holds (store d.bus.mem cywFwLoadAddr fw.length (fw.getD · 0)) 0x198000 fw :=
        holds_store (by decide) (by omega)
      exact hfwHeld.store (by omega) (by omega) (.inl (by omega))
    · rw [hmem]
      exact holds_store (by omega) (by omega)

/-- A chip with the stock RAM of 800 KB, a firmware image that fills it, and an NVRAM text of one empty line. -/
def brimful : Download where
  sbaddrLow := 0
  sbaddrMid := 0
  sbaddrHigh := 0
  mem := fun _ => 0
  calls := []
  corecap := 1
  bxinfo := fun _ => 99
  scDebug := 0
  fwp := some (List.replicate 0xc8000 1)
  nvp := some ['\n'.toUInt8]
  outRstvec := 0

theorem ramSize_brimful : brimful.ramSize = 0xc8000 := rfl

/-- Nothing is refused, and the eight bytes of packed NVRAM lie on the end of the firmware. -/
theorem brimful_overwritten :
    brimful.run.1 = 0 ∧ brimful.run.2.2.mem (0x198000 + 0xc7ff8) = 0 ∧ ¬brimful.ImagesPlaced := by
  have h4 : 4 ≤ (List.replicate 0xc8000 (1 : UInt8)).length := by
    rw [List.length_replicate]
    decide
  have hle : (List.replicate 0xc8000 (1 : UInt8)).length ≤ brimful.ramSize.toNat := by
    rw [List.length_replicate, ramSize_brimful]
    decide
  have hok := run_ok (d := brimful) rfl rfl h4 hle (List.cons_ne_nil _ _)
  have hnv : cywParseNvram ['\n'.toUInt8] = [0, 0, 0, 0, 1, 0, 0xfe, 0xff] := by decide
  refine ⟨hok.1, ?_, fun hp => ?_⟩
  · rw [hok.2 (by rw [hnv]; decide), ramSize_brimful, hnv]
    rfl
  · have hd := (hp hok.1 _ rfl _ rfl).disjoint
    rw [hnv, ramSize_brimful, List.length_replicate] at hd
    exact absurd hd (by decide)

end Download

end Cyw
