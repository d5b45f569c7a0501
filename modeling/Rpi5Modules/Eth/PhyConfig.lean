import Rpi5Modules.Eth.Mac
import Rpi5Modules.Eth.Mdio

/-!
# Bringing up the PHY

At module load, `rp1_eth_modevent` sets the clock delays of the PHY, waits for the end of auto-negotiation and resolves
the negotiated mode, all over the management bus. Most of what it sets is behind shadow registers: AUXCTL (0x18) and
register 0x1c show one of several registers each, the one that a write selects.

The PHY negotiates meanwhile: between any two accesses its link may come and go (`LivePhy`), and BMSR shows a loss of
the link until it is read (`Bcm54213.readBmsr`), so the driver reads it twice.
-/

namespace Eth

open Flags Mdio

/-! ## The PHY -/

def miiBmcr : BitVec 32 := 0
def miiBmsr : BitVec 32 := 1
def miiPhyidr1 : BitVec 32 := 2
def miiPhyidr2 : BitVec 32 := 3
def miiAnlpar : BitVec 32 := 5
def miiGbcr : BitVec 32 := 9
def miiGbsr : BitVec 32 := 10

/-- The BCM54213PE: `misc` is the part of AUXCTL shadow 7 that it stores (bits 11 to 3), `shd` the shadows of register
0x1c, `auxSel` and `shdSel` the shadows that can be read; `latch` is what BMSR shows of the link. -/
@[ext] structure Bcm54213 where
  regs : BitVec 5 → BitVec 16
  link : Bool
  latch : Bool
  auxSel : BitVec 3
  aux : BitVec 3 → BitVec 16
  misc : BitVec 9
  shdSel : BitVec 5
  shd : BitVec 5 → BitVec 10

namespace Bcm54213

/-- BMSR, whose link bit stays clear after a loss of the link until it is read. -/
def readBmsr (s : Bcm54213) : BitVec 16 × Bcm54213 :=
  (s.regs 1 &&& ~~~BitVec.twoPow 16 bmsrLinkBit ||| (if s.latch then BitVec.twoPow 16 bmsrLinkBit else 0),
    { s with latch := s.link })

def readAux (s : Bcm54213) : BitVec 16 := if s.auxSel = 7 then 7#4 ++ s.misc ++ 7#3 else s.aux s.auxSel

/-- A write of AUXCTL: to a shadow, or, with shadow 7, of the selector, and of `misc` only if bit 15 is set. -/
def writeAux (s : Bcm54213) (v : BitVec 16) : Bcm54213 :=
  if v.extractLsb' 0 3 = 7 then
    { s with auxSel := v.extractLsb' 12 3, misc := if v.getLsbD 15 then v.extractLsb' 3 9 else s.misc }
  else { s with aux := Function.update s.aux (v.extractLsb' 0 3) v }

def readShd (s : Bcm54213) : BitVec 16 := 0#1 ++ s.shdSel ++ s.shd s.shdSel

/-- A write of register 0x1c selects a shadow, and stores there only if bit 15 is set. -/
def writeShd (s : Bcm54213) (v : BitVec 16) : Bcm54213 :=
  { s with
    shdSel := v.extractLsb' 10 5
    shd := if v.getLsbD 15 then Function.update s.shd (v.extractLsb' 10 5) (v.extractLsb' 0 10) else s.shd }

def read (s : Bcm54213) (r : BitVec 5) : BitVec 16 × Bcm54213 :=
  if r = 1 then s.readBmsr else if r = 0x18 then (s.readAux, s) else if r = 0x1c then (s.readShd, s) else (s.regs r, s)

def write (s : Bcm54213) (r : BitVec 5) (v : BitVec 16) : Bcm54213 :=
  if r = 0x18 then s.writeAux v else if r = 0x1c then s.writeShd v
  else { s with regs := Function.update s.regs r v }

end Bcm54213

def bcm54213 : Device Bcm54213 := ⟨Bcm54213.read, Bcm54213.write⟩

/-- What the PHY does by itself: the link comes up, with what the partner can do, or is lost. -/
inductive PhyEvent where
  | up (gbsr anlpar : BitVec 16)
  | down

def Bcm54213.on (s : Bcm54213) : PhyEvent → Bcm54213
  | .up gbsr anlpar => { s with link := true, regs := Function.update (Function.update s.regs 10 gbsr) 5 anlpar }
  | .down => { s with link := false, latch := false }

/-- The PHY, and what it does by itself before each of the coming accesses. -/
structure LivePhy where
  phy : Bcm54213
  ev : Nat → List PhyEvent

namespace LivePhy

/-- The PHY goes on until the next access. -/
def tick (s : LivePhy) : LivePhy := ⟨(s.ev 0).foldl Bcm54213.on s.phy, fun n => s.ev (n + 1)⟩

def read (s : LivePhy) (r : BitVec 5) : BitVec 16 × LivePhy :=
  let x := s.tick.phy.read r
  (x.1, { s.tick with phy := x.2 })

def write (s : LivePhy) (r : BitVec 5) (v : BitVec 16) : LivePhy := { s.tick with phy := s.tick.phy.write r v }

end LivePhy

def livePhy : Device LivePhy := ⟨LivePhy.read, LivePhy.write⟩

/-! ## The code -/

section Code

variable (g : Gem) (phy : BitVec 32)

/-- `rp1_eth_mdio_read(sc, (int)sc->phy_addr, reg)`: the PHY is where the device tree says. -/
def phyRead (reg : BitVec 32) : MdioM LivePhy (BitVec 16) := rp1EthMdioRead livePhy (phy.setWidth 5) g phy reg

def phyWrite (reg : BitVec 32) (data : BitVec 16) : MdioM LivePhy Unit :=
  rp1EthMdioWrite livePhy (phy.setWidth 5) g phy reg data

/-- What `rp1_eth_modevent` reads of the shadows, before it sets them and after. -/
structure ShadowRegs where
  auxmisc : BitVec 16
  clkctl : BitVec 16
  scr3 : BitVec 16

def readShadows : MdioM LivePhy ShadowRegs := do
  phyWrite g phy 0x18 (7 <<< 12 ||| 0x0007)
  let auxmisc ← phyRead g phy 0x18
  phyWrite g phy 0x1c (0x0003 <<< 10)
  let clkctl ← phyRead g phy 0x1c
  phyWrite g phy 0x1c (0x0005 <<< 10)
  let scr3 ← phyRead g phy 0x1c
  pure ⟨auxmisc, clkctl &&& 0x03ff, scr3 &&& 0x03ff⟩

/-- The three settings before auto-negotiation: RGMII_SKEW_EN, GTXCLK_EN and DLLAPD_DIS. -/
def configInit : MdioM LivePhy ShadowRegs := do
  let r ← readShadows g phy
  phyWrite g phy 0x18 (0x0007 ||| (r.auxmisc ||| 0x0100 ||| 0x8000))
  phyWrite g phy 0x1c (0x8000 ||| 0x0003 <<< 10 ||| ((r.clkctl ||| 1 <<< 9) &&& 0x03ff))
  phyWrite g phy 0x1c (0x8000 ||| 0x0005 <<< 10 ||| ((r.scr3 ||| 0x0002) &&& 0x03ff))
  pure r

/-- BMSR, read twice. -/
def readBmsrTwice : MdioM LivePhy (BitVec 16) := do
  let _ ← phyRead g phy miiBmsr
  phyRead g phy miiBmsr

/-- The loop that waits for the link; in the pause of a round the PHY goes on like anywhere else. -/
def autonegLoop : Nat → BitVec 16 → MdioM LivePhy (BitVec 16)
  | 0, bmsr => pure bmsr
  | n + 1, _ => do
    let bmsr ← readBmsrTwice g phy
    if HasFlag bmsr bmsrLinkBit then pure bmsr else autonegLoop n bmsr

/-- The wait of 4 s at most, unless there is a link. -/
def autonegWait (bmsr : BitVec 16) : MdioM LivePhy (BitVec 16) :=
  if !HasFlag bmsr bmsrLinkBit then autonegLoop g phy 40 bmsr else pure bmsr

/-- Steps 5 to 5e of `rp1_eth_modevent`: the resolved mode. -/
def phyBringup : MdioM LivePhy LinkMode := do
  let _ ← phyRead g phy miiPhyidr1
  let _ ← phyRead g phy miiPhyidr2
  let _ ← phyRead g phy miiBmcr
  let bmsr ← readBmsrTwice g phy
  let _ ← configInit g phy
  let _ ← autonegWait g phy bmsr
  -- step 5d: the diagnostic registers
  let _ ← phyRead g phy 0x10
  let _ ← readShadows g phy
  phyWrite g phy 0x1c (0x001c <<< 10)
  let _ ← phyRead g phy 0x1c
  -- step 5d2: the settings again
  let _ ← readShadows g phy
  let gbcr ← phyRead g phy miiGbcr
  let gbsr ← phyRead g phy miiGbsr
  let anlpar ← phyRead g phy miiAnlpar
  pure (resolveMode gbcr gbsr anlpar)

end Code

/-! ## What the code means to the PHY -/

namespace Bcm54213

variable (s : Bcm54213)

/-- With these shadows selected. -/
def select (aux : BitVec 3) (shd : BitVec 5) : Bcm54213 := { s with auxSel := aux, shdSel := shd }

/-- What the shadows hold. -/
def shadowRegs : ShadowRegs := ⟨7#4 ++ s.misc ++ 7#3, (s.shd 3).setWidth 16, (s.shd 5).setWidth 16⟩

/-- RGMII_SKEW_EN is bit 8 of AUXCTL, GTXCLK_EN bit 9 of shadow 3, and DLLAPD_DIS bit 1 of shadow 5. -/
def configured : Bcm54213 :=
  { s with
    misc := s.misc ||| 1 <<< 5
    shd := Function.update (Function.update s.shd 3 (s.shd 3 ||| 1 <<< 9)) 5 (s.shd 5 ||| 1 <<< 1) }

/-- BMSR is read: the latch shows the link. -/
def sampled : Bcm54213 := { s with latch := s.link }

theorem hasFlag_readBmsr : HasFlag s.readBmsr.1 bmsrLinkBit ↔ s.latch = true := by
  have hbit : HasFlag (BitVec.twoPow 16 bmsrLinkBit) bmsrLinkBit := by decide
  unfold readBmsr
  rw [hasFlag_or, hasFlag_and_not]
  cases s.latch <;> simp [hbit]

end Bcm54213

/-! ## The PHY goes on -/

namespace Bcm54213

variable {s t : Bcm54213} {es : List PhyEvent}

/-- What commutes with everything the PHY does by itself. -/
theorem foldl_on_map {f : Bcm54213 → Bcm54213} (hf : ∀ s e, (f s).on e = f (s.on e)) (s : Bcm54213)
    (es : List PhyEvent) : es.foldl on (f s) = f (es.foldl on s) :=
  List.foldl_hom f hf

theorem on_writeAux (s : Bcm54213) (v : BitVec 16) (e : PhyEvent) : (s.writeAux v).on e = (s.on e).writeAux v := by
  unfold writeAux
  cases e <;> split <;> rfl

theorem on_writeShd (s : Bcm54213) (v : BitVec 16) (e : PhyEvent) : (s.writeShd v).on e = (s.on e).writeShd v := by
  unfold writeShd
  cases e <;> rfl

/-- The shadows are what they were. -/
theorem foldl_on_shadows (s : Bcm54213) (es : List PhyEvent) : (es.foldl on s).readAux = s.readAux ∧
    (es.foldl on s).readShd = s.readShd ∧ (es.foldl on s).shadowRegs = s.shadowRegs := by
  induction es generalizing s with
  | nil => exact ⟨rfl, rfl, rfl⟩
  | cons e es ih =>
    obtain ⟨haux, hshd, hregs⟩ := ih (s.on e)
    rw [List.foldl_cons, haux, hshd, hregs]
    cases e <;> exact ⟨rfl, rfl, rfl⟩

/-- The latch goes on showing a link as long as it is not lost. -/
theorem foldl_on_latch (s : Bcm54213) (es : List PhyEvent) :
    (es.foldl on s).latch = true ↔ s.latch = true ∧ PhyEvent.down ∉ es := by
  induction es generalizing s with
  | nil => simp
  | cons e es ih =>
    rw [List.foldl_cons, ih]
    cases e <;> simp [on]

/-- What the PHY does by itself does not depend on the latch. -/
theorem foldl_on_like (h : { s with latch := t.latch } = t) :
    { es.foldl on s with latch := (es.foldl on t).latch } = es.foldl on t := by
  induction es generalizing s t with
  | nil => exact h
  | cons e es ih =>
    rw [List.foldl_cons, List.foldl_cons]
    apply ih
    rw [← h]
    cases e <;> rfl

end Bcm54213

namespace LivePhy

variable {s t : LivePhy}

/-- After some accesses that leave it alone. -/
def ticks (s : LivePhy) : Nat → LivePhy
  | 0 => s
  | n + 1 => (s.ticks n).tick

theorem ticks_ticks (s : LivePhy) (m n : Nat) : (s.ticks m).ticks n = s.ticks (m + n) := by
  induction n with
  | zero => rfl
  | succ n ih => exact congrArg tick ih

theorem ticks_ev (s : LivePhy) (n k : Nat) : (s.ticks n).ev k = s.ev (n + k) := by
  induction n generalizing k with
  | zero => rw [Nat.zero_add]; rfl
  | succ n ih =>
    show (s.ticks n).ev (k + 1) = _
    rw [ih]
    congr 1
    omega

/-- With the PHY changed. -/
def map (s : LivePhy) (f : Bcm54213 → Bcm54213) : LivePhy := { s with phy := f s.phy }

theorem ticks_map {f : Bcm54213 → Bcm54213} (hf : ∀ s e, (f s).on e = f (s.on e)) (s : LivePhy) (n : Nat) :
    (s.map f).ticks n = (s.ticks n).map f := by
  induction n with
  | zero => rfl
  | succ n ih =>
    show ((s.map f).ticks n).tick = ((s.ticks n).tick).map f
    rw [ih]
    unfold tick map
    dsimp only
    rw [Bcm54213.foldl_on_map hf]

theorem tick_map {f : Bcm54213 → Bcm54213} (hf : ∀ s e, (f s).on e = f (s.on e)) (s : LivePhy) :
    s.tick.map f = (s.map f).tick :=
  (ticks_map hf s 1).symm

@[simp] theorem map_map (s : LivePhy) (f g : Bcm54213 → Bcm54213) : (s.map f).map g = s.map fun x => g (f x) := rfl

@[simp] theorem map_phy (s : LivePhy) (f : Bcm54213 → Bcm54213) : (s.map f).phy = f s.phy := rfl

theorem map_congr {f f' : Bcm54213 → Bcm54213} (h : f s.phy = f' s.phy) : s.map f = s.map f' :=
  congrArg (fun x => { s with phy := x }) h

@[simp] theorem tick_readAux (s : LivePhy) : s.tick.phy.readAux = s.phy.readAux :=
  (Bcm54213.foldl_on_shadows s.phy (s.ev 0)).1

@[simp] theorem tick_readShd (s : LivePhy) : s.tick.phy.readShd = s.phy.readShd :=
  (Bcm54213.foldl_on_shadows s.phy (s.ev 0)).2.1

@[simp] theorem tick_shadowRegs (s : LivePhy) : s.tick.phy.shadowRegs = s.phy.shadowRegs :=
  (Bcm54213.foldl_on_shadows s.phy (s.ev 0)).2.2

@[simp] theorem tick_writeAux (s : LivePhy) (v : BitVec 16) :
    (s.tick.map fun x => x.writeAux v) = (s.map fun x => x.writeAux v).tick :=
  tick_map (fun s e => s.on_writeAux v e) s

@[simp] theorem tick_writeShd (s : LivePhy) (v : BitVec 16) :
    (s.tick.map fun x => x.writeShd v) = (s.map fun x => x.writeShd v).tick :=
  tick_map (fun s e => s.on_writeShd v e) s

@[simp] theorem tick_select (s : LivePhy) (a : BitVec 3) (b : BitVec 5) :
    (s.tick.map fun x => x.select a b) = (s.map fun x => x.select a b).tick :=
  tick_map (fun _ e => by cases e <;> rfl) s

/-- The settings that the bring-up makes, and the shadows it leaves selected. -/
def settled (s : LivePhy) : LivePhy := s.map fun x => x.configured.select 7 5

theorem ticks_settled (s : LivePhy) (n : Nat) : s.settled.ticks n = (s.ticks n).settled :=
  ticks_map (fun _ e => by cases e <;> rfl) s n

theorem ticks_select (s : LivePhy) (a : BitVec 3) (b : BitVec 5) (n : Nat) :
    (s.map fun x => x.select a b).ticks n = (s.ticks n).map fun x => x.select a b :=
  ticks_map (fun _ e => by cases e <;> rfl) s n

/-- The same but for the latch. -/
structure Like (s t : LivePhy) : Prop where
  phy : { s.phy with latch := t.phy.latch } = t.phy
  ev : s.ev = t.ev

theorem Like.tick (h : s.Like t) : s.tick.Like t.tick := by
  obtain ⟨hphy, hev⟩ := h
  refine ⟨?_, by unfold LivePhy.tick; rw [hev]⟩
  unfold LivePhy.tick
  dsimp only
  rw [hev]
  exact Bcm54213.foldl_on_like hphy

theorem Like.ticks (h : s.Like t) (n : Nat) : (s.ticks n).Like (t.ticks n) := by
  induction n with
  | zero => exact h
  | succ n ih => exact ih.tick

theorem Like.sampled (h : s.Like t) : (s.map Bcm54213.sampled).Like t := ⟨h.phy, h.ev⟩

theorem Like.settled (h : s.Like t) : s.settled.Like t.settled :=
  ⟨congrArg (fun x => x.configured.select 7 5) h.phy, h.ev⟩

theorem Like.link (h : s.Like t) : s.phy.link = t.phy.link := by
  rw [← h.phy]

theorem Like.regs (h : s.Like t) : s.phy.regs = t.phy.regs := by
  rw [← h.phy]

end LivePhy

section Meaning

variable {g : Gem} {phy : BitVec 32}

theorem Means.congr {σ α : Type} {m : MdioM σ α} {f f' : σ → α × σ} (hm : Means m f) (h : ∀ s, f s = f' s) :
    Means m f' := by
  rwa [← funext h]

theorem means_phyRead (hg : g.Prompt) (reg : BitVec 32) :
    Means (phyRead g phy reg) fun s => s.read (reg.setWidth 5) := by
  refine (means_read hg phy reg).congr fun s => ?_
  exact if_pos rfl

theorem means_phyWrite (hg : g.Prompt) (reg : BitVec 32) (data : BitVec 16) :
    Means (phyWrite g phy reg data) fun s => ((), s.write (reg.setWidth 5) data) := by
  refine (means_write hg phy reg data).congr fun s => ?_
  exact Prod.ext rfl (if_pos rfl)

/-- A register that only shows something. -/
theorem means_phyRead_reg (hg : g.Prompt) {reg : BitVec 32}
    (h : reg.setWidth 5 ≠ (1 : BitVec 5) ∧ reg.setWidth 5 ≠ (0x18 : BitVec 5) ∧ reg.setWidth 5 ≠ (0x1c : BitVec 5)) :
    Means (phyRead g phy reg) fun s => (s.tick.phy.regs (reg.setWidth 5), s.tick) := by
  refine (means_phyRead hg reg).congr fun s => ?_
  unfold LivePhy.read Bcm54213.read
  rw [if_neg h.1, if_neg h.2.1, if_neg h.2.2]

theorem means_readAux (hg : g.Prompt) : Means (phyRead g phy 0x18) fun s => (s.phy.readAux, s.tick) := by
  refine (means_phyRead hg _).congr fun s => ?_
  simp [LivePhy.read, Bcm54213.read]

theorem means_readShd (hg : g.Prompt) : Means (phyRead g phy 0x1c) fun s => (s.phy.readShd, s.tick) := by
  refine (means_phyRead hg _).congr fun s => ?_
  simp [LivePhy.read, Bcm54213.read]

theorem means_writeAux (hg : g.Prompt) (v : BitVec 16) :
    Means (phyWrite g phy 0x18 v) fun s => ((), (s.map fun x => x.writeAux v).tick) := by
  refine (means_phyWrite hg _ _).congr fun s => ?_
  rw [← LivePhy.tick_writeAux]
  rfl

theorem means_writeShd (hg : g.Prompt) (v : BitVec 16) :
    Means (phyWrite g phy 0x1c v) fun s => ((), (s.map fun x => x.writeShd v).tick) := by
  refine (means_phyWrite hg _ _).congr fun s => ?_
  rw [← LivePhy.tick_writeShd]
  rfl

/-- The data field of register 0x1c, below the selector. -/
theorem shd_field (sel : BitVec 6) (d : BitVec 10) : (sel ++ d) &&& 0x03ff = d.setWidth 16 := by
  apply BitVec.eq_of_getLsbD_eq
  intro i hi
  simp only [BitVec.getLsbD_and, BitVec.getLsbD_append]
  interval_cases i <;> simp

theorem means_readShadows (hg : g.Prompt) :
    Means (readShadows g phy) fun s => (s.phy.shadowRegs, (s.map fun x => x.select 7 5).ticks 6) := by
  refine ((means_writeAux hg _).bind fun _ => (means_readAux hg).bind fun auxmisc =>
    (means_writeShd hg _).bind fun _ => (means_readShd hg).bind fun clkctl =>
    (means_writeShd hg _).bind fun _ => (means_readShd hg).bind fun scr3 =>
    means_pure (⟨auxmisc, clkctl &&& 0x03ff, scr3 &&& 0x03ff⟩ : ShadowRegs)).congr fun s => ?_
  have h3 := shd_field 3 (s.phy.shd 3)
  have h5 := shd_field 5 (s.phy.shd 5)
  simp only [LivePhy.tick_readAux, LivePhy.tick_readShd, LivePhy.tick_writeShd, LivePhy.map_map, LivePhy.map_phy]
  simp [Bcm54213.writeAux, Bcm54213.readAux, Bcm54213.writeShd, Bcm54213.readShd, Bcm54213.shadowRegs, Bcm54213.select]
  exact ⟨⟨h3, h5⟩, rfl⟩

/-- AUXCTL as it was read, with RGMII_SKEW_EN set. -/
theorem writeAux_skew (s : Bcm54213) :
    s.writeAux (7 ||| (7#4 ++ s.misc ++ 7#3 ||| 0x0100 ||| 0x8000)) =
      { s with auxSel := 7, misc := s.misc ||| 1 <<< 5 } := by
  have hfield : (7 ||| (7#4 ++ s.misc ++ 7#3 ||| 0x0100 ||| 0x8000) : BitVec 16).extractLsb' 3 9 =
      s.misc ||| 1 <<< 5 := by
    apply BitVec.eq_of_getLsbD_eq
    intro i hi
    simp only [BitVec.getLsbD_extractLsb', BitVec.getLsbD_or, BitVec.getLsbD_append]
    interval_cases i <;> simp
  have hlow : (7 ||| (7#4 ++ s.misc ++ 7#3 ||| 0x0100 ||| 0x8000) : BitVec 16).extractLsb' 0 3 = 7 := by
    apply BitVec.eq_of_getLsbD_eq
    intro i hi
    simp only [BitVec.getLsbD_extractLsb', BitVec.getLsbD_or, BitVec.getLsbD_append]
    interval_cases i <;> simp
  have hsel : (7 ||| (7#4 ++ s.misc ++ 7#3 ||| 0x0100 ||| 0x8000) : BitVec 16).extractLsb' 12 3 = 7 := by
    apply BitVec.eq_of_getLsbD_eq
    intro i hi
    simp only [BitVec.getLsbD_extractLsb', BitVec.getLsbD_or, BitVec.getLsbD_append]
    interval_cases i <;> simp
  unfold Bcm54213.writeAux
  rw [if_pos hlow, hfield, hsel, if_pos (by simp)]

/-- A shadow of register 0x1c as it was read, with a bit set; `w` is the write bit and the selector. -/
theorem writeShd_set {w : BitVec 16} {k : BitVec 5} (hw : w.getLsbD 15 = true) (hk : w.extractLsb' 10 5 = k)
    (hlow : w.extractLsb' 0 10 = 0) (d b : BitVec 10) (s : Bcm54213) :
    s.writeShd (w ||| (d.setWidth 16 ||| b.setWidth 16) &&& 0x03ff) =
      { s with shdSel := k, shd := Function.update s.shd k (d ||| b) } := by
  have hdata : ((d.setWidth 16 ||| b.setWidth 16) &&& 0x03ff).extractLsb' 0 10 = d ||| b := by
    apply BitVec.eq_of_getLsbD_eq
    intro i hi
    simp only [BitVec.getLsbD_extractLsb', BitVec.getLsbD_or, BitVec.getLsbD_and]
    interval_cases i <;> simp
  have hhigh : ((d.setWidth 16 ||| b.setWidth 16) &&& 0x03ff).extractLsb' 10 5 = 0 := by
    rw [BitVec.extractLsb'_and]
    exact BitVec.and_zero
  unfold Bcm54213.writeShd
  rw [BitVec.extractLsb'_or, BitVec.extractLsb'_or, hdata, hhigh, hk, hlow, if_pos (by simp [hw])]
  simp

theorem means_configInit (hg : g.Prompt) :
    Means (configInit g phy) fun s => (s.phy.shadowRegs, s.settled.ticks 9) := by
  refine ((means_readShadows hg).bind fun r => (means_writeAux hg _).bind fun _ =>
    (means_writeShd hg _).bind fun _ => (means_writeShd hg _).bind fun _ => means_pure r).congr fun s => ?_
  simp only [LivePhy.ticks, LivePhy.tick_writeAux, LivePhy.tick_writeShd, LivePhy.map_map]
  have hmap : ∀ f : Bcm54213 → Bcm54213, f s.phy = s.phy.configured.select 7 5 → s.map f = s.settled :=
    fun f h => LivePhy.map_congr h
  rw [hmap]
  have hskew := writeAux_skew (s.phy.select 7 5)
  have hclk := writeShd_set (w := 35840) (k := 3) rfl rfl rfl (s.phy.shd 3) 512
  have hscr := writeShd_set (w := 37888) (k := 5) rfl rfl rfl (s.phy.shd 5) 2
  simp [Bcm54213.shadowRegs, Bcm54213.select] at hskew hclk hscr ⊢
  rw [hskew, hclk, hscr]
  simp [Bcm54213.configured]

/-! ## The wait for the link -/

namespace LivePhy

/-- Where BMSR is read the second time: it was read, and the PHY went on. -/
def round (s : LivePhy) : LivePhy := (s.tick.map Bcm54213.sampled).tick

/-- The link is up at the access with this number, and is not lost until the next. -/
def Steady (s : LivePhy) (k : Nat) : Prop := (s.ticks k).phy.link = true ∧ PhyEvent.down ∉ s.ev k

/-- The second reading shows a link that is up at the first and not lost in between. -/
theorem round_latch (s : LivePhy) : s.round.phy.latch = true ↔ s.Steady 1 :=
  Bcm54213.foldl_on_latch _ _

theorem Like.round {s t : LivePhy} (h : s.Like t) : (s.round.map Bcm54213.sampled).Like (t.ticks 2) :=
  h.tick.sampled.tick.sampled

theorem Like.steady {s t : LivePhy} (h : s.Like t) (k : Nat) : s.Steady k ↔ t.Steady k := by
  unfold Steady
  rw [(h.ticks k).link, h.ev]

theorem steady_ticks (s : LivePhy) (n k : Nat) : (s.ticks n).Steady k ↔ s.Steady (n + k) := by
  unfold Steady
  rw [ticks_ticks, ticks_ev]

theorem steady_settled (s : LivePhy) (k : Nat) : s.settled.Steady k ↔ s.Steady k := by
  unfold Steady
  rw [ticks_settled]
  rfl

end LivePhy

theorem means_readBmsrTwice (hg : g.Prompt) :
    Means (readBmsrTwice g phy) fun s => (s.round.phy.readBmsr.1, s.round.map Bcm54213.sampled) :=
  (means_phyRead hg _).bind fun _ => means_phyRead hg _

/-- The rounds of the loop, on the PHY. -/
def waitRounds : Nat → BitVec 16 → LivePhy → BitVec 16 × LivePhy
  | 0, bmsr, s => (bmsr, s)
  | n + 1, _, s =>
    let bmsr := s.round.phy.readBmsr.1
    if HasFlag bmsr bmsrLinkBit then (bmsr, s.round.map Bcm54213.sampled)
    else waitRounds n bmsr (s.round.map Bcm54213.sampled)

theorem means_autonegLoop (hg : g.Prompt) (n : Nat) (bmsr : BitVec 16) :
    Means (autonegLoop g phy n bmsr) (waitRounds n bmsr) := by
  induction n generalizing bmsr with
  | zero => exact means_pure bmsr
  | succ n ih =>
    have hif : ∀ b, Means (if HasFlag b bmsrLinkBit then pure b else autonegLoop g phy n b) fun s =>
        if HasFlag b bmsrLinkBit then (b, s) else waitRounds n b s := by
      intro b
      split
      · exact means_pure b
      · exact ih b
    exact (means_readBmsrTwice hg).bind hif

/-- **Where the wait ends**: in the first round that finds the link, or behind the last one. -/
theorem waitRounds_ends (n : Nat) (bmsr : BitVec 16) {s t : LivePhy} (h : s.Like t) :
    ∃ k ≤ n, (waitRounds n bmsr s).2.Like (t.ticks (2 * k)) ∧ (∀ j, j + 1 < k → ¬t.Steady (2 * j + 1)) ∧
      (k < n → ∃ j, k = j + 1 ∧ t.Steady (2 * j + 1)) := by
  induction n generalizing bmsr s t with
  | zero => exact ⟨0, le_rfl, h, fun j hj => absurd hj (Nat.not_lt_zero _), fun h => absurd h (Nat.lt_irrefl 0)⟩
  | succ n ih =>
    have hlink : HasFlag s.round.phy.readBmsr.1 bmsrLinkBit ↔ t.Steady 1 := by
      rw [Bcm54213.hasFlag_readBmsr, LivePhy.round_latch, h.steady]
    unfold waitRounds
    by_cases hs : t.Steady 1
    · refine ⟨1, Nat.succ_pos n, ?_, fun j hj => absurd hj (by omega), fun _ => ⟨0, rfl, hs⟩⟩
      rw [if_pos (hlink.2 hs)]
      exact h.round
    · obtain ⟨k, hk, heq, hbefore, hend⟩ := ih s.round.phy.readBmsr.1 h.round
      simp only [LivePhy.ticks_ticks, LivePhy.steady_ticks] at heq hbefore hend
      refine ⟨k + 1, Nat.succ_le_succ hk, ?_, fun j hj => ?_, fun hkn => ?_⟩
      · rw [if_neg (mt hlink.1 hs)]
        rwa [show 2 * (k + 1) = 2 + 2 * k by omega]
      · cases j with
        | zero => exact hs
        | succ j =>
          rw [show 2 * (j + 1) + 1 = 2 + (2 * j + 1) by omega]
          exact hbefore j (by omega)
      · obtain ⟨j, rfl, hj⟩ := hend (by omega)
        refine ⟨j + 1, rfl, ?_⟩
        rwa [show 2 * (j + 1) + 1 = 2 + (2 * j + 1) by omega]

theorem means_autonegWait (hg : g.Prompt) (bmsr : BitVec 16) :
    Means (autonegWait g phy bmsr) fun s => if HasFlag bmsr bmsrLinkBit then (bmsr, s) else waitRounds 40 bmsr s := by
  unfold autonegWait
  by_cases hb : HasFlag bmsr bmsrLinkBit
  · simpa [hb] using means_pure bmsr
  · simpa [hb] using means_autonegLoop hg 40 bmsr

/-! ## The bring-up -/

namespace LivePhy

/-- The PHY behind the first readings of BMSR. -/
def first (s : LivePhy) : LivePhy := (s.ticks 3).round

/-- The PHY behind the wait. -/
def waited (s : LivePhy) : LivePhy :=
  let t := (s.first.map Bcm54213.sampled).settled.ticks 9
  if s.first.phy.latch then t else (waitRounds 40 s.first.phy.readBmsr.1 t).2

/-- The access that is the first reading of BMSR, before the wait and in its rounds. -/
def reading (j : Nat) : Nat := if j = 0 then 4 else 13 + 2 * j

theorem waited_like (s : LivePhy) : ∃ k ≤ 40, s.waited.Like (s.ticks (14 + 2 * k)).settled ∧
    (∀ j < k, ¬s.Steady (reading j)) ∧ (k < 40 → s.Steady (reading k)) := by
  have hfirst : s.first.phy.latch = true ↔ s.Steady 4 := by
    rw [first, round_latch, steady_ticks]
  have hlike : ((s.first.map Bcm54213.sampled).settled.ticks 9).Like (s.ticks 14).settled := by
    have hs : s.Like s := ⟨rfl, rfl⟩
    have h := ((hs.ticks 3).round.settled).ticks 9
    rwa [ticks_settled, ticks_settled, ticks_ticks, ticks_ticks, ← ticks_settled] at h
  unfold waited
  generalize (s.first.map Bcm54213.sampled).settled.ticks 9 = t at hlike
  by_cases h : s.Steady 4
  · refine ⟨0, Nat.zero_le 40, ?_, fun j hj => absurd hj (Nat.not_lt_zero j), fun _ => h⟩
    rw [if_pos (hfirst.2 h)]
    exact hlike
  · obtain ⟨k, hk, heq, hbefore, hend⟩ := waitRounds_ends 40 s.first.phy.readBmsr.1 hlike
    simp only [ticks_settled, ticks_ticks, steady_settled, steady_ticks] at heq hbefore hend
    refine ⟨k, hk, ?_, fun j hj => ?_, fun hk' => ?_⟩
    · rw [if_neg (mt hfirst.1 h)]
      exact heq
    · cases j with
      | zero => exact h
      | succ j =>
        rw [reading, if_neg (Nat.succ_ne_zero j), show 13 + 2 * (j + 1) = 14 + (2 * j + 1) by omega]
        exact hbefore j hj
    · obtain ⟨j, rfl, hj⟩ := hend hk'
      rw [reading, if_neg (Nat.succ_ne_zero j), show 13 + 2 * (j + 1) = 14 + (2 * j + 1) by omega]
      exact hj

end LivePhy

theorem means_phyBringup (hg : g.Prompt) :
    Means (phyBringup g phy) fun s =>
      (resolveMode ((s.waited.ticks 16).phy.regs 9) ((s.waited.ticks 17).phy.regs 10) ((s.waited.ticks 18).phy.regs 5),
        (s.waited.map fun x => x.select 7 5).ticks 18) := by
  refine ((means_phyRead_reg hg (by decide)).bind fun _ => (means_phyRead_reg hg (by decide)).bind fun _ =>
    (means_phyRead_reg hg (by decide)).bind fun _ =>
    (means_readBmsrTwice hg).bind fun bmsr => (means_configInit hg).bind fun _ =>
    (means_autonegWait hg bmsr).bind fun _ => (means_phyRead_reg hg (by decide)).bind fun _ =>
    (means_readShadows hg).bind fun _ => (means_writeShd hg _).bind fun _ =>
    (means_readShd hg).bind fun _ => (means_readShadows hg).bind fun _ =>
    (means_phyRead_reg hg (by decide)).bind fun gbcr => (means_phyRead_reg hg (by decide)).bind fun gbsr =>
    (means_phyRead_reg hg (by decide)).bind fun anlpar => means_pure (resolveMode gbcr gbsr anlpar)).congr fun s => ?_
  have hwaited : (if HasFlag s.tick.tick.tick.round.phy.readBmsr.1 bmsrLinkBit then
        (s.tick.tick.tick.round.phy.readBmsr.1, (s.tick.tick.tick.round.map Bcm54213.sampled).settled.ticks 9)
      else waitRounds 40 s.tick.tick.tick.round.phy.readBmsr.1
        ((s.tick.tick.tick.round.map Bcm54213.sampled).settled.ticks 9)).2 = s.waited := by
    simp only [Bcm54213.hasFlag_readBmsr]
    unfold LivePhy.waited
    split <;> rename_i h
    · exact (if_pos h).symm
    · exact (if_neg h).symm
  dsimp only
  rw [hwaited]
  generalize s.waited = w
  have hselect : ∀ x : Bcm54213, ((x.select 7 5).writeShd (0x001c <<< 10)).select 7 5 = x.select 7 5 := fun _ => rfl
  have hregs : ∀ n, (w.ticks n).phy.regs = ((w.map fun x => x.select 7 5).ticks n).phy.regs := by
    intro n
    rw [LivePhy.ticks_select]
    rfl
  rw [hregs, hregs, hregs]
  simp only [LivePhy.ticks, LivePhy.tick_select, LivePhy.tick_writeShd, LivePhy.map_map, hselect]
  rfl

/-- **The bring-up of the PHY.** However the link comes and goes between the accesses, the code ends its wait in the
first round in which the link is up when BMSR is read and not lost before it is read again, or behind the 40th; the mode
is the one that registers 9, 10 and 5 say, each when it is read; and the PHY is what it has become by itself, but for
the latch of BMSR, with RGMII_SKEW_EN, GTXCLK_EN and DLLAPD_DIS set and nothing else written but the two selectors. -/
theorem phy_bringup_ok (hg : g.Prompt) {p : MdioPort LivePhy} (hp : p.job = none) :
    ∃ q, ∃ k ≤ 40,
      phyBringup g phy p = some (resolveMode ((p.dev.ticks (30 + 2 * k)).phy.regs 9)
        ((p.dev.ticks (31 + 2 * k)).phy.regs 10) ((p.dev.ticks (32 + 2 * k)).phy.regs 5), q) ∧
      q.job = none ∧ q.dev.Like (p.dev.ticks (32 + 2 * k)).settled ∧
      (∀ j < k, ¬p.dev.Steady (LivePhy.reading j)) ∧ (k < 40 → p.dev.Steady (LivePhy.reading k)) := by
  obtain ⟨q, hq, hdev, hjob⟩ := means_phyBringup hg p hp
  dsimp only at hq hdev
  obtain ⟨k, hk, hlike, hbefore, hend⟩ := p.dev.waited_like
  have hticks : ∀ n, (p.dev.waited.ticks n).Like (p.dev.ticks (14 + n + 2 * k)).settled := by
    intro n
    have h := hlike.ticks n
    rwa [LivePhy.ticks_settled, LivePhy.ticks_ticks, show 14 + 2 * k + n = 14 + n + 2 * k by omega] at h
  have hregs : ∀ n, (p.dev.waited.ticks n).phy.regs = (p.dev.ticks (14 + n + 2 * k)).phy.regs :=
    fun n => (hticks n).regs
  refine ⟨q, k, hk, ?_, hjob, ?_, hbefore, hend⟩
  · rw [hq, hregs, hregs, hregs]
  · rw [hdev, LivePhy.ticks_select]
    exact ⟨congrArg (fun x => x.select 7 5) (hticks 18).phy, (hticks 18).ev⟩

/-- A PHY after power-up, which offers 1000BASE-T in full duplex. -/
def freshPhy : Bcm54213 := ⟨Function.update (fun _ => 0) 9 0x0200, false, false, 0, fun _ => 0, 0, 0, fun _ => 0⟩

/-- The link comes up in the pause of the third round. -/
def freshLive : LivePhy := ⟨freshPhy, fun n => if n = 18 then [PhyEvent.up 0x0800 0] else []⟩

theorem phy_bringup_ok_fresh :
    ∃ q, ∃ k ≤ 40,
      phyBringup slowGem 1 ⟨freshLive, 0, none, 0⟩ = some (resolveMode ((freshLive.ticks (30 + 2 * k)).phy.regs 9)
        ((freshLive.ticks (31 + 2 * k)).phy.regs 10) ((freshLive.ticks (32 + 2 * k)).phy.regs 5), q) ∧
      q.job = none ∧ q.dev.Like (freshLive.ticks (32 + 2 * k)).settled ∧
      (∀ j < k, ¬freshLive.Steady (LivePhy.reading j)) ∧ (k < 40 → freshLive.Steady (LivePhy.reading k)) :=
  phy_bringup_ok (p := ⟨freshLive, 0, none, 0⟩) slowGem_prompt rfl

end Meaning

end Eth
