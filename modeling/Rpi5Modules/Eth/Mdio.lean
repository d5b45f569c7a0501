import Mathlib.Tactic.IntervalCases
import Rpi5Modules.Lib.BusyPort
import Rpi5Modules.Lib.Mdio

/-!
# The management bus of the MAC

`rp1_eth_cfg.c` and `rp1_eth.c` both read the registers of the PHY through PHY_MAINT, which takes one frame at a time,
and poll the idle bit of NET_STATUS for its end. The times are in nanoseconds.

`rp1_eth_mdio_read` and `rp1_eth_mdio_write` wait for the frame before, and pause before they poll; whatever order they
are called in, the PHY sees the reads and writes they are called for, once each (`mdio_refines`). `rp1eth_mdio_read` of
the tick does neither: it gives the register only if the idle bit is down as soon as the frame is stored
(`rp1ethMdioRead_cases`).
-/

namespace Eth

open BusyPort Mdio

/-! ## Frames -/

def gemMaintSof : BitVec 32 := 1 <<< 30
def gemMaintOpRd : BitVec 32 := 2 <<< 28
def gemMaintOpWr : BitVec 32 := 1 <<< 28
def gemMaintPhy (x : BitVec 32) : BitVec 32 := (x &&& 0x1f) <<< 23
def gemMaintReg (x : BitVec 32) : BitVec 32 := (x &&& 0x1f) <<< 18
def gemMaintTa : BitVec 32 := 2 <<< 16
def gemMaintData (x : BitVec 16) : BitVec 32 := x.setWidth 32 &&& 0xffff

/-- `frame` of `rp1_eth_mdio_read`. -/
def readFrame (phy reg : BitVec 32) : BitVec 32 :=
  gemMaintSof ||| gemMaintOpRd ||| gemMaintPhy phy ||| gemMaintReg reg ||| gemMaintTa

/-- `frame` of `rp1_eth_mdio_write`. -/
def writeFrame (phy reg : BitVec 32) (data : BitVec 16) : BitVec 32 :=
  gemMaintSof ||| gemMaintOpWr ||| gemMaintPhy phy ||| gemMaintReg reg ||| gemMaintTa ||| gemMaintData data

/-- What `rp1eth_mdio_read` stores: the addresses are not masked. -/
def cgemReadFrame (phy reg : BitVec 32) : BitVec 32 :=
  1 <<< 30 ||| 2 <<< 16 ||| 2 <<< 28 ||| phy <<< 23 ||| reg <<< 18

theorem readFrame_eq (phy reg : BitVec 32) :
    readFrame phy reg = Request.encode ⟨phy.setWidth 5, reg.setWidth 5, .read⟩ := by
  apply BitVec.eq_of_getLsbD_eq
  intro i hi
  simp only [readFrame, gemMaintSof, gemMaintOpRd, gemMaintPhy, gemMaintReg, gemMaintTa, Request.encode, Op.code,
    Op.data, BitVec.getLsbD_append]
  interval_cases i <;> simp

theorem writeFrame_eq (phy reg : BitVec 32) (data : BitVec 16) :
    writeFrame phy reg data = Request.encode ⟨phy.setWidth 5, reg.setWidth 5, .write data⟩ := by
  apply BitVec.eq_of_getLsbD_eq
  intro i hi
  simp only [writeFrame, gemMaintSof, gemMaintOpWr, gemMaintPhy, gemMaintReg, gemMaintTa, gemMaintData, Request.encode,
    Op.code, Op.data, BitVec.getLsbD_append]
  interval_cases i <;> simp

/-- With addresses of 5 bits both read with the same frame. -/
theorem cgemReadFrame_eq {phy reg : BitVec 32} (hphy : phy.toNat < 32) (hreg : reg.toNat < 32) :
    cgemReadFrame phy reg = readFrame phy reg := by
  have hmask : ∀ x : BitVec 32, x.toNat < 32 → x &&& 0x1f = x := by
    intro x hx
    apply BitVec.eq_of_toNat_eq
    rw [BitVec.toNat_and]
    exact Nat.and_two_pow_sub_one_of_lt_two_pow (n := 5) hx
  unfold cgemReadFrame readFrame gemMaintSof gemMaintOpRd gemMaintPhy gemMaintReg gemMaintTa
  rw [hmask phy hphy, hmask reg hreg]
  generalize (1 <<< 30 : BitVec 32) = a
  generalize (2 <<< 16 : BitVec 32) = b
  generalize (2 <<< 28 : BitVec 32) = c
  generalize phy <<< 23 = x
  generalize reg <<< 18 = y
  ac_rfl

/-! ## The code -/

/-- The management unit of the MAC and the clock: `DELAY(n)` takes `n` microseconds at least. -/
structure Gem where
  env : Env (BitVec 16)
  delay : Nat → Nat
  delay_le : ∀ us, 1000 * us ≤ delay us

/-- PHY_MAINT with the PHY behind it. -/
abbrev MdioPort (σ : Type) := Port σ (BitVec 32) (BitVec 16)

/-- Code that sends frames. -/
abbrev MdioM (σ : Type) := StateT (MdioPort σ) Option

section Code

variable {σ : Type} (dev : Device σ) (addr : BitVec 5) (g : Gem)

/-- The loop that waits for the idle bit: `for (i = 0; i < 1000; i++) { if (idle) break; DELAY(10); }`. -/
def mdioWait (p : MdioPort σ) : MdioPort σ := (p.wait (Mdio.exec dev addr) g.env (g.delay 10) 1000).2

/-- Stores a frame and waits for its end; `none` is a frame stored over one that is being sent. -/
def mdioSend (frame : BitVec 32) (p : MdioPort σ) : Option (MdioPort σ) :=
  ((mdioWait dev addr g p).issue g.env frame).map fun p =>
    mdioWait dev addr g (p.advance (Mdio.exec dev addr) (g.env.access + g.delay 10))

/-- `rp1_eth_mdio_read(sc, phy, reg)`. -/
def rp1EthMdioRead (phy reg : BitVec 32) : MdioM σ (BitVec 16) := fun p =>
  (mdioSend dev addr g (readFrame phy reg) p).map fun p =>
    (p.shown g.env, p.advance (Mdio.exec dev addr) g.env.access)

/-- `rp1_eth_mdio_write(sc, phy, reg, data)`. -/
def rp1EthMdioWrite (phy reg : BitVec 32) (data : BitVec 16) : MdioM σ Unit := fun p =>
  (mdioSend dev addr g (writeFrame phy reg data) p).map fun p => ((), p)

/-- `rp1eth_mdio_read(sc, phy, reg)` of `rp1_eth.c`: the poll ends with the 201st test that fails. -/
def rp1ethMdioRead (phy reg : BitVec 32) : MdioM σ Int := fun p =>
  (p.issue g.env (cgemReadFrame phy reg)).map fun p =>
    match (p.advance (Mdio.exec dev addr) g.env.access).wait (Mdio.exec dev addr) g.env (g.delay 5) 201 with
    | (true, p) => ((p.shown g.env).toNat, p.advance (Mdio.exec dev addr) g.env.access)
    | (false, p) => (-1, p)

/-- A call of `rp1_eth_mdio_read` or `rp1_eth_mdio_write`. -/
inductive MdioCall where
  | read (phy reg : BitVec 32)
  | write (phy reg : BitVec 32) (data : BitVec 16)

/-- Calls one after another, and what the reads return. -/
def mdioRun : List MdioCall → MdioM σ (List (BitVec 16))
  | [] => pure []
  | .read phy reg :: cs => do
    let v ← rp1EthMdioRead dev addr g phy reg
    let vs ← mdioRun cs
    pure (v :: vs)
  | .write phy reg data :: cs => do
    rp1EthMdioWrite dev addr g phy reg data
    mdioRun cs

/-- What the calls mean: each is one access of the PHY. -/
def busRun : List MdioCall → σ → List (BitVec 16) × σ
  | [], s => ([], s)
  | .read phy reg :: cs, s =>
    let r := perform dev addr s ⟨phy.setWidth 5, reg.setWidth 5, .read⟩
    let r' := busRun cs r.2
    (r.1 :: r'.1, r'.2)
  | .write phy reg data :: cs, s => busRun cs (perform dev addr s ⟨phy.setWidth 5, reg.setWidth 5, .write data⟩).2

end Code

/-! ## Frame by frame -/

/-- The idle bit goes down within 10 µs, and a frame takes 10 ms at most. -/
structure Gem.Prompt (g : Gem) : Prop where
  lag : ∀ k, g.env.lag k ≤ 10000
  len : ∀ k, g.env.len k ≤ 10000000

section Calls

variable {σ : Type} {dev : Device σ} {addr : BitVec 5} {g : Gem} {p : MdioPort σ}

/-- A frame that is being sent ends within 9 ms, and its idle bit is down. -/
structure MdioReady (p : MdioPort σ) : Prop where
  clear : p.Clear
  left : ∀ j, p.job = some j → j.left ≤ 9990000

theorem mdioReady_idle (h : p.job = none) : MdioReady p :=
  ⟨fun j hj => by simp [h] at hj, fun j hj => by simp [h] at hj⟩

theorem mdioWait_ready (hp : MdioReady p) : mdioWait dev addr g p = p.finish (Mdio.exec dev addr) := by
  unfold mdioWait
  rw [Port.wait_settles hp.clear]
  intro j hj
  have hl := hp.left j hj
  have hd := g.delay_le 10
  have hmul : 999 * 10000 ≤ 999 * (g.env.access + g.delay 10) := Nat.mul_le_mul_left 999 (by omega)
  omega

/-- **A frame is sent once**, behind the one before it. -/
theorem mdioSend_eq (hg : g.Prompt) (hp : MdioReady p) (frame : BitVec 32) :
    mdioSend dev addr g frame p = some ((p.finish (Mdio.exec dev addr)).executed (Mdio.exec dev addr) frame) := by
  have hjob : (p.finish (Mdio.exec dev addr)).job = none := Port.finish_job p
  have hd := g.delay_le 10
  have hlag := hg.lag (p.finish (Mdio.exec dev addr)).issued
  have hlen := hg.len (p.finish (Mdio.exec dev addr)).issued
  unfold mdioSend
  rw [mdioWait_ready hp, Port.issue_none hjob, Option.map_some]
  unfold mdioWait
  rw [Port.transact frame hjob (by omega)]
  have hmul : 999 * 10000 ≤ 999 * (g.env.access + g.delay 10) := Nat.mul_le_mul_left 999 (by omega)
  omega

/-- A frame that is being sent before a call is waited for. -/
theorem mdioSend_finish (hg : g.Prompt) (hp : MdioReady p) (frame : BitVec 32) :
    mdioSend dev addr g frame p = mdioSend dev addr g frame (p.finish (Mdio.exec dev addr)) := by
  have hjob : (p.finish (Mdio.exec dev addr)).job = none := Port.finish_job p
  rw [mdioSend_eq hg hp, mdioSend_eq hg (mdioReady_idle hjob), Port.finish_none hjob]

/-! ## Programs -/

/-- On an idle bus the code does what `f` does to the PHY, and leaves the bus idle. -/
def Means {α : Type} (m : MdioM σ α) (f : σ → α × σ) : Prop :=
  ∀ p, p.job = none → ∃ q, m p = some ((f p.dev).1, q) ∧ q.dev = (f p.dev).2 ∧ q.job = none

theorem means_pure {α : Type} (a : α) : Means (σ := σ) (pure a) fun s => (a, s) :=
  fun p hp => ⟨p, rfl, rfl, hp⟩

theorem Means.bind {α β : Type} {m : MdioM σ α} {f : σ → α × σ} {k : α → MdioM σ β} {h : α → σ → β × σ}
    (hm : Means m f) (hk : ∀ a, Means (k a) (h a)) : Means (m >>= k) fun s => h (f s).1 (f s).2 := by
  intro p hp
  obtain ⟨q, hq, hdev, hjob⟩ := hm p hp
  obtain ⟨r, hr, hdev', hjob'⟩ := hk (f p.dev).1 q hjob
  rw [hdev] at hr hdev'
  refine ⟨r, ?_, hdev', hjob'⟩
  show (m p).bind (fun x => k x.1 x.2) = _
  rw [hq, Option.bind_some]
  exact hr

theorem means_read (hg : g.Prompt) (phy reg : BitVec 32) :
    Means (rp1EthMdioRead dev addr g phy reg) fun s =>
      perform dev addr s ⟨phy.setWidth 5, reg.setWidth 5, .read⟩ := by
  intro p hp
  have hjob : (p.executed (Mdio.exec dev addr) (readFrame phy reg)).job = none := hp
  unfold rp1EthMdioRead
  rw [mdioSend_eq hg (mdioReady_idle hp), Port.finish_none hp, Option.map_some, Port.shown_none hjob,
    Port.advance_none hjob]
  simp only [← exec_encode, ← readFrame_eq]
  exact ⟨_, rfl, rfl, hjob⟩

theorem means_write (hg : g.Prompt) (phy reg : BitVec 32) (data : BitVec 16) :
    Means (rp1EthMdioWrite dev addr g phy reg data) fun s =>
      ((), (perform dev addr s ⟨phy.setWidth 5, reg.setWidth 5, .write data⟩).2) := by
  intro p hp
  unfold rp1EthMdioWrite
  rw [mdioSend_eq hg (mdioReady_idle hp), Port.finish_none hp, Option.map_some]
  simp only [← exec_encode, ← writeFrame_eq]
  exact ⟨_, rfl, rfl, hp⟩

theorem means_run (hg : g.Prompt) (cs : List MdioCall) : Means (mdioRun dev addr g cs) (busRun dev addr cs) := by
  induction cs with
  | nil => exact means_pure []
  | cons c cs ih =>
    cases c with
    | read phy reg => exact (means_read hg phy reg).bind fun v => ih.bind fun vs => means_pure (v :: vs)
    | write phy reg data => exact (means_write hg phy reg data).bind fun _ => ih

/-- **The calls mean accesses of the PHY**: whatever the calls, each read returns what the PHY's register gives at its
turn, each write stores, in the order of the calls, and no frame is stored over another one, not even over one that is
being sent when the first call is made. -/
theorem mdio_refines (hg : g.Prompt) (hp : MdioReady p) (cs : List MdioCall) :
    ∃ q, mdioRun dev addr g cs p = some ((busRun dev addr cs (p.finish (Mdio.exec dev addr)).dev).1, q) ∧
      (q.finish (Mdio.exec dev addr)).dev = (busRun dev addr cs (p.finish (Mdio.exec dev addr)).dev).2 := by
  have hjob : (p.finish (Mdio.exec dev addr)).job = none := Port.finish_job p
  cases cs with
  | nil => exact ⟨p, rfl, rfl⟩
  | cons c cs =>
    have hrun : mdioRun dev addr g (c :: cs) p = mdioRun dev addr g (c :: cs) (p.finish (Mdio.exec dev addr)) := by
      cases c with
      | read phy reg =>
        show (rp1EthMdioRead dev addr g phy reg p).bind _ = (rp1EthMdioRead dev addr g phy reg _).bind _
        unfold rp1EthMdioRead
        rw [mdioSend_finish hg hp]
      | write phy reg data =>
        show (rp1EthMdioWrite dev addr g phy reg data p).bind _ = (rp1EthMdioWrite dev addr g phy reg data _).bind _
        unfold rp1EthMdioWrite
        rw [mdioSend_finish hg hp]
    obtain ⟨q, hq, hdev, hq'⟩ := means_run hg (c :: cs) _ hjob
    refine ⟨q, hrun.trans hq, ?_⟩
    rw [Port.finish_none hq', hdev]

/-- A device that only stores. -/
def storage : Device (BitVec 5 → BitVec 16) := ⟨fun s r => (s r, s), Function.update⟩

/-- A MAC that needs 30 µs for a frame, and 2 µs for its idle bit. -/
def slowGem : Gem :=
  ⟨⟨100, fun _ => 2000, fun _ => 30000, fun _ _ => 0xffff⟩, fun us => 1000 * us, fun _ => Nat.le_refl _⟩

theorem slowGem_prompt : slowGem.Prompt := ⟨fun _ => Nat.le_of_ble_eq_true rfl, fun _ => Nat.le_of_ble_eq_true rfl⟩

theorem mdio_refines_slow :
    ∃ q, mdioRun storage 1 slowGem [.write 1 0x18 0x7007, .read 1 0x18] ⟨fun _ => 0, 0, none, 0⟩ = some ([0x7007], q) ∧
      (q.finish (Mdio.exec storage 1)).dev = Function.update (fun _ => 0) 0x18 0x7007 :=
  mdio_refines (p := ⟨fun _ => 0, 0, none, 0⟩) slowGem_prompt (mdioReady_idle rfl) [.write 1 0x18 0x7007, .read 1 0x18]

/-! ## Without the pause -/

/-- If the idle bit goes down no later than the first poll, the read of the tick gives the register. -/
theorem rp1ethMdioRead_eq (hp : p.job = none) {phy reg : BitVec 32} (hphy : phy.toNat < 32) (hreg : reg.toNat < 32)
    (hlag : g.env.lag p.issued ≤ g.env.access)
    (hlen : g.env.len p.issued ≤ g.env.access + 200 * (g.env.access + g.delay 5)) :
    rp1ethMdioRead dev addr g phy reg p =
      some (((perform dev addr p.dev ⟨phy.setWidth 5, reg.setWidth 5, .read⟩).1.toNat : Int),
        p.executed (Mdio.exec dev addr) (readFrame phy reg)) := by
  have hjob : (p.executed (Mdio.exec dev addr) (readFrame phy reg)).job = none := hp
  unfold rp1ethMdioRead
  rw [Port.issue_none hp, cgemReadFrame_eq hphy hreg, Option.map_some, Port.transact _ hp hlag hlen]
  dsimp only
  rw [Port.shown_none hjob, Port.advance_none hjob, ← exec_encode, ← readFrame_eq]
  rfl

/-- **The read of the tick**, on an idle bus. If the idle bit goes down no later than the first poll, the read gives
the register, or fails exactly if the frame takes longer than 200 polls. If the bit goes down later, the read returns
what the data field shows midway, with the frame still being sent. -/
theorem rp1ethMdioRead_cases (hp : p.job = none) {phy reg : BitVec 32} (hphy : phy.toNat < 32)
    (hreg : reg.toNat < 32) :
    (g.env.lag p.issued ≤ g.env.access →
      g.env.len p.issued ≤ g.env.access + 200 * (g.env.access + g.delay 5) →
      rp1ethMdioRead dev addr g phy reg p =
        some (((perform dev addr p.dev ⟨phy.setWidth 5, reg.setWidth 5, .read⟩).1.toNat : Int),
          p.executed (Mdio.exec dev addr) (readFrame phy reg))) ∧
    (g.env.lag p.issued ≤ g.env.access →
      g.env.access + 200 * (g.env.access + g.delay 5) < g.env.len p.issued →
      (rp1ethMdioRead dev addr g phy reg p).map Prod.fst = some (-1)) ∧
    (g.env.access < g.env.lag p.issued → 3 * g.env.access < g.env.len p.issued →
      ∃ q, rp1ethMdioRead dev addr g phy reg p =
          some (((g.env.midway (p.issued + 1) (g.env.len p.issued - (g.env.access + g.env.access))).toNat : Int), q) ∧
        q.dev = p.dev ∧ q.job ≠ none) := by
  refine ⟨rp1ethMdioRead_eq hp hphy hreg, fun hlag hlen => ?_, fun hlag hlen => ?_⟩
  · have hwait : (((p.stored g.env (readFrame phy reg)).advance (Mdio.exec dev addr) g.env.access).wait
        (Mdio.exec dev addr) g.env (g.delay 5) 201).1 = false := Port.transact_late _ hlag hlen
    unfold rp1ethMdioRead
    rw [Port.issue_none hp, cgemReadFrame_eq hphy hreg, Option.map_some, Option.map_some]
    split
    · next hw => rw [hw] at hwait; cases hwait
    · rfl
  · unfold rp1ethMdioRead
    rw [Port.issue_none hp, cgemReadFrame_eq hphy hreg, Option.map_some, Port.transact_early _ hlag (by omega)]
    dsimp only
    rw [← Port.advance_add, Port.advance_working rfl (by dsimp only [Port.stored]; omega),
      Port.advance_working rfl (by dsimp only [Port.stored]; omega)]
    exact ⟨_, rfl, rfl, Option.some_ne_none _⟩

/-- On the same MAC, the read of the tick gives what the undriven bus shows. -/
theorem rp1ethMdioRead_cases_slow :
    ∃ q, rp1ethMdioRead storage 1 slowGem 1 1 ⟨fun _ => 0, 0, none, 0⟩ = some (0xffff, q) ∧
      q.dev = (fun _ => 0) ∧ q.job ≠ none :=
  (rp1ethMdioRead_cases (p := ⟨fun _ => 0, 0, none, 0⟩) rfl (by decide) (by decide)).2.2 (by decide) (by decide)

end Calls

end Eth
