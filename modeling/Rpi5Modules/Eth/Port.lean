import Rpi5Modules.Eth.Mac
import Rpi5Modules.Eth.Service

/-!
# The interface and its MAC

`Serv` says who works on the interface, when, and what becomes of its rings; here the same steps write the registers of
the MAC, under the lock, according to the flags, the capabilities and the multicast list of the interface.

A change of the flags or of the list is one step with the ioctl that follows it.

- `Port.step` takes a step of `Serv` with what it does to the registers; `Port.Step` lists what that can be
  (`Port.step_cases`);
- the shadow of NET_CFG is what the register holds, and the hash is clear on an interface that is down
  (`Port.Synced`, `Port.synced_step`).
-/

namespace Eth

open Flags Transition

/-! ## State -/

/-- The softc, with the registers, and what the interface is configured to. -/
structure Port where
  serv : Serv
  mac : Mac
  cfgKva : Bool
  linkUp : Bool
  ifFlags : BitVec 32
  ifOldFlags : BitVec 32
  capenable : BitVec 32
  mcast : List EtherAddr

/-- `IFF_BROADCAST | IFF_SIMPLEX | IFF_MULTICAST`. -/
def attachFlags : BitVec 32 := 0x8802

namespace Port

/-- After `rp1eth_attach`; `m` is what the registers were before. -/
def attached (rxbufs : Int) (m : Mac) (cfgKva : Bool) : Port where
  serv := Serv.attached rxbufs false
  mac := cgemReset m
  cfgKva := cfgKva
  linkUp := false
  ifFlags := attachFlags
  ifOldFlags := attachFlags
  capenable := ifcapVlanMtu
  mcast := []

/-! ## What the calls do to the registers -/

/-- `cgem_init_locked(sc)`. -/
def initLocked (p : Port) : Port :=
  if p.serv.running then p else { p with mac := cgemConfig p.mac p.capenable }

/-- Whether `SIOCSIFFLAGS` on a running interface sets the filter. -/
def filterChanged (p : Port) : Bool :=
  HasFlag (p.ifFlags ^^^ p.ifOldFlags) iffPromiscBit ∨ HasFlag (p.ifFlags ^^^ p.ifOldFlags) iffAllmultiBit

/-- `SIOCSIFFLAGS`, for the flags there are now. -/
def sioCSIFFlags (p : Port) : Port :=
  let p' :=
    if HasFlag p.ifFlags iffUpBit then
      if p.serv.running then
        if p.filterChanged then { p with mac := cgemRxFilter p.mac p.ifFlags p.mcast } else p
      else p.initLocked
    else if p.serv.running then { p with mac := cgemReset p.mac }
    else p
  { p' with ifOldFlags := p.ifFlags }

def setTxcsum (p : Port) (on : Bool) : Port :=
  if on then
    { p with
      capenable := p.capenable ||| (ifcapTxcsum ||| ifcapTxcsumIpv6)
      mac := { p.mac with dmaCfg := p.mac.dmaCfg ||| cgemDmaCfgChksumGenOffloadEn } }
  else
    { p with
      capenable := p.capenable &&& ~~~(ifcapTxcsum ||| ifcapTxcsumIpv6)
      mac := { p.mac with dmaCfg := p.mac.dmaCfg &&& ~~~cgemDmaCfgChksumGenOffloadEn } }

def setRxcsum (p : Port) (on : Bool) : Port :=
  if on then
    let m := { p.mac with netCfgShadow := p.mac.netCfgShadow ||| cgemNetCfgRxChksumOffldEn }
    { p with
      capenable := p.capenable ||| (ifcapRxcsum ||| ifcapRxcsumIpv6)
      mac := m.wrNetCfg m.netCfgShadow }
  else
    let m := { p.mac with netCfgShadow := p.mac.netCfgShadow &&& ~~~cgemNetCfgRxChksumOffldEn }
    { p with
      capenable := p.capenable &&& ~~~(ifcapRxcsum ||| ifcapRxcsumIpv6)
      mac := m.wrNetCfg m.netCfgShadow }

/-- `SIOCSIFCAP`. -/
def sioCSIFCap (p : Port) (reqcap : BitVec 32) : Port :=
  let mask := p.capenable ^^^ reqcap
  let p := if HasFlag mask ifcapTxcsumBit then p.setTxcsum (HasFlag reqcap ifcapTxcsumBit) else p
  let p := if HasFlag mask ifcapRxcsumBit then p.setRxcsum (HasFlag reqcap ifcapRxcsumBit) else p
  { p with
    capenable :=
      if HasFlag p.capenable ifcapRxcsumBit ∧ HasFlag p.capenable ifcapTxcsumBit then p.capenable ||| ifcapVlanHwcsum
      else p.capenable &&& ~~~ifcapVlanHwcsum }

/-- `rp1eth_tick`; `bmsr` is the second reading of the register, unless that fails. -/
def tick (p : Port) (bmsr : Option (BitVec 16)) : Port :=
  let linkUp : Bool := ∃ b ∈ bmsr, HasFlag b bmsrLinkBit
  if !p.serv.running then p
  else if linkUp ≠ p.linkUp then
    { p with linkUp := linkUp, mac := if linkUp then rp1ethUpdateSpeed p.mac p.cfgKva else p.mac }
  else p

end Port

namespace Mac

/-- The stores of `cgem_start_locked`: two for each frame it posts. -/
def startTx (m : Mac) (acts : List TxAct) : Mac :=
  acts.foldl
    (fun m a =>
      match a with
      | .post _ _ => (m.wrNetCtrl (m.netCtlShadow ||| cgemNetCtrlStartTx)).wrUserIo 1
      | _ => m)
    m

/-- The store of `cgem_intr_task` when the hardware ran out of descriptors. -/
def flush (m : Mac) (ist : BitVec 32) : Mac :=
  if HasFlag ist intrRxUsedReadBit then m.wrNetCtrl (m.netCtlShadow ||| cgemNetCtrlFlushDpramPkt) else m

end Mac

namespace Port

/-- What the steps of `Serv` that stand as they are do to the registers. -/
def served (p : Port) : ServAct → Mac
  | .start acts => p.mac.startTx acts
  | .taskTail _ _ send =>
    match p.serv.task with
    | .tail ist => (p.mac.flush ist).startTx send
    | _ => p.mac
  | _ => p.mac

/-! ## Steps -/

end Port

/-- The steps of `Serv` that stand as they are: neither an ioctl that sets the interface up, nor the tick. -/
def ServAct.beside : ServAct → Bool
  | init _ => false
  | ifflags _ _ => false
  | ifcap _ => false
  | tick => false
  | _ => true

inductive PortAct where
  /-- `cgem_init`. -/
  | init (os : List FillOutcome)
  /-- A change of the flags, and `SIOCSIFFLAGS`. -/
  | ifflags (flags : BitVec 32) (os : List FillOutcome)
  /-- A change of the multicast list, and `SIOCADDMULTI` or `SIOCDELMULTI`: the test of `IFF_DRV_RUNNING`, which the
  source makes before it takes the lock, and the filter under it. -/
  | multi (mcast : List EtherAddr)
  | ifcap (reqcap : BitVec 32)
  | tick (bmsr : Option (BitVec 16))
  | serv (a : ServAct)

namespace Port

def step (p : Port) : PortAct → Option Port
  | .init os => (p.serv.step (.init os)).map fun sv => { p.initLocked with serv := sv }
  | .ifflags flags os =>
    (p.serv.step (.ifflags (HasFlag flags iffUpBit) os)).map fun sv =>
      { { p with ifFlags := flags }.sioCSIFFlags with serv := sv }
  | .multi mcast =>
    if p.serv.running then
      (p.serv.step .ioctl).map fun sv =>
        { p with serv := sv, mcast := mcast, mac := cgemRxFilter p.mac p.ifFlags mcast }
    else some { p with mcast := mcast }
  | .ifcap reqcap =>
    (p.serv.step (.ifcap (HasFlag reqcap ifcapRxcsumBit))).map fun sv => { p.sioCSIFCap reqcap with serv := sv }
  | .tick bmsr => (p.serv.step .tick).map fun sv => { p.tick bmsr with serv := sv }
  | .serv a => if a.beside then (p.serv.step a).map fun sv => { p with serv := sv, mac := p.served a } else none

/-! ## What the calls leave alone -/

/-- Transmission writes NET_CTRL and USER_IO only. -/
theorem startTx_eq (m : Mac) (acts : List TxAct) :
    m.startTx acts = { m with netCtrl := (m.startTx acts).netCtrl, userIo := (m.startTx acts).userIo } := by
  unfold Mac.startTx
  refine List.foldlRecOn (motive := fun m' : Mac => m' = { m with netCtrl := m'.netCtrl, userIo := m'.userIo }) _ _
    rfl ?_
  intro m' hm a _
  cases a with
  | post sg defrag =>
    rw [hm]
    rfl
  | _ => exact hm

theorem served_eq (p : Port) (a : ServAct) :
    p.served a = { p.mac with netCtrl := (p.served a).netCtrl, userIo := (p.served a).userIo } := by
  unfold served
  split
  · exact startTx_eq p.mac _
  · split
    · rw [startTx_eq]
      unfold Mac.flush
      split <;> rfl
    · rfl
  · rfl

theorem tick_eq (p : Port) (bmsr : Option (BitVec 16)) :
    p.tick bmsr =
      { p with linkUp := (p.tick bmsr).linkUp, mac := { p.mac with clkgen := (p.tick bmsr).mac.clkgen } } := by
  unfold tick
  dsimp only
  split
  · rfl
  · split
    · split
      · unfold rp1ethUpdateSpeed
        split <;> rfl
      · rfl
    · rfl

theorem sioCSIFCap_eq (p : Port) (reqcap : BitVec 32) :
    p.sioCSIFCap reqcap =
      { p with
        capenable := (p.sioCSIFCap reqcap).capenable
        mac :=
          { p.mac with
            dmaCfg := (p.sioCSIFCap reqcap).mac.dmaCfg
            netCfg := (p.sioCSIFCap reqcap).mac.netCfg
            netCfgShadow := (p.sioCSIFCap reqcap).mac.netCfgShadow } } := by
  unfold sioCSIFCap
  dsimp only
  generalize decide (HasFlag reqcap ifcapTxcsumBit) = tx
  generalize decide (HasFlag reqcap ifcapRxcsumBit) = rx
  split
  · split
    · cases tx <;> cases rx <;> rfl
    · cases rx <;> rfl
  · split
    · cases tx <;> rfl
    · rfl

/-- The receive checksum bit is all of NET_CFG that `SIOCSIFCAP` changes. -/
theorem sioCSIFCap_netCfg (reqcap : BitVec 32) {p : Port} (h : p.mac.netCfg = p.mac.netCfgShadow) :
    (p.sioCSIFCap reqcap).mac.netCfg = (p.sioCSIFCap reqcap).mac.netCfgShadow ∧
      ∀ k, ¬HasFlag cgemNetCfgRxChksumOffldEn k →
        (HasFlag (p.sioCSIFCap reqcap).mac.netCfg k ↔ HasFlag p.mac.netCfg k) := by
  have htx : ∀ on, (p.setTxcsum on).mac.netCfg = p.mac.netCfg ∧
      (p.setTxcsum on).mac.netCfgShadow = p.mac.netCfgShadow := by
    intro on
    cases on <;> exact ⟨rfl, rfl⟩
  have hrx : ∀ (q : Port) on, q.mac.netCfgShadow = p.mac.netCfgShadow →
      (q.setRxcsum on).mac.netCfg = (q.setRxcsum on).mac.netCfgShadow ∧
        ∀ k, ¬HasFlag cgemNetCfgRxChksumOffldEn k →
          (HasFlag (q.setRxcsum on).mac.netCfg k ↔ HasFlag p.mac.netCfg k) := by
    intro q on hq
    rw [h, ← hq]
    cases on with
    | false => exact ⟨rfl, fun k hk => hasFlag_and_not.trans (and_iff_left hk)⟩
    | true => exact ⟨rfl, fun k hk => hasFlag_or.trans (or_iff_left hk)⟩
  unfold sioCSIFCap
  dsimp only
  obtain ⟨hcfg, hshadow⟩ := htx (HasFlag reqcap ifcapTxcsumBit)
  split
  · split
    · exact hrx _ _ hshadow
    · exact hrx _ _ rfl
  · split
    · rw [hcfg, hshadow]
      exact ⟨h, fun _ _ => Iff.rfl⟩
    · exact ⟨h, fun _ _ => Iff.rfl⟩

/-! ## What a step can do -/

/-- Neither brought up nor down, and nobody is elsewhere than before. -/
structure Stays (s s' : Serv) : Prop where
  running : s'.running = s.running
  poll : s'.poll = s.poll
  task : s'.task = s.task

/-- Brought up or down, by a caller that has the lock. -/
structure Turns (s s' : Serv) : Prop where
  lockFree : s.lockFree = true
  running : s'.running = !s.running
  poll : s'.poll = s.poll
  task : s'.task = s.task

/-- The steps, one constructor for each thing a step can do. -/
inductive Step (p : Port) : PortAct → Port → Prop where
  | up {os : List FillOutcome} {sv : Serv} (hr : p.serv.running = false) (h : Turns p.serv sv) :
      Step p (.init os) { p with serv := sv, mac := cgemConfig p.mac p.capenable }
  | upNot {os : List FillOutcome} (hr : p.serv.running = true) : Step p (.init os) p
  | flagsUp {flags : BitVec 32} {os : List FillOutcome} {sv : Serv} (hu : HasFlag flags iffUpBit)
      (hr : p.serv.running = false) (h : Turns p.serv sv) :
      Step p (.ifflags flags os)
        { p with serv := sv, mac := cgemConfig p.mac p.capenable, ifFlags := flags, ifOldFlags := flags }
  | flagsFilter {flags : BitVec 32} {os : List FillOutcome} (hu : HasFlag flags iffUpBit)
      (hr : p.serv.running = true) (hl : p.serv.lockFree = true)
      (hf : filterChanged { p with ifFlags := flags } = true) :
      Step p (.ifflags flags os)
        { p with mac := cgemRxFilter p.mac flags p.mcast, ifFlags := flags, ifOldFlags := flags }
  | flagsKept {flags : BitVec 32} {os : List FillOutcome} (hu : HasFlag flags iffUpBit)
      (hr : p.serv.running = true) (hl : p.serv.lockFree = true)
      (hf : filterChanged { p with ifFlags := flags } = false) :
      Step p (.ifflags flags os) { p with ifFlags := flags, ifOldFlags := flags }
  | flagsDown {flags : BitVec 32} {os : List FillOutcome} {sv : Serv} (hu : ¬HasFlag flags iffUpBit)
      (hr : p.serv.running = true) (h : Turns p.serv sv) :
      Step p (.ifflags flags os)
        { p with serv := sv, mac := cgemReset p.mac, ifFlags := flags, ifOldFlags := flags }
  | flagsDownNot {flags : BitVec 32} {os : List FillOutcome} (hu : ¬HasFlag flags iffUpBit)
      (hr : p.serv.running = false) : Step p (.ifflags flags os) { p with ifFlags := flags, ifOldFlags := flags }
  | multi {mcast : List EtherAddr} (hr : p.serv.running = true) (hl : p.serv.lockFree = true) :
      Step p (.multi mcast) { p with mcast := mcast, mac := cgemRxFilter p.mac p.ifFlags mcast }
  | multiNot {mcast : List EtherAddr} (hr : p.serv.running = false) : Step p (.multi mcast) { p with mcast := mcast }
  | ifcap {reqcap : BitVec 32} {sv : Serv} (h : Stays p.serv sv) :
      Step p (.ifcap reqcap) { p.sioCSIFCap reqcap with serv := sv }
  | tick {bmsr : Option (BitVec 16)} (hl : p.serv.lockFree = true) : Step p (.tick bmsr) (p.tick bmsr)
  | serv {a : ServAct} {sv : Serv} (hs : p.serv.step a = some sv) (hr : sv.running = p.serv.running) :
      Step p (.serv a) { p with serv := sv, mac := p.served a }

variable {p p' : Port} {s s' : Serv}

theorem initLocked_turns {os : List FillOutcome} (hl : s.lockFree = true) (hr : s.running = false) :
    Turns s (cgemInitLocked s os) := by
  unfold cgemInitLocked
  rw [hr]
  exact ⟨hl, by simp [hr], rfl, rfl⟩

theorem initLocked_running {os : List FillOutcome} (hr : s.running = true) : cgemInitLocked s os = s := by
  unfold cgemInitLocked
  rw [hr]
  rfl

theorem cgemStop_turns (hl : s.lockFree = true) (hr : s.running = true)
    (hs : cgemStop { s with running := false } = some s') : Turns s s' := by
  obtain ⟨tx, -, rfl⟩ := Option.map_eq_some_iff.1 hs
  exact ⟨hl, by rw [hr]; rfl, rfl, rfl⟩

theorem tick_serv (p : Port) (bmsr : Option (BitVec 16)) : { p.tick bmsr with serv := p.serv } = p.tick bmsr := by
  unfold tick
  dsimp only
  repeat' split
  all_goals rfl

theorem running_of_beside {a : ServAct} (hb : a.beside = true) (hs : s.step a = some s') : s'.running = s.running := by
  cases Serv.step_cases hs with
  | up os hl hr hup =>
    cases a <;> first | exact (Bool.false_ne_true hb).elim | exact hup.elim
  | down hl hr htx => cases hb
  | _ => rfl

/-- **Everything a step can do.** -/
theorem step_cases {a : PortAct} (h : p.step a = some p') : Step p a p' := by
  cases a with
  | init os =>
    obtain ⟨sv, hs, rfl⟩ := Option.map_eq_some_iff.1 h
    obtain ⟨hl, hs⟩ := Serv.locked_some hs
    cases hs
    unfold initLocked
    cases hr : p.serv.running with
    | true =>
      rw [initLocked_running hr]
      exact .upNot hr
    | false => exact .up hr (initLocked_turns hl hr)
  | ifflags flags os =>
    obtain ⟨sv, hs, rfl⟩ := Option.map_eq_some_iff.1 h
    unfold sioCSIFFlags
    by_cases hu : HasFlag flags iffUpBit
    · simp only [hu, decide_true] at hs
      obtain ⟨hl, hs⟩ := Serv.locked_some hs
      cases hs
      cases hr : p.serv.running with
      | true =>
        rw [initLocked_running hr]
        simp only [hu, if_true]
        cases hf : filterChanged { p with ifFlags := flags } with
        | true => exact .flagsFilter hu hr hl hf
        | false => exact .flagsKept hu hr hl hf
      | false =>
        have hi : initLocked { p with ifFlags := flags } =
            { p with ifFlags := flags, mac := cgemConfig p.mac p.capenable } := by simp [initLocked, hr]
        simp only [hu, if_true, hi]
        exact .flagsUp hu hr (initLocked_turns hl hr)
    · simp only [hu, decide_false] at hs
      obtain ⟨hl, hs⟩ := Serv.locked_some hs
      cases hr : p.serv.running with
      | true =>
        rw [if_pos hr] at hs
        simp only [hu, if_true, if_false]
        exact .flagsDown hu hr (cgemStop_turns hl hr hs)
      | false =>
        rw [if_neg (by simp [hr])] at hs
        cases hs
        simp only [hu, if_false, Bool.false_eq_true]
        exact .flagsDownNot hu hr
  | multi mcast =>
    simp only [step] at h
    split at h
    · next hr =>
      obtain ⟨sv, hs, rfl⟩ := Option.map_eq_some_iff.1 h
      obtain ⟨hl, hs⟩ := Serv.locked_some hs
      cases hs
      exact .multi hr hl
    · next hr =>
      cases h
      exact .multiNot (by simpa using hr)
  | ifcap reqcap =>
    obtain ⟨sv, hs, rfl⟩ := Option.map_eq_some_iff.1 h
    obtain ⟨hl, hs⟩ := Serv.locked_some hs
    cases hs
    exact .ifcap ⟨rfl, rfl, rfl⟩
  | tick bmsr =>
    obtain ⟨sv, hs, rfl⟩ := Option.map_eq_some_iff.1 h
    simp only [Serv.step, Option.ite_none_right_eq_some] at hs
    obtain ⟨hl, hs⟩ := Serv.locked_some hs.2
    cases hs
    rw [tick_serv]
    exact .tick hl
  | serv a =>
    simp only [step, Option.ite_none_right_eq_some] at h
    obtain ⟨hb, h⟩ := h
    obtain ⟨sv, hs, rfl⟩ := Option.map_eq_some_iff.1 h
    exact .serv hs (running_of_beside hb hs)

/-! ## What every step keeps -/

theorem Turns.up (h : Turns s s') (hr : s.running = false) : s'.running = true := by
  rw [h.running, hr]
  rfl

theorem Turns.lockFree_after (h : Turns s s') : s'.lockFree = true := by
  have hl := h.lockFree
  unfold Serv.lockFree at hl ⊢
  rw [h.poll, h.task]
  exact hl

/-- What every call keeps: the shadow is the register, the flags were seen, and the hash is clear until the interface is
up. -/
structure Synced (p : Port) : Prop where
  netCfg : p.mac.netCfg = p.mac.netCfgShadow
  oldFlags : p.ifOldFlags = p.ifFlags
  hashes : p.serv.running = false → p.mac.hashTop = 0 ∧ p.mac.hashBot = 0

theorem synced_attached (rxbufs : Int) (m : Mac) (cfgKva : Bool) : (attached rxbufs m cfgKva).Synced :=
  ⟨rfl, rfl, fun _ => ⟨rfl, rfl⟩⟩

theorem synced_step {a : PortAct} (hs : p.Synced) (h : Step p a p') : p'.Synced := by
  cases h with
  | up hr ht => exact ⟨rfl, hs.oldFlags, fun hn => absurd ((ht.up hr).symm.trans hn) Bool.noConfusion⟩
  | upNot hr => exact hs
  | flagsUp hu hr ht => exact ⟨rfl, rfl, fun hn => absurd ((ht.up hr).symm.trans hn) Bool.noConfusion⟩
  | flagsFilter hu hr hl hf => exact ⟨rfl, rfl, fun hn => absurd (hr.symm.trans hn) Bool.noConfusion⟩
  | flagsKept hu hr hl hf => exact ⟨hs.netCfg, rfl, hs.hashes⟩
  | flagsDown hu hr ht => exact ⟨rfl, rfl, fun _ => ⟨rfl, rfl⟩⟩
  | flagsDownNot hu hr => exact ⟨hs.netCfg, rfl, hs.hashes⟩
  | multi hr hl => exact ⟨rfl, hs.oldFlags, fun hn => absurd (hr.symm.trans hn) Bool.noConfusion⟩
  | multiNot hr => exact ⟨hs.netCfg, hs.oldFlags, hs.hashes⟩
  | ifcap ht =>
    rename_i reqcap sv
    rw [sioCSIFCap_eq]
    exact ⟨(sioCSIFCap_netCfg reqcap hs.netCfg).1, hs.oldFlags, fun hn => hs.hashes (ht.running.symm.trans hn)⟩
  | tick hl =>
    rw [tick_eq]
    exact ⟨hs.netCfg, hs.oldFlags, hs.hashes⟩
  | serv hst hr =>
    rw [served_eq]
    exact ⟨hs.netCfg, hs.oldFlags, fun hn => hs.hashes (hr.symm.trans hn)⟩

end Port

end Eth
