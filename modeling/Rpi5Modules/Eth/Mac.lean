import Rpi5Modules.Eth.Defs

/-!
# The registers of the MAC

The registers that `rp1_eth.c` writes to set the MAC up: NET_CTRL, NET_CFG, USER_IO, the multicast hash, DMA_CFG and, in
the chip's own configuration block, CLKGEN. The driver keeps a shadow of the first two.

The hardware resets USER_IO whenever NET_CTRL is written (`Mac.wrNetCtrl`).
-/

namespace Eth

open Flags

/-! ## Bits -/

def cgemNetCtrlFlushDpramPkt : BitVec 32 := 1 <<< 18
def cgemNetCtrlStartTx : BitVec 32 := 1 <<< 9
def cgemNetCtrlClrStatRegs : BitVec 32 := 1 <<< 5
def cgemNetCtrlMgmtPortEn : BitVec 32 := 1 <<< 4
def cgemNetCtrlTxEn : BitVec 32 := 1 <<< 3
def cgemNetCtrlRxEn : BitVec 32 := 1 <<< 2

/-- Bit numbers in NET_CFG. -/
def netCfgRxChksumOffldEnBit : Nat := 24
def netCfgFcsRemoveBit : Nat := 17
def netCfgGigeEnBit : Nat := 10
def netCfg1536rxenBit : Nat := 8
def netCfgMultiHashEnBit : Nat := 6
def netCfgNoBcastBit : Nat := 5
def netCfgCopyAllBit : Nat := 4
def netCfgFullDuplexBit : Nat := 1
def netCfgSpeed100Bit : Nat := 0

def cgemNetCfgRxChksumOffldEn : BitVec 32 := BitVec.twoPow 32 netCfgRxChksumOffldEnBit
def cgemNetCfgFcsRemove : BitVec 32 := BitVec.twoPow 32 netCfgFcsRemoveBit
def cgemNetCfgGigeEn : BitVec 32 := BitVec.twoPow 32 netCfgGigeEnBit
def cgemNetCfg1536rxen : BitVec 32 := BitVec.twoPow 32 netCfg1536rxenBit
def cgemNetCfgMultiHashEn : BitVec 32 := BitVec.twoPow 32 netCfgMultiHashEnBit
def cgemNetCfgNoBcast : BitVec 32 := BitVec.twoPow 32 netCfgNoBcastBit
def cgemNetCfgCopyAll : BitVec 32 := BitVec.twoPow 32 netCfgCopyAllBit
def cgemNetCfgFullDuplex : BitVec 32 := BitVec.twoPow 32 netCfgFullDuplexBit
def cgemNetCfgSpeed100 : BitVec 32 := BitVec.twoPow 32 netCfgSpeed100Bit

/-- Fields of NET_CFG. -/
def cgemNetCfgDbusWidth32 : BitVec 32 := 0 <<< 21
def cgemNetCfgDbusWidth64 : BitVec 32 := 1 <<< 21
def cgemNetCfgDbusWidth128 : BitVec 32 := 2 <<< 21
def cgemNetCfgDbusWidthMask : BitVec 32 := 3 <<< 21
def cgemNetCfgMdcClkDiv96 : BitVec 32 := 5 <<< 18
def cgemNetCfgMdcClkDivMask : BitVec 32 := 7 <<< 18
def cgemNetCfgRxBufOffset (n : BitVec 32) : BitVec 32 := n <<< 14

def cgemDesignCfg1DmaBusWidthMask : BitVec 32 := 7 <<< 25
def cgemDesignCfg1DmaBusWidth64 : BitVec 32 := 2 <<< 25
def cgemDesignCfg1DmaBusWidth128 : BitVec 32 := 4 <<< 25

def cgemDmaCfgDiscWhenNoAhb : BitVec 32 := 1 <<< 24
def cgemDmaCfgRxBufSize (sz : Nat) : BitVec 32 := BitVec.ofNat 32 ((sz + 63) / 64) <<< 16
def cgemDmaCfgChksumGenOffloadEn : BitVec 32 := 1 <<< 11
def cgemDmaCfgTxPktbufMemszSel : BitVec 32 := 1 <<< 10
def cgemDmaCfgRxPktbufMemszSel8k : BitVec 32 := 3 <<< 8
def cgemDmaCfgAhbFixedBurstLen16 : BitVec 32 := 16 <<< 0

/-- Interface flags. -/
def iffUpBit : Nat := 0
def iffBroadcastBit : Nat := 1
def iffPromiscBit : Nat := 8
def iffAllmultiBit : Nat := 9

/-- Interface capabilities. -/
def ifcapRxcsumBit : Nat := 0
def ifcapTxcsumBit : Nat := 1
def ifcapRxcsum : BitVec 32 := 1 <<< 0
def ifcapTxcsum : BitVec 32 := 1 <<< 1
def ifcapVlanMtu : BitVec 32 := 1 <<< 3
def ifcapVlanHwcsum : BitVec 32 := 1 <<< 7
def ifcapRxcsumIpv6 : BitVec 32 := 1 <<< 21
def ifcapTxcsumIpv6 : BitVec 32 := 1 <<< 22

/-! ## Registers -/

/-- The registers, and the two shadows in the softc. -/
structure Mac where
  netCtrl : BitVec 32
  netCfg : BitVec 32
  userIo : BitVec 32
  dmaCfg : BitVec 32
  hashTop : BitVec 32
  hashBot : BitVec 32
  designCfg1 : BitVec 32
  clkgen : BitVec 32
  netCtlShadow : BitVec 32
  netCfgShadow : BitVec 32

namespace Mac

/-- All registers 0. -/
def zero : Mac := ⟨0, 0, 0, 0, 0, 0, 0, 0, 0, 0⟩

def wrNetCtrl (m : Mac) (v : BitVec 32) : Mac := { m with netCtrl := v, userIo := 0 }

def wrNetCfg (m : Mac) (v : BitVec 32) : Mac := { m with netCfg := v }

def wrUserIo (m : Mac) (v : BitVec 32) : Mac := { m with userIo := v }

def wrHash (m : Mac) (top bot : BitVec 32) : Mac := { m with hashTop := top, hashBot := bot }

end Mac

/-! ## The receive filter -/

/-- An Ethernet address; byte `i` is the bits from `8 * i` on. -/
abbrev EtherAddr := BitVec 48

/-- The inner loop of `cgem_mac_hash`, for the bits `i`, `i + 6`, … of the address. -/
def cgemMacHashBit (eaddr : EtherAddr) (hash : BitVec 32) (i : Nat) : BitVec 32 :=
  (List.range' i 8 6).foldl (fun hash j => if eaddr.getLsbD j then hash ^^^ BitVec.twoPow 32 i else hash) hash

/-- `cgem_mac_hash(eaddr)`. -/
def cgemMacHash (eaddr : EtherAddr) : BitVec 32 := (List.range 6).foldl (cgemMacHashBit eaddr) 0

/-- `hashes[0]` and `hashes[1]`. -/
structure Hashes where
  top : BitVec 32
  bot : BitVec 32
deriving DecidableEq

/-- `cgem_hash_maddr`. -/
def cgemHashMaddr (h : Hashes) (eaddr : EtherAddr) : Hashes :=
  let index := (cgemMacHash eaddr).toNat
  if index > 31 then { h with top := h.top ||| BitVec.twoPow 32 (index - 32) }
  else { h with bot := h.bot ||| BitVec.twoPow 32 index }

/-- What `cgem_rx_filter` computes from the interface flags and the multicast list. -/
structure RxFilter where
  copyAll : Bool
  noBcast : Bool
  multiHashEn : Bool
  hashes : Hashes
deriving DecidableEq

def rxFilter (flags : BitVec 32) (mcast : List EtherAddr) : RxFilter :=
  if HasFlag flags iffPromiscBit then ⟨true, false, false, ⟨0, 0⟩⟩
  else
    let hashes : Hashes :=
      if HasFlag flags iffAllmultiBit then ⟨0xffffffff, 0xffffffff⟩ else mcast.foldl cgemHashMaddr ⟨0, 0⟩
    ⟨false, !HasFlag flags iffBroadcastBit, hashes.top ≠ 0 ∨ hashes.bot ≠ 0, hashes⟩

def cgemNetCfgFilterMask : BitVec 32 := cgemNetCfgMultiHashEn ||| cgemNetCfgNoBcast ||| cgemNetCfgCopyAll

/-- The filter bits as NET_CFG has them. -/
def filterBits (copyAll noBcast multiHashEn : Bool) : BitVec 32 :=
  (if copyAll then cgemNetCfgCopyAll else 0) ||| (if noBcast then cgemNetCfgNoBcast else 0) |||
    (if multiHashEn then cgemNetCfgMultiHashEn else 0)

/-- `cgem_rx_filter(sc)`. -/
def cgemRxFilter (m : Mac) (flags : BitVec 32) (mcast : List EtherAddr) : Mac :=
  let f := rxFilter flags mcast
  let m :=
    { m with
      netCfgShadow := m.netCfgShadow &&& ~~~cgemNetCfgFilterMask ||| filterBits f.copyAll f.noBcast f.multiHashEn }
  (m.wrHash f.hashes.top f.hashes.bot).wrNetCfg m.netCfgShadow

/-! ## Reset and configuration -/

/-- The bus width of NET_CFG for DESIGN_CFG1. -/
def dbusWidth (designCfg1 : BitVec 32) : BitVec 32 :=
  if designCfg1 &&& cgemDesignCfg1DmaBusWidthMask = cgemDesignCfg1DmaBusWidth64 then cgemNetCfgDbusWidth64
  else if designCfg1 &&& cgemDesignCfg1DmaBusWidthMask = cgemDesignCfg1DmaBusWidth128 then cgemNetCfgDbusWidth128
  else cgemNetCfgDbusWidth32

/-- `cgem_reset(sc)`. -/
def cgemReset (m : Mac) : Mac :=
  let m := { m with netCfgShadow := dbusWidth m.designCfg1 }
  let m := ((m.wrNetCtrl 0).wrNetCfg m.netCfgShadow).wrNetCtrl cgemNetCtrlClrStatRegs
  let m := m.wrHash 0 0
  let m := { m with netCfgShadow := m.netCfgShadow ||| cgemNetCfgMdcClkDiv96 }
  let m := m.wrNetCfg m.netCfgShadow
  let m := { m with netCtlShadow := cgemNetCtrlMgmtPortEn }
  (m.wrNetCtrl m.netCtlShadow).wrUserIo 1

/-- The fields of NET_CFG that `cgem_config` keeps, and the bits it sets. -/
def configKeep : BitVec 32 := cgemNetCfgMdcClkDivMask ||| cgemNetCfgDbusWidthMask
def configBits : BitVec 32 :=
  cgemNetCfgFcsRemove ||| cgemNetCfgRxBufOffset etherAlign ||| cgemNetCfgGigeEn ||| cgemNetCfg1536rxen |||
    cgemNetCfgFullDuplex

/-- The NET_CFG of `cgem_config`. -/
def configNetCfg (shadow capenable : BitVec 32) : BitVec 32 :=
  shadow &&& configKeep ||| configBits |||
    (if HasFlag capenable ifcapRxcsumBit then cgemNetCfgRxChksumOffldEn else 0)

/-- The DMA_CFG of `cgem_config`. -/
def configDmaCfg (capenable : BitVec 32) : BitVec 32 :=
  cgemDmaCfgRxBufSize mclbytes ||| cgemDmaCfgRxPktbufMemszSel8k ||| cgemDmaCfgTxPktbufMemszSel |||
    cgemDmaCfgAhbFixedBurstLen16 ||| cgemDmaCfgDiscWhenNoAhb |||
    (if HasFlag capenable ifcapTxcsumBit then cgemDmaCfgChksumGenOffloadEn else 0)

/-- `cgem_config(sc)`. -/
def cgemConfig (m : Mac) (capenable : BitVec 32) : Mac :=
  let m := { m with netCfgShadow := configNetCfg m.netCfgShadow capenable }
  let m := m.wrNetCfg m.netCfgShadow
  let m := { m with dmaCfg := configDmaCfg capenable }
  let m := { m with netCtlShadow := m.netCtlShadow ||| (cgemNetCtrlTxEn ||| cgemNetCtrlRxEn) }
  (m.wrNetCtrl m.netCtlShadow).wrUserIo 1

/-! ## Speed -/

/-- Bit numbers in CLKGEN. -/
def clkgenSpdOvrEnBit : Nat := 3

def ethCfgClkgenTxclkdelen : BitVec 32 := 1 <<< 9
def ethCfgClkgenEnable : BitVec 32 := 1 <<< 7
def ethCfgClkgenKill : BitVec 32 := 1 <<< 6
def ethCfgClkgenSpdOvrEn : BitVec 32 := BitVec.twoPow 32 clkgenSpdOvrEnBit
def ethCfgClkgenSpdOvrMask : BitVec 32 := 3 <<< 0
def ethCfgClkgenSpd10m : BitVec 32 := 0
def ethCfgClkgenSpd100m : BitVec 32 := 1
def ethCfgClkgenSpd1g : BitVec 32 := 2

/-- `spd_val` for a speed in Mbit/s. -/
def spdVal (speed : Nat) : BitVec 32 :=
  if speed = 1000 then ethCfgClkgenSpd1g else if speed = 100 then ethCfgClkgenSpd100m else ethCfgClkgenSpd10m

/-- CLKGEN with the override set to `spd_val`, after its last store. -/
def overrideClkgen (clkgen spd : BitVec 32) : BitVec 32 :=
  clkgen &&& ~~~(ethCfgClkgenEnable ||| ethCfgClkgenKill ||| ethCfgClkgenTxclkdelen ||| ethCfgClkgenSpdOvrEn |||
    ethCfgClkgenSpdOvrMask) ||| (ethCfgClkgenSpdOvrEn ||| spd) ||| ethCfgClkgenEnable

/-- The speed that `rp1eth_update_speed` reads from NET_CFG. -/
def netCfgSpeed (netCfg : BitVec 32) : Nat :=
  if HasFlag netCfg netCfgGigeEnBit then 1000 else if HasFlag netCfg netCfgSpeed100Bit then 100 else 10

/-- `rp1eth_update_speed(sc)`; `cfgKva` says whether the configuration block is mapped. -/
def rp1ethUpdateSpeed (m : Mac) (cfgKva : Bool) : Mac :=
  if !cfgKva then m else { m with clkgen := overrideClkgen m.clkgen (spdVal (netCfgSpeed m.netCfg)) }

/-- Bit numbers in the registers of the PHY. -/
def bmsrLinkBit : Nat := 2
def anlpar100fdBit : Nat := 8
def anlpar100hdBit : Nat := 7
def anlpar10fdBit : Nat := 6
def gbcrAdv1000fdBit : Nat := 9
def gbsrLp1000fdBit : Nat := 11
def gbsrLp1000hdBit : Nat := 10

/-- `speed` and `full_duplex` of `rp1_eth_modevent`. -/
structure LinkMode where
  speed : Nat
  fullDuplex : Bool
deriving DecidableEq

/-- The negotiated mode (step 5e). -/
def resolveMode (gbcr gbsr anlpar : BitVec 16) : LinkMode :=
  if HasFlag gbcr gbcrAdv1000fdBit ∧ HasFlag gbsr gbsrLp1000fdBit then ⟨1000, true⟩
  else if HasFlag gbsr gbsrLp1000hdBit then ⟨1000, false⟩
  else if HasFlag anlpar anlpar100fdBit then ⟨100, true⟩
  else if HasFlag anlpar anlpar100hdBit then ⟨100, false⟩
  else if HasFlag anlpar anlpar10fdBit then ⟨10, true⟩
  else ⟨10, false⟩

/-- `GEM_NET_CFG_SPEED_MASK`. -/
def gemNetCfgSpeedMask : BitVec 32 := cgemNetCfgGigeEn ||| cgemNetCfgFullDuplex ||| cgemNetCfgSpeed100

/-- The bits of NET_CFG for a mode. -/
def LinkMode.netCfg (l : LinkMode) : BitVec 32 :=
  (if l.speed = 1000 then cgemNetCfgGigeEn else if l.speed = 100 then cgemNetCfgSpeed100 else 0) |||
    (if l.fullDuplex then cgemNetCfgFullDuplex else 0)

/-- Steps 5f and 5g of `rp1_eth_modevent`: NET_CFG and CLKGEN for the mode. -/
def modeventSpeed (m : Mac) (l : LinkMode) : Mac :=
  { m.wrNetCfg (m.netCfg &&& ~~~gemNetCfgSpeedMask ||| l.netCfg) with
    clkgen := overrideClkgen m.clkgen (spdVal l.speed) }

end Eth
