import Rpi5Modules.Lib.Flags

/-!
# Constants of the GEM descriptor rings

Ring sizes and the flag bits of the receive and transmit descriptors.
-/

namespace Eth

/-- An mbuf, by its pointer. -/
abbrev Mbuf := Nat

def rp1ethNumRxDescs : Nat := 256
def rp1ethNumTxDescs : Nat := 256
def rp1ethDefaultRxbufs : Int := 128
def txMaxDmaSegs : Nat := 8

/-- The size of a cluster, and where the data of a received frame starts in it. -/
def mclbytes : Nat := 2048
def etherAlign : BitVec 32 := 2

/-! ## Receive descriptors -/

/-- `struct cgem_rx_desc`: WRAP and OWN are bits of the address word. -/
structure RxDesc where
  addr : BitVec 32
  ctl : BitVec 32

/-- Bit numbers in `addr`. -/
def rxdescOwnBit : Nat := 0
def rxdescWrapBit : Nat := 1

def cgemRxdescOwn : BitVec 32 := BitVec.twoPow 32 rxdescOwnBit
def cgemRxdescWrap : BitVec 32 := BitVec.twoPow 32 rxdescWrapBit

/-- Masks in `ctl`. -/
def cgemRxdescCksumStatMask : BitVec 32 := 3 <<< 22
def cgemRxdescCksumStatIpGood : BitVec 32 := 1 <<< 22
def cgemRxdescCksumStatTcpGood : BitVec 32 := 2 <<< 22
def cgemRxdescCksumStatUdpGood : BitVec 32 := 3 <<< 22
def cgemRxdescEof : BitVec 32 := 1 <<< 15
def cgemRxdescSof : BitVec 32 := 1 <<< 14
def cgemRxdescBadFcs : BitVec 32 := 1 <<< 13
def cgemRxdescLengthMask : BitVec 32 := 0x1fff

/-! ## Transmit descriptors -/

/-- `struct cgem_tx_desc`. -/
structure TxDesc where
  addr : BitVec 32
  ctl : BitVec 32

/-- Bit numbers in `ctl`. -/
def txdescUsedBit : Nat := 31
def txdescWrapBit : Nat := 30
def txdescRetryErrBit : Nat := 29
def txdescAhbErrBit : Nat := 27
def txdescLateCollBit : Nat := 26
def txdescLastBufBit : Nat := 15

def cgemTxdescUsed : BitVec 32 := BitVec.twoPow 32 txdescUsedBit
def cgemTxdescWrap : BitVec 32 := BitVec.twoPow 32 txdescWrapBit
def cgemTxdescLastBuf : BitVec 32 := BitVec.twoPow 32 txdescLastBufBit
def cgemTxdescLengthMask : BitVec 32 := 0x3fff

/-- The bits besides USED that the hardware writes back: the error flags, the checksum status and
`NO_CRC_APPENDED`. -/
def txdescStatusMask : BitVec 32 := 0x2c710000

end Eth
