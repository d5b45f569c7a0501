import Mathlib.Algebra.GroupWithZero.Nat
import Rpi5Modules.Lib.BufProg

/-!
# Constants and wire headers of the CYW43455 driver

The SDPCM header (12 bytes) and the BCDC command header (16 bytes) as reads of the frame buffer, the error numbers
the driver returns, and the two credit-window expressions all transmit paths share.
-/

namespace Cyw

/-! ## Error numbers -/

/-- A `int` error return: `0` is success. -/
abbrev Errno := Nat

def eio : Errno := 5
def enxio : Errno := 6
def einval : Errno := 22
def eagain : Errno := 35
def enobufs : Errno := 55
def etimedout : Errno := 60

/-- What `cv_timedwait` returns when the time is up. -/
def ewouldblock : Errno := eagain

/-- A write of one byte over SDIO: the function, the register and the value. -/
structure SdioWrite where
  fn : Nat
  reg : Nat
  val : UInt8
deriving DecidableEq

/-! ## `INTSTATUS` and `HOSTINTMASK` -/

def iHmbSwMask : UInt32 := 0x000000f0
def iXmtdataAvail : UInt32 := 0x00800000
def iChipactive : UInt32 := 0x20000000

/-! ## SDPCM frames -/

def cywSdpcmHdrLen : Nat := 12
def cywSdpcmMaxFrame : Nat := 2048
def cywSdpcmChanCtrl : UInt8 := 0
def cywSdpcmChanEvent : UInt8 := 1
def cywSdpcmChanData : UInt8 := 2

def ethertypePae : UInt16 := 0x888e

/-- The fields of `struct cyw_sdpcm_hdr` the driver reads, at the start of the buffer. -/
def sdpcmChanFlags : BufProg UInt8 := BufProg.byte 5
def sdpcmDataOffset : BufProg UInt8 := BufProg.byte 7
def sdpcmCredit : BufProg UInt8 := BufProg.byte 9

/-! ## BCDC command headers -/

def cywBcdcHdrLen : Nat := 16
def bcdcDcmdError : UInt32 := 0x01
def bcdcDcmdSet : UInt32 := 0x02
def bcdcDcmdIdShift : UInt32 := 16

/-- The fields of `struct cyw_bcdc_hdr` the driver reads, for a header at `bch`. -/
def bcdcFlags (bch : Nat) : BufProg UInt32 := BufProg.le32 (bch + 8)
def bcdcStatus (bch : Nat) : BufProg UInt32 := BufProg.le32 (bch + 12)

/-- `(uint16_t)((le32toh(bch->flags) >> BCDC_DCMD_ID_SHIFT) & 0xffff)`. -/
def bcdcId (flags : UInt32) : UInt16 := ((flags >>> bcdcDcmdIdShift) &&& 0xffff).toUInt16

/-- `(size_t)(p - q)` for pointers into one buffer: the difference wraps at `2 ^ 64` when `p` lies below `q`. -/
def ptrDiff (p q : Nat) : Nat := (p + 2 ^ 64 - q) % 2 ^ 64

theorem ptrDiff_of_le {p q : Nat} (h : q ≤ p) (hp : p < 2 ^ 64) : ptrDiff p q = p - q := by
  unfold ptrDiff
  omega

theorem ptrDiff_pos_of_lt {p q : Nat} (h : p < q) (hq : q < 2 ^ 64) : 0 < ptrDiff p q := by
  unfold ptrDiff
  omega

/-! ## The credit window -/

/-- `(uint8_t)(sc->sdpcm_rx_max - sc->sdpcm_tx_seq)`: the sequence numbers the firmware still accepts. -/
def txCredits (rxMax txSeq : UInt8) : UInt8 := rxMax - txSeq

end Cyw
