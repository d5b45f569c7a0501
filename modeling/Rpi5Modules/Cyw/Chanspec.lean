import Mathlib.Algebra.GroupWithZero.Nat

/-!
# Chanspecs for a join

`cyw_bss_cs_cache_add` keeps the raw chanspecs of the last BSSes a scan has seen in a ring; `cyw_chanspec_for_join`
looks a BSSID up there and falls back to the plain encoding of an IEEE channel.
-/

namespace Cyw

/-- The six bytes of an address. -/
abbrev Bssid := BitVec 48

def cywBssCsCacheSize : Nat := 32

/-- An entry of `bss_cs_cache`; its chanspec is 0 while it is free. -/
structure BssCs where
  bssid : Bssid
  chanspec : UInt16
deriving DecidableEq

/-- `chanspec != 0 && memcmp(bssid, …, 6) == 0`. -/
def BssCs.isFor (bssid : Bssid) (e : BssCs) : Bool := e.chanspec ≠ 0 ∧ e.bssid = bssid

/-- `bss_cs_cache` and `bss_cs_cache_next`. -/
structure BssCsCache where
  slots : List BssCs
  next : Nat

/-- The cache of a zeroed softc. -/
def BssCsCache.zeroed : BssCsCache := ⟨List.replicate cywBssCsCacheSize ⟨0, 0⟩, 0⟩

/-- `cyw_bss_cs_cache_add(sc, bssid, chanspec)`. -/
def cywBssCsCacheAdd (c : BssCsCache) (bssid : Bssid) (chanspec : UInt16) : BssCsCache :=
  if chanspec = 0 then c
  else
    match c.slots.findIdx? (BssCs.isFor bssid) with
    | some i => { c with slots := c.slots.modify i fun e => { e with chanspec := chanspec } }
    | none =>
      { slots := c.slots.set c.next ⟨bssid, chanspec⟩
        next := (c.next + 1) % cywBssCsCacheSize }

/-- `cyw_chanspec_for_join(sc, bssid, ieee_chan)`. -/
def cywChanspecForJoin (c : BssCsCache) (bssid : Bssid) (ieeeChan : Int) : UInt16 :=
  match c.slots.find? (BssCs.isFor bssid) with
  | some e => e.chanspec
  | none =>
    if ieeeChan ≤ 0 then 0
    else if ieeeChan ≤ 14 then 0x1000 ||| UInt16.ofNat ieeeChan.toNat
    else 0xD000 ||| UInt16.ofNat ieeeChan.toNat

end Cyw
