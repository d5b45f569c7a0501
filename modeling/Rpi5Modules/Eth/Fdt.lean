import Rpi5Modules.Lib.CString
import Rpi5Modules.Lib.Forest
import Mathlib.Logic.Function.Basic

/-!
# The device tree of the Ethernet controller

`rp1_eth_cfg.c` looks for its node by the strings of the `compatible` properties and reads the configuration from it.
The properties are copied to arrays: `buf` on the stack for `compatible`, and `phy_mode` in the softc. The copies are
bounded by `OF_getprop`, but the NUL goes to the index that `OF_getprop` returns, which is the length of the property.

The text that goes to the console is left out.
-/

namespace Eth

open BufProg CString Forest

/-- The bytes of a C string. -/
def cstr (s : String) : List UInt8 := s.toUTF8.data.toList

/-- `RP1_ETH_COMPAT_PRIMARY`. -/
def rp1EthCompatPrimary : List UInt8 := cstr "raspberrypi,rp1-gem"

/-- `RPI5_COMPAT_5B`. -/
def rpi5Compat5b : List UInt8 := cstr "raspberrypi,5-model-b"

/-- `RPI5_COMPAT_CM5`. -/
def rpi5CompatCm5 : List UInt8 := cstr "raspberrypi,5-compute-module"

/-- `RP1_ETH_PHY_MODE_RGMII_ID`. -/
def rp1EthPhyModeRgmiiId : List UInt8 := cstr "rgmii-id"

/-- `RP1_ETH_PHY_RESET_GPIO`. -/
def rp1EthPhyResetGpio : UInt32 := 32

def enxio : Int := 6

def enodev : Int := 19

/-! ## Open Firmware -/

/-- `phandle_t`. -/
abbrev Phandle := UInt32

/-- What the functions of `openfirm.h` answer: `OF_finddevice("/")`, `OF_child`, `OF_peer`, the bytes of a property, and
`OF_node_from_xref`. The nodes below the root are a finite forest. -/
structure DeviceTree where
  root : Phandle
  child : Phandle → Phandle
  peer : Phandle → Phandle
  prop : Phandle → String → Option (List UInt8)
  nodeFromXref : Phandle → Phandle
  forest : Forest Phandle
  denotes : Denotes child peer 0 (child root) forest

/-- The nodes in preorder. -/
def DeviceTree.nodes (t : DeviceTree) : List Phandle := t.root :: t.forest.preorder

/-- What a call of `OF_getprop` returns, the array behind it, and the indices of the array that it writes. -/
structure Getprop where
  len : Int
  buf : Nat → UInt8
  writes : List Nat

/-- `OF_getprop(node, name, buf, buflen)`: the copy is cut to the array, the length that is returned is not. A blob is
smaller than 2 GiB, so the length is an `int`. -/
def ofGetprop (buf : Nat → UInt8) (buflen : Nat) : (prop : Option (List UInt8)) → Getprop
  | none => ⟨-1, buf, []⟩
  | some p => ⟨p.length, fun i => (p.take buflen)[i]?.getD (buf i), List.range (min p.length buflen)⟩

/-! ## Compatible nodes -/

/-- `while (s < end) { if (strcmp(s, compat) == 0) return (1); s += strlen(s) + 1; }` over `buf`, with `end` at `len`.
The NUL there stops `strlen`. -/
def scanCompat (compat : List UInt8) (len : Nat) : (fuel s : Nat) → BufProg Bool
  | 0, _ => pure false
  | fuel + 1, s =>
    if s < len then do
      let eq ← strcmpEq s compat
      if eq then pure true
      else do
        let k ← strnlen s (len + 1)
        scanCompat compat len fuel (s + (k + 1))
    else pure false

/-- What a call of `rp1_eth_node_is_compatible` returns, and the indices of `buf` that it writes and reads. -/
structure CompatCall where
  result : Bool
  writes : List Nat
  reads : List Nat

/-- `rp1_eth_node_is_compatible(node, compat)`; `stack` is what is in `buf`, and behind it, before. -/
def rp1EthNodeIsCompatible (t : DeviceTree) (stack : Nat → UInt8) (node : Phandle) (compat : List UInt8) : CompatCall :=
  let g := ofGetprop stack 255 (t.prop node "compatible")
  if g.len ≤ 0 then ⟨false, g.writes, []⟩
  else
    let len := g.len.toNat
    let buf := Function.update g.buf len 0
    let scan := scanCompat compat len len 0
    ⟨scan.result buf, g.writes ++ [len], scan.touched buf⟩

/-- The stack at the calls of `rp1_eth_node_is_compatible`. -/
abbrev Stack := Phandle → List UInt8 → Nat → UInt8

/-- The call for a node of a search. -/
def compatCall (t : DeviceTree) (stack : Stack) (compat : List UInt8) (node : Phandle) : CompatCall :=
  rp1EthNodeIsCompatible t (stack node compat) node compat

/-- `rp1_eth_fdt_find_compat(start, compat)`: what it returns and the nodes it has asked. -/
def rp1EthFdtFindCompat (t : DeviceTree) (stack : Stack) (fuel : Nat) (start : Phandle) (compat : List UInt8) :
    Option (Phandle × List Phandle) :=
  find t.child t.peer 0 (fun node => (compatCall t stack compat node).result) fuel start

/-! ## The configuration -/

/-- The fields of the softc that come from the device tree. -/
structure FdtMetadata where
  macAddr : List UInt8
  phyMode : Nat → UInt8
  phyAddr : UInt32
  phyResetGpio : UInt32
  phyResetFlags : UInt32

/-- `be32toh` of a word of an array of cells. -/
def cell (buf : Nat → UInt8) (i : Nat) : UInt32 := (be32 (4 * i)).result buf

namespace FdtMetadata

/-- `local-mac-address`. -/
def readMac (t : DeviceTree) (gem : Phandle) (sc : FdtMetadata) : FdtMetadata :=
  let g := ofGetprop (fun _ => 0) 6 (t.prop gem "local-mac-address")
  if g.len = 6 then { sc with macAddr := (bytes 0 6).result g.buf }
  else { sc with macAddr := List.replicate 6 0 }

/-- `phy-mode`, with the indices of `phy_mode` that are written. -/
def readPhyMode (t : DeviceTree) (gem : Phandle) (sc : FdtMetadata) : FdtMetadata × List Nat :=
  let g := ofGetprop sc.phyMode 31 (t.prop gem "phy-mode")
  if g.len > 0 then ({ sc with phyMode := Function.update g.buf g.len.toNat 0 }, g.writes ++ [g.len.toNat])
  else ({ sc with phyMode := Function.update g.buf 0 0 }, g.writes ++ [0])

/-- `phy-handle`, and the register of the node it refers to. -/
def readPhyHandle (t : DeviceTree) (gem : Phandle) (sc : FdtMetadata) : FdtMetadata :=
  let g := ofGetprop (fun _ => 0) 4 (t.prop gem "phy-handle")
  if g.len = 4 then
    let phy := t.nodeFromXref (cell g.buf 0)
    if phy ≠ 0 then
      let r := ofGetprop (fun _ => 0) 4 (t.prop phy "reg")
      if r.len = 4 then { sc with phyAddr := cell r.buf 0 } else sc
    else sc
  else sc

/-- `phy-reset-gpios`. -/
def readPhyReset (t : DeviceTree) (gem : Phandle) (sc : FdtMetadata) : FdtMetadata :=
  let g := ofGetprop (fun _ => 0) 12 (t.prop gem "phy-reset-gpios")
  if g.len ≥ 12 then { sc with phyResetGpio := cell g.buf 1, phyResetFlags := cell g.buf 2 }
  else { sc with phyResetGpio := rp1EthPhyResetGpio, phyResetFlags := 1 }

end FdtMetadata

/-- What a run returns and leaves in the softc, its calls of `rp1_eth_node_is_compatible`, and the indices of `phy_mode`
that it writes. -/
structure MetadataRun where
  error : Int
  sc : FdtMetadata
  calls : List CompatCall
  phyModeWrites : List Nat

/-- The part for the node of the controller. -/
def readGemNode (t : DeviceTree) (gem : Phandle) (sc : FdtMetadata) (calls : List CompatCall) : MetadataRun :=
  let r := (sc.readMac t gem).readPhyMode t gem
  -- `strcmp(sc->phy_mode, RP1_ETH_PHY_MODE_RGMII_ID)`
  if (strcmpEq 0 rp1EthPhyModeRgmiiId).result r.1.phyMode then
    ⟨0, (r.1.readPhyHandle t gem).readPhyReset t gem, calls, r.2⟩
  else ⟨enxio, r.1, calls, r.2⟩

/-- The part behind the search. -/
def readFound (t : DeviceTree) (stack : Stack) (sc : FdtMetadata) (calls : List CompatCall)
    (found : Phandle × List Phandle) : MetadataRun :=
  let calls := calls ++ found.2.map (compatCall t stack rp1EthCompatPrimary)
  if found.1 = 0 then ⟨enodev, sc, calls, []⟩ else readGemNode t found.1 sc calls

/-- The calls that look whether the root is a Pi 5, and whether it is. The second is made if the first fails. -/
def rootCalls (t : DeviceTree) (stack : Stack) : List CompatCall × Bool :=
  let c := compatCall t stack rpi5Compat5b t.root
  if c.result then ([c], true)
  else
    let d := compatCall t stack rpi5CompatCm5 t.root
    ([c, d], d.result)

/-- `rp1_eth_fdt_read_metadata(sc)`. -/
def rp1EthFdtReadMetadata (t : DeviceTree) (stack : Stack) (fuel : Nat) (sc : FdtMetadata) : Option MetadataRun :=
  if t.root = 0 then some ⟨enodev, sc, [], []⟩
  else
    let r := rootCalls t stack
    if r.2 then (rp1EthFdtFindCompat t stack fuel t.root rp1EthCompatPrimary).map (readFound t stack sc r.1)
    else some ⟨enxio, sc, r.1, []⟩

end Eth
