import Mathlib.Data.BitVec

/-!
# Management frames

A station reads and writes the 16-bit registers of a device on the management bus with frames of one word: a start code,
an opcode, the addresses of the device and of its register, a turnaround code and the data. The devices have addresses
of 5 bits; what has no device behind it reads as all ones.

- `Request.encode` and `decode` are inverse (`decode_encode`);
- `exec` is what a frame does to a device, `calls` what a list of requests does.
-/

universe u

namespace Mdio

inductive Op where
  | read
  | write (data : BitVec 16)
deriving DecidableEq

/-- A request for register `reg` of device `phy`. -/
structure Request where
  phy : BitVec 5
  reg : BitVec 5
  op : Op
deriving DecidableEq

/-- The opcode. -/
def Op.code : Op → BitVec 2
  | .read => 2
  | .write _ => 1

/-- The data field; that of a read is the device's to fill. -/
def Op.data : Op → BitVec 16
  | .read => 0
  | .write d => d

def Request.encode (r : Request) : BitVec 32 := 1#2 ++ r.op.code ++ r.phy ++ r.reg ++ 2#2 ++ r.op.data

/-- The request of a frame. -/
def decode (f : BitVec 32) : Option Request :=
  if f.extractLsb' 30 2 ≠ 1 ∨ f.extractLsb' 16 2 ≠ 2 then none
  else if f.extractLsb' 28 2 = 2 then some ⟨f.extractLsb' 23 5, f.extractLsb' 18 5, .read⟩
  else if f.extractLsb' 28 2 = 1 then some ⟨f.extractLsb' 23 5, f.extractLsb' 18 5, .write (f.extractLsb' 0 16)⟩
  else none

section Fields

variable (code : BitVec 2) (phy reg : BitVec 5) (data : BitVec 16)

/-- The fields of a frame, from the top. -/
theorem frame_start : (1#2 ++ code ++ phy ++ reg ++ 2#2 ++ data).extractLsb' 30 2 = 1 := by
  iterate 5 rw [BitVec.extractLsb'_append_eq_of_le (by decide)]
  rfl

theorem frame_code : (1#2 ++ code ++ phy ++ reg ++ 2#2 ++ data).extractLsb' 28 2 = code := by
  iterate 4 rw [BitVec.extractLsb'_append_eq_of_le (by decide)]
  exact BitVec.extractLsb'_append_eq_right

theorem frame_phy : (1#2 ++ code ++ phy ++ reg ++ 2#2 ++ data).extractLsb' 23 5 = phy := by
  iterate 3 rw [BitVec.extractLsb'_append_eq_of_le (by decide)]
  exact BitVec.extractLsb'_append_eq_right

theorem frame_reg : (1#2 ++ code ++ phy ++ reg ++ 2#2 ++ data).extractLsb' 18 5 = reg := by
  iterate 2 rw [BitVec.extractLsb'_append_eq_of_le (by decide)]
  exact BitVec.extractLsb'_append_eq_right

theorem frame_turnaround : (1#2 ++ code ++ phy ++ reg ++ 2#2 ++ data).extractLsb' 16 2 = 2 := by
  rw [BitVec.extractLsb'_append_eq_of_le (by decide)]
  exact BitVec.extractLsb'_append_eq_right

theorem frame_data : (1#2 ++ code ++ phy ++ reg ++ 2#2 ++ data).extractLsb' 0 16 = data :=
  BitVec.extractLsb'_append_eq_right

end Fields

/-- **A frame says its request.** -/
theorem decode_encode (r : Request) : decode r.encode = some r := by
  obtain ⟨phy, reg, op⟩ := r
  unfold decode Request.encode
  rw [frame_start, frame_turnaround, frame_code, frame_phy, frame_reg, frame_data]
  cases op <;> rfl

/-- A device: what reading a register gives, and what it and writing do to the device. -/
structure Device (σ : Type u) where
  read : σ → BitVec 5 → BitVec 16 × σ
  write : σ → BitVec 5 → BitVec 16 → σ

variable {σ : Type u} (dev : Device σ) (addr : BitVec 5)

/-- A request on a bus with `dev` at `addr` and no other device; the result is what the data field holds behind it. -/
def perform (s : σ) (r : Request) : BitVec 16 × σ :=
  match r.op with
  | .read => if r.phy = addr then dev.read s r.reg else (0xffff, s)
  | .write d => (d, if r.phy = addr then dev.write s r.reg d else s)

/-- What a frame does. -/
def exec (s : σ) (f : BitVec 32) : BitVec 16 × σ :=
  match decode f with
  | some r => perform dev addr s r
  | none => (0xffff, s)

theorem exec_encode (s : σ) (r : Request) : exec dev addr s r.encode = perform dev addr s r := by
  unfold exec
  rw [decode_encode]

end Mdio
