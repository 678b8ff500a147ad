import Mathlib.Algebra.Group.Int.Defs
import Mathlib.Algebra.Group.Nat.Defs

/-!
# Bytes and C strings

The programs handle `char` data.  A `char` is a byte here and a `std::string`
is a list of bytes, embedded NUL bytes included.

One platform is assumed throughout: `int` has 32 bits, `size_t` and pointers have 64,
and the diag library's `uint32` has the 32 bits which its `comdef.h` documents (its
`unsigned long int` has them too, then).  Numbers are little-endian.
-/

namespace MgComm

/-- A `char`. -/
abbrev Byte := UInt8

/-- The bytes of an ASCII literal of the source. -/
def ascii (literal : String) : List Byte :=
  literal.toList.map fun c => UInt8.ofNat c.toNat

/-- The character `'\n'`. -/
def newline : Byte := 10

/-- Conversion of a signed length to `size_t`. -/
def sizeT (n : Int) : Nat := (n % 2 ^ 64).toNat

/-- Conversion of a value to `int`. -/
def intT (n : Int) : Int := n.bmod (2 ^ 32)

end MgComm
