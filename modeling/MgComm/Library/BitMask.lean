import Mathlib.Data.List.Range
import Mathlib.Data.Nat.Bitwise
import Mathlib.Data.Nat.Init

/-!
# Sets of numbers as bit masks

A mask keeps member `x` of a set in bit `x % 8` of byte `x / 8`, lowest bit
first.  `bytesOf` lays a set out as a mask; programs look a member up by masking
its byte, and compare the result either with the bit itself or with zero
(`and_bit_beq`, `and_bit_ne`).

Nothing here refers to a particular program.
-/

namespace BitMask

/-- Byte `j` of the mask of a set. -/
def byteOf (members : Nat → Bool) (j : Nat) : UInt8 :=
  UInt8.ofNat (Nat.ofBits fun i : Fin 8 => members (8 * j + i))

/-- The first `n` bytes of the mask. -/
@[irreducible] def bytesOf (members : Nat → Bool) (n : Nat) : List UInt8 :=
  (List.range n).map (byteOf members)

/-- `1 << k` as a byte. -/
def bit (k : Nat) : UInt8 := UInt8.ofNat (1 <<< k)

@[simp] theorem length_bytesOf (members : Nat → Bool) (n : Nat) :
    (bytesOf members n).length = n := by
  simp [bytesOf]

@[simp] theorem getElem_bytesOf (members : Nat → Bool) {n j : Nat}
    (h : j < (bytesOf members n).length) : (bytesOf members n)[j] = byteOf members j := by
  simp [bytesOf]

theorem toNat_byteOf (members : Nat → Bool) (j : Nat) :
    (byteOf members j).toNat = Nat.ofBits fun i : Fin 8 => members (8 * j + i) :=
  UInt8.toNat_ofNat_of_lt' (Nat.ofBits_lt_two_pow _)

/-- A member's bit is set in the mask exactly if it is in the set. -/
theorem testBit_byteOf (members : Nat → Bool) (x : Nat) :
    (byteOf members (x / 8)).toNat.testBit (x % 8) = members x := by
  rw [toNat_byteOf, Nat.testBit_ofBits_lt _ _ (Nat.mod_lt x (by decide))]
  show members (8 * (x / 8) + x % 8) = members x
  rw [Nat.div_add_mod]

theorem toNat_bit {k : Nat} (hk : k < 8) : (bit k).toNat = 2 ^ k := by
  rw [bit, Nat.one_shiftLeft]
  exact UInt8.toNat_ofNat_of_lt' (Nat.pow_lt_pow_right (by decide) hk)

theorem toNat_and_bit (b : UInt8) {k : Nat} (hk : k < 8) :
    (b &&& bit k).toNat = (b.toNat.testBit k).toNat * 2 ^ k := by
  rw [UInt8.toNat_and, toNat_bit hk, Nat.and_two_pow]

/-- `(b & mask) == mask` -/
theorem and_bit_beq (b : UInt8) {k : Nat} (hk : k < 8) :
    ((b &&& bit k) == bit k) = b.toNat.testBit k := by
  have hPos : 0 < 2 ^ k := Nat.two_pow_pos k
  rw [Bool.eq_iff_iff, beq_iff_eq, ← UInt8.toNat_inj, toNat_and_bit b hk, toNat_bit hk]
  cases b.toNat.testBit k with
  | false => simp [hPos.ne]
  | true => simp

/-- `b & mask` as a truth value -/
theorem and_bit_ne (b : UInt8) {k : Nat} (hk : k < 8) :
    ((b &&& bit k) != 0) = b.toNat.testBit k := by
  have hPos : 0 < 2 ^ k := Nat.two_pow_pos k
  rw [Bool.eq_iff_iff, bne_iff_ne, ne_eq, ← UInt8.toNat_inj, toNat_and_bit b hk]
  cases b.toNat.testBit k with
  | false => simp
  | true => simp

end BitMask
