import Mathlib.Data.Nat.ModEq
import Mathlib.Data.List.Range

/-!
# Byte strings and little-endian words in memory

Memory is a function from addresses to bytes.  `Holds mem addr bytes` says that
the bytes lie at an address, whatever the rest of the memory is; strings that lie
one after the other are held together (`holds_append`).  A word of `k` bytes is
written by `wordBytes` and read by `readWord`, least significant byte first.

Nothing here refers to a particular program.
-/

namespace WireWords

universe u

/-- The bytes lie at the address. -/
def Holds (mem : Nat → UInt8) (addr : Nat) : List UInt8 → Prop
  | [] => True
  | b :: bs => mem addr = b ∧ Holds mem (addr + 1) bs

variable {mem : Nat → UInt8} {addr : Nat}

@[simp] theorem holds_nil : Holds mem addr [] := trivial

theorem holds_cons {b : UInt8} {bs : List UInt8} :
    Holds mem addr (b :: bs) ↔ mem addr = b ∧ Holds mem (addr + 1) bs := Iff.rfl

theorem holds_append {xs ys : List UInt8} :
    Holds mem addr (xs ++ ys) ↔
      Holds mem addr xs ∧ Holds mem (addr + xs.length) ys := by
  induction xs generalizing addr with
  | nil => simp
  | cons x xs ih =>
      rw [List.cons_append, holds_cons, holds_cons, ih, and_assoc, List.length_cons,
        show addr + 1 + xs.length = addr + (xs.length + 1) by omega]

/-- Each byte of a string that is held. -/
theorem Holds.getElem {bs : List UInt8} (h : Holds mem addr bs) {k : Nat}
    (hk : k < bs.length) : mem (addr + k) = bs[k] := by
  induction bs generalizing addr k with
  | nil => exact absurd hk (Nat.not_lt_zero k)
  | cons b bs ih =>
      obtain ⟨hHead, hTail⟩ := h
      cases k with
      | zero => exact hHead
      | succ k =>
          have hRest := ih hTail (Nat.lt_of_succ_lt_succ hk)
          rw [show addr + (k + 1) = addr + 1 + k by omega]
          exact hRest

/-- Memory of one byte holds the strings made of it. -/
theorem holds_const {b : UInt8} {bs : List UInt8} (h : ∀ c ∈ bs, c = b) :
    Holds (fun _ => b) addr bs := by
  induction bs generalizing addr with
  | nil => trivial
  | cons c bs ih =>
      exact ⟨(h c List.mem_cons_self).symm, ih fun d hMem => h d (List.mem_cons_of_mem c hMem)⟩

/-- A string is held wherever its bytes are the same. -/
theorem Holds.congr {mem' : Nat → UInt8} {addr' : Nat} {bs : List UInt8}
    (h : Holds mem addr bs) (hEq : ∀ k < bs.length, mem' (addr' + k) = mem (addr + k)) :
    Holds mem' addr' bs := by
  induction bs generalizing addr addr' with
  | nil => trivial
  | cons b bs ih =>
      obtain ⟨hHead, hTail⟩ := h
      refine ⟨(hEq 0 (Nat.zero_lt_succ _)).trans hHead, ih hTail fun k hk => ?_⟩
      have hNext := hEq (k + 1) (Nat.succ_lt_succ hk)
      rw [show addr' + 1 + k = addr' + (k + 1) by omega,
        show addr + 1 + k = addr + (k + 1) by omega]
      exact hNext

/-- Records of one width that lie one after the other. -/
theorem Holds.record {ι : Type u} {f : ι → List UInt8} {width : Nat}
    (hWidth : ∀ i, (f i).length = width) {xs : List ι} (h : Holds mem addr (xs.flatMap f))
    {k : Nat} (hk : k < xs.length) : Holds mem (addr + width * k) (f xs[k]) := by
  induction xs generalizing addr k with
  | nil => exact absurd hk (Nat.not_lt_zero k)
  | cons x xs ih =>
      rw [List.flatMap_cons, holds_append, hWidth] at h
      obtain ⟨hHead, hTail⟩ := h
      cases k with
      | zero => exact hHead
      | succ k =>
          have hRest := ih hTail (Nat.lt_of_succ_lt_succ hk)
          rw [show addr + width * (k + 1) = addr + width + width * k by
            rw [Nat.mul_succ]; omega]
          exact hRest

instance instDecidableHolds (mem : Nat → UInt8) (addr : Nat) (bytes : List UInt8) :
    Decidable (Holds mem addr bytes) :=
  match bytes with
  | [] => isTrue trivial
  | b :: bs =>
      have : Decidable (Holds mem (addr + 1) bs) := instDecidableHolds mem (addr + 1) bs
      inferInstanceAs (Decidable (mem addr = b ∧ Holds mem (addr + 1) bs))

/-- The bytes from an address on. -/
def slice (mem : Nat → UInt8) (addr : Nat) : Nat → List UInt8
  | 0 => []
  | k + 1 => mem addr :: slice mem (addr + 1) k

@[simp] theorem length_slice (k : Nat) : (slice mem addr k).length = k := by
  induction k generalizing addr with
  | zero => rfl
  | succ k ih => rw [slice, List.length_cons, ih]

/-- What lies at an address is read there. -/
theorem Holds.slice_eq {bs : List UInt8} (h : Holds mem addr bs) :
    slice mem addr bs.length = bs := by
  induction bs generalizing addr with
  | nil => rfl
  | cons b bs ih =>
      obtain ⟨hHead, hTail⟩ := h
      rw [List.length_cons, slice, hHead, ih hTail]

/-- Memory holds its own bytes. -/
theorem holds_slice (k : Nat) : Holds mem addr (slice mem addr k) := by
  induction k generalizing addr with
  | zero => trivial
  | succ k ih => exact ⟨rfl, ih⟩

theorem slice_eq_map (k : Nat) :
    slice mem addr k = (List.range k).map fun i => mem (addr + i) := by
  induction k generalizing addr with
  | zero => rfl
  | succ k ih =>
      rw [slice, ih, List.range_succ_eq_map, List.map_cons, List.map_map]
      refine congrArg _ (List.map_congr_left fun i _ => ?_)
      show mem (addr + 1 + i) = mem (addr + (i + 1))
      rw [show addr + 1 + i = addr + (i + 1) by omega]

/-- The bytes from an address on, in two parts. -/
theorem slice_add (j k : Nat) :
    slice mem addr (j + k) = slice mem addr j ++ slice mem (addr + j) k := by
  induction j generalizing addr with
  | zero => rw [Nat.zero_add, Nat.add_zero, slice, List.nil_append]
  | succ j ih =>
      rw [show j + 1 + k = (j + k) + 1 by omega, slice, slice, ih, List.cons_append,
        show addr + 1 + j = addr + (j + 1) by omega]

/-- A word of `k` bytes. -/
def wordBytes : Nat → Nat → List UInt8
  | 0, _ => []
  | k + 1, n => UInt8.ofNat n :: wordBytes k (n / 256)

/-- The word at an address. -/
def readWord (mem : Nat → UInt8) (addr : Nat) : Nat → Nat
  | 0 => 0
  | k + 1 => (mem addr).toNat + 256 * readWord mem (addr + 1) k

/-- A word is that of the bytes it is read from. -/
theorem readWord_congr {mem' : Nat → UInt8} {addr' k : Nat}
    (h : ∀ i < k, mem' (addr' + i) = mem (addr + i)) :
    readWord mem' addr' k = readWord mem addr k := by
  induction k generalizing addr addr' with
  | zero => rfl
  | succ k ih =>
      have hHead : mem' addr' = mem addr := h 0 (Nat.zero_lt_succ k)
      rw [readWord, readWord, hHead, ih fun i hi => ?_]
      have hNext := h (i + 1) (Nat.succ_lt_succ hi)
      rw [show addr' + 1 + i = addr' + (i + 1) by omega,
        show addr + 1 + i = addr + (i + 1) by omega]
      exact hNext

@[simp] theorem length_wordBytes (k n : Nat) : (wordBytes k n).length = k := by
  induction k generalizing n with
  | zero => rfl
  | succ k ih => rw [wordBytes, List.length_cons, ih]

theorem readWord_lt (k : Nat) : readWord mem addr k < 256 ^ k := by
  induction k generalizing addr with
  | zero => simp [readWord]
  | succ k ih =>
      have hByte : (mem addr).toNat < 256 := (mem addr).toNat_lt
      have hRest : readWord mem (addr + 1) k < 256 ^ k := ih
      rw [readWord, Nat.pow_succ]
      omega

/-- What is written is read, up to the size of the word. -/
theorem Holds.readWord_eq {k n : Nat} (h : Holds mem addr (wordBytes k n)) :
    readWord mem addr k = n % 256 ^ k := by
  induction k generalizing addr n with
  | zero => simp [readWord, Nat.mod_one]
  | succ k ih =>
      obtain ⟨hHead, hTail⟩ := h
      rw [readWord, hHead, ih hTail, Nat.pow_succ, Nat.mul_comm (256 ^ k) 256,
        Nat.mod_mul]
      simp [UInt8.toNat_ofNat']

end WireWords
