import Mathlib.Algebra.Order.Ring.Nat

/-!
# Bytes and words

Memory is a function from offsets to bytes; unsigned machine words are natural
numbers that are reduced where the machine would.
-/

namespace Foundation

/-- Memory, from some base on. -/
abbrev Mem := Nat -> UInt8

def u8 (n : Nat) : Nat :=
  n % 2 ^ 8

def u32 (n : Nat) : Nat :=
  n % 2 ^ 32

def u64 (n : Nat) : Nat :=
  n % 2 ^ 64

def sub64 (a b : Nat) : Nat :=
  u64 (a + 2 ^ 64 - b)

theorem sub64_of_le {a b : Nat} (h : b ≤ a) (ha : a < 2 ^ 64) : sub64 a b = a - b := by
  unfold sub64 u64
  omega

theorem u32_lt (n : Nat) : u32 n < 2 ^ 32 :=
  Nat.mod_lt n (by decide)

theorem u64_lt (n : Nat) : u64 n < 2 ^ 64 :=
  Nat.mod_lt n (by decide)

theorem u32_le (n : Nat) : u32 n ≤ n :=
  Nat.mod_le n (2 ^ 32)

theorem u64_le (n : Nat) : u64 n ≤ n :=
  Nat.mod_le n (2 ^ 64)

theorem u32_of_lt {n : Nat} (h : n < 2 ^ 32) : u32 n = n :=
  Nat.mod_eq_of_lt h

theorem u64_of_lt {n : Nat} (h : n < 2 ^ 64) : u64 n = n :=
  Nat.mod_eq_of_lt h

theorem u32_eq_self_iff {n : Nat} : u32 n = n <-> n < 2 ^ 32 := by
  constructor
  · intro h
    rw [← h]
    exact u32_lt n
  · exact u32_of_lt

/-!
# Little-endian fields
-/

def le16 (mem : Mem) (offset : Nat) : Nat :=
  (mem offset).toNat + 2 ^ 8 * (mem (offset + 1)).toNat

def le32 (mem : Mem) (offset : Nat) : Nat :=
  le16 mem offset + 2 ^ 16 * le16 mem (offset + 2)

def le64 (mem : Mem) (offset : Nat) : Nat :=
  le32 mem offset + 2 ^ 32 * le32 mem (offset + 4)

/-- The byte of a word at the given place. -/
def byteOf (word place : Nat) : UInt8 :=
  UInt8.ofNat (word / 2 ^ (8 * place))

theorem le16_lt (mem : Mem) (offset : Nat) : le16 mem offset < 2 ^ 16 := by
  have hlow := (mem offset).toNat_lt
  have hhigh := (mem (offset + 1)).toNat_lt
  unfold le16
  omega

theorem le32_lt (mem : Mem) (offset : Nat) : le32 mem offset < 2 ^ 32 := by
  have hlow := le16_lt mem offset
  have hhigh := le16_lt mem (offset + 2)
  unfold le32
  omega

theorem le32_congr {mem others : Mem} {offset : Nat}
    (h : forall i, i < 4 -> others (offset + i) = mem (offset + i)) :
    le32 others offset = le32 mem offset := by
  have h0 := h 0 (by decide)
  have h1 := h 1 (by decide)
  have h2 := h 2 (by decide)
  have h3 := h 3 (by decide)
  unfold le32 le16
  rw [Nat.add_zero] at h0
  rw [h0, h1, h2, h3]

def memOf (bytes : List UInt8) : Mem :=
  fun offset => bytes.getD offset 0

def ascii (text : String) : List UInt8 :=
  text.toList.map fun c => UInt8.ofNat c.toNat

end Foundation
