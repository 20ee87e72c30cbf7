import BootableUefi.Foundation.Pieces

/-!
# Files written from their start

Writing at position 0 replaces the bytes written and keeps the rest of the
file, so a file begins with what was written last.
-/

namespace Foundation

/-- The contents after `new` was written at position 0. -/
def overwrite (old new : List UInt8) : List UInt8 :=
  new ++ old.drop new.length

theorem isPrefix_overwrite (old new : List UInt8) : new <+: overwrite old new :=
  ⟨old.drop new.length, rfl⟩

/-- The bytes put in memory, from an address on. -/
def storeAt (base : Nat) (bytes : List UInt8) : ByteWrite where
  offset := base
  size := bytes.length
  data := memOf bytes

theorem apply_storeAt {base : Nat} {bytes : List UInt8} {i : Nat} (mem : Mem)
    (h : i < bytes.length) : (storeAt base bytes).apply mem (base + i) = bytes[i] := by
  have hin : i < (storeAt base bytes).size := h
  rw [show base + i = (storeAt base bytes).offset + i from rfl, ByteWrite.apply_of_mem hin]
  simp [storeAt, memOf, List.getD_eq_getElem?_getD, List.getElem?_eq_getElem h]

theorem apply_storeAt_outside {base : Nat} {bytes : List UInt8} {x : Nat} (mem : Mem)
    (h : x < base ∨ base + bytes.length ≤ x) : (storeAt base bytes).apply mem x = mem x :=
  ByteWrite.apply_of_not_mem h

end Foundation
