import Mathlib.Data.Nat.Basic

/-!
# A heap of blocks

Every block is known by the number it got when it was allocated; a number is
never used twice, so that a pointer to a block that has been freed designates
nothing any more.
-/

namespace Foundation

structure BlockHeap where
  /-- The size of a live block. -/
  size : Nat -> Option Nat
  next : Nat
  fresh : forall id, next ≤ id -> size id = none

namespace BlockHeap

def empty : BlockHeap where
  size := fun _ => none
  next := 0
  fresh := fun _ _ => rfl

def alloc (heap : BlockHeap) (bytes : Nat) : BlockHeap where
  size := fun id => if id = heap.next then some bytes else heap.size id
  next := heap.next + 1
  fresh := by
    intro id hid
    rw [if_neg (by omega)]
    exact heap.fresh id (by omega)

/-- The block is gone; NULL and blocks that are gone are left alone. -/
def free (heap : BlockHeap) (pointer : Option Nat) : BlockHeap where
  size := fun id => if pointer = some id then none else heap.size id
  next := heap.next
  fresh := by
    intro id hid
    split
    · rfl
    · exact heap.fresh id hid

def sizeAt (heap : BlockHeap) (pointer : Option Nat) : Option Nat :=
  pointer.bind heap.size

@[simp] theorem sizeAt_none (heap : BlockHeap) : heap.sizeAt none = none := rfl

@[simp] theorem sizeAt_alloc_next (heap : BlockHeap) (bytes : Nat) :
    (heap.alloc bytes).sizeAt (some heap.next) = some bytes := by
  simp [sizeAt, alloc]

end BlockHeap

end Foundation
