import BootableUefi.Firmware.Status
import BootableUefi.Foundation.Pieces

/-!
# The partition being flashed

The statics of `flash.c` and the three functions that advance `cur_offset`.
The firmware is a list of answers: what the n-th `WriteDisk` returns, and what
the n-th `AllocatePool` finds, if anything.
-/

namespace BootableUefi
namespace Flash

open Firmware Foundation

structure BlockIo where
  mediaId : UInt32
  blockSize : UInt32
  deriving DecidableEq, Repr

/-- `struct gpt_partition`: the extent of the entry. -/
structure GptPartition where
  startingLba : UInt64
  endingLba : UInt64
  deriving DecidableEq, Repr

/-- `struct gpt_partition_interface`; before the first lookup `bio` is NULL. -/
structure GptPartitionInterface where
  part : GptPartition
  bio : Option BlockIo
  deriving DecidableEq, Repr

namespace GptPartitionInterface

/-- `gparti.bio->Media->BlockSize`. -/
def blockSize (gparti : GptPartitionInterface) : Nat :=
  match gparti.bio with
  | some bio => bio.blockSize.toNat
  | none => 0

def partStart (gparti : GptPartitionInterface) : Nat :=
  u64 (gparti.part.startingLba.toNat * gparti.blockSize)

def partEnd (gparti : GptPartitionInterface) : Nat :=
  u64 (u64 (gparti.part.endingLba.toNat + 1) * gparti.blockSize)

def isInsidePartition (gparti : GptPartitionInterface) (offset size : Nat) : Prop :=
  gparti.partStart ≤ offset ∧ u64 (offset + size) ≤ gparti.partEnd

instance (gparti : GptPartitionInterface) (offset size : Nat) :
    Decidable (gparti.isInsidePartition offset size) :=
  inferInstanceAs (Decidable (_ ∧ _))

end GptPartitionInterface

/-- How a call ends; a remainder by zero raises a divide error. -/
inductive FlashEnd where
  | returned (status : EfiStatus)
  | divideError
  deriving DecidableEq, Repr

inductive FlashEvent where
  /-- Bytes of the image are read, out of the ones available at this offset. -/
  | read (offset size available : Nat)
  | check (offset size : Nat)
  | writeDisk (write : ByteWrite) (status : EfiStatus)
  /-- `cur_offset` is assigned. -/
  | moved (offset : Nat)

structure FlashEnv where
  arch : Arch
  writeDisk : Nat -> EfiStatus
  allocatePool : Nat -> Option Mem
  partitionByLabel : List UInt16 -> Except EfiStatus (GptPartition × BlockIo)

structure FlashState where
  gparti : GptPartitionInterface
  curOffset : Nat
  writes : Nat
  allocations : Nat
  log : List FlashEvent

namespace FlashState

def fresh : FlashState where
  gparti := { part := { startingLba := 0, endingLba := 0 }, bio := none }
  curOffset := 0
  writes := 0
  allocations := 0
  log := []

def emit (event : FlashEvent) (s : FlashState) : FlashState :=
  { s with log := s.log ++ [event] }

def moveTo (offset : Nat) (s : FlashState) : FlashState :=
  { s with curOffset := offset, log := s.log ++ [FlashEvent.moved offset] }

end FlashState

def flashSkip (size : Nat) (s : FlashState) : EfiStatus × FlashState :=
  let t := s.emit (FlashEvent.check s.curOffset size)
  if s.gparti.isInsidePartition s.curOffset size then
    (EfiStatus.success, t.moveTo (u64 (s.curOffset + size)))
  else
    (EfiStatus.invalidParameter, t)

/-- `flash_write`; the cursor moves even when `WriteDisk` fails. -/
def flashWrite (env : FlashEnv) (data : Mem) (size : Nat) (s : FlashState) :
    EfiStatus × FlashState :=
  if s.gparti.bio.isNone then
    (EfiStatus.invalidParameter, s)
  else
    let t := s.emit (FlashEvent.check s.curOffset size)
    if s.gparti.isInsidePartition s.curOffset size then
      let status := env.writeDisk s.writes
      let write : ByteWrite := { offset := s.curOffset, size := size, data := data }
      let t := { t.emit (FlashEvent.writeDisk write status) with writes := s.writes + 1 }
      (status, t.moveTo (u64 (s.curOffset + size)))
    else
      (EfiStatus.invalidParameter, t)

/--
The buffer `flash_fill` writes: its loop stores `size / sizeof(UINTN)` 32-bit
patterns, and leaves what the pool block held after them.
-/
def fillBuffer (arch : Arch) (pattern size : Nat) (pool : Mem) : Mem :=
  fun i => if i < 4 * (size / arch.sizeofUintn) then byteOf pattern (i % 4) else pool i

def flashFill (env : FlashEnv) (pattern size : Nat) (s : FlashState) :
    EfiStatus × FlashState :=
  let t := { s with allocations := s.allocations + 1 }
  match env.allocatePool s.allocations with
  | none => (EfiStatus.outOfResources, t)
  | some pool => flashWrite env (fillBuffer env.arch pattern size pool) size t

def grantingEnv (part : GptPartition) (bio : BlockIo) : FlashEnv where
  arch := Arch.x64
  writeDisk := fun _ => EfiStatus.success
  allocatePool := fun _ => some fun _ => 0
  partitionByLabel := fun _ => Except.ok (part, bio)

/-!
# Spec lemmas

One lemma for each way out of the three functions.
-/

section Specs

variable {env : FlashEnv} {data : Mem} {size : Nat} {s : FlashState}

theorem flashSkip_of_inside (h : s.gparti.isInsidePartition s.curOffset size) :
    flashSkip size s =
      (EfiStatus.success,
        (s.emit (FlashEvent.check s.curOffset size)).moveTo (u64 (s.curOffset + size))) := by
  simp [flashSkip, h]

theorem flashSkip_of_not_inside (h : ¬ s.gparti.isInsidePartition s.curOffset size) :
    flashSkip size s =
      (EfiStatus.invalidParameter, s.emit (FlashEvent.check s.curOffset size)) := by
  simp [flashSkip, h]

def writtenState (env : FlashEnv) (data : Mem) (size : Nat) (s : FlashState) : FlashState where
  gparti := s.gparti
  curOffset := u64 (s.curOffset + size)
  writes := s.writes + 1
  allocations := s.allocations
  log := s.log ++ [FlashEvent.check s.curOffset size,
    FlashEvent.writeDisk { offset := s.curOffset, size := size, data := data }
      (env.writeDisk s.writes),
    FlashEvent.moved (u64 (s.curOffset + size))]

theorem flashWrite_cases (env : FlashEnv) (data : Mem) (size : Nat) (s : FlashState) :
    (s.gparti.bio = none ∧
        flashWrite env data size s = (EfiStatus.invalidParameter, s)) ∨
      (¬ s.gparti.isInsidePartition s.curOffset size ∧
        flashWrite env data size s =
          (EfiStatus.invalidParameter, s.emit (FlashEvent.check s.curOffset size))) ∨
      (s.gparti.isInsidePartition s.curOffset size ∧
        flashWrite env data size s =
          (env.writeDisk s.writes, writtenState env data size s)) := by
  cases hbio : s.gparti.bio with
  | none => exact Or.inl ⟨rfl, by simp [flashWrite, hbio]⟩
  | some bio =>
      by_cases hinside : s.gparti.isInsidePartition s.curOffset size
      · refine Or.inr (Or.inr ⟨hinside, ?_⟩)
        simp [flashWrite, hbio, hinside, writtenState, FlashState.emit, FlashState.moveTo]
      · refine Or.inr (Or.inl ⟨hinside, ?_⟩)
        simp [flashWrite, hbio, hinside]

theorem flashWrite_success (h : (flashWrite env data size s).1 = EfiStatus.success) :
    s.gparti.isInsidePartition s.curOffset size ∧
      env.writeDisk s.writes = EfiStatus.success ∧
      (flashWrite env data size s).2 = writtenState env data size s := by
  rcases flashWrite_cases env data size s with ⟨_, heq⟩ | ⟨_, heq⟩ | ⟨hinside, heq⟩
  · rw [heq] at h
    cases h
  · rw [heq] at h
    cases h
  · rw [heq] at h ⊢
    exact ⟨hinside, h, rfl⟩

theorem flashSkip_success (h : (flashSkip size s).1 = EfiStatus.success) :
    s.gparti.isInsidePartition s.curOffset size ∧
      (flashSkip size s).2 =
        (s.emit (FlashEvent.check s.curOffset size)).moveTo (u64 (s.curOffset + size)) := by
  by_cases hinside : s.gparti.isInsidePartition s.curOffset size
  · rw [flashSkip_of_inside hinside]
    exact ⟨hinside, rfl⟩
  · rw [flashSkip_of_not_inside hinside] at h
    cases h

theorem flashSkip_gparti (size : Nat) (s : FlashState) :
    (flashSkip size s).2.gparti = s.gparti := by
  by_cases hinside : s.gparti.isInsidePartition s.curOffset size
  · rw [flashSkip_of_inside hinside]
    rfl
  · rw [flashSkip_of_not_inside hinside]
    rfl

theorem flashWrite_gparti (env : FlashEnv) (data : Mem) (size : Nat) (s : FlashState) :
    (flashWrite env data size s).2.gparti = s.gparti := by
  rcases flashWrite_cases env data size s with ⟨_, heq⟩ | ⟨_, heq⟩ | ⟨_, heq⟩
  · rw [heq]
  · rw [heq]
    rfl
  · rw [heq]
    rfl

theorem flashFill_gparti (env : FlashEnv) (pattern size : Nat) (s : FlashState) :
    (flashFill env pattern size s).2.gparti = s.gparti := by
  unfold flashFill
  dsimp only
  split
  · rfl
  · exact flashWrite_gparti env _ size { s with allocations := _ }

end Specs

/-!
# Properties of the events

A property of event lists that holds of each way out of the operations and
survives concatenation holds of everything they do.
-/

def Emits (P : List FlashEvent -> Prop) (s t : FlashState) : Prop :=
  exists events : List FlashEvent, t.log = s.log ++ events ∧ P events

/-- The property holds of what the operations do on the partition. -/
structure WriteRule (gparti : GptPartitionInterface) (P : List FlashEvent -> Prop) :
    Prop where
  nil : P []
  append : forall xs ys, P xs -> P ys -> P (xs ++ ys)
  check : forall offset size, P [FlashEvent.check offset size]
  moved : forall offset size, gparti.isInsidePartition offset size ->
    P [FlashEvent.check offset size, FlashEvent.moved (u64 (offset + size))]
  written : forall offset size data status, gparti.isInsidePartition offset size ->
    P [FlashEvent.check offset size,
      FlashEvent.writeDisk { offset := offset, size := size, data := data } status,
      FlashEvent.moved (u64 (offset + size))]

section Rules

variable {gparti : GptPartitionInterface} {P : List FlashEvent -> Prop}

theorem WriteRule.refl (rule : WriteRule gparti P) (s : FlashState) : Emits P s s :=
  ⟨[], by simp, rule.nil⟩

theorem WriteRule.trans (rule : WriteRule gparti P) {s t u : FlashState}
    (hst : Emits P s t) (htu : Emits P t u) : Emits P s u := by
  rcases hst with ⟨first, hfirst, hP⟩
  rcases htu with ⟨rest, hrest, hQ⟩
  refine ⟨first ++ rest, ?_, rule.append first rest hP hQ⟩
  rw [hrest, hfirst, List.append_assoc]

theorem emits_flashSkip (rule : WriteRule gparti P) (size : Nat) {s : FlashState}
    (hs : s.gparti = gparti) : Emits P s (flashSkip size s).2 := by
  by_cases hinside : s.gparti.isInsidePartition s.curOffset size
  · rw [flashSkip_of_inside hinside]
    rw [hs] at hinside
    refine ⟨_, ?_, rule.moved s.curOffset size hinside⟩
    simp [FlashState.moveTo, FlashState.emit]
  · rw [flashSkip_of_not_inside hinside]
    exact ⟨_, rfl, rule.check s.curOffset size⟩

theorem emits_flashWrite (rule : WriteRule gparti P) (env : FlashEnv) (data : Mem)
    (size : Nat) {s : FlashState} (hs : s.gparti = gparti) :
    Emits P s (flashWrite env data size s).2 := by
  rcases flashWrite_cases env data size s with ⟨_, heq⟩ | ⟨_, heq⟩ | ⟨hinside, heq⟩
  · rw [heq]
    exact rule.refl s
  · rw [heq]
    exact ⟨_, rfl, rule.check s.curOffset size⟩
  · rw [heq]
    rw [hs] at hinside
    exact ⟨_, rfl, rule.written s.curOffset size data _ hinside⟩

theorem emits_flashFill (rule : WriteRule gparti P) (env : FlashEnv) (pattern size : Nat)
    {s : FlashState} (hs : s.gparti = gparti) :
    Emits P s (flashFill env pattern size s).2 := by
  unfold flashFill
  dsimp only
  split
  · exact rule.refl s
  · rename_i pool _
    have hfilled : ({ s with allocations := s.allocations + 1 } : FlashState).gparti = gparti := hs
    exact emits_flashWrite rule env _ size hfilled

end Rules

end Flash
end BootableUefi
