import BootableUefi.Flash.Sparse

/-!
# Containment of writes

Every operation checks the cursor against both ends of the partition before it
touches the device or the cursor, so the containment holds event by event; it
does not rest on where the cursor was.
-/

namespace BootableUefi
namespace Flash

open Firmware Foundation

/-- The partition's first byte, in unbounded arithmetic. -/
def GptPartitionInterface.firstByte (gparti : GptPartitionInterface) : Nat :=
  gparti.part.startingLba.toNat * gparti.blockSize

def GptPartitionInterface.endByte (gparti : GptPartitionInterface) : Nat :=
  (gparti.part.endingLba.toNat + 1) * gparti.blockSize

def GptPartitionInterface.StartFits (gparti : GptPartitionInterface) : Prop :=
  gparti.firstByte < 2 ^ 64

namespace FlashEvent

/-- The sum that `is_inside_partition` compares does not wrap. -/
def SumFits : FlashEvent -> Prop
  | FlashEvent.check offset size => offset + size < 2 ^ 64
  | _ => True

/-- Writes and cursor stay in the partition. -/
def Contained (gparti : GptPartitionInterface) : FlashEvent -> Prop
  | FlashEvent.writeDisk w _ =>
      gparti.firstByte ≤ w.offset ∧ w.offset + w.size ≤ gparti.endByte
  | FlashEvent.moved offset => gparti.firstByte ≤ offset ∧ offset ≤ gparti.endByte
  | _ => True

end FlashEvent

section Containment

variable {gparti : GptPartitionInterface}

theorem GptPartitionInterface.StartFits.partStart_eq (h : gparti.StartFits) :
    gparti.partStart = gparti.firstByte :=
  u64_of_lt h

theorem GptPartitionInterface.partEnd_le (gparti : GptPartitionInterface) :
    gparti.partEnd ≤ gparti.endByte := by
  have hlba : u64 (gparti.part.endingLba.toNat + 1) ≤ gparti.part.endingLba.toNat + 1 :=
    u64_le (gparti.part.endingLba.toNat + 1)
  exact Nat.le_trans (u64_le _) (Nat.mul_le_mul_right gparti.blockSize hlba)

theorem inside_of_isInsidePartition (h : gparti.StartFits) {offset size : Nat}
    (hinside : gparti.isInsidePartition offset size) (hsum : offset + size < 2 ^ 64) :
    gparti.firstByte ≤ offset ∧ offset + size ≤ gparti.endByte := by
  rcases hinside with ⟨hfirst, hlast⟩
  rw [h.partStart_eq] at hfirst
  rw [u64_of_lt hsum] at hlast
  exact ⟨hfirst, Nat.le_trans hlast gparti.partEnd_le⟩

def ContainedIfFits (gparti : GptPartitionInterface) (events : List FlashEvent) : Prop :=
  (forall event, event ∈ events -> event.SumFits) ->
    forall event, event ∈ events -> event.Contained gparti

theorem containedIfFits_rule (h : gparti.StartFits) :
    WriteRule gparti (ContainedIfFits gparti) := by
  constructor
  · intro _ event hmem
    cases hmem
  · intro xs ys hxs hys hfits event hmem
    rcases List.mem_append.mp hmem with hleft | hright
    · exact hxs (fun e he => hfits e (List.mem_append_left ys he)) event hleft
    · exact hys (fun e he => hfits e (List.mem_append_right xs he)) event hright
  · intro offset size _ event hmem
    cases List.mem_singleton.mp hmem
    trivial
  · intro offset size hinside hfits event hmem
    have hsum : offset + size < 2 ^ 64 := hfits _ (List.mem_cons_self ..)
    have hrange := inside_of_isInsidePartition h hinside hsum
    simp only [List.mem_cons, List.not_mem_nil, or_false] at hmem
    rcases hmem with rfl | rfl
    · trivial
    · rw [u64_of_lt hsum]
      exact ⟨by omega, hrange.2⟩
  · intro offset size data status hinside hfits event hmem
    have hsum : offset + size < 2 ^ 64 := hfits _ (List.mem_cons_self ..)
    have hrange := inside_of_isInsidePartition h hinside hsum
    simp only [List.mem_cons, List.not_mem_nil, or_false] at hmem
    rcases hmem with rfl | rfl | rfl
    · trivial
    · exact hrange
    · rw [u64_of_lt hsum]
      exact ⟨by omega, hrange.2⟩

theorem containedIfFits_read (offset size available : Nat) :
    ContainedIfFits gparti [FlashEvent.read offset size available] := by
  intro _ event hmem
  cases List.mem_singleton.mp hmem
  trivial

end Containment

/--
Every write of `flash` and every value it gives the cursor lies in the
partition found for the label.
-/
theorem flash_contained {env : FlashEnv} {label : List UInt16} {part : GptPartition}
    {bio : BlockIo} (hfound : env.partitionByLabel label = Except.ok (part, bio))
    (hstart : GptPartitionInterface.StartFits { part := part, bio := some bio })
    {s : FlashState} (hlog : s.log = []) (image : ImageBuffer)
    (hsums : forall event, event ∈ (flash env image label s).2.log -> event.SumFits) :
    forall event, event ∈ (flash env image label s).2.log ->
      event.Contained { part := part, bio := some bio } := by
  have hemits : Emits (ContainedIfFits { part := part, bio := some bio }) s
      (flash env image label s).2 := by
    have rule := containedIfFits_rule hstart
    unfold flash
    rw [hfound]
    dsimp only
    split
    · apply rule.of_read (containedIfFits_read 0 sparseHeaderSize sparseHeaderSize)
      exact emits_flashChunks rule containedIfFits_read env image _ _ _ rfl
    · apply rule.of_read (containedIfFits_read 0 image.size image.size)
      exact emits_flashWrite rule env image.mem image.size rfl
  rcases hemits with ⟨events, heq, hevents⟩
  rw [hlog, List.nil_append] at heq
  rw [heq] at hsums ⊢
  exact hevents hsums

def twoBlocks : GptPartitionInterface where
  part := { startingLba := 1, endingLba := 2 }
  bio := some { mediaId := 0, blockSize := 512 }

def twoBlocksEnv : FlashEnv :=
  grantingEnv { startingLba := 1, endingLba := 2 } { mediaId := 0, blockSize := 512 }

def fourBytes : ImageBuffer where
  mem := memOf [1, 2, 3, 4]
  size := 4

theorem flash_contained_of_raw :
    (flash twoBlocksEnv fourBytes [] FlashState.fresh).2.curOffset = 516 ∧
      forall event, event ∈ (flash twoBlocksEnv fourBytes [] FlashState.fresh).2.log ->
        event.Contained twoBlocks := by
  have hlog : (flash twoBlocksEnv fourBytes [] FlashState.fresh).2.log =
      [FlashEvent.read 0 4 4, FlashEvent.check 512 4,
        FlashEvent.writeDisk { offset := 512, size := 4, data := fourBytes.mem }
          EfiStatus.success,
        FlashEvent.moved 516] := rfl
  have hstart : twoBlocks.StartFits := by
    unfold GptPartitionInterface.StartFits
    decide
  refine ⟨rfl, flash_contained rfl hstart rfl _ ?_⟩
  intro event hmem
  rw [hlog] at hmem
  simp only [List.mem_cons, List.not_mem_nil, or_false] at hmem
  rcases hmem with rfl | rfl | rfl | rfl
  · trivial
  · unfold FlashEvent.SumFits
    decide
  · trivial
  · trivial

end Flash
end BootableUefi
