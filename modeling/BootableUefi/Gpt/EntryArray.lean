import BootableUefi.Gpt.CacheFill

/-!
# The stride of the entry array

The array is read with the stride of its header, in 32-bit arithmetic, and
walked with the stride of the C type.  The two agree for entries of 128 bytes,
and for a table with at most one entry that is not shorter than that.
-/

namespace BootableUefi
namespace Gpt

open Firmware Foundation

def sizeofGptPartition : Nat :=
  128

namespace BlockDevice

variable (arch : Arch) (device : BlockDevice)

def arrayStart : Nat :=
  device.blockSize.toNat * device.header.entriesLba.toNat

/-- The place on the disk that a byte of the block was read from; none beyond the read. -/
def byteOrigin (x : Nat) : Option Nat :=
  if x < device.header.arraySize then
    some (device.header.arrayOffset arch device.blockSize + x)
  else
    none

/-- An entry is read from its place in the array, and its bytes are in the block. -/
structure Decodes (entry : GptEntry) : Prop where
  stored : forall i, i < sizeofGptPartition ->
    device.byteOrigin arch (entry.offset + i) =
      some (device.arrayStart + entry.index * device.header.sizeOfEntry.toNat + i)
  inside : entry.index * device.header.sizeOfEntry.toNat + sizeofGptPartition ≤
    device.header.arraySize

/--
There are no entries; or the array starts where a `UINTN` can tell, and has one
entry that is not too short or entries of 128 bytes whose size fits 32 bits.
-/
def WalksItsArray : Prop :=
  device.header.numberOfEntries.toNat = 0 ∨
    device.arrayStart < 2 ^ arch.uintnBits ∧
      (device.header.numberOfEntries.toNat = 1 ∧
          sizeofGptPartition ≤ device.header.sizeOfEntry.toNat ∨
        device.header.sizeOfEntry.toNat = sizeofGptPartition ∧
          device.header.numberOfEntries.toNat * sizeofGptPartition < 2 ^ 32)

instance : Decidable (device.WalksItsArray arch) :=
  inferInstanceAs (Decidable (_ ∨ _))

end BlockDevice

section Array

variable {arch : Arch} {device : BlockDevice}

theorem entryArray_of_byteOrigin {x y : Nat} (h : device.byteOrigin arch x = some y)
    (pool : Mem) : entryArray arch device device.header pool x = device.contents y := by
  unfold BlockDevice.byteOrigin at h
  split at h
  · rename_i hlt
    cases h
    unfold entryArray ByteWrite.apply
    rw [if_pos ⟨Nat.zero_le x, by rwa [Nat.zero_add]⟩, Nat.sub_zero]
  · cases h

theorem arrayOffset_eq_iff :
    device.header.arrayOffset arch device.blockSize = device.arrayStart <->
      device.arrayStart < 2 ^ arch.uintnBits := by
  unfold GptHeader.arrayOffset BlockDevice.arrayStart
  generalize device.blockSize.toNat * device.header.entriesLba.toNat = start
  constructor
  · intro h
    rw [← h]
    exact uintn_lt arch _
  · intro hlt
    have hwide : start < 2 ^ 64 := by
      apply Nat.lt_of_lt_of_le hlt
      cases arch <;> decide
    rw [u64_of_lt hwide, uintn_of_lt hlt]

theorem byteOrigin_eq_some_iff {x y : Nat} :
    device.byteOrigin arch x = some y <->
      x < device.header.arraySize ∧
        device.header.arrayOffset arch device.blockSize + x = y := by
  unfold BlockDevice.byteOrigin
  split
  · rename_i hlt
    simp [hlt]
  · rename_i hge
    simp [hge]

theorem mem_entries {disk : GptDisk} {entry : GptEntry} :
    entry ∈ disk.entries <->
      entry.disk = disk ∧ entry.index < disk.numberOfEntries.toNat := by
  unfold GptDisk.entries
  simp only [List.mem_map, List.mem_range]
  constructor
  · rintro ⟨p, hp, rfl⟩
    exact ⟨rfl, hp⟩
  · rintro ⟨rfl, hp⟩
    exact ⟨entry.index, hp, rfl⟩

/-- For one entry: it is looked for where it is, and both places are in the block. -/
theorem decodes_iff {entry : GptEntry} :
    device.Decodes arch entry <->
      device.header.arrayOffset arch device.blockSize + sizeofGptPartition * entry.index =
          device.arrayStart + entry.index * device.header.sizeOfEntry.toNat ∧
        sizeofGptPartition * entry.index + sizeofGptPartition ≤ device.header.arraySize ∧
        entry.index * device.header.sizeOfEntry.toNat + sizeofGptPartition ≤
          device.header.arraySize := by
  have hoffset : entry.offset = sizeofGptPartition * entry.index := rfl
  have hsize : sizeofGptPartition = 128 := rfl
  constructor
  · intro h
    have hfirst := byteOrigin_eq_some_iff.mp (h.stored 0 (by decide))
    have hlast := byteOrigin_eq_some_iff.mp (h.stored 127 (by decide))
    rw [hoffset] at hfirst hlast
    exact ⟨by omega, by omega, h.inside⟩
  · rintro ⟨hplace, hlast, hinside⟩
    refine ⟨?_, hinside⟩
    intro i hi
    rw [byteOrigin_eq_some_iff, hoffset]
    constructor <;> omega

/-- The entries of the array are decoded exactly if it is walked with its own stride. -/
theorem forall_decodes_iff (disk : GptDisk) :
    (forall p, p < device.header.numberOfEntries.toNat ->
      device.Decodes arch { disk := disk, index := p }) <->
      device.WalksItsArray arch := by
  have hsize : sizeofGptPartition = 128 := rfl
  have hstride := device.header.sizeOfEntry.toNat_lt
  unfold BlockDevice.WalksItsArray
  rw [← arrayOffset_eq_iff]
  simp only [decodes_iff, GptHeader.arraySize, hsize]
  generalize device.header.arrayOffset arch device.blockSize = offset
  generalize device.header.numberOfEntries.toNat = n
  generalize device.header.sizeOfEntry.toNat = stride at hstride ⊢
  constructor
  · intro h
    rcases Nat.lt_trichotomy n 1 with hnone | hone | hmore
    · exact Or.inl (by omega)
    · have hfirst := h 0 (by omega)
      rw [hone, Nat.one_mul, u32_of_lt hstride] at hfirst
      exact Or.inr ⟨by omega, Or.inl ⟨hone, by omega⟩⟩
    · -- The second entry gives the stride, the last one the size.
      have hfirst := h 0 (by omega)
      have hsecond := h 1 hmore
      have hlast := h (n - 1) (by omega)
      have hsame : stride = 128 := by omega
      have hwhole := u32_le (n * stride)
      rw [hsame] at hlast hwhole
      refine Or.inr ⟨by omega, Or.inr ⟨hsame, ?_⟩⟩
      rw [← u32_eq_self_iff]
      omega
  · rintro (hnone | ⟨hstart, ⟨hone, hlong⟩ | ⟨hsame, hfits⟩⟩) p hp
    · omega
    · have hzero : p = 0 := by omega
      rw [hzero, hone, Nat.one_mul, u32_of_lt hstride]
      omega
    · rw [hsame, u32_of_lt hfits]
      omega

end Array

/--
For a disk whose table is accepted and read, the entries both functions go
through are the ones of the array on the disk exactly if the array is walked with
its own stride.
-/
theorem entries_decoded_iff {arch : Arch} {device : BlockDevice} {slot filled : DiskSlot}
    (h : slot.gptListPartitionOnDisk arch device = (EfiStatus.success, filled)) :
    (forall entry, entry ∈ filled.disk.entries -> device.Decodes arch entry) <->
      device.WalksItsArray arch := by
  have hpass : device.Passes := by
    by_contra hfails
    have herror : efiError (slot.gptListPartitionOnDisk arch device).1 = true :=
      gptListPartitionOnDisk_of_not_passes hfails slot
    rw [h] at herror
    cases herror
  rw [gptListPartitionOnDisk_of_passes hpass] at h
  cases h
  rw [← forall_decodes_iff (device.slot arch).disk]
  constructor
  · intro hentries p hp
    exact hentries _ (mem_entries.mpr ⟨rfl, hp⟩)
  · intro hall entry hmem
    rcases mem_entries.mp hmem with ⟨hdisk, hindex⟩
    have hentry := hall entry.index hindex
    rwa [← hdisk] at hentry

theorem entries_decoded_iff_of_four :
    (tableDisk 2 4 128).WalksItsArray Arch.x64 ∧
      forall entry, entry ∈ ((tableDisk 2 4 128).slot Arch.x64).disk.entries ->
        (tableDisk 2 4 128).Decodes Arch.x64 entry := by
  have hrun : ((tableDisk 0 0 0).slot Arch.x64).gptListPartitionOnDisk Arch.x64
      (tableDisk 2 4 128) = (EfiStatus.success, (tableDisk 2 4 128).slot Arch.x64) :=
    gptListPartitionOnDisk_of_passes (by decide +kernel) _
  have hwalks : (tableDisk 2 4 128).WalksItsArray Arch.x64 := by
    decide +kernel
  exact ⟨hwalks, (entries_decoded_iff hrun).mpr hwalks⟩

/-- In a table of two entries of 256 bytes the second one is looked for inside the first. -/
theorem wide_entries_misread :
    (tableDisk 2 2 256).Passes ∧
      ¬ forall entry, entry ∈ ((tableDisk 2 2 256).slot Arch.x64).disk.entries ->
        (tableDisk 2 2 256).Decodes Arch.x64 entry := by
  constructor
  · decide +kernel
  · intro h
    have hsecond := h { disk := ((tableDisk 2 2 256).slot Arch.x64).disk, index := 1 }
      (mem_entries.mpr ⟨rfl, by decide +kernel⟩)
    have hplace := (decodes_iff.mp hsecond).1
    revert hplace
    decide +kernel

end Gpt
end BootableUefi
