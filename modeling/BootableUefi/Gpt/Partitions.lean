import BootableUefi.Firmware.Status
import BootableUefi.Foundation.Bytes
import BootableUefi.Foundation.Strings

/-!
# The cached partition tables

`gpt.c`: the disks with a partition table are cached once, and partitions are
then looked up by label or listed.  The entries of a table are taken to be 128
bytes apart, as the C type says, in the memory the table was read into.
-/

namespace BootableUefi
namespace Gpt

open Firmware Foundation

structure EfiGuid where
  low : Nat
  high : Nat
  deriving DecidableEq, Repr

def nullGuid : EfiGuid where
  low := 0
  high := 0

/-- `struct gpt_partition`; the name has room for 36 units. -/
structure GptPartition where
  type : EfiGuid
  unique : EfiGuid
  startingLba : Nat
  endingLba : Nat
  attrs : Nat
  name : List UInt16
  deriving DecidableEq, Repr

/-- `struct gpt_partition_interface`, with the protocols by their addresses. -/
structure GptPartitionInterface where
  part : GptPartition
  bio : Nat
  dio : Nat
  deriving DecidableEq, Repr

/-- `struct gpt_disk`, with memory from `partitions` on. -/
structure GptDisk where
  bio : Nat
  dio : Nat
  numberOfEntries : UInt32
  partitions : Mem

/-- The pointer `&disks[i].partitions[p]`. -/
structure GptEntry where
  disk : GptDisk
  index : Nat

def guidAt (mem : Mem) (offset : Nat) : EfiGuid where
  low := le64 mem offset
  high := le64 mem (offset + 8)

def wideAt (mem : Mem) (offset i : Nat) : UInt16 :=
  UInt16.ofNat (le16 mem (offset + 2 * i))

def nameWidth : Nat :=
  36

namespace GptEntry

variable (entry : GptEntry)

def offset : Nat :=
  128 * entry.index

def type : EfiGuid :=
  guidAt entry.disk.partitions entry.offset

/-- The units from the start of the name on; nothing stops a reader at its end. -/
def name : Nat -> UInt16 :=
  wideAt entry.disk.partitions (entry.offset + 56)

/-- `CopyMem` of `sizeof(*part)` bytes. -/
def part : GptPartition where
  type := entry.type
  unique := guidAt entry.disk.partitions (entry.offset + 16)
  startingLba := le64 entry.disk.partitions (entry.offset + 32)
  endingLba := le64 entry.disk.partitions (entry.offset + 40)
  attrs := le64 entry.disk.partitions (entry.offset + 48)
  name := field entry.name nameWidth

def interface : GptPartitionInterface where
  part := entry.part
  bio := entry.disk.bio
  dio := entry.disk.dio

end GptEntry

def GptDisk.entries (disk : GptDisk) : List GptEntry :=
  (List.range disk.numberOfEntries.toNat).map fun p => { disk := disk, index := p }

/-!
# The cache
-/

structure HandleAnswer where
  blockIo : EfiStatus
  logicalPartition : Bool
  diskIo : EfiStatus
  readHeader : EfiStatus
  signature : List UInt8
  partitionsPool : Bool
  readPartitions : EfiStatus
  disk : GptDisk

structure GptFirmware where
  /-- The `LocateHandle` that asks for the size, and the one that gets the handles. -/
  locateSize : EfiStatus
  handlesPool : Bool
  locateHandles : EfiStatus
  handles : List HandleAnswer
  disksPool : Bool
  listPool : Bool

def gptSignature : List UInt8 :=
  ascii "EFI PART"

def readGptPartitions (answer : HandleAnswer) : Except EfiStatus GptDisk :=
  if !answer.partitionsPool then Except.error EfiStatus.outOfResources
  else if efiError answer.readPartitions then Except.error answer.readPartitions
  else Except.ok answer.disk

def gptListPartitionOnDisk (answer : HandleAnswer) : Except EfiStatus GptDisk :=
  if efiError answer.blockIo then Except.error answer.blockIo
  else if answer.logicalPartition then Except.error EfiStatus.notFound
  else if efiError answer.diskIo then Except.error answer.diskIo
  else if efiError answer.readHeader then Except.error answer.readHeader
  else if answer.signature ≠ gptSignature then Except.error EfiStatus.notFound
  else readGptPartitions answer

def gptCachePartition (fw : GptFirmware) : Except EfiStatus (List GptDisk) :=
  if fw.locateSize ≠ EfiStatus.bufferTooSmall then Except.error fw.locateSize
  else if !fw.handlesPool then Except.error EfiStatus.outOfResources
  else if efiError fw.locateHandles then Except.error fw.locateHandles
  else if fw.handles = [] then Except.error EfiStatus.notFound
  else if !fw.disksPool then Except.error EfiStatus.outOfResources
  else Except.ok (fw.handles.filterMap fun answer => (gptListPartitionOnDisk answer).toOption)

/-- `if (!disks)`: the cache is filled when it is first needed. -/
def cachedDisks (fw : GptFirmware) : Option (List GptDisk) -> Except EfiStatus (List GptDisk)
  | some disks => Except.ok disks
  | none => gptCachePartition fw

/-!
# Looking up and listing
-/

/-- A `CHAR16` string; its terminator is not one of the units. -/
structure Label where
  units : List UInt16
  nonzero : forall c, c ∈ units -> c ≠ 0

/-- `StrCmp`: the difference of the first units that differ, or of the last ones. -/
def strCmp : List UInt16 -> (Nat -> UInt16) -> Int
  | [], s2 => -(s2 0).toNat
  | c :: cs, s2 =>
      if c ≠ s2 0 then c.toNat - (s2 0).toNat else strCmp cs fun i => s2 (i + 1)

/-- `gpt_get_partition_by_label` passes over the other entries. -/
def GptEntry.hasLabel (label : Label) (entry : GptEntry) : Bool :=
  !(entry.type = nullGuid || strCmp label.units entry.name ≠ 0)

/-- `gpt_list_partition` passes over the other entries. -/
def GptEntry.isListed (entry : GptEntry) : Bool :=
  !(entry.type = nullGuid || entry.name 0 = 0)

def findLabel (label : Label) (disks : List GptDisk) : Option GptPartitionInterface :=
  disks.findSome? fun disk =>
    (disk.entries.find? fun entry => entry.hasLabel label).map GptEntry.interface

def gptGetPartitionByLabel (fw : GptFirmware) (disks : Option (List GptDisk)) (label : Label) :
    Except EfiStatus GptPartitionInterface × Option (List GptDisk) :=
  match cachedDisks fw disks with
  | Except.error status => (Except.error status, disks)
  | Except.ok cached =>
      match findLabel label cached with
      | some gpart => (Except.ok gpart, some cached)
      | none => (Except.error EfiStatus.notFound, some cached)

def listEntries (disks : List GptDisk) : List GptPartitionInterface :=
  disks.flatMap fun disk =>
    (disk.entries.filter fun entry => entry.isListed).map GptEntry.interface

def gptListPartition (fw : GptFirmware) (disks : Option (List GptDisk)) :
    Except EfiStatus (List GptPartitionInterface) × Option (List GptDisk) :=
  match cachedDisks fw disks with
  | Except.error status => (Except.error status, disks)
  | Except.ok cached =>
      if !fw.listPool then (Except.error EfiStatus.outOfResources, some cached)
      else (Except.ok (listEntries cached), some cached)

/-- `npart`, which the block for the list is allocated for. -/
def npart (disks : List GptDisk) : Nat :=
  (disks.map fun disk => disk.numberOfEntries.toNat).sum

theorem length_listEntries_le (disks : List GptDisk) :
    (listEntries disks).length ≤ npart disks := by
  induction disks with
  | nil => exact Nat.le_refl 0
  | cons disk disks ih =>
      have hfirst : (disk.entries.filter fun entry => entry.isListed).length ≤
          disk.numberOfEntries.toNat := by
        have hle := List.length_filter_le (fun entry : GptEntry => entry.isListed) disk.entries
        simpa [GptDisk.entries] using hle
      simp only [listEntries, List.flatMap_cons, List.length_append, List.length_map, npart,
        List.map_cons, List.sum_cons]
      exact Nat.add_le_add hfirst ih

end Gpt
end BootableUefi
