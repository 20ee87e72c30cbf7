import BootableUefi.BootImage.Header
import BootableUefi.Foundation.Runs
import BootableUefi.Gpt.Partitions

/-!
# How the cache is filled

`gpt.c` keeps its cache in three globals: a block of disk slots, `ndisk` and
`npart`.  Every block device is tried in the slot after the disks found so far,
which is filled step by step and used again for the next device when a step
fails.  `UINTN` is 32 or 64 bits wide, and so are the counters.
-/

namespace BootableUefi
namespace Gpt

open Firmware Foundation
open BootImage (bytesAt)

structure GptHeader where
  signature : List UInt8
  entriesLba : UInt64
  numberOfEntries : UInt32
  sizeOfEntry : UInt32

def headerAt (contents : Mem) (offset : Nat) : GptHeader where
  signature := bytesAt contents offset 8
  entriesLba := UInt64.ofNat (le64 contents (offset + 72))
  numberOfEntries := UInt32.ofNat (le32 contents (offset + 80))
  sizeOfEntry := UInt32.ofNat (le32 contents (offset + 84))

/--
One handle with a block device: what the firmware answers, and the bytes of the
disk.  A failed read of the header leaves `brokenHeader`, and `partitionsPool`
is memory from the start of the block for the entries on, or NULL.
-/
structure BlockDevice where
  blockIo : EfiStatus
  bio : Nat
  logicalPartition : Bool
  blockSize : UInt32
  diskIo : EfiStatus
  dio : Nat
  readHeader : EfiStatus
  brokenHeader : GptHeader
  partitionsPool : Option Mem
  readPartitions : EfiStatus
  contents : Mem

/-- `struct gpt_disk`, whatever is in it; `partitions` is memory from that address on. -/
structure DiskSlot where
  bio : Nat
  dio : Nat
  gptHd : GptHeader
  partitions : Option Mem

def DiskSlot.disk (slot : DiskSlot) : GptDisk where
  bio := slot.bio
  dio := slot.dio
  numberOfEntries := slot.gptHd.numberOfEntries
  partitions := slot.partitions.getD fun _ => 0

/-!
# One device
-/

namespace GptHeader

variable (arch : Arch) (hd : GptHeader)

def arrayOffset (blockSize : UInt32) : Nat :=
  arch.uintn (u64 (blockSize.toNat * hd.entriesLba.toNat))

/-- `size` in `read_gpt_partitions`: a product of two `UINT32`. -/
def arraySize : Nat :=
  u32 (hd.numberOfEntries.toNat * hd.sizeOfEntry.toNat)

end GptHeader

def readGptHeader (device : BlockDevice) (slot : DiskSlot) : EfiStatus × DiskSlot :=
  (device.readHeader,
    { slot with
      gptHd := if efiError device.readHeader then device.brokenHeader
        else headerAt device.contents device.blockSize.toNat })

def isGptDevice (gpt : GptHeader) : Bool :=
  gpt.signature = gptSignature

/-- The block once the entry array has been read into it. -/
def entryArray (arch : Arch) (device : BlockDevice) (hd : GptHeader) (pool : Mem) : Mem :=
  ByteWrite.apply
    { offset := 0
      size := hd.arraySize
      data := fun i => device.contents (hd.arrayOffset arch device.blockSize + i) } pool

/-- `read_gpt_partitions`; after a failed read the slot keeps the address of a freed block. -/
def DiskSlot.readGptPartitions (arch : Arch) (device : BlockDevice) (slot : DiskSlot) :
    EfiStatus × DiskSlot :=
  match device.partitionsPool with
  | none => (EfiStatus.outOfResources, { slot with partitions := none })
  | some pool =>
      if efiError device.readPartitions then
        (device.readPartitions, { slot with partitions := some pool })
      else
        (device.readPartitions,
          { slot with partitions := some (entryArray arch device slot.gptHd pool) })

def DiskSlot.gptListPartitionOnDisk (arch : Arch) (device : BlockDevice) (slot : DiskSlot) :
    EfiStatus × DiskSlot :=
  let slot := { slot with bio := device.bio }
  if efiError device.blockIo then (device.blockIo, slot)
  else if device.logicalPartition then (EfiStatus.notFound, slot)
  else
    let slot := { slot with dio := device.dio }
    if efiError device.diskIo then (device.diskIo, slot)
    else
      let (status, slot) := readGptHeader device slot
      if efiError status then (status, slot)
      else if !isGptDevice slot.gptHd then (EfiStatus.notFound, slot)
      else slot.readGptPartitions arch device

/-!
# The globals
-/

/-- `disks`, `ndisk` and `npart`; the block is memory from `disks` on, or NULL. -/
structure DiskCache where
  disks : Option (Nat -> DiskSlot)
  ndisk : Nat
  npart : Nat

structure DiskFirmware where
  arch : Arch
  locateSize : EfiStatus
  handlesPool : Bool
  locateHandles : EfiStatus
  devices : List BlockDevice
  /-- Memory from the start of the block for the slots on, or NULL. -/
  disksPool : Option (Nat -> DiskSlot)
  /-- There is no room for a handle in a buffer of size 0. -/
  locateSize_ne : locateSize ≠ EfiStatus.success
  /-- `buf_size` is a `UINTN`. -/
  devices_lt : devices.length * arch.sizeofUintn < 2 ^ arch.uintnBits

namespace DiskCache

def empty : DiskCache where
  disks := none
  ndisk := 0
  npart := 0

/-- The loop of `gpt_cache_partition`, in the block that has been allocated. -/
def cacheDevices (arch : Arch) : List BlockDevice -> (Nat -> DiskSlot) -> Nat -> Nat -> DiskCache
  | [], slots, ndisk, npart => { disks := some slots, ndisk := ndisk, npart := npart }
  | device :: devices, slots, ndisk, npart =>
      let (status, slot) := (slots ndisk).gptListPartitionOnDisk arch device
      let slots := Function.update slots ndisk slot
      if efiError status then
        cacheDevices arch devices slots ndisk npart
      else
        cacheDevices arch devices slots (arch.uintn (ndisk + 1))
          (arch.uintn (npart + (slots ndisk).gptHd.numberOfEntries.toNat))

def gptCachePartition (fw : DiskFirmware) (cache : DiskCache) : EfiStatus × DiskCache :=
  if fw.locateSize ≠ EfiStatus.bufferTooSmall then (fw.locateSize, cache)
  else if !fw.handlesPool then (EfiStatus.outOfResources, cache)
  else if efiError fw.locateHandles then (fw.locateHandles, cache)
  else if fw.devices = [] then (EfiStatus.notFound, cache)
  else
    match fw.disksPool with
    | none => (EfiStatus.outOfResources, { cache with disks := none })
    | some slots =>
        (EfiStatus.success, cacheDevices fw.arch fw.devices slots cache.ndisk cache.npart)

def gptFreeCache (cache : DiskCache) : DiskCache :=
  match cache.disks with
  | none => cache
  | some _ => empty

/-- `if (!disks)`: the cache is filled when it is first needed. -/
def ensure (fw : DiskFirmware) (cache : DiskCache) : EfiStatus × DiskCache :=
  match cache.disks with
  | none => cache.gptCachePartition fw
  | some _ => (EfiStatus.success, cache)

/-- The disks both functions go through, `disks[0]` to `disks[ndisk - 1]`. -/
def cached (cache : DiskCache) : List GptDisk :=
  match cache.disks with
  | none => []
  | some slots => (List.range cache.ndisk).map fun i => (slots i).disk

/-- The inner loop of `gpt_list_partition`, which writes `(*gpartlist)[*part_count]`. -/
def listDisk (list : List GptPartitionInterface) (disk : GptDisk) : List GptPartitionInterface :=
  disk.entries.foldl
    (fun list entry => if entry.isListed then list ++ [entry.interface] else list) list

def gptListPartition (fw : DiskFirmware) (listPool : Bool) (cache : DiskCache) :
    Except EfiStatus (List GptPartitionInterface) × DiskCache :=
  let (status, cache) := cache.ensure fw
  if efiError status then (Except.error status, cache)
  else if !listPool then (Except.error EfiStatus.outOfResources, cache)
  else (Except.ok (cache.cached.foldl listDisk []), cache)

def gptGetPartitionByLabel (fw : DiskFirmware) (label : Label) (cache : DiskCache) :
    Except EfiStatus GptPartitionInterface × DiskCache :=
  let (status, cache) := cache.ensure fw
  if efiError status then (Except.error status, cache)
  else
    match findLabel label cache.cached with
    | some gpart => (Except.ok gpart, cache)
    | none => (Except.error EfiStatus.notFound, cache)

end DiskCache

end Gpt
end BootableUefi
