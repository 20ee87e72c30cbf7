import BootableUefi.BootImage.Encoding
import BootableUefi.Fastboot.Host
import BootableUefi.Gpt.Format

/-!
# From the host to the kernel

The labels a host flashes to are looked up in the cache of the formatted disks.
Each image ends up in the partition of the table that has its label, and a boot
image among them is the one a later start of its partition runs.
-/

namespace BootableUefi
namespace Fastboot

open Firmware Foundation Flash
open BootImage (AndroidImage PartitionEnv BootimgHooks LoadEnd LoadState startPartition)
open Gpt (DiskCache DiskFirmware BlockDevice PartitionTable Label Formatted usedPartitions
  firstNamed nameWidth)

/-- What `flash.c` reads of an interface: the extent, and the media of the disk. -/
def located (blockIo : Nat -> BlockIo) (gpart : Gpt.GptPartitionInterface) :
    GptPartition × BlockIo :=
  ({ startingLba := UInt64.ofNat gpart.part.startingLba
     endingLba := UInt64.ofNat gpart.part.endingLba }, blockIo gpart.bio)

/-- The lookups of `flash.c` are calls of `gpt_get_partition_by_label`. -/
def LooksUpIn (disk : FlashEnv) (cache : DiskCache) (fw : DiskFirmware)
    (blockIo : Nat -> BlockIo) : Prop :=
  forall label : Label, disk.partitionByLabel label.units =
    (cache.gptGetPartitionByLabel fw label).1.map (located blockIo)

/-- The label is the one of a partition, which has room for the image. -/
structure Job.Named (job : Job) (partitions : List Gpt.GptPartitionInterface)
    (blockIo : Nat -> BlockIo) (arch : Arch) : Prop where
  label : exists (label : Label) (gpart : Gpt.GptPartitionInterface),
    straToStr job.label = some label.units ∧ label.units ≠ [] ∧
      label.units.length < nameWidth ∧ firstNamed label partitions = some gpart ∧
      (job.part, job.bio) = located blockIo gpart
  room : GptPartitionInterface.HasRoom { part := job.part, bio := some job.bio }
  fits : job.part.startingLba.toNat * job.bio.blockSize.toNat + totalLength job.image.pieces ≤
    (job.part.endingLba.toNat + 1) * job.bio.blockSize.toNat
  size : job.image.bytes.length ≤ maxDownloadSize
  plain : Job.Plain arch job.image

theorem straToStr_eq_some {src : List UInt8} {dst : List UInt16} (h : straToStr src = some dst) :
    dst = src.map fun c => c.toUInt16 := by
  unfold straToStr at h
  split at h
  · exact (Option.some.inj h).symm
  · cases h

theorem Job.Named.fits_of_lookup {job : Job} {arch : Arch} {devices : List BlockDevice}
    {tables : List (Option PartitionTable)} {blockIo : Nat -> BlockIo} {disk : FlashEnv}
    (h : job.Named (usedPartitions devices tables) blockIo disk.arch)
    (hformat : Formatted arch devices tables) {cache : DiskCache} {fw : DiskFirmware}
    (hholds : (cache.ensure fw).2.Holds arch devices)
    (hready : efiError (cache.ensure fw).1 = false) (hlooks : LooksUpIn disk cache fw blockIo) :
    job.Fits disk := by
  rcases h.label with ⟨label, gpart, hwide, hpos, hshort, hfound, hlocated⟩
  have hunits := straToStr_eq_some hwide
  have hlookup := hlooks label
  rw [DiskCache.lookup_formatted hformat hholds hready hpos hshort, hfound] at hlookup
  have hpartition : disk.partitionByLabel label.units = Except.ok (job.part, job.bio) := by
    rw [hlocated]
    exact hlookup
  exact {
    label := ⟨label.units, hwide, hpartition, h.room, h.fits⟩
    terminated := by
      intro hzero
      have hmem : (0 : UInt8).toUInt16 ∈ label.units := by
        rw [hunits]
        exact List.mem_map_of_mem hzero
      exact label.nonzero _ hmem rfl
    command := by
      have hlength : job.label.length < 36 := by
        rw [hunits, List.length_map] at hshort
        exact hshort
      have hname : Command.flash.name.length = 6 := by decide
      rw [List.length_append, hname]
      omega
    size := h.size
    plain := h.plain }

section Raw

variable {job : Job} {bytes : List UInt8} (himage : job.image = HostImage.raw bytes)

include himage

theorem pieces_of_raw :
    job.region.pieces = [{ length := bytes.length, content := some (memOf bytes) }] := by
  unfold Job.region
  rw [himage]
  rfl

theorem totalLength_of_raw : totalLength job.region.pieces = bytes.length := by
  rw [pieces_of_raw himage]
  exact Nat.add_zero _

theorem shows_of_laidOut {rs : List Region} {before device : Mem}
    (hlaid : LaidOut rs before device) (hmem : job.region ∈ rs) :
    Shows (fun i => device (job.region.start + i)) 0 bytes := by
  intro i hi
  have hheld := hlaid.inside _ hmem 0 { length := bytes.length, content := some (memOf bytes) } i
    (by rw [pieces_of_raw himage]; rfl) hi
  rw [← shows_memOf bytes i hi, Nat.zero_add]
  exact hheld

theorem eq_memOf_of_laidOut {device : Mem} (hlaid : LaidOut [job.region] (fun _ => 0) device) :
    (fun i => device (job.region.start + i)) = memOf bytes := by
  have hshows := shows_of_laidOut himage hlaid (List.mem_singleton.mpr rfl)
  funext i
  rcases Nat.lt_or_ge i bytes.length with hlt | hge
  · have hbyte := hshows.eq_memOf hlt
    rwa [Nat.zero_add] at hbyte
  · rw [hlaid.outside]
    · simp [memOf, List.getD_eq_getElem?_getD, List.getElem?_eq_none hge]
    · intro r hmem hcovers
      rw [List.mem_singleton.mp hmem] at hcovers
      have hhigh := hcovers.2
      rw [totalLength_of_raw himage] at hhigh
      omega

end Raw

theorem all_nonzero {units : List UInt16} :
    (units.all fun c => c != 0) = true <-> forall c, c ∈ units -> c ≠ 0 := by
  simp

/-- The cache of the formatted disks is filled at the first lookup. -/
def formattedEnv : FlashEnv :=
  { grantingEnv ⟨0, 0⟩ ⟨0, 512⟩ with
    partitionByLabel := fun units =>
      if h : (units.all fun c => c != 0) = true then
        (DiskCache.empty.gptGetPartitionByLabel Gpt.formattedFirmware
          ⟨units, all_nonzero.mp h⟩).1.map (located fun _ => ⟨0, 512⟩)
      else
        Except.error EfiStatus.notFound }

def bootJob : Job where
  label := ascii "boot"
  image := HostImage.raw BootImage.quietImage.encode
  part := ⟨40, 63⟩
  bio := ⟨0, 512⟩

theorem bootJob_image : bootJob.image = HostImage.raw BootImage.quietImage.encode :=
  rfl

theorem bootJob_named :
    bootJob.Named (usedPartitions Gpt.formattedFirmware.devices [some Gpt.smallTable, none])
      (fun _ => ⟨0, 512⟩) formattedEnv.arch := by
  have hlength : BootImage.quietImage.encode.length = 6144 := by
    rw [AndroidImage.length_encode]
    decide +kernel
  have htotal : totalLength bootJob.image.pieces = 6144 :=
    (totalLength_of_raw bootJob_image).trans hlength
  have hsize : bootJob.image.bytes.length = 6144 := hlength
  refine ⟨⟨Gpt.bootLabel, { part := Gpt.bootPartition, bio := 1, dio := 2 }, rfl, by decide,
    by decide, ?_, rfl⟩, by decide, ?_, ?_, ?_⟩
  · decide
  · rw [htotal]
    decide
  · rw [hsize]
    decide
  · show isSparseImage _ = false
    decide +kernel

def formattedTurn : Turn where
  answers := Answers.plain
  disk := formattedEnv
  pool := fun _ => 0

end Fastboot
end BootableUefi
