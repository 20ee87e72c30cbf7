import BootableUefi.Foundation.Layout
import BootableUefi.Gpt.EntryArray
import BootableUefi.Gpt.Labels

/-!
# Formatted disks

A table is on a disk as its header and the array of its entries.  Whatever calls
are made while the disks stay formatted as they are, the partitions that are
listed and found are the ones that have been written.
-/

namespace BootableUefi
namespace Gpt

open Firmware Foundation
open BootImage (bytesAt)

/-!
# The format
-/

def EfiGuid.encode (guid : EfiGuid) : List UInt8 :=
  leBytes 8 guid.low ++ leBytes 8 guid.high

def EfiGuid.Fits (guid : EfiGuid) : Prop :=
  guid.low < 2 ^ 64 ∧ guid.high < 2 ^ 64

instance (guid : EfiGuid) : Decidable guid.Fits :=
  inferInstanceAs (Decidable (_ ∧ _))

namespace GptPartition

/-- The values fit the fields of an entry; what the name leaves of its field is zero. -/
structure Fits (part : GptPartition) : Prop where
  type : part.type.Fits
  unique : part.unique.Fits
  startingLba : part.startingLba < 2 ^ 64
  endingLba : part.endingLba < 2 ^ 64
  attrs : part.attrs < 2 ^ 64
  name : part.name.length = nameWidth

def encode (part : GptPartition) : List UInt8 :=
  part.type.encode ++ part.unique.encode ++ leBytes 8 part.startingLba ++
    leBytes 8 part.endingLba ++ leBytes 8 part.attrs ++
      part.name.flatMap fun c => leBytes 2 c.toNat

def isUsed (part : GptPartition) : Bool :=
  part.type ≠ nullGuid ∧ part.label ≠ []

theorem length_encode {part : GptPartition} (h : part.Fits) :
    part.encode.length = sizeofGptPartition := by
  have hname : (part.name.flatMap fun c => leBytes 2 c.toNat).length = 72 := by
    rw [length_flatMap_of_width fun _ _ => length_leBytes 2 _, h.name]
    rfl
  simp only [encode, EfiGuid.encode, List.length_append, length_leBytes, hname, sizeofGptPartition]

end GptPartition

structure PartitionTable where
  entriesLba : Nat
  partitions : List GptPartition
  entriesLba_lt : entriesLba < 2 ^ 64
  fits : forall part, part ∈ partitions -> part.Fits
  size_lt : partitions.length * sizeofGptPartition < 2 ^ 32

namespace PartitionTable

/-- `struct gpt_header`, with any values for the fields that are not looked at. -/
def header (table : PartitionTable) (others : List UInt8) : List UInt8 :=
  gptSignature ++ others ++ leBytes 8 table.entriesLba ++ leBytes 4 table.partitions.length ++
    leBytes 4 sizeofGptPartition

def array (table : PartitionTable) : List UInt8 :=
  table.partitions.flatMap GptPartition.encode

theorem length_array (table : PartitionTable) :
    table.array.length = table.partitions.length * sizeofGptPartition :=
  length_flatMap_of_width fun part hpart => GptPartition.length_encode (table.fits part hpart)

end PartitionTable

/-- The disk has the table, and everything that is asked of the firmware for it succeeds. -/
structure BlockDevice.HasTable (arch : Arch) (device : BlockDevice) (table : PartitionTable) :
    Prop where
  protocols : device.blockIo = EfiStatus.success ∧ device.diskIo = EfiStatus.success
  wholeDisk : device.logicalPartition = false
  reads : device.readHeader = EfiStatus.success ∧ device.readPartitions = EfiStatus.success
  pool : device.partitionsPool.isSome = true
  header : exists others : List UInt8, others.length = 64 ∧
    Shows device.contents device.blockSize.toNat (table.header others)
  start_lt : device.blockSize.toNat * table.entriesLba < 2 ^ arch.uintnBits
  array : Shows device.contents (device.blockSize.toNat * table.entriesLba) table.array

/-!
# One disk
-/

section OneDisk

variable {arch : Arch} {device : BlockDevice} {table : PartitionTable}

theorem header_of_hasTable (h : device.HasTable arch table) :
    device.header.signature = gptSignature ∧
      device.header.entriesLba.toNat = table.entriesLba ∧
      device.header.numberOfEntries.toNat = table.partitions.length ∧
      device.header.sizeOfEntry.toNat = sizeofGptPartition := by
  rcases h.header with ⟨others, hothers, hshows⟩
  have hcount : table.partitions.length < 2 ^ 32 := by
    have hsize := table.size_lt
    unfold sizeofGptPartition at hsize
    omega
  have hlength : gptSignature.length = 8 := by decide
  unfold PartitionTable.header at hshows
  simp only [shows_append, List.length_append, length_leBytes, hothers, hlength] at hshows
  rcases hshows with ⟨⟨⟨⟨hsignature, -⟩, hlba⟩, hentries⟩, hsize⟩
  unfold BlockDevice.header headerAt
  dsimp only
  refine ⟨?_, ?_, ?_, ?_⟩
  · apply List.ext_getElem (by simp [bytesAt, hlength])
    intro i _ hi
    rw [← hsignature i hi]
    simp [bytesAt]
  · rw [hlba.le64 table.entriesLba_lt, UInt64.toNat_ofNat', Nat.mod_eq_of_lt table.entriesLba_lt]
  · rw [hentries.le32 hcount, UInt32.toNat_ofNat', Nat.mod_eq_of_lt hcount]
  · rw [hsize.le32 (by decide), UInt32.toNat_ofNat']
    decide

theorem passes_of_hasTable (h : device.HasTable arch table) : device.Passes := by
  have hgpt : isGptDevice device.header = true := by
    simp [isGptDevice, (header_of_hasTable h).1]
  exact ⟨h.protocols.1, h.wholeDisk, h.protocols.2, h.reads.1, hgpt, h.pool, h.reads.2⟩

theorem shows_partitions (h : device.HasTable arch table) :
    Shows (device.slot arch).disk.partitions 0 table.array := by
  rcases header_of_hasTable h with ⟨-, hlba, hcount, hsize⟩
  rcases Option.isSome_iff_exists.mp h.pool with ⟨pool, hpool⟩
  have hdisk : (device.slot arch).disk.partitions = entryArray arch device device.header pool := by
    simp [BlockDevice.slot, DiskSlot.disk, hpool]
  have harray : device.header.arraySize = table.array.length := by
    rw [GptHeader.arraySize, hcount, hsize, u32_of_lt table.size_lt, table.length_array]
  have hstart : device.header.arrayOffset arch device.blockSize =
      device.blockSize.toNat * table.entriesLba := by
    have hplace : device.arrayStart = device.blockSize.toNat * table.entriesLba := by
      rw [BlockDevice.arrayStart, hlba]
    rw [← hplace]
    apply arrayOffset_eq_iff.mpr
    rw [hplace]
    exact h.start_lt
  intro i hi
  rw [hdisk, Nat.zero_add, ← h.array i hi, ← hstart]
  unfold entryArray ByteWrite.apply
  rw [if_pos ⟨Nat.zero_le i, by rwa [Nat.zero_add, harray]⟩, Nat.sub_zero]

theorem guidAt_of_shows {mem : Mem} {offset : Nat} {guid : EfiGuid} (hfits : guid.Fits)
    (h : Shows mem offset guid.encode) : guidAt mem offset = guid := by
  unfold EfiGuid.encode at h
  rw [shows_append, length_leBytes] at h
  rw [guidAt, h.1.le64 hfits.1, h.2.le64 hfits.2]

theorem name_of_shows {mem : Mem} {offset : Nat} {name : List UInt16}
    (h : Shows mem offset (name.flatMap fun c => leBytes 2 c.toNat)) :
    field (wideAt mem offset) name.length = name := by
  apply field_eq
  intro i hi
  have hunit := shows_flatMap (fun _ _ => length_leBytes 2 _) h hi
  rw [wideAt, Nat.mul_comm, hunit.le16 (UInt16.toNat_lt _), UInt16.ofNat_toNat]

theorem part_of_shows {entry : GptEntry} {part : GptPartition} (hfits : part.Fits)
    (h : Shows entry.disk.partitions entry.offset part.encode) : entry.part = part := by
  unfold GptPartition.encode at h
  have hguid : forall guid : EfiGuid, guid.encode.length = 16 := by
    intro guid
    simp [EfiGuid.encode]
  simp only [shows_append, List.length_append, length_leBytes, hguid] at h
  rcases h with ⟨⟨⟨⟨⟨htype, hunique⟩, hstart⟩, hend⟩, hattrs⟩, hname⟩
  have hunits := name_of_shows hname
  rw [hfits.name] at hunits
  cases part
  unfold GptEntry.part
  congr
  · exact guidAt_of_shows hfits.type htype
  · exact guidAt_of_shows hfits.unique hunique
  · exact hstart.le64 hfits.startingLba
  · exact hend.le64 hfits.endingLba
  · exact hattrs.le64 hfits.attrs

/-- The entries of a formatted disk are the partitions of its table. -/
theorem entries_of_hasTable (h : device.HasTable arch table) :
    (device.slot arch).disk.entries.map GptEntry.interface =
      table.partitions.map fun part => { part := part, bio := device.bio, dio := device.dio } := by
  have hcount : (device.slot arch).disk.numberOfEntries.toNat = table.partitions.length :=
    (header_of_hasTable h).2.2.1
  unfold GptDisk.entries
  rw [hcount]
  apply List.ext_getElem (by simp)
  intro k hk _
  have hin : k < table.partitions.length := by simpa using hk
  have hencode : forall part, part ∈ table.partitions -> part.encode.length = sizeofGptPartition :=
    fun part hpart => GptPartition.length_encode (table.fits part hpart)
  have hentry := shows_flatMap hencode (shows_partitions h) hin
  rw [Nat.zero_add, Nat.mul_comm] at hentry
  have hpart : GptEntry.part { disk := (device.slot arch).disk, index := k } =
      table.partitions[k] :=
    part_of_shows (table.fits _ (List.getElem_mem hin)) hentry
  simp only [List.getElem_map, List.getElem_range, GptEntry.interface, hpart]
  rfl

end OneDisk

/-!
# All disks
-/

/-- A device has a table, or it is passed over. -/
inductive BlockDevice.HasFormat (arch : Arch) (device : BlockDevice) :
    Option PartitionTable -> Prop where
  | table {table : PartitionTable} : device.HasTable arch table ->
      BlockDevice.HasFormat arch device (some table)
  | other : ¬ device.Passes -> BlockDevice.HasFormat arch device none

abbrev Formatted (arch : Arch) (devices : List BlockDevice)
    (tables : List (Option PartitionTable)) : Prop :=
  List.Forall₂ (BlockDevice.HasFormat arch) devices tables

def onDisk (device : BlockDevice) (table : Option PartitionTable) : List GptPartitionInterface :=
  (table.elim [] PartitionTable.partitions).map fun part =>
    { part := part, bio := device.bio, dio := device.dio }

/-- The partitions of all tables, each with its disk. -/
def written (devices : List BlockDevice) (tables : List (Option PartitionTable)) :
    List GptPartitionInterface :=
  (List.zipWith onDisk devices tables).flatten

/-- The ones that are listed. -/
def usedPartitions (devices : List BlockDevice) (tables : List (Option PartitionTable)) :
    List GptPartitionInterface :=
  (written devices tables).filter fun gpart => gpart.part.isUsed

theorem entriesOf_formatted {arch : Arch} {devices : List BlockDevice}
    {tables : List (Option PartitionTable)} (h : Formatted arch devices tables) :
    (entriesOf ((passing devices).map fun device => (device.slot arch).disk)).map
      GptEntry.interface = written devices tables := by
  induction h with
  | nil => rfl
  | cons hfirst _ ih =>
      cases hfirst with
      | table htable =>
          simp only [passing, List.filter_cons, passes_of_hasTable htable, decide_true, if_true,
            List.map_cons, entriesOf, List.flatMap_cons, List.map_append]
          rw [entries_of_hasTable htable]
          exact congrArg _ ih
      | other hpass =>
          simp only [passing, List.filter_cons, hpass, decide_false, Bool.false_eq_true, if_false]
          exact ih

theorem isListed_eq_isUsed (entry : GptEntry) :
    entry.isListed = entry.interface.part.isUsed := by
  have hempty := label_eq_nil_iff entry
  have hpart : entry.interface.part.label = entry.part.label := rfl
  have htype : entry.interface.part.type = entry.type := rfl
  rw [Bool.eq_iff_iff]
  simp [GptEntry.isListed, GptPartition.isUsed, hpart, htype, hempty]

theorem listEntries_formatted {arch : Arch} {devices : List BlockDevice}
    {tables : List (Option PartitionTable)} (h : Formatted arch devices tables) :
    listEntries ((passing devices).map fun device => (device.slot arch).disk) =
      usedPartitions devices tables := by
  rw [usedPartitions, ← entriesOf_formatted h, List.filter_map]
  simp only [listEntries, entriesOf, List.filter_flatMap, List.map_flatMap, Function.comp_def,
    isListed_eq_isUsed]

/-!
# Runs
-/

/-- The call is answered by a firmware with these disks, or asks it nothing. -/
def DiskCache.CacheCall.On (arch : Arch) (devices : List BlockDevice) :
    DiskCache.CacheCall -> Prop
  | DiskCache.CacheCall.list fw _ => fw.arch = arch ∧ fw.devices = devices
  | DiskCache.CacheCall.lookup fw _ => fw.arch = arch ∧ fw.devices = devices
  | DiskCache.CacheCall.free => True

namespace DiskCache

variable {arch : Arch} {devices : List BlockDevice}

/-- The cache is empty, or made of these disks. -/
def CacheOf (arch : Arch) (devices : List BlockDevice) (cache : DiskCache) : Prop :=
  cache = empty ∨ cache.Holds arch devices

theorem ensure_cacheOf {fw : DiskFirmware} (hfw : fw.arch = arch ∧ fw.devices = devices)
    {cache : DiskCache} (h : cache.CacheOf arch devices) :
    (cache.ensure fw).2.CacheOf arch devices ∧
      (efiError (cache.ensure fw).1 = false -> (cache.ensure fw).2.Holds arch devices) := by
  rcases hfw with ⟨rfl, rfl⟩
  rcases h with rfl | hholds
  · rcases gptCachePartition_cases fw with ⟨status, heq, hstatus⟩ | ⟨slots, heq⟩
    · have hensure : empty.ensure fw = (status, empty) := heq
      rw [hensure]
      refine ⟨Or.inl rfl, ?_⟩
      intro hok
      rw [efiError_eq_true_iff.mpr hstatus] at hok
      cases hok
    · have hensure : empty.ensure fw =
          (EfiStatus.success, cacheDevices fw.arch fw.devices slots 0 0) := heq
      have hfilled := holds_cacheDevices fw slots
      rw [hensure]
      exact ⟨Or.inr hfilled, fun _ => hfilled⟩
  · rcases Option.isSome_iff_exists.mp hholds.block with ⟨slots, hslots⟩
    have hensure : cache.ensure fw = (EfiStatus.success, cache) := by
      simp [ensure, hslots]
    rw [hensure]
    exact ⟨Or.inr hholds, fun _ => hholds⟩

theorem step_cacheOf {cache after : DiskCache} {call : CacheCall}
    (h : cache.CacheOf arch devices) (hcall : call.On arch devices)
    (hstep : cache.step call = some after) : after.CacheOf arch devices := by
  cases call with
  | list fw listPool =>
      cases hstep
      rw [gptListPartition_snd]
      exact (ensure_cacheOf hcall h).1
  | lookup fw label =>
      cases hstep
      rw [gptGetPartitionByLabel_snd]
      exact (ensure_cacheOf hcall h).1
  | free =>
      cases hstep
      unfold gptFreeCache
      split
      · exact h
      · exact Or.inl rfl

theorem run_cacheOf {calls : List CacheCall} {cache after : DiskCache}
    (h : cache.CacheOf arch devices) (hcalls : forall call, call ∈ calls -> call.On arch devices)
    (hrun : runFrom step cache calls = some after) : after.CacheOf arch devices := by
  have hguard : AllSteps (fun _ call => True ∧ call.On arch devices) step cache calls :=
    (allSteps_of_forall (fun _ _ => trivial) cache calls).and_of_forall_mem hcalls
  apply invariant_of_allSteps _ h hguard hrun
  intro cache call next hinv hcall hstep
  exact step_cacheOf hinv hcall.2 hstep

end DiskCache

theorem DiskCache.lookup_formatted {arch : Arch} {devices : List BlockDevice}
    {tables : List (Option PartitionTable)} (hformat : Formatted arch devices tables)
    {cache : DiskCache} {fw : DiskFirmware} (hholds : (cache.ensure fw).2.Holds arch devices)
    (hready : efiError (cache.ensure fw).1 = false) {label : Label} (hpos : label.units ≠ [])
    (hshort : label.units.length < nameWidth) :
    (cache.gptGetPartitionByLabel fw label).1 =
      (firstNamed label (usedPartitions devices tables)).elim
        (Except.error EfiStatus.notFound) Except.ok := by
  have hlist := listEntries_formatted hformat
  rw [← hholds.cached] at hlist
  have hsame : SameFound label (cache.ensure fw).2.cached := sameFound_of_short hpos hshort _
  have hfound : findLabel label (cache.ensure fw).2.cached =
      firstNamed label (usedPartitions devices tables) := by
    rw [findLabel_eq, ← hlist, firstNamed_listEntries]
    exact hsame
  unfold DiskCache.gptGetPartitionByLabel
  dsimp only
  rw [hready, hfound]
  cases firstNamed label (usedPartitions devices tables) <;> rfl

/--
As long as the disks stay formatted with their tables, after any calls that list,
look up and free, the list is the named partitions in use of all tables, in their
order, and a name that leaves room for its terminator is found as the first of
them that has it, with the blocks and the disk it was written for.
-/
theorem run_finds_written {arch : Arch} {devices : List BlockDevice}
    {tables : List (Option PartitionTable)} (hformat : Formatted arch devices tables)
    {calls : List DiskCache.CacheCall} {cache : DiskCache}
    (hcalls : forall call, call ∈ calls -> call.On arch devices)
    (hrun : runFrom DiskCache.step DiskCache.empty calls = some cache) {fw : DiskFirmware}
    (hfw : fw.arch = arch ∧ fw.devices = devices)
    (hready : efiError (cache.ensure fw).1 = false) :
    (cache.gptListPartition fw true).1 = Except.ok (usedPartitions devices tables) ∧
      forall label : Label, label.units ≠ [] -> label.units.length < nameWidth ->
        (cache.gptGetPartitionByLabel fw label).1 =
          (firstNamed label (usedPartitions devices tables)).elim
            (Except.error EfiStatus.notFound) Except.ok := by
  have hcache : cache.CacheOf arch devices :=
    DiskCache.run_cacheOf (Or.inl rfl) hcalls hrun
  have hholds := (DiskCache.ensure_cacheOf hfw hcache).2 hready
  constructor
  · have hlist := listEntries_formatted hformat
    rw [← hholds.cached] at hlist
    unfold DiskCache.gptListPartition
    dsimp only
    rw [hready]
    simp [DiskCache.foldl_listDisk, hlist]
  · intro label hpos hshort
    exact DiskCache.lookup_formatted hformat hholds hready hpos hshort

def bootLabel : Label where
  units := [0x62, 0x6f, 0x6f, 0x74]
  nonzero := by
    intro c hc
    simp only [List.mem_cons, List.not_mem_nil, or_false] at hc
    rcases hc with rfl | rfl | rfl | rfl <;> decide

/-- A partition of 24 blocks. -/
def bootPartition : GptPartition where
  type := { low := 1, high := 2 }
  unique := { low := 3, high := 4 }
  startingLba := 40
  endingLba := 63
  attrs := 0
  name := bootLabel.units ++ List.replicate 32 0

/-- An entry that is not in use, and one that is. -/
def smallTable : PartitionTable where
  entriesLba := 2
  partitions := [{ bootPartition with type := nullGuid }, bootPartition]
  entriesLba_lt := by decide
  fits := by
    intro part hpart
    simp only [List.mem_cons, List.not_mem_nil, or_false] at hpart
    rcases hpart with rfl | rfl <;> constructor <;> decide
  size_lt := by decide

/-- The table in the second and the third block of a disk. -/
def formattedDisk : BlockDevice :=
  { tableDisk 2 2 128 with
    contents := fun x =>
      if x < 1024 then memOf (smallTable.header (List.replicate 64 0)) (x - 512)
      else memOf smallTable.array (x - 1024) }

theorem formattedDisk_hasTable : formattedDisk.HasTable Arch.ia32 smallTable := by
  have hheader := shows_memOf (smallTable.header (List.replicate 64 0))
  have harray := shows_memOf smallTable.array
  refine ⟨⟨rfl, rfl⟩, rfl, ⟨rfl, rfl⟩, rfl, ⟨List.replicate 64 0, List.length_replicate, ?_⟩,
    by decide, ?_⟩
  · intro i hi
    have hlength : (smallTable.header (List.replicate 64 0)).length = 88 := by decide
    have hlow : 512 + i < 1024 := by omega
    rw [← hheader i hi, Nat.zero_add]
    change (if 512 + i < 1024 then memOf _ (512 + i - 512) else _) = _
    rw [if_pos hlow, Nat.add_sub_cancel_left]
  · intro i hi
    have hhigh : ¬ 1024 + i < 1024 := by omega
    rw [← harray i hi, Nat.zero_add]
    change (if 1024 + i < 1024 then _ else memOf _ (1024 + i - 1024)) = _
    rw [if_neg hhigh, Nat.add_sub_cancel_left]

/-- The formatted disk, and one of its partitions that has a handle of its own. -/
def formattedFirmware : DiskFirmware :=
  { twoDisks Arch.ia32 0 with
    devices := [formattedDisk, { formattedDisk with logicalPartition := true }] }

theorem formattedFirmware_formatted :
    Formatted Arch.ia32 formattedFirmware.devices [some smallTable, none] :=
  List.Forall₂.cons (BlockDevice.HasFormat.table formattedDisk_hasTable)
    (List.Forall₂.cons (BlockDevice.HasFormat.other fun h => by cases h.2.1) List.Forall₂.nil)

theorem run_finds_written_boot :
    exists cache, runFrom DiskCache.step DiskCache.empty
        [DiskCache.CacheCall.lookup formattedFirmware emptyLabel, DiskCache.CacheCall.free] =
          some cache ∧
      (cache.gptGetPartitionByLabel formattedFirmware bootLabel).1 =
        Except.ok { part := bootPartition, bio := 1, dio := 2 } := by
  have hcalls : forall call, call ∈ [DiskCache.CacheCall.lookup formattedFirmware emptyLabel,
      DiskCache.CacheCall.free] -> call.On Arch.ia32 formattedFirmware.devices := by
    intro call hmem
    simp only [List.mem_cons, List.not_mem_nil, or_false] at hmem
    rcases hmem with rfl | rfl
    · exact ⟨rfl, rfl⟩
    · trivial
  refine ⟨_, rfl, ?_⟩
  rw [(run_finds_written formattedFirmware_formatted hcalls rfl ⟨rfl, rfl⟩ rfl).2 bootLabel (by decide) (by decide)]
  have hused : usedPartitions formattedFirmware.devices [some smallTable, none] =
      [{ part := bootPartition, bio := 1, dio := 2 }] := by
    decide
  rw [hused]
  decide

end Gpt
end BootableUefi
