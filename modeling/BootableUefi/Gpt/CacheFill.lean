import BootableUefi.Gpt.Cache

/-!
# What is in the cache

After a successful `gpt_cache_partition` the slots hold the devices that passed
every step, in the order of their handles.  The two counters follow, and the
list fits its block, as long as the number of all entries fits a `UINTN`.
-/

namespace BootableUefi
namespace Gpt

open Firmware Foundation

namespace BlockDevice

def header (device : BlockDevice) : GptHeader :=
  headerAt device.contents device.blockSize.toNat

def Passes (device : BlockDevice) : Prop :=
  device.blockIo = EfiStatus.success ∧ device.logicalPartition = false ∧
    device.diskIo = EfiStatus.success ∧ device.readHeader = EfiStatus.success ∧
    isGptDevice device.header = true ∧ device.partitionsPool.isSome = true ∧
    device.readPartitions = EfiStatus.success

instance (device : BlockDevice) : Decidable device.Passes :=
  inferInstanceAs (Decidable (_ ∧ _))

def slot (arch : Arch) (device : BlockDevice) : DiskSlot where
  bio := device.bio
  dio := device.dio
  gptHd := device.header
  partitions := device.partitionsPool.map (entryArray arch device device.header)

end BlockDevice

def passing (devices : List BlockDevice) : List BlockDevice :=
  devices.filter fun device => device.Passes

/-- The number of entries of all disks, as their headers have it. -/
def entryCount (devices : List BlockDevice) : Nat :=
  (devices.map fun device => device.header.numberOfEntries.toNat).sum

/-!
# One device
-/

section OneDevice

variable {arch : Arch} {device : BlockDevice}

theorem gptListPartitionOnDisk_of_passes (h : device.Passes) (slot : DiskSlot) :
    slot.gptListPartitionOnDisk arch device = (EfiStatus.success, device.slot arch) := by
  rcases h with ⟨hblock, hwhole, hdisk, hheader, hgpt, hpool, hread⟩
  rcases Option.isSome_iff_exists.mp hpool with ⟨pool, hpool⟩
  have hsuccess : efiError EfiStatus.success = false := rfl
  have hread' : headerAt device.contents device.blockSize.toNat = device.header := rfl
  simp [DiskSlot.gptListPartitionOnDisk, readGptHeader, DiskSlot.readGptPartitions,
    BlockDevice.slot, hblock, hwhole, hdisk, hheader, hread', hgpt, hpool, hread, hsuccess]

theorem gptListPartitionOnDisk_of_not_passes (h : ¬ device.Passes) (slot : DiskSlot) :
    efiError (slot.gptListPartitionOnDisk arch device).1 = true := by
  have hmissing : efiError EfiStatus.notFound = true := rfl
  unfold DiskSlot.gptListPartitionOnDisk
  dsimp only
  split
  · assumption
  · rename_i hblock
    split
    · exact hmissing
    · rename_i hwhole
      split
      · assumption
      · rename_i hdisk
        unfold readGptHeader
        dsimp only
        split
        · assumption
        · rename_i hheader
          split
          · exact hmissing
          · rename_i hgpt
            unfold DiskSlot.readGptPartitions
            split
            · rfl
            · rename_i pool hpool
              split
              · assumption
              · rename_i hread
                simp only [efiError_eq_true_iff, not_not] at hblock hdisk hheader hread
                have hsuccess : efiError EfiStatus.success = false := rfl
                have hpass : device.Passes := by
                  refine ⟨hblock, by simpa using hwhole, hdisk, hheader, ?_, ?_, hread⟩
                  · simpa [hheader, hsuccess, BlockDevice.header] using hgpt
                  · rw [hpool]
                    rfl
                exact absurd hpass h

end OneDevice

/-!
# The loop
-/

namespace DiskCache

/-- The loop leaves the first slots alone and fills the next ones, for the devices that pass. -/
theorem cacheDevices_spec (arch : Arch) (devices : List BlockDevice) (slots : Nat -> DiskSlot)
    {ndisk npart : Nat} (hroom : ndisk + devices.length < 2 ^ arch.uintnBits)
    (hnpart : npart < 2 ^ arch.uintnBits) :
    exists filled : Nat -> DiskSlot,
      cacheDevices arch devices slots ndisk npart =
        { disks := some filled
          ndisk := ndisk + (passing devices).length
          npart := arch.uintn (npart + entryCount (passing devices)) } ∧
      (forall i, i < ndisk -> filled i = slots i) ∧
      forall (j : Nat) (device : BlockDevice), (passing devices)[j]? = some device ->
        filled (ndisk + j) = device.slot arch := by
  induction devices generalizing slots ndisk npart with
  | nil =>
      refine ⟨slots, ?_, fun i _ => rfl, ?_⟩
      · simp [cacheDevices, passing, entryCount, uintn_of_lt hnpart]
      · intro j device hfound
        simp [passing] at hfound
  | cons device devices ih =>
      have hroom' : ndisk + 1 + devices.length < 2 ^ arch.uintnBits := by
        rw [List.length_cons] at hroom
        omega
      unfold cacheDevices
      dsimp only
      by_cases hpass : device.Passes
      · -- The slot is kept, and the loop goes on with the next one.
        have hpassing : passing (device :: devices) = device :: passing devices := by
          simp [passing, hpass]
        have hsuccess : efiError EfiStatus.success = false := rfl
        rw [gptListPartitionOnDisk_of_passes hpass, hsuccess, if_neg Bool.false_ne_true,
          Function.update_self, uintn_of_lt (by omega)]
        rcases ih (Function.update slots ndisk (device.slot arch)) hroom'
          (uintn_lt arch _) with ⟨filled, heq, hbefore, hfilled⟩
        refine ⟨filled, ?_, ?_, ?_⟩
        · rw [heq, uintn_add, hpassing]
          have hcount : entryCount (device :: passing devices) =
              device.header.numberOfEntries.toNat + entryCount (passing devices) := by
            simp [entryCount]
          rw [hcount, List.length_cons, Nat.add_right_comm ndisk, Nat.add_assoc ndisk,
            Nat.add_assoc npart]
          rfl
        · intro i hi
          rw [hbefore i (Nat.lt_succ_of_lt hi), Function.update_of_ne (Nat.ne_of_lt hi)]
        · intro j found hfound
          rw [hpassing] at hfound
          cases j with
          | zero =>
              cases hfound
              rw [Nat.add_zero, hbefore ndisk (Nat.lt_succ_self ndisk), Function.update_self]
          | succ j =>
              have hnext := hfilled j found hfound
              rwa [Nat.add_right_comm, Nat.add_assoc] at hnext
      · -- The slot is used again.
        have hpassing : passing (device :: devices) = passing devices := by
          simp [passing, hpass]
        rw [gptListPartitionOnDisk_of_not_passes hpass, if_pos rfl, hpassing]
        have hkeep : ndisk + devices.length < 2 ^ arch.uintnBits := by omega
        rcases ih (Function.update slots ndisk ((slots ndisk).gptListPartitionOnDisk arch device).2)
          hkeep hnpart with ⟨filled, heq, hbefore, hfilled⟩
        refine ⟨filled, heq, ?_, hfilled⟩
        intro i hi
        rw [hbefore i hi, Function.update_of_ne (Nat.ne_of_lt hi)]

theorem gptCachePartition_cases (fw : DiskFirmware) :
    (exists status, empty.gptCachePartition fw = (status, empty) ∧
      status ≠ EfiStatus.success) ∨
    (exists slots, empty.gptCachePartition fw =
      (EfiStatus.success, cacheDevices fw.arch fw.devices slots 0 0)) := by
  unfold gptCachePartition
  split
  · exact Or.inl ⟨_, rfl, fw.locateSize_ne⟩
  · split
    · exact Or.inl ⟨_, rfl, nofun⟩
    · split
      · rename_i hlocate
        exact Or.inl ⟨_, rfl, efiError_eq_true_iff.mp hlocate⟩
      · split
        · exact Or.inl ⟨_, rfl, nofun⟩
        · split
          · exact Or.inl ⟨_, rfl, nofun⟩
          · rename_i slots _
            exact Or.inr ⟨slots, rfl⟩

structure Holds (arch : Arch) (devices : List BlockDevice) (cache : DiskCache) : Prop where
  block : cache.disks.isSome = true
  ndisk : cache.ndisk = (passing devices).length
  cached : cache.cached = (passing devices).map fun device => (device.slot arch).disk
  npart : cache.npart = arch.uintn (entryCount (passing devices))

theorem holds_cacheDevices (fw : DiskFirmware) (slots : Nat -> DiskSlot) :
    (cacheDevices fw.arch fw.devices slots 0 0).Holds fw.arch fw.devices := by
  have hroom : 0 + fw.devices.length < 2 ^ fw.arch.uintnBits := by
    have hlt := fw.devices_lt
    have hle : fw.devices.length * 1 ≤ fw.devices.length * fw.arch.sizeofUintn :=
      Nat.mul_le_mul_left _ (by cases fw.arch <;> decide)
    omega
  rcases cacheDevices_spec fw.arch fw.devices slots hroom (Nat.two_pow_pos _) with
    ⟨filled, heq, -, hfilled⟩
  rw [heq, Nat.zero_add, Nat.zero_add]
  refine ⟨rfl, rfl, ?_, rfl⟩
  apply List.ext_getElem
  · simp [DiskCache.cached]
  · intro j hj _
    have hlt : j < (passing fw.devices).length := by simpa [DiskCache.cached] using hj
    have hslot := hfilled j _ (List.getElem?_eq_getElem hlt)
    rw [Nat.zero_add] at hslot
    simp [DiskCache.cached, hslot]

/-!
# Calls on the cache
-/

/-- A call from outside of `gpt.c`. -/
inductive CacheCall where
  | list (fw : DiskFirmware) (listPool : Bool)
  | lookup (fw : DiskFirmware) (label : Label)
  | free

def step (cache : DiskCache) : CacheCall -> Option DiskCache
  | CacheCall.list fw listPool => some (cache.gptListPartition fw listPool).2
  | CacheCall.lookup fw label => some (cache.gptGetPartitionByLabel fw label).2
  | CacheCall.free => some cache.gptFreeCache

/-- Without a block the counters are zero; with one they are those of some devices. -/
def Sound (cache : DiskCache) : Prop :=
  cache = empty ∨ exists fw : DiskFirmware, cache.Holds fw.arch fw.devices

theorem Sound.eq_empty {cache : DiskCache} (h : cache.Sound) (hnull : cache.disks = none) :
    cache = empty := by
  rcases h with hempty | ⟨fw, hholds⟩
  · exact hempty
  · have hblock := hholds.block
    rw [hnull] at hblock
    cases hblock

theorem gptListPartition_snd (fw : DiskFirmware) (listPool : Bool) (cache : DiskCache) :
    (cache.gptListPartition fw listPool).2 = (cache.ensure fw).2 := by
  unfold gptListPartition
  dsimp only
  split
  · rfl
  · split <;> rfl

theorem gptGetPartitionByLabel_snd (fw : DiskFirmware) (label : Label) (cache : DiskCache) :
    (cache.gptGetPartitionByLabel fw label).2 = (cache.ensure fw).2 := by
  unfold gptGetPartitionByLabel
  dsimp only
  split
  · rfl
  · split <;> rfl

theorem ensure_sound (fw : DiskFirmware) {cache : DiskCache} (h : cache.Sound) :
    (cache.ensure fw).2.Sound := by
  unfold ensure
  split
  · rename_i hnull
    rw [h.eq_empty hnull]
    rcases gptCachePartition_cases fw with ⟨status, heq, -⟩ | ⟨slots, heq⟩
    · rw [heq]
      exact Or.inl rfl
    · rw [heq]
      exact Or.inr ⟨fw, holds_cacheDevices fw slots⟩
  · exact h

theorem step_sound {cache after : DiskCache} {call : CacheCall} (h : cache.Sound)
    (hstep : cache.step call = some after) : after.Sound := by
  cases call with
  | list fw listPool =>
      cases hstep
      rw [gptListPartition_snd]
      exact ensure_sound fw h
  | lookup fw label =>
      cases hstep
      rw [gptGetPartitionByLabel_snd]
      exact ensure_sound fw h
  | free =>
      cases hstep
      unfold gptFreeCache
      split
      · exact h
      · exact Or.inl rfl

theorem run_sound {cache after : DiskCache} {calls : List CacheCall} (h : cache.Sound)
    (hrun : runFrom step cache calls = some after) : after.Sound := by
  induction calls generalizing cache with
  | nil =>
      cases hrun
      exact h
  | cons call calls ih =>
      rcases runFrom_cons_eq_some.mp hrun with ⟨next, hstep, hrest⟩
      exact ih (step_sound h hstep) hrest

/-!
# The list
-/

theorem listDisk_eq (list : List GptPartitionInterface) (disk : GptDisk) :
    listDisk list disk =
      list ++ (disk.entries.filter fun entry => entry.isListed).map GptEntry.interface := by
  unfold listDisk
  induction disk.entries generalizing list with
  | nil => simp
  | cons entry entries ih =>
      rw [List.foldl_cons, ih]
      cases hlisted : entry.isListed with
      | true => simp [hlisted]
      | false => simp [hlisted]

theorem foldl_listDisk (list : List GptPartitionInterface) (disks : List GptDisk) :
    disks.foldl listDisk list = list ++ listEntries disks := by
  induction disks generalizing list with
  | nil => simp [listEntries]
  | cons disk disks ih =>
      rw [List.foldl_cons, ih, listDisk_eq, List.append_assoc]
      rfl

theorem gptListPartition_of_block {cache : DiskCache} (h : cache.disks.isSome = true)
    (fw : DiskFirmware) :
    cache.gptListPartition fw true = (Except.ok (listEntries cache.cached), cache) := by
  rcases Option.isSome_iff_exists.mp h with ⟨slots, hslots⟩
  have hsuccess : efiError EfiStatus.success = false := rfl
  simp [gptListPartition, ensure, hslots, hsuccess, foldl_listDisk]

theorem npart_disks (arch : Arch) (devices : List BlockDevice) :
    Gpt.npart (devices.map fun device => (device.slot arch).disk) = entryCount devices := by
  unfold Gpt.npart entryCount
  rw [List.map_map]
  rfl

end DiskCache

/-!
# The cache as a list of disks

Filled from the start, the slots answer as the list of disks does that the
lookups are modelled on.
-/

/-- What the list of disks is made from. -/
def BlockDevice.answer (arch : Arch) (device : BlockDevice) : HandleAnswer where
  blockIo := device.blockIo
  logicalPartition := device.logicalPartition
  diskIo := device.diskIo
  readHeader := device.readHeader
  signature := device.header.signature
  partitionsPool := device.partitionsPool.isSome
  readPartitions := device.readPartitions
  disk := (device.slot arch).disk

def DiskFirmware.answers (fw : DiskFirmware) (listPool : Bool) : GptFirmware where
  locateSize := fw.locateSize
  handlesPool := fw.handlesPool
  locateHandles := fw.locateHandles
  handles := fw.devices.map (BlockDevice.answer fw.arch)
  disksPool := fw.disksPool.isSome
  listPool := listPool

theorem gptListPartitionOnDisk_answer_of_passes {device : BlockDevice} (h : device.Passes)
    (arch : Arch) :
    gptListPartitionOnDisk (device.answer arch) = Except.ok (device.slot arch).disk := by
  rcases h with ⟨hblock, hwhole, hdisk, hheader, hgpt, hpool, hread⟩
  have hsignature : device.header.signature = gptSignature := by simpa [isGptDevice] using hgpt
  have hsuccess : efiError EfiStatus.success = false := rfl
  simp [gptListPartitionOnDisk, readGptPartitions, BlockDevice.answer, hblock, hwhole, hdisk,
    hheader, hsignature, hpool, hread, hsuccess]

theorem gptListPartitionOnDisk_answer_of_not_passes {device : BlockDevice}
    (h : ¬ device.Passes) (arch : Arch) :
    (gptListPartitionOnDisk (device.answer arch)).toOption = none := by
  unfold gptListPartitionOnDisk readGptPartitions
  split
  · rfl
  · rename_i hblock
    split
    · rfl
    · rename_i hwhole
      split
      · rfl
      · rename_i hdisk
        split
        · rfl
        · rename_i hheader
          split
          · rfl
          · rename_i hgpt
            split
            · rfl
            · rename_i hpool
              split
              · rfl
              · rename_i hread
                simp only [efiError_eq_true_iff, not_not] at hblock hdisk hheader hgpt hread
                have hpass : device.Passes := by
                  refine ⟨hblock, ?_, hdisk, hheader, ?_, ?_, hread⟩
                  · simpa [BlockDevice.answer] using hwhole
                  · exact decide_eq_true hgpt
                  · simpa [BlockDevice.answer, Option.isSome_iff_ne_none] using hpool
                exact absurd hpass h

theorem filterMap_answer (arch : Arch) (devices : List BlockDevice) :
    (devices.map (BlockDevice.answer arch)).filterMap
        (fun answer => (gptListPartitionOnDisk answer).toOption) =
      (passing devices).map fun device => (device.slot arch).disk := by
  induction devices with
  | nil => rfl
  | cons device devices ih =>
      rw [List.map_cons, List.filterMap_cons, ih]
      by_cases hpass : device.Passes
      · rw [gptListPartitionOnDisk_answer_of_passes hpass]
        simp [passing, hpass, Except.toOption]
      · rw [gptListPartitionOnDisk_answer_of_not_passes hpass]
        simp [passing, hpass]

namespace DiskCache

theorem ensure_cases (fw : DiskFirmware) (listPool : Bool) :
    (exists status, empty.ensure fw = (status, empty) ∧ efiError status = true ∧
      cachedDisks (fw.answers listPool) none = Except.error status) ∨
    (exists cache, empty.ensure fw = (EfiStatus.success, cache) ∧
      cachedDisks (fw.answers listPool) none = Except.ok cache.cached) := by
  have hcached := fun slots => (holds_cacheDevices fw slots).cached
  unfold ensure cachedDisks Gpt.gptCachePartition gptCachePartition
  simp only [DiskFirmware.answers, filterMap_answer, empty, List.map_eq_nil_iff]
  by_cases hsize : fw.locateSize ≠ EfiStatus.bufferTooSmall
  · rw [if_pos hsize, if_pos hsize]
    exact Or.inl ⟨_, rfl, efiError_eq_true_iff.mpr fw.locateSize_ne, rfl⟩
  · rw [if_neg hsize, if_neg hsize]
    cases fw.handlesPool with
    | false => exact Or.inl ⟨_, rfl, rfl, rfl⟩
    | true =>
        cases hlocate : efiError fw.locateHandles with
        | true => exact Or.inl ⟨_, rfl, hlocate, rfl⟩
        | false =>
            by_cases hnone : fw.devices = []
            · simp only [hnone]
              exact Or.inl ⟨_, rfl, rfl, rfl⟩
            · simp only [hnone, if_false]
              cases fw.disksPool with
              | none => exact Or.inl ⟨_, rfl, rfl, rfl⟩
              | some slots =>
                  refine Or.inr ⟨_, rfl, ?_⟩
                  rw [hcached slots]
                  rfl

/-- `gpt_list_partition` with slots is the one with the list of disks. -/
theorem gptListPartition_refines (fw : DiskFirmware) (listPool : Bool) :
    (empty.gptListPartition fw listPool).1 =
      (Gpt.gptListPartition (fw.answers listPool) none).1 := by
  have hpool : (fw.answers listPool).listPool = listPool := rfl
  have hsuccess : efiError EfiStatus.success = false := rfl
  unfold gptListPartition Gpt.gptListPartition
  rcases ensure_cases fw listPool with ⟨status, hensure, herror, hcached⟩ |
    ⟨cache, hensure, hcached⟩
  · simp [hensure, hcached, herror]
  · rw [hensure, hcached, hpool]
    cases listPool with
    | false => rfl
    | true => simp [hsuccess, foldl_listDisk]

theorem gptGetPartitionByLabel_refines (fw : DiskFirmware) (listPool : Bool) (label : Label) :
    (empty.gptGetPartitionByLabel fw label).1 =
      (Gpt.gptGetPartitionByLabel (fw.answers listPool) none label).1 := by
  have hsuccess : efiError EfiStatus.success = false := rfl
  unfold gptGetPartitionByLabel Gpt.gptGetPartitionByLabel
  rcases ensure_cases fw listPool with ⟨status, hensure, herror, hcached⟩ |
    ⟨cache, hensure, hcached⟩
  · simp [hensure, hcached, herror]
  · rw [hensure, hcached]
    simp only [hsuccess, Bool.false_eq_true, if_false]
    cases findLabel label cache.cached <;> rfl

end DiskCache

/-!
# A successful `gpt_cache_partition`
-/

/--
The cache has the disks of the devices that pass, in the order of their handles,
and the number of all their entries; the list is made of these, and fits.
-/
structure CachedFaithfully (arch : Arch) (devices : List BlockDevice) (cache : DiskCache) :
    Prop where
  ndisk : cache.ndisk = (passing devices).length
  disks : cache.cached = (passing devices).map fun device => (device.slot arch).disk
  npart : cache.npart = entryCount (passing devices)
  list : forall fw : DiskFirmware, cache.gptListPartition fw true =
    (Except.ok (listEntries ((passing devices).map fun device => (device.slot arch).disk)), cache)
  fits : (listEntries ((passing devices).map fun device => (device.slot arch).disk)).length ≤
    cache.npart

/--
After any calls that leave no block, a successful `gpt_cache_partition` caches
the disks faithfully exactly if the number of their entries fits a `UINTN`.
-/
theorem cachedFaithfully_iff {calls : List DiskCache.CacheCall} {cache after : DiskCache}
    {fw : DiskFirmware} (hrun : runFrom DiskCache.step DiskCache.empty calls = some cache)
    (hnull : cache.disks = none)
    (hcache : cache.gptCachePartition fw = (EfiStatus.success, after)) :
    CachedFaithfully fw.arch fw.devices after <->
      entryCount (passing fw.devices) < 2 ^ fw.arch.uintnBits := by
  rw [(DiskCache.run_sound (Or.inl rfl) hrun).eq_empty hnull] at hcache
  have hholds : after.Holds fw.arch fw.devices := by
    rcases DiskCache.gptCachePartition_cases fw with ⟨status, heq, hstatus⟩ | ⟨slots, heq⟩
    · rw [heq] at hcache
      exact absurd (congrArg Prod.fst hcache) hstatus
    · rw [heq] at hcache
      cases hcache
      exact DiskCache.holds_cacheDevices fw slots
  constructor
  · intro h
    rw [← h.npart, hholds.npart]
    exact uintn_lt fw.arch _
  · intro hlt
    have hnpart : after.npart = entryCount (passing fw.devices) := by
      rw [hholds.npart, uintn_of_lt hlt]
    refine ⟨hholds.ndisk, hholds.cached, hnpart, ?_, ?_⟩
    · intro fw'
      rw [DiskCache.gptListPartition_of_block hholds.block, hholds.cached]
    · rw [hnpart, ← DiskCache.npart_disks fw.arch]
      exact length_listEntries_le _

def tableDisk (entriesLba numberOfEntries sizeOfEntry : Nat) : BlockDevice where
  blockIo := EfiStatus.success
  bio := 1
  logicalPartition := false
  blockSize := 512
  diskIo := EfiStatus.success
  dio := 2
  readHeader := EfiStatus.success
  brokenHeader :=
    { signature := [], entriesLba := 0, numberOfEntries := 0, sizeOfEntry := 0 }
  partitionsPool := some fun _ => 0
  readPartitions := EfiStatus.success
  contents :=
    [(512, 8, 0x5452415020494645), (584, 8, entriesLba), (592, 4, numberOfEntries),
      (596, 4, sizeOfEntry)].foldl
        (fun contents field => BootImage.store field.2.1 field.1 field.2.2 contents) fun _ => 0

def twoDisks (arch : Arch) (numberOfEntries : Nat) : DiskFirmware where
  arch := arch
  locateSize := EfiStatus.bufferTooSmall
  handlesPool := true
  locateHandles := EfiStatus.success
  devices := [tableDisk 2 numberOfEntries 128, tableDisk 2 numberOfEntries 128]
  disksPool := some fun _ => (tableDisk 0 0 0).slot arch
  locateSize_ne := by decide
  devices_lt := by cases arch <;> simp [Arch.sizeofUintn, Arch.uintnBits]

def twoDisksCached (arch : Arch) (numberOfEntries : Nat) : DiskCache :=
  (DiskCache.empty.gptCachePartition (twoDisks arch numberOfEntries)).2

theorem cachedFaithfully_iff_of_small_disks :
    CachedFaithfully Arch.ia32 (twoDisks Arch.ia32 4).devices (twoDisksCached Arch.ia32 4) := by
  have hrun : runFrom DiskCache.step DiskCache.empty [DiskCache.CacheCall.free] =
      some DiskCache.empty := rfl
  have hcache : DiskCache.empty.gptCachePartition (twoDisks Arch.ia32 4) =
      (EfiStatus.success, twoDisksCached Arch.ia32 4) := rfl
  apply (cachedFaithfully_iff hrun rfl hcache).mpr
  decide +kernel

/-- Two disks that claim 2 ^ 31 + 1 entries each leave `npart` at 2. -/
theorem npart_wraps :
    (DiskCache.empty.gptCachePartition (twoDisks Arch.ia32 0x80000001)).1 = EfiStatus.success ∧
      ¬ CachedFaithfully Arch.ia32 (twoDisks Arch.ia32 0x80000001).devices
        (twoDisksCached Arch.ia32 0x80000001) := by
  refine ⟨rfl, ?_⟩
  intro h
  have hnpart : (twoDisksCached Arch.ia32 0x80000001).npart = 2 := by
    decide +kernel
  have hcount : entryCount (passing (twoDisks Arch.ia32 0x80000001).devices) = 2 ^ 32 + 2 := by
    decide +kernel
  have heq := h.npart
  rw [hnpart, hcount] at heq
  cases heq

end Gpt
end BootableUefi
