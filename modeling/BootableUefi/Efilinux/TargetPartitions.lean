import Mathlib.Tactic.IntervalCases
import BootableUefi.BootImage.Encoding
import BootableUefi.Efilinux.Attempts

/-!
# The partitions of the targets

`open_partition` asks the firmware for the partitions with a GUID, and if there
are none for those with its first three fields in the other byte order, which old
installers have written.  Whichever target a boot comes to, the image that is
started is the one on the partition of this target.
-/

namespace BootableUefi
namespace Efilinux

open Firmware Foundation BootImage
open BootLogic (Target nameToEntry)

/-!
# GUIDs
-/

structure EfiGuid where
  data1 : UInt32
  data2 : UInt16
  data3 : UInt16
  data4 : List UInt8
  deriving DecidableEq, Repr

def swapBytes32 (n : UInt32) : UInt32 :=
  (n &&& 0x000000FF) <<< 24 ||| (n &&& 0x0000FF00) <<< 8 ||| (n &&& 0x00FF0000) >>> 8 |||
    (n &&& 0xFF000000) >>> 24

def swapBytes16 (n : UInt16) : UInt16 :=
  (n &&& 0x00FF) <<< 8 ||| (n &&& 0xFF00) >>> 8

def copyAndSwapGuid (src : EfiGuid) : EfiGuid where
  data1 := swapBytes32 src.data1
  data2 := swapBytes16 src.data2
  data3 := swapBytes16 src.data3
  data4 := src.data4

theorem swapBytes32_swapBytes32 (n : UInt32) : swapBytes32 (swapBytes32 n) = n := by
  apply UInt32.toBitVec_inj.mp
  unfold swapBytes32
  ext i hi
  interval_cases i <;> simp

theorem swapBytes16_swapBytes16 (n : UInt16) : swapBytes16 (swapBytes16 n) = n := by
  apply UInt16.toBitVec_inj.mp
  unfold swapBytes16
  ext i hi
  interval_cases i <;> simp

theorem copyAndSwapGuid_involutive : Function.Involutive copyAndSwapGuid := by
  intro guid
  unfold copyAndSwapGuid
  dsimp only
  rw [swapBytes32_swapBytes32, swapBytes16_swapBytes16, swapBytes16_swapBytes16]

/-- The stored GUID is this one, in one byte order or the other. -/
def EfiGuid.StoredAs (guid stored : EfiGuid) : Prop :=
  stored = guid ∨ stored = copyAndSwapGuid guid

/-- No GUID is stored as two that differ in both byte orders. -/
theorem EfiGuid.StoredAs.related {guid other stored : EfiGuid} (h : guid.StoredAs stored)
    (hother : other.StoredAs stored) : other.StoredAs guid := by
  rcases h with rfl | rfl
  · exact hother
  · rcases hother with heq | heq
    · exact Or.inr (by rw [← heq, copyAndSwapGuid_involutive])
    · exact Or.inl (copyAndSwapGuid_involutive.injective heq)

/-- `0x80868086` and so on, up to the last two bytes. -/
def intelGuid (kind number : UInt8) : EfiGuid where
  data1 := 0x80868086
  data2 := 0x8086
  data3 := 0x8086
  data4 := [0x80, 0x86, 0x00, 0x00, 0x00, 0x00, kind, number]

def bootGuid : EfiGuid :=
  intelGuid 0x01 0x00

def recoveryGuid : EfiGuid :=
  intelGuid 0x01 0x01

def fastbootGuid : EfiGuid :=
  intelGuid 0x01 0x02

def testGuid : EfiGuid :=
  intelGuid 0x01 0x04

def nullGuid : EfiGuid where
  data1 := 0
  data2 := 0
  data3 := 0
  data4 := List.replicate 8 0

def entryGuid : Target -> Option EfiGuid
  | Target.boot => some bootGuid
  | Target.recovery => some recoveryGuid
  | Target.fastboot => some fastbootGuid
  | Target.test => some testGuid
  | Target.charging => some bootGuid
  | Target.factory => some bootGuid
  | Target.factory2 => some bootGuid
  | Target.dnx => some nullGuid
  | _ => none

/-- No byte order makes the partition of one target that of another. -/
theorem entryGuid_apart {target other : Target} {guid otherGuid : EfiGuid}
    (h : entryGuid target = some guid) (hother : entryGuid other = some otherGuid)
    (hstored : otherGuid.StoredAs guid) : otherGuid = guid := by
  have hguid : guid = bootGuid ∨ guid = recoveryGuid ∨ guid = fastbootGuid ∨ guid = testGuid ∨
      guid = nullGuid := by
    cases target <;> cases h <;> simp
  have hotherGuid : otherGuid = bootGuid ∨ otherGuid = recoveryGuid ∨
      otherGuid = fastbootGuid ∨ otherGuid = testGuid ∨ otherGuid = nullGuid := by
    cases other <;> cases hother <;> simp
  rcases hstored with rfl | heq
  · rfl
  · revert heq
    rcases hguid with rfl | rfl | rfl | rfl | rfl <;>
      rcases hotherGuid with rfl | rfl | rfl | rfl | rfl <;> decide

/-!
# Opening a partition
-/

structure DiskPartition where
  handle : Nat
  guid : EfiGuid
  contents : Mem

structure PartitionFirmware where
  /-- `LibLocateHandleByDiskSignature`: its status, and the handles it has found. -/
  locate : EfiGuid -> EfiStatus × List Nat
  blockIo : Nat -> EfiStatus
  diskIo : Nat -> EfiStatus

namespace PartitionFirmware

variable (fw : PartitionFirmware) (guid : EfiGuid)

/-- The handles for the GUID, or for the swapped one if there are none. -/
def locateEither : EfiStatus × List Nat :=
  let found := fw.locate guid
  if efiError found.1 || found.2.length == 0 then fw.locate (copyAndSwapGuid guid) else found

/-- `open_partition`, with the handle instead of the protocols it gets from it. -/
def openPartition : Except EfiStatus Nat :=
  let found := fw.locateEither guid
  if efiError found.1 then Except.error found.1
  else
    match found.2 with
    | [handle] =>
        if efiError (fw.blockIo handle) then Except.error (fw.blockIo handle)
        else if efiError (fw.diskIo handle) then Except.error (fw.diskIo handle)
        else Except.ok handle
    | _ => Except.error EfiStatus.volumeCorrupted

/-- The firmware finds the partitions there are. -/
def Serves (partitions : List DiskPartition) : Prop :=
  forall guid : EfiGuid,
    (efiError (fw.locate guid).1 = true -> forall p, p ∈ partitions -> p.guid ≠ guid) ∧
      (efiError (fw.locate guid).1 = false -> (fw.locate guid).2 =
        (partitions.filter fun p => p.guid = guid).map DiskPartition.handle)

end PartitionFirmware

/-- The only partition with the GUID, or with the swapped one if there is none with it. -/
structure DiskPartition.IsFor (p : DiskPartition) (partitions : List DiskPartition)
    (guid : EfiGuid) : Prop where
  stored : guid.StoredAs p.guid
  preferred : p.guid ≠ guid -> forall q, q ∈ partitions -> q.guid ≠ guid
  only : (partitions.filter fun q => q.guid = p.guid) = [p]

section Open

variable {fw : PartitionFirmware} {partitions : List DiskPartition} {guid : EfiGuid}
  {handle : Nat}

theorem mem_of_filter_eq {p : DiskPartition} {stored : EfiGuid}
    (h : (partitions.filter fun q => q.guid = stored) = [p]) :
    p ∈ partitions ∧ p.guid = stored := by
  have hmem : p ∈ partitions.filter fun q => q.guid = stored := by
    rw [h]
    exact List.mem_singleton.mpr rfl
  simpa using hmem

theorem openPartition_isFor (hserves : fw.Serves partitions)
    (hopen : fw.openPartition guid = Except.ok handle) :
    exists p, p ∈ partitions ∧ p.handle = handle ∧ p.IsFor partitions guid := by
  have hlocated : efiError (fw.locateEither guid).1 = false ∧
      (fw.locateEither guid).2 = [handle] := by
    unfold PartitionFirmware.openPartition at hopen
    dsimp only at hopen
    split at hopen
    · cases hopen
    · rename_i hfound
      refine ⟨by simpa using hfound, ?_⟩
      split at hopen
      · rename_i other hone
        split_ifs at hopen
        rw [hone, Except.ok.inj hopen]
      · cases hopen
  rcases hlocated with ⟨hstatus, hone⟩
  -- The handles are those of the partitions with one of the GUIDs.
  have hpick : forall stored : EfiGuid, efiError (fw.locate stored).1 = false ->
      (fw.locate stored).2 = [handle] -> exists p, p.handle = handle ∧
        (partitions.filter fun q => q.guid = stored) = [p] := by
    intro stored hok hhandles
    rw [(hserves stored).2 hok] at hhandles
    rcases List.map_eq_singleton_iff.mp hhandles with ⟨p, hfilter, hhandle⟩
    exact ⟨p, hhandle, hfilter⟩
  unfold PartitionFirmware.locateEither at hstatus hone
  dsimp only at hstatus hone
  split at hone
  · rename_i hnone
    rw [if_pos hnone] at hstatus
    rcases hpick _ hstatus hone with ⟨p, hhandle, hfilter⟩
    rcases mem_of_filter_eq hfilter with ⟨hmem, hguid⟩
    refine ⟨p, hmem, hhandle, Or.inr hguid, ?_, by rwa [hguid]⟩
    intro _ q hq hq'
    cases herror : efiError (fw.locate guid).1 with
    | true => exact (hserves guid).1 herror q hq hq'
    | false =>
        have hempty : (fw.locate guid).2 = [] := by
          rw [herror, Bool.false_or] at hnone
          simpa using hnone
        rw [(hserves guid).2 herror, List.map_eq_nil_iff, List.filter_eq_nil_iff] at hempty
        exact hempty q hq (by simpa using hq')
  · rename_i hsome
    rw [if_neg hsome] at hstatus
    rcases hpick _ hstatus hone with ⟨p, hhandle, hfilter⟩
    rcases mem_of_filter_eq hfilter with ⟨hmem, hguid⟩
    refine ⟨p, hmem, hhandle, Or.inl hguid, ?_, by rwa [hguid]⟩
    intro hne
    exact absurd hguid hne

theorem openPartition_error {status : EfiStatus}
    (h : fw.openPartition guid = Except.error status) : status ≠ EfiStatus.success := by
  unfold PartitionFirmware.openPartition at h
  dsimp only at h
  split at h
  · rename_i herror
    cases h
    exact efiError_eq_true_iff.mp herror
  · split at h
    · split_ifs at h with hblock hdisk
      · cases h
        exact efiError_eq_true_iff.mp hblock
      · cases h
        exact efiError_eq_true_iff.mp hdisk
    · cases h
      decide

end Open

/-!
# The start of an attempt
-/

/-- A start reads the partition that `open_partition` finds for the GUID. -/
structure Reads (env : PartitionEnv) (fw : PartitionFirmware) (guid : EfiGuid)
    (partitions : List DiskPartition) : Prop where
  refused : forall status, fw.openPartition guid = Except.error status ->
    env.openPartition = status
  opened : forall p, p ∈ partitions -> fw.openPartition guid = Except.ok p.handle ->
    env.disk = p.contents

theorem Reads.of_opened {env : PartitionEnv} {fw : PartitionFirmware} {guid : EfiGuid}
    {partitions : List DiskPartition} (p : DiskPartition)
    (hopen : fw.openPartition guid = Except.ok p.handle)
    (honly : forall q, q ∈ partitions -> q.handle = p.handle -> q = p)
    (hdisk : env.disk = p.contents) : Reads env fw guid partitions where
  refused := by
    intro status hstatus
    rw [hopen] at hstatus
    cases hstatus
  opened := by
    intro q hq hstatus
    rw [hopen] at hstatus
    rw [honly q hq (Except.ok.inj hstatus).symm, hdisk]

theorem Reads.of_jumped {env : PartitionEnv} {fw : PartitionFirmware} {guid : EfiGuid}
    {partitions : List DiskPartition} (h : Reads env fw guid partitions)
    (hserves : fw.Serves partitions) {append : Option (List UInt8)}
    {hooks : Option BootimgHooks} {used : Finset Nat} {kernelStart bootAddr : Nat}
    {t : LoadState}
    (hrun : startPartition env append hooks used = (LoadEnd.jumped kernelStart bootAddr, t)) :
    exists p, p ∈ partitions ∧ p.IsFor partitions guid ∧ env.disk = p.contents := by
  have hopened : env.openPartition = EfiStatus.success := by
    by_contra hne
    unfold startPartition at hrun
    dsimp only at hrun
    rw [if_pos hne] at hrun
    cases congrArg Prod.fst hrun
  cases hopen : fw.openPartition guid with
  | error status =>
      have hstatus := h.refused status hopen
      rw [hopened] at hstatus
      exact absurd hstatus.symm (openPartition_error hopen)
  | ok handle =>
      rcases openPartition_isFor hserves hopen with ⟨p, hmem, rfl, hfor⟩
      exact ⟨p, hmem, hfor, h.opened p hmem hopen⟩

theorem Attempt.guid_of_starts {attempt : Attempt} {env : BootLogicEnv}
    (h : attempt.Starts env) : exists guid, entryGuid attempt.target = some guid := by
  rcases Attempt.mode_of_starts h with ⟨mode, hmode, -⟩
  revert hmode
  cases attempt.target <;> intro hmode <;> first
    | exact ⟨_, rfl⟩
    | cases hmode

theorem Attempt.line_noNul {attempt : Attempt} {env : BootLogicEnv} {saved : List UInt8}
    (h : attempt.Starts env) (hsaved : 0 ∉ saved) : NoNul (attempt.line env saved) := by
  rcases Attempt.mode_of_starts h with ⟨mode, hmode, hclean⟩
  have hfirst : NoNul (some saved) := by
    rintro _ ⟨⟩
    exact hsaved
  have hsecond : NoNul (entryCmdline attempt.target) := by
    rw [hmode]
    rintro _ ⟨⟩
    exact hclean
  exact hfirst.appendStrings hsecond _

/-- What a jump of the attempt has started is on the partition of its target. -/
structure Attempt.StartsOwn (attempt : Attempt) (env : BootLogicEnv) (saved : List UInt8)
    (partitions : List DiskPartition) (p : DiskPartition) (kernelStart bootAddr : Nat)
    (t : LoadState) : Prop where
  mem : p ∈ partitions
  own : exists guid, entryGuid attempt.target = some guid ∧ p.IsFor partitions guid
  apart : forall other otherGuid, entryGuid other = some otherGuid ->
    otherGuid.StoredAs p.guid -> entryGuid attempt.target = some otherGuid
  started : kernelStart < 2 ^ (attempt.partition env).load.arch.uintnBits ->
    forall android : AndroidImage, Shows p.contents 0 android.encode -> android.HasSetup ->
    exists pool, (attempt.partition env).imagePool = some pool ∧
      android.Started (attempt.partition env) pool (attempt.line env saved)
        (env.target attempt.turn).used kernelStart bootAddr t

/--
On disks whose partitions have the GUIDs of the targets in one byte order or the
other, the kernel the boot logic ends up starting is that of the image on the
partition of the target it has come to, and on no partition of another target.
-/
theorem startBootLogic_starts_own {env : BootLogicEnv} {cmdline : Option (List UInt8)}
    {target : Target} (hselected : selectedTarget env = some target) (hcmdline : NoNul cmdline)
    (hextra : NoNul env.extraCmdline) {partitions : List DiskPartition}
    {fw : Nat -> PartitionFirmware} (hserves : forall k, (fw k).Serves partitions)
    (hreads : forall attempt guid,
      attempt ∈ attempts env (savedLine env cmdline) 4 0 target ->
        entryGuid attempt.target = some guid ->
          Reads (attempt.partition env) (fw attempt.turn) guid partitions) :
    let saved := savedLine env cmdline
    let tried := attempts env saved 4 0 target
    (startBootLogic env cmdline).events =
        lineSteps env cmdline ++ tried.flatMap (fun attempt => (attempt.load env saved).events) ∧
      forall attempt, attempt ∈ tried -> attempt.Starts env -> forall kernelStart bootAddr t,
        attempt.start env saved = (LoadEnd.jumped kernelStart bootAddr, t) ->
        tried.getLast? = some attempt ∧
          exists p, attempt.StartsOwn env saved partitions p kernelStart bootAddr t := by
  intro saved tried
  refine ⟨by rw [startBootLogic_steps hselected, launchLoop_attempts], ?_⟩
  intro attempt hmem hstarts kernelStart bootAddr t hrun
  have hgone : (attempt.load env saved).status = none := by
    rw [Attempt.load_of_starts _ hstarts]
    unfold ofStart
    rw [hrun]
    rfl
  refine ⟨(attempts_inTurn env saved 4 0 target).last_of_gone hmem hgone, ?_⟩
  rcases Attempt.guid_of_starts hstarts with ⟨guid, hguid⟩
  rcases (hreads attempt guid hmem hguid).of_jumped (hserves _) hrun with ⟨p, hp, hfor, hdisk⟩
  refine ⟨p, hp, ⟨guid, hguid, hfor⟩, ?_, ?_⟩
  · intro other otherGuid hother hstored
    rw [entryGuid_apart hguid hother (hfor.stored.related hstored)]
    exact hguid
  · intro hreach android hencode hsetup
    rw [← hdisk] at hencode
    rcases startBuffer_of_startPartition hrun with ⟨pool, hpool, hbuffer⟩
    have hsaved := savedLine_noNul hcmdline hextra
    exact ⟨pool, hpool, (loadedImage_encodes hencode pool).started hsetup
      (Attempt.line_noNul hstarts hsaved) hreach hbuffer⟩

def findingFirmware (partitions : List DiskPartition) : PartitionFirmware where
  locate := fun guid =>
    let found := partitions.filter fun p => p.guid = guid
    (if found.length = 0 then EfiStatus.notFound else EfiStatus.success,
      found.map DiskPartition.handle)
  blockIo := fun _ => EfiStatus.success
  diskIo := fun _ => EfiStatus.success

theorem findingFirmware_serves (partitions : List DiskPartition) :
    (findingFirmware partitions).Serves partitions := by
  intro guid
  constructor
  · intro herror p hp hguid
    have hmem : p ∈ partitions.filter fun q => q.guid = guid := by
      simpa using ⟨hp, hguid⟩
    have hlength := List.length_pos_of_mem hmem
    unfold findingFirmware at herror
    dsimp only at herror
    rw [if_neg (Nat.ne_of_gt hlength)] at herror
    cases herror
  · intro _
    rfl

def oldBoot : DiskPartition where
  handle := 1
  guid := bootGuid
  contents := corruptPartition.disk

/-- The recovery image is on a partition whose GUID is in the other byte order. -/
def oldRecovery : DiskPartition where
  handle := 2
  guid := copyAndSwapGuid recoveryGuid
  contents := memOf quietImage.encode

def oldPartitions : List DiskPartition :=
  [oldBoot, oldRecovery]

def oldTry : BootLogicEnv :=
  { secondTry with
    target := fun k =>
      { secondTry.target k with
        partition :=
          if k = 0 then corruptPartition
          else
            { smallPartition (memOf quietImage.encode) with
              load := { smallEnv with grownCommandLinePool := some [] } } } }

def oldStart : LoadEnd × LoadState :=
  Attempt.start ⟨1, Target.recovery⟩ oldTry (savedLine oldTry none)

theorem startBootLogic_starts_own_oldTry :
    exists pool, quietImage.Started (Attempt.partition ⟨1, Target.recovery⟩ oldTry) pool
      (Attempt.line ⟨1, Target.recovery⟩ oldTry (savedLine oldTry none)) {0x10, 0x11} 0x200000
      0x3000000 oldStart.2 := by
  have htried : attempts oldTry (savedLine oldTry none) 4 0 Target.boot =
      [⟨0, Target.boot⟩, ⟨1, Target.recovery⟩] := by
    decide +kernel
  have hends : oldStart.1 = LoadEnd.jumped 0x200000 0x3000000 := by decide +kernel
  have hrun : oldStart = (LoadEnd.jumped 0x200000 0x3000000, oldStart.2) := by
    rw [← hends]
  have hselected : selectedTarget oldTry = some Target.boot := by decide +kernel
  have hnone : NoNul none := by
    rintro _ ⟨⟩
  have hreads : forall attempt guid,
      attempt ∈ attempts oldTry (savedLine oldTry none) 4 0 Target.boot ->
        entryGuid attempt.target = some guid ->
          Reads (attempt.partition oldTry) (findingFirmware oldPartitions) guid oldPartitions := by
    intro attempt guid hmem hguid
    rw [htried] at hmem
    simp only [List.mem_cons, List.not_mem_nil, or_false] at hmem
    rcases hmem with rfl | rfl
    · cases hguid
      exact Reads.of_opened oldBoot (by decide) (by simp [oldPartitions, oldBoot, oldRecovery]) rfl
    · cases hguid
      exact Reads.of_opened oldRecovery (by decide)
        (by simp [oldPartitions, oldBoot, oldRecovery]) rfl
  have hstarts := (startBootLogic_starts_own hselected hnone (by rintro _ ⟨⟩; decide)
    (fun _ => findingFirmware_serves oldPartitions) hreads).2 ⟨1, Target.recovery⟩
    (by rw [htried]; simp) ⟨rfl, by decide⟩ _ _ _ hrun
  rcases hstarts with ⟨-, p, hown⟩
  rcases hown.own with ⟨guid, hguid, hfor⟩
  cases hguid
  have hp := hown.mem
  simp only [oldPartitions, List.mem_cons, List.not_mem_nil, or_false] at hp
  rcases hp with rfl | rfl
  · exact absurd hfor.stored (by unfold EfiGuid.StoredAs; decide)
  · rcases hown.started (by decide) quietImage (shows_memOf _) quietImage_hasSetup with
      ⟨pool, -, hstarted⟩
    exact ⟨pool, hstarted⟩

end Efilinux
end BootableUefi
