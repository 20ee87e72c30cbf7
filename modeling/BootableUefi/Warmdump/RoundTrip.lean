import BootableUefi.Warmdump.Regions
import Mathlib.Data.List.Infix

/-!
# What a restore leaves in memory

A restore copies the file, however long, and a backup never shortens a file.
So a restore keeps to its region exactly when the file is not longer than the
region, and then a file that begins with a backup of the region's size is that
backup.
-/

namespace BootableUefi
namespace Warmdump

open Firmware Foundation
open BootImage (bytesAt)
open BootLogic (ResetSource)

def Restore.Contained (r : Restore) : Prop :=
  r.backup ≠ none -> forall w, w ∈ r.writes ->
    r.addr ≤ w.offset ∧ w.offset + w.size ≤ r.addr + r.size

def ReadAnswers.opens (answers : ReadAnswers) : Bool :=
  !efiError answers.openVolume && !efiError answers.openFile

def ReadAnswers.succeed (answers : ReadAnswers) : Bool :=
  answers.opens && !efiError answers.getInfo && !efiError answers.read

/--
After a backup of the same size, a restore ends without an error if the firmware
makes none; then the bytes of that backup are in the region.  Nothing else is
changed in any case.
-/
structure Restore.Returned (r : Restore) (b : Backup) : Prop where
  succeeds : r.answers.succeed = true -> efiError r.status = false
  region : efiError r.status = false -> bytesAt r.after r.addr r.size = b.saved
  outside : forall x, x < r.addr ∨ r.addr + r.size ≤ x -> r.after x = r.before x

def Restore.GivesBack (r : Restore) : Prop :=
  forall b, r.backup = some b -> b.size = r.size -> r.Returned b

def SavedRegion.Faithful (s : SavedRegion) : Prop :=
  forall r, r ∈ s.restores -> r.Contained ∧ r.GivesBack

/-- The file begins with the latest backup, which is as long as its region was. -/
def SavedRegion.BeginsWithBackup (s : SavedRegion) : Prop :=
  forall contents b, s.file = some contents -> s.backup = some b ->
    b.saved.length = b.size ∧ b.saved <+: contents

structure SavedRegion.Sound (s : SavedRegion) : Prop where
  file : s.BeginsWithBackup
  restores : s.Faithful

theorem SavedRegion.sound_start (file : Option (List UInt8)) :
    (SavedRegion.start file).Sound where
  file := by
    intro contents b _ hbackup
    cases hbackup
  restores := by
    intro r hr
    cases hr

/-!
# Conditions
-/

def WriteAnswers.Completes (answers : WriteAnswers) : Prop :=
  answers.opens = true -> answers.write = EfiStatus.success

instance (answers : WriteAnswers) : Decidable answers.Completes :=
  inferInstanceAs (Decidable (_ -> _))

/--
A file that is opened for reading finds the pool for its information, and one
that is read finds the pool for its contents and is not longer than the region.
-/
def ReadAnswers.Fits (answers : ReadAnswers) (size : Nat) (contents : List UInt8) : Prop :=
  answers.opens = true -> answers.infoPool = true ∧
    (answers.getInfo = EfiStatus.success -> answers.read = EfiStatus.success ->
      answers.dataPool = true ∧ contents.length ≤ size)

instance (answers : ReadAnswers) (size : Nat) (contents : List UInt8) :
    Decidable (answers.Fits size contents) :=
  inferInstanceAs (Decidable (_ -> _))

def SavedRegion.Fits (s : SavedRegion) (answers : FileAnswers) (size : Nat) : Prop :=
  s.backup.isSome = true -> s.file.isSome = true ->
    answers.read.Fits size (s.file.getD [])

instance (s : SavedRegion) (answers : FileAnswers) (size : Nat) :
    Decidable (s.Fits answers size) :=
  inferInstanceAs (Decidable (_ -> _))

/-!
# One region
-/

@[simp] theorem length_bytesAt (mem : Mem) (offset size : Nat) :
    (bytesAt mem offset size).length = size := by
  simp [bytesAt]

theorem uefiWriteFile_of_opens {answers : WriteAnswers} (h : answers.Completes)
    (hopens : answers.opens = true) (file : Option (List UInt8)) (data : List UInt8) :
    uefiWriteFile answers file data =
      (EfiStatus.success, data.length, some (overwrite (file.getD []) data)) := by
  have hwrite := h hopens
  simp only [WriteAnswers.opens, Bool.and_eq_true, Bool.not_eq_true'] at hopens
  have hsuccess : efiError EfiStatus.success = false := rfl
  simp [uefiWriteFile, hopens.1, hopens.2, hwrite, hsuccess]

theorem uefiWriteFile_of_not_opens {answers : WriteAnswers} (h : answers.opens = false)
    (file : Option (List UInt8)) (data : List UInt8) :
    (uefiWriteFile answers file data).2.2 = file := by
  unfold uefiWriteFile
  cases hvolume : efiError answers.openVolume with
  | true => rfl
  | false =>
      have hfile : efiError answers.openFile = true := by
        simpa [WriteAnswers.opens, hvolume] using h
      simp [hfile]

theorem dataWriteToFile_sound {answers : WriteAnswers} (h : answers.Completes) (ram : Mem)
    (addr size : Nat) {s : SavedRegion} (hs : s.Sound) :
    (dataWriteToFile answers ram addr size s).2.Sound := by
  refine ⟨?_, hs.restores⟩
  intro contents b hfile hbackup
  cases hopens : answers.opens with
  | true =>
      simp only [dataWriteToFile, uefiWriteFile_of_opens h hopens, hopens, if_true,
        Option.some.injEq] at hfile hbackup
      subst hfile
      subst hbackup
      exact ⟨length_bytesAt ram addr size, isPrefix_overwrite _ _⟩
  | false =>
      simp only [dataWriteToFile, uefiWriteFile_of_not_opens hopens, hopens,
        Bool.false_eq_true, if_false] at hfile hbackup
      exact hs.file contents b hfile hbackup

/-- What `inject_file_ram` does, given the pools, with a file that is not too long. -/
theorem injectFileRam_cases {answers : ReadAnswers} {size : Nat} {contents : List UInt8}
    (h : answers.Fits size contents) (addr : Nat) :
    (answers.succeed = false ∧
      efiError (injectFileRam answers (some contents) addr).1 = true ∧
        (injectFileRam answers (some contents) addr).2 = []) ∨
      contents.length ≤ size ∧
        injectFileRam answers (some contents) addr =
          (EfiStatus.success, [storeAt addr contents]) := by
  have hsuccess : efiError EfiStatus.success = false := rfl
  cases hvolume : efiError answers.openVolume with
  | true =>
      exact Or.inl (by simp [injectFileRam, uefiReadFile, ReadAnswers.succeed,
        ReadAnswers.opens, hvolume])
  | false =>
      cases hopen : efiError answers.openFile with
      | true =>
          exact Or.inl (by simp [injectFileRam, uefiReadFile, ReadAnswers.succeed,
            ReadAnswers.opens, hvolume, hopen])
      | false =>
          have hfits := h (by simp [ReadAnswers.opens, hvolume, hopen])
          cases hinfo : efiError answers.getInfo with
          | true =>
              exact Or.inl (by simp [injectFileRam, uefiReadFile, ReadAnswers.succeed, hvolume,
                hopen, hfits.1, hinfo])
          | false =>
              cases hread : efiError answers.read with
              | true =>
                  exact Or.inl (by simp [injectFileRam, uefiReadFile, ReadAnswers.succeed,
                    hvolume, hopen, hfits.1, hinfo, hread])
              | false =>
                  have hpool := hfits.2 (efiError_eq_false_iff.mp hinfo)
                    (efiError_eq_false_iff.mp hread)
                  refine Or.inr ⟨hpool.2, ?_⟩
                  simp [injectFileRam, uefiReadFile, hvolume, hopen, hfits.1, hinfo, hread,
                    hpool.1, hsuccess]

theorem Restore.contained_iff {r : Restore} {contents : List UInt8} (hbackup : r.backup ≠ none)
    (hwrites : r.writes = [storeAt r.addr contents]) :
    r.Contained <-> contents.length ≤ r.size := by
  constructor
  · intro h
    have hbounds := h hbackup (storeAt r.addr contents) (by rw [hwrites]; exact List.mem_cons_self ..)
    exact Nat.le_of_add_le_add_left hbounds.2
  · intro hle _ w hw
    rw [hwrites, List.mem_singleton] at hw
    rw [hw]
    exact ⟨Nat.le_refl _, Nat.add_le_add_left hle r.addr⟩

theorem bytesAt_storeAt (mem : Mem) (addr : Nat) (bytes : List UInt8) :
    bytesAt ((storeAt addr bytes).apply mem) addr bytes.length = bytes := by
  apply List.ext_getElem
  · exact length_bytesAt _ _ _
  · intro i _ hi
    simp only [bytesAt, List.getElem_map, List.getElem_range]
    exact apply_storeAt mem hi

/-- A restore that failed with the firmware, or one that copied a file that fits the region. -/
def Restore.CopiedFrom (r : Restore) (contents : List UInt8) : Prop :=
  (r.answers.succeed = false ∧ efiError r.status = true ∧ r.writes = []) ∨
    contents.length ≤ r.size ∧ (r.status, r.writes) = (EfiStatus.success, [storeAt r.addr contents])

theorem Restore.CopiedFrom.contained {r : Restore} {contents : List UInt8}
    (h : r.CopiedFrom contents) : r.Contained := by
  intro hbackup
  rcases h with ⟨-, -, hnone⟩ | ⟨hle, hcopied⟩
  · intro w hw
    rw [hnone] at hw
    cases hw
  · have hwrites : r.writes = [storeAt r.addr contents] := congrArg Prod.snd hcopied
    exact (Restore.contained_iff hbackup hwrites).mpr hle hbackup

theorem Restore.CopiedFrom.givesBack {r : Restore} {contents : List UInt8} {s : SavedRegion}
    (h : r.CopiedFrom contents) (hs : s.BeginsWithBackup) (hfile : s.file = some contents)
    (hbackup : r.backup = s.backup) : r.GivesBack := by
  intro b hb hsize
  rcases h with ⟨hfails, herror, hnone⟩ | ⟨hle, hcopied⟩
  · have hafter : r.after = r.before := by
      simp [Restore.after, hnone, applyAll]
    constructor
    · intro hsucceed
      rw [hfails] at hsucceed
      cases hsucceed
    · intro hsuccess
      rw [herror] at hsuccess
      cases hsuccess
    · intro x _
      rw [hafter]
  · have hstatus : r.status = EfiStatus.success := congrArg Prod.fst hcopied
    have hwrites : r.writes = [storeAt r.addr contents] := congrArg Prod.snd hcopied
    rw [hbackup] at hb
    have hbegins := hs contents b hfile hb
    have hwhole : b.saved = contents := by
      apply hbegins.2.eq_of_length_le
      rw [hbegins.1, hsize]
      exact hle
    have hlength : r.size = contents.length := by
      rw [← hsize, ← hbegins.1, hwhole]
    have hafter : r.after = (storeAt r.addr contents).apply r.before := by
      simp [Restore.after, hwrites, applyAll]
    constructor
    · intro _
      rw [hstatus]
      rfl
    · intro _
      rw [hafter, hwhole, hlength]
      exact bytesAt_storeAt r.before r.addr contents
    · rw [hafter, hlength]
      exact fun x hx => apply_storeAt_outside r.before hx

theorem Restore.faithful_of_copiedFrom {r : Restore} {contents : List UInt8} {s : SavedRegion}
    (hs : s.BeginsWithBackup) (hfile : s.file = some contents) (hbackup : r.backup = s.backup)
    (h : s.backup.isSome = true -> r.CopiedFrom contents) : r.Contained ∧ r.GivesBack := by
  cases hlatest : s.backup with
  | none =>
      rw [hlatest] at hbackup
      constructor
      · intro hsome
        exact absurd hbackup hsome
      · intro b hb
        rw [hbackup] at hb
        cases hb
  | some latest =>
      have hcopied := h (by rw [hlatest]; rfl)
      exact ⟨hcopied.contained, hcopied.givesBack hs hfile hbackup⟩

theorem uefiDeleteFile_cases (answers : DeleteAnswers) (file : Option (List UInt8)) :
    uefiDeleteFile answers file = file ∨ uefiDeleteFile answers file = none := by
  unfold uefiDeleteFile
  split
  · exact Or.inl rfl
  · exact Or.inr rfl

theorem injectAndDelete_cases (answers : FileAnswers) (ram : Mem) (addr size : Nat)
    (s : SavedRegion) :
    exists file, (file = s.file ∨ file = none) ∧
      (injectAndDelete answers ram addr size s).2 =
        { file := file
          backup := s.backup
          restores :=
            { addr := addr
              size := size
              backup := s.backup
              answers := answers.read
              before := ram
              status := (injectFileRam answers.read s.file addr).1
              writes := (injectFileRam answers.read s.file addr).2 } :: s.restores } := by
  refine ⟨_, ?_, rfl⟩
  split
  · exact Or.inl rfl
  · exact uefiDeleteFile_cases answers.delete s.file

theorem isSome_of_exists {answers : ExistAnswers} {file : Option (List UInt8)}
    (h : uefiExistFileRoot answers file = true) : file.isSome = true := by
  simp only [uefiExistFileRoot, Bool.and_eq_true] at h
  exact h.1.2

theorem injectAndDelete_sound {answers : FileAnswers} {size : Nat} {s : SavedRegion}
    (h : s.Fits answers size) (hexists : uefiExistFileRoot answers.exist s.file = true)
    (ram : Mem) (addr : Nat) (hs : s.Sound) :
    (injectAndDelete answers ram addr size s).2.Sound := by
  rcases Option.isSome_iff_exists.mp (isSome_of_exists hexists) with ⟨contents, hcontents⟩
  rcases injectAndDelete_cases answers ram addr size s with ⟨file, hfile, heq⟩
  rw [heq]
  constructor
  · intro kept b hkept hbackup
    rcases hfile with rfl | rfl
    · exact hs.file kept b hkept hbackup
    · cases hkept
  · intro r hr
    rcases List.mem_cons.mp hr with rfl | hold
    · apply Restore.faithful_of_copiedFrom hs.file hcontents rfl
      intro hsome
      have hfits := h hsome
      rw [hcontents] at hfits
      unfold Restore.CopiedFrom
      dsimp only
      rw [hcontents]
      exact injectFileRam_cases (hfits rfl) addr
    · exact hs.restores r hold

/-!
# Boots
-/

/-- The partition is found, and has its directory. -/
def Boot.ready (boot : Boot) : Bool :=
  !efiError boot.espFs && (boot.backupDirExists || !efiError boot.createDirectory)

def Boot.lmSaves (boot : Boot) : Bool :=
  lmGetPdmDfxSetting boot = lmPdmMode ∧
    (lmGetBackupData boot).1 ≠ 0 ∧ (lmGetBackupData boot).2 ≠ 0

def Boot.pstoreSaves (boot : Boot) : Bool :=
  match pstoreGetBuffer boot with
  | none => false
  | some (addr, _) => isPstoreRamInRam boot.ram addr

def Boot.PstoreFits (s : SavedRegion) (boot : Boot) : Prop :=
  forall region, region ∈ pstoreGetBuffer boot ->
    uefiExistFileRoot boot.pstoreFile.exist s.file = true -> s.Fits boot.pstoreFile region.2

instance (s : SavedRegion) (boot : Boot) : Decidable (boot.PstoreFits s) :=
  inferInstanceAs (Decidable (forall region, region ∈ pstoreGetBuffer boot -> _ -> _))

/--
A boot that saves is not cut short while writing; a boot that restores finds
its pools, and no file longer than the region it goes to.
-/
structure Boot.Fits (s : Esp) (boot : Boot) : Prop where
  lmSaves : boot.ready = true -> needBackup boot = true -> boot.lmSaves = true ->
    boot.lmFile.write.Completes
  pstoreSaves : boot.ready = true -> needBackup boot = true -> boot.pstoreSaves = true ->
    boot.pstoreFile.write.Completes
  lmRestores : boot.ready = true -> needBackup boot = false ->
    uefiExistFileRoot boot.lmFile.exist s.lm.file = true ->
      s.lm.Fits boot.lmFile (lmGetBackupData boot).2
  pstoreRestores : boot.ready = true -> needBackup boot = false -> boot.PstoreFits s.pstore

structure Esp.Sound (s : Esp) : Prop where
  lm : s.lm.Sound
  pstore : s.pstore.Sound

theorem lmBackup_sound {boot : Boot} (h : boot.lmSaves = true -> boot.lmFile.write.Completes)
    {s : SavedRegion} (hs : s.Sound) : (lmBackup boot s).Sound := by
  unfold lmBackup
  split
  · rename_i hmode
    dsimp only
    split
    · rename_i hbuffer
      have hsaves : boot.lmSaves = true := by
        unfold Boot.lmSaves
        exact decide_eq_true ⟨hmode, hbuffer⟩
      exact dataWriteToFile_sound (h hsaves) _ _ _ hs
    · exact hs
  · exact hs

theorem pstoreBackup_sound {boot : Boot}
    (h : boot.pstoreSaves = true -> boot.pstoreFile.write.Completes) {s : SavedRegion}
    (hs : s.Sound) : (pstoreBackup boot s).Sound := by
  unfold Boot.pstoreSaves at h
  unfold pstoreBackup
  cases hbuffer : pstoreGetBuffer boot with
  | none => exact hs
  | some region =>
      rw [hbuffer] at h
      dsimp only
      split
      · rename_i hsig
        exact dataWriteToFile_sound (h hsig) _ _ _ hs
      · exact hs

theorem lmRestore_sound {boot : Boot} {s : SavedRegion}
    (h : uefiExistFileRoot boot.lmFile.exist s.file = true ->
      s.Fits boot.lmFile (lmGetBackupData boot).2) (ram : Mem) (hs : s.Sound) :
    (lmRestore boot ram s).2.Sound := by
  unfold lmRestore
  split
  · rename_i hexists
    exact injectAndDelete_sound (h hexists) hexists ram _ hs
  · exact hs

theorem pstoreRestore_sound {boot : Boot} {s : SavedRegion} (h : boot.PstoreFits s)
    (ram : Mem) (hs : s.Sound) : (pstoreRestore boot ram s).2.Sound := by
  unfold pstoreRestore
  cases hbuffer : pstoreGetBuffer boot with
  | none => exact hs
  | some region =>
      dsimp only
      split
      · rename_i hexists
        exact injectAndDelete_sound (h region hbuffer hexists) hexists ram _ hs
      · exact hs

theorem efiMain_sound {boot : Boot} {s : Esp} (h : boot.Fits s) (hs : s.Sound) :
    (efiMain boot s).Sound := by
  unfold efiMain
  split
  · exact hs
  · rename_i hesp
    split
    · exact hs
    · rename_i hdirectory
      have hready : boot.ready = true := by
        unfold Boot.ready
        cases hexists : boot.backupDirExists with
        | true => simp [hesp]
        | false =>
            rw [hexists] at hdirectory
            simp only [Bool.not_false, Bool.true_and] at hdirectory
            simp [hesp, hdirectory]
      split
      · rename_i hneed
        exact ⟨lmBackup_sound (h.lmSaves hready hneed) hs.lm,
          pstoreBackup_sound (h.pstoreSaves hready hneed) hs.pstore⟩
      · rename_i hneed
        have hrestores : needBackup boot = false := by simpa using hneed
        exact ⟨lmRestore_sound (h.lmRestores hready hrestores) _ hs.lm,
          pstoreRestore_sound (h.pstoreRestores hready hrestores) _ hs.pstore⟩

section Runs

def allSucceed : FileAnswers where
  write := ⟨EfiStatus.success, EfiStatus.success, EfiStatus.success, 0⟩
  exist := ⟨EfiStatus.success, EfiStatus.success⟩
  read := ⟨EfiStatus.success, EfiStatus.success, true, EfiStatus.success, true,
    EfiStatus.success, []⟩
  delete := ⟨EfiStatus.success, EfiStatus.success, true⟩

/-- A boot after the given reset, its pstore region with the given contents at 0x1000. -/
def pstoreBoot (resetType : ResetType) (contents : List UInt8) : Boot where
  arch := Arch.x64
  resetType := resetType
  resetSource := ResetSource.kernelWatchdog
  wdColdReset := -1
  espFs := EfiStatus.success
  backupDirExists := true
  createDirectory := EfiStatus.success
  biosConfig := 0
  lmMemDepth := 0
  lmStorMemBarH := 0
  lmStorMemBarL := 0
  pstoreAddrVar := some (memOf [0x00, 0x10])
  pstoreSizeVar := some (memOf [UInt8.ofNat contents.length])
  ram := fun x => contents.getD (x - 0x1000) 0
  lmFile := allSucceed
  pstoreFile := allSucceed

def savedBytes : List UInt8 :=
  [0x44, 0x42, 0x47, 0x43, 1, 2, 3, 4]

def backedUp : Esp :=
  efiMain (pstoreBoot ResetType.warmReset savedBytes) (Esp.start none none)

def givenBack : Esp :=
  efiMain (pstoreBoot ResetType.coldReset (List.replicate 8 0)) backedUp

end Runs

end Warmdump
end BootableUefi
