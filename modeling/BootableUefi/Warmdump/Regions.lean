import BootableUefi.Firmware.Status
import BootableUefi.Foundation.Files
import BootableUefi.Foundation.Runs
import BootableUefi.BootImage.Header
import BootableUefi.BootLogic.Targets

/-!
# Regions saved over a warm reset

`warmdump.c` and the file functions of `uefi_utils.c` it calls.  A boot after a
kernel watchdog saves two regions of memory in files of the boot partition; any
other boot copies the files back and deletes them.  What the firmware answers
is an input, and so is the memory of each boot.
-/

namespace BootableUefi
namespace Warmdump

open Firmware Foundation
open BootImage (bytesAt)
open BootLogic (ResetSource)

inductive ResetType where
  | notApplicable
  | warmReset
  | coldReset
  | globalReset
  | other (value : Nat)
  deriving DecidableEq, Repr

/-!
# Files
-/

/-- What the firmware answers to `uefi_write_file`; `written` counts when `Write` fails. -/
structure WriteAnswers where
  openVolume : EfiStatus
  openFile : EfiStatus
  write : EfiStatus
  written : Nat

def WriteAnswers.opens (answers : WriteAnswers) : Bool :=
  !efiError answers.openVolume && !efiError answers.openFile

def uefiWriteFile (answers : WriteAnswers) (file : Option (List UInt8)) (data : List UInt8) :
    EfiStatus × Nat × Option (List UInt8) :=
  if efiError answers.openVolume then (answers.openVolume, data.length, file)
  else if efiError answers.openFile then (answers.openFile, data.length, file)
  else
    let written := if efiError answers.write then min answers.written data.length
      else data.length
    (answers.write, written, some (overwrite (file.getD []) (data.take written)))

/--
What the firmware answers to `uefi_read_file`.  `stray` is what the caller's
buffer pointer and size describe before the call, neither being initialised.
-/
structure ReadAnswers where
  openVolume : EfiStatus
  openFile : EfiStatus
  infoPool : Bool
  getInfo : EfiStatus
  dataPool : Bool
  read : EfiStatus
  stray : List UInt8

/-- What `uefi_read_file` hands back, and what `Read` writes outside the pool. -/
structure FileRead where
  status : EfiStatus
  data : List UInt8
  writes : List ByteWrite

/-- `Read` of a regular file never answers that the buffer is too small. -/
def uefiReadFile (answers : ReadAnswers) (file : Option (List UInt8)) : FileRead :=
  if efiError answers.openVolume then ⟨answers.openVolume, answers.stray, []⟩
  else match file with
    | none => ⟨EfiStatus.notFound, answers.stray, []⟩
    | some contents =>
        if efiError answers.openFile then ⟨answers.openFile, answers.stray, []⟩
        -- the status of `Open` is returned, with nothing read
        else if !answers.infoPool then ⟨EfiStatus.success, answers.stray, []⟩
        else if efiError answers.getInfo then ⟨answers.getInfo, answers.stray, []⟩
        else if efiError answers.read then ⟨answers.read, contents, []⟩
        -- the missing pool is not noticed: the file is read to address 0
        else if !answers.dataPool then ⟨EfiStatus.success, contents, [storeAt 0 contents]⟩
        else ⟨EfiStatus.success, contents, []⟩

structure ExistAnswers where
  openVolume : EfiStatus
  openFile : EfiStatus

def uefiExistFileRoot (answers : ExistAnswers) (file : Option (List UInt8)) : Bool :=
  !efiError answers.openVolume && file.isSome && !efiError answers.openFile

/-- `deleted` is false for the warning that the file could not be deleted. -/
structure DeleteAnswers where
  openVolume : EfiStatus
  openFile : EfiStatus
  deleted : Bool

def uefiDeleteFile (answers : DeleteAnswers) (file : Option (List UInt8)) :
    Option (List UInt8) :=
  if efiError answers.openVolume || efiError answers.openFile || !answers.deleted then file
  else none

structure FileAnswers where
  write : WriteAnswers
  exist : ExistAnswers
  read : ReadAnswers
  delete : DeleteAnswers

/-!
# A region and its file
-/

structure Backup where
  size : Nat
  saved : List UInt8

/--
One call of `inject_file_ram`: what it is given, the answers of the firmware to it,
the memory it starts from and the latest backup, and what it returns and writes.
-/
structure Restore where
  addr : Nat
  size : Nat
  backup : Option Backup
  answers : ReadAnswers
  before : Mem
  status : EfiStatus
  writes : List ByteWrite

def Restore.after (r : Restore) : Mem :=
  applyAll r.writes r.before

/-- A region's file, the latest backup made to it and the restores made from it. -/
structure SavedRegion where
  file : Option (List UInt8)
  backup : Option Backup
  restores : List Restore

def SavedRegion.start (file : Option (List UInt8)) : SavedRegion where
  file := file
  backup := none
  restores := []

def dataWriteToFile (answers : WriteAnswers) (ram : Mem) (addr size : Nat)
    (s : SavedRegion) : EfiStatus × SavedRegion :=
  let data := bytesAt ram addr size
  let (status, _, file) := uefiWriteFile answers s.file data
  let backup := if answers.opens then some { size := size, saved := data } else s.backup
  (status, { s with file := file, backup := backup })

/-- The region's size takes no part: it is only compared for a log message. -/
def injectFileRam (answers : ReadAnswers) (file : Option (List UInt8)) (addr : Nat) :
    EfiStatus × List ByteWrite :=
  let read := uefiReadFile answers file
  if efiError read.status then (read.status, read.writes)
  else (read.status, read.writes ++ [storeAt addr read.data])

/-- The common end of `lm_restore` and `pstore_restore`. -/
def injectAndDelete (answers : FileAnswers) (ram : Mem) (addr size : Nat) (s : SavedRegion) :
    Mem × SavedRegion :=
  let (status, writes) := injectFileRam answers.read s.file addr
  let restore : Restore :=
    { addr := addr, size := size, backup := s.backup, answers := answers.read,
      before := ram, status := status, writes := writes }
  let file := if efiError status then s.file else uefiDeleteFile answers.delete s.file
  (restore.after, { s with file := file, restores := restore :: s.restores })

/-!
# One boot
-/

structure Boot where
  arch : Arch
  resetType : ResetType
  resetSource : ResetSource
  wdColdReset : Int
  espFs : EfiStatus
  backupDirExists : Bool
  createDirectory : EfiStatus
  biosConfig : UInt32
  lmMemDepth : UInt32
  lmStorMemBarH : UInt32
  lmStorMemBarL : UInt32
  pstoreAddrVar : Option Mem
  pstoreSizeVar : Option Mem
  ram : Mem
  lmFile : FileAnswers
  pstoreFile : FileAnswers

def needBackup (boot : Boot) : Bool :=
  if boot.wdColdReset = 1 then false
  else boot.resetType = ResetType.warmReset ∧ boot.resetSource = ResetSource.kernelWatchdog

def lmPdmMode : UInt32 := 3

def lmGetPdmDfxSetting (boot : Boot) : UInt32 :=
  (boot.biosConfig &&& 0x00030000) >>> 16

/-- Address and size; the region starts after the current buffer. -/
def lmGetBackupData (boot : Boot) : Nat × Nat :=
  let size := boot.lmMemDepth <<< 13
  let output := (boot.lmStorMemBarH.toUInt64 <<< 32) ||| boot.lmStorMemBarL.toUInt64
  (boot.arch.uintn (output + size.toUInt64).toNat, size.toNat)

def pstoreGetBuffer (boot : Boot) : Option (Nat × Nat) :=
  match boot.pstoreAddrVar with
  | none => none
  | some addrVar =>
      match boot.pstoreSizeVar with
      | none => none
      | some sizeVar =>
          some (boot.arch.uintn (le64 addrVar 0), boot.arch.uintn (le64 sizeVar 0))

def persistentRamSig : Nat := 0x43474244

def isPstoreRamInRam (ram : Mem) (addr : Nat) : Bool :=
  le32 ram addr = persistentRamSig

def lmBackup (boot : Boot) (s : SavedRegion) : SavedRegion :=
  if lmGetPdmDfxSetting boot = lmPdmMode then
    let (addr, size) := lmGetBackupData boot
    if addr ≠ 0 ∧ size ≠ 0 then
      (dataWriteToFile boot.lmFile.write boot.ram addr size s).2
    else s
  else s

def lmRestore (boot : Boot) (ram : Mem) (s : SavedRegion) : Mem × SavedRegion :=
  if uefiExistFileRoot boot.lmFile.exist s.file then
    let (addr, size) := lmGetBackupData boot
    injectAndDelete boot.lmFile ram addr size s
  else (ram, s)

def pstoreBackup (boot : Boot) (s : SavedRegion) : SavedRegion :=
  match pstoreGetBuffer boot with
  | none => s
  | some (addr, size) =>
      if isPstoreRamInRam boot.ram addr then
        (dataWriteToFile boot.pstoreFile.write boot.ram addr size s).2
      else s

def pstoreRestore (boot : Boot) (ram : Mem) (s : SavedRegion) : Mem × SavedRegion :=
  match pstoreGetBuffer boot with
  | none => (ram, s)
  | some (addr, size) =>
      if uefiExistFileRoot boot.pstoreFile.exist s.file then
        injectAndDelete boot.pstoreFile ram addr size s
      else (ram, s)

structure Esp where
  lm : SavedRegion
  pstore : SavedRegion

def Esp.start (lmFile pstoreFile : Option (List UInt8)) : Esp where
  lm := SavedRegion.start lmFile
  pstore := SavedRegion.start pstoreFile

def efiMain (boot : Boot) (s : Esp) : Esp :=
  if efiError boot.espFs then s
  else if !boot.backupDirExists && efiError boot.createDirectory then s
  else if needBackup boot then
    { lm := lmBackup boot s.lm, pstore := pstoreBackup boot s.pstore }
  else
    let (ram, lm) := lmRestore boot boot.ram s.lm
    let (_, pstore) := pstoreRestore boot ram s.pstore
    { lm := lm, pstore := pstore }

def step (s : Esp) (boot : Boot) : Option Esp :=
  some (efiMain boot s)

end Warmdump
end BootableUefi
