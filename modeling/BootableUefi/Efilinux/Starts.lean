import BootableUefi.BootImage.Start
import BootableUefi.BootLogic.Effects
import BootableUefi.Efilinux.Main

/-!
# Starting an image from the entry point

The cases of the `switch` in `efi_main`: an image from a file, a partition, a
target or memory, and the boot logic.  Each start of an image is numbered, and
has pool blocks of its own besides the command lines that are passed down.
-/

namespace BootableUefi
namespace Efilinux

open Firmware Foundation
open BootImage (PoolBlock LoadEvent LoadEnd LoadState LoadEnv PartitionEnv BootimgHooks
  aospHeader startBuffer startPartition)
open BootLogic (Target BattLevel Config BootInputs EfiVariables getTargetEntry targetFromInputs
  selectionState emFallbackTarget fallbackTarget attemptsAfter attemptsAfter_emFallbackTarget_le
  attemptsAfter_fallbackTarget_lt)

def x86Hooks : Option BootimgHooks :=
  some { watchdog := true, beforeExit := true, beforeJump := true }

def useBlock (block : Block) : MainEvent :=
  MainEvent.memory (BlockEvent.use block)

def freeBlock (block : Block) : MainEvent :=
  MainEvent.memory (BlockEvent.free block)

/-- A block of a start; the line that is appended may come from the caller. -/
def blockOf (start : Nat) (append : Block) : PoolBlock -> Block
  | PoolBlock.append => append
  | block => Block.inStart start block

/-- A line is last read where it is freed; the image is read at every other step. -/
def ofLoadEvent (start : Nat) (append : Block) : LoadEvent -> List MainEvent
  | LoadEvent.freePool PoolBlock.bootImage =>
      [freeBlock (Block.inStart start PoolBlock.bootImage)]
  | LoadEvent.freePool block =>
      [useBlock (blockOf start append block), freeBlock (blockOf start append block)]
  | LoadEvent.watchdog => []
  | LoadEvent.beforeExit => [MainEvent.hookBeforeExit]
  | LoadEvent.beforeJump => []
  | _ => [useBlock (Block.inStart start PoolBlock.bootImage)]

def returnStatus : LoadEnd -> Option EfiStatus
  | LoadEnd.failed _ status => some status
  | _ => none

def ofStart (start : Nat) (append : Block) (result : LoadEnd × LoadState) : Load where
  events := result.2.log.flatMap (ofLoadEvent start append)
  status := returnStatus result.1

def Load.returned (status : EfiStatus) : Load where
  events := []
  status := some status

def Load.prepend (events : List MainEvent) (load : Load) : Load :=
  { load with events := events ++ load.events }

/-!
# From a file
-/

structure FileEnv where
  load : LoadEnv
  /-- `FileDevicePath` finds memory. -/
  path : Bool
  handleProtocol : EfiStatus
  openVolume : EfiStatus
  openFile : EfiStatus
  infoPool : Bool
  getInfo : EfiStatus
  infoPoolAgain : Bool
  getInfoAgain : EfiStatus
  imagePool : Option Mem
  read : EfiStatus
  imagePoolAgain : Option Mem
  readAgain : EfiStatus
  /-- The number of bytes `Read` leaves in `buffersize`. -/
  readSize : Nat
  contents : Mem
  used : Finset Nat

namespace FileEnv

variable (env : FileEnv)

def infoStatus : EfiStatus :=
  if env.getInfo = EfiStatus.bufferTooSmall then
    if env.infoPoolAgain then env.getInfoAgain else EfiStatus.outOfResources
  else env.getInfo

def loadedImage (pool : Mem) : Mem :=
  ByteWrite.apply { offset := 0, size := env.readSize, data := env.contents } pool

/-- `bsize - buffersize`, in `UINTN`. -/
def missingBytes (image : Mem) : Nat :=
  env.load.arch.uintn ((aospHeader image).bootimageSize env.load.arch true +
    (2 ^ env.load.arch.uintnBits - env.load.arch.uintn env.readSize))

end FileEnv

/-- The end of `android_image_start_file`, from the last `Read` on. -/
def startRead (env : FileEnv) (start : Nat) (append : Option (List UInt8)) (pool : Mem)
    (status : EfiStatus) : Load :=
  let image := env.loadedImage pool
  let block := Block.inStart start PoolBlock.bootImage
  if status ≠ EfiStatus.success then
    { events := [freeBlock block], status := some status }
  else if (aospHeader image).pageSize = 0 then
    -- the division in `bootimage_size`
    { events := [useBlock block], status := none }
  else if (aospHeader image).sigSize < env.missingBytes image then
    { events := [useBlock block, freeBlock block], status := some EfiStatus.invalidParameter }
  else
    let result := startBuffer env.load append x86Hooks (LoadState.enter image env.used)
    let load := ofStart start Block.commandLine result
    { load with
      events := load.events ++ if load.status.isSome then [freeBlock block] else [] }

/-- `android_image_start_file`, from the allocation of the image on. -/
def readImage (env : FileEnv) (start : Nat) (append : Option (List UInt8)) : Load :=
  match env.imagePool with
  | none => Load.returned EfiStatus.outOfResources
  | some pool =>
      if env.read = EfiStatus.bufferTooSmall then
        let first := [useBlock (Block.firstImage start), freeBlock (Block.firstImage start)]
        match env.imagePoolAgain with
        | none => (Load.returned EfiStatus.outOfResources).prepend first
        | some again => (startRead env start append again env.readAgain).prepend first
      else startRead env start append pool env.read

/-- `android_image_start_file`; the blocks for the file information are left out. -/
def startFile (env : FileEnv) (start : Nat) (append : Option (List UInt8)) : Load :=
  if !env.path then Load.returned EfiStatus.invalidParameter
  else if env.handleProtocol ≠ EfiStatus.success then Load.returned env.handleProtocol
  else if env.openVolume ≠ EfiStatus.success then Load.returned env.openVolume
  else if env.openFile ≠ EfiStatus.success then Load.returned env.openFile
  else if !env.infoPool then Load.returned EfiStatus.outOfResources
  else if env.infoStatus ≠ EfiStatus.success then Load.returned env.infoStatus
  else readImage env start append

/-!
# From a target
-/

/-- `append_strings`: the strings with a space between them, in a new block if there is one. -/
def appendStrings (pool : Bool) (s1 s2 : Option (List UInt8)) : Option (List UInt8) :=
  match s1, s2 with
  | none, none => none
  | some first, none => if pool then some first else none
  | none, some second => if pool then some second else none
  | some first, some second => if pool then some (first ++ 0x20 :: second) else none

def entryCmdline : Target -> Option (List UInt8)
  | Target.boot => some (ascii "androidboot.mode=main")
  | Target.recovery => some (ascii "androidboot.mode=fota")
  | Target.fastboot => some (ascii "androidboot.mode=fastboot")
  | Target.test => some (ascii "androidboot.mode=test")
  | Target.charging => some (ascii "androidboot.mode=charger")
  | Target.factory => some (ascii "androidboot.mode=factory")
  | Target.factory2 => some (ascii "androidboot.mode=factory2")
  | _ => none

structure TargetEnv where
  appendPool : Bool
  partition : PartitionEnv
  used : Finset Nat
  /-- What `intel_go_to_rescue_mode` returns, unless it resets. -/
  rescueMode : Option EfiStatus

/-- `intel_load_target`; `reads` are the reads of the line it is given. -/
def loadTarget (env : TargetEnv) (factoryModes : Bool) (start : Nat) (target : Target)
    (cmdline : Option (List UInt8)) (reads : List MainEvent) : Load :=
  match getTargetEntry factoryModes target with
  | none => Load.returned EfiStatus.unsupported
  | some _ =>
      if target = Target.dnx then { events := [], status := env.rescueMode }
      else
        let updated := appendStrings env.appendPool cmdline (entryCmdline target)
        (ofStart start (Block.inStart start PoolBlock.append)
          (startPartition env.partition updated x86Hooks env.used)).prepend reads

/-!
# The boot logic
-/

/-- A `CHAR8 *`: NULL, or a pool block and the string in it. -/
abbrev Line := Option (Block × List UInt8)

def Line.text (line : Line) : Option (List UInt8) :=
  line.map Prod.snd

def Line.uses (line : Line) : List MainEvent :=
  line.toList.map fun found => useBlock found.1

def Line.frees (line : Line) : List MainEvent :=
  line.toList.map fun found => freeBlock found.1

structure BootLogicEnv where
  cfg : Config
  inputs : BootInputs
  vars : EfiVariables
  runtimeSettings : Bool
  belowVbattfreqlmt : Bool
  batteryPool : Bool
  extraCmdline : Option (List UInt8)
  extraPool : Bool
  target : Nat -> TargetEnv

def checkVbattfreqlmt (env : BootLogicEnv) (cmdline : Line) : Line × List MainEvent :=
  if env.belowVbattfreqlmt then
    ((appendStrings env.batteryPool (some (ascii "battlow ")) cmdline.text).map
        fun text => (Block.batteryLine, text),
      cmdline.uses ++ cmdline.frees)
  else (cmdline, [])

def getExtraCmdline (env : BootLogicEnv) (cmdline : Line) : Line × List MainEvent :=
  let extra : Line := env.extraCmdline.map fun text => (Block.extraLine, text)
  ((appendStrings env.extraPool extra.text cmdline.text).map
      fun text => (Block.extendedLine, text),
    extra.uses ++ cmdline.uses ++ extra.frees ++ cmdline.frees)

/-- The command line, from `check_vbattfreqlmt` to `launch_or_fallback`. -/
def updateCmdline (env : BootLogicEnv) (cmdline : Line) : Line × List MainEvent :=
  let (checked, first) := checkVbattfreqlmt env cmdline
  if env.runtimeSettings then
    let (extended, second) := getExtraCmdline env checked
    (extended, first ++ second)
  else (checked, first)

/-- The loop of `launch_or_fallback`; the bound is never reached, see `launchLoop_bound`. -/
def launchLoop (env : BootLogicEnv) (saved : List UInt8) : Nat -> Nat -> Target -> Load
  | 0, _, _ => Load.returned EfiStatus.invalidParameter
  | bound + 1, k, target =>
      let target := emFallbackTarget (env.inputs.batteryLevel k)
        (env.inputs.isChargerPresent k) target
      if target = Target.coldOff then { events := [], status := none }
      else
        let attempt := loadTarget (env.target k) env.cfg.enableFactoryModes k target
          (some saved) []
        if attempt.status.isNone then attempt
        else if fallbackTarget target ≠ Target.unknown then
          (launchLoop env saved bound (k + 1) (fallbackTarget target)).prepend attempt.events
        else { attempt with status := some EfiStatus.invalidParameter }

/-- `launch_or_fallback`: the line is copied to the stack and freed. -/
def launchOrFallback (env : BootLogicEnv) (target : Target) (cmdline : Line) : Load :=
  (launchLoop env (cmdline.text.getD []) 4 0 target).prepend (cmdline.uses ++ cmdline.frees)

theorem launchLoop_bound (env : BootLogicEnv) (saved : List UInt8) (extra : Nat) :
    forall (bound k : Nat) (target : Target), attemptsAfter target < bound ->
      launchLoop env saved (bound + extra) k target = launchLoop env saved bound k target := by
  intro bound
  induction bound with
  | zero =>
      intro k target h
      omega
  | succ bound ih =>
      intro k target h
      rw [show bound + 1 + extra = (bound + extra) + 1 by omega]
      unfold launchLoop
      have hem := attemptsAfter_emFallbackTarget_le (env.inputs.batteryLevel k)
        (env.inputs.isChargerPresent k) target
      by_cases hnext : fallbackTarget (emFallbackTarget (env.inputs.batteryLevel k)
          (env.inputs.isChargerPresent k) target) = Target.unknown
      · simp [hnext]
      · have hlt := attemptsAfter_fallbackTarget_lt hnext
        have hrec := ih (k + 1) _ (Nat.lt_of_lt_of_le hlt (by omega))
        simp only [hrec]

theorem launchOrFallback_eq (env : BootLogicEnv) (target : Target) (cmdline : Line)
    (extra : Nat) :
    (launchLoop env (cmdline.text.getD []) (4 + extra) 0 target).prepend
        (cmdline.uses ++ cmdline.frees) =
      launchOrFallback env target cmdline := by
  unfold launchOrFallback
  rw [launchLoop_bound env _ extra 4 0 target (by cases target <;> decide)]

/-- `start_boot_logic`, from a command line in a block of `efi_main`. -/
def startBootLogic (env : BootLogicEnv) (cmdline : Option (List UInt8)) : Load :=
  match (targetFromInputs env.cfg env.inputs
      (selectionState env.cfg env.inputs env.vars)).1 with
  | none => { events := [], status := none }
  | some Target.error => Load.returned EfiStatus.success
  | some target =>
      let target := if target = Target.unknown then Target.boot else target
      let (updated, events) := updateCmdline env
        (cmdline.map fun text => (Block.commandLine, text))
      (launchOrFallback env target updated).prepend events

/-!
# The `switch`
-/

/-- What the options ask for; the name may be missing, unknown or no address. -/
inductive Request where
  | file (env : Option FileEnv)
  | target (factoryModes : Bool) (env : TargetEnv) (target : Option Target)
  | partition (env : Option PartitionEnv) (used : Finset Nat)
  | command
  | buffer (env : LoadEnv) (image : Option Mem) (used : Finset Nat)
  | bootLogic (env : BootLogicEnv)

def startRequested (request : Request) (cmdline : Option (List UInt8)) : Load :=
  match request with
  | Request.file none => Load.returned EfiStatus.success
  | Request.file (some env) => startFile env 0 cmdline
  | Request.target _ _ none => Load.returned EfiStatus.invalidParameter
  | Request.target factoryModes env (some target) =>
      let line : Line := cmdline.map fun text => (Block.commandLine, text)
      loadTarget env factoryModes 0 target cmdline line.uses
  | Request.partition none _ => Load.returned EfiStatus.invalidParameter
  | Request.partition (some env) used =>
      ofStart 0 Block.commandLine (startPartition env cmdline x86Hooks used)
  | Request.command => Load.returned EfiStatus.success
  | Request.buffer _ none _ => Load.returned EfiStatus.success
  | Request.buffer env (some image) used =>
      ofStart 0 Block.commandLine
        (startBuffer env cmdline x86Hooks (LoadState.enter image used))
  | Request.bootLogic env => startBootLogic env cmdline

end Efilinux
end BootableUefi
