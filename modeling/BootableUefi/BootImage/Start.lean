import BootableUefi.BootImage.Memory

/-!
# Starting a boot image

`setup_command_line`, `setup_ramdisk`, `handover_kernel`,
`android_image_start_buffer` and `android_image_start_partition`.  A failure
carries the step it comes from beside the status the source returns.
-/

namespace BootableUefi
namespace BootImage

open Firmware Foundation

inductive LoadStep where
  | openPartition
  | readHeader
  | bootMagic
  | imagePool
  | readImage
  | bootFlag
  | setupVersion
  | signature
  | commandLinePool
  | commandLineGrowth
  | commandLinePages
  | ramdiskPages
  | ramdiskPlacement
  | kernelPages
  | notRelocatable
  | bootParams
  | descriptorTables
  | memoryMap
  | exitBootServices
  deriving DecidableEq, Repr

inductive LoadEnd where
  | failed (step : LoadStep) (status : EfiStatus)
  | divideError
  | jumped (kernelStart bootAddr : Nat)
  deriving DecidableEq, Repr

/-- `struct bootimg_hooks`: the hooks that are not NULL. -/
structure BootimgHooks where
  watchdog : Bool
  beforeExit : Bool
  beforeJump : Bool
  deriving DecidableEq, Repr

/-!
# The command line
-/

/-- The string that starts at the first of the bytes; a NUL follows the last one. -/
def cString (bytes : List UInt8) : List UInt8 :=
  bytes.takeWhile fun b => b ≠ 0

/-- `full_cmdline` after the copies from the header; the block keeps its other bytes. -/
def fullCommandLine (image : Mem) (block : List UInt8) : List UInt8 :=
  let first := bytesAt image cmdlineOffset (bootArgsSize - 1)
  if image (cmdlineOffset + bootArgsSize - 2) = 0 then
    first ++ block.drop (bootArgsSize - 1)
  else
    first ++ bytesAt image extraCmdlineOffset bootExtraArgsSize ++
      block.drop (bootArgsSize - 1 + bootExtraArgsSize)

def appended (full append : List UInt8) : List UInt8 :=
  bytesAt (memOf full) 0 (cString full).length ++ 0x20 :: append ++ [0]

/-- The end of `setup_command_line`, from `allocate_pages` on; NULL is not `0xA0000`. -/
def placeCommandLine (env : LoadEnv) (block : PoolBlock) (line : List UInt8)
    (s : LoadState) : Option (LoadStep × EfiStatus) × LoadState :=
  let buf := (aospHeader s.image).pageSize
  match allocatePages env AllocateType.maxAddress (sizeToPages (line.length + 1)) 0xA0000 s with
  | (EfiStatus.success, base, t) =>
      if base = 0 then
        (none, t.emit (LoadEvent.freePool block))
      else
        let t := t.emit (LoadEvent.writeLine base (line.length + 1))
        (none,
          { t.emit (LoadEvent.freePool block) with
            image := store 4 (buf + SetupHeader.cmdlineSize) (line.length + 1)
              (store 4 (buf + SetupHeader.cmdLinePtr) base t.image)
            commandLine := some (base, line) })
  | (status, _, t) =>
      (some (LoadStep.commandLinePages, status), t.emit (LoadEvent.freePool block))

/-- `setup_command_line`; `ReallocatePool` frees the old block in any case. -/
def setupCommandLine (env : LoadEnv) (append : Option (List UInt8)) (s : LoadState) :
    Option (LoadStep × EfiStatus) × LoadState :=
  let poolSize := bootArgsSize + bootExtraArgsSize
  match env.commandLinePool with
  | none => (some (LoadStep.commandLinePool, EfiStatus.outOfResources), s)
  | some block =>
      let full := fullCommandLine s.image block
      match append with
      | none => placeCommandLine env PoolBlock.fullCommandLine (cString full) s
      | some extra =>
          if env.arch.uintn ((cString full).length + extra.length + 2) < poolSize then
            placeCommandLine env PoolBlock.fullCommandLine (cString (appended full extra))
              (s.emit (LoadEvent.freePool PoolBlock.append))
          else
            let t := s.emit (LoadEvent.freePool PoolBlock.fullCommandLine)
            match env.grownCommandLinePool with
            | none => (some (LoadStep.commandLineGrowth, EfiStatus.outOfResources), t)
            | some grown =>
                let line := bytesAt (memOf (full.take poolSize ++ grown.drop poolSize)) 0
                  (cString full).length ++ 0x20 :: extra ++ [0]
                placeCommandLine env PoolBlock.grownCommandLine (cString line)
                  (t.emit (LoadEvent.freePool PoolBlock.append))

/-- The string at an address: the command line, where the loader has put it. -/
def stringAt (env : LoadEnv) (s : LoadState) (address : Nat) : List UInt8 :=
  match s.commandLine with
  | none => env.foreignString address
  | some (base, line) => if address = base then line else env.foreignString address

/-!
# The ramdisk
-/

def setupRamdisk (env : LoadEnv) (s : LoadState) :
    Option (LoadStep × EfiStatus) × LoadState :=
  let hdr := aospHeader s.image
  let buf := hdr.pageSize
  let rsize := hdr.ramdiskSize
  let s := { s with image := store 4 (buf + SetupHeader.ramdiskSize) rsize s.image }
  match emalloc env rsize 0x1000 s with
  | (Except.error status, t) => (some (LoadStep.ramdiskPages, status), t)
  | (Except.ok ramdiskAddr, t) =>
      if le32 t.image (buf + SetupHeader.initrdAddrMax) < env.arch.uintn ramdiskAddr then
        (some (LoadStep.ramdiskPlacement, EfiStatus.outOfResources), efree ramdiskAddr rsize t)
      else
        (none,
          { t.emit (LoadEvent.copy ImagePart.ramdisk hdr.ramdiskOffset rsize ramdiskAddr) with
            image := store 4 (buf + SetupHeader.ramdiskImage) ramdiskAddr t.image })

/-!
# The kernel
-/

/-- `setup_screen_info_from_gop`, after `screen_info` has been cleared. -/
def setupScreenInfo (gop : Option GopMode) (buf : Nat) (image : Mem) : Mem :=
  let cleared := store 0x40 buf 0 image
  match gop with
  | none => cleared
  | some mode =>
      store 2 (buf + 0x24) (mode.pixelsPerScanLine * 4)
        (store 2 (buf + 0x14) mode.verticalResolution
          (store 2 (buf + 0x12) mode.horizontalResolution
            (store 4 (buf + 0x1c) mode.frameBufferSize
              (store 4 (buf + 0x18) mode.frameBufferBase
                (store 1 (buf + 0x0f) 0x70 cleared)))))

def LoadState.emitIf (cond : Bool) (event : LoadEvent) (s : LoadState) : LoadState :=
  if cond then s.emit event else s

def gdtLimit : Nat :=
  0x800

/-- The label `out` of `handover_kernel`. -/
def abandonKernel (kernelStart ksize : Nat) (step : LoadStep) (status : EfiStatus)
    (s : LoadState) : LoadEnd × LoadState :=
  (LoadEnd.failed step status, efree kernelStart ksize s)

/-- The last part of `handover_kernel`, from the hooks on. -/
def leaveFirmware (env : LoadEnv) (watchdogEn : Bool) (hooks : Option BootimgHooks)
    (kernelStart ksize bootAddr : Nat) (s : LoadState) : LoadEnd × LoadState :=
  let s := s.emitIf (watchdogEn && hooks.any fun h => h.watchdog) LoadEvent.watchdog
  let s := s.emitIf (hooks.any fun h => h.beforeExit) LoadEvent.beforeExit
  let t := { s with mapCalls := s.mapCalls + 1 }
  match memoryMap (env.mapReplies s.mapCalls) with
  | Except.error status => abandonKernel kernelStart ksize LoadStep.memoryMap status t
  | Except.ok _ =>
      if env.exitBootServices ≠ EfiStatus.success then
        abandonKernel kernelStart ksize LoadStep.exitBootServices env.exitBootServices t
      else
        (LoadEnd.jumped kernelStart bootAddr,
          t.emitIf (hooks.any fun h => h.beforeJump) LoadEvent.beforeJump)

/-- The middle of `handover_kernel`: what follows once the kernel has its pages. -/
def loadKernel (env : LoadEnv) (watchdogEn : Bool) (hooks : Option BootimgHooks)
    (buf source ksize kernelStart : Nat) (s : LoadState) : LoadEnd × LoadState :=
  if byteAt s.image (buf + SetupHeader.relocatableKernel) = 0 ∧
      kernelStart ≠ le64 s.image (buf + SetupHeader.prefAddress) then
    abandonKernel kernelStart ksize LoadStep.notRelocatable EfiStatus.loadError s
  else
    let s := s.emit (LoadEvent.copy ImagePart.kernel source ksize (env.arch.uintn kernelStart))
    match allocatePages env AllocateType.maxAddress (sizeToPages 16384) 0x3fffffff s with
    | (EfiStatus.success, bootAddr, t) =>
        match emalloc env gdtLimit 8 (t.emit (LoadEvent.bootParams buf bootAddr)) with
        | (Except.error status, u) =>
            abandonKernel kernelStart ksize LoadStep.descriptorTables status u
        | (Except.ok _, u) => leaveFirmware env watchdogEn hooks kernelStart ksize bootAddr u
    | (status, _, t) => abandonKernel kernelStart ksize LoadStep.bootParams status t

/-- `handover_kernel`: pages at the preferred address, or anywhere, and then the rest. -/
def handoverKernel (env : LoadEnv) (watchdogEn : Bool) (hooks : Option BootimgHooks)
    (s : LoadState) : LoadEnd × LoadState :=
  let buf := (aospHeader s.image).pageSize
  let source := buf + setupSize s.image buf
  let ksize := kernelCopySize s.image buf
  let prefAddress := le64 s.image (buf + SetupHeader.prefAddress)
  let initSize := le32 s.image (buf + SetupHeader.initSize)
  let image := setupScreenInfo env.gop buf (store 1 (buf + SetupHeader.typeOfLoader) 0xff s.image)
  let s := { s with image := image }
  match allocatePages env AllocateType.address (sizeToPages initSize) prefAddress s with
  | (EfiStatus.success, kernelStart, t) =>
      loadKernel env watchdogEn hooks buf source ksize kernelStart t
  | (_, _, t) =>
      match emalloc env initSize (le32 t.image (buf + SetupHeader.kernelAlignment)) t with
      | (Except.error status, u) => (LoadEnd.failed LoadStep.kernelPages status, u)
      | (Except.ok kernelStart, u) =>
          loadKernel env watchdogEn hooks buf source ksize kernelStart u

/-!
# Starting an image
-/

def outBootimage (ending : LoadEnd) (s : LoadState) : LoadEnd × LoadState :=
  (ending, s.emit (LoadEvent.freePool PoolBlock.bootImage))

/-- The label `out_cmdline`: the second argument of `free_pages` is a length in bytes. -/
def outCmdline (env : LoadEnv) (buf : Nat) (ending : LoadEnd) (s : LoadState) :
    LoadEnd × LoadState :=
  let cmdLinePtr := le32 s.image (buf + SetupHeader.cmdLinePtr)
  if cmdLinePtr = 0 then
    outBootimage ending s
  else
    outBootimage ending (freePages cmdLinePtr ((stringAt env s cmdLinePtr).length + 1) s)

/-- `strstr`, for a needle that is not empty. -/
def strstr (haystack needle : List UInt8) : Bool :=
  haystack.tails.any fun tail => needle.isPrefixOf tail

def setupHdr : Nat :=
  0x53726448

/-- `watchdog_en`: the command line does not disable the watchdog. -/
def watchdogEnabled (env : LoadEnv) (buf : Nat) (s : LoadState) : Bool :=
  let cmdLinePtr := le32 s.image (buf + SetupHeader.cmdLinePtr)
  !(cmdLinePtr != 0 && strstr (stringAt env s cmdLinePtr) (ascii "disable_kernel_watchdog=1"))

/-- `android_image_start_buffer`, after the image has passed its checks. -/
def startVerified (env : LoadEnv) (append : Option (List UInt8)) (hooks : Option BootimgHooks)
    (buf : Nat) (s : LoadState) : LoadEnd × LoadState :=
  match setupCommandLine env append s with
  | (some (step, status), t) => outBootimage (LoadEnd.failed step status) t
  | (none, t) =>
      match setupRamdisk env t with
      | (some (step, status), u) => outCmdline env buf (LoadEnd.failed step status) u
      | (none, u) =>
          match handoverKernel env (watchdogEnabled env buf u) hooks u with
          | (LoadEnd.failed step status, v) =>
              outCmdline env buf (LoadEnd.failed step status)
                (efree (le32 v.image (buf + SetupHeader.ramdiskImage))
                  (le32 v.image (buf + SetupHeader.ramdiskSize)) v)
          | (ending, v) => (ending, v)

/-- `android_image_start_buffer`. -/
def startBuffer (env : LoadEnv) (append : Option (List UInt8)) (hooks : Option BootimgHooks)
    (s : LoadState) : LoadEnd × LoadState :=
  let hdr := aospHeader s.image
  let buf := hdr.pageSize
  if le16 s.image (buf + SetupHeader.bootFlag) ≠ 0xAA55 then
    outBootimage (LoadEnd.failed LoadStep.bootFlag EfiStatus.invalidParameter) s
  else if le32 s.image (buf + SetupHeader.header) ≠ setupHdr then
    outBootimage (LoadEnd.failed LoadStep.setupVersion EfiStatus.invalidParameter) s
  else if hdr.pageSize = 0 then
    (LoadEnd.divideError, s)
  else
    -- `verify_boot_image`
    let sigOffset := hdr.bootimageSize env.arch false
    let status := env.checkSignature s.image sigOffset sigOffset hdr.sigSize
    let t := s.emit (LoadEvent.checkSignature sigOffset sigOffset hdr.sigSize)
    if status ≠ EfiStatus.success then
      outBootimage (LoadEnd.failed LoadStep.signature status) t
    else
      startVerified env append hooks buf t

structure PartitionEnv where
  load : LoadEnv
  openPartition : EfiStatus
  /-- What `ReadDisk` returns for the header, and for the whole image. -/
  readHeader : EfiStatus
  readImage : EfiStatus
  disk : Mem
  /-- Memory from the start of the pool block for the image on, or NULL. -/
  imagePool : Option Mem

namespace PartitionEnv

variable (env : PartitionEnv)

def imgSize : Nat :=
  u32 ((aospHeader env.disk).bootimageSize env.load.arch true)

/-- Memory from `bootimage` on, once the image has been read. -/
def loadedImage (pool : Mem) : Mem :=
  ByteWrite.apply { offset := 0, size := env.imgSize, data := env.disk } pool

def loadedState (pool : Mem) (used : Finset Nat) : LoadState :=
  (LoadState.enter (env.loadedImage pool) used).emit (LoadEvent.readImage env.imgSize)

end PartitionEnv

/-- `android_image_start_partition`. -/
def startPartition (env : PartitionEnv) (append : Option (List UInt8))
    (hooks : Option BootimgHooks) (used : Finset Nat) : LoadEnd × LoadState :=
  let s := LoadState.enter (fun _ => 0) used
  if env.openPartition ≠ EfiStatus.success then
    (LoadEnd.failed LoadStep.openPartition env.openPartition, s)
  else if env.readHeader ≠ EfiStatus.success then
    (LoadEnd.failed LoadStep.readHeader env.readHeader, s)
  else if bytesAt env.disk 0 8 ≠ bootMagic then
    (LoadEnd.failed LoadStep.bootMagic EfiStatus.invalidParameter, s)
  else if (aospHeader env.disk).pageSize = 0 then
    (LoadEnd.divideError, s)
  else
    match env.imagePool with
    | none => (LoadEnd.failed LoadStep.imagePool EfiStatus.outOfResources, s)
    | some pool =>
        if env.readImage ≠ EfiStatus.success then
          outBootimage (LoadEnd.failed LoadStep.readImage env.readImage) s
        else
          match startBuffer env.load append hooks (env.loadedState pool used) with
          | (LoadEnd.failed step status, t) => outBootimage (LoadEnd.failed step status) t
          | (ending, t) => (ending, t)

/-!
# A small image

Pages of 4096 bytes and a kernel with one setup sector, to be run at 2 MiB.
-/

/-- An image with the given section sizes and no signature; the other bytes are zero. -/
def smallImage (kernelSize ramdiskSize secondSize : Nat) : Mem :=
  [(0, 8, 0x2144494f52444e41), (8, 4, kernelSize), (16, 4, ramdiskSize), (24, 4, secondSize),
    (36, 4, 0x1000), (0x11fe, 2, 0xAA55), (0x1202, 4, setupHdr), (0x122c, 4, 0x7fffffff),
    (0x1230, 4, 0x1000), (0x1234, 1, 1), (0x1258, 8, 0x200000), (0x1260, 4, 0x1000)].foldl
      (fun image field => store field.2.1 field.1 field.2.2 image) fun _ => 0

/-- Firmware with free memory between 1 MiB and 17 MiB that grants every request. -/
def smallEnv : LoadEnv where
  arch := Arch.x64
  pageAnswer := fun n =>
    { status := EfiStatus.success, base := if n = 0 then 0x8000 else 0x3000000 }
  mapReplies := fun n =>
    [{ status := EfiStatus.success
       descriptors := [{ type := 7
                         physicalStart := if n = 0 then 0x100000 else 0x300000
                         numberOfPages := 0x100 }] }]
  commandLinePool := some []
  grownCommandLinePool := none
  foreignString := fun _ => []
  checkSignature := fun _ _ _ _ => EfiStatus.success
  gop := none
  exitBootServices := EfiStatus.success

def smallPartition (disk : Mem) : PartitionEnv where
  load := smallEnv
  openPartition := EfiStatus.success
  readHeader := EfiStatus.success
  readImage := EfiStatus.success
  disk := disk
  imagePool := some fun _ => 0

end BootImage
end BootableUefi
