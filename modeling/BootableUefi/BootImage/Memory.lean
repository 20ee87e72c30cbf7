import BootableUefi.BootImage.Header
import BootableUefi.Foundation.Pages

/-!
# Memory while an image is loaded

The firmware answers every request for pages: it may refuse, and what it hands
out is a run of free pages.  `allocate_pages`, `free_pages`, `memory_map`,
`emalloc` and `efree` act on a state that holds the boot image, the set of
firmware pages in use and the log of what the loader did.  A copy is logged with
its source; a copy that is longer than its destination is not given a meaning
beyond that.
-/

namespace BootableUefi
namespace BootImage

open Firmware Foundation

structure MemoryDescriptor where
  type : UInt32
  physicalStart : UInt64
  numberOfPages : UInt64
  deriving DecidableEq, Repr

def efiConventionalMemory : UInt32 :=
  7

/-- What the firmware says to one `AllocatePages`; the base is used where it may choose. -/
structure PageAnswer where
  status : EfiStatus
  base : Nat
  deriving DecidableEq, Repr

structure MapReply where
  status : EfiStatus
  descriptors : List MemoryDescriptor
  deriving DecidableEq, Repr

structure GopMode where
  frameBufferBase : Nat
  frameBufferSize : Nat
  horizontalResolution : Nat
  verticalResolution : Nat
  pixelsPerScanLine : Nat
  deriving DecidableEq, Repr

structure LoadEnv where
  arch : Arch
  pageAnswer : Nat -> PageAnswer
  /-- The replies to the attempts of the n-th `memory_map`, until no pool is left. -/
  mapReplies : Nat -> List MapReply
  /-- Memory from the start of the pool block for the command line on, or NULL. -/
  commandLinePool : Option (List UInt8)
  grownCommandLinePool : Option (List UInt8)
  /-- The string at an address the loader has not written to. -/
  foreignString : Nat -> List UInt8
  checkSignature : Mem -> Nat -> Nat -> Nat -> EfiStatus
  gop : Option GopMode
  exitBootServices : EfiStatus

inductive PoolBlock where
  | bootImage
  | append
  | fullCommandLine
  | grownCommandLine
  deriving DecidableEq, Repr

inductive ImagePart where
  | kernel
  | ramdisk
  deriving DecidableEq, Repr

inductive LoadEvent where
  /-- `AllocatePool` and `ReadDisk` of the whole image. -/
  | readImage (size : Nat)
  | checkSignature (size sigOffset sigSize : Nat)
  | copy (part : ImagePart) (source size destination : Nat)
  /-- The copy of the command line, with the NUL, to its pages. -/
  | writeLine (destination size : Nat)
  /-- `boot_params` is cleared and gets the first two sectors of the kernel. -/
  | bootParams (source destination : Nat)
  | allocatePages (run : PageRun)
  | freePages (run : PageRun)
  | freePool (block : PoolBlock)
  | watchdog
  | beforeExit
  | beforeJump
  deriving DecidableEq, Repr

structure LoadState where
  image : Mem
  used : Finset Nat
  commandLine : Option (Nat × List UInt8)
  pageCalls : Nat
  mapCalls : Nat
  log : List LoadEvent

def LoadState.emit (event : LoadEvent) (s : LoadState) : LoadState :=
  { s with log := s.log ++ [event] }

def LoadState.enter (image : Mem) (used : Finset Nat) : LoadState where
  image := image
  used := used
  commandLine := none
  pageCalls := 0
  mapCalls := 0
  log := []

inductive AllocateType where
  | maxAddress
  | address
  deriving DecidableEq, Repr

/-- Where the run is taken from: at the address given, or where the firmware likes. -/
def AllocateType.base (memory : Nat) (answer : PageAnswer) : AllocateType -> Nat
  | maxAddress => answer.base
  | address => memory

/-- With `AllocateMaxAddress` the run ends at the address given, or below. -/
def AllocateType.Admits (memory : Nat) (run : PageRun) : AllocateType -> Prop
  | maxAddress => run.base + 4096 * run.count ≤ memory + 1
  | address => run.base = memory

instance (memory : Nat) (run : PageRun) (type : AllocateType) :
    Decidable (type.Admits memory run) :=
  match type with
  | AllocateType.maxAddress => inferInstanceAs (Decidable (_ ≤ _))
  | AllocateType.address => inferInstanceAs (Decidable (_ = _))

/-- `allocate_pages`; the address returned is the one passed in unless it succeeds. -/
def allocatePages (env : LoadEnv) (type : AllocateType) (count memory : Nat)
    (s : LoadState) : EfiStatus × Nat × LoadState :=
  let answer := env.pageAnswer s.pageCalls
  let t := { s with pageCalls := s.pageCalls + 1 }
  let run : PageRun := { base := type.base memory answer, count := count }
  if answer.status ≠ EfiStatus.success then
    (answer.status, memory, t)
  else if Grantable s.used run ∧ type.Admits memory run then
    (EfiStatus.success, run.base,
      { t.emit (LoadEvent.allocatePages run) with used := s.used ∪ run.pages })
  else
    (EfiStatus.notFound, memory, t)

/-- `free_pages`; the callers ignore the status. -/
def freePages (memory count : Nat) (s : LoadState) : LoadState :=
  let run : PageRun := { base := memory, count := count }
  { s.emit (LoadEvent.freePages run) with used := freeRun s.used run }

def efree (memory size : Nat) (s : LoadState) : LoadState :=
  freePages memory (sizeToPages size) s

/-- `memory_map`: it tries again for as long as its buffer is too small. -/
def memoryMap : List MapReply -> Except EfiStatus (List MemoryDescriptor)
  | [] => Except.error EfiStatus.outOfResources
  | reply :: replies =>
      match reply.status with
      | EfiStatus.success => Except.ok reply.descriptors
      | EfiStatus.bufferTooSmall => memoryMap replies
      | status => Except.error status

/-- `(start + align - 1) & ~(align - 1)`, with the mask in the width of `UINTN`. -/
def alignedStart (arch : Arch) (start align : Nat) : Nat :=
  u64 (start + align + (2 ^ 64 - 1)) &&&
    (2 ^ arch.uintnBits - 1 - arch.uintn (align + (2 ^ 64 - 1)))

def MemoryDescriptor.stop (desc : MemoryDescriptor) : Nat :=
  u64 (desc.physicalStart.toNat + u64 (desc.numberOfPages.toNat * 4096))

/-- `size -= (1 << 20) - start` for a descriptor that starts below 1 MiB. -/
def sizeAboveLowMemory (arch : Arch) (start size : Nat) : Nat :=
  if start < 2 ^ 20 then arch.uintn (size + 2 ^ 64 - (2 ^ 20 - start)) else size

/-- The loop of `emalloc`; a reduced `size` is kept for the descriptors that follow. -/
def emallocLoop (env : LoadEnv) (nrPages align : Nat) :
    List MemoryDescriptor -> Nat -> LoadState -> Except EfiStatus Nat × LoadState
  | [], _, s => (Except.error EfiStatus.outOfResources, s)
  | desc :: descs, size, s =>
      if desc.type ≠ efiConventionalMemory ∨ desc.numberOfPages.toNat < nrPages ∨
          desc.stop ≤ 2 ^ 20 then
        emallocLoop env nrPages align descs size s
      else
        let start := desc.physicalStart.toNat
        let rest := sizeAboveLowMemory env.arch start size
        let aligned := alignedStart env.arch (max start (2 ^ 20)) align
        if u64 (aligned + rest) ≤ desc.stop then
          match allocatePages env AllocateType.address nrPages aligned s with
          | (EfiStatus.success, base, t) => (Except.ok base, t)
          | (_, _, t) => emallocLoop env nrPages align descs rest t
        else
          emallocLoop env nrPages align descs rest s

def emalloc (env : LoadEnv) (size align : Nat) (s : LoadState) :
    Except EfiStatus Nat × LoadState :=
  let t := { s with mapCalls := s.mapCalls + 1 }
  match memoryMap (env.mapReplies s.mapCalls) with
  | Except.error status => (Except.error status, t)
  | Except.ok descs => emallocLoop env (sizeToPages size) align descs size t

/-!
# What a request for pages can do
-/

structure SameMemory (s t : LoadState) : Prop where
  image : t.image = s.image
  used : t.used = s.used
  commandLine : t.commandLine = s.commandLine
  log : t.log = s.log

structure HandsOut (s : LoadState) (run : PageRun) (t : LoadState) : Prop where
  free : Grantable s.used run
  image : t.image = s.image
  used : t.used = s.used ∪ run.pages
  commandLine : t.commandLine = s.commandLine
  log : t.log = s.log ++ [LoadEvent.allocatePages run]

theorem SameMemory.refl (s : LoadState) : SameMemory s s where
  image := rfl
  used := rfl
  commandLine := rfl
  log := rfl

theorem SameMemory.trans {s t u : LoadState} (hst : SameMemory s t) (htu : SameMemory t u) :
    SameMemory s u where
  image := htu.image.trans hst.image
  used := htu.used.trans hst.used
  commandLine := htu.commandLine.trans hst.commandLine
  log := htu.log.trans hst.log

theorem SameMemory.handsOut {s t u : LoadState} {run : PageRun} (hst : SameMemory s t)
    (htu : HandsOut t run u) : HandsOut s run u where
  free := hst.used ▸ htu.free
  image := htu.image.trans hst.image
  used := by rw [htu.used, hst.used]
  commandLine := htu.commandLine.trans hst.commandLine
  log := by rw [htu.log, hst.log]

theorem allocatePages_cases (env : LoadEnv) (type : AllocateType) (count memory : Nat)
    (s : LoadState) :
    (exists status t, allocatePages env type count memory s = (status, memory, t) ∧
      status ≠ EfiStatus.success ∧ SameMemory s t) ∨
    (exists base t, allocatePages env type count memory s = (EfiStatus.success, base, t) ∧
      HandsOut s { base := base, count := count } t ∧
      type.Admits memory { base := base, count := count } ∧
      base = type.base memory (env.pageAnswer s.pageCalls)) := by
  have hsame : SameMemory s { s with pageCalls := s.pageCalls + 1 } := ⟨rfl, rfl, rfl, rfl⟩
  unfold allocatePages
  dsimp only
  split
  · rename_i hstatus
    exact Or.inl ⟨_, _, rfl, hstatus, hsame⟩
  · split
    · rename_i hgrant
      exact Or.inr ⟨_, _, rfl, ⟨hgrant.1, rfl, rfl, rfl, rfl⟩, hgrant.2, rfl⟩
    · exact Or.inl ⟨_, _, rfl, by decide, hsame⟩

theorem memoryMap_error {replies : List MapReply} {status : EfiStatus}
    (h : memoryMap replies = Except.error status) : status ≠ EfiStatus.success := by
  induction replies with
  | nil =>
      cases h
      nofun
  | cons reply replies ih =>
      unfold memoryMap at h
      split at h
      · cases h
      · exact ih h
      · rename_i hsuccess _
        cases h
        exact hsuccess

theorem alignedStart_lt_of_ia32 (start align : Nat) :
    alignedStart Arch.ia32 start align < 2 ^ 32 := by
  have hle : alignedStart Arch.ia32 start align ≤ 2 ^ 32 - 1 - Arch.ia32.uintn _ :=
    Nat.and_le_right
  omega

theorem emallocLoop_cases (env : LoadEnv) (nrPages align : Nat)
    (descs : List MemoryDescriptor) (size : Nat) (s : LoadState) :
    (exists status t, emallocLoop env nrPages align descs size s = (Except.error status, t) ∧
      status ≠ EfiStatus.success ∧ SameMemory s t) ∨
    (exists base t, emallocLoop env nrPages align descs size s = (Except.ok base, t) ∧
      HandsOut s { base := base, count := nrPages } t ∧
      (env.arch = Arch.ia32 -> base < 2 ^ 32)) := by
  induction descs generalizing size s with
  | nil => exact Or.inl ⟨_, _, rfl, nofun, SameMemory.refl s⟩
  | cons desc descs ih =>
      unfold emallocLoop
      dsimp only
      split
      · exact ih size s
      · split
        · rcases allocatePages_cases env AllocateType.address nrPages
            (alignedStart env.arch (max desc.physicalStart.toNat (2 ^ 20)) align) s with
            ⟨status, t, heq, hstatus, hsame⟩ | ⟨base, t, heq, hgrant, hbase, -⟩
          · rw [heq]
            split
            · rename_i hsuccess
              exact absurd (congrArg Prod.fst hsuccess) hstatus
            · rename_i hrest
              cases hrest
              rcases ih _ t with
                ⟨status', u, hloop, herror, hsame'⟩ | ⟨base, u, hloop, hgrant, hlow⟩
              · exact Or.inl ⟨status', u, hloop, herror, hsame.trans hsame'⟩
              · exact Or.inr ⟨base, u, hloop, hsame.handsOut hgrant, hlow⟩
          · rw [heq]
            refine Or.inr ⟨base, t, rfl, hgrant, ?_⟩
            intro harch
            rw [show base = _ from hbase, harch]
            exact alignedStart_lt_of_ia32 _ align
        · exact ih _ s

theorem emalloc_cases (env : LoadEnv) (size align : Nat) (s : LoadState) :
    (exists status t, emalloc env size align s = (Except.error status, t) ∧
      status ≠ EfiStatus.success ∧ SameMemory s t) ∨
    (exists base t, emalloc env size align s = (Except.ok base, t) ∧
      HandsOut s { base := base, count := sizeToPages size } t ∧
      (env.arch = Arch.ia32 -> base < 2 ^ 32)) := by
  have hsame : SameMemory s { s with mapCalls := s.mapCalls + 1 } := ⟨rfl, rfl, rfl, rfl⟩
  unfold emalloc
  dsimp only
  split
  · rename_i status hmap
    exact Or.inl ⟨status, _, rfl, memoryMap_error hmap, hsame⟩
  · rename_i descs hmap
    rcases emallocLoop_cases env (sizeToPages size) align descs size
      { s with mapCalls := s.mapCalls + 1 } with
      ⟨status, t, hloop, hstatus, hrest⟩ | ⟨base, t, hloop, hgrant, hlow⟩
    · exact Or.inl ⟨status, t, hloop, hstatus, hsame.trans hrest⟩
    · exact Or.inr ⟨base, t, hloop, hsame.handsOut hgrant, hlow⟩

end BootImage
end BootableUefi
