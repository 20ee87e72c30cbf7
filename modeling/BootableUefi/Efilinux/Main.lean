import BootableUefi.BootImage.Memory
import BootableUefi.Efilinux.FileSystems
import BootableUefi.Foundation.Ownership

/-!
# The entry point

`efi_main` of `entry.c`, from `fs_init` to the end.  What it does between
`parse_args` and `free_args` is a load: a list of events, and the status with
which it comes back, if it does.
-/

namespace BootableUefi
namespace Efilinux

open Firmware Foundation
open BootImage (PoolBlock)

/-- The pool blocks of one run: the command lines, and those of each start of an image. -/
inductive Block where
  | commandLine
  /-- What `check_vbattfreqlmt` makes of the command line. -/
  | batteryLine
  | extraLine
  /-- What `get_extra_cmdline` makes of both. -/
  | extendedLine
  /-- The block `android_image_start_file` gives up for a larger one. -/
  | firstImage (start : Nat)
  | inStart (start : Nat) (block : PoolBlock)
  deriving DecidableEq, Repr

inductive MainEvent where
  | memory (event : BlockEvent Block)
  | hookBeforeExit
  | fsExit
  deriving DecidableEq, Repr

/-- A load; the status is missing when it does not return. -/
structure Load where
  events : List MainEvent
  status : Option EfiStatus

/-- What `parse_args` comes back with; `usage` is `EFI_INVALID_PARAMETER`. -/
inductive ParseResult where
  | accepted (cmdline : Option (List UInt8))
  | usage
  | failed (status : EfiStatus)

structure MainInputs where
  crcOk : Bool
  fs : FsAnswers
  loadedImage : EfiStatus
  /-- The processor is known, so that `x86_ops` replaces the stubs. -/
  platformKnown : Bool
  args : ParseResult
  errorBuf : Bool

/-- From the label `fs_deinit` on, with the hook that is installed. -/
def fsDeinit (inputs : MainInputs) (hook : List MainEvent) : List MainEvent :=
  MainEvent.fsExit :: if inputs.errorBuf then hook else []

/-- From the label `free_args` on; the file or partition name is left out. -/
def freeArgs (inputs : MainInputs) (cmdline : Option (List UInt8)) : List MainEvent :=
  (if cmdline.isSome then [MainEvent.memory (BlockEvent.free Block.commandLine)] else []) ++
    fsDeinit inputs [MainEvent.hookBeforeExit]

def efiMain (inputs : MainInputs) (load : Option (List UInt8) -> Load) : List MainEvent :=
  if !inputs.crcOk then []
  else if inputs.loadedImage ≠ EfiStatus.success then fsDeinit inputs []
  else if !inputs.platformKnown then fsDeinit inputs []
  else match inputs.args with
    | ParseResult.usage => [MainEvent.fsExit]
    | ParseResult.failed _ => fsDeinit inputs [MainEvent.hookBeforeExit]
    | ParseResult.accepted cmdline =>
        (load cmdline).events ++
          if (load cmdline).status.isSome then freeArgs inputs cmdline else []

/-- `x86_hook_before_exit` closes the volumes. -/
def MainEvent.fsCall : MainEvent -> Option FsCall
  | memory _ => none
  | hookBeforeExit => some FsCall.close
  | fsExit => some FsCall.exit

def fsCalls (events : List MainEvent) : List FsCall :=
  events.filterMap MainEvent.fsCall

/-- The table after a run; without a correct checksum `fs_init` is not called. -/
def fsAfter (inputs : MainInputs) (load : Option (List UInt8) -> Load) : FsState :=
  runCalls (fsCalls (efiMain inputs load))
    (if inputs.crcOk then (fsInit inputs.fs).2 else FsState.start)

/-!
# Closing the volumes
-/

/-- How often a run closes the volumes, given its load. -/
def closings (inputs : MainInputs) (load : Option (List UInt8) -> Load) : Nat :=
  if inputs.loadedImage ≠ EfiStatus.success ∨ inputs.platformKnown = false then 1
  else match inputs.args with
    | ParseResult.usage => 1
    | ParseResult.failed _ => if inputs.errorBuf then 2 else 1
    | ParseResult.accepted cmdline =>
        (fsCalls (load cmdline).events).length +
          if (load cmdline).status.isSome then if inputs.errorBuf then 2 else 1 else 0

theorem length_fsCalls_fsDeinit (inputs : MainInputs) :
    (fsCalls (fsDeinit inputs [MainEvent.hookBeforeExit])).length =
      if inputs.errorBuf then 2 else 1 := by
  unfold fsDeinit
  cases inputs.errorBuf <;> rfl

theorem length_fsCalls_stub (inputs : MainInputs) :
    (fsCalls (fsDeinit inputs [])).length = 1 := by
  unfold fsDeinit
  cases inputs.errorBuf <;> rfl

theorem length_fsCalls_freeArgs (inputs : MainInputs) (cmdline : Option (List UInt8)) :
    (fsCalls (freeArgs inputs cmdline)).length = if inputs.errorBuf then 2 else 1 := by
  rw [← length_fsCalls_fsDeinit]
  cases cmdline <;> rfl

theorem fsCalls_append (xs ys : List MainEvent) :
    fsCalls (xs ++ ys) = fsCalls xs ++ fsCalls ys :=
  List.filterMap_append

theorem length_fsCalls_efiMain {inputs : MainInputs} (hcrc : inputs.crcOk = true)
    (load : Option (List UInt8) -> Load) :
    (fsCalls (efiMain inputs load)).length = closings inputs load := by
  unfold efiMain closings
  rw [hcrc]
  by_cases hloaded : inputs.loadedImage = EfiStatus.success
  · cases hknown : inputs.platformKnown with
    | false => simp [hloaded, length_fsCalls_stub]
    | true =>
        simp only [Bool.not_true, Bool.false_eq_true, if_false, hloaded, ne_eq, not_true_eq_false,
          Bool.true_eq_false, or_self]
        cases inputs.args with
        | usage => rfl
        | failed status => exact length_fsCalls_fsDeinit inputs
        | accepted cmdline =>
            dsimp only
            rw [fsCalls_append, List.length_append]
            cases (load cmdline).status.isSome with
            | true => exact congrArg _ (length_fsCalls_freeArgs inputs cmdline)
            | false => rfl
  · simp [hloaded, length_fsCalls_stub]

/--
A run is sound exactly when there are no entries, or it never closes the
volumes, or it closes them once after `fs_init` has filled the table in.
-/
theorem efiMain_volumes_iff (inputs : MainInputs) (load : Option (List UInt8) -> Load) :
    SoundEvents (fsAfter inputs load).events <->
      inputs.crcOk = false ∨ inputs.fs.entries = 0 ∨ closings inputs load = 0 ∨
        inputs.fs.FillsTable ∧ closings inputs load ≤ 1 := by
  unfold fsAfter
  cases hcrc : inputs.crcOk with
  | false =>
      have hnone : efiMain inputs load = [] := by
        unfold efiMain
        rw [hcrc]
        rfl
      rw [hnone]
      exact ⟨fun _ => Or.inl rfl, fun _ => sound_openEvents 0⟩
  | true =>
      rw [if_pos rfl, runCalls_sound_iff, ← length_fsCalls_efiMain hcrc load,
        List.length_eq_zero_iff]
      constructor
      · intro h
        exact Or.inr h
      · rintro (hfalse | h)
        · cases hfalse
        · exact h

def oneVolume : FsAnswers where
  arch := Arch.x64
  locateSize := EfiStatus.bufferTooSmall
  size := 8
  bufPool := true
  devicesPool := true
  locate := EfiStatus.success
  handleProtocol := fun _ => EfiStatus.success
  volumeOpen := fun _ => EfiStatus.success

def commandInputs : MainInputs where
  crcOk := true
  fs := oneVolume
  loadedImage := EfiStatus.success
  platformKnown := true
  args := ParseResult.accepted none
  errorBuf := true

/-- `fs_exit` frees the table, and the hook after it goes through the table again. -/
theorem efiMain_closes_twice :
    ¬ forall (inputs : MainInputs) (load : Option (List UInt8) -> Load),
        SoundEvents (fsAfter inputs load).events := by
  intro h
  have hsound := h commandInputs fun _ => { events := [], status := some EfiStatus.success }
  exact absurd (hsound.closedOnce 0) (by decide)

end Efilinux
end BootableUefi
