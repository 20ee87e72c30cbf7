import BootableUefi.Foundation.Tiles
import BootableUefi.Flash.Partition

/-!
# Erasing a partition

`erase_blocks` zero-fills both ends of the extent up to the next erase group and
leaves the groups between them to the secure erase commands of the card.
-/

namespace BootableUefi
namespace Flash

open Firmware Foundation

structure ExtCsd where
  hcEraseGrpSize : UInt8
  eraseTimeoutMult : UInt8
  deriving DecidableEq, Repr

structure EraseEnv where
  blockSize : UInt32
  locateSdHostIo : EfiStatus
  extCsdBuffer : Bool
  sendExtCsd : EfiStatus
  extCsd : ExtCsd
  allocateZeroPool : Nat -> Bool
  writeBlocks : Nat -> EfiStatus
  sendCommand : Nat -> EfiStatus

inductive EraseCommand where
  | eraseGroupStart
  | eraseGroupEnd
  | erase
  deriving DecidableEq, Repr

inductive EraseEvent where
  | allocateZeroPool (size : Nat)
  /-- `WriteBlocks` of `size` blocks, with its buffer size in bytes. -/
  | writeBlocks (lba size bufferSize : Nat)
  | sendCommand (command : EraseCommand) (argument timeout : Nat)
  deriving DecidableEq, Repr

structure EraseState where
  allocations : Nat
  writes : Nat
  commands : Nat
  log : List EraseEvent
  deriving DecidableEq, Repr

def EraseState.fresh : EraseState where
  allocations := 0
  writes := 0
  commands := 0
  log := []

def sdioDfltTimeout : Nat := 3000

def nBlock : Nat := 4096

/-- `SendCommand`; the argument and the timeout are 32-bit. -/
def sendCommand (env : EraseEnv) (command : EraseCommand) (argument timeout : Nat)
    (s : EraseState) : EfiStatus × EraseState :=
  (env.sendCommand s.commands,
    { s with
      commands := s.commands + 1
      log := s.log ++ [EraseEvent.sendCommand command (u32 argument) (u32 timeout)] })

def secureErase (env : EraseEnv) (start stop timeout : Nat) (s : EraseState) :
    EfiStatus × EraseState :=
  let (status, s) := sendCommand env EraseCommand.eraseGroupStart start sdioDfltTimeout s
  if efiError status then
    (status, s)
  else
    let (status, s) := sendCommand env EraseCommand.eraseGroupEnd stop sdioDfltTimeout s
    if efiError status then
      (status, s)
    else
      sendCommand env EraseCommand.erase 0x80000000 (timeout * sub64 stop start) s

/--
The loop of `fill_zero`; `none` when it is still running after the given number
of iterations.
-/
def fillZeroLoop (env : EraseEnv) (stop : Nat) :
    Nat -> Nat -> EraseState -> Option (EfiStatus × EraseState)
  | 0, lba, s => if stop < lba then some (EfiStatus.success, s) else none
  | bound + 1, lba, s =>
      if stop < lba then
        some (EfiStatus.success, s)
      else
        let size :=
          if u64 (lba + nBlock) > u64 (stop + 1) then u64 (sub64 stop lba + 1) else nBlock
        let status := env.writeBlocks s.writes
        let bufferSize := u64 (env.blockSize.toNat * size)
        let s := { s with
          writes := s.writes + 1
          log := s.log ++ [EraseEvent.writeBlocks lba size bufferSize] }
        if efiError status then
          some (status, s)
        else
          fillZeroLoop env stop bound (u64 (lba + nBlock)) s

/-- `fill_zero`, with as many iterations as the extent has batches of `N_BLOCK`. -/
def fillZero (env : EraseEnv) (start stop : Nat) (s : EraseState) :
    Option (EfiStatus × EraseState) :=
  let t := { s with
    allocations := s.allocations + 1
    log := s.log ++ [EraseEvent.allocateZeroPool (u32 (env.blockSize.toNat * nBlock))] }
  if env.allocateZeroPool s.allocations then
    fillZeroLoop env stop ((stop - start) / nBlock + 1) start t
  else
    some (EfiStatus.outOfResources, t)

/-- `get_mmc_info`: the erase group size in sectors and the timeout. -/
def getMmcInfo (env : EraseEnv) : Except EfiStatus (Nat × Nat) :=
  if !env.extCsdBuffer then
    Except.error EfiStatus.outOfResources
  else if efiError env.sendExtCsd then
    Except.error env.sendExtCsd
  else
    Except.ok (1024 * env.extCsd.hcEraseGrpSize.toNat, 300 * env.extCsd.eraseTimeoutMult.toNat)

/-- The front of the extent, up to the first erase group; gives the new start. -/
def fillFront (env : EraseEnv) (group start : Nat) (s : EraseState) :
    Option (EfiStatus × Nat × EraseState) :=
  let reminder := start % group
  if reminder ≠ 0 then
    (fillZero env start (u64 (start + (group - reminder) - 1)) s).map fun (status, s) =>
      (status, u64 (start + (group - reminder)), s)
  else
    some (EfiStatus.success, start, s)

/-- The back of the extent, from the last erase group on; gives the new end. -/
def fillBack (env : EraseEnv) (group stop : Nat) (s : EraseState) :
    Option (EfiStatus × Nat × EraseState) :=
  let reminder := u64 (stop + 1) % group
  if reminder ≠ 0 then
    (fillZero env (sub64 (u64 (stop + 1)) reminder) stop s).map fun (status, s) =>
      (status, sub64 stop reminder, s)
  else
    some (EfiStatus.success, stop, s)

/-- `erase_blocks`; `none` when one of its fills does not come to an end. -/
def eraseBlocks (env : EraseEnv) (start stop : Nat) (s : EraseState) :
    Option (FlashEnd × EraseState) :=
  let fallback := (fillZero env start stop s).map fun (status, s) =>
    (FlashEnd.returned status, s)
  if efiError env.locateSdHostIo then
    fallback
  else
    match getMmcInfo env with
    | Except.error _ => fallback
    | Except.ok (group, timeout) =>
        if u64 (sub64 stop start + 1) < group then
          fallback
        else if group = 0 then
          some (FlashEnd.divideError, s)
        else
          match fillFront env group start s with
          | none => none
          | some (status, first, s) =>
              if efiError status then
                some (FlashEnd.returned status, s)
              else
                match fillBack env group stop s with
                | none => none
                | some (status, last, s) =>
                    if efiError status then
                      some (FlashEnd.returned status, s)
                    else
                      let (status, s) := secureErase env first last timeout s
                      some (FlashEnd.returned status, s)

theorem eraseBlocks_cases {env : EraseEnv} {start stop : Nat} {s t : EraseState}
    (h : eraseBlocks env start stop s = some (FlashEnd.returned EfiStatus.success, t)) :
    ((efiError env.locateSdHostIo = true ∨ (exists status, getMmcInfo env = Except.error status) ∨
        exists group timeout, getMmcInfo env = Except.ok (group, timeout) ∧
          u64 (sub64 stop start + 1) < group) ∧
      fillZero env start stop s = some (EfiStatus.success, t)) ∨
    (exists group timeout first last u v, efiError env.locateSdHostIo = false ∧
      getMmcInfo env = Except.ok (group, timeout) ∧ group ≤ u64 (sub64 stop start + 1) ∧
      fillFront env group start s = some (EfiStatus.success, first, u) ∧
      fillBack env group stop u = some (EfiStatus.success, last, v) ∧
      secureErase env first last timeout v = (EfiStatus.success, t)) := by
  have hfallback : (fillZero env start stop s).map (Prod.map FlashEnd.returned id) =
      some (FlashEnd.returned EfiStatus.success, t) ->
      fillZero env start stop s = some (EfiStatus.success, t) := by
    intro hmapped
    rcases Option.map_eq_some_iff.mp hmapped with ⟨⟨status, u⟩, hfill, hend⟩
    cases hend
    exact hfill
  unfold eraseBlocks at h
  dsimp only at h
  split at h
  · rename_i hlocate
    exact Or.inl ⟨Or.inl hlocate, hfallback h⟩
  · rename_i hlocate
    split at h
    · rename_i status hinfo
      exact Or.inl ⟨Or.inr (Or.inl ⟨status, hinfo⟩), hfallback h⟩
    · rename_i group timeout hinfo
      split at h
      · rename_i hsmall
        exact Or.inl ⟨Or.inr (Or.inr ⟨group, timeout, hinfo, hsmall⟩), hfallback h⟩
      · rename_i hlarge
        right
        have hpresent : efiError env.locateSdHostIo = false := by simpa using hlocate
        split at h
        · cases h
        · split at h
          · cases h
          · rename_i status first u hfront
            split at h
            · rename_i herror
              cases h
              cases herror
            · rename_i hfilled
              split at h
              · cases h
              · rename_i status' last v hback
                split at h
                · rename_i herror
                  cases h
                  cases herror
                · rename_i hrest
                  simp only [Bool.not_eq_true, efiError_eq_false_iff] at hfilled hrest
                  rw [hfilled] at hfront
                  rw [hrest] at hback
                  simp only [Option.some.injEq, Prod.mk.injEq, FlashEnd.returned.injEq] at h
                  exact ⟨group, timeout, first, last, u, v, hpresent, hinfo,
                    Nat.le_of_not_lt hlarge, hfront, hback, Prod.ext h.1 h.2⟩

/-- `erase_by_label`, once the partition has been looked up. -/
def eraseByLabel (env : EraseEnv) (partition : Except EfiStatus (GptPartition × BlockIo))
    (s : EraseState) : Option (FlashEnd × EraseState) :=
  match partition with
  | Except.error status => some (FlashEnd.returned status, s)
  | Except.ok (part, bio) =>
      eraseBlocks { env with blockSize := bio.blockSize } part.startingLba.toNat
        part.endingLba.toNat s

end Flash
end BootableUefi
