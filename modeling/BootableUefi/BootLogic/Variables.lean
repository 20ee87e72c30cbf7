import Mathlib.Data.Int.ModEq
import BootableUefi.BootLogic.Targets

/-!
# Persistent variables and the state of one boot

The variables of `uefi_boot.c` and `uefi_osnib.c` survive a reset; everything
else the boot logic reads is an input of the boot.  Every variable access can
fail on its own: the inputs say which of the accesses made during the boot do.
-/

namespace BootableUefi
namespace BootLogic

open Firmware

/-- The build options `config.c` turns into variables, and the factory modes. -/
structure Config where
  doColdResetAfterWd : Bool
  enableFactoryModes : Bool
  deriving DecidableEq, Repr

structure EfiVariables where
  loaderEntryOneShot : Option String
  loaderEntryLast : Option String
  loadEntryPrevious : Option String
  savedResetSource : Option ResetSource
  /-- One byte, read back as a signed one. -/
  wdtCounter : Option Int
  wdColdReset : Option Int
  rtcAlarmCharging : Option Int
  capsuleUpdateStatus : Option Int
  deriving DecidableEq, Repr

structure FwResEntry where
  fwVersion : Nat
  lastAttemptVersion : Nat
  deriving DecidableEq, Repr

structure BootInputs where
  isBatteryOk : Bool
  batteryLevel : Nat -> BattLevel
  isChargerPresent : Nat -> Bool
  isChargerPresentAtWake : Bool
  wakeSource : WakeSource
  resetSource : ResetSource
  shutdownSource : ShutdownSource
  comboFastboot : Bool
  pmicIsDollarTi : Bool
  /-- The BCB command, if the Misc partition can be read. -/
  bcbCommand : Option String
  fwEntry : Except EfiStatus FwResEntry
  /-- The status of the given variable read, write or deletion of the boot. -/
  getAnswer : Nat -> EfiStatus
  setAnswer : Nat -> EfiStatus
  deleteAnswer : Nat -> EfiStatus
  loadTargetReturns : Nat -> Bool
  /-- What the system that ran before this boot wrote to `LoaderEntryOneShot`. -/
  osOneShot : Option String

structure BootInputs.AccessesSucceed (inputs : BootInputs) : Prop where
  get : forall n, inputs.getAnswer n = EfiStatus.success
  set : forall n, inputs.setAnswer n = EfiStatus.success
  delete : forall n, inputs.deleteAnswer n = EfiStatus.success

inductive BootEvent where
  | classified (source : ResetSource)
  | coldReset (source : ResetSource)
  | coldOff (vars : EfiVariables)
  | loadTarget (target : Target) (vars : EfiVariables)
  deriving DecidableEq, Repr

inductive BootEnd where
  | coldReset
  | coldOff
  | running (target : Target)
  | returned (status : EfiStatus)
  deriving DecidableEq, Repr

structure BootState where
  vars : EfiVariables
  resetSource : ResetSource
  rsciResetSource : ResetSource
  gets : Nat
  sets : Nat
  deletes : Nat
  events : List BootEvent
  deriving DecidableEq, Repr

def BootState.start (inputs : BootInputs) (vars : EfiVariables) : BootState where
  vars := vars
  resetSource := ResetSource.error
  rsciResetSource := inputs.resetSource
  gets := 0
  sets := 0
  deletes := 0
  events := []

def BootState.emit (event : BootEvent) (s : BootState) : BootState :=
  { s with events := s.events ++ [event] }

@[simp] theorem BootState.emit_vars (event : BootEvent) (s : BootState) :
    (s.emit event).vars = s.vars := rfl

@[simp] theorem BootState.emit_events (event : BootEvent) (s : BootState) :
    (s.emit event).events = s.events ++ [event] := rfl

/-!
# Variable services
-/

/-- `LibGetVariable`: absent and unreadable look the same. -/
def getVariable {α : Type} (inputs : BootInputs) (read : EfiVariables -> Option α)
    (s : BootState) : Option α × BootState :=
  let value := if efiError (inputs.getAnswer s.gets) then none else read s.vars
  (value, { s with gets := s.gets + 1 })

def setVariable (inputs : BootInputs) (write : EfiVariables -> EfiVariables)
    (s : BootState) : EfiStatus × BootState :=
  let status := inputs.setAnswer s.sets
  let vars := if efiError status then s.vars else write s.vars
  (status, { s with vars := vars, sets := s.sets + 1 })

/-- `LibDeleteVariable`: `EFI_NOT_FOUND` when there is nothing to delete. -/
def deleteVariable (inputs : BootInputs) (isPresent : EfiVariables -> Bool)
    (erase : EfiVariables -> EfiVariables) (s : BootState) : EfiStatus × BootState :=
  if isPresent s.vars then
    let status := inputs.deleteAnswer s.deletes
    let vars := if efiError status then s.vars else erase s.vars
    (status, { s with vars := vars, deletes := s.deletes + 1 })
  else
    (EfiStatus.notFound, s)

/-- The signed byte the `set_osnib_var` macro stores of an `int`. -/
def signedByte (n : Int) : Int :=
  n.bmod 256

def uefiGetSimpleVar (inputs : BootInputs) (read : EfiVariables -> Option Int)
    (s : BootState) : Int × BootState :=
  let (value, s) := getVariable inputs read s
  (value.getD (-1), s)

def uefiSetRtcAlarmCharging (inputs : BootInputs) (value : Int) (s : BootState) :
    EfiStatus × BootState :=
  setVariable inputs (fun vars => { vars with rtcAlarmCharging := some (signedByte value) }) s

def uefiSetWdtCounter (inputs : BootInputs) (value : Int) (s : BootState) :
    EfiStatus × BootState :=
  setVariable inputs (fun vars => { vars with wdtCounter := some (signedByte value) }) s

def uefiGetWdtCounter (inputs : BootInputs) (s : BootState) : Int × BootState :=
  let (counter, s) := uefiGetSimpleVar inputs EfiVariables.wdtCounter s
  (if counter = -1 then 0 else counter, s)

def uefiSetWdColdReset (inputs : BootInputs) (value : Int) (s : BootState) :
    EfiStatus × BootState :=
  setVariable inputs (fun vars => { vars with wdColdReset := some (signedByte value) }) s

def uefiGetWdColdReset (inputs : BootInputs) (s : BootState) : Int × BootState :=
  uefiGetSimpleVar inputs EfiVariables.wdColdReset s

def uefiSetCapsuleUpdate (inputs : BootInputs) (value : Int) (s : BootState) :
    EfiStatus × BootState :=
  setVariable inputs
    (fun vars => { vars with capsuleUpdateStatus := some (signedByte value) }) s

def coldResetPending (cfg : Config) (inputs : BootInputs) (s : BootState) :
    Bool × BootState :=
  if cfg.doColdResetAfterWd then
    let (value, s) := uefiGetWdColdReset inputs s
    (value == 1, s)
  else
    (false, s)

def saveResetSource (inputs : BootInputs) (source : ResetSource) (s : BootState) :
    EfiStatus × BootState :=
  setVariable inputs (fun vars => { vars with savedResetSource := some source }) s

def getResetSource (cfg : Config) (inputs : BootInputs) (s : BootState) :
    ResetSource × BootState :=
  if s.resetSource ≠ ResetSource.error then
    (s.resetSource, s)
  else
    let (pending, s) := coldResetPending cfg inputs s
    let s :=
      if pending then
        let (saved, s) := getVariable inputs EfiVariables.savedResetSource s
        match saved with
        | none => s
        | some source => { s with resetSource := source }
      else
        { s with resetSource := s.rsciResetSource }
    let (_, s) := deleteVariable inputs (fun vars => vars.savedResetSource.isSome)
      (fun vars => { vars with savedResetSource := none }) s
    (s.resetSource, s)

def getTargetFromVar (cfg : Config) (inputs : BootInputs)
    (read : EfiVariables -> Option String) (s : BootState) : Target × BootState :=
  let (name, s) := getVariable inputs read s
  match name with
  | none => (Target.unknown, s)
  | some name =>
      match nameToTarget cfg.enableFactoryModes name with
      | Except.ok target => (target, s)
      | Except.error _ => (Target.unknown, s)

def getEntryOneshot (cfg : Config) (inputs : BootInputs) (s : BootState) :
    Target × BootState :=
  getTargetFromVar cfg inputs EfiVariables.loaderEntryOneShot s

def getEntryLast (cfg : Config) (inputs : BootInputs) (s : BootState) :
    Target × BootState :=
  getTargetFromVar cfg inputs EfiVariables.loaderEntryLast s

def saveEntryPrevious (cfg : Config) (inputs : BootInputs) (target : Target)
    (s : BootState) : EfiStatus × BootState :=
  match targetToName cfg.enableFactoryModes target with
  | Except.error status => (status, s)
  | Except.ok name =>
      setVariable inputs (fun vars => { vars with loadEntryPrevious := some name }) s

def setEntryLast (cfg : Config) (inputs : BootInputs) (target : Target)
    (s : BootState) : EfiStatus × BootState :=
  match targetToName cfg.enableFactoryModes target with
  | Except.error status => (status, s)
  | Except.ok name =>
      let (_, s) := deleteVariable inputs (fun vars => vars.loaderEntryOneShot.isSome)
        (fun vars => { vars with loaderEntryOneShot := none }) s
      setVariable inputs (fun vars => { vars with loaderEntryLast := some name }) s

end BootLogic
end BootableUefi
