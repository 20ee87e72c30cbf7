import BootableUefi.Foundation.Runs
import BootableUefi.BootLogic.Effects

/-!
# Runs of boots

A device is its persistent variables together with the record of every boot so
far.  The next boot starts from the variables the last one left, after the
system in between may have written the one-shot entry.
-/

namespace BootableUefi
namespace BootLogic

open Firmware

structure BootRecord where
  startVars : EfiVariables
  bootEnd : BootEnd
  finalVars : EfiVariables
  events : List BootEvent
  deriving DecidableEq, Repr

/-- The variables a boot finds. -/
def osWrites (inputs : BootInputs) (vars : EfiVariables) : EfiVariables :=
  match inputs.osOneShot with
  | some name => { vars with loaderEntryOneShot := some name }
  | none => vars

@[simp] theorem osWrites_wdColdReset (inputs : BootInputs) (vars : EfiVariables) :
    (osWrites inputs vars).wdColdReset = vars.wdColdReset := by
  unfold osWrites
  split <;> rfl

@[simp] theorem osWrites_savedResetSource (inputs : BootInputs) (vars : EfiVariables) :
    (osWrites inputs vars).savedResetSource = vars.savedResetSource := by
  unfold osWrites
  split <;> rfl

def runBoot (cfg : Config) (inputs : BootInputs) (vars : EfiVariables) : BootRecord :=
  let vars := osWrites inputs vars
  let (bootEnd, s) := startBootLogic cfg inputs vars
  { startVars := vars, bootEnd := bootEnd, finalVars := s.vars, events := s.events }

structure Device where
  vars : EfiVariables
  history : List BootRecord
  deriving DecidableEq, Repr

def Device.fresh (vars : EfiVariables) : Device :=
  { vars := vars, history := [] }

def Device.step (cfg : Config) (d : Device) (inputs : BootInputs) : Option Device :=
  let record := runBoot cfg inputs d.vars
  some { vars := record.finalVars, history := record :: d.history }

theorem Device.step_eq_some {cfg : Config} {d e : Device} {inputs : BootInputs}
    (h : d.step cfg inputs = some e) :
    e.vars = (runBoot cfg inputs d.vars).finalVars ∧
      e.history = runBoot cfg inputs d.vars :: d.history := by
  cases h
  exact ⟨rfl, rfl⟩

/-!
# An ordinary reset

Boots to start examples from: the battery is charged, no key is pressed, no
update is pending, every access succeeds and every target that is loaded runs.
-/

def plainReset (source : ResetSource) : BootInputs where
  isBatteryOk := true
  batteryLevel := fun _ => BattLevel.bootOs
  isChargerPresent := fun _ => false
  isChargerPresentAtWake := false
  wakeSource := WakeSource.notApplicable
  resetSource := source
  shutdownSource := ShutdownSource.notApplicable
  comboFastboot := false
  pmicIsDollarTi := false
  bcbCommand := none
  fwEntry := Except.error EfiStatus.notFound
  getAnswer := fun _ => EfiStatus.success
  setAnswer := fun _ => EfiStatus.success
  deleteAnswer := fun _ => EfiStatus.success
  loadTargetReturns := fun _ => false
  osOneShot := none

theorem plainReset_accessesSucceed (source : ResetSource) :
    (plainReset source).AccessesSucceed :=
  ⟨fun _ => rfl, fun _ => rfl, fun _ => rfl⟩

def lastEntryOnly (name : String) : EfiVariables where
  loaderEntryOneShot := none
  loaderEntryLast := some name
  loadEntryPrevious := none
  savedResetSource := none
  wdtCounter := none
  wdColdReset := none
  rtcAlarmCharging := none
  capsuleUpdateStatus := none

end BootLogic
end BootableUefi
