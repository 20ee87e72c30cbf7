import BootableUefi.Firmware.Status

/-!
# Boot targets and the target table

The enumerations of `bootlogic.h` and the name table of
`intel_partitions.c`, with the two fallback functions that move a boot from
one target to the next.
-/

namespace BootableUefi
namespace BootLogic

open Firmware

inductive Target where
  | boot
  | charging
  | recovery
  | fastboot
  | test
  | coldOff
  | factory
  | factory2
  | dnx
  | unknown
  | error
  deriving DecidableEq, Repr

/-- `enum wake_sources`; `other` is any value the RSCI byte can hold besides. -/
inductive WakeSource where
  | notApplicable
  | batteryInserted
  | usbChargerInserted
  | acdcChargerInserted
  | powerButtonPressed
  | rtcTimer
  | batteryReachedIaThreshold
  | error
  | other (value : Nat)
  deriving DecidableEq, Repr

/-- `enum reset_sources`; `other` is any value the RSCI byte can hold besides. -/
inductive ResetSource where
  | notApplicable
  | osInitiated
  | forced
  | fwUpdate
  | kernelWatchdog
  | securityWatchdog
  | securityInitiated
  | pmcWatchdog
  | ecWatchdog
  | platformWatchdog
  | error
  | other (value : Nat)
  deriving DecidableEq, Repr

/-- The values of `enum shutdown_sources` the boot logic distinguishes. -/
inductive ShutdownSource where
  | notApplicable
  | powerButtonOverride
  | other (value : Nat)
  deriving DecidableEq, Repr

inductive BattLevel where
  | bootCharging
  | bootOs
  | error
  deriving DecidableEq, Repr

def isWatchdogReset : ResetSource -> Bool
  | ResetSource.kernelWatchdog
  | ResetSource.securityWatchdog
  | ResetSource.securityInitiated
  | ResetSource.pmcWatchdog
  | ResetSource.ecWatchdog
  | ResetSource.platformWatchdog => true
  | _ => false

/-!
# The target table
-/

/-- A row of `android_entries`: what the variables need of it. -/
structure TargetEntry where
  target : Target
  name : String
  deriving DecidableEq, Repr

/-- `android_entries`, with the rows of `CONFIG_ENABLE_FACTORY_MODES` optional. -/
def androidEntries (factoryModes : Bool) : List TargetEntry :=
  [⟨Target.boot, "main"⟩,
    ⟨Target.boot, "android"⟩,
    ⟨Target.recovery, "recovery"⟩,
    ⟨Target.fastboot, "fastboot"⟩,
    ⟨Target.fastboot, "bootloader"⟩,
    ⟨Target.test, "test"⟩,
    ⟨Target.charging, "charging"⟩] ++
  (if factoryModes then
    [⟨Target.factory, "factory"⟩, ⟨Target.factory2, "factory2"⟩] else []) ++
  [⟨Target.dnx, "dnx"⟩]

def getTargetEntry (factoryModes : Bool) (target : Target) : Option TargetEntry :=
  (androidEntries factoryModes).find? fun entry => entry.target == target

def nameToEntry (factoryModes : Bool) (name : String) : Option TargetEntry :=
  (androidEntries factoryModes).find? fun entry => name == entry.name

def nameToTarget (factoryModes : Bool) (name : String) : Except EfiStatus Target :=
  match nameToEntry factoryModes name with
  | some entry => Except.ok entry.target
  | none => Except.error EfiStatus.invalidParameter

def targetToName (factoryModes : Bool) (target : Target) : Except EfiStatus String :=
  match getTargetEntry factoryModes target with
  | some entry => Except.ok entry.name
  | none => Except.error EfiStatus.invalidParameter

theorem nameToTarget_of_targetToName {factoryModes : Bool} {target : Target}
    {name : String} (h : targetToName factoryModes target = Except.ok name) :
    nameToTarget factoryModes name = Except.ok target := by
  cases factoryModes <;> cases target <;> cases h <;> rfl

/-!
# Fallbacks
-/

def fallbackTarget : Target -> Target
  | Target.boot | Target.charging => Target.recovery
  | Target.recovery => Target.fastboot
  | Target.fastboot => Target.dnx
  | _ => Target.unknown

/-- `em_fallback_target`, given the answers of the energy management policy. -/
def emFallbackTarget (level : BattLevel) (chargerPresent : Bool)
    (target : Target) : Target :=
  if level = BattLevel.bootCharging then
    match target with
    | Target.boot | Target.factory | Target.factory2 =>
        if chargerPresent then Target.charging else Target.coldOff
    | _ => target
  else
    target

theorem emFallbackTarget_of_bootOs {level : BattLevel} {chargerPresent : Bool}
    {target : Target} (h : level = BattLevel.bootOs) :
    emFallbackTarget level chargerPresent target = target := by
  simp [emFallbackTarget, h]

/-- How many load attempts can still follow an attempt on the target. -/
def attemptsAfter : Target -> Nat
  | Target.boot | Target.charging | Target.factory | Target.factory2 => 3
  | Target.recovery => 2
  | Target.fastboot => 1
  | _ => 0

theorem attemptsAfter_emFallbackTarget_le (level : BattLevel)
    (chargerPresent : Bool) (target : Target) :
    attemptsAfter (emFallbackTarget level chargerPresent target) ≤
      attemptsAfter target := by
  cases level <;> cases chargerPresent <;> cases target <;> decide

theorem attemptsAfter_fallbackTarget_lt {target : Target}
    (h : fallbackTarget target ≠ Target.unknown) :
    attemptsAfter (fallbackTarget target) < attemptsAfter target := by
  cases target <;> first | decide | exact absurd rfl h

end BootLogic
end BootableUefi
