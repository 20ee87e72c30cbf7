import BootableUefi.BootLogic.Variables

/-!
# One boot

`start_boot_logic` and everything it calls in `bootlogic.c`.  A function whose
last component is `none` has asked for a cold reset and does not return.
-/

namespace BootableUefi
namespace BootLogic

open Firmware

def loadBcb (inputs : BootInputs) : Target :=
  match inputs.bcbCommand with
  | some "boot-recovery" => Target.recovery
  | _ => Target.unknown

/-- The result of a boot case: the target, or `none` after a cold reset request. -/
abbrev CaseResult := Option Target × BootState

/--
The loop over a `boot_case` array: the first target that is not
`TARGET_UNKNOWN`, or `TARGET_UNKNOWN` when there is none.
-/
def runBootCases : List (BootState -> CaseResult) -> BootState -> CaseResult
  | [], s => (some Target.unknown, s)
  | bootCase :: rest, s =>
      match bootCase s with
      | (some Target.unknown, s) => runBootCases rest s
      | result => result

/-!
# Waking from off
-/

def forcedShutdown (inputs : BootInputs) (s : BootState) : BootState :=
  let (_, s) := uefiSetRtcAlarmCharging inputs 0 s
  (uefiSetWdtCounter inputs 0 s).2

def bootFastbootCombo (inputs : BootInputs) : Target :=
  if inputs.comboFastboot then Target.fastboot else Target.unknown

def bootPowerKey (source : WakeSource) : Target :=
  if source = WakeSource.powerButtonPressed then Target.boot else Target.unknown

def bootRtc (_source : WakeSource) : Target :=
  Target.unknown

def bootBatteryInsertion (inputs : BootInputs) (source : WakeSource) : Target :=
  if source = WakeSource.batteryInserted then
    if inputs.pmicIsDollarTi && inputs.isChargerPresentAtWake then
      Target.charging
    else
      Target.coldOff
  else
    Target.unknown

def bootChargerInsertion (inputs : BootInputs) (source : WakeSource) : Target :=
  if source = WakeSource.usbChargerInserted ∨ source = WakeSource.acdcChargerInserted then
    if inputs.isChargerPresentAtWake then Target.charging else Target.coldOff
  else
    Target.unknown

def targetFromOff (inputs : BootInputs) (source : WakeSource) (s : BootState) :
    CaseResult :=
  let s :=
    if inputs.shutdownSource = ShutdownSource.powerButtonOverride then
      forcedShutdown inputs s
    else
      s
  runBootCases
    [fun s => (some (bootFastbootCombo inputs), s),
      fun s => (some (loadBcb inputs), s),
      fun s => (some (bootPowerKey source), s),
      fun s => (some (bootRtc source), s),
      fun s => (some (bootBatteryInsertion inputs source), s),
      fun s => (some (bootChargerInsertion inputs source), s)] s

/-!
# Reset
-/

/-- The part of `boot_watchdog` that counts the events of the last target. -/
def countWatchdog (inputs : BootInputs) (lastTarget : Target) (s : BootState) :
    CaseResult :=
  let (counter, s) := uefiGetWdtCounter inputs s
  let counter := counter + 1
  if counter ≥ 3 then
    (some (fallbackTarget lastTarget), (uefiSetWdtCounter inputs 0 s).2)
  else
    (some lastTarget, (uefiSetWdtCounter inputs counter s).2)

/-- The part of `boot_watchdog` that asks for the cold reset. -/
def requestColdReset (cfg : Config) (inputs : BootInputs) (source : ResetSource)
    (lastTarget : Target) (s : BootState) : CaseResult :=
  let (_, s) := setEntryLast cfg inputs lastTarget s
  let (_, s) := saveResetSource inputs source s
  let (_, s) := uefiSetWdColdReset inputs 1 s
  (none, s.emit (BootEvent.coldReset source))

/-- `boot_watchdog`.  The warm dump it may start only logs its own status. -/
def bootWatchdog (cfg : Config) (inputs : BootInputs) (source : ResetSource)
    (s : BootState) : CaseResult :=
  if isWatchdogReset source then
    let (lastTarget, s) := getEntryLast cfg inputs s
    if cfg.doColdResetAfterWd then
      let (value, s) := uefiGetWdColdReset inputs s
      if value = 1 then
        countWatchdog inputs lastTarget (uefiSetWdColdReset inputs 0 s).2
      else
        requestColdReset cfg inputs source lastTarget s
    else
      countWatchdog inputs lastTarget s
  else
    (some Target.unknown, s)

def bootFwUpdate (inputs : BootInputs) (source : ResetSource) (s : BootState) :
    CaseResult :=
  if source = ResetSource.fwUpdate then
    match inputs.fwEntry with
    | Except.ok entry =>
        let status := if entry.fwVersion = entry.lastAttemptVersion then 0 else 1
        (some Target.boot, (uefiSetCapsuleUpdate inputs status s).2)
    | Except.error _ => (some Target.boot, s)
  else
    (some Target.unknown, s)

def bootReset (cfg : Config) (inputs : BootInputs) (source : ResetSource)
    (s : BootState) : CaseResult :=
  if source = ResetSource.osInitiated ∨ source = ResetSource.forced then
    let (target, s) := getEntryOneshot cfg inputs s
    (some target, s)
  else
    (some Target.unknown, s)

def targetFromReset (cfg : Config) (inputs : BootInputs) (source : ResetSource)
    (s : BootState) : CaseResult :=
  runBootCases
    [bootWatchdog cfg inputs source,
      fun s => (some (loadBcb inputs), s),
      bootFwUpdate inputs source,
      bootReset cfg inputs source] s

/-!
# Choosing and loading the target
-/

/-- The part of `target_from_inputs` that follows a reset. -/
def classifyReset (cfg : Config) (inputs : BootInputs) (s : BootState) : CaseResult :=
  let (source, s) := getResetSource cfg inputs s
  let s := s.emit (BootEvent.classified source)
  if source = ResetSource.error then
    (some Target.boot, s)
  else
    let (pending, s) := coldResetPending cfg inputs s
    let s := if pending then { s with rsciResetSource := source } else s
    if source ≠ ResetSource.notApplicable then
      targetFromReset cfg inputs source s
    else
      (some Target.unknown, s)

def targetFromInputs (cfg : Config) (inputs : BootInputs) (s : BootState) : CaseResult :=
  if !inputs.isBatteryOk then
    (some Target.coldOff, s)
  else if inputs.wakeSource = WakeSource.error then
    (some Target.boot, s)
  else if inputs.wakeSource ≠ WakeSource.notApplicable then
    targetFromOff inputs inputs.wakeSource s
  else
    classifyReset cfg inputs s

/--
The loop of `launch_or_fallback`; `k` counts its iterations.  The bound on the
number of iterations is never reached, see `launchLoop_bound`.
-/
def launchLoop (cfg : Config) (inputs : BootInputs) :
    Nat -> Nat -> Target -> BootState -> BootEnd × BootState
  | 0, _, _, s => (BootEnd.returned EfiStatus.invalidParameter, s)
  | bound + 1, k, target, s =>
      let target := emFallbackTarget (inputs.batteryLevel k) (inputs.isChargerPresent k) target
      if target = Target.coldOff then
        (BootEnd.coldOff, s.emit (BootEvent.coldOff s.vars))
      else
        let (_, s) := setEntryLast cfg inputs target s
        let s := s.emit (BootEvent.loadTarget target s.vars)
        if inputs.loadTargetReturns k then
          if fallbackTarget target ≠ Target.unknown then
            launchLoop cfg inputs bound (k + 1) (fallbackTarget target) s
          else
            (BootEnd.returned EfiStatus.invalidParameter, s)
        else
          (BootEnd.running target, s)

def launchOrFallback (cfg : Config) (inputs : BootInputs) (target : Target)
    (s : BootState) : BootEnd × BootState :=
  launchLoop cfg inputs 4 0 target s

/-- `start_boot_logic`, on the operations `x86_ops` installs. -/
def startBootLogic (cfg : Config) (inputs : BootInputs) (vars : EfiVariables) :
    BootEnd × BootState :=
  let s := BootState.start inputs vars
  let (lastTarget, s) := getEntryLast cfg inputs s
  let (_, s) := saveEntryPrevious cfg inputs lastTarget s
  match targetFromInputs cfg inputs s with
  | (none, s) => (BootEnd.coldReset, s)
  | (some Target.error, s) => (BootEnd.returned EfiStatus.success, s)
  | (some target, s) =>
      let target := if target = Target.unknown then Target.boot else target
      -- `uefi_populate_osnib_variables` reads the reset source once more.
      let (_, s) := getResetSource cfg inputs s
      launchOrFallback cfg inputs target s

/-!
# The loop bound
-/

theorem launchLoop_bound (cfg : Config) (inputs : BootInputs) (extra : Nat) :
    forall (bound k : Nat) (target : Target) (s : BootState),
      attemptsAfter target < bound ->
      launchLoop cfg inputs (bound + extra) k target s =
        launchLoop cfg inputs bound k target s := by
  intro bound
  induction bound with
  | zero =>
      intro k target s h
      omega
  | succ bound ih =>
      intro k target s h
      rw [show bound + 1 + extra = (bound + extra) + 1 by omega]
      unfold launchLoop
      have hem := attemptsAfter_emFallbackTarget_le (inputs.batteryLevel k)
        (inputs.isChargerPresent k) target
      by_cases hnext : fallbackTarget (emFallbackTarget (inputs.batteryLevel k)
          (inputs.isChargerPresent k) target) = Target.unknown
      · simp [hnext]
      · have hlt := attemptsAfter_fallbackTarget_lt hnext
        have hrec := fun t => ih (k + 1) _ t (Nat.lt_of_lt_of_le hlt (by omega))
        simp only [hrec]

theorem launchOrFallback_eq (cfg : Config) (inputs : BootInputs) (extra : Nat)
    (target : Target) (s : BootState) :
    launchLoop cfg inputs (4 + extra) 0 target s =
      launchOrFallback cfg inputs target s := by
  apply launchLoop_bound
  cases target <;> decide

end BootLogic
end BootableUefi
