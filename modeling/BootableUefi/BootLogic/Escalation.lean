import Mathlib.Data.List.Induction
import BootableUefi.Foundation.Odometer
import BootableUefi.BootLogic.ColdReset

/-!
# Escalation of watchdog resets

Consecutive watchdog resets move a device along boot, recovery, fastboot and
DNX, three resets on each.  The device is compared with an odometer whose low
digit is `WdtCounter` and whose high digit is the place of `LoaderEntryLast`
in the chain; a watchdog event ticks it once, in both configurations.
-/

namespace BootableUefi
namespace BootLogic

open Firmware Foundation

/-- The chain of targets, by the high digit of the odometer. -/
def escalationTarget : Fin 4 -> Target
  | 0 => Target.boot
  | 1 => Target.recovery
  | 2 => Target.fastboot
  | 3 => Target.dnx

def escalationView (vars : EfiVariables) : Option String × Option Int × Option Int :=
  (vars.loaderEntryLast, vars.wdtCounter, vars.wdColdReset)

def EfiVariables.NamesLast (vars : EfiVariables) (cfg : Config) (target : Target) : Prop :=
  exists name : String, vars.loaderEntryLast = some name ∧
    nameToTarget cfg.enableFactoryModes name = Except.ok target

/-- The variables show the odometer; an absent counter counts as zero. -/
structure ShowsOdometer (cfg : Config) (vars : EfiVariables) (o : Odometer 4 3) :
    Prop where
  last : vars.NamesLast cfg (escalationTarget o.high)
  counter : vars.wdtCounter = some (o.low.val : Int) ∨
    (vars.wdtCounter = none ∧ o.low.val = 0)

theorem ShowsOdometer.of_view {cfg : Config} {vars others : EfiVariables}
    {o : Odometer 4 3} (h : ShowsOdometer cfg vars o)
    (hview : escalationView others = escalationView vars) :
    ShowsOdometer cfg others o := by
  simp only [escalationView, Prod.mk.injEq] at hview
  rcases hview with ⟨hlast, hcounter, _⟩
  rcases h with ⟨⟨name, hname, htarget⟩, hcount⟩
  refine ⟨⟨name, hlast.trans hname, htarget⟩, ?_⟩
  rwa [hcounter]

theorem Quiet.showsOdometer {cfg : Config} {s t : BootState} {o : Odometer 4 3}
    (hquiet : Quiet escalationView s t) (h : ShowsOdometer cfg s.vars o) :
    ShowsOdometer cfg t.vars o :=
  h.of_view hquiet.view

theorem Quiet.escalation_flag {s t : BootState} (hquiet : Quiet escalationView s t) :
    t.vars.wdColdReset = s.vars.wdColdReset :=
  congrArg (fun view => view.2.2) hquiet.view

/-!
# What a boot of the escalation finds

The boot is a reset with a charged battery, without a recovery request, and
the target it loads does not return.
-/

structure BootInputs.Escalates (inputs : BootInputs) : Prop where
  succeed : inputs.AccessesSucceed
  battery : inputs.isBatteryOk = true
  level : forall k, inputs.batteryLevel k = BattLevel.bootOs
  wake : inputs.wakeSource = WakeSource.notApplicable
  noRequest : loadBcb inputs = Target.unknown
  runs : forall k, inputs.loadTargetReturns k = false

section Counting

variable {cfg : Config} {inputs : BootInputs} {source : ResetSource}
variable {s : BootState} {o : Odometer 4 3}

theorem getEntryLast_of_shows (h : inputs.AccessesSucceed)
    (hshows : ShowsOdometer cfg s.vars o) :
    (getEntryLast cfg inputs s).1 = escalationTarget o.high := by
  rcases hshows.last with ⟨name, hname, htarget⟩
  simp [getEntryLast, getTargetFromVar, getVariable_of_succeed h, hname, htarget]

theorem uefiGetWdtCounter_of_shows (h : inputs.AccessesSucceed)
    (hshows : ShowsOdometer cfg s.vars o) :
    (uefiGetWdtCounter inputs s).1 = o.low.val := by
  have hvalue : (uefiGetSimpleVar inputs EfiVariables.wdtCounter s).1 =
      s.vars.wdtCounter.getD (-1) := by
    simp [uefiGetSimpleVar, getVariable_of_succeed h]
  unfold uefiGetWdtCounter
  dsimp only
  rw [hvalue]
  rcases hshows.counter with hsome | hnone
  · have hne : ¬ (o.low.val : Int) = -1 := by omega
    simp [hsome, hne]
  · simp [hnone.1, hnone.2]

theorem escalationTarget_fallback (level : Fin 4) :
    (if fallbackTarget (escalationTarget level) = Target.unknown then Target.boot
      else fallbackTarget (escalationTarget level)) = escalationTarget (level + 1) := by
  revert level
  decide

theorem escalationTarget_ne_unknown (level : Fin 4) :
    escalationTarget level ≠ Target.unknown := by
  revert level
  decide

/--
What counting leaves behind: the next reading, where `UNKNOWN` stands for the
first target of the chain.
-/
structure CountsNext (o : Odometer 4 3) (s : BootState) (result : CaseResult) : Prop where
  target : exists target : Target, result.1 = some target ∧
    (if target = Target.unknown then Target.boot else target) =
      escalationTarget o.tick.high
  counter : result.2.vars.wdtCounter = some (o.tick.low.val : Int)
  quiet : Quiet coldResetFlag s result.2

theorem countWatchdog_countsNext (h : inputs.AccessesSucceed)
    (hshows : ShowsOdometer cfg s.vars o) :
    CountsNext o s (countWatchdog inputs (escalationTarget o.high) s) := by
  have hread := uefiGetWdtCounter_of_shows h hshows
  have hlow := o.low.isLt
  have hquiet : Quiet coldResetFlag s
      (countWatchdog inputs (escalationTarget o.high) s).2 :=
    quiet_countWatchdog (fun _ _ => rfl) inputs (escalationTarget o.high) s
  unfold countWatchdog at hquiet ⊢
  dsimp only at hquiet ⊢
  rw [hread] at hquiet ⊢
  by_cases hcarry : o.low.val + 1 < 3
  · have hcount : ¬ (o.low.val : Int) + 1 ≥ 3 := by omega
    have hbyte : signedByte ((o.low.val : Int) + 1) = (o.low.val : Int) + 1 := by
      unfold signedByte
      rw [Int.bmod_def]
      omega
    rw [if_neg hcount] at hquiet ⊢
    constructor
    · refine ⟨escalationTarget o.high, rfl, ?_⟩
      rw [Odometer.tick_of_lt hcarry, if_neg (escalationTarget_ne_unknown o.high)]
    · rw [Odometer.tick_of_lt hcarry, uefiSetWdtCounter, setVariable_of_succeed h, hbyte]
      simp
    · exact hquiet
  · have hcount : (o.low.val : Int) + 1 ≥ 3 := by omega
    have hzero : signedByte 0 = 0 := by decide
    rw [if_pos hcount] at hquiet ⊢
    constructor
    · refine ⟨fallbackTarget (escalationTarget o.high), rfl, ?_⟩
      rw [Odometer.tick_of_not_lt hcarry, escalationTarget_fallback]
    · rw [Odometer.tick_of_not_lt hcarry, uefiSetWdtCounter, setVariable_of_succeed h, hzero]
      simp
    · exact hquiet

/--
`boot_watchdog` counts when the flag agrees with the configuration: it is set
exactly when a cold reset has to come first.
-/
theorem bootWatchdog_countsNext (h : inputs.AccessesSucceed)
    (hsource : isWatchdogReset source = true)
    (hflag : cfg.doColdResetAfterWd = true <-> s.vars.wdColdReset = some 1)
    (hshows : ShowsOdometer cfg s.vars o) :
    exists t : BootState,
      CountsNext o t (bootWatchdog cfg inputs source s) ∧
      t.vars.wdColdReset ≠ some 1 ∧ t.events = s.events := by
  have hlast : Quiet escalationView s (getEntryLast cfg inputs s).2 :=
    quiet_getTargetFromVar escalationView cfg inputs _ s
  have hentry := getEntryLast_of_shows h hshows
  have hkept := hlast.showsOdometer hshows
  unfold bootWatchdog
  dsimp only
  rw [if_pos hsource, hentry]
  by_cases hcold : cfg.doColdResetAfterWd = true
  · have hset : (getEntryLast cfg inputs s).2.vars.wdColdReset = some 1 :=
      hlast.escalation_flag.trans (hflag.mp hcold)
    have hread := (uefiGetWdColdReset_eq_one_iff _ h).mpr hset
    rw [if_pos hcold, if_pos hread]
    generalize (getEntryLast cfg inputs s).2 = t at hlast hkept
    have hcleared : ShowsOdometer cfg
        (uefiSetWdColdReset inputs 0 (uefiGetWdColdReset inputs t).2).2.vars o := by
      rw [uefiSetWdColdReset, setVariable_of_succeed h]
      exact ⟨hkept.last, hkept.counter⟩
    refine ⟨_, countWatchdog_countsNext h hcleared, ?_, hlast.events⟩
    · rw [uefiSetWdColdReset, setVariable_of_succeed h]
      simp [signedByte]
  · rw [if_neg hcold]
    refine ⟨_, countWatchdog_countsNext h hkept, ?_, hlast.events⟩
    rw [hlast.escalation_flag]
    exact fun hset => hcold (hflag.mpr hset)

theorem setEntryLast_of_name (h : inputs.AccessesSucceed) {target : Target} {name : String}
    (hname : targetToName cfg.enableFactoryModes target = Except.ok name) :
    (setEntryLast cfg inputs target s).2.vars.loaderEntryLast = some name := by
  unfold setEntryLast
  rw [hname]
  dsimp only
  rw [setVariable_of_succeed h]

theorem targetToName_escalationTarget (factoryModes : Bool) (level : Fin 4) :
    exists name : String,
      targetToName factoryModes (escalationTarget level) = Except.ok name := by
  cases factoryModes <;>
    match level with
    | 0 => exact ⟨"main", rfl⟩
    | 1 => exact ⟨"recovery", rfl⟩
    | 2 => exact ⟨"fastboot", rfl⟩
    | 3 => exact ⟨"dnx", rfl⟩

theorem setEntryLast_namesLast (h : inputs.AccessesSucceed) (level : Fin 4) :
    (setEntryLast cfg inputs (escalationTarget level) s).2.vars.NamesLast cfg
      (escalationTarget level) := by
  rcases targetToName_escalationTarget cfg.enableFactoryModes level with ⟨name, hname⟩
  exact ⟨name, setEntryLast_of_name h hname, nameToTarget_of_targetToName hname⟩

theorem bootWatchdog_of_no_flag_shows (h : inputs.AccessesSucceed)
    (hcold : cfg.doColdResetAfterWd = true) (hsource : isWatchdogReset source = true)
    (hflag : s.vars.wdColdReset ≠ some 1) (hshows : ShowsOdometer cfg s.vars o) :
    ShowsOdometer cfg (bootWatchdog cfg inputs source s).2.vars o := by
  have hlast : Quiet escalationView s (getEntryLast cfg inputs s).2 :=
    quiet_getTargetFromVar escalationView cfg inputs _ s
  have hread : (uefiGetWdColdReset inputs (getEntryLast cfg inputs s).2).1 ≠ 1 := by
    rw [Ne, uefiGetWdColdReset_eq_one_iff _ h, hlast.escalation_flag]
    exact hflag
  have hcounter := (hlast.showsOdometer hshows).counter
  unfold bootWatchdog
  dsimp only
  rw [if_pos hsource, if_pos hcold, if_neg hread, getEntryLast_of_shows h hshows]
  generalize ht : (uefiGetWdColdReset inputs (getEntryLast cfg inputs s).2).2 = t
  have htcounter : t.vars.wdtCounter = (getEntryLast cfg inputs s).2.vars.wdtCounter := by
    rw [← ht]
    rfl
  have hset : Quiet EfiVariables.wdtCounter t
      (setEntryLast cfg inputs (escalationTarget o.high) t).2 :=
    quiet_setEntryLast (fun _ => rfl) (fun _ _ => rfl) cfg inputs _ t
  have hstored : (setEntryLast cfg inputs (escalationTarget o.high) t).2.vars.NamesLast cfg
      (escalationTarget o.high) :=
    setEntryLast_namesLast h o.high
  rw [← htcounter, ← hset.view] at hcounter
  unfold requestColdReset
  dsimp only
  rw [BootState.emit_vars, uefiSetWdColdReset, setVariable_of_succeed h, saveResetSource,
    setVariable_of_succeed h]
  exact ⟨hstored, hcounter⟩

theorem targetFromReset_of_watchdog (hrequest : loadBcb inputs = Target.unknown)
    (hsource : isWatchdogReset source = true) :
    targetFromReset cfg inputs source s = bootWatchdog cfg inputs source s := by
  have hupdate : source ≠ ResetSource.fwUpdate := by
    rintro rfl
    cases hsource
  have hinitiated : ¬ (source = ResetSource.osInitiated ∨ source = ResetSource.forced) := by
    rintro (rfl | rfl) <;> cases hsource
  unfold targetFromReset runBootCases
  split
  · rename_i t heq
    rw [heq]
    simp [runBootCases, hrequest, bootFwUpdate, hupdate, bootReset, hinitiated]
  · rfl

theorem launchOrFallback_of_runs (h : inputs.Escalates) {target : Target}
    (htarget : target ≠ Target.coldOff) :
    launchOrFallback cfg inputs target s =
      (BootEnd.running target,
        (setEntryLast cfg inputs target s).2.emit
          (BootEvent.loadTarget target (setEntryLast cfg inputs target s).2.vars)) := by
  have hem : emFallbackTarget (inputs.batteryLevel 0) (inputs.isChargerPresent 0) target =
      target :=
    emFallbackTarget_of_bootOs (h.level 0)
  simp [launchOrFallback, launchLoop, hem, htarget, h.runs 0]

end Counting

/-!
# One boot of the escalation
-/

def loadedTargets (events : List BootEvent) : List Target :=
  events.filterMap fun event =>
    match event with
    | BootEvent.loadTarget target _ => some target
    | _ => none

/-- The boot runs the target the odometer shows, and stores the odometer. -/
structure BootRecord.EscalatedTo (record : BootRecord) (cfg : Config) (o : Odometer 4 3) :
    Prop where
  running : record.bootEnd = BootEnd.running (escalationTarget o.high)
  loads : loadedTargets record.events = [escalationTarget o.high]
  last : record.finalVars.NamesLast cfg (escalationTarget o.high)
  counter : record.finalVars.wdtCounter = some (o.low.val : Int)
  flag : record.finalVars.wdColdReset ≠ some 1

theorem BootRecord.EscalatedTo.shows {record : BootRecord} {cfg : Config}
    {o : Odometer 4 3} (h : record.EscalatedTo cfg o) :
    ShowsOdometer cfg record.finalVars o :=
  ⟨h.last, Or.inl h.counter⟩

section Boots

variable {cfg : Config} {inputs : BootInputs} {vars : EfiVariables} {o : Odometer 4 3}

theorem targetFromInputs_of_escalates (h : inputs.Escalates) (s : BootState) :
    targetFromInputs cfg inputs s = classifyReset cfg inputs s := by
  simp [targetFromInputs, h.battery, h.wake]

theorem targetFromInputs_of_watchdog (h : inputs.Escalates) {s : BootState}
    (hsource : isWatchdogReset (getResetSource cfg inputs s).1 = true) :
    exists t : BootState,
      t.events = s.events ++ [BootEvent.classified (getResetSource cfg inputs s).1] ∧
      escalationView t.vars = escalationView s.vars ∧
      targetFromInputs cfg inputs s =
        bootWatchdog cfg inputs (getResetSource cfg inputs s).1 t := by
  have hsees : forall vars : EfiVariables,
      escalationView { vars with savedResetSource := none } = escalationView vars :=
    fun _ => rfl
  rcases classifyReset_cases hsees cfg inputs s with ⟨t, hevents, hview, heq⟩
  refine ⟨t, hevents, hview, ?_⟩
  rw [targetFromInputs_of_escalates h, heq]
  generalize (getResetSource cfg inputs s).1 = source at hsource
  have herror : source ≠ ResetSource.error := by
    rintro rfl
    cases hsource
  have hna : source ≠ ResetSource.notApplicable := by
    rintro rfl
    cases hsource
  rw [if_neg herror, if_pos hna]
  exact targetFromReset_of_watchdog h.noRequest hsource

/-- A boot whose flag agrees with the configuration ticks the odometer. -/
theorem startBootLogic_ticks (h : inputs.Escalates) (hshows : ShowsOdometer cfg vars o)
    (hflag : cfg.doColdResetAfterWd = true <-> vars.wdColdReset = some 1)
    (hsource : isWatchdogReset
      (getResetSource cfg inputs (selectionState cfg inputs vars)).1 = true) :
    BootRecord.EscalatedTo
      { startVars := vars
        bootEnd := (startBootLogic cfg inputs vars).1
        finalVars := (startBootLogic cfg inputs vars).2.vars
        events := (startBootLogic cfg inputs vars).2.events } cfg o.tick := by
  have hstart : Quiet escalationView (BootState.start inputs vars)
      (selectionState cfg inputs vars) :=
    quiet_selectionState (fun _ _ => rfl) cfg inputs vars
  rcases targetFromInputs_of_watchdog h hsource with ⟨t, htevents, htview, hselect⟩
  have hquiet : escalationView t.vars = escalationView vars := htview.trans hstart.view
  have htflag : t.vars.wdColdReset = vars.wdColdReset :=
    congrArg (fun view => view.2.2) hquiet
  rw [← htflag] at hflag
  rcases bootWatchdog_countsNext h.succeed hsource hflag (hshows.of_view hquiet) with
    ⟨u, hcounts, huflag, huevents⟩
  rw [← hselect] at hcounts
  cases hchosen : targetFromInputs cfg inputs (selectionState cfg inputs vars) with
  | mk chosen s =>
      rw [hchosen] at hcounts
      rcases hcounts with ⟨⟨target, rfl, hnext⟩, hcounter, hkept⟩
      have herror : target ≠ Target.error := by
        rintro rfl
        revert hnext
        generalize o.tick.high = level
        revert level
        decide
      have hcoldOff : escalationTarget o.tick.high ≠ Target.coldOff := by
        generalize o.tick.high = level
        revert level
        decide
      rw [startBootLogic_of_selected hchosen herror, hnext,
        launchOrFallback_of_runs h hcoldOff]
      have hget : Quiet (fun vars => (vars.wdtCounter, vars.wdColdReset)) s
          (getResetSource cfg inputs s).2 :=
        quiet_getResetSource (fun _ => rfl) cfg inputs s
      have hset : Quiet (fun vars => (vars.wdtCounter, vars.wdColdReset))
          (getResetSource cfg inputs s).2
          (setEntryLast cfg inputs (escalationTarget o.tick.high)
            (getResetSource cfg inputs s).2).2 :=
        quiet_setEntryLast (fun _ => rfl) (fun _ _ => rfl) cfg inputs _ _
      have hlaunch := Quiet.trans hget hset
      have hevents : s.events =
          [BootEvent.classified
            (getResetSource cfg inputs (selectionState cfg inputs vars)).1] := by
        rw [hkept.events, huevents, htevents, hstart.events]
        rfl
      constructor
      · rfl
      · dsimp only
        rw [BootState.emit_events, hlaunch.events, hevents]
        rfl
      · exact setEntryLast_namesLast h.succeed o.tick.high
      · exact (congrArg Prod.fst hlaunch.view).trans hcounter
      · dsimp only
        rw [BootState.emit_vars]
        intro hset
        have hfinal := (congrArg Prod.snd hlaunch.view).symm.trans hset
        exact huflag (hkept.wdColdReset.symm.trans hfinal)

theorem getResetSource_of_not_pending {s : BootState} (h : inputs.AccessesSucceed)
    (hpending : cfg.doColdResetAfterWd = true -> s.vars.wdColdReset ≠ some 1)
    (hstatic : s.resetSource = ResetSource.error) :
    (getResetSource cfg inputs s).1 = s.rsciResetSource := by
  have hnot : (coldResetPending cfg inputs s).1 ≠ true := by
    intro hset
    by_cases hcold : cfg.doColdResetAfterWd = true
    · exact hpending hcold ((coldResetPending_iff s h hcold).mp hset)
    · simp [coldResetPending, hcold] at hset
  have hkept : (coldResetPending cfg inputs s).2.rsciResetSource = s.rsciResetSource := by
    unfold coldResetPending
    split <;> rfl
  unfold getResetSource
  rw [if_neg (by simpa using hstatic)]
  dsimp only
  rw [if_neg hnot]
  unfold deleteVariable
  split <;> exact hkept

/-- The boot that asks for the cold reset leaves the odometer as it is. -/
theorem startBootLogic_forces (h : inputs.Escalates)
    (hcold : cfg.doColdResetAfterWd = true) (hflag : vars.wdColdReset ≠ some 1)
    (hshows : ShowsOdometer cfg vars o)
    (hsource : isWatchdogReset inputs.resetSource = true) :
    (startBootLogic cfg inputs vars).1 = BootEnd.coldReset ∧
      (startBootLogic cfg inputs vars).2.vars.wdColdReset = some 1 ∧
      (startBootLogic cfg inputs vars).2.vars.savedResetSource = some inputs.resetSource ∧
      ShowsOdometer cfg (startBootLogic cfg inputs vars).2.vars o := by
  have hstart : Quiet escalationView (BootState.start inputs vars)
      (selectionState cfg inputs vars) :=
    quiet_selectionState (fun _ _ => rfl) cfg inputs vars
  have hstatic := selectionState_resetSource cfg inputs vars
  have hread : (getResetSource cfg inputs (selectionState cfg inputs vars)).1 =
      inputs.resetSource := by
    rw [getResetSource_of_not_pending h.succeed _ hstatic.1, hstatic.2]
    intro _
    rw [hstart.escalation_flag]
    exact hflag
  rw [← hread] at hsource
  rcases targetFromInputs_of_watchdog h hsource with ⟨t, _, htview, hselect⟩
  rw [hread] at hsource hselect
  have hquiet : escalationView t.vars = escalationView vars := htview.trans hstart.view
  have htshows := hshows.of_view hquiet
  have htflag : t.vars.wdColdReset ≠ some 1 := by
    intro hset
    exact hflag ((congrArg (fun view => view.2.2) hquiet).symm.trans hset)
  have hforced := bootWatchdog_of_no_flag t h.succeed hcold hsource htflag
  have hkept := bootWatchdog_of_no_flag_shows h.succeed hcold hsource htflag htshows
  cases hchosen : targetFromInputs cfg inputs (selectionState cfg inputs vars) with
  | mk chosen s =>
      rw [← hselect, hchosen] at hforced hkept
      rcases hforced with ⟨rfl, _, hset, hsaved⟩
      rw [startBootLogic_eq, hchosen]
      exact ⟨rfl, hset, hsaved, hkept⟩

end Boots

/-!
# Runs of watchdog events
-/

/--
One watchdog event: the boot that follows the reset and the one that follows
the cold reset it may force.
-/
structure WatchdogEvent where
  reset : BootInputs
  resume : BootInputs
  watchdog : isWatchdogReset reset.resetSource = true
  resetEscalates : reset.Escalates
  resumeEscalates : resume.Escalates

def WatchdogEvent.boots (cfg : Config) (event : WatchdogEvent) : List BootInputs :=
  if cfg.doColdResetAfterWd then [event.reset, event.resume] else [event.reset]

structure Device.EscalatedTo (d : Device) (cfg : Config) (o : Odometer 4 3) : Prop where
  latest : exists (record : BootRecord) (older : List BootRecord),
    d.history = record :: older ∧ d.vars = record.finalVars ∧ record.EscalatedTo cfg o ∧
    (cfg.doColdResetAfterWd = true -> exists (forced : BootRecord) (rest : List BootRecord),
      older = forced :: rest ∧ forced.bootEnd = BootEnd.coldReset)

theorem osWrites_escalationView (inputs : BootInputs) (vars : EfiVariables) :
    escalationView (osWrites inputs vars) = escalationView vars := by
  unfold osWrites
  split <;> rfl

section Events

variable {cfg : Config} {d : Device} {o : Odometer 4 3}

theorem watchdogEvent_ticks (event : WatchdogEvent) (hshows : ShowsOdometer cfg d.vars o)
    (hflag : d.vars.wdColdReset ≠ some 1) :
    exists e : Device, runFrom (Device.step cfg) d (event.boots cfg) = some e ∧
      e.EscalatedTo cfg o.tick := by
  have hready := hshows.of_view (osWrites_escalationView event.reset d.vars)
  have hclear : (osWrites event.reset d.vars).wdColdReset ≠ some 1 := by
    rw [osWrites_wdColdReset]
    exact hflag
  by_cases hcold : cfg.doColdResetAfterWd = true
  · have hforced := startBootLogic_forces event.resetEscalates hcold hclear hready event.watchdog
    rcases hforced with ⟨hend, hset, hsaved, hkept⟩
    generalize hvars : (startBootLogic cfg event.reset
      (osWrites event.reset d.vars)).2.vars = vars at hset hsaved hkept
    have hresume := hkept.of_view (osWrites_escalationView event.resume vars)
    have hagrees : cfg.doColdResetAfterWd = true <->
        (osWrites event.resume vars).wdColdReset = some 1 := by
      rw [osWrites_wdColdReset]
      exact iff_of_true hcold hset
    have hstart : Quiet (fun vars => (vars.wdColdReset, vars.savedResetSource))
        (BootState.start event.resume (osWrites event.resume vars))
        (selectionState cfg event.resume (osWrites event.resume vars)) :=
      quiet_selectionState (fun _ _ => rfl) cfg event.resume _
    have hsource := getResetSource_of_flag _ event.resumeEscalates.succeed hcold
      ((congrArg Prod.fst hstart.view).trans (hagrees.mp hcold))
      ((congrArg Prod.snd hstart.view).trans
        ((osWrites_savedResetSource event.resume vars).trans hsaved))
      (selectionState_resetSource cfg event.resume _).1
    have hticks := startBootLogic_ticks event.resumeEscalates hresume hagrees
      (by rw [hsource]; exact event.watchdog)
    refine ⟨_, by rw [WatchdogEvent.boots, if_pos hcold]; rfl, ?_⟩
    refine ⟨_, _, rfl, rfl, ?_, fun _ => ⟨_, _, rfl, hend⟩⟩
    rw [← hvars] at hticks
    exact hticks
  · have hagrees : cfg.doColdResetAfterWd = true <->
        (osWrites event.reset d.vars).wdColdReset = some 1 :=
      iff_of_false hcold hclear
    have hstatic := selectionState_resetSource cfg event.reset (osWrites event.reset d.vars)
    have hsource := getResetSource_of_not_pending event.resetEscalates.succeed
      (fun h => absurd h hcold) hstatic.1
    have hticks := startBootLogic_ticks event.resetEscalates hready hagrees
      (by rw [hsource, hstatic.2]; exact event.watchdog)
    refine ⟨_, by rw [WatchdogEvent.boots, if_neg hcold]; rfl, ?_⟩
    exact ⟨_, _, rfl, rfl, hticks, fun h => absurd h hcold⟩

theorem watchdogEvents_tick (hshows : ShowsOdometer cfg d.vars o)
    (hflag : d.vars.wdColdReset ≠ some 1) (events : List WatchdogEvent) :
    exists e : Device,
      runFrom (Device.step cfg) d (events.flatMap (WatchdogEvent.boots cfg)) = some e ∧
      ShowsOdometer cfg e.vars (Odometer.tick^[events.length] o) ∧
      e.vars.wdColdReset ≠ some 1 ∧
      (events ≠ [] -> e.EscalatedTo cfg (Odometer.tick^[events.length] o)) := by
  induction events using List.reverseRec with
  | nil => exact ⟨d, rfl, hshows, hflag, fun h => absurd rfl h⟩
  | append_singleton events event ih =>
      rcases ih with ⟨e, hrun, heshows, heflag, _⟩
      rcases watchdogEvent_ticks event heshows heflag with ⟨f, hstep, hescalated⟩
      have hlength : Odometer.tick^[(events ++ [event]).length] o =
          (Odometer.tick^[events.length] o).tick := by
        rw [List.length_append]
        exact Function.iterate_succ_apply' Odometer.tick events.length o
      rw [hlength]
      refine ⟨f, ?_, ?_, ?_, fun _ => hescalated⟩
      · rw [List.flatMap_append, runFrom_append, hrun]
        simpa using hstep
      · rcases hescalated.latest with ⟨record, older, _, hvars, hrecord, _⟩
        rw [hvars]
        exact hrecord.shows
      · rcases hescalated.latest with ⟨record, older, _, hvars, hrecord, _⟩
        rw [hvars]
        exact hrecord.flag

end Events

/--
After any positive number of watchdog events the device runs the target the
chain has for it, three events on each, in both configurations.
-/
theorem escalation_run (cfg : Config) {vars : EfiVariables}
    (hlast : vars.loaderEntryLast = some "main")
    (hcounter : vars.wdtCounter = none ∨ vars.wdtCounter = some 0)
    (hflag : vars.wdColdReset ≠ some 1) (events : List WatchdogEvent) (hevents : events ≠ []) :
    exists (d : Device) (record : BootRecord) (older : List BootRecord),
      runFrom (Device.step cfg) (Device.fresh vars)
        (events.flatMap (WatchdogEvent.boots cfg)) = some d ∧
      d.history = record :: older ∧
      record.bootEnd =
        BootEnd.running (escalationTarget (Fin.ofNat 4 (events.length / 3))) ∧
      loadedTargets record.events =
        [escalationTarget (Fin.ofNat 4 (events.length / 3))] ∧
      d.vars.NamesLast cfg (escalationTarget (Fin.ofNat 4 (events.length / 3))) ∧
      d.vars.wdtCounter = some ((events.length % 3 : Nat) : Int) ∧
      (cfg.doColdResetAfterWd = true -> exists (forced : BootRecord) (rest : List BootRecord),
        older = forced :: rest ∧ forced.bootEnd = BootEnd.coldReset) := by
  have hshows : ShowsOdometer cfg (Device.fresh vars).vars Odometer.zero := by
    refine ⟨⟨"main", hlast, ?_⟩, ?_⟩
    · cases cfg.enableFactoryModes <;> rfl
    · rcases hcounter with hnone | hzero
      · exact Or.inr ⟨hnone, rfl⟩
      · exact Or.inl hzero
  rcases watchdogEvents_tick hshows hflag events with ⟨d, hrun, _, _, hescalated⟩
  have hreading := hescalated hevents
  rw [Odometer.iterate_tick_zero] at hreading
  rcases hreading.latest with ⟨record, older, hhistory, hvars, hrecord, hforced⟩
  refine ⟨d, record, older, hrun, hhistory, hrecord.running, hrecord.loads, ?_, ?_, hforced⟩
  · rw [hvars]
    exact hrecord.last
  · rw [hvars, hrecord.counter]
    rfl

theorem plainReset_escalates (source : ResetSource) : (plainReset source).Escalates :=
  ⟨plainReset_accessesSucceed source, rfl, fun _ => rfl, rfl, rfl, fun _ => rfl⟩

def kernelWatchdogEvent : WatchdogEvent where
  reset := plainReset ResetSource.kernelWatchdog
  resume := plainReset ResetSource.osInitiated
  watchdog := rfl
  resetEscalates := plainReset_escalates ResetSource.kernelWatchdog
  resumeEscalates := plainReset_escalates ResetSource.osInitiated

theorem escalation_run_of_seven :
    exists (d : Device) (record : BootRecord) (older : List BootRecord),
      runFrom (Device.step ⟨true, false⟩) (Device.fresh (lastEntryOnly "main"))
        ((List.replicate 7 kernelWatchdogEvent).flatMap
          (WatchdogEvent.boots ⟨true, false⟩)) = some d ∧
      d.history = record :: older ∧
      record.bootEnd = BootEnd.running Target.fastboot ∧
      d.vars.wdtCounter = some 1 := by
  have hlast : (lastEntryOnly "main").loaderEntryLast = some "main" := rfl
  have hcounter : (lastEntryOnly "main").wdtCounter = none := rfl
  have hflag : (lastEntryOnly "main").wdColdReset ≠ some 1 := by decide
  have hevents : List.replicate 7 kernelWatchdogEvent ≠ [] := by decide
  rcases escalation_run ⟨true, false⟩ hlast (Or.inl hcounter) hflag _ hevents with
    ⟨d, record, older, hrun, hhistory, hend, _, _, hcount, _⟩
  exact ⟨d, record, older, hrun, hhistory, hend, hcount⟩

end BootLogic
end BootableUefi
