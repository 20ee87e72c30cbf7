import BootableUefi.BootLogic.History

/-!
# The cold reset handshake

`boot_watchdog` answers a watchdog reset by saving its source, setting
`WDColdReset` and asking for a cold reset; the boot that follows takes the saved
source and clears the flag.  The two halves meet only if the second boot gets as
far as `boot_watchdog`: it must not leave `target_from_inputs` for the battery
or for a wake source.
-/

namespace BootableUefi
namespace BootLogic

open Firmware Foundation

section Watchdog

variable {cfg : Config} {inputs : BootInputs} {source : ResetSource} (s : BootState)

theorem uefiGetWdColdReset_eq_one_iff (h : inputs.AccessesSucceed) :
    (uefiGetWdColdReset inputs s).1 = 1 <-> s.vars.wdColdReset = some 1 := by
  rw [uefiGetWdColdReset, uefiGetSimpleVar, getVariable_of_succeed h]
  cases s.vars.wdColdReset <;> simp

theorem coldResetPending_iff (h : inputs.AccessesSucceed)
    (hcold : cfg.doColdResetAfterWd = true) :
    (coldResetPending cfg inputs s).1 = true <-> s.vars.wdColdReset = some 1 := by
  have hflag := uefiGetWdColdReset_eq_one_iff s h
  simpa [coldResetPending, hcold] using hflag

theorem bootWatchdog_of_not_watchdog (hsource : isWatchdogReset source = false) :
    bootWatchdog cfg inputs source s = (some Target.unknown, s) := by
  simp [bootWatchdog, hsource]

theorem bootWatchdog_of_flag (h : inputs.AccessesSucceed)
    (hcold : cfg.doColdResetAfterWd = true) (hsource : isWatchdogReset source = true)
    (hflag : s.vars.wdColdReset = some 1) :
    (bootWatchdog cfg inputs source s).1 ≠ none ∧
      (bootWatchdog cfg inputs source s).2.events = s.events ∧
      (bootWatchdog cfg inputs source s).2.vars.wdColdReset = some 0 := by
  have hlast := quiet_getTargetFromVar coldResetFlag cfg inputs EfiVariables.loaderEntryLast s
  have hget := quiet_getVariable coldResetFlag inputs EfiVariables.wdColdReset
    (getEntryLast cfg inputs s).2
  have hquiet := Quiet.trans hlast hget
  have hread : (uefiGetWdColdReset inputs (getEntryLast cfg inputs s).2).1 = 1 :=
    (uefiGetWdColdReset_eq_one_iff _ h).mpr (hlast.wdColdReset.trans hflag)
  have hcount : forall t, Quiet coldResetFlag t
      (countWatchdog inputs (getEntryLast cfg inputs s).1 t).2 := by
    intro t
    exact quiet_countWatchdog (fun _ _ => rfl) inputs (getEntryLast cfg inputs s).1 t
  simp only [bootWatchdog, hsource, hcold, hread, if_true]
  refine ⟨?_, ?_, ?_⟩
  · unfold countWatchdog
    dsimp only
    split <;> simp
  · exact (hcount _).events.trans hquiet.events
  · rw [(hcount _).wdColdReset, uefiSetWdColdReset, setVariable_of_succeed h]
    rfl

theorem bootWatchdog_of_no_flag (h : inputs.AccessesSucceed)
    (hcold : cfg.doColdResetAfterWd = true) (hsource : isWatchdogReset source = true)
    (hflag : s.vars.wdColdReset ≠ some 1) :
    (bootWatchdog cfg inputs source s).1 = none ∧
      (bootWatchdog cfg inputs source s).2.events =
        s.events ++ [BootEvent.coldReset source] ∧
      (bootWatchdog cfg inputs source s).2.vars.wdColdReset = some 1 ∧
      (bootWatchdog cfg inputs source s).2.vars.savedResetSource = some source := by
  have hlast := quiet_getTargetFromVar coldResetFlag cfg inputs EfiVariables.loaderEntryLast s
  have hget := quiet_getVariable coldResetFlag inputs EfiVariables.wdColdReset
    (getEntryLast cfg inputs s).2
  have hread : ¬ (uefiGetWdColdReset inputs (getEntryLast cfg inputs s).2).1 = 1 := by
    rw [uefiGetWdColdReset_eq_one_iff _ h]
    intro hset
    exact hflag (hlast.wdColdReset.symm.trans hset)
  have hset : Quiet coldResetFlag (uefiGetWdColdReset inputs (getEntryLast cfg inputs s).2).2
      (setEntryLast cfg inputs (getEntryLast cfg inputs s).1
        (uefiGetWdColdReset inputs (getEntryLast cfg inputs s).2).2).2 :=
    quiet_setEntryLast (fun _ => rfl) (fun _ _ => rfl) cfg inputs _ _
  have hquiet := Quiet.trans (Quiet.trans hlast hget) hset
  simp only [bootWatchdog, hsource, hcold, hread, if_true, if_false, requestColdReset]
  refine ⟨trivial, ?_, ?_, ?_⟩
  · rw [BootState.emit_events, uefiSetWdColdReset, setVariable_of_succeed h,
      saveResetSource, setVariable_of_succeed h]
    exact congrArg (· ++ [BootEvent.coldReset source]) hquiet.events
  · rw [BootState.emit_vars, uefiSetWdColdReset, setVariable_of_succeed h]
    rfl
  · rw [BootState.emit_vars, uefiSetWdColdReset, setVariable_of_succeed h,
      saveResetSource, setVariable_of_succeed h]

theorem targetFromReset_of_returns
    (hreturns : (bootWatchdog cfg inputs source s).1 ≠ none) :
    Quiet coldResetFlag (bootWatchdog cfg inputs source s).2
        (targetFromReset cfg inputs source s).2 ∧
      (targetFromReset cfg inputs source s).1 ≠ none := by
  unfold targetFromReset runBootCases
  split
  · rename_i t heq
    rw [heq]
    apply runBootCases_quiet
    · intro bootCase hmem t
      simp only [List.mem_cons, List.not_mem_nil, or_false] at hmem
      rcases hmem with rfl | rfl | rfl
      · exact Quiet.refl coldResetFlag t
      · exact quiet_bootFwUpdate (fun _ _ => rfl) inputs source t
      · exact quiet_bootReset coldResetFlag cfg inputs source t
    · intro bootCase hmem t
      simp only [List.mem_cons, List.not_mem_nil, or_false] at hmem
      rcases hmem with rfl | rfl | rfl
      · simp
      · unfold bootFwUpdate
        split
        · split <;> simp
        · simp
      · unfold bootReset
        split <;> simp
  · exact ⟨Quiet.refl coldResetFlag _, hreturns⟩

theorem targetFromReset_of_reset
    (hreset : (bootWatchdog cfg inputs source s).1 = none) :
    targetFromReset cfg inputs source s = bootWatchdog cfg inputs source s := by
  unfold targetFromReset runBootCases
  split
  · rename_i t heq
    rw [heq] at hreset
    cases hreset
  · rfl

theorem getResetSource_of_flag (h : inputs.AccessesSucceed)
    (hcold : cfg.doColdResetAfterWd = true) (hflag : s.vars.wdColdReset = some 1)
    (hsaved : s.vars.savedResetSource = some source)
    (hstatic : s.resetSource = ResetSource.error) :
    (getResetSource cfg inputs s).1 = source := by
  have hpending := (coldResetPending_iff s h hcold).mpr hflag
  have hvars : (coldResetPending cfg inputs s).2.vars = s.vars := by
    simp [coldResetPending, hcold, uefiGetWdColdReset, uefiGetSimpleVar, getVariable]
  simp only [getResetSource, hstatic, ne_eq, not_true_eq_false, if_false, hpending, if_true]
  rw [getVariable_of_succeed h]
  simp only [hvars, hsaved]
  unfold deleteVariable
  split <;> rfl

theorem classifyReset_of_flag (h : inputs.AccessesSucceed)
    (hcold : cfg.doColdResetAfterWd = true) (hsource : isWatchdogReset source = true)
    (hflag : s.vars.wdColdReset = some 1)
    (hsaved : s.vars.savedResetSource = some source)
    (hstatic : s.resetSource = ResetSource.error) :
    (classifyReset cfg inputs s).1 ≠ none ∧
      (classifyReset cfg inputs s).2.events =
        s.events ++ [BootEvent.classified source] ∧
      (classifyReset cfg inputs s).2.vars.wdColdReset = some 0 := by
  have hsees : forall vars : EfiVariables,
      coldResetFlag { vars with savedResetSource := none } = coldResetFlag vars :=
    fun _ => rfl
  rcases classifyReset_cases hsees cfg inputs s with ⟨t, hevents, htflag, heq⟩
  have herror : source ≠ ResetSource.error := by
    intro h
    rw [h] at hsource
    cases hsource
  have hna : source ≠ ResetSource.notApplicable := by
    intro h
    rw [h] at hsource
    cases hsource
  rw [getResetSource_of_flag s h hcold hflag hsaved hstatic] at heq hevents
  rw [if_neg herror, if_pos hna] at heq
  have hwatchdog := bootWatchdog_of_flag t h hcold hsource (htflag.trans hflag)
  have hreset := targetFromReset_of_returns t hwatchdog.1
  rw [heq]
  refine ⟨hreset.2, ?_, ?_⟩
  · rw [hreset.1.events, hwatchdog.2.1, hevents]
  · rw [hreset.1.wdColdReset, hwatchdog.2.2]

structure ColdResetForced (source : ResetSource) (vars : EfiVariables)
    (events : List BootEvent) : Prop where
  watchdog : isWatchdogReset source = true
  saved : vars.savedResetSource = some source
  flag : vars.wdColdReset = some 1
  event : BootEvent.coldReset source ∈ events

theorem classifyReset_of_no_flag (h : inputs.AccessesSucceed)
    (hcold : cfg.doColdResetAfterWd = true) (hflag : s.vars.wdColdReset ≠ some 1) :
    ((classifyReset cfg inputs s).1 = none ∧
        exists source, ColdResetForced source (classifyReset cfg inputs s).2.vars
          (classifyReset cfg inputs s).2.events) ∨
      ((classifyReset cfg inputs s).1 ≠ none ∧
        (classifyReset cfg inputs s).2.vars.wdColdReset ≠ some 1) := by
  have hsees : forall vars : EfiVariables,
      coldResetFlag { vars with savedResetSource := none } = coldResetFlag vars :=
    fun _ => rfl
  rcases classifyReset_cases hsees cfg inputs s with ⟨t, _hevents, htflag, heq⟩
  have hclear : t.vars.wdColdReset ≠ some 1 := by
    intro hset
    exact hflag (htflag.symm.trans hset)
  generalize (getResetSource cfg inputs s).1 = source at heq
  rw [heq]
  split
  · exact Or.inr ⟨by simp, hclear⟩
  · split
    · cases hsource : isWatchdogReset source with
      | false =>
          have hskip : bootWatchdog cfg inputs source t = (some Target.unknown, t) :=
            bootWatchdog_of_not_watchdog t hsource
          have hreturns : (bootWatchdog cfg inputs source t).1 ≠ none := by
            rw [hskip]
            simp
          have hreset := targetFromReset_of_returns t hreturns
          rw [hskip] at hreset
          refine Or.inr ⟨hreset.2, ?_⟩
          rwa [hreset.1.wdColdReset]
      | true =>
          have hforced := bootWatchdog_of_no_flag t h hcold hsource hclear
          rw [targetFromReset_of_reset t hforced.1]
          refine Or.inl ⟨hforced.1, source, hsource, hforced.2.2.2, hforced.2.2.1, ?_⟩
          rw [hforced.2.1]
          simp
    · exact Or.inr ⟨by simp, hclear⟩

end Watchdog

/-!
# One whole boot
-/

section Boot

variable {cfg : Config} {inputs : BootInputs} {vars : EfiVariables}

theorem startBootLogic_of_target {target : Target} {s : BootState}
    (hselect : targetFromInputs cfg inputs (selectionState cfg inputs vars) =
      (some target, s)) :
    exists launched : List BootEvent,
      (startBootLogic cfg inputs vars).2.events = s.events ++ launched ∧
      (forall event, event ∈ launched -> IsLaunchEvent s.vars.wdColdReset event) ∧
      (startBootLogic cfg inputs vars).2.vars.wdColdReset = s.vars.wdColdReset ∧
      (startBootLogic cfg inputs vars).1 ≠ BootEnd.coldReset := by
  by_cases herror : target = Target.error
  · refine ⟨[], ?_⟩
    rw [startBootLogic_eq, hselect, herror]
    simp
  · have hget : Quiet coldResetFlag s (getResetSource cfg inputs s).2 :=
      quiet_getResetSource (fun _ => rfl) cfg inputs s
    rw [startBootLogic_of_selected hselect herror]
    have hspec := launchLoop_spec cfg inputs 4 0
      (if target = Target.unknown then Target.boot else target)
      (getResetSource cfg inputs s).2
    rw [hget.events, hget.wdColdReset] at hspec
    exact hspec

theorem startBootLogic_of_reset {s : BootState}
    (hselect : targetFromInputs cfg inputs (selectionState cfg inputs vars) = (none, s)) :
    startBootLogic cfg inputs vars = (BootEnd.coldReset, s) := by
  rw [startBootLogic_eq, hselect]

/-- A boot that finds the flag clear sets it only by forcing a cold reset. -/
theorem startBootLogic_of_no_flag (h : inputs.AccessesSucceed)
    (hcold : cfg.doColdResetAfterWd = true) (hflag : vars.wdColdReset ≠ some 1)
    (hend : (startBootLogic cfg inputs vars).2.vars.wdColdReset = some 1) :
    (startBootLogic cfg inputs vars).1 = BootEnd.coldReset ∧
      exists source, ColdResetForced source (startBootLogic cfg inputs vars).2.vars
        (startBootLogic cfg inputs vars).2.events := by
  have hstart : Quiet coldResetFlag (BootState.start inputs vars)
      (selectionState cfg inputs vars) :=
    quiet_selectionState (fun _ _ => rfl) cfg inputs vars
  have hsel : (selectionState cfg inputs vars).vars.wdColdReset ≠ some 1 := by
    rw [hstart.wdColdReset]
    exact hflag
  cases hselect : targetFromInputs cfg inputs (selectionState cfg inputs vars) with
  | mk chosen s =>
      have hchoice : (chosen = none ∧ exists source, ColdResetForced source s.vars s.events) ∨
          (chosen ≠ none ∧ s.vars.wdColdReset ≠ some 1) := by
        unfold targetFromInputs at hselect
        split at hselect
        · cases hselect
          exact Or.inr ⟨by simp, hsel⟩
        · split at hselect
          · cases hselect
            exact Or.inr ⟨by simp, hsel⟩
          · split at hselect
            · have hoff := targetFromOff_quiet inputs inputs.wakeSource
                (selectionState cfg inputs vars)
              rw [hselect] at hoff
              exact Or.inr ⟨hoff.2, by rw [hoff.1.wdColdReset]; exact hsel⟩
            · have hreset := classifyReset_of_no_flag _ h hcold hsel
              rw [hselect] at hreset
              exact hreset
      cases chosen with
      | none =>
          rw [startBootLogic_of_reset hselect]
          rcases hchoice with hforced | hno
          · exact ⟨rfl, hforced.2⟩
          · exact absurd rfl hno.1
      | some target =>
          rcases startBootLogic_of_target hselect with ⟨_, _, _, hkeep, _⟩
          rcases hchoice with hforced | hno
          · cases hforced.1
          · exact absurd (hkeep.symm.trans hend) hno.2

/--
A boot that finds the flag set, and is a plain reset with a good battery, works
with the saved source and launches with the flag cleared.
-/
theorem startBootLogic_of_flag {source : ResetSource} (h : inputs.AccessesSucceed)
    (hcold : cfg.doColdResetAfterWd = true) (hbattery : inputs.isBatteryOk = true)
    (hwake : inputs.wakeSource = WakeSource.notApplicable)
    (hsource : isWatchdogReset source = true) (hflag : vars.wdColdReset = some 1)
    (hsaved : vars.savedResetSource = some source) :
    (startBootLogic cfg inputs vars).2.vars.wdColdReset = some 0 ∧
      exists launched : List BootEvent,
        (startBootLogic cfg inputs vars).2.events =
          BootEvent.classified source :: launched ∧
        forall event, event ∈ launched -> IsLaunchEvent (some 0) event := by
  have hstart : Quiet coldResetFlag (BootState.start inputs vars)
      (selectionState cfg inputs vars) :=
    quiet_selectionState (fun _ _ => rfl) cfg inputs vars
  have hkept : Quiet EfiVariables.savedResetSource (BootState.start inputs vars)
      (selectionState cfg inputs vars) :=
    quiet_selectionState (fun _ _ => rfl) cfg inputs vars
  have hclass := classifyReset_of_flag (selectionState cfg inputs vars) h hcold hsource
    (hstart.wdColdReset.trans hflag) (hkept.view.trans hsaved)
    (selectionState_resetSource cfg inputs vars).1
  have hselect : targetFromInputs cfg inputs (selectionState cfg inputs vars) =
      classifyReset cfg inputs (selectionState cfg inputs vars) := by
    simp [targetFromInputs, hbattery, hwake]
  rw [hstart.events] at hclass
  rw [← hselect] at hclass
  cases hchosen : targetFromInputs cfg inputs (selectionState cfg inputs vars) with
  | mk chosen s =>
      rw [hchosen] at hclass
      cases chosen with
      | none => exact absurd rfl hclass.1
      | some target =>
          rcases startBootLogic_of_target hchosen with ⟨launched, hevents, hall, hkeep, _⟩
          refine ⟨hkeep.trans hclass.2.2, launched, ?_, ?_⟩
          · rw [hevents, hclass.2.1]
            rfl
          · rw [hclass.2.2] at hall
            exact hall

end Boot

/-!
# Runs of boots
-/

def BootRecord.FoundFlag (record : BootRecord) : Prop :=
  record.startVars.wdColdReset = some 1

/-- `WDColdReset` is not one whenever the boot loads a target or shuts down. -/
def BootRecord.HandsOverClear (record : BootRecord) : Prop :=
  (forall target vars, BootEvent.loadTarget target vars ∈ record.events ->
      vars.wdColdReset ≠ some 1) ∧
    forall vars, BootEvent.coldOff vars ∈ record.events -> vars.wdColdReset ≠ some 1

/--
The handshake between a boot and the one before it: the earlier boot ended in
the cold reset `boot_watchdog` asked for, the later one classifies its reset
with the source that was saved, with no other, and hands over with the flag clear.
-/
def ResumesColdReset (previous record : BootRecord) : Prop :=
  (exists source : ResetSource,
    previous.bootEnd = BootEnd.coldReset ∧
    ColdResetForced source previous.finalVars previous.events ∧
    BootEvent.classified source ∈ record.events ∧
    forall other, BootEvent.classified other ∈ record.events -> other = source) ∧
  record.HandsOverClear

/-- Every boot of the history that found the flag resumes the boot before it. -/
def ColdResetDiscipline (history : List BootRecord) : Prop :=
  forall (newer : List BootRecord) (record : BootRecord) (older : List BootRecord),
    history = newer ++ record :: older -> record.FoundFlag ->
    exists (previous : BootRecord) (rest : List BootRecord),
      older = previous :: rest ∧ ResumesColdReset previous record

/--
The boot that follows a forced cold reset is a plain reset with a good battery,
so that it reaches `boot_watchdog`.
-/
def ResumesAsReset (d : Device) (inputs : BootInputs) : Prop :=
  d.vars.wdColdReset = some 1 ->
    inputs.isBatteryOk = true ∧ inputs.wakeSource = WakeSource.notApplicable

/-- The flag is set only right after a boot that forced the cold reset. -/
def FlagFromLastBoot (d : Device) : Prop :=
  d.vars.wdColdReset = some 1 ->
    exists (previous : BootRecord) (rest : List BootRecord) (source : ResetSource),
      d.history = previous :: rest ∧ previous.bootEnd = BootEnd.coldReset ∧
      previous.finalVars = d.vars ∧
      ColdResetForced source previous.finalVars previous.events

theorem coldResetDiscipline_cons {record : BootRecord} {history : List BootRecord}
    (hhistory : ColdResetDiscipline history)
    (hrecord : record.FoundFlag -> exists (previous : BootRecord) (rest : List BootRecord),
      history = previous :: rest ∧ ResumesColdReset previous record) :
    ColdResetDiscipline (record :: history) := by
  intro newer found older hsplit hflag
  cases newer with
  | nil =>
      simp only [List.nil_append, List.cons.injEq] at hsplit
      rcases hsplit with ⟨rfl, rfl⟩
      exact hrecord hflag
  | cons first rest =>
      simp only [List.cons_append, List.cons.injEq] at hsplit
      exact hhistory rest found older hsplit.2 hflag

theorem ResumesColdReset.of_launch {previous record : BootRecord} {source : ResetSource}
    {launched : List BootEvent} (hend : previous.bootEnd = BootEnd.coldReset)
    (hforced : ColdResetForced source previous.finalVars previous.events)
    (hevents : record.events = BootEvent.classified source :: launched)
    (hall : forall event, event ∈ launched -> IsLaunchEvent (some 0) event) :
    ResumesColdReset previous record := by
  refine ⟨⟨source, hend, hforced, ?_, ?_⟩, ?_, ?_⟩
  · rw [hevents]
    exact List.mem_cons_self ..
  · intro other hother
    rw [hevents] at hother
    cases List.mem_cons.mp hother with
    | inl heq => exact BootEvent.classified.inj heq
    | inr hmem => exact (hall _ hmem).elim
  · intro target vars hload
    simp only [hevents, List.mem_cons, reduceCtorEq, false_or] at hload
    have hzero : vars.wdColdReset = some 0 := hall _ hload
    simp [hzero]
  · intro vars hoff
    simp only [hevents, List.mem_cons, reduceCtorEq, false_or] at hoff
    have hzero : vars.wdColdReset = some 0 := hall _ hoff
    simp [hzero]

theorem coldReset_step {cfg : Config} {inputs : BootInputs} {d e : Device}
    (hcold : cfg.doColdResetAfterWd = true) (hok : inputs.AccessesSucceed)
    (hguard : ResumesAsReset d inputs) (hflag : FlagFromLastBoot d)
    (hdiscipline : ColdResetDiscipline d.history)
    (hstep : d.step cfg inputs = some e) :
    FlagFromLastBoot e ∧ ColdResetDiscipline e.history := by
  rcases Device.step_eq_some hstep with ⟨hvars, hhistory⟩
  have hrecord : runBoot cfg inputs d.vars =
      { startVars := osWrites inputs d.vars
        bootEnd := (startBootLogic cfg inputs (osWrites inputs d.vars)).1
        finalVars := (startBootLogic cfg inputs (osWrites inputs d.vars)).2.vars
        events := (startBootLogic cfg inputs (osWrites inputs d.vars)).2.events } := rfl
  by_cases hset : d.vars.wdColdReset = some 1
  · rcases hguard hset with ⟨hbattery, hwake⟩
    rcases hflag hset with ⟨previous, rest, source, hprev, hend, hfinal, hforced⟩
    have hfound := osWrites_wdColdReset inputs d.vars
    have hsaved : (osWrites inputs d.vars).savedResetSource =
        previous.finalVars.savedResetSource := by
      rw [osWrites_savedResetSource, hfinal]
    have hboot := startBootLogic_of_flag hok hcold hbattery hwake hforced.watchdog
      (hfound.trans hset) (hsaved.trans hforced.saved)
    rcases hboot with ⟨hclear, launched, hevents, hall⟩
    constructor
    · intro hnext
      rw [hvars, hrecord] at hnext
      rw [hclear] at hnext
      cases hnext
    · rw [hhistory]
      apply coldResetDiscipline_cons hdiscipline
      intro _
      refine ⟨previous, rest, hprev, ResumesColdReset.of_launch hend hforced ?_ hall⟩
      rw [hrecord]
      exact hevents
  · have hstart : (osWrites inputs d.vars).wdColdReset ≠ some 1 := by simpa using hset
    constructor
    · intro hnext
      rw [hvars, hrecord] at hnext
      rcases startBootLogic_of_no_flag hok hcold hstart hnext with ⟨hend, source, hforced⟩
      refine ⟨runBoot cfg inputs d.vars, d.history, source, hhistory, ?_, hvars.symm, ?_⟩
      · rw [hrecord]
        exact hend
      · rw [hrecord]
        exact hforced
    · rw [hhistory]
      apply coldResetDiscipline_cons hdiscipline
      intro hfound
      rw [BootRecord.FoundFlag, hrecord] at hfound
      exact absurd hfound hstart

/--
In every run whose boots after a forced cold reset are plain resets with a good
battery, each boot that finds `WDColdReset` set resumes the boot before it.
-/
theorem coldReset_run {cfg : Config} (hcold : cfg.doColdResetAfterWd = true)
    {vars : EfiVariables} (hvars : vars.wdColdReset ≠ some 1)
    {boots : List BootInputs} (hok : forall inputs, inputs ∈ boots -> inputs.AccessesSucceed)
    (hguard : AllSteps ResumesAsReset (Device.step cfg) (Device.fresh vars) boots)
    {d : Device} (hrun : runFrom (Device.step cfg) (Device.fresh vars) boots = some d) :
    ColdResetDiscipline d.history := by
  have hboth : AllSteps (fun d inputs => ResumesAsReset d inputs ∧ inputs.AccessesSucceed)
      (Device.step cfg) (Device.fresh vars) boots :=
    hguard.and_of_forall_mem hok
  have hfinal : FlagFromLastBoot d ∧ ColdResetDiscipline d.history := by
    apply invariant_of_allSteps _ _ hboth hrun
    · intro d inputs e hinv hboot hstep
      exact coldReset_step hcold hboot.2 hboot.1 hinv.1 hinv.2 hstep
    · constructor
      · intro hset
        exact absurd hset hvars
      · intro newer record older hsplit
        cases newer <;> cases hsplit
  exact hfinal.2

def watchdogThenReset : List BootInputs :=
  [plainReset ResetSource.kernelWatchdog, plainReset ResetSource.osInitiated]

theorem coldReset_run_of_kernelWatchdog :
    exists d, runFrom (Device.step ⟨true, false⟩) (Device.fresh (lastEntryOnly "main"))
        watchdogThenReset = some d ∧
      d.history.map (fun record => record.startVars.wdColdReset) = [some 1, none] ∧
      ColdResetDiscipline d.history := by
  have hok : forall inputs, inputs ∈ watchdogThenReset -> inputs.AccessesSucceed := by
    intro inputs hmem
    simp only [watchdogThenReset, List.mem_cons, List.not_mem_nil, or_false] at hmem
    rcases hmem with rfl | rfl
    · exact plainReset_accessesSucceed ResetSource.kernelWatchdog
    · exact plainReset_accessesSucceed ResetSource.osInitiated
  have hguard : AllSteps ResumesAsReset (Device.step ⟨true, false⟩)
      (Device.fresh (lastEntryOnly "main")) watchdogThenReset := by
    refine ⟨?_, fun d _ => ⟨?_, fun _ _ => trivial⟩⟩
    · intro _
      exact ⟨rfl, rfl⟩
    · intro _
      exact ⟨rfl, rfl⟩
  refine ⟨_, rfl, by decide, ?_⟩
  exact coldReset_run rfl (by decide) hok hguard rfl

/--
When the battery is found empty after the forced reset, the boot shuts down
with the flag still set.
-/
theorem coldReset_left_pending :
    exists boots : List BootInputs,
      (forall inputs, inputs ∈ boots -> inputs.AccessesSucceed) ∧
      exists d, runFrom (Device.step ⟨true, false⟩) (Device.fresh (lastEntryOnly "main"))
          boots = some d ∧
        ¬ ColdResetDiscipline d.history := by
  refine ⟨[plainReset ResetSource.kernelWatchdog,
    { plainReset ResetSource.kernelWatchdog with isBatteryOk := false }], ?_, _, rfl, ?_⟩
  · intro inputs hmem
    simp only [List.mem_cons, List.not_mem_nil, or_false] at hmem
    rcases hmem with rfl | rfl
    · exact plainReset_accessesSucceed ResetSource.kernelWatchdog
    · exact ⟨fun _ => rfl, fun _ => rfl, fun _ => rfl⟩
  · intro hdiscipline
    rcases hdiscipline [] _ _ rfl rfl with ⟨previous, rest, hprevious, hresumes⟩
    have hoff := hresumes.2.2 _ (List.mem_cons_self ..)
    exact hoff (by decide)

end BootLogic
end BootableUefi
