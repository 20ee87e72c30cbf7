import BootableUefi.BootLogic.Boot

/-!
# What the boot functions leave alone

Each function of a boot writes one or two variables, and only the launch loop
and the reset classification produce events.  `Quiet` records what a function
leaves alone, so that a run over several of them composes.
-/

namespace BootableUefi
namespace BootLogic

open Firmware

/-!
# Services when no access fails
-/

section Accesses

variable {inputs : BootInputs} (h : inputs.AccessesSucceed)

include h

theorem getVariable_of_succeed {α : Type} (read : EfiVariables -> Option α)
    (s : BootState) :
    getVariable inputs read s = (read s.vars, { s with gets := s.gets + 1 }) := by
  simp [getVariable, h.get]

theorem setVariable_of_succeed (write : EfiVariables -> EfiVariables)
    (s : BootState) :
    setVariable inputs write s =
      (EfiStatus.success, { s with vars := write s.vars, sets := s.sets + 1 }) := by
  simp [setVariable, h.set]

end Accesses

/-!
# Quiet functions

A view is what a caller wants to know of the variables.  A quiet step keeps the
view and produces no event; a function that writes a variable is quiet for the
views that do not see that variable.
-/

section Quiet

variable {α : Type}

structure Quiet (view : EfiVariables -> α) (s t : BootState) : Prop where
  events : t.events = s.events
  view : view t.vars = view s.vars

variable (view : EfiVariables -> α)

theorem Quiet.refl (s : BootState) : Quiet view s s := ⟨rfl, rfl⟩

variable {view}

theorem Quiet.trans {s t u : BootState} (hst : Quiet view s t) (htu : Quiet view t u) :
    Quiet view s u :=
  ⟨htu.events.trans hst.events, htu.view.trans hst.view⟩

theorem quiet_setVariable (inputs : BootInputs) {write : EfiVariables -> EfiVariables}
    (hwrite : forall vars, view (write vars) = view vars)
    (s : BootState) : Quiet view s (setVariable inputs write s).2 := by
  refine ⟨rfl, ?_⟩
  simp only [setVariable]
  split
  · rfl
  · exact hwrite s.vars

theorem quiet_deleteVariable (inputs : BootInputs) (isPresent : EfiVariables -> Bool)
    {erase : EfiVariables -> EfiVariables}
    (herase : forall vars, view (erase vars) = view vars)
    (s : BootState) : Quiet view s (deleteVariable inputs isPresent erase s).2 := by
  unfold deleteVariable
  split
  · refine ⟨rfl, ?_⟩
    dsimp only
    split
    · rfl
    · exact herase s.vars
  · exact Quiet.refl view s

variable (view)

theorem quiet_getVariable {β : Type} (inputs : BootInputs)
    (read : EfiVariables -> Option β) (s : BootState) :
    Quiet view s (getVariable inputs read s).2 := ⟨rfl, rfl⟩

theorem quiet_coldResetPending (cfg : Config) (inputs : BootInputs) (s : BootState) :
    Quiet view s (coldResetPending cfg inputs s).2 := by
  unfold coldResetPending
  split
  · exact quiet_getVariable view inputs EfiVariables.wdColdReset s
  · exact Quiet.refl view s

theorem quiet_getTargetFromVar (cfg : Config) (inputs : BootInputs)
    (read : EfiVariables -> Option String) (s : BootState) :
    Quiet view s (getTargetFromVar cfg inputs read s).2 := by
  have hget := quiet_getVariable view inputs read s
  unfold getTargetFromVar
  dsimp only
  split
  · exact hget
  · split <;> exact hget

variable {view}

theorem quiet_getResetSource
    (hsaved : forall vars, view { vars with savedResetSource := none } = view vars)
    (cfg : Config) (inputs : BootInputs) (s : BootState) :
    Quiet view s (getResetSource cfg inputs s).2 := by
  have hpending := quiet_coldResetPending view cfg inputs s
  unfold getResetSource
  split
  · exact Quiet.refl view s
  · dsimp only
    refine Quiet.trans (Quiet.trans hpending ?_) (quiet_deleteVariable inputs _ hsaved _)
    split
    · split <;> exact ⟨rfl, rfl⟩
    · exact ⟨rfl, rfl⟩

theorem quiet_saveEntryPrevious
    (hprevious : forall vars name, view { vars with loadEntryPrevious := name } = view vars)
    (cfg : Config) (inputs : BootInputs) (target : Target) (s : BootState) :
    Quiet view s (saveEntryPrevious cfg inputs target s).2 := by
  unfold saveEntryPrevious
  split
  · exact Quiet.refl view s
  · apply quiet_setVariable
    intro vars
    exact hprevious vars _

theorem quiet_setEntryLast
    (honeShot : forall vars, view { vars with loaderEntryOneShot := none } = view vars)
    (hlast : forall vars name, view { vars with loaderEntryLast := name } = view vars)
    (cfg : Config) (inputs : BootInputs) (target : Target) (s : BootState) :
    Quiet view s (setEntryLast cfg inputs target s).2 := by
  unfold setEntryLast
  split
  · exact Quiet.refl view s
  · dsimp only
    refine Quiet.trans (quiet_deleteVariable inputs _ honeShot s) (quiet_setVariable inputs ?_ _)
    intro vars
    exact hlast vars _

theorem quiet_forcedShutdown
    (halarm : forall vars value, view { vars with rtcAlarmCharging := value } = view vars)
    (hcounter : forall vars value, view { vars with wdtCounter := value } = view vars)
    (inputs : BootInputs) (s : BootState) :
    Quiet view s (forcedShutdown inputs s) :=
  Quiet.trans (quiet_setVariable inputs (fun vars => halarm vars _) s)
    (quiet_setVariable inputs (fun vars => hcounter vars _) _)

theorem quiet_countWatchdog
    (hcounter : forall vars value, view { vars with wdtCounter := value } = view vars)
    (inputs : BootInputs) (lastTarget : Target) (s : BootState) :
    Quiet view s (countWatchdog inputs lastTarget s).2 := by
  have hget : Quiet view s (uefiGetWdtCounter inputs s).2 :=
    quiet_getVariable view inputs EfiVariables.wdtCounter s
  unfold countWatchdog
  dsimp only
  split
  · exact Quiet.trans hget (quiet_setVariable inputs (fun vars => hcounter vars _) _)
  · exact Quiet.trans hget (quiet_setVariable inputs (fun vars => hcounter vars _) _)

theorem quiet_bootFwUpdate
    (hcapsule : forall vars value, view { vars with capsuleUpdateStatus := value } = view vars)
    (inputs : BootInputs) (source : ResetSource) (s : BootState) :
    Quiet view s (bootFwUpdate inputs source s).2 := by
  unfold bootFwUpdate
  split
  · split
    · exact quiet_setVariable inputs (fun vars => hcapsule vars _) s
    · exact Quiet.refl view s
  · exact Quiet.refl view s

variable (view) in
theorem quiet_bootReset (cfg : Config) (inputs : BootInputs) (source : ResetSource)
    (s : BootState) : Quiet view s (bootReset cfg inputs source s).2 := by
  unfold bootReset
  split
  · exact quiet_getTargetFromVar view cfg inputs _ s
  · exact Quiet.refl view s

/-!
# Boot cases

A list of quiet cases that all return is quiet and returns.
-/

theorem runBootCases_quiet {cases : List (BootState -> CaseResult)}
    (hquiet : forall bootCase, bootCase ∈ cases -> forall s, Quiet view s (bootCase s).2)
    (hreturns : forall bootCase, bootCase ∈ cases -> forall s, (bootCase s).1 ≠ none)
    (s : BootState) :
    Quiet view s (runBootCases cases s).2 ∧ (runBootCases cases s).1 ≠ none := by
  induction cases generalizing s with
  | nil => exact ⟨Quiet.refl view s, by simp [runBootCases]⟩
  | cons bootCase rest ih =>
      have hq := hquiet bootCase (List.mem_cons_self ..) s
      have hr := hreturns bootCase (List.mem_cons_self ..) s
      have hrest := ih (fun c hc => hquiet c (List.mem_cons_of_mem _ hc))
        (fun c hc => hreturns c (List.mem_cons_of_mem _ hc))
      unfold runBootCases
      split
      · rename_i t heq
        rw [heq] at hq
        exact ⟨Quiet.trans hq (hrest t).1, (hrest t).2⟩
      · exact ⟨hq, hr⟩

/-- What a reset is classified as, and the state the reset cases start from. -/
theorem classifyReset_cases
    (hsaved : forall vars, view { vars with savedResetSource := none } = view vars)
    (cfg : Config) (inputs : BootInputs) (s : BootState) :
    exists t : BootState,
      t.events = s.events ++ [BootEvent.classified (getResetSource cfg inputs s).1] ∧
      view t.vars = view s.vars ∧
      classifyReset cfg inputs s =
        if (getResetSource cfg inputs s).1 = ResetSource.error then
          (some Target.boot, t)
        else if (getResetSource cfg inputs s).1 ≠ ResetSource.notApplicable then
          targetFromReset cfg inputs (getResetSource cfg inputs s).1 t
        else
          (some Target.unknown, t) := by
  have hget := quiet_getResetSource hsaved cfg inputs s
  unfold classifyReset
  dsimp only
  generalize (getResetSource cfg inputs s).1 = source
  generalize ht : (getResetSource cfg inputs s).2.emit (BootEvent.classified source) = t
  have htevents : t.events = s.events ++ [BootEvent.classified source] := by
    rw [← ht, BootState.emit_events, hget.events]
  have htview : view t.vars = view s.vars := by
    rw [← ht, BootState.emit_vars, hget.view]
  have hpending := quiet_coldResetPending view cfg inputs t
  by_cases herror : source = ResetSource.error
  · exact ⟨t, htevents, htview, by simp [herror]⟩
  · refine ⟨if (coldResetPending cfg inputs t).1 = true then
      { (coldResetPending cfg inputs t).2 with rsciResetSource := source }
      else (coldResetPending cfg inputs t).2, ?_, ?_, by simp [herror]⟩
    · split
      · exact hpending.events.trans htevents
      · exact hpending.events.trans htevents
    · split
      · exact hpending.view.trans htview
      · exact hpending.view.trans htview

def selectionState (cfg : Config) (inputs : BootInputs) (vars : EfiVariables) : BootState :=
  let (lastTarget, s) := getEntryLast cfg inputs (BootState.start inputs vars)
  (saveEntryPrevious cfg inputs lastTarget s).2

theorem quiet_selectionState
    (hprevious : forall vars name, view { vars with loadEntryPrevious := name } = view vars)
    (cfg : Config) (inputs : BootInputs) (vars : EfiVariables) :
    Quiet view (BootState.start inputs vars) (selectionState cfg inputs vars) :=
  Quiet.trans (quiet_getTargetFromVar view cfg inputs _ _)
    (quiet_saveEntryPrevious hprevious cfg inputs _ _)

theorem selectionState_resetSource (cfg : Config) (inputs : BootInputs)
    (vars : EfiVariables) :
    (selectionState cfg inputs vars).resetSource = ResetSource.error ∧
      (selectionState cfg inputs vars).rsciResetSource = inputs.resetSource := by
  have hlast : (getEntryLast cfg inputs (BootState.start inputs vars)).2.resetSource =
        ResetSource.error ∧
      (getEntryLast cfg inputs (BootState.start inputs vars)).2.rsciResetSource =
        inputs.resetSource := by
    unfold getEntryLast getTargetFromVar getVariable
    dsimp only
    split
    · exact ⟨rfl, rfl⟩
    · split <;> exact ⟨rfl, rfl⟩
  unfold selectionState saveEntryPrevious setVariable
  dsimp only
  split <;> exact hlast

theorem startBootLogic_eq (cfg : Config) (inputs : BootInputs) (vars : EfiVariables) :
    startBootLogic cfg inputs vars =
      match targetFromInputs cfg inputs (selectionState cfg inputs vars) with
      | (none, s) => (BootEnd.coldReset, s)
      | (some Target.error, s) => (BootEnd.returned EfiStatus.success, s)
      | (some target, s) =>
          launchOrFallback cfg inputs (if target = Target.unknown then Target.boot else target)
            (getResetSource cfg inputs s).2 := rfl

theorem startBootLogic_of_selected {cfg : Config} {inputs : BootInputs}
    {vars : EfiVariables} {target : Target} {s : BootState}
    (hselect : targetFromInputs cfg inputs (selectionState cfg inputs vars) =
      (some target, s)) (htarget : target ≠ Target.error) :
    startBootLogic cfg inputs vars =
      launchOrFallback cfg inputs (if target = Target.unknown then Target.boot else target)
        (getResetSource cfg inputs s).2 := by
  rw [startBootLogic_eq, hselect]
  cases target with
  | error => exact absurd rfl htarget
  | _ => rfl

end Quiet

abbrev coldResetFlag : EfiVariables -> Option Int :=
  EfiVariables.wdColdReset

theorem Quiet.wdColdReset {s t : BootState} (h : Quiet coldResetFlag s t) :
    t.vars.wdColdReset = s.vars.wdColdReset :=
  h.view

theorem targetFromOff_quiet (inputs : BootInputs) (source : WakeSource) (s : BootState) :
    Quiet coldResetFlag s (targetFromOff inputs source s).2 ∧
      (targetFromOff inputs source s).1 ≠ none := by
  have hstart : Quiet coldResetFlag s
      (if inputs.shutdownSource = ShutdownSource.powerButtonOverride then
        forcedShutdown inputs s else s) := by
    split
    · exact quiet_forcedShutdown (fun _ _ => rfl) (fun _ _ => rfl) inputs s
    · exact Quiet.refl coldResetFlag s
  unfold targetFromOff
  dsimp only
  refine (runBootCases_quiet ?_ ?_ _).imp_left (Quiet.trans hstart)
  · intro bootCase hmem t
    simp only [List.mem_cons, List.not_mem_nil, or_false] at hmem
    rcases hmem with rfl | rfl | rfl | rfl | rfl | rfl <;> exact Quiet.refl coldResetFlag t
  · intro bootCase hmem t
    simp only [List.mem_cons, List.not_mem_nil, or_false] at hmem
    rcases hmem with rfl | rfl | rfl | rfl | rfl | rfl <;> simp

/-!
# The launch loop
-/

/-- An event of the launch loop, produced while `WDColdReset` holds the value. -/
def IsLaunchEvent (value : Option Int) : BootEvent -> Prop
  | BootEvent.loadTarget _ vars => vars.wdColdReset = value
  | BootEvent.coldOff vars => vars.wdColdReset = value
  | _ => False

theorem launchLoop_spec (cfg : Config) (inputs : BootInputs) :
    forall (bound k : Nat) (target : Target) (s : BootState),
      exists launched : List BootEvent,
        (launchLoop cfg inputs bound k target s).2.events = s.events ++ launched ∧
        (forall event, event ∈ launched -> IsLaunchEvent s.vars.wdColdReset event) ∧
        (launchLoop cfg inputs bound k target s).2.vars.wdColdReset = s.vars.wdColdReset ∧
        (launchLoop cfg inputs bound k target s).1 ≠ BootEnd.coldReset := by
  intro bound
  induction bound with
  | zero =>
      intro k target s
      exact ⟨[], by simp [launchLoop]⟩
  | succ bound ih =>
      intro k target s
      unfold launchLoop
      dsimp only
      generalize hem : emFallbackTarget (inputs.batteryLevel k)
        (inputs.isChargerPresent k) target = next
      have hset : Quiet coldResetFlag s (setEntryLast cfg inputs next s).2 :=
        quiet_setEntryLast (fun _ => rfl) (fun _ _ => rfl) cfg inputs next s
      have hlaunch : IsLaunchEvent s.vars.wdColdReset
          (BootEvent.loadTarget next (setEntryLast cfg inputs next s).2.vars) :=
        hset.wdColdReset
      split
      · exact ⟨[BootEvent.coldOff s.vars], rfl, by simp [IsLaunchEvent], rfl, by simp⟩
      · split
        · split
          · rcases ih (k + 1) (fallbackTarget next)
                ((setEntryLast cfg inputs next s).2.emit
                  (BootEvent.loadTarget next (setEntryLast cfg inputs next s).2.vars)) with
              ⟨launched, hevents, hall, hflag, hend⟩
            refine ⟨BootEvent.loadTarget next (setEntryLast cfg inputs next s).2.vars :: launched,
              ?_, ?_, ?_, hend⟩
            · rw [hevents, BootState.emit_events, hset.events, List.append_assoc]
              rfl
            · intro event hmem
              rcases List.mem_cons.mp hmem with rfl | hmem
              · exact hlaunch
              · have hevent := hall event hmem
                rw [BootState.emit_vars, hset.wdColdReset] at hevent
                exact hevent
            · rw [hflag, BootState.emit_vars, hset.wdColdReset]
          · exact ⟨[_], by rw [BootState.emit_events, hset.events],
              by simpa using hlaunch, hset.wdColdReset, by simp⟩
        · exact ⟨[_], by rw [BootState.emit_events, hset.events],
            by simpa using hlaunch, hset.wdColdReset, by simp⟩

end BootLogic
end BootableUefi
