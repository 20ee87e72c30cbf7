import BootableUefi.BootLogic.History

/-!
# The one-shot entry is used up

Whatever a boot selects is a target of the table, the shutdown or nothing, and
saving a target of the table deletes the one-shot entry.  So when deletions
succeed a target is loaded without it, and only the system can bring it back.
-/

namespace BootableUefi
namespace BootLogic

open Firmware Foundation

def InTable (cfg : Config) (target : Target) : Prop :=
  exists entry, getTargetEntry cfg.enableFactoryModes target = some entry

def Selectable (cfg : Config) (target : Target) : Prop :=
  target = Target.unknown ∨ target = Target.coldOff ∨ InTable cfg target

/-- The targets an event list loads, with the variables they are loaded with. -/
def loadsOf (events : List BootEvent) : List (Target × EfiVariables) :=
  events.filterMap fun event =>
    match event with
    | BootEvent.loadTarget target vars => some (target, vars)
    | _ => none

/-- No target is loaded, and the one-shot entry is not created. -/
structure Spends (s t : BootState) : Prop where
  loads : loadsOf t.events = loadsOf s.events
  oneShot : s.vars.loaderEntryOneShot = none -> t.vars.loaderEntryOneShot = none

theorem Spends.refl (s : BootState) : Spends s s := ⟨rfl, fun h => h⟩

theorem Spends.trans {s t u : BootState} (hst : Spends s t) (htu : Spends t u) : Spends s u :=
  ⟨htu.loads.trans hst.loads, fun h => htu.oneShot (hst.oneShot h)⟩

theorem Quiet.spends {s t : BootState} (h : Quiet EfiVariables.loaderEntryOneShot s t) :
    Spends s t where
  loads := by rw [h.events]
  oneShot := fun hnone => h.view.trans hnone

theorem spends_setVariable {inputs : BootInputs} {write : EfiVariables -> EfiVariables}
    (hwrite : forall vars, (write vars).loaderEntryOneShot = vars.loaderEntryOneShot)
    (s : BootState) : Spends s (setVariable inputs write s).2 :=
  Quiet.spends (quiet_setVariable inputs hwrite s)

theorem spends_classified (source : ResetSource) (s : BootState) :
    Spends s (s.emit (BootEvent.classified source)) := by
  refine ⟨?_, fun h => h⟩
  simp [loadsOf]

/-!
# Names and targets
-/

theorem inTable_of_nameToTarget {cfg : Config} {name : String} {target : Target}
    (h : nameToTarget cfg.enableFactoryModes name = Except.ok target) : InTable cfg target := by
  unfold nameToTarget nameToEntry at h
  unfold InTable getTargetEntry
  cases hfind : (androidEntries cfg.enableFactoryModes).find? fun entry => name == entry.name with
  | none =>
      rw [hfind] at h
      cases h
  | some entry =>
      rw [hfind] at h
      cases h
      have hmem := List.mem_of_find?_eq_some hfind
      have hsome : ((androidEntries cfg.enableFactoryModes).find? fun e =>
          e.target == entry.target).isSome = true := by
        rw [List.find?_isSome]
        exact ⟨entry, hmem, beq_self_eq_true _⟩
      exact Option.isSome_iff_exists.mp hsome

theorem inTable_common (cfg : Config) {target : Target}
    (h : target ∈ [Target.boot, Target.charging, Target.recovery, Target.fastboot, Target.dnx]) :
    InTable cfg target := by
  unfold InTable
  simp only [List.mem_cons, List.not_mem_nil, or_false] at h
  cases cfg.enableFactoryModes <;> rcases h with rfl | rfl | rfl | rfl | rfl <;> exact ⟨_, rfl⟩

theorem selectable_common (cfg : Config) {target : Target}
    (h : target ∈ [Target.boot, Target.charging, Target.recovery, Target.fastboot, Target.dnx]) :
    Selectable cfg target :=
  Or.inr (Or.inr (inTable_common cfg h))

theorem selectable_fallbackTarget (cfg : Config) (target : Target) :
    Selectable cfg (fallbackTarget target) := by
  cases target with
  | boot => exact selectable_common cfg (by decide)
  | charging => exact selectable_common cfg (by decide)
  | recovery => exact selectable_common cfg (by decide)
  | fastboot => exact selectable_common cfg (by decide)
  | _ => exact Or.inl rfl

theorem selectable_getTargetFromVar (cfg : Config) (inputs : BootInputs)
    (read : EfiVariables -> Option String) (s : BootState) :
    Selectable cfg (getTargetFromVar cfg inputs read s).1 := by
  unfold getTargetFromVar
  dsimp only
  split
  · exact Or.inl rfl
  · split
    · rename_i target hname
      exact Or.inr (Or.inr (inTable_of_nameToTarget hname))
    · exact Or.inl rfl

/-!
# Selecting a target
-/

structure Selects (cfg : Config) (s : BootState) (result : CaseResult) : Prop where
  spends : Spends s result.2
  target : forall target, result.1 = some target -> Selectable cfg target

theorem Selects.of_target {cfg : Config} {s t : BootState} {target : Target}
    (hspends : Spends s t) (htarget : Selectable cfg target) :
    Selects cfg s (some target, t) := by
  refine ⟨hspends, ?_⟩
  intro found hfound
  cases hfound
  exact htarget

theorem Selects.after {cfg : Config} {s t : BootState} {result : CaseResult}
    (hst : Spends s t) (h : Selects cfg t result) : Selects cfg s result :=
  ⟨hst.trans h.spends, h.target⟩

section Cases

variable {cfg : Config} {inputs : BootInputs}

theorem runBootCases_selects {cases : List (BootState -> CaseResult)}
    (hcases : forall bootCase, bootCase ∈ cases -> forall s, Selects cfg s (bootCase s))
    (s : BootState) : Selects cfg s (runBootCases cases s) := by
  induction cases generalizing s with
  | nil => exact Selects.of_target (Spends.refl s) (Or.inl rfl)
  | cons bootCase rest ih =>
      have hfirst := hcases bootCase (List.mem_cons_self ..) s
      unfold runBootCases
      split
      · rename_i t heq
        rw [heq] at hfirst
        exact (ih (fun c hc => hcases c (List.mem_cons_of_mem _ hc)) t).after hfirst.spends
      · exact hfirst

theorem spends_setEntryLast (target : Target) (s : BootState) :
    Spends s (setEntryLast cfg inputs target s).2 := by
  unfold setEntryLast
  split
  · exact Spends.refl s
  · dsimp only
    generalize hdeleted : (deleteVariable inputs _ _ s).2 = t
    have hdelete : Spends s t := by
      rw [← hdeleted]
      unfold deleteVariable
      split
      · refine ⟨rfl, ?_⟩
        intro hnone
        dsimp only
        split
        · exact hnone
        · rfl
      · exact Spends.refl s
    exact hdelete.trans (spends_setVariable (by intro vars; rfl) t)

theorem requestColdReset_selects (source : ResetSource) (lastTarget : Target) (s : BootState) :
    Selects cfg s (requestColdReset cfg inputs source lastTarget s) := by
  unfold requestColdReset
  dsimp only
  generalize hsaved : (setEntryLast cfg inputs lastTarget s).2 = t
  have hentry : Spends s t := by
    rw [← hsaved]
    exact spends_setEntryLast lastTarget s
  have hsource : Spends t (saveResetSource inputs source t).2 :=
    spends_setVariable (by intro vars; rfl) t
  have hflag : Spends (saveResetSource inputs source t).2
      (uefiSetWdColdReset inputs 1 (saveResetSource inputs source t).2).2 :=
    spends_setVariable (by intro vars; rfl) _
  have hall := (hentry.trans hsource).trans hflag
  refine ⟨⟨?_, hall.oneShot⟩, ?_⟩
  · rw [BootState.emit_events, ← hall.loads]
    simp [loadsOf]
  · intro target h
    cases h

theorem countWatchdog_selects {lastTarget : Target} (hlast : Selectable cfg lastTarget)
    (s : BootState) : Selects cfg s (countWatchdog inputs lastTarget s) := by
  have hquiet : Quiet EfiVariables.loaderEntryOneShot s (countWatchdog inputs lastTarget s).2 :=
    quiet_countWatchdog (fun _ _ => rfl) inputs lastTarget s
  refine ⟨hquiet.spends, ?_⟩
  intro target htarget
  unfold countWatchdog at htarget
  dsimp only at htarget
  split at htarget
  · cases htarget
    exact selectable_fallbackTarget cfg lastTarget
  · cases htarget
    exact hlast

theorem bootWatchdog_selects (source : ResetSource) (s : BootState) :
    Selects cfg s (bootWatchdog cfg inputs source s) := by
  have hlast := selectable_getTargetFromVar cfg inputs EfiVariables.loaderEntryLast s
  have hget : Spends s (getEntryLast cfg inputs s).2 :=
    (quiet_getTargetFromVar _ cfg inputs _ s).spends
  unfold bootWatchdog
  split
  · dsimp only
    split
    · have hflag : Spends (getEntryLast cfg inputs s).2
          (uefiGetWdColdReset inputs (getEntryLast cfg inputs s).2).2 :=
        (quiet_getVariable _ inputs EfiVariables.wdColdReset _).spends
      have hread := hget.trans hflag
      split
      · have hcleared : Spends (uefiGetWdColdReset inputs (getEntryLast cfg inputs s).2).2
            (uefiSetWdColdReset inputs 0
              (uefiGetWdColdReset inputs (getEntryLast cfg inputs s).2).2).2 :=
          spends_setVariable (by intro vars; rfl) _
        exact (countWatchdog_selects hlast _).after (hread.trans hcleared)
      · exact (requestColdReset_selects source _ _).after hread
    · exact (countWatchdog_selects hlast _).after hget
  · exact Selects.of_target (Spends.refl s) (Or.inl rfl)

theorem selectable_loadBcb : Selectable cfg (loadBcb inputs) := by
  unfold loadBcb
  split
  · exact selectable_common cfg (by decide)
  · exact Or.inl rfl

theorem targetFromReset_selects (source : ResetSource) (s : BootState) :
    Selects cfg s (targetFromReset cfg inputs source s) := by
  apply runBootCases_selects
  intro bootCase hmem t
  simp only [List.mem_cons, List.not_mem_nil, or_false] at hmem
  rcases hmem with rfl | rfl | rfl | rfl
  · exact bootWatchdog_selects source t
  · exact Selects.of_target (Spends.refl t) selectable_loadBcb
  · have hquiet : Quiet EfiVariables.loaderEntryOneShot t (bootFwUpdate inputs source t).2 :=
      quiet_bootFwUpdate (fun _ _ => rfl) inputs source t
    refine ⟨hquiet.spends, ?_⟩
    intro target htarget
    unfold bootFwUpdate at htarget
    split at htarget
    · split at htarget
      · cases htarget
        exact selectable_common cfg (by decide)
      · cases htarget
        exact selectable_common cfg (by decide)
    · cases htarget
      exact Or.inl rfl
  · unfold bootReset
    split
    · exact Selects.of_target (quiet_getTargetFromVar _ cfg inputs _ t).spends
        (selectable_getTargetFromVar cfg inputs _ t)
    · exact Selects.of_target (Spends.refl t) (Or.inl rfl)

theorem targetFromOff_selects (source : WakeSource) (s : BootState) :
    Selects cfg s (targetFromOff inputs source s) := by
  have hstart : Spends s
      (if inputs.shutdownSource = ShutdownSource.powerButtonOverride then
        forcedShutdown inputs s else s) := by
    split
    · exact (quiet_forcedShutdown (fun _ _ => rfl) (fun _ _ => rfl) inputs s).spends
    · exact Spends.refl s
  unfold targetFromOff
  dsimp only
  refine Selects.after hstart (runBootCases_selects ?_ _)
  intro bootCase hmem t
  have hcase : forall {target : Target}, Selectable cfg target ->
      Selects cfg t (some target, t) :=
    fun h => Selects.of_target (Spends.refl t) h
  simp only [List.mem_cons, List.not_mem_nil, or_false] at hmem
  rcases hmem with rfl | rfl | rfl | rfl | rfl | rfl
  · apply hcase
    unfold bootFastbootCombo
    split
    · exact selectable_common cfg (by decide)
    · exact Or.inl rfl
  · exact hcase selectable_loadBcb
  · apply hcase
    unfold bootPowerKey
    split
    · exact selectable_common cfg (by decide)
    · exact Or.inl rfl
  · exact hcase (Or.inl rfl)
  · apply hcase
    unfold bootBatteryInsertion
    split
    · split
      · exact selectable_common cfg (by decide)
      · exact Or.inr (Or.inl rfl)
    · exact Or.inl rfl
  · apply hcase
    unfold bootChargerInsertion
    split
    · split
      · exact selectable_common cfg (by decide)
      · exact Or.inr (Or.inl rfl)
    · exact Or.inl rfl

theorem classifyReset_selects (s : BootState) : Selects cfg s (classifyReset cfg inputs s) := by
  have hget : Spends s (getResetSource cfg inputs s).2 :=
    (quiet_getResetSource (fun _ => rfl) cfg inputs s).spends
  unfold classifyReset
  dsimp only
  generalize ht : (getResetSource cfg inputs s).2.emit _ = t
  have hclassified : Spends s t := by
    rw [← ht]
    exact hget.trans (spends_classified _ _)
  split
  · exact Selects.of_target hclassified (selectable_common cfg (by decide))
  · have hpending : Spends t (coldResetPending cfg inputs t).2 :=
      (quiet_coldResetPending _ cfg inputs t).spends
    generalize hu : (if (coldResetPending cfg inputs t).1 = true then _ else _ : BootState) = u
    have hread : Spends t u := by
      rw [← hu]
      split
      · exact ⟨hpending.loads, hpending.oneShot⟩
      · exact hpending
    split
    · exact (targetFromReset_selects _ u).after (hclassified.trans hread)
    · exact Selects.of_target (hclassified.trans hread) (Or.inl rfl)

theorem targetFromInputs_selects (s : BootState) :
    Selects cfg s (targetFromInputs cfg inputs s) := by
  unfold targetFromInputs
  split
  · exact Selects.of_target (Spends.refl s) (Or.inr (Or.inl rfl))
  · split
    · exact Selects.of_target (Spends.refl s) (selectable_common cfg (by decide))
    · split
      · exact targetFromOff_selects _ s
      · exact classifyReset_selects s

end Cases

/-!
# Loading a target
-/

structure LoadsSpent (cfg : Config) (s : BootState) (loads : List (Target × EfiVariables))
    (t : BootState) : Prop where
  loads_eq : loadsOf t.events = loadsOf s.events ++ loads
  spent : forall target vars, (target, vars) ∈ loads ->
    InTable cfg target ∧ vars.loaderEntryOneShot = none
  oneShot : s.vars.loaderEntryOneShot = none ∨ loads ≠ [] ->
    t.vars.loaderEntryOneShot = none

theorem Spends.loadsSpent {cfg : Config} {s t : BootState} (h : Spends s t) :
    LoadsSpent cfg s [] t where
  loads_eq := by rw [h.loads, List.append_nil]
  spent := by simp
  oneShot := by
    intro hcase
    exact h.oneShot (hcase.resolve_right (by simp))

theorem LoadsSpent.trans {cfg : Config} {s t u : BootState}
    {first next : List (Target × EfiVariables)} (hst : LoadsSpent cfg s first t)
    (htu : LoadsSpent cfg t next u) : LoadsSpent cfg s (first ++ next) u where
  loads_eq := by rw [htu.loads_eq, hst.loads_eq, List.append_assoc]
  spent := by
    intro target vars hmem
    rcases List.mem_append.mp hmem with hfirst | hnext
    · exact hst.spent target vars hfirst
    · exact htu.spent target vars hnext
  oneShot := by
    intro hcase
    apply htu.oneShot
    by_cases hnext : next = []
    · rw [hnext, List.append_nil] at hcase
      exact Or.inl (hst.oneShot hcase)
    · exact Or.inr hnext

theorem setEntryLast_oneShot {cfg : Config} {inputs : BootInputs} {target : Target}
    (hdelete : forall n, inputs.deleteAnswer n = EfiStatus.success)
    (htable : InTable cfg target) (s : BootState) :
    (setEntryLast cfg inputs target s).2.vars.loaderEntryOneShot = none := by
  rcases htable with ⟨entry, hentry⟩
  unfold setEntryLast targetToName
  rw [hentry]
  dsimp only
  generalize hdeleted : (deleteVariable inputs _ _ s).2 = t
  have hnone : t.vars.loaderEntryOneShot = none := by
    rw [← hdeleted]
    unfold deleteVariable
    split
    · simp [hdelete]
    · rename_i habsent
      simpa using habsent
  exact (spends_setVariable (by intro vars; rfl) t).oneShot hnone

/-- Energy management replaces a target by another one of the table, or shuts down. -/
theorem emFallbackTarget_launchable {cfg : Config} {target : Target} (level : BattLevel)
    (charger : Bool) (h : target = Target.coldOff ∨ InTable cfg target) :
    emFallbackTarget level charger target = Target.coldOff ∨
      InTable cfg (emFallbackTarget level charger target) := by
  have hcharging : InTable cfg Target.charging := inTable_common cfg (by decide)
  unfold emFallbackTarget
  split
  · cases charger with
    | true =>
        cases target with
        | boot => exact Or.inr hcharging
        | factory => exact Or.inr hcharging
        | factory2 => exact Or.inr hcharging
        | _ => exact h
    | false =>
        cases target with
        | boot => exact Or.inl rfl
        | factory => exact Or.inl rfl
        | factory2 => exact Or.inl rfl
        | _ => exact h
  · exact h

theorem fallbackTarget_launchable {cfg : Config} {target : Target}
    (h : fallbackTarget target ≠ Target.unknown) : InTable cfg (fallbackTarget target) := by
  cases target with
  | boot => exact inTable_common cfg (by decide)
  | charging => exact inTable_common cfg (by decide)
  | recovery => exact inTable_common cfg (by decide)
  | fastboot => exact inTable_common cfg (by decide)
  | _ => exact absurd rfl h

theorem launchLoop_loadsSpent {cfg : Config} {inputs : BootInputs}
    (hdelete : forall n, inputs.deleteAnswer n = EfiStatus.success) (bound k : Nat)
    {target : Target} (htarget : target = Target.coldOff ∨ InTable cfg target) (s : BootState) :
    exists loads, LoadsSpent cfg s loads (launchLoop cfg inputs bound k target s).2 := by
  induction bound generalizing k target s with
  | zero => exact ⟨[], by simp [launchLoop], by simp, by simp [launchLoop]⟩
  | succ bound ih =>
      have hnext := emFallbackTarget_launchable (inputs.batteryLevel k)
        (inputs.isChargerPresent k) htarget
      unfold launchLoop
      dsimp only
      generalize emFallbackTarget (inputs.batteryLevel k) (inputs.isChargerPresent k) target =
        next at hnext ⊢
      split
      · exact ⟨[], by simp [loadsOf], by simp, by simp⟩
      · rename_i hrunning
        have htable := hnext.resolve_left hrunning
        have hsaved : Spends s (setEntryLast cfg inputs next s).2 := spends_setEntryLast next s
        have hnone := setEntryLast_oneShot hdelete htable s
        generalize (setEntryLast cfg inputs next s).2 = saved at hsaved hnone ⊢
        have hload : LoadsSpent cfg s [(next, saved.vars)]
            (saved.emit (BootEvent.loadTarget next saved.vars)) := by
          refine ⟨?_, ?_, fun _ => hnone⟩
          · rw [← hsaved.loads]
            simp [loadsOf]
          · intro target vars hmem
            cases List.mem_singleton.mp hmem
            exact ⟨htable, hnone⟩
        split
        · split
          · rename_i hfallback
            rcases ih (k + 1) (Or.inr (fallbackTarget_launchable hfallback))
              (saved.emit (BootEvent.loadTarget next saved.vars)) with ⟨loads, hrest⟩
            exact ⟨_, hload.trans hrest⟩
          · exact ⟨_, hload⟩
        · exact ⟨_, hload⟩

theorem startBootLogic_loadsSpent {cfg : Config} {inputs : BootInputs}
    (hdelete : forall n, inputs.deleteAnswer n = EfiStatus.success) (vars : EfiVariables) :
    exists loads,
      LoadsSpent cfg (BootState.start inputs vars) loads (startBootLogic cfg inputs vars).2 := by
  have hstart : Spends (BootState.start inputs vars) (selectionState cfg inputs vars) :=
    (quiet_selectionState (fun _ _ => rfl) cfg inputs vars).spends
  have hselects : Selects cfg (BootState.start inputs vars)
      (targetFromInputs cfg inputs (selectionState cfg inputs vars)) :=
    (targetFromInputs_selects _).after hstart
  cases hselect : targetFromInputs cfg inputs (selectionState cfg inputs vars) with
  | mk selected s =>
      rw [hselect] at hselects
      cases selected with
      | none =>
          rw [startBootLogic_eq, hselect]
          exact ⟨_, hselects.spends.loadsSpent⟩
      | some target =>
          by_cases herror : target = Target.error
          · rw [startBootLogic_eq, hselect, herror]
            exact ⟨_, hselects.spends.loadsSpent⟩
          · rw [startBootLogic_of_selected hselect herror]
            have hreset : Spends s (getResetSource cfg inputs s).2 :=
              (quiet_getResetSource (fun _ => rfl) cfg inputs s).spends
            have hlaunch : (if target = Target.unknown then Target.boot else target) =
                Target.coldOff ∨
                InTable cfg (if target = Target.unknown then Target.boot else target) := by
              split
              · exact Or.inr (inTable_common cfg (by decide))
              · rename_i hknown
                exact (hselects.target target rfl).resolve_left hknown
            rcases launchLoop_loadsSpent hdelete 4 0 hlaunch (getResetSource cfg inputs s).2 with
              ⟨loads, hloads⟩
            exact ⟨_, (hselects.spends.trans hreset).loadsSpent.trans hloads⟩

/-!
# Boots in a row
-/

def BootRecord.Loads (record : BootRecord) : Prop :=
  exists target vars, BootEvent.loadTarget target vars ∈ record.events

/-- The one-shot entry is there when the boot starts, and the boot loads a target. -/
def BootRecord.UsesOneShot (record : BootRecord) : Prop :=
  record.startVars.loaderEntryOneShot ≠ none ∧ record.Loads

def BootRecord.LoadsSpent (cfg : Config) (record : BootRecord) : Prop :=
  forall target vars, BootEvent.loadTarget target vars ∈ record.events ->
    InTable cfg target -> vars.loaderEntryOneShot = none

/-- Between two boots that use the one-shot entry, the system has written it again. -/
def UsedOnce (boots : List (BootInputs × BootRecord)) : Prop :=
  forall before first between last after,
    boots = before ++ first :: (between ++ last :: after) ->
      first.2.UsesOneShot -> last.2.UsesOneShot ->
        exists boot, boot ∈ between ++ [last] ∧ boot.1.osOneShot ≠ none

theorem mem_loadsOf {events : List BootEvent} {target : Target} {vars : EfiVariables}
    (h : BootEvent.loadTarget target vars ∈ events) : (target, vars) ∈ loadsOf events :=
  List.mem_filterMap.mpr ⟨_, h, rfl⟩

structure BootSpends (cfg : Config) (record : BootRecord) : Prop where
  spent : record.LoadsSpent cfg
  used : record.Loads -> record.finalVars.loaderEntryOneShot = none
  kept : record.startVars.loaderEntryOneShot = none ->
    record.finalVars.loaderEntryOneShot = none

theorem runBoot_spends {cfg : Config} {inputs : BootInputs}
    (hdelete : forall n, inputs.deleteAnswer n = EfiStatus.success) (vars : EfiVariables) :
    BootSpends cfg (runBoot cfg inputs vars) := by
  have hboot : exists loads, LoadsSpent cfg (BootState.start inputs (osWrites inputs vars)) loads
      (startBootLogic cfg inputs (osWrites inputs vars)).2 :=
    startBootLogic_loadsSpent hdelete (osWrites inputs vars)
  rcases hboot with ⟨loads, hloads⟩
  have hall : loadsOf (runBoot cfg inputs vars).events = loads := hloads.loads_eq
  refine ⟨?_, ?_, ?_⟩
  · intro target found hmem _
    have hload := mem_loadsOf hmem
    rw [hall] at hload
    exact (hloads.spent target found hload).2
  · intro hmem
    rcases hmem with ⟨target, found, hmem⟩
    have hload := mem_loadsOf hmem
    rw [hall] at hload
    exact hloads.oneShot (Or.inr (List.ne_nil_of_mem hload))
  · intro hnone
    exact hloads.oneShot (Or.inl hnone)

def timeline (cfg : Config) : EfiVariables -> List BootInputs -> List (BootInputs × BootRecord)
  | _, [] => []
  | vars, inputs :: boots =>
      (inputs, runBoot cfg inputs vars) ::
        timeline cfg (runBoot cfg inputs vars).finalVars boots

theorem map_fst_timeline (cfg : Config) (vars : EfiVariables) (boots : List BootInputs) :
    (timeline cfg vars boots).map Prod.fst = boots := by
  induction boots generalizing vars with
  | nil => rfl
  | cons inputs boots ih => simp [timeline, ih]

theorem history_of_run {cfg : Config} {d e : Device} {boots : List BootInputs}
    (hrun : runFrom (Device.step cfg) d boots = some e) :
    e.history.reverse = d.history.reverse ++ (timeline cfg d.vars boots).map Prod.snd := by
  induction boots generalizing d with
  | nil =>
      cases hrun
      simp [timeline]
  | cons inputs boots ih =>
      rcases runFrom_cons_eq_some.mp hrun with ⟨t, hstep, hrest⟩
      rcases Device.step_eq_some hstep with ⟨hvars, hhistory⟩
      rw [ih hrest, hvars, hhistory]
      simp [timeline]

theorem zip_history_of_run {cfg : Config} {vars : EfiVariables} {boots : List BootInputs}
    {d : Device} (hrun : runFrom (Device.step cfg) (Device.fresh vars) boots = some d) :
    boots.zip d.history.reverse = timeline cfg vars boots := by
  have hhistory := history_of_run hrun
  have hrecords : (timeline cfg vars boots).map Prod.snd = d.history.reverse := by
    rw [hhistory]
    rfl
  exact (List.zip_of_prod (map_fst_timeline cfg vars boots) hrecords).symm

theorem timeline_split {cfg : Config} {vars : EfiVariables} {boots : List BootInputs}
    {before rest : List (BootInputs × BootRecord)} {first : BootInputs × BootRecord}
    (h : timeline cfg vars boots = before ++ first :: rest) :
    first.1 ∈ boots ∧ (exists found, first.2 = runBoot cfg first.1 found) ∧
      exists later, (forall inputs, inputs ∈ later -> inputs ∈ boots) ∧
        rest = timeline cfg first.2.finalVars later := by
  induction before generalizing vars boots with
  | nil =>
      cases boots with
      | nil => cases h
      | cons inputs boots =>
          cases h
          exact ⟨List.mem_cons_self .., ⟨_, rfl⟩, boots,
            fun later hlater => List.mem_cons_of_mem _ hlater, rfl⟩
  | cons boot before ih =>
      cases boots with
      | nil => cases h
      | cons inputs boots =>
          rw [timeline, List.cons_append, List.cons.injEq] at h
          rcases ih h.2 with ⟨hmem, hrecord, later, hlater, hrest⟩
          exact ⟨List.mem_cons_of_mem _ hmem, hrecord, later,
            fun next hnext => List.mem_cons_of_mem _ (hlater next hnext), hrest⟩

/-- Without the system, a one-shot entry that is gone stays gone. -/
theorem oneShot_stays_gone {cfg : Config} {vars : EfiVariables} {boots : List BootInputs}
    (hdelete : forall inputs, inputs ∈ boots ->
      forall n, inputs.deleteAnswer n = EfiStatus.success)
    {between after : List (BootInputs × BootRecord)} {last : BootInputs × BootRecord}
    (h : timeline cfg vars boots = between ++ last :: after)
    (hnone : vars.loaderEntryOneShot = none)
    (hwritten : forall boot, boot ∈ between ++ [last] -> boot.1.osOneShot = none) :
    last.2.startVars.loaderEntryOneShot = none := by
  have hstart : forall {inputs : BootInputs} {found : EfiVariables},
      inputs.osOneShot = none -> found.loaderEntryOneShot = none ->
        (runBoot cfg inputs found).startVars.loaderEntryOneShot = none := by
    intro inputs found hos hfound
    show (osWrites inputs found).loaderEntryOneShot = none
    unfold osWrites
    rw [hos]
    exact hfound
  induction between generalizing vars boots with
  | nil =>
      cases boots with
      | nil => cases h
      | cons inputs boots =>
          cases h
          exact hstart (hwritten (inputs, runBoot cfg inputs vars) (by simp)) hnone
  | cons boot between ih =>
      cases boots with
      | nil => cases h
      | cons inputs boots =>
          rw [timeline, List.cons_append, List.cons.injEq] at h
          have hos : inputs.osOneShot = none := by
            have hboot := hwritten boot (by simp)
            rw [← h.1] at hboot
            exact hboot
          have hspends : BootSpends cfg (runBoot cfg inputs vars) :=
            runBoot_spends (hdelete inputs (List.mem_cons_self ..)) vars
          apply ih (fun later hlater => hdelete later (List.mem_cons_of_mem _ hlater)) h.2
            (hspends.kept (hstart hos hnone))
          intro next hnext
          exact hwritten next (List.mem_cons_of_mem boot hnext)

/--
In every run of boots whose deletions succeed, no target of the table is loaded
while the one-shot entry exists, and one write of it is there for the load of at
most one boot.
-/
theorem oneShot_used_once {cfg : Config} {vars : EfiVariables} {boots : List BootInputs}
    {d : Device}
    (hdelete : forall inputs, inputs ∈ boots ->
      forall n, inputs.deleteAnswer n = EfiStatus.success)
    (hrun : runFrom (Device.step cfg) (Device.fresh vars) boots = some d) :
    (forall record, record ∈ d.history -> record.LoadsSpent cfg) ∧
      UsedOnce (boots.zip d.history.reverse) := by
  have htimeline := zip_history_of_run hrun
  constructor
  · intro record hmem
    have hrecord : record ∈ (timeline cfg vars boots).map Prod.snd := by
      have hhistory := history_of_run hrun
      rw [← List.mem_reverse, hhistory] at hmem
      exact hmem
    rcases List.mem_map.mp hrecord with ⟨boot, hboot, rfl⟩
    rcases List.append_of_mem hboot with ⟨before, rest, hsplit⟩
    rcases timeline_split hsplit with ⟨hinputs, ⟨found, hfound⟩, -⟩
    have hspends : BootSpends cfg (runBoot cfg boot.1 found) :=
      runBoot_spends (hdelete boot.1 hinputs) found
    rw [hfound]
    exact hspends.spent
  · rw [htimeline]
    intro before first between last after hsplit hfirst hlast
    by_contra hnever
    have hwritten : forall boot, boot ∈ between ++ [last] -> boot.1.osOneShot = none := by
      intro boot hboot
      by_contra hwrites
      exact hnever ⟨boot, hboot, hwrites⟩
    rcases timeline_split hsplit with ⟨hinputs, ⟨found, hfound⟩, later, hlater, hrest⟩
    have hspends : BootSpends cfg (runBoot cfg first.1 found) :=
      runBoot_spends (hdelete first.1 hinputs) found
    rw [← hfound] at hspends
    apply hlast.1
    exact oneShot_stays_gone (fun inputs hmem => hdelete inputs (hlater inputs hmem))
      hrest.symm (hspends.used hfirst.2) hwritten

def recoveryThenReboot : List BootInputs :=
  [{ plainReset ResetSource.osInitiated with osOneShot := some "recovery" },
    plainReset ResetSource.osInitiated]

theorem oneShot_used_once_of_recovery :
    exists d, runFrom (Device.step { doColdResetAfterWd := false, enableFactoryModes := false })
        (Device.fresh (lastEntryOnly "main")) recoveryThenReboot = some d ∧
      d.history.reverse.map (fun record => (loadsOf record.events).map Prod.fst) =
        [[Target.recovery], [Target.boot]] ∧
      UsedOnce (recoveryThenReboot.zip d.history.reverse) := by
  refine ⟨_, rfl, by decide, (oneShot_used_once ?_ rfl).2⟩
  intro inputs hmem n
  simp only [recoveryThenReboot, List.mem_cons, List.not_mem_nil, or_false] at hmem
  rcases hmem with rfl | rfl
  · rfl
  · rfl

end BootLogic
end BootableUefi
