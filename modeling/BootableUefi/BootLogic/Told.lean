import BootableUefi.BootLogic.ColdReset
import BootableUefi.BootLogic.OneShot

/-!
# What the system is told

A boot hands two things over besides the target: `LoadEntryPrevious`, written
before the target is chosen, and the boot-time variables of `uefi_osnib.c`,
written after.  Both speak of the boots before it.
-/

namespace BootableUefi
namespace BootLogic

open Firmware Foundation

/-!
# What the steps of a selection may do

A relation that contains the variable services, as long as the writes do not
change the view, contains every boot case that runs after the classification.
-/

/-- The view does not depend on the variables the boot cases count and flag with. -/
structure SeesEntries {α : Type} (view : EfiVariables -> α) : Prop where
  savedResetSource : forall vars value,
    view { vars with savedResetSource := value } = view vars
  wdtCounter : forall vars value, view { vars with wdtCounter := value } = view vars
  wdColdReset : forall vars value, view { vars with wdColdReset := value } = view vars
  rtcAlarmCharging : forall vars value,
    view { vars with rtcAlarmCharging := value } = view vars
  capsuleUpdateStatus : forall vars value,
    view { vars with capsuleUpdateStatus := value } = view vars

structure BootRule {α : Type} (cfg : Config) (inputs : BootInputs)
    (view : EfiVariables -> α) (R : BootState -> BootState -> Prop) : Prop where
  sees : SeesEntries view
  refl : forall s, R s s
  trans : forall {s t u}, R s t -> R t u -> R s u
  get : forall {β : Type} (read : EfiVariables -> Option β) s,
    R s (getVariable inputs read s).2
  set : forall {write : EfiVariables -> EfiVariables},
    (forall vars, view (write vars) = view vars) ->
      forall s, R s (setVariable inputs write s).2
  /-- Saving the target that `get_entry_last` has just read. -/
  resave : forall s t, t.vars = s.vars ->
    R t (setEntryLast cfg inputs (getEntryLast cfg inputs s).1 t).2
  coldReset : forall source s, R s (s.emit (BootEvent.coldReset source))

theorem runBootCases_rel {R : BootState -> BootState -> Prop} (hrefl : forall s, R s s)
    (htrans : forall {s t u}, R s t -> R t u -> R s u)
    {cases : List (BootState -> CaseResult)}
    (hcases : forall bootCase, bootCase ∈ cases -> forall s, R s (bootCase s).2)
    (s : BootState) : R s (runBootCases cases s).2 := by
  induction cases generalizing s with
  | nil => exact hrefl s
  | cons bootCase rest ih =>
      have hfirst := hcases bootCase (List.mem_cons_self ..) s
      unfold runBootCases
      split
      · rename_i t heq
        rw [heq] at hfirst
        exact htrans hfirst (ih (fun c hc => hcases c (List.mem_cons_of_mem _ hc)) t)
      · exact hfirst

namespace BootRule

variable {α : Type} {cfg : Config} {inputs : BootInputs} {view : EfiVariables -> α}
variable {R : BootState -> BootState -> Prop} (rule : BootRule cfg inputs view R)

include rule

theorem getTargetFromVar (read : EfiVariables -> Option String) (s : BootState) :
    R s (getTargetFromVar cfg inputs read s).2 := by
  have hget := rule.get read s
  unfold BootLogic.getTargetFromVar
  dsimp only
  split
  · exact hget
  · split <;> exact hget

theorem countWatchdog (lastTarget : Target) (s : BootState) :
    R s (countWatchdog inputs lastTarget s).2 := by
  have hget : R s (uefiGetWdtCounter inputs s).2 := rule.get EfiVariables.wdtCounter s
  unfold BootLogic.countWatchdog
  dsimp only
  split
  · exact rule.trans hget (rule.set (fun vars => rule.sees.wdtCounter vars _) _)
  · exact rule.trans hget (rule.set (fun vars => rule.sees.wdtCounter vars _) _)

theorem bootWatchdog (source : ResetSource) (s : BootState) :
    R s (bootWatchdog cfg inputs source s).2 := by
  have hlast : R s (getEntryLast cfg inputs s).2 := rule.getTargetFromVar _ s
  have hflag : R (getEntryLast cfg inputs s).2
      (uefiGetWdColdReset inputs (getEntryLast cfg inputs s).2).2 :=
    rule.get EfiVariables.wdColdReset _
  have hread := rule.trans hlast hflag
  unfold BootLogic.bootWatchdog
  split
  · dsimp only
    split
    · split
      · have hclear : forall t, R t (uefiSetWdColdReset inputs 0 t).2 := by
          intro t
          exact rule.set (fun vars => rule.sees.wdColdReset vars (some (signedByte 0))) t
        exact rule.trans (rule.trans hread (hclear _)) (rule.countWatchdog _ _)
      · have hvars : (uefiGetWdColdReset inputs (getEntryLast cfg inputs s).2).2.vars =
            s.vars :=
          (quiet_getTargetFromVar id cfg inputs EfiVariables.loaderEntryLast s).view
        unfold requestColdReset
        dsimp only
        refine rule.trans (rule.trans hread (rule.resave s _ hvars)) ?_
        have hsave : forall t, R t (saveResetSource inputs source t).2 := by
          intro t
          exact rule.set (fun vars => rule.sees.savedResetSource vars (some source)) t
        have hset : forall t, R t (uefiSetWdColdReset inputs 1 t).2 := by
          intro t
          exact rule.set (fun vars => rule.sees.wdColdReset vars (some (signedByte 1))) t
        exact rule.trans (rule.trans (hsave _) (hset _)) (rule.coldReset source _)
    · exact rule.trans hlast (rule.countWatchdog _ _)
  · exact rule.refl s

theorem bootFwUpdate (source : ResetSource) (s : BootState) :
    R s (bootFwUpdate inputs source s).2 := by
  unfold BootLogic.bootFwUpdate
  split
  · split
    · exact rule.set (fun vars => rule.sees.capsuleUpdateStatus vars _) s
    · exact rule.refl s
  · exact rule.refl s

theorem bootReset (source : ResetSource) (s : BootState) :
    R s (bootReset cfg inputs source s).2 := by
  unfold BootLogic.bootReset
  split
  · exact rule.getTargetFromVar _ s
  · exact rule.refl s

theorem targetFromReset (source : ResetSource) (s : BootState) :
    R s (targetFromReset cfg inputs source s).2 := by
  apply runBootCases_rel rule.refl rule.trans
  intro bootCase hmem t
  simp only [List.mem_cons, List.not_mem_nil, or_false] at hmem
  rcases hmem with rfl | rfl | rfl | rfl
  · exact rule.bootWatchdog source t
  · exact rule.refl t
  · exact rule.bootFwUpdate source t
  · exact rule.bootReset source t

theorem targetFromOff (source : WakeSource) (s : BootState) :
    R s (targetFromOff inputs source s).2 := by
  have hstart : R s
      (if inputs.shutdownSource = ShutdownSource.powerButtonOverride then
        forcedShutdown inputs s else s) := by
    split
    · exact rule.trans (rule.set (fun vars => rule.sees.rtcAlarmCharging vars _) s)
        (rule.set (fun vars => rule.sees.wdtCounter vars _) _)
    · exact rule.refl s
  refine rule.trans hstart (runBootCases_rel rule.refl rule.trans ?_ _)
  intro bootCase hmem t
  simp only [List.mem_cons, List.not_mem_nil, or_false] at hmem
  rcases hmem with rfl | rfl | rfl | rfl | rfl | rfl <;> exact rule.refl t

end BootRule

/-!
# The last entry

What `LoaderEntryLast` stands for is the target loaded last, and it is passed on
to the next boot as `LoadEntryPrevious`.
-/

def entryTarget (cfg : Config) (name : Option String) : Option Target :=
  name.bind fun name => (nameToTarget cfg.enableFactoryModes name).toOption

abbrev lastTarget (cfg : Config) (vars : EfiVariables) : Option Target :=
  entryTarget cfg vars.loaderEntryLast

def entries (cfg : Config) (vars : EfiVariables) : Option Target × Option String :=
  (lastTarget cfg vars, vars.loadEntryPrevious)

/-- Nothing is loaded, and the entries stand for what they stood for. -/
structure KeepsEntries (cfg : Config) (s t : BootState) : Prop where
  loads : loadsOf t.events = loadsOf s.events
  entries : entries cfg t.vars = entries cfg s.vars

theorem Quiet.keepsEntries {cfg : Config} {s t : BootState} (h : Quiet (entries cfg) s t) :
    KeepsEntries cfg s t where
  loads := by rw [h.events]
  entries := h.view

theorem KeepsEntries.refl (cfg : Config) (s : BootState) : KeepsEntries cfg s s := ⟨rfl, rfl⟩

theorem KeepsEntries.trans {cfg : Config} {s t u : BootState} (hst : KeepsEntries cfg s t)
    (htu : KeepsEntries cfg t u) : KeepsEntries cfg s u :=
  ⟨htu.loads.trans hst.loads, htu.entries.trans hst.entries⟩

theorem entryTarget_of_name {cfg : Config} {target : Target} {name : String}
    (h : targetToName cfg.enableFactoryModes target = Except.ok name) :
    entryTarget cfg (some name) = some target := by
  rw [entryTarget, Option.bind_some, nameToTarget_of_targetToName h]
  rfl

theorem targetToName_unknown (factoryModes : Bool) :
    targetToName factoryModes Target.unknown = Except.error EfiStatus.invalidParameter := by
  cases factoryModes <;> rfl

/-- What `get_entry_last` returns is what the last entry stands for, or `TARGET_UNKNOWN`. -/
theorem getEntryLast_cases (cfg : Config) (inputs : BootInputs) (s : BootState) :
    (getEntryLast cfg inputs s).1 = Target.unknown ∨
      lastTarget cfg s.vars = some (getEntryLast cfg inputs s).1 := by
  unfold getEntryLast getTargetFromVar getVariable
  dsimp only
  split
  · exact Or.inl rfl
  · rename_i name hname
    have hread : s.vars.loaderEntryLast = some name := by
      split at hname
      · cases hname
      · exact hname
    split
    · rename_i target htarget
      right
      rw [lastTarget, entryTarget, hread, Option.bind_some, htarget]
      rfl
    · exact Or.inl rfl

theorem keepsEntries_resave (cfg : Config) (inputs : BootInputs) (s t : BootState)
    (hvars : t.vars = s.vars) :
    KeepsEntries cfg t (setEntryLast cfg inputs (getEntryLast cfg inputs s).1 t).2 := by
  unfold setEntryLast
  split
  · exact KeepsEntries.refl cfg t
  · rename_i name hname
    have hdeleted : Quiet (entries cfg) t
        (deleteVariable inputs (fun vars => vars.loaderEntryOneShot.isSome)
          (fun vars => { vars with loaderEntryOneShot := none }) t).2 := by
      apply quiet_deleteVariable
      intro vars
      rfl
    have hlast : lastTarget cfg t.vars = some (getEntryLast cfg inputs s).1 := by
      rw [hvars]
      rcases getEntryLast_cases cfg inputs s with hunknown | hlast
      · rw [hunknown, targetToName_unknown] at hname
        cases hname
      · exact hlast
    dsimp only
    refine hdeleted.keepsEntries.trans ⟨rfl, ?_⟩
    simp only [setVariable]
    split
    · rfl
    · have hkept := congrArg Prod.fst hdeleted.view
      apply Prod.ext
      · exact (entryTarget_of_name hname).trans (hlast.symm.trans hkept.symm)
      · rfl

theorem bootRule_keepsEntries (cfg : Config) (inputs : BootInputs) :
    BootRule cfg inputs (entries cfg) (KeepsEntries cfg) where
  sees := ⟨fun _ _ => rfl, fun _ _ => rfl, fun _ _ => rfl, fun _ _ => rfl, fun _ _ => rfl⟩
  refl := KeepsEntries.refl cfg
  trans := KeepsEntries.trans
  get := fun read s => (quiet_getVariable _ inputs read s).keepsEntries
  set := fun hwrite s => (quiet_setVariable inputs hwrite s).keepsEntries
  resave := keepsEntries_resave cfg inputs
  coldReset := by
    intro source s
    exact ⟨by simp [loadsOf], rfl⟩

theorem classifyReset_keepsEntries (cfg : Config) (inputs : BootInputs) (s : BootState) :
    KeepsEntries cfg s (classifyReset cfg inputs s).2 := by
  have hsaved : forall vars : EfiVariables,
      entries cfg { vars with savedResetSource := none } = entries cfg vars := fun _ => rfl
  rcases classifyReset_cases hsaved cfg inputs s with ⟨t, hevents, hview, heq⟩
  have hst : KeepsEntries cfg s t := by
    refine ⟨?_, hview⟩
    rw [hevents]
    simp [loadsOf]
  rw [heq]
  split
  · exact hst
  · split
    · exact hst.trans ((bootRule_keepsEntries cfg inputs).targetFromReset _ t)
    · exact hst

theorem targetFromInputs_keepsEntries (cfg : Config) (inputs : BootInputs) (s : BootState) :
    KeepsEntries cfg s (targetFromInputs cfg inputs s).2 := by
  unfold targetFromInputs
  split
  · exact KeepsEntries.refl cfg s
  · split
    · exact KeepsEntries.refl cfg s
    · split
      · exact (bootRule_keepsEntries cfg inputs).targetFromOff _ s
      · exact classifyReset_keepsEntries cfg inputs s

/-!
# Loading targets
-/

/-- The target of the last load, or the one known before. -/
def lastLoad (known : Option Target) (loads : List (Target × EfiVariables)) : Option Target :=
  loads.foldl (fun _ load => some load.1) known

/-- The loads of a part of a boot: what they are told, and what they leave behind. -/
structure Tells (cfg : Config) (s : BootState) (loads : List (Target × EfiVariables))
    (t : BootState) : Prop where
  loads_eq : loadsOf t.events = loadsOf s.events ++ loads
  told : forall load, load ∈ loads -> load.2.loadEntryPrevious = s.vars.loadEntryPrevious
  previous : t.vars.loadEntryPrevious = s.vars.loadEntryPrevious
  last : lastTarget cfg t.vars = lastLoad (lastTarget cfg s.vars) loads

theorem KeepsEntries.tells {cfg : Config} {s t : BootState} (h : KeepsEntries cfg s t) :
    Tells cfg s [] t where
  loads_eq := by rw [h.loads, List.append_nil]
  told := by simp
  previous := congrArg Prod.snd h.entries
  last := congrArg Prod.fst h.entries

theorem Tells.trans {cfg : Config} {s t u : BootState}
    {first next : List (Target × EfiVariables)} (hst : Tells cfg s first t)
    (htu : Tells cfg t next u) : Tells cfg s (first ++ next) u where
  loads_eq := by rw [htu.loads_eq, hst.loads_eq, List.append_assoc]
  told := by
    intro load hmem
    rcases List.mem_append.mp hmem with hfirst | hnext
    · exact hst.told load hfirst
    · exact (htu.told load hnext).trans hst.previous
  previous := htu.previous.trans hst.previous
  last := by rw [htu.last, hst.last, lastLoad, lastLoad, lastLoad, List.foldl_append]

theorem setEntryLast_last {cfg : Config} {inputs : BootInputs} {target : Target}
    (h : inputs.AccessesSucceed) (htable : InTable cfg target) (s : BootState) :
    lastTarget cfg (setEntryLast cfg inputs target s).2.vars = some target := by
  rcases htable with ⟨entry, hentry⟩
  have hname : targetToName cfg.enableFactoryModes target = Except.ok entry.name := by
    rw [targetToName, hentry]
  unfold setEntryLast
  rw [hname]
  dsimp only
  rw [setVariable_of_succeed h]
  exact entryTarget_of_name hname

theorem setEntryLast_tells {cfg : Config} {inputs : BootInputs} {target : Target}
    (h : inputs.AccessesSucceed) (htable : InTable cfg target) (s : BootState) :
    Tells cfg s [(target, (setEntryLast cfg inputs target s).2.vars)]
      ((setEntryLast cfg inputs target s).2.emit
        (BootEvent.loadTarget target (setEntryLast cfg inputs target s).2.vars)) := by
  have hprevious : Quiet EfiVariables.loadEntryPrevious s
      (setEntryLast cfg inputs target s).2 :=
    quiet_setEntryLast (fun _ => rfl) (fun _ _ => rfl) cfg inputs target s
  refine ⟨?_, ?_, hprevious.view, ?_⟩
  · rw [← hprevious.events]
    simp [loadsOf]
  · intro load hmem
    cases List.mem_singleton.mp hmem
    exact hprevious.view
  · exact setEntryLast_last h htable s

theorem launchLoop_tells {cfg : Config} {inputs : BootInputs} (h : inputs.AccessesSucceed)
    (bound k : Nat) {target : Target}
    (htarget : target = Target.coldOff ∨ InTable cfg target) (s : BootState) :
    exists loads, Tells cfg s loads (launchLoop cfg inputs bound k target s).2 := by
  induction bound generalizing k target s with
  | zero => exact ⟨[], (KeepsEntries.refl cfg s).tells⟩
  | succ bound ih =>
      have hnext := emFallbackTarget_launchable (inputs.batteryLevel k)
        (inputs.isChargerPresent k) htarget
      unfold launchLoop
      dsimp only
      generalize emFallbackTarget (inputs.batteryLevel k) (inputs.isChargerPresent k) target =
        next at hnext ⊢
      split
      · have hoff : KeepsEntries cfg s (s.emit (BootEvent.coldOff s.vars)) :=
          ⟨by simp [loadsOf], rfl⟩
        exact ⟨[], hoff.tells⟩
      · rename_i hrunning
        have hload := setEntryLast_tells h (hnext.resolve_left hrunning) s
        split
        · split
          · rename_i hfallback
            rcases ih (k + 1) (Or.inr (fallbackTarget_launchable hfallback)) _ with
              ⟨loads, hrest⟩
            exact ⟨_, hload.trans hrest⟩
          · exact ⟨_, hload⟩
        · exact ⟨_, hload⟩

theorem selectionState_told {cfg : Config} {inputs : BootInputs} (h : inputs.AccessesSucceed)
    (vars : EfiVariables) {last : Target} (hlast : lastTarget cfg vars = some last) :
    entryTarget cfg (selectionState cfg inputs vars).vars.loadEntryPrevious = some last := by
  have hname : exists name, vars.loaderEntryLast = some name ∧
      nameToTarget cfg.enableFactoryModes name = Except.ok last := by
    unfold lastTarget entryTarget at hlast
    rcases Option.bind_eq_some_iff.mp hlast with ⟨name, hname, hok⟩
    refine ⟨name, hname, ?_⟩
    cases hfound : nameToTarget cfg.enableFactoryModes name with
    | error status =>
        rw [hfound] at hok
        cases hok
    | ok target =>
        rw [hfound] at hok
        cases hok
        rfl
  rcases hname with ⟨name, hread, htarget⟩
  rcases inTable_of_nameToTarget htarget with ⟨entry, hentry⟩
  have hsaved : targetToName cfg.enableFactoryModes last = Except.ok entry.name := by
    rw [targetToName, hentry]
  have hget : (getEntryLast cfg inputs (BootState.start inputs vars)).1 = last := by
    unfold getEntryLast getTargetFromVar
    rw [getVariable_of_succeed h]
    simp only [BootState.start, hread, htarget]
  unfold selectionState saveEntryPrevious
  dsimp only
  rw [hget, hsaved]
  dsimp only
  rw [setVariable_of_succeed h]
  exact entryTarget_of_name hsaved

/-- What a boot of a device that last loaded the target tells the targets it loads. -/
theorem startBootLogic_tells {cfg : Config} {inputs : BootInputs} (h : inputs.AccessesSucceed)
    (vars : EfiVariables) :
    exists loads,
      Tells cfg (selectionState cfg inputs vars) loads (startBootLogic cfg inputs vars).2 := by
  have hselects : Selects cfg (selectionState cfg inputs vars)
      (targetFromInputs cfg inputs (selectionState cfg inputs vars)) :=
    targetFromInputs_selects _
  have hkeeps := targetFromInputs_keepsEntries cfg inputs (selectionState cfg inputs vars)
  cases hselect : targetFromInputs cfg inputs (selectionState cfg inputs vars) with
  | mk selected s =>
      rw [hselect] at hselects hkeeps
      cases selected with
      | none =>
          rw [startBootLogic_eq, hselect]
          exact ⟨_, hkeeps.tells⟩
      | some target =>
          by_cases herror : target = Target.error
          · rw [startBootLogic_eq, hselect, herror]
            exact ⟨_, hkeeps.tells⟩
          · rw [startBootLogic_of_selected hselect herror]
            have hreset : KeepsEntries cfg s (getResetSource cfg inputs s).2 :=
              (quiet_getResetSource (fun _ => rfl) cfg inputs s).keepsEntries
            have hlaunch : (if target = Target.unknown then Target.boot else target) =
                Target.coldOff ∨
                InTable cfg (if target = Target.unknown then Target.boot else target) := by
              split
              · exact Or.inr (inTable_common cfg (by decide))
              · rename_i hknown
                exact (hselects.target target rfl).resolve_left hknown
            rcases launchLoop_tells h 4 0 hlaunch (getResetSource cfg inputs s).2 with
              ⟨loads, hloads⟩
            exact ⟨_, (hkeeps.trans hreset).tells.trans hloads⟩

/-!
# Boots in a row
-/

def lastLoaded : List BootRecord -> Option Target
  | [] => none
  | record :: older => lastLoad (lastLoaded older) (loadsOf record.events)

/-- What the targets of a boot are told, and what the boot leaves in `LoaderEntryLast`. -/
structure BootTells (cfg : Config) (record : BootRecord) : Prop where
  told : forall last, lastTarget cfg record.startVars = some last ->
    forall target vars, BootEvent.loadTarget target vars ∈ record.events ->
      entryTarget cfg vars.loadEntryPrevious = some last
  last : lastTarget cfg record.finalVars =
    lastLoad (lastTarget cfg record.startVars) (loadsOf record.events)

theorem runBoot_tells {cfg : Config} {inputs : BootInputs} (h : inputs.AccessesSucceed)
    (vars : EfiVariables) : BootTells cfg (runBoot cfg inputs vars) := by
  have hselection : Quiet (lastTarget cfg) (BootState.start inputs (osWrites inputs vars))
      (selectionState cfg inputs (osWrites inputs vars)) :=
    quiet_selectionState (fun _ _ => rfl) cfg inputs _
  have hnone : loadsOf (selectionState cfg inputs (osWrites inputs vars)).events = [] := by
    rw [hselection.events]
    rfl
  have hlast : lastTarget cfg (selectionState cfg inputs (osWrites inputs vars)).vars =
      lastTarget cfg (osWrites inputs vars) := hselection.view
  rcases startBootLogic_tells h (osWrites inputs vars) with ⟨loads, hloads⟩
  have hall : loadsOf (runBoot cfg inputs vars).events = loads := by
    rw [← List.nil_append loads, ← hnone]
    exact hloads.loads_eq
  constructor
  · intro last hfound target found hmem
    have hload := mem_loadsOf hmem
    rw [hall] at hload
    have htold : found.loadEntryPrevious = _ := hloads.told _ hload
    rw [htold]
    exact selectionState_told h _ hfound
  · have hleft := hloads.last
    rw [hlast] at hleft
    rw [hall]
    exact hleft

theorem lastTarget_osWrites (cfg : Config) (inputs : BootInputs) (vars : EfiVariables) :
    lastTarget cfg (osWrites inputs vars) = lastTarget cfg vars := by
  unfold osWrites
  split <;> rfl

theorem lastLoad_of_known {known found : Option Target}
    (h : forall target, known = some target -> found = some target)
    (loads : List (Target × EfiVariables)) {target : Target}
    (hlast : lastLoad known loads = some target) : lastLoad found loads = some target := by
  induction loads generalizing known found with
  | nil => exact h target hlast
  | cons load loads ih => exact ih (fun _ hload => hload) hlast

/-- Every target of the history was told the one that was loaded last before its boot. -/
def TellsLast (cfg : Config) (history : List BootRecord) : Prop :=
  forall newer record older, history = newer ++ record :: older ->
    forall last, lastLoaded older = some last ->
      forall target vars, BootEvent.loadTarget target vars ∈ record.events ->
        entryTarget cfg vars.loadEntryPrevious = some last

structure Remembers (cfg : Config) (d : Device) : Prop where
  known : forall last, lastLoaded d.history = some last -> lastTarget cfg d.vars = some last
  tells : TellsLast cfg d.history

theorem remembers_step {cfg : Config} {inputs : BootInputs} {d e : Device}
    (hok : inputs.AccessesSucceed) (h : Remembers cfg d) (hstep : d.step cfg inputs = some e) :
    Remembers cfg e := by
  rcases Device.step_eq_some hstep with ⟨hvars, hhistory⟩
  have hboot : BootTells cfg (runBoot cfg inputs d.vars) := runBoot_tells hok d.vars
  have hfound : lastTarget cfg (runBoot cfg inputs d.vars).startVars = lastTarget cfg d.vars :=
    lastTarget_osWrites cfg inputs d.vars
  constructor
  · intro last hlast
    rw [hhistory] at hlast
    rw [hvars, hboot.last, hfound]
    exact lastLoad_of_known h.known _ hlast
  · rw [hhistory]
    intro newer record older hsplit last hlast target vars hload
    cases newer with
    | nil =>
        cases hsplit
        exact hboot.told last (hfound.trans (h.known last hlast)) target vars hload
    | cons first newer =>
        rw [List.cons_append, List.cons.injEq] at hsplit
        exact h.tells newer record older hsplit.2 last hlast target vars hload

/--
In every run of boots, whatever each of them selects, falls back to or resets
for, the targets a boot loads find in `LoadEntryPrevious` the target that was
loaded last before that boot.
-/
theorem run_tellsLast {cfg : Config} {vars : EfiVariables} {boots : List BootInputs}
    (hok : forall inputs, inputs ∈ boots -> inputs.AccessesSucceed) {d : Device}
    (hrun : runFrom (Device.step cfg) (Device.fresh vars) boots = some d) :
    TellsLast cfg d.history := by
  have hguard : AllSteps (fun _ inputs => True ∧ inputs.AccessesSucceed) (Device.step cfg)
      (Device.fresh vars) boots :=
    (allSteps_of_forall (fun _ _ => trivial) _ _).and_of_forall_mem hok
  have hfinal : Remembers cfg d := by
    apply invariant_of_allSteps _ _ hguard hrun
    · intro d inputs e hinv hboot hstep
      exact remembers_step hboot.2 hinv hstep
    · constructor
      · intro last hlast
        cases hlast
      · intro newer record older hsplit
        cases newer <;> cases hsplit
  exact hfinal.tells

def threeBoots : List BootInputs :=
  [plainReset ResetSource.osInitiated,
    { plainReset ResetSource.osInitiated with osOneShot := some "recovery" },
    { plainReset ResetSource.osInitiated with loadTargetReturns := fun k => k == 0 }]

theorem run_tellsLast_threeBoots :
    exists d, runFrom (Device.step ⟨false, false⟩) (Device.fresh (lastEntryOnly "fastboot"))
        threeBoots = some d ∧
      d.history.reverse.map (fun record => (loadsOf record.events).map fun load =>
          (load.1, load.2.loadEntryPrevious)) =
        [[(Target.boot, some "fastboot")], [(Target.recovery, some "main")],
          [(Target.boot, some "recovery"), (Target.recovery, some "recovery")]] ∧
      TellsLast ⟨false, false⟩ d.history := by
  have hok : forall inputs, inputs ∈ threeBoots -> inputs.AccessesSucceed := by
    intro inputs hmem
    simp only [threeBoots, List.mem_cons, List.not_mem_nil, or_false] at hmem
    rcases hmem with rfl | rfl | rfl
    · exact plainReset_accessesSucceed ResetSource.osInitiated
    · exact ⟨fun _ => rfl, fun _ => rfl, fun _ => rfl⟩
    · exact ⟨fun _ => rfl, fun _ => rfl, fun _ => rfl⟩
  refine ⟨_, rfl, by decide, ?_⟩
  exact run_tellsLast hok rfl

/-!
# The boot-time variables

`uefi_populate_osnib_variables` runs at the end of the selection and writes the
low byte of what four of the loader operations return.
-/

def WakeSource.code : WakeSource -> Int
  | WakeSource.notApplicable => 0
  | WakeSource.batteryInserted => 1
  | WakeSource.usbChargerInserted => 2
  | WakeSource.acdcChargerInserted => 3
  | WakeSource.powerButtonPressed => 4
  | WakeSource.rtcTimer => 5
  | WakeSource.batteryReachedIaThreshold => 6
  | WakeSource.error => -1
  | WakeSource.other value => value

def ResetSource.code : ResetSource -> Int
  | ResetSource.notApplicable => 0
  | ResetSource.osInitiated => 1
  | ResetSource.forced => 2
  | ResetSource.fwUpdate => 3
  | ResetSource.kernelWatchdog => 4
  | ResetSource.securityWatchdog => 5
  | ResetSource.securityInitiated => 6
  | ResetSource.pmcWatchdog => 7
  | ResetSource.ecWatchdog => 8
  | ResetSource.platformWatchdog => 9
  | ResetSource.error => -1
  | ResetSource.other value => value

def ShutdownSource.code : ShutdownSource -> Int
  | ShutdownSource.notApplicable => 0
  | ShutdownSource.powerButtonOverride => 1
  | ShutdownSource.other value => value

/-- The volatile variables under `osloader_guid`, a byte each. -/
abbrev OsnibVariables := String -> Option Nat

structure IntVar where
  getValue : BootState -> Int × BootState
  name : String

/-- `int_vars`; the reset type is read from the RSCI table and used for nothing else. -/
def intVars (cfg : Config) (inputs : BootInputs) (resetType : Int) : List IntVar :=
  [{ getValue := fun s => (inputs.wakeSource.code, s), name := "WakeSource" },
    { getValue := fun s =>
        let (source, s) := getResetSource cfg inputs s
        (source.code, s)
      name := "ResetSource" },
    { getValue := fun s => (resetType, s), name := "ResetType" },
    { getValue := fun s => (inputs.shutdownSource.code, s), name := "ShutdownSource" }]

/-- `uefi_set_simple_var` with a size of one and no persistence. -/
def uefiSetSimpleVar (status : EfiStatus) (name : String) (value : Int)
    (osnib : OsnibVariables) : OsnibVariables :=
  if efiError status then osnib
  else fun found => if found = name then some (value % 256).toNat else osnib found

def populateLoop (answer : Nat -> EfiStatus) :
    List IntVar -> Nat -> OsnibVariables -> BootState -> OsnibVariables × BootState
  | [], _, osnib, s => (osnib, s)
  | var :: rest, i, osnib, s =>
      let (value, s) := var.getValue s
      populateLoop answer rest (i + 1) (uefiSetSimpleVar (answer i) var.name value osnib) s

def uefiPopulateOsnibVariables (cfg : Config) (inputs : BootInputs) (resetType : Int)
    (answer : Nat -> EfiStatus) (osnib : OsnibVariables) (s : BootState) :
    OsnibVariables × BootState :=
  populateLoop answer (intVars cfg inputs resetType) 0 osnib s

/-- The state `hook_bootlogic_end` is called in. -/
def handoverState (cfg : Config) (inputs : BootInputs) (vars : EfiVariables) : BootState :=
  (targetFromInputs cfg inputs (selectionState cfg inputs vars)).2

/-- The variables the system finds: none of them survives the reset before the boot. -/
def osnibAtHandover (cfg : Config) (inputs : BootInputs) (resetType : Int)
    (answer : Nat -> EfiStatus) (vars : EfiVariables) : OsnibVariables :=
  (uefiPopulateOsnibVariables cfg inputs resetType answer (fun _ => none)
    (handoverState cfg inputs vars)).1

theorem startBootLogic_of_populated {cfg : Config} {inputs : BootInputs} {vars : EfiVariables}
    {target : Target} (resetType : Int) (answer : Nat -> EfiStatus) (osnib : OsnibVariables)
    (hselect : (targetFromInputs cfg inputs (selectionState cfg inputs vars)).1 = some target)
    (htarget : target ≠ Target.error) :
    startBootLogic cfg inputs vars =
      launchOrFallback cfg inputs (if target = Target.unknown then Target.boot else target)
        (uefiPopulateOsnibVariables cfg inputs resetType answer osnib
          (handoverState cfg inputs vars)).2 :=
  startBootLogic_of_selected (Prod.ext hselect rfl) htarget

theorem uefiSetSimpleVar_apply (status : EfiStatus) (name : String) (value : Int)
    (osnib : OsnibVariables) (found : String) :
    uefiSetSimpleVar status name value osnib found =
      if efiError status then osnib found
      else if found = name then some (value % 256).toNat
      else osnib found := by
  unfold uefiSetSimpleVar
  split <;> rfl

section Populated

variable (cfg : Config) (inputs : BootInputs) (resetType : Int) (answer : Nat -> EfiStatus)
variable (osnib : OsnibVariables) (s : BootState)

theorem populate_wakeSource :
    (uefiPopulateOsnibVariables cfg inputs resetType answer osnib s).1 "WakeSource" =
      if efiError (answer 0) then osnib "WakeSource"
      else some (inputs.wakeSource.code % 256).toNat := by
  simp [uefiPopulateOsnibVariables, intVars, populateLoop, uefiSetSimpleVar_apply]

theorem populate_resetSource :
    (uefiPopulateOsnibVariables cfg inputs resetType answer osnib s).1 "ResetSource" =
      if efiError (answer 1) then osnib "ResetSource"
      else some ((getResetSource cfg inputs s).1.code % 256).toNat := by
  simp [uefiPopulateOsnibVariables, intVars, populateLoop, uefiSetSimpleVar_apply]

end Populated

/-!
# The source across the forced reset
-/

/-- The reset source of the boot, in the static and in the RSCI table, stays. -/
structure KeepsSource (s t : BootState) : Prop where
  static : t.resetSource = s.resetSource
  rsci : t.rsciResetSource = s.rsciResetSource

theorem KeepsSource.trans {s t u : BootState} (hst : KeepsSource s t) (htu : KeepsSource t u) :
    KeepsSource s u :=
  ⟨htu.static.trans hst.static, htu.rsci.trans hst.rsci⟩

theorem keepsSource_deleteVariable (inputs : BootInputs) (isPresent : EfiVariables -> Bool)
    (erase : EfiVariables -> EfiVariables) (s : BootState) :
    KeepsSource s (deleteVariable inputs isPresent erase s).2 := by
  unfold deleteVariable
  split <;> exact ⟨rfl, rfl⟩

theorem keepsSource_setEntryLast (cfg : Config) (inputs : BootInputs) (target : Target)
    (s : BootState) : KeepsSource s (setEntryLast cfg inputs target s).2 := by
  unfold setEntryLast
  split
  · exact ⟨rfl, rfl⟩
  · have hdelete := keepsSource_deleteVariable inputs
      (fun vars => vars.loaderEntryOneShot.isSome)
      (fun vars => { vars with loaderEntryOneShot := none }) s
    exact hdelete.trans ⟨rfl, rfl⟩

theorem bootRule_keepsSource (cfg : Config) (inputs : BootInputs) :
    BootRule cfg inputs (fun _ => ()) KeepsSource where
  sees := ⟨fun _ _ => rfl, fun _ _ => rfl, fun _ _ => rfl, fun _ _ => rfl, fun _ _ => rfl⟩
  refl := fun _ => ⟨rfl, rfl⟩
  trans := KeepsSource.trans
  get := fun _ _ => ⟨rfl, rfl⟩
  set := fun _ _ => ⟨rfl, rfl⟩
  resave := fun s t _ => keepsSource_setEntryLast cfg inputs (getEntryLast cfg inputs s).1 t
  coldReset := fun _ _ => ⟨rfl, rfl⟩

theorem keepsSource_coldResetPending (cfg : Config) (inputs : BootInputs) (s : BootState) :
    KeepsSource s (coldResetPending cfg inputs s).2 := by
  unfold coldResetPending
  split <;> exact ⟨rfl, rfl⟩

theorem getResetSource_static (cfg : Config) (inputs : BootInputs) (s : BootState) :
    (getResetSource cfg inputs s).1 = (getResetSource cfg inputs s).2.resetSource := by
  unfold getResetSource
  split <;> rfl

theorem getResetSource_of_static {cfg : Config} {inputs : BootInputs} {s : BootState}
    (h : s.resetSource ≠ ResetSource.error) :
    getResetSource cfg inputs s = (s.resetSource, s) := by
  simp [getResetSource, h]

/-- A boot that finds the flag works with the saved source and puts it into the table. -/
theorem classifyReset_source {cfg : Config} {inputs : BootInputs} {source : ResetSource}
    (s : BootState) (h : inputs.AccessesSucceed) (hcold : cfg.doColdResetAfterWd = true)
    (hsource : isWatchdogReset source = true) (hflag : s.vars.wdColdReset = some 1)
    (hsaved : s.vars.savedResetSource = some source)
    (hstatic : s.resetSource = ResetSource.error) :
    (classifyReset cfg inputs s).2.resetSource = source ∧
      (classifyReset cfg inputs s).2.rsciResetSource = source := by
  have herror : source ≠ ResetSource.error := by
    intro h
    rw [h] at hsource
    cases hsource
  have hna : source ≠ ResetSource.notApplicable := by
    intro h
    rw [h] at hsource
    cases hsource
  have hget := getResetSource_of_flag s h hcold hflag hsaved hstatic
  have hquiet : Quiet coldResetFlag s (getResetSource cfg inputs s).2 :=
    quiet_getResetSource (fun _ => rfl) cfg inputs s
  have hheld := (getResetSource_static cfg inputs s).symm.trans hget
  unfold classifyReset
  dsimp only
  rw [hget]
  generalize ht : (getResetSource cfg inputs s).2.emit (BootEvent.classified source) = t
  have htflag : t.vars.wdColdReset = some 1 := by
    rw [← ht]
    exact hquiet.wdColdReset.trans hflag
  have htstatic : t.resetSource = source := by
    rw [← ht]
    exact hheld
  have hpending := (coldResetPending_iff t h hcold).mpr htflag
  have hkept := keepsSource_coldResetPending cfg inputs t
  rw [if_neg herror, if_pos hna, hpending, if_pos rfl]
  have hreset := (bootRule_keepsSource cfg inputs).targetFromReset source
    { (coldResetPending cfg inputs t).2 with rsciResetSource := source }
  exact ⟨hreset.static.trans (hkept.static.trans htstatic), hreset.rsci⟩

theorem classifyReset_of_none {cfg : Config} {inputs : BootInputs} {s : BootState}
    (h : inputs.AccessesSucceed) (hcold : cfg.doColdResetAfterWd = true)
    (hnone : (classifyReset cfg inputs s).1 = none) :
    exists source, ColdResetForced source (classifyReset cfg inputs s).2.vars
      (classifyReset cfg inputs s).2.events := by
  by_cases hflag : s.vars.wdColdReset = some 1
  · exfalso
    have hsees : forall vars : EfiVariables,
        coldResetFlag { vars with savedResetSource := none } = coldResetFlag vars :=
      fun _ => rfl
    rcases classifyReset_cases hsees cfg inputs s with ⟨t, _hevents, htflag, heq⟩
    generalize (getResetSource cfg inputs s).1 = source at heq
    have hreturns : (bootWatchdog cfg inputs source t).1 ≠ none := by
      cases hsource : isWatchdogReset source with
      | false =>
          rw [bootWatchdog_of_not_watchdog t hsource]
          simp
      | true => exact (bootWatchdog_of_flag t h hcold hsource (htflag.trans hflag)).1
    rw [heq] at hnone
    split at hnone
    · cases hnone
    · split at hnone
      · exact (targetFromReset_of_returns t hreturns).2 hnone
      · cases hnone
  · rcases classifyReset_of_no_flag s h hcold hflag with hforced | hno
    · exact hforced.2
    · exact absurd hnone hno.1

theorem startBootLogic_of_coldReset {cfg : Config} {inputs : BootInputs} {vars : EfiVariables}
    (h : inputs.AccessesSucceed) (hcold : cfg.doColdResetAfterWd = true)
    (hend : (startBootLogic cfg inputs vars).1 = BootEnd.coldReset) :
    exists source, ColdResetForced source (startBootLogic cfg inputs vars).2.vars
      (startBootLogic cfg inputs vars).2.events := by
  cases hselect : targetFromInputs cfg inputs (selectionState cfg inputs vars) with
  | mk chosen s =>
      cases chosen with
      | some target =>
          rcases startBootLogic_of_target hselect with ⟨_, _, _, _, hreturns⟩
          exact absurd hend hreturns
      | none =>
          rw [startBootLogic_of_reset hselect]
          unfold targetFromInputs at hselect
          split at hselect
          · cases hselect
          · split at hselect
            · cases hselect
            · split at hselect
              · have hoff := targetFromOff_quiet inputs inputs.wakeSource
                  (selectionState cfg inputs vars)
                rw [hselect] at hoff
                exact absurd rfl hoff.2
              · have hreset := classifyReset_of_none (s := selectionState cfg inputs vars) h hcold
                rw [hselect] at hreset
                exact hreset rfl

/-- What the boot passes on is the saved source, not what the table held before. -/
structure PassesSource (cfg : Config) (inputs : BootInputs) (source : ResetSource)
    (vars : EfiVariables) : Prop where
  table : (handoverState cfg inputs vars).rsciResetSource = source
  told : forall resetType answer,
    osnibAtHandover cfg inputs resetType answer vars "ResetSource" =
        (if efiError (answer 1) then none else some (source.code % 256).toNat) ∧
      osnibAtHandover cfg inputs resetType answer vars "WakeSource" =
        if efiError (answer 0) then none else some 0

theorem passesSource_of_flag {cfg : Config} {inputs : BootInputs} {source : ResetSource}
    {vars : EfiVariables} (h : inputs.AccessesSucceed) (hcold : cfg.doColdResetAfterWd = true)
    (hbattery : inputs.isBatteryOk = true) (hwake : inputs.wakeSource = WakeSource.notApplicable)
    (hsource : isWatchdogReset source = true) (hflag : vars.wdColdReset = some 1)
    (hsaved : vars.savedResetSource = some source) : PassesSource cfg inputs source vars := by
  have hstart : Quiet coldResetFlag (BootState.start inputs vars)
      (selectionState cfg inputs vars) :=
    quiet_selectionState (fun _ _ => rfl) cfg inputs vars
  have hkept : Quiet EfiVariables.savedResetSource (BootState.start inputs vars)
      (selectionState cfg inputs vars) :=
    quiet_selectionState (fun _ _ => rfl) cfg inputs vars
  have hclass := classifyReset_source (selectionState cfg inputs vars) h hcold hsource
    (hstart.wdColdReset.trans hflag) (hkept.view.trans hsaved)
    (selectionState_resetSource cfg inputs vars).1
  have hselect : handoverState cfg inputs vars =
      (classifyReset cfg inputs (selectionState cfg inputs vars)).2 := by
    simp [handoverState, targetFromInputs, hbattery, hwake]
  rw [← hselect] at hclass
  refine ⟨hclass.2, ?_⟩
  intro resetType answer
  unfold osnibAtHandover
  generalize handoverState cfg inputs vars = s at hclass
  have herror : s.resetSource ≠ ResetSource.error := by
    intro h
    rw [← hclass.1, h] at hsource
    cases hsource
  rw [populate_resetSource, populate_wakeSource, getResetSource_of_static herror, hclass.1, hwake]
  exact ⟨rfl, rfl⟩

/--
After a boot that ended in a forced cold reset, the next one passes on the
watchdog that boot saw as the source of the reset, in the RSCI table and in the
`ResetSource` the system finds unless its write failed, and no wake source.
-/
theorem coldReset_tellsSource {cfg : Config} {first second : BootInputs} {vars : EfiVariables}
    (hcold : cfg.doColdResetAfterWd = true) (hfirst : first.AccessesSucceed)
    (hsecond : second.AccessesSucceed)
    (hend : (runBoot cfg first vars).bootEnd = BootEnd.coldReset)
    (hbattery : second.isBatteryOk = true)
    (hwake : second.wakeSource = WakeSource.notApplicable) :
    exists source, isWatchdogReset source = true ∧
      BootEvent.coldReset source ∈ (runBoot cfg first vars).events ∧
      PassesSource cfg second source
        (runBoot cfg second (runBoot cfg first vars).finalVars).startVars := by
  have hforced : exists source, ColdResetForced source (runBoot cfg first vars).finalVars
      (runBoot cfg first vars).events :=
    startBootLogic_of_coldReset hfirst hcold hend
  rcases hforced with ⟨source, hforced⟩
  have hflag := osWrites_wdColdReset second (runBoot cfg first vars).finalVars
  have hsaved := osWrites_savedResetSource second (runBoot cfg first vars).finalVars
  exact ⟨source, hforced.watchdog, hforced.event,
    passesSource_of_flag hsecond hcold hbattery hwake hforced.watchdog
      (hflag.trans hforced.flag) (hsaved.trans hforced.saved)⟩

/-- The platform watchdog fires, and the table then speaks of a reset by the system. -/
theorem coldReset_tellsSource_platformWatchdog :
    exists source, isWatchdogReset source = true ∧
      BootEvent.coldReset source ∈ (runBoot ⟨true, false⟩
        (plainReset ResetSource.platformWatchdog) (lastEntryOnly "main")).events ∧
      PassesSource ⟨true, false⟩ (plainReset ResetSource.osInitiated) source
        (runBoot ⟨true, false⟩ (plainReset ResetSource.osInitiated)
          (runBoot ⟨true, false⟩ (plainReset ResetSource.platformWatchdog)
            (lastEntryOnly "main")).finalVars).startVars :=
  coldReset_tellsSource rfl (plainReset_accessesSucceed _) (plainReset_accessesSucceed _)
    (by decide) rfl rfl

end BootLogic
end BootableUefi
