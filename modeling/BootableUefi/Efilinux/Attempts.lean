import BootableUefi.BootImage.JumpMemory
import BootableUefi.BootLogic.ColdReset
import BootableUefi.Efilinux.BlockOwnership

/-!
# The attempts of a boot

Each turn of `launch_or_fallback` appends the mode of its target to the same saved
line.  A kernel that is started finds the header's line, the saved one and the
mode of the target it was started for, and no other target is tried after it.
-/

namespace BootableUefi

namespace Efilinux

open Firmware Foundation BootImage
open BootLogic (Target getTargetEntry emFallbackTarget fallbackTarget attemptsAfter
  attemptsAfter_emFallbackTarget_le attemptsAfter_fallbackTarget_lt)

/-!
# One attempt
-/

/-- A turn of the loop, and the target that is loaded in it. -/
structure Attempt where
  turn : Nat
  target : Target
  deriving DecidableEq, Repr

namespace Attempt

variable (attempt : Attempt) (env : BootLogicEnv) (saved : List UInt8)

def line : Option (List UInt8) :=
  appendStrings (env.target attempt.turn).appendPool (some saved) (entryCmdline attempt.target)

def load : Load :=
  loadTarget (env.target attempt.turn) env.cfg.enableFactoryModes attempt.turn attempt.target
    (some saved) []

/-- The target has a partition, which is started. -/
def Starts : Prop :=
  (getTargetEntry env.cfg.enableFactoryModes attempt.target).isSome = true ∧
    attempt.target ≠ Target.dnx

def partition : PartitionEnv :=
  (env.target attempt.turn).partition

def start : LoadEnd × LoadState :=
  startPartition (attempt.partition env) (attempt.line env saved) x86Hooks
    (env.target attempt.turn).used

theorem load_of_starts {attempt : Attempt} {env : BootLogicEnv} (h : attempt.Starts env) :
    attempt.load env saved =
      ofStart attempt.turn (Block.inStart attempt.turn PoolBlock.append)
        (attempt.start env saved) := by
  rcases h with ⟨hentry, hdnx⟩
  rcases Option.isSome_iff_exists.mp hentry with ⟨entry, hentry⟩
  unfold load loadTarget
  rw [hentry]
  dsimp only
  rw [if_neg hdnx]
  rfl

theorem mode_of_starts {attempt : Attempt} {env : BootLogicEnv} (h : attempt.Starts env) :
    exists mode, entryCmdline attempt.target = some mode ∧ 0 ∉ mode := by
  rcases h with ⟨hentry, hdnx⟩
  revert hentry hdnx
  cases attempt.target <;> intro hentry hdnx
  all_goals first
    | exact ⟨_, rfl, by decide⟩
    | exact absurd rfl hdnx
    | (cases hfactory : env.cfg.enableFactoryModes <;> rw [hfactory] at hentry <;> cases hentry)

end Attempt

/-!
# The loop
-/

def attempts (env : BootLogicEnv) (saved : List UInt8) : Nat -> Nat -> Target -> List Attempt
  | 0, _, _ => []
  | bound + 1, k, target =>
      let target := emFallbackTarget (env.inputs.batteryLevel k)
        (env.inputs.isChargerPresent k) target
      if target = Target.coldOff then []
      else if (Attempt.load ⟨k, target⟩ env saved).status.isNone then [⟨k, target⟩]
      else if fallbackTarget target ≠ Target.unknown then
        ⟨k, target⟩ :: attempts env saved bound (k + 1) (fallbackTarget target)
      else [⟨k, target⟩]

theorem launchLoop_attempts (env : BootLogicEnv) (saved : List UInt8) (bound k : Nat)
    (target : Target) :
    (launchLoop env saved bound k target).events =
      (attempts env saved bound k target).flatMap fun attempt =>
        (attempt.load env saved).events := by
  induction bound generalizing k target with
  | zero => rfl
  | succ bound ih =>
      unfold launchLoop attempts
      dsimp only
      generalize emFallbackTarget (env.inputs.batteryLevel k) (env.inputs.isChargerPresent k)
        target = chosen
      have hload : loadTarget (env.target k) env.cfg.enableFactoryModes k chosen (some saved) [] =
          Attempt.load ⟨k, chosen⟩ env saved := rfl
      rw [hload]
      split_ifs with hoff hnone hnext
      · rfl
      · simp
      · rw [List.flatMap_cons, ← ih]
        rfl
      · simp

/-- The attempts come one after the other, and all but the last have returned. -/
structure InTurn (env : BootLogicEnv) (saved : List UInt8) (tried : List Attempt) : Prop where
  ordered : tried.Pairwise fun first next =>
    first.turn < next.turn ∧ attemptsAfter next.target < attemptsAfter first.target
  returned : forall attempt, attempt ∈ tried.dropLast ->
    (attempt.load env saved).status.isSome = true

theorem InTurn.single {env : BootLogicEnv} {saved : List UInt8} (attempt : Attempt) :
    InTurn env saved [attempt] where
  ordered := List.pairwise_singleton _ _
  returned := by simp

theorem InTurn.cons {env : BootLogicEnv} {saved : List UInt8} {first : Attempt}
    {tried : List Attempt} (h : InTurn env saved tried)
    (hreturned : (first.load env saved).status.isSome = true)
    (hlater : forall next, next ∈ tried -> first.turn < next.turn ∧
      attemptsAfter next.target < attemptsAfter first.target) :
    InTurn env saved (first :: tried) where
  ordered := List.pairwise_cons.mpr ⟨hlater, h.ordered⟩
  returned := by
    intro attempt hmem
    cases tried with
    | nil => cases hmem
    | cons second rest =>
        rw [List.dropLast_cons_cons] at hmem
        rcases List.mem_cons.mp hmem with rfl | hrest
        · exact hreturned
        · exact h.returned attempt hrest

theorem mem_attempts {env : BootLogicEnv} {saved : List UInt8} {bound k : Nat} {target : Target}
    {attempt : Attempt} (h : attempt ∈ attempts env saved bound k target) :
    k ≤ attempt.turn ∧ attemptsAfter attempt.target ≤ attemptsAfter target := by
  induction bound generalizing k target with
  | zero => cases h
  | succ bound ih =>
      unfold attempts at h
      dsimp only at h
      have hem := attemptsAfter_emFallbackTarget_le (env.inputs.batteryLevel k)
        (env.inputs.isChargerPresent k) target
      generalize emFallbackTarget (env.inputs.batteryLevel k) (env.inputs.isChargerPresent k)
        target = chosen at h hem
      split_ifs at h with hoff hnone hnext
      · cases h
      · cases List.mem_singleton.mp h
        exact ⟨Nat.le_refl k, hem⟩
      · rcases List.mem_cons.mp h with rfl | hrest
        · exact ⟨Nat.le_refl k, hem⟩
        · rcases ih hrest with ⟨hturn, hafter⟩
          have hlt := attemptsAfter_fallbackTarget_lt hnext
          exact ⟨Nat.le_of_succ_le hturn, (hafter.trans hlt.le).trans hem⟩
      · cases List.mem_singleton.mp h
        exact ⟨Nat.le_refl k, hem⟩

theorem attempts_inTurn (env : BootLogicEnv) (saved : List UInt8) (bound k : Nat)
    (target : Target) : InTurn env saved (attempts env saved bound k target) := by
  induction bound generalizing k target with
  | zero => exact ⟨List.Pairwise.nil, by simp [attempts]⟩
  | succ bound ih =>
      unfold attempts
      dsimp only
      generalize emFallbackTarget (env.inputs.batteryLevel k) (env.inputs.isChargerPresent k)
        target = chosen
      split_ifs with hoff hnone hnext
      · exact ⟨List.Pairwise.nil, by simp⟩
      · exact InTurn.single _
      · refine (ih (k + 1) (fallbackTarget chosen)).cons ?_ ?_
        · rwa [Option.isNone_iff_eq_none, ← ne_eq, Option.ne_none_iff_isSome] at hnone
        · intro next hmem
          rcases mem_attempts hmem with ⟨hturn, hafter⟩
          exact ⟨hturn, hafter.trans_lt (attemptsAfter_fallbackTarget_lt hnext)⟩
      · exact InTurn.single _

/-!
# The saved line
-/

/-- What `launch_or_fallback` copies to its stack. -/
def savedLine (env : BootLogicEnv) (cmdline : Option (List UInt8)) : List UInt8 :=
  (updateCmdline env (cmdline.map fun text => (Block.commandLine, text))).1.text.getD []

/-- What is done to the lines before the first target is tried. -/
def lineSteps (env : BootLogicEnv) (cmdline : Option (List UInt8)) : List MainEvent :=
  let updated := updateCmdline env (cmdline.map fun text => (Block.commandLine, text))
  updated.2 ++ (updated.1.uses ++ updated.1.frees)

theorem startBootLogic_steps {env : BootLogicEnv} {cmdline : Option (List UInt8)}
    {target : Target} (h : selectedTarget env = some target) :
    (startBootLogic env cmdline).events =
      lineSteps env cmdline ++ (launchLoop env (savedLine env cmdline) 4 0 target).events := by
  unfold selectedTarget at h
  unfold startBootLogic
  generalize (BootLogic.targetFromInputs env.cfg env.inputs
    (BootLogic.selectionState env.cfg env.inputs env.vars)).1 = selected at h ⊢
  cases selected with
  | none => cases h
  | some found =>
      cases found with
      | error => cases h
      | _ =>
          cases h
          simp [launchOrFallback, Load.prepend, lineSteps, savedLine]

def NoNul (text : Option (List UInt8)) : Prop :=
  forall found, text = some found -> 0 ∉ found

theorem NoNul.appendStrings {first second : Option (List UInt8)} (hfirst : NoNul first)
    (hsecond : NoNul second) (pool : Bool) :
    NoNul (appendStrings pool first second) := by
  intro found hfound
  unfold Efilinux.appendStrings at hfound
  cases first with
  | none =>
      cases second with
      | none => cases hfound
      | some text =>
          cases pool with
          | false => cases hfound
          | true => exact hsecond found hfound
  | some text =>
      cases second with
      | none =>
          cases pool with
          | false => cases hfound
          | true => exact hfirst found hfound
      | some other =>
          cases pool with
          | false => cases hfound
          | true =>
              cases hfound
              have htext := hfirst text rfl
              have hother := hsecond other rfl
              simp [htext, hother]

theorem savedLine_noNul {env : BootLogicEnv} {cmdline : Option (List UInt8)}
    (hcmdline : NoNul cmdline) (hextra : NoNul env.extraCmdline) :
    0 ∉ savedLine env cmdline := by
  let line : Line := cmdline.map fun text => (Block.commandLine, text)
  have hline : NoNul line.text := by
    have htext : line.text = cmdline := by
      cases cmdline <;> rfl
    rwa [htext]
  have hchecked : NoNul (checkVbattfreqlmt env line).1.text := by
    unfold checkVbattfreqlmt
    split
    · have hbattery : NoNul (some (ascii "battlow ")) := by
        rintro found ⟨⟩
        decide
      have happended := hbattery.appendStrings hline env.batteryPool
      simpa [Line.text, Function.comp_def] using happended
    · exact hline
  have hupdated : NoNul (updateCmdline env line).1.text := by
    unfold updateCmdline
    dsimp only
    split
    · have htext : Line.text (env.extraCmdline.map fun text => (Block.extraLine, text)) =
          env.extraCmdline := by
        cases env.extraCmdline <;> rfl
      have happended := hextra.appendStrings hchecked env.extraPool
      unfold getExtraCmdline
      dsimp only
      rw [htext]
      simpa [Line.text, Function.comp_def] using happended
    · exact hchecked
  show 0 ∉ (updateCmdline env line).1.text.getD []
  cases htext : (updateCmdline env line).1.text with
  | none => simp
  | some text => exact hupdated text htext

/-!
# What the kernel is told
-/

/-- `boot_params` leads to this text, a C string. -/
structure LeadsToLine (m : Mem) (bootAddr : Nat) (text : List UInt8) : Prop where
  size : le32 m (bootAddr + SetupHeader.cmdlineSize) = text.length + 1
  bytes : forall i, i ≤ text.length ->
    m (le32 m (bootAddr + SetupHeader.cmdLinePtr) + i) = memOf text i

/-- The header's line, the saved one and the mode of the target. -/
def Attempt.TellsMode (attempt : Attempt) (env : BootLogicEnv) (saved : List UInt8)
    (kernelStart bootAddr : Nat) (t : LoadState) : Prop :=
  exists (pool : Mem) (h : Handoff) (mode : List UInt8),
    (attempt.partition env).imagePool = some pool ∧
    entryCmdline attempt.target = some mode ∧
    h.kernelStart = kernelStart ∧ h.bootAddr = bootAddr ∧
    let load := (attempt.partition env).load
    let image := (attempt.partition env).loadedImage pool
    h.Taken load image (env.target attempt.turn).used t ∧
    ((env.target attempt.turn).appendPool = true -> EndsInHeader image -> h.lineBase ≠ 0 ->
      kernelCopySize image (aospHeader image).pageSize ≤
        4096 * sizeToPages (le32 image ((aospHeader image).pageSize + SetupHeader.initSize)) ->
      kernelStart < 2 ^ load.arch.uintnBits -> h.MapFits -> forall imageBase,
      HeaderInUse imageBase image (env.target attempt.turn).used -> forall info before,
        LeadsToLine (h.memory imageBase load.gop image t.log info before) bootAddr
          (headerLine image ++ 0x20 :: (saved ++ 0x20 :: mode)))

theorem Attempt.tellsMode {attempt : Attempt} {env : BootLogicEnv} {saved : List UInt8}
    {kernelStart bootAddr : Nat} {t : LoadState} (hsaved : 0 ∉ saved)
    (hstarts : attempt.Starts env)
    (hrun : attempt.start env saved = (LoadEnd.jumped kernelStart bootAddr, t)) :
    attempt.TellsMode env saved kernelStart bootAddr t := by
  rcases Attempt.mode_of_starts hstarts with ⟨mode, hmode, hclean⟩
  rcases startBuffer_of_startPartition hrun with ⟨pool, hpool, hbuffer⟩
  rcases startBuffer_taken (by rfl) (by rfl) hbuffer with ⟨h, rfl, rfl, hheld⟩
  have htaken : h.Taken (attempt.partition env).load ((attempt.partition env).loadedImage pool)
      (env.target attempt.turn).used t := hheld
  refine ⟨pool, h, mode, hpool, hmode, rfl, rfl, htaken, ?_⟩
  intro hroom hends hbase hsize hreach hfits imageBase hinUse info before
  have hline : attempt.line env saved = some (saved ++ 0x20 :: mode) := by
    unfold Attempt.line appendStrings
    rw [hmode, hroom]
    rfl
  have happend : forall extra, attempt.line env saved = some extra -> 0 ∉ extra := by
    intro extra hextra
    rw [hline] at hextra
    cases hextra
    simp [hsaved, hclean]
  have hboots := htaken.boots hsize hreach hfits hinUse info before
  have htext := startBuffer_line
    (s := (attempt.partition env).loadedState pool (env.target attempt.turn).used) rfl happend
    hends hbuffer (htaken.line hbase).1
  rw [hline] at htext
  have hwhole : h.line =
      headerLine ((attempt.partition env).loadedImage pool) ++ 0x20 :: (saved ++ 0x20 :: mode) :=
    htext
  rw [← hwhole]
  constructor
  · exact hboots.lineSize hbase
  · intro i hi
    rw [hboots.linePtr hbase]
    exact hboots.line hbase i hi

theorem InTurn.last_of_gone {env : BootLogicEnv} {saved : List UInt8} {tried : List Attempt}
    (h : InTurn env saved tried) {attempt : Attempt} (hmem : attempt ∈ tried)
    (hgone : (attempt.load env saved).status = none) : tried.getLast? = some attempt := by
  have hne := List.ne_nil_of_mem hmem
  rw [← List.dropLast_append_getLast hne] at hmem
  rcases List.mem_append.mp hmem with hearlier | hlast
  · have hreturned := h.returned attempt hearlier
    rw [hgone] at hreturned
    cases hreturned
  · rw [List.getLast?_eq_some_getLast hne, List.mem_singleton.mp hlast]

/--
The boot logic tries targets in turn, none of them twice, and after a target
whose kernel is started there is none.  That kernel is told the mode of its own
target, behind the line of the header and the line all the attempts share.
-/
theorem startBootLogic_tells_mode {env : BootLogicEnv} {cmdline : Option (List UInt8)}
    {target : Target} (hselected : selectedTarget env = some target)
    (hcmdline : NoNul cmdline) (hextra : NoNul env.extraCmdline) :
    let saved := savedLine env cmdline
    let tried := attempts env saved 4 0 target
    (startBootLogic env cmdline).events =
        lineSteps env cmdline ++ tried.flatMap (fun attempt => (attempt.load env saved).events) ∧
      InTurn env saved tried ∧
      forall attempt, attempt ∈ tried -> attempt.Starts env -> forall kernelStart bootAddr t,
        attempt.start env saved = (LoadEnd.jumped kernelStart bootAddr, t) ->
          tried.getLast? = some attempt ∧ attempt.TellsMode env saved kernelStart bootAddr t := by
  intro saved tried
  have hturns : InTurn env saved tried := attempts_inTurn env saved 4 0 target
  refine ⟨?_, hturns, ?_⟩
  · rw [startBootLogic_steps hselected, launchLoop_attempts]
  · intro attempt hmem hstarts kernelStart bootAddr t hrun
    refine ⟨hturns.last_of_gone hmem ?_, ?_⟩
    · rw [Attempt.load_of_starts _ hstarts]
      unfold ofStart
      rw [hrun]
      rfl
    · exact Attempt.tellsMode (savedLine_noNul hcmdline hextra) hstarts hrun

/-- The boot partition is corrupt; the image for the recovery target is started. -/
def secondTry : BootLogicEnv where
  cfg := ⟨true, false⟩
  inputs := BootLogic.plainReset BootLogic.ResetSource.fwUpdate
  vars := BootLogic.lastEntryOnly "main"
  runtimeSettings := true
  belowVbattfreqlmt := true
  batteryPool := true
  extraCmdline := some (ascii "quiet")
  extraPool := true
  target := fun k =>
    { appendPool := true
      partition :=
        if k = 0 then corruptPartition
        else
          { smallPartition (smallImage 0x1000 0x1000 0) with
            load := { smallEnv with grownCommandLinePool := some [] } }
      used := {0x10, 0x11}
      rescueMode := none }

def secondLine : List UInt8 :=
  savedLine secondTry none

def secondStart : LoadEnd × LoadState :=
  Attempt.start ⟨1, Target.recovery⟩ secondTry secondLine

theorem secondStart_ends :
    secondStart.1 = LoadEnd.jumped 0x200000 0x3000000 ∧
      secondStart.2.calls.head? = some (PageCall.allocate { base := 0x8000, count := 1 }) := by
  decide +kernel

theorem secondTry_leadsToLine
    (h : Attempt.TellsMode ⟨1, Target.recovery⟩ secondTry secondLine 0x200000 0x3000000
      secondStart.2) :
    exists m, LeadsToLine m 0x3000000
      (0x20 :: (secondLine ++ 0x20 :: ascii "androidboot.mode=fota")) := by
  rcases h with ⟨pool, h, mode, hpool, hmode, hstart, haddr, htaken, htells⟩
  cases hpool
  cases hmode
  have hbase : h.lineBase = 0x8000 := by
    have hfirst := secondStart_ends.2
    rw [htaken.calls] at hfirst
    exact congrArg PageRun.base (PageCall.allocate.inj (Option.some.inj hfirst))
  have hinUse : HeaderInUse 0x10000
      ((Attempt.partition ⟨1, Target.recovery⟩ secondTry).loadedImage fun _ => 0)
      (secondTry.target 1).used :=
    headerInUse_of_page (by decide +kernel) (by decide +kernel)
  have hheader : headerLine
      ((Attempt.partition ⟨1, Target.recovery⟩ secondTry).loadedImage fun _ => 0) = [] := by
    decide +kernel
  have hline := htells rfl (by decide +kernel) (by rw [hbase]; decide) (by decide +kernel)
    (by decide) (htaken.mapFits_of_small rfl) 0x10000 hinUse (fun _ => 0) fun _ => 0
  rw [hheader] at hline
  exact ⟨_, hline⟩

theorem startBootLogic_tells_mode_of_secondTry :
    attempts secondTry secondLine 4 0 Target.boot = [⟨0, Target.boot⟩, ⟨1, Target.recovery⟩] ∧
      exists m, LeadsToLine m 0x3000000
        (0x20 :: (secondLine ++ 0x20 :: ascii "androidboot.mode=fota")) := by
  have htried : attempts secondTry secondLine 4 0 Target.boot =
      [⟨0, Target.boot⟩, ⟨1, Target.recovery⟩] := by
    decide +kernel
  have hrun : secondStart = (LoadEnd.jumped 0x200000 0x3000000, secondStart.2) := by
    rw [← secondStart_ends.1]
  have hselected : selectedTarget secondTry = some Target.boot := by decide +kernel
  have hnone : NoNul none := by
    rintro _ ⟨⟩
  have htells := startBootLogic_tells_mode hselected hnone (by rintro _ ⟨⟩; decide)
  refine ⟨htried, secondTry_leadsToLine
    (htells.2.2 ⟨1, Target.recovery⟩ ?_ ⟨rfl, by decide⟩ _ _ _ hrun).2⟩
  show _ ∈ attempts secondTry secondLine 4 0 Target.boot
  rw [htried]
  simp

end Efilinux
end BootableUefi
