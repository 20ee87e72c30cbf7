import Mathlib.Data.Nat.Bitwise
import BootableUefi.Efilinux.Attempts
import BootableUefi.Foundation.Layout

/-!
# Rescue mode

The last fallback of a boot is no image.  The loader asks the firmware for its
rescue mode, by one bit of the variable `OsIndications`, and resets.  A device none
of whose images can be started gets there, and the other bits are kept.
-/

namespace BootableUefi
namespace Efilinux

open Firmware Foundation
open BootLogic (Target BattLevel getTargetEntry emFallbackTarget fallbackTarget attemptsAfter)

/-!
# One request
-/

def valueOf (bytes : List UInt8) : Nat :=
  le64 (memOf bytes) 0

def osIndicationRescueMode : Nat :=
  1 <<< 5

/-- What the firmware answers. -/
structure RescueEnv where
  supported : Option (List UInt8)
  /-- `OsIndications` can be read, if it is there. -/
  readable : Bool
  setVariable : EfiStatus
  /-- `ResetSystem` does not come back. -/
  resets : Bool

/-- What `LibGetVariableAndSize` gives of a variable. -/
def RescueEnv.read (env : RescueEnv) (stored : Option (List UInt8)) : Option (List UInt8) :=
  if env.readable then stored else none

structure Rescue where
  status : Option EfiStatus
  osIndications : Option (List UInt8)
  warmReset : Bool
  deriving DecidableEq, Repr

def Rescue.refused (status : EfiStatus) (stored : Option (List UInt8)) : Rescue where
  status := some status
  osIndications := stored
  warmReset := false

/-- The bit, and what has been read of `OsIndications`. -/
def rescueValue (osIndications : Option (List UInt8)) : Nat :=
  osIndicationRescueMode ||| osIndications.elim 0 valueOf

def Rescue.requested (env : RescueEnv) (osIndications : Option (List UInt8)) : Rescue where
  status := if env.resets then none else some EfiStatus.success
  osIndications := some (leBytes 8 (rescueValue osIndications))
  warmReset := true

/-- `intel_go_to_rescue_mode`, with what `OsIndications` holds before and after. -/
def intelGoToRescueMode (env : RescueEnv) (stored : Option (List UInt8)) : Rescue :=
  match env.supported with
  | none => Rescue.refused EfiStatus.loadError stored
  | some supported =>
      if supported.length ≠ 8 then
        Rescue.refused EfiStatus.loadError stored
      else if valueOf supported &&& osIndicationRescueMode = 0 then
        Rescue.refused EfiStatus.unsupported stored
      else
        let osIndications := env.read stored
        if osIndications.any fun bytes => bytes.length ≠ 8 then
          Rescue.refused EfiStatus.loadError stored
        else if efiError env.setVariable then
          Rescue.refused env.setVariable stored
        else
          -- A variable that is there but not read loses its other bits here.
          Rescue.requested env osIndications

structure RescueEnv.Grants (env : RescueEnv) (stored : Option (List UInt8)) : Prop where
  supported : exists bytes, env.supported = some bytes ∧ bytes.length = 8 ∧
    (valueOf bytes).testBit 5 = true
  size : forall bytes, env.read stored = some bytes -> bytes.length = 8
  writable : env.setVariable = EfiStatus.success

theorem and_rescueMode_eq_zero_iff (n : Nat) :
    n &&& osIndicationRescueMode = 0 <-> n.testBit 5 = false := by
  rw [osIndicationRescueMode, Nat.one_shiftLeft, Nat.and_two_pow]
  cases n.testBit 5 <;> decide

theorem intelGoToRescueMode_of_grants {env : RescueEnv} {stored : Option (List UInt8)}
    (h : env.Grants stored) :
    intelGoToRescueMode env stored = Rescue.requested env (env.read stored) := by
  rcases h.supported with ⟨bytes, hsupported, hlength, hbit⟩
  have hsome : ¬ valueOf bytes &&& osIndicationRescueMode = 0 := by
    rw [and_rescueMode_eq_zero_iff, hbit]
    decide
  have hread : ¬ ((env.read stored).any fun bytes => bytes.length ≠ 8) = true := by
    cases hfound : env.read stored with
    | none => decide
    | some found => simp [h.size found hfound]
  unfold intelGoToRescueMode
  rw [hsupported]
  dsimp only
  rw [if_neg (not_not.mpr hlength), if_neg hsome, if_neg hread, h.writable, if_neg (by decide)]

theorem intelGoToRescueMode_of_not_grants {env : RescueEnv} {stored : Option (List UInt8)}
    (h : ¬ env.Grants stored) :
    (intelGoToRescueMode env stored).osIndications = stored ∧
      (intelGoToRescueMode env stored).warmReset = false := by
  unfold intelGoToRescueMode
  cases hsupported : env.supported with
  | none => exact ⟨rfl, rfl⟩
  | some supported =>
      dsimp only
      split_ifs with hlength hbit hread hset
      all_goals first
        | exact ⟨rfl, rfl⟩
        | skip
      refine absurd ⟨⟨supported, hsupported, ?_, ?_⟩, ?_, ?_⟩ h
      · exact not_not.mp hlength
      · rw [and_rescueMode_eq_zero_iff] at hbit
        simpa using hbit
      · intro bytes hfound
        rw [hfound] at hread
        simpa using hread
      · simpa using hset

/-- The bit is set, and all others are as they have been read. -/
theorem testBit_rescueValue {osIndications : Option (List UInt8)} (i : Nat) :
    (valueOf (leBytes 8 (rescueValue osIndications))).testBit i =
      (decide (i = 5) || (osIndications.elim 0 valueOf).testBit i) := by
  have hold : osIndications.elim 0 valueOf < 2 ^ 64 := by
    cases osIndications with
    | none => decide
    | some bytes => exact le64_lt (memOf bytes) 0
  have hvalue : rescueValue osIndications < 2 ^ 64 :=
    Nat.or_lt_two_pow (by decide) hold
  have hread : valueOf (leBytes 8 (rescueValue osIndications)) = rescueValue osIndications :=
    (shows_memOf _).le64 hvalue
  rw [hread, rescueValue, Nat.testBit_or, osIndicationRescueMode, Nat.one_shiftLeft,
    Nat.testBit_two_pow]
  simp only [eq_comm]

/-!
# The last attempt
-/

def FallsToRescue (target : Target) : Prop :=
  target ∈ [Target.boot, Target.charging, Target.recovery, Target.fastboot, Target.dnx]

theorem FallsToRescue.emFallbackTarget {target : Target} (h : FallsToRescue target)
    {level : BattLevel} {charger : Bool}
    (hpower : level = BattLevel.bootCharging -> charger = true) :
    FallsToRescue (emFallbackTarget level charger target) := by
  unfold FallsToRescue at h ⊢
  simp only [List.mem_cons, List.not_mem_nil, or_false] at h
  unfold BootLogic.emFallbackTarget
  split
  · rename_i hlevel
    rw [hpower hlevel]
    rcases h with rfl | rfl | rfl | rfl | rfl <;> decide
  · rcases h with rfl | rfl | rfl | rfl | rfl <;> decide

theorem FallsToRescue.next {target : Target} (h : FallsToRescue target)
    (hne : target ≠ Target.dnx) :
    FallsToRescue (fallbackTarget target) ∧ fallbackTarget target ≠ Target.unknown := by
  unfold FallsToRescue at h ⊢
  simp only [List.mem_cons, List.not_mem_nil, or_false] at h
  rcases h with rfl | rfl | rfl | rfl | rfl
  · decide
  · decide
  · decide
  · decide
  · exact absurd rfl hne

theorem FallsToRescue.starts {target : Target} (h : FallsToRescue target)
    (hne : target ≠ Target.dnx) (turn : Nat) (env : BootLogicEnv) :
    Attempt.Starts ⟨turn, target⟩ env := by
  refine ⟨?_, hne⟩
  unfold FallsToRescue at h
  simp only [List.mem_cons, List.not_mem_nil, or_false] at h
  rcases h with rfl | rfl | rfl | rfl | rfl <;> cases env.cfg.enableFactoryModes <;> rfl

/-- If no image is started, the loop comes to the rescue mode. -/
theorem attempts_end_in_rescue {env : BootLogicEnv} {saved : List UInt8} {bound k : Nat}
    {target : Target} (hfalls : FallsToRescue target) (hbound : attemptsAfter target < bound)
    (hpower : forall k, env.inputs.batteryLevel k = BattLevel.bootCharging ->
      env.inputs.isChargerPresent k = true)
    (hreturned : forall attempt, attempt ∈ attempts env saved bound k target ->
      attempt.Starts env -> (attempt.load env saved).status.isSome = true) :
    exists turn, (attempts env saved bound k target).getLast? = some ⟨turn, Target.dnx⟩ := by
  induction bound generalizing k target with
  | zero => cases hbound
  | succ bound ih =>
      unfold attempts at hreturned ⊢
      dsimp only at hreturned ⊢
      have hchosen := hfalls.emFallbackTarget (hpower k)
      have hafter := BootLogic.attemptsAfter_emFallbackTarget_le (env.inputs.batteryLevel k)
        (env.inputs.isChargerPresent k) target
      generalize emFallbackTarget (env.inputs.batteryLevel k) (env.inputs.isChargerPresent k)
        target = chosen at hchosen hafter hreturned ⊢
      have hcold : chosen ≠ Target.coldOff := by
        rintro rfl
        exact absurd hchosen (by unfold FallsToRescue; decide)
      rw [if_neg hcold] at hreturned ⊢
      by_cases hdnx : chosen = Target.dnx
      · rw [hdnx]
        refine ⟨k, ?_⟩
        split
        · rfl
        · rfl
      · rcases hchosen.next hdnx with ⟨hnext, hunknown⟩
        have hsome : ¬ (Attempt.load ⟨k, chosen⟩ env saved).status.isNone = true := by
          intro hnone
          rw [if_pos hnone] at hreturned
          have hback := hreturned _ (List.mem_singleton.mpr rfl) (hchosen.starts hdnx k env)
          rw [Option.isNone_iff_eq_none] at hnone
          rw [hnone] at hback
          cases hback
        rw [if_neg hsome, if_pos hunknown] at hreturned ⊢
        have hlt := BootLogic.attemptsAfter_fallbackTarget_lt hunknown
        rcases ih hnext (by omega) fun attempt hmem =>
          hreturned attempt (List.mem_cons_of_mem _ hmem) with ⟨turn, hlast⟩
        refine ⟨turn, ?_⟩
        rw [List.getLast?_cons, hlast]
        rfl

/-!
# The variable
-/

def indicationsAfter (rescue : Nat -> RescueEnv) (tried : List Attempt)
    (before : Option (List UInt8)) : Option (List UInt8) :=
  tried.foldl
    (fun osIndications attempt =>
      if attempt.target = Target.dnx then
        (intelGoToRescueMode (rescue attempt.turn) osIndications).osIndications
      else osIndications) before

theorem indicationsAfter_of_no_dnx (rescue : Nat -> RescueEnv) {tried : List Attempt}
    (h : forall attempt, attempt ∈ tried -> attempt.target ≠ Target.dnx)
    (before : Option (List UInt8)) : indicationsAfter rescue tried before = before := by
  induction tried with
  | nil => rfl
  | cons attempt tried ih =>
      unfold indicationsAfter
      rw [List.foldl_cons, if_neg (h attempt List.mem_cons_self)]
      exact ih fun other hmem => h other (List.mem_cons_of_mem _ hmem)

theorem InTurn.no_dnx_before {env : BootLogicEnv} {saved : List UInt8} {init : List Attempt}
    {last : Attempt} (h : InTurn env saved (init ++ [last])) :
    forall attempt, attempt ∈ init -> attempt.target ≠ Target.dnx := by
  intro attempt hmem hdnx
  have hordered := (List.pairwise_append.mp h.ordered).2.2 attempt hmem last
    (List.mem_singleton.mpr rfl)
  rw [hdnx] at hordered
  exact absurd hordered.2 (Nat.not_lt_zero _)

theorem InTurn.indicationsAfter_eq {env : BootLogicEnv} {saved : List UInt8}
    {init : List Attempt} {last : Attempt} (h : InTurn env saved (init ++ [last]))
    (rescue : Nat -> RescueEnv) (before : Option (List UInt8)) :
    indicationsAfter rescue (init ++ [last]) before =
      if last.target = Target.dnx then
        (intelGoToRescueMode (rescue last.turn) before).osIndications
      else before := by
  have hinit := indicationsAfter_of_no_dnx rescue h.no_dnx_before before
  unfold indicationsAfter at hinit ⊢
  rw [List.foldl_append, hinit]
  rfl

def Rescued (before after : Option (List UInt8)) : Prop :=
  exists bytes, after = some bytes ∧ bytes.length = 8 ∧ forall i,
    (valueOf bytes).testBit i = (decide (i = 5) || (before.elim 0 valueOf).testBit i)

/-- The others are as they were if the variable can be read, and lost if it cannot. -/
def RescuedBy (env : RescueEnv) (before after : Option (List UInt8)) : Prop :=
  (env.readable = true -> Rescued before after) ∧ (env.readable = false -> Rescued none after)

theorem rescued_of_grants {env : RescueEnv} {before : Option (List UInt8)}
    (h : env.Grants before) : (intelGoToRescueMode env before).warmReset = true ∧
      RescuedBy env before (intelGoToRescueMode env before).osIndications := by
  have hrescued : Rescued (env.read before) (intelGoToRescueMode env before).osIndications := by
    rw [intelGoToRescueMode_of_grants h]
    exact ⟨_, rfl, length_leBytes 8 _, testBit_rescueValue⟩
  refine ⟨by rw [intelGoToRescueMode_of_grants h]; rfl, ?_, ?_⟩
  · intro hreadable
    unfold RescueEnv.read at hrescued
    rwa [if_pos hreadable] at hrescued
  · intro hunreadable
    unfold RescueEnv.read at hrescued
    rwa [if_neg (by rw [hunreadable]; decide)] at hrescued

/--
In a boot the rescue bit of `OsIndications` is all that is changed of it if it can
be read, as the last thing, and only if the firmware has a rescue mode.  If no image is started,
and a battery that is too low has a charger, the boot ends there, and with a
firmware that has a rescue mode it ends in a warm reset with the bit set.
-/
theorem startBootLogic_rescues {env : BootLogicEnv} {cmdline : Option (List UInt8)}
    {target : Target} (hselected : selectedTarget env = some target) {rescue : Nat -> RescueEnv}
    {before : Option (List UInt8)}
    (hrescue : forall k, (env.target k).rescueMode =
      (intelGoToRescueMode (rescue k) before).status) :
    let saved := savedLine env cmdline
    let tried := attempts env saved 4 0 target
    let after := indicationsAfter rescue tried before
    (startBootLogic env cmdline).events =
        lineSteps env cmdline ++ tried.flatMap (fun attempt => (attempt.load env saved).events) ∧
      (after ≠ before -> exists turn, tried.getLast? = some ⟨turn, Target.dnx⟩ ∧
        (rescue turn).Grants before ∧ RescuedBy (rescue turn) before after) ∧
      (FallsToRescue target ->
        (forall k, env.inputs.batteryLevel k = BattLevel.bootCharging ->
          env.inputs.isChargerPresent k = true) ->
        (forall attempt, attempt ∈ tried -> attempt.Starts env ->
          (attempt.load env saved).status.isSome = true) ->
        exists turn, tried.getLast? = some ⟨turn, Target.dnx⟩ ∧
          (Attempt.load ⟨turn, Target.dnx⟩ env saved).status =
            (intelGoToRescueMode (rescue turn) before).status ∧
          ((rescue turn).Grants before ->
            (intelGoToRescueMode (rescue turn) before).warmReset = true ∧
              RescuedBy (rescue turn) before after)) := by
  intro saved tried after
  have hturns : InTurn env saved tried := attempts_inTurn env saved 4 0 target
  have hafter : forall last, tried.getLast? = some last -> after =
      if last.target = Target.dnx then
        (intelGoToRescueMode (rescue last.turn) before).osIndications
      else before := by
    intro last hlast
    rcases List.getLast?_eq_some_iff.mp hlast with ⟨init, hinit⟩
    rw [hinit] at hturns
    show indicationsAfter rescue tried before = _
    rw [hinit]
    exact hturns.indicationsAfter_eq rescue before
  refine ⟨by rw [startBootLogic_steps hselected, launchLoop_attempts], ?_, ?_⟩
  · intro hne
    cases hlast : tried.getLast? with
    | none =>
        have hnil : tried = [] := List.getLast?_eq_none_iff.mp hlast
        have hkept : after = before := by
          show indicationsAfter rescue tried before = before
          rw [hnil]
          rfl
        exact absurd hkept hne
    | some last =>
        have heq := hafter last hlast
        split at heq
        · rename_i hdnx
          by_cases hgrants : (rescue last.turn).Grants before
          · refine ⟨last.turn, ?_, hgrants, ?_⟩
            · rw [← hdnx]
            · rw [heq]
              exact (rescued_of_grants hgrants).2
          · rw [(intelGoToRescueMode_of_not_grants hgrants).1] at heq
            exact absurd heq hne
        · exact absurd heq hne
  · intro hfalls hpower hreturned
    rcases attempts_end_in_rescue hfalls (by cases target <;> decide) hpower hreturned with
      ⟨turn, hlast⟩
    refine ⟨turn, hlast, ?_, ?_⟩
    · rw [← hrescue turn]
      unfold Attempt.load loadTarget
      cases env.cfg.enableFactoryModes <;> rfl
    · intro hgrants
      have heq := hafter _ hlast
      rw [if_pos rfl] at heq
      rw [heq]
      exact rescued_of_grants hgrants

def bareDevice : BootLogicEnv :=
  { secondTry with
    target := fun _ =>
      { appendPool := true, partition := corruptPartition, used := ∅, rescueMode := none } }

def grantingRescue : RescueEnv where
  supported := some (leBytes 8 0x21)
  readable := true
  setVariable := EfiStatus.success
  resets := true

theorem startBootLogic_rescues_bareDevice :
    exists turn, (attempts bareDevice (savedLine bareDevice none) 4 0 Target.boot).getLast? =
        some ⟨turn, Target.dnx⟩ ∧
      Rescued (some (leBytes 8 1)) (indicationsAfter (fun _ => grantingRescue)
        (attempts bareDevice (savedLine bareDevice none) 4 0 Target.boot)
        (some (leBytes 8 1))) := by
  have htried : attempts bareDevice (savedLine bareDevice none) 4 0 Target.boot =
      [⟨0, Target.boot⟩, ⟨1, Target.recovery⟩, ⟨2, Target.fastboot⟩, ⟨3, Target.dnx⟩] := by
    decide +kernel
  have hgrants : grantingRescue.Grants (some (leBytes 8 1)) := by
    refine ⟨⟨_, rfl, by decide, by decide⟩, ?_, rfl⟩
    rintro _ ⟨⟩
    decide
  have hreturned : forall attempt,
      attempt ∈ attempts bareDevice (savedLine bareDevice none) 4 0 Target.boot ->
        attempt.Starts bareDevice ->
          (attempt.load bareDevice (savedLine bareDevice none)).status.isSome = true := by
    intro attempt hmem hstarts
    rw [htried] at hmem
    simp only [List.mem_cons, List.not_mem_nil, or_false] at hmem
    rcases hmem with rfl | rfl | rfl | rfl
    · decide +kernel
    · decide +kernel
    · decide +kernel
    · exact absurd rfl hstarts.2
  have hrescue : forall k, (bareDevice.target k).rescueMode =
      (intelGoToRescueMode grantingRescue (some (leBytes 8 1))).status := by
    intro k
    rw [intelGoToRescueMode_of_grants hgrants]
    rfl
  have hselected : selectedTarget bareDevice = some Target.boot := by decide +kernel
  have hpower : forall k, bareDevice.inputs.batteryLevel k = BattLevel.bootCharging ->
      bareDevice.inputs.isChargerPresent k = true := by
    rintro k ⟨⟩
  have hfalls : FallsToRescue Target.boot := by
    unfold FallsToRescue
    decide
  rcases (@startBootLogic_rescues bareDevice none Target.boot hselected (fun _ => grantingRescue)
    (some (leBytes 8 1)) hrescue).2.2 hfalls hpower hreturned with ⟨turn, hlast, -, hrescued⟩
  exact ⟨turn, hlast, (hrescued hgrants).2.1 rfl⟩

end Efilinux
end BootableUefi
