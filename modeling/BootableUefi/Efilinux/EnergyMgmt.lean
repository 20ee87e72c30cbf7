import BootableUefi.BootLogic.OneShot
import BootableUefi.Efilinux.Rsci

/-!
# Energy management

The two policies of `em.c`.  The `uefi` policy asks the firmware for the state of
the battery and compares it with thresholds of the OEM1 table, which is looked up
when it is first needed.
-/

namespace BootableUefi
namespace Efilinux

open Firmware Foundation BootLogic

def AcpiSignature.oem1 : AcpiSignature where
  chars := [0x4f, 0x45, 0x4d, 0x31]
  length_eq := rfl
  nonzero := by
    intro c hc
    simp only [List.mem_cons, List.not_mem_nil, or_false] at hc
    rcases hc with rfl | rfl | rfl | rfl <;> decide

structure BatteryStatus where
  batteryPresent : Bool
  batteryValid : Bool
  capacityReadable : Bool
  batteryVoltageLevel : UInt16
  batteryCapacityLevel : UInt8
  deriving DecidableEq, Repr

/-- One use of `GetBatteryStatus`, and what is then in the structure on the stack. -/
structure BatteryAnswer where
  locate : EfiStatus
  devInfo : Bool
  getStatus : EfiStatus
  status : BatteryStatus

structure ChargerAnswer where
  locate : EfiStatus
  devInfo : Bool
  getStatus : EfiStatus
  present : Bool

def uefiGetBatteryStatus (answer : BatteryAnswer) : EfiStatus :=
  if efiError answer.locate || !answer.devInfo then answer.locate else answer.getStatus

def uefiIsChargerPresent (answer : ChargerAnswer) : Bool :=
  if efiError answer.locate || !answer.devInfo then false
  else if efiError answer.getStatus then false
  else answer.present

def uefiIsBatteryOk (answer : BatteryAnswer) : Bool :=
  if efiError (uefiGetBatteryStatus answer) then false else answer.status.batteryPresent

/-!
# The OEM1 table
-/

/-- `get_acpi_field` for a field of the OEM1 table; `var` is `OEM1_table`. -/
def getOem1Field (arch : Arch) (env : AcpiEnv) (offset size var : Nat) : UInt64 × Nat :=
  getAcpiFieldWord arch env AcpiSignature.oem1.chars var (headerSize + offset) size

def oem1GetIaAppsRun (arch : Arch) (env : AcpiEnv) (var : Nat) : UInt16 × Nat :=
  let read := getOem1Field arch env 5 2 var
  (read.1.toUInt16, read.2)

def oem1GetIaAppsCap (arch : Arch) (env : AcpiEnv) (var : Nat) : UInt8 × Nat :=
  let read := getOem1Field arch env 9 1 var
  (read.1.toUInt8, read.2)

def oem1GetIaVbattfreqlmt (arch : Arch) (env : AcpiEnv) (var : Nat) : UInt16 × Nat :=
  let read := getOem1Field arch env 10 2 var
  (read.1.toUInt16, read.2)

def oem1GetIaAppsToUse (arch : Arch) (env : AcpiEnv) (var : Nat) : UInt8 × Nat :=
  let read := getOem1Field arch env 15 1 var
  (read.1.toUInt8, read.2)

def useIaAppsCap : UInt8 :=
  0

def uefiGetBatteryLevel (arch : Arch) (env : AcpiEnv) (answer : BatteryAnswer) (var : Nat) :
    BattLevel × Nat :=
  if efiError (uefiGetBatteryStatus answer) then
    (BattLevel.error, var)
  else
    let use := oem1GetIaAppsToUse arch env var
    if use.1 = useIaAppsCap then
      let threshold := oem1GetIaAppsCap arch env use.2
      (if threshold.1 < answer.status.batteryCapacityLevel then BattLevel.bootOs
        else BattLevel.bootCharging, threshold.2)
    else
      let threshold := oem1GetIaAppsRun arch env use.2
      (if threshold.1 < answer.status.batteryVoltageLevel then BattLevel.bootOs
        else BattLevel.bootCharging, threshold.2)

def uefiIsBatteryBelowVbattfreqlmt (arch : Arch) (env : AcpiEnv) (answer : BatteryAnswer)
    (var : Nat) : Bool × Nat :=
  if efiError (uefiGetBatteryStatus answer) then
    (false, var)
  else
    let limit := oem1GetIaVbattfreqlmt arch env var
    (answer.status.batteryVoltageLevel < limit.1, limit.2)

/-!
# The policies
-/

inductive EmPolicy where
  | uefi
  | fake
  deriving DecidableEq, Repr

/-- What the firmware answers to energy management during one boot. -/
structure EmAnswers where
  ok : BatteryAnswer
  vbattfreqlmt : BatteryAnswer
  level : Nat -> BatteryAnswer
  charger : Nat -> ChargerAnswer
  chargerAtWake : ChargerAnswer

section Boot

variable (arch : Arch) (env : AcpiEnv) (answers : EmAnswers)

/-- `OEM1_table` before the given call of `get_battery_level`. -/
def oem1Table : Nat -> Nat
  | 0 => (uefiIsBatteryBelowVbattfreqlmt arch env answers.vbattfreqlmt 0).2
  | k + 1 => (uefiGetBatteryLevel arch env (answers.level k) (oem1Table k)).2

def withPolicy (policy : EmPolicy) (inputs : BootInputs) : BootInputs :=
  match policy with
  | EmPolicy.uefi =>
      { inputs with
        isBatteryOk := uefiIsBatteryOk answers.ok
        batteryLevel := fun k =>
          (uefiGetBatteryLevel arch env (answers.level k) (oem1Table arch env answers k)).1
        isChargerPresent := fun k => uefiIsChargerPresent (answers.charger k)
        isChargerPresentAtWake := uefiIsChargerPresent answers.chargerAtWake }
  | EmPolicy.fake =>
      { inputs with
        isBatteryOk := true
        batteryLevel := fun _ => BattLevel.bootOs
        isChargerPresent := fun _ => true
        isChargerPresentAtWake := true }

end Boot

/-!
# What a level says
-/

/-- The table is not yet known, or is the one a lookup finds. -/
def Cached (arch : Arch) (env : AcpiEnv) (name : List UInt8) (var : Nat) : Prop :=
  var = 0 ∨ (getAcpiTable arch env name).result = Except.ok var

/-- The field of the table a lookup finds, or the bits of -1. -/
def acpiField (arch : Arch) (env : AcpiEnv) (name : List UInt8) (offset size : Nat) : UInt64 :=
  match (getAcpiTable arch env name).result with
  | Except.error _ => -1
  | Except.ok table => UInt64.ofNat (copyField env.mem (table + offset) size)

section Fields

variable {arch : Arch} {env : AcpiEnv} {name : List UInt8} {var : Nat}

theorem getAcpiFieldWord_cached (h : Cached arch env name var) {offset size : Nat}
    (hsize : size ≤ 8) :
    (getAcpiFieldWord arch env name var offset size).1 = acpiField arch env name offset size ∧
      Cached arch env name (getAcpiFieldWord arch env name var offset size).2 := by
  unfold getAcpiFieldWord acpiField
  rw [if_neg (Nat.not_lt_of_le hsize)]
  rcases h with hnull | hfound
  · rw [if_neg (not_not.mpr hnull)]
    cases hlookup : (getAcpiTable arch env name).result with
    | error status => exact ⟨rfl, Or.inl hnull⟩
    | ok table => exact ⟨rfl, Or.inr hlookup⟩
  · by_cases hnull : var = 0
    · rw [if_neg (not_not.mpr hnull), hfound]
      exact ⟨rfl, Or.inr hfound⟩
    · rw [if_pos hnull, hfound]
      exact ⟨rfl, Or.inr hfound⟩

theorem copyField_one (mem : Mem) (address : Nat) :
    (UInt64.ofNat (copyField mem address 1)).toUInt8 = mem address := by
  apply UInt8.toNat_inj.mp
  have hlt := (mem address).toNat_lt
  simp [copyField]

theorem copyField_two (mem : Mem) (address : Nat) :
    (UInt64.ofNat (copyField mem address 2)).toUInt16.toNat = le16 mem address := by
  have hlow := (mem address).toNat_lt
  have hhigh := (mem (address + 1)).toNat_lt
  simp [copyField, le16]
  omega

end Fields

def BatteryStatus.Above (status : BatteryStatus) (mem : Mem) (table : Nat) : Prop :=
  if mem (table + headerSize + 15) = useIaAppsCap then
    (mem (table + headerSize + 9)).toNat < status.batteryCapacityLevel.toNat
  else
    le16 mem (table + headerSize + 5) < status.batteryVoltageLevel.toNat

/-- There is an OEM1 table, and the battery is above its threshold. -/
def BatteryAnswer.Allows (answer : BatteryAnswer) (arch : Arch) (env : AcpiEnv) : Prop :=
  exists table, (getAcpiTable arch env AcpiSignature.oem1.chars).result = Except.ok table ∧
    answer.status.Above env.mem table

section Levels

variable {arch : Arch} {env : AcpiEnv} {answer : BatteryAnswer} {var : Nat}

theorem getOem1Field_cached (h : Cached arch env AcpiSignature.oem1.chars var)
    (offset : Nat) {size : Nat} (hsize : size ≤ 8) :
    (getOem1Field arch env offset size var).1 =
        acpiField arch env AcpiSignature.oem1.chars (headerSize + offset) size ∧
      Cached arch env AcpiSignature.oem1.chars (getOem1Field arch env offset size var).2 :=
  getAcpiFieldWord_cached h hsize

theorem uefiGetBatteryLevel_cached (h : Cached arch env AcpiSignature.oem1.chars var) :
    Cached arch env AcpiSignature.oem1.chars (uefiGetBatteryLevel arch env answer var).2 := by
  have huse := (getOem1Field_cached h 15 (by decide : 1 ≤ 8)).2
  unfold uefiGetBatteryLevel
  split
  · exact h
  · dsimp only
    split
    · exact (getOem1Field_cached huse 9 (by decide : 1 ≤ 8)).2
    · exact (getOem1Field_cached huse 5 (by decide : 2 ≤ 8)).2

/-- Without a table the threshold is one that no voltage exceeds. -/
theorem uefiGetBatteryLevel_bootOs (h : Cached arch env AcpiSignature.oem1.chars var)
    (hlevel : (uefiGetBatteryLevel arch env answer var).1 = BattLevel.bootOs) :
    efiError (uefiGetBatteryStatus answer) = false ∧ answer.Allows arch env := by
  have huse := getOem1Field_cached h 15 (by decide : 1 ≤ 8)
  have hcap := getOem1Field_cached huse.2 9 (by decide : 1 ≤ 8)
  have hrun := getOem1Field_cached huse.2 5 (by decide : 2 ≤ 8)
  unfold uefiGetBatteryLevel oem1GetIaAppsToUse oem1GetIaAppsCap oem1GetIaAppsRun at hlevel
  dsimp only at hlevel
  rw [huse.1, hcap.1, hrun.1] at hlevel
  split at hlevel
  · cases hlevel
  · rename_i hread
    refine ⟨by simpa using hread, ?_⟩
    unfold acpiField at hlevel
    unfold BatteryAnswer.Allows BatteryStatus.Above
    cases hlookup : (getAcpiTable arch env AcpiSignature.oem1.chars).result with
    | error status =>
        exfalso
        rw [hlookup] at hlevel
        dsimp only at hlevel
        have hmax : ¬ ((-1 : UInt64).toUInt16 < answer.status.batteryVoltageLevel) := by
          rw [UInt16.lt_iff_toNat_lt]
          have hlt := answer.status.batteryVoltageLevel.toNat_lt
          have hall : (-1 : UInt64).toUInt16.toNat = 2 ^ 16 - 1 := by decide
          omega
        rw [if_neg (by decide), if_neg hmax] at hlevel
        cases hlevel
    | ok table =>
        refine ⟨table, rfl, ?_⟩
        rw [hlookup] at hlevel
        dsimp only at hlevel
        rw [copyField_one, copyField_one, ← Nat.add_assoc, ← Nat.add_assoc] at hlevel
        split at hlevel
        · rename_i hcapacity
          rw [if_pos hcapacity]
          split at hlevel
          · rename_i habove
            exact UInt8.lt_iff_toNat_lt.mp habove
          · cases hlevel
        · rename_i hvoltage
          rw [if_neg hvoltage]
          split at hlevel
          · rename_i habove
            rwa [UInt16.lt_iff_toNat_lt, copyField_two, ← Nat.add_assoc] at habove
          · cases hlevel

theorem oem1Table_cached (arch : Arch) (env : AcpiEnv) (answers : EmAnswers) (k : Nat) :
    Cached arch env AcpiSignature.oem1.chars (oem1Table arch env answers k) := by
  have hnull : Cached arch env AcpiSignature.oem1.chars 0 := Or.inl rfl
  induction k with
  | zero =>
      unfold oem1Table uefiIsBatteryBelowVbattfreqlmt
      split
      · exact hnull
      · exact (getOem1Field_cached hnull 10 (by decide : 2 ≤ 8)).2
  | succ k ih => exact uefiGetBatteryLevel_cached ih

end Levels

/-!
# Whole boots
-/

/-- The targets that energy management takes for an operating system. -/
def NeedsBattery (target : Target) : Prop :=
  target = Target.boot ∨ target = Target.factory ∨ target = Target.factory2

theorem emFallbackTarget_needsBattery {level : BattLevel} {charger : Bool} {target : Target}
    (h : NeedsBattery (emFallbackTarget level charger target)) :
    level ≠ BattLevel.bootCharging := by
  rintro rfl
  unfold NeedsBattery at h
  cases charger <;> cases target <;> simp [emFallbackTarget] at h

/-- What needs a battery is loaded in an iteration whose level does not say charging. -/
theorem launchLoop_levels (cfg : Config) (inputs : BootInputs) (bound k : Nat)
    (target : Target) (s : BootState) :
    exists loads, loadsOf (BootLogic.launchLoop cfg inputs bound k target s).2.events =
        loadsOf s.events ++ loads ∧
      forall i load, loads[i]? = some load -> NeedsBattery load.1 ->
        inputs.batteryLevel (k + i) ≠ BattLevel.bootCharging := by
  induction bound generalizing k target s with
  | zero => exact ⟨[], by simp [BootLogic.launchLoop], by simp⟩
  | succ bound ih =>
      have hlevel := @emFallbackTarget_needsBattery (inputs.batteryLevel k)
        (inputs.isChargerPresent k) target
      unfold BootLogic.launchLoop
      dsimp only
      generalize emFallbackTarget (inputs.batteryLevel k) (inputs.isChargerPresent k) target =
        next at hlevel ⊢
      split
      · exact ⟨[], by simp [loadsOf], by simp⟩
      · have hsaved : loadsOf (setEntryLast cfg inputs next s).2.events = loadsOf s.events :=
          (spends_setEntryLast next s).loads
        generalize (setEntryLast cfg inputs next s).2 = saved at hsaved ⊢
        have hload : loadsOf (saved.emit (BootEvent.loadTarget next saved.vars)).events =
            loadsOf s.events ++ [(next, saved.vars)] := by
          rw [← hsaved]
          simp [loadsOf]
        have hfirst : forall i load, [(next, saved.vars)][i]? = some load ->
            NeedsBattery load.1 -> inputs.batteryLevel (k + i) ≠ BattLevel.bootCharging := by
          intro i load hi hneeds
          rcases List.getElem?_eq_some_iff.mp hi with ⟨hlt, rfl⟩
          have hzero : i = 0 := by simpa using hlt
          subst hzero
          exact hlevel hneeds
        split
        · split
          · rcases ih (k + 1) (fallbackTarget next)
              (saved.emit (BootEvent.loadTarget next saved.vars)) with ⟨loads, heq, hloads⟩
            refine ⟨(next, saved.vars) :: loads, ?_, ?_⟩
            · rw [heq, hload, List.append_assoc]
              rfl
            · intro i load hi hneeds
              cases i with
              | zero => exact hfirst 0 load hi hneeds
              | succ i =>
                  have hrest := hloads i load hi hneeds
                  rwa [show k + 1 + i = k + (i + 1) by omega] at hrest
          · exact ⟨_, hload, hfirst⟩
        · exact ⟨_, hload, hfirst⟩

/-- Without a battery the device is shut down, and nothing is loaded. -/
theorem startBootLogic_of_no_battery (cfg : Config) {inputs : BootInputs}
    (hbattery : inputs.isBatteryOk = false) (vars : EfiVariables) :
    loadsOf (BootLogic.startBootLogic cfg inputs vars).2.events = [] := by
  have hstart : Spends (BootState.start inputs vars) (selectionState cfg inputs vars) :=
    (quiet_selectionState (fun _ _ => rfl) cfg inputs vars).spends
  have hselect : targetFromInputs cfg inputs (selectionState cfg inputs vars) =
      (some Target.coldOff, selectionState cfg inputs vars) := by
    simp [targetFromInputs, hbattery]
  have hget : Spends (selectionState cfg inputs vars)
      (getResetSource cfg inputs (selectionState cfg inputs vars)).2 :=
    (quiet_getResetSource (fun _ => rfl) cfg inputs _).spends
  have hoff : emFallbackTarget (inputs.batteryLevel 0) (inputs.isChargerPresent 0)
      Target.coldOff = Target.coldOff := by
    unfold emFallbackTarget
    split <;> rfl
  rw [startBootLogic_of_selected hselect (by decide), if_neg (by decide)]
  unfold BootLogic.launchOrFallback BootLogic.launchLoop
  dsimp only
  rw [hoff, if_pos rfl]
  have hloads := (hstart.trans hget).loads
  simpa [loadsOf, BootState.start] using hloads

theorem startBootLogic_levels (cfg : Config) (inputs : BootInputs) (vars : EfiVariables) :
    forall i load, (loadsOf (BootLogic.startBootLogic cfg inputs vars).2.events)[i]? = some load ->
      NeedsBattery load.1 -> inputs.batteryLevel i ≠ BattLevel.bootCharging := by
  have hstart : Spends (BootState.start inputs vars) (selectionState cfg inputs vars) :=
    (quiet_selectionState (fun _ _ => rfl) cfg inputs vars).spends
  have hselects : Selects cfg (BootState.start inputs vars)
      (targetFromInputs cfg inputs (selectionState cfg inputs vars)) :=
    (targetFromInputs_selects _).after hstart
  cases hselect : targetFromInputs cfg inputs (selectionState cfg inputs vars) with
  | mk selected s =>
      rw [hselect] at hselects
      have hnone : loadsOf s.events = [] := hselects.spends.loads
      cases selected with
      | none =>
          rw [startBootLogic_eq, hselect, hnone]
          simp
      | some target =>
          by_cases herror : target = Target.error
          · rw [startBootLogic_eq, hselect, herror, hnone]
            simp
          · have hget : Spends s (getResetSource cfg inputs s).2 :=
              (quiet_getResetSource (fun _ => rfl) cfg inputs s).spends
            rw [startBootLogic_of_selected hselect herror]
            rcases launchLoop_levels cfg inputs 4 0
              (if target = Target.unknown then Target.boot else target)
              (getResetSource cfg inputs s).2 with ⟨loads, heq, hloads⟩
            rw [hget.loads, hnone, List.nil_append] at heq
            unfold BootLogic.launchOrFallback
            rw [heq]
            intro i load hi hneeds
            have hlevel := hloads i load hi hneeds
            rwa [Nat.zero_add] at hlevel

/--
With the `uefi` policy nothing is loaded unless the firmware reports a battery, and
the i-th load is an operating system only if the battery is then above the threshold
of the OEM1 table, or its status cannot be read any more.
-/
theorem weak_battery_starts_no_os (arch : Arch) (env : AcpiEnv) (answers : EmAnswers)
    (cfg : Config) (inputs : BootInputs) (vars : EfiVariables)
    {loads : List (Target × EfiVariables)}
    (hloads : loadsOf (BootLogic.startBootLogic cfg
      (withPolicy arch env answers EmPolicy.uefi inputs) vars).2.events = loads)
    {i : Nat} {load : Target × EfiVariables} (hload : loads[i]? = some load) :
    (efiError (uefiGetBatteryStatus answers.ok) = false ∧
        answers.ok.status.batteryPresent = true) ∧
      (NeedsBattery load.1 -> (answers.level i).Allows arch env ∨
        efiError (uefiGetBatteryStatus (answers.level i)) = true) := by
  constructor
  · have hok : uefiIsBatteryOk answers.ok = true := by
      by_contra hnot
      have hgone : (withPolicy arch env answers EmPolicy.uefi inputs).isBatteryOk = false :=
        Bool.eq_false_iff.mpr hnot
      rw [startBootLogic_of_no_battery cfg hgone vars] at hloads
      rw [← hloads] at hload
      cases hload
    unfold uefiIsBatteryOk at hok
    split at hok
    · cases hok
    · rename_i hread
      exact ⟨Bool.eq_false_iff.mpr hread, hok⟩
  · intro hneeds
    rw [← hloads] at hload
    have hlevel : (uefiGetBatteryLevel arch env (answers.level i)
        (oem1Table arch env answers i)).1 ≠ BattLevel.bootCharging :=
      startBootLogic_levels cfg (withPolicy arch env answers EmPolicy.uefi inputs) vars i load
        hload hneeds
    cases hsaid : (uefiGetBatteryLevel arch env (answers.level i)
        (oem1Table arch env answers i)).1 with
    | bootCharging => exact absurd hsaid hlevel
    | bootOs =>
        exact Or.inl (uefiGetBatteryLevel_bootOs (oem1Table_cached arch env answers i) hsaid).2
    | error =>
        right
        unfold uefiGetBatteryLevel at hsaid
        split at hsaid
        · assumption
        · dsimp only at hsaid
          split at hsaid
          · split at hsaid <;> cases hsaid
          · split at hsaid <;> cases hsaid

/-- An OEM1 table at 0x300 that asks for a capacity above 10. -/
def tenPercent : AcpiEnv where
  mem := fun x =>
    if x < 0x300 then (smallAcpi 40).mem x
    else if x < 0x304 then AcpiSignature.oem1.chars.getD (x - 0x300) 0
    else if x = 0x32d then 10
    else 0
  acpi20 := Except.ok 0x100

def BatteryAnswer.ofCapacity (capacity : UInt8) : BatteryAnswer where
  locate := EfiStatus.success
  devInfo := true
  getStatus := EfiStatus.success
  status := ⟨true, true, true, 3700, capacity⟩

/-- The charger is pulled; 50 percent are left. -/
def halfCharged : EmAnswers where
  ok := BatteryAnswer.ofCapacity 50
  vbattfreqlmt := BatteryAnswer.ofCapacity 50
  level := fun _ => BatteryAnswer.ofCapacity 50
  charger := fun _ => ⟨EfiStatus.success, true, EfiStatus.success, false⟩
  chargerAtWake := ⟨EfiStatus.success, true, EfiStatus.success, false⟩

theorem weak_battery_starts_no_os_of_half :
    NeedsBattery Target.boot ∧ (efiError (uefiGetBatteryStatus halfCharged.ok) = false ∧
        halfCharged.ok.status.batteryPresent = true) ∧
      (NeedsBattery Target.boot -> (halfCharged.level 0).Allows Arch.x64 tenPercent ∨
        efiError (uefiGetBatteryStatus (halfCharged.level 0)) = true) := by
  refine ⟨Or.inl rfl, ?_⟩
  have hloads : (loadsOf (BootLogic.startBootLogic ⟨true, false⟩ (withPolicy Arch.x64 tenPercent
      halfCharged EmPolicy.uefi (plainReset ResetSource.fwUpdate))
      (lastEntryOnly "main")).2.events).map Prod.fst = [Target.boot] := by
    decide +kernel
  rcases List.map_eq_singleton_iff.mp hloads with ⟨load, hlist, hboot⟩
  have hgated := weak_battery_starts_no_os Arch.x64 tenPercent halfCharged ⟨true, false⟩
    (plainReset ResetSource.fwUpdate) (lastEntryOnly "main") hlist (i := 0) rfl
  rw [hboot] at hgated
  exact hgated

end Efilinux
end BootableUefi
