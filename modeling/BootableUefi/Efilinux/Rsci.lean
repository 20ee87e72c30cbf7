import BootableUefi.BootLogic.History
import BootableUefi.Efilinux.Acpi

/-!
# The fields of the RSCI table

`get_acpi_field` returns a 64-bit -1 when the table cannot be retrieved, narrowed
to the type of the field.  The boot logic compares what it gets with -1 again.
-/

namespace BootableUefi
namespace Efilinux

open Firmware Foundation BootLogic

/-- So many bytes copied into a zero `UINT64`. -/
def copyField (mem : Mem) : Nat -> Nat -> Nat
  | _, 0 => 0
  | address, size + 1 => (mem address).toNat + 2 ^ 8 * copyField mem (address + 1) size

/-- `_get_acpi_field`, with the pointer to the table before and after; 0 is NULL. -/
def getAcpiFieldWord (arch : Arch) (env : AcpiEnv) (name : List UInt8)
    (var offset size : Nat) : UInt64 × Nat :=
  if 8 < size then
    (-1, var)
  else
    match if var ≠ 0 then Except.ok var else (getAcpiTable arch env name).result with
    | Except.error _ => (-1, var)
    | Except.ok table => (UInt64.ofNat (copyField env.mem (table + offset) size), table)

/-- `get_acpi_field` for a `CHAR8` field of the RSCI table, as the value of an enumeration. -/
def getRsciField (arch : Arch) (env : AcpiEnv) (var offset : Nat) : Int × Nat :=
  let read := getAcpiFieldWord arch env AcpiSignature.rsci.chars var offset 1
  (read.1.toUInt8.toNat, read.2)

def rsciGetWakeSource (arch : Arch) (env : AcpiEnv) (var : Nat) : Int × Nat :=
  getRsciField arch env var headerSize

def rsciGetResetSource (arch : Arch) (env : AcpiEnv) (var : Nat) : Int × Nat :=
  getRsciField arch env var (headerSize + 1)

def rsciGetShutdownSource (arch : Arch) (env : AcpiEnv) (var : Nat) : Int × Nat :=
  getRsciField arch env var (headerSize + 3)

def wakeError : Int :=
  -1

def resetError : Int :=
  -1

def shtdwnError : Int :=
  -1

def wakeSourceOf (value : Int) : WakeSource :=
  if value = wakeError then WakeSource.error
  else
    match value.toNat with
    | 0 => WakeSource.notApplicable
    | 1 => WakeSource.batteryInserted
    | 2 => WakeSource.usbChargerInserted
    | 3 => WakeSource.acdcChargerInserted
    | 4 => WakeSource.powerButtonPressed
    | 5 => WakeSource.rtcTimer
    | 6 => WakeSource.batteryReachedIaThreshold
    | n => WakeSource.other n

def resetSourceOf (value : Int) : ResetSource :=
  if value = resetError then ResetSource.error
  else
    match value.toNat with
    | 0 => ResetSource.notApplicable
    | 1 => ResetSource.osInitiated
    | 2 => ResetSource.forced
    | 3 => ResetSource.fwUpdate
    | 4 => ResetSource.kernelWatchdog
    | 5 => ResetSource.securityWatchdog
    | 6 => ResetSource.securityInitiated
    | 7 => ResetSource.pmcWatchdog
    | 8 => ResetSource.ecWatchdog
    | 9 => ResetSource.platformWatchdog
    | n => ResetSource.other n

/-- `enum shutdown_sources`, as far as the boot logic distinguishes them. -/
def shutdownSourceOf (value : Int) : ShutdownSource :=
  if value = 0 then ShutdownSource.notApplicable
  else if value = 1 then ShutdownSource.powerButtonOverride
  else ShutdownSource.other (value % 2 ^ 32).toNat

def inEnv (arch : Arch) (env : AcpiEnv) (var : Nat) (inputs : BootInputs) : BootInputs :=
  let wake := rsciGetWakeSource arch env var
  { inputs with
    wakeSource := wakeSourceOf wake.1
    resetSource := resetSourceOf (rsciGetResetSource arch env wake.2).1
    shutdownSource := shutdownSourceOf (rsciGetShutdownSource arch env wake.2).1 }

def targetInEnv (arch : Arch) (env : AcpiEnv) (var : Nat) (cfg : Config) (inputs : BootInputs)
    (s : BootState) : CaseResult :=
  let inputs := inEnv arch env var inputs
  targetFromInputs cfg inputs { s with rsciResetSource := inputs.resetSource }

/-!
# The error that gets lost
-/

theorem getRsciField_ne_error (arch : Arch) (env : AcpiEnv) (var offset : Nat) :
    (getRsciField arch env var offset).1 ≠ -1 := by
  unfold getRsciField
  dsimp only
  omega

/-- The table has not been retrieved, and cannot be. -/
structure Unretrieved (arch : Arch) (env : AcpiEnv) (var : Nat) : Prop where
  null : var = 0
  fails : exists status,
    (getAcpiTable arch env AcpiSignature.rsci.chars).result = Except.error status

theorem getRsciField_of_unretrieved {arch : Arch} {env : AcpiEnv} {var : Nat}
    (h : Unretrieved arch env var) (offset : Nat) :
    getRsciField arch env var offset = (255, 0) := by
  rcases h.fails with ⟨status, hfails⟩
  have hvar : ¬ var ≠ 0 := not_not.mpr h.null
  unfold getRsciField getAcpiFieldWord
  rw [if_neg (by decide), if_neg hvar, hfails, h.null]
  have hnarrow : ((-1 : UInt64).toUInt8.toNat : Int) = 255 := by decide
  exact Prod.ext hnarrow rfl

theorem unretrieved_of_no_rsdt {env : AcpiEnv} {status : EfiStatus}
    (hrsdt : getRsdtTable env = Except.error status) (arch : Arch) :
    Unretrieved arch env 0 where
  null := rfl
  fails := by
    refine ⟨status, ?_⟩
    unfold getAcpiTable
    rw [hrsdt]

theorem unretrieved_of_no_entry {arch : Arch} {env : AcpiEnv} {rsdt : Nat}
    (hrsdt : getRsdtTable env = Except.ok rsdt)
    (hheader : arch = Arch.x64 ∨ headerSize ≤ env.length rsdt)
    (hnone : forall i, env.InTable rsdt i ->
      ¬ env.HasSignature (env.entry rsdt i) AcpiSignature.rsci.chars) :
    Unretrieved arch env 0 where
  null := rfl
  fails := by
    have hlooks : LooksUp arch env rsdt AcpiSignature.rsci.chars :=
      looksUp_of_count hrsdt (lt_nbAcpiTables_iff (le32_lt _ _) hheader)
    exact ⟨EfiStatus.notFound, hlooks.notFound.mpr hnone⟩

theorem loadBcb_cases (inputs : BootInputs) :
    loadBcb inputs = Target.recovery ∨ loadBcb inputs = Target.unknown := by
  unfold loadBcb
  split
  · exact Or.inl rfl
  · exact Or.inr rfl

/-- A wake source without a case of its own leaves the choice to the first two cases. -/
theorem targetFromOff_of_other (inputs : BootInputs) (value : Nat) (s : BootState) :
    (targetFromOff inputs (WakeSource.other value) s).1 =
      some (if inputs.comboFastboot then Target.fastboot else loadBcb inputs) := by
  have hpower : bootPowerKey (WakeSource.other value) = Target.unknown := by
    simp [bootPowerKey]
  have hbattery : bootBatteryInsertion inputs (WakeSource.other value) = Target.unknown := by
    simp [bootBatteryInsertion]
  have hcharger : bootChargerInsertion inputs (WakeSource.other value) = Target.unknown := by
    simp [bootChargerInsertion]
  unfold targetFromOff
  cases hcombo : inputs.comboFastboot with
  | true => simp [runBootCases, bootFastbootCombo, hcombo]
  | false =>
      rcases loadBcb_cases inputs with hbcb | hbcb
      · simp [runBootCases, bootFastbootCombo, hcombo, hbcb]
      · simp [runBootCases, bootFastbootCombo, hcombo, hbcb, hpower, hbattery, hcharger, bootRtc]

/-- 255 is a wake source like any other: the key combination and the BCB decide. -/
theorem targetInEnv_of_unretrieved {arch : Arch} {env : AcpiEnv} {var : Nat}
    (h : Unretrieved arch env var) (cfg : Config) {inputs : BootInputs}
    (hbattery : inputs.isBatteryOk = true) (s : BootState) :
    (targetInEnv arch env var cfg inputs s).1 =
      some (if inputs.comboFastboot then Target.fastboot else loadBcb inputs) := by
  have hwake : (inEnv arch env var inputs).wakeSource = WakeSource.other 255 := by
    unfold inEnv rsciGetWakeSource
    rw [getRsciField_of_unretrieved h]
    rfl
  have hok : (inEnv arch env var inputs).isBatteryOk = true := hbattery
  unfold targetInEnv targetFromInputs
  dsimp only
  rw [hok, hwake, if_neg (by decide), if_neg (by decide), if_pos (by decide)]
  exact targetFromOff_of_other (inEnv arch env var inputs) 255 _

theorem wakeSourceOf_ne_error {value : Int} (h : value ≠ wakeError) :
    wakeSourceOf value ≠ WakeSource.error := by
  unfold wakeSourceOf
  rw [if_neg h]
  split <;> simp

/-- What is wrong in an environment in which the table may or may not be retrieved. -/
structure ErrorsLost (arch : Arch) (env : AcpiEnv) (var : Nat) : Prop where
  wake : (rsciGetWakeSource arch env var).1 ≠ wakeError
  reset : (rsciGetResetSource arch env var).1 ≠ resetError
  shutdown : (rsciGetShutdownSource arch env var).1 ≠ shtdwnError
  /-- `target_from_inputs` does not take the error branch. -/
  branch : forall inputs, (inEnv arch env var inputs).wakeSource ≠ WakeSource.error
  target : Unretrieved arch env var -> forall cfg inputs s, inputs.isBatteryOk = true ->
    (targetInEnv arch env var cfg inputs s).1 ≠ some Target.boot

/-- The error is lost in every environment. -/
theorem rsci_errorsLost (arch : Arch) (env : AcpiEnv) (var : Nat) : ErrorsLost arch env var where
  wake := getRsciField_ne_error arch env var _
  reset := getRsciField_ne_error arch env var _
  shutdown := getRsciField_ne_error arch env var _
  branch := fun inputs => wakeSourceOf_ne_error (getRsciField_ne_error arch env var _)
  target := by
    intro h cfg inputs s hbattery
    rw [targetInEnv_of_unretrieved h cfg hbattery s]
    cases inputs.comboFastboot with
    | true => simp
    | false =>
        rcases loadBcb_cases inputs with hbcb | hbcb
        · simp [hbcb]
        · simp [hbcb]

def noAcpi : AcpiEnv where
  mem := fun _ => 0
  acpi20 := Except.error EfiStatus.notFound

/-- Without ACPI the fastboot keys are looked at, and without the keys there is no target. -/
theorem targetInEnv_without_acpi :
    rsciGetWakeSource Arch.x64 noAcpi 0 = (255, 0) ∧
      rsciGetResetSource Arch.x64 noAcpi 0 = (255, 0) ∧
      rsciGetShutdownSource Arch.x64 noAcpi 0 = (255, 0) ∧
      (forall s, (targetInEnv Arch.x64 noAcpi 0 ⟨false, false⟩
        { plainReset ResetSource.osInitiated with comboFastboot := true } s).1 =
          some Target.fastboot) ∧
      (forall s, (targetInEnv Arch.x64 noAcpi 0 ⟨false, false⟩
        (plainReset ResetSource.osInitiated) s).1 = some Target.unknown) := by
  have h : Unretrieved Arch.x64 noAcpi 0 := unretrieved_of_no_rsdt rfl Arch.x64
  refine ⟨getRsciField_of_unretrieved h _, getRsciField_of_unretrieved h _,
    getRsciField_of_unretrieved h _, ?_, ?_⟩
  · exact fun s => targetInEnv_of_unretrieved h _ rfl s
  · exact fun s => targetInEnv_of_unretrieved h _ rfl s

end Efilinux
end BootableUefi
