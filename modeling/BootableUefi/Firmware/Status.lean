import Mathlib.Algebra.Order.Ring.Nat

/-!
# Firmware status codes

The status type is shared by every service the loader calls.  None of the
services modelled here documents a warning code, so a status is either
`EFI_SUCCESS` or an error.
-/

namespace BootableUefi
namespace Firmware

/-- `EFI_STATUS`: success, the error codes the sources name, and any other. -/
inductive EfiStatus where
  | success
  | loadError
  | invalidParameter
  | unsupported
  | bufferTooSmall
  | deviceError
  | outOfResources
  | volumeCorrupted
  | notFound
  | accessDenied
  | compromisedData
  | other (code : Nat)
  deriving DecidableEq, Repr

def efiError (status : EfiStatus) : Bool :=
  status != EfiStatus.success

@[simp] theorem efiError_eq_false_iff {status : EfiStatus} :
    efiError status = false <-> status = EfiStatus.success := by
  simp [efiError]

@[simp] theorem efiError_eq_true_iff {status : EfiStatus} :
    efiError status = true <-> status ≠ EfiStatus.success := by
  simp [efiError]

inductive Arch where
  | ia32
  | x64
  deriving DecidableEq, Repr

def Arch.uintnBits : Arch -> Nat
  | ia32 => 32
  | x64 => 64

def Arch.sizeofUintn : Arch -> Nat
  | ia32 => 4
  | x64 => 8

/-- Conversion of an unsigned value to `UINTN`. -/
def Arch.uintn (arch : Arch) (n : Nat) : Nat :=
  n % 2 ^ arch.uintnBits

section Uintn

variable {arch : Arch} {n : Nat}

theorem two_pow_le_uintn (arch : Arch) : 2 ^ 32 ≤ 2 ^ arch.uintnBits := by
  cases arch with
  | ia32 => exact Nat.le_refl _
  | x64 => exact Nat.pow_le_pow_right (by decide) (by decide)

theorem uintn_lt (arch : Arch) (n : Nat) : arch.uintn n < 2 ^ arch.uintnBits :=
  Nat.mod_lt n (Nat.two_pow_pos _)

theorem uintn_of_lt (h : n < 2 ^ arch.uintnBits) : arch.uintn n = n :=
  Nat.mod_eq_of_lt h

theorem uintn_of_small (h : n < 2 ^ 32) : arch.uintn n = n :=
  uintn_of_lt (Nat.lt_of_lt_of_le h (two_pow_le_uintn arch))

theorem uintn_add (arch : Arch) (m n : Nat) : arch.uintn (arch.uintn m + n) = arch.uintn (m + n) :=
  Nat.mod_add_mod m _ n

end Uintn

end Firmware
end BootableUefi
