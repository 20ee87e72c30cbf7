import BootableUefi.Fastboot.HandlerRules
import BootableUefi.Foundation.Digits

/-!
# The numbers in commands

`strtoul` and `strtoul16` read a number from a string.  They are the same loop
over other characters, but `strtoul` accumulates in an `int`, which is taken to
wrap around.
-/

namespace BootableUefi
namespace Fastboot

open Firmware Foundation

structure Parsed (Char : Type) where
  value : Nat
  endptr : List Char
  deriving DecidableEq, Repr

/-- Past the prefix `0x`, if it is one, and the base to read in. -/
def skipPrefix {Char : Type} [DecidableEq Char] (zero x : Char) (nptr : List Char)
    (base : Nat) : List Char × Nat :=
  if (base = 0 ∨ base = 16) ∧ 2 < nptr.length ∧ nptr.take 2 = [zero, x] then
    (nptr.drop 2, 16)
  else
    (nptr, if base = 0 then 10 else base)

/-- An `int`, given by its bits, as an `unsigned long`. -/
def unsignedLong (arch : Arch) (bits : Nat) : Nat :=
  match arch with
  | Arch.ia32 => bits
  | Arch.x64 => if bits < 2 ^ 31 then bits else bits + (2 ^ 64 - 2 ^ 32)

def posixStrtoul (arch : Arch) (nptr : List UInt8) (base : Nat) : Parsed UInt8 :=
  let start := skipPrefix 0x30 0x78 nptr base
  let read := readDigits (fun c => toDigit c start.2) 32 start.2 start.1 0
  { value := unsignedLong arch read.1, endptr := read.2 }

/-- `to_digit` of `uefi_utils.c`; `none` is -1. -/
def toDigit16 (c : UInt16) (base : Nat) : Option Nat :=
  let value :=
    if 0x30 ≤ c ∧ c ≤ 0x39 then some (c.toNat - 0x30)
    else if 0x61 ≤ c ∧ c ≤ 0x7a then some (10 + (c.toNat - 0x61))
    else if 0x41 ≤ c ∧ c ≤ 0x5a then some (10 + (c.toNat - 0x41))
    else none
  value.bind fun v => if v < base then some v else none

def strtoul16 (arch : Arch) (nptr : List UInt16) (base : Nat) : Parsed UInt16 :=
  let start := skipPrefix 0x30 0x78 nptr base
  let read := readDigits (fun c => toDigit16 c start.2) arch.uintnBits start.2 start.1 0
  { value := read.1, endptr := read.2 }

/-!
# The number a string denotes
-/

def numberOf (text : List UInt8) (base : Nat) : Nat :=
  let start := skipPrefix 0x30 0x78 text base
  denotes start.2 (leadingDigits (fun c => toDigit c start.2) start.1)

theorem toDigit16_widen (c : UInt8) (base : Nat) : toDigit16 c.toUInt16 base = toDigit c base := by
  simp only [toDigit16, toDigit, UInt16.le_iff_toNat_le, UInt8.le_iff_toNat_le,
    UInt8.toNat_toUInt16]
  rfl

theorem skipPrefix_widen (text : List UInt8) (base : Nat) :
    skipPrefix 0x30 0x78 (text.map UInt8.toUInt16) base =
      ((skipPrefix 0x30 0x78 text base).1.map UInt8.toUInt16,
        (skipPrefix 0x30 0x78 text base).2) := by
  have hinjective : Function.Injective UInt8.toUInt16 := by
    intro c d h
    have hvalue := congrArg UInt16.toNat h
    rwa [UInt8.toNat_toUInt16, UInt8.toNat_toUInt16, UInt8.toNat_inj] at hvalue
  have htake : (text.map UInt8.toUInt16).take 2 = [0x30, 0x78] <->
      text.take 2 = [0x30, 0x78] := by
    rw [← List.map_take]
    change _ = List.map UInt8.toUInt16 [0x30, 0x78] <-> _
    exact List.map_inj_right fun c d h => hinjective h
  unfold skipPrefix
  simp only [List.length_map, htake]
  split
  · rw [List.map_drop]
  · rfl

def afterNumber (text : List UInt8) (base : Nat) : List UInt8 :=
  let start := skipPrefix 0x30 0x78 text base
  start.1.drop (leadingDigits (fun c => toDigit c start.2) start.1).length

theorem posixStrtoul_eq (arch : Arch) (text : List UInt8) (base : Nat) :
    posixStrtoul arch text base =
      { value := unsignedLong arch (numberOf text base % 2 ^ 32),
        endptr := afterNumber text base } := by
  simp only [posixStrtoul, numberOf, afterNumber, readDigits_zero, readDigits_rest]

theorem strtoul16_eq (arch : Arch) (text : List UInt8) (base : Nat) :
    strtoul16 arch (text.map UInt8.toUInt16) base =
      { value := numberOf text base % 2 ^ arch.uintnBits,
        endptr := (afterNumber text base).map UInt8.toUInt16 } := by
  have hdigits : leadingDigits (fun c => toDigit16 c (skipPrefix 0x30 0x78 text base).2)
      ((skipPrefix 0x30 0x78 text base).1.map UInt8.toUInt16) =
        leadingDigits (fun c => toDigit c (skipPrefix 0x30 0x78 text base).2)
          (skipPrefix 0x30 0x78 text base).1 :=
    leadingDigits_map (fun c => toDigit16_widen c _) _
  simp only [strtoul16, numberOf, afterNumber, skipPrefix_widen, readDigits_zero,
    readDigits_rest, hdigits, List.map_drop]

theorem strtoulLoop_eq (base : Nat) (text : List UInt8) (value : Nat) :
    strtoulLoop base text value =
      (readDigits (fun c => toDigit c base) 32 base text value).1 := by
  induction text generalizing value with
  | nil => rfl
  | cons c cs ih =>
      simp only [strtoulLoop, readDigits]
      cases toDigit c base with
      | none => rfl
      | some d => exact ih _

theorem strtoul_eq (text : List UInt8) (base : Nat) :
    strtoul text base = numberOf text base % 2 ^ 32 := by
  have hprefix : ascii "0x" = [0x30, 0x78] := by decide
  simp only [strtoul, numberOf, skipPrefix, hprefix, strtoulLoop_eq, readDigits_zero]
  split
  · rfl
  · rfl

theorem downloadSize_rule : HandlerRule fun s t => t.downloadSize = s.downloadSize where
  refl := fun _ => rfl
  trans := fun _ _ _ hst htu => htu.trans hst
  queued := fun _ _ => rfl
  state := fun _ _ _ => rfl
  cursor := fun _ _ => rfl
  stops := fun _ => rfl

theorem cmdDownload_downloadSize (arg : List UInt8) (a : Answers) (m : Machine) :
    (cmdDownload arg a m).downloadSize = strtoul arg 16 := by
  rcases cmdDownload_cases arg a m with ⟨-, heq⟩ | ⟨-, -, heq⟩ | ⟨-, -, -, heq⟩ | ⟨-, -, -, heq⟩
  · rw [heq]
    exact downloadSize_rule.fastbootFail _ _ _
  · rw [heq]
    exact downloadSize_rule.fastbootFail _ _ _
  · rw [heq]
    exact downloadSize_rule.fastbootFail _ _ _
  · rw [heq]
    unfold usbRead
    split
    · rfl
    · rfl

/-!
# When the number is read
-/

/-- The two readers agree, and return the number that the string denotes. -/
structure ReadsNumber (arch : Arch) (text : List UInt8) (base : Nat) : Prop where
  consumed : (strtoul16 arch (text.map UInt8.toUInt16) base).endptr =
    (posixStrtoul arch text base).endptr.map UInt8.toUInt16
  same : (strtoul16 arch (text.map UInt8.toUInt16) base).value =
    (posixStrtoul arch text base).value
  number : (posixStrtoul arch text base).value = numberOf text base % 2 ^ arch.uintnBits
  download : base = 16 -> forall a m,
    (cmdDownload text a m).downloadSize = numberOf text base % 2 ^ arch.uintnBits

/-- The number in 64 bits is one that an `int` has, for a download not a negative one. -/
def FitsInt (number base : Nat) : Prop :=
  number % 2 ^ 64 < 2 ^ 31 ∨ (base ≠ 16 ∧ 2 ^ 64 - 2 ^ 31 ≤ number % 2 ^ 64)

instance (number base : Nat) : Decidable (FitsInt number base) :=
  inferInstanceAs (Decidable (_ ∨ _))

theorem unsignedLong_x64_iff (number : Nat) :
    unsignedLong Arch.x64 (number % 2 ^ 32) = number % 2 ^ 64 <->
      number % 2 ^ 64 < 2 ^ 31 ∨ 2 ^ 64 - 2 ^ 31 ≤ number % 2 ^ 64 := by
  unfold unsignedLong
  dsimp only
  split
  · omega
  · omega

/-- The number is read on a 32-bit machine, and on a 64-bit one if it fits an `int`. -/
theorem readsNumber_iff (arch : Arch) (text : List UInt8) (base : Nat) :
    ReadsNumber arch text base <-> (arch = Arch.x64 -> FitsInt (numberOf text base) base) := by
  have hsize : base = 16 -> forall a m, (cmdDownload text a m).downloadSize =
      numberOf text base % 2 ^ 32 := by
    intro hbase a m
    rw [cmdDownload_downloadSize, strtoul_eq, hbase]
  constructor
  · intro h harch
    subst harch
    have hnumber := h.number
    rw [posixStrtoul_eq] at hnumber
    rcases (unsignedLong_x64_iff _).mp hnumber with hsmall | hlarge
    · exact Or.inl hsmall
    · right
      refine ⟨?_, hlarge⟩
      intro hbase
      have hdownload := h.download hbase Answers.plain waitingDevice
      rw [hsize hbase] at hdownload
      change _ = numberOf text base % 2 ^ 64 at hdownload
      omega
  · intro hfits
    have hnumber : unsignedLong arch (numberOf text base % 2 ^ 32) =
        numberOf text base % 2 ^ arch.uintnBits := by
      cases arch with
      | ia32 => rfl
      | x64 => exact (unsignedLong_x64_iff _).mpr ((hfits rfl).imp_right And.right)
    refine ⟨?_, ?_, ?_, ?_⟩
    · rw [strtoul16_eq, posixStrtoul_eq]
    · rw [strtoul16_eq, posixStrtoul_eq]
      exact hnumber.symm
    · rw [posixStrtoul_eq]
      exact hnumber
    · intro hbase a m
      rw [hsize hbase]
      cases arch with
      | ia32 => rfl
      | x64 =>
          have hsmall := (hfits rfl).resolve_right fun h => h.1 hbase
          change _ = numberOf text base % 2 ^ 64
          omega

/-- `download:100000000` announces 4 GiB and is taken for an empty download. -/
theorem strtoul_loses_number :
    posixStrtoul Arch.x64 (ascii "100000000") 16 = { value := 0, endptr := [] } ∧
      strtoul16 Arch.x64 ((ascii "100000000").map UInt8.toUInt16) 16 =
        { value := 2 ^ 32, endptr := [] } ∧
      (cmdDownload (ascii "100000000") Answers.plain waitingDevice).downloadSize = 0 ∧
      ¬ ReadsNumber Arch.x64 (ascii "100000000") 16 := by
  have hint : posixStrtoul Arch.x64 (ascii "100000000") 16 = { value := 0, endptr := [] } := by
    decide +kernel
  have hword : strtoul16 Arch.x64 ((ascii "100000000").map UInt8.toUInt16) 16 =
      { value := 2 ^ 32, endptr := [] } := by
    decide +kernel
  refine ⟨hint, hword, ?_, ?_⟩
  · rw [cmdDownload_downloadSize]
    decide +kernel
  · intro h
    have hsame := h.same
    rw [hint, hword] at hsame
    exact absurd hsame (by decide)

end Fastboot
end BootableUefi
