import BootableUefi.Fastboot.Variables
import BootableUefi.Gpt.Labels
import Mathlib.Data.List.TakeWhile
import Mathlib.Data.Nat.Digits.Lemmas

/-!
# Printing to a buffer

`snprintf` prints to wide units first and then goes back to bytes, which it can
do for ASCII only.  A name is printed up to its first NUL, which need not be in
the field it stands in.
-/

namespace BootableUefi
namespace Fastboot

open Firmware Foundation Gpt

/-- `str_to_stra`, which refuses all but ASCII. -/
def strToStra (src : List UInt16) : Option (List UInt8) :=
  if src.all fun c => c ≤ 0x7f then some (src.map UInt16.toUInt8) else none

/-- `snprintf` to a buffer of so many bytes, for the text it prints; `none` is -1. -/
def snprintf (alloc : Bool) (size : Nat) (text : List UInt16) : Option (List UInt8) :=
  if alloc then strToStra (text.take (size - 1)) else none

def wide (text : List UInt8) : List UInt16 :=
  text.map UInt8.toUInt16

/-- What `%s` prints of a string in memory, as far as it can find room. -/
def printedString (units : Nat -> UInt16) : List UInt16 :=
  fieldString 0 (field units maxVariableLength)

/-- What "0x%lX" prints, and what is relied on of it. -/
structure HexPrinter where
  text : UInt64 -> List UInt8
  ascii : forall n, ((text n).all fun c => c ≤ 0x7f) = true
  length_le : forall n, (text n).length ≤ 18

/-!
# Text before a name
-/

theorem strToStra_wide {p : List UInt8} (hp : (p.all fun c => c ≤ 0x7f) = true)
    (text : List UInt16) :
    strToStra (wide p ++ text) = (strToStra text).map fun name => p ++ name := by
  have hwide : ((wide p).all fun c => c ≤ 0x7f) = true := by
    rw [List.all_eq_true] at hp ⊢
    intro c hc
    rcases List.mem_map.mp hc with ⟨d, hd, rfl⟩
    have hle := hp d hd
    rw [decide_eq_true_iff, UInt8.le_iff_toNat_le] at hle
    rw [decide_eq_true_iff, UInt16.le_iff_toNat_le, UInt8.toNat_toUInt16]
    exact hle
  have hback : (wide p).map UInt16.toUInt8 = p := by
    unfold wide
    rw [List.map_map]
    exact (List.map_congr_left fun c _ => UInt8.toUInt8_toUInt16 c).trans (List.map_id p)
  unfold strToStra
  rw [List.all_append, hwide, Bool.true_and, List.map_append, hback]
  split
  · rfl
  · rfl

theorem snprintf_wide {p : List UInt8} (hp : (p.all fun c => c ≤ 0x7f) = true)
    {text : List UInt16} (hroom : p.length + text.length < maxVariableLength) (alloc : Bool) :
    snprintf alloc maxVariableLength (wide p ++ text) =
      if alloc then (strToStra text).map fun name => p ++ name else none := by
  have hall : (wide p ++ text).take (maxVariableLength - 1) = wide p ++ text := by
    apply List.take_of_length_le
    unfold wide
    rw [List.length_append, List.length_map]
    omega
  unfold snprintf
  rw [hall, strToStra_wide hp]

theorem strToStra_append_none {text : List UInt16} (h : strToStra text = none)
    (rest : List UInt16) : strToStra (text ++ rest) = none := by
  unfold strToStra at h ⊢
  split at h
  · cases h
  · rename_i hnot
    rw [List.all_append, Bool.eq_false_of_not_eq_true hnot, Bool.false_and]
    rfl

theorem length_of_strToStra {text : List UInt16} {name : List UInt8}
    (h : strToStra text = some name) : name.length = text.length := by
  unfold strToStra at h
  split at h
  · cases h
    exact List.length_map _
  · cases h

/-!
# Printing a number
-/

def hexDigit (d : Nat) : UInt8 :=
  UInt8.ofNat (if d < 10 then 0x30 + d else 0x37 + d)

def hexText (n : Nat) : List UInt8 :=
  ascii "0x" ++ if n = 0 then [hexDigit 0] else (Nat.digits 16 n).reverse.map hexDigit

theorem hexDigit_le {d : Nat} (hd : d < 16) : hexDigit d ≤ 0x7f := by
  have hcode : (if d < 10 then 0x30 + d else 0x37 + d) < 0x7f := by
    split <;> omega
  unfold hexDigit
  rw [UInt8.le_iff_toNat_le, UInt8.toNat_ofNat', Nat.mod_eq_of_lt (by omega)]
  exact Nat.le_of_lt hcode

theorem hexText_ascii (n : Nat) : ((hexText n).all fun c => c ≤ 0x7f) = true := by
  have hprefix : ((ascii "0x").all fun c => c ≤ 0x7f) = true := by
    decide
  unfold hexText
  rw [List.all_append, hprefix, Bool.true_and]
  split
  · decide
  · rw [List.all_eq_true]
    intro c hc
    rcases List.mem_map.mp hc with ⟨d, hd, rfl⟩
    rw [List.mem_reverse] at hd
    exact decide_eq_true (hexDigit_le (Nat.digits_lt_base (by decide) hd))

theorem length_hexText_le {n : Nat} (hn : n < 2 ^ 64) : (hexText n).length ≤ 18 := by
  have hdigits : (Nat.digits 16 n).length ≤ 16 :=
    (Nat.digits_length_le_iff (by decide) n).mpr hn
  unfold hexText
  rw [List.length_append]
  split
  · decide
  · rw [List.length_map, List.length_reverse]
    change 2 + (Nat.digits 16 n).length ≤ 18
    omega

/-- The digits from the highest on, with capital letters. -/
def upperHex : HexPrinter where
  text := fun n => hexText n.toNat
  ascii := fun n => hexText_ascii n.toNat
  length_le := fun n => length_hexText_le n.toNat_lt

theorem HexPrinter.snprintf_text (hex : HexPrinter) (alloc : Bool) (n : UInt64) :
    snprintf alloc maxVariableLength (wide (hex.text n)) =
      if alloc then some (hex.text n) else none := by
  have hlength := hex.length_le n
  have hroom : (hex.text n).length + ([] : List UInt16).length < maxVariableLength := by
    change (hex.text n).length + 0 < 128
    omega
  have hprint := snprintf_wide (hex.ascii n) hroom alloc
  rw [List.append_nil] at hprint
  rw [hprint]
  cases alloc with
  | false => rfl
  | true => exact congrArg some (List.append_nil _)

/-!
# Names that fill their field
-/

section Names

variable (units : Nat -> UInt16)

theorem printedString_of_nul (hnul : 0 ∈ field units nameWidth) :
    printedString units = fieldString 0 (field units nameWidth) := by
  have hshort : ((field units nameWidth).takeWhile fun c => decide (c ≠ 0)).length
      ≠ (field units nameWidth).length := by
    intro heq
    have hall := (List.takeWhile_prefix fun c : UInt16 => decide (c ≠ 0)).eq_of_length heq
    rw [List.takeWhile_eq_self_iff] at hall
    exact absurd rfl (of_decide_eq_true (hall 0 hnul))
  unfold printedString fieldString
  rw [show maxVariableLength = nameWidth + 92 from rfl, field_add, List.takeWhile_append,
    if_neg hshort]

theorem printedString_of_full (hfull : 0 ∉ field units nameWidth) :
    fieldString 0 (field units nameWidth) = field units nameWidth ∧
      printedString units =
        field units nameWidth ++ fieldString 0 (field (fun i => units (nameWidth + i)) 92) := by
  have hall : (field units nameWidth).takeWhile (fun c => decide (c ≠ 0))
      = field units nameWidth := by
    rw [List.takeWhile_eq_self_iff]
    intro c hc
    apply decide_eq_true
    rintro rfl
    exact hfull hc
  refine ⟨hall, ?_⟩
  unfold printedString fieldString
  rw [show maxVariableLength = nameWidth + 92 from rfl, field_add, List.takeWhile_append, hall,
    if_pos rfl]

theorem behind_eq_nil_iff :
    fieldString 0 (field (fun i => units (nameWidth + i)) 92) = [] <-> units nameWidth = 0 := by
  rw [show 92 = 91 + 1 from rfl, field_succ]
  change fieldString 0 (units nameWidth :: _) = [] <-> _
  by_cases hnul : units nameWidth = 0
  · rw [hnul, fieldString_nul]
    exact iff_of_true rfl rfl
  · rw [fieldString_cons hnul]
    exact iff_of_false (List.cons_ne_nil _ _) hnul

end Names

end Fastboot
end BootableUefi
