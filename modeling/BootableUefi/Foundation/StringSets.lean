import BootableUefi.Foundation.Occurrences

/-!
# Sets of strings in memory

A set is a sequence of terminated strings that are not empty, and ends with an
empty one.
-/

namespace Foundation

variable {Char : Type _} {nul : Char} {units : Nat -> Char} {p : Nat}
  {s : List Char} {strings : List (List Char)}

def HoldsStrings (nul : Char) (units : Nat -> Char) : Nat -> List (List Char) -> Prop
  | p, [] => units p = nul
  | p, s :: strings =>
      s ≠ [] ∧ ReadsAs nul units p s ∧ HoldsStrings nul units (p + s.length + 1) strings

/-- How far behind its beginning the empty string is that ends the set. -/
def setSize : List (List Char) -> Nat
  | [] => 0
  | s :: strings => s.length + 1 + setSize strings

/-- The string at the beginning of a set: the first one, or the empty one. -/
theorem HoldsStrings.readsAs (h : HoldsStrings nul units p strings) :
    ReadsAs nul units p (strings.headD []) := by
  cases strings with
  | nil => exact h
  | cons s strings => exact h.2.1

theorem ReadsAs.eq_nul_iff (h : ReadsAs nul units p s) : units p = nul <-> s = [] := by
  cases s with
  | nil => exact ⟨fun _ => rfl, fun _ => h⟩
  | cons c cs =>
      have hne : units p ≠ nul := h.1 ▸ h.2.1
      simp [hne]

theorem length_headD_le_setSize (strings : List (List Char)) :
    (strings.headD []).length ≤ setSize strings := by
  cases strings with
  | nil => exact Nat.le_refl 0
  | cons s strings =>
      change s.length ≤ s.length + 1 + setSize strings
      omega

end Foundation
