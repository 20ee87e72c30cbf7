import Mathlib.Data.List.Basic

/-!
# Terminated strings in memory

Memory is a function from places to units, and a string in it ends at the first
unit that is the terminator.  A field of fixed width holds a string too, with or
without room for its terminator.
-/

namespace Foundation

variable {Char : Type _}

/-- The units from the first place on begin with these. -/
def Carries : (Nat -> Char) -> List Char -> Prop
  | _, [] => True
  | units, c :: cs => units 0 = c ∧ Carries (fun i => units (i + 1)) cs

/-- The first `width` units. -/
def field (units : Nat -> Char) (width : Nat) : List Char :=
  (List.range width).map units

theorem field_succ (units : Nat -> Char) (width : Nat) :
    field units (width + 1) = units 0 :: field (fun i => units (i + 1)) width := by
  simp [field, List.range_succ_eq_map, Function.comp_def]

theorem length_field (units : Nat -> Char) (width : Nat) :
    (field units width).length = width := by
  unfold field
  rw [List.length_map, List.length_range]

theorem field_add (units : Nat -> Char) (n m : Nat) :
    field units (n + m) = field units n ++ field (fun i => units (n + i)) m := by
  unfold field
  rw [List.range_add, List.map_append, List.map_map]
  rfl

theorem field_congr {units units' : Nat -> Char} {width : Nat}
    (h : forall i, i < width -> units i = units' i) : field units width = field units' width :=
  List.map_congr_left fun i hi => h i (List.mem_range.mp hi)

theorem field_eq {units : Nat -> Char} {text : List Char}
    (h : forall i (hi : i < text.length), units i = text[i]) : field units text.length = text := by
  apply List.ext_getElem (length_field units text.length)
  intro i hi htext
  rw [← h i htext]
  simp [field]

section Field

variable [DecidableEq Char] {nul : Char}

/-- The string a field holds: up to the terminator, or all of the field. -/
def fieldString (nul : Char) (units : List Char) : List Char :=
  units.takeWhile fun c => c ≠ nul

theorem fieldString_cons {c : Char} (hc : c ≠ nul) (units : List Char) :
    fieldString nul (c :: units) = c :: fieldString nul units := by
  simp [fieldString, hc]

theorem fieldString_nul (units : List Char) : fieldString nul (nul :: units) = [] := by
  simp [fieldString]

/-- A field holds a string if it begins with it, and ends it unless it is full. -/
theorem fieldString_field_iff {text : List Char} (htext : forall c, c ∈ text -> c ≠ nul)
    (units : Nat -> Char) (width : Nat) :
    fieldString nul (field units width) = text <->
      Carries units text ∧ text.length ≤ width ∧
        (text.length < width -> units text.length = nul) := by
  induction text generalizing units width with
  | nil =>
      cases width with
      | zero => simp [fieldString, field, Carries]
      | succ width => simp [fieldString, field_succ, Carries, List.takeWhile_cons]
  | cons c cs ih =>
      have hc : c ≠ nul := htext c (List.mem_cons_self ..)
      cases width with
      | zero => simp [fieldString, field, Carries]
      | succ width =>
          have hrest := ih (fun d hd => htext d (List.mem_cons_of_mem c hd))
            (fun i => units (i + 1)) width
          rw [field_succ]
          by_cases hnul : units 0 = nul
          · have hfirst : nul ≠ c := Ne.symm hc
            simp [hnul, fieldString_nul, Carries, hfirst]
          · rw [fieldString_cons hnul, List.cons.injEq, hrest]
            simp [Carries, and_assoc]

end Field

end Foundation
