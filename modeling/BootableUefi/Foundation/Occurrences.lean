import BootableUefi.Foundation.Strings
import BootableUefi.Foundation.Words

/-!
# The first place in a text

A search goes through the tails of a text, as far as they are not empty, and
stops at the first one that it is looking for.
-/

namespace Foundation

variable {Char : Type _}

/-- The place of the first tail with the property, or that no tail has it. -/
def FirstTail (p : List Char -> Prop) (text : List Char) : Option Nat -> Prop
  | none => forall i, i < text.length -> ¬ p (text.drop i)
  | some i => i < text.length ∧ p (text.drop i) ∧ forall j, j < i -> ¬ p (text.drop j)

section FirstTail

variable {p : List Char -> Prop} {c : Char} {cs : List Char}

theorem firstTail_nil : FirstTail p [] none :=
  fun i hi => absurd hi (Nat.not_lt_zero i)

theorem firstTail_here (h : p (c :: cs)) : FirstTail p (c :: cs) (some 0) :=
  ⟨Nat.zero_lt_succ _, h, fun j hj => absurd hj (Nat.not_lt_zero j)⟩

theorem firstTail_later (h : ¬ p (c :: cs)) {found : Option Nat}
    (hrest : FirstTail p cs found) : FirstTail p (c :: cs) (found.map fun i => i + 1) := by
  cases found with
  | none =>
      intro i hi
      cases i with
      | zero => exact h
      | succ i => exact hrest i (Nat.lt_of_succ_lt_succ hi)
  | some i =>
      rcases hrest with ⟨hi, hp, hfirst⟩
      refine ⟨Nat.succ_lt_succ hi, hp, ?_⟩
      intro j hj
      cases j with
      | zero => exact h
      | succ j => exact hfirst j (Nat.lt_of_succ_lt_succ hj)

theorem FirstTail.unique {text : List Char} {found found' : Option Nat}
    (h : FirstTail p text found) (h' : FirstTail p text found') : found = found' := by
  cases found with
  | none =>
      cases found' with
      | none => rfl
      | some i => exact absurd h'.2.1 (h i h'.1)
  | some i =>
      cases found' with
      | none => exact absurd h.2.1 (h' i h.1)
      | some j =>
          rcases Nat.lt_trichotomy i j with hlt | rfl | hgt
          · exact absurd h.2.1 (h'.2.2 i hlt)
          · rfl
          · exact absurd h'.2.1 (h.2.2 j hgt)

end FirstTail

def OccursAt (needle text : List Char) (i : Nat) : Prop :=
  needle <+: text.drop i

theorem OccursAt.lt {needle text : List Char} {i : Nat} (h : OccursAt needle text i)
    (hne : needle ≠ []) : i < text.length := by
  by_contra hpast
  have hempty : text.drop i = [] := List.drop_eq_nil_of_le (Nat.le_of_not_lt hpast)
  rw [OccursAt, hempty, List.prefix_nil] at h
  exact hne h

/-- The place of the leftmost occurrence, or that there is none. -/
def Leftmost (needle text : List Char) : Option Nat -> Prop
  | none => forall i, ¬ OccursAt needle text i
  | some i => OccursAt needle text i ∧ forall j, j < i -> ¬ OccursAt needle text j

theorem leftmost_iff_firstTail {needle text : List Char} (hne : needle ≠ [])
    (found : Option Nat) :
    Leftmost needle text found <-> FirstTail (fun tail => needle <+: tail) text found := by
  cases found with
  | none =>
      constructor
      · exact fun h i _ => h i
      · exact fun h i hoccurs => h i (hoccurs.lt hne) hoccurs
  | some i =>
      constructor
      · exact fun h => ⟨h.1.lt hne, h.1, h.2⟩
      · exact fun h => ⟨h.2.1, h.2.2⟩

/-!
# Strings in memory
-/

section Memory

variable {nul : Char} {units : Nat -> Char} {p : Nat} {text : List Char}

theorem carries_from_cons {d : Char} {word : List Char} :
    Carries (fun i => units (p + i)) (d :: word) <->
      units p = d ∧ Carries (fun i => units (p + 1 + i)) word := by
  have hshift : (fun i => units (p + (i + 1))) = fun i => units (p + 1 + i) := by
    funext i
    congr 1
    omega
  rw [← hshift]
  rfl

theorem carries_iff_of_readsAs (hreads : ReadsAs nul units p text) {word : List Char}
    (hword : nul ∉ word) :
    Carries (fun i => units (p + i)) word <-> word <+: text := by
  induction word generalizing p text with
  | nil => simp [Carries]
  | cons d word ih =>
      rw [List.mem_cons, not_or] at hword
      rw [carries_from_cons]
      cases text with
      | nil =>
          have hend : units p = nul := hreads
          rw [hend]
          simp [hword.1]
      | cons c cs =>
          rcases hreads with ⟨hfirst, -, hrest⟩
          rw [ih hrest hword.2, hfirst, List.cons_prefix_cons, eq_comm]

theorem carries_end_iff_of_readsAs (hreads : ReadsAs nul units p text) {word : List Char}
    (hword : nul ∉ word) :
    Carries (fun i => units (p + i)) (word ++ [nul]) <-> text = word := by
  induction word generalizing p text with
  | nil =>
      rw [List.nil_append, carries_from_cons]
      cases text with
      | nil =>
          have hend : units p = nul := hreads
          simp [hend, Carries]
      | cons c cs =>
          rcases hreads with ⟨hfirst, hne, -⟩
          simp [hfirst, hne]
  | cons d word ih =>
      rw [List.mem_cons, not_or] at hword
      rw [List.cons_append, carries_from_cons]
      cases text with
      | nil =>
          have hend : units p = nul := hreads
          rw [hend]
          simp [hword.1]
      | cons c cs =>
          rcases hreads with ⟨hfirst, -, hrest⟩
          rw [ih hrest hword.2, hfirst, List.cons.injEq]

/-- Memory that holds a list and terminators after it holds it as a string. -/
theorem readsAs_of_getD (htext : nul ∉ text) (h : forall i, units (p + i) = text.getD i nul) :
    ReadsAs nul units p text := by
  induction text generalizing p with
  | nil => exact h 0
  | cons c cs ih =>
      rw [List.mem_cons, not_or] at htext
      refine ⟨h 0, Ne.symm htext.1, ih htext.2 ?_⟩
      intro i
      rw [show p + 1 + i = p + (i + 1) by omega, h (i + 1)]
      rfl

end Memory

end Foundation
