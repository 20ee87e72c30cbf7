import Mathlib.Data.List.TakeWhile

/-!
# A cursor that skips units of a text

The cursor moves on while the units have a property.  It has left the text if
there is no unit at its place.
-/

namespace Foundation

variable {Char : Type _} {p : Char -> Bool}

/-- The place of the first unit without the property; `none` if the text ends before. -/
def skipWhile (p : Char -> Bool) : List Char -> Nat -> Option Nat
  | [], _ => none
  | c :: text, n => if p c then skipWhile p text (n + 1) else some n

/-- The same loop with a bound, which is looked at first. -/
def skipBelow (p : Char -> Bool) (bound : Nat) : List Char -> Nat -> Option Nat
  | [], n => if n < bound then none else some n
  | c :: text, n => if n < bound then
      if p c then skipBelow p bound text (n + 1) else some n
    else
      some n

theorem skipWhile_append {run : List Char} (hrun : forall c, c ∈ run -> p c = true) {c : Char}
    (hstop : p c = false) (rest : List Char) (n : Nat) :
    skipWhile p (run ++ c :: rest) n = some (n + run.length) := by
  induction run generalizing n with
  | nil =>
      change (if p c then _ else some n) = some n
      rw [hstop]
      rfl
  | cons d run ih =>
      have hd : p d = true := hrun d (List.mem_cons_self ..)
      have htail := ih (fun x hx => hrun x (List.mem_cons_of_mem d hx)) (n + 1)
      change (if p d then skipWhile p (run ++ c :: rest) (n + 1) else some n) = _
      rw [if_pos hd, htail, List.length_cons]
      exact congrArg some (by omega)

theorem skipWhile_eq_some {text : List Char} {n m : Nat} (h : skipWhile p text n = some m) :
    exists run c rest, text = run ++ c :: rest ∧ (forall x, x ∈ run -> p x = true) ∧
      p c = false ∧ m = n + run.length := by
  induction text generalizing n with
  | nil => cases h
  | cons d text ih =>
      rw [skipWhile] at h
      cases hd : p d with
      | false =>
          rw [hd, if_neg Bool.false_ne_true] at h
          cases h
          exact ⟨[], d, text, rfl, fun x hx => absurd hx List.not_mem_nil, hd, rfl⟩
      | true =>
          rw [hd, if_pos rfl] at h
          rcases ih h with ⟨run, c, rest, htext, hrun, hstop, hm⟩
          refine ⟨d :: run, c, rest, congrArg _ htext, ?_, hstop, ?_⟩
          · intro x hx
            rcases List.mem_cons.mp hx with rfl | hx
            · exact hd
            · exact hrun x hx
          · rw [hm, List.length_cons]
            omega

/-- A bound behind the text is never reached. -/
theorem skipBelow_eq {bound : Nat} {text : List Char} {n : Nat}
    (hbound : n + text.length < bound) :
    skipBelow p bound text n = skipWhile p text n := by
  induction text generalizing n with
  | nil => exact if_pos hbound
  | cons c text ih =>
      rw [List.length_cons] at hbound
      have hlt : n < bound := by omega
      have htail := ih (n := n + 1) (by omega)
      rw [skipBelow, if_pos hlt, skipWhile, htail]

theorem dropWhile_run {run : List Char} (hrun : forall c, c ∈ run -> p c = true) {c : Char}
    (hstop : p c = false) (rest : List Char) :
    (run ++ c :: rest).dropWhile p = c :: rest := by
  rw [List.dropWhile_append_of_pos hrun, List.dropWhile_cons_of_neg]
  rw [hstop]
  exact Bool.false_ne_true

theorem skipWhile_eq_none_iff {text : List Char} {n : Nat} :
    skipWhile p text n = none <-> text.dropWhile p = [] := by
  cases h : skipWhile p text n with
  | some m =>
      rcases skipWhile_eq_some h with ⟨run, c, rest, rfl, hrun, hstop, -⟩
      rw [dropWhile_run hrun hstop]
      simp
  | none =>
      refine ⟨fun _ => ?_, fun _ => rfl⟩
      induction text generalizing n with
      | nil => rfl
      | cons d text ih =>
          rw [skipWhile] at h
          split at h
          · rename_i hd
            rw [List.dropWhile_cons_of_pos hd]
            exact ih h
          · cases h

theorem exists_skipWhile_iff {text : List Char} {n : Nat} :
    (exists m, skipWhile p text n = some m) <-> exists c, c ∈ text ∧ p c = false := by
  constructor
  · rintro ⟨m, h⟩
    rcases skipWhile_eq_some h with ⟨run, c, rest, rfl, -, hstop, -⟩
    exact ⟨c, List.mem_append_right run (List.mem_cons_self ..), hstop⟩
  · rintro ⟨c, hc, hstop⟩
    rw [← Option.isSome_iff_exists, Option.isSome_iff_ne_none, ne_eq, skipWhile_eq_none_iff,
      List.dropWhile_eq_nil_iff]
    intro hall
    rw [hall c hc] at hstop
    cases hstop

theorem drop_of_skipWhile {text : List Char} {n m : Nat}
    (h : skipWhile p (text.drop n) n = some m) :
    text.drop m = (text.drop n).dropWhile p := by
  rcases skipWhile_eq_some h with ⟨run, c, rest, htext, hrun, hstop, rfl⟩
  rw [← List.drop_drop, htext, List.drop_left, dropWhile_run hrun hstop]

end Foundation
