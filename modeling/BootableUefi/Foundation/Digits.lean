import Mathlib.Data.Nat.Digits.Defs
import Mathlib.Tactic.Ring

/-!
# Numbers read digit by digit

A reader takes characters as long as they are digits, and accumulates their
value in a machine word.
-/

namespace Foundation

variable {Char Char' : Type _}

/-- The digits at the front of a text. -/
def leadingDigits (digit : Char -> Option Nat) : List Char -> List Nat
  | [] => []
  | c :: cs =>
      match digit c with
      | none => []
      | some d => d :: leadingDigits digit cs

def denotes (base : Nat) (digits : List Nat) : Nat :=
  Nat.ofDigits base digits.reverse

/-- The value in a word of `bits` bits after the digits, and the text after them. -/
def readDigits (digit : Char -> Option Nat) (bits base : Nat) :
    List Char -> Nat -> Nat × List Char
  | [], value => (value, [])
  | c :: cs, value =>
      match digit c with
      | none => (value, c :: cs)
      | some d => readDigits digit bits base cs ((value * base + d) % 2 ^ bits)

theorem denotes_cons (base d : Nat) (ds : List Nat) :
    denotes base (d :: ds) = d * base ^ ds.length + denotes base ds := by
  unfold denotes
  rw [List.reverse_cons, Nat.ofDigits_append, Nat.ofDigits_singleton, List.length_reverse]
  ring

theorem denotes_lt {base : Nat} {ds : List Nat} (h : forall d, d ∈ ds -> d < base) :
    denotes base ds < base ^ ds.length := by
  induction ds with
  | nil => exact Nat.one_pos
  | cons d ds ih =>
      have hrest := ih fun e he => h e (List.mem_cons_of_mem d he)
      have hfirst := Nat.mul_le_mul_right (base ^ ds.length) (h d (List.mem_cons_self ..))
      rw [denotes_cons, List.length_cons, Nat.pow_succ']
      rw [Nat.succ_mul] at hfirst
      omega

/-- Each digit is read off the number, the most significant one first. -/
theorem denotes_digit {base : Nat} {ds : List Nat} (h : forall d, d ∈ ds -> d < base) {k : Nat}
    (hk : k < ds.length) : denotes base ds / base ^ (ds.length - 1 - k) % base = ds[k] := by
  induction ds generalizing k with
  | nil => cases hk
  | cons d ds ih =>
      have hrest : forall e, e ∈ ds -> e < base := fun e he => h e (List.mem_cons_of_mem d he)
      have hd := h d (List.mem_cons_self ..)
      have hpos : forall e, 0 < base ^ e := fun e => Nat.pow_pos (by omega)
      rw [denotes_cons]
      cases k with
      | zero =>
          rw [List.length_cons, Nat.sub_zero, Nat.add_sub_cancel, Nat.mul_comm,
            Nat.mul_add_div (hpos _), Nat.div_eq_of_lt (denotes_lt hrest), Nat.add_zero,
            Nat.mod_eq_of_lt hd]
          rfl
      | succ k =>
          rw [List.length_cons] at hk ⊢
          have hplace : ds.length + 1 - 1 - (k + 1) = ds.length - 1 - k := by omega
          have hsplit : base ^ ds.length = base ^ (ds.length - 1 - k) * (base * base ^ k) := by
            rw [← Nat.pow_succ', ← Nat.pow_add]
            congr 1
            omega
          have hshift : d * base ^ ds.length =
              base ^ (ds.length - 1 - k) * (base * (d * base ^ k)) := by
            rw [hsplit]
            ring
          rw [hplace, hshift, Nat.mul_add_div (hpos _), Nat.mul_add_mod]
          exact ih hrest (Nat.lt_of_succ_lt_succ hk)

section ReadDigits

variable (digit : Char -> Option Nat) (bits base : Nat)

/-- Reducing after every digit is reducing once. -/
theorem readDigits_value (text : List Char) (value : Nat) :
    (readDigits digit bits base text (value % 2 ^ bits)).1 =
      (value * base ^ (leadingDigits digit text).length +
        denotes base (leadingDigits digit text)) % 2 ^ bits := by
  induction text generalizing value with
  | nil => simp [readDigits, leadingDigits, denotes]
  | cons c cs ih =>
      cases hdigit : digit c with
      | none => simp [readDigits, leadingDigits, denotes, hdigit]
      | some d =>
          have hstep : (value % 2 ^ bits * base + d) % 2 ^ bits =
              (value * base + d) % 2 ^ bits := by
            rw [Nat.add_mod, Nat.mod_mul_mod, ← Nat.add_mod]
          simp only [readDigits, leadingDigits, hdigit]
          rw [hstep, ih, denotes_cons, List.length_cons, Nat.pow_succ]
          congr 1
          ring

theorem readDigits_zero (text : List Char) :
    (readDigits digit bits base text 0).1 =
      denotes base (leadingDigits digit text) % 2 ^ bits := by
  have hvalue := readDigits_value digit bits base text 0
  rwa [Nat.zero_mod, Nat.zero_mul, Nat.zero_add] at hvalue

theorem readDigits_rest (text : List Char) (value : Nat) :
    (readDigits digit bits base text value).2 =
      text.drop (leadingDigits digit text).length := by
  induction text generalizing value with
  | nil => rfl
  | cons c cs ih =>
      cases hdigit : digit c with
      | none => simp [readDigits, leadingDigits, hdigit]
      | some d =>
          simp only [readDigits, leadingDigits, hdigit]
          rw [ih, List.length_cons, List.drop_succ_cons]

end ReadDigits

theorem leadingDigits_map {digit : Char -> Option Nat} {digit' : Char' -> Option Nat}
    {widen : Char -> Char'} (hwiden : forall c, digit' (widen c) = digit c)
    (text : List Char) :
    leadingDigits digit' (text.map widen) = leadingDigits digit text := by
  induction text with
  | nil => rfl
  | cons c cs ih =>
      simp only [List.map_cons, leadingDigits, hwiden]
      cases digit c with
      | none => rfl
      | some d => rw [ih]

end Foundation
