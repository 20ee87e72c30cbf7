import Mathlib.Data.List.Basic

/-!
# Words of a line

The words of a line are its maximal runs of units other than a separator.  A
string is read from a place in memory up to the first terminator.
-/

namespace Foundation

variable {Char : Type _}

/-- The units from `p` on are the string, and its terminator. -/
def ReadsAs (nul : Char) (units : Nat -> Char) : Nat -> List Char -> Prop
  | p, [] => units p = nul
  | p, c :: cs => units p = c ∧ c ≠ nul ∧ ReadsAs nul units (p + 1) cs

theorem readsAs_congr {nul : Char} {units units' : Nat -> Char} {p : Nat} {text : List Char}
    (hreads : ReadsAs nul units p text)
    (hsame : forall i, p ≤ i -> i ≤ p + text.length -> units' i = units i) :
    ReadsAs nul units' p text := by
  induction text generalizing p with
  | nil =>
      have hend : units' p = units p := hsame p (Nat.le_refl p) (Nat.le_add_right p 0)
      exact hend.trans hreads
  | cons c cs ih =>
      rcases hreads with ⟨hfirst, hne, hrest⟩
      refine ⟨?_, hne, ih hrest ?_⟩
      · rw [← hfirst]
        exact hsame p (Nat.le_refl p) (Nat.le_add_right p _)
      · intro i hi hlast
        apply hsame i (Nat.le_of_succ_le hi)
        rw [List.length_cons]
        omega

theorem readsAs_append {nul : Char} {units : Nat -> Char} {p : Nat} {front back : List Char}
    (hreads : ReadsAs nul units p (front ++ back)) :
    ReadsAs nul units (p + front.length) back := by
  induction front generalizing p with
  | nil => exact hreads
  | cons c cs ih =>
      have hrest := ih hreads.2.2
      rwa [List.length_cons, Nat.add_comm cs.length, ← Nat.add_assoc]

theorem readsAs_of_append {nul : Char} {units : Nat -> Char} {p : Nat}
    {front back : List Char} (hreads : ReadsAs nul units p (front ++ back))
    {units' : Nat -> Char}
    (hsame : forall i, p ≤ i -> i < p + front.length -> units' i = units i)
    (hend : units' (p + front.length) = nul) :
    ReadsAs nul units' p front := by
  induction front generalizing p with
  | nil => exact hend
  | cons c cs ih =>
      rcases hreads with ⟨hfirst, hne, hrest⟩
      rw [List.length_cons] at hsame hend
      refine ⟨?_, hne, ih hrest ?_ ?_⟩
      · rw [← hfirst]
        exact hsame p (Nat.le_refl p) (by omega)
      · intro i hi hlast
        exact hsame i (by omega) (by omega)
      · rw [← hend]
        congr 1
        omega

section Words

variable [DecidableEq Char]

/-- The pieces between separators, but for the empty ones. -/
def words (sep : Char) (text : List Char) : List (List Char) :=
  (text.splitOn sep).filter fun word => word ≠ []

theorem words_nil (sep : Char) : words sep [] = [] := by
  simp [words, List.splitOn_eq_singleton]

theorem words_sep (sep : Char) (text : List Char) :
    words sep (sep :: text) = words sep text := by
  have hsplit : (sep :: text).splitOn sep = [] :: text.splitOn sep :=
    List.splitOn_append_cons_self_of_not_mem (List.not_mem_nil) text
  unfold words
  rw [hsplit, List.filter_cons_of_neg (by simp)]

theorem words_word {sep : Char} {word : List Char} (hword : sep ∉ word) (hne : word ≠ []) :
    words sep word = [word] := by
  unfold words
  rw [List.splitOn_eq_singleton hword, List.filter_cons_of_pos (by simp [hne])]
  rfl

theorem words_word_sep {sep : Char} {word : List Char} (hword : sep ∉ word)
    (hne : word ≠ []) (text : List Char) :
    words sep (word ++ sep :: text) = word :: words sep text := by
  unfold words
  rw [List.splitOn_append_cons_self_of_not_mem hword,
    List.filter_cons_of_pos (by simp [hne])]

/-- A line that is not empty begins with a separator, or with a word and its end. -/
theorem line_cases (sep : Char) (text : List Char) :
    text = [] ∨ (exists rest, text = sep :: rest) ∨ (sep ∉ text ∧ text ≠ []) ∨
      exists word rest, sep ∉ word ∧ word ≠ [] ∧ text = word ++ sep :: rest := by
  induction text with
  | nil => exact Or.inl rfl
  | cons c cs ih =>
      right
      by_cases hc : c = sep
      · exact Or.inl ⟨cs, by rw [hc]⟩
      right
      have hsep : sep ≠ c := Ne.symm hc
      rcases ih with rfl | ⟨rest, rfl⟩ | ⟨hnone, -⟩ | ⟨word, rest, hword, -, rfl⟩
      · exact Or.inl (by simp [hsep])
      · exact Or.inr ⟨[c], rest, by simp [hsep], List.cons_ne_nil c [], rfl⟩
      · exact Or.inl (by simp [hsep, hnone])
      · exact Or.inr ⟨c :: word, rest, by simp [hsep, hword], List.cons_ne_nil c word, rfl⟩

/-- Induction on a line, word by word. -/
theorem line_induction (sep : Char) {motive : List Char -> Prop} (nil : motive [])
    (space : forall rest, motive rest -> motive (sep :: rest))
    (last : forall word, sep ∉ word -> word ≠ [] -> motive word)
    (word : forall word rest, sep ∉ word -> word ≠ [] -> motive rest ->
      motive (word ++ sep :: rest))
    (text : List Char) : motive text := by
  induction hn : text.length using Nat.strongRecOn generalizing text with
  | ind n ih =>
      rcases line_cases sep text with rfl | ⟨rest, rfl⟩ | ⟨hnone, hne⟩ |
        ⟨front, rest, hfront, hne, rfl⟩
      · exact nil
      · exact space rest (ih rest.length (by simp [← hn]) rest rfl)
      · exact last text hnone hne
      · apply word front rest hfront hne
        apply ih rest.length _ rest rfl
        rw [← hn, List.length_append, List.length_cons]
        omega

end Words

end Foundation
