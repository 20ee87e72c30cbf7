import Mathlib.Data.List.Basic

/-!
# Traces whose events depend on their past

A rule says which events may follow which traces.  A trace respects it, after
some past, if every event is allowed by the past and the events before it.
-/

namespace Foundation

variable {Event : Type _}

/-- Every event of the trace is allowed by the past and what comes before it. -/
def Respects (rule : List Event -> Event -> Prop) : List Event -> List Event -> Prop
  | _, [] => True
  | past, event :: rest => rule past event ∧ Respects rule (past ++ [event]) rest

section Respects

variable {rule : List Event -> Event -> Prop} {past first rest : List Event} {event : Event}

theorem respects_nil : Respects rule past [] :=
  trivial

theorem respects_append :
    Respects rule past (first ++ rest) <->
      Respects rule past first ∧ Respects rule (past ++ first) rest := by
  induction first generalizing past with
  | nil => simp [Respects]
  | cons event first ih =>
      show rule past event ∧ Respects rule (past ++ [event]) (first ++ rest) <-> _
      rw [ih, List.append_assoc, ← and_assoc]
      rfl

theorem respects_singleton : Respects rule past [event] <-> rule past event :=
  and_iff_left trivial

theorem Respects.allowed (h : Respects rule past (first ++ event :: rest)) :
    rule (past ++ first) event :=
  (respects_append.mp h).2.1

theorem eq_of_append_cons {kind : Event -> Prop} {before after first rest : List Event}
    {event only : Event} (hkind : kind event) (hfirst : forall e, e ∈ first -> ¬ kind e)
    (hrest : forall e, e ∈ rest -> ¬ kind e)
    (h : before ++ event :: after = first ++ only :: rest) : before = first ∧ event = only := by
  induction first generalizing before with
  | nil =>
      cases before with
      | nil =>
          cases h
          exact ⟨rfl, rfl⟩
      | cons e before =>
          cases h
          exact absurd hkind (hrest event (by simp))
  | cons e first ih =>
      cases before with
      | nil =>
          cases h
          exact absurd hkind (hfirst event (by simp))
      | cons e' before =>
          injection h with hhead htail
          rcases ih (fun x hx => hfirst x (by simp [hx])) htail with ⟨rfl, rfl⟩
          exact ⟨by rw [hhead], rfl⟩

end Respects

end Foundation
