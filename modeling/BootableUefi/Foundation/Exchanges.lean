import Mathlib.Data.List.Basic

/-!
# Exchanges in a trace

An exchange begins with an opening event and ends with the first closing event
after it.  A trace grows at its end, so the facts below say what one more event,
or several, do to the exchanges that are closed and to those still open.
-/

namespace Foundation

variable {Event : Type _}

/-- What opens an exchange, what closes it, and what is counted in between. -/
structure Exchange (Event : Type _) where
  opens : Event -> Bool
  closes : Event -> Bool
  counts : Event -> Bool

namespace Exchange

variable (x : Exchange Event)

/-- In every exchange that has ended, `n` events are counted. -/
def ClosedWith (n : Nat) (trace : List Event) : Prop :=
  forall before first middle last after,
    trace = before ++ first :: (middle ++ last :: after) ->
    x.opens first = true -> x.closes last = true ->
    (forall event, event ∈ middle -> x.closes event = false) ->
    middle.countP x.counts = n

/-- In every exchange that has not ended, `n` events have been counted. -/
def OpenWith (n : Nat) (trace : List Event) : Prop :=
  forall before first middle,
    trace = before ++ first :: middle -> x.opens first = true ->
    (forall event, event ∈ middle -> x.closes event = false) ->
    middle.countP x.counts = n

/-- Every exchange has ended. -/
def NoneOpen (trace : List Event) : Prop :=
  forall before first middle,
    trace = before ++ first :: middle -> x.opens first = true ->
    exists event, event ∈ middle ∧ x.closes event = true

def Inside (event : Event) : Prop :=
  x.opens event = false ∧ x.closes event = false

theorem snoc_eq_split {trace before middle : List Event} {event first : Event}
    (h : trace ++ [event] = before ++ first :: middle) :
    (middle = [] ∧ first = event) ∨
      exists rest, middle = rest ++ [event] ∧ trace = before ++ first :: rest := by
  rcases List.eq_nil_or_concat middle with rfl | ⟨rest, last, rfl⟩
  · have hlast := List.append_inj' h rfl
    left
    exact ⟨rfl, (List.singleton_inj.mp hlast.2).symm⟩
  · have hassoc : trace ++ [event] = (before ++ first :: rest) ++ [last] := by
      simpa using h
    have hlast := List.append_inj' hassoc rfl
    right
    refine ⟨rest, ?_, hlast.1⟩
    rw [List.concat_eq_append, List.singleton_inj.mp hlast.2]

theorem snoc_eq_closed {trace before middle after : List Event} {event first last : Event}
    (h : trace ++ [event] = before ++ first :: (middle ++ last :: after)) :
    (last = event ∧ trace = before ++ first :: middle) ∨
      exists rest, trace = before ++ first :: (middle ++ last :: rest) := by
  have hassoc : trace ++ [event] = (before ++ first :: middle) ++ last :: after := by
    simpa using h
  rcases snoc_eq_split hassoc with ⟨rfl, hlast⟩ | ⟨rest, -, htrace⟩
  · have hends := List.append_inj' hassoc rfl
    exact Or.inl ⟨hlast, hends.1⟩
  · right
    refine ⟨rest, ?_⟩
    simpa using htrace

section Snoc

variable {x} {n : Nat} {trace : List Event} {event : Event}

theorem noneOpen_nil : x.NoneOpen [] := by
  intro before first middle h
  cases before <;> cases h

theorem closedWith_nil : x.ClosedWith n [] := by
  intro before first middle last after h
  cases before <;> cases h

theorem NoneOpen.openWith (h : x.NoneOpen trace) (n : Nat) : x.OpenWith n trace := by
  intro before first middle hsplit hfirst hmiddle
  rcases h before first middle hsplit hfirst with ⟨event, hmem, hcloses⟩
  rw [hmiddle event hmem] at hcloses
  cases hcloses

theorem NoneOpen.start (h : x.NoneOpen trace) : x.OpenWith 0 (trace ++ [event]) := by
  intro before first middle hsplit hfirst hmiddle
  rcases snoc_eq_split hsplit with ⟨rfl, -⟩ | ⟨rest, rfl, htrace⟩
  · rfl
  · rcases h before first rest htrace hfirst with ⟨last, hmem, hcloses⟩
    rw [hmiddle last (List.mem_append_left _ hmem)] at hcloses
    cases hcloses

theorem noneOpen_snoc (hopens : x.opens event = false) (hcloses : x.closes event = true) :
    x.NoneOpen (trace ++ [event]) := by
  intro before first middle hsplit hfirst
  rcases snoc_eq_split hsplit with ⟨-, rfl⟩ | ⟨rest, rfl, -⟩
  · rw [hopens] at hfirst
    cases hfirst
  · exact ⟨event, List.mem_append_right _ (List.mem_singleton_self event), hcloses⟩

theorem OpenWith.snoc (h : x.OpenWith n trace) (hopens : x.opens event = false) :
    x.OpenWith (n + [event].countP x.counts) (trace ++ [event]) := by
  intro before first middle hsplit hfirst hmiddle
  rcases snoc_eq_split hsplit with ⟨-, rfl⟩ | ⟨rest, rfl, htrace⟩
  · rw [hopens] at hfirst
    cases hfirst
  · rw [List.countP_append]
    congr 1
    exact h before first rest htrace hfirst fun e he => hmiddle e (List.mem_append_left _ he)

theorem ClosedWith.snoc (h : x.ClosedWith n trace) (hopen : x.OpenWith n trace) :
    x.ClosedWith n (trace ++ [event]) := by
  intro before first middle last after hsplit hfirst hlast hmiddle
  rcases snoc_eq_closed hsplit with ⟨-, htrace⟩ | ⟨rest, htrace⟩
  · exact hopen before first middle htrace hfirst hmiddle
  · exact h before first middle last rest htrace hfirst hlast hmiddle

theorem ClosedWith.snoc_of_not_closes (h : x.ClosedWith n trace)
    (hcloses : x.closes event = false) : x.ClosedWith n (trace ++ [event]) := by
  intro before first middle last after hsplit hfirst hlast hmiddle
  rcases snoc_eq_closed hsplit with ⟨rfl, -⟩ | ⟨rest, htrace⟩
  · rw [hcloses] at hlast
    cases hlast
  · exact h before first middle last rest htrace hfirst hlast hmiddle

end Snoc

section Append

variable {x} {n : Nat} {trace events : List Event}

theorem OpenWith.append (h : x.OpenWith n trace)
    (hinside : forall event, event ∈ events -> x.Inside event) :
    x.OpenWith (n + events.countP x.counts) (trace ++ events) := by
  induction events generalizing n trace with
  | nil => simpa using h
  | cons event rest ih =>
      have hone := h.snoc (hinside event (List.mem_cons_self ..)).1
      have hrest := ih hone fun e he => hinside e (List.mem_cons_of_mem event he)
      rw [List.append_assoc, Nat.add_assoc, ← List.countP_append] at hrest
      exact hrest

theorem ClosedWith.append (h : x.ClosedWith n trace)
    (hinside : forall event, event ∈ events -> x.Inside event) :
    x.ClosedWith n (trace ++ events) := by
  induction events generalizing trace with
  | nil => simpa using h
  | cons event rest ih =>
      have hone := h.snoc_of_not_closes (hinside event (List.mem_cons_self ..)).2
      have hrest := ih hone fun e he => hinside e (List.mem_cons_of_mem event he)
      rw [List.append_assoc] at hrest
      exact hrest

end Append

end Exchange

end Foundation
