import Mathlib.Data.List.Basic

/-!
# Runs of a labelled step function

A system is a partial step function: `none` means that the label is not enabled
in the state.  This module packages the one induction that safety proofs need,
once for plain runs and once for runs whose steps all meet a guard.
-/

namespace Foundation

variable {State Label : Type _}

/-- Take the labels in order, failing as soon as one is not enabled. -/
def runFrom (step : State -> Label -> Option State) :
    State -> List Label -> Option State
  | s, [] => some s
  | s, l :: ls => (step s l).bind fun t => runFrom step t ls

def AllSteps (guard : State -> Label -> Prop)
    (step : State -> Label -> Option State) : State -> List Label -> Prop
  | _, [] => True
  | s, l :: ls => guard s l ∧ forall t, step s l = some t -> AllSteps guard step t ls

instance AllSteps.decidable {guard : State -> Label -> Prop}
    [forall s l, Decidable (guard s l)] {step : State -> Label -> Option State} :
    forall (s : State) (ls : List Label), Decidable (AllSteps guard step s ls)
  | _, [] => isTrue trivial
  | s, l :: ls =>
      have rest : Decidable (forall t, step s l = some t -> AllSteps guard step t ls) :=
        match step s l with
        | none => isTrue (by intro t ht; cases ht)
        | some u =>
            match AllSteps.decidable u ls with
            | isTrue h => isTrue (by intro t ht; cases ht; exact h)
            | isFalse h => isFalse fun hall => h (hall u rfl)
      inferInstanceAs (Decidable (_ ∧ _))

section Runs

variable {step : State -> Label -> Option State}
variable {guard : State -> Label -> Prop}

@[simp] theorem runFrom_nil (s : State) : runFrom step s [] = some s := rfl

@[simp] theorem runFrom_cons (s : State) (l : Label) (ls : List Label) :
    runFrom step s (l :: ls) = (step s l).bind fun t => runFrom step t ls := rfl

theorem runFrom_cons_eq_some {s u : State} {l : Label} {ls : List Label} :
    runFrom step s (l :: ls) = some u <->
      exists t, step s l = some t ∧ runFrom step t ls = some u := by
  simp [Option.bind_eq_some_iff]

theorem runFrom_append (s : State) (xs ys : List Label) :
    runFrom step s (xs ++ ys) =
      (runFrom step s xs).bind fun t => runFrom step t ys := by
  induction xs generalizing s with
  | nil => rfl
  | cons l ls ih =>
      cases hstep : step s l with
      | none => simp [hstep]
      | some t => simpa [hstep] using ih t

/--
The invariant rule for guarded runs: an invariant that every guarded step keeps
holds in the state every guarded run ends in.
-/
theorem invariant_of_allSteps {Inv : State -> Prop}
    (hstep : forall s l t, Inv s -> guard s l -> step s l = some t -> Inv t)
    {s t : State} {ls : List Label} (hinit : Inv s)
    (hguard : AllSteps guard step s ls) (hrun : runFrom step s ls = some t) :
    Inv t := by
  induction ls generalizing s with
  | nil =>
      cases hrun
      exact hinit
  | cons l ls ih =>
      rcases runFrom_cons_eq_some.mp hrun with ⟨u, hu, hrest⟩
      exact ih (hstep s l u hinit hguard.1 hu) (hguard.2 u hu) hrest

/-- A guard that is always met is met along every run. -/
theorem allSteps_of_forall (hguard : forall s l, guard s l) (s : State) (ls : List Label) :
    AllSteps guard step s ls := by
  induction ls generalizing s with
  | nil => trivial
  | cons l ls ih => exact ⟨hguard s l, fun t _ => ih t⟩

/-- The invariant rule for runs that nothing guards. -/
theorem invariant_of_run {Inv : State -> Prop}
    (hstep : forall s l t, Inv s -> step s l = some t -> Inv t)
    {s t : State} {ls : List Label} (hinit : Inv s) (hrun : runFrom step s ls = some t) :
    Inv t :=
  invariant_of_allSteps (fun s l t hinv _ => hstep s l t hinv) hinit
    (allSteps_of_forall (fun _ _ => trivial) s ls) hrun

theorem AllSteps.and_of_forall_mem {p : Label -> Prop} {s : State} {ls : List Label}
    (h : AllSteps guard step s ls) (hp : forall l, l ∈ ls -> p l) :
    AllSteps (fun s l => guard s l ∧ p l) step s ls := by
  induction ls generalizing s with
  | nil => trivial
  | cons l ls ih =>
      refine ⟨⟨h.1, hp l (List.mem_cons_self ..)⟩, ?_⟩
      intro t ht
      exact ih (h.2 t ht) fun k hk => hp k (List.mem_cons_of_mem l hk)

end Runs

end Foundation
