import Mathlib.Data.List.Basic

/-!
# Blocks that are used and freed

The uses and the frees of blocks in the order in which they happen.  A list of
them is disciplined when a block that has been freed does not occur again.
-/

namespace Foundation

variable {Block : Type _}

inductive BlockEvent (Block : Type _) where
  | use (block : Block)
  | free (block : Block)
  deriving DecidableEq, Repr

def BlockEvent.block : BlockEvent Block -> Block
  | use b => b
  | free b => b

/-- Once freed, a block is neither used nor freed again. -/
def Disciplined (events : List (BlockEvent Block)) : Prop :=
  events.Pairwise fun first later => first ≠ BlockEvent.free later.block

instance [DecidableEq Block] (events : List (BlockEvent Block)) :
    Decidable (Disciplined events) :=
  inferInstanceAs (Decidable (List.Pairwise _ events))

theorem disciplined_nil : Disciplined ([] : List (BlockEvent Block)) :=
  List.Pairwise.nil

theorem disciplined_append {xs ys : List (BlockEvent Block)} :
    Disciplined (xs ++ ys) <-> Disciplined xs ∧ Disciplined ys ∧
      forall e, e ∈ ys -> BlockEvent.free e.block ∉ xs := by
  unfold Disciplined
  rw [List.pairwise_append]
  constructor
  · rintro ⟨hxs, hys, hcross⟩
    refine ⟨hxs, hys, ?_⟩
    intro e he hfree
    exact hcross _ hfree e he rfl
  · rintro ⟨hxs, hys, hcross⟩
    refine ⟨hxs, hys, ?_⟩
    intro first hfirst later hlater heq
    rw [heq] at hfirst
    exact hcross later hlater hfirst

theorem Disciplined.left {xs ys : List (BlockEvent Block)} (h : Disciplined (xs ++ ys)) :
    Disciplined xs :=
  (disciplined_append.mp h).1

theorem Disciplined.right {xs ys : List (BlockEvent Block)} (h : Disciplined (xs ++ ys)) :
    Disciplined ys :=
  (disciplined_append.mp h).2.1

/-- One more free at the end is right for a block that has not been freed. -/
theorem disciplined_concat_free {xs : List (BlockEvent Block)} {b : Block} :
    Disciplined (xs ++ [BlockEvent.free b]) <->
      Disciplined xs ∧ BlockEvent.free b ∉ xs := by
  rw [disciplined_append]
  constructor
  · rintro ⟨hxs, -, hcross⟩
    exact ⟨hxs, hcross _ (List.mem_singleton_self _)⟩
  · rintro ⟨hxs, hfree⟩
    refine ⟨hxs, List.pairwise_singleton _ _, ?_⟩
    intro e he
    rw [List.mem_singleton.mp he]
    exact hfree

theorem not_disciplined_of_free {xs ys : List (BlockEvent Block)} {b : Block}
    (hxs : BlockEvent.free b ∈ xs) (hys : BlockEvent.free b ∈ ys) :
    ¬ Disciplined (xs ++ ys) := by
  intro h
  exact (disciplined_append.mp h).2.2 _ hys hxs

theorem disciplined_of_no_free {events : List (BlockEvent Block)}
    (h : forall b, BlockEvent.free b ∉ events) : Disciplined events := by
  apply List.pairwise_of_forall_mem_list
  intro first hfirst later _ heq
  rw [heq] at hfirst
  exact h _ hfirst

end Foundation
