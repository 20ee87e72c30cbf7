import Mathlib.Logic.Function.Basic

/-!
# The pool blocks of a call

The blocks a call allocates are numbered from 0 on, and the pool counts how often
each of them has been freed.  A call holds the blocks it still has to free.
-/

namespace Foundation

structure Pool where
  next : Nat
  size : Nat -> Nat
  frees : Nat -> Nat

namespace Pool

def empty : Pool where
  next := 0
  size := fun _ => 0
  frees := fun _ => 0

def allocate (found : Bool) (size : Nat) (pool : Pool) : Option Nat × Pool :=
  if found then
    (some pool.next,
      { pool with next := pool.next + 1, size := Function.update pool.size pool.next size })
  else
    (none, pool)

def free (pointer : Option Nat) (pool : Pool) : Pool :=
  match pointer with
  | none => pool
  | some block =>
      { pool with frees := Function.update pool.frees block (pool.frees block + 1) }

def Live (pool : Pool) (block : Nat) : Prop :=
  block < pool.next ∧ pool.frees block = 0

def AllFreedOnce (pool : Pool) : Prop :=
  forall block, block < pool.next -> pool.frees block = 1

/-- Every block but the ones held has been freed exactly once. -/
structure Holds (pool : Pool) (held : List Nat) : Prop where
  allocated : forall block, block ∈ held -> block < pool.next
  kept : forall block, block ∈ held -> pool.frees block = 0
  freed : forall block, block < pool.next -> block ∉ held -> pool.frees block = 1
  fresh : forall block, pool.next ≤ block -> pool.frees block = 0

section Holds

variable {pool : Pool} {held : List Nat} {block : Nat}

theorem holds_empty : empty.Holds [] where
  allocated := by simp
  kept := by simp
  freed := fun block hblock => absurd hblock (Nat.not_lt_zero block)
  fresh := fun _ _ => rfl

theorem Holds.swap {first second : Nat} (h : pool.Holds [first, second]) :
    pool.Holds [second, first] := by
  have hsame : forall b, b ∈ [second, first] <-> b ∈ [first, second] := by
    intro b
    simp [or_comm]
  exact ⟨fun b hb => h.allocated b ((hsame b).mp hb), fun b hb => h.kept b ((hsame b).mp hb),
    fun b hb hnot => h.freed b hb fun hin => hnot ((hsame b).mpr hin), h.fresh⟩

theorem Holds.live (h : pool.Holds held) (hblock : block ∈ held) : pool.Live block :=
  ⟨h.allocated block hblock, h.kept block hblock⟩

theorem Holds.allFreedOnce (h : pool.Holds []) : pool.AllFreedOnce :=
  fun block hblock => h.freed block hblock List.not_mem_nil

theorem Holds.allocate (h : pool.Holds held) (size : Nat) :
    (Pool.allocate true size pool).2.Holds (pool.next :: held) where
  allocated := by
    intro block hblock
    change block < pool.next + 1
    rcases List.mem_cons.mp hblock with rfl | hold
    · exact Nat.lt_succ_self _
    · exact Nat.lt_succ_of_lt (h.allocated block hold)
  kept := by
    intro block hblock
    rcases List.mem_cons.mp hblock with rfl | hold
    · exact h.fresh _ (Nat.le_refl _)
    · exact h.kept block hold
  freed := by
    intro block hblock hnot
    rw [List.mem_cons, not_or] at hnot
    change block < pool.next + 1 at hblock
    exact h.freed block (by omega) hnot.2
  fresh := by
    intro block hblock
    change pool.next + 1 ≤ block at hblock
    exact h.fresh block (by omega)

theorem size_allocate (size : Nat) (pool : Pool) :
    (allocate true size pool).2.size pool.next = size :=
  Function.update_self ..

theorem Holds.free (h : pool.Holds (block :: held)) (hnot : block ∉ held) :
    (pool.free (some block)).Holds held where
  allocated := fun b hb => h.allocated b (List.mem_cons_of_mem block hb)
  kept := by
    intro b hb
    have hne : b ≠ block := fun heq => hnot (heq ▸ hb)
    exact (Function.update_of_ne hne ..).trans (h.kept b (List.mem_cons_of_mem block hb))
  freed := by
    intro b hb hnew
    by_cases heq : b = block
    · subst heq
      have hkept : pool.frees b = 0 := h.kept b (List.mem_cons_self ..)
      change Function.update pool.frees b (pool.frees b + 1) b = 1
      rw [Function.update_self, hkept]
    · have hnone : b ∉ block :: held := by
        rw [List.mem_cons, not_or]
        exact ⟨heq, hnew⟩
      exact (Function.update_of_ne heq ..).trans (h.freed b hb hnone)
  fresh := by
    intro b hb
    have hlt : block < pool.next := h.allocated block (List.mem_cons_self ..)
    change pool.next ≤ b at hb
    have hne : b ≠ block := by omega
    exact (Function.update_of_ne hne ..).trans (h.fresh b hb)

end Holds

end Pool

end Foundation
