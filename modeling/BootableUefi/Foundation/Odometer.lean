import Mathlib.Algebra.Order.Ring.Nat
import Mathlib.Data.Fin.Basic
import Mathlib.Logic.Function.Iterate

/-!
# Two-digit odometers

An odometer has a low digit that counts every tick and a high digit that counts
the carries; both turn over at their base.  Reading it after any number of
ticks from zero is one division with remainder.
-/

namespace Foundation

structure Odometer (highBase lowBase : Nat) where
  high : Fin highBase
  low : Fin lowBase
  deriving DecidableEq, Repr

namespace Odometer

variable {highBase lowBase : Nat} [NeZero highBase] [NeZero lowBase]

def zero : Odometer highBase lowBase where
  high := 0
  low := 0

def tick (o : Odometer highBase lowBase) : Odometer highBase lowBase :=
  if h : o.low.val + 1 < lowBase then
    { o with low := ⟨o.low.val + 1, h⟩ }
  else
    { high := o.high + 1, low := 0 }

theorem tick_of_lt {o : Odometer highBase lowBase} (h : o.low.val + 1 < lowBase) :
    o.tick = { o with low := ⟨o.low.val + 1, h⟩ } := by
  simp [tick, h]

theorem tick_of_not_lt {o : Odometer highBase lowBase} (h : ¬ o.low.val + 1 < lowBase) :
    o.tick = { high := o.high + 1, low := 0 } := by
  simp [tick, h]

def reading (highBase lowBase n : Nat) [NeZero highBase] [NeZero lowBase] :
    Odometer highBase lowBase where
  high := Fin.ofNat highBase (n / lowBase)
  low := Fin.ofNat lowBase n

theorem reading_zero : reading highBase lowBase 0 = zero := by
  simp [reading, zero]

theorem tick_reading (n : Nat) :
    (reading highBase lowBase n).tick = reading highBase lowBase (n + 1) := by
  have hbase : 0 < lowBase := Nat.pos_of_ne_zero (NeZero.ne lowBase)
  have hdiv := Nat.div_add_mod n lowBase
  have hlt := Nat.mod_lt n hbase
  by_cases h : n % lowBase + 1 < lowBase
  · have hnext : (n + 1) / lowBase = n / lowBase ∧ (n + 1) % lowBase = n % lowBase + 1 := by
      rw [Nat.div_mod_unique hbase]
      exact ⟨by omega, h⟩
    rw [tick_of_lt h]
    simp [reading, Fin.ext_iff, hnext.1, hnext.2]
  · have hnext : (n + 1) / lowBase = n / lowBase + 1 ∧ (n + 1) % lowBase = 0 := by
      rw [Nat.div_mod_unique hbase, Nat.mul_add]
      exact ⟨by omega, hbase⟩
    rw [tick_of_not_lt h]
    simp [reading, Fin.ext_iff, Fin.val_add, hnext.1, hnext.2]

theorem iterate_tick_zero (n : Nat) :
    tick^[n] (zero : Odometer highBase lowBase) = reading highBase lowBase n := by
  induction n with
  | zero => exact reading_zero.symm
  | succ n ih =>
      rw [Function.iterate_succ_apply', ih]
      exact tick_reading n

end Odometer

end Foundation
