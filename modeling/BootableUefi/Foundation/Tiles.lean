import Mathlib.Algebra.Order.Ring.Nat
import Mathlib.Data.List.Basic
import Mathlib.Data.List.Perm.Basic

/-!
# Tilings of an interval

Inclusive ranges tile a half-open interval when each holds something, no two
meet and together they cover the interval and nothing else.
-/

namespace Foundation

structure Range where
  first : Nat
  last : Nat
  deriving DecidableEq, Repr

def Range.Mem (x : Nat) (r : Range) : Prop :=
  r.first ≤ x ∧ x ≤ r.last

def Range.Apart (r s : Range) : Prop :=
  r.last < s.first ∨ s.last < r.first

theorem Range.Apart.symm {r s : Range} (h : r.Apart s) : s.Apart r :=
  Or.symm h

structure Tiles (rs : List Range) (start stop : Nat) : Prop where
  nonempty : forall r, r ∈ rs -> r.first ≤ r.last
  apart : rs.Pairwise Range.Apart
  cover : forall x, (exists r, r ∈ rs ∧ r.Mem x) <-> start ≤ x ∧ x < stop

def alignDown (unit x : Nat) : Nat :=
  x - x % unit

def alignUp (unit x : Nat) : Nat :=
  if x % unit = 0 then x else x + (unit - x % unit)

namespace Tiles

variable {rs qs : List Range} {start middle stop : Nat}

theorem empty (start : Nat) : Tiles [] start start := by
  constructor
  · intro r hr
    cases hr
  · exact List.Pairwise.nil
  · intro x
    constructor
    · intro hcase
      rcases hcase with ⟨r, hr, _⟩
      cases hr
    · intro hx
      omega

theorem single (h : start < stop) : Tiles [{ first := start, last := stop - 1 }] start stop := by
  constructor
  · intro r hr
    cases List.mem_singleton.mp hr
    dsimp only
    omega
  · exact List.pairwise_singleton _ _
  · intro x
    constructor
    · intro hcase
      rcases hcase with ⟨r, hr, hlow, hhigh⟩
      cases List.mem_singleton.mp hr
      dsimp only at hlow hhigh
      omega
    · intro hx
      refine ⟨_, List.mem_singleton_self _, ?_⟩
      unfold Range.Mem
      dsimp only
      omega

theorem bounds (h : Tiles rs start stop) {r : Range} (hr : r ∈ rs) :
    start ≤ r.first ∧ r.last < stop := by
  have hle := h.nonempty r hr
  have hfirst := (h.cover r.first).mp ⟨r, hr, Nat.le_refl _, hle⟩
  have hlast := (h.cover r.last).mp ⟨r, hr, hle, Nat.le_refl _⟩
  exact ⟨hfirst.1, hlast.2⟩

theorem append (hrs : Tiles rs start middle) (hqs : Tiles qs middle stop)
    (hle : start ≤ middle ∧ middle ≤ stop) : Tiles (rs ++ qs) start stop := by
  constructor
  · intro r hr
    rcases List.mem_append.mp hr with hleft | hright
    · exact hrs.nonempty r hleft
    · exact hqs.nonempty r hright
  · rw [List.pairwise_append]
    refine ⟨hrs.apart, hqs.apart, ?_⟩
    intro r hr q hq
    have hlast := (hrs.bounds hr).2
    have hfirst := (hqs.bounds hq).1
    exact Or.inl (Nat.lt_of_lt_of_le hlast hfirst)
  · intro x
    have hleft := hrs.cover x
    have hright := hqs.cover x
    constructor
    · intro hcase
      rcases hcase with ⟨r, hr, hx⟩
      rcases List.mem_append.mp hr with hmem | hmem
      · have := hleft.mp ⟨r, hmem, hx⟩
        omega
      · have := hright.mp ⟨r, hmem, hx⟩
        omega
    · intro hx
      by_cases hsplit : x < middle
      · rcases hleft.mpr ⟨hx.1, hsplit⟩ with ⟨r, hr, hmem⟩
        exact ⟨r, List.mem_append_left qs hr, hmem⟩
      · rcases hright.mpr ⟨Nat.le_of_not_lt hsplit, hx.2⟩ with ⟨r, hr, hmem⟩
        exact ⟨r, List.mem_append_right rs hr, hmem⟩

theorem of_perm (h : Tiles rs start stop) (hperm : rs.Perm qs) : Tiles qs start stop := by
  constructor
  · intro r hr
    exact h.nonempty r (hperm.mem_iff.mpr hr)
  · exact (hperm.pairwise_iff Range.Apart.symm).mp h.apart
  · intro x
    rw [← h.cover x]
    constructor
    · intro hcase
      rcases hcase with ⟨r, hr, hx⟩
      exact ⟨r, hperm.mem_iff.mpr hr, hx⟩
    · intro hcase
      rcases hcase with ⟨r, hr, hx⟩
      exact ⟨r, hperm.mem_iff.mp hr, hx⟩

/-- Two tilings of the same interval with one range more cannot both exist. -/
theorem not_cons_of_tiles (h : Tiles rs start stop) (r : Range) :
    ¬ Tiles (rs ++ [r]) start stop := by
  intro hmore
  have hmem : r ∈ rs ++ [r] := List.mem_append_right rs (List.mem_singleton_self r)
  have hle := hmore.nonempty r hmem
  have hinside := (hmore.cover r.first).mp ⟨r, hmem, Nat.le_refl _, hle⟩
  rcases (h.cover r.first).mpr hinside with ⟨s, hs, hfirst, hlast⟩
  have hapart := (List.pairwise_append.mp hmore.apart).2.2 s hs r (List.mem_singleton_self r)
  rcases hapart with hbefore | hafter
  · omega
  · omega

end Tiles

/-!
# Ranges in a row
-/

/-- Each range begins where the one before it has ended. -/
def Row : Nat -> List Range -> Nat -> Prop
  | start, [], stop => start = stop
  | start, r :: rs, stop => r.first = start ∧ r.first ≤ r.last ∧ Row (r.last + 1) rs stop

namespace Row

variable {rs : List Range} {start stop : Nat}

theorem le (h : Row start rs stop) : start ≤ stop := by
  induction rs generalizing start with
  | nil =>
      cases h
      exact Nat.le_refl _
  | cons r rs ih =>
      rcases h with ⟨hfirst, hsome, hrest⟩
      have hle := ih hrest
      omega

theorem tiles (h : Row start rs stop) : Tiles rs start stop := by
  induction rs generalizing start with
  | nil =>
      cases h
      exact Tiles.empty _
  | cons r rs ih =>
      rcases h with ⟨rfl, hsome, hrest⟩
      have hle := hrest.le
      have hsingle : Tiles [r] r.first (r.last + 1) :=
        Tiles.single (Nat.lt_succ_of_le hsome)
      exact Tiles.append hsingle (ih hrest) ⟨Nat.le_succ_of_le hsome, hle⟩

end Row

/-!
# Alignment
-/

section Alignment

variable {unit : Nat}

theorem alignUp_dvd (hunit : 0 < unit) (x : Nat) : unit ∣ alignUp unit x := by
  unfold alignUp
  split
  · rename_i h
    exact Nat.dvd_of_mod_eq_zero h
  · have hlt := Nat.mod_lt x hunit
    have hdiv := Nat.div_add_mod x unit
    refine ⟨x / unit + 1, ?_⟩
    rw [Nat.mul_add, Nat.mul_one]
    omega

theorem alignDown_dvd (unit x : Nat) : unit ∣ alignDown unit x :=
  Nat.dvd_sub_mod x

theorem le_alignUp (unit x : Nat) : x ≤ alignUp unit x := by
  unfold alignUp
  split <;> omega

theorem alignUp_lt (hunit : 0 < unit) (x : Nat) : alignUp unit x < x + unit := by
  unfold alignUp
  split <;> omega

theorem div_mul_eq_alignUp (hunit : 0 < unit) (x : Nat) :
    (x + unit - 1) / unit * unit = alignUp unit x := by
  have hlt := Nat.mod_lt x hunit
  have hdiv := Nat.div_add_mod x unit
  unfold alignUp
  split
  · rename_i hmod
    have hquot : (x + unit - 1) / unit = x / unit := by
      rw [Nat.div_eq_iff hunit]
      rw [hmod] at hdiv
      rw [Nat.mul_comm] at hdiv
      omega
    rw [hquot, Nat.mul_comm]
    omega
  · have hquot : (x + unit - 1) / unit = x / unit + 1 := by
      rw [Nat.div_eq_iff hunit, Nat.add_mul, Nat.one_mul]
      rw [Nat.mul_comm] at hdiv
      omega
    rw [hquot, Nat.add_mul, Nat.one_mul, Nat.mul_comm]
    omega

theorem alignUp_le_of_dvd (hunit : 0 < unit) {x y : Nat} (hle : x ≤ y) (hdvd : unit ∣ y) :
    alignUp unit x ≤ y := by
  have hlt := alignUp_lt hunit x
  rcases alignUp_dvd hunit x with ⟨i, hi⟩
  rcases hdvd with ⟨j, rfl⟩
  rw [hi] at hlt ⊢
  apply Nat.mul_le_mul_left
  have hnext : unit * i < unit * (j + 1) := by
    rw [Nat.mul_add, Nat.mul_one]
    omega
  exact Nat.lt_succ_iff.mp (Nat.lt_of_mul_lt_mul_left hnext)

theorem alignDown_le (unit x : Nat) : alignDown unit x ≤ x :=
  Nat.sub_le x (x % unit)

theorem lt_alignDown (hunit : 0 < unit) (x : Nat) : x < alignDown unit x + unit := by
  have hlt := Nat.mod_lt x hunit
  have hle := Nat.mod_le x unit
  unfold alignDown
  omega

/-- An interval of at least one unit holds an aligned number at each end, in order. -/
theorem alignUp_le_alignDown (hunit : 0 < unit) {x y : Nat} (h : x + unit ≤ y) :
    alignUp unit x ≤ alignDown unit y := by
  have hdown := lt_alignDown hunit y
  apply alignUp_le_of_dvd hunit _ (alignDown_dvd unit y)
  omega

end Alignment

/-!
# Rounding with a mask
-/

section Masks

variable {w k : Nat}

theorem testBit_mask (hk : k ≤ w) (i : Nat) :
    (2 ^ w - 2 ^ k).testBit i = (decide (k ≤ i) && decide (i < w)) := by
  have hmask : 2 ^ w - 2 ^ k = (2 ^ (w - k) - 1) * 2 ^ k := by
    rw [Nat.sub_mul, Nat.one_mul, ← Nat.pow_add, Nat.sub_add_cancel hk]
  rw [hmask, Nat.testBit_mul_two_pow, Nat.testBit_two_pow_sub_one]
  rcases Nat.lt_or_ge i k with hlow | hhigh
  · simp [Nat.not_le_of_lt hlow]
  · have hwidth : i - k < w - k <-> i < w := by omega
    simp [hhigh, hwidth]

theorem and_mask (hk : k ≤ w) (x : Nat) :
    x &&& (2 ^ w - 2 ^ k) = x / 2 ^ k * 2 ^ k % 2 ^ w := by
  apply Nat.eq_of_testBit_eq
  intro i
  rw [Nat.testBit_and, testBit_mask hk, Nat.testBit_mod_two_pow, Nat.testBit_mul_two_pow,
    Nat.testBit_div_two_pow]
  rcases Nat.lt_or_ge i k with hlow | hhigh
  · simp [Nat.not_le_of_lt hlow]
  · simp [hhigh, Bool.and_comm]

theorem mod_and_mask {v : Nat} (hk : k ≤ w) (hw : w ≤ v) (x : Nat) :
    x % 2 ^ v &&& (2 ^ w - 2 ^ k) = x &&& (2 ^ w - 2 ^ k) := by
  apply Nat.eq_of_testBit_eq
  intro i
  rw [Nat.testBit_and, Nat.testBit_and, testBit_mask hk, Nat.testBit_mod_two_pow]
  rcases Nat.lt_or_ge i w with hlow | hhigh
  · simp [Nat.lt_of_lt_of_le hlow hw]
  · simp [Nat.not_lt_of_le hhigh]

/-- Rounding up with a mask of `w` bits in arithmetic of `v` bits. -/
theorem round_and_mask {v : Nat} (hk : k ≤ w) (hw : w ≤ v) (x : Nat) :
    (x + 2 ^ k - 1) % 2 ^ v &&& (2 ^ w - 2 ^ k) = alignUp (2 ^ k) x % 2 ^ w := by
  rw [mod_and_mask hk hw, and_mask hk, div_mul_eq_alignUp (Nat.two_pow_pos k)]

end Masks

end Foundation
