import Mathlib.Data.List.Chain
import Mathlib.Algebra.Order.Ring.Nat

/-!
# Merging extents as they come

An extent is a run of places with a tag.  Extents are collected in a list, the
latest first, and one that starts where the latest ends, with the same tag,
only makes that one longer.  Places and sizes are counted modulo `m`, as a
machine word counts them, so that two runs of extents are lost: one that goes
past the last place, and one that takes up all of them.
-/

namespace Foundation

variable {Tag : Type _}

structure Extent (Tag : Type _) where
  tag : Tag
  start : Nat
  size : Nat

namespace Extent

def Covers (e : Extent Tag) (x : Nat) : Prop :=
  e.start ≤ x ∧ x < e.start + e.size

instance (e : Extent Tag) (x : Nat) : Decidable (e.Covers x) :=
  inferInstanceAs (Decidable (_ ∧ _))

/-- The second extent goes on where the first one ends. -/
def Continues (first second : Extent Tag) : Prop :=
  first.tag = second.tag ∧ first.start + first.size = second.start

/-- The second extent starts at the place, counted modulo `m`, where the first one ends. -/
def Follows (m : Nat) (first second : Extent Tag) : Prop :=
  first.tag = second.tag ∧ (first.start + first.size) % m = second.start

instance [DecidableEq Tag] (m : Nat) (first second : Extent Tag) :
    Decidable (first.Follows m second) :=
  inferInstanceAs (Decidable (_ ∧ _))

def extend (e : Extent Tag) (size : Nat) : Extent Tag :=
  { e with size := e.size + size }

def wrapped (m : Nat) (e : Extent Tag) : Extent Tag :=
  { e with size := e.size % m }

/-- The extent ends at a place that `m` places reach, and does not take all of them. -/
def Fits (m : Nat) (e : Extent Tag) : Prop :=
  e.start + e.size ≤ m ∧ e.size < m

theorem wrapped_of_fits {m : Nat} {e : Extent Tag} (h : e.Fits m) : e.wrapped m = e := by
  unfold wrapped
  rw [Nat.mod_eq_of_lt h.2]

theorem wrapped_follows_iff {m : Nat} {first second : Extent Tag} :
    (first.wrapped m).Follows m second <-> first.Follows m second := by
  unfold Follows wrapped
  rw [Nat.add_mod_mod]

theorem wrapped_extend_wrapped (m : Nat) (e : Extent Tag) (size : Nat) :
    ((e.wrapped m).extend size).wrapped m = (e.extend size).wrapped m := by
  unfold wrapped extend
  rw [Nat.mod_add_mod]

end Extent

theorem covers_of_wrapped {e : Extent Tag} {m x : Nat} (h : (e.wrapped m).Covers x) :
    e.Covers x := by
  have hsize := Nat.mod_le e.size m
  unfold Extent.wrapped Extent.Covers at h
  unfold Extent.Covers
  dsimp only at h
  omega

theorem covers_extend_iff {last e : Extent Tag} (h : last.Continues e) (x : Nat) :
    (last.extend e.size).Covers x <-> last.Covers x ∨ e.Covers x := by
  have hend := h.2
  unfold Extent.extend Extent.Covers
  dsimp only
  omega

variable {m : Nat}

/-!
# Runs
-/

/-- Extents of which each starts where those before it end, and the extent they make up. -/
inductive IsRun (m : Nat) : List (Extent Tag) -> Extent Tag -> Prop
  | single (e : Extent Tag) : IsRun m [e] e
  | snoc {run : List (Extent Tag)} {whole e : Extent Tag} (hrun : IsRun m run whole)
      (hfollows : whole.Follows m e) : IsRun m (run ++ [e]) (whole.extend e.size)

/-- What every run of extents in a row makes up fits in the `m` places. -/
def RunsFit (m : Nat) (es : List (Extent Tag)) : Prop :=
  forall run whole, run <:+: es -> IsRun m run whole -> whole.Fits m

theorem IsRun.ne_nil {run : List (Extent Tag)} {whole : Extent Tag} (h : IsRun m run whole) :
    run ≠ [] := by
  cases h with
  | single => exact List.cons_ne_nil _ []
  | snoc hrun hfollows => exact List.append_ne_nil_of_right_ne_nil _ (List.cons_ne_nil _ _)

theorem isRun_concat_cases {run : List (Extent Tag)} {e whole : Extent Tag}
    (h : IsRun m (run ++ [e]) whole) :
    whole = e ∨
      exists before, IsRun m run before ∧ before.Follows m e ∧ whole = before.extend e.size := by
  generalize hrun : run ++ [e] = es at h
  cases h with
  | single e' =>
      left
      cases run with
      | nil =>
          rw [List.nil_append, List.singleton_inj] at hrun
          exact hrun.symm
      | cons first rest => simp at hrun
  | snoc hbefore hfollows =>
      right
      rcases List.append_inj' hrun rfl with ⟨rfl, hlast⟩
      rw [List.singleton_inj] at hlast
      subst hlast
      exact ⟨_, hbefore, hfollows, rfl⟩

theorem suffix_run_cases {es run : List (Extent Tag)} {e whole : Extent Tag}
    (hsuffix : run <:+ es ++ [e]) (hrun : IsRun m run whole) :
    whole = e ∨
      exists init before, init <:+ es ∧ IsRun m init before ∧ before.Follows m e ∧
        whole = before.extend e.size := by
  rcases List.suffix_concat_iff.mp hsuffix with rfl | ⟨init, rfl, hinit⟩
  · exact absurd rfl hrun.ne_nil
  · rcases isRun_concat_cases hrun with hsingle | ⟨before, hbefore⟩
    · exact Or.inl hsingle
    · exact Or.inr ⟨init, before, hinit, hbefore⟩

theorem IsRun.start_lt {run : List (Extent Tag)} {whole : Extent Tag} (h : IsRun m run whole)
    (hrun : forall e, e ∈ run -> e.start < m) : whole.start < m := by
  induction h with
  | single e => exact hrun e (List.mem_singleton_self e)
  | snoc hbefore hfollows ih => exact ih fun e he => hrun e (List.mem_append_left _ he)

theorem runsFit_nil : RunsFit m ([] : List (Extent Tag)) := by
  intro run whole hinside hrun
  exact absurd (List.infix_nil.mp hinside) hrun.ne_nil

theorem runsFit_concat_iff {es : List (Extent Tag)} {e : Extent Tag} :
    RunsFit m (es ++ [e]) <->
      RunsFit m es ∧
        forall run whole, run <:+ es ++ [e] -> IsRun m run whole -> whole.Fits m := by
  constructor
  · intro h
    constructor
    · intro run whole hinside
      exact h run whole (hinside.trans (List.prefix_append es [e]).isInfix)
    · intro run whole hsuffix
      exact h run whole hsuffix.isInfix
  · rintro ⟨hes, hlast⟩ run whole hinside
    rcases List.infix_concat_iff.mp hinside with hsuffix | hbefore
    · exact hlast run whole hsuffix
    · exact hes run whole hbefore

/-- Extents that all end before the last place make up runs that do. -/
theorem runsFit_of_end_lt {es : List (Extent Tag)}
    (h : forall e, e ∈ es -> e.start + e.size < m) : RunsFit m es := by
  intro run whole hinside hrun
  have hmem : forall e, e ∈ run -> e.start + e.size < m := fun e he => h e (hinside.subset he)
  have hend : whole.start + whole.size < m := by
    clear hinside
    induction hrun with
    | single e => exact hmem e (List.mem_singleton_self e)
    | snoc hbefore hfollows ih =>
        rename_i run whole e
        have hwhole := ih fun e' he' => hmem e' (List.mem_append_left _ he')
        have hlast := hmem e (List.mem_append_right _ (List.mem_singleton_self e))
        rw [← hfollows.2, Nat.mod_eq_of_lt hwhole] at hlast
        change whole.start + (whole.size + e.size) < m
        omega
  exact ⟨Nat.le_of_lt hend, by omega⟩

theorem suffix_run_singleton {run : List (Extent Tag)} {e whole : Extent Tag}
    (hsuffix : run <:+ [e]) (hrun : IsRun m run whole) : whole = e := by
  have hconcat : run <:+ [] ++ [e] := hsuffix
  rcases suffix_run_cases hconcat hrun with rfl | ⟨init, before, hinit, hbefore, -⟩
  · rfl
  · exact absurd (List.suffix_nil.mp hinit) hbefore.ne_nil

/-- An extent that follows no run before it only has to fit itself. -/
theorem RunsFit.concat {es : List (Extent Tag)} {e : Extent Tag} (hes : RunsFit m es)
    (he : e.Fits m)
    (h : forall run other, run <:+ es -> IsRun m run other -> ¬ other.Follows m e) :
    RunsFit m (es ++ [e]) := by
  refine runsFit_concat_iff.mpr ⟨hes, ?_⟩
  intro run whole hsuffix hrun
  rcases suffix_run_cases hsuffix hrun with rfl | ⟨init, before, hinit, hbefore, hlast, -⟩
  · exact he
  · exact absurd hlast (h init before hinit hbefore)

theorem RunsFit.pair {first second : Extent Tag} (hfirst : first.Fits m)
    (hsecond : second.Fits m) (hfollows : ¬ first.Follows m second) :
    RunsFit m [first, second] := by
  have hsingle : RunsFit m [first] := by
    apply runsFit_nil.concat hfirst
    exact fun run other hsuffix hrun => absurd (List.suffix_nil.mp hsuffix) hrun.ne_nil
  apply hsingle.concat hsecond
  intro run other hsuffix hrun
  rw [suffix_run_singleton hsuffix hrun]
  exact hfollows

/-- The longest of the runs that a list ends with makes up the extent. -/
structure Latest (m : Nat) (es : List (Extent Tag)) (whole : Extent Tag) : Prop where
  isRun : exists run, run <:+ es ∧ IsRun m run whole
  longest : forall run other, run <:+ es -> IsRun m run other ->
    other.tag = whole.tag ∧ other.size ≤ whole.size ∧
      (other.start + other.size) % m = (whole.start + whole.size) % m

theorem Latest.follows {es run : List (Extent Tag)} {whole other e : Extent Tag}
    (h : Latest m es whole) (hsuffix : run <:+ es) (hrun : IsRun m run other)
    (hfollows : other.Follows m e) : whole.Follows m e := by
  rcases h.longest run other hsuffix hrun with ⟨htag, -, hend⟩
  exact ⟨htag ▸ hfollows.1, hend ▸ hfollows.2⟩

theorem Latest.single {es : List (Extent Tag)} {e : Extent Tag}
    (h : forall run other, run <:+ es -> IsRun m run other -> ¬ other.Follows m e) :
    Latest m (es ++ [e]) e where
  isRun := ⟨[e], List.suffix_append es [e], IsRun.single e⟩
  longest := by
    intro run other hsuffix hrun
    rcases suffix_run_cases hsuffix hrun with rfl | ⟨init, before, hinit, hbefore, hfollows, -⟩
    · exact ⟨rfl, Nat.le_refl _, rfl⟩
    · exact absurd hfollows (h init before hinit hbefore)

theorem Latest.snoc {es : List (Extent Tag)} {whole e : Extent Tag}
    (h : Latest m es whole) (hfollows : whole.Follows m e) :
    Latest m (es ++ [e]) (whole.extend e.size) where
  isRun := by
    rcases h.isRun with ⟨run, hsuffix, hrun⟩
    exact ⟨run ++ [e], List.suffix_concat_iff.mpr (Or.inr ⟨run, rfl, hsuffix⟩), IsRun.snoc hrun hfollows⟩
  longest := by
    have hend : (e.start + e.size) % m = (whole.start + (whole.size + e.size)) % m := by
      rw [← hfollows.2, Nat.mod_add_mod, Nat.add_assoc]
    intro run other hsuffix hrun
    rcases suffix_run_cases hsuffix hrun with rfl | ⟨init, before, hinit, hbefore, hfirst, rfl⟩
    · exact ⟨hfollows.1.symm, Nat.le_add_left _ _, hend⟩
    · rcases h.longest init before hinit hbefore with ⟨htag, hsize, -⟩
      refine ⟨htag, Nat.add_le_add_right hsize _, ?_⟩
      change (before.start + (before.size + e.size)) % m = (whole.start + (whole.size + e.size)) % m
      rw [← hend, ← hfirst.2, Nat.mod_add_mod, Nat.add_assoc]

/-- The extent starts at one of the `m` places and ends with one of them. -/
def Extent.Inside (m : Nat) (e : Extent Tag) : Prop :=
  e.start < m ∧ e.start + e.size ≤ m

/--
Where the extent goes on from a run that fits but some end of that run does not fit with
it, the joined extent no longer covers the first place, which a part of it does.
-/
theorem joined_loses {last e : Extent Tag} (hlast : last.Fits m) (he : e.Inside m)
    (hfollows : last.Follows m e) {start size : Nat} (hpart : start + size ≤ m)
    (hstart : start < m) (hsize : size ≤ last.size)
    (hend : (start + size) % m = (last.start + last.size) % m)
    (hnot : ¬ (start + (size + e.size) ≤ m ∧ size + e.size < m)) :
    ¬ ((last.extend e.size).wrapped m).Covers 0 ∧ (last.Covers 0 ∨ e.Covers 0) := by
  have hplace := hfollows.2
  rw [← hend] at hplace
  unfold Extent.Fits at hlast
  unfold Extent.Inside at he
  unfold Extent.wrapped Extent.extend Extent.Covers
  dsimp only
  rcases Nat.lt_or_ge (last.start + last.size) m with hbefore | hfull
  · rw [Nat.mod_eq_of_lt hbefore] at hend
    rcases Nat.lt_or_ge (start + size) m with hpartial | hpartfull
    · -- The end begins at the first place, and with the extent takes up all places.
      rw [Nat.mod_eq_of_lt hpartial] at hend hplace
      have hall : last.start = 0 ∧ last.size + e.size = m := by omega
      rw [hall.1, hall.2, Nat.mod_self]
      omega
    · have hwhole : start + size = m := by omega
      rw [hwhole, Nat.mod_self] at hend
      omega
  · have hwhole : last.start + last.size = m := by omega
    rw [hwhole, Nat.mod_self] at hend
    rw [hend] at hplace
    have hcovers : start + size = 0 ∨ start + size = m := by
      rcases Nat.lt_or_ge (start + size) m with hpartial | hpartfull
      · left
        rwa [Nat.mod_eq_of_lt hpartial] at hend
      · right
        omega
    omega

/-- An extent that takes up all places is left with none of them. -/
theorem single_loses {e : Extent Tag} (he : e.Inside m) (hnot : ¬ e.Fits m) :
    ¬ (e.wrapped m).Covers 0 ∧ e.Covers 0 := by
  unfold Extent.Inside at he
  unfold Extent.Fits at hnot
  have hall : e.size = m := by omega
  unfold Extent.wrapped Extent.Covers
  dsimp only
  rw [hall, Nat.mod_self]
  omega

/-- An end of the latest run with which the extent does not fit. -/
theorem Latest.joined_loses {es run : List (Extent Tag)} {whole e other : Extent Tag}
    (h : Latest m es whole) (hes : RunsFit m es) (hinside : forall e', e' ∈ es -> e'.start < m)
    (he : e.Inside m) (hfollows : whole.Follows m e) (hsuffix : run <:+ es ++ [e])
    (hrun : IsRun m run other) (hnot : ¬ other.Fits m) :
    ¬ ((whole.extend e.size).wrapped m).Covers 0 ∧ (whole.Covers 0 ∨ e.Covers 0) := by
  rcases h.isRun with ⟨latest, hlatest, hwhole⟩
  have hfits : whole.Fits m := hes latest whole hlatest.isInfix hwhole
  rcases suffix_run_cases hsuffix hrun with rfl | ⟨init, before, hinit, hbefore, -, rfl⟩
  · -- Nothing of the latest run is needed: the extent alone does not fit.
    have hend : (other.start + 0) % m = (whole.start + whole.size) % m := by
      rw [hfollows.2, Nat.add_zero, Nat.mod_eq_of_lt he.1]
    apply Foundation.joined_loses hfits he hfollows (Nat.le_of_lt he.1) he.1 (Nat.zero_le _) hend
    rw [Nat.zero_add]
    exact hnot
  · rcases h.longest init before hinit hbefore with ⟨-, hsize, hend⟩
    have hpart : before.Fits m := hes init before hinit.isInfix hbefore
    have hstart : before.start < m :=
      hbefore.start_lt fun e' he' => hinside e' (hinit.subset he')
    exact Foundation.joined_loses hfits he hfollows hpart.1 hstart hsize hend hnot

section Coverage

variable [DecidableEq Tag]

/-- How many extents with the tag cover the place. -/
def coverage (tag : Tag) (x : Nat) (es : List (Extent Tag)) : Nat :=
  es.countP fun e => e.tag = tag ∧ e.Covers x

/-- Add an extent, the latest first. -/
def pushExtent (m : Nat) : List (Extent Tag) -> Extent Tag -> List (Extent Tag)
  | [], e => [e.wrapped m]
  | last :: rest, e =>
      if last.Follows m e then (last.extend e.size).wrapped m :: rest
      else e.wrapped m :: last :: rest

theorem pushExtent_of_follows {last e : Extent Tag} (rest : List (Extent Tag))
    (h : last.Follows m e) :
    pushExtent m (last :: rest) e = (last.extend e.size).wrapped m :: rest :=
  if_pos h

theorem pushExtent_of_not_follows {last e : Extent Tag} (rest : List (Extent Tag))
    (h : ¬ last.Follows m e) : pushExtent m (last :: rest) e = e.wrapped m :: last :: rest :=
  if_neg h

theorem coverage_cons (tag : Tag) (x : Nat) (e : Extent Tag) (es : List (Extent Tag)) :
    coverage tag x (e :: es) = coverage tag x es + coverage tag x [e] := by
  simp [coverage, List.countP_cons]

theorem coverage_concat (tag : Tag) (x : Nat) (es : List (Extent Tag)) (e : Extent Tag) :
    coverage tag x (es ++ [e]) = coverage tag x es + coverage tag x [e] :=
  List.countP_append

theorem coverage_singleton (tag : Tag) (x : Nat) (e : Extent Tag) :
    coverage tag x [e] = if e.tag = tag ∧ e.Covers x then 1 else 0 := by
  simp [coverage, List.countP_cons]

/-- A place is in an extended extent if it is in either part, and never in both. -/
theorem coverage_extend (tag : Tag) (x : Nat) {last e : Extent Tag} (h : last.Continues e) :
    coverage tag x [last.extend e.size] = coverage tag x [last] + coverage tag x [e] := by
  have hcovers := covers_extend_iff h x
  have htag : (last.extend e.size).tag = last.tag := rfl
  have hdisjoint : last.Covers x -> ¬ e.Covers x := by
    intro hfirst hsecond
    have hend := h.2
    have hbelow := hfirst.2
    have habove := hsecond.1
    omega
  simp only [coverage_singleton, htag, hcovers, ← h.1]
  by_cases hsame : last.tag = tag
  · by_cases hfirst : last.Covers x
    · simp [hsame, hfirst, hdisjoint hfirst]
    · simp [hsame, hfirst]
  · simp [hsame]

/-!
# What is collected
-/

/-- No extent goes on where the one collected before it ends. -/
def Merged (es : List (Extent Tag)) : Prop :=
  es.IsChain fun later earlier => ¬ earlier.Continues later

theorem merged_pushExtent {es : List (Extent Tag)} (h : Merged es) {e : Extent Tag}
    (hstart : e.start < m) : Merged (pushExtent m es e) := by
  cases es with
  | nil => exact List.IsChain.singleton _
  | cons last rest =>
      by_cases hfollows : last.Follows m e
      · rw [pushExtent_of_follows rest hfollows]
        cases rest with
        | nil => exact List.IsChain.singleton _
        | cons earlier rest =>
            have hsplit := List.isChain_cons_cons.mp h
            exact List.isChain_cons_cons.mpr ⟨hsplit.1, hsplit.2⟩
      · rw [pushExtent_of_not_follows rest hfollows]
        refine List.isChain_cons_cons.mpr ⟨?_, h⟩
        intro hcontinues
        have hend : last.start + last.size = e.start := hcontinues.2
        exact hfollows ⟨hcontinues.1, by rw [hend, Nat.mod_eq_of_lt hstart]⟩

theorem merged_foldl {es : List (Extent Tag)} (h : Merged es) {extents : List (Extent Tag)}
    (hstart : forall e, e ∈ extents -> e.start < m) :
    Merged (extents.foldl (pushExtent m) es) := by
  induction extents generalizing es with
  | nil => exact h
  | cons e extents ih =>
      apply ih (merged_pushExtent h (hstart e (List.mem_cons_self ..)))
      exact fun e' he' => hstart e' (List.mem_cons_of_mem e he')

/-!
# The runs are what is collected
-/

theorem foldl_latest {es : List (Extent Tag)} (hne : es ≠ []) :
    exists whole rest, es.foldl (pushExtent m) [] = whole.wrapped m :: rest ∧
      Latest m es whole := by
  induction es using List.reverseRecOn with
  | nil => exact absurd rfl hne
  | append_singleton es e ih =>
      rw [List.foldl_concat]
      by_cases hempty : es = []
      · subst hempty
        refine ⟨e, [], rfl, Latest.single ?_⟩
        exact fun run other hsuffix hrun => absurd (List.suffix_nil.mp hsuffix) hrun.ne_nil
      · rcases ih hempty with ⟨whole, rest, hfold, hlatest⟩
        rw [hfold]
        by_cases hfollows : whole.Follows m e
        · rw [pushExtent_of_follows rest (Extent.wrapped_follows_iff.mpr hfollows),
            Extent.wrapped_extend_wrapped]
          exact ⟨_, rest, rfl, hlatest.snoc hfollows⟩
        · rw [pushExtent_of_not_follows rest (mt Extent.wrapped_follows_iff.mp hfollows)]
          refine ⟨e, _, rfl, Latest.single ?_⟩
          exact fun run other hsuffix hrun h => hfollows (hlatest.follows hsuffix hrun h)

theorem coverage_extend_of_fits (tag : Tag) (x : Nat) {last e : Extent Tag}
    (hfollows : last.Follows m e) (hfits : (last.extend e.size).Fits m) :
    coverage tag x [last.extend e.size] = coverage tag x [last] + coverage tag x [e] := by
  by_cases hempty : e.size = 0
  · have hnone : ¬ e.Covers x := by
      unfold Extent.Covers
      omega
    have hsame : last.extend e.size = last := by
      unfold Extent.extend
      rw [hempty, Nat.add_zero]
    rw [hsame, coverage_singleton tag x e, if_neg fun h => hnone h.2, Nat.add_zero]
  · -- Only an empty extent can follow one that ends at the last place.
    have hend : last.start + (last.size + e.size) ≤ m := hfits.1
    apply coverage_extend tag x
    refine ⟨hfollows.1, ?_⟩
    rw [← hfollows.2, Nat.mod_eq_of_lt (by omega)]

theorem coverage_foldl_of_runsFit (tag : Tag) (x : Nat) {es : List (Extent Tag)}
    (h : RunsFit m es) : coverage tag x (es.foldl (pushExtent m) []) = coverage tag x es := by
  induction es using List.reverseRecOn with
  | nil => rfl
  | append_singleton es e ih =>
      rcases runsFit_concat_iff.mp h with ⟨hes, hlast⟩
      have hsingle : e.Fits m := hlast [e] e (List.suffix_append es [e]) (IsRun.single e)
      rw [List.foldl_concat, coverage_concat, ← ih hes]
      by_cases hempty : es = []
      · subst hempty
        change coverage tag x [e.wrapped m] = 0 + coverage tag x [e]
        rw [Extent.wrapped_of_fits hsingle, Nat.zero_add]
      · rcases foldl_latest (m := m) hempty with ⟨whole, rest, hfold, hlatest⟩
        rcases hlatest.isRun with ⟨run, hsuffix, hrun⟩
        rw [hfold, Extent.wrapped_of_fits (hes run whole hsuffix.isInfix hrun)]
        by_cases hfollows : whole.Follows m e
        · rcases (hlatest.snoc hfollows).isRun with ⟨longer, hlonger, hwhole⟩
          have hfits := hlast longer _ hlonger hwhole
          rw [pushExtent_of_follows rest hfollows, Extent.wrapped_of_fits hfits, coverage_cons,
            coverage_extend_of_fits tag x hfollows hfits, coverage_cons tag x whole rest,
            Nat.add_assoc]
        · rw [pushExtent_of_not_follows rest hfollows, Extent.wrapped_of_fits hsingle,
            coverage_cons]

/-!
# What is lost

The first place is covered less often once a run does not fit.
-/

theorem coverage_le_of_covers (tag : Tag) {x : Nat} {first second : Extent Tag}
    (htag : first.tag = second.tag) (h : first.Covers x -> second.Covers x) :
    coverage tag x [first] ≤ coverage tag x [second] := by
  rw [coverage_singleton, coverage_singleton, htag]
  split
  · rename_i hcovers
    rw [if_pos ⟨hcovers.1, h hcovers.2⟩]
  · exact Nat.zero_le _

theorem coverage_extend_le (tag : Tag) {last e : Extent Tag} (hfollows : last.Follows m e) :
    coverage tag 0 [(last.extend e.size).wrapped m] ≤
      coverage tag 0 [last] + coverage tag 0 [e] := by
  have htag : ((last.extend e.size).wrapped m).tag = e.tag := hfollows.1
  by_cases hlast : last.Covers 0
  · apply Nat.le_trans _ (Nat.le_add_right _ _)
    exact coverage_le_of_covers tag rfl fun _ => hlast
  · apply Nat.le_trans _ (Nat.le_add_left _ _)
    apply coverage_le_of_covers tag htag
    intro hcovers
    -- The latest extent is an empty one at the first place.
    have hwhole := covers_of_wrapped hcovers
    have hstart := hfollows.2
    unfold Extent.extend Extent.Covers at hwhole
    unfold Extent.Covers at hlast ⊢
    dsimp only at hwhole
    have hzero : last.start + last.size = 0 := by omega
    rw [hzero, Nat.zero_mod] at hstart
    omega

theorem coverage_pushExtent_le (tag : Tag) (es : List (Extent Tag)) (e : Extent Tag) :
    coverage tag 0 (pushExtent m es e) ≤ coverage tag 0 es + coverage tag 0 [e] := by
  have hwrapped : coverage tag 0 [e.wrapped m] ≤ coverage tag 0 [e] :=
    coverage_le_of_covers tag rfl covers_of_wrapped
  cases es with
  | nil =>
      change coverage tag 0 [e.wrapped m] ≤ 0 + coverage tag 0 [e]
      omega
  | cons last rest =>
      by_cases hfollows : last.Follows m e
      · have hjoined := coverage_extend_le tag hfollows
        rw [pushExtent_of_follows rest hfollows, coverage_cons, coverage_cons tag 0 last rest]
        omega
      · rw [pushExtent_of_not_follows rest hfollows, coverage_cons]
        omega

theorem coverage_foldl_le (tag : Tag) (es : List (Extent Tag)) :
    coverage tag 0 (es.foldl (pushExtent m) []) ≤ coverage tag 0 es := by
  induction es using List.reverseRecOn with
  | nil => exact Nat.le_refl _
  | append_singleton es e ih =>
      rw [List.foldl_concat, coverage_concat]
      have hpush := coverage_pushExtent_le (m := m) tag (es.foldl (pushExtent m) []) e
      omega

theorem coverage_singleton_of_covers {x : Nat} {e : Extent Tag} (h : e.Covers x) :
    coverage e.tag x [e] = 1 := by
  rw [coverage_singleton, if_pos ⟨rfl, h⟩]

theorem coverage_singleton_of_not_covers (tag : Tag) {x : Nat} {e : Extent Tag}
    (h : ¬ e.Covers x) : coverage tag x [e] = 0 := by
  rw [coverage_singleton, if_neg fun hcovers => h hcovers.2]

theorem coverage_wrapped_lt {e : Extent Tag} (he : e.Inside m) (hnot : ¬ e.Fits m) :
    coverage e.tag 0 [e.wrapped m] < coverage e.tag 0 [e] := by
  have hloses := single_loses he hnot
  rw [coverage_singleton_of_not_covers e.tag hloses.1, coverage_singleton_of_covers hloses.2]
  exact Nat.one_pos

/-- An extent that is the first not to fit, alone or with those before it, is lost. -/
theorem coverage_pushExtent_lt {es run : List (Extent Tag)} {e other : Extent Tag}
    (hes : RunsFit m es) (hinside : forall e', e' ∈ es -> e'.start < m) (he : e.Inside m)
    (hsuffix : run <:+ es ++ [e]) (hrun : IsRun m run other) (hnot : ¬ other.Fits m) :
    coverage e.tag 0 (pushExtent m (es.foldl (pushExtent m) []) e) <
      coverage e.tag 0 (es.foldl (pushExtent m) []) + coverage e.tag 0 [e] := by
  by_cases hempty : es = []
  · subst hempty
    rw [suffix_run_singleton hsuffix hrun] at hnot
    change coverage e.tag 0 [e.wrapped m] < 0 + coverage e.tag 0 [e]
    rw [Nat.zero_add]
    exact coverage_wrapped_lt he hnot
  · rcases foldl_latest (m := m) hempty with ⟨whole, rest, hfold, hlatest⟩
    rcases hlatest.isRun with ⟨latest, hends, hwhole⟩
    rw [hfold, Extent.wrapped_of_fits (hes latest whole hends.isInfix hwhole)]
    by_cases hfollows : whole.Follows m e
    · rcases hlatest.joined_loses hes hinside he hfollows hsuffix hrun hnot with ⟨hlost, hparts⟩
      rw [pushExtent_of_follows rest hfollows, coverage_cons,
        coverage_singleton_of_not_covers e.tag hlost, coverage_cons e.tag 0 whole rest]
      rcases hparts with hlast | hcovers
      · have hone := coverage_singleton_of_covers hlast
        rw [hfollows.1] at hone
        omega
      · have hone := coverage_singleton_of_covers hcovers
        omega
    · rw [pushExtent_of_not_follows rest hfollows, coverage_cons]
      apply Nat.add_lt_add_left
      rcases suffix_run_cases hsuffix hrun with rfl | ⟨init, before, hinit, hbefore, hlast, -⟩
      · exact coverage_wrapped_lt he hnot
      · exact absurd (hlatest.follows hinit hbefore hlast) hfollows

/-- Some place is covered less often than by the extents, if a run of them does not fit. -/
theorem exists_coverage_foldl_lt {es : List (Extent Tag)}
    (hinside : forall e, e ∈ es -> e.Inside m) (h : ¬ RunsFit m es) :
    exists tag, coverage tag 0 (es.foldl (pushExtent m) []) < coverage tag 0 es := by
  induction es using List.reverseRecOn with
  | nil => exact absurd runsFit_nil h
  | append_singleton es e ih =>
      have hbefore : forall e', e' ∈ es -> e'.Inside m :=
        fun e' he' => hinside e' (List.mem_append_left [e] he')
      have he : e.Inside m := hinside e (List.mem_append_right es (List.mem_singleton_self e))
      by_cases hes : RunsFit m es
      · rw [runsFit_concat_iff] at h
        push Not at h
        rcases h hes with ⟨run, other, hsuffix, hrun, hnot⟩
        have hlost := coverage_pushExtent_lt hes (fun e' he' => (hbefore e' he').1) he hsuffix
          hrun hnot
        have hle := coverage_foldl_le (m := m) e.tag es
        refine ⟨e.tag, ?_⟩
        rw [List.foldl_concat, coverage_concat]
        omega
      · rcases ih hbefore hes with ⟨tag, hlost⟩
        have hpush := coverage_pushExtent_le (m := m) tag (es.foldl (pushExtent m) []) e
        refine ⟨tag, ?_⟩
        rw [List.foldl_concat, coverage_concat]
        omega

/-- All places are covered as often as by the extents exactly if every run of them fits. -/
theorem coverage_foldl_iff {es : List (Extent Tag)}
    (hinside : forall e, e ∈ es -> e.Inside m) :
    (forall tag x, coverage tag x (es.foldl (pushExtent m) []) = coverage tag x es) <->
      RunsFit m es := by
  constructor
  · intro hsame
    by_contra hnot
    rcases exists_coverage_foldl_lt hinside hnot with ⟨tag, hlost⟩
    exact absurd (hsame tag 0) (Nat.ne_of_lt hlost)
  · exact fun h tag x => coverage_foldl_of_runsFit tag x h

end Coverage

end Foundation
