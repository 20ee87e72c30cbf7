import Mathlib.Order.Interval.Finset.Nat
import Mathlib.Data.Finset.SDiff
import Mathlib.Data.List.Induction

/-!
# Page allocation

The pages in use are a finite set of page numbers.  An allocator may hand out
any run of whole free pages; what it is asked to free leaves the set only if
all of it is in use.  A client that first takes some runs and then frees some
leaves the set as it found it, with every free naming a run it was given,
exactly if the runs it frees are the runs it took.
-/

namespace Foundation

def sizeToPages (size : Nat) : Nat :=
  size / 4096 + if size % 4096 = 0 then 0 else 1

structure PageRun where
  base : Nat
  count : Nat
  deriving DecidableEq, Repr

def PageRun.pages (r : PageRun) : Finset Nat :=
  Finset.Ico (r.base / 4096) (r.base / 4096 + r.count)

/-- A run an allocator may hand out: whole pages of the address space, all free. -/
def Grantable (used : Finset Nat) (r : PageRun) : Prop :=
  r.base % 4096 = 0 ∧ 0 < r.count ∧ r.base + 4096 * r.count ≤ 2 ^ 64 ∧ Disjoint used r.pages

instance (used : Finset Nat) (r : PageRun) : Decidable (Grantable used r) :=
  inferInstanceAs (Decidable (_ ∧ _ ∧ _ ∧ _))

/-- The set after a run has been freed, if all of it was in use. -/
def freeRun (used : Finset Nat) (r : PageRun) : Finset Nat :=
  if r.base % 4096 = 0 ∧ r.pages ⊆ used then used \ r.pages else used

theorem sizeToPages_eq_self_iff {size : Nat} (h : 0 < size) :
    sizeToPages size = size <-> size = 1 := by
  unfold sizeToPages
  split <;> omega

namespace PageRun

theorem mem_pages {r : PageRun} {page : Nat} :
    page ∈ r.pages <-> r.base / 4096 ≤ page ∧ page < r.base / 4096 + r.count := by
  simp [pages]

theorem first_mem_pages {r : PageRun} (h : 0 < r.count) : r.base / 4096 ∈ r.pages := by
  rw [mem_pages]
  omega

end PageRun

/-!
# What a client asks for
-/

/-- The calls of a client that the allocator grants, and all its frees. -/
inductive PageCall where
  | allocate (r : PageRun)
  | free (r : PageRun)
  deriving DecidableEq, Repr

/-- Every free names the base and the count of an earlier allocation. -/
def FreesMatch (calls : List PageCall) : Prop :=
  forall before r after,
    calls = before ++ PageCall.free r :: after -> PageCall.allocate r ∈ before

def takeAll (used : Finset Nat) (held : List PageRun) : Finset Nat :=
  held.foldl (fun current r => current ∪ r.pages) used

def freeAll (used : Finset Nat) (freed : List PageRun) : Finset Nat :=
  freed.foldl freeRun used

/-- Every run was free when it was taken. -/
def Granted (used : Finset Nat) : List PageRun -> Prop
  | [] => True
  | r :: rs => Grantable used r ∧ Granted (used ∪ r.pages) rs

section Clients

variable {used : Finset Nat} {held freed : List PageRun} {calls : List PageCall} {r : PageRun}

theorem freesMatch_snoc_allocate :
    FreesMatch (calls ++ [PageCall.allocate r]) <-> FreesMatch calls := by
  constructor
  · intro h before r' after heq
    refine h before r' (after ++ [PageCall.allocate r]) ?_
    rw [heq, List.append_assoc, List.cons_append]
  · intro h before r' after heq
    cases after using List.reverseRec with
    | nil => cases (List.append_inj' heq rfl).2
    | append_singleton rest last _ =>
        rw [← List.cons_append, ← List.append_assoc] at heq
        exact h before r' rest (List.append_inj' heq rfl).1

theorem freesMatch_snoc_free :
    FreesMatch (calls ++ [PageCall.free r]) <->
      FreesMatch calls ∧ PageCall.allocate r ∈ calls := by
  constructor
  · intro h
    refine ⟨?_, h calls r [] rfl⟩
    intro before r' after heq
    refine h before r' (after ++ [PageCall.free r]) ?_
    rw [heq, List.append_assoc, List.cons_append]
  · rintro ⟨h, hmem⟩ before r' after heq
    cases after using List.reverseRec with
    | nil =>
        rcases List.append_inj' heq rfl with ⟨hcalls, hlast⟩
        cases hlast
        rwa [← hcalls]
    | append_singleton rest last _ =>
        rw [← List.cons_append, ← List.append_assoc] at heq
        exact h before r' rest (List.append_inj' heq rfl).1

theorem freesMatch_allocate (held : List PageRun) :
    FreesMatch (held.map PageCall.allocate) := by
  induction held using List.reverseRec with
  | nil =>
      intro before r after heq
      cases before <;> cases heq
  | append_singleton rs r ih =>
      rw [List.map_append]
      exact freesMatch_snoc_allocate.mpr ih

theorem freesMatch_iff :
    FreesMatch (held.map PageCall.allocate ++ freed.map PageCall.free) <->
      forall r, r ∈ freed -> r ∈ held := by
  induction freed using List.reverseRec with
  | nil => simpa using freesMatch_allocate held
  | append_singleton rs r ih =>
      rw [List.map_append, ← List.append_assoc, List.map_singleton, freesMatch_snoc_free, ih]
      simp only [List.mem_append, List.mem_map, PageCall.allocate.injEq, exists_eq_right,
        reduceCtorEq, and_false, exists_false, or_false, List.mem_singleton]
      constructor
      · rintro ⟨hrest, hlast⟩ r' (hr' | rfl)
        · exact hrest r' hr'
        · exact hlast
      · intro h
        exact ⟨fun r' hr' => h r' (Or.inl hr'), h r (Or.inr rfl)⟩

theorem takeAll_snoc : takeAll used (held ++ [r]) = takeAll used held ∪ r.pages := by
  simp [takeAll]

theorem freeAll_snoc : freeAll used (freed ++ [r]) = freeRun (freeAll used freed) r := by
  simp [freeAll]

theorem mem_takeAll {page : Nat} :
    page ∈ takeAll used held <-> page ∈ used ∨ exists r, r ∈ held ∧ page ∈ r.pages := by
  induction held using List.reverseRec with
  | nil => simp [takeAll]
  | append_singleton rs r ih =>
      rw [takeAll_snoc, Finset.mem_union, ih]
      simp only [List.mem_append, List.mem_singleton]
      constructor
      · intro hcase
        rcases hcase with (h | ⟨r', hr', h⟩) | h
        · exact Or.inl h
        · exact Or.inr ⟨r', Or.inl hr', h⟩
        · exact Or.inr ⟨r, Or.inr rfl, h⟩
      · intro hcase
        rcases hcase with h | ⟨r', hr' | rfl, h⟩
        · exact Or.inl (Or.inl h)
        · exact Or.inl (Or.inr ⟨r', hr', h⟩)
        · exact Or.inr h

theorem granted_append {rest : List PageRun} :
    Granted used (held ++ rest) <-> Granted used held ∧ Granted (takeAll used held) rest := by
  induction held generalizing used with
  | nil => simp [Granted, takeAll]
  | cons r rs ih =>
      show Grantable used r ∧ Granted (used ∪ r.pages) (rs ++ rest) <-> _
      rw [ih, ← and_assoc]
      rfl

theorem granted_snoc :
    Granted used (held ++ [r]) <-> Granted used held ∧ Grantable (takeAll used held) r := by
  rw [granted_append]
  simp [Granted]

theorem Granted.mem (h : Granted used held) (hr : r ∈ held) :
    r.base % 4096 = 0 ∧ 0 < r.count ∧ Disjoint used r.pages := by
  induction held generalizing used with
  | nil => cases hr
  | cons r' rs ih =>
      rcases h with ⟨hgrant, hrest⟩
      rcases List.mem_cons.mp hr with rfl | hr
      · exact ⟨hgrant.1, hgrant.2.1, hgrant.2.2.2⟩
      · rcases ih hrest hr with ⟨hbase, hcount, hdisjoint⟩
        exact ⟨hbase, hcount, hdisjoint.mono_left Finset.subset_union_left⟩

theorem Granted.eq_of_mem (h : Granted used held) {r r' : PageRun} (hr : r ∈ held)
    (hr' : r' ∈ held) {page : Nat} (hpage : page ∈ r.pages) (hpage' : page ∈ r'.pages) :
    r = r' := by
  induction held using List.reverseRec with
  | nil => cases hr
  | append_singleton rs last ih =>
      rcases granted_snoc.mp h with ⟨hrest, hlast⟩
      have hnew : forall x, x ∈ rs -> page ∈ x.pages -> page ∉ last.pages := by
        intro x hx hpage
        exact Finset.disjoint_left.mp hlast.2.2.2 (mem_takeAll.mpr (Or.inr ⟨x, hx, hpage⟩))
      simp only [List.mem_append, List.mem_singleton] at hr hr'
      rcases hr with hr | rfl
      · rcases hr' with hr' | rfl
        · exact ih hrest hr hr'
        · exact absurd hpage' (hnew r hr hpage)
      · rcases hr' with hr' | rfl
        · exact absurd hpage (hnew r' hr' hpage')
        · rfl

theorem Granted.base_ne (h : Granted used (r :: held)) {r' : PageRun} (hr' : r' ∈ held) :
    r'.base ≠ r.base := by
  rcases h with ⟨hgrant, hrest⟩
  rcases hrest.mem hr' with ⟨-, hcount, hdisjoint⟩
  intro heq
  have hfirst := PageRun.first_mem_pages hgrant.2.1
  rw [← heq] at hfirst
  exact Finset.disjoint_left.mp hdisjoint (Finset.mem_union_right _ hfirst)
    (PageRun.first_mem_pages hcount)

/-- Of the runs held, freeing some leaves the pages of the others. -/
theorem mem_freeAll (h : Granted used held) (hsub : forall r, r ∈ freed -> r ∈ held)
    {page : Nat} :
    page ∈ freeAll (takeAll used held) freed <->
      page ∈ takeAll used held ∧ forall r, r ∈ freed -> page ∉ r.pages := by
  induction freed using List.reverseRec generalizing page with
  | nil => simp [freeAll]
  | append_singleton rs last ih =>
      have hrs : forall r, r ∈ rs -> r ∈ held := fun r hr =>
        hsub r (List.mem_append_left _ hr)
      have hlast : last ∈ held := hsub last (by simp)
      have hbase := (h.mem hlast).1
      rw [freeAll_snoc]
      -- The last run is either still whole or was freed before.
      have hfree : page ∈ freeRun (freeAll (takeAll used held) rs) last <->
          page ∈ freeAll (takeAll used held) rs ∧ page ∉ last.pages := by
        unfold freeRun
        by_cases hdone : last ∈ rs
        · have hgone : forall x, x ∈ last.pages -> x ∉ freeAll (takeAll used held) rs := by
            intro x hx hfreed
            exact ((ih hrs).mp hfreed).2 last hdone hx
          rw [if_neg]
          · constructor
            · intro hpage
              exact ⟨hpage, fun hmem => hgone page hmem hpage⟩
            · exact fun hpage => hpage.1
          · intro hcase
            rcases hcase with ⟨-, hwhole⟩
            have hfirst := PageRun.first_mem_pages (h.mem hlast).2.1
            exact hgone _ hfirst (hwhole hfirst)
        · rw [if_pos, Finset.mem_sdiff]
          refine ⟨hbase, ?_⟩
          intro x hx
          refine (ih hrs).mpr ⟨mem_takeAll.mpr (Or.inr ⟨last, hlast, hx⟩), ?_⟩
          intro r hr hxr
          rw [h.eq_of_mem hlast (hrs r hr) hx hxr] at hdone
          exact hdone hr
      rw [hfree, ih hrs]
      simp only [List.mem_append, List.mem_singleton]
      constructor
      · intro hcase
        rcases hcase with ⟨⟨hpage, hothers⟩, hnot⟩
        refine ⟨hpage, ?_⟩
        rintro r (hr | rfl)
        · exact hothers r hr
        · exact hnot
      · intro hcase
        rcases hcase with ⟨hpage, hall⟩
        exact ⟨⟨hpage, fun r hr => hall r (Or.inl hr)⟩, hall last (Or.inr rfl)⟩

/--
A client that holds some runs leaves the pages as it found them, and frees only
what it was given, exactly if it frees the runs it holds.
-/
theorem balanced_iff (h : Granted used held) :
    (freeAll (takeAll used held) freed = used ∧
      FreesMatch (held.map PageCall.allocate ++ freed.map PageCall.free)) <->
      forall r, r ∈ freed <-> r ∈ held := by
  rw [freesMatch_iff]
  constructor
  · rintro ⟨hused, hsub⟩ r
    refine ⟨hsub r, ?_⟩
    intro hr
    rcases h.mem hr with ⟨-, hcount, hdisjoint⟩
    have hfirst := PageRun.first_mem_pages hcount
    have hnot : r.base / 4096 ∉ freeAll (takeAll used held) freed := by
      rw [hused]
      exact Finset.disjoint_right.mp hdisjoint hfirst
    rw [mem_freeAll h hsub] at hnot
    by_contra hkept
    apply hnot
    refine ⟨mem_takeAll.mpr (Or.inr ⟨r, hr, hfirst⟩), ?_⟩
    intro r' hr' hpage
    rw [h.eq_of_mem hr (hsub r' hr') hfirst hpage] at hkept
    exact hkept hr'
  · intro hsame
    have hsub : forall r, r ∈ freed -> r ∈ held := fun r => (hsame r).mp
    refine ⟨?_, hsub⟩
    ext page
    rw [mem_freeAll h hsub, mem_takeAll]
    constructor
    · intro hcase
      rcases hcase with ⟨hused | ⟨r, hr, hpage⟩, hkept⟩
      · exact hused
      · exact absurd hpage (hkept r ((hsame r).mpr hr))
    · intro hused
      refine ⟨Or.inl hused, ?_⟩
      intro r hr
      exact Finset.disjoint_left.mp (h.mem (hsub r hr)).2.2 hused

end Clients

end Foundation
