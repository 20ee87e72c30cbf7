import BootableUefi.BootImage.Start
import BootableUefi.Foundation.Tiles

/-!
# The search for pages

`emalloc` asks the firmware for pages at the rounded start of every descriptor
that looks large enough, until a request is granted.  A descriptor that begins
below 1 MiB takes its low bytes off the size that later descriptors are
compared with, and the rounding is done with a mask in the width of `UINTN`.
-/

namespace BootableUefi
namespace BootImage

open Firmware Foundation

namespace MemoryDescriptor

variable (desc : MemoryDescriptor)

/-- A descriptor that is not passed over. -/
def Usable (nrPages : Nat) : Prop :=
  desc.type = efiConventionalMemory ∧ nrPages ≤ desc.numberOfPages.toNat ∧ 2 ^ 20 < desc.stop

instance (nrPages : Nat) : Decidable (desc.Usable nrPages) :=
  inferInstanceAs (Decidable (_ ∧ _ ∧ _))

def lowBytes : Nat :=
  2 ^ 20 - desc.physicalStart.toNat

/-- Conventional memory on both sides of 1 MiB. -/
def Across : Prop :=
  desc.type = efiConventionalMemory ∧ desc.physicalStart.toNat < 2 ^ 20 ∧ 2 ^ 20 < desc.stop

def Apart (d e : MemoryDescriptor) : Prop :=
  d.stop ≤ e.physicalStart.toNat ∨ e.stop ≤ d.physicalStart.toNat

/-- The start, or 1 MiB, rounded up and reduced to the width of `UINTN`. -/
def searchAddress (arch : Arch) (align : Nat) : Nat :=
  arch.uintn (alignUp align (max desc.physicalStart.toNat (2 ^ 20)))

end MemoryDescriptor

/-- The bytes below 1 MiB that the search has come across. -/
def lowTotal (nrPages : Nat) (descs : List MemoryDescriptor) : Nat :=
  ((descs.filter fun desc => desc.Usable nrPages).map MemoryDescriptor.lowBytes).sum

/-- The size less the low bytes, as a `UINTN`. -/
def sizeLeft (arch : Arch) (size : Nat) (descs : List MemoryDescriptor) : Nat :=
  (((size : Int) - lowTotal (sizeToPages size) descs) % 2 ^ arch.uintnBits).toNat

/-- The search asks for pages in a descriptor that comes after the others. -/
structure AsksAfter (arch : Arch) (size align : Nat) (before : List MemoryDescriptor)
    (desc : MemoryDescriptor) : Prop where
  usable : desc.Usable (sizeToPages size)
  fits : u64 (desc.searchAddress arch align + sizeLeft arch size (before ++ [desc])) ≤ desc.stop

def Asks (arch : Arch) (size align : Nat) (descs : List MemoryDescriptor)
    (desc : MemoryDescriptor) : Prop :=
  exists before after, descs = before ++ desc :: after ∧ AsksAfter arch size align before desc

section Sizes

variable {arch : Arch} {size align : Nat} {before : List MemoryDescriptor}
  {desc : MemoryDescriptor}

theorem lowTotal_snoc (nrPages : Nat) :
    lowTotal nrPages (before ++ [desc]) =
      lowTotal nrPages before + if desc.Usable nrPages then desc.lowBytes else 0 := by
  unfold lowTotal
  rw [List.filter_append, List.map_append, List.sum_append]
  split
  · rename_i husable
    simp [husable]
  · rename_i husable
    simp [husable]

theorem sizeLeft_snoc_of_not_usable (h : ¬ desc.Usable (sizeToPages size)) :
    sizeLeft arch size (before ++ [desc]) = sizeLeft arch size before := by
  unfold sizeLeft
  rw [lowTotal_snoc, if_neg h, Nat.add_zero]

theorem sizeLeft_snoc_of_usable (h : desc.Usable (sizeToPages size)) :
    sizeAboveLowMemory arch desc.physicalStart.toNat (sizeLeft arch size before) =
      sizeLeft arch size (before ++ [desc]) := by
  unfold sizeLeft sizeAboveLowMemory
  rw [lowTotal_snoc, if_pos h]
  unfold MemoryDescriptor.lowBytes
  generalize lowTotal (sizeToPages size) before = total
  split
  · cases arch <;> unfold Arch.uintn Arch.uintnBits <;> dsimp only <;> omega
  · rw [Nat.sub_eq_zero_of_le (by omega), Nat.add_zero]

end Sizes

section LowMemory

variable {nrPages : Nat} {descs : List MemoryDescriptor}

theorem lowBytes_eq_zero {desc : MemoryDescriptor} (husable : desc.Usable nrPages)
    (hnot : ¬ desc.Across) : desc.lowBytes = 0 := by
  apply Nat.sub_eq_zero_of_le
  by_contra hlow
  exact hnot ⟨husable.1, Nat.lt_of_not_le hlow, husable.2.2⟩

theorem lowTotal_eq_zero (h : forall desc, desc ∈ descs -> ¬ desc.Across) :
    lowTotal nrPages descs = 0 := by
  apply List.sum_eq_zero
  intro bytes hbytes
  rcases List.mem_map.mp hbytes with ⟨desc, hdesc, rfl⟩
  rcases List.mem_filter.mp hdesc with ⟨hmem, husable⟩
  exact lowBytes_eq_zero (of_decide_eq_true husable) (h desc hmem)

/-- Of descriptors that do not overlap, only one lies across 1 MiB. -/
theorem lowTotal_le_of_apart (h : descs.Pairwise MemoryDescriptor.Apart) :
    lowTotal nrPages descs ≤ 2 ^ 20 := by
  induction descs with
  | nil => exact Nat.zero_le _
  | cons desc descs ih =>
      rw [List.pairwise_cons] at h
      have hrest := ih h.2
      by_cases husable : desc.Usable nrPages
      · have hcons : lowTotal nrPages (desc :: descs) =
            desc.lowBytes + lowTotal nrPages descs := by
          simp [lowTotal, husable]
        rw [hcons]
        by_cases hacross : desc.Across
        · have hothers : forall other, other ∈ descs -> ¬ other.Across := by
            intro other hmem hother
            rcases h.1 other hmem with hbefore | hbehind
            · exact absurd (hacross.2.2.trans_le hbefore) (Nat.lt_asymm hother.2.1)
            · exact absurd (hother.2.2.trans_le hbehind) (Nat.lt_asymm hacross.2.1)
          rw [lowTotal_eq_zero hothers, Nat.add_zero]
          exact Nat.sub_le _ _
        · rw [lowBytes_eq_zero husable hacross, Nat.zero_add]
          exact hrest
      · have hcons : lowTotal nrPages (desc :: descs) = lowTotal nrPages descs := by
          simp [lowTotal, husable]
        rw [hcons]
        exact hrest

theorem sizeLeft_of_not_across {arch : Arch} {size : Nat} (hsize : size < 2 ^ arch.uintnBits)
    (h : forall desc, desc ∈ descs -> ¬ desc.Across) : sizeLeft arch size descs = size := by
  unfold sizeLeft
  rw [lowTotal_eq_zero h, Int.natCast_zero, Int.sub_zero]
  have hmod : (size : Int) % 2 ^ arch.uintnBits = size :=
    Int.emod_eq_of_lt (Int.natCast_nonneg size) (by exact_mod_cast hsize)
  rw [hmod, Int.toNat_natCast]

theorem sizeLeft_nil {arch : Arch} {size : Nat} (hsize : size < 2 ^ arch.uintnBits) :
    sizeLeft arch size [] = size :=
  sizeLeft_of_not_across hsize fun _ hdesc => absurd hdesc List.not_mem_nil

end LowMemory

theorem alignedStart_eq (arch : Arch) {start k : Nat} (hk : k < arch.uintnBits) :
    alignedStart arch start (2 ^ k) = arch.uintn (alignUp (2 ^ k) start) := by
  have hpos := Nat.two_pow_pos k
  have hlt : 2 ^ k < 2 ^ arch.uintnBits := Nat.pow_lt_pow_right (by decide) hk
  have hwide : arch.uintnBits ≤ 64 := by cases arch <;> decide
  have hmask : 2 ^ arch.uintnBits - 1 - arch.uintn (2 ^ k + (2 ^ 64 - 1)) =
      2 ^ arch.uintnBits - 2 ^ k := by
    have hlow : arch.uintn (2 ^ k + (2 ^ 64 - 1)) = 2 ^ k - 1 := by
      cases arch <;> unfold Arch.uintn Arch.uintnBits at * <;> dsimp only at * <;> omega
    rw [hlow]
    omega
  have hsum : u64 (start + 2 ^ k + (2 ^ 64 - 1)) = (start + 2 ^ k - 1) % 2 ^ 64 := by
    unfold u64
    omega
  unfold alignedStart
  rw [hmask, hsum]
  exact round_and_mask hk.le hwide start

/-!
# What a search does
-/

def Refuses (env : LoadEnv) (size align : Nat) (s : LoadState) (desc : MemoryDescriptor) :
    Prop :=
  exists t, SameMemory s t ∧
    (allocatePages env AllocateType.address (sizeToPages size)
      (desc.searchAddress env.arch align) t).1 ≠ EfiStatus.success

def searchRun (arch : Arch) (size align : Nat) (desc : MemoryDescriptor) : PageRun where
  base := desc.searchAddress arch align
  count := sizeToPages size

/-- All requests are refused, or one is granted. -/
inductive SearchOutcome (env : LoadEnv) (size align : Nat) (s : LoadState)
    (asks : MemoryDescriptor -> Prop) : Except EfiStatus Nat × LoadState -> Prop where
  | refused {status : EfiStatus} {t : LoadState}
      (hall : forall desc, asks desc -> Refuses env size align s desc) :
      SearchOutcome env size align s asks (Except.error status, t)
  | granted {desc : MemoryDescriptor} {t : LoadState} (hasks : asks desc)
      (hrun : HandsOut s (searchRun env.arch size align desc) t) :
      SearchOutcome env size align s asks
        (Except.ok (desc.searchAddress env.arch align), t)

theorem SearchOutcome.of_ok {env : LoadEnv} {size align base : Nat} {s t : LoadState}
    {asks : MemoryDescriptor -> Prop} (h : SearchOutcome env size align s asks (Except.ok base, t)) :
    exists desc, asks desc ∧ base = desc.searchAddress env.arch align ∧
      HandsOut s (searchRun env.arch size align desc) t := by
  generalize hresult : ((Except.ok base, t) : Except EfiStatus Nat × LoadState) = result at h
  cases h with
  | refused => cases congrArg Prod.fst hresult
  | @granted desc t' hasks hgranted =>
      cases hresult
      exact ⟨desc, hasks, rfl, hgranted⟩

theorem Refuses.of_sameMemory {env : LoadEnv} {size align : Nat} {s t : LoadState}
    {desc : MemoryDescriptor} (hsame : SameMemory s t) (h : Refuses env size align t desc) :
    Refuses env size align s desc := by
  rcases h with ⟨u, hsame', hrefused⟩
  exact ⟨u, hsame.trans hsame', hrefused⟩

theorem SearchOutcome.after {env : LoadEnv} {size align : Nat} {s t : LoadState}
    {later asks : MemoryDescriptor -> Prop} {result : Except EfiStatus Nat × LoadState}
    (h : SearchOutcome env size align t later result) (hsame : SameMemory s t)
    (hmore : forall desc, later desc -> asks desc)
    (hfirst : forall desc, asks desc -> later desc ∨ Refuses env size align s desc) :
    SearchOutcome env size align s asks result := by
  cases h with
  | refused hall =>
      refine SearchOutcome.refused ?_
      intro desc hasks
      rcases hfirst desc hasks with hlater | hrefused
      · exact (hall desc hlater).of_sameMemory hsame
      · exact hrefused
  | granted hasks hrun =>
      exact SearchOutcome.granted (hmore _ hasks) (hsame.handsOut hrun)

def AsksIn (arch : Arch) (size align : Nat) (before rest : List MemoryDescriptor)
    (desc : MemoryDescriptor) : Prop :=
  exists middle after, rest = middle ++ desc :: after ∧
    AsksAfter arch size align (before ++ middle) desc

theorem asksIn_cons {arch : Arch} {size align : Nat} {before rest : List MemoryDescriptor}
    {first desc : MemoryDescriptor} :
    AsksIn arch size align before (first :: rest) desc <->
      (desc = first ∧ AsksAfter arch size align before first) ∨
        AsksIn arch size align (before ++ [first]) rest desc := by
  constructor
  · rintro ⟨middle, after, heq, hasks⟩
    cases middle with
    | nil =>
        cases heq
        rw [List.append_nil] at hasks
        exact Or.inl ⟨rfl, hasks⟩
    | cons d middle =>
        cases heq
        refine Or.inr ⟨middle, after, rfl, ?_⟩
        rwa [List.append_assoc]
  · rintro (⟨rfl, hasks⟩ | ⟨middle, after, rfl, hasks⟩)
    · refine ⟨[], rest, rfl, ?_⟩
      rwa [List.append_nil]
    · refine ⟨first :: middle, after, rfl, ?_⟩
      rwa [List.append_assoc] at hasks

theorem emallocLoop_search (env : LoadEnv) (size : Nat) {k : Nat} (hk : k < env.arch.uintnBits)
    (before rest : List MemoryDescriptor) (s : LoadState) :
    SearchOutcome env size (2 ^ k) s (AsksIn env.arch size (2 ^ k) before rest)
      (emallocLoop env (sizeToPages size) (2 ^ k) rest (sizeLeft env.arch size before) s) := by
  induction rest generalizing before s with
  | nil =>
      refine SearchOutcome.refused ?_
      rintro desc ⟨middle, after, heq, -⟩
      cases middle <;> cases heq
  | cons first rest ih =>
      -- Where the search does not ask, it goes on with the size that is left.
      have hskip : forall {t : LoadState}, SameMemory s t ->
          (AsksAfter env.arch size (2 ^ k) before first ->
            Refuses env size (2 ^ k) s first) ->
          SearchOutcome env size (2 ^ k) s (AsksIn env.arch size (2 ^ k) before (first :: rest))
            (emallocLoop env (sizeToPages size) (2 ^ k) rest
              (sizeLeft env.arch size (before ++ [first])) t) := by
        intro t hsame hfirst
        refine (ih (before ++ [first]) t).after hsame ?_ ?_
        · exact fun desc hlater => asksIn_cons.mpr (Or.inr hlater)
        · intro desc hasks
          rcases asksIn_cons.mp hasks with ⟨rfl, hhere⟩ | hlater
          · exact Or.inr (hfirst hhere)
          · exact Or.inl hlater
      unfold emallocLoop
      dsimp only
      split
      · rename_i hpassed
        have hnot : ¬ first.Usable (sizeToPages size) := by
          rintro ⟨htype, hpages, hstop⟩
          rcases hpassed with h | h | h
          · exact h htype
          · omega
          · omega
        rw [← sizeLeft_snoc_of_not_usable hnot]
        exact hskip (SameMemory.refl s) fun hasks => absurd hasks.usable hnot
      · rename_i hkept
        have husable : first.Usable (sizeToPages size) := by
          simp only [not_or, Decidable.not_not, Nat.not_lt, Nat.not_le] at hkept
          exact hkept
        rw [sizeLeft_snoc_of_usable husable, alignedStart_eq env.arch hk]
        split
        · rename_i hfits
          have hasks : AsksAfter env.arch size (2 ^ k) before first := ⟨husable, hfits⟩
          rcases allocatePages_cases env AllocateType.address (sizeToPages size)
              (first.searchAddress env.arch (2 ^ k)) s with
            ⟨status, t, heq, hstatus, hsame⟩ | ⟨base, t, heq, hgrant, hbase, -⟩
          · have hrefuses : Refuses env size (2 ^ k) s first := by
              refine ⟨s, SameMemory.refl s, ?_⟩
              rwa [heq]
            unfold MemoryDescriptor.searchAddress at heq
            rw [heq]
            split
            · rename_i hsuccess
              exact absurd (congrArg Prod.fst hsuccess) hstatus
            · rename_i hfail
              cases hfail
              exact hskip hsame fun _ => hrefuses
          · have hbase' : base = first.searchAddress env.arch (2 ^ k) := hbase
            subst hbase'
            unfold MemoryDescriptor.searchAddress at heq
            rw [heq]
            exact SearchOutcome.granted (asksIn_cons.mpr (Or.inl ⟨rfl, hasks⟩)) hgrant
        · rename_i hfits
          exact hskip (SameMemory.refl s) fun hasks => absurd hasks.fits hfits

theorem emalloc_search {env : LoadEnv} {size k : Nat} {s : LoadState}
    {descs : List MemoryDescriptor} (hsize : size < 2 ^ env.arch.uintnBits)
    (hk : k < env.arch.uintnBits)
    (hmap : memoryMap (env.mapReplies s.mapCalls) = Except.ok descs) :
    SearchOutcome env size (2 ^ k) s (Asks env.arch size (2 ^ k) descs)
      (emalloc env size (2 ^ k) s) := by
  have hsame : SameMemory s { s with mapCalls := s.mapCalls + 1 } := ⟨rfl, rfl, rfl, rfl⟩
  have hloop := emallocLoop_search env size hk [] descs
    { s with mapCalls := s.mapCalls + 1 }
  rw [sizeLeft_nil hsize] at hloop
  unfold emalloc
  rw [hmap]
  exact hloop.after hsame (fun _ h => h) fun _ h => Or.inl h

end BootImage
end BootableUefi
