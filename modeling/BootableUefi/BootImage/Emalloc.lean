import BootableUefi.BootImage.PageSearch

/-!
# What the search finds

An address that `emalloc` returns is aligned, and is the one the firmware was
asked for.  That it is not below 1 MiB, and that the search succeeds when there
is room, holds as far as the reduced addresses and sizes do not lead it astray.
-/

namespace BootableUefi
namespace BootImage

open Firmware Foundation

/-- A call of `emalloc` on a machine of this width, with this memory map. -/
structure RunsOn (arch : Arch) (descs : List MemoryDescriptor) (env : LoadEnv)
    (s : LoadState) : Prop where
  arch : env.arch = arch
  map : memoryMap (env.mapReplies s.mapCalls) = Except.ok descs

def grantingEnv (arch : Arch) (descs : List MemoryDescriptor) : LoadEnv :=
  { smallEnv with
    arch := arch
    pageAnswer := fun _ => { status := EfiStatus.success, base := 0 }
    mapReplies := fun _ => [{ status := EfiStatus.success, descriptors := descs }] }

theorem grantingEnv_runsOn (arch : Arch) (descs : List MemoryDescriptor) (s : LoadState) :
    RunsOn arch descs (grantingEnv arch descs) s where
  arch := rfl
  map := rfl

section Granting

variable {arch : Arch} {descs : List MemoryDescriptor} {s : LoadState}

theorem allocatePages_grantingEnv {run : PageRun} (h : Grantable s.used run) :
    (allocatePages (grantingEnv arch descs) AllocateType.address run.count run.base s).1 =
      EfiStatus.success := by
  unfold allocatePages
  dsimp only
  rw [if_neg (by simp [grantingEnv]), if_pos ⟨h, rfl⟩]

theorem not_refuses_grantingEnv {size align : Nat} {desc : MemoryDescriptor}
    (h : Grantable s.used (searchRun arch size align desc)) :
    ¬ Refuses (grantingEnv arch descs) size align s desc := by
  rintro ⟨t, hsame, hrefused⟩
  rw [← hsame.used] at h
  exact hrefused (allocatePages_grantingEnv h)

end Granting

theorem searchAddress_dvd (arch : Arch) (desc : MemoryDescriptor) {k : Nat}
    (hk : k < arch.uintnBits) : 2 ^ k ∣ desc.searchAddress arch (2 ^ k) :=
  (Nat.dvd_mod_iff (Nat.pow_dvd_pow 2 hk.le)).mpr (alignUp_dvd (Nat.two_pow_pos k) _)

theorem searchAddress_eq {arch : Arch} {desc : MemoryDescriptor} {align : Nat}
    (h : alignUp align (max desc.physicalStart.toNat (2 ^ 20)) < 2 ^ arch.uintnBits) :
    desc.searchAddress arch align = alignUp align (max desc.physicalStart.toNat (2 ^ 20)) :=
  Nat.mod_eq_of_lt h

/-!
# The address returned
-/

/-- The result is aligned, not in low memory, and what the firmware was asked for. -/
structure Placed (size align : Nat) (s : LoadState) (base : Nat) (t : LoadState) : Prop where
  aligned : align ∣ base
  high : 2 ^ 20 ≤ base
  asked : t.log =
    s.log ++ [LoadEvent.allocatePages { base := base, count := sizeToPages size }]

/-- So it is whenever `emalloc` succeeds with this memory map. -/
def PlacesHigh (arch : Arch) (size align : Nat) (descs : List MemoryDescriptor) : Prop :=
  forall env s base t, RunsOn arch descs env s ->
    emalloc env size align s = (Except.ok base, t) -> Placed size align s base t

theorem base_eq_of_pages_subset {r r' : PageRun} (hbase : r.base % 4096 = 0)
    (hbase' : r'.base % 4096 = 0) (hcount : r.count = r'.count) (hpos : 0 < r.count)
    (hsub : r.pages ⊆ r'.pages) : r.base = r'.base := by
  have hfirst := PageRun.mem_pages.mp (hsub (PageRun.first_mem_pages hpos))
  have hlast : r.base / 4096 + r.count - 1 ∈ r.pages := by
    rw [PageRun.mem_pages]
    omega
  have hlast' := PageRun.mem_pages.mp (hsub hlast)
  omega

/-- With only one run free, that run is granted if the search asks for it. -/
theorem emalloc_onlyRun {arch : Arch} {size k : Nat} {descs : List MemoryDescriptor}
    {desc : MemoryDescriptor} (hsize : size < 2 ^ arch.uintnBits) (hk : k < arch.uintnBits)
    (hasks : Asks arch size (2 ^ k) descs desc)
    (hgrant : Grantable ∅ (searchRun arch size (2 ^ k) desc)) (image : Mem) :
    exists used t, emalloc (grantingEnv arch descs) size (2 ^ k) (LoadState.enter image used) =
      (Except.ok (desc.searchAddress arch (2 ^ k)), t) := by
  rcases hgrant with ⟨hbase, hcount, hspace, -⟩
  have hothers : forall run : PageRun,
      Grantable (Finset.range (2 ^ 52) \ (searchRun arch size (2 ^ k) desc).pages) run <->
        run.base % 4096 = 0 ∧ 0 < run.count ∧ run.base + 4096 * run.count ≤ 2 ^ 64 ∧
          run.pages ⊆ (searchRun arch size (2 ^ k) desc).pages := by
    intro run
    unfold Grantable
    refine and_congr_right fun hbase => and_congr_right fun hcount => and_congr_right ?_
    intro hspace
    rw [Finset.disjoint_right]
    refine forall_congr' fun page => imp_congr_right fun hpage => ?_
    have hlt := (PageRun.mem_pages.mp hpage).2
    have hrange : page ∈ Finset.range (2 ^ 52) := Finset.mem_range.mpr (by omega)
    simp only [Finset.mem_sdiff, hrange, true_and, Decidable.not_not]
  refine ⟨Finset.range (2 ^ 52) \ (searchRun arch size (2 ^ k) desc).pages, ?_⟩
  generalize hs : LoadState.enter _ _ = s
  have hfree : Grantable s.used (searchRun arch size (2 ^ k) desc) := by
    rw [← hs]
    exact (hothers _).mpr ⟨hbase, hcount, hspace, subset_rfl⟩
  have hsearch : SearchOutcome (grantingEnv arch descs) size (2 ^ k) s
      (Asks arch size (2 ^ k) descs) (emalloc (grantingEnv arch descs) size (2 ^ k) s) :=
    emalloc_search hsize hk (grantingEnv_runsOn arch descs s).map
  generalize emalloc (grantingEnv arch descs) size (2 ^ k) s = result at hsearch
  cases hsearch with
  | refused hall => exact absurd (hall desc hasks) (not_refuses_grantingEnv hfree)
  | @granted desc' t hasks' hrun =>
      have hfree' := hrun.free
      rw [← hs] at hfree'
      rcases (hothers _).mp hfree' with ⟨hbase', hcount', -, hsub⟩
      have heq : desc'.searchAddress arch (2 ^ k) = desc.searchAddress arch (2 ^ k) :=
        base_eq_of_pages_subset hbase' hbase rfl hcount' hsub
      refine ⟨t, ?_⟩
      rw [← heq]
      rfl

theorem placesHigh_of_asks {arch : Arch} {size k : Nat} {descs : List MemoryDescriptor}
    (hsize : size < 2 ^ arch.uintnBits) (hk : k < arch.uintnBits)
    (h : forall desc, Asks arch size (2 ^ k) descs desc ->
      Grantable ∅ (searchRun arch size (2 ^ k) desc) ->
      2 ^ 20 ≤ desc.searchAddress arch (2 ^ k)) : PlacesHigh arch size (2 ^ k) descs := by
  rintro env s base t ⟨rfl, hmap⟩ hrun
  have hsearch := emalloc_search hsize hk hmap
  rw [hrun] at hsearch
  rcases hsearch.of_ok with ⟨desc, hasks, rfl, hgranted⟩
  rcases hgranted.free with ⟨hbase, hcount, hspace, -⟩
  refine ⟨searchAddress_dvd env.arch desc hk, ?_, hgranted.log⟩
  exact h desc hasks ⟨hbase, hcount, hspace, Finset.disjoint_empty_left _⟩

theorem le_searchAddress {arch : Arch} {desc : MemoryDescriptor} {align : Nat}
    (h : alignUp align (max desc.physicalStart.toNat (2 ^ 20)) < 2 ^ arch.uintnBits) :
    2 ^ 20 ≤ desc.searchAddress arch align := by
  rw [searchAddress_eq h]
  exact (Nat.le_max_right _ _).trans (le_alignUp align _)

/-- It is so on every memory map whose conventional memory begins within the width of `UINTN`. -/
theorem placesHigh_of_starts {arch : Arch} {size k : Nat} {descs : List MemoryDescriptor}
    (hsize : size < 2 ^ arch.uintnBits) (hlow : 2 ^ 20 + 2 ^ k ≤ 2 ^ arch.uintnBits)
    (hstarts : forall desc, desc ∈ descs -> desc.type = efiConventionalMemory ->
      desc.physicalStart.toNat + 2 ^ k ≤ 2 ^ arch.uintnBits) :
    PlacesHigh arch size (2 ^ k) descs := by
  have hk : k < arch.uintnBits := by
    rw [← Nat.pow_lt_pow_iff_right (Nat.one_lt_two)]
    omega
  apply placesHigh_of_asks hsize hk
  rintro desc ⟨before, after, heq, hasks⟩ -
  have hmem : desc ∈ descs := by
    rw [heq]
    exact List.mem_append_right before List.mem_cons_self
  have hstart := hstarts desc hmem hasks.usable.1
  apply le_searchAddress
  have hround := alignUp_lt (Nat.two_pow_pos k) (max desc.physicalStart.toNat (2 ^ 20))
  omega

/--
With every success on a memory map the address is aligned, the one asked for
and not below 1 MiB, exactly if no run that the search asks for is below 1 MiB.
-/
theorem emalloc_placesHigh_iff {arch : Arch} {size k : Nat} (descs : List MemoryDescriptor)
    (hsize : size < 2 ^ arch.uintnBits) (hk : k < arch.uintnBits) :
    PlacesHigh arch size (2 ^ k) descs <->
      forall desc, Asks arch size (2 ^ k) descs desc ->
        Grantable ∅ (searchRun arch size (2 ^ k) desc) ->
        2 ^ 20 ≤ desc.searchAddress arch (2 ^ k) := by
  constructor
  · intro h desc hasks hgrant
    rcases emalloc_onlyRun hsize hk hasks hgrant (fun _ => 0) with ⟨used, t, hrun⟩
    exact (h _ _ _ t (grantingEnv_runsOn arch descs _) hrun).high
  · exact placesHigh_of_asks hsize hk

def conventionalAt (start pages : Nat) : MemoryDescriptor where
  type := efiConventionalMemory
  physicalStart := start.toUInt64
  numberOfPages := pages.toUInt64

theorem emalloc_placesHigh_iff_of_one_megabyte :
    PlacesHigh Arch.x64 0x1000 (2 ^ 12) [conventionalAt 0x100000 0x100] := by
  refine (emalloc_placesHigh_iff [conventionalAt 0x100000 0x100] (by decide)
    (by decide)).mpr ?_
  rintro desc ⟨before, after, heq, -⟩ -
  apply le_searchAddress
  cases before with
  | nil =>
      cases heq
      decide +kernel
  | cons first before => cases before <;> cases heq

/-- On a 32-bit machine the pages for a descriptor at 4 GiB are asked for at address 0. -/
theorem emalloc_placed_at_zero :
    ¬ PlacesHigh Arch.ia32 0x1000 (2 ^ 12) [conventionalAt 0x100000000 0x100] := by
  intro h
  let s := LoadState.enter (fun _ => 0) ∅
  let env := grantingEnv Arch.ia32 [conventionalAt 0x100000000 0x100]
  have hbase : (emalloc env 0x1000 (2 ^ 12) s).1 = Except.ok 0 := by
    decide +kernel
  have hrun : emalloc env 0x1000 (2 ^ 12) s =
      (Except.ok 0, (emalloc env 0x1000 (2 ^ 12) s).2) := by
    rw [← hbase]
  exact absurd (h env s 0 _ (grantingEnv_runsOn _ _ _) hrun).high (by decide)

/-!
# Room that is found
-/

structure Conventional (descs : List MemoryDescriptor) (run : PageRun) : Prop where
  space : run.base + 4096 * run.count ≤ 2 ^ 64
  covered : forall x, run.base ≤ x -> x < run.base + 4096 * run.count ->
    exists desc, desc ∈ descs ∧ desc.type = efiConventionalMemory ∧
      desc.physicalStart.toNat ≤ x ∧
      x < desc.physicalStart.toNat + 4096 * desc.numberOfPages.toNat

/-- Whole pages of conventional memory are granted, for as long as none have been taken. -/
def GrantsConventional (env : LoadEnv) (descs : List MemoryDescriptor) (s : LoadState) : Prop :=
  forall t run, t.used = s.used -> run.base % 4096 = 0 -> 0 < run.count ->
    Conventional descs run ->
    (allocatePages env AllocateType.address run.count run.base t).1 = EfiStatus.success

/-- A conventional descriptor has room for the pages at an aligned address from 1 MiB on. -/
structure HasRoom (size align address : Nat) (desc : MemoryDescriptor) : Prop where
  type : desc.type = efiConventionalMemory
  aligned : align ∣ address
  high : 2 ^ 20 ≤ address
  start : desc.physicalStart.toNat ≤ address
  stop : address + 4096 * sizeToPages size ≤
    desc.physicalStart.toNat + 4096 * desc.numberOfPages.toNat

def RoomIn (descs : List MemoryDescriptor) (size align : Nat) : Prop :=
  exists desc, desc ∈ descs ∧ exists address, HasRoom size align address desc

/-- If there is room, `emalloc` succeeds on all firmware that grants what the map describes. -/
def FindsRoom (arch : Arch) (size align : Nat) (descs : List MemoryDescriptor) : Prop :=
  RoomIn descs size align -> forall env s, RunsOn arch descs env s ->
    GrantsConventional env descs s -> exists base t, emalloc env size align s = (Except.ok base, t)

section Finding

open Classical in
noncomputable def otherPages (descs : List MemoryDescriptor) : Finset Nat :=
  (Finset.range (2 ^ 52)).filter fun page =>
    ¬ Conventional descs { base := 4096 * page, count := 1 }

variable {arch : Arch} {size k : Nat} {descs : List MemoryDescriptor}

theorem grantable_otherPages_iff {run : PageRun} :
    Grantable (otherPages descs) run <->
      run.base % 4096 = 0 ∧ 0 < run.count ∧ Conventional descs run := by
  unfold Grantable
  refine and_congr_right fun hbase => and_congr_right fun hcount => ?_
  rw [Finset.disjoint_right]
  constructor
  · rintro ⟨hspace, hfree⟩
    refine ⟨hspace, ?_⟩
    intro x hlow hhigh
    have hpage : x / 4096 ∈ run.pages := by
      rw [PageRun.mem_pages]
      omega
    have hconv : Conventional descs { base := 4096 * (x / 4096), count := 1 } := by
      by_contra hother
      apply hfree hpage
      simp only [otherPages, Finset.mem_filter, Finset.mem_range]
      exact ⟨by omega, hother⟩
    apply hconv.covered x <;> dsimp only <;> omega
  · intro hconv
    refine ⟨hconv.space, ?_⟩
    intro page hpage hother
    simp only [otherPages, Finset.mem_filter, Finset.mem_range] at hother
    rw [PageRun.mem_pages] at hpage
    apply hother.2
    refine ⟨by dsimp only; omega, ?_⟩
    intro x hlow hhigh
    dsimp only at hlow hhigh
    exact hconv.covered x (by omega) (by omega)

theorem grantingEnv_grantsConventional :
    GrantsConventional (grantingEnv arch descs) descs
      (LoadState.enter (fun _ => 0) (otherPages descs)) := by
  intro t run hused hbase hcount hconv
  apply allocatePages_grantingEnv
  rw [hused]
  exact grantable_otherPages_iff.mpr ⟨hbase, hcount, hconv⟩

theorem sizeToPages_pos (hpos : 0 < size) : 0 < sizeToPages size := by
  unfold sizeToPages
  split <;> omega

theorem findsRoom_of_asks (hpos : 0 < size) (hsize : size < 2 ^ arch.uintnBits)
    (hpage : 12 ≤ k) (hk : k < arch.uintnBits)
    (h : RoomIn descs size (2 ^ k) ->
      exists desc, Asks arch size (2 ^ k) descs desc ∧
        Conventional descs (searchRun arch size (2 ^ k) desc)) :
    FindsRoom arch size (2 ^ k) descs := by
  rintro hroom env s ⟨rfl, hmap⟩ hgrants
  rcases h hroom with ⟨desc, hasks, hconv⟩
  have hsearch := emalloc_search hsize hk hmap
  generalize emalloc env size (2 ^ k) s = result at hsearch ⊢
  cases hsearch with
  | granted => exact ⟨_, _, rfl⟩
  | refused hall =>
      rcases hall desc hasks with ⟨t, hsame, hrefused⟩
      have hbase : desc.searchAddress env.arch (2 ^ k) % 4096 = 0 :=
        Nat.mod_eq_zero_of_dvd ((Nat.pow_dvd_pow 2 hpage).trans
          (searchAddress_dvd env.arch desc hk))
      exact absurd (hgrants t _ hsame.used hbase (sizeToPages_pos hpos) hconv) hrefused

/--
The search finds room exactly if one of its requests is for conventional memory
whenever there is room.
-/
theorem emalloc_findsRoom_iff (hpos : 0 < size) (hsize : size < 2 ^ arch.uintnBits)
    (hpage : 12 ≤ k) (hk : k < arch.uintnBits) :
    FindsRoom arch size (2 ^ k) descs <->
      (RoomIn descs size (2 ^ k) ->
        exists desc, Asks arch size (2 ^ k) descs desc ∧
          Conventional descs (searchRun arch size (2 ^ k) desc)) := by
  constructor
  · intro h hroom
    rcases h hroom _ _ (grantingEnv_runsOn arch descs _) grantingEnv_grantsConventional with
      ⟨base, t, hrun⟩
    have hsearch : SearchOutcome (grantingEnv arch descs) size (2 ^ k) _
        (Asks arch size (2 ^ k) descs) _ :=
      emalloc_search hsize hk (grantingEnv_runsOn arch descs
        (LoadState.enter (fun _ => 0) (otherPages descs))).map
    rw [hrun] at hsearch
    rcases hsearch.of_ok with ⟨desc, hasks, -, hgranted⟩
    exact ⟨desc, hasks, (grantable_otherPages_iff.mp hgranted.free).2.2⟩
  · exact findsRoom_of_asks hpos hsize hpage hk

/--
A descriptor with room within the address space is asked, if no more low bytes
than the size have been taken off, or no more than 1 MiB on a 64-bit machine.
-/
theorem asks_of_hasRoom {before after : List MemoryDescriptor} {desc : MemoryDescriptor}
    {address : Nat} (hpos : 0 < size) (hroom : HasRoom size (2 ^ k) address desc)
    (hspace : desc.physicalStart.toNat + 4096 * desc.numberOfPages.toNat < 2 ^ 64)
    (hwidth : address + 4096 * sizeToPages size ≤ 2 ^ arch.uintnBits)
    (hlow : lowTotal (sizeToPages size) (before ++ [desc]) ≤ size ∨
      (arch = Arch.x64 ∧ lowTotal (sizeToPages size) (before ++ [desc]) ≤ 2 ^ 20)) :
    Asks arch size (2 ^ k) (before ++ desc :: after) desc ∧
      Conventional (before ++ desc :: after) (searchRun arch size (2 ^ k) desc) := by
  have hpages := sizeToPages_pos hpos
  have hle : size ≤ 4096 * sizeToPages size := by
    unfold sizeToPages
    split <;> omega
  have hstop : desc.stop = desc.physicalStart.toNat + 4096 * desc.numberOfPages.toNat := by
    unfold MemoryDescriptor.stop u64
    omega
  have hfirst : alignUp (2 ^ k) (max desc.physicalStart.toNat (2 ^ 20)) ≤ address :=
    alignUp_le_of_dvd (Nat.two_pow_pos k) (Nat.max_le.mpr ⟨hroom.start, hroom.high⟩)
      hroom.aligned
  have hbase : desc.searchAddress arch (2 ^ k) =
      alignUp (2 ^ k) (max desc.physicalStart.toNat (2 ^ 20)) := searchAddress_eq (by omega)
  have hstart := le_alignUp (2 ^ k) (max desc.physicalStart.toNat (2 ^ 20))
  have hend := hroom.stop
  refine ⟨⟨before, after, rfl, ?_, ?_⟩, ?_, ?_⟩
  · exact ⟨hroom.type, by omega, by rw [hstop]; omega⟩
  · rw [hbase, hstop]
    unfold sizeLeft u64
    generalize lowTotal (sizeToPages size) (before ++ [desc]) = total at hlow
    rcases hlow with hlow | ⟨rfl, hlow⟩
    · cases arch <;> unfold Arch.uintnBits at * <;> dsimp only at * <;> omega
    · unfold Arch.uintnBits at *
      dsimp only at *
      omega
  · show desc.searchAddress arch (2 ^ k) + _ ≤ _
    rw [hbase]
    show _ + 4096 * sizeToPages size ≤ _
    omega
  · intro x hlow' hhigh
    simp only [searchRun, hbase] at hlow' hhigh
    exact ⟨desc, by simp, hroom.type, by omega, by omega⟩

/--
Room is found on every memory map whose conventional memory is within the width
of `UINTN`, if none lies across 1 MiB; on a 64-bit machine that may be, if the
descriptors do not overlap.
-/
theorem findsRoom_of_map (hpos : 0 < size) (hsize : size < 2 ^ arch.uintnBits)
    (hpage : 12 ≤ k) (hk : k < arch.uintnBits)
    (hspace : forall desc, desc ∈ descs -> desc.type = efiConventionalMemory ->
      desc.physicalStart.toNat + 4096 * desc.numberOfPages.toNat < 2 ^ arch.uintnBits)
    (hlow : (forall desc, desc ∈ descs -> ¬ desc.Across) ∨
      (arch = Arch.x64 ∧ descs.Pairwise MemoryDescriptor.Apart)) :
    FindsRoom arch size (2 ^ k) descs := by
  apply findsRoom_of_asks hpos hsize hpage hk
  rintro ⟨desc, hmem, address, hroom⟩
  rcases List.append_of_mem hmem with ⟨before, after, rfl⟩
  have hfront : before ++ [desc] <+: before ++ desc :: after :=
    ⟨after, (List.append_cons before desc after).symm⟩
  have hend := hspace desc hmem hroom.type
  have hwide : 2 ^ arch.uintnBits ≤ 2 ^ 64 := by
    cases arch <;> decide
  refine ⟨desc, asks_of_hasRoom hpos hroom (hend.trans_le hwide) (hroom.stop.trans hend.le) ?_⟩
  rcases hlow with hacross | ⟨harch, hapart⟩
  · rw [lowTotal_eq_zero fun other hother => hacross other (hfront.subset hother)]
    exact Or.inl (Nat.zero_le size)
  · exact Or.inr ⟨harch, lowTotal_le_of_apart (hapart.sublist hfront.sublist)⟩

end Finding

theorem emalloc_findsRoom_iff_of_one_megabyte :
    FindsRoom Arch.x64 0x1000 (2 ^ 12) [conventionalAt 0x100000 0x100] := by
  refine (emalloc_findsRoom_iff (by decide) (by decide) (by decide) (by decide)).mpr ?_
  rintro ⟨desc, hdesc, address, hroom⟩
  rw [List.mem_singleton] at hdesc
  subst hdesc
  have hend := hroom.stop
  have hfound : Asks Arch.x64 0x1000 (2 ^ 12) ([] ++ conventionalAt 0x100000 0x100 :: []) _ ∧
      Conventional ([] ++ conventionalAt 0x100000 0x100 :: []) _ :=
    asks_of_hasRoom (by decide) hroom (by decide) (hend.trans (by decide)) (Or.inl (by decide))
  exact ⟨_, hfound⟩

/-- What reaches below 1 MiB leaves less than no size, and the room above is not seen. -/
theorem emalloc_misses_room :
    ¬ FindsRoom Arch.ia32 0x1000 (2 ^ 12) [conventionalAt 0 0x1000] := by
  intro h
  let s := LoadState.enter (fun _ => 0) (otherPages [conventionalAt 0 0x1000])
  let env := grantingEnv Arch.ia32 [conventionalAt 0 0x1000]
  have hroom : HasRoom 0x1000 (2 ^ 12) (2 ^ 20) (conventionalAt 0 0x1000) :=
    ⟨rfl, by decide, by decide, by decide, by decide⟩
  have hfailed : (emalloc env 0x1000 (2 ^ 12) s).1 = Except.error EfiStatus.outOfResources := by
    decide +kernel
  rcases h ⟨_, List.mem_singleton_self _, _, hroom⟩ env s (grantingEnv_runsOn _ _ _)
    grantingEnv_grantsConventional with ⟨base, t, hrun⟩
  rw [hrun] at hfailed
  cases hfailed

end BootImage
end BootableUefi
