import BootableUefi.BootImage.Emalloc
import BootableUefi.BootImage.SignedRegion

/-!
# Where the ramdisk goes

`setup_ramdisk` compares the first address it was given with the highest one the
kernel allows.  The last byte is within that limit, and the bytes are those of
the ramdisk, as far as the search for pages and the offset in 32 bits let them.
-/

namespace BootableUefi
namespace BootImage

open Firmware Foundation

/-- Where the ramdisk begins in an image: after the header and the pages of the kernel. -/
def BootImgHdr.ramdiskStart (hdr : BootImgHdr) : Nat :=
  hdr.pageSize + alignUp hdr.pageSize hdr.kernelSize

def initrdAddrMax (image : Mem) : Nat :=
  le32 image ((aospHeader image).pageSize + SetupHeader.initrdAddrMax)

/-- The image once `setup_ramdisk` has stored the size of the ramdisk. -/
def sizedImage (image : Mem) : Mem :=
  store 4 ((aospHeader image).pageSize + SetupHeader.ramdiskSize)
    (aospHeader image).ramdiskSize image

/-- The ramdisk is in pages of its own, where the setup header says, below the limit. -/
structure RamdiskLoaded (s t : LoadState) (base source : Nat) : Prop where
  address : le32 t.image ((aospHeader s.image).pageSize + SetupHeader.ramdiskImage) = base
  size : le32 t.image ((aospHeader s.image).pageSize + SetupHeader.ramdiskSize) =
    (aospHeader s.image).ramdiskSize
  copied : t.log = s.log ++
    [LoadEvent.allocatePages
      { base := base, count := sizeToPages (aospHeader s.image).ramdiskSize },
      LoadEvent.copy ImagePart.ramdisk source (aospHeader s.image).ramdiskSize base]
  bytes : bytesAt (sizedImage s.image) source (aospHeader s.image).ramdiskSize =
    bytesAt (sizedImage s.image) (aospHeader s.image).ramdiskStart
      (aospHeader s.image).ramdiskSize
  belowMax : forall i, i < (aospHeader s.image).ramdiskSize -> base + i ≤ initrdAddrMax s.image

/-- So it is whenever `setup_ramdisk` succeeds for an image with this memory map. -/
def PlacesRamdisk (arch : Arch) (descs : List MemoryDescriptor) (image : Mem) : Prop :=
  forall env s t, s.image = image -> RunsOn arch descs env s ->
    setupRamdisk env s = (none, t) -> exists base source, RamdiskLoaded s t base source

def RamdiskReachable (image : Mem) : Prop :=
  bytesAt (sizedImage image) (u32 (aospHeader image).kernelEnd) (aospHeader image).ramdiskSize =
    bytesAt (sizedImage image) (aospHeader image).ramdiskStart (aospHeader image).ramdiskSize

theorem ramdiskReachable_of_lt {image : Mem} (h : (aospHeader image).ramdiskStart < 2 ^ 32) :
    RamdiskReachable image := by
  have hle := le_alignUp (aospHeader image).pageSize (aospHeader image).kernelSize
  have hend : u32 (aospHeader image).kernelEnd = (aospHeader image).ramdiskStart := by
    unfold BootImgHdr.kernelEnd BootImgHdr.sectionBytes
    rw [if_pos (by unfold BootImgHdr.ramdiskStart at h; omega)]
    exact u32_of_lt h
  unfold RamdiskReachable
  rw [hend]

theorem setupRamdisk_eq {env : LoadEnv} {s t : LoadState} {base : Nat}
    (hrun : emalloc env (aospHeader s.image).ramdiskSize 0x1000
      { s with image := sizedImage s.image } = (Except.ok base, t)) :
    setupRamdisk env s =
      if le32 t.image ((aospHeader s.image).pageSize + SetupHeader.initrdAddrMax) <
          env.arch.uintn base then
        (some (LoadStep.ramdiskPlacement, EfiStatus.outOfResources),
          efree base (aospHeader s.image).ramdiskSize t)
      else
        (none,
          { t.emit (LoadEvent.copy ImagePart.ramdisk (aospHeader s.image).ramdiskOffset
              (aospHeader s.image).ramdiskSize base) with
            image := store 4 ((aospHeader s.image).pageSize + SetupHeader.ramdiskImage) base
              t.image }) := by
  unfold setupRamdisk
  unfold sizedImage at hrun
  dsimp only
  rw [hrun]

theorem initrdAddrMax_sizedImage (image : Mem) :
    le32 (sizedImage image) ((aospHeader image).pageSize + SetupHeader.initrdAddrMax) =
      initrdAddrMax image := by
  apply le32_store_of_disjoint
  unfold SetupHeader.initrdAddrMax SetupHeader.ramdiskSize
  omega

theorem ramdiskLoaded_of_handsOut {s t : LoadState} {base : Nat}
    (hpage : 0 < (aospHeader s.image).pageSize)
    (hgrant : HandsOut { s with image := sizedImage s.image }
      { base := base, count := sizeToPages (aospHeader s.image).ramdiskSize } t)
    (hsmall : base < 2 ^ 32) (hreach : RamdiskReachable s.image)
    (hmax : base + (aospHeader s.image).ramdiskSize ≤ initrdAddrMax s.image + 1) :
    RamdiskLoaded s
      { t.emit (LoadEvent.copy ImagePart.ramdisk (aospHeader s.image).ramdiskOffset
          (aospHeader s.image).ramdiskSize base) with
        image := store 4 ((aospHeader s.image).pageSize + SetupHeader.ramdiskImage) base
          t.image } base (aospHeader s.image).ramdiskOffset := by
  have hfields := (ramdiskFields_size s.image (aospHeader s.image).pageSize
    (aospHeader s.image).ramdiskSize_lt).store_address base
  have himage : t.image = sizedImage s.image := hgrant.image
  constructor
  · exact le32_store hsmall
  · rw [himage]
    exact hfields.ramdiskSize
  · show t.log ++ _ = _
    rw [hgrant.log, List.append_assoc]
    rfl
  · rw [ramdiskOffset_eq hpage]
    exact hreach
  · intro i hi
    omega

theorem RamdiskLoaded.eq_of_emit {s t : LoadState} {address base source : Nat}
    (h : RamdiskLoaded s
      { t.emit (LoadEvent.copy ImagePart.ramdisk (aospHeader s.image).ramdiskOffset
          (aospHeader s.image).ramdiskSize address) with
        image := store 4 ((aospHeader s.image).pageSize + SetupHeader.ramdiskImage) address
          t.image } base source) (hsmall : address < 2 ^ 32) :
    base = address ∧ source = (aospHeader s.image).ramdiskOffset := by
  constructor
  · rw [← h.address]
    exact le32_store hsmall
  · have hlast := congrArg List.getLast? h.copied
    dsimp only [LoadState.emit] at hlast
    rw [List.getLast?_concat, List.append_cons, List.getLast?_concat] at hlast
    exact (LoadEvent.copy.inj (Option.some.inj hlast)).2.1.symm

theorem twelve_lt_uintnBits (arch : Arch) : 12 < arch.uintnBits := by
  cases arch <;> decide

theorem ramdiskSize_lt_uintn (arch : Arch) (image : Mem) :
    (aospHeader image).ramdiskSize < 2 ^ arch.uintnBits :=
  Nat.lt_of_lt_of_le (aospHeader image).ramdiskSize_lt (two_pow_le_uintn arch)

theorem placesRamdisk_of_asks {arch : Arch} {descs : List MemoryDescriptor} {image : Mem}
    (hpage : 0 < (aospHeader image).pageSize)
    (h : forall desc, Asks arch (aospHeader image).ramdiskSize (2 ^ 12) descs desc ->
      Grantable ∅ (searchRun arch (aospHeader image).ramdiskSize (2 ^ 12) desc) ->
      desc.searchAddress arch (2 ^ 12) ≤ initrdAddrMax image ->
        RamdiskReachable image ∧
          desc.searchAddress arch (2 ^ 12) + (aospHeader image).ramdiskSize ≤
            initrdAddrMax image + 1) : PlacesRamdisk arch descs image := by
  rintro env s t rfl ⟨rfl, hmap⟩ hplace
  have hmaxLt : initrdAddrMax s.image < 2 ^ 32 := le32_lt _ _
  have hsearch : SearchOutcome env (aospHeader s.image).ramdiskSize (2 ^ 12)
      { s with image := sizedImage s.image } _ _ :=
    emalloc_search (ramdiskSize_lt_uintn env.arch s.image) (twelve_lt_uintnBits env.arch) hmap
  generalize hresult : emalloc env (aospHeader s.image).ramdiskSize (2 ^ 12)
    { s with image := sizedImage s.image } = result at hsearch
  cases hsearch with
  | refused =>
      unfold setupRamdisk at hplace
      unfold sizedImage at hresult
      dsimp only at hplace
      rw [show 0x1000 = 2 ^ 12 from rfl, hresult] at hplace
      cases congrArg Prod.fst hplace
  | @granted desc u hasks hgrant =>
      have hlow : env.arch.uintn (desc.searchAddress env.arch (2 ^ 12)) =
          desc.searchAddress env.arch (2 ^ 12) := Nat.mod_mod _ _
      rw [setupRamdisk_eq hresult] at hplace
      have himage : u.image = sizedImage s.image := hgrant.image
      rw [himage, initrdAddrMax_sizedImage, hlow] at hplace
      split at hplace
      · cases congrArg Prod.fst hplace
      · rename_i hmax
        have hle := Nat.le_of_not_lt hmax
        rcases hgrant.free with ⟨hbase, hcount, hspace, -⟩
        rcases h desc hasks ⟨hbase, hcount, hspace, Finset.disjoint_empty_left _⟩ hle with
          ⟨hreach, hend⟩
        cases hplace
        rw [← himage]
        exact ⟨_, _, ramdiskLoaded_of_handsOut hpage hgrant (by omega) hreach hend⟩

/--
It is so on every memory map whose conventional memory is below the limit or
above it, and not across 1 MiB, if the ramdisk begins in the first 4 GiB.
-/
theorem placesRamdisk_of_map {arch : Arch} {descs : List MemoryDescriptor} {image : Mem}
    (hpage : 0 < (aospHeader image).pageSize)
    (hreach : (aospHeader image).ramdiskStart < 2 ^ 32)
    (hlow : forall desc, desc ∈ descs -> ¬ desc.Across)
    (hlimit : forall desc, desc ∈ descs -> desc.type = efiConventionalMemory ->
      desc.physicalStart.toNat + 4096 * desc.numberOfPages.toNat ≤ initrdAddrMax image + 1 ∨
        (initrdAddrMax image < desc.physicalStart.toNat ∧
          max desc.physicalStart.toNat (2 ^ 20) + 2 ^ 12 ≤ 2 ^ arch.uintnBits)) :
    PlacesRamdisk arch descs image := by
  apply placesRamdisk_of_asks hpage
  rintro desc ⟨before, after, heq, hasks⟩ - hmax
  refine ⟨ramdiskReachable_of_lt hreach, ?_⟩
  have hmem : desc ∈ descs := by
    rw [heq]
    exact List.mem_append_right before List.mem_cons_self
  rcases hlimit desc hmem hasks.usable.1 with hbelow | ⟨habove, hwidth⟩
  · have hbefore : forall other, other ∈ before ++ [desc] -> ¬ other.Across := by
      intro other hother
      apply hlow
      rw [heq, List.append_cons]
      exact List.mem_append_left after hother
    have hmaxLt : initrdAddrMax image < 2 ^ 32 := le32_lt _ _
    have hsizeLt := (aospHeader image).ramdiskSize_lt
    have hfits := hasks.fits
    rw [sizeLeft_of_not_across (ramdiskSize_lt_uintn arch image) hbefore,
      u64_of_lt (by omega)] at hfits
    have hstop : desc.stop ≤ desc.physicalStart.toNat + 4096 * desc.numberOfPages.toNat := by
      unfold MemoryDescriptor.stop u64
      omega
    omega
  · have hround := alignUp_lt (Nat.two_pow_pos 12) (max desc.physicalStart.toNat (2 ^ 20))
    have hstart := le_alignUp (2 ^ 12) (max desc.physicalStart.toNat (2 ^ 20))
    rw [searchAddress_eq (by omega)] at hmax
    omega

/--
Every ramdisk that is placed is whole, as its image has it and below the limit,
exactly if that is so for every run of pages the search asks for and the
comparison lets pass.
-/
theorem setupRamdisk_placesRamdisk_iff {arch : Arch} {descs : List MemoryDescriptor}
    {image : Mem} (hpage : 0 < (aospHeader image).pageSize) :
    PlacesRamdisk arch descs image <->
      forall desc, Asks arch (aospHeader image).ramdiskSize (2 ^ 12) descs desc ->
        Grantable ∅ (searchRun arch (aospHeader image).ramdiskSize (2 ^ 12) desc) ->
        desc.searchAddress arch (2 ^ 12) ≤ initrdAddrMax image ->
          RamdiskReachable image ∧
            desc.searchAddress arch (2 ^ 12) + (aospHeader image).ramdiskSize ≤
              initrdAddrMax image + 1 := by
  have hmaxLt : initrdAddrMax image < 2 ^ 32 := le32_lt _ _
  have hsize := ramdiskSize_lt_uintn arch image
  have hk := twelve_lt_uintnBits arch
  have hlow : forall desc : MemoryDescriptor,
      arch.uintn (desc.searchAddress arch (2 ^ 12)) = desc.searchAddress arch (2 ^ 12) :=
    fun desc => Nat.mod_mod _ _
  constructor
  · intro h desc hasks hgrant hmax
    rcases emalloc_onlyRun hsize hk hasks hgrant (sizedImage image) with ⟨used, t, hrun⟩
    have hcount := hgrant.2.1
    have himage : t.image = sizedImage image := by
      rcases emalloc_cases (grantingEnv arch descs) (aospHeader image).ramdiskSize (2 ^ 12)
          (LoadState.enter (sizedImage image) used) with
        ⟨status, u, heq, -, -⟩ | ⟨base, u, heq, hhands, -⟩
      · rw [hrun] at heq
        cases heq
      · rw [hrun] at heq
        cases heq
        exact hhands.image
    have hmax' : le32 t.image ((aospHeader image).pageSize + SetupHeader.initrdAddrMax) =
        initrdAddrMax image := by
      rw [himage, initrdAddrMax_sizedImage]
    have hpass : ¬ le32 t.image ((aospHeader image).pageSize + SetupHeader.initrdAddrMax) <
        arch.uintn (desc.searchAddress arch (2 ^ 12)) := by
      rw [hmax', hlow]
      omega
    have hplace : setupRamdisk (grantingEnv arch descs) (LoadState.enter image used) = _ :=
      (setupRamdisk_eq hrun).trans (if_neg hpass)
    rcases h _ _ _ rfl (grantingEnv_runsOn arch descs _) hplace with ⟨base, source, hloaded⟩
    rcases hloaded.eq_of_emit (s := LoadState.enter image used) (by omega) with ⟨hbase, hsource⟩
    refine ⟨?_, ?_⟩
    · unfold RamdiskReachable
      rw [← ramdiskOffset_eq hpage]
      rw [hsource] at hloaded
      exact hloaded.bytes
    · have hlast := hloaded.belowMax
      have hpos : (aospHeader image).ramdiskSize ≠ 0 := by
        intro hzero
        simp [searchRun, hzero, sizeToPages] at hcount
      rw [← hbase]
      have hend := hlast ((aospHeader image).ramdiskSize - 1) (by simp [LoadState.enter]; omega)
      simp only [LoadState.enter] at hend
      omega
  · exact placesRamdisk_of_asks hpage

theorem setupRamdisk_placesRamdisk_iff_of_small :
    PlacesRamdisk Arch.x64 [conventionalAt 0x100000 0x100] (smallImage 0x1000 0x2000 0) := by
  refine (setupRamdisk_placesRamdisk_iff (by decide +kernel)).mpr ?_
  rintro desc ⟨before, after, heq, -⟩ - -
  refine ⟨ramdiskReachable_of_lt (by decide +kernel), ?_⟩
  cases before with
  | nil =>
      cases heq
      decide +kernel
  | cons first before => cases before <;> cases heq

/-- The second page of this ramdisk is above the limit the first one is within. -/
theorem setupRamdisk_above_limit :
    ¬ PlacesRamdisk Arch.x64 [conventionalAt 0x7ffff000 0x100] (smallImage 0x1000 0x2000 0) := by
  intro h
  let s := LoadState.enter (smallImage 0x1000 0x2000 0) ∅
  let env := grantingEnv Arch.x64 [conventionalAt 0x7ffff000 0x100]
  have hend : (setupRamdisk env s).1 = none := by
    decide +kernel
  have hrun : setupRamdisk env s = (none, (setupRamdisk env s).2) := by
    rw [← hend]
  rcases h env s _ rfl (grantingEnv_runsOn _ _ _) hrun with ⟨base, source, hloaded⟩
  have hbase : base = 0x7ffff000 := by
    rw [← hloaded.address]
    decide +kernel
  have hlast := hloaded.belowMax 0x1fff (by decide +kernel)
  rw [hbase] at hlast
  exact absurd hlast (by decide +kernel)

end BootImage
end BootableUefi
