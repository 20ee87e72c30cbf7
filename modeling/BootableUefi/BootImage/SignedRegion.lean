import BootableUefi.BootImage.Stages
import BootableUefi.Foundation.Tiles

/-!
# What is signed and what is executed

The size of the buffer, the size that is verified and the places the kernel and
the ramdisk are copied from are computed separately, in 32-bit arithmetic.  They
agree exactly as far as the multiples of 2 ^ 32 that the sums lose are made up
for by the rounding of the sections to pages.
-/

namespace BootableUefi
namespace BootImage

open Firmware Foundation

/-- The image is read and verified, the copies use verified bytes only, and these were read. -/
structure SignedBeforeUse (log : List LoadEvent) : Prop where
  read : exists imgSize, LoadEvent.readImage imgSize ∈ log
  verified : exists signed sigOffset sigSize,
    LoadEvent.checkSignature signed sigOffset sigSize ∈ log
  covered : forall imgSize signed sigOffset sigSize,
    LoadEvent.readImage imgSize ∈ log ->
    LoadEvent.checkSignature signed sigOffset sigSize ∈ log ->
      (forall part source size destination,
        LoadEvent.copy part source size destination ∈ log ->
          forall i, i < size -> source + i < signed) ∧
      (forall x, x < signed -> x < imgSize) ∧
      (forall i, i < sigSize -> sigOffset + i < imgSize)

/-!
# The layout in unbounded integers
-/

/-- The part of a number that 32-bit arithmetic loses. -/
def lost (n : Nat) : Nat :=
  2 ^ 32 * (n / 2 ^ 32)

namespace BootImgHdr

variable (hdr : BootImgHdr)

/-- The bytes a section takes up; one that is within a page of 2 ^ 32 bytes takes up none. -/
def sectionBytes (size : Nat) : Nat :=
  if size + hdr.pageSize ≤ 2 ^ 32 then alignUp hdr.pageSize size else 0

def kernelEnd : Nat :=
  hdr.pageSize + hdr.sectionBytes hdr.kernelSize

def signedEnd : Nat :=
  hdr.kernelEnd + hdr.sectionBytes hdr.ramdiskSize + hdr.sectionBytes hdr.secondSize

def imageEnd : Nat :=
  hdr.signedEnd + hdr.sectionBytes hdr.sigSize

end BootImgHdr

/--
The kernel, the ramdisk and the signature end where the layout has room for
them, after what is lost has been taken off; `onDisk` is the header the size of
the buffer is computed from.
-/
structure LayoutCovered (onDisk hdr : BootImgHdr) (setupSize : Nat) : Prop where
  kernel : hdr.kernelSize = setupSize ∨
    (setupSize < hdr.kernelSize ∧
      hdr.pageSize + hdr.kernelSize + lost hdr.signedEnd ≤ hdr.signedEnd)
  ramdisk : hdr.ramdiskSize = 0 ∨
    hdr.kernelEnd + hdr.ramdiskSize + lost hdr.signedEnd ≤ hdr.signedEnd + lost hdr.kernelEnd
  signature : hdr.signedEnd + hdr.sigSize + lost onDisk.imageEnd ≤
    onDisk.imageEnd + lost hdr.signedEnd

theorem u32_add_lost (n : Nat) : u32 n + lost n = n := by
  unfold u32 lost
  omega

section Sizes

variable {hdr : BootImgHdr}

theorem pages_mul (hpage : 0 < hdr.pageSize) {size : Nat} (hsize : size < 2 ^ 32) :
    hdr.pages size * hdr.pageSize = hdr.sectionBytes size := by
  have hpageLt := hdr.pageSize_lt
  unfold BootImgHdr.pages BootImgHdr.sectionBytes
  split
  · rename_i hfits
    have hsum : u32 (size + hdr.pageSize + (2 ^ 32 - 1)) = size + hdr.pageSize - 1 := by
      unfold u32
      omega
    rw [hsum]
    exact div_mul_eq_alignUp hpage size
  · rename_i hwraps
    have hsum : u32 (size + hdr.pageSize + (2 ^ 32 - 1)) < hdr.pageSize := by
      unfold u32
      omega
    rw [Nat.div_eq_of_lt hsum, Nat.zero_mul]

theorem ramdiskOffset_eq (hpage : 0 < hdr.pageSize) :
    hdr.ramdiskOffset = u32 hdr.kernelEnd := by
  unfold BootImgHdr.ramdiskOffset BootImgHdr.kernelEnd
  rw [Nat.add_mul, Nat.one_mul, pages_mul hpage hdr.kernelSize_lt]

theorem signedSize_eq (hpage : 0 < hdr.pageSize) : hdr.signedSize = u32 hdr.signedEnd := by
  unfold BootImgHdr.signedSize BootImgHdr.signedEnd BootImgHdr.kernelEnd
  rw [Nat.add_mul, Nat.add_mul, Nat.add_mul, Nat.one_mul, pages_mul hpage hdr.kernelSize_lt,
    pages_mul hpage hdr.ramdiskSize_lt, pages_mul hpage hdr.secondSize_lt]

theorem u32_bootimageSize (arch : Arch) (hpage : 0 < hdr.pageSize) :
    u32 (hdr.bootimageSize arch true) = u32 hdr.imageEnd := by
  have hsig := pages_mul hpage hdr.sigSize_lt
  unfold BootImgHdr.bootimageSize BootImgHdr.imageEnd
  rw [if_pos rfl, signedSize_eq hpage, hsig]
  unfold Arch.uintn Arch.uintnBits u32
  cases arch <;> dsimp only <;> omega

end Sizes

/-!
# A start that reaches the jump
-/

def LoadedUses (hdr : BootImgHdr) (image : Mem) (ramdisk destination : Nat) : List LoadEvent :=
  [LoadEvent.checkSignature hdr.signedSize hdr.signedSize hdr.sigSize,
    LoadEvent.copy ImagePart.ramdisk hdr.ramdiskOffset hdr.ramdiskSize ramdisk,
    LoadEvent.copy ImagePart.kernel (hdr.pageSize + setupSize image hdr.pageSize)
      (kernelCopySize image hdr.pageSize) destination]

theorem startBuffer_jumped {env : LoadEnv} {append : Option (List UInt8)}
    {hooks : Option BootimgHooks} {s t : LoadState} {kernelStart bootAddr : Nat}
    (hcalls : s.calls = [])
    (hrun : startBuffer env append hooks s = (LoadEnd.jumped kernelStart bootAddr, t)) :
    0 < (aospHeader s.image).pageSize ∧
      exists ramdisk destination,
        t.uses = s.uses ++ LoadedUses (aospHeader s.image) s.image ramdisk destination := by
  have hbuffer := startBuffer_outcome env append hooks s
  rw [hrun] at hbuffer
  generalize hresult : (LoadEnd.jumped kernelStart bootAddr, t) = result at hbuffer
  cases hbuffer with
  | rejected => cases congrArg Prod.fst hresult
  | divided => cases congrArg Prod.fst hresult
  | @verified v hpage hcheck himage _ =>
      refine ⟨hpage, ?_⟩
      have hnone : v.calls = [] := by
        rw [hcheck.calls, hcalls]
        rfl
      have houtcome := startVerified_outcome env append hooks hnone
        (congrArg (fun image => (aospHeader image).pageSize) himage)
      rw [← hresult, himage] at houtcome
      generalize hjump : (LoadEnd.jumped kernelStart bootAddr, t) = result at houtcome
      cases houtcome with
      | noLine => cases congrArg Prod.fst hjump
      | gaveUp =>
          have hfst := congrArg Prod.fst hjump
          rw [outCmdline_fst] at hfst
          cases hfst
      | @jumped ramdisk destination _ _ _ u hafter =>
          cases hjump
          refine ⟨ramdisk, destination, ?_⟩
          rw [hafter.uses, hcheck.uses, List.append_assoc]
          rfl

theorem startPartition_jumped {env : PartitionEnv} {append : Option (List UInt8)}
    {hooks : Option BootimgHooks} {used : Finset Nat} {t : LoadState}
    {kernelStart bootAddr : Nat}
    (hrun : startPartition env append hooks used = (LoadEnd.jumped kernelStart bootAddr, t)) :
    exists pool ramdisk destination, env.imagePool = some pool ∧
      0 < (aospHeader env.disk).pageSize ∧
      0 < (aospHeader (env.loadedImage pool)).pageSize ∧
      t.uses = LoadEvent.readImage env.imgSize ::
        LoadedUses (aospHeader (env.loadedImage pool)) (env.loadedImage pool) ramdisk
          destination := by
  unfold startPartition at hrun
  dsimp only at hrun
  split at hrun
  · cases congrArg Prod.fst hrun
  · split at hrun
    · cases congrArg Prod.fst hrun
    · split at hrun
      · cases congrArg Prod.fst hrun
      · split at hrun
        · cases congrArg Prod.fst hrun
        · rename_i hpage
          split at hrun
          · cases congrArg Prod.fst hrun
          · rename_i pool hpool
            split at hrun
            · cases congrArg Prod.fst hrun
            · split at hrun
              · cases congrArg Prod.fst hrun
              · rename_i ending u hne hstart
                cases hrun
                rcases startBuffer_jumped (by rfl) hstart with
                  ⟨hloaded, ramdisk, destination, huses⟩
                exact ⟨pool, ramdisk, destination, hpool, Nat.pos_of_ne_zero hpage, hloaded,
                  huses⟩

/-!
# The four computations compared
-/

theorem forall_add_lt_iff {source size bound : Nat} :
    (forall i, i < size -> source + i < bound) <-> size = 0 ∨ source + size ≤ bound := by
  constructor
  · intro h
    rcases Nat.eq_zero_or_pos size with hzero | hpos
    · exact Or.inl hzero
    · have hlast := h (size - 1) (by omega)
      exact Or.inr (by omega)
  · rintro (h | h) i hi <;> omega

theorem setupSize_lt (image : Mem) (buf : Nat) : setupSize image buf < 2 ^ 32 := by
  unfold setupSize u8
  omega

theorem kernel_verified_iff {image : Mem} (hpage : 0 < (aospHeader image).pageSize) :
    (forall i, i < kernelCopySize image (aospHeader image).pageSize ->
      (aospHeader image).pageSize + setupSize image (aospHeader image).pageSize + i <
        (aospHeader image).signedSize) <->
    ((aospHeader image).kernelSize = setupSize image (aospHeader image).pageSize ∨
      (setupSize image (aospHeader image).pageSize < (aospHeader image).kernelSize ∧
        (aospHeader image).pageSize + (aospHeader image).kernelSize +
          lost (aospHeader image).signedEnd ≤ (aospHeader image).signedEnd)) := by
  have hsetup := setupSize_lt image (aospHeader image).pageSize
  have hkernel := (aospHeader image).kernelSize_lt
  have hlost := u32_add_lost (aospHeader image).signedEnd
  have hsmall := u32_lt (aospHeader image).signedEnd
  rw [forall_add_lt_iff, signedSize_eq hpage]
  unfold kernelCopySize
  rcases Nat.lt_or_ge (aospHeader image).kernelSize
    (setupSize image (aospHeader image).pageSize) with hlt | hge
  · rw [u32_of_lt (by omega)]
    omega
  · have hsize : u32 ((aospHeader image).kernelSize + 2 ^ 32 -
        setupSize image (aospHeader image).pageSize) =
        (aospHeader image).kernelSize - setupSize image (aospHeader image).pageSize := by
      unfold u32
      omega
    rw [hsize]
    omega

theorem signedBeforeUse_iff {t : LoadState} {imgSize signed sigOffset sigSize : Nat}
    {ramdiskSource ramdiskSize ramdisk source size destination : Nat}
    (huses : t.uses = [LoadEvent.readImage imgSize,
      LoadEvent.checkSignature signed sigOffset sigSize,
      LoadEvent.copy ImagePart.ramdisk ramdiskSource ramdiskSize ramdisk,
      LoadEvent.copy ImagePart.kernel source size destination]) :
    SignedBeforeUse t.log <->
      ((forall i, i < ramdiskSize -> ramdiskSource + i < signed) ∧
        (forall i, i < size -> source + i < signed)) ∧
      (forall x, x < signed -> x < imgSize) ∧
      (forall i, i < sigSize -> sigOffset + i < imgSize) := by
  have hmem : forall event : LoadEvent, event.usesImage = true ->
      (event ∈ t.log <-> event ∈ t.uses) := by
    intro event huse
    simp [LoadState.uses, huse]
  rw [huses] at hmem
  have hread : LoadEvent.readImage imgSize ∈ t.log := (hmem _ rfl).mpr (by simp)
  have hcheck : LoadEvent.checkSignature signed sigOffset sigSize ∈ t.log :=
    (hmem _ rfl).mpr (by simp)
  constructor
  · intro h
    rcases h.covered imgSize signed sigOffset sigSize hread hcheck with ⟨hcopies, hrest⟩
    refine ⟨⟨?_, ?_⟩, hrest⟩
    · exact hcopies ImagePart.ramdisk _ _ ramdisk ((hmem _ rfl).mpr (by simp))
    · exact hcopies ImagePart.kernel _ _ destination ((hmem _ rfl).mpr (by simp))
  · intro hcase
    rcases hcase with ⟨⟨hramdisk, hkernel⟩, hrest⟩
    refine ⟨⟨_, hread⟩, ⟨_, _, _, hcheck⟩, ?_⟩
    intro imgSize' signed' sigOffset' sigSize' hanyRead hanyCheck
    have hread' := (hmem _ rfl).mp hanyRead
    have hcheck' := (hmem _ rfl).mp hanyCheck
    simp at hread' hcheck'
    rcases hcheck' with ⟨rfl, rfl, rfl⟩
    subst hread'
    refine ⟨?_, hrest⟩
    intro part source' size' destination hcopy
    have hcopy' := (hmem _ rfl).mp hcopy
    simp at hcopy'
    rcases hcopy' with ⟨-, rfl, rfl, -⟩ | ⟨-, rfl, rfl, -⟩
    · exact hramdisk
    · exact hkernel

/--
Every start from a partition that reaches the jump uses only verified bytes,
with everything verified read, exactly if the layout is covered.
-/
theorem startPartition_signed_iff (env : PartitionEnv) (append : Option (List UInt8))
    (hooks : Option BootimgHooks) (used : Finset Nat) (pool : Mem) (t : LoadState)
    (kernelStart bootAddr : Nat) (hpool : env.imagePool = some pool)
    (hrun : startPartition env append hooks used = (LoadEnd.jumped kernelStart bootAddr, t)) :
    SignedBeforeUse t.log <->
      LayoutCovered (aospHeader env.disk) (aospHeader (env.loadedImage pool))
        (setupSize (env.loadedImage pool) (aospHeader (env.loadedImage pool)).pageSize) := by
  rcases startPartition_jumped hrun with
    ⟨pool', ramdisk, destination, hpool', hdisk, hloaded, huses⟩
  rw [hpool] at hpool'
  cases hpool'
  have himg : env.imgSize = u32 (aospHeader env.disk).imageEnd :=
    u32_bootimageSize env.load.arch hdisk
  have hlostDisk := u32_add_lost (aospHeader env.disk).imageEnd
  rw [signedBeforeUse_iff huses, himg]
  generalize aospHeader env.disk = onDisk at *
  generalize env.loadedImage pool = image at *
  have hlost := u32_add_lost (aospHeader image).signedEnd
  have hlostKernel := u32_add_lost (aospHeader image).kernelEnd
  rw [kernel_verified_iff hloaded, forall_add_lt_iff, forall_add_lt_iff, ramdiskOffset_eq hloaded,
    signedSize_eq hloaded]
  have hread : (forall x, x < u32 (aospHeader image).signedEnd -> x < u32 onDisk.imageEnd) <->
      u32 (aospHeader image).signedEnd ≤ u32 onDisk.imageEnd := by
    constructor
    · intro h
      by_contra hlt
      exact absurd (h (u32 onDisk.imageEnd) (by omega)) (by omega)
    · intro h x hx
      omega
  rw [hread]
  constructor
  · intro hcase
    rcases hcase with ⟨⟨hramdisk, hkernel⟩, hsigned, hsig⟩
    refine ⟨hkernel, ?_, ?_⟩
    · omega
    · omega
  · intro hcase
    rcases hcase with ⟨hkernel, hramdisk, hsig⟩
    refine ⟨⟨?_, hkernel⟩, ?_, ?_⟩
    · omega
    · omega
    · omega

/-!
# Layouts that lose nothing

Where no size wraps and the whole image is smaller than 2 ^ 32 bytes, the layout
is covered; with pages whose size divides 2 ^ 32 there is no other way.
-/

section NoLoss

variable {hdr : BootImgHdr} {setup : Nat}

theorem lost_of_lt {n : Nat} (h : n < 2 ^ 32) : lost n = 0 := by
  unfold lost
  omega

theorem layoutCovered_of_no_loss (hsetup : setup ≤ hdr.kernelSize)
    (hkernel : hdr.kernelSize + hdr.pageSize ≤ 2 ^ 32)
    (hramdisk : hdr.ramdiskSize + hdr.pageSize ≤ 2 ^ 32)
    (hsig : hdr.sigSize + hdr.pageSize ≤ 2 ^ 32) (hend : hdr.imageEnd < 2 ^ 32) :
    LayoutCovered hdr hdr setup := by
  have hkernelBytes := le_alignUp hdr.pageSize hdr.kernelSize
  have hramdiskBytes := le_alignUp hdr.pageSize hdr.ramdiskSize
  have hsigBytes := le_alignUp hdr.pageSize hdr.sigSize
  have hwhole : hdr.imageEnd = hdr.signedEnd + alignUp hdr.pageSize hdr.sigSize := by
    unfold BootImgHdr.imageEnd BootImgHdr.sectionBytes
    rw [if_pos hsig]
  have hsigned : hdr.signedEnd = hdr.kernelEnd + alignUp hdr.pageSize hdr.ramdiskSize +
      hdr.sectionBytes hdr.secondSize := by
    unfold BootImgHdr.signedEnd
    rw [BootImgHdr.sectionBytes, if_pos hramdisk]
  have hkernelEnd : hdr.kernelEnd = hdr.pageSize + alignUp hdr.pageSize hdr.kernelSize := by
    unfold BootImgHdr.kernelEnd BootImgHdr.sectionBytes
    rw [if_pos hkernel]
  have hlost := lost_of_lt hend
  have hlostSigned : lost hdr.signedEnd = 0 := lost_of_lt (by omega)
  have hlostKernel : lost hdr.kernelEnd = 0 := lost_of_lt (by omega)
  constructor
  · omega
  · omega
  · omega

theorem sectionBytes_dvd (hpage : 0 < hdr.pageSize) (size : Nat) :
    hdr.pageSize ∣ hdr.sectionBytes size := by
  unfold BootImgHdr.sectionBytes
  split
  · exact alignUp_dvd hpage size
  · exact Nat.dvd_zero _

theorem sectionBytes_lt (hpage : 0 < hdr.pageSize) (size : Nat) :
    hdr.sectionBytes size < 2 ^ 32 := by
  have hlt := alignUp_lt hpage size
  unfold BootImgHdr.sectionBytes
  split <;> omega

theorem sectionBytes_le (hpage : 0 < hdr.pageSize) {size bound : Nat} (hle : size ≤ bound)
    (hdvd : hdr.pageSize ∣ bound) : hdr.sectionBytes size ≤ bound := by
  unfold BootImgHdr.sectionBytes
  split
  · exact alignUp_le_of_dvd hpage hle hdvd
  · exact Nat.zero_le _

theorem fits_of_le_sectionBytes {size : Nat} (hpos : 0 < size)
    (h : size ≤ hdr.sectionBytes size) : size + hdr.pageSize ≤ 2 ^ 32 := by
  unfold BootImgHdr.sectionBytes at h
  split at h <;> omega

theorem LayoutCovered.no_loss (h : LayoutCovered hdr hdr setup) (hpage : 0 < hdr.pageSize)
    (hdvd : hdr.pageSize ∣ 2 ^ 32) (hkernel : hdr.kernelSize ≠ setup)
    (hramdisk : hdr.ramdiskSize ≠ 0) (hsig : hdr.sigSize ≠ 0) :
    setup < hdr.kernelSize ∧ hdr.ramdiskSize + hdr.pageSize ≤ 2 ^ 32 ∧
      hdr.sigSize + hdr.pageSize ≤ 2 ^ 32 ∧ hdr.imageEnd < 2 ^ 32 := by
  rcases h.kernel.resolve_left hkernel with ⟨hsetup, hkernelEnd⟩
  have hramdiskEnd := h.ramdisk.resolve_left hramdisk
  have hsecond := sectionBytes_lt hpage hdr.secondSize
  have hsigned : hdr.signedEnd = hdr.kernelEnd + hdr.sectionBytes hdr.ramdiskSize +
    hdr.sectionBytes hdr.secondSize := rfl
  have hstart : hdr.kernelEnd = hdr.pageSize + hdr.sectionBytes hdr.kernelSize := rfl
  have hwhole : hdr.imageEnd = hdr.signedEnd + hdr.sectionBytes hdr.sigSize := rfl
  have hkept := u32_add_lost hdr.signedEnd
  have hsmall := u32_lt hdr.signedEnd
  -- What is left of the signed size is a whole number of pages.
  have hpages : hdr.pageSize ∣ u32 hdr.signedEnd := by
    have hsum : hdr.pageSize ∣ hdr.signedEnd :=
      Nat.dvd_add (Nat.dvd_add (Nat.dvd_add (Nat.dvd_refl _) (sectionBytes_dvd hpage _))
        (sectionBytes_dvd hpage _)) (sectionBytes_dvd hpage _)
    rw [← hkept] at hsum
    exact (Nat.dvd_add_left (Nat.dvd_mul_right_of_dvd hdvd _)).mp hsum
  have hkernelBytes : hdr.sectionBytes hdr.kernelSize ≤ u32 hdr.signedEnd - hdr.pageSize :=
    sectionBytes_le hpage (by omega) (Nat.dvd_sub hpages (Nat.dvd_refl _))
  have hlostKernel : lost hdr.kernelEnd = 0 := lost_of_lt (by omega)
  have hramdiskBytes : hdr.sectionBytes hdr.ramdiskSize ≤ u32 hdr.signedEnd - hdr.kernelEnd :=
    sectionBytes_le hpage (by omega) (Nat.dvd_sub hpages
      (Nat.dvd_add (Nat.dvd_refl _) (sectionBytes_dvd hpage _)))
  have hlost : lost hdr.signedEnd = 0 := by
    unfold lost at *
    omega
  have hsigEnd := h.signature
  have hsigBytes := sectionBytes_lt hpage hdr.sigSize
  have hlostWhole : lost hdr.imageEnd = 0 := by
    unfold lost at *
    omega
  refine ⟨hsetup, ?_, ?_, ?_⟩
  · have hroom : hdr.pageSize ≤ 2 ^ 32 - u32 hdr.signedEnd :=
      Nat.le_of_dvd (by omega) (Nat.dvd_sub hdvd hpages)
    omega
  · apply fits_of_le_sectionBytes (Nat.pos_of_ne_zero hsig)
    omega
  · unfold lost at hlostWhole
    omega

end NoLoss

def smallStart (kernelSize ramdiskSize secondSize : Nat) : LoadEnd × LoadState :=
  startPartition (smallPartition (smallImage kernelSize ramdiskSize secondSize)) none none ∅

theorem startPartition_signed_iff_of_small :
    SignedBeforeUse (smallStart 0x1000 0x1000 0).2.log := by
  have hend : (smallStart 0x1000 0x1000 0).1 = LoadEnd.jumped 0x200000 0x3000000 := by
    decide +kernel
  have hrun : smallStart 0x1000 0x1000 0 =
      (LoadEnd.jumped 0x200000 0x3000000, (smallStart 0x1000 0x1000 0).2) := by
    rw [← hend]
  have hiff := startPartition_signed_iff (smallPartition (smallImage 0x1000 0x1000 0)) none none ∅
    (fun _ => 0) (smallStart 0x1000 0x1000 0).2 0x200000 0x3000000 rfl hrun
  apply hiff.mpr
  constructor
  · right
    decide +kernel
  · right
    decide +kernel
  · decide +kernel

/-- Two sections of 4096 and 32768 bytes are not covered beside one of almost 4 GiB. -/
theorem startPartition_unsigned_ramdisk :
    (smallStart 0x8000 0x1000 0xFFFFE000).1 = LoadEnd.jumped 0x200000 0x3000000 ∧
      ¬ SignedBeforeUse (smallStart 0x8000 0x1000 0xFFFFE000).2.log := by
  constructor
  · decide +kernel
  · intro h
    have hread : LoadEvent.readImage 0x8000 ∈ (smallStart 0x8000 0x1000 0xFFFFE000).2.log := by
      decide +kernel
    have hcheck : LoadEvent.checkSignature 0x8000 0x8000 0 ∈
        (smallStart 0x8000 0x1000 0xFFFFE000).2.log := by
      decide +kernel
    have hcopy : LoadEvent.copy ImagePart.ramdisk 0x9000 0x1000 0x100000 ∈
        (smallStart 0x8000 0x1000 0xFFFFE000).2.log := by
      decide +kernel
    have hsigned := (h.covered _ _ _ _ hread hcheck).1 _ _ _ _ hcopy 0 (by omega)
    omega

end BootImage
end BootableUefi
