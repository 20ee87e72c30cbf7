import BootableUefi.BootImage.Milestones
import BootableUefi.Flash.EraseRanges
import BootableUefi.Flash.SparseReads

/-!
# Divisors taken from external data

The block size of a sparse image, the page size of a boot image and the erase
group size of a card are divided by.  None of the checks before these divisions
looks at the divisor.
-/

namespace BootableUefi
namespace Fastboot

open Firmware Foundation Flash BootImage

/-!
# Sparse images
-/

section Sparse

variable {image : ImageBuffer}

def RawWithoutBlocks (image : ImageBuffer) : Prop :=
  image.sparseHeader.blkSz = 0 ∧ exists left s, ReachesChunk image (left + 1) s ∧
    ChunkPasses image s ∧ (image.chunkHeader s).chunkType = chunkTypeRaw

def FlashGuarded (image : ImageBuffer) : Prop :=
  forall env label t, (flash env image label t).1 ≠ FlashEnd.divideError

theorem flashChunk_divides {env : FlashEnv} {sph : SparseHeader} {ckh : ChunkHeader}
    {data size : Nat} {t : FlashState}
    (h : (flashChunk env image sph ckh data size t).1 = FlashEnd.divideError) :
    sph.blkSz = 0 ∧ ckh.chunkType = chunkTypeRaw := by
  unfold flashChunk at h
  split at h
  · rename_i htype
    split at h
    · rename_i hblocks
      exact ⟨hblocks, htype⟩
    · split at h
      · cases h
      · cases h
  · split at h
    · cases h
    · split at h
      · cases h
      · split at h
        · cases h
        · cases h

theorem flashChunks_divides (env : FlashEnv) {left s : Nat} (hreach : ReachesChunk image left s)
    (t : FlashState)
    (h : (flashChunks env image left s (image.remainder s) t).1 = FlashEnd.divideError) :
    RawWithoutBlocks image := by
  induction left generalizing s t with
  | zero => cases h
  | succ left ih =>
      by_cases hpasses : ChunkPasses image s
      · rw [flashChunks_of_passes hpasses] at h
        split at h
        · rename_i u heq
          exact ih (ReachesChunk.next hreach hpasses (chunkAccepted_of_success heq)) u h
        · rcases flashChunk_divides h with ⟨hblocks, htype⟩
          exact ⟨hblocks, left, s, hreach, hpasses, htype⟩
      · unfold flashChunks at h
        dsimp only at h
        split at h
        · cases h
        · rename_i hheader
          split at h
          · cases h
          · rename_i htotal
            split at h
            · cases h
            · rename_i hformed
              exact absurd ⟨Nat.le_of_not_lt hheader, Nat.le_of_not_lt htotal,
                Nat.le_of_not_lt hformed⟩ hpasses

theorem flashSparse_divides (hraw : RawWithoutBlocks image) {t : FlashState}
    (ht : t.gparti = everything) :
    (flashSparse everythingEnv image t).1 = FlashEnd.divideError := by
  rcases hraw with ⟨hblocks, left, s, hreach, hpasses, htype⟩
  rcases flashSparse_reaches hreach ht with ⟨u, hrun, -⟩
  have hchunk : flashChunk everythingEnv image image.sparseHeader (image.chunkHeader s)
      (s + image.sparseHeader.chunkHdrSz) (image.payloadSize s)
      (u.emit (FlashEvent.read s chunkHeaderSize chunkHeaderSize)) =
        (FlashEnd.divideError, u.emit (FlashEvent.read s chunkHeaderSize chunkHeaderSize)) := by
    unfold flashChunk
    rw [if_pos htype, if_pos hblocks]
  rw [hrun, flashChunks_of_passes hpasses, hchunk]

theorem flashGuarded_iff (image : ImageBuffer) :
    FlashGuarded image <-> ¬ (isSparseImage image = true ∧ RawWithoutBlocks image) := by
  constructor
  · intro h hcase
    rcases hcase with ⟨hsparse, hraw⟩
    apply h everythingEnv [] FlashState.fresh
    unfold flash everythingEnv Flash.grantingEnv
    dsimp only
    rw [if_pos hsparse]
    exact flashSparse_divides hraw rfl
  · intro hnot env label t h
    unfold flash at h
    split at h
    · cases h
    · dsimp only at h
      split at h
      · rename_i hsparse
        have hremainder : image.remainder image.sparseHeader.fileHdrSz = image.size :=
          Nat.add_sub_cancel image.size image.sparseHeader.fileHdrSz
        unfold flashSparse at h
        rw [← hremainder] at h
        exact hnot ⟨hsparse, flashChunks_divides env ReachesChunk.first _ h⟩
      · cases h

end Sparse

/-!
# Boot images
-/

section Boot

/-- `img_size`, for the header at the start of the partition. -/
def imageSize (arch : Arch) (disk : Mem) : Nat :=
  u32 ((aospHeader disk).bootimageSize arch true)

/-- The bytes of `page_size` that are read with the image. -/
def pageSizeBytes (arch : Arch) (disk : Mem) : Nat :=
  min (imageSize arch disk - 36) 4

/-- The part of `page_size` that is read again with the image is zero. -/
def NoPageSize (arch : Arch) (disk : Mem) : Prop :=
  bytesAt disk 0 8 = bootMagic ∧
    (aospHeader disk).pageSize % 256 ^ pageSizeBytes arch disk = 0

def BootGuarded (arch : Arch) (disk : Mem) : Prop :=
  forall (env : PartitionEnv) append hooks used, env.load.arch = arch -> env.disk = disk ->
    (startPartition env append hooks used).1 ≠ LoadEnd.divideError

theorem le32_mod_eq_zero_iff (mem : Mem) (offset : Nat) {k : Nat} (hk : k ≤ 4) :
    le32 mem offset % 256 ^ k = 0 <-> forall i, i < k -> mem (offset + i) = 0 := by
  have hbyte : forall i, mem (offset + i) = 0 <-> (mem (offset + i)).toNat = 0 := by
    intro i
    rw [← UInt8.toNat_inj]
    rfl
  have hvalue : le32 mem offset = (mem (offset + 0)).toNat + 256 * (mem (offset + 1)).toNat +
      256 ^ 2 * (mem (offset + 2)).toNat + 256 ^ 3 * (mem (offset + 3)).toNat := by
    unfold le32 le16
    simp only [Nat.add_assoc, Nat.add_zero, Nat.reduceAdd]
    omega
  have h0 := (mem (offset + 0)).toNat_lt
  have h1 := (mem (offset + 1)).toNat_lt
  have h2 := (mem (offset + 2)).toNat_lt
  have h3 := (mem (offset + 3)).toNat_lt
  simp only [hbyte, hvalue]
  rcases (by omega : k = 0 ∨ k = 1 ∨ k = 2 ∨ k = 3 ∨ k = 4) with rfl | rfl | rfl | rfl | rfl
  · simp [Nat.mod_one]
  · simp only [Nat.forall_lt_succ_right, Nat.not_lt_zero, false_implies, implies_true, true_and]
    omega
  · simp only [Nat.forall_lt_succ_right, Nat.not_lt_zero, false_implies, implies_true, true_and]
    omega
  · simp only [Nat.forall_lt_succ_right, Nat.not_lt_zero, false_implies, implies_true, true_and]
    omega
  · simp only [Nat.forall_lt_succ_right, Nat.not_lt_zero, false_implies, implies_true, true_and]
    omega

variable {arch : Arch} {disk : Mem}

theorem loadedImage_of_lt {env : PartitionEnv} (pool : Mem) {x : Nat} (h : x < env.imgSize) :
    env.loadedImage pool x = env.disk x := by
  have hinside : 0 ≤ x ∧ x < 0 + env.imgSize := ⟨Nat.zero_le x, by omega⟩
  unfold PartitionEnv.loadedImage ByteWrite.apply
  dsimp only
  rw [if_pos hinside, Nat.sub_zero]

theorem loadedImage_of_le {env : PartitionEnv} (pool : Mem) {x : Nat} (h : env.imgSize ≤ x) :
    env.loadedImage pool x = pool x := by
  have hbehind : 0 + env.imgSize ≤ x := by omega
  exact ByteWrite.apply_of_not_mem (Or.inr hbehind)

theorem noPageSize_of_loaded {env : PartitionEnv} {pool : Mem}
    (hmagic : bytesAt env.disk 0 8 = bootMagic)
    (hpage : (aospHeader (env.loadedImage pool)).pageSize = 0) :
    NoPageSize env.load.arch env.disk := by
  have hsize : imageSize env.load.arch env.disk = env.imgSize := rfl
  have hloaded : forall i, i < 4 -> env.loadedImage pool (36 + i) = 0 := by
    apply (le32_mod_eq_zero_iff _ _ (Nat.le_refl 4)).mp
    change (aospHeader (env.loadedImage pool)).pageSize % 256 ^ 4 = 0
    rw [hpage]
    rfl
  refine ⟨hmagic, (le32_mod_eq_zero_iff _ 36 (Nat.min_le_right _ 4)).mpr ?_⟩
  intro i hi
  rw [hsize] at hi
  rw [← loadedImage_of_lt pool (by omega)]
  exact hloaded i (by omega)

/-- Behind the header, a setup header that passes the checks at page 0. -/
def setupPool : Mem :=
  store 2 SetupHeader.bootFlag 0xAA55 (store 4 SetupHeader.header setupHdr fun _ => 0)

def setupPartition (arch : Arch) (disk : Mem) : PartitionEnv :=
  { smallPartition disk with
    load := { smallEnv with arch := arch }
    imagePool := some setupPool }

/-- If only zero bytes of the page size are read again, the pool can make it zero. -/
theorem divides_setupPool (hpage : (aospHeader disk).pageSize ≠ 0)
    (hnone : (aospHeader disk).pageSize % 256 ^ pageSizeBytes arch disk = 0) :
    Divides ((setupPartition arch disk).loadedImage setupPool) := by
  have hsize : (setupPartition arch disk).imgSize = imageSize arch disk := rfl
  have hlt := (aospHeader disk).pageSize_lt
  have hshort : imageSize arch disk < 40 := by
    by_contra hlong
    have hall : pageSizeBytes arch disk = 4 := by
      unfold pageSizeBytes
      omega
    rw [hall] at hnone
    omega
  have hbehind : forall x, 40 ≤ x ->
      (setupPartition arch disk).loadedImage setupPool x = setupPool x :=
    fun x hx => loadedImage_of_le setupPool (by omega)
  have hkept := (le32_mod_eq_zero_iff disk 36 (Nat.min_le_right _ 4)).mp hnone
  have hbytes : forall i, i < 4 ->
      (setupPartition arch disk).loadedImage setupPool (36 + i) = 0 := by
    intro i hi
    by_cases hread : 36 + i < (setupPartition arch disk).imgSize
    · rw [loadedImage_of_lt setupPool hread]
      apply hkept
      rw [hsize] at hread
      omega
    · rw [loadedImage_of_le setupPool (Nat.le_of_not_lt hread)]
      rcases (by omega : i = 0 ∨ i = 1 ∨ i = 2 ∨ i = 3) with rfl | rfl | rfl | rfl <;> rfl
  have hzero : (aospHeader ((setupPartition arch disk).loadedImage setupPool)).pageSize = 0 := by
    have hmod := (le32_mod_eq_zero_iff _ 36 (Nat.le_refl 4)).mpr hbytes
    have hword : le32 ((setupPartition arch disk).loadedImage setupPool) 36 < 256 ^ 4 :=
      le32_lt _ 36
    rw [Nat.mod_eq_of_lt hword] at hmod
    exact hmod
  have hflag : le16 ((setupPartition arch disk).loadedImage setupPool) SetupHeader.bootFlag =
      0xAA55 := by
    unfold le16
    rw [hbehind _ (by decide), hbehind _ (by decide)]
    decide
  have hheader : le32 ((setupPartition arch disk).loadedImage setupPool) SetupHeader.header =
      setupHdr := by
    have hsame : forall i, i < 4 -> (setupPartition arch disk).loadedImage setupPool
        (SetupHeader.header + i) = setupPool (SetupHeader.header + i) := by
      intro i _
      apply hbehind
      unfold SetupHeader.header
      omega
    rw [le32_congr hsame]
    decide
  refine ⟨?_, ?_, hzero⟩
  · rw [hzero, Nat.zero_add]
    exact hflag
  · rw [hzero, Nat.zero_add]
    exact hheader

theorem startBuffer_divides_iff (env : LoadEnv) (append : Option (List UInt8))
    (hooks : Option BootimgHooks) (s : LoadState) :
    (startBuffer env append hooks s).1 = LoadEnd.divideError <-> Divides s.image := by
  rcases startBuffer_ends env append hooks s with ⟨hdivides, hend⟩ | ⟨hdivides, hhooked⟩
  · exact ⟨fun _ => hdivides, fun _ => hend⟩
  · constructor
    · intro hend
      unfold Hooked at hhooked
      rw [hend] at hhooked
      exact hhooked.elim
    · exact fun h => absurd h hdivides

/-- The two divisions of `android_image_start_partition` that can go wrong. -/
structure PartitionDivides (env : PartitionEnv) : Prop where
  opened : env.openPartition = EfiStatus.success
  header : env.readHeader = EfiStatus.success
  magic : bytesAt env.disk 0 8 = bootMagic
  divisor : (aospHeader env.disk).pageSize = 0 ∨ exists pool, env.imagePool = some pool ∧
    env.readImage = EfiStatus.success ∧ Divides (env.loadedImage pool)

theorem startPartition_divides_iff (env : PartitionEnv) (append : Option (List UInt8))
    (hooks : Option BootimgHooks) (used : Finset Nat) :
    (startPartition env append hooks used).1 = LoadEnd.divideError <-> PartitionDivides env := by
  unfold startPartition
  dsimp only
  by_cases hopened : env.openPartition = EfiStatus.success
  swap
  · rw [if_pos hopened]
    exact ⟨fun h => (by cases h), fun h => absurd h.opened hopened⟩
  by_cases hheader : env.readHeader = EfiStatus.success
  swap
  · rw [if_neg (not_not.mpr hopened), if_pos hheader]
    exact ⟨fun h => (by cases h), fun h => absurd h.header hheader⟩
  by_cases hmagic : bytesAt env.disk 0 8 = bootMagic
  swap
  · rw [if_neg (not_not.mpr hopened), if_neg (not_not.mpr hheader), if_pos hmagic]
    exact ⟨fun h => (by cases h), fun h => absurd h.magic hmagic⟩
  rw [if_neg (not_not.mpr hopened), if_neg (not_not.mpr hheader), if_neg (not_not.mpr hmagic)]
  by_cases hzero : (aospHeader env.disk).pageSize = 0
  · rw [if_pos hzero]
    exact ⟨fun _ => ⟨hopened, hheader, hmagic, Or.inl hzero⟩, fun _ => rfl⟩
  rw [if_neg hzero]
  cases hpool : env.imagePool with
  | none =>
      refine ⟨fun h => (by cases h), fun h => ?_⟩
      rcases h.divisor with hpage | ⟨pool, hsome, -, -⟩
      · exact absurd hpage hzero
      · rw [hpool] at hsome
        cases hsome
  | some pool =>
      dsimp only
      have hstart := startBuffer_divides_iff env.load append hooks (env.loadedState pool used)
      by_cases hread : env.readImage = EfiStatus.success
      swap
      · rw [if_pos hread]
        refine ⟨fun h => (by cases h), fun h => ?_⟩
        rcases h.divisor with hpage | ⟨_, -, hok, -⟩
        · exact absurd hpage hzero
        · exact absurd hok hread
      rw [if_neg (not_not.mpr hread)]
      have hdivisor : PartitionDivides env <-> Divides (env.loadedImage pool) := by
        constructor
        · intro h
          rcases h.divisor with hpage | ⟨pool', hsome, -, hloaded⟩
          · exact absurd hpage hzero
          · rw [hpool] at hsome
            cases hsome
            exact hloaded
        · exact fun h => ⟨hopened, hheader, hmagic, Or.inr ⟨pool, hpool, hread, h⟩⟩
      rw [hdivisor]
      refine Iff.trans ?_ hstart
      generalize startBuffer env.load append hooks (env.loadedState pool used) = result
      rcases result with ⟨ending, t⟩
      cases ending with
      | failed step status => exact ⟨fun h => (by cases h), fun h => (by cases h)⟩
      | divideError => exact Iff.rfl
      | jumped kernelStart bootAddr => exact Iff.rfl

theorem bootGuarded_iff (arch : Arch) (disk : Mem) :
    BootGuarded arch disk <-> ¬ NoPageSize arch disk := by
  constructor
  · intro h hnone
    apply h (setupPartition arch disk) none none ∅ rfl rfl
    rw [startPartition_divides_iff]
    refine ⟨rfl, rfl, hnone.1, ?_⟩
    by_cases hzero : (aospHeader disk).pageSize = 0
    · exact Or.inl hzero
    · exact Or.inr ⟨setupPool, rfl, rfl, divides_setupPool hzero hnone.2⟩
  · intro hnot env append hooks used harch hdisk h
    subst harch hdisk
    have hdivides := (startPartition_divides_iff env append hooks used).mp h
    rcases hdivides.divisor with hzero | ⟨pool, -, -, hloaded⟩
    · exact hnot ⟨hdivides.magic, by rw [hzero, Nat.zero_mod]⟩
    · exact hnot (noPageSize_of_loaded hdivides.magic hloaded.pageSize)

/-- The offset of the ramdisk, computed later, is divided by the page size that was checked. -/
theorem pageSize_of_line {env : LoadEnv} {append : Option (List UInt8)} {s t : LoadState}
    (hformed : WellFormed s.image) (hline : setupCommandLine env append s = (none, t)) :
    (aospHeader t.image).pageSize ≠ 0 := by
  have houtcome := setupCommandLine_outcome env append s
  rw [hline] at houtcome
  cases houtcome with
  | placed hplaced _ =>
      rw [hplaced.layout.header]
      exact hformed.2.2

end Boot

/-!
# Cards
-/

def EraseGuarded (csd : ExtCsd) : Prop :=
  forall (env : EraseEnv) partition s, env.extCsd = csd ->
    (eraseByLabel env partition s).map Prod.fst ≠ some FlashEnd.divideError

theorem fallback_returns (fill : Option (EfiStatus × EraseState)) :
    (fill.map fun (status, s) => (FlashEnd.returned status, s)).map Prod.fst ≠
      some FlashEnd.divideError := by
  cases fill with
  | none => simp
  | some result => simp

theorem eraseBlocks_divides {env : EraseEnv} {start stop : Nat} {s : EraseState}
    (h : (eraseBlocks env start stop s).map Prod.fst = some FlashEnd.divideError) :
    env.extCsd.hcEraseGrpSize = 0 := by
  unfold eraseBlocks at h
  dsimp only at h
  split at h
  · exact absurd h (fallback_returns _)
  · split at h
    · exact absurd h (fallback_returns _)
    · rename_i group timeout hinfo
      split at h
      · exact absurd h (fallback_returns _)
      · split at h
        · rename_i hgroup
          unfold getMmcInfo at hinfo
          split at hinfo
          · cases hinfo
          · split at hinfo
            · cases hinfo
            · cases hinfo
              rw [← UInt8.toNat_inj]
              change env.extCsd.hcEraseGrpSize.toNat = 0
              omega
        · split at h
          · cases h
          · split at h
            · cases h
            · split at h
              · cases h
              · split at h
                · cases h
                · cases h

def cardWith (csd : ExtCsd) : EraseEnv :=
  { smallCard with extCsd := csd }

def firstBlock : Except EfiStatus (GptPartition × BlockIo) :=
  Except.ok ({ startingLba := 0, endingLba := 0 }, { mediaId := 0, blockSize := 512 })

theorem eraseByLabel_divides {csd : ExtCsd} (hzero : csd.hcEraseGrpSize = 0) (s : EraseState) :
    eraseByLabel (cardWith csd) firstBlock s = some (FlashEnd.divideError, s) := by
  have hinfo : getMmcInfo { cardWith csd with blockSize := 512 } =
      Except.ok (0, 300 * csd.eraseTimeoutMult.toNat) := by
    change Except.ok (1024 * csd.hcEraseGrpSize.toNat, 300 * csd.eraseTimeoutMult.toNat) = _
    rw [hzero]
    rfl
  change eraseBlocks { cardWith csd with blockSize := 512 } 0 0 s = _
  unfold eraseBlocks
  rw [hinfo]
  rfl

theorem eraseGuarded_iff (csd : ExtCsd) : EraseGuarded csd <-> csd.hcEraseGrpSize ≠ 0 := by
  constructor
  · intro h hzero
    apply h (cardWith csd) firstBlock EraseState.fresh rfl
    rw [eraseByLabel_divides hzero]
    rfl
  · intro hgroup env partition s hcsd h
    unfold eraseByLabel at h
    split at h
    · cases h
    · have hzero := eraseBlocks_divides h
      exact hgroup (hcsd ▸ hzero)

/-!
# All three
-/

/--
The divisors are guarded exactly if no raw chunk of an image without block size is
reached, the page size keeps a byte other than zero, and the group size is not zero.
-/
theorem divisors_guarded_iff (image : ImageBuffer) (arch : Arch) (disk : Mem) (csd : ExtCsd) :
    (FlashGuarded image <-> ¬ (isSparseImage image = true ∧ RawWithoutBlocks image)) ∧
      (BootGuarded arch disk <-> ¬ NoPageSize arch disk) ∧
      (EraseGuarded csd <-> csd.hcEraseGrpSize ≠ 0) :=
  ⟨flashGuarded_iff image, bootGuarded_iff arch disk, eraseGuarded_iff csd⟩

def noBlocks : ImageBuffer where
  mem := memOf (oneChunkHeader [0, 0, 0, 0] ++
    [0xC1, 0xCA, 0, 0, 1, 0, 0, 0, 16, 0, 0, 0] ++ [1, 2, 3, 4])
  size := 44

def magicOnly : Mem :=
  memOf bootMagic

theorem divisors_not_guarded :
    isSparseImage noBlocks = true ∧ ¬ FlashGuarded noBlocks ∧
      ¬ BootGuarded Arch.x64 magicOnly ∧
      ¬ EraseGuarded { hcEraseGrpSize := 0, eraseTimeoutMult := 1 } := by
  refine ⟨by decide, ?_, ?_, ?_⟩
  · exact fun h => h everythingEnv [] FlashState.fresh (by decide +kernel)
  · exact fun h => h (smallPartition magicOnly) none none ∅ rfl rfl (by decide +kernel)
  · intro h
    apply h (cardWith { hcEraseGrpSize := 0, eraseTimeoutMult := 1 }) firstBlock
      EraseState.fresh rfl
    rw [eraseByLabel_divides rfl]
    rfl

end Fastboot
end BootableUefi
