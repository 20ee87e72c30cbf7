import BootableUefi.BootImage.ImageReads
import BootableUefi.Efilinux.BlockOwnership

/-!
# How long a file has to be

`android_image_start_file` compares the size of the image with the number of
bytes it has read, and lets as many be missing as the signature is long.
-/

namespace BootableUefi
namespace Efilinux

open Firmware Foundation BootImage

structure StartsImage (env : FileEnv) (image : Mem) : Prop where
  starts : FileStarts env
  loaded : exists pool status, lastRead env = some (pool, status) ∧ image = env.loadedImage pool
  pageSize : (aospHeader image).pageSize ≠ 0

/-- What the header describes and what is asked about the signature is among the bytes read. -/
structure FileCovered (env : FileEnv) (append : Option (List UInt8)) (image : Mem) : Prop where
  header : bootImgHdrSize ≤ env.readSize
  sections : (aospHeader image).sectionsEnd ≤ env.readSize
  signature : forall size sigOffset sigSize,
    LoadEvent.checkSignature size sigOffset sigSize ∈
        (startBuffer env.load append x86Hooks (LoadState.enter image env.used)).2.log ->
      forall i, i < sigSize -> sigOffset + i < env.readSize

/-- Nothing of what the test counts is lost to 32 bits, or to the width of a `UINTN`. -/
structure Counted (arch : Arch) (hdr : BootImgHdr) : Prop where
  sections : hdr.sectionsEnd < 2 ^ 32
  signature : hdr.sigSize + hdr.pageSize ≤ 2 ^ 32
  image : hdr.sectionsEnd + alignUp hdr.pageSize hdr.sigSize < 2 ^ arch.uintnBits

/-- The bytes of the image, as far as they are counted, that the file does not have. -/
def FileEnv.shortfall (env : FileEnv) (image : Mem) : Int :=
  (aospHeader image).signedSize + (aospHeader image).sectionBytes (aospHeader image).sigSize -
    env.readSize

/--
Where all is counted, the test sees to the sections, and to a header that is not
longer than a page; elsewhere the pages of the signature have to make up for what
is lost.  Of the signature's pages, only the padding may be missing.
-/
structure FileLongEnough (env : FileEnv) (image : Mem) : Prop where
  header : (Counted env.load.arch (aospHeader image) ∧
      bootImgHdrSize ≤ (aospHeader image).pageSize) ∨
    bootImgHdrSize ≤ env.readSize
  sections : Counted env.load.arch (aospHeader image) ∨
    (aospHeader image).sectionsEnd - (aospHeader image).signedSize + env.shortfall image ≤
      (aospHeader image).sectionBytes (aospHeader image).sigSize
  signature : WellFormed image -> (aospHeader image).sigSize = 0 ∨
    (aospHeader image).sigSize + env.shortfall image ≤
      (aospHeader image).sectionBytes (aospHeader image).sigSize

section Starts

variable {env : FileEnv} {image : Mem}

theorem startRead_of_readStarts {pool : Mem} {status : EfiStatus} (start : Nat)
    (append : Option (List UInt8)) (h : ReadStarts env pool status)
    (hpage : (aospHeader (env.loadedImage pool)).pageSize ≠ 0) :
    exists last, startRead env start append pool status =
      { ofStart start Block.commandLine (startBuffer env.load append x86Hooks
          (LoadState.enter (env.loadedImage pool) env.used)) with
        events := (ofStart start Block.commandLine (startBuffer env.load append x86Hooks
          (LoadState.enter (env.loadedImage pool) env.used))).events ++ last } := by
  unfold startRead
  dsimp only
  rw [if_neg (not_not.mpr h.1), if_neg hpage, if_neg (Nat.not_lt.mpr h.2)]
  exact ⟨_, rfl⟩

theorem startFile_of_startsImage (h : StartsImage env image) (start : Nat)
    (append : Option (List UInt8)) :
    exists first last, startFile env start append =
      { ofStart start Block.commandLine (startBuffer env.load append x86Hooks
          (LoadState.enter image env.used)) with
        events := first ++ (ofStart start Block.commandLine (startBuffer env.load append x86Hooks
          (LoadState.enter image env.used))).events ++ last } := by
  rcases h.loaded with ⟨pool, status, hlast, rfl⟩
  rcases h.starts with ⟨hpath, hprotocol, hvolume, hopen, hpool, hinfo, pool', status', hlast',
    hstarts⟩
  rw [hlast] at hlast'
  cases hlast'
  rcases startRead_of_readStarts start append hstarts h.pageSize with ⟨last, hread⟩
  have hfile : startFile env start append = readImage env start append := by
    unfold startFile
    rw [hpath, hprotocol, hvolume, hopen, hpool, hinfo]
    rfl
  rw [hfile]
  unfold readImage
  unfold lastRead at hlast
  cases hfirst : env.imagePool with
  | none =>
      rw [hfirst] at hlast
      cases hlast
  | some first =>
      rw [hfirst] at hlast
      dsimp only at hlast ⊢
      split at hlast
      · rename_i hsmall
        rw [if_pos hsmall]
        cases hagain : env.imagePoolAgain with
        | none =>
            rw [hagain] at hlast
            cases hlast
        | some again =>
            rw [hagain] at hlast
            cases hlast
            dsimp only
            rw [hread]
            refine ⟨[useBlock (Block.firstImage start), freeBlock (Block.firstImage start)], last,
              ?_⟩
            unfold Load.prepend
            rw [List.append_assoc]
      · rename_i hlarge
        cases hlast
        rw [if_neg hlarge, hread]
        exact ⟨[], last, rfl⟩

theorem sectionsEnd_eq_signedEnd {hdr : BootImgHdr} (h : hdr.sectionsEnd < 2 ^ 32) :
    hdr.sectionsEnd = hdr.signedEnd := by
  have hkernel := le_alignUp hdr.pageSize hdr.kernelSize
  have hramdisk := le_alignUp hdr.pageSize hdr.ramdiskSize
  have hsecond := le_alignUp hdr.pageSize hdr.secondSize
  unfold BootImgHdr.sectionsEnd at h
  unfold BootImgHdr.sectionsEnd BootImgHdr.signedEnd BootImgHdr.kernelEnd BootImgHdr.sectionBytes
  rw [if_pos (by omega), if_pos (by omega), if_pos (by omega)]

theorem Counted.bootimageSize {arch : Arch} {hdr : BootImgHdr} (h : Counted arch hdr)
    (hpage : 0 < hdr.pageSize) :
    hdr.bootimageSize arch true = hdr.sectionsEnd + alignUp hdr.pageSize hdr.sigSize := by
  have hsections := sectionsEnd_eq_signedEnd h.sections
  have hsignature : hdr.sectionBytes hdr.sigSize = alignUp hdr.pageSize hdr.sigSize :=
    if_pos h.signature
  have hlast : alignUp hdr.pageSize hdr.sigSize < 2 ^ 32 := by
    have hround := alignUp_lt hpage hdr.sigSize
    have hbound := h.signature
    omega
  have hcount := h.sections
  rw [hsections] at hcount ⊢
  unfold BootImgHdr.bootimageSize
  rw [if_pos rfl, signedSize_eq hpage, pages_mul hpage hdr.sigSize_lt, hsignature,
    u32_of_lt hcount, u32_of_lt hlast]
  exact Nat.mod_eq_of_lt (hsections ▸ h.image)

/-- What passes the test has its sections, if all of it is counted. -/
theorem sectionsEnd_le_of_counted (h : StartsImage env image)
    (hcounted : Counted env.load.arch (aospHeader image)) :
    (aospHeader image).sectionsEnd ≤ env.readSize := by
  rcases h.loaded with ⟨pool, status, hlast, rfl⟩
  rcases h.starts with ⟨-, -, -, -, -, -, pool', status', hlast', -, hmissing⟩
  rw [hlast] at hlast'
  cases hlast'
  have hsigBytes := le_alignUp (aospHeader (env.loadedImage pool)).pageSize
    (aospHeader (env.loadedImage pool)).sigSize
  have himage := hcounted.image
  unfold FileEnv.missingBytes at hmissing
  rw [hcounted.bootimageSize (Nat.pos_of_ne_zero h.pageSize)] at hmissing
  unfold Arch.uintn Arch.uintnBits at hmissing
  unfold Arch.uintnBits at himage
  generalize aospHeader (env.loadedImage pool) = hdr at *
  cases harch : env.load.arch with
  | ia32 =>
      rw [harch] at hmissing himage
      dsimp only at hmissing himage
      omega
  | x64 =>
      rw [harch] at hmissing himage
      dsimp only at hmissing himage
      omega

end Starts

/-- Every image that is started from a file is covered by it. -/
def FileContained (env : FileEnv) (append : Option (List UInt8)) : Prop :=
  forall image, StartsImage env image -> FileCovered env append image

theorem pageSize_le_sectionsEnd (hdr : BootImgHdr) : hdr.pageSize ≤ hdr.sectionsEnd := by
  unfold BootImgHdr.sectionsEnd
  omega

theorem fileCovered_iff {env : FileEnv} {image : Mem} (hstarts : StartsImage env image)
    (append : Option (List UInt8)) :
    FileCovered env append image <-> FileLongEnough env image := by
  constructor
  · intro h
    have hsections := h.sections
    refine ⟨Or.inr h.header, Or.inr ?_, ?_⟩
    · unfold FileEnv.shortfall
      omega
    · intro hformed
      have hchecked := signatureCheck_mem env.load append x86Hooks
        (s := LoadState.enter image env.used) rfl hformed
      have hinside := forall_add_lt_iff.mp (h.signature _ _ _ hchecked)
      unfold FileEnv.shortfall
      dsimp only [LoadState.enter] at hinside
      omega
  · intro h
    have hsections : (aospHeader image).sectionsEnd ≤ env.readSize := by
      rcases h.sections with hcounted | hmade
      · exact sectionsEnd_le_of_counted hstarts hcounted
      · unfold FileEnv.shortfall at hmade
        omega
    constructor
    · rcases h.header with ⟨-, hpage⟩ | hread
      · exact hpage.trans ((pageSize_le_sectionsEnd _).trans hsections)
      · exact hread
    · exact hsections
    · intro size sigOffset sigSize hcheck
      have hformed : WellFormed image := by
        by_contra hnot
        cases not_milestone_of_not_wellFormed env.load append x86Hooks
          (s := LoadState.enter image env.used) rfl hnot hcheck
      rcases startBuffer_events env.load append x86Hooks image env.used hcheck with
        ⟨rfl, rfl, rfl⟩ | ⟨_, heq⟩
      · have hsignature := h.signature hformed
        unfold FileEnv.shortfall at hsignature
        apply forall_add_lt_iff.mpr
        omega
      · cases heq

/-- The images that are started from a file are covered exactly if the file is long enough. -/
theorem startFile_contained_iff (env : FileEnv) (append : Option (List UInt8)) :
    FileContained env append <->
      forall image, StartsImage env image -> FileLongEnough env image := by
  constructor
  · intro h image hstarts
    exact (fileCovered_iff hstarts append).mp (h image hstarts)
  · intro h image hstarts
    exact (fileCovered_iff hstarts append).mpr (h image hstarts)

def truncatedFile : FileEnv where
  load := smallEnv
  path := true
  handleProtocol := EfiStatus.success
  openVolume := EfiStatus.success
  openFile := EfiStatus.success
  infoPool := true
  getInfo := EfiStatus.success
  infoPoolAgain := true
  getInfoAgain := EfiStatus.success
  imagePool := some fun _ => 0
  read := EfiStatus.success
  imagePoolAgain := none
  readAgain := EfiStatus.success
  readSize := 0x3800
  contents := store 4 40 0x1000 (smallImage 0x1000 0x1000 0)
  used := ∅

/-- The file is started all the same, and the signature is looked for up to its end. -/
theorem startFile_truncated_signature : ¬ FileContained truncatedFile none := by
  intro h
  have hstarts : StartsImage truncatedFile (truncatedFile.loadedImage fun _ => 0) := by
    refine ⟨⟨rfl, rfl, rfl, rfl, rfl, rfl, fun _ => 0, EfiStatus.success, rfl, rfl, ?_⟩,
      ⟨fun _ => 0, EfiStatus.success, rfl, rfl⟩, ?_⟩
    · decide +kernel
    · decide +kernel
  have hcheck : LoadEvent.checkSignature 0x3000 0x3000 0x1000 ∈
      (startBuffer truncatedFile.load none x86Hooks
        (LoadState.enter (truncatedFile.loadedImage fun _ => 0) truncatedFile.used)).2.log := by
    decide +kernel
  have hinside : 0x3000 + 0x800 < truncatedFile.readSize :=
    (h _ hstarts).signature 0x3000 0x3000 0x1000 hcheck 0x800 (by omega)
  exact absurd hinside (by decide)

end Efilinux
end BootableUefi
