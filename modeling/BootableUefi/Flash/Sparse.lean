import BootableUefi.Flash.Partition

/-!
# Sparse images

`sparse.c`, and `flash`, which sends an image through it or writes it as it is.
The image is memory from the start of the buffer on: an offset at or after the
size of the buffer reads whatever follows the buffer.
-/

namespace BootableUefi
namespace Flash

open Firmware Foundation

structure ImageBuffer where
  mem : Mem
  size : Nat

/-- The fields of `struct sparse_header` the code acts on. -/
structure SparseHeader where
  magic : Nat
  majorVersion : Nat
  fileHdrSz : Nat
  chunkHdrSz : Nat
  blkSz : Nat
  totalChunks : Nat
  deriving DecidableEq, Repr

/-- The fields of `struct chunk_header` the code acts on. -/
structure ChunkHeader where
  chunkType : Nat
  chunkSz : Nat
  totalSz : Nat
  deriving DecidableEq, Repr

def sparseHeaderSize : Nat := 28

def chunkHeaderSize : Nat := 12

def sparseHeaderMagic : Nat := 0xed26ff3a
def chunkTypeRaw : Nat := 0xCAC1
def chunkTypeFill : Nat := 0xCAC2
def chunkTypeDontCare : Nat := 0xCAC3
def chunkTypeCrc32 : Nat := 0xCAC4

def ImageBuffer.sparseHeader (image : ImageBuffer) : SparseHeader where
  magic := le32 image.mem 0
  majorVersion := le16 image.mem 4
  fileHdrSz := le16 image.mem 8
  chunkHdrSz := le16 image.mem 10
  blkSz := le32 image.mem 12
  totalChunks := le32 image.mem 20

def ImageBuffer.chunkHeader (image : ImageBuffer) (s : Nat) : ChunkHeader where
  chunkType := le16 image.mem s
  chunkSz := le32 image.mem (s + 4)
  totalSz := le32 image.mem (s + 8)

def isSparseImage (image : ImageBuffer) : Bool :=
  let sph := image.sparseHeader
  if image.size < sparseHeaderSize then false
  else if sph.magic ≠ sparseHeaderMagic then false
  else if sph.majorVersion > 1 then false
  else if sph.fileHdrSz < sparseHeaderSize then false
  else if sph.chunkHdrSz < chunkHeaderSize then false
  else true

/-- The 32-bit product both headers contribute to. -/
def chunkBytes (sph : SparseHeader) (ckh : ChunkHeader) : Nat :=
  u32 (ckh.chunkSz * sph.blkSz)

/-- `flash_chunk`; `data` is the offset of the payload in the buffer. -/
def flashChunk (env : FlashEnv) (image : ImageBuffer) (sph : SparseHeader)
    (ckh : ChunkHeader) (data size : Nat) (t : FlashState) : FlashEnd × FlashState :=
  if ckh.chunkType = chunkTypeRaw then
    if sph.blkSz = 0 then
      (FlashEnd.divideError, t)
    else if size % sph.blkSz ≠ 0 ∨ size ≠ chunkBytes sph ckh then
      (FlashEnd.returned EfiStatus.invalidParameter, t)
    else
      let (status, t) := flashWrite env (fun i => image.mem (data + i)) size
        (t.emit (FlashEvent.read data size size))
      (FlashEnd.returned status, t)
  else if ckh.chunkType = chunkTypeDontCare then
    let (status, t) := flashSkip (chunkBytes sph ckh) t
    (FlashEnd.returned status, t)
  else if ckh.chunkType = chunkTypeFill then
    let (status, t) := flashFill env (le32 image.mem data) (chunkBytes sph ckh)
      (t.emit (FlashEvent.read data 4 size))
    (FlashEnd.returned status, t)
  else if ckh.chunkType = chunkTypeCrc32 then
    (FlashEnd.returned EfiStatus.success, t)
  else
    (FlashEnd.returned EfiStatus.invalidParameter, t)

/--
The loop of `flash_sparse` with the given number of chunks left; `s` is the
offset of the next chunk and `rlen` the remainder the code compares with.
-/
def flashChunks (env : FlashEnv) (image : ImageBuffer) :
    Nat -> Nat -> Nat -> FlashState -> FlashEnd × FlashState
  | 0, _, _, t => (FlashEnd.returned EfiStatus.success, t)
  | left + 1, s, rlen, t =>
      let sph := image.sparseHeader
      if rlen < sph.chunkHdrSz then
        (FlashEnd.returned EfiStatus.invalidParameter, t)
      else
        let ckh := image.chunkHeader s
        let t := t.emit (FlashEvent.read s chunkHeaderSize chunkHeaderSize)
        if rlen < ckh.totalSz then
          (FlashEnd.returned EfiStatus.invalidParameter, t)
        else if ckh.totalSz < sph.chunkHdrSz then
          (FlashEnd.returned EfiStatus.invalidParameter, t)
        else
          match flashChunk env image sph ckh (s + sph.chunkHdrSz)
              (ckh.totalSz - sph.chunkHdrSz) t with
          | (FlashEnd.returned EfiStatus.success, t) =>
              flashChunks env image left (s + ckh.totalSz) (rlen - ckh.totalSz) t
          | result => result

def flashSparse (env : FlashEnv) (image : ImageBuffer) (t : FlashState) :
    FlashEnd × FlashState :=
  flashChunks env image image.sparseHeader.totalChunks image.sparseHeader.fileHdrSz image.size
    (t.emit (FlashEvent.read 0 sparseHeaderSize sparseHeaderSize))

def flash (env : FlashEnv) (image : ImageBuffer) (label : List UInt16) (t : FlashState) :
    FlashEnd × FlashState :=
  match env.partitionByLabel label with
  | Except.error status => (FlashEnd.returned status, t)
  | Except.ok (part, bio) =>
      let gparti : GptPartitionInterface := { part := part, bio := some bio }
      let t := { t with gparti := gparti, curOffset := gparti.partStart }
      if isSparseImage image then
        flashSparse env image t
      else
        let (status, t) := flashWrite env image.mem image.size
          (t.emit (FlashEvent.read 0 image.size image.size))
        (FlashEnd.returned status, t)

/-!
# Events of the loop
-/

section Rules

variable {gparti : GptPartitionInterface} {P : List FlashEvent -> Prop}

theorem WriteRule.of_read (rule : WriteRule gparti P) {t u : FlashState}
    {offset size available : Nat} (hread : P [FlashEvent.read offset size available])
    (h : Emits P (t.emit (FlashEvent.read offset size available)) u) : Emits P t u :=
  rule.trans ⟨_, rfl, hread⟩ h

theorem flashChunk_gparti (env : FlashEnv) (image : ImageBuffer) (sph : SparseHeader)
    (ckh : ChunkHeader) (data size : Nat) (t : FlashState) :
    (flashChunk env image sph ckh data size t).2.gparti = t.gparti := by
  unfold flashChunk
  split
  · split
    · rfl
    · split
      · rfl
      · exact flashWrite_gparti env _ size _
  · split
    · exact flashSkip_gparti _ t
    · split
      · exact flashFill_gparti env _ _ _
      · split <;> rfl

theorem emits_flashChunk (rule : WriteRule gparti P)
    (hread : forall offset size available, P [FlashEvent.read offset size available])
    (env : FlashEnv) (image : ImageBuffer) (sph : SparseHeader) (ckh : ChunkHeader)
    (data size : Nat) {t : FlashState} (ht : t.gparti = gparti) :
    Emits P t (flashChunk env image sph ckh data size t).2 := by
  unfold flashChunk
  split
  · split
    · exact rule.refl t
    · split
      · exact rule.refl t
      · exact rule.of_read (hread _ _ _) (emits_flashWrite rule env _ size ht)
  · split
    · exact emits_flashSkip rule _ ht
    · split
      · exact rule.of_read (hread _ _ _) (emits_flashFill rule env _ _ ht)
      · split <;> exact rule.refl t

theorem emits_flashChunks (rule : WriteRule gparti P)
    (hread : forall offset size available, P [FlashEvent.read offset size available])
    (env : FlashEnv) (image : ImageBuffer) (left s rlen : Nat) {t : FlashState}
    (ht : t.gparti = gparti) : Emits P t (flashChunks env image left s rlen t).2 := by
  induction left generalizing s rlen t with
  | zero => exact rule.refl t
  | succ left ih =>
      unfold flashChunks
      dsimp only
      split
      · exact rule.refl t
      · apply rule.of_read (hread s chunkHeaderSize chunkHeaderSize)
        split
        · exact rule.refl _
        · split
          · exact rule.refl _
          · generalize hheader : t.emit (FlashEvent.read s chunkHeaderSize chunkHeaderSize) = u
            have hu : u.gparti = gparti := by
              rw [← hheader]
              exact ht
            have hstep := emits_flashChunk rule hread env image image.sparseHeader
              (image.chunkHeader s) (s + image.sparseHeader.chunkHdrSz)
              ((image.chunkHeader s).totalSz - image.sparseHeader.chunkHdrSz) hu
            have hkept := flashChunk_gparti env image image.sparseHeader
              (image.chunkHeader s) (s + image.sparseHeader.chunkHdrSz)
              ((image.chunkHeader s).totalSz - image.sparseHeader.chunkHdrSz) u
            split
            · rename_i v heq
              rw [heq] at hstep hkept
              exact rule.trans hstep (ih _ _ (hkept.trans hu))
            · exact hstep

end Rules

end Flash
end BootableUefi
