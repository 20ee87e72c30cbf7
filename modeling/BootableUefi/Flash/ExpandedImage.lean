import BootableUefi.Flash.Sparse

/-!
# Sparse images and their expansion

A sparse image stands for a sequence of pieces, one for each chunk, laid out
without gaps from the start of the partition.  The loop over the chunks agrees
with that meaning exactly as long as its 32-bit products and its 64-bit cursor
do not wrap.
-/

namespace BootableUefi
namespace Flash

open Firmware Foundation

/-!
# The expanded image
-/

namespace ImageBuffer

variable (image : ImageBuffer)

def expandedBytes (s : Nat) : Nat :=
  (image.chunkHeader s).chunkSz * image.sparseHeader.blkSz

def payload (s : Nat) : Mem :=
  fun i => image.mem (s + image.sparseHeader.chunkHdrSz + i)

def payloadSize (s : Nat) : Nat :=
  (image.chunkHeader s).totalSz - image.sparseHeader.chunkHdrSz

def nextChunk (s : Nat) : Nat :=
  s + (image.chunkHeader s).totalSz

def extentBytes (s : Nat) : Nat :=
  if (image.chunkHeader s).chunkType = chunkTypeCrc32 then 0 else image.expandedBytes s

def expandedLength : Nat -> Nat -> Nat
  | 0, _ => 0
  | left + 1, s => image.extentBytes s + expandedLength left (image.nextChunk s)

end ImageBuffer

inductive ExpandsTo (image : ImageBuffer) (s : Nat) : Piece -> Prop where
  | raw (htype : (image.chunkHeader s).chunkType = chunkTypeRaw)
      (hsize : image.payloadSize s = image.expandedBytes s) :
      ExpandsTo image s
        { length := image.expandedBytes s, content := some (image.payload s) }
  | fill (htype : (image.chunkHeader s).chunkType = chunkTypeFill) (content : Mem) :
      ExpandsTo image s { length := image.expandedBytes s, content := some content }
  | dontCare (htype : (image.chunkHeader s).chunkType = chunkTypeDontCare) :
      ExpandsTo image s { length := image.expandedBytes s, content := none }
  | crc32 (htype : (image.chunkHeader s).chunkType = chunkTypeCrc32) :
      ExpandsTo image s { length := 0, content := none }

/-- The pieces of the given number of chunks from an offset on. -/
inductive ExpandedImage (image : ImageBuffer) : Nat -> Nat -> List Piece -> Prop where
  | done (s : Nat) : ExpandedImage image 0 s []
  | chunk {left s : Nat} {p : Piece} {ps : List Piece} (hchunk : ExpandsTo image s p)
      (hrest : ExpandedImage image left (image.nextChunk s) ps) :
      ExpandedImage image (left + 1) s (p :: ps)

theorem ExpandsTo.length_eq {image : ImageBuffer} {s : Nat} {p : Piece}
    (h : ExpandsTo image s p) : p.length = image.extentBytes s := by
  cases h with
  | raw htype _ => simp [ImageBuffer.extentBytes, htype, chunkTypeRaw, chunkTypeCrc32]
  | fill htype _ => simp [ImageBuffer.extentBytes, htype, chunkTypeFill, chunkTypeCrc32]
  | dontCare htype =>
      simp [ImageBuffer.extentBytes, htype, chunkTypeDontCare, chunkTypeCrc32]
  | crc32 htype => simp [ImageBuffer.extentBytes, htype]

theorem ExpandedImage.totalLength_eq {image : ImageBuffer} {left s : Nat}
    {ps : List Piece} (h : ExpandedImage image left s ps) :
    totalLength ps = image.expandedLength left s := by
  induction h with
  | done s => rfl
  | chunk hchunk _ ih =>
      rw [totalLength_cons, hchunk.length_eq, ih]
      rfl

def diskWrites (events : List FlashEvent) : List ByteWrite :=
  events.filterMap fun event =>
    match event with
    | FlashEvent.writeDisk w EfiStatus.success => some w
    | _ => none

@[simp] theorem diskWrites_append (xs ys : List FlashEvent) :
    diskWrites (xs ++ ys) = diskWrites xs ++ diskWrites ys := by
  simp [diskWrites]

/-- The events of a run have the effect of the expanded image. -/
structure ExpandedEffect (image : ImageBuffer) (start : Nat) (events : List FlashEvent)
    (cursor : Nat) (ps : List Piece) : Prop where
  expands : ExpandedImage image image.sparseHeader.totalChunks
    image.sparseHeader.fileHdrSz ps
  writes : diskWrites events = writesOf start ps
  inside : forall (before : Mem) (k : Nat) (p : Piece) (i : Nat),
    ps[k]? = some p -> i < p.length ->
    applyAll (diskWrites events) before (pieceStart start ps k + i) =
      p.result before (pieceStart start ps k) i
  outside : forall (before : Mem) (x : Nat), x < start ∨ start + totalLength ps ≤ x ->
    applyAll (diskWrites events) before x = before x
  cursor : cursor = start + totalLength ps

theorem ExpandedEffect.of_writes {image : ImageBuffer} {start cursor : Nat}
    {events : List FlashEvent} {ps : List Piece}
    (hexpands : ExpandedImage image image.sparseHeader.totalChunks
      image.sparseHeader.fileHdrSz ps)
    (hwrites : diskWrites events = writesOf start ps)
    (hcursor : cursor = start + totalLength ps) :
    ExpandedEffect image start events cursor ps := by
  constructor
  · exact hexpands
  · exact hwrites
  · intro before k p i hp hi
    rw [hwrites]
    exact applyAll_writesOf_inside hp hi
  · intro before x hx
    rw [hwrites]
    exact applyAll_writesOf_outside hx
  · exact hcursor

/-!
# One chunk
-/

structure ChunkDone (image : ImageBuffer) (s : Nat) (t u : FlashState) : Prop where
  cursor : u.curOffset =
    if (image.chunkHeader s).chunkType = chunkTypeCrc32 then t.curOffset
    else u64 (t.curOffset + u32 (image.expandedBytes s))
  effect : exists events : List FlashEvent, u.log = t.log ++ events ∧
    exists p : Piece, diskWrites events = p.writes t.curOffset ∧
      p.length = u32 (image.extentBytes s) ∧
      (image.expandedBytes s < 2 ^ 32 ∨
        (image.chunkHeader s).chunkType = chunkTypeCrc32 -> ExpandsTo image s p)

section Chunk

variable {env : FlashEnv} {image : ImageBuffer}

theorem diskWrites_of_written {w : ByteWrite} {status : EfiStatus}
    (h : status = EfiStatus.success) (readAt readSize available checkAt checkSize moved : Nat) :
    diskWrites [FlashEvent.read readAt readSize available, FlashEvent.check checkAt checkSize,
      FlashEvent.writeDisk w status, FlashEvent.moved moved] = [w] := by
  rw [h]
  rfl

theorem ChunkDone.of_written {s readAt readSize available : Nat} {data : Mem} {t v : FlashState}
    (hcrc : (image.chunkHeader s).chunkType ≠ chunkTypeCrc32)
    (hcursor : v.curOffset = t.curOffset)
    (hlog : v.log = t.log ++ [FlashEvent.read readAt readSize available])
    (hstatus : env.writeDisk v.writes = EfiStatus.success)
    (hexpands : image.expandedBytes s < 2 ^ 32 ->
      ExpandsTo image s { length := image.expandedBytes s, content := some data }) :
    ChunkDone image s t (writtenState env data (u32 (image.expandedBytes s)) v) := by
  constructor
  · rw [if_neg hcrc, ← hcursor]
    rfl
  · refine ⟨[FlashEvent.read readAt readSize available,
      FlashEvent.check v.curOffset (u32 (image.expandedBytes s)),
      FlashEvent.writeDisk ⟨v.curOffset, u32 (image.expandedBytes s), data⟩
        (env.writeDisk v.writes),
      FlashEvent.moved (u64 (v.curOffset + u32 (image.expandedBytes s)))], ?_, ?_⟩
    · simp [writtenState, hlog]
    · refine ⟨{ length := u32 (image.expandedBytes s), content := some data }, ?_, ?_, ?_⟩
      · rw [diskWrites_of_written hstatus, hcursor]
        rfl
      · simp [ImageBuffer.extentBytes, hcrc]
      · intro hfits
        have hlt := hfits.resolve_right hcrc
        rw [u32_of_lt hlt]
        exact hexpands hlt

theorem ChunkDone.of_skipped {s : Nat} {t : FlashState}
    (htype : (image.chunkHeader s).chunkType = chunkTypeDontCare) :
    ChunkDone image s t
      ((t.emit (FlashEvent.check t.curOffset (u32 (image.expandedBytes s)))).moveTo
        (u64 (t.curOffset + u32 (image.expandedBytes s)))) := by
  have hcrc : (image.chunkHeader s).chunkType ≠ chunkTypeCrc32 := by
    rw [htype]
    decide
  constructor
  · rw [if_neg hcrc]
    rfl
  · refine ⟨[FlashEvent.check t.curOffset (u32 (image.expandedBytes s)),
      FlashEvent.moved (u64 (t.curOffset + u32 (image.expandedBytes s)))], ?_, ?_⟩
    · simp [FlashState.moveTo, FlashState.emit]
    · refine ⟨{ length := u32 (image.expandedBytes s), content := none }, rfl, ?_, ?_⟩
      · simp [ImageBuffer.extentBytes, hcrc]
      · intro hfits
        rw [u32_of_lt (hfits.resolve_right hcrc)]
        exact ExpandsTo.dontCare htype

theorem ChunkDone.of_checksum {s : Nat} {t : FlashState}
    (htype : (image.chunkHeader s).chunkType = chunkTypeCrc32) : ChunkDone image s t t := by
  constructor
  · rw [if_pos htype]
  · refine ⟨[], by simp, { length := 0, content := none }, rfl, ?_, ?_⟩
    · simp [ImageBuffer.extentBytes, htype, u32]
    · intro _
      exact ExpandsTo.crc32 htype

theorem flashChunk_success {s : Nat} {t u : FlashState}
    (h : flashChunk env image image.sparseHeader (image.chunkHeader s)
      (s + image.sparseHeader.chunkHdrSz) (image.payloadSize s) t =
        (FlashEnd.returned EfiStatus.success, u)) : ChunkDone image s t u := by
  unfold flashChunk at h
  split at h
  · rename_i htype
    have hcrc : (image.chunkHeader s).chunkType ≠ chunkTypeCrc32 := by
      rw [htype]
      decide
    split at h
    · cases h
    · split at h
      · cases h
      · rename_i hconsistent
        have hsize : image.payloadSize s = u32 (image.expandedBytes s) := by
          by_contra hne
          exact hconsistent (Or.inr hne)
        simp only [Prod.mk.injEq, FlashEnd.returned.injEq] at h
        rcases flashWrite_success h.1 with ⟨_, hstatus, hstate⟩
        rw [← h.2, hstate, hsize]
        refine ChunkDone.of_written hcrc rfl rfl hstatus ?_
        intro hlt
        rw [u32_of_lt hlt] at hsize
        exact ExpandsTo.raw htype hsize
  · split at h
    · rename_i htype
      simp only [Prod.mk.injEq, FlashEnd.returned.injEq] at h
      rcases flashSkip_success h.1 with ⟨_, hstate⟩
      rw [← h.2, hstate]
      exact ChunkDone.of_skipped htype
    · split at h
      · rename_i htype
        have hcrc : (image.chunkHeader s).chunkType ≠ chunkTypeCrc32 := by
          rw [htype]
          decide
        simp only [Prod.mk.injEq, FlashEnd.returned.injEq] at h
        unfold flashFill at h
        dsimp only at h
        split at h
        · cases h.1
        · rcases flashWrite_success h.1 with ⟨_, hstatus, hstate⟩
          rw [← h.2, hstate]
          refine ChunkDone.of_written hcrc rfl rfl hstatus ?_
          intro _
          exact ExpandsTo.fill htype _
      · split at h
        · rename_i htype
          cases h
          exact ChunkDone.of_checksum htype
        · cases h

theorem flashChunks_succ_success {left s rlen : Nat} {t u : FlashState}
    (h : flashChunks env image (left + 1) s rlen t =
      (FlashEnd.returned EfiStatus.success, u)) :
    exists v : FlashState,
      ChunkDone image s (t.emit (FlashEvent.read s chunkHeaderSize chunkHeaderSize)) v ∧
      flashChunks env image left (image.nextChunk s)
        (rlen - (image.chunkHeader s).totalSz) v =
          (FlashEnd.returned EfiStatus.success, u) := by
  unfold flashChunks at h
  dsimp only at h
  split at h
  · cases h
  · split at h
    · cases h
    · split at h
      · cases h
      · split at h
        · rename_i v hchunk
          exact ⟨v, flashChunk_success hchunk, h⟩
        · rename_i hother
          exact absurd h (hother u)

end Chunk

/-!
# The loop over the chunks
-/

/-- No product of a chunk with an extent reaches 32 bits. -/
def ChunksFit (image : ImageBuffer) : Nat -> Nat -> Prop
  | 0, _ => True
  | left + 1, s =>
      image.extentBytes s < 2 ^ 32 ∧ ChunksFit image left (image.nextChunk s)

section Loop

variable {env : FlashEnv} {image : ImageBuffer}

theorem ChunkDone.cursor_le {s : Nat} {t u : FlashState} (h : ChunkDone image s t u) :
    u.curOffset ≤ t.curOffset + u32 (image.extentBytes s) := by
  rw [h.cursor]
  by_cases hcrc : (image.chunkHeader s).chunkType = chunkTypeCrc32
  · simp [hcrc]
  · rw [if_neg hcrc, ImageBuffer.extentBytes, if_neg hcrc]
    exact u64_le _

theorem ChunkDone.cursor_lt {s : Nat} {t u : FlashState} (h : ChunkDone image s t u)
    (ht : t.curOffset < 2 ^ 64) : u.curOffset < 2 ^ 64 := by
  rw [h.cursor]
  split
  · exact ht
  · exact u64_lt _

theorem ChunkDone.expands {s : Nat} {t u : FlashState} (h : ChunkDone image s t u)
    (hfits : image.extentBytes s < 2 ^ 32)
    (hcursor : t.curOffset + image.extentBytes s < 2 ^ 64) :
    exists (events : List FlashEvent) (p : Piece), u.log = t.log ++ events ∧
      diskWrites events = p.writes t.curOffset ∧ ExpandsTo image s p ∧
      u.curOffset = t.curOffset + p.length := by
  rcases h.effect with ⟨events, hlog, p, hwrites, hlength, hexpands⟩
  rw [u32_of_lt hfits] at hlength
  refine ⟨events, p, hlog, hwrites, ?_, ?_⟩
  · apply hexpands
    by_cases hcrc : (image.chunkHeader s).chunkType = chunkTypeCrc32
    · exact Or.inr hcrc
    · rw [ImageBuffer.extentBytes, if_neg hcrc] at hfits
      exact Or.inl hfits
  · rw [h.cursor, hlength]
    by_cases hcrc : (image.chunkHeader s).chunkType = chunkTypeCrc32
    · simp [ImageBuffer.extentBytes, hcrc]
    · rw [ImageBuffer.extentBytes, if_neg hcrc] at hfits hcursor ⊢
      rw [if_neg hcrc, u32_of_lt hfits, u64_of_lt hcursor]

theorem flashChunks_cursor {left s rlen : Nat} {t u : FlashState}
    (h : flashChunks env image left s rlen t = (FlashEnd.returned EfiStatus.success, u)) :
    u.curOffset ≤ t.curOffset + image.expandedLength left s ∧
      (u.curOffset = t.curOffset + image.expandedLength left s -> ChunksFit image left s) := by
  induction left generalizing s rlen t with
  | zero =>
      cases h
      exact ⟨Nat.le_refl _, fun _ => trivial⟩
  | succ left ih =>
      rcases flashChunks_succ_success h with ⟨v, hdone, hrest⟩
      have hle := hdone.cursor_le
      have hwrapped := u32_le (image.extentBytes s)
      rcases ih hrest with ⟨hbound, hexact⟩
      have hcursor : (t.emit (FlashEvent.read s chunkHeaderSize chunkHeaderSize)).curOffset =
          t.curOffset := rfl
      rw [hcursor] at hle
      unfold ImageBuffer.expandedLength
      constructor
      · omega
      · intro hend
        constructor
        · apply u32_eq_self_iff.mp
          omega
        · apply hexact
          omega

theorem flashChunks_cursor_lt {left s rlen : Nat} {t u : FlashState}
    (h : flashChunks env image left s rlen t = (FlashEnd.returned EfiStatus.success, u))
    (ht : t.curOffset < 2 ^ 64) : u.curOffset < 2 ^ 64 := by
  induction left generalizing s rlen t with
  | zero =>
      cases h
      exact ht
  | succ left ih =>
      rcases flashChunks_succ_success h with ⟨v, hdone, hrest⟩
      exact ih hrest (hdone.cursor_lt ht)

theorem flashChunks_expands {left s rlen : Nat} {t u : FlashState}
    (h : flashChunks env image left s rlen t = (FlashEnd.returned EfiStatus.success, u))
    (hfits : ChunksFit image left s)
    (hcursor : t.curOffset + image.expandedLength left s < 2 ^ 64) :
    exists (events : List FlashEvent) (ps : List Piece), u.log = t.log ++ events ∧
      diskWrites events = writesOf t.curOffset ps ∧ ExpandedImage image left s ps ∧
      u.curOffset = t.curOffset + totalLength ps := by
  induction left generalizing s rlen t with
  | zero =>
      cases h
      exact ⟨[], [], by simp, rfl, ExpandedImage.done s, rfl⟩
  | succ left ih =>
      rcases flashChunks_succ_success h with ⟨v, hdone, hrest⟩
      rw [ImageBuffer.expandedLength] at hcursor
      have hchunk := hdone.expands hfits.1 (Nat.lt_of_le_of_lt (by simp [FlashState.emit]) hcursor)
      rcases hchunk with ⟨first, p, hfirst, hwrites, hexpands, hmove⟩
      have hvcursor : v.curOffset + image.expandedLength left (image.nextChunk s) < 2 ^ 64 := by
        rw [hmove, hexpands.length_eq, Nat.add_assoc]
        exact hcursor
      rcases ih hrest hfits.2 hvcursor with ⟨rest, ps, hlog, hothers, himage, hend⟩
      refine ⟨[FlashEvent.read s chunkHeaderSize chunkHeaderSize] ++ first ++ rest, p :: ps,
        ?_, ?_, ?_, ?_⟩
      · rw [hlog, hfirst]
        simp [FlashState.emit]
      · rw [diskWrites_append, diskWrites_append, hwrites, hothers, hmove]
        rfl
      · exact ExpandedImage.chunk hexpands himage
      · rw [hend, hmove, totalLength_cons, Nat.add_assoc]
        rfl

end Loop

/--
A successful `flash_sparse` has the effect of the expanded image if and only if
no product wraps and the expanded image ends below `2 ^ 64`.
-/
theorem flashSparse_expands_iff {env : FlashEnv} {image : ImageBuffer} {t u : FlashState}
    (hstart : t.curOffset = t.gparti.partStart) (hlog : t.log = [])
    (hrun : flashSparse env image t = (FlashEnd.returned EfiStatus.success, u)) :
    (exists ps : List Piece,
      ExpandedEffect image t.gparti.partStart u.log u.curOffset ps) <->
    ChunksFit image image.sparseHeader.totalChunks image.sparseHeader.fileHdrSz ∧
      t.gparti.partStart + image.expandedLength image.sparseHeader.totalChunks
        image.sparseHeader.fileHdrSz < 2 ^ 64 := by
  have hbound : t.curOffset < 2 ^ 64 := by
    rw [hstart]
    exact u64_lt _
  unfold flashSparse at hrun
  constructor
  · intro hcase
    rcases hcase with ⟨ps, heffect⟩
    have hcursor := heffect.cursor
    rw [heffect.expands.totalLength_eq] at hcursor
    have hlt := flashChunks_cursor_lt hrun hbound
    constructor
    · apply (flashChunks_cursor hrun).2
      rw [hcursor, ← hstart]
      rfl
    · rw [← hcursor]
      exact hlt
  · intro hcase
    rcases hcase with ⟨hfits, hend⟩
    rw [← hstart] at hend
    rcases flashChunks_expands hrun hfits hend with
      ⟨events, ps, hevents, hwrites, himage, hcursor⟩
    refine ⟨ps, ExpandedEffect.of_writes himage ?_ ?_⟩
    · rw [hevents, diskWrites_append, hwrites, ← hstart]
      simp [FlashState.emit, hlog, diskWrites]
    · rw [hcursor, ← hstart]
      rfl

/-!
# Two images of one chunk
-/

def oneChunkHeader (blkSz : List UInt8) : List UInt8 :=
  [0x3a, 0xff, 0x26, 0xed, 1, 0, 0, 0, 28, 0, 12, 0] ++ blkSz ++
    [0, 0, 0, 0, 1, 0, 0, 0, 0, 0, 0, 0]

def oneRawChunk : ImageBuffer where
  mem := memOf (oneChunkHeader [4, 0, 0, 0] ++
    [0xC1, 0xCA, 0, 0, 1, 0, 0, 0, 16, 0, 0, 0] ++ [1, 2, 3, 4])
  size := 44

/-- `2 ^ 20` blocks of 4096 bytes that are not cared about. -/
def oneHugeHole : ImageBuffer where
  mem := memOf (oneChunkHeader [0, 16, 0, 0] ++
    [0xC3, 0xCA, 0, 0, 0, 0, 16, 0, 12, 0, 0, 0])
  size := 40

/-- The state in which `flash` calls `flash_sparse`. -/
def atPartStart (gparti : GptPartitionInterface) : FlashState :=
  { FlashState.fresh with gparti := gparti, curOffset := gparti.partStart }

def wholeDisk : GptPartitionInterface where
  part := { startingLba := 1, endingLba := 0xffffffffff }
  bio := some { mediaId := 0, blockSize := 512 }

def wholeDiskEnv : FlashEnv :=
  grantingEnv wholeDisk.part { mediaId := 0, blockSize := 512 }

theorem flashSparse_expands_iff_of_raw :
    (flashSparse wholeDiskEnv oneRawChunk (atPartStart wholeDisk)).2.curOffset = 516 ∧
      exists ps : List Piece,
        ExpandedEffect oneRawChunk (atPartStart wholeDisk).gparti.partStart
          (flashSparse wholeDiskEnv oneRawChunk (atPartStart wholeDisk)).2.log
          (flashSparse wholeDiskEnv oneRawChunk (atPartStart wholeDisk)).2.curOffset ps := by
  have hrun : flashSparse wholeDiskEnv oneRawChunk (atPartStart wholeDisk) =
      (FlashEnd.returned EfiStatus.success,
        (flashSparse wholeDiskEnv oneRawChunk (atPartStart wholeDisk)).2) := rfl
  refine ⟨rfl, (flashSparse_expands_iff rfl rfl hrun).mpr ?_⟩
  exact ⟨⟨by decide, trivial⟩, by decide⟩

/-- The product of the hole is zero in 32 bits: the cursor stays where it was. -/
theorem flashSparse_huge_hole :
    exists u : FlashState,
      isSparseImage oneHugeHole = true ∧
      flashSparse wholeDiskEnv oneHugeHole (atPartStart wholeDisk) =
        (FlashEnd.returned EfiStatus.success, u) ∧
      ¬ exists ps : List Piece,
        ExpandedEffect oneHugeHole wholeDisk.partStart u.log u.curOffset ps := by
  refine ⟨_, rfl, rfl, ?_⟩
  intro hcase
  rcases hcase with ⟨ps, heffect⟩
  have hcursor := heffect.cursor
  rw [heffect.expands.totalLength_eq] at hcursor
  revert hcursor
  decide

end Flash
end BootableUefi
