import BootableUefi.Flash.ExpandedImage

/-!
# Reads of a sparse image

The loop compares chunk sizes with a remainder that starts at the size of the
buffer, although its first chunk starts after the file header.  Chunks that
reach into the last `file_hdr_sz` bytes the remainder allows for too much are
what makes it read outside of the buffer, besides fill chunks that are too short
for their pattern.
-/

namespace BootableUefi
namespace Flash

open Firmware Foundation

/-- Every byte read is in the buffer, and in the part of it that is meant. -/
def FlashEvent.InBounds (image : ImageBuffer) : FlashEvent -> Prop
  | FlashEvent.read offset size available =>
      size ≤ available ∧ (size = 0 ∨ offset + size ≤ image.size)
  | _ => True

def AllInBounds (image : ImageBuffer) (events : List FlashEvent) : Prop :=
  forall event, event ∈ events -> event.InBounds image

/-!
# Where the chunks of a buffer are
-/

/-- The value of `rlen` when the loop comes to the offset. -/
def ImageBuffer.remainder (image : ImageBuffer) (s : Nat) : Nat :=
  image.size + image.sparseHeader.fileHdrSz - s

/-- The chunk at the offset passes the tests of `flash_sparse`. -/
structure ChunkPasses (image : ImageBuffer) (s : Nat) : Prop where
  header : image.sparseHeader.chunkHdrSz ≤ image.remainder s
  total : (image.chunkHeader s).totalSz ≤ image.remainder s
  formed : image.sparseHeader.chunkHdrSz ≤ (image.chunkHeader s).totalSz

/-- A raw chunk whose payload has the size its header promises. -/
structure ConsistentRaw (image : ImageBuffer) (s : Nat) : Prop where
  type : (image.chunkHeader s).chunkType = chunkTypeRaw
  blocks : image.sparseHeader.blkSz ≠ 0
  aligned : image.payloadSize s % image.sparseHeader.blkSz = 0
  size : image.payloadSize s = chunkBytes image.sparseHeader (image.chunkHeader s)

/-- A chunk that `flash_chunk` does not refuse by itself. -/
inductive ChunkAccepted (image : ImageBuffer) (s : Nat) : Prop where
  | raw (h : ConsistentRaw image s)
  | fill (htype : (image.chunkHeader s).chunkType = chunkTypeFill)
  | dontCare (htype : (image.chunkHeader s).chunkType = chunkTypeDontCare)
  | crc32 (htype : (image.chunkHeader s).chunkType = chunkTypeCrc32)

/-- With the given number of chunks left, the chunk at the offset is the next one. -/
inductive ReachesChunk (image : ImageBuffer) : Nat -> Nat -> Prop where
  | first : ReachesChunk image image.sparseHeader.totalChunks image.sparseHeader.fileHdrSz
  | next {left s : Nat} (h : ReachesChunk image (left + 1) s) (hpasses : ChunkPasses image s)
      (haccepted : ChunkAccepted image s) : ReachesChunk image left (image.nextChunk s)

/--
No chunk the tests let through hangs over the end of the buffer, and every fill
chunk has room for its pattern.
-/
structure NoOverhang (image : ImageBuffer) : Prop where
  header : forall left s, ReachesChunk image (left + 1) s ->
    image.sparseHeader.chunkHdrSz ≤ image.remainder s -> s + chunkHeaderSize ≤ image.size
  raw : forall left s, ReachesChunk image (left + 1) s -> ChunkPasses image s ->
    ConsistentRaw image s -> image.payloadSize s = 0 ∨ image.nextChunk s ≤ image.size
  fill : forall left s, ReachesChunk image (left + 1) s -> ChunkPasses image s ->
    (image.chunkHeader s).chunkType = chunkTypeFill ->
    4 ≤ image.payloadSize s ∧ s + image.sparseHeader.chunkHdrSz + 4 ≤ image.size

/-!
# Without overhang, reads stay inside
-/

section Inside

variable {env : FlashEnv} {image : ImageBuffer}

theorem allInBounds_rule (image : ImageBuffer) (gparti : GptPartitionInterface) :
    WriteRule gparti (AllInBounds image) := by
  constructor
  · intro event hmem
    cases hmem
  · intro xs ys hxs hys event hmem
    rcases List.mem_append.mp hmem with hleft | hright
    · exact hxs event hleft
    · exact hys event hright
  · intro offset size event hmem
    cases List.mem_singleton.mp hmem
    trivial
  · intro offset size _ event hmem
    simp only [List.mem_cons, List.not_mem_nil, or_false] at hmem
    rcases hmem with rfl | rfl <;> trivial
  · intro offset size data status _ event hmem
    simp only [List.mem_cons, List.not_mem_nil, or_false] at hmem
    rcases hmem with rfl | rfl | rfl <;> trivial

theorem allInBounds_read {offset size available : Nat} (havailable : size ≤ available)
    (hinside : size = 0 ∨ offset + size ≤ image.size) :
    AllInBounds image [FlashEvent.read offset size available] := by
  intro event hmem
  cases List.mem_singleton.mp hmem
  exact ⟨havailable, hinside⟩

theorem consistentRaw_of_checks {s : Nat}
    (htype : (image.chunkHeader s).chunkType = chunkTypeRaw)
    (hblocks : image.sparseHeader.blkSz ≠ 0)
    (hconsistent : ¬ (image.payloadSize s % image.sparseHeader.blkSz ≠ 0 ∨
      image.payloadSize s ≠ chunkBytes image.sparseHeader (image.chunkHeader s))) :
    ConsistentRaw image s where
  type := htype
  blocks := hblocks
  aligned := by
    by_contra haligned
    exact hconsistent (Or.inl haligned)
  size := by
    by_contra hsize
    exact hconsistent (Or.inr hsize)

theorem flashChunk_inBounds (env : FlashEnv) (hno : NoOverhang image) {left s : Nat}
    (hreach : ReachesChunk image (left + 1) s) (hpasses : ChunkPasses image s)
    (t : FlashState) :
    Emits (AllInBounds image) t
      (flashChunk env image image.sparseHeader (image.chunkHeader s)
        (s + image.sparseHeader.chunkHdrSz) (image.payloadSize s) t).2 := by
  have rule := allInBounds_rule image t.gparti
  unfold flashChunk
  split
  · rename_i htype
    split
    · exact rule.refl t
    · rename_i hblocks
      split
      · exact rule.refl t
      · rename_i hconsistent
        have hraw := consistentRaw_of_checks htype hblocks hconsistent
        refine rule.of_read (allInBounds_read (Nat.le_refl _) ?_)
          (emits_flashWrite rule env _ _ rfl)
        rcases hno.raw left s hreach hpasses hraw with hempty | hend
        · exact Or.inl hempty
        · have hformed := hpasses.formed
          unfold ImageBuffer.nextChunk at hend
          unfold ImageBuffer.payloadSize
          exact Or.inr (by omega)
  · split
    · exact emits_flashSkip rule _ rfl
    · split
      · rename_i htype
        have hfill := hno.fill left s hreach hpasses htype
        refine rule.of_read (allInBounds_read hfill.1 (Or.inr hfill.2)) ?_
        exact emits_flashFill rule env _ _ rfl
      · split <;> exact rule.refl t

theorem chunkAccepted_of_success {s : Nat} {t u : FlashState}
    (h : flashChunk env image image.sparseHeader (image.chunkHeader s)
      (s + image.sparseHeader.chunkHdrSz) (image.payloadSize s) t =
        (FlashEnd.returned EfiStatus.success, u)) : ChunkAccepted image s := by
  unfold flashChunk at h
  split at h
  · rename_i htype
    split at h
    · cases h
    · rename_i hblocks
      split at h
      · cases h
      · rename_i hconsistent
        exact ChunkAccepted.raw (consistentRaw_of_checks htype hblocks hconsistent)
  · split at h
    · rename_i htype
      exact ChunkAccepted.dontCare htype
    · split at h
      · rename_i htype
        exact ChunkAccepted.fill htype
      · split at h
        · rename_i htype
          exact ChunkAccepted.crc32 htype
        · cases h

theorem ImageBuffer.remainder_nextChunk (image : ImageBuffer) (s : Nat) :
    image.remainder s - (image.chunkHeader s).totalSz = image.remainder (image.nextChunk s) := by
  unfold ImageBuffer.remainder ImageBuffer.nextChunk
  omega

/-- From a chunk the loop reaches, all reads are in bounds. -/
theorem flashChunks_inBounds (env : FlashEnv) (hno : NoOverhang image) {left s : Nat}
    (hreach : ReachesChunk image left s) (t : FlashState) :
    Emits (AllInBounds image) t (flashChunks env image left s (image.remainder s) t).2 := by
  induction left generalizing s t with
  | zero => exact (allInBounds_rule image t.gparti).refl t
  | succ left ih =>
      have rule := allInBounds_rule image t.gparti
      unfold flashChunks
      dsimp only
      split
      · exact rule.refl t
      · rename_i hrlen
        have hroom := Nat.le_of_not_lt hrlen
        refine rule.of_read (allInBounds_read (Nat.le_refl _)
          (Or.inr (hno.header left s hreach hroom))) ?_
        split
        · exact rule.refl _
        · rename_i htotal
          split
          · exact rule.refl _
          · rename_i hformed
            have hpasses : ChunkPasses image s :=
              ⟨hroom, Nat.le_of_not_lt htotal, Nat.le_of_not_lt hformed⟩
            have hchunk := flashChunk_inBounds env hno hreach hpasses
              (t.emit (FlashEvent.read s chunkHeaderSize chunkHeaderSize))
            split
            · rename_i u heq
              have hnext := ReachesChunk.next hreach hpasses (chunkAccepted_of_success heq)
              have hrest := ih hnext u
              rw [← image.remainder_nextChunk] at hrest
              unfold ImageBuffer.payloadSize at hchunk
              rw [heq] at hchunk
              exact rule.trans hchunk hrest
            · exact hchunk

end Inside

/-!
# An environment that never refuses

With one partition of `2 ^ 64 - 1` bytes every operation succeeds, so the loop
comes to every chunk it can reach at all.
-/

def everything : GptPartitionInterface where
  part := { startingLba := 0, endingLba := 0xfffffffffffffffe }
  bio := some { mediaId := 0, blockSize := 1 }

def everythingEnv : FlashEnv :=
  grantingEnv everything.part { mediaId := 0, blockSize := 1 }

theorem everything_isInsidePartition (offset size : Nat) :
    everything.isInsidePartition offset size := by
  have hstart : everything.partStart = 0 := by decide
  have hend : everything.partEnd = 2 ^ 64 - 1 := by decide
  have hlt := u64_lt (offset + size)
  constructor
  · rw [hstart]
    exact Nat.zero_le offset
  · rw [hend]
    omega

section Everything

variable {image : ImageBuffer} {t : FlashState}

theorem flashWrite_everything (t : FlashState) (ht : t.gparti = everything) (data : Mem)
    (size : Nat) :
    flashWrite everythingEnv data size t =
      (EfiStatus.success, writtenState everythingEnv data size t) := by
  rcases flashWrite_cases everythingEnv data size t with ⟨hbio, _⟩ | ⟨hnot, _⟩ | ⟨_, heq⟩
  · rw [ht] at hbio
    cases hbio
  · rw [ht] at hnot
    exact absurd (everything_isInsidePartition _ _) hnot
  · exact heq

theorem flashFill_everything (t : FlashState) (ht : t.gparti = everything)
    (pattern size : Nat) :
    exists u : FlashState,
      flashFill everythingEnv pattern size t = (EfiStatus.success, u) ∧
      u.gparti = everything :=
  ⟨_, flashWrite_everything { t with allocations := t.allocations + 1 } ht _ size, ht⟩

theorem flashChunk_everything (t : FlashState) (ht : t.gparti = everything) {s : Nat}
    (h : ChunkAccepted image s) :
    exists u : FlashState,
      flashChunk everythingEnv image image.sparseHeader (image.chunkHeader s)
        (s + image.sparseHeader.chunkHdrSz) (image.payloadSize s) t =
          (FlashEnd.returned EfiStatus.success, u) ∧
      u.gparti = everything := by
  unfold flashChunk
  cases h with
  | raw hraw =>
      have hconsistent : ¬ (image.payloadSize s % image.sparseHeader.blkSz ≠ 0 ∨
          image.payloadSize s ≠ chunkBytes image.sparseHeader (image.chunkHeader s)) := by
        intro hcase
        rcases hcase with haligned | hsize
        · exact haligned hraw.aligned
        · exact hsize hraw.size
      rw [if_pos hraw.type, if_neg hraw.blocks, if_neg hconsistent,
        flashWrite_everything (t.emit _) ht]
      exact ⟨_, rfl, ht⟩
  | dontCare htype =>
      have hinside : t.gparti.isInsidePartition t.curOffset
          (chunkBytes image.sparseHeader (image.chunkHeader s)) := by
        rw [ht]
        exact everything_isInsidePartition _ _
      rw [htype, if_neg (by decide), if_pos rfl, flashSkip_of_inside hinside]
      exact ⟨_, rfl, ht⟩
  | fill htype =>
      rcases flashFill_everything (t.emit (FlashEvent.read
          (s + image.sparseHeader.chunkHdrSz) 4 (image.payloadSize s))) ht
          (le32 image.mem (s + image.sparseHeader.chunkHdrSz))
          (chunkBytes image.sparseHeader (image.chunkHeader s)) with ⟨u, heq, hu⟩
      rw [htype, if_neg (by decide), if_neg (by decide), if_pos rfl, heq]
      exact ⟨u, rfl, hu⟩
  | crc32 htype =>
      rw [htype, if_neg (by decide), if_neg (by decide), if_neg (by decide), if_pos rfl]
      exact ⟨t, rfl, ht⟩

theorem flashChunks_of_passes {env : FlashEnv} {left s : Nat} (hpasses : ChunkPasses image s)
    (t : FlashState) :
    flashChunks env image (left + 1) s (image.remainder s) t =
      match flashChunk env image image.sparseHeader (image.chunkHeader s)
          (s + image.sparseHeader.chunkHdrSz) (image.payloadSize s)
          (t.emit (FlashEvent.read s chunkHeaderSize chunkHeaderSize)) with
      | (FlashEnd.returned EfiStatus.success, u) =>
          flashChunks env image left (image.nextChunk s) (image.remainder (image.nextChunk s)) u
      | result => result := by
  rw [flashChunks, if_neg (Nat.not_lt.mpr hpasses.header),
    if_neg (Nat.not_lt.mpr hpasses.total), if_neg (Nat.not_lt.mpr hpasses.formed),
    image.remainder_nextChunk]
  rfl

theorem flashSparse_reaches {left s : Nat} (h : ReachesChunk image left s)
    (ht : t.gparti = everything) :
    exists u : FlashState,
      flashSparse everythingEnv image t =
        flashChunks everythingEnv image left s (image.remainder s) u ∧
      u.gparti = everything := by
  induction h with
  | first =>
      have hremainder : image.remainder image.sparseHeader.fileHdrSz = image.size :=
        Nat.add_sub_cancel image.size image.sparseHeader.fileHdrSz
      rw [hremainder]
      exact ⟨_, rfl, ht⟩
  | next _ hpasses haccepted ih =>
      rcases ih with ⟨u, hrun, hu⟩
      rcases flashChunk_everything (u.emit _) hu haccepted with ⟨v, hchunk, hv⟩
      refine ⟨v, ?_, hv⟩
      rw [hrun, flashChunks_of_passes hpasses, hchunk]

theorem logRule (gparti : GptPartitionInterface) : WriteRule gparti (fun _ => True) :=
  ⟨trivial, fun _ _ _ _ => trivial, fun _ _ => trivial, fun _ _ _ => trivial,
    fun _ _ _ _ _ => trivial⟩

theorem Emits.mem_log {P : List FlashEvent -> Prop} {s u : FlashState} (h : Emits P s u)
    {event : FlashEvent} (hmem : event ∈ s.log) : event ∈ u.log := by
  rcases h with ⟨events, hlog, _⟩
  rw [hlog]
  exact List.mem_append_left events hmem

theorem flashChunks_log_mono (env : FlashEnv) (left s rlen : Nat) (t : FlashState)
    {event : FlashEvent} (hmem : event ∈ t.log) :
    event ∈ (flashChunks env image left s rlen t).2.log := by
  exact (emits_flashChunks (logRule t.gparti) (fun _ _ _ => trivial) env image left s rlen
    rfl).mem_log hmem

theorem flashChunks_reads_header (env : FlashEnv) {left s rlen : Nat}
    (hroom : image.sparseHeader.chunkHdrSz ≤ rlen) (t : FlashState) :
    FlashEvent.read s chunkHeaderSize chunkHeaderSize ∈
      (flashChunks env image (left + 1) s rlen t).2.log := by
  have hhead : FlashEvent.read s chunkHeaderSize chunkHeaderSize ∈
      (t.emit (FlashEvent.read s chunkHeaderSize chunkHeaderSize)).log := by
    simp [FlashState.emit]
  rw [flashChunks, if_neg (Nat.not_lt.mpr hroom)]
  dsimp only
  split
  · exact hhead
  · split
    · exact hhead
    · generalize t.emit (FlashEvent.read s chunkHeaderSize chunkHeaderSize) = u at hhead
      have hmem := (emits_flashChunk (logRule u.gparti) (fun _ _ _ => trivial) env image
        image.sparseHeader (image.chunkHeader s) (s + image.sparseHeader.chunkHdrSz)
        ((image.chunkHeader s).totalSz - image.sparseHeader.chunkHdrSz) rfl).mem_log hhead
      split
      · rename_i v heq
        rw [heq] at hmem
        exact flashChunks_log_mono env left _ _ v hmem
      · exact hmem

theorem flashChunks_reads_chunk (env : FlashEnv) {left s : Nat} (hpasses : ChunkPasses image s)
    (t : FlashState) {event : FlashEvent}
    (hmem : event ∈ (flashChunk env image image.sparseHeader (image.chunkHeader s)
      (s + image.sparseHeader.chunkHdrSz) (image.payloadSize s)
      (t.emit (FlashEvent.read s chunkHeaderSize chunkHeaderSize))).2.log) :
    event ∈ (flashChunks env image (left + 1) s (image.remainder s) t).2.log := by
  rw [flashChunks_of_passes hpasses]
  split
  · rename_i u heq
    rw [heq] at hmem
    exact flashChunks_log_mono env left _ _ u hmem
  · exact hmem

theorem flashChunk_reads_payload (env : FlashEnv) {s : Nat} (h : ConsistentRaw image s)
    (t : FlashState) :
    FlashEvent.read (s + image.sparseHeader.chunkHdrSz) (image.payloadSize s)
        (image.payloadSize s) ∈
      (flashChunk env image image.sparseHeader (image.chunkHeader s)
        (s + image.sparseHeader.chunkHdrSz) (image.payloadSize s) t).2.log := by
  have hconsistent : ¬ (image.payloadSize s % image.sparseHeader.blkSz ≠ 0 ∨
      image.payloadSize s ≠ chunkBytes image.sparseHeader (image.chunkHeader s)) := by
    intro hcase
    rcases hcase with haligned | hsize
    · exact haligned h.aligned
    · exact hsize h.size
  unfold flashChunk
  rw [if_pos h.type, if_neg h.blocks, if_neg hconsistent]
  refine Emits.mem_log (emits_flashWrite (logRule t.gparti) env _ _ ?_) ?_
  · rfl
  · simp [FlashState.emit]

theorem flashChunk_reads_pattern (env : FlashEnv) {s : Nat}
    (htype : (image.chunkHeader s).chunkType = chunkTypeFill) (t : FlashState) :
    FlashEvent.read (s + image.sparseHeader.chunkHdrSz) 4 (image.payloadSize s) ∈
      (flashChunk env image image.sparseHeader (image.chunkHeader s)
        (s + image.sparseHeader.chunkHdrSz) (image.payloadSize s) t).2.log := by
  unfold flashChunk
  rw [htype, if_neg (by decide), if_neg (by decide), if_pos rfl]
  refine Emits.mem_log (emits_flashFill (logRule t.gparti) env _ _ ?_) ?_
  · rfl
  · simp [FlashState.emit]

end Everything

/--
`flash_sparse` reads inside an accepted buffer on every device if and only if
no chunk it can reach hangs over the end.
-/
theorem flashSparse_reads_inBounds_iff {image : ImageBuffer}
    (hsparse : isSparseImage image = true) :
    (forall (env : FlashEnv) (t : FlashState), t.log = [] ->
      AllInBounds image (flashSparse env image t).2.log) <->
    NoOverhang image := by
  constructor
  · intro hreads
    have hrun : forall {left s : Nat}, ReachesChunk image (left + 1) s ->
        exists u : FlashState, AllInBounds image
          (flashChunks everythingEnv image (left + 1) s (image.remainder s) u).2.log := by
      intro left s hreach
      have hinside : (atPartStart everything).gparti = everything := rfl
      rcases flashSparse_reaches hreach hinside with ⟨u, heq, _⟩
      refine ⟨u, ?_⟩
      rw [← heq]
      exact hreads everythingEnv (atPartStart everything) rfl
    constructor
    · intro left s hreach hroom
      rcases hrun hreach with ⟨u, hall⟩
      have hheader := hall _ (flashChunks_reads_header everythingEnv hroom u)
      exact hheader.2.resolve_left (by decide)
    · intro left s hreach hpasses hraw
      rcases hrun hreach with ⟨u, hall⟩
      have hpayload := hall _ (flashChunks_reads_chunk everythingEnv hpasses u
        (flashChunk_reads_payload everythingEnv hraw _))
      refine hpayload.2.imp_right ?_
      have hformed := hpasses.formed
      unfold ImageBuffer.payloadSize ImageBuffer.nextChunk
      omega
    · intro left s hreach hpasses htype
      rcases hrun hreach with ⟨u, hall⟩
      have hpattern := hall _ (flashChunks_reads_chunk everythingEnv hpasses u
        (flashChunk_reads_pattern everythingEnv htype _))
      exact ⟨hpattern.1, hpattern.2.resolve_left (by decide)⟩
  · intro hno env t hlog
    have hheader : sparseHeaderSize ≤ image.size := by
      by_contra hsmall
      have hrefused : isSparseImage image = false := by
        simp [isSparseImage, Nat.lt_of_not_le hsmall]
      rw [hrefused] at hsparse
      cases hsparse
    have hremainder : image.remainder image.sparseHeader.fileHdrSz = image.size :=
      Nat.add_sub_cancel image.size image.sparseHeader.fileHdrSz
    have hloop := flashChunks_inBounds env hno ReachesChunk.first
      (t.emit (FlashEvent.read 0 sparseHeaderSize sparseHeaderSize))
    rw [hremainder] at hloop
    have hread : AllInBounds image [FlashEvent.read 0 sparseHeaderSize sparseHeaderSize] :=
      allInBounds_read (Nat.le_refl _) (Or.inr (by omega))
    rcases (allInBounds_rule image t.gparti).of_read hread hloop with ⟨events, hevents, hin⟩
    rw [hlog, List.nil_append] at hevents
    unfold flashSparse
    rw [hevents]
    exact hin

theorem reachesChunk_oneRawChunk {left s : Nat} (h : ReachesChunk oneRawChunk left s) :
    (left = 1 ∧ s = 28) ∨ left = 0 := by
  induction h with
  | first => exact Or.inl ⟨by decide, by decide⟩
  | next _ _ _ ih => omega

theorem flashSparse_reads_inBounds_iff_of_raw :
    isSparseImage oneRawChunk = true ∧
      forall (env : FlashEnv) (t : FlashState), t.log = [] ->
        AllInBounds oneRawChunk (flashSparse env oneRawChunk t).2.log := by
  have hsparse : isSparseImage oneRawChunk = true := by
    decide
  refine ⟨hsparse, (flashSparse_reads_inBounds_iff hsparse).mpr ?_⟩
  constructor
  · intro left s hreach _
    rcases reachesChunk_oneRawChunk hreach with ⟨_, rfl⟩ | hleft
    · decide
    · cases hleft
  · intro left s hreach _ _
    rcases reachesChunk_oneRawChunk hreach with ⟨_, rfl⟩ | hleft
    · exact Or.inr (by decide)
    · cases hleft
  · intro left s hreach _ htype
    rcases reachesChunk_oneRawChunk hreach with ⟨_, rfl⟩ | hleft
    · exact absurd htype (by decide)
    · cases hleft

/-- A file header that promises a chunk, and nothing after it. -/
def headerOnly : ImageBuffer where
  mem := memOf (oneChunkHeader [4, 0, 0, 0])
  size := 28

/-- The header of the promised chunk is read past the end of the buffer. -/
theorem flashSparse_reads_past_header :
    isSparseImage headerOnly = true ∧
      ¬ AllInBounds headerOnly
        (flashSparse everythingEnv headerOnly (atPartStart everything)).2.log := by
  refine ⟨by decide, ?_⟩
  intro hall
  have hmem : FlashEvent.read 28 12 12 ∈
      (flashSparse everythingEnv headerOnly (atPartStart everything)).2.log := by
    have hlog : (flashSparse everythingEnv headerOnly (atPartStart everything)).2.log =
        [FlashEvent.read 0 28 28, FlashEvent.read 28 12 12] := rfl
    rw [hlog]
    simp
  have hinside := hall _ hmem
  revert hinside
  unfold FlashEvent.InBounds
  decide

end Flash
end BootableUefi
