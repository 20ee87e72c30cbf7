import BootableUefi.Flash.Containment
import BootableUefi.Flash.ExpandedImage

/-!
# What one flash does to a disk

On a partition that ends some way below the last address no sum wraps, so the
cursor and all writes stay in the partition, whatever the image is; and a flash
that succeeds has written the image, or what a sparse image stands for.
-/

namespace BootableUefi
namespace Flash

open Firmware Foundation

/-- A 32-bit size can be added to any offset in the partition. -/
structure GptPartitionInterface.HasRoom (gparti : GptPartitionInterface) : Prop where
  start : gparti.firstByte + 2 ^ 32 ≤ 2 ^ 64
  stop : gparti.endByte + 2 ^ 32 ≤ 2 ^ 64

instance (gparti : GptPartitionInterface) : Decidable gparti.HasRoom :=
  decidable_of_iff (gparti.firstByte + 2 ^ 32 ≤ 2 ^ 64 ∧ gparti.endByte + 2 ^ 32 ≤ 2 ^ 64)
    ⟨fun h => ⟨h.1, h.2⟩, fun h => ⟨h.start, h.stop⟩⟩

/-- The partition is being flashed, and the cursor leaves room for a 32-bit size. -/
structure FlashState.Flashes (t : FlashState) (gparti : GptPartitionInterface) : Prop where
  gparti : t.gparti = gparti
  cursor : t.curOffset + 2 ^ 32 ≤ 2 ^ 64

/-- What was done since stayed in the partition, and so does the cursor. -/
structure Stays (gparti : GptPartitionInterface) (s t : FlashState) : Prop where
  flashes : t.Flashes gparti
  events : Emits (fun events => forall event, event ∈ events -> event.Contained gparti) s t

section Stays

variable {gparti : GptPartitionInterface} {s t u : FlashState}

theorem Stays.refl (h : t.Flashes gparti) : Stays gparti t t where
  flashes := h
  events := by
    refine ⟨[], by simp, ?_⟩
    intro event hmem
    cases hmem

theorem Stays.trans (hst : Stays gparti s t) (htu : Stays gparti t u) : Stays gparti s u where
  flashes := htu.flashes
  events := by
    rcases hst.events with ⟨first, hfirst, hinside⟩
    rcases htu.events with ⟨rest, hrest, hinside'⟩
    refine ⟨first ++ rest, by rw [hrest, hfirst, List.append_assoc], ?_⟩
    intro event hmem
    rcases List.mem_append.mp hmem with hmem | hmem
    · exact hinside event hmem
    · exact hinside' event hmem

theorem Stays.emit {event : FlashEvent} (h : t.Flashes gparti) (hinside : event.Contained gparti) :
    Stays gparti t (t.emit event) where
  flashes := ⟨h.gparti, h.cursor⟩
  events := by
    refine ⟨[event], rfl, ?_⟩
    intro other hmem
    rwa [List.mem_singleton.mp hmem]

theorem FlashState.Flashes.inside (h : t.Flashes gparti) (hroom : gparti.HasRoom) {size : Nat}
    (hsize : size < 2 ^ 32) (hinside : t.gparti.isInsidePartition t.curOffset size) :
    u64 (t.curOffset + size) = t.curOffset + size ∧
      gparti.firstByte ≤ t.curOffset ∧ t.curOffset + size ≤ gparti.endByte := by
  have hcursor := h.cursor
  have hstart : gparti.StartFits := by
    have hroom := hroom.start
    unfold GptPartitionInterface.StartFits
    omega
  rw [h.gparti] at hinside
  exact ⟨u64_of_lt (by omega), inside_of_isInsidePartition hstart hinside (by omega)⟩

theorem FlashState.Flashes.moved (h : t.Flashes gparti) (hroom : gparti.HasRoom) {size : Nat}
    (hsize : size < 2 ^ 32) (hinside : t.gparti.isInsidePartition t.curOffset size)
    (hgparti : u.gparti = gparti) (hcursor : u.curOffset = u64 (t.curOffset + size)) :
    u.Flashes gparti where
  gparti := hgparti
  cursor := by
    rcases h.inside hroom hsize hinside with ⟨hsum, -, hend⟩
    have hstop := hroom.stop
    rw [hcursor, hsum]
    omega

theorem flashSkip_stays (h : t.Flashes gparti) (hroom : gparti.HasRoom) {size : Nat}
    (hsize : size < 2 ^ 32) : Stays gparti t (flashSkip size t).2 := by
  by_cases hinside : t.gparti.isInsidePartition t.curOffset size
  · rw [flashSkip_of_inside hinside]
    refine ⟨h.moved hroom hsize hinside h.gparti rfl,
      [FlashEvent.check t.curOffset size, FlashEvent.moved (u64 (t.curOffset + size))], ?_, ?_⟩
    · simp [FlashState.moveTo, FlashState.emit]
    · rcases h.inside hroom hsize hinside with ⟨hsum, hstart, hend⟩
      simp only [List.forall_mem_cons, List.not_mem_nil, false_implies, implies_true, and_true]
      refine ⟨trivial, ?_⟩
      rw [hsum]
      exact ⟨by omega, hend⟩
  · rw [flashSkip_of_not_inside hinside]
    exact Stays.emit h trivial

theorem flashWrite_stays (env : FlashEnv) (data : Mem) (h : t.Flashes gparti)
    (hroom : gparti.HasRoom) {size : Nat} (hsize : size < 2 ^ 32) :
    Stays gparti t (flashWrite env data size t).2 := by
  rcases flashWrite_cases env data size t with ⟨_, heq⟩ | ⟨_, heq⟩ | ⟨hinside, heq⟩
  · rw [heq]
    exact Stays.refl h
  · rw [heq]
    exact Stays.emit h trivial
  · rw [heq]
    refine ⟨h.moved hroom hsize hinside h.gparti rfl, _, rfl, ?_⟩
    rcases h.inside hroom hsize hinside with ⟨hsum, hstart, hend⟩
    simp only [List.forall_mem_cons, List.not_mem_nil, false_implies, implies_true, and_true]
    refine ⟨trivial, ⟨hstart, hend⟩, ?_⟩
    rw [hsum]
    exact ⟨by omega, hend⟩

theorem flashFill_stays (env : FlashEnv) (pattern : Nat) (h : t.Flashes gparti)
    (hroom : gparti.HasRoom) {size : Nat} (hsize : size < 2 ^ 32) :
    Stays gparti t (flashFill env pattern size t).2 := by
  unfold flashFill
  dsimp only
  split
  · exact ⟨⟨h.gparti, h.cursor⟩, (Stays.refl h).events⟩
  · rename_i pool _
    have hcounted : Stays gparti t { t with allocations := t.allocations + 1 } :=
      ⟨⟨h.gparti, h.cursor⟩, (Stays.refl h).events⟩
    exact hcounted.trans (flashWrite_stays env _ hcounted.flashes hroom hsize)

/-!
# Chunks
-/

theorem flashChunk_stays (env : FlashEnv) (image : ImageBuffer) (sph : SparseHeader)
    (ckh : ChunkHeader) (data : Nat) {size : Nat} (h : t.Flashes gparti)
    (hroom : gparti.HasRoom) (hsize : size < 2 ^ 32) :
    Stays gparti t (flashChunk env image sph ckh data size t).2 := by
  have hread : forall readSize, Stays gparti t (t.emit (FlashEvent.read data readSize size)) :=
    fun readSize => Stays.emit h trivial
  unfold flashChunk
  split
  · split
    · exact Stays.refl h
    · split
      · exact Stays.refl h
      · exact (hread size).trans (flashWrite_stays env _ (hread size).flashes hroom hsize)
  · split
    · exact flashSkip_stays h hroom (u32_lt _)
    · split
      · exact (hread 4).trans (flashFill_stays env _ (hread 4).flashes hroom (u32_lt _))
      · split <;> exact Stays.refl h

theorem payload_lt (image : ImageBuffer) (s : Nat) :
    (image.chunkHeader s).totalSz - image.sparseHeader.chunkHdrSz < 2 ^ 32 :=
  Nat.lt_of_le_of_lt (Nat.sub_le _ _) (le32_lt image.mem (s + 8))

theorem flashChunks_stays (env : FlashEnv) (image : ImageBuffer) (hroom : gparti.HasRoom)
    (left s rlen : Nat) (h : t.Flashes gparti) :
    Stays gparti t (flashChunks env image left s rlen t).2 := by
  induction left generalizing s rlen t with
  | zero => exact Stays.refl h
  | succ left ih =>
      have hread : Stays gparti t (t.emit (FlashEvent.read s chunkHeaderSize chunkHeaderSize)) :=
        Stays.emit h trivial
      unfold flashChunks
      dsimp only
      split
      · exact Stays.refl h
      · split
        · exact hread
        · split
          · exact hread
          · have hchunk := flashChunk_stays env image image.sparseHeader (image.chunkHeader s)
              (s + image.sparseHeader.chunkHdrSz) hread.flashes hroom (payload_lt image s)
            split
            · rename_i v heq
              rw [heq] at hchunk
              exact (hread.trans hchunk).trans (ih _ _ hchunk.flashes)
            · exact hread.trans hchunk

theorem flashChunks_succ_stays {env : FlashEnv} {image : ImageBuffer} (hroom : gparti.HasRoom)
    {left s rlen : Nat} (h : t.Flashes gparti)
    (hrun : flashChunks env image (left + 1) s rlen t =
      (FlashEnd.returned EfiStatus.success, u)) :
    exists v : FlashState,
      ChunkDone image s (t.emit (FlashEvent.read s chunkHeaderSize chunkHeaderSize)) v ∧
      v.Flashes gparti ∧
      flashChunks env image left (image.nextChunk s) (rlen - (image.chunkHeader s).totalSz) v =
        (FlashEnd.returned EfiStatus.success, u) := by
  have hread : (t.emit (FlashEvent.read s chunkHeaderSize chunkHeaderSize)).Flashes gparti :=
    ⟨h.gparti, h.cursor⟩
  unfold flashChunks at hrun
  dsimp only at hrun
  split at hrun
  · cases hrun
  · split at hrun
    · cases hrun
    · split at hrun
      · cases hrun
      · split at hrun
        · rename_i v hchunk
          have hstays := flashChunk_stays env image image.sparseHeader (image.chunkHeader s)
            (s + image.sparseHeader.chunkHdrSz) hread hroom (payload_lt image s)
          rw [hchunk] at hstays
          exact ⟨v, flashChunk_success hchunk, hstays.flashes, hrun⟩
        · rename_i hother
          exact absurd hrun (hother u)

theorem flashChunks_end {env : FlashEnv} {image : ImageBuffer} (hroom : gparti.HasRoom)
    {left s rlen : Nat} (h : t.Flashes gparti)
    (hrun : flashChunks env image left s rlen t = (FlashEnd.returned EfiStatus.success, u))
    (hfits : ChunksFit image left s) :
    t.curOffset + image.expandedLength left s + 2 ^ 32 ≤ 2 ^ 64 := by
  induction left generalizing s rlen t with
  | zero => exact h.cursor
  | succ left ih =>
      rcases flashChunks_succ_stays hroom h hrun with ⟨v, hdone, hflashes, hrest⟩
      have hcursor := h.cursor
      rcases hdone.expands hfits.1 (by
        have hbelow := hfits.1
        dsimp only [FlashState.emit]
        omega) with ⟨-, p, -, -, hexpands, hmove⟩
      have hend := ih hflashes hrest hfits.2
      rw [hmove, hexpands.length_eq] at hend
      dsimp only [FlashState.emit] at hend
      unfold ImageBuffer.expandedLength
      omega

end Stays

/-!
# The whole image
-/

/-- The chunks of a sparse image have extents that are computed without wrapping. -/
def ImageBuffer.Fits (image : ImageBuffer) : Prop :=
  ChunksFit image image.sparseHeader.totalChunks image.sparseHeader.fileHdrSz

/-- The successful writes are the image, or what a sparse image stands for. -/
def Writes (image : ImageBuffer) (start : Nat) (events : List FlashEvent) : Prop :=
  if isSparseImage image = true then
    exists ps : List Piece, ExpandedImage image image.sparseHeader.totalChunks
      image.sparseHeader.fileHdrSz ps ∧ diskWrites events = writesOf start ps
  else
    diskWrites events = [{ offset := start, size := image.size, data := image.mem }]

theorem flashSparse_writes {env : FlashEnv} {image : ImageBuffer}
    {gparti : GptPartitionInterface} {t u : FlashState} (hroom : gparti.HasRoom)
    (h : t.Flashes gparti) (hfits : image.Fits)
    (hrun : flashSparse env image t = (FlashEnd.returned EfiStatus.success, u)) :
    exists events, u.log = t.log ++ events ∧
      exists ps : List Piece, ExpandedImage image image.sparseHeader.totalChunks
        image.sparseHeader.fileHdrSz ps ∧ diskWrites events = writesOf t.curOffset ps := by
  have hread : (t.emit (FlashEvent.read 0 sparseHeaderSize sparseHeaderSize)).Flashes gparti :=
    ⟨h.gparti, h.cursor⟩
  unfold flashSparse at hrun
  have hend := flashChunks_end hroom hread hrun hfits
  rcases flashChunks_expands hrun hfits (by omega) with ⟨events, ps, hlog, hwrites, himage, -⟩
  refine ⟨[FlashEvent.read 0 sparseHeaderSize sparseHeaderSize] ++ events, ?_, ps, himage, ?_⟩
  · rw [hlog]
    simp [FlashState.emit]
  · rw [diskWrites_append, hwrites]
    rfl

/-- What a flash of an image under a label has done. -/
structure FlashDone (env : FlashEnv) (image : ImageBuffer) (label : List UInt16)
    (ending : FlashEnd) (events : List FlashEvent) : Prop where
  unknown : forall status, env.partitionByLabel label = Except.error status -> events = []
  contained : forall part bio, env.partitionByLabel label = Except.ok (part, bio) ->
    forall event, event ∈ events -> event.Contained { part := part, bio := some bio }
  written : ending = FlashEnd.returned EfiStatus.success -> image.Fits ->
    exists part bio, env.partitionByLabel label = Except.ok (part, bio) ∧
      Writes image (part.startingLba.toNat * bio.blockSize.toNat) events

/-- A lookup fails with an error, or finds a partition that leaves room for 32-bit sizes. -/
structure FlashEnv.Sound (env : FlashEnv) : Prop where
  error : forall label status, env.partitionByLabel label = Except.error status ->
    status ≠ EfiStatus.success
  room : forall label part bio, env.partitionByLabel label = Except.ok (part, bio) ->
    GptPartitionInterface.HasRoom { part := part, bio := some bio }

theorem flashWrite_writes {env : FlashEnv} {data : Mem} {size : Nat} {s : FlashState}
    (h : (flashWrite env data size s).1 = EfiStatus.success) :
    exists events, (flashWrite env data size s).2.log = s.log ++ events ∧
      diskWrites events = [{ offset := s.curOffset, size := size, data := data }] := by
  rcases flashWrite_success h with ⟨-, hstatus, heq⟩
  rw [heq]
  refine ⟨_, rfl, ?_⟩
  rw [hstatus]
  rfl

/-- The state `flash` has prepared when it looks at the image. -/
def FlashState.onPartition (gparti : GptPartitionInterface) (s : FlashState) : FlashState :=
  { s with gparti := gparti, curOffset := gparti.partStart }

theorem flashes_onPartition {gparti : GptPartitionInterface} (hroom : gparti.HasRoom)
    (s : FlashState) : (s.onPartition gparti).Flashes gparti where
  gparti := rfl
  cursor := by
    have hstart := hroom.start
    have hle : gparti.partStart ≤ gparti.firstByte := u64_le _
    show gparti.partStart + 2 ^ 32 ≤ 2 ^ 64
    omega

theorem partStart_eq {gparti : GptPartitionInterface} (hroom : gparti.HasRoom) :
    gparti.partStart = gparti.firstByte := by
  have hstart := hroom.start
  have hlt : gparti.firstByte < 2 ^ 64 := by omega
  exact u64_of_lt hlt

theorem flashSparse_stays (env : FlashEnv) (image : ImageBuffer)
    {gparti : GptPartitionInterface} (hroom : gparti.HasRoom) {t : FlashState}
    (h : t.Flashes gparti) : Stays gparti t (flashSparse env image t).2 := by
  have hread : Stays gparti t (t.emit (FlashEvent.read 0 sparseHeaderSize sparseHeaderSize)) :=
    Stays.emit h trivial
  exact hread.trans (flashChunks_stays env image hroom _ _ _ hread.flashes)

/-- `flash`, from the look at the image on. -/
def flashImage (env : FlashEnv) (image : ImageBuffer) (t : FlashState) : FlashEnd × FlashState :=
  if isSparseImage image then
    flashSparse env image t
  else
    let (status, t) := flashWrite env image.mem image.size
      (t.emit (FlashEvent.read 0 image.size image.size))
    (FlashEnd.returned status, t)

theorem flash_of_found {env : FlashEnv} {label : List UInt16} {part : GptPartition}
    {bio : BlockIo} (hfound : env.partitionByLabel label = Except.ok (part, bio))
    (image : ImageBuffer) (s : FlashState) :
    flash env image label s =
      flashImage env image (s.onPartition { part := part, bio := some bio }) := by
  unfold flash
  rw [hfound]
  rfl

theorem flashImage_stays (env : FlashEnv) {image : ImageBuffer} (hsize : image.size < 2 ^ 32)
    {gparti : GptPartitionInterface} (hroom : gparti.HasRoom) {t : FlashState}
    (h : t.Flashes gparti) : Stays gparti t (flashImage env image t).2 := by
  unfold flashImage
  split
  · exact flashSparse_stays env image hroom h
  · have hread : Stays gparti t (t.emit (FlashEvent.read 0 image.size image.size)) :=
      Stays.emit h trivial
    exact hread.trans (flashWrite_stays env _ hread.flashes hroom hsize)

theorem flashImage_writes {env : FlashEnv} {image : ImageBuffer}
    {gparti : GptPartitionInterface} (hroom : gparti.HasRoom) {t : FlashState}
    (h : t.Flashes gparti) (hfits : image.Fits)
    (hsuccess : (flashImage env image t).1 = FlashEnd.returned EfiStatus.success) :
    exists events, (flashImage env image t).2.log = t.log ++ events ∧
      Writes image t.curOffset events := by
  unfold Writes
  by_cases hsparse : isSparseImage image = true
  · have heq : flashImage env image t = flashSparse env image t := if_pos hsparse
    rw [heq] at hsuccess ⊢
    simp only [hsparse, if_true]
    exact flashSparse_writes hroom h hfits (Prod.ext hsuccess rfl)
  · have heq : flashImage env image t = (FlashEnd.returned (flashWrite env image.mem image.size
        (t.emit (FlashEvent.read 0 image.size image.size))).1, (flashWrite env image.mem image.size
          (t.emit (FlashEvent.read 0 image.size image.size))).2) := if_neg hsparse
    rw [heq] at hsuccess ⊢
    simp only [hsparse]
    rcases flashWrite_writes (FlashEnd.returned.inj hsuccess) with ⟨events, hlog, hdisk⟩
    refine ⟨[FlashEvent.read 0 image.size image.size] ++ events, ?_, ?_⟩
    · rw [hlog]
      simp [FlashState.emit]
    · rw [if_neg Bool.false_ne_true, diskWrites_append, hdisk]
      rfl

/-- Once a partition has been found, its sectors are all that is written to. -/
theorem flash_done {env : FlashEnv} (hsound : env.Sound) {image : ImageBuffer}
    (hsize : image.size < 2 ^ 32) (label : List UInt16) (s : FlashState) :
    exists events, (flash env image label s).2.log = s.log ++ events ∧
      FlashDone env image label (flash env image label s).1 events := by
  cases hfound : env.partitionByLabel label with
  | error status =>
      have hreturns : flash env image label s = (FlashEnd.returned status, s) := by
        unfold flash
        rw [hfound]
      rw [hreturns]
      refine ⟨[], by simp, fun _ _ => rfl, ?_, ?_⟩
      · intro part bio hok
        rw [hfound] at hok
        cases hok
      · intro hsuccess
        cases hsuccess
        exact absurd rfl (hsound.error label _ hfound)
  | ok found =>
      rcases found with ⟨part, bio⟩
      have hroom := hsound.room label part bio hfound
      have hflashes := flashes_onPartition hroom s
      rw [flash_of_found hfound]
      have hstays := flashImage_stays env hsize hroom hflashes
      rcases hstays.events with ⟨events, hlog, hinside⟩
      refine ⟨events, hlog, ?_, ?_, ?_⟩
      · intro status herror
        rw [hfound] at herror
        cases herror
      · intro part' bio' hok
        rw [hfound] at hok
        cases hok
        exact hinside
      · intro hsuccess hfits
        rcases flashImage_writes hroom hflashes hfits hsuccess with ⟨events', hlog', hwrites⟩
        have hsame : events' = events := List.append_cancel_left (hlog'.symm.trans hlog)
        refine ⟨part, bio, hfound, ?_⟩
        rw [← hsame]
        have hstart : (s.onPartition { part := part, bio := some bio }).curOffset =
            part.startingLba.toNat * bio.blockSize.toNat := partStart_eq hroom
        rwa [hstart] at hwrites

end Flash
end BootableUefi
