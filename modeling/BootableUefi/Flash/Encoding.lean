import Mathlib.Tactic.IntervalCases
import BootableUefi.Foundation.Layout
import BootableUefi.Flash.Outcome

/-!
# Sparse images from the other side

A sparse image is made of chunks, each given by what it stands for.  When the
chunks are encoded, and the partition has room for them, the image is flashed,
and the device holds what it would hold after a flash of the raw image.
-/

namespace BootableUefi
namespace Flash

open Firmware Foundation

/-!
# The format
-/

inductive SparseChunk where
  | raw (data : List UInt8)
  | fill (pattern blocks : Nat)
  | dontCare (blocks : Nat)
  | crc32 (sum : Nat)
  deriving DecidableEq, Repr

namespace SparseChunk

def code : SparseChunk -> Nat
  | raw _ => chunkTypeRaw
  | fill _ _ => chunkTypeFill
  | dontCare _ => chunkTypeDontCare
  | crc32 _ => chunkTypeCrc32

/-- `chunk_sz`. -/
def blocks (blkSz : Nat) : SparseChunk -> Nat
  | raw data => data.length / blkSz
  | fill _ blocks => blocks
  | dontCare blocks => blocks
  | crc32 _ => 0

def payload : SparseChunk -> List UInt8
  | raw data => data
  | fill pattern _ => leBytes 4 pattern
  | dontCare _ => []
  | crc32 sum => leBytes 4 sum

def header (blkSz : Nat) (chunk : SparseChunk) : List UInt8 :=
  leBytes 2 chunk.code ++ leBytes 2 0 ++ leBytes 4 (chunk.blocks blkSz) ++
    leBytes 4 (chunkHeaderSize + chunk.payload.length)

def encode (blkSz : Nat) (chunk : SparseChunk) : List UInt8 :=
  chunk.header blkSz ++ chunk.payload

theorem length_encode (blkSz : Nat) (chunk : SparseChunk) :
    (chunk.encode blkSz).length = chunkHeaderSize + chunk.payload.length := by
  simp only [encode, header, List.length_append, length_leBytes, chunkHeaderSize]

def piece (blkSz : Nat) : SparseChunk -> Piece
  | raw data => { length := data.length, content := some (memOf data) }
  | fill pattern blocks =>
      { length := blocks * blkSz, content := some fun i => byteOf pattern (i % 4) }
  | dontCare blocks => { length := blocks * blkSz, content := none }
  | crc32 _ => { length := 0, content := none }

/-- The chunk can be encoded, and a fill or a hole is shorter than 4 GiB. -/
def WellFormed (blkSz : Nat) : SparseChunk -> Prop
  | raw data => data.length % blkSz = 0 ∧ chunkHeaderSize + data.length < 2 ^ 32
  | fill pattern blocks => pattern < 2 ^ 32 ∧ blocks * blkSz < 2 ^ 32
  | dontCare blocks => blocks * blkSz < 2 ^ 32
  | crc32 sum => sum < 2 ^ 32

/-- `flash_fill` writes the pattern all over the chunk. -/
def FilledOn (arch : Arch) : SparseChunk -> Prop
  | fill _ blocks => arch = Arch.ia32 ∨ blocks = 0
  | _ => True

end SparseChunk

structure SparseImage where
  blkSz : Nat
  totalBlks : Nat
  checksum : Nat
  chunks : List SparseChunk
  blkSz_pos : 0 < blkSz
  blkSz_lt : blkSz < 2 ^ 32
  blkSz_words : blkSz % 4 = 0
  chunks_lt : chunks.length < 2 ^ 32
  wellFormed : forall chunk, chunk ∈ chunks -> chunk.WellFormed blkSz

namespace SparseImage

variable (sparse : SparseImage)

def header : List UInt8 :=
  leBytes 4 sparseHeaderMagic ++ leBytes 2 1 ++ leBytes 2 0 ++ leBytes 2 sparseHeaderSize ++
    leBytes 2 chunkHeaderSize ++ leBytes 4 sparse.blkSz ++ leBytes 4 sparse.totalBlks ++
    leBytes 4 sparse.chunks.length ++ leBytes 4 sparse.checksum

def encode : List UInt8 :=
  sparse.header ++ sparse.chunks.flatMap (SparseChunk.encode sparse.blkSz)

def pieces : List Piece :=
  sparse.chunks.map (SparseChunk.piece sparse.blkSz)

end SparseImage

structure ImageBuffer.Encodes (image : ImageBuffer) (sparse : SparseImage) : Prop where
  size : image.size = sparse.encode.length
  bytes : Shows image.mem 0 sparse.encode

/-!
# What is read
-/

section Reads

variable {image : ImageBuffer} {sparse : SparseImage}

theorem shows_header {chunk : SparseChunk} {blkSz s : Nat}
    (h : Shows image.mem s (chunk.encode blkSz)) (hwell : chunk.WellFormed blkSz)
    (hpos : 0 < blkSz) :
    (image.chunkHeader s).chunkType = chunk.code ∧
      (image.chunkHeader s).chunkSz = chunk.blocks blkSz ∧
      (image.chunkHeader s).totalSz = (chunk.encode blkSz).length ∧
      Shows image.mem (s + chunkHeaderSize) chunk.payload := by
  unfold SparseChunk.encode SparseChunk.header at h
  simp only [shows_append, List.length_append, length_leBytes] at h
  rcases h with ⟨⟨⟨⟨hcode, -⟩, hblocks⟩, htotal⟩, hpayload⟩
  have hcodeLt : chunk.code < 2 ^ 16 := by
    cases chunk with
    | raw data => exact (by decide : chunkTypeRaw < 2 ^ 16)
    | fill pattern blocks => exact (by decide : chunkTypeFill < 2 ^ 16)
    | dontCare blocks => exact (by decide : chunkTypeDontCare < 2 ^ 16)
    | crc32 sum => exact (by decide : chunkTypeCrc32 < 2 ^ 16)
  have hblocksLt : chunk.blocks blkSz < 2 ^ 32 := by
    cases chunk with
    | raw data =>
        have hle : data.length ≤ chunkHeaderSize + data.length := Nat.le_add_left _ _
        exact ((Nat.div_le_self data.length blkSz).trans hle).trans_lt hwell.2
    | fill pattern blocks => exact (Nat.le_mul_of_pos_right blocks hpos).trans_lt hwell.2
    | dontCare blocks => exact (Nat.le_mul_of_pos_right blocks hpos).trans_lt hwell
    | crc32 sum => exact Nat.two_pow_pos 32
  have htotalLt : chunkHeaderSize + chunk.payload.length < 2 ^ 32 := by
    cases chunk with
    | raw data => exact hwell.2
    | fill pattern blocks =>
        simp only [SparseChunk.payload, length_leBytes]
        decide
    | dontCare blocks => exact (by decide : chunkHeaderSize < 2 ^ 32)
    | crc32 sum =>
        simp only [SparseChunk.payload, length_leBytes]
        decide
  rw [SparseChunk.length_encode]
  exact ⟨hcode.le16 hcodeLt, hblocks.le32 hblocksLt, htotal.le32 htotalLt, hpayload⟩

theorem ImageBuffer.Encodes.header (h : image.Encodes sparse) :
    isSparseImage image = true ∧
      image.sparseHeader.chunkHdrSz = chunkHeaderSize ∧
      image.sparseHeader.blkSz = sparse.blkSz ∧
      image.sparseHeader.totalChunks = sparse.chunks.length ∧
      image.sparseHeader.fileHdrSz = sparseHeaderSize ∧
      Shows image.mem sparseHeaderSize
        (sparse.chunks.flatMap (SparseChunk.encode sparse.blkSz)) := by
  have hbytes := h.bytes
  unfold SparseImage.encode SparseImage.header at hbytes
  simp only [shows_append, List.length_append, length_leBytes] at hbytes
  rcases hbytes with
    ⟨⟨⟨⟨⟨⟨⟨⟨⟨hmagic, hmajor⟩, -⟩, hfile⟩, hchunk⟩, hblk⟩, -⟩, htotal⟩, -⟩, hchunks⟩
  have hfile' : image.sparseHeader.fileHdrSz = sparseHeaderSize := hfile.le16 (by decide)
  have hchunk' : image.sparseHeader.chunkHdrSz = chunkHeaderSize := hchunk.le16 (by decide)
  have hmagic' : image.sparseHeader.magic = sparseHeaderMagic := hmagic.le32 (by decide)
  have hmajor' : image.sparseHeader.majorVersion = 1 := hmajor.le16 (by decide)
  have hsize : ¬ image.size < sparseHeaderSize := by
    rw [h.size]
    unfold SparseImage.encode SparseImage.header sparseHeaderSize
    simp only [List.length_append, length_leBytes]
    omega
  refine ⟨?_, hchunk', hblk.le32 sparse.blkSz_lt, htotal.le32 sparse.chunks_lt, hfile', hchunks⟩
  unfold isSparseImage
  dsimp only
  rw [if_neg hsize, hmagic', hmajor', hfile', hchunk']
  decide

theorem isSparseImage_congr {v w : ImageBuffer} (hsize : v.size = w.size)
    (hbytes : forall i, i < w.size -> v.mem i = w.mem i) : isSparseImage v = isSparseImage w := by
  by_cases hshort : w.size < sparseHeaderSize
  · unfold isSparseImage
    rw [hsize, if_pos hshort, if_pos hshort]
  · have hle : sparseHeaderSize ≤ w.size := Nat.le_of_not_lt hshort
    have hword : forall offset, offset + 4 ≤ sparseHeaderSize ->
        le32 v.mem offset = le32 w.mem offset := by
      intro offset hoffset
      apply le32_congr
      intro i hi
      exact hbytes _ (by omega)
    have hhalf : forall offset, offset + 2 ≤ sparseHeaderSize ->
        le16 v.mem offset = le16 w.mem offset := by
      intro offset hoffset
      unfold le16
      rw [hbytes offset (by omega), hbytes (offset + 1) (by omega)]
    have hheader : v.sparseHeader = w.sparseHeader := by
      unfold ImageBuffer.sparseHeader
      rw [hword 0 (by decide), hhalf 4 (by decide), hhalf 8 (by decide), hhalf 10 (by decide),
        hword 12 (by decide), hword 20 (by decide)]
    unfold isSparseImage
    rw [hsize, hheader]

end Reads

/-!
# Room on the partition
-/

/-- The firmware writes what it is asked to, and has memory for every fill. -/
structure FlashEnv.Grants (env : FlashEnv) : Prop where
  writeDisk : forall n, env.writeDisk n = EfiStatus.success
  allocatePool : forall n, (env.allocatePool n).isSome = true

/-- As many bytes are left of the partition. -/
structure FlashState.HasLeft (t : FlashState) (n : Nat) : Prop where
  bio : t.gparti.bio.isSome = true
  room : t.gparti.HasRoom
  start : t.gparti.firstByte ≤ t.curOffset
  stop : t.curOffset + n ≤ t.gparti.endByte

/-- The run has written the pieces, and nothing else, at the cursor. -/
structure Lays (t u : FlashState) (ps : List Piece) : Prop where
  gparti : u.gparti = t.gparti
  cursor : u.curOffset = t.curOffset + totalLength ps
  effect : exists events, u.log = t.log ++ events ∧
    forall before, applyAll (diskWrites events) before =
      applyAll (writesOf t.curOffset ps) before

section Lays

variable {t u v : FlashState} {ps qs : List Piece} {m n : Nat}

theorem Lays.of_events {events : List FlashEvent} (hgparti : u.gparti = t.gparti)
    (hcursor : u.curOffset = t.curOffset) (hlog : u.log = t.log ++ events)
    (hevents : diskWrites events = []) : Lays t u [] where
  gparti := hgparti
  cursor := hcursor
  effect := ⟨events, hlog, fun _ => by rw [hevents]; rfl⟩

theorem Lays.trans (htu : Lays t u ps) (huv : Lays u v qs) : Lays t v (ps ++ qs) where
  gparti := huv.gparti.trans htu.gparti
  cursor := by
    have hsum : totalLength (ps ++ qs) = totalLength ps + totalLength qs := by
      simp [totalLength]
    rw [huv.cursor, htu.cursor, hsum, Nat.add_assoc]
  effect := by
    rcases htu.effect with ⟨first, hfirst, hps⟩
    rcases huv.effect with ⟨rest, hrest, hqs⟩
    refine ⟨first ++ rest, by rw [hrest, hfirst, List.append_assoc], ?_⟩
    intro before
    rw [diskWrites_append, writesOf_append, applyAll_append, applyAll_append, hps, hqs,
      htu.cursor]

theorem FlashState.HasLeft.lays (h : t.HasLeft (m + n)) (hlays : Lays t u ps)
    (hlength : totalLength ps = m) : u.HasLeft n where
  bio := by rw [hlays.gparti]; exact h.bio
  room := by rw [hlays.gparti]; exact h.room
  start := by
    have hstart := h.start
    rw [hlays.gparti, hlays.cursor]
    omega
  stop := by
    have hstop := h.stop
    rw [hlays.gparti, hlays.cursor]
    omega

theorem GptPartitionInterface.HasRoom.partEnd_eq {gparti : GptPartitionInterface}
    (h : gparti.HasRoom) : gparti.partEnd = gparti.endByte := by
  have hstop := h.stop
  have hend : gparti.endByte < 2 ^ 64 := by omega
  unfold GptPartitionInterface.endByte at hend
  unfold GptPartitionInterface.partEnd GptPartitionInterface.endByte
  rcases Nat.eq_zero_or_pos gparti.blockSize with hzero | hpos
  · rw [hzero]
    rfl
  · have hlba : gparti.part.endingLba.toNat + 1 < 2 ^ 64 :=
      (Nat.le_mul_of_pos_right _ hpos).trans_lt hend
    rw [u64_of_lt hlba, u64_of_lt hend]

theorem FlashState.HasLeft.inside (h : t.HasLeft n) :
    t.gparti.isInsidePartition t.curOffset n ∧
      u64 (t.curOffset + n) = t.curOffset + n := by
  have hstop := h.stop
  have hroom := h.room.stop
  have hsum : u64 (t.curOffset + n) = t.curOffset + n := u64_of_lt (by omega)
  refine ⟨⟨?_, ?_⟩, hsum⟩
  · rw [partStart_eq h.room]
    exact h.start
  · rw [hsum, h.room.partEnd_eq]
    exact hstop

/-!
# One chunk
-/

variable {env : FlashEnv}

theorem flashSkip_lays (h : t.HasLeft n) :
    exists u, flashSkip n t = (EfiStatus.success, u) ∧
      Lays t u [{ length := n, content := none }] := by
  rcases h.inside with ⟨hinside, hsum⟩
  refine ⟨_, flashSkip_of_inside hinside, rfl, hsum, ?_⟩
  refine ⟨[FlashEvent.check t.curOffset n, FlashEvent.moved (u64 (t.curOffset + n))], ?_, ?_⟩
  · simp [FlashState.moveTo, FlashState.emit]
  · intro before
    rfl

theorem flashWrite_lays (hgrants : env.Grants) (h : t.HasLeft n) {data content : Mem}
    (hdata : forall i, i < n -> data i = content i) :
    exists u, flashWrite env data n t = (EfiStatus.success, u) ∧
      Lays t u [{ length := n, content := some content }] := by
  rcases h.inside with ⟨hinside, hsum⟩
  refine ⟨writtenState env data n t, ?_, rfl, hsum, _, rfl, ?_⟩
  · rcases flashWrite_cases env data n t with ⟨hnone, -⟩ | ⟨hout, -⟩ | ⟨-, heq⟩
    · have hbio := h.bio
      rw [hnone] at hbio
      cases hbio
    · exact absurd hinside hout
    · rw [heq, hgrants.writeDisk]
  · intro before
    let asked : ByteWrite := { offset := t.curOffset, size := n, data := data }
    let laid : ByteWrite := { offset := t.curOffset, size := n, data := content }
    have hsame : asked.apply before = laid.apply before :=
      ByteWrite.apply_congr (v := asked) (w := laid) rfl rfl hdata before
    rw [hgrants.writeDisk]
    exact hsame

theorem fillBuffer_covers {arch : Arch} {pattern size : Nat} (hwords : size % 4 = 0)
    (h : arch = Arch.ia32 ∨ size = 0) (pool : Mem) {i : Nat} (hi : i < size) :
    fillBuffer arch pattern size pool i = byteOf pattern (i % 4) := by
  rcases h with rfl | rfl
  · refine if_pos ?_
    simp only [Arch.sizeofUintn]
    omega
  · cases hi

theorem flashFill_lays (hgrants : env.Grants) (h : t.HasLeft n) {pattern : Nat}
    (hwords : n % 4 = 0) (hfilled : env.arch = Arch.ia32 ∨ n = 0) :
    exists u, flashFill env pattern n t = (EfiStatus.success, u) ∧
      Lays t u [{ length := n, content := some fun i => byteOf pattern (i % 4) }] := by
  rcases Option.isSome_iff_exists.mp (hgrants.allocatePool t.allocations) with ⟨pool, hpool⟩
  have hcounted : ({ t with allocations := t.allocations + 1 } : FlashState).HasLeft n :=
    ⟨h.bio, h.room, h.start, h.stop⟩
  rcases flashWrite_lays hgrants hcounted
    (fun i hi => fillBuffer_covers hwords hfilled pool hi) with ⟨u, hwrite, hlays⟩
  refine ⟨u, ?_, hlays.gparti, hlays.cursor, hlays.effect⟩
  unfold flashFill
  dsimp only
  rw [hpool]
  exact hwrite

theorem Lays.of_read {event : FlashEvent} (hread : diskWrites [event] = [])
    (h : Lays (t.emit event) u ps) : Lays t u ps :=
  (Lays.of_events (t := t) (u := t.emit event) rfl rfl rfl hread).trans h

variable {image : ImageBuffer} {sph : SparseHeader} {ckh : ChunkHeader} {chunk : SparseChunk}

theorem flashChunk_lays (hgrants : env.Grants) {data : Nat} (hpos : 0 < sph.blkSz)
    (hwords : sph.blkSz % 4 = 0) (htype : ckh.chunkType = chunk.code)
    (hblocks : ckh.chunkSz = chunk.blocks sph.blkSz)
    (hpayload : Shows image.mem data chunk.payload) (hwell : chunk.WellFormed sph.blkSz)
    (hfilled : chunk.FilledOn env.arch) (h : t.HasLeft (chunk.piece sph.blkSz).length) :
    exists u, flashChunk env image sph ckh data chunk.payload.length t =
        (FlashEnd.returned EfiStatus.success, u) ∧ Lays t u [chunk.piece sph.blkSz] := by
  unfold flashChunk
  cases chunk with
  | raw bytes =>
      have hbytes : chunkBytes sph ckh = bytes.length := by
        have hsize := hwell.2
        have hexact : bytes.length / sph.blkSz * sph.blkSz = bytes.length :=
          Nat.div_mul_cancel (Nat.dvd_of_mod_eq_zero hwell.1)
        unfold chunkBytes
        rw [hblocks, SparseChunk.blocks, hexact]
        exact u32_of_lt (by omega)
      have hread : (t.emit (FlashEvent.read data bytes.length bytes.length)).HasLeft
          bytes.length := ⟨h.bio, h.room, h.start, h.stop⟩
      have hcontent : forall i, i < bytes.length -> image.mem (data + i) = memOf bytes i := by
        intro i hi
        have hlist := shows_memOf bytes i hi
        rw [Nat.zero_add] at hlist
        exact (hpayload i hi).trans hlist.symm
      rcases flashWrite_lays hgrants hread hcontent with ⟨u, hwrite, hlays⟩
      have hconsistent : ¬ (bytes.length % sph.blkSz ≠ 0 ∨ bytes.length ≠ bytes.length) := by
        rintro (hpart | hother)
        · exact hpart hwell.1
        · exact hother rfl
      have hcode : ckh.chunkType = chunkTypeRaw := htype
      refine ⟨u, ?_, Lays.of_read rfl hlays⟩
      rw [if_pos hcode, if_neg (by omega), hbytes, SparseChunk.payload, if_neg hconsistent,
        hwrite]
  | fill pattern blocks =>
      have hbytes : chunkBytes sph ckh = blocks * sph.blkSz := by
        unfold chunkBytes
        rw [hblocks, SparseChunk.blocks, u32_of_lt hwell.2]
      have hmultiple : blocks * sph.blkSz % 4 = 0 := by
        rw [Nat.mul_mod, hwords]
        rfl
      have hall : env.arch = Arch.ia32 ∨ blocks * sph.blkSz = 0 := by
        rcases hfilled with harch | hnone
        · exact Or.inl harch
        · rw [hnone, Nat.zero_mul]
          exact Or.inr rfl
      have hread : (t.emit (FlashEvent.read data 4 4)).HasLeft (blocks * sph.blkSz) :=
        ⟨h.bio, h.room, h.start, h.stop⟩
      rcases flashFill_lays hgrants hread hmultiple hall with ⟨u, hfill, hlays⟩
      refine ⟨u, ?_, Lays.of_read rfl hlays⟩
      have hword : le32 image.mem data = pattern := hpayload.le32 hwell.1
      have hcode : ckh.chunkType = chunkTypeFill := htype
      rw [hcode, if_neg (by decide), if_neg (by decide), if_pos rfl, hbytes, hword,
        SparseChunk.payload, length_leBytes, hfill]
  | dontCare blocks =>
      have hbytes : chunkBytes sph ckh = blocks * sph.blkSz := by
        unfold chunkBytes
        rw [hblocks, SparseChunk.blocks, u32_of_lt hwell]
      rcases flashSkip_lays h with ⟨u, hskip, hlays⟩
      have hcode : ckh.chunkType = chunkTypeDontCare := htype
      refine ⟨u, ?_, hlays⟩
      rw [hcode, if_neg (by decide), if_pos rfl, hbytes]
      simp only [SparseChunk.piece] at hskip
      rw [hskip]
  | crc32 sum =>
      have hcode : ckh.chunkType = chunkTypeCrc32 := htype
      refine ⟨t, ?_, rfl, rfl, [], by simp, fun _ => rfl⟩
      rw [hcode, if_neg (by decide), if_neg (by decide), if_neg (by decide), if_pos rfl]

/-!
# The loop over the chunks
-/

theorem flashChunks_lays (hgrants : env.Grants) {chunks : List SparseChunk} {blkSz : Nat}
    (hblkSz : image.sparseHeader.blkSz = blkSz)
    (hchunkHdrSz : image.sparseHeader.chunkHdrSz = chunkHeaderSize) (hpos : 0 < blkSz)
    (hwords : blkSz % 4 = 0) (hwell : forall chunk, chunk ∈ chunks -> chunk.WellFormed blkSz)
    (hfilled : forall chunk, chunk ∈ chunks -> chunk.FilledOn env.arch) {s rlen : Nat}
    (hbytes : Shows image.mem s (chunks.flatMap (SparseChunk.encode blkSz)))
    (hrlen : (chunks.flatMap (SparseChunk.encode blkSz)).length ≤ rlen)
    (h : t.HasLeft (totalLength (chunks.map (SparseChunk.piece blkSz)))) :
    exists u, flashChunks env image chunks.length s rlen t =
        (FlashEnd.returned EfiStatus.success, u) ∧
      Lays t u (chunks.map (SparseChunk.piece blkSz)) := by
  induction chunks generalizing s rlen t with
  | nil => exact ⟨t, rfl, ⟨rfl, rfl, [], by simp, fun _ => rfl⟩⟩
  | cons chunk chunks ih =>
      rw [List.flatMap_cons, shows_append] at hbytes
      rw [List.flatMap_cons, List.length_append] at hrlen
      rw [List.map_cons, totalLength_cons] at h
      rcases List.forall_mem_cons.mp hwell with ⟨hwellFirst, hwellRest⟩
      rcases List.forall_mem_cons.mp hfilled with ⟨hfilledFirst, hfilledRest⟩
      rcases shows_header hbytes.1 hwellFirst hpos with ⟨htype, hblocks, htotal, hpayload⟩
      have hlength := chunk.length_encode blkSz
      have hread : (t.emit (FlashEvent.read s chunkHeaderSize chunkHeaderSize)).HasLeft
          (chunk.piece blkSz).length := by
        refine ⟨h.bio, h.room, h.start, ?_⟩
        have hstop := h.stop
        dsimp only [FlashState.emit]
        omega
      subst hblkSz
      rcases flashChunk_lays hgrants hpos hwords htype hblocks hpayload hwellFirst hfilledFirst
        hread with ⟨u, hchunk, hlays⟩
      have hfirst : Lays t u [chunk.piece image.sparseHeader.blkSz] := Lays.of_read rfl hlays
      have hleft : u.HasLeft
          (totalLength (chunks.map (SparseChunk.piece image.sparseHeader.blkSz))) :=
        h.lays hfirst (by simp)
      have henough : (chunks.flatMap (SparseChunk.encode image.sparseHeader.blkSz)).length ≤
          rlen - (chunk.encode image.sparseHeader.blkSz).length := by omega
      rcases ih hwellRest hfilledRest hbytes.2 henough hleft with ⟨v, hrun, hrest⟩
      refine ⟨v, ?_, hfirst.trans hrest⟩
      rw [List.length_cons, flashChunks]
      dsimp only
      rw [hchunkHdrSz, htotal, if_neg (by omega), if_neg (by omega), if_neg (by omega),
        hlength, Nat.add_sub_cancel_left, hchunk]
      dsimp only
      rw [← hlength]
      exact hrun

theorem flashSparse_lays (hgrants : env.Grants) {sparse : SparseImage}
    (hencodes : image.Encodes sparse)
    (hfilled : forall chunk, chunk ∈ sparse.chunks -> chunk.FilledOn env.arch)
    (h : t.HasLeft (totalLength sparse.pieces)) :
    exists u, flashSparse env image t = (FlashEnd.returned EfiStatus.success, u) ∧
      Lays t u sparse.pieces := by
  rcases hencodes.header with ⟨-, hchunkHdrSz, hblkSz, htotal, hfile, hchunks⟩
  have hread : (t.emit (FlashEvent.read 0 sparseHeaderSize sparseHeaderSize)).HasLeft
      (totalLength sparse.pieces) := ⟨h.bio, h.room, h.start, h.stop⟩
  have hlength : (sparse.chunks.flatMap (SparseChunk.encode sparse.blkSz)).length ≤
      image.size := by
    rw [hencodes.size, SparseImage.encode, List.length_append]
    exact Nat.le_add_left _ _
  rcases flashChunks_lays hgrants hblkSz hchunkHdrSz sparse.blkSz_pos sparse.blkSz_words
    sparse.wellFormed hfilled hchunks hlength hread with ⟨u, hrun, hlays⟩
  refine ⟨u, ?_, Lays.of_read rfl hlays⟩
  unfold flashSparse
  rw [htotal, hfile]
  exact hrun

end Lays

/-!
# Sparse and raw
-/

/-- The flash succeeds, and its writes have the effect of the pieces. -/
def Installs (env : FlashEnv) (image : ImageBuffer) (label : List UInt16) (s : FlashState)
    (start : Nat) (ps : List Piece) : Prop :=
  (flash env image label s).1 = FlashEnd.returned EfiStatus.success ∧
    exists events, (flash env image label s).2.log = s.log ++ events ∧
      forall before, applyAll (diskWrites events) before = applyAll (writesOf start ps) before

/-- The flash succeeds, and makes one device out of the other. -/
def Leaves (env : FlashEnv) (image : ImageBuffer) (label : List UInt16) (s : FlashState)
    (before device : Mem) : Prop :=
  (flash env image label s).1 = FlashEnd.returned EfiStatus.success ∧
    exists events, (flash env image label s).2.log = s.log ++ events ∧
      applyAll (diskWrites events) before = device

/-- The raw image a sparse one stands for; its holes have the bytes of the device. -/
structure SparseImage.Expands (sparse : SparseImage) (start : Nat) (before : Mem)
    (raw : ImageBuffer) : Prop where
  size : raw.size = totalLength sparse.pieces
  bytes : forall (k : Nat) (p : Piece) (i : Nat), sparse.pieces[k]? = some p -> i < p.length ->
    raw.mem (pieceStart 0 sparse.pieces k + i) =
      p.result before (pieceStart start sparse.pieces k) i

/-- The partition with the label has room for so many bytes. -/
structure FlashEnv.HasPartition (env : FlashEnv) (label : List UInt16) (part : GptPartition)
    (bio : BlockIo) (n : Nat) : Prop where
  found : env.partitionByLabel label = Except.ok (part, bio)
  room : GptPartitionInterface.HasRoom { part := part, bio := some bio }
  fits : part.startingLba.toNat * bio.blockSize.toNat + n ≤
    (part.endingLba.toNat + 1) * bio.blockSize.toNat

section Installs

variable {env : FlashEnv} {image : ImageBuffer} {label : List UInt16} {part : GptPartition}
  {bio : BlockIo} {n : Nat}

theorem FlashEnv.HasPartition.hasLeft (h : env.HasPartition label part bio n) (s : FlashState) :
    (s.onPartition { part := part, bio := some bio }).HasLeft n where
  bio := rfl
  room := h.room
  start := (partStart_eq h.room).ge
  stop := by
    have hstart := partStart_eq h.room
    have hfits := h.fits
    show GptPartitionInterface.partStart _ + n ≤ (part.endingLba.toNat + 1) * bio.blockSize.toNat
    rw [hstart]
    exact hfits

theorem Installs.of_lays {s u : FlashState} {ps : List Piece}
    (h : env.HasPartition label part bio n)
    (hrun : flashImage env image (s.onPartition { part := part, bio := some bio }) =
      (FlashEnd.returned EfiStatus.success, u))
    (hlays : Lays (s.onPartition { part := part, bio := some bio }) u ps) :
    Installs env image label s (part.startingLba.toNat * bio.blockSize.toNat) ps := by
  have hstart : (s.onPartition { part := part, bio := some bio }).curOffset =
      part.startingLba.toNat * bio.blockSize.toNat := partStart_eq h.room
  unfold Installs
  rw [flash_of_found h.found, hrun, ← hstart]
  exact ⟨rfl, hlays.effect⟩

theorem installs_of_encodes (hgrants : env.Grants) {sparse : SparseImage}
    (h : env.HasPartition label part bio (totalLength sparse.pieces))
    (hencodes : image.Encodes sparse)
    (hfilled : forall chunk, chunk ∈ sparse.chunks -> chunk.FilledOn env.arch)
    (s : FlashState) :
    Installs env image label s (part.startingLba.toNat * bio.blockSize.toNat) sparse.pieces := by
  rcases flashSparse_lays hgrants hencodes hfilled (h.hasLeft s) with ⟨u, hrun, hlays⟩
  refine Installs.of_lays h ?_ hlays
  rw [flashImage, if_pos hencodes.header.1]
  exact hrun

theorem installs_of_raw (hgrants : env.Grants) (h : env.HasPartition label part bio image.size)
    (hraw : isSparseImage image = false) {content : Mem}
    (hcontent : forall i, i < image.size -> image.mem i = content i) (s : FlashState) :
    Installs env image label s (part.startingLba.toNat * bio.blockSize.toNat)
      [{ length := image.size, content := some content }] := by
  have hleft := h.hasLeft s
  have hread : ((s.onPartition { part := part, bio := some bio }).emit
      (FlashEvent.read 0 image.size image.size)).HasLeft image.size :=
    ⟨hleft.bio, hleft.room, hleft.start, hleft.stop⟩
  rcases flashWrite_lays hgrants hread hcontent with ⟨u, hwrite, hlays⟩
  refine Installs.of_lays h ?_ (Lays.of_read rfl hlays)
  rw [flashImage, hraw, if_neg Bool.false_ne_true, hwrite]

theorem Installs.leaves {s : FlashState} {start : Nat} {ps : List Piece}
    (h : Installs env image label s start ps) (before : Mem) :
    Leaves env image label s before (applyAll (writesOf start ps) before) := by
  rcases h with ⟨hstatus, events, hlog, heffect⟩
  exact ⟨hstatus, events, hlog, heffect before⟩

/-- One write with the bytes of the pieces has the effect of the pieces. -/
theorem SparseImage.Expands.apply_eq {sparse : SparseImage} {start : Nat} {before : Mem}
    {raw : ImageBuffer} (h : sparse.Expands start before raw) :
    applyAll (writesOf start [{ length := raw.size, content := some raw.mem }]) before =
      applyAll (writesOf start sparse.pieces) before := by
  let whole : ByteWrite := { offset := start, size := raw.size, data := raw.mem }
  show whole.apply before = _
  funext x
  by_cases hx : x < start ∨ start + totalLength sparse.pieces ≤ x
  · rw [applyAll_writesOf_outside hx]
    refine ByteWrite.apply_of_not_mem ?_
    rwa [← h.size] at hx
  · have hinside : x - start < totalLength sparse.pieces := by omega
    rcases exists_piece hinside start with ⟨k, p, j, hp, hj, hat⟩
    have hsum : start + (x - start) = x := by omega
    rw [hsum] at hat
    rw [← hat, applyAll_writesOf_inside hp hj, ← h.bytes k p j hp hj, pieceStart_eq, Nat.add_assoc]
    rw [pieceStart_eq] at hat
    exact ByteWrite.apply_of_mem (show pieceStart 0 sparse.pieces k + j < raw.size by
      rw [h.size]
      omega)

/--
A sparse image that fits is flashed, and leaves on the device what its chunks
stand for: the same as a flash of the raw image.
-/
theorem flash_encode (hgrants : env.Grants) {sparse : SparseImage}
    (h : env.HasPartition label part bio (totalLength sparse.pieces))
    (hencodes : image.Encodes sparse)
    (hfilled : forall chunk, chunk ∈ sparse.chunks -> chunk.FilledOn env.arch)
    (s : FlashState) (before : Mem) :
    exists device, Leaves env image label s before device ∧
      LaidOut [{ start := part.startingLba.toNat * bio.blockSize.toNat, pieces := sparse.pieces }]
        before device ∧
      forall raw, isSparseImage raw = false ->
        sparse.Expands (part.startingLba.toNat * bio.blockSize.toNat) before raw ->
          Leaves env raw label s before device := by
  refine ⟨_, (installs_of_encodes hgrants h hencodes hfilled s).leaves before,
    LaidOut.single { start := part.startingLba.toNat * bio.blockSize.toNat
                     pieces := sparse.pieces } before, ?_⟩
  intro raw hraw hexpands
  have hroom : env.HasPartition label part bio raw.size :=
    ⟨h.found, h.room, by rw [hexpands.size]; exact h.fits⟩
  rw [← hexpands.apply_eq]
  exact (installs_of_raw hgrants hroom hraw (fun _ _ => rfl) s).leaves before

end Installs

/-- A block, a hole, a filled block and a checksum. -/
def mixedImage : SparseImage where
  blkSz := 4
  totalBlks := 3
  checksum := 0
  chunks := [SparseChunk.raw [1, 2, 3, 4], SparseChunk.dontCare 1,
    SparseChunk.fill 0xdeadbeef 1, SparseChunk.crc32 0]
  blkSz_pos := by decide
  blkSz_lt := by decide
  blkSz_words := rfl
  chunks_lt := by decide
  wellFormed := by simp [SparseChunk.WellFormed, chunkHeaderSize]

def mixedBuffer : ImageBuffer where
  mem := memOf mixedImage.encode
  size := mixedImage.encode.length

def mixedRaw : ImageBuffer where
  mem := memOf [1, 2, 3, 4, 0xff, 0xff, 0xff, 0xff, 0xef, 0xbe, 0xad, 0xde]
  size := 12

theorem flash_encode_of_mixedImage :
    exists device,
      Leaves { grantingEnv ⟨1, 1⟩ ⟨0, 512⟩ with arch := Arch.ia32 } mixedBuffer []
        FlashState.fresh (fun _ => 0xff) device ∧
      Leaves { grantingEnv ⟨1, 1⟩ ⟨0, 512⟩ with arch := Arch.ia32 } mixedRaw []
        FlashState.fresh (fun _ => 0xff) device := by
  have hgrants : FlashEnv.Grants { grantingEnv ⟨1, 1⟩ ⟨0, 512⟩ with arch := Arch.ia32 } :=
    ⟨fun _ => rfl, fun _ => rfl⟩
  have hencodes : mixedBuffer.Encodes mixedImage := ⟨rfl, shows_memOf mixedImage.encode⟩
  have hfilled : forall chunk, chunk ∈ mixedImage.chunks -> chunk.FilledOn Arch.ia32 := by
    simp [mixedImage, SparseChunk.FilledOn]
  have hpartition : FlashEnv.HasPartition
      { grantingEnv ⟨1, 1⟩ ⟨0, 512⟩ with arch := Arch.ia32 } [] ⟨1, 1⟩ ⟨0, 512⟩
      (totalLength mixedImage.pieces) := ⟨rfl, by decide, by decide⟩
  rcases flash_encode hgrants hpartition hencodes hfilled FlashState.fresh (fun _ => 0xff) with
    ⟨device, hleaves, -, hraw⟩
  refine ⟨device, hleaves, hraw mixedRaw (by decide) ⟨rfl, ?_⟩⟩
  intro k p i hp hi
  match k with
  | 0 =>
      cases hp
      have hi' : i < 4 := hi
      interval_cases i <;> rfl
  | 1 =>
      cases hp
      have hi' : i < 4 := hi
      interval_cases i <;> rfl
  | 2 =>
      cases hp
      have hi' : i < 4 := hi
      interval_cases i <;> rfl
  | 3 =>
      cases hp
      cases hi
  | k + 4 => cases hp

end Flash
end BootableUefi
