import BootableUefi.Flash.Sparse

/-!
# The bytes of a fill

The loop of `flash_fill` stores 32-bit words and counts in units of `UINTN`.
With a `UINTN` of 4 bytes it covers the buffer; with one of 8 bytes it stops half
way, and the write that follows takes the other half from the pool.
-/

namespace BootableUefi
namespace Flash

open Firmware Foundation

def fillLoop (pattern : Nat) : Nat -> Mem -> Mem
  | 0, buf => buf
  | i + 1, buf =>
      ByteWrite.apply { offset := 4 * i, size := 4, data := byteOf pattern }
        (fillLoop pattern i buf)

theorem fillLoop_apply (pattern : Nat) (pool : Mem) (n x : Nat) :
    fillLoop pattern n pool x = if x < 4 * n then byteOf pattern (x % 4) else pool x := by
  induction n with
  | zero => rfl
  | succ n ih =>
      by_cases hword : 4 * n ≤ x ∧ x < 4 * n + 4
      · have hplace : 4 * n + x % 4 = x := by omega
        let word : ByteWrite := { offset := 4 * n, size := 4, data := byteOf pattern }
        have hstored : word.apply (fillLoop pattern n pool) (4 * n + x % 4) =
            byteOf pattern (x % 4) :=
          ByteWrite.apply_of_mem (Nat.mod_lt x (show 0 < 4 by decide))
        rw [hplace] at hstored
        rw [if_pos (by omega)]
        exact hstored
      · have houtside : x < 4 * n ∨ 4 * n + 4 ≤ x := by omega
        rw [fillLoop, ByteWrite.apply_of_not_mem houtside, ih]
        split
        · rw [if_pos (by omega)]
        · rw [if_neg (by omega)]

theorem fillBuffer_eq_fillLoop (arch : Arch) (pattern size : Nat) (pool : Mem) :
    fillBuffer arch pattern size pool = fillLoop pattern (size / arch.sizeofUintn) pool := by
  funext x
  rw [fillLoop_apply]
  rfl

/-!
# What reaches the device
-/

def Repeats (pattern size : Nat) (data : Mem) : Prop :=
  forall i, i < size -> data i = byteOf pattern (i % 4)

/-- Whatever is written is the pattern, in the given size. -/
def WritesPattern (pattern size : Nat) (events : List FlashEvent) : Prop :=
  forall write status, FlashEvent.writeDisk write status ∈ events ->
    write.size = size ∧ Repeats pattern size write.data

/-- `flash_fill` writes nothing but the pattern, on any firmware and partition. -/
def FillsPattern (arch : Arch) (pattern size : Nat) : Prop :=
  forall (env : FlashEnv) (s : FlashState), env.arch = arch ->
    Emits (WritesPattern pattern size) s (flashFill env pattern size s).2

/-- So does every FILL chunk of that pattern and size. -/
def ChunksFillPattern (arch : Arch) (pattern size : Nat) : Prop :=
  forall (env : FlashEnv) (image : ImageBuffer) (sph : SparseHeader) (ckh : ChunkHeader)
    (data payload : Nat) (s : FlashState), env.arch = arch ->
    ckh.chunkType = chunkTypeFill -> le32 image.mem data = pattern ->
    chunkBytes sph ckh = size ->
    Emits (WritesPattern pattern size) s (flashChunk env image sph ckh data payload s).2

section Writes

variable {env : FlashEnv} {data : Mem} {pattern size : Nat} {s : FlashState}

theorem emits_flashWrite_of_repeats (env : FlashEnv) (s : FlashState)
    (h : Repeats pattern size data) :
    Emits (WritesPattern pattern size) s (flashWrite env data size s).2 := by
  rcases flashWrite_cases env data size s with ⟨-, heq⟩ | ⟨-, heq⟩ | ⟨-, heq⟩
  · rw [heq]
    exact ⟨[], by simp, by simp [WritesPattern]⟩
  · rw [heq]
    exact ⟨_, rfl, by simp [WritesPattern]⟩
  · rw [heq]
    refine ⟨_, rfl, ?_⟩
    intro write status hmem
    simp only [List.mem_cons, reduceCtorEq, FlashEvent.writeDisk.injEq, List.not_mem_nil,
      or_false, false_or] at hmem
    rw [hmem.1]
    exact ⟨rfl, h⟩

theorem repeats_fillBuffer_of_ia32 (pattern : Nat) (hsize : size % 4 = 0) (pool : Mem) :
    Repeats pattern size (fillBuffer Arch.ia32 pattern size pool) := by
  intro i hi
  have hcovered : i < 4 * (size / Arch.ia32.sizeofUintn) := by
    simp only [Arch.sizeofUintn]
    omega
  exact if_pos hcovered

theorem fillsPattern_of_repeats {arch : Arch}
    (h : forall pool, Repeats pattern size (fillBuffer arch pattern size pool)) :
    FillsPattern arch pattern size := by
  intro env s harch
  unfold flashFill
  dsimp only
  split
  · exact ⟨[], by simp, by simp [WritesPattern]⟩
  · rename_i pool _
    rw [harch]
    exact emits_flashWrite_of_repeats env { s with allocations := _ } (h pool)

theorem FillsPattern.chunks {arch : Arch} (h : FillsPattern arch pattern size) :
    ChunksFillPattern arch pattern size := by
  intro env image sph ckh data payload s harch htype hword hbytes
  have hchunk : (flashChunk env image sph ckh data payload s).2 =
      (flashFill env pattern size (s.emit (FlashEvent.read data 4 payload))).2 := by
    simp [flashChunk, htype, hword, hbytes, chunkTypeRaw, chunkTypeFill, chunkTypeDontCare]
  rcases h env (s.emit (FlashEvent.read data 4 payload)) harch with ⟨events, hlog, hevents⟩
  rw [hchunk]
  refine ⟨FlashEvent.read data 4 payload :: events, ?_, ?_⟩
  · rw [hlog, FlashState.emit, List.append_assoc]
    rfl
  · intro write status hmem
    exact hevents write status (by simpa using hmem)

/-!
# A partition for everything
-/

def byteDisk : FlashState :=
  { FlashState.fresh with
    gparti :=
      { part := { startingLba := 0, endingLba := 0xfffffffffffffffe }
        bio := some { mediaId := 0, blockSize := 1 } } }

def poolOf (arch : Arch) (byte : UInt8) : FlashEnv :=
  { grantingEnv { startingLba := 0, endingLba := 0 } { mediaId := 0, blockSize := 1 } with
    arch := arch
    allocatePool := fun _ => some fun _ => byte }

theorem byteDisk_inside (size : Nat) : byteDisk.gparti.isInsidePartition 0 size := by
  have hend : byteDisk.gparti.partEnd = 2 ^ 64 - 1 := by decide
  have hlt := u64_lt (0 + size)
  refine ⟨by decide, ?_⟩
  rw [hend]
  omega

theorem byteDisk_write (arch : Arch) (byte : UInt8) {pattern size : Nat}
    (h : FillsPattern arch pattern size) :
    Repeats pattern size (fillBuffer arch pattern size fun _ => byte) := by
  rcases h (poolOf arch byte) byteDisk rfl with ⟨events, hlog, hevents⟩
  have hwritten : (flashFill (poolOf arch byte) pattern size byteDisk).2 =
      writtenState (poolOf arch byte) (fillBuffer arch pattern size fun _ => byte) size
        { byteDisk with allocations := 1 } := by
    rcases flashWrite_cases (poolOf arch byte) (fillBuffer arch pattern size fun _ => byte) size
      { byteDisk with allocations := 1 } with ⟨hnone, -⟩ | ⟨hout, -⟩ | ⟨-, heq⟩
    · cases hnone
    · exact absurd (byteDisk_inside size) hout
    · exact congrArg Prod.snd heq
  rw [hwritten] at hlog
  have hsplit := List.append_cancel_left hlog
  have hwrite := hevents
    { offset := 0, size := size, data := fillBuffer arch pattern size fun _ => byte }
    EfiStatus.success
  rw [← hsplit] at hwrite
  exact (hwrite (by simp [byteDisk, poolOf, grantingEnv, FlashState.fresh])).2

end Writes

/-- With 64-bit counting the first byte after the loop keeps what the pool held. -/
theorem not_fillsPattern_of_x64 {pattern size : Nat} (hsize : size % 4 = 0) (hpos : 0 < size) :
    ¬ FillsPattern Arch.x64 pattern size := by
  intro h
  have hrepeats := byteDisk_write Arch.x64 (byteOf pattern 0 + 1) h
  have hrest : 4 * (size / 8) < size := by omega
  have hbyte := hrepeats (4 * (size / 8)) hrest
  have hpool : fillBuffer Arch.x64 pattern size (fun _ => byteOf pattern 0 + 1)
      (4 * (size / 8)) = byteOf pattern 0 + 1 :=
    if_neg (Nat.lt_irrefl _)
  rw [hpool, Nat.mul_mod_right] at hbyte
  exact absurd hbyte (by simp)

/--
`flash_fill` and the FILL chunks of a sparse image write the pattern over the
whole extent exactly when a `UINTN` has 4 bytes, or nothing is filled.
-/
theorem fill_repeats_iff {arch : Arch} {pattern size : Nat} (hsize : size % 4 = 0) :
    (FillsPattern arch pattern size ∧ ChunksFillPattern arch pattern size) <->
      (arch = Arch.ia32 ∨ size = 0) := by
  constructor
  · intro h
    cases arch with
    | ia32 => exact Or.inl rfl
    | x64 =>
        rcases Nat.eq_zero_or_pos size with hzero | hpos
        · exact Or.inr hzero
        · exact absurd h.1 (not_fillsPattern_of_x64 hsize hpos)
  · intro h
    have hfills : FillsPattern arch pattern size := by
      apply fillsPattern_of_repeats
      intro pool
      rcases h with rfl | rfl
      · exact repeats_fillBuffer_of_ia32 pattern hsize pool
      · intro i hi
        omega
    exact ⟨hfills, hfills.chunks⟩

theorem fill_repeats_iff_of_ia32_word :
    FillsPattern Arch.ia32 0xdeadbeef 4 ∧ ChunksFillPattern Arch.ia32 0xdeadbeef 4 :=
  (fill_repeats_iff (by decide)).mpr (Or.inl rfl)

/-- The second word of an 8-byte fill comes from the pool. -/
theorem fill_half_from_pool :
    (exists events write status,
      (flashFill (poolOf Arch.x64 0x55) 0xdeadbeef 8 byteDisk).2.log =
        byteDisk.log ++ events ∧
      FlashEvent.writeDisk write status ∈ events ∧
      (List.range 8).map write.data = [0xef, 0xbe, 0xad, 0xde, 0x55, 0x55, 0x55, 0x55]) ∧
    ¬ FillsPattern Arch.x64 0xdeadbeef 8 := by
  have hmem : forall (x y z : FlashEvent), y ∈ [x, y, z] := by simp
  exact ⟨⟨_, _, _, rfl, hmem _ _ _, by decide⟩, not_fillsPattern_of_x64 (by decide) (by decide)⟩

end Flash
end BootableUefi
