import BootableUefi.Flash.EraseRanges

/-!
# Filling with zeros

`fill_zero` on its own, for every outcome of its writes: how far it comes, and
what it hands to each `WriteBlocks`.
-/

namespace BootableUefi
namespace Flash

open Firmware Foundation

/-- A `WriteBlocks` of whole blocks that stays inside the zeros that were allocated. -/
structure ZeroWrite (blockSize lba size bufferSize : Nat) : Prop where
  whole : bufferSize = blockSize * size
  positive : 0 < bufferSize
  allocated : bufferSize ≤ blockSize * nBlock

/-- The writes run on from `first`, not beyond the extent, and to its end on success. -/
structure ZeroFill (blockSize first stop : Nat) (ret : EfiStatus) (writes : List EraseEvent) :
    Prop where
  each : forall event, event ∈ writes -> exists lba size bufferSize,
    event = EraseEvent.writeBlocks lba size bufferSize ∧
      ZeroWrite blockSize lba size bufferSize
  row : exists last, Row first (fillRanges writes) last ∧ last ≤ stop + 1 ∧
    (ret = EfiStatus.success -> last = stop + 1)

theorem zeroFill_past (blockSize stop : Nat) :
    ZeroFill blockSize (stop + 1) stop EfiStatus.success [] where
  each := fun _ hevent => absurd hevent List.not_mem_nil
  row := ⟨stop + 1, rfl, Nat.le_refl _, fun _ => rfl⟩

section Batch

variable {blockSize lba size stop : Nat} {ret : EfiStatus}

theorem zeroWrite_batch (hblock : 0 < blockSize) (hsize : 0 < size) (hbatch : size ≤ nBlock) :
    ZeroWrite blockSize lba size (blockSize * size) where
  whole := rfl
  positive := Nat.mul_pos hblock hsize
  allocated := Nat.mul_le_mul_left blockSize hbatch

theorem zeroFill_failed (hwrite : ZeroWrite blockSize lba size (blockSize * size))
    (hsize : 0 < size) (hend : lba + size ≤ stop + 1) (hret : efiError ret = true) :
    ZeroFill blockSize lba stop ret
      [EraseEvent.writeBlocks lba size (blockSize * size)] where
  each := by
    intro event hevent
    cases List.mem_singleton.mp hevent
    exact ⟨lba, size, blockSize * size, rfl, hwrite⟩
  row := by
    have hrow : Row lba (fillRanges [EraseEvent.writeBlocks lba size (blockSize * size)])
        (lba + size) := by
      refine ⟨rfl, ?_, ?_⟩
      · change lba ≤ lba + size - 1
        omega
      · change lba + size - 1 + 1 = lba + size
        omega
    refine ⟨lba + size, hrow, hend, ?_⟩
    intro hsuccess
    rw [hsuccess] at hret
    cases hret

theorem ZeroFill.batch {writes : List EraseEvent}
    (hwrite : ZeroWrite blockSize lba size (blockSize * size)) (hsize : 0 < size)
    (h : ZeroFill blockSize (lba + size) stop ret writes) :
    ZeroFill blockSize lba stop ret
      (EraseEvent.writeBlocks lba size (blockSize * size) :: writes) where
  each := by
    intro event hevent
    rcases List.mem_cons.mp hevent with rfl | hlater
    · exact ⟨lba, size, blockSize * size, rfl, hwrite⟩
    · exact h.each event hlater
  row := by
    rcases h.row with ⟨last, hrow, hend, hsuccess⟩
    refine ⟨last, ⟨rfl, ?_, ?_⟩, hend, hsuccess⟩
    · change lba ≤ lba + size - 1
      omega
    · change Row (lba + size - 1 + 1) (fillRanges writes) last
      rwa [Nat.sub_add_cancel (by omega)]

end Batch

section Loop

variable {env : EraseEnv} {stop : Nat}

theorem batch_size {lba : Nat} (hle : lba ≤ stop) (hstop : stop + nBlock < 2 ^ 64) :
    (if u64 (lba + nBlock) > u64 (stop + 1) then u64 (sub64 stop lba + 1) else nBlock) =
      min nBlock (stop + 1 - lba) := by
  have hnBlock : nBlock = 4096 := rfl
  have hnext : u64 (lba + nBlock) = lba + nBlock := u64_of_lt (by omega)
  have hend : u64 (stop + 1) = stop + 1 := u64_of_lt (by omega)
  have hsub : u64 (sub64 stop lba + 1) = stop - lba + 1 := by
    rw [sub64_of_le hle (by omega)]
    exact u64_of_lt (by omega)
  rw [hnext, hend, hsub]
  split <;> omega

theorem batch_bytes (hblock : env.blockSize.toNat < 2 ^ 20) {size : Nat} (hsize : size ≤ nBlock) :
    u64 (env.blockSize.toNat * size) = env.blockSize.toNat * size := by
  have hbytes : env.blockSize.toNat * size ≤ 2 ^ 20 * 4096 :=
    Nat.mul_le_mul (Nat.le_of_lt hblock) hsize
  exact u64_of_lt (by omega)

/-- What the loop has done when it ends, wherever it is taken up. -/
theorem fillZeroLoop_ends (hstop : stop + nBlock < 2 ^ 64) (hpos : 0 < env.blockSize.toNat)
    (hblock : env.blockSize.toNat < 2 ^ 20) {bound lba : Nat} {s t : EraseState}
    {ret : EfiStatus} (h : fillZeroLoop env stop bound lba s = some (ret, t)) :
    exists writes : List EraseEvent, t.log = s.log ++ writes ∧
      t.writes = s.writes + writes.length ∧
      ZeroFill env.blockSize.toNat (min lba (stop + 1)) stop ret writes := by
  induction bound generalizing lba s with
  | zero =>
      unfold fillZeroLoop at h
      split at h
      · rename_i hpast
        cases h
        rw [Nat.min_eq_right hpast]
        exact ⟨[], (List.append_nil _).symm, rfl, zeroFill_past _ stop⟩
      · cases h
  | succ bound ih =>
      unfold fillZeroLoop at h
      split at h
      · rename_i hpast
        cases h
        rw [Nat.min_eq_right hpast]
        exact ⟨[], (List.append_nil _).symm, rfl, zeroFill_past _ stop⟩
      · rename_i hmore
        have hle : lba ≤ stop := Nat.le_of_not_lt hmore
        have hnBlock : nBlock = 4096 := rfl
        dsimp only at h
        rw [batch_size hle hstop] at h
        have hsize : 0 < min nBlock (stop + 1 - lba) := by omega
        have hbatch : min nBlock (stop + 1 - lba) ≤ nBlock := Nat.min_le_left _ _
        have hwrite : ZeroWrite env.blockSize.toNat lba (min nBlock (stop + 1 - lba))
            (env.blockSize.toNat * min nBlock (stop + 1 - lba)) :=
          zeroWrite_batch hpos hsize hbatch
        rw [batch_bytes hblock hbatch, u64_of_lt (show lba + nBlock < 2 ^ 64 by omega)] at h
        rw [Nat.min_eq_left (by omega)]
        split at h
        · rename_i herror
          cases h
          exact ⟨_, rfl, rfl, zeroFill_failed hwrite hsize (by omega) herror⟩
        · rcases ih h with ⟨writes, hlog, hcount, hfill⟩
          rw [show min (lba + nBlock) (stop + 1) = lba + min nBlock (stop + 1 - lba) by omega]
            at hfill
          refine ⟨_ :: writes, ?_, ?_, hfill.batch hwrite hsize⟩
          · rw [hlog, List.append_assoc]
            rfl
          · rw [hcount, List.length_cons, Nat.add_comm writes.length, ← Nat.add_assoc]

/-- The loop returns the error of its last write, if that has one. -/
theorem fillZeroLoop_success_iff {bound lba : Nat} {s t : EraseState} {ret : EfiStatus}
    (h : fillZeroLoop env stop bound lba s = some (ret, t)) :
    ret = EfiStatus.success <->
      forall n, s.writes ≤ n -> n < t.writes -> efiError (env.writeBlocks n) = false := by
  induction bound generalizing lba s with
  | zero =>
      unfold fillZeroLoop at h
      split at h
      · cases h
        exact iff_of_true rfl fun n hfirst hlast => absurd hlast (Nat.not_lt_of_le hfirst)
      · cases h
  | succ bound ih =>
      unfold fillZeroLoop at h
      split at h
      · cases h
        exact iff_of_true rfl fun n hfirst hlast => absurd hlast (Nat.not_lt_of_le hfirst)
      · dsimp only at h
        split at h
        · rename_i herror
          cases h
          refine iff_of_false ?_ ?_
          · intro hsuccess
            rw [hsuccess] at herror
            cases herror
          · intro hnone
            rw [hnone s.writes (Nat.le_refl _) (Nat.lt_succ_self _)] at herror
            cases herror
        · rename_i hwritten
          rw [ih h]
          constructor
          · intro hlater n hfirst hlast
            rcases Nat.eq_or_lt_of_le hfirst with rfl | hafter
            · exact Bool.eq_false_of_not_eq_true hwritten
            · exact hlater n hafter hlast
          · intro hall n hafter hlast
            exact hall n (Nat.le_of_succ_le hafter) hlast

end Loop

/--
How a fill ends: without its zeros, or after writes of them.  It is a success if
the zeros are there and no write has failed.
-/
def FillsZero (env : EraseEnv) (start stop : Nat) (s : EraseState) : Prop :=
  exists ret t writes, fillZero env start stop s = some (ret, t) ∧
    t.log = s.log ++
      EraseEvent.allocateZeroPool (env.blockSize.toNat * nBlock) :: writes ∧
    t.writes = s.writes + writes.length ∧
    ZeroFill env.blockSize.toNat start stop ret writes ∧
    (ret = EfiStatus.success <-> env.allocateZeroPool s.allocations = true ∧
      forall n, s.writes ≤ n -> n < t.writes -> efiError (env.writeBlocks n) = false) ∧
    (ret = EfiStatus.success -> Tiles (fillRanges writes) start (stop + 1))

/--
The fill comes to an end, its writes follow on one another inside the extent, and
after a success they have covered it, each block once.
-/
theorem fillZero_fills {env : EraseEnv} {start stop : Nat} (hle : start ≤ stop)
    (hstop : stop + nBlock ≤ 2 ^ 64 - 1) (hpos : 1 ≤ env.blockSize.toNat)
    (hblock : env.blockSize.toNat ≤ 2 ^ 20 - 1) (s : EraseState) :
    FillsZero env start stop s := by
  have hroom : stop + nBlock < 2 ^ 64 := by omega
  have hbytes : u32 (env.blockSize.toNat * nBlock) = env.blockSize.toNat * nBlock := by
    unfold nBlock
    exact u32_of_lt (by omega)
  have hsome : (fillZero env start stop s).isSome = true := fillZero_isSome hroom s
  rcases Option.isSome_iff_exists.mp hsome with ⟨⟨ret, t⟩, hrun⟩
  have hends := hrun
  unfold fillZero at hends
  dsimp only at hends
  rw [hbytes] at hends
  split at hends
  · rename_i hpool
    rcases fillZeroLoop_ends hroom hpos (by omega) hends with ⟨writes, hlog, hcount, hfill⟩
    rw [Nat.min_eq_left (by omega)] at hfill
    refine ⟨ret, t, writes, hrun, ?_, hcount, hfill, ?_, ?_⟩
    · rw [hlog, List.append_assoc]
      rfl
    · rw [fillZeroLoop_success_iff hends]
      exact (and_iff_right hpool).symm
    · intro hsuccess
      rcases hfill.row with ⟨last, hrow, -, hlast⟩
      rw [hlast hsuccess] at hrow
      exact hrow.tiles
  · rename_i hpool
    cases hends
    have hrefused : EfiStatus.outOfResources = EfiStatus.success <->
        env.allocateZeroPool s.allocations = true ∧
          forall n, s.writes ≤ n -> n < s.writes -> efiError (env.writeBlocks n) = false :=
      iff_of_false (by decide) fun h => hpool h.1
    refine ⟨_, _, [], hrun, rfl, rfl, ⟨?_, ?_⟩, hrefused, fun h => nomatch h⟩
    · exact fun _ hevent => absurd hevent List.not_mem_nil
    · exact ⟨start, rfl, by omega, fun h => nomatch h⟩

theorem fillZero_fills_of_card : FillsZero smallCard 0 8192 EraseState.fresh :=
  fillZero_fills (by decide) (by decide) (by decide) (by decide) EraseState.fresh

end Flash
end BootableUefi
