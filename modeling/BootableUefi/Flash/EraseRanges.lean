import BootableUefi.Flash.Erase

/-!
# The ranges that are erased

Both fills tile their ends of the extent.  What is left between them is a whole
number of erase groups, but it may be none, and the commands take 32-bit
addresses: these are the two ways in which the commands miss the rest.
-/

namespace BootableUefi
namespace Flash

open Firmware Foundation

def fillRanges (events : List EraseEvent) : List Range :=
  events.filterMap fun event =>
    match event with
    | EraseEvent.writeBlocks lba size _ => some { first := lba, last := lba + size - 1 }
    | _ => none

def commandArguments (command : EraseCommand) (events : List EraseEvent) : List Nat :=
  events.filterMap fun event =>
    match event with
    | EraseEvent.sendCommand sent argument _ => if sent = command then some argument else none
    | _ => none

/-- The ranges of the secure erases, from the group start to the group end received. -/
def secureRanges (events : List EraseEvent) : List Range :=
  List.zipWith Range.mk (commandArguments EraseCommand.eraseGroupStart events)
    (commandArguments EraseCommand.eraseGroupEnd events)

def erasedRanges (events : List EraseEvent) : List Range :=
  fillRanges events ++ secureRanges events

@[simp] theorem fillRanges_append (xs ys : List EraseEvent) :
    fillRanges (xs ++ ys) = fillRanges xs ++ fillRanges ys := by
  simp [fillRanges]

@[simp] theorem commandArguments_append (command : EraseCommand) (xs ys : List EraseEvent) :
    commandArguments command (xs ++ ys) =
      commandArguments command xs ++ commandArguments command ys := by
  simp [commandArguments]

/-- Between the states the blocks of the interval were filled, and nothing else was done. -/
def FilledBetween (s t : EraseState) (start stop : Nat) : Prop :=
  exists events : List EraseEvent, t.log = s.log ++ events ∧
    (forall command, commandArguments command events = []) ∧
    Tiles (fillRanges events) start stop

section Fill

variable {env : EraseEnv} {stop : Nat}

theorem filledBetween_past {lba : Nat} (h : stop < lba) (s : EraseState) :
    FilledBetween s s (min lba (stop + 1)) (stop + 1) := by
  refine ⟨[], by simp, fun _ => rfl, ?_⟩
  rw [Nat.min_eq_right h]
  exact Tiles.empty (stop + 1)

theorem FilledBetween.batch {s t : EraseState} {lba size bufferSize : Nat}
    (hle : lba ≤ stop) (hsize : lba + size = min (lba + nBlock) (stop + 1))
    (h : FilledBetween
      { s with
        writes := s.writes + 1
        log := s.log ++ [EraseEvent.writeBlocks lba size bufferSize] } t
      (min (lba + nBlock) (stop + 1)) (stop + 1)) :
    FilledBetween s t (min lba (stop + 1)) (stop + 1) := by
  rcases h with ⟨events, hlog, hcommands, htiles⟩
  have hnext : lba < min (lba + nBlock) (stop + 1) := by
    unfold nBlock
    omega
  refine ⟨EraseEvent.writeBlocks lba size bufferSize :: events, by simp [hlog], ?_, ?_⟩
  · intro command
    exact hcommands command
  · have hsingle := Tiles.single hnext
    rw [← hsize] at hsingle htiles
    rw [Nat.min_eq_left (by omega)]
    exact Tiles.append hsingle htiles (by omega)

/-- Each iteration fills up to the next batch or to the end of the extent. -/
theorem fillZeroLoop_success (hstop : stop + nBlock < 2 ^ 64) {bound lba : Nat}
    {s t : EraseState} (hlba : lba ≤ stop + nBlock)
    (h : fillZeroLoop env stop bound lba s = some (EfiStatus.success, t)) :
    FilledBetween s t (min lba (stop + 1)) (stop + 1) := by
  induction bound generalizing lba s with
  | zero =>
      unfold fillZeroLoop at h
      split at h
      · rename_i hpast
        cases h
        exact filledBetween_past hpast t
      · cases h
  | succ bound ih =>
      unfold fillZeroLoop at h
      split at h
      · rename_i hpast
        cases h
        exact filledBetween_past hpast t
      · rename_i hmore
        have hle := Nat.le_of_not_lt hmore
        have hblock : nBlock = 4096 := rfl
        have hnext : u64 (lba + nBlock) = lba + nBlock := u64_of_lt (by omega)
        have hend : u64 (stop + 1) = stop + 1 := u64_of_lt (by omega)
        have hsub : u64 (sub64 stop lba + 1) = stop - lba + 1 := by
          rw [sub64_of_le hle (by omega)]
          exact u64_of_lt (by omega)
        dsimp only at h
        rw [hnext, hend, hsub] at h
        split at h
        · rename_i herror
          simp only [Option.some.injEq, Prod.mk.injEq] at h
          rw [h.1] at herror
          cases herror
        · refine FilledBetween.batch hle ?_ (ih (by omega) h)
          split <;> omega

theorem fillZeroLoop_isSome (hstop : stop + nBlock < 2 ^ 64) (bound : Nat) {lba : Nat}
    (hbound : stop < lba + bound * nBlock) (s : EraseState) :
    (fillZeroLoop env stop bound lba s).isSome = true := by
  induction bound generalizing lba s with
  | zero =>
      unfold fillZeroLoop
      rw [if_pos (by omega)]
      rfl
  | succ bound ih =>
      unfold fillZeroLoop
      dsimp only
      split
      · rfl
      · split
        · rfl
        · rename_i hmore _
          have hnext : u64 (lba + nBlock) = lba + nBlock := u64_of_lt (by omega)
          rw [hnext]
          apply ih
          rw [Nat.add_mul] at hbound
          omega

theorem fillZero_isSome {start : Nat} (hstop : stop + nBlock < 2 ^ 64) (s : EraseState) :
    (fillZero env start stop s).isSome = true := by
  unfold fillZero
  dsimp only
  split
  · apply fillZeroLoop_isSome hstop
    have hdiv := Nat.div_add_mod (stop - start) nBlock
    have hmod := Nat.mod_lt (stop - start) (show 0 < nBlock by decide)
    rw [Nat.add_mul, Nat.mul_comm]
    omega
  · rfl

theorem fillZero_success {start : Nat} (hle : start ≤ stop) (hstop : stop + nBlock < 2 ^ 64)
    {s t : EraseState} (h : fillZero env start stop s = some (EfiStatus.success, t)) :
    FilledBetween s t start (stop + 1) := by
  unfold fillZero at h
  dsimp only at h
  split at h
  · rcases fillZeroLoop_success hstop (by omega) h with ⟨events, hlog, hcommands, htiles⟩
    rw [Nat.min_eq_left (by omega)] at htiles
    refine ⟨EraseEvent.allocateZeroPool (u32 (env.blockSize.toNat * nBlock)) :: events, ?_,
      hcommands, htiles⟩
    simp [hlog]
  · cases h

theorem FilledBetween.refl (s : EraseState) (start : Nat) : FilledBetween s s start start :=
  ⟨[], by simp, fun _ => rfl, Tiles.empty start⟩

theorem fillFront_success {group start first : Nat} (hgroup : 0 < group)
    (hextent : start + group ≤ stop + 1) (hstop : stop + nBlock < 2 ^ 64) {s t : EraseState}
    (h : fillFront env group start s = some (EfiStatus.success, first, t)) :
    first = alignUp group start ∧ FilledBetween s t start (alignUp group start) := by
  have hlt := Nat.mod_lt start hgroup
  have hblock : nBlock = 4096 := rfl
  unfold fillFront at h
  dsimp only at h
  split at h
  · rename_i hreminder
    have hup : alignUp group start = start + (group - start % group) := by
      simp [alignUp, hreminder]
    have hfit : u64 (start + (group - start % group)) = start + (group - start % group) :=
      u64_of_lt (by omega)
    have hfit' : u64 (start + (group - start % group) - 1) =
        start + (group - start % group) - 1 :=
      u64_of_lt (by omega)
    rw [hfit, hfit'] at h
    simp only [Option.map_eq_some_iff, Prod.mk.injEq, Prod.exists] at h
    rcases h with ⟨status, u, hfill, rfl, rfl, rfl⟩
    have hfilled := fillZero_success (by omega) (by omega) hfill
    rw [show start + (group - start % group) - 1 + 1 = alignUp group start by omega] at hfilled
    exact ⟨hup.symm, hfilled⟩
  · rename_i hreminder
    have hup : alignUp group start = start := by
      simp only [ne_eq, not_not] at hreminder
      simp [alignUp, hreminder]
    simp only [Option.some.injEq, Prod.mk.injEq] at h
    rcases h with ⟨_, rfl, rfl⟩
    rw [hup]
    exact ⟨rfl, FilledBetween.refl s start⟩

theorem fillBack_success {group last : Nat} (hgroup : 0 < group)
    (hextent : group ≤ stop + 1) (hstop : stop + nBlock < 2 ^ 64) {s t : EraseState}
    (h : fillBack env group stop s = some (EfiStatus.success, last, t)) :
    last = alignDown group (stop + 1) - 1 ∧
      FilledBetween s t (alignDown group (stop + 1)) (stop + 1) := by
  have hlt := Nat.mod_lt (stop + 1) hgroup
  have hblock : nBlock = 4096 := rfl
  have hend : u64 (stop + 1) = stop + 1 := u64_of_lt (by omega)
  unfold fillBack at h
  dsimp only at h
  rw [hend] at h
  unfold alignDown
  split at h
  · have hfirst : sub64 (stop + 1) ((stop + 1) % group) = stop + 1 - (stop + 1) % group :=
      sub64_of_le (by omega) (by omega)
    have hlast : sub64 stop ((stop + 1) % group) = stop - (stop + 1) % group :=
      sub64_of_le (by omega) (by omega)
    rw [hfirst, hlast] at h
    simp only [Option.map_eq_some_iff, Prod.mk.injEq, Prod.exists] at h
    rcases h with ⟨status, u, hfill, rfl, rfl, rfl⟩
    exact ⟨by omega, fillZero_success (by omega) hstop hfill⟩
  · rename_i hreminder
    simp only [ne_eq, not_not] at hreminder
    simp only [Option.some.injEq, Prod.mk.injEq] at h
    rcases h with ⟨_, rfl, rfl⟩
    rw [hreminder]
    exact ⟨rfl, FilledBetween.refl s (stop + 1)⟩

theorem secureErase_success {start last timeout : Nat} {s t : EraseState}
    (h : secureErase env start last timeout s = (EfiStatus.success, t)) :
    exists eraseTimeout : Nat, t.log = s.log ++
      [EraseEvent.sendCommand EraseCommand.eraseGroupStart (u32 start) (u32 sdioDfltTimeout),
        EraseEvent.sendCommand EraseCommand.eraseGroupEnd (u32 last) (u32 sdioDfltTimeout),
        EraseEvent.sendCommand EraseCommand.erase (u32 0x80000000) eraseTimeout] := by
  unfold secureErase sendCommand at h
  dsimp only at h
  split at h
  · rename_i herror
    rw [(Prod.mk.inj h).1] at herror
    cases herror
  · split at h
    · rename_i herror
      rw [(Prod.mk.inj h).1] at herror
      cases herror
    · rw [← (Prod.mk.inj h).2]
      exact ⟨_, by simp; rfl⟩

end Fill

/-!
# The whole extent
-/

def EraseEnv.eraseGroup (env : EraseEnv) : Nat :=
  1024 * env.extCsd.hcEraseGrpSize.toNat

/-- The secure erase commands are not available, or not worth it. -/
def UsesFallback (env : EraseEnv) (start stop : Nat) : Prop :=
  env.locateSdHostIo ≠ EfiStatus.success ∨ env.extCsdBuffer = false ∨
    env.sendExtCsd ≠ EfiStatus.success ∨ stop - start + 1 < env.eraseGroup

/-- The ranges a run erases are exactly the extent, and the secure ones are aligned. -/
structure ErasesExactly (env : EraseEnv) (start stop : Nat) (events : List EraseEvent) :
    Prop where
  tiles : Tiles (erasedRanges events) start (stop + 1)
  aligned : forall r, r ∈ secureRanges events ->
    env.eraseGroup ∣ r.first ∧ env.eraseGroup ∣ r.last + 1

/-- What a successful run does when it uses the secure erase commands. -/
structure SecurelyErased (env : EraseEnv) (start stop : Nat) (events : List EraseEvent) :
    Prop where
  fills : exists front back : List Range,
    fillRanges events = front ++ back ∧
    Tiles front start (alignUp env.eraseGroup start) ∧
    Tiles back (alignDown env.eraseGroup (stop + 1)) (stop + 1)
  secure : secureRanges events =
    [{ first := u32 (alignUp env.eraseGroup start),
       last := u32 (alignDown env.eraseGroup (stop + 1) - 1) }]

section Extent

variable {env : EraseEnv} {start stop : Nat} {t : EraseState}

theorem getMmcInfo_cases (env : EraseEnv) :
    (exists status, getMmcInfo env = Except.error status ∧
        (env.extCsdBuffer = false ∨ env.sendExtCsd ≠ EfiStatus.success)) ∨
      (getMmcInfo env = Except.ok (env.eraseGroup, 300 * env.extCsd.eraseTimeoutMult.toNat) ∧
        env.extCsdBuffer = true ∧ env.sendExtCsd = EfiStatus.success) := by
  unfold getMmcInfo
  split
  · rename_i hbuffer
    exact Or.inl ⟨_, rfl, Or.inl (by simpa using hbuffer)⟩
  · split
    · rename_i herror
      exact Or.inl ⟨_, rfl, Or.inr (efiError_eq_true_iff.mp herror)⟩
    · rename_i hbuffer hsend
      exact Or.inr ⟨rfl, by simpa using hbuffer, by simpa using hsend⟩

theorem SecurelyErased.of_log {u v : EraseState} {eraseTimeout : Nat}
    (hfront : FilledBetween EraseState.fresh u start (alignUp env.eraseGroup start))
    (hback : FilledBetween u v (alignDown env.eraseGroup (stop + 1)) (stop + 1))
    (hlog : t.log = v.log ++
      [EraseEvent.sendCommand EraseCommand.eraseGroupStart
          (u32 (alignUp env.eraseGroup start)) (u32 sdioDfltTimeout),
        EraseEvent.sendCommand EraseCommand.eraseGroupEnd
          (u32 (alignDown env.eraseGroup (stop + 1) - 1)) (u32 sdioDfltTimeout),
        EraseEvent.sendCommand EraseCommand.erase (u32 0x80000000) eraseTimeout]) :
    SecurelyErased env start stop t.log := by
  rcases hfront with ⟨front, hu, hfrontCommands, hfrontTiles⟩
  rcases hback with ⟨back, hv, hbackCommands, hbackTiles⟩
  have hfresh : EraseState.fresh.log = [] := rfl
  rw [hlog, hv, hu, hfresh, List.nil_append]
  constructor
  · refine ⟨fillRanges front, fillRanges back, ?_, hfrontTiles, hbackTiles⟩
    rw [fillRanges_append, fillRanges_append]
    exact List.append_nil _
  · unfold secureRanges
    simp only [commandArguments_append, hfrontCommands, hbackCommands, List.nil_append]
    rfl

theorem eraseBlocks_success (hle : start ≤ stop) (hstop : stop + nBlock < 2 ^ 64)
    (hgroup : 0 < env.extCsd.hcEraseGrpSize.toNat)
    (h : eraseBlocks env start stop EraseState.fresh =
      some (FlashEnd.returned EfiStatus.success, t)) :
    (UsesFallback env start stop ∧ FilledBetween EraseState.fresh t start (stop + 1)) ∨
      (¬ UsesFallback env start stop ∧ SecurelyErased env start stop t.log) := by
  have hblock : nBlock = 4096 := rfl
  have hpositive : 0 < env.eraseGroup := by
    unfold EraseEnv.eraseGroup
    omega
  have hsize : u64 (sub64 stop start + 1) = stop - start + 1 := by
    rw [sub64_of_le hle (by omega)]
    exact u64_of_lt (by omega)
  rcases eraseBlocks_cases h with ⟨hwhy, hfill⟩ |
    ⟨group, timeout, first, last, u, v, hlocate, hinfo, hlarge, hfront, hback, herase⟩
  · refine Or.inl ⟨?_, fillZero_success hle hstop hfill⟩
    rcases getMmcInfo_cases env with ⟨status, hmissing, hreason⟩ | ⟨hinfo, -, -⟩
    · exact Or.inr (hreason.imp_right Or.inl)
    · rw [hinfo, hsize] at hwhy
      rcases hwhy with hlocate | ⟨status, hmissing⟩ | ⟨group, timeout, hgroup', hsmall⟩
      · exact Or.inl (efiError_eq_true_iff.mp hlocate)
      · cases hmissing
      · cases hgroup'
        exact Or.inr (Or.inr (Or.inr hsmall))
  · right
    rw [hsize] at hlarge
    rcases getMmcInfo_cases env with ⟨status, hmissing, -⟩ | ⟨hinfo', hbuffer, hsend⟩
    · rw [hinfo] at hmissing
      cases hmissing
    · rw [hinfo] at hinfo'
      cases hinfo'
      constructor
      · intro hcase
        rcases hcase with hmissing | hmissing | hmissing | hsmall
        · exact hmissing (efiError_eq_false_iff.mp hlocate)
        · rw [hbuffer] at hmissing
          cases hmissing
        · exact hmissing hsend
        · exact absurd hlarge (Nat.not_le.mpr hsmall)
      · rcases fillFront_success hpositive (by omega) hstop hfront with ⟨rfl, hfilled⟩
        rcases fillBack_success hpositive (by omega) hstop hback with ⟨rfl, hrest⟩
        rcases secureErase_success herase with ⟨_, hlog⟩
        exact SecurelyErased.of_log hfilled hrest hlog

theorem eraseBlocks_isSome (hle : start ≤ stop) (hstop : stop + nBlock < 2 ^ 64)
    (s : EraseState) : (eraseBlocks env start stop s).isSome = true := by
  have hblock : nBlock = 4096 := rfl
  have hsize : u64 (sub64 stop start + 1) = stop - start + 1 := by
    rw [sub64_of_le hle (by omega)]
    exact u64_of_lt (by omega)
  unfold eraseBlocks
  dsimp only
  rw [hsize]
  split
  · rw [Option.isSome_map]
    exact fillZero_isSome hstop s
  · split
    · rw [Option.isSome_map]
      exact fillZero_isSome hstop s
    · rename_i group timeout _
      split
      · rw [Option.isSome_map]
        exact fillZero_isSome hstop s
      · rename_i hlarge
        split
        · rfl
        · rename_i hpositive
          have hfront : (fillFront env group start s).isSome = true := by
            have hlt := Nat.mod_lt start (Nat.pos_of_ne_zero hpositive)
            have hfit : u64 (start + (group - start % group) - 1) =
                start + (group - start % group) - 1 :=
              u64_of_lt (by omega)
            unfold fillFront
            dsimp only
            split
            · rw [Option.isSome_map, hfit]
              exact fillZero_isSome (by omega) s
            · rfl
          rcases Option.isSome_iff_exists.mp hfront with ⟨⟨status, first, u⟩, heq⟩
          rw [heq]
          dsimp only
          split
          · rfl
          · have hback : (fillBack env group stop u).isSome = true := by
              unfold fillBack
              dsimp only
              split
              · rw [Option.isSome_map]
                exact fillZero_isSome hstop u
              · rfl
            rcases Option.isSome_iff_exists.mp hback with ⟨⟨status, last, v⟩, heq⟩
            rw [heq]
            dsimp only
            split <;> rfl

theorem FilledBetween.erasesExactly
    (h : FilledBetween EraseState.fresh t start (stop + 1)) :
    ErasesExactly env start stop t.log := by
  rcases h with ⟨events, hlog, hcommands, htiles⟩
  have hfresh : EraseState.fresh.log = [] := rfl
  have hsecure : secureRanges events = [] := by
    simp [secureRanges, hcommands]
  rw [hlog, hfresh, List.nil_append]
  constructor
  · rw [erasedRanges, hsecure, List.append_nil]
    exact htiles
  · intro r hr
    rw [hsecure] at hr
    cases hr

end Extent

/--
A successful erase covers the extent exactly if and only if it falls back to
filling, or there is a whole erase group between the fills and it ends within
the 32-bit addresses of the commands.
-/
theorem eraseBlocks_erasesExactly_iff {env : EraseEnv} {start stop : Nat} {t : EraseState}
    (hle : start ≤ stop) (hstop : stop + nBlock < 2 ^ 64)
    (hgroup : 0 < env.extCsd.hcEraseGrpSize.toNat)
    (h : eraseBlocks env start stop EraseState.fresh =
      some (FlashEnd.returned EfiStatus.success, t)) :
    ErasesExactly env start stop t.log <->
      UsesFallback env start stop ∨
        (alignUp env.eraseGroup start < alignDown env.eraseGroup (stop + 1) ∧
          alignDown env.eraseGroup (stop + 1) ≤ 2 ^ 32) := by
  have hpositive : 0 < env.eraseGroup := by
    unfold EraseEnv.eraseGroup
    omega
  rcases eraseBlocks_success hle hstop hgroup h with ⟨hfallback, hfilled⟩ | ⟨hnot, hsecured⟩
  · exact iff_of_true hfilled.erasesExactly (Or.inl hfallback)
  · rcases hsecured with ⟨⟨front, back, hfills, hfront, hback⟩, hsecure⟩
    have hlarge : env.eraseGroup ≤ stop - start + 1 := by
      by_contra hsmall
      exact hnot (Or.inr (Or.inr (Or.inr (Nat.lt_of_not_le hsmall))))
    have horder : alignUp env.eraseGroup start ≤ alignDown env.eraseGroup (stop + 1) :=
      alignUp_le_alignDown hpositive (by omega)
    have hlow := le_alignUp env.eraseGroup start
    have hhigh := alignDown_le env.eraseGroup (stop + 1)
    have hup := alignUp_dvd hpositive start
    have hdown := alignDown_dvd env.eraseGroup (stop + 1)
    generalize alignUp env.eraseGroup start = first at *
    generalize alignDown env.eraseGroup (stop + 1) = finish at *
    have hranges : erasedRanges t.log =
        front ++ back ++ [{ first := u32 first, last := u32 (finish - 1) }] := by
      rw [erasedRanges, hfills, hsecure]
    constructor
    · intro hexact
      have htiles := hexact.tiles
      rw [hranges] at htiles
      have hsome : first < finish := by
        by_contra hnone
        have hmeet : finish = first := by omega
        rw [hmeet] at hback
        exact (Tiles.append hfront hback (by omega)).not_cons_of_tiles _ htiles
      refine Or.inr ⟨hsome, ?_⟩
      by_contra hfar
      -- The last block of the groups is beyond the addresses of the commands.
      rcases (htiles.cover (finish - 1)).mpr (by omega) with ⟨r, hr, hfirst, hlast⟩
      rcases List.mem_append.mp hr with hfill | hcommand
      · rcases List.mem_append.mp hfill with hleft | hright
        · have hbounds := hfront.bounds hleft
          omega
        · have hbounds := hback.bounds hright
          omega
      · cases List.mem_singleton.mp hcommand
        have hlt := u32_lt (finish - 1)
        dsimp only at hlast
        omega
    · intro hcase
      rcases hcase with hfallback | ⟨hsome, hnear⟩
      · exact absurd hfallback hnot
      · have hfirst : u32 first = first := u32_of_lt (by omega)
        have hlast : u32 (finish - 1) = finish - 1 := u32_of_lt (by omega)
        rw [hfirst, hlast] at hranges hsecure
        constructor
        · have hmiddle := Tiles.append hfront (Tiles.single hsome) ⟨hlow, horder⟩
          have hall := Tiles.append hmiddle hback (by omega)
          rw [hranges]
          refine hall.of_perm ?_
          rw [List.append_assoc, List.append_assoc]
          exact (List.perm_append_comm).append_left front
        · intro r hr
          rw [hsecure] at hr
          cases List.mem_singleton.mp hr
          dsimp only
          rw [Nat.sub_add_cancel (by omega)]
          exact ⟨hup, hdown⟩

def smallCard : EraseEnv where
  blockSize := 512
  locateSdHostIo := EfiStatus.success
  extCsdBuffer := true
  sendExtCsd := EfiStatus.success
  extCsd := { hcEraseGrpSize := 1, eraseTimeoutMult := 1 }
  allocateZeroPool := fun _ => true
  writeBlocks := fun _ => EfiStatus.success
  sendCommand := fun _ => EfiStatus.success

theorem eraseBlocks_erasesExactly_iff_of_three_groups :
    exists t : EraseState,
      eraseBlocks smallCard 512 3583 EraseState.fresh =
        some (FlashEnd.returned EfiStatus.success, t) ∧
      secureRanges t.log = [{ first := 1024, last := 3071 }] ∧
      ErasesExactly smallCard 512 3583 t.log := by
  refine ⟨_, rfl, rfl, ?_⟩
  exact (eraseBlocks_erasesExactly_iff (by decide) (by decide) (by decide) rfl).mpr
    (Or.inr (by decide))

/-- What is asked of the card for an extent of one group's size across a boundary. -/
def backwardsErase : EraseState where
  allocations := 2
  writes := 2
  commands := 3
  log := [EraseEvent.allocateZeroPool 2097152, EraseEvent.writeBlocks 512 512 262144,
    EraseEvent.allocateZeroPool 2097152, EraseEvent.writeBlocks 1024 512 262144,
    EraseEvent.sendCommand EraseCommand.eraseGroupStart 1024 3000,
    EraseEvent.sendCommand EraseCommand.eraseGroupEnd 1023 3000,
    EraseEvent.sendCommand EraseCommand.erase 0x80000000 4294966996]

/-- Without a whole group inside, the commands name the end before the start. -/
theorem eraseBlocks_without_group :
    eraseBlocks smallCard 512 1535 EraseState.fresh =
        some (FlashEnd.returned EfiStatus.success, backwardsErase) ∧
      ¬ ErasesExactly smallCard 512 1535 backwardsErase.log := by
  refine ⟨by decide +kernel, ?_⟩
  intro hexact
  have hmem : { first := 1024, last := 1023 } ∈ erasedRanges backwardsErase.log := by decide
  exact absurd (hexact.tiles.nonempty _ hmem) (by decide)

end Flash
end BootableUefi
