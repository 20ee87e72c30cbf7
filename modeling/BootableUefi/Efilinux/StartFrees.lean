import BootableUefi.BootImage.OsVerification
import BootableUefi.Efilinux.Starts

/-!
# What a start frees

`android_image_start_buffer` frees the image last, whenever it returns, and the
command line on the way if it gets that far.  Its callers free the image again.
-/

namespace BootableUefi
namespace Efilinux

open Firmware Foundation
open BootImage (PoolBlock LoadEvent LoadEnd LoadState LoadEnv LoadStep PartitionEnv BootimgHooks
  aospHeader startBuffer startVerified startPartition setupCommandLine setupRamdisk
  handoverKernel outBootimage outCmdline commandLineFrees startVerified_concludes bytesAt
  bootMagic setupHdr)

def MainEvent.memoryEvent : MainEvent -> Option (BlockEvent Block)
  | memory event => some event
  | _ => none

def memoryEvents (events : List MainEvent) : List (BlockEvent Block) :=
  events.filterMap MainEvent.memoryEvent

@[simp] theorem memoryEvents_nil : memoryEvents [] = [] := rfl

@[simp] theorem memoryEvents_append (xs ys : List MainEvent) :
    memoryEvents (xs ++ ys) = memoryEvents xs ++ memoryEvents ys :=
  List.filterMap_append

@[simp] theorem memoryEvents_useBlock (block : Block) (events : List MainEvent) :
    memoryEvents (useBlock block :: events) = BlockEvent.use block :: memoryEvents events :=
  rfl

@[simp] theorem memoryEvents_freeBlock (block : Block) (events : List MainEvent) :
    memoryEvents (freeBlock block :: events) = BlockEvent.free block :: memoryEvents events :=
  rfl

/-!
# The frees in a log
-/

def freedBlock : LoadEvent -> Option PoolBlock
  | LoadEvent.freePool block => some block
  | _ => none

def freesOf (log : List LoadEvent) : List PoolBlock :=
  log.filterMap freedBlock

theorem freesOf_append (xs ys : List LoadEvent) : freesOf (xs ++ ys) = freesOf xs ++ freesOf ys :=
  List.filterMap_append

theorem freesOf_map_freePool (blocks : List PoolBlock) :
    freesOf (blocks.map LoadEvent.freePool) = blocks := by
  induction blocks with
  | nil => rfl
  | cons block blocks ih => exact congrArg (List.cons block) ih

theorem freesOf_account (s : LoadState) : freesOf s.account = freesOf s.log := by
  unfold LoadState.account freesOf
  induction s.log with
  | nil => rfl
  | cons event log ih =>
      cases event <;>
        simp [List.filter_cons, List.filterMap_cons, LoadEvent.accounted, freedBlock, ih]

section Log

variable {start : Nat} {append : Block}

theorem free_mem_ofLoadEvent {event : LoadEvent} {block : Block} :
    BlockEvent.free block ∈ memoryEvents (ofLoadEvent start append event) <->
      exists freed, freedBlock event = some freed ∧ blockOf start append freed = block := by
  cases event with
  | freePool freed =>
      cases freed <;> simp [ofLoadEvent, freedBlock, blockOf, eq_comm]
  | _ => simp [ofLoadEvent, freedBlock, memoryEvents, MainEvent.memoryEvent, useBlock]

theorem block_of_mem_ofLoadEvent {event : LoadEvent} {e : BlockEvent Block}
    (h : e ∈ memoryEvents (ofLoadEvent start append event)) :
    e.block = blockOf start append PoolBlock.bootImage ∨
      exists freed, freedBlock event = some freed ∧ e.block = blockOf start append freed := by
  cases event with
  | freePool freed =>
      refine Or.inr ⟨freed, rfl, ?_⟩
      cases freed <;> simp [ofLoadEvent] at h
      · rw [h]
        rfl
      · rcases h with rfl | rfl <;> rfl
      · rcases h with rfl | rfl <;> rfl
      · rcases h with rfl | rfl <;> rfl
  | watchdog => cases h
  | beforeExit => cases h
  | beforeJump => cases h
  | _ =>
      rw [List.mem_singleton.mp h]
      exact Or.inl rfl

def startEvents (start : Nat) (append : Block) (log : List LoadEvent) :
    List (BlockEvent Block) :=
  memoryEvents (log.flatMap (ofLoadEvent start append))

theorem startEvents_cons (event : LoadEvent) (log : List LoadEvent) :
    startEvents start append (event :: log) =
      memoryEvents (ofLoadEvent start append event) ++ startEvents start append log := by
  simp [startEvents]

theorem startEvents_append (xs ys : List LoadEvent) :
    startEvents start append (xs ++ ys) =
      startEvents start append xs ++ startEvents start append ys := by
  simp [startEvents]

theorem free_mem_startEvents {log : List LoadEvent} {block : Block} :
    BlockEvent.free block ∈ startEvents start append log <->
      exists freed, freed ∈ freesOf log ∧ blockOf start append freed = block := by
  induction log with
  | nil => simp [startEvents, freesOf]
  | cons event log ih =>
      rw [startEvents_cons, List.mem_append, ih, free_mem_ofLoadEvent]
      cases hfreed : freedBlock event with
      | none => simp [freesOf, hfreed]
      | some freed => simp [freesOf, hfreed]

theorem block_of_mem_startEvents {log : List LoadEvent} {e : BlockEvent Block}
    (h : e ∈ startEvents start append log) :
    e.block = blockOf start append PoolBlock.bootImage ∨
      exists freed, freed ∈ freesOf log ∧ e.block = blockOf start append freed := by
  induction log with
  | nil => cases h
  | cons event log ih =>
      rw [startEvents_cons, List.mem_append] at h
      rcases h with hfirst | hrest
      · rcases block_of_mem_ofLoadEvent hfirst with himage | ⟨freed, hfreed, hblock⟩
        · exact Or.inl himage
        · refine Or.inr ⟨freed, ?_, hblock⟩
          simp [freesOf, hfreed]
      · rcases ih hrest with himage | ⟨freed, hfreed, hblock⟩
        · exact Or.inl himage
        · refine Or.inr ⟨freed, ?_, hblock⟩
          rw [freesOf, List.filterMap_cons]
          cases freedBlock event with
          | none => exact hfreed
          | some first => exact List.mem_cons_of_mem first hfreed

theorem disciplined_ofLoadEvent (event : LoadEvent) :
    Disciplined (memoryEvents (ofLoadEvent start append event)) := by
  cases event with
  | freePool freed => cases freed <;> simp [ofLoadEvent, Disciplined]
  | watchdog => exact disciplined_nil
  | beforeExit => exact disciplined_nil
  | beforeJump => exact disciplined_nil
  | _ => exact List.pairwise_singleton _ _

theorem disciplined_startEvents (hinj : Function.Injective (blockOf start append))
    {log : List LoadEvent} (hnodup : (freesOf log).Nodup)
    (himage : PoolBlock.bootImage ∉ freesOf log) :
    Disciplined (startEvents start append log) := by
  induction log with
  | nil => exact disciplined_nil
  | cons event log ih =>
      have hcons : freesOf (event :: log) = (freedBlock event).toList ++ freesOf log := by
        cases hfreed : freedBlock event <;> simp [freesOf, hfreed]
      rw [hcons] at hnodup himage
      rw [startEvents_cons, disciplined_append]
      refine ⟨disciplined_ofLoadEvent event, ?_, ?_⟩
      · exact ih (List.Nodup.of_append_right hnodup)
          fun h => himage (List.mem_append_right _ h)
      · intro e he hfree
        rcases free_mem_ofLoadEvent.mp hfree with ⟨freed, hfreed, hblock⟩
        rw [hfreed] at hnodup himage
        rcases block_of_mem_startEvents he with hbase | ⟨later, hlater, hsame⟩
        · rw [hbase] at hblock
          exact himage (by simp [← hinj hblock])
        · rw [hsame] at hblock
          have heq := hinj hblock
          rw [heq] at hnodup
          exact (List.nodup_cons.mp hnodup).1 hlater

end Log

theorem blockOf_injective_commandLine (start : Nat) :
    Function.Injective (blockOf start Block.commandLine) := by
  intro a b h
  cases a <;> cases b <;> first | rfl | cases h

theorem blockOf_inStart (start : Nat) (block : PoolBlock) :
    blockOf start (Block.inStart start PoolBlock.append) block = Block.inStart start block := by
  cases block <;> rfl

/-!
# Returning from a start
-/

/-- The log goes on with these frees, and ends with the one of the image. -/
def EndsFreeing (s : LoadState) (frees : List PoolBlock) (t : LoadState) : Prop :=
  exists log, t.log = log ++ [LoadEvent.freePool PoolBlock.bootImage] ∧
    freesOf log = freesOf s.log ++ frees

theorem endsFreeing_outBootimage {s t : LoadState} {frees : List PoolBlock}
    (h : freesOf t.log = freesOf s.log ++ frees) (ending : LoadEnd) :
    EndsFreeing s frees (outBootimage ending t).2 :=
  ⟨t.log, rfl, h⟩

theorem outCmdline_last (env : LoadEnv) (buf : Nat) (ending : LoadEnd) (s : LoadState) :
    exists log, (outCmdline env buf ending s).2.log =
      log ++ [LoadEvent.freePool PoolBlock.bootImage] := by
  unfold outCmdline
  dsimp only
  split
  · exact ⟨s.log, rfl⟩
  · exact ⟨_, rfl⟩

theorem startVerified_last {env : LoadEnv} {append : Option (List UInt8)}
    {hooks : Option BootimgHooks} {buf : Nat} {s : LoadState} {status : EfiStatus}
    (h : returnStatus (startVerified env append hooks buf s).1 = some status) :
    exists log, (startVerified env append hooks buf s).2.log =
      log ++ [LoadEvent.freePool PoolBlock.bootImage] := by
  have hstarting := BootImage.startVerified_starting env append hooks buf s
  generalize startVerified env append hooks buf s = result at h hstarting ⊢
  cases hstarting with
  | @noLine step failure t => exact ⟨t.log, rfl⟩
  | noRamdisk => exact outCmdline_last env buf _ _
  | noKernel => exact outCmdline_last env buf _ _
  | @leaves ending t u v _ _ _ hleaves =>
      cases ending with
      | failed step failure => exact absurd rfl (hleaves step failure)
      | divideError => cases h
      | jumped kernelStart bootAddr => cases h

theorem startVerified_endsFreeing {env : LoadEnv} {append : Option (List UInt8)}
    {hooks : Option BootimgHooks} {buf : Nat} {s : LoadState} {status : EfiStatus}
    (h : returnStatus (startVerified env append hooks buf s).1 = some status) :
    EndsFreeing s (commandLineFrees env append s.image)
      (startVerified env append hooks buf s).2 := by
  have hends := startVerified_concludes env append hooks buf s
  rcases startVerified_last h with ⟨log, hlog⟩
  generalize startVerified env append hooks buf s = result at h hends hlog ⊢
  refine ⟨log, hlog, ?_⟩
  rcases result with ⟨⟨step, failure⟩ | _ | ⟨kernelStart, bootAddr⟩, t⟩
  · have haccount := congrArg freesOf hends.account
    rw [freesOf_account, freesOf_append, freesOf_account, freesOf_map_freePool, hlog,
      freesOf_append, ← List.append_assoc] at haccount
    exact (List.append_inj' haccount rfl).1
  · cases h
  · cases h

def PassesChecks (env : LoadEnv) (image : Mem) : Prop :=
  BootImage.WellFormed image ∧
    env.checkSignature image ((aospHeader image).bootimageSize env.arch false)
      ((aospHeader image).bootimageSize env.arch false) (aospHeader image).sigSize =
        EfiStatus.success

theorem passesChecks_iff {env : LoadEnv} {image : Mem} :
    PassesChecks env image <->
      BootImage.WellFormed image ∧ env.verdict image = EfiStatus.success := by
  unfold PassesChecks LoadEnv.verdict
  rw [BootImage.bootimageSize_signed]

theorem startBuffer_endsFreeing {env : LoadEnv} {append : Option (List UInt8)}
    {hooks : Option BootimgHooks} {s : LoadState} {status : EfiStatus}
    (h : returnStatus (startBuffer env append hooks s).1 = some status) :
    (PassesChecks env s.image ∧ EndsFreeing s (commandLineFrees env append s.image)
      (startBuffer env append hooks s).2) ∨
    (¬ PassesChecks env s.image ∧ EndsFreeing s [] (startBuffer env append hooks s).2) := by
  have hnone : freesOf s.log = freesOf s.log ++ [] := (List.append_nil _).symm
  have hchecking := BootImage.startBuffer_checking env append hooks s
  generalize startBuffer env append hooks s = result at h hchecking ⊢
  cases hchecking with
  | corrupt _ hformed =>
      exact Or.inr ⟨fun hpass => hformed hpass.1, endsFreeing_outBootimage hnone _⟩
  | divided => cases h
  | refused _ _ hverdict =>
      refine Or.inr ⟨?_, endsFreeing_outBootimage ?_ _⟩
      · intro hpass
        exact hverdict (passesChecks_iff.mp hpass).2
      · rw [LoadState.emit, freesOf_append]
        rfl
  | verified hformed _ hverdict =>
      refine Or.inl ⟨passesChecks_iff.mpr ⟨hformed, hverdict⟩, ?_⟩
      rcases startVerified_endsFreeing h with ⟨log, hlog, hline⟩
      rw [LoadState.emit, freesOf_append] at hline
      exact ⟨log, hlog, hline.trans (by rw [List.append_assoc]; rfl)⟩

/-!
# The command line of a start
-/

theorem commandLineFrees_cases (env : LoadEnv) (append : Option (List UInt8)) (image : Mem) :
    commandLineFrees env append image ∈
      [[], [PoolBlock.fullCommandLine], [PoolBlock.append, PoolBlock.fullCommandLine],
        [PoolBlock.fullCommandLine, PoolBlock.append, PoolBlock.grownCommandLine]] := by
  unfold commandLineFrees
  cases env.commandLinePool with
  | none => simp
  | some block =>
      cases append with
      | none => simp
      | some extra =>
          dsimp only
          split
          · simp
          · cases env.grownCommandLinePool <;> simp

theorem commandLineFrees_distinct (env : LoadEnv) (append : Option (List UInt8)) (image : Mem) :
    (commandLineFrees env append image).Nodup ∧
      PoolBlock.bootImage ∉ commandLineFrees env append image := by
  have hall : forall frees, frees ∈
      [[], [PoolBlock.fullCommandLine], [PoolBlock.append, PoolBlock.fullCommandLine],
        [PoolBlock.fullCommandLine, PoolBlock.append, PoolBlock.grownCommandLine]] ->
      frees.Nodup ∧ PoolBlock.bootImage ∉ frees := by
    decide
  exact hall _ (commandLineFrees_cases env append image)

/-- The image passes its checks, and the line is freed once it has been appended. -/
def FreesAppend (env : LoadEnv) (append : Option (List UInt8)) (image : Mem) : Prop :=
  PassesChecks env image ∧ PoolBlock.append ∈ commandLineFrees env append image

theorem startEvents_of_endsFreeing {start : Nat} {line : Block} {s t : LoadState}
    {frees : List PoolBlock} (hinj : Function.Injective (blockOf start line))
    (hs : freesOf s.log = []) (h : EndsFreeing s frees t) (hnodup : frees.Nodup)
    (himage : PoolBlock.bootImage ∉ frees) :
    Disciplined (startEvents start line t.log) ∧
      BlockEvent.free (Block.inStart start PoolBlock.bootImage) ∈ startEvents start line t.log ∧
      (BlockEvent.free line ∈ startEvents start line t.log <-> PoolBlock.append ∈ frees) := by
  rcases h with ⟨log, hlog, hfrees⟩
  rw [hs, List.nil_append] at hfrees
  have hlast : startEvents start line [LoadEvent.freePool PoolBlock.bootImage] =
      [BlockEvent.free (Block.inStart start PoolBlock.bootImage)] := rfl
  rw [hlog, startEvents_append, hlast]
  refine ⟨?_, List.mem_append_right _ (List.mem_singleton_self _), ?_⟩
  · rw [disciplined_concat_free]
    constructor
    · rw [← hfrees] at hnodup himage
      exact disciplined_startEvents hinj hnodup himage
    · intro hfree
      rcases free_mem_startEvents.mp hfree with ⟨freed, hfreed, hblock⟩
      rw [hfrees] at hfreed
      have heq : freed = PoolBlock.bootImage := hinj hblock
      rw [heq] at hfreed
      exact himage hfreed
  · have hline : blockOf start line PoolBlock.append = line := rfl
    have hne : BlockEvent.free line ≠
        BlockEvent.free (Block.inStart start PoolBlock.bootImage) := by
      intro heq
      injection heq with heq
      have himpossible : PoolBlock.append = PoolBlock.bootImage := hinj heq
      cases himpossible
    rw [List.mem_append, List.mem_singleton, or_iff_left hne, free_mem_startEvents, hfrees]
    constructor
    · rintro ⟨freed, hfreed, hblock⟩
      have heq : freed = PoolBlock.append := hinj hblock
      rw [heq] at hfreed
      exact hfreed
    · intro hmem
      exact ⟨PoolBlock.append, hmem, hline⟩

/-- What `android_image_start_buffer` frees, whenever it returns. -/
theorem startBuffer_frees {start : Nat} {line : Block} {env : LoadEnv}
    {append : Option (List UInt8)} {hooks : Option BootimgHooks} {s : LoadState}
    {status : EfiStatus} (hinj : Function.Injective (blockOf start line))
    (hs : freesOf s.log = [])
    (h : returnStatus (startBuffer env append hooks s).1 = some status) :
    Disciplined (startEvents start line (startBuffer env append hooks s).2.log) ∧
      BlockEvent.free (Block.inStart start PoolBlock.bootImage) ∈
        startEvents start line (startBuffer env append hooks s).2.log ∧
      (BlockEvent.free line ∈ startEvents start line (startBuffer env append hooks s).2.log <->
        FreesAppend env append s.image) := by
  unfold FreesAppend
  rcases startBuffer_endsFreeing h with ⟨hpass, hends⟩ | ⟨hfail, hends⟩
  · rw [and_iff_right hpass]
    have hdistinct := commandLineFrees_distinct env append s.image
    exact startEvents_of_endsFreeing hinj hs hends hdistinct.1 hdistinct.2
  · have hframe := startEvents_of_endsFreeing hinj hs hends List.nodup_nil List.not_mem_nil
    refine ⟨hframe.1, hframe.2.1, ?_⟩
    rw [hframe.2.2]
    exact ⟨fun hnone => absurd hnone List.not_mem_nil, fun hpass => absurd hpass.1 hfail⟩

end Efilinux
end BootableUefi
