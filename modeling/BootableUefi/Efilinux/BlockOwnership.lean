import BootableUefi.Efilinux.StartFrees

/-!
# Who frees the blocks of a start

An image that reaches `android_image_start_buffer` from a file or a partition
is freed by that function and by its caller.  The line passed down is freed
where it is appended or copied, and by `efi_main` at the end.
-/

namespace BootableUefi
namespace Efilinux

open Firmware Foundation
open BootImage (PoolBlock LoadEvent LoadEnd LoadState LoadEnv LoadStep PartitionEnv
  aospHeader startBuffer startPartition outBootimage bytesAt bootMagic commandLineFrees)
open BootLogic (Target getTargetEntry targetFromInputs selectionState emFallbackTarget
  fallbackTarget)

/-- The blocks are freed twice exactly if the condition holds, and else the line is kept. -/
structure FreesTwiceIff (condition : Prop) (events : List (BlockEvent Block)) : Prop where
  disciplined : Disciplined events <-> ¬ condition
  keepsLine : ¬ condition -> BlockEvent.free Block.commandLine ∉ events

section FreesTwiceIff

variable {condition : Prop} {events : List (BlockEvent Block)}

theorem FreesTwiceIff.of_not (hcondition : ¬ condition) (hdisciplined : Disciplined events)
    (hline : BlockEvent.free Block.commandLine ∉ events) : FreesTwiceIff condition events where
  disciplined := ⟨fun _ => hcondition, fun _ => hdisciplined⟩
  keepsLine := fun _ => hline

theorem FreesTwiceIff.of_twice (hcondition : condition) (htwice : ¬ Disciplined events) :
    FreesTwiceIff condition events where
  disciplined := ⟨fun h => absurd h htwice, fun h => absurd hcondition h⟩
  keepsLine := fun h => absurd hcondition h

theorem FreesTwiceIff.of_nil (hcondition : ¬ condition) : FreesTwiceIff condition [] :=
  FreesTwiceIff.of_not hcondition disciplined_nil List.not_mem_nil

theorem FreesTwiceIff.append {other : Prop} {more : List (BlockEvent Block)}
    (h : FreesTwiceIff condition events) (hmore : FreesTwiceIff other more)
    (hcross : forall e, e ∈ more -> BlockEvent.free e.block ∉ events) :
    FreesTwiceIff (condition ∨ other) (events ++ more) where
  disciplined := by
    rw [disciplined_append, h.disciplined, hmore.disciplined, not_or]
    exact ⟨fun hall => ⟨hall.1, hall.2.1⟩, fun hnot => ⟨hnot.1, hnot.2, hcross⟩⟩
  keepsLine := by
    intro hnot hfree
    rw [not_or] at hnot
    rcases List.mem_append.mp hfree with hfirst | hrest
    · exact h.keepsLine hnot.1 hfirst
    · exact hmore.keepsLine hnot.2 hrest

theorem FreesTwiceIff.after {before : List (BlockEvent Block)} (h : FreesTwiceIff condition events)
    (hbefore : Disciplined before) (hline : BlockEvent.free Block.commandLine ∉ before)
    (hcross : forall e, e ∈ events -> BlockEvent.free e.block ∉ before) :
    FreesTwiceIff condition (before ++ events) := by
  have hboth := (FreesTwiceIff.of_not not_false hbefore hline).append h hcross
  rw [false_or] at hboth
  exact hboth

theorem FreesTwiceIff.after_reads {reads : List (BlockEvent Block)}
    (h : FreesTwiceIff condition events) (hreads : forall b, BlockEvent.free b ∉ reads) :
    FreesTwiceIff condition (reads ++ events) :=
  h.after (disciplined_of_no_free hreads) (hreads _) fun e _ => hreads e.block

end FreesTwiceIff

/-!
# From a partition
-/

/-- The image is read from the partition, so that `android_image_start_buffer` is called. -/
def PartitionStarts (env : PartitionEnv) : Prop :=
  env.openPartition = EfiStatus.success ∧ env.readHeader = EfiStatus.success ∧
    bytesAt env.disk 0 8 = bootMagic ∧ env.imagePool.isSome = true ∧
    env.readImage = EfiStatus.success

theorem startPartition_freesTwiceIff {start : Nat} {line : Block} {env : PartitionEnv}
    {append : Option (List UInt8)} {used : Finset Nat} {status : EfiStatus}
    (hinj : Function.Injective (blockOf start line))
    (h : returnStatus (startPartition env append x86Hooks used).1 = some status) :
    FreesTwiceIff (PartitionStarts env)
      (startEvents start line (startPartition env append x86Hooks used).2.log) := by
  unfold startPartition at h ⊢
  dsimp only at h ⊢
  split
  · rename_i hopen
    exact FreesTwiceIff.of_nil fun hstarts => hopen hstarts.1
  · rename_i hopen
    rw [if_neg hopen] at h
    split
    · rename_i hheader
      exact FreesTwiceIff.of_nil fun hstarts => hheader hstarts.2.1
    · rename_i hheader
      rw [if_neg hheader] at h
      split
      · rename_i hmagic
        exact FreesTwiceIff.of_nil fun hstarts => hmagic hstarts.2.2.1
      · rename_i hmagic
        rw [if_neg hmagic] at h
        split
        · rename_i hpage
          rw [if_pos hpage] at h
          cases h
        · rename_i hpage
          rw [if_neg hpage] at h
          cases hpool : env.imagePool with
          | none =>
              refine FreesTwiceIff.of_nil ?_
              intro hstarts
              have hfound := hstarts.2.2.2.1
              rw [hpool] at hfound
              cases hfound
          | some pool =>
              rw [hpool] at h
              dsimp only at h ⊢
              split
              · rename_i hread
                refine FreesTwiceIff.of_not (fun hstarts => hread hstarts.2.2.2.2)
                  (List.pairwise_singleton _ _) ?_
                intro hfree
                cases List.mem_singleton.mp hfree
              · rename_i hread
                rw [if_neg hread] at h
                rw [not_not] at hopen hheader hmagic hread
                have hstarts : PartitionStarts env :=
                  ⟨hopen, hheader, hmagic, by rw [hpool]; rfl, hread⟩
                refine FreesTwiceIff.of_twice hstarts ?_
                cases hstart : startBuffer env.load append x86Hooks (env.loadedState pool used) with
                | mk ending t =>
                    rw [hstart] at h
                    cases ending with
                    | divideError => cases h
                    | jumped kernelStart bootAddr => cases h
                    | failed step failure =>
                        have hreturned : returnStatus (startBuffer env.load append x86Hooks
                            (env.loadedState pool used)).1 = some failure := by
                          rw [hstart]
                          rfl
                        have hfrees := startBuffer_frees hinj (by rfl) hreturned
                        rw [hstart] at hfrees
                        dsimp only [outBootimage]
                        rw [LoadState.emit, startEvents_append]
                        exact not_disciplined_of_free hfrees.2.1 (List.mem_singleton_self _)

/-!
# From a file
-/

/-- The pool block and the status of the last `Read`. -/
def lastRead (env : FileEnv) : Option (Mem × EfiStatus) :=
  match env.imagePool with
  | none => none
  | some pool =>
      if env.read = EfiStatus.bufferTooSmall then
        env.imagePoolAgain.map fun again => (again, env.readAgain)
      else some (pool, env.read)

def ReadStarts (env : FileEnv) (pool : Mem) (status : EfiStatus) : Prop :=
  status = EfiStatus.success ∧
    env.missingBytes (env.loadedImage pool) ≤ (aospHeader (env.loadedImage pool)).sigSize

/-- The image is read from the file, and is long enough. -/
def FileStarts (env : FileEnv) : Prop :=
  env.path = true ∧ env.handleProtocol = EfiStatus.success ∧
    env.openVolume = EfiStatus.success ∧ env.openFile = EfiStatus.success ∧
    env.infoPool = true ∧ env.infoStatus = EfiStatus.success ∧
    exists pool status, lastRead env = some (pool, status) ∧ ReadStarts env pool status

theorem startRead_freesTwiceIff {env : FileEnv} {start : Nat} {append : Option (List UInt8)}
    {pool : Mem} {status : EfiStatus}
    (h : (startRead env start append pool status).status.isSome = true) :
    FreesTwiceIff (ReadStarts env pool status)
      (memoryEvents (startRead env start append pool status).events) := by
  unfold startRead at h ⊢
  dsimp only at h ⊢
  split
  · rename_i hread
    refine FreesTwiceIff.of_not (fun hstarts => hread hstarts.1)
      (List.pairwise_singleton _ _) ?_
    intro hfree
    cases List.mem_singleton.mp hfree
  · rename_i hread
    rw [if_neg hread] at h
    split
    · rename_i hpage
      rw [if_pos hpage] at h
      cases h
    · rename_i hpage
      rw [if_neg hpage] at h
      split
      · rename_i hmissing
        refine FreesTwiceIff.of_not (fun hstarts => Nat.not_le_of_lt hmissing hstarts.2) ?_ ?_
        · simp [Disciplined]
        · simp
      · rename_i hmissing
        rw [if_neg hmissing] at h
        rw [not_not] at hread
        refine FreesTwiceIff.of_twice ⟨hread, Nat.le_of_not_lt hmissing⟩ ?_
        rcases Option.isSome_iff_exists.mp h with ⟨returned, hreturned⟩
        have hfrees := startBuffer_frees (blockOf_injective_commandLine start) (by rfl) hreturned
        dsimp only
        rw [h, if_pos rfl, memoryEvents_append]
        exact not_disciplined_of_free hfrees.2.1 (List.mem_singleton_self _)

theorem block_of_mem_startRead {env : FileEnv} {start : Nat} {append : Option (List UInt8)}
    {pool : Mem} {status : EfiStatus} {e : BlockEvent Block}
    (h : e ∈ memoryEvents (startRead env start append pool status).events) (other : Nat) :
    e.block ≠ Block.firstImage other := by
  have hown : e.block = Block.inStart start PoolBlock.bootImage ∨
      exists freed, e.block = blockOf start Block.commandLine freed := by
    unfold startRead at h
    dsimp only at h
    split at h
    · rw [List.mem_singleton.mp h]
      exact Or.inl rfl
    · split at h
      · rw [List.mem_singleton.mp h]
        exact Or.inl rfl
      · split at h
        · simp only [memoryEvents_useBlock, memoryEvents_freeBlock, memoryEvents_nil,
            List.mem_cons, List.not_mem_nil, or_false] at h
          rcases h with rfl | rfl <;> exact Or.inl rfl
        · rw [memoryEvents_append, List.mem_append] at h
          rcases h with hstart | hlast
          · rcases block_of_mem_startEvents hstart with himage | ⟨freed, -, hblock⟩
            · exact Or.inl himage
            · exact Or.inr ⟨freed, hblock⟩
          · split at hlast
            · rw [List.mem_singleton.mp hlast]
              exact Or.inl rfl
            · cases hlast
  intro hfirst
  rw [hfirst] at hown
  rcases hown with himage | ⟨freed, hblock⟩
  · cases himage
  · cases freed <;> cases hblock

theorem readImage_freesTwiceIff {env : FileEnv} {start : Nat} {append : Option (List UInt8)}
    (h : (readImage env start append).status.isSome = true) :
    FreesTwiceIff (exists pool status, lastRead env = some (pool, status) ∧
      ReadStarts env pool status) (memoryEvents (readImage env start append).events) := by
  have honce : Disciplined [BlockEvent.use (Block.firstImage start),
      BlockEvent.free (Block.firstImage start)] := by
    simp [Disciplined]
  unfold lastRead
  unfold readImage at h ⊢
  cases hpool : env.imagePool with
  | none => exact FreesTwiceIff.of_nil (by simp)
  | some pool =>
      rw [hpool] at h
      dsimp only at h ⊢
      by_cases hsmall : env.read = EfiStatus.bufferTooSmall
      · rw [if_pos hsmall] at h
        simp only [if_pos hsmall]
        cases hagain : env.imagePoolAgain with
        | none =>
            exact FreesTwiceIff.of_not (by simp) honce (by simp [Load.prepend, Load.returned])
        | some again =>
            rw [hagain] at h
            have hread := startRead_freesTwiceIff h
            have hlast : (exists pool status,
                (some again).map (fun again => (again, env.readAgain)) = some (pool, status) ∧
                  ReadStarts env pool status) <-> ReadStarts env again env.readAgain := by
              simp
            rw [hlast]
            refine hread.after honce (by simp) ?_
            intro e he hfree
            have hne := block_of_mem_startRead he start
            simp at hfree
            exact hne hfree
      · rw [if_neg hsmall] at h
        simp only [if_neg hsmall]
        have hlast : (exists found status, some (pool, env.read) = some (found, status) ∧
            ReadStarts env found status) <-> ReadStarts env pool env.read := by
          simp
        rw [hlast]
        exact startRead_freesTwiceIff h

theorem startFile_freesTwiceIff {env : FileEnv} {start : Nat} {append : Option (List UInt8)}
    (h : (startFile env start append).status.isSome = true) :
    FreesTwiceIff (FileStarts env) (memoryEvents (startFile env start append).events) := by
  unfold startFile at h ⊢
  split
  · rename_i hpath
    refine FreesTwiceIff.of_nil fun hstarts => ?_
    rw [hstarts.1] at hpath
    cases hpath
  · rename_i hpath
    rw [if_neg hpath] at h
    split
    · rename_i hprotocol
      exact FreesTwiceIff.of_nil fun hstarts => hprotocol hstarts.2.1
    · rename_i hprotocol
      rw [if_neg hprotocol] at h
      split
      · rename_i hvolume
        exact FreesTwiceIff.of_nil fun hstarts => hvolume hstarts.2.2.1
      · rename_i hvolume
        rw [if_neg hvolume] at h
        split
        · rename_i hopen
          exact FreesTwiceIff.of_nil fun hstarts => hopen hstarts.2.2.2.1
        · rename_i hopen
          rw [if_neg hopen] at h
          split
          · rename_i hpool
            refine FreesTwiceIff.of_nil fun hstarts => ?_
            rw [hstarts.2.2.2.2.1] at hpool
            cases hpool
          · rename_i hpool
            rw [if_neg hpool] at h
            split
            · rename_i hinfo
              exact FreesTwiceIff.of_nil fun hstarts => hinfo hstarts.2.2.2.2.2.1
            · rename_i hinfo
              rw [if_neg hinfo] at h
              rw [not_not] at hprotocol hvolume hopen hinfo
              have hpath' : env.path = true := by simpa using hpath
              have hpool' : env.infoPool = true := by simpa using hpool
              have hstarts : FileStarts env <->
                  exists pool status, lastRead env = some (pool, status) ∧
                    ReadStarts env pool status :=
                ⟨fun hall => hall.2.2.2.2.2.2,
                  fun hread => ⟨hpath', hprotocol, hvolume, hopen, hpool', hinfo, hread⟩⟩
              rw [hstarts]
              exact readImage_freesTwiceIff h

/-!
# From a target
-/

def TargetStarts (env : TargetEnv) (factoryModes : Bool) (target : Target) : Prop :=
  (getTargetEntry factoryModes target).isSome = true ∧ target ≠ Target.dnx ∧
    PartitionStarts env.partition

theorem blockOf_injective_own (start : Nat) :
    Function.Injective (blockOf start (Block.inStart start PoolBlock.append)) := by
  intro a b h
  rw [blockOf_inStart, blockOf_inStart] at h
  injection h

theorem loadTarget_freesTwiceIff {env : TargetEnv} {factoryModes : Bool} {start : Nat}
    {target : Target} {cmdline : Option (List UInt8)} {reads : List MainEvent}
    (hreads : forall b, BlockEvent.free b ∉ memoryEvents reads)
    (h : (loadTarget env factoryModes start target cmdline reads).status.isSome = true) :
    FreesTwiceIff (TargetStarts env factoryModes target)
      (memoryEvents (loadTarget env factoryModes start target cmdline reads).events) := by
  unfold loadTarget at h ⊢
  cases hentry : getTargetEntry factoryModes target with
  | none =>
      refine FreesTwiceIff.of_nil ?_
      intro hstarts
      rw [TargetStarts, hentry] at hstarts
      cases hstarts.1
  | some entry =>
      rw [hentry] at h
      dsimp only at h ⊢
      split
      · rename_i hdnx
        exact FreesTwiceIff.of_nil fun hstarts => hstarts.2.1 hdnx
      · rename_i hdnx
        rw [if_neg hdnx] at h
        have hstarts : TargetStarts env factoryModes target <-> PartitionStarts env.partition := by
          rw [TargetStarts, hentry]
          exact ⟨fun hall => hall.2.2, fun hpartition => ⟨rfl, hdnx, hpartition⟩⟩
        rcases Option.isSome_iff_exists.mp h with ⟨returned, hreturned⟩
        rw [hstarts, Load.prepend, memoryEvents_append]
        exact (startPartition_freesTwiceIff (blockOf_injective_own start) hreturned).after_reads
          hreads

theorem block_of_mem_loadTarget {env : TargetEnv} {factoryModes : Bool} {start : Nat}
    {target : Target} {cmdline : Option (List UInt8)} {e : BlockEvent Block}
    (h : e ∈ memoryEvents (loadTarget env factoryModes start target cmdline []).events) :
    exists own, e.block = Block.inStart start own := by
  unfold loadTarget at h
  split at h
  · cases h
  · split at h
    · cases h
    · rcases block_of_mem_startEvents h with himage | ⟨freed, -, hblock⟩
      · exact ⟨PoolBlock.bootImage, himage⟩
      · rw [blockOf_inStart] at hblock
        exact ⟨freed, hblock⟩

/-!
# The boot logic
-/

/-- Some target that `launch_or_fallback` comes to is started. -/
def LaunchStarts (env : BootLogicEnv) : Nat -> Nat -> Target -> Prop
  | 0, _, _ => False
  | bound + 1, k, target =>
      let target := emFallbackTarget (env.inputs.batteryLevel k)
        (env.inputs.isChargerPresent k) target
      TargetStarts (env.target k) env.cfg.enableFactoryModes target ∨
        fallbackTarget target ≠ Target.unknown ∧
          LaunchStarts env bound (k + 1) (fallbackTarget target)

theorem launchLoop_freesTwiceIff {env : BootLogicEnv} {saved : List UInt8} {bound k : Nat}
    {target : Target} (h : (launchLoop env saved bound k target).status.isSome = true) :
    FreesTwiceIff (LaunchStarts env bound k target)
        (memoryEvents (launchLoop env saved bound k target).events) ∧
      forall e, e ∈ memoryEvents (launchLoop env saved bound k target).events ->
        exists start own, k ≤ start ∧ e.block = Block.inStart start own := by
  induction bound generalizing k target with
  | zero => exact ⟨FreesTwiceIff.of_nil not_false, fun e he => by cases he⟩
  | succ bound ih =>
      unfold launchLoop at h
      unfold launchLoop LaunchStarts
      generalize emFallbackTarget (env.inputs.batteryLevel k) (env.inputs.isChargerPresent k)
        target = tried at h ⊢
      dsimp only at h ⊢
      by_cases hoff : tried = Target.coldOff
      · rw [if_pos hoff] at h
        cases h
      · rw [if_neg hoff] at h
        rw [if_neg hoff]
        have hown : forall e, e ∈ memoryEvents (loadTarget (env.target k)
            env.cfg.enableFactoryModes k tried (some saved) []).events ->
            exists own, e.block = Block.inStart k own :=
          fun e he => block_of_mem_loadTarget he
        have hattempt : (loadTarget (env.target k) env.cfg.enableFactoryModes k tried
            (some saved) []).status.isSome = true ->
            FreesTwiceIff (TargetStarts (env.target k) env.cfg.enableFactoryModes tried)
              (memoryEvents (loadTarget (env.target k) env.cfg.enableFactoryModes k tried
                (some saved) []).events) :=
          fun hreturns => loadTarget_freesTwiceIff (fun b => List.not_mem_nil) hreturns
        generalize loadTarget (env.target k) env.cfg.enableFactoryModes k tried (some saved) [] =
          attempt at h hown hattempt ⊢
        cases hstatus : attempt.status with
        | none =>
            rw [hstatus] at h
            simp [hstatus] at h
        | some status =>
            have hfirst := hattempt (by rw [hstatus]; rfl)
            have hmine : forall e, e ∈ memoryEvents attempt.events ->
                exists start own, k ≤ start ∧ e.block = Block.inStart start own := by
              intro e he
              rcases hown e he with ⟨own, hblock⟩
              exact ⟨k, own, Nat.le_refl k, hblock⟩
            rw [hstatus] at h
            simp only [Option.isNone_some, Bool.false_eq_true, if_false] at h ⊢
            by_cases hlast : fallbackTarget tried = Target.unknown
            · simp only [hlast, ne_eq, not_true_eq_false, if_false, false_and, or_false]
              exact ⟨hfirst, hmine⟩
            · rw [if_pos hlast] at h
              simp only [ne_eq, hlast, not_false_eq_true, if_true, true_and, Load.prepend,
                memoryEvents_append]
              rcases ih h with ⟨hrest, hlater⟩
              constructor
              · refine hfirst.append hrest ?_
                intro e he hfree
                rcases hlater e he with ⟨start, own, hle, hblock⟩
                rcases hown _ hfree with ⟨mine, hsame⟩
                have heq : e.block = Block.inStart k mine := hsame
                rw [hblock] at heq
                injection heq with heq
                exact Nat.not_succ_le_self k (heq ▸ hle)
              · intro e he
                rcases List.mem_append.mp he with hin | hin
                · exact hmine e hin
                · rcases hlater e hin with ⟨start, own, hle, hblock⟩
                  exact ⟨start, own, Nat.le_of_succ_le hle, hblock⟩

def lineEvents (env : BootLogicEnv) (cmdline : Line) : List (BlockEvent Block) :=
  memoryEvents ((updateCmdline env cmdline).2 ++
    ((updateCmdline env cmdline).1.uses ++ (updateCmdline env cmdline).1.frees))

theorem free_commandLine_mem_lineEvents (env : BootLogicEnv) (text : List UInt8) :
    BlockEvent.free Block.commandLine ∈ lineEvents env (some (Block.commandLine, text)) := by
  unfold lineEvents updateCmdline checkVbattfreqlmt getExtraCmdline
  cases env.belowVbattfreqlmt <;> cases env.runtimeSettings <;>
    simp [Line.frees, Line.uses]

theorem lineEvents_none (env : BootLogicEnv) :
    Disciplined (lineEvents env none) ∧
      forall block, BlockEvent.free block ∈ lineEvents env none ->
        block ∈ [Block.batteryLine, Block.extraLine, Block.extendedLine] := by
  unfold lineEvents updateCmdline checkVbattfreqlmt getExtraCmdline
  cases env.belowVbattfreqlmt <;> cases env.runtimeSettings <;> cases env.extraCmdline <;>
    cases env.batteryPool <;> cases env.extraPool <;>
    simp [Line.frees, Line.uses, Line.text, appendStrings, Disciplined, BlockEvent.block]

def selectedTarget (env : BootLogicEnv) : Option Target :=
  match (targetFromInputs env.cfg env.inputs (selectionState env.cfg env.inputs env.vars)).1 with
  | none => none
  | some Target.error => none
  | some target => some (if target = Target.unknown then Target.boot else target)

/-- A target is selected, and there is a line to free or an image that is started. -/
def BootLogicFreesTwice (env : BootLogicEnv) (cmdline : Option (List UInt8)) : Prop :=
  exists target, selectedTarget env = some target ∧
    (cmdline.isSome = true ∨ LaunchStarts env 4 0 target)

/-- The boot logic does not return, returns at once, or launches what it has selected. -/
theorem startBootLogic_cases (env : BootLogicEnv) (cmdline : Option (List UInt8)) :
    (startBootLogic env cmdline).status = none ∨
    (selectedTarget env = none ∧
      startBootLogic env cmdline = Load.returned EfiStatus.success) ∨
    exists target saved, selectedTarget env = some target ∧
      (startBootLogic env cmdline).status = (launchLoop env saved 4 0 target).status ∧
      memoryEvents (startBootLogic env cmdline).events =
        lineEvents env (cmdline.map fun text => (Block.commandLine, text)) ++
          memoryEvents (launchLoop env saved 4 0 target).events := by
  unfold startBootLogic selectedTarget
  generalize (targetFromInputs env.cfg env.inputs
    (selectionState env.cfg env.inputs env.vars)).1 = selected
  cases selected with
  | none => exact Or.inl rfl
  | some target =>
      cases target with
      | error => exact Or.inr (Or.inl ⟨rfl, rfl⟩)
      | _ =>
          refine Or.inr (Or.inr ⟨_, (updateCmdline env
            (cmdline.map fun text => (Block.commandLine, text))).1.text.getD [], rfl, rfl, ?_⟩)
          simp [launchOrFallback, Load.prepend, lineEvents]

/-!
# The end of `efi_main`
-/

/-- `free(cmdline)` at `free_args`. -/
def lastFrees (cmdline : Option (List UInt8)) : List (BlockEvent Block) :=
  if cmdline.isSome then [BlockEvent.free Block.commandLine] else []

def MainInputs.Accepts (inputs : MainInputs) (cmdline : Option (List UInt8)) : Prop :=
  inputs.crcOk = true ∧ inputs.loadedImage = EfiStatus.success ∧
    inputs.platformKnown = true ∧ inputs.args = ParseResult.accepted cmdline

theorem memoryEvents_efiMain {inputs : MainInputs} {cmdline : Option (List UInt8)}
    {load : Option (List UInt8) -> Load} (haccepts : inputs.Accepts cmdline)
    (hreturns : (load cmdline).status.isSome = true) :
    memoryEvents (efiMain inputs load) =
      memoryEvents (load cmdline).events ++ lastFrees cmdline := by
  rcases haccepts with ⟨hcrc, hloaded, hknown, hargs⟩
  have hend : memoryEvents (freeArgs inputs cmdline) = lastFrees cmdline := by
    unfold freeArgs fsDeinit lastFrees
    cases cmdline <;> cases inputs.errorBuf <;> rfl
  unfold efiMain
  rw [hcrc, hknown, hargs, if_neg (by decide), if_neg (not_not.mpr hloaded), if_neg (by decide)]
  dsimp only
  rw [if_pos hreturns, memoryEvents_append, hend]

theorem disciplined_append_lastFrees {events : List (BlockEvent Block)}
    {cmdline : Option (List UInt8)} :
    Disciplined (events ++ lastFrees cmdline) <->
      Disciplined events ∧
        (cmdline.isSome = true -> BlockEvent.free Block.commandLine ∉ events) := by
  unfold lastFrees
  cases cmdline with
  | none =>
      have hnone : events ++ (if (none : Option (List UInt8)).isSome = true then
          [BlockEvent.free Block.commandLine] else []) = events :=
        List.append_nil events
      rw [hnone]
      exact ⟨fun h => ⟨h, fun hsome => by cases hsome⟩, fun h => h.1⟩
  | some text =>
      have hsome : (some text).isSome = true := rfl
      rw [if_pos hsome, disciplined_concat_free]
      exact ⟨fun h => ⟨h.1, fun _ => h.2⟩, fun h => ⟨h.1, h.2 rfl⟩⟩

theorem FreesTwiceIff.with_lastFrees {condition : Prop} {events : List (BlockEvent Block)}
    (h : FreesTwiceIff condition events) (cmdline : Option (List UInt8)) :
    Disciplined (events ++ lastFrees cmdline) <-> ¬ condition := by
  rw [disciplined_append_lastFrees, h.disciplined]
  exact ⟨fun hboth => hboth.1, fun hnot => ⟨hnot, fun _ => h.keepsLine hnot⟩⟩

/--
When a request makes some block be freed twice: an image is started from a
file, a partition or a target, or the line passed down is freed by the callee.
-/
def Request.FreesTwice (cmdline : Option (List UInt8)) : Request -> Prop
  | file none => False
  | file (some env) => FileStarts env
  | target _ _ none => False
  | target factoryModes env (some found) => TargetStarts env factoryModes found
  | partition none _ => False
  | partition (some env) _ => PartitionStarts env
  | command => False
  | buffer _ none _ => False
  | buffer env (some image) _ => FreesAppend env cmdline image
  | bootLogic env => BootLogicFreesTwice env cmdline

theorem append_not_mem_commandLineFrees_none (env : LoadEnv) (image : Mem) :
    PoolBlock.append ∉ commandLineFrees env none image := by
  unfold commandLineFrees
  cases env.commandLinePool <;> simp

theorem buffer_lastFrees {env : LoadEnv} {image : Mem} {used : Finset Nat}
    {cmdline : Option (List UInt8)}
    (hreturns : (startRequested (Request.buffer env (some image) used) cmdline).status.isSome =
      true) :
    Disciplined (memoryEvents (startRequested (Request.buffer env (some image) used)
      cmdline).events ++ lastFrees cmdline) <-> ¬ FreesAppend env cmdline image := by
  rcases Option.isSome_iff_exists.mp hreturns with ⟨status, hstatus⟩
  have hfrees := startBuffer_frees (blockOf_injective_commandLine 0) (by rfl) hstatus
  rw [disciplined_append_lastFrees]
  constructor
  · rintro ⟨-, hkept⟩ happend
    cases cmdline with
    | none =>
        exact append_not_mem_commandLineFrees_none env image happend.2
    | some text => exact hkept rfl (hfrees.2.2.mpr happend)
  · intro hkept
    exact ⟨hfrees.1, fun _ hfree => hkept (hfrees.2.2.mp hfree)⟩

theorem bootLogic_lastFrees {env : BootLogicEnv} {cmdline : Option (List UInt8)}
    (hreturns : (startBootLogic env cmdline).status.isSome = true) :
    Disciplined (memoryEvents (startBootLogic env cmdline).events ++ lastFrees cmdline) <->
      ¬ BootLogicFreesTwice env cmdline := by
  unfold BootLogicFreesTwice
  rcases startBootLogic_cases env cmdline with hgone | ⟨hnone, hreturned⟩ |
    ⟨target, saved, htarget, hstatus, hevents⟩
  · rw [hgone] at hreturns
    cases hreturns
  · rw [hreturned, hnone]
    refine (FreesTwiceIff.of_nil ?_).with_lastFrees cmdline
    rintro ⟨target, htarget, -⟩
    cases htarget
  · rw [hstatus] at hreturns
    have hcondition : (exists found, selectedTarget env = some found ∧
        (cmdline.isSome = true ∨ LaunchStarts env 4 0 found)) <->
        cmdline.isSome = true ∨ LaunchStarts env 4 0 target := by
      rw [htarget]
      simp
    rw [hcondition, hevents]
    cases cmdline with
    | some text =>
        have hfreed := free_commandLine_mem_lineEvents env text
        have htwice : ¬ Disciplined (lineEvents env (some (Block.commandLine, text)) ++
            memoryEvents (launchLoop env saved 4 0 target).events ++ lastFrees (some text)) :=
          not_disciplined_of_free (List.mem_append_left _ hfreed) (List.mem_singleton_self _)
        exact ⟨fun h => absurd h htwice, fun hnot => absurd (Or.inl rfl) hnot⟩
    | none =>
        rcases launchLoop_freesTwiceIff hreturns with ⟨hloop, hblocks⟩
        rcases lineEvents_none env with ⟨hlines, hfrees⟩
        have hboth : FreesTwiceIff (LaunchStarts env 4 0 target) (lineEvents env none ++
            memoryEvents (launchLoop env saved 4 0 target).events) := by
          refine hloop.after hlines ?_ ?_
          · intro hfree
            exact absurd (hfrees _ hfree) (by decide)
          · intro e he hfree
            rcases hblocks e he with ⟨start, own, -, hblock⟩
            have hline := hfrees _ hfree
            rw [hblock] at hline
            simp at hline
        have hline : ((none : Option (List UInt8)).isSome = true ∨ LaunchStarts env 4 0 target) <->
            LaunchStarts env 4 0 target := by
          simp
        rw [hline]
        exact hboth.with_lastFrees none

/--
A run of `efi_main` that comes back from its request uses and frees each block
rightly exactly if the request does not have one freed twice.
-/
theorem efiMain_disciplined_iff {inputs : MainInputs} {request : Request}
    {cmdline : Option (List UInt8)} (haccepts : inputs.Accepts cmdline)
    (hreturns : (startRequested request cmdline).status.isSome = true) :
    Disciplined (memoryEvents (efiMain inputs (startRequested request))) <->
      ¬ request.FreesTwice cmdline := by
  rw [memoryEvents_efiMain haccepts hreturns]
  have hidle : forall events, events = ([] : List (BlockEvent Block)) ->
      (Disciplined (events ++ lastFrees cmdline) <-> ¬ False) := by
    rintro events rfl
    exact (FreesTwiceIff.of_nil not_false).with_lastFrees cmdline
  cases request with
  | file env =>
      cases env with
      | none => exact hidle _ rfl
      | some env => exact (startFile_freesTwiceIff hreturns).with_lastFrees cmdline
  | target factoryModes env target =>
      cases target with
      | none => exact hidle _ rfl
      | some target =>
          have hreads : forall b, BlockEvent.free b ∉ memoryEvents
              (Line.uses (cmdline.map fun text => (Block.commandLine, text))) := by
            cases cmdline <;> simp [Line.uses]
          exact (loadTarget_freesTwiceIff hreads hreturns).with_lastFrees cmdline
  | partition env used =>
      cases env with
      | none => exact hidle _ rfl
      | some env =>
          rcases Option.isSome_iff_exists.mp hreturns with ⟨status, hstatus⟩
          exact (startPartition_freesTwiceIff (blockOf_injective_commandLine 0)
            hstatus).with_lastFrees cmdline
  | command => exact hidle _ rfl
  | buffer env image used =>
      cases image with
      | none => exact hidle _ rfl
      | some image => exact buffer_lastFrees hreturns
  | bootLogic env => exact bootLogic_lastFrees hreturns

section Runs

def corruptPartition : PartitionEnv :=
  BootImage.smallPartition (BootImage.store 2 0x11fe 0 (BootImage.smallImage 0x1000 0x1000 0))

theorem corruptPartition_returns :
    (startRequested (Request.partition (some corruptPartition) ∅) none).status.isSome = true := by
  decide +kernel

theorem efiMain_disciplined_iff_of_corrupt :
    Disciplined (memoryEvents (efiMain commandInputs
        (startRequested (Request.partition (some corruptPartition) ∅)))) <->
      ¬ (Request.partition (some corruptPartition) ∅).FreesTwice none :=
  efiMain_disciplined_iff ⟨rfl, rfl, rfl, rfl⟩ corruptPartition_returns

/-- The image is freed by `android_image_start_buffer`, and again by its caller. -/
theorem image_freed_twice :
    ¬ forall (inputs : MainInputs) (request : Request) (cmdline : Option (List UInt8)),
        inputs.Accepts cmdline -> (startRequested request cmdline).status.isSome = true ->
          Disciplined (memoryEvents (efiMain inputs (startRequested request))) := by
  intro h
  have hdisciplined := h commandInputs (Request.partition (some corruptPartition) ∅) none
    ⟨rfl, rfl, rfl, rfl⟩ corruptPartition_returns
  revert hdisciplined
  decide +kernel

end Runs

end Efilinux
end BootableUefi
