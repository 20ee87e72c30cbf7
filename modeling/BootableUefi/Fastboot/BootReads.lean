import BootableUefi.BootImage.ImageReads
import BootableUefi.Fastboot.Download

/-!
# What `boot` reads of a download

`cmd_boot` passes on the address of the downloaded data and not its size, so
that what is read is bounded by the header alone.
-/

namespace BootableUefi
namespace Fastboot

open Firmware Foundation BootImage

def BootAnswer.Fails (answer : BootAnswer) : Prop :=
  answer.leaves = false ∧ answer.Returns

theorem cmdBoot_of_fails {a : Answers} (h : a.boot.Fails) (m : Machine) :
    exists status heap, cmdBoot a m = fastbootFail a.last (Reason.bootFailure status)
      { m.note (FastbootEvent.entered Consumer.boot m.download) with heap := heap } := by
  rcases h with ⟨hleaves, step, status, hend⟩
  unfold cmdBoot
  rw [hleaves, hend]
  exact ⟨status, _, rfl⟩

/-- The download is long enough for all that is read, or refused if it is too short. -/
structure BootContained (a : Answers) (m : Machine) : Prop where
  header : bootImgHdrSize ≤ m.downloadSize
  setupHeader : (aospHeader a.boot.image).pageSize + setupHeaderEnd ≤ m.downloadSize
  reads : ReadsInside m.downloadSize a.boot.start.2.log
  short : m.downloadSize <
      (aospHeader a.boot.image).sectionsEnd + (aospHeader a.boot.image).sigSize ->
    a.boot.Fails

/-- The download has all that a start comes to, and the whole image if it is not refused. -/
structure LongDownload (a : Answers) (m : Machine) : Prop where
  header : bootImgHdrSize ≤ m.downloadSize
  setupHeader : (aospHeader a.boot.image).pageSize + setupHeaderEnd ≤ m.downloadSize
  sections : LongEnough m.downloadSize a.boot.load none
    (LoadState.enter a.boot.image a.boot.used)
  whole : Divides a.boot.image ∨
      (hooksReached a.boot.load none (LoadState.enter a.boot.image a.boot.used)).isSome = true ->
    (aospHeader a.boot.image).sectionsEnd + (aospHeader a.boot.image).sigSize ≤ m.downloadSize

theorem bootAnswer_leaves_iff (answer : BootAnswer) :
    answer.leaves = true <->
      (hooksReached answer.load none (LoadState.enter answer.image answer.used)).isSome =
        true := by
  have hcomes := startBuffer_point_iff answer.load none (some bootHooks)
    (s := LoadState.enter answer.image answer.used) rfl StartPoint.hooks fun _ => rfl
  unfold StartPoint.reached at hcomes
  rw [← hcomes]
  unfold BootAnswer.leaves
  rw [decide_eq_true_iff]
  constructor
  · intro h
    exact ⟨_, h, rfl⟩
  · rintro ⟨event, hevent, hpoint⟩
    cases event with
    | beforeExit => exact hevent
    | copy part => cases part <;> cases hpoint
    | _ => cases hpoint

theorem bootAnswer_returns_iff {answer : BootAnswer} (hquiet : answer.leaves = false) :
    answer.Returns <-> ¬ Divides answer.image := by
  have hunhooked : LoadEvent.beforeExit ∉ answer.start.2.milestones := by
    intro hmem
    have hlogged : LoadEvent.beforeExit ∈ answer.start.2.log := (mem_milestones rfl).mp hmem
    unfold BootAnswer.leaves at hquiet
    exact of_decide_eq_false hquiet hlogged
  unfold BootAnswer.Returns
  rcases startBuffer_ends answer.load none (some bootHooks)
    (LoadState.enter answer.image answer.used) with ⟨hdivides, hend⟩ | ⟨hdivides, hhooked⟩
  · constructor
    · rintro ⟨step, status, hfailed⟩
      cases hend.symm.trans hfailed
    · intro hnot
      exact absurd hdivides hnot
  · constructor
    · intro _
      exact hdivides
    · intro _
      change Hooked (some bootHooks) answer.start at hhooked
      unfold Hooked at hhooked
      split at hhooked
      · rename_i step status hfailed
        exact ⟨step, status, hfailed⟩
      · exact hhooked.elim
      · exact absurd (hhooked _ (List.mem_singleton_self _)) hunhooked

theorem bootAnswer_fails_iff (answer : BootAnswer) :
    answer.Fails <-> ¬ (Divides answer.image ∨
      (hooksReached answer.load none (LoadState.enter answer.image answer.used)).isSome =
        true) := by
  rw [← bootAnswer_leaves_iff, not_or]
  unfold BootAnswer.Fails
  rw [Bool.not_eq_true]
  constructor
  · intro h
    exact ⟨(bootAnswer_returns_iff h.1).mp h.2, h.1⟩
  · intro h
    exact ⟨h.2, (bootAnswer_returns_iff h.2).mpr h.1⟩

/--
`boot` stays inside the download, and refuses one that is too short, exactly if
the download is long enough for all that the start comes to.
-/
theorem cmdBoot_contained_iff (a : Answers) (m : Machine) :
    BootContained a m <-> LongDownload a m := by
  have hreads := startBuffer_reads_iff a.boot.load none (some bootHooks) a.boot.image
    a.boot.used m.downloadSize
  have hfails := bootAnswer_fails_iff a.boot
  constructor
  · intro h
    refine ⟨h.header, h.setupHeader, hreads.mp h.reads, ?_⟩
    intro hgoes
    by_contra hshort
    exact hfails.mp (h.short (by omega)) hgoes
  · intro h
    refine ⟨h.header, h.setupHeader, hreads.mpr h.sections, ?_⟩
    intro hshort
    apply hfails.mpr
    intro hgoes
    exact absurd (h.whole hgoes) (by omega)

/-- Memory from the download on, with a kernel and a ramdisk of one page each. -/
def shortBoot : Answers :=
  { Answers.plain with boot := { load := smallEnv, image := smallImage 0x1000 0x1000 0, used := ∅ } }

/-- 5120 of the 12288 bytes have been downloaded: the ramdisk is read behind them. -/
theorem cmdBoot_reads_outside :
    ¬ BootContained shortBoot { waitingDevice with addr := some 0, downloadSize := 0x1400 } := by
  intro h
  have hcopy : LoadEvent.copy ImagePart.ramdisk 0x2000 0x1000 0x100000 ∈
      shortBoot.boot.start.2.log := by
    decide +kernel
  have hinside := h.reads _ hcopy _ _ (List.mem_singleton_self _) 0 (by decide)
  exact absurd hinside (by decide)

end Fastboot
end BootableUefi
