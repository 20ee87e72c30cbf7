import BootableUefi.BootImage.Stages

/-!
# Pages when a start fails

When a start fails the pages in use should be the ones that were in use before,
and every `FreePages` should name a run handed out in the same start.  What a
failing start holds and what it frees is known for each step that can fail; the
two agree only for an empty command line, because `free_pages` is told its
length in bytes, and only before `boot_params` has its pages.
-/

namespace BootableUefi
namespace BootImage

open Firmware Foundation

/-- The pages are as they were, and nothing was freed that was not handed out. -/
def Balanced (used : Finset Nat) (t : LoadState) : Prop :=
  t.used = used ∧ FreesMatch t.calls

def BeforeCommandLine (step : LoadStep) : Prop :=
  step = LoadStep.bootFlag ∨ step = LoadStep.setupVersion ∨ step = LoadStep.signature ∨
    step = LoadStep.commandLinePool ∨ step = LoadStep.commandLineGrowth ∨
    step = LoadStep.commandLinePages

def BeforeKernel (step : LoadStep) : Prop :=
  step = LoadStep.ramdiskPages ∨ step = LoadStep.ramdiskPlacement ∨ step = LoadStep.kernelPages

def BeforeBootParams (step : LoadStep) : Prop :=
  step = LoadStep.notRelocatable ∨ step = LoadStep.bootParams

/--
The failures after which the pages are balanced: the command line has no pages
yet, or it is empty and not at address 0, and the kernel either has no pages or
as many as it is freed with.
-/
def BalancedFailure (env : LoadEnv) (append : Option (List UInt8)) (image : Mem)
    (step : LoadStep) : Prop :=
  BeforeCommandLine step ∨
    ((append = none ∧ image cmdlineOffset = 0) ∧ (env.pageAnswer 0).base ≠ 0 ∧
      (BeforeKernel step ∨
        (BeforeBootParams step ∧
          sizeToPages (kernelCopySize image (aospHeader image).pageSize) =
            sizeToPages (le32 image ((aospHeader image).pageSize + SetupHeader.initSize)))))

section GivesUp

variable {used : Finset Nat} {rsize ksize initSize : Nat} {step : LoadStep}
variable {held freed : List PageRun}

theorem GivesUp.not_beforeCommandLine (h : GivesUp rsize ksize initSize step held freed) :
    ¬ BeforeCommandLine step := by
  unfold BeforeCommandLine
  cases h with
  | noRamdisk => simp
  | ramdiskTooHigh => simp
  | noKernel => simp
  | kernel _ _ hstep =>
      rcases hstep with ⟨-, rfl | rfl⟩ | ⟨-, rfl | rfl | rfl⟩ <;> simp

theorem GivesUp.base_of_freed (h : GivesUp rsize ksize initSize step held freed)
    {r : PageRun} (hr : r ∈ freed) : exists r', r' ∈ held ∧ r'.base = r.base := by
  cases h with
  | noRamdisk => cases hr
  | ramdiskTooHigh => exact ⟨r, hr, rfl⟩
  | noKernel => exact ⟨r, hr, rfl⟩
  | kernel ramdisk kernel hstep =>
      simp only [List.mem_cons, List.not_mem_nil, or_false] at hr
      rcases hr with rfl | rfl
      · exact ⟨{ base := kernel, count := sizeToPages initSize }, by simp, rfl⟩
      · exact ⟨{ base := ramdisk, count := sizeToPages rsize }, by simp, rfl⟩

theorem GivesUp.frees_held_iff (h : GivesUp rsize ksize initSize step held freed)
    (hgranted : Granted used held) :
    (forall r, r ∈ freed <-> r ∈ held) <->
      BeforeKernel step ∨
        (BeforeBootParams step ∧ sizeToPages ksize = sizeToPages initSize) := by
  unfold BeforeKernel BeforeBootParams
  cases h with
  | noRamdisk => simp
  | ramdiskTooHigh => simp
  | noKernel => simp
  | @kernel step rest ramdisk kernel hstep =>
      have hkernel : kernel ≠ ramdisk := hgranted.base_ne (List.mem_cons_self ..)
      rcases hstep with ⟨rfl, hstep⟩ | ⟨hrest, hstep⟩
      · have hlate : ¬ (step = LoadStep.ramdiskPages ∨ step = LoadStep.ramdiskPlacement ∨
            step = LoadStep.kernelPages) := by
          rcases hstep with rfl | rfl <;> simp
        rw [or_iff_right hlate, and_iff_right hstep]
        constructor
        · intro hsame
          have hmem := (hsame { base := kernel, count := sizeToPages ksize }).mp (by simp)
          simp only [List.mem_cons, PageRun.mk.injEq, List.not_mem_nil, or_false] at hmem
          rcases hmem with ⟨hbase, -⟩ | ⟨-, hcount⟩
          · exact absurd hbase hkernel
          · exact hcount
        · intro hcount r
          rw [hcount]
          simp only [List.mem_cons, List.not_mem_nil, or_false]
          exact Or.comm
      · have hlate : ¬ ((step = LoadStep.ramdiskPages ∨ step = LoadStep.ramdiskPlacement ∨
            step = LoadStep.kernelPages) ∨ ((step = LoadStep.notRelocatable ∨
            step = LoadStep.bootParams) ∧ sizeToPages ksize = sizeToPages initSize)) := by
          rcases hstep with rfl | rfl | rfl <;> simp
        refine iff_of_false ?_ hlate
        intro hsame
        -- The pages of `boot_params` are freed nowhere.
        rcases List.exists_mem_of_ne_nil rest hrest with ⟨r, hr⟩
        have hfreed := (hsame r).mpr (by simp [hr])
        have hbeforeKernel := Granted.base_ne hgranted.2 hr
        have hbeforeRamdisk := hgranted.base_ne (List.mem_cons_of_mem _ hr)
        simp only [List.mem_cons, List.not_mem_nil, or_false] at hfreed
        rcases hfreed with rfl | rfl
        · exact hbeforeKernel rfl
        · exact hbeforeRamdisk rfl

end GivesUp

theorem sameRuns_cons_iff {line last : PageRun} {held freed : List PageRun}
    (hbase : last.base = line.base) (hheld : forall r, r ∈ held -> r.base ≠ line.base)
    (hfreed : forall r, r ∈ freed -> r.base ≠ line.base) :
    (forall r, r ∈ freed ++ [last] <-> r ∈ line :: held) <->
      last = line ∧ forall r, r ∈ freed <-> r ∈ held := by
  simp only [List.mem_append, List.mem_cons, List.not_mem_nil, or_false]
  constructor
  · intro h
    have hlast : last = line := by
      rcases (h last).mp (Or.inr rfl) with heq | hmem
      · exact heq
      · exact absurd hbase (hheld last hmem)
    refine ⟨hlast, ?_⟩
    intro r
    constructor
    · intro hr
      rcases (h r).mp (Or.inl hr) with rfl | hmem
      · exact absurd rfl (hfreed r hr)
      · exact hmem
    · intro hr
      rcases (h r).mpr (Or.inr hr) with hmem | rfl
      · exact hmem
      · exact absurd hbase (hheld r hr)
  · rintro ⟨rfl, h⟩ r
    rw [h r]
    exact Or.comm

theorem Accounts.balanced_iff {used : Finset Nat} {held freed : List PageRun} {t : LoadState}
    (h : Accounts used held freed t) :
    Balanced used t <-> forall r, r ∈ freed <-> r ∈ held := by
  unfold Balanced
  rw [h.used, h.calls]
  exact Foundation.balanced_iff h.granted

theorem Accounts.emit {used : Finset Nat} {held freed : List PageRun} {t : LoadState}
    (h : Accounts used held freed t) (block : PoolBlock) :
    Accounts used held freed (t.emit (LoadEvent.freePool block)) where
  granted := h.granted
  used := h.used
  calls := by
    rw [(After.quiet (by rfl) (by rfl) : After t [] [] _).calls, h.calls]
    simp

theorem outCmdline_balanced_iff (env : LoadEnv) {used : Finset Nat} {buf base : Nat}
    {rsize ksize initSize : Nat} {step : LoadStep} {status : EfiStatus} {line : List UInt8}
    {held freed : List PageRun} {t : LoadState}
    (hshape : GivesUp rsize ksize initSize step held freed)
    (haccounts : Accounts used
      ({ base := base, count := sizeToPages (line.length + 1) } :: held) freed t)
    (hpointer : base ≠ 0 -> le32 t.image (buf + SetupHeader.cmdLinePtr) = base ∧
      t.commandLine = some (base, line)) :
    Balanced used (outCmdline env buf (LoadEnd.failed step status) t).2 <->
      line = [] ∧ base ≠ 0 ∧
        (BeforeKernel step ∨
          (BeforeBootParams step ∧ sizeToPages ksize = sizeToPages initSize)) := by
  have hheld : forall r, r ∈ held -> r.base ≠ base := fun r hr =>
    haccounts.granted.base_ne hr
  have hfreed : forall r, r ∈ freed -> r.base ≠ base := by
    intro r hr
    rcases hshape.base_of_freed hr with ⟨r', hr', heq⟩
    rw [← heq]
    exact hheld r' hr'
  have hrest := hshape.frees_held_iff haccounts.granted.2
  unfold outCmdline
  dsimp only
  by_cases hbase : base = 0
  · -- The pages at address 0 are freed nowhere: a start never frees address 0.
    refine iff_of_false ?_ (fun h => h.2.1 hbase)
    have hkept : forall freed', (forall r, r ∈ freed' -> r.base ≠ base) ->
        forall {u}, Accounts used
          ({ base := base, count := sizeToPages (line.length + 1) } :: held) freed' u ->
        ¬ Balanced used u := by
      intro freed' hothers u hu hbalanced
      have hmem := (hu.balanced_iff.mp hbalanced _).mpr (List.mem_cons_self ..)
      exact hothers _ hmem rfl
    split
    · exact hkept freed hfreed (haccounts.emit _)
    · rename_i hptr
      refine hkept _ ?_ ((haccounts.freePages _ _).emit _)
      intro r hr
      rcases List.mem_append.mp hr with hr | hr
      · exact hfreed r hr
      · rw [List.mem_singleton.mp hr, hbase]
        exact hptr
  · rcases hpointer hbase with ⟨hptr, hline⟩
    rw [hptr, if_neg hbase]
    have hstring : stringAt env t base = line := by simp [stringAt, hline]
    rw [hstring]
    show Balanced used ((freePages base (line.length + 1) t).emit _) <-> _
    rw [((haccounts.freePages base (line.length + 1)).emit _).balanced_iff,
      sameRuns_cons_iff (by rfl) hheld hfreed, hrest]
    have hcount : ({ base := base, count := line.length + 1 } : PageRun) =
        { base := base, count := sizeToPages (line.length + 1) } <-> line = [] := by
      rw [PageRun.mk.injEq, @eq_comm _ (line.length + 1),
        sizeToPages_eq_self_iff (Nat.succ_pos _)]
      simp
    rw [hcount]
    simp [hbase]

/--
When `android_image_start_buffer` fails, the pages in use are the ones from
before and every free names a run handed out in the same start, exactly at the
failures described by `BalancedFailure`.
-/
theorem startBuffer_balanced_iff (env : LoadEnv) (append : Option (List UInt8))
    (hooks : Option BootimgHooks) (image : Mem) (used : Finset Nat) (step : LoadStep)
    (status : EfiStatus) (t : LoadState)
    (hrun : startBuffer env append hooks (LoadState.enter image used) =
      (LoadEnd.failed step status, t)) :
    Balanced used t <-> BalancedFailure env append image step := by
  have hearly : forall {step' : LoadStep} {status' : EfiStatus} {uses : List LoadEvent}
      {u : LoadState}, After (LoadState.enter image used) [] uses u ->
      BeforeCommandLine step' ->
      (LoadEnd.failed step status, t) = outBootimage (LoadEnd.failed step' status') u ->
      (Balanced used t <-> BalancedFailure env append image step) := by
    intro step' status' uses u hu hstep heq
    cases heq
    have haccounts := (hu.accounts rfl).emit PoolBlock.bootImage
    exact iff_of_true (haccounts.balanced_iff.mpr (by simp)) (Or.inl hstep)
  have hbuffer := startBuffer_outcome env append hooks (LoadState.enter image used)
  rw [hrun] at hbuffer
  generalize hresult : (LoadEnd.failed step status, t) = result at hbuffer
  cases hbuffer with
  | rejected hstep hafter =>
      apply hearly hafter _ hresult
      rcases hstep with hstep | hstep | hstep <;> simp [BeforeCommandLine, hstep]
  | divided => cases congrArg Prod.fst hresult
  | @verified s _ hcheck himage hpages =>
      have hnone : s.calls = [] := hcheck.calls
      have houtcome := startVerified_outcome env append hooks hnone
        (congrArg (fun image => (aospHeader image).pageSize) himage)
      rw [← hresult] at houtcome
      generalize hfail : (LoadEnd.failed step status, t) = result at houtcome
      cases houtcome with
      | noLine hstep hafter =>
          apply hearly (hcheck.trans hafter) _ hfail
          rcases hstep with hstep | hstep | hstep <;> simp [BeforeCommandLine, hstep]
      | @gaveUp _ _ base line held freed u hshape hbase hline haccounts hpointer =>
          have hfst := congrArg Prod.fst hfail
          rw [outCmdline_fst] at hfst
          cases hfst
          have hiff : Balanced s.used (outCmdline env (aospHeader image).pageSize
              (LoadEnd.failed step status) u).2 <-> _ :=
            outCmdline_balanced_iff env hshape haccounts hpointer
          rw [show s.used = used from hcheck.used, show s.image = image from himage] at hiff
          rw [show s.image = image from himage] at hline
          rw [show s.pageCalls = 0 from hpages] at hbase
          have ht : t = (outCmdline env (aospHeader image).pageSize
              (LoadEnd.failed step status) u).2 := congrArg Prod.snd hfail
          rw [ht, hiff, hline, hbase]
          unfold BalancedFailure
          rw [or_iff_right hshape.not_beforeCommandLine]
          exact Iff.rfl
      | jumped => cases congrArg Prod.fst hfail

def noMapEnv : LoadEnv :=
  { smallEnv with mapReplies := fun _ => [] }

def failedStart (append : Option (List UInt8)) : LoadEnd × LoadState :=
  startBuffer noMapEnv append none (LoadState.enter (smallImage 0x1000 0x1000 0) ∅)

theorem startBuffer_balanced_iff_of_empty_line : Balanced ∅ (failedStart none).2 := by
  have hend : (failedStart none).1 =
      LoadEnd.failed LoadStep.ramdiskPages EfiStatus.outOfResources := by
    decide +kernel
  have hrun : failedStart none = (LoadEnd.failed LoadStep.ramdiskPages EfiStatus.outOfResources,
      (failedStart none).2) := by
    rw [← hend]
  have hiff := startBuffer_balanced_iff noMapEnv none none (smallImage 0x1000 0x1000 0) ∅
    LoadStep.ramdiskPages EfiStatus.outOfResources (failedStart none).2 hrun
  apply hiff.mpr
  right
  refine ⟨⟨rfl, ?_⟩, ?_, Or.inl (Or.inl rfl)⟩
  · decide +kernel
  · decide

/-- The line " q" has one page, and three are freed: the page stays in use. -/
theorem startBuffer_line_not_freed :
    (failedStart (some [0x71])).1 =
        LoadEnd.failed LoadStep.ramdiskPages EfiStatus.outOfResources ∧
      ¬ Balanced ∅ (failedStart (some [0x71])).2 := by
  constructor
  · decide +kernel
  · intro h
    have hused : (failedStart (some [0x71])).2.used ≠ ∅ := by
      decide +kernel
    exact hused h.1

end BootImage
end BootableUefi
