import BootableUefi.BootImage.OsVerification

/-!
# How far a start comes

The steps of a start that may fail, one after the other.  The check of the
signature, the two copies, the fill of `boot_params` and the hook before the
exit are logged exactly by the starts that come to them.
-/

namespace BootableUefi
namespace BootImage

open Firmware Foundation

def LoadEvent.milestone : LoadEvent -> Bool
  | checkSignature _ _ _ => true
  | copy _ _ _ _ => true
  | bootParams _ _ => true
  | beforeExit => true
  | _ => false

def LoadState.milestones (s : LoadState) : List LoadEvent :=
  s.log.filter LoadEvent.milestone

abbrev Between (s t : LoadState) : Prop :=
  SameEvents LoadEvent.milestone s t

section Between

variable {s t : LoadState}

theorem SameEvents.milestones (h : Between s t) : t.milestones = s.milestones :=
  h

theorem SameEvents.milestones_eq {events : List LoadEvent} (h : Between s t)
    (hs : s.milestones = events) : t.milestones = events :=
  Eq.trans h hs

theorem milestones_emit (event : LoadEvent) (s : LoadState) :
    (s.emit event).milestones = s.milestones ++ [event].filter LoadEvent.milestone :=
  filter_log_emit LoadEvent.milestone event s

theorem freePages_between (memory count : Nat) (s : LoadState) :
    Between s (freePages memory count s) :=
  freePages_sameEvents rfl s

theorem allocatePages_between (env : LoadEnv) (type : AllocateType) (count memory : Nat)
    (s : LoadState) : Between s (allocatePages env type count memory s).2.2 :=
  allocatePages_sameEvents env type count memory s fun _ => rfl

theorem emalloc_between (env : LoadEnv) (size align : Nat) (s : LoadState) :
    Between s (emalloc env size align s).2 :=
  emalloc_sameEvents env size align s fun _ => rfl

theorem outBootimage_between (ending : LoadEnd) (s : LoadState) :
    Between s (outBootimage ending s).2 :=
  SameEvents.emit rfl

theorem outCmdline_between (env : LoadEnv) (buf : Nat) (ending : LoadEnd) (s : LoadState) :
    Between s (outCmdline env buf ending s).2 := by
  unfold outCmdline
  dsimp only
  split
  · exact outBootimage_between ending s
  · exact (freePages_between _ _ s).trans (outBootimage_between ending _)

theorem abandonKernel_between (kernelStart ksize : Nat) (step : LoadStep) (status : EfiStatus)
    (s : LoadState) : Between s (abandonKernel kernelStart ksize step status s).2 :=
  freePages_between kernelStart (sizeToPages ksize) s

end Between

theorem placeCommandLine_between (env : LoadEnv) (block : PoolBlock) (line : List UInt8)
    (s : LoadState) : Between s (placeCommandLine env block line s).2 := by
  have hplacing := placeCommandLine_placing env block line s
  generalize placeCommandLine env block line s = result at hplacing ⊢
  cases hplacing with
  | refused hsame => exact hsame.sameEvents.trans (SameEvents.emit rfl)
  | pageZero hgrant => exact (hgrant.sameEvents rfl).trans (SameEvents.emit rfl)
  | stored hne hgrant =>
      exact (((hgrant.sameEvents rfl).trans (SameEvents.emit rfl)).trans
        (SameEvents.emit rfl)).trans (SameEvents.of_log rfl)

theorem setupCommandLine_between (env : LoadEnv) (append : Option (List UInt8))
    (s : LoadState) : Between s (setupCommandLine env append s).2 := by
  unfold setupCommandLine
  dsimp only
  split
  · exact SameEvents.of_log rfl
  · split
    · exact placeCommandLine_between env _ _ s
    · split
      · exact (SameEvents.emit rfl).trans (placeCommandLine_between env _ _ _)
      · split
        · exact SameEvents.emit rfl
        · exact ((SameEvents.emit rfl).trans (SameEvents.emit rfl)).trans
            (placeCommandLine_between env _ _ _)

/-!
# The steps
-/

section Steps

variable (env : LoadEnv) (append : Option (List UInt8)) (s : LoadState)

def imageAccepted : Option LoadState :=
  let hdr := aospHeader s.image
  if WellFormed s.image ∧
      env.checkSignature s.image hdr.signedSize hdr.signedSize hdr.sigSize =
        EfiStatus.success then
    some (s.emit hdr.signatureCheck)
  else
    none

def passed : Option (LoadStep × EfiStatus) × LoadState -> Option LoadState
  | (none, t) => some t
  | (some _, _) => none

/-- The kernel is in its pages; one that cannot be moved has to be where it prefers. -/
def kernelLoaded : Option LoadState :=
  let buf := (aospHeader s.image).pageSize
  (kernelPages env s).bind fun pages =>
    if byteAt pages.2.image (buf + SetupHeader.relocatableKernel) = 0 ∧
        pages.1 ≠ le64 pages.2.image (buf + SetupHeader.prefAddress) then
      none
    else
      some (pages.2.emit (LoadEvent.copy ImagePart.kernel (buf + setupSize s.image buf)
        (kernelCopySize s.image buf) (env.arch.uintn pages.1)))

/-!
# The steps up to a point of a start
-/

def ramdiskReached : Option LoadState :=
  ((imageAccepted env s).bind fun t => passed (setupCommandLine env append t)).bind fun t =>
    passed (setupRamdisk env t)

def kernelReached : Option LoadState :=
  (ramdiskReached env append s).bind fun t => kernelLoaded env t

def bootParamsReached : Option LoadState :=
  (kernelReached env append s).bind fun t =>
    bootParamsFilled env t (aospHeader s.image).pageSize

def hooksReached : Option LoadState :=
  (bootParamsReached env append s).bind fun t => tablesPlaced env t

end Steps

/-!
# The milestones of a run
-/

def hookEvents (hooks : Option BootimgHooks) : List LoadEvent :=
  if hooks.any fun h => h.beforeExit then [LoadEvent.beforeExit] else []

def lateMilestones (env : LoadEnv) (hooks : Option BootimgHooks) (buf : Nat) (s : LoadState) :
    List LoadEvent :=
  match bootParamsFilled env s buf with
  | none => s.milestones
  | some t =>
      match tablesPlaced env t with
      | none => t.milestones
      | some u => u.milestones ++ hookEvents hooks

section Runs

variable (env : LoadEnv) (append : Option (List UInt8)) (hooks : Option BootimgHooks)

theorem hooked_milestones (watchdogEn : Bool) (s : LoadState) :
    (s.hooked watchdogEn hooks).milestones = s.milestones ++ hookEvents hooks := by
  have hwatched : Between s (s.emitIf (watchdogEn && hooks.any fun h => h.watchdog)
      LoadEvent.watchdog) := SameEvents.emitIf _ rfl
  unfold LoadState.hooked
  generalize s.emitIf (watchdogEn && _) LoadEvent.watchdog = watched at hwatched ⊢
  show (watched.emitIf (hooks.any fun h => h.beforeExit) LoadEvent.beforeExit).milestones = _
  rw [← hwatched.milestones]
  unfold LoadState.emitIf hookEvents
  split
  · exact milestones_emit _ watched
  · exact (List.append_nil _).symm

theorem leaveFirmware_milestones (watchdogEn : Bool) (kernelStart ksize bootAddr : Nat)
    (s : LoadState) :
    (leaveFirmware env watchdogEn hooks kernelStart ksize bootAddr s).2.milestones =
      s.milestones ++ hookEvents hooks := by
  have hhooked := hooked_milestones hooks watchdogEn s
  have hleaving := leaveFirmware_leaving env watchdogEn hooks kernelStart ksize bootAddr s
  generalize leaveFirmware env watchdogEn hooks kernelStart ksize bootAddr s = result
    at hleaving ⊢
  cases hleaving with
  | abandoned => exact (abandonKernel_between _ _ _ _ _).milestones_eq hhooked
  | jumped =>
      have hjumped : Between (s.hooked watchdogEn hooks) ((s.hooked watchdogEn hooks).emitIf
        (hooks.any fun h => h.beforeJump) LoadEvent.beforeJump) := SameEvents.emitIf _ rfl
      exact hjumped.milestones_eq hhooked

theorem loadKernel_milestones (watchdogEn : Bool) (buf source ksize kernelStart : Nat)
    (s : LoadState) :
    (loadKernel env watchdogEn hooks buf source ksize kernelStart s).2.milestones =
      if Misplaced buf kernelStart s.image then s.milestones
      else lateMilestones env hooks buf (s.copied env source ksize kernelStart) := by
  have hloading := loadKernel_loading env watchdogEn hooks buf source ksize kernelStart s
  generalize loadKernel env watchdogEn hooks buf source ksize kernelStart s = result
    at hloading ⊢
  unfold lateMilestones
  cases hloading with
  | misplaced hplace =>
      rw [if_pos hplace]
      exact abandonKernel_between _ _ _ _ _
  | noParams hplace hparams hsame =>
      rw [if_neg hplace, hparams]
      exact hsame.sameEvents.trans (abandonKernel_between _ _ _ _ _)
  | noTables hplace hparams hgrant htables hsame =>
      rw [if_neg hplace, hparams]
      dsimp only
      rw [htables]
      exact hsame.sameEvents.trans (abandonKernel_between _ _ _ _ _)
  | leaves hplace hparams hgrant htables hgdt =>
      rw [if_neg hplace, hparams]
      dsimp only
      rw [htables]
      exact leaveFirmware_milestones env hooks watchdogEn kernelStart ksize _ _

theorem screened_between (s : LoadState) : Between s (s.screened env) :=
  SameEvents.of_log rfl

theorem kernelLoaded_eq {s t : LoadState} {kernelStart : Nat}
    (h : kernelPages env s = some (kernelStart, t)) :
    kernelLoaded env s =
      if Misplaced (aospHeader s.image).pageSize kernelStart t.image then none
      else some (t.copied env
        ((aospHeader s.image).pageSize + setupSize s.image (aospHeader s.image).pageSize)
        (kernelCopySize s.image (aospHeader s.image).pageSize) kernelStart) := by
  unfold kernelLoaded
  rw [h]
  rfl

theorem kernelLoaded_eq_none {s : LoadState} (h : kernelPages env s = none) :
    kernelLoaded env s = none := by
  unfold kernelLoaded
  rw [h]
  rfl

theorem handoverKernel_milestones (watchdogEn : Bool) (s : LoadState) :
    (handoverKernel env watchdogEn hooks s).2.milestones =
      match kernelLoaded env s with
      | none => s.milestones
      | some t => lateMilestones env hooks (aospHeader s.image).pageSize t := by
  have hscreen := screened_between env s
  have hhandover := handoverKernel_handover env watchdogEn hooks s
  generalize handoverKernel env watchdogEn hooks s = result at hhandover ⊢
  cases hhandover with
  | noPages hpages hsame =>
      rw [kernelLoaded_eq_none env hpages]
      exact hscreen.trans hsame.sameEvents
  | loads hpages hgrant =>
      rw [kernelLoaded_eq env hpages, loadKernel_milestones]
      split
      · exact hscreen.trans (hgrant.sameEvents rfl)
      · rfl

theorem setupRamdisk_cases (s : LoadState) :
    (exists step status t, setupRamdisk env s = (some (step, status), t) ∧ Between s t) ∨
    (exists base t, setupRamdisk env s = (none, t) ∧
      aospHeader t.image = aospHeader s.image ∧
      t.milestones = s.milestones ++ [LoadEvent.copy ImagePart.ramdisk
        (aospHeader s.image).ramdiskOffset (aospHeader s.image).ramdiskSize base]) := by
  have hsized : aospHeader s.sized.image = aospHeader s.image :=
    (sameLayout_store s.image _ (by decide) (by decide)).header
  have hstart : Between s s.sized := SameEvents.of_log rfl
  have hsetup := setupRamdisk_setup env s
  generalize setupRamdisk env s = result at hsetup ⊢
  cases hsetup with
  | noPages hsame => exact Or.inl ⟨_, _, _, rfl, hstart.trans hsame.sameEvents⟩
  | tooHigh hgrant =>
      exact Or.inl ⟨_, _, _, rfl,
        (hstart.trans (hgrant.sameEvents rfl)).trans (freePages_between _ _ _)⟩
  | @placed base t hgrant hlow =>
      refine Or.inr ⟨base, _, rfl, ?_, ?_⟩
      · show aospHeader (store 4 _ base t.image) = _
        rw [hgrant.image, ← hsized]
        exact aospHeader_store (by simp [SetupHeader.ramdiskImage])
      · show (t.emit _).milestones = _
        rw [milestones_emit, (hstart.trans (hgrant.sameEvents rfl)).milestones]
        rfl

theorem startVerified_milestones (buf : Nat) (s : LoadState) :
    (startVerified env append hooks buf s).2.milestones =
      match (passed (setupCommandLine env append s)).bind fun t =>
        passed (setupRamdisk env t) with
      | none => s.milestones
      | some t =>
          match kernelLoaded env t with
          | none => t.milestones
          | some u => lateMilestones env hooks (aospHeader t.image).pageSize u := by
  have hlined := setupCommandLine_between env append s
  have hstarting := startVerified_starting env append hooks buf s
  generalize startVerified env append hooks buf s = result at hstarting ⊢
  cases hstarting with
  | noLine hline =>
      rw [hline] at hlined ⊢
      exact hlined.trans (outBootimage_between _ _)
  | @noRamdisk step status t u hline hramdisk =>
      rw [hline] at hlined ⊢
      dsimp only [passed, Option.bind_some]
      rcases setupRamdisk_cases env t with ⟨_, _, _, heq, hsized⟩ | ⟨_, _, heq, -⟩
      · rw [hramdisk] at heq ⊢
        cases heq
        exact (hlined.trans hsized).trans (outCmdline_between env buf _ u)
      · rw [hramdisk] at heq
        cases heq
  | @noKernel step status t u v hline hramdisk hkernel =>
      have hmilestones := handoverKernel_milestones env hooks (watchdogEnabled env buf u) u
      rw [hkernel] at hmilestones
      rw [hline]
      dsimp only [passed, Option.bind_some]
      rw [hramdisk]
      exact ((freePages_between _ _ v).trans (outCmdline_between env buf _ _)).milestones_eq
        hmilestones
  | @leaves ending t u v hline hramdisk hkernel =>
      have hmilestones := handoverKernel_milestones env hooks (watchdogEnabled env buf u) u
      rw [hkernel] at hmilestones
      rw [hline]
      dsimp only [passed, Option.bind_some]
      rw [hramdisk]
      exact hmilestones

theorem ramdiskReached_milestones {s t : LoadState} (h : ramdiskReached env append s = some t) :
    WellFormed s.image ∧ aospHeader t.image = aospHeader s.image ∧
      exists base, t.milestones = s.milestones ++ [(aospHeader s.image).signatureCheck,
        LoadEvent.copy ImagePart.ramdisk (aospHeader s.image).ramdiskOffset
          (aospHeader s.image).ramdiskSize base] := by
  rcases Option.bind_eq_some_iff.mp h with ⟨v, hline, hramdisk⟩
  rcases Option.bind_eq_some_iff.mp hline with ⟨u, haccepted, hline⟩
  unfold imageAccepted at haccepted
  dsimp only at haccepted
  split at haccepted
  · rename_i hchecks
    cases haccepted
    have hlined := setupCommandLine_between env append
      (s.emit (aospHeader s.image).signatureCheck)
    have houtcome := setupCommandLine_outcome env append
      (s.emit (aospHeader s.image).signatureCheck)
    generalize setupCommandLine env append _ = result at hline hlined houtcome
    cases houtcome with
    | failed => cases hline
    | placed hplaced _ =>
        cases hline
        have hheader : aospHeader v.image = aospHeader s.image := hplaced.layout.header
        rcases setupRamdisk_cases env v with
          ⟨step, status, u, heq, -⟩ | ⟨base, u, heq, hsame, hcopied⟩
        · rw [heq] at hramdisk
          cases hramdisk
        · rw [heq] at hramdisk
          cases hramdisk
          refine ⟨hchecks.1, hsame.trans hheader, base, ?_⟩
          rw [hcopied, hheader, hlined.milestones, milestones_emit, List.append_assoc]
          rfl
  · cases haccepted

def startMilestones (s : LoadState) : List LoadEvent :=
  match ramdiskReached env append s with
  | none =>
      s.milestones ++
        if WellFormed s.image then [(aospHeader s.image).signatureCheck] else []
  | some t =>
      match kernelLoaded env t with
      | none => t.milestones
      | some u => lateMilestones env hooks (aospHeader s.image).pageSize u

theorem startMilestones_of_not_wellFormed {s : LoadState} (h : ¬ WellFormed s.image) :
    startMilestones env append hooks s = s.milestones := by
  unfold startMilestones
  cases hreached : ramdiskReached env append s with
  | none =>
      dsimp only
      rw [if_neg h, List.append_nil]
  | some t => exact absurd (ramdiskReached_milestones env append hreached).1 h

theorem startBuffer_milestones (s : LoadState) :
    (startBuffer env append hooks s).2.milestones = startMilestones env append hooks s := by
  have hchecked : (s.emit (aospHeader s.image).signatureCheck).milestones =
      s.milestones ++ [(aospHeader s.image).signatureCheck] := milestones_emit _ s
  have hchecking := startBuffer_checking env append hooks s
  generalize startBuffer env append hooks s = result at hchecking ⊢
  cases hchecking with
  | corrupt _ hformed =>
      rw [startMilestones_of_not_wellFormed env append hooks hformed]
      exact outBootimage_between _ s
  | divided hformed => rw [startMilestones_of_not_wellFormed env append hooks hformed]
  | refused hformed _ hverdict =>
      have hnone : imageAccepted env s = none := if_neg fun h => hverdict h.2
      unfold startMilestones ramdiskReached
      rw [hnone, Option.bind_none, Option.bind_none]
      dsimp only
      rw [if_pos hformed]
      exact (outBootimage_between _ _).milestones_eq hchecked
  | verified hformed _ hverdict =>
      have haccepted : imageAccepted env s = some (s.emit (aospHeader s.image).signatureCheck) :=
        if_pos ⟨hformed, hverdict⟩
      have hheader : forall t, ramdiskReached env append s = some t ->
          aospHeader t.image = aospHeader s.image :=
        fun t h => (ramdiskReached_milestones env append h).2.1
      rw [startVerified_milestones]
      unfold startMilestones
      unfold ramdiskReached at hheader ⊢
      rw [haccepted, Option.bind_some] at hheader ⊢
      generalize (passed (setupCommandLine env append _)).bind _ = reached at hheader ⊢
      cases reached with
      | none =>
          dsimp only
          rw [if_pos hformed]
          exact hchecked
      | some t =>
          dsimp only
          rw [hheader t rfl]

theorem kernelLoaded_milestones {s t : LoadState} (h : kernelLoaded env s = some t) :
    exists destination, t.milestones = s.milestones ++ [LoadEvent.copy ImagePart.kernel
      ((aospHeader s.image).pageSize + setupSize s.image (aospHeader s.image).pageSize)
      (kernelCopySize s.image (aospHeader s.image).pageSize) destination] := by
  have hhandover := handoverKernel_handover env true none s
  generalize handoverKernel env true none s = result at hhandover
  cases hhandover with
  | noPages hpages =>
      rw [kernelLoaded_eq_none env hpages] at h
      cases h
  | @loads kernelStart u hpages hgrant =>
      rw [kernelLoaded_eq env hpages] at h
      split at h
      · cases h
      · cases h
        refine ⟨env.arch.uintn kernelStart, ?_⟩
        have hbetween := (screened_between env s).trans (hgrant.sameEvents rfl)
        unfold LoadState.copied
        rw [milestones_emit, hbetween.milestones]
        rfl

theorem bootParamsFilled_milestones {s t : LoadState} {buf : Nat}
    (h : bootParamsFilled env s buf = some t) :
    exists destination, t.milestones = s.milestones ++ [LoadEvent.bootParams buf destination] := by
  have hpages := allocatePages_between env AllocateType.maxAddress (sizeToPages 16384)
    0x3fffffff s
  unfold bootParamsFilled at h
  generalize allocatePages env AllocateType.maxAddress _ 0x3fffffff s = result at h hpages
  rcases result with ⟨status, bootAddr, u⟩
  cases status with
  | success =>
      cases h
      refine ⟨bootAddr, ?_⟩
      rw [milestones_emit, hpages.milestones]
      rfl
  | _ => cases h

theorem tablesPlaced_between {s t : LoadState} (h : tablesPlaced env s = some t) :
    Between s t := by
  have htables := emalloc_between env gdtLimit 8 s
  unfold tablesPlaced at h
  generalize emalloc env gdtLimit 8 s = result at h htables
  rcases result with ⟨base, u⟩
  cases base with
  | error status => cases h
  | ok base =>
      cases h
      exact htables

/-- The points a start comes to, and its milestones. -/
inductive Progress (hdr : BootImgHdr) (hooks : Option BootimgHooks) :
    Option LoadState -> Option LoadState -> Option LoadState -> Option LoadState ->
      List LoadEvent -> Prop where
  | early {events : List LoadEvent}
      (honly : forall event, event ∈ events -> event = hdr.signatureCheck) :
      Progress hdr hooks none none none none events
  | ramdisk {ramdisk : LoadState} {base : Nat} :
      Progress hdr hooks (some ramdisk) none none none
        [hdr.signatureCheck,
          LoadEvent.copy ImagePart.ramdisk hdr.ramdiskOffset hdr.ramdiskSize base]
  | kernel {ramdisk kernel : LoadState} {base source size destination : Nat} :
      Progress hdr hooks (some ramdisk) (some kernel) none none
        [hdr.signatureCheck,
          LoadEvent.copy ImagePart.ramdisk hdr.ramdiskOffset hdr.ramdiskSize base,
          LoadEvent.copy ImagePart.kernel source size destination]
  | bootParams {ramdisk kernel bootParams : LoadState} {base source size destination bootAddr : Nat} :
      Progress hdr hooks (some ramdisk) (some kernel) (some bootParams) none
        [hdr.signatureCheck,
          LoadEvent.copy ImagePart.ramdisk hdr.ramdiskOffset hdr.ramdiskSize base,
          LoadEvent.copy ImagePart.kernel source size destination,
          LoadEvent.bootParams hdr.pageSize bootAddr]
  | hooks {ramdisk kernel bootParams tables : LoadState}
      {base source size destination bootAddr : Nat} :
      Progress hdr hooks (some ramdisk) (some kernel) (some bootParams) (some tables)
        ([hdr.signatureCheck,
          LoadEvent.copy ImagePart.ramdisk hdr.ramdiskOffset hdr.ramdiskSize base,
          LoadEvent.copy ImagePart.kernel source size destination,
          LoadEvent.bootParams hdr.pageSize bootAddr] ++ hookEvents hooks)

theorem startBuffer_progress {s : LoadState} (hlog : s.log = []) :
    Progress (aospHeader s.image) hooks (ramdiskReached env append s)
      (kernelReached env append s) (bootParamsReached env append s) (hooksReached env append s)
      (startBuffer env append hooks s).2.milestones := by
  have hnone : s.milestones = [] := by
    unfold LoadState.milestones
    rw [hlog]
    rfl
  rw [startBuffer_milestones]
  unfold startMilestones hooksReached bootParamsReached kernelReached
  cases hramdisk : ramdiskReached env append s with
  | none =>
      refine Progress.early ?_
      intro event hevent
      dsimp only at hevent
      rw [hnone, List.nil_append] at hevent
      split at hevent
      · exact List.mem_singleton.mp hevent
      · cases hevent
  | some t =>
      rcases (ramdiskReached_milestones env append hramdisk).2.2 with ⟨base, ht⟩
      rw [hnone, List.nil_append] at ht
      rw [Option.bind_some]
      dsimp only
      cases hkernel : kernelLoaded env t with
      | none =>
          dsimp only
          rw [ht]
          exact Progress.ramdisk
      | some u =>
          rcases kernelLoaded_milestones env hkernel with ⟨destination, hu⟩
          rw [ht] at hu
          rw [Option.bind_some]
          unfold lateMilestones
          dsimp only
          cases hparams : bootParamsFilled env u (aospHeader s.image).pageSize with
          | none =>
              dsimp only
              rw [hu]
              exact Progress.kernel
          | some v =>
              rcases bootParamsFilled_milestones env hparams with ⟨bootAddr, hv⟩
              rw [hu] at hv
              rw [Option.bind_some]
              dsimp only
              cases htables : tablesPlaced env v with
              | none =>
                  rw [hv]
                  exact Progress.bootParams
              | some w =>
                  have hw : w.milestones = v.milestones := tablesPlaced_between env htables
                  dsimp only
                  rw [hw, hv]
                  exact Progress.hooks

theorem mem_milestones {event : LoadEvent} (h : event.milestone = true) {t : LoadState} :
    event ∈ t.milestones <-> event ∈ t.log := by
  unfold LoadState.milestones
  rw [List.mem_filter]
  exact and_iff_left h

theorem signatureCheck_mem {s : LoadState} (hlog : s.log = []) (h : WellFormed s.image) :
    (aospHeader s.image).signatureCheck ∈ (startBuffer env append hooks s).2.log := by
  apply (mem_milestones rfl).mp
  cases hramdisk : ramdiskReached env append s with
  | none =>
      rw [startBuffer_milestones]
      unfold startMilestones
      rw [hramdisk]
      dsimp only
      rw [if_pos h]
      exact List.mem_append_right _ (List.mem_singleton_self _)
  | some t =>
      have hprogress := startBuffer_progress env append hooks hlog
      rw [hramdisk] at hprogress
      generalize (startBuffer env append hooks s).2.milestones = events at hprogress ⊢
      generalize kernelReached env append s = kernel at hprogress
      generalize bootParamsReached env append s = bootParams at hprogress
      generalize hooksReached env append s = tables at hprogress
      cases hprogress <;> exact List.mem_cons_self

theorem not_milestone_of_not_wellFormed {s : LoadState} (hlog : s.log = [])
    (h : ¬ WellFormed s.image) {event : LoadEvent}
    (hevent : event ∈ (startBuffer env append hooks s).2.log) : event.milestone = false := by
  by_contra hkept
  have hmem := (mem_milestones (Bool.eq_true_of_not_eq_false hkept)).mpr hevent
  rw [startBuffer_milestones, startMilestones_of_not_wellFormed env append hooks h] at hmem
  unfold LoadState.milestones at hmem
  rw [hlog] at hmem
  cases hmem

end Runs

/-!
# The points a start comes to
-/

inductive StartPoint where
  | ramdisk
  | kernel
  | bootParams
  | hooks
  deriving DecidableEq, Repr

def LoadEvent.point : LoadEvent -> Option StartPoint
  | copy ImagePart.ramdisk _ _ _ => some StartPoint.ramdisk
  | copy ImagePart.kernel _ _ _ => some StartPoint.kernel
  | bootParams _ _ => some StartPoint.bootParams
  | beforeExit => some StartPoint.hooks
  | _ => none

def StartPoint.reached (env : LoadEnv) (append : Option (List UInt8)) (s : LoadState) :
    StartPoint -> Option LoadState
  | ramdisk => ramdiskReached env append s
  | kernel => kernelReached env append s
  | bootParams => bootParamsReached env append s
  | hooks => hooksReached env append s

/-- A start logs an event of a point exactly if it comes to that point. -/
theorem startBuffer_point_iff (env : LoadEnv) (append : Option (List UInt8))
    (hooks : Option BootimgHooks) {s : LoadState} (hlog : s.log = []) (point : StartPoint)
    (hhooks : point = StartPoint.hooks -> (hooks.any fun h => h.beforeExit) = true) :
    (exists event, event ∈ (startBuffer env append hooks s).2.log ∧ event.point = some point) <->
      (point.reached env append s).isSome = true := by
  have hmilestone : forall event : LoadEvent, event.point = some point ->
      event.milestone = true := by
    intro event hpoint
    cases event with
    | checkSignature => rfl
    | copy => rfl
    | bootParams => rfl
    | beforeExit => rfl
    | _ => cases hpoint
  have hmem : (exists event, event ∈ (startBuffer env append hooks s).2.log ∧
        event.point = some point) <->
      exists event, event ∈ (startBuffer env append hooks s).2.milestones ∧
        event.point = some point := by
    constructor
    · rintro ⟨event, hevent, hpoint⟩
      exact ⟨event, (mem_milestones (hmilestone event hpoint)).mpr hevent, hpoint⟩
    · rintro ⟨event, hevent, hpoint⟩
      exact ⟨event, (mem_milestones (hmilestone event hpoint)).mp hevent, hpoint⟩
  have hprogress := startBuffer_progress env append hooks hlog
  rw [hmem]
  unfold StartPoint.reached
  generalize (startBuffer env append hooks s).2.milestones = events at hprogress ⊢
  generalize ramdiskReached env append s = ramdisk at hprogress ⊢
  generalize kernelReached env append s = kernel at hprogress ⊢
  generalize bootParamsReached env append s = bootParams at hprogress ⊢
  generalize hooksReached env append s = tables at hprogress ⊢
  cases hprogress with
  | early honly =>
      have hnone : ¬ exists event, event ∈ events ∧ event.point = some point := by
        rintro ⟨event, hevent, hpoint⟩
        rw [honly event hevent] at hpoint
        cases hpoint
      cases point <;> simpa using hnone
  | ramdisk => cases point <;> simp [LoadEvent.point, BootImgHdr.signatureCheck]
  | kernel => cases point <;> simp [LoadEvent.point, BootImgHdr.signatureCheck]
  | bootParams => cases point <;> simp [LoadEvent.point, BootImgHdr.signatureCheck]
  | hooks =>
      cases point with
      | hooks =>
          unfold hookEvents
          rw [if_pos (hhooks rfl)]
          simp [LoadEvent.point, BootImgHdr.signatureCheck]
      | _ => simp [LoadEvent.point, BootImgHdr.signatureCheck]

/-!
# How a start ends
-/

def Hooked (hooks : Option BootimgHooks) (result : LoadEnd × LoadState) : Prop :=
  match result.1 with
  | LoadEnd.failed _ _ => True
  | LoadEnd.divideError => False
  | LoadEnd.jumped _ _ => forall event, event ∈ hookEvents hooks -> event ∈ result.2.milestones

section Ends

variable (env : LoadEnv) (append : Option (List UInt8)) (hooks : Option BootimgHooks)

theorem leaveFirmware_hooked (watchdogEn : Bool) (kernelStart ksize bootAddr : Nat)
    (s : LoadState) :
    Hooked hooks (leaveFirmware env watchdogEn hooks kernelStart ksize bootAddr s) := by
  have hmilestones := leaveFirmware_milestones env hooks watchdogEn kernelStart ksize bootAddr s
  have hleaving := leaveFirmware_leaving env watchdogEn hooks kernelStart ksize bootAddr s
  generalize leaveFirmware env watchdogEn hooks kernelStart ksize bootAddr s = result
    at hmilestones hleaving ⊢
  cases hleaving with
  | abandoned => trivial
  | jumped =>
      intro event hevent
      rw [hmilestones]
      exact List.mem_append_right _ hevent

theorem loadKernel_hooked (watchdogEn : Bool) (buf source ksize kernelStart : Nat)
    (s : LoadState) :
    Hooked hooks (loadKernel env watchdogEn hooks buf source ksize kernelStart s) := by
  have hloading := loadKernel_loading env watchdogEn hooks buf source ksize kernelStart s
  generalize loadKernel env watchdogEn hooks buf source ksize kernelStart s = result
    at hloading ⊢
  cases hloading with
  | misplaced => trivial
  | noParams => trivial
  | noTables => trivial
  | leaves => exact leaveFirmware_hooked env hooks watchdogEn kernelStart ksize _ _

theorem handoverKernel_hooked (watchdogEn : Bool) (s : LoadState) :
    Hooked hooks (handoverKernel env watchdogEn hooks s) := by
  have hhandover := handoverKernel_handover env watchdogEn hooks s
  generalize handoverKernel env watchdogEn hooks s = result at hhandover ⊢
  cases hhandover with
  | noPages => trivial
  | loads => exact loadKernel_hooked env hooks watchdogEn _ _ _ _ _

theorem outCmdline_hooked (buf : Nat) (step : LoadStep) (status : EfiStatus) (s : LoadState) :
    Hooked hooks (outCmdline env buf (LoadEnd.failed step status) s) := by
  unfold Hooked
  rw [outCmdline_fst]
  trivial

theorem startVerified_hooked (buf : Nat) (s : LoadState) :
    Hooked hooks (startVerified env append hooks buf s) := by
  have hstarting := startVerified_starting env append hooks buf s
  generalize startVerified env append hooks buf s = result at hstarting ⊢
  cases hstarting with
  | noLine => trivial
  | noRamdisk => exact outCmdline_hooked env hooks buf _ _ _
  | noKernel => exact outCmdline_hooked env hooks buf _ _ _
  | @leaves ending t u v _ _ hkernel =>
      have hhooked := handoverKernel_hooked env hooks (watchdogEnabled env buf u) u
      rw [hkernel] at hhooked
      exact hhooked

/-- A start divides by zero, or comes back or leaves after the hooks. -/
theorem startBuffer_ends (s : LoadState) :
    (Divides s.image ∧ (startBuffer env append hooks s).1 = LoadEnd.divideError) ∨
      (¬ Divides s.image ∧ Hooked hooks (startBuffer env append hooks s)) := by
  have hchecking := startBuffer_checking env append hooks s
  generalize startBuffer env append hooks s = result at hchecking ⊢
  cases hchecking with
  | corrupt _ _ hdivides => exact Or.inr ⟨hdivides, trivial⟩
  | divided _ hdivides => exact Or.inl ⟨hdivides, rfl⟩
  | refused _ hdivides => exact Or.inr ⟨hdivides, trivial⟩
  | verified _ hdivides => exact Or.inr ⟨hdivides, startVerified_hooked env append hooks _ _⟩

end Ends

end BootImage
end BootableUefi
