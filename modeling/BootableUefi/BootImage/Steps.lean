import BootableUefi.BootImage.Start

/-!
# What each function of a start can do

Every function is taken apart once: which pages it gets, where it gives up, and
which function it goes on to, with all that has been done before.
-/

namespace BootableUefi
namespace BootImage

open Firmware Foundation

/-!
# The command line
-/

def LoadState.withLine (block : PoolBlock) (base : Nat) (line : List UInt8) (buf : Nat)
    (s : LoadState) : LoadState :=
  { (s.emit (LoadEvent.writeLine base (line.length + 1))).emit (LoadEvent.freePool block) with
    image := store 4 (buf + SetupHeader.cmdlineSize) (line.length + 1)
      (store 4 (buf + SetupHeader.cmdLinePtr) base s.image)
    commandLine := some (base, line) }

inductive LinePlacing (env : LoadEnv) (block : PoolBlock) (line : List UInt8) (s : LoadState) :
    Option (LoadStep × EfiStatus) × LoadState -> Prop where
  | refused {status : EfiStatus} {t : LoadState} (hsame : SameMemory s t) :
      LinePlacing env block line s
        (some (LoadStep.commandLinePages, status), t.emit (LoadEvent.freePool block))
  | pageZero {t : LoadState}
      (hgrant : HandsOut s { base := 0, count := sizeToPages (line.length + 1) } t)
      (hbase : 0 = (env.pageAnswer s.pageCalls).base) :
      LinePlacing env block line s (none, t.emit (LoadEvent.freePool block))
  | stored {base : Nat} {t : LoadState} (hne : base ≠ 0)
      (hgrant : HandsOut s { base := base, count := sizeToPages (line.length + 1) } t)
      (hlow : base + 4096 * sizeToPages (line.length + 1) ≤ 0xA0000 + 1)
      (hbase : base = (env.pageAnswer s.pageCalls).base) :
      LinePlacing env block line s
        (none, t.withLine block base line (aospHeader s.image).pageSize)

theorem placeCommandLine_placing (env : LoadEnv) (block : PoolBlock) (line : List UInt8)
    (s : LoadState) : LinePlacing env block line s (placeCommandLine env block line s) := by
  unfold placeCommandLine
  dsimp only
  rcases allocatePages_cases env AllocateType.maxAddress (sizeToPages (line.length + 1)) 0xA0000 s
    with ⟨status, t, heq, hstatus, hsame⟩ | ⟨base, t, heq, hgrant, hlow, hbase⟩
  · rw [heq]
    split
    · rename_i hsuccess
      exact absurd (congrArg Prod.fst hsuccess) hstatus
    · rename_i hfail
      cases hfail
      exact LinePlacing.refused hsame
  · rw [heq]
    dsimp only
    split
    · rename_i hzero
      subst hzero
      exact LinePlacing.pageZero hgrant hbase
    · rename_i hne
      exact LinePlacing.stored hne hgrant hlow hbase

/-!
# The ramdisk
-/

def LoadState.sized (s : LoadState) : LoadState :=
  let hdr := aospHeader s.image
  { s with image := store 4 (hdr.pageSize + SetupHeader.ramdiskSize) hdr.ramdiskSize s.image }

inductive RamdiskSetup (env : LoadEnv) (s : LoadState) :
    Option (LoadStep × EfiStatus) × LoadState -> Prop where
  | noPages {status : EfiStatus} {t : LoadState} (hsame : SameMemory s.sized t) :
      RamdiskSetup env s (some (LoadStep.ramdiskPages, status), t)
  | tooHigh {base : Nat} {t : LoadState}
      (hgrant : HandsOut s.sized
        { base := base, count := sizeToPages (aospHeader s.image).ramdiskSize } t) :
      RamdiskSetup env s (some (LoadStep.ramdiskPlacement, EfiStatus.outOfResources),
        efree base (aospHeader s.image).ramdiskSize t)
  | placed {base : Nat} {t : LoadState}
      (hgrant : HandsOut s.sized
        { base := base, count := sizeToPages (aospHeader s.image).ramdiskSize } t)
      (hlow : base < 2 ^ 32) :
      RamdiskSetup env s (none,
        { t.emit (LoadEvent.copy ImagePart.ramdisk (aospHeader s.image).ramdiskOffset
            (aospHeader s.image).ramdiskSize base) with
          image := store 4 ((aospHeader s.image).pageSize + SetupHeader.ramdiskImage) base
            t.image })

theorem setupRamdisk_setup (env : LoadEnv) (s : LoadState) :
    RamdiskSetup env s (setupRamdisk env s) := by
  unfold setupRamdisk
  dsimp only
  rcases emalloc_cases env (aospHeader s.image).ramdiskSize 0x1000 s.sized with
    ⟨status, t, heq, -, hsame⟩ | ⟨base, t, heq, hgrant, hia32⟩
  · have heq' := heq
    unfold LoadState.sized at heq'
    rw [heq']
    exact RamdiskSetup.noPages hsame
  · have heq' := heq
    unfold LoadState.sized at heq'
    rw [heq']
    dsimp only
    split
    · exact RamdiskSetup.tooHigh hgrant
    · rename_i hplace
      refine RamdiskSetup.placed hgrant ?_
      cases harch : env.arch with
      | ia32 => exact hia32 harch
      | x64 =>
          have hmax := le32_lt t.image ((aospHeader s.image).pageSize + SetupHeader.initrdAddrMax)
          rcases hgrant.free with ⟨-, hcount, hspace, -⟩
          rw [harch] at hplace
          unfold Arch.uintn Arch.uintnBits at hplace
          dsimp only at hplace hcount hspace
          omega

/-!
# The kernel
-/

/-- The state in which the memory map is asked for: two hooks have been called. -/
def LoadState.hooked (watchdogEn : Bool) (hooks : Option BootimgHooks) (s : LoadState) :
    LoadState :=
  let t := (s.emitIf (watchdogEn && hooks.any fun h => h.watchdog) LoadEvent.watchdog).emitIf
    (hooks.any fun h => h.beforeExit) LoadEvent.beforeExit
  { t with mapCalls := t.mapCalls + 1 }

@[simp]
theorem LoadState.emitIf_image (cond : Bool) (event : LoadEvent) (s : LoadState) :
    (s.emitIf cond event).image = s.image := by
  cases cond <;> rfl

@[simp]
theorem LoadState.emitIf_commandLine (cond : Bool) (event : LoadEvent) (s : LoadState) :
    (s.emitIf cond event).commandLine = s.commandLine := by
  cases cond <;> rfl

theorem LoadState.hooked_image (watchdogEn : Bool) (hooks : Option BootimgHooks)
    (s : LoadState) : (s.hooked watchdogEn hooks).image = s.image := by
  simp [LoadState.hooked]

theorem LoadState.hooked_commandLine (watchdogEn : Bool) (hooks : Option BootimgHooks)
    (s : LoadState) : (s.hooked watchdogEn hooks).commandLine = s.commandLine := by
  simp [LoadState.hooked]

inductive Leaving (watchdogEn : Bool) (hooks : Option BootimgHooks)
    (kernelStart ksize bootAddr : Nat) (s : LoadState) : LoadEnd × LoadState -> Prop where
  | abandoned {step : LoadStep} {status : EfiStatus}
      (hstep : step = LoadStep.memoryMap ∨ step = LoadStep.exitBootServices) :
      Leaving watchdogEn hooks kernelStart ksize bootAddr s
        (abandonKernel kernelStart ksize step status (s.hooked watchdogEn hooks))
  | jumped :
      Leaving watchdogEn hooks kernelStart ksize bootAddr s
        (LoadEnd.jumped kernelStart bootAddr, (s.hooked watchdogEn hooks).emitIf
          (hooks.any fun h => h.beforeJump) LoadEvent.beforeJump)

theorem leaveFirmware_leaving (env : LoadEnv) (watchdogEn : Bool) (hooks : Option BootimgHooks)
    (kernelStart ksize bootAddr : Nat) (s : LoadState) :
    Leaving watchdogEn hooks kernelStart ksize bootAddr s
      (leaveFirmware env watchdogEn hooks kernelStart ksize bootAddr s) := by
  unfold leaveFirmware
  dsimp only
  split
  · exact Leaving.abandoned (Or.inl rfl)
  · split
    · exact Leaving.abandoned (Or.inr rfl)
    · exact Leaving.jumped

def bootParamsFilled (env : LoadEnv) (s : LoadState) (buf : Nat) : Option LoadState :=
  match allocatePages env AllocateType.maxAddress (sizeToPages 16384) 0x3fffffff s with
  | (EfiStatus.success, bootAddr, t) => some (t.emit (LoadEvent.bootParams buf bootAddr))
  | _ => none

def tablesPlaced (env : LoadEnv) (s : LoadState) : Option LoadState :=
  match emalloc env gdtLimit 8 s with
  | (Except.ok _, t) => some t
  | (Except.error _, _) => none

/-- The kernel cannot be moved, and is not where it prefers to be. -/
def Misplaced (buf kernelStart : Nat) (image : Mem) : Prop :=
  byteAt image (buf + SetupHeader.relocatableKernel) = 0 ∧
    kernelStart ≠ le64 image (buf + SetupHeader.prefAddress)

instance (buf kernelStart : Nat) (image : Mem) : Decidable (Misplaced buf kernelStart image) :=
  inferInstanceAs (Decidable (_ ∧ _))

def LoadState.copied (env : LoadEnv) (source ksize kernelStart : Nat) (s : LoadState) :
    LoadState :=
  s.emit (LoadEvent.copy ImagePart.kernel source ksize (env.arch.uintn kernelStart))

inductive KernelLoading (env : LoadEnv) (watchdogEn : Bool) (hooks : Option BootimgHooks)
    (buf source ksize kernelStart : Nat) (s : LoadState) : LoadEnd × LoadState -> Prop where
  | misplaced (hplace : Misplaced buf kernelStart s.image) :
      KernelLoading env watchdogEn hooks buf source ksize kernelStart s
        (abandonKernel kernelStart ksize LoadStep.notRelocatable EfiStatus.loadError s)
  | noParams {status : EfiStatus} {t : LoadState} (hplace : ¬ Misplaced buf kernelStart s.image)
      (hparams : bootParamsFilled env (s.copied env source ksize kernelStart) buf = none)
      (hsame : SameMemory (s.copied env source ksize kernelStart) t) :
      KernelLoading env watchdogEn hooks buf source ksize kernelStart s
        (abandonKernel kernelStart ksize LoadStep.bootParams status t)
  | noTables {status : EfiStatus} {bootAddr : Nat} {t u : LoadState}
      (hplace : ¬ Misplaced buf kernelStart s.image)
      (hparams : bootParamsFilled env (s.copied env source ksize kernelStart) buf =
        some (t.emit (LoadEvent.bootParams buf bootAddr)))
      (hgrant : HandsOut (s.copied env source ksize kernelStart)
        { base := bootAddr, count := sizeToPages 16384 } t)
      (htables : tablesPlaced env (t.emit (LoadEvent.bootParams buf bootAddr)) = none)
      (hsame : SameMemory (t.emit (LoadEvent.bootParams buf bootAddr)) u) :
      KernelLoading env watchdogEn hooks buf source ksize kernelStart s
        (abandonKernel kernelStart ksize LoadStep.descriptorTables status u)
  | leaves {bootAddr gdtBase : Nat} {t u : LoadState}
      (hplace : ¬ Misplaced buf kernelStart s.image)
      (hparams : bootParamsFilled env (s.copied env source ksize kernelStart) buf =
        some (t.emit (LoadEvent.bootParams buf bootAddr)))
      (hgrant : HandsOut (s.copied env source ksize kernelStart)
        { base := bootAddr, count := sizeToPages 16384 } t)
      (htables : tablesPlaced env (t.emit (LoadEvent.bootParams buf bootAddr)) = some u)
      (hgdt : HandsOut (t.emit (LoadEvent.bootParams buf bootAddr))
        { base := gdtBase, count := sizeToPages gdtLimit } u) :
      KernelLoading env watchdogEn hooks buf source ksize kernelStart s
        (leaveFirmware env watchdogEn hooks kernelStart ksize bootAddr u)

theorem loadKernel_loading (env : LoadEnv) (watchdogEn : Bool) (hooks : Option BootimgHooks)
    (buf source ksize kernelStart : Nat) (s : LoadState) :
    KernelLoading env watchdogEn hooks buf source ksize kernelStart s
      (loadKernel env watchdogEn hooks buf source ksize kernelStart s) := by
  unfold loadKernel
  dsimp only
  split
  · rename_i hplace
    exact KernelLoading.misplaced hplace
  · rename_i hplace
    rcases allocatePages_cases env AllocateType.maxAddress (sizeToPages 16384) 0x3fffffff
        (s.copied env source ksize kernelStart) with
      ⟨status, t, heq, hstatus, hsame⟩ | ⟨bootAddr, t, heq, hgrant, -, -⟩
    · have hparams : bootParamsFilled env (s.copied env source ksize kernelStart) buf = none := by
        unfold bootParamsFilled
        rw [heq]
        split
        · rename_i hsuccess
          exact absurd (congrArg Prod.fst hsuccess) hstatus
        · rfl
      have heq' := heq
      unfold LoadState.copied at heq'
      rw [heq']
      split
      · rename_i hsuccess
        exact absurd (congrArg Prod.fst hsuccess) hstatus
      · rename_i hfail
        cases hfail
        exact KernelLoading.noParams hplace hparams hsame
    · have hparams : bootParamsFilled env (s.copied env source ksize kernelStart) buf =
          some (t.emit (LoadEvent.bootParams buf bootAddr)) := by
        unfold bootParamsFilled
        rw [heq]
      have heq' := heq
      unfold LoadState.copied at heq'
      rw [heq']
      dsimp only
      rcases emalloc_cases env gdtLimit 8 (t.emit (LoadEvent.bootParams buf bootAddr)) with
        ⟨status, u, hfound, -, hsame⟩ | ⟨gdtBase, u, hfound, hgdt, -⟩
      · have htables : tablesPlaced env (t.emit (LoadEvent.bootParams buf bootAddr)) = none := by
          unfold tablesPlaced
          rw [hfound]
        rw [hfound]
        exact KernelLoading.noTables hplace hparams hgrant htables hsame
      · have htables : tablesPlaced env (t.emit (LoadEvent.bootParams buf bootAddr)) =
            some u := by
          unfold tablesPlaced
          rw [hfound]
        rw [hfound]
        exact KernelLoading.leaves hplace hparams hgrant htables hgdt

/-- The state in which `handover_kernel` asks for pages: `screen_info` has been filled. -/
def LoadState.screened (env : LoadEnv) (s : LoadState) : LoadState :=
  let buf := (aospHeader s.image).pageSize
  { s with
    image := setupScreenInfo env.gop buf (store 1 (buf + SetupHeader.typeOfLoader) 0xff s.image) }

/-- The first pages `handover_kernel` gets, at the preferred address or anywhere. -/
def kernelPages (env : LoadEnv) (s : LoadState) : Option (Nat × LoadState) :=
  let buf := (aospHeader s.image).pageSize
  let initSize := le32 s.image (buf + SetupHeader.initSize)
  match allocatePages env AllocateType.address (sizeToPages initSize)
      (le64 s.image (buf + SetupHeader.prefAddress)) (s.screened env) with
  | (EfiStatus.success, kernelStart, t) => some (kernelStart, t)
  | (_, _, t) =>
      match emalloc env initSize (le32 t.image (buf + SetupHeader.kernelAlignment)) t with
      | (Except.error _, _) => none
      | (Except.ok kernelStart, u) => some (kernelStart, u)

inductive Handover (env : LoadEnv) (watchdogEn : Bool) (hooks : Option BootimgHooks)
    (s : LoadState) : LoadEnd × LoadState -> Prop where
  | noPages {status : EfiStatus} {t : LoadState} (hpages : kernelPages env s = none)
      (hsame : SameMemory (s.screened env) t) :
      Handover env watchdogEn hooks s (LoadEnd.failed LoadStep.kernelPages status, t)
  | loads {kernelStart : Nat} {t : LoadState} (hpages : kernelPages env s = some (kernelStart, t))
      (hgrant : HandsOut (s.screened env)
        { base := kernelStart
          count := sizeToPages
            (le32 s.image ((aospHeader s.image).pageSize + SetupHeader.initSize)) } t) :
      Handover env watchdogEn hooks s
        (loadKernel env watchdogEn hooks (aospHeader s.image).pageSize
          ((aospHeader s.image).pageSize + setupSize s.image (aospHeader s.image).pageSize)
          (kernelCopySize s.image (aospHeader s.image).pageSize) kernelStart t)

theorem handoverKernel_handover (env : LoadEnv) (watchdogEn : Bool)
    (hooks : Option BootimgHooks) (s : LoadState) :
    Handover env watchdogEn hooks s (handoverKernel env watchdogEn hooks s) := by
  unfold handoverKernel
  dsimp only
  rcases allocatePages_cases env AllocateType.address
      (sizeToPages (le32 s.image ((aospHeader s.image).pageSize + SetupHeader.initSize)))
      (le64 s.image ((aospHeader s.image).pageSize + SetupHeader.prefAddress))
      (s.screened env) with
    ⟨status, t, heq, hstatus, hsame⟩ | ⟨base, t, heq, hgrant, -, -⟩
  · have hpages : kernelPages env s =
        match emalloc env (le32 s.image ((aospHeader s.image).pageSize + SetupHeader.initSize))
          (le32 t.image ((aospHeader s.image).pageSize + SetupHeader.kernelAlignment)) t with
        | (Except.error _, _) => none
        | (Except.ok kernelStart, u) => some (kernelStart, u) := by
      unfold kernelPages
      dsimp only
      rw [heq]
      split
      · rename_i hsuccess
        exact absurd (congrArg Prod.fst hsuccess) hstatus
      · rename_i hfail
        cases hfail
        rfl
    have heq' := heq
    unfold LoadState.screened at heq'
    rw [heq']
    split
    · rename_i hsuccess
      exact absurd (congrArg Prod.fst hsuccess) hstatus
    · rename_i hfail
      cases hfail
      rcases emalloc_cases env
          (le32 s.image ((aospHeader s.image).pageSize + SetupHeader.initSize))
          (le32 t.image ((aospHeader s.image).pageSize + SetupHeader.kernelAlignment)) t with
        ⟨status', u, hfound, -, hsame'⟩ | ⟨base, u, hfound, hgrant, -⟩
      · rw [hfound] at hpages ⊢
        exact Handover.noPages hpages (hsame.trans hsame')
      · rw [hfound] at hpages ⊢
        exact Handover.loads hpages (hsame.handsOut hgrant)
  · have hpages : kernelPages env s = some (base, t) := by
      unfold kernelPages
      dsimp only
      rw [heq]
    have heq' := heq
    unfold LoadState.screened at heq'
    rw [heq']
    exact Handover.loads hpages hgrant

/-!
# The three stages
-/

inductive Starting (env : LoadEnv) (append : Option (List UInt8)) (hooks : Option BootimgHooks)
    (buf : Nat) (s : LoadState) : LoadEnd × LoadState -> Prop where
  | noLine {step : LoadStep} {status : EfiStatus} {t : LoadState}
      (hline : setupCommandLine env append s = (some (step, status), t)) :
      Starting env append hooks buf s (outBootimage (LoadEnd.failed step status) t)
  | noRamdisk {step : LoadStep} {status : EfiStatus} {t u : LoadState}
      (hline : setupCommandLine env append s = (none, t))
      (hramdisk : setupRamdisk env t = (some (step, status), u)) :
      Starting env append hooks buf s (outCmdline env buf (LoadEnd.failed step status) u)
  | noKernel {step : LoadStep} {status : EfiStatus} {t u v : LoadState}
      (hline : setupCommandLine env append s = (none, t))
      (hramdisk : setupRamdisk env t = (none, u))
      (hkernel : handoverKernel env (watchdogEnabled env buf u) hooks u =
        (LoadEnd.failed step status, v)) :
      Starting env append hooks buf s
        (outCmdline env buf (LoadEnd.failed step status)
          (efree (le32 v.image (buf + SetupHeader.ramdiskImage))
            (le32 v.image (buf + SetupHeader.ramdiskSize)) v))
  | leaves {ending : LoadEnd} {t u v : LoadState}
      (hline : setupCommandLine env append s = (none, t))
      (hramdisk : setupRamdisk env t = (none, u))
      (hkernel : handoverKernel env (watchdogEnabled env buf u) hooks u = (ending, v))
      (hleaves : forall step status, ending ≠ LoadEnd.failed step status) :
      Starting env append hooks buf s (ending, v)

theorem startVerified_starting (env : LoadEnv) (append : Option (List UInt8))
    (hooks : Option BootimgHooks) (buf : Nat) (s : LoadState) :
    Starting env append hooks buf s (startVerified env append hooks buf s) := by
  unfold startVerified
  split
  · rename_i hline
    exact Starting.noLine hline
  · rename_i hline
    split
    · rename_i hramdisk
      exact Starting.noRamdisk hline hramdisk
    · rename_i hramdisk
      split
      · rename_i hkernel
        exact Starting.noKernel hline hramdisk hkernel
      · rename_i hleaves hkernel
        exact Starting.leaves hline hramdisk hkernel hleaves

/-!
# The checks
-/

/-- The image has passed the checks that come before its signature. -/
def WellFormed (image : Mem) : Prop :=
  le16 image ((aospHeader image).pageSize + SetupHeader.bootFlag) = 0xAA55 ∧
    le32 image ((aospHeader image).pageSize + SetupHeader.header) = setupHdr ∧
      (aospHeader image).pageSize ≠ 0

instance (image : Mem) : Decidable (WellFormed image) :=
  inferInstanceAs (Decidable (_ ∧ _ ∧ _))

/-- The header makes `pages` divide by zero. -/
structure Divides (image : Mem) : Prop where
  bootFlag : le16 image ((aospHeader image).pageSize + SetupHeader.bootFlag) = 0xAA55
  header : le32 image ((aospHeader image).pageSize + SetupHeader.header) = setupHdr
  pageSize : (aospHeader image).pageSize = 0

theorem bootimageSize_signed (hdr : BootImgHdr) (arch : Arch) :
    hdr.bootimageSize arch false = hdr.signedSize := by
  simp [BootImgHdr.bootimageSize]

def BootImgHdr.signatureCheck (hdr : BootImgHdr) : LoadEvent :=
  LoadEvent.checkSignature hdr.signedSize hdr.signedSize hdr.sigSize

def LoadEnv.verdict (env : LoadEnv) (image : Mem) : EfiStatus :=
  env.checkSignature image (aospHeader image).signedSize (aospHeader image).signedSize
    (aospHeader image).sigSize

inductive Checking (env : LoadEnv) (append : Option (List UInt8)) (hooks : Option BootimgHooks)
    (s : LoadState) : LoadEnd × LoadState -> Prop where
  | corrupt {step : LoadStep}
      (hstep : step = LoadStep.bootFlag ∨ step = LoadStep.setupVersion)
      (hformed : ¬ WellFormed s.image) (hdivides : ¬ Divides s.image) :
      Checking env append hooks s
        (outBootimage (LoadEnd.failed step EfiStatus.invalidParameter) s)
  | divided (hformed : ¬ WellFormed s.image) (hdivides : Divides s.image) :
      Checking env append hooks s (LoadEnd.divideError, s)
  | refused (hformed : WellFormed s.image) (hdivides : ¬ Divides s.image)
      (hverdict : env.verdict s.image ≠ EfiStatus.success) :
      Checking env append hooks s
        (outBootimage (LoadEnd.failed LoadStep.signature (env.verdict s.image))
          (s.emit (aospHeader s.image).signatureCheck))
  | verified (hformed : WellFormed s.image) (hdivides : ¬ Divides s.image)
      (hverdict : env.verdict s.image = EfiStatus.success) :
      Checking env append hooks s
        (startVerified env append hooks (aospHeader s.image).pageSize
          (s.emit (aospHeader s.image).signatureCheck))

theorem startBuffer_checking (env : LoadEnv) (append : Option (List UInt8))
    (hooks : Option BootimgHooks) (s : LoadState) :
    Checking env append hooks s (startBuffer env append hooks s) := by
  unfold startBuffer
  dsimp only
  split
  · rename_i hflag
    exact Checking.corrupt (Or.inl rfl) (fun h => hflag h.1) (fun h => hflag h.bootFlag)
  · rename_i hflag
    split
    · rename_i hheader
      exact Checking.corrupt (Or.inr rfl) (fun h => hheader h.2.1) (fun h => hheader h.header)
    · rename_i hheader
      split
      · rename_i hpage
        exact Checking.divided (fun h => h.2.2 hpage)
          ⟨not_not.mp hflag, not_not.mp hheader, hpage⟩
      · rename_i hpage
        have hformed : WellFormed s.image := ⟨not_not.mp hflag, not_not.mp hheader, hpage⟩
        have hdivides : ¬ Divides s.image := fun h => hpage h.pageSize
        rw [bootimageSize_signed]
        split
        · rename_i hrefused
          exact Checking.refused hformed hdivides hrefused
        · rename_i hgood
          exact Checking.verified hformed hdivides (not_not.mp hgood)

end BootImage
end BootableUefi
