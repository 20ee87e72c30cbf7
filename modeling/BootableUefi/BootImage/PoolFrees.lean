import BootableUefi.BootImage.Stages

/-!
# The checks and the frees of a start

Of all that a start logs, the signature checks and the pool blocks it frees: the
command line is the only stage that frees blocks of its own, and the boot image
is freed last, when the start gives up.
-/

namespace BootableUefi
namespace BootImage

open Firmware Foundation

def LoadEvent.accounted : LoadEvent -> Bool
  | checkSignature _ _ _ => true
  | freePool _ => true
  | _ => false

/-- The checks and the frees so far. -/
def LoadState.account (s : LoadState) : List LoadEvent :=
  s.log.filter LoadEvent.accounted

def SameAccount (s t : LoadState) : Prop :=
  t.account = s.account

section Account

variable {s t u : LoadState}

theorem SameAccount.of_log (h : t.log = s.log) : SameAccount s t :=
  SameEvents.of_log h

theorem SameAccount.trans (hst : SameAccount s t) (htu : SameAccount t u) : SameAccount s u :=
  Eq.trans htu hst

theorem account_emit (event : LoadEvent) (s : LoadState) :
    (s.emit event).account = s.account ++ [event].filter LoadEvent.accounted :=
  filter_log_emit LoadEvent.accounted event s

theorem SameAccount.emit {event : LoadEvent} (h : event.accounted = false) :
    SameAccount s (s.emit event) :=
  SameEvents.emit h

theorem SameAccount.emitIf {event : LoadEvent} (cond : Bool) (h : event.accounted = false) :
    SameAccount s (s.emitIf cond event) :=
  SameEvents.emitIf cond h

theorem freePages_account (memory count : Nat) (s : LoadState) :
    SameAccount s (freePages memory count s) :=
  freePages_sameEvents rfl s

theorem efree_account (memory size : Nat) (s : LoadState) :
    SameAccount s (efree memory size s) :=
  freePages_account memory (sizeToPages size) s

theorem SameMemory.account (h : SameMemory s t) : SameAccount s t :=
  h.sameEvents

theorem HandsOut.account {run : PageRun} (h : HandsOut s run t) : SameAccount s t :=
  h.sameEvents rfl

end Account

/-!
# The stages
-/

def commandLineFrees (env : LoadEnv) (append : Option (List UInt8)) (image : Mem) :
    List PoolBlock :=
  match env.commandLinePool with
  | none => []
  | some block =>
      match append with
      | none => [PoolBlock.fullCommandLine]
      | some extra =>
          if env.arch.uintn ((cString (fullCommandLine image block)).length +
              extra.length + 2) < bootArgsSize + bootExtraArgsSize then
            [PoolBlock.append, PoolBlock.fullCommandLine]
          else
            match env.grownCommandLinePool with
            | none => [PoolBlock.fullCommandLine]
            | some _ =>
                [PoolBlock.fullCommandLine, PoolBlock.append, PoolBlock.grownCommandLine]

theorem placeCommandLine_account (env : LoadEnv) (block : PoolBlock) (line : List UInt8)
    (s : LoadState) :
    (placeCommandLine env block line s).2.account =
      s.account ++ [LoadEvent.freePool block] := by
  have hfreed : forall {t : LoadState}, SameAccount s t ->
      (t.emit (LoadEvent.freePool block)).account =
        s.account ++ [LoadEvent.freePool block] := by
    intro t hsame
    rw [account_emit, hsame]
    rfl
  have hplacing := placeCommandLine_placing env block line s
  generalize placeCommandLine env block line s = result at hplacing ⊢
  cases hplacing with
  | refused hsame => exact hfreed hsame.account
  | pageZero hgrant => exact hfreed hgrant.account
  | stored hne hgrant => exact hfreed (hgrant.account.trans (SameAccount.emit (by rfl)))

theorem setupCommandLine_account (env : LoadEnv) (append : Option (List UInt8))
    (s : LoadState) :
    (setupCommandLine env append s).2.account =
      s.account ++ (commandLineFrees env append s.image).map LoadEvent.freePool := by
  unfold setupCommandLine commandLineFrees
  cases env.commandLinePool with
  | none => exact (List.append_nil _).symm
  | some block =>
      cases append with
      | none => exact placeCommandLine_account _ _ _ s
      | some extra =>
          dsimp only
          split
          · rw [placeCommandLine_account, account_emit, List.append_assoc]
            rfl
          · cases env.grownCommandLinePool with
            | none =>
                dsimp only
                rw [account_emit]
                rfl
            | some grown =>
                dsimp only
                rw [placeCommandLine_account, account_emit, account_emit, List.append_assoc,
                  List.append_assoc]
                rfl

theorem setupRamdisk_account (env : LoadEnv) (s : LoadState) :
    SameAccount s (setupRamdisk env s).2 := by
  have hsized : SameAccount s s.sized := SameAccount.of_log rfl
  have hsetup := setupRamdisk_setup env s
  generalize setupRamdisk env s = result at hsetup ⊢
  cases hsetup with
  | noPages hsame => exact hsized.trans hsame.account
  | tooHigh hgrant => exact (hsized.trans hgrant.account).trans (efree_account _ _ _)
  | placed hgrant => exact (hsized.trans hgrant.account).trans (SameAccount.emit (by rfl))

theorem hooked_account (watchdogEn : Bool) (hooks : Option BootimgHooks) (s : LoadState) :
    SameAccount s (s.hooked watchdogEn hooks) :=
  ((SameAccount.emitIf _ (by rfl)).trans (SameAccount.emitIf _ (by rfl))).trans
    (SameAccount.of_log rfl)

theorem leaveFirmware_account (env : LoadEnv) (watchdogEn : Bool)
    (hooks : Option BootimgHooks) (kernelStart ksize bootAddr : Nat) (s : LoadState) :
    SameAccount s (leaveFirmware env watchdogEn hooks kernelStart ksize bootAddr s).2 := by
  have hhooked := hooked_account watchdogEn hooks s
  have hleaving := leaveFirmware_leaving env watchdogEn hooks kernelStart ksize bootAddr s
  generalize leaveFirmware env watchdogEn hooks kernelStart ksize bootAddr s = result
    at hleaving ⊢
  cases hleaving with
  | abandoned => exact hhooked.trans (efree_account _ _ _)
  | jumped => exact hhooked.trans (SameAccount.emitIf _ (by rfl))

theorem loadKernel_account (env : LoadEnv) (watchdogEn : Bool) (hooks : Option BootimgHooks)
    (buf source ksize kernelStart : Nat) (s : LoadState) :
    SameAccount s (loadKernel env watchdogEn hooks buf source ksize kernelStart s).2 := by
  have hcopied : SameAccount s (s.copied env source ksize kernelStart) :=
    SameAccount.emit (by rfl)
  have hfilled : forall {t : LoadState} {bootAddr : Nat},
      HandsOut (s.copied env source ksize kernelStart)
        { base := bootAddr, count := sizeToPages 16384 } t ->
      SameAccount s (t.emit (LoadEvent.bootParams buf bootAddr)) :=
    fun hgrant => (hcopied.trans hgrant.account).trans (SameAccount.emit (by rfl))
  have hloading := loadKernel_loading env watchdogEn hooks buf source ksize kernelStart s
  generalize loadKernel env watchdogEn hooks buf source ksize kernelStart s = result
    at hloading ⊢
  cases hloading with
  | misplaced => exact efree_account _ _ s
  | noParams _ _ hsame => exact (hcopied.trans hsame.account).trans (efree_account _ _ _)
  | noTables _ _ hgrant _ hsame =>
      exact ((hfilled hgrant).trans hsame.account).trans (efree_account _ _ _)
  | leaves _ _ hgrant _ hgdt =>
      exact ((hfilled hgrant).trans hgdt.account).trans
        (leaveFirmware_account env watchdogEn hooks _ _ _ _)

theorem handoverKernel_account (env : LoadEnv) (watchdogEn : Bool)
    (hooks : Option BootimgHooks) (s : LoadState) :
    SameAccount s (handoverKernel env watchdogEn hooks s).2 := by
  have hscreened : SameAccount s (s.screened env) := SameAccount.of_log rfl
  have hhandover := handoverKernel_handover env watchdogEn hooks s
  generalize handoverKernel env watchdogEn hooks s = result at hhandover ⊢
  cases hhandover with
  | noPages _ hsame => exact hscreened.trans hsame.account
  | loads _ hgrant =>
      exact (hscreened.trans hgrant.account).trans
        (loadKernel_account env watchdogEn hooks _ _ _ _ _)

/-!
# A verified start
-/

def LoadEnd.pastChecks : LoadEnd -> Bool
  | failed LoadStep.bootFlag _ => false
  | failed LoadStep.setupVersion _ => false
  | failed LoadStep.signature _ => false
  | failed _ _ => true
  | divideError => false
  | jumped _ _ => true

/-- What `android_image_start_buffer` frees last, if it returns. -/
def LoadEnd.imageFrees : LoadEnd -> List PoolBlock
  | failed _ _ => [PoolBlock.bootImage]
  | _ => []

theorem outBootimage_account (step : LoadStep) (status : EfiStatus) (s : LoadState) :
    (outBootimage (LoadEnd.failed step status) s).2.account =
      s.account ++ [LoadEvent.freePool PoolBlock.bootImage] :=
  account_emit _ s

theorem outCmdline_account (env : LoadEnv) (buf : Nat) (step : LoadStep) (status : EfiStatus)
    (s : LoadState) :
    (outCmdline env buf (LoadEnd.failed step status) s).2.account =
      s.account ++ [LoadEvent.freePool PoolBlock.bootImage] := by
  unfold outCmdline
  dsimp only
  split
  · exact outBootimage_account step status s
  · rw [outBootimage_account, freePages_account]

/-- The line is freed by its stage, and the image when the start gives up. -/
structure Concludes (s : LoadState) (frees : List PoolBlock)
    (result : LoadEnd × LoadState) : Prop where
  past : result.1.pastChecks = true
  account : result.2.account =
    s.account ++ (frees ++ result.1.imageFrees).map LoadEvent.freePool

theorem concludes_outCmdline {s t : LoadState} {frees : List PoolBlock} {step : LoadStep}
    {status : EfiStatus} (env : LoadEnv) (buf : Nat)
    (hpast : (LoadEnd.failed step status).pastChecks = true)
    (haccount : t.account = s.account ++ frees.map LoadEvent.freePool) :
    Concludes s frees (outCmdline env buf (LoadEnd.failed step status) t) := by
  have hending := outCmdline_fst env buf (LoadEnd.failed step status) t
  constructor
  · rw [hending]
    exact hpast
  · rw [hending, outCmdline_account, haccount, List.map_append, List.append_assoc]
    rfl

theorem setupCommandLine_pastChecks {env : LoadEnv} {append : Option (List UInt8)}
    {s t : LoadState} {step : LoadStep} {status : EfiStatus}
    (h : setupCommandLine env append s = (some (step, status), t)) :
    (LoadEnd.failed step status).pastChecks = true := by
  have houtcome := setupCommandLine_outcome env append s
  rw [h] at houtcome
  cases houtcome with
  | failed hstep hafter => rcases hstep with rfl | rfl | rfl <;> rfl

theorem setupRamdisk_pastChecks {env : LoadEnv} {s t : LoadState} {step : LoadStep}
    {status : EfiStatus} (h : setupRamdisk env s = (some (step, status), t)) :
    (LoadEnd.failed step status).pastChecks = true := by
  have houtcome := setupRamdisk_outcome env s
  rw [h] at houtcome
  cases houtcome with
  | noPages => rfl
  | tooHigh => rfl

theorem handoverKernel_pastChecks (env : LoadEnv) (watchdogEn : Bool)
    (hooks : Option BootimgHooks) (s : LoadState) :
    (handoverKernel env watchdogEn hooks s).1.pastChecks = true := by
  have houtcome := handoverKernel_outcome env watchdogEn hooks s
  generalize handoverKernel env watchdogEn hooks s = result at houtcome ⊢
  cases houtcome with
  | noPages => rfl
  | abandoned _ hstep =>
      rcases hstep with ⟨-, rfl | rfl⟩ | ⟨-, rfl | rfl | rfl⟩ <;> rfl
  | jumped => rfl

theorem handoverKernel_reached {env : LoadEnv} {append : Option (List UInt8)}
    {hooks : Option BootimgHooks} {watchdogEn : Bool} {s t u v : LoadState} {ending : LoadEnd}
    (hline : setupCommandLine env append s = (none, t))
    (hramdisk : setupRamdisk env t = (none, u))
    (hkernel : handoverKernel env watchdogEn hooks u = (ending, v)) :
    ending.pastChecks = true ∧
      v.account = s.account ++ (commandLineFrees env append s.image).map LoadEvent.freePool := by
  have hlined := setupCommandLine_account env append s
  have hsized := setupRamdisk_account env t
  have hloaded := handoverKernel_account env watchdogEn hooks u
  have hpast := handoverKernel_pastChecks env watchdogEn hooks u
  rw [hline] at hlined
  rw [hramdisk] at hsized
  rw [hkernel] at hloaded hpast
  exact ⟨hpast, Eq.trans hloaded (Eq.trans hsized hlined)⟩

theorem startVerified_concludes (env : LoadEnv) (append : Option (List UInt8))
    (hooks : Option BootimgHooks) (buf : Nat) (s : LoadState) :
    Concludes s (commandLineFrees env append s.image)
      (startVerified env append hooks buf s) := by
  have hlined := setupCommandLine_account env append s
  have hstarting := startVerified_starting env append hooks buf s
  generalize startVerified env append hooks buf s = result at hstarting ⊢
  cases hstarting with
  | noLine hline =>
      rw [hline] at hlined
      refine ⟨setupCommandLine_pastChecks hline, ?_⟩
      rw [outBootimage_account, hlined, List.map_append, List.append_assoc]
      rfl
  | @noRamdisk step status t u hline hramdisk =>
      have hsized := setupRamdisk_account env t
      rw [hline] at hlined
      rw [hramdisk] at hsized
      exact concludes_outCmdline env buf (setupRamdisk_pastChecks hramdisk)
        (Eq.trans hsized hlined)
  | @noKernel step status t u v hline hramdisk hkernel =>
      rcases handoverKernel_reached hline hramdisk hkernel with ⟨hpast, hloaded⟩
      exact concludes_outCmdline env buf hpast (Eq.trans (efree_account _ _ v) hloaded)
  | @leaves ending t u v hline hramdisk hkernel hleaves =>
      rcases handoverKernel_reached hline hramdisk hkernel with ⟨hpast, hloaded⟩
      cases ending with
      | failed step status => exact absurd rfl (hleaves step status)
      | divideError => cases hpast
      | jumped kernelStart bootAddr =>
          refine ⟨rfl, ?_⟩
          dsimp only [LoadEnd.imageFrees]
          rw [List.append_nil]
          exact hloaded

end BootImage
end BootableUefi
