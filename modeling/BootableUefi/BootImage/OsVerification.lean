import BootableUefi.BootImage.PoolFrees

/-!
# The verification of an image by the firmware

`check_signature.c`, as it is built with `USE_INTEL_OS_VERIFICATION`.  The
protocol is looked up twice, and each lookup may be answered differently.  A
warning passes every test as `EFI_SUCCESS` does, so it is not told apart.
-/

namespace BootableUefi
namespace BootImage

open Firmware Foundation

/-- One `LibLocateProtocol`: its status, and whether the pointer it leaves is not NULL. -/
structure LocateAnswer where
  status : EfiStatus
  found : Bool
  deriving DecidableEq, Repr

/-- `EFI_ERROR(ret) || !ovp` -/
def LocateAnswer.failure (answer : LocateAnswer) : Bool :=
  efiError answer.status || !answer.found

structure OsVerification where
  /-- The lookup in `is_secure_boot_enabled`. -/
  policyLocate : LocateAnswer
  getSecurityPolicy : EfiStatus
  unsignedAllowed : UInt8
  /-- The lookup in `check_signature`. -/
  verifyLocate : LocateAnswer
  verifiyOsImage : Mem -> Nat -> Nat -> Nat -> EfiStatus

/-- A call of the protocol; addresses are offsets from the start of the image. -/
inductive VerificationCall where
  | getSecurityPolicy (status : EfiStatus) (unsignedAllowed : UInt8)
  | verifiyOsImage (osImage osImageSize manifest manifestSize : Nat) (status : EfiStatus)
  deriving DecidableEq, Repr

namespace OsVerification

variable (ver : OsVerification)

def isSecureBootEnabled : Bool × List VerificationCall :=
  if ver.policyLocate.failure then
    (true, [])
  else
    let calls := [VerificationCall.getSecurityPolicy ver.getSecurityPolicy ver.unsignedAllowed]
    if efiError ver.getSecurityPolicy then (true, calls)
    else (ver.unsignedAllowed == 0, calls)

/-- `check_signature`; a lookup that fails leaves its status to be returned. -/
def checkSignature (image : Mem) (osSize manifest manifestSize : Nat) :
    EfiStatus × List VerificationCall :=
  let (enabled, calls) := ver.isSecureBootEnabled
  if !enabled then
    (EfiStatus.success, calls)
  else if manifestSize = 0 then
    (EfiStatus.accessDenied, calls)
  else if ver.verifyLocate.failure then
    (ver.verifyLocate.status, calls)
  else
    let status := ver.verifiyOsImage image osSize manifest manifestSize
    (status, calls ++ [VerificationCall.verifiyOsImage 0 osSize manifest manifestSize status])

def loader (env : LoadEnv) : LoadEnv :=
  { env with
    checkSignature := fun image osSize manifest manifestSize =>
      (ver.checkSignature image osSize manifest manifestSize).1 }

/-- The calls of the protocol while the loader logs these events about an image. -/
def callsOf (image : Mem) (log : List LoadEvent) : List VerificationCall :=
  log.flatMap fun event =>
    match event with
    | LoadEvent.checkSignature osSize manifest manifestSize =>
        (ver.checkSignature image osSize manifest manifestSize).2
    | _ => []

/-- The firmware allows unsigned images, or has verified this one with its signature. -/
def Permits (arch : Arch) (hdr : BootImgHdr) (calls : List VerificationCall) : Prop :=
  (exists flag, flag ≠ 0 ∧ VerificationCall.getSecurityPolicy EfiStatus.success flag ∈ calls) ∨
    (hdr.sigSize ≠ 0 ∧
      VerificationCall.verifiyOsImage 0 (hdr.bootimageSize arch false)
        (hdr.bootimageSize arch false) hdr.sigSize EfiStatus.success ∈ calls)

/-- The second lookup is said to succeed, and there is no protocol. -/
def LosesProtocol : Prop :=
  ver.verifyLocate.status = EfiStatus.success ∧ ver.verifyLocate.found = false

/-!
# One check
-/

theorem isSecureBootEnabled_cases :
    (exists flag, flag ≠ 0 ∧ ver.isSecureBootEnabled =
      (false, [VerificationCall.getSecurityPolicy EfiStatus.success flag])) ∨
    (ver.isSecureBootEnabled.1 = true ∧
      forall arch hdr, ¬ Permits arch hdr ver.isSecureBootEnabled.2) := by
  unfold isSecureBootEnabled Permits
  cases ver.policyLocate.failure with
  | true => exact Or.inr ⟨rfl, by simp⟩
  | false =>
      simp only [Bool.false_eq_true, if_false]
      cases hpolicy : efiError ver.getSecurityPolicy with
      | true =>
          rw [efiError_eq_true_iff] at hpolicy
          exact Or.inr ⟨rfl, by simp [Ne.symm hpolicy]⟩
      | false =>
          rw [efiError_eq_false_iff] at hpolicy
          simp only [hpolicy, Bool.false_eq_true, if_false]
          by_cases hflag : ver.unsignedAllowed = 0
          · exact Or.inr ⟨by simp [hflag], by simp [hflag]⟩
          · exact Or.inl ⟨ver.unsignedAllowed, hflag, by simp [hflag]⟩

/-- An image passes its check as it should exactly when the protocol is not lost. -/
theorem checkSignature_permits_iff (arch : Arch) (hdr : BootImgHdr) (image : Mem) :
    ((ver.checkSignature image (hdr.bootimageSize arch false) (hdr.bootimageSize arch false)
        hdr.sigSize).1 = EfiStatus.success ->
      Permits arch hdr (ver.checkSignature image (hdr.bootimageSize arch false)
        (hdr.bootimageSize arch false) hdr.sigSize).2) <->
      ¬ (ver.isSecureBootEnabled.1 = true ∧ hdr.sigSize ≠ 0 ∧ ver.LosesProtocol) := by
  unfold checkSignature
  rcases ver.isSecureBootEnabled_cases with ⟨flag, hflag, hoff⟩ | ⟨hon, hnone⟩
  · have hpermits : Permits arch hdr
        [VerificationCall.getSecurityPolicy EfiStatus.success flag] :=
      Or.inl ⟨flag, hflag, List.mem_singleton_self _⟩
    simp [hoff, hpermits]
  · generalize ver.isSecureBootEnabled = policy at hon hnone ⊢
    rcases policy with ⟨enabled, calls⟩
    cases hon
    simp only [Bool.not_true, Bool.false_eq_true, if_false, true_and]
    by_cases hsigned : hdr.sigSize = 0
    · simp [hsigned]
    · rw [if_neg hsigned]
      cases hlocate : ver.verifyLocate.failure with
      | true =>
          have hlost : ver.LosesProtocol <-> ver.verifyLocate.status = EfiStatus.success := by
            constructor
            · exact fun h => h.1
            · intro hsuccess
              refine ⟨hsuccess, ?_⟩
              simpa [LocateAnswer.failure, hsuccess] using hlocate
          simp [hsigned, hlost, hnone arch hdr]
      | false =>
          have hfound : ¬ ver.LosesProtocol := by
            intro hlost
            simp [LocateAnswer.failure, hlost.2] at hlocate
          simp only [Bool.false_eq_true, if_false, hfound, and_false, not_false_eq_true,
            iff_true]
          intro hverified
          refine Or.inr ⟨hsigned, ?_⟩
          rw [hverified]
          exact List.mem_append_right _ (List.mem_singleton_self _)

theorem callsOf_account (image : Mem) (s : LoadState) :
    ver.callsOf image s.log = ver.callsOf image s.account := by
  unfold LoadState.account callsOf
  induction s.log with
  | nil => rfl
  | cons event log ih =>
      cases event <;> simp [List.filter_cons, LoadEvent.accounted, ih]

theorem callsOf_append (image : Mem) (xs ys : List LoadEvent) :
    ver.callsOf image (xs ++ ys) = ver.callsOf image xs ++ ver.callsOf image ys := by
  simp [callsOf]

theorem callsOf_freePool (image : Mem) (blocks : List PoolBlock) :
    ver.callsOf image (blocks.map LoadEvent.freePool) = [] := by
  simp [callsOf]

end OsVerification

/-!
# Starting a verified image
-/

def LoadState.checked (env : LoadEnv) (s : LoadState) : LoadState :=
  s.emit (LoadEvent.checkSignature ((aospHeader s.image).bootimageSize env.arch false)
    ((aospHeader s.image).bootimageSize env.arch false) (aospHeader s.image).sigSize)

theorem LoadState.checked_eq (env : LoadEnv) (s : LoadState) :
    s.checked env = s.emit (aospHeader s.image).signatureCheck := by
  unfold LoadState.checked BootImgHdr.signatureCheck
  rw [bootimageSize_signed]

theorem startBuffer_pastChecks (env : LoadEnv) (append : Option (List UInt8))
    (hooks : Option BootimgHooks) (s : LoadState) :
    (WellFormed s.image ∧
      env.checkSignature s.image ((aospHeader s.image).bootimageSize env.arch false)
        ((aospHeader s.image).bootimageSize env.arch false) (aospHeader s.image).sigSize =
          EfiStatus.success ∧
      startBuffer env append hooks s =
        startVerified env append hooks (aospHeader s.image).pageSize (s.checked env)) ∨
    (¬ (WellFormed s.image ∧
      env.checkSignature s.image ((aospHeader s.image).bootimageSize env.arch false)
        ((aospHeader s.image).bootimageSize env.arch false) (aospHeader s.image).sigSize =
          EfiStatus.success) ∧
      (startBuffer env append hooks s).1.pastChecks = false) := by
  rw [bootimageSize_signed, s.checked_eq]
  have hchecking := startBuffer_checking env append hooks s
  generalize startBuffer env append hooks s = result at hchecking ⊢
  cases hchecking with
  | corrupt hstep hformed =>
      refine Or.inr ⟨fun h => hformed h.1, ?_⟩
      rcases hstep with rfl | rfl
      · rfl
      · rfl
  | divided hformed => exact Or.inr ⟨fun h => hformed h.1, rfl⟩
  | refused _ _ hverdict => exact Or.inr ⟨fun h => hverdict h.2, rfl⟩
  | verified hformed _ hverdict => exact Or.inl ⟨hformed, hverdict, rfl⟩

theorem startVerified_callsOf (ver : OsVerification) (env : LoadEnv)
    (append : Option (List UInt8)) (hooks : Option BootimgHooks) (image : Mem)
    (used : Finset Nat) :
    ver.callsOf image (startVerified (ver.loader env) append hooks (aospHeader image).pageSize
        ((LoadState.enter image used).checked (ver.loader env))).2.log =
      (ver.checkSignature image ((aospHeader image).bootimageSize env.arch false)
        ((aospHeader image).bootimageSize env.arch false) (aospHeader image).sigSize).2 := by
  have hends := startVerified_concludes (ver.loader env) append hooks
    (aospHeader image).pageSize ((LoadState.enter image used).checked (ver.loader env))
  have hcheck : ((LoadState.enter image used).checked (ver.loader env)).account =
      [LoadEvent.checkSignature ((aospHeader image).bootimageSize env.arch false)
        ((aospHeader image).bootimageSize env.arch false) (aospHeader image).sigSize] :=
    rfl
  rw [ver.callsOf_account, hends.account, hcheck, ver.callsOf_append, ver.callsOf_freePool]
  simp [OsVerification.callsOf]

/--
The loader goes on only with an image the firmware permits, unless a signed
image is to be verified and the second lookup succeeds without a protocol.
-/
theorem startBuffer_permitted_iff (ver : OsVerification) (env : LoadEnv)
    (append : Option (List UInt8)) (hooks : Option BootimgHooks) (image : Mem)
    (used : Finset Nat) :
    ((startBuffer (ver.loader env) append hooks (LoadState.enter image used)).1.pastChecks =
        true ->
      OsVerification.Permits env.arch (aospHeader image) (ver.callsOf image
        (startBuffer (ver.loader env) append hooks (LoadState.enter image used)).2.log)) <->
      ¬ (WellFormed image ∧ ver.isSecureBootEnabled.1 = true ∧
        (aospHeader image).sigSize ≠ 0 ∧ ver.LosesProtocol) := by
  have hcheck := ver.checkSignature_permits_iff env.arch (aospHeader image) image
  rcases startBuffer_pastChecks (ver.loader env) append hooks (LoadState.enter image used) with
    ⟨hformed, hstatus, hrun⟩ | ⟨hfails, hending⟩
  · have hends := startVerified_concludes (ver.loader env) append hooks
      (aospHeader image).pageSize ((LoadState.enter image used).checked (ver.loader env))
    have hcalls := startVerified_callsOf ver env append hooks image used
    rw [hrun]
    rw [← hcalls] at hcheck
    constructor
    · intro h hopen
      exact hcheck.mp (fun _ => h hends.past) hopen.2
    · intro hclosed _
      exact hcheck.mpr (fun hopen => hclosed ⟨hformed, hopen⟩) hstatus
  · rw [hending]
    constructor
    · intro _ hopen
      apply hfails
      refine ⟨hopen.1, ?_⟩
      by_contra hstatus
      exact hcheck.mp (fun hsuccess => absurd hsuccess hstatus) hopen.2
    · intro _ hpast
      cases hpast

def lostVerification : OsVerification where
  policyLocate := { status := EfiStatus.success, found := true }
  getSecurityPolicy := EfiStatus.success
  unsignedAllowed := 0
  verifyLocate := { status := EfiStatus.success, found := false }
  verifiyOsImage := fun _ _ _ _ => EfiStatus.accessDenied

def signedImage : Mem :=
  store 4 40 0x1000 (smallImage 0x1000 0x1000 0)

/-- The image is started, and nothing has verified it. -/
theorem unverified_image_starts :
    (startBuffer (lostVerification.loader smallEnv) none none
        (LoadState.enter signedImage ∅)).1 = LoadEnd.jumped 0x200000 0x3000000 ∧
      lostVerification.callsOf signedImage (startBuffer (lostVerification.loader smallEnv) none
        none (LoadState.enter signedImage ∅)).2.log =
          [VerificationCall.getSecurityPolicy EfiStatus.success 0] ∧
      ¬ OsVerification.Permits Arch.x64 (aospHeader signedImage)
        (lostVerification.callsOf signedImage (startBuffer (lostVerification.loader smallEnv) none
          none (LoadState.enter signedImage ∅)).2.log) := by
  have hcalls : lostVerification.callsOf signedImage
      (startBuffer (lostVerification.loader smallEnv) none none
        (LoadState.enter signedImage ∅)).2.log =
          [VerificationCall.getSecurityPolicy EfiStatus.success 0] := by
    decide +kernel
  refine ⟨by decide +kernel, hcalls, ?_⟩
  rw [hcalls]
  intro hpermits
  rcases hpermits with ⟨flag, hflag, hmem⟩ | ⟨-, hmem⟩
  · simp at hmem
    exact hflag hmem
  · simp at hmem

end BootImage
end BootableUefi
