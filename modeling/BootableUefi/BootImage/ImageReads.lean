import BootableUefi.BootImage.Copies
import BootableUefi.BootImage.Milestones
import BootableUefi.BootImage.SignedRegion

/-!
# What a start reads of its image

A start is handed an address and no length.  Where it reads is fixed by the
header, whether it comes so far by the firmware.
-/

namespace BootableUefi
namespace BootImage

open Firmware Foundation

/-- `sizeof(struct boot_img_hdr)`. -/
def bootImgHdrSize : Nat :=
  extraCmdlineOffset + bootExtraArgsSize

/-- The end of the setup header, from the start of the kernel on. -/
def setupHeaderEnd : Nat :=
  SetupHeader.initSize + 4

/-- The header and the sections as the header describes them, each in whole pages. -/
def BootImgHdr.sectionsEnd (hdr : BootImgHdr) : Nat :=
  hdr.pageSize + alignUp hdr.pageSize hdr.kernelSize + alignUp hdr.pageSize hdr.ramdiskSize +
    alignUp hdr.pageSize hdr.secondSize

/-- Where an event reads the image, and how many bytes. -/
def LoadEvent.reads : LoadEvent -> List (Nat × Nat)
  | checkSignature size sigOffset sigSize => [(0, size), (sigOffset, sigSize)]
  | copy _ source size _ => [(source, size)]
  | bootParams source _ => [(source, 2 * 512)]
  | _ => []

def ReadsInside (length : Nat) (log : List LoadEvent) : Prop :=
  forall event, event ∈ log -> forall offset size, (offset, size) ∈ event.reads ->
    forall i, i < size -> offset + i < length

/-- The first bytes of the image are enough for the points a start comes to. -/
structure LongEnough (length : Nat) (env : LoadEnv) (append : Option (List UInt8))
    (s : LoadState) : Prop where
  signature : WellFormed s.image ->
    (aospHeader s.image).signedEnd + (aospHeader s.image).sigSize ≤
      length + lost (aospHeader s.image).signedEnd
  ramdisk : (ramdiskReached env append s).isSome = true ->
    (aospHeader s.image).ramdiskSize = 0 ∨
      (aospHeader s.image).kernelEnd + (aospHeader s.image).ramdiskSize ≤
        length + lost (aospHeader s.image).kernelEnd
  kernel : (kernelReached env append s).isSome = true ->
    (aospHeader s.image).kernelSize = setupSize s.image (aospHeader s.image).pageSize ∨
      (setupSize s.image (aospHeader s.image).pageSize < (aospHeader s.image).kernelSize ∧
        (aospHeader s.image).pageSize + (aospHeader s.image).kernelSize ≤ length) ∨
      (aospHeader s.image).pageSize + (aospHeader s.image).kernelSize + 2 ^ 32 ≤ length
  bootParams : (bootParamsReached env append s).isSome = true ->
    (aospHeader s.image).pageSize + 2 * 512 ≤ length

/-!
# The events of a start
-/

section Events

section Point

variable {event : LoadEvent}

theorem LoadEvent.eq_of_point_ramdisk (h : event.point = some StartPoint.ramdisk) :
    exists source size destination, event = copy ImagePart.ramdisk source size destination := by
  cases event with
  | copy part source size destination =>
      cases part with
      | ramdisk => exact ⟨source, size, destination, rfl⟩
      | kernel => cases h
  | _ => cases h

theorem LoadEvent.eq_of_point_kernel (h : event.point = some StartPoint.kernel) :
    exists source size destination, event = copy ImagePart.kernel source size destination := by
  cases event with
  | copy part source size destination =>
      cases part with
      | kernel => exact ⟨source, size, destination, rfl⟩
      | ramdisk => cases h
  | _ => cases h

theorem LoadEvent.eq_of_point_bootParams (h : event.point = some StartPoint.bootParams) :
    exists source destination, event = bootParams source destination := by
  cases event with
  | bootParams source destination => exact ⟨source, destination, rfl⟩
  | copy part =>
      cases part <;> cases h
  | _ => cases h

end Point

variable (env : LoadEnv) (append : Option (List UInt8)) (hooks : Option BootimgHooks)
  (image : Mem) (used : Finset Nat)

def LoadEvent.KernelOf (image : Mem) (event : LoadEvent) : Prop :=
  exists destination, event = LoadEvent.copy ImagePart.kernel
    ((aospHeader image).pageSize + setupSize image (aospHeader image).pageSize)
    (kernelCopySize image (aospHeader image).pageSize) destination

theorem KernelTrace.adds {env : LoadEnv} {hdr : BootImgHdr} {source ksize initSize : Nat}
    {s t : LoadState} (h : KernelTrace env hdr source ksize initSize s t) :
    exists more, t.log = s.log ++ more ∧ forall event, event ∈ more ->
      event.Usual hdr ∨
        exists destination, event = LoadEvent.copy ImagePart.kernel source ksize destination := by
  rcases h with ⟨more, hmore⟩ | ⟨u, base, ⟨first, hfirst⟩, -, rest, hrest⟩
  · exact ⟨more, hmore.log, fun event hevent => Or.inl (hmore.usual event hevent)⟩
  · refine ⟨first ++ LoadEvent.copy ImagePart.kernel source ksize (env.arch.uintn base) :: rest,
      ?_, ?_⟩
    · rw [hrest.log]
      show (u.log ++ [_]) ++ rest = _
      rw [hfirst.log, List.append_assoc, List.append_assoc]
      rfl
    · intro event hevent
      rcases List.mem_append.mp hevent with hmem | hmem
      · exact Or.inl (hfirst.usual event hmem)
      · rcases List.mem_cons.mp hmem with heq | hmem
        · exact Or.inr ⟨_, heq⟩
        · exact Or.inl (hrest.usual event hmem)

theorem startBuffer_events {event : LoadEvent}
    (h : event ∈ (startBuffer env append hooks (LoadState.enter image used)).2.log) :
    event.Usual (aospHeader image) ∨ event.KernelOf image := by
  rcases (startBuffer_trace env append hooks (LoadState.enter image used)).adds with
    ⟨more, hlog, hevents⟩
  rw [hlog] at h
  exact hevents event h

theorem LoadEvent.reads_of_not_milestone {event : LoadEvent} (h : event.milestone = false) :
    event.reads = [] := by
  cases event with
  | checkSignature => cases h
  | copy => cases h
  | bootParams => cases h
  | _ => rfl

theorem ramdiskReached_iff :
    (ramdiskReached env append (LoadState.enter image used)).isSome = true <->
      exists destination, LoadEvent.copy ImagePart.ramdisk (aospHeader image).ramdiskOffset
        (aospHeader image).ramdiskSize destination ∈
          (startBuffer env append hooks (LoadState.enter image used)).2.log := by
  have hcomes := startBuffer_point_iff env append hooks (s := LoadState.enter image used) rfl
    StartPoint.ramdisk (by simp)
  constructor
  · intro h
    rcases hcomes.mpr h with ⟨event, hevent, hpoint⟩
    rcases LoadEvent.eq_of_point_ramdisk hpoint with ⟨source, size, destination, rfl⟩
    rcases startBuffer_events env append hooks image used hevent with ⟨rfl, rfl⟩ | ⟨_, heq⟩
    · exact ⟨destination, hevent⟩
    · cases heq
  · rintro ⟨destination, hevent⟩
    exact hcomes.mp ⟨_, hevent, rfl⟩

theorem kernelReached_iff :
    (kernelReached env append (LoadState.enter image used)).isSome = true <->
      exists event, event ∈ (startBuffer env append hooks (LoadState.enter image used)).2.log ∧
        event.KernelOf image := by
  have hcomes := startBuffer_point_iff env append hooks (s := LoadState.enter image used) rfl
    StartPoint.kernel (by simp)
  constructor
  · intro h
    rcases hcomes.mpr h with ⟨event, hevent, hpoint⟩
    rcases LoadEvent.eq_of_point_kernel hpoint with ⟨source, size, destination, rfl⟩
    rcases startBuffer_events env append hooks image used hevent with hfalse | hkernel
    · exact hfalse.elim
    · exact ⟨_, hevent, hkernel⟩
  · rintro ⟨event, hevent, destination, rfl⟩
    exact hcomes.mp ⟨_, hevent, rfl⟩

theorem bootParamsReached_iff :
    (bootParamsReached env append (LoadState.enter image used)).isSome = true <->
      exists destination, LoadEvent.bootParams (aospHeader image).pageSize destination ∈
        (startBuffer env append hooks (LoadState.enter image used)).2.log := by
  have hcomes := startBuffer_point_iff env append hooks (s := LoadState.enter image used) rfl
    StartPoint.bootParams (by simp)
  constructor
  · intro h
    rcases hcomes.mpr h with ⟨event, hevent, hpoint⟩
    rcases LoadEvent.eq_of_point_bootParams hpoint with ⟨source, destination, rfl⟩
    rcases startBuffer_events env append hooks image used hevent with rfl | ⟨_, heq⟩
    · exact ⟨destination, hevent⟩
    · cases heq
  · rintro ⟨destination, hevent⟩
    exact hcomes.mp ⟨_, hevent, rfl⟩

theorem startBuffer_reading {event : LoadEvent}
    (h : event ∈ (startBuffer env append hooks (LoadState.enter image used)).2.log) :
    event.reads = [] ∨ WellFormed image ∧
      (event = (aospHeader image).signatureCheck ∨
        (exists destination, event = LoadEvent.copy ImagePart.ramdisk
          (aospHeader image).ramdiskOffset (aospHeader image).ramdiskSize destination) ∨
        event.KernelOf image ∨
        exists destination, event = LoadEvent.bootParams (aospHeader image).pageSize destination) := by
  by_cases hformed : WellFormed image
  · rcases startBuffer_events env append hooks image used h with husual | hkernel
    · cases event with
      | checkSignature size sigOffset sigSize =>
          rcases husual with ⟨rfl, rfl, rfl⟩
          exact Or.inr ⟨hformed, Or.inl rfl⟩
      | copy part source size destination =>
          cases part with
          | kernel => exact husual.elim
          | ramdisk =>
              rcases husual with ⟨rfl, rfl⟩
              exact Or.inr ⟨hformed, Or.inr (Or.inl ⟨destination, rfl⟩)⟩
      | bootParams source destination =>
          cases husual
          exact Or.inr ⟨hformed, Or.inr (Or.inr (Or.inr ⟨destination, rfl⟩))⟩
      | _ => exact Or.inl rfl
    · exact Or.inr ⟨hformed, Or.inr (Or.inr (Or.inl hkernel))⟩
  · exact Or.inl (LoadEvent.reads_of_not_milestone
      (not_milestone_of_not_wellFormed env append hooks rfl hformed h))

/-!
# Reads that stay inside
-/

theorem inside_singleton_iff {length offset size : Nat} {event : LoadEvent}
    (h : event.reads = [(offset, size)]) :
    (forall offset' size', (offset', size') ∈ event.reads ->
        forall i, i < size' -> offset' + i < length) <->
      forall i, i < size -> offset + i < length := by
  rw [h]
  constructor
  · intro hall
    exact hall offset size (List.mem_singleton_self _)
  · intro hinside offset' size' hread
    cases List.mem_singleton.mp hread
    exact hinside

theorem signature_inside_iff {hdr : BootImgHdr} (hpage : hdr.pageSize ≠ 0) {length : Nat} :
    (forall offset size, (offset, size) ∈ (LoadEvent.checkSignature hdr.signedSize hdr.signedSize
        hdr.sigSize).reads -> forall i, i < size -> offset + i < length) <->
      hdr.signedEnd + hdr.sigSize ≤ length + lost hdr.signedEnd := by
  have hlost := u32_add_lost hdr.signedEnd
  rw [signedSize_eq (Nat.pos_of_ne_zero hpage)]
  constructor
  · intro h
    have hsigned := forall_add_lt_iff.mp (h 0 (u32 hdr.signedEnd) (by simp [LoadEvent.reads]))
    have hsig := forall_add_lt_iff.mp
      (h (u32 hdr.signedEnd) hdr.sigSize (by simp [LoadEvent.reads]))
    omega
  · intro h offset size hread
    apply forall_add_lt_iff.mpr
    rcases List.mem_pair.mp hread with heq | heq
    · cases heq
      omega
    · cases heq
      omega

theorem ramdisk_inside_iff {hdr : BootImgHdr} (hpage : hdr.pageSize ≠ 0) {length : Nat} :
    (forall i, i < hdr.ramdiskSize -> hdr.ramdiskOffset + i < length) <->
      hdr.ramdiskSize = 0 ∨ hdr.kernelEnd + hdr.ramdiskSize ≤ length + lost hdr.kernelEnd := by
  have hlost := u32_add_lost hdr.kernelEnd
  rw [ramdiskOffset_eq (Nat.pos_of_ne_zero hpage), forall_add_lt_iff]
  omega

theorem kernel_inside_iff {length : Nat} :
    (forall i, i < kernelCopySize image (aospHeader image).pageSize ->
      (aospHeader image).pageSize + setupSize image (aospHeader image).pageSize + i < length) <->
    (aospHeader image).kernelSize = setupSize image (aospHeader image).pageSize ∨
      (setupSize image (aospHeader image).pageSize < (aospHeader image).kernelSize ∧
        (aospHeader image).pageSize + (aospHeader image).kernelSize ≤ length) ∨
      (aospHeader image).pageSize + (aospHeader image).kernelSize + 2 ^ 32 ≤ length := by
  have hsetup := setupSize_lt image (aospHeader image).pageSize
  have hkernel := (aospHeader image).kernelSize_lt
  rw [forall_add_lt_iff]
  unfold kernelCopySize u32
  omega

/-- The reads of a start stay inside exactly if the image is long enough for each of them. -/
theorem startBuffer_reads_iff (length : Nat) :
    ReadsInside length (startBuffer env append hooks (LoadState.enter image used)).2.log <->
      LongEnough length env append (LoadState.enter image used) := by
  constructor
  · intro h
    constructor
    · intro hformed
      exact (signature_inside_iff hformed.2.2).mp
        (h _ (signatureCheck_mem env append hooks rfl hformed))
    · intro hreached
      rcases (ramdiskReached_iff env append hooks image used).mp hreached with
        ⟨destination, hevent⟩
      rcases startBuffer_reading env append hooks image used hevent with hnone | ⟨hformed, -⟩
      · cases hnone
      · exact (ramdisk_inside_iff hformed.2.2).mp ((inside_singleton_iff rfl).mp (h _ hevent))
    · intro hreached
      rcases (kernelReached_iff env append hooks image used).mp hreached with
        ⟨_, hevent, destination, rfl⟩
      exact (kernel_inside_iff image).mp ((inside_singleton_iff rfl).mp (h _ hevent))
    · intro hreached
      rcases (bootParamsReached_iff env append hooks image used).mp hreached with
        ⟨destination, hevent⟩
      have hread := forall_add_lt_iff.mp ((inside_singleton_iff rfl).mp (h _ hevent))
      exact hread.resolve_left (by decide)
  · intro h event hevent
    rcases startBuffer_reading env append hooks image used hevent with
      hnone | ⟨hformed, rfl | ⟨destination, rfl⟩ | ⟨destination, rfl⟩ | ⟨destination, rfl⟩⟩
    · intro offset size hread
      rw [hnone] at hread
      cases hread
    · exact (signature_inside_iff hformed.2.2).mpr (h.signature hformed)
    · have hreached := (ramdiskReached_iff env append hooks image used).mpr ⟨_, hevent⟩
      exact (inside_singleton_iff rfl).mpr
        ((ramdisk_inside_iff hformed.2.2).mpr (h.ramdisk hreached))
    · have hreached := (kernelReached_iff env append hooks image used).mpr
        ⟨_, hevent, destination, rfl⟩
      exact (inside_singleton_iff rfl).mpr ((kernel_inside_iff image).mpr (h.kernel hreached))
    · have hreached := (bootParamsReached_iff env append hooks image used).mpr ⟨_, hevent⟩
      exact (inside_singleton_iff rfl).mpr
        (forall_add_lt_iff.mpr (Or.inr (h.bootParams hreached)))

end Events

end BootImage
end BootableUefi
