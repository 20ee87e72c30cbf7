import BootableUefi.BootImage.Stages
import BootableUefi.Foundation.Traces

/-!
# Where a start writes

The command line, the ramdisk, the kernel and `boot_params` are written to pages
that were allocated just before.  All but the kernel are written to pages
allocated for their own size.
-/

namespace BootableUefi
namespace BootImage

open Firmware Foundation

/-- The bytes an event writes to pages: where they begin, and how many they are. -/
def LoadEvent.written : LoadEvent -> Option (Nat × Nat)
  | copy _ _ size destination => some (destination, size)
  | writeLine destination size => some (destination, size)
  | bootParams _ destination => some (destination, 16384)
  | _ => none

def LoadEvent.handedOut : LoadEvent -> Option PageRun
  | allocatePages run => some run
  | _ => none

def LoadEvent.CopiesKernel (event : LoadEvent) : Prop :=
  exists source size destination, event = copy ImagePart.kernel source size destination

/-- What a start may log beside the copy of the kernel, by the header of its image. -/
def LoadEvent.Usual (hdr : BootImgHdr) : LoadEvent -> Prop
  | checkSignature size sigOffset sigSize =>
      size = hdr.signedSize ∧ sigOffset = hdr.signedSize ∧ sigSize = hdr.sigSize
  | copy ImagePart.ramdisk source size _ => source = hdr.ramdiskOffset ∧ size = hdr.ramdiskSize
  | copy ImagePart.kernel _ _ _ => False
  | bootParams source _ => source = hdr.pageSize
  | readImage _ => False
  | _ => True

def LoadEvent.quiet : LoadEvent -> Bool
  | allocatePages _ => true
  | freePages _ => true
  | freePool _ => true
  | watchdog => true
  | beforeExit => true
  | beforeJump => true
  | _ => false

def lastRun (log : List LoadEvent) : Option PageRun :=
  (log.filterMap LoadEvent.handedOut).getLast?

def Inside (run : PageRun) (destination size : Nat) : Prop :=
  forall i, i < size ->
    run.base ≤ destination + i ∧ destination + i < run.base + 4096 * run.count

/-- What an event writes is in the pages that were handed out last. -/
def WritesLastRun (past : List LoadEvent) (event : LoadEvent) : Prop :=
  forall destination size, event.written = some (destination, size) ->
    exists run, lastRun past = some run ∧ Inside run destination size

def WritesInside (log : List LoadEvent) : Prop :=
  Respects WritesLastRun [] log

section Logs

variable {log past : List LoadEvent} {event : LoadEvent}

theorem lastRun_allocatePages (run : PageRun) :
    lastRun (log ++ [LoadEvent.allocatePages run]) = some run := by
  simp [lastRun, LoadEvent.handedOut]

theorem writesLastRun_of_quiet (h : event.quiet = true) : WritesLastRun past event := by
  intro destination size hwritten
  cases event with
  | copy => cases h
  | writeLine => cases h
  | bootParams => cases h
  | _ => cases hwritten

theorem writesLastRun_of_inside {run : PageRun} {destination size : Nat}
    (hwritten : event.written = some (destination, size)) (hlast : lastRun past = some run)
    (hinside : Inside run destination size) : WritesLastRun past event := by
  intro destination' size' hwritten'
  rw [hwritten] at hwritten'
  cases hwritten'
  exact ⟨run, hlast, hinside⟩

theorem le_sizeToPages (size : Nat) : size ≤ 4096 * sizeToPages size := by
  unfold sizeToPages
  split <;> omega

theorem inside_sizeToPages (base size : Nat) :
    Inside { base := base, count := sizeToPages size } base size := by
  intro i hi
  have hle := le_sizeToPages size
  dsimp only
  omega

end Logs

/--
What was logged since: no kernel was copied, the rest of the image was used as
its header says, and what was written was written to pages of its own.
-/
structure TameBy (hdr : BootImgHdr) (s t : LoadState) (more : List LoadEvent) : Prop where
  log : t.log = s.log ++ more
  usual : forall event, event ∈ more -> event.Usual hdr
  writes : Respects WritesLastRun s.log more

def Tame (hdr : BootImgHdr) (s t : LoadState) : Prop :=
  exists more, TameBy hdr s t more

section Tame

variable {hdr : BootImgHdr} {s t u : LoadState}

theorem LoadEvent.Usual.not_copiesKernel {event : LoadEvent} (h : event.Usual hdr) :
    ¬ event.CopiesKernel := by
  rintro ⟨_, _, _, rfl⟩
  exact h

theorem Tame.of_log (h : t.log = s.log) : Tame hdr s t := by
  refine ⟨[], ?_, ?_, respects_nil⟩
  · rw [h, List.append_nil]
  · simp

theorem Tame.trans (hst : Tame hdr s t) (htu : Tame hdr t u) : Tame hdr s u := by
  rcases hst with ⟨more, hst⟩
  rcases htu with ⟨rest, htu⟩
  refine ⟨more ++ rest, ?_, ?_, ?_⟩
  · rw [htu.log, hst.log, List.append_assoc]
  · intro event hevent
    rcases List.mem_append.mp hevent with h | h
    · exact hst.usual event h
    · exact htu.usual event h
  · have hrest := htu.writes
    rw [hst.log] at hrest
    exact respects_append.mpr ⟨hst.writes, hrest⟩

theorem Tame.emit {event : LoadEvent} (husual : event.Usual hdr)
    (hwrites : WritesLastRun s.log event) : Tame hdr s (s.emit event) := by
  refine ⟨[event], rfl, ?_, respects_singleton.mpr hwrites⟩
  intro other hother
  rwa [List.mem_singleton.mp hother]

theorem LoadEvent.usual_of_quiet {event : LoadEvent} (h : event.quiet = true) :
    event.Usual hdr := by
  cases event with
  | checkSignature => cases h
  | readImage => cases h
  | copy => cases h
  | bootParams => cases h
  | _ => trivial

theorem Tame.quiet {event : LoadEvent} (h : event.quiet = true) : Tame hdr s (s.emit event) :=
  Tame.emit (LoadEvent.usual_of_quiet h) (writesLastRun_of_quiet h)

theorem Tame.quietIf {event : LoadEvent} (cond : Bool) (h : event.quiet = true) :
    Tame hdr s (s.emitIf cond event) := by
  cases cond with
  | false => exact Tame.of_log rfl
  | true => exact Tame.quiet h

theorem SameMemory.tame (h : SameMemory s t) : Tame hdr s t :=
  Tame.of_log h.log

theorem freePages_tame (memory count : Nat) (s : LoadState) :
    Tame hdr s (freePages memory count s) :=
  (Tame.quiet (by rfl : (LoadEvent.freePages { base := memory, count := count }).quiet =
    true)).trans (Tame.of_log rfl)

theorem HandsOut.tame {run : PageRun} (h : HandsOut s run t) : Tame hdr s t := by
  refine ⟨[LoadEvent.allocatePages run], h.log, ?_, ?_⟩
  · intro event hevent
    rw [List.mem_singleton.mp hevent]
    trivial
  · exact respects_singleton.mpr (writesLastRun_of_quiet rfl)

theorem HandsOut.lastRun {run : PageRun} (h : HandsOut s run t) :
    lastRun t.log = some run := by
  rw [h.log]
  exact lastRun_allocatePages run

theorem HandsOut.tame_write {run : PageRun} {event : LoadEvent} {destination size : Nat}
    (h : HandsOut s run t) (husual : event.Usual hdr)
    (hwritten : event.written = some (destination, size))
    (hinside : Inside run destination size) : Tame hdr s (t.emit event) :=
  h.tame.trans (Tame.emit husual (writesLastRun_of_inside hwritten h.lastRun hinside))

end Tame

/-!
# The stages that are tame
-/

section Stages

variable (env : LoadEnv) {hdr : BootImgHdr}

theorem placeCommandLine_tame (block : PoolBlock) (line : List UInt8) (s : LoadState) :
    Tame hdr s (placeCommandLine env block line s).2 := by
  have hplacing := placeCommandLine_placing env block line s
  generalize placeCommandLine env block line s = result at hplacing ⊢
  cases hplacing with
  | refused hsame => exact hsame.tame.trans (Tame.quiet rfl)
  | pageZero hgrant => exact hgrant.tame.trans (Tame.quiet rfl)
  | @stored base t hne hgrant =>
      have hwrite : Tame hdr s (t.emit (LoadEvent.writeLine base (line.length + 1))) :=
        hgrant.tame_write trivial rfl (inside_sizeToPages base _)
      exact (hwrite.trans (Tame.quiet rfl)).trans (Tame.of_log rfl)

theorem setupCommandLine_tame (append : Option (List UInt8)) (s : LoadState) :
    Tame hdr s (setupCommandLine env append s).2 := by
  unfold setupCommandLine
  dsimp only
  split
  · exact Tame.of_log rfl
  · split
    · exact placeCommandLine_tame env _ _ s
    · split
      · exact (Tame.quiet rfl).trans (placeCommandLine_tame env _ _ _)
      · split
        · exact Tame.quiet rfl
        · exact ((Tame.quiet rfl).trans (Tame.quiet rfl)).trans
            (placeCommandLine_tame env _ _ _)

theorem setupRamdisk_tame (s : LoadState) :
    Tame (aospHeader s.image) s (setupRamdisk env s).2 := by
  have hsized : Tame (aospHeader s.image) s s.sized := Tame.of_log rfl
  have hsetup := setupRamdisk_setup env s
  generalize setupRamdisk env s = result at hsetup ⊢
  cases hsetup with
  | noPages hsame => exact hsized.trans hsame.tame
  | tooHigh hgrant => exact hsized.trans (hgrant.tame.trans (freePages_tame _ _ _))
  | @placed base t hgrant =>
      have hwrite : Tame (aospHeader s.image) s.sized
          (t.emit (LoadEvent.copy ImagePart.ramdisk (aospHeader s.image).ramdiskOffset
            (aospHeader s.image).ramdiskSize base)) :=
        hgrant.tame_write ⟨rfl, rfl⟩ rfl (inside_sizeToPages base _)
      exact hsized.trans (hwrite.trans (Tame.of_log rfl))

theorem abandonKernel_tame (kernelStart ksize : Nat) (step : LoadStep) (status : EfiStatus)
    (s : LoadState) : Tame hdr s (abandonKernel kernelStart ksize step status s).2 :=
  freePages_tame kernelStart (sizeToPages ksize) s

theorem hooked_tame (watchdogEn : Bool) (hooks : Option BootimgHooks) (s : LoadState) :
    Tame hdr s (s.hooked watchdogEn hooks) :=
  ((Tame.quietIf _ rfl).trans (Tame.quietIf _ rfl)).trans (Tame.of_log rfl)

theorem leaveFirmware_tame (watchdogEn : Bool) (hooks : Option BootimgHooks)
    (kernelStart ksize bootAddr : Nat) (s : LoadState) :
    Tame hdr s (leaveFirmware env watchdogEn hooks kernelStart ksize bootAddr s).2 := by
  have hhooked : Tame hdr s (s.hooked watchdogEn hooks) := hooked_tame watchdogEn hooks s
  have hleaving := leaveFirmware_leaving env watchdogEn hooks kernelStart ksize bootAddr s
  generalize leaveFirmware env watchdogEn hooks kernelStart ksize bootAddr s = result
    at hleaving ⊢
  cases hleaving with
  | abandoned => exact hhooked.trans (abandonKernel_tame _ _ _ _ _)
  | jumped => exact hhooked.trans (Tame.quietIf _ rfl)

theorem outBootimage_tame (ending : LoadEnd) (s : LoadState) :
    Tame hdr s (outBootimage ending s).2 :=
  Tame.quiet rfl

theorem outCmdline_tame (buf : Nat) (ending : LoadEnd) (s : LoadState) :
    Tame hdr s (outCmdline env buf ending s).2 := by
  unfold outCmdline
  dsimp only
  split
  · exact outBootimage_tame ending s
  · exact (freePages_tame _ _ s).trans (outBootimage_tame ending _)

/-!
# The kernel
-/

/-- The kernel is copied once, to the pages that were handed out last. -/
structure CopiesOnce (hdr : BootImgHdr) (source ksize initSize : Nat) (s t u : LoadState)
    (base : Nat) : Prop where
  before : Tame hdr s u
  pages : lastRun u.log = some { base := base, count := sizeToPages initSize }
  after : Tame hdr (u.emit (LoadEvent.copy ImagePart.kernel source ksize (env.arch.uintn base))) t

def KernelTrace (hdr : BootImgHdr) (source ksize initSize : Nat) (s t : LoadState) : Prop :=
  Tame hdr s t ∨ exists u base, CopiesOnce env hdr source ksize initSize s t u base

section KernelTrace

variable {env} {source ksize initSize : Nat} {s t u : LoadState}

theorem Tame.kernelTrace (hst : Tame hdr s t) (htu : KernelTrace env hdr source ksize initSize t u) :
    KernelTrace env hdr source ksize initSize s u := by
  rcases htu with htame | ⟨v, base, hcopy⟩
  · exact Or.inl (hst.trans htame)
  · exact Or.inr ⟨v, base, hst.trans hcopy.before, hcopy.pages, hcopy.after⟩

theorem KernelTrace.tame (hst : KernelTrace env hdr source ksize initSize s t) (htu : Tame hdr t u) :
    KernelTrace env hdr source ksize initSize s u := by
  rcases hst with htame | ⟨v, base, hcopy⟩
  · exact Or.inl (htame.trans htu)
  · exact Or.inr ⟨v, base, hcopy.before, hcopy.pages, hcopy.after.trans htu⟩

end KernelTrace

theorem loadKernel_trace (watchdogEn : Bool) (hooks : Option BootimgHooks)
    (source ksize initSize base : Nat) {s : LoadState}
    (hlast : lastRun s.log = some { base := base, count := sizeToPages initSize }) :
    KernelTrace env hdr source ksize initSize s
      (loadKernel env watchdogEn hooks hdr.pageSize source ksize base s).2 := by
  have hfilled : forall {v : LoadState} {bootAddr : Nat},
      HandsOut (s.copied env source ksize base)
        { base := bootAddr, count := sizeToPages 16384 } v ->
      Tame hdr (s.copied env source ksize base)
        (v.emit (LoadEvent.bootParams hdr.pageSize bootAddr)) :=
    fun hgrant => hgrant.tame_write rfl rfl (inside_sizeToPages _ 16384)
  have hcopied : forall {t : LoadState}, Tame hdr (s.copied env source ksize base) t ->
      KernelTrace env hdr source ksize initSize s t :=
    fun htame => Or.inr ⟨s, base, Tame.of_log rfl, hlast, htame⟩
  have hloading := loadKernel_loading env watchdogEn hooks hdr.pageSize source ksize base s
  generalize loadKernel env watchdogEn hooks hdr.pageSize source ksize base s = result
    at hloading ⊢
  cases hloading with
  | misplaced => exact Or.inl (abandonKernel_tame _ _ _ _ _)
  | noParams _ _ hsame => exact hcopied (hsame.tame.trans (abandonKernel_tame _ _ _ _ _))
  | noTables _ _ hgrant _ hsame =>
      exact hcopied ((hfilled hgrant).trans (hsame.tame.trans (abandonKernel_tame _ _ _ _ _)))
  | leaves _ _ hgrant _ hgdt =>
      exact hcopied ((hfilled hgrant).trans
        (hgdt.tame.trans (leaveFirmware_tame env _ _ _ _ _ _)))

theorem handoverKernel_trace (watchdogEn : Bool) (hooks : Option BootimgHooks) (s : LoadState) :
    KernelTrace env (aospHeader s.image)
      ((aospHeader s.image).pageSize + setupSize s.image (aospHeader s.image).pageSize)
      (kernelCopySize s.image (aospHeader s.image).pageSize)
      (le32 s.image ((aospHeader s.image).pageSize + SetupHeader.initSize)) s
      (handoverKernel env watchdogEn hooks s).2 := by
  have hstart : Tame (aospHeader s.image) s (s.screened env) := Tame.of_log rfl
  have hhandover := handoverKernel_handover env watchdogEn hooks s
  generalize handoverKernel env watchdogEn hooks s = result at hhandover ⊢
  cases hhandover with
  | noPages _ hsame => exact Or.inl (hstart.trans hsame.tame)
  | @loads base t _ hgrant =>
      exact (hstart.trans hgrant.tame).kernelTrace
        (loadKernel_trace env watchdogEn hooks _ _ _ base hgrant.lastRun)

theorem startVerified_trace (append : Option (List UInt8)) (hooks : Option BootimgHooks)
    {s : LoadState} {buf : Nat} (hbuf : (aospHeader s.image).pageSize = buf) :
    KernelTrace env (aospHeader s.image) (buf + setupSize s.image buf)
      (kernelCopySize s.image buf) (le32 s.image (buf + SetupHeader.initSize)) s
      (startVerified env append hooks buf s).2 := by
  unfold startVerified
  have hline : Tame (aospHeader s.image) s (setupCommandLine env append s).2 :=
    setupCommandLine_tame env append s
  have hfirst := setupCommandLine_outcome env append s
  generalize setupCommandLine env append s = result at hline hfirst ⊢
  cases hfirst with
  | failed => exact Or.inl (hline.trans (outBootimage_tame _ _))
  | @placed base line t hplaced _ =>
      have hlayout := hplaced.layout
      rw [hbuf] at hlayout
      have hloaded := setupRamdisk_tame env t
      rw [hlayout.header] at hloaded
      have hramdisk := hline.trans hloaded
      have hsecond := setupRamdisk_outcome env t
      rw [hlayout.header, hbuf] at hsecond
      have hsized := ramdiskFields_size t.image buf (aospHeader s.image).ramdiskSize_lt
      dsimp only
      generalize setupRamdisk env t = result at hramdisk hsecond ⊢
      cases hsecond with
      | noPages => exact Or.inl (hramdisk.trans (outCmdline_tame env _ _ _))
      | tooHigh => exact Or.inl (hramdisk.trans (outCmdline_tame env _ _ _))
      | @placed ramdisk u _ _ himage _ =>
          have hfields := hsized.store_address ramdisk
          rw [← himage] at hfields
          have hkept := hlayout.trans hfields.layout
          have hthird := handoverKernel_trace env (watchdogEnabled env buf u) hooks u
          rw [hkept.header, hbuf, hkept.setupSize, hkept.kernelCopySize, hkept.initSize] at hthird
          have htrace := hramdisk.kernelTrace hthird
          dsimp only
          generalize handoverKernel env (watchdogEnabled env buf u) hooks u = result at htrace ⊢
          rcases result with ⟨ending, v⟩
          cases ending with
          | failed step status =>
              exact htrace.tame ((freePages_tame _ _ v).trans (outCmdline_tame env _ _ _))
          | divideError => exact htrace
          | jumped kernelStart bootAddr => exact htrace

theorem startBuffer_trace (append : Option (List UInt8)) (hooks : Option BootimgHooks)
    (s : LoadState) :
    KernelTrace env (aospHeader s.image)
      ((aospHeader s.image).pageSize + setupSize s.image (aospHeader s.image).pageSize)
      (kernelCopySize s.image (aospHeader s.image).pageSize)
      (le32 s.image ((aospHeader s.image).pageSize + SetupHeader.initSize)) s
      (startBuffer env append hooks s).2 := by
  have hcheck : Tame (aospHeader s.image) s (s.emit (aospHeader s.image).signatureCheck) := by
    refine Tame.emit ⟨rfl, rfl, rfl⟩ ?_
    intro destination size hwritten
    cases hwritten
  have hchecking := startBuffer_checking env append hooks s
  generalize startBuffer env append hooks s = result at hchecking ⊢
  cases hchecking with
  | corrupt => exact Or.inl (outBootimage_tame _ s)
  | divided => exact Or.inl (Tame.of_log rfl)
  | refused => exact Or.inl (hcheck.trans (outBootimage_tame _ _))
  | verified =>
      have hverified := startVerified_trace env append hooks
        (s := s.emit (aospHeader s.image).signatureCheck) rfl
      exact hcheck.kernelTrace hverified

end Stages

/-!
# The kernel and its pages
-/

def setupLength (image : Mem) : Nat :=
  (byteAt image ((aospHeader image).pageSize + SetupHeader.setupSects) + 1) * 512

/-- All writes are in pages of their own, and the kernel is what follows its setup sectors. -/
structure CopiesInside (image : Mem) (log : List LoadEvent) : Prop where
  writes : WritesInside log
  kernelLength : forall source size destination,
    LoadEvent.copy ImagePart.kernel source size destination ∈ log ->
      setupLength image + size = (aospHeader image).kernelSize

/-- The kernel is no shorter than its setup, and not too long for pages that can be reached. -/
structure KernelFits (arch : Arch) (image : Mem) (past : List LoadEvent) : Prop where
  sects : byteAt image ((aospHeader image).pageSize + SetupHeader.setupSects) < 255
  setup : setupLength image ≤ (aospHeader image).kernelSize
  room : (aospHeader image).kernelSize ≤ setupLength image +
    4096 * sizeToPages (le32 image ((aospHeader image).pageSize + SetupHeader.initSize))
  reach : (aospHeader image).kernelSize = setupLength image ∨
    forall run, lastRun past = some run -> run.base < 2 ^ arch.uintnBits

/-- The size that is copied is right if neither of the subtractions wraps. -/
theorem kernelCopySize_exact_iff (image : Mem) :
    setupLength image + kernelCopySize image (aospHeader image).pageSize =
        (aospHeader image).kernelSize <->
      byteAt image ((aospHeader image).pageSize + SetupHeader.setupSects) < 255 ∧
        setupLength image ≤ (aospHeader image).kernelSize := by
  have hkernel := (aospHeader image).kernelSize_lt
  have hbyte : byteAt image ((aospHeader image).pageSize + SetupHeader.setupSects) < 256 :=
    UInt8.toNat_lt _
  unfold kernelCopySize setupSize setupLength u8 u32
  omega

/-- What is copied is inside the pages for `init_size` if it is no longer and they are in reach. -/
theorem inside_uintn_iff {arch : Arch} {run : PageRun} {size : Nat} :
    Inside run (arch.uintn run.base) size <->
      size ≤ 4096 * run.count ∧ (size = 0 ∨ run.base < 2 ^ arch.uintnBits) := by
  have hlt := uintn_lt arch run.base
  constructor
  · intro h
    rcases Nat.eq_zero_or_pos size with hzero | hpos
    · exact ⟨by omega, Or.inl hzero⟩
    · have hfirst := h 0 hpos
      have hreach : run.base < 2 ^ arch.uintnBits := by omega
      have hlast := h (size - 1) (by omega)
      rw [uintn_of_lt hreach] at hlast
      exact ⟨by omega, Or.inr hreach⟩
  · rintro ⟨hroom, hzero | hreach⟩ i hi
    · omega
    · rw [uintn_of_lt hreach]
      omega

theorem kernelFits_iff {arch : Arch} {image : Mem} {past : List LoadEvent} {base : Nat}
    (hlast : lastRun past = some
      { base := base
        count := sizeToPages
          (le32 image ((aospHeader image).pageSize + SetupHeader.initSize)) }) :
    KernelFits arch image past <->
      setupLength image + kernelCopySize image (aospHeader image).pageSize =
          (aospHeader image).kernelSize ∧
        exists run, lastRun past = some run ∧
          Inside run (arch.uintn base) (kernelCopySize image (aospHeader image).pageSize) := by
  constructor
  · intro h
    have hexact := (kernelCopySize_exact_iff image).mpr ⟨h.sects, h.setup⟩
    have hroom := h.room
    refine ⟨hexact, _, hlast, inside_uintn_iff.mpr ⟨?_, ?_⟩⟩
    · dsimp only
      omega
    · rcases h.reach with hnone | hreach
      · exact Or.inl (by omega)
      · exact Or.inr (hreach _ hlast)
  · rintro ⟨hexact, run, hrun, hinside⟩
    rw [hlast] at hrun
    cases hrun
    rcases (kernelCopySize_exact_iff image).mp hexact with ⟨hsects, hsetup⟩
    rcases inside_uintn_iff.mp hinside with ⟨hroom, hreach⟩
    dsimp only at hroom
    refine ⟨hsects, hsetup, by omega, ?_⟩
    rcases hreach with hzero | hreach
    · exact Or.inl (by omega)
    · refine Or.inr ?_
      intro run hrun
      rw [hlast] at hrun
      cases hrun
      exact hreach

theorem copiesInside_iff_of_once {image : Mem} {first rest : List LoadEvent}
    {source size destination : Nat}
    (hfirst : forall event, event ∈ first -> ¬ event.CopiesKernel)
    (hrest : forall event, event ∈ rest -> ¬ event.CopiesKernel)
    (hwrites : Respects WritesLastRun [] first)
    (hwrites' : Respects WritesLastRun
      (first ++ [LoadEvent.copy ImagePart.kernel source size destination]) rest) :
    CopiesInside image (first ++ LoadEvent.copy ImagePart.kernel source size destination :: rest) <->
      setupLength image + size = (aospHeader image).kernelSize ∧
        exists run, lastRun first = some run ∧ Inside run destination size := by
  constructor
  · intro h
    refine ⟨h.kernelLength source size destination (by simp), ?_⟩
    exact h.writes.allowed destination size rfl
  · rintro ⟨hlength, hinside⟩
    constructor
    · refine respects_append.mpr ⟨hwrites, ?_, hwrites'⟩
      intro destination' size' hwritten
      cases hwritten
      exact hinside
    · intro source' size' destination' hcopy
      rcases List.mem_append.mp hcopy with hmem | hmem
      · exact absurd ⟨_, _, _, rfl⟩ (hfirst _ hmem)
      · rcases List.mem_cons.mp hmem with heq | hmem
        · cases heq
          exact hlength
        · exact absurd ⟨_, _, _, rfl⟩ (hrest _ hmem)

/--
A start writes only inside pages of its own and copies what follows the setup
sectors exactly if a kernel it copies fits the pages it has.
-/
theorem startBuffer_copiesInside_iff (env : LoadEnv) (append : Option (List UInt8))
    (hooks : Option BootimgHooks) (image : Mem) (used : Finset Nat) :
    CopiesInside image (startBuffer env append hooks (LoadState.enter image used)).2.log <->
      forall before event after,
        (startBuffer env append hooks (LoadState.enter image used)).2.log =
            before ++ event :: after ->
          event.CopiesKernel -> KernelFits env.arch image before := by
  have htrace := startBuffer_trace env append hooks (LoadState.enter image used)
  generalize (startBuffer env append hooks (LoadState.enter image used)).2 = t at htrace ⊢
  rcases htrace with ⟨more, hmore⟩ | ⟨u, base, ⟨first, hfirst⟩, hpages, rest, hrest⟩
  · have hlog : t.log = more := hmore.log
    rw [hlog]
    constructor
    · intro _ before event after hsplit hkernel
      exact absurd hkernel ((hmore.usual event (by simp [hsplit])).not_copiesKernel)
    · intro _
      refine ⟨hmore.writes, ?_⟩
      intro source size destination hcopy
      exact absurd ⟨source, size, destination, rfl⟩ (hmore.usual _ hcopy).not_copiesKernel
  · have hnone : forall event, event ∈ first -> ¬ event.CopiesKernel :=
      fun event hevent => (hfirst.usual event hevent).not_copiesKernel
    have hnone' : forall event, event ∈ rest -> ¬ event.CopiesKernel :=
      fun event hevent => (hrest.usual event hevent).not_copiesKernel
    have hu : u.log = first := hfirst.log
    have hwrites := hrest.writes
    have hlog := hrest.log
    dsimp only [LoadState.emit] at hlog hwrites
    rw [hu] at hpages hwrites hlog
    rw [hlog, List.append_assoc, List.singleton_append,
      copiesInside_iff_of_once hnone hnone' hfirst.writes hwrites]
    constructor
    · intro h before event after hsplit hkernel
      rcases eq_of_append_cons hkernel hnone hnone' hsplit.symm with ⟨rfl, -⟩
      exact (kernelFits_iff hpages).mpr h
    · intro h
      exact (kernelFits_iff hpages).mp (h first _ rest rfl ⟨_, _, _, rfl⟩)

/-- A kernel of 256 bytes with one setup sector: almost 4 GiB are copied to one page. -/
theorem startBuffer_copies_outside :
    ¬ CopiesInside (smallImage 0x100 0x1000 0)
      (startBuffer smallEnv none none (LoadState.enter (smallImage 0x100 0x1000 0) ∅)).2.log := by
  intro h
  have hcopy : LoadEvent.copy ImagePart.kernel 0x1200 0xFFFFFF00 0x200000 ∈
      (startBuffer smallEnv none none
        (LoadState.enter (smallImage 0x100 0x1000 0) ∅)).2.log := by
    decide +kernel
  exact absurd (h.kernelLength _ _ _ hcopy) (by decide +kernel)

end BootImage
end BootableUefi
