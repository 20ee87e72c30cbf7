import BootableUefi.BootImage.CommandLine
import BootableUefi.BootImage.Copies
import BootableUefi.BootImage.SignedRegion
import BootableUefi.Foundation.Placements

/-!
# What the kernel is handed

A start that jumps has put the command line, the ramdisk, the kernel,
`boot_params` and the descriptor tables in pages of their own and still holds
them.
-/

namespace BootableUefi
namespace BootImage

open Firmware Foundation

def SetupHeader.code32Start : Nat := 0x214

/-- Where a start has put what it hands over. -/
structure Handoff where
  line : List UInt8
  lineBase : Nat
  ramdisk : Nat
  kernelStart : Nat
  bootAddr : Nat
  tables : Nat
  /-- The last memory map the firmware has returned. -/
  map : List MemoryDescriptor
  deriving DecidableEq, Repr

/-- The table `setup_idt_gdt` fills. -/
def gdtBytes : Mem :=
  store 8 32 0x0080890000000000
    (store 8 24 0x00cf92000000ffff (store 8 16 0x00cf9a000000ffff fun _ => 0))

namespace Handoff

variable (h : Handoff) (arch : Arch) (gop : Option GopMode) (image : Mem)

/-!
# The image while it is loaded
-/

/-- The image once `setup_command_line` has returned. -/
def lineImage : Mem :=
  let buf := (aospHeader image).pageSize
  if h.lineBase = 0 then
    image
  else
    store 4 (buf + SetupHeader.cmdlineSize) (h.line.length + 1)
      (store 4 (buf + SetupHeader.cmdLinePtr) h.lineBase image)

/-- The image the ramdisk is copied from. -/
def sizedImage : Mem :=
  let hdr := aospHeader image
  store 4 (hdr.pageSize + SetupHeader.ramdiskSize) hdr.ramdiskSize (h.lineImage image)

/-- The image once `setup_ramdisk` has returned. -/
def ramdiskImage : Mem :=
  store 4 ((aospHeader image).pageSize + SetupHeader.ramdiskImage) h.ramdisk
    (h.sizedImage image)

/-- The image the kernel and the first sectors are copied from. -/
def finalImage : Mem :=
  let buf := (aospHeader image).pageSize
  setupScreenInfo gop buf (store 1 (buf + SetupHeader.typeOfLoader) 0xff (h.ramdiskImage image))

/-!
# The writes
-/

/-- `boot_params` when the firmware is left: two sectors, and the start of the kernel. -/
def bootParams (source : Nat) : Mem :=
  store 4 SetupHeader.code32Start (u32 h.kernelStart)
    fun i => if i < 1024 then h.finalImage gop image (source + i) else 0

def byteWrite : LoadEvent -> Option ByteWrite
  | LoadEvent.copy ImagePart.ramdisk source size destination =>
      some { offset := destination, size := size, data := fun i => h.sizedImage image (source + i) }
  | LoadEvent.copy ImagePart.kernel source size destination =>
      some { offset := destination, size := size
             data := fun i => h.finalImage gop image (source + i) }
  | LoadEvent.writeLine destination size =>
      some { offset := destination, size := size, data := memOf h.line }
  | LoadEvent.bootParams source destination =>
      some { offset := destination, size := 16384, data := h.bootParams gop image source }
  | _ => none

/-- The runs of pages, in the order they are taken, with what is written to each. -/
def placements : List (PageRun × ByteWrite) :=
  let hdr := aospHeader image
  let buf := hdr.pageSize
  [({ base := h.lineBase, count := sizeToPages (h.line.length + 1) },
      { offset := h.lineBase, size := if h.lineBase = 0 then 0 else h.line.length + 1
        data := memOf h.line }),
    ({ base := h.ramdisk, count := sizeToPages hdr.ramdiskSize },
      { offset := h.ramdisk, size := hdr.ramdiskSize
        data := fun i => h.sizedImage image (hdr.ramdiskOffset + i) }),
    ({ base := h.kernelStart, count := sizeToPages (le32 image (buf + SetupHeader.initSize)) },
      { offset := arch.uintn h.kernelStart, size := kernelCopySize image buf
        data := fun i => h.finalImage gop image (buf + setupSize image buf + i) }),
    ({ base := h.bootAddr, count := sizeToPages 16384 },
      { offset := h.bootAddr, size := 16384, data := h.bootParams gop image buf }),
    ({ base := h.tables, count := sizeToPages gdtLimit },
      { offset := h.tables, size := gdtLimit, data := gdtBytes })]

def runs : List PageRun :=
  (h.placements arch gop image).map Prod.fst

def lineEvents : List LoadEvent :=
  if h.lineBase = 0 then [] else [LoadEvent.writeLine h.lineBase (h.line.length + 1)]

def events : List LoadEvent :=
  let hdr := aospHeader image
  h.lineEvents ++
    [LoadEvent.copy ImagePart.ramdisk hdr.ramdiskOffset hdr.ramdiskSize h.ramdisk,
      LoadEvent.copy ImagePart.kernel (hdr.pageSize + setupSize image hdr.pageSize)
        (kernelCopySize image hdr.pageSize) (arch.uintn h.kernelStart),
      LoadEvent.bootParams hdr.pageSize h.bootAddr]

end Handoff

/-!
# The stages
-/

def LoadEvent.writes (event : LoadEvent) : Bool :=
  event.written.isSome

/-- From one state to the other, some pages were taken and some of them were written. -/
structure Places (s : LoadState) (runs : List PageRun) (events : List LoadEvent)
    (t : LoadState) : Prop where
  granted : Granted s.used runs
  used : t.used = takeAll s.used runs
  calls : t.calls = s.calls ++ runs.map PageCall.allocate
  written : t.log.filter LoadEvent.writes = s.log.filter LoadEvent.writes ++ events

section Places

variable {s t u : LoadState} {runs rest : List PageRun} {events more : List LoadEvent}

theorem After.places {uses : List LoadEvent} (h : After s runs uses t)
    (hsame : SameEvents LoadEvent.writes s t) : Places s runs [] t where
  granted := h.granted
  used := h.used
  calls := h.calls
  written := by rw [hsame, List.append_nil]

theorem Places.of_eq (hused : t.used = s.used) (hlog : t.log = s.log) : Places s [] [] t :=
  (After.of_eq hused hlog).places (SameEvents.of_log hlog)

theorem Places.quiet {event : LoadEvent} (hwrites : event.writes = false)
    (huses : event.usesImage = false) (hcall : event.pageCall = none) :
    Places s [] [] (s.emit event) :=
  (After.quiet huses hcall).places (SameEvents.emit hwrites)

theorem Places.write {event : LoadEvent} (hwrites : event.writes = true)
    (hcall : event.pageCall = none) : Places s [] [event] (s.emit event) where
  granted := trivial
  used := rfl
  calls := by simp [LoadState.calls, LoadState.emit, hcall]
  written := by simp [filter_log_emit, hwrites]

theorem HandsOut.places {run : PageRun} (h : HandsOut s run t) : Places s [run] [] t :=
  h.after.places (h.sameEvents rfl)

theorem Places.trans (hst : Places s runs events t) (htu : Places t rest more u) :
    Places s (runs ++ rest) (events ++ more) u where
  granted := by
    have hrest := htu.granted
    rw [hst.used] at hrest
    exact granted_append.mpr ⟨hst.granted, hrest⟩
  used := by
    rw [htu.used, hst.used]
    simp [takeAll]
  calls := by simp [htu.calls, hst.calls]
  written := by rw [htu.written, hst.written, List.append_assoc]

end Places

/-!
# The command line
-/

/-- `setup_command_line` has placed the line of a hand-off. -/
structure PlacesLine (h : Handoff) (s t : LoadState) : Prop where
  places : Places s [{ base := h.lineBase, count := sizeToPages (h.line.length + 1) }]
    h.lineEvents t
  image : t.image = h.lineImage s.image
  line : h.lineBase ≠ 0 ->
    t.commandLine = some (h.lineBase, h.line) ∧
      h.lineBase + 4096 * sizeToPages (h.line.length + 1) ≤ 0xA0000 + 1

def Handoff.ofLine (line : List UInt8) (base : Nat) : Handoff where
  line := line
  lineBase := base
  ramdisk := 0
  kernelStart := 0
  bootAddr := 0
  tables := 0
  map := []

theorem placeCommandLine_places {env : LoadEnv} {block : PoolBlock} {line : List UInt8}
    {s u t : LoadState} (hbefore : Places s [] [] u) (himage : u.image = s.image)
    (hrun : placeCommandLine env block line u = (none, t)) :
    exists base, PlacesLine (Handoff.ofLine line base) s t := by
  have hplacing := placeCommandLine_placing env block line u
  rw [hrun] at hplacing
  cases hplacing with
  | @pageZero t hgrant =>
      refine ⟨0, ?_, ?_, fun hne => absurd rfl hne⟩
      · exact hbefore.trans (hgrant.places.trans (Places.quiet rfl rfl rfl))
      · show t.image = s.image
        rw [hgrant.image, himage]
  | @stored base t hne hgrant hlow =>
      refine ⟨base, ?_, ?_, fun _ => ⟨rfl, hlow⟩⟩
      · have hevents : (Handoff.ofLine line base).lineEvents =
            [LoadEvent.writeLine base (line.length + 1)] := if_neg hne
        have hwrite : Places t [] [LoadEvent.writeLine base (line.length + 1)]
            (t.emit (LoadEvent.writeLine base (line.length + 1))) := Places.write rfl rfl
        have hfree : Places (t.emit (LoadEvent.writeLine base (line.length + 1))) [] []
            ((t.emit (LoadEvent.writeLine base (line.length + 1))).emit
              (LoadEvent.freePool block)) := Places.quiet rfl rfl rfl
        rw [hevents]
        exact (hbefore.trans (hgrant.places.trans (hwrite.trans hfree))).trans
          (Places.of_eq rfl rfl)
      · have hstored : (Handoff.ofLine line base).lineImage s.image =
            store 4 ((aospHeader s.image).pageSize + SetupHeader.cmdlineSize) (line.length + 1)
              (store 4 ((aospHeader s.image).pageSize + SetupHeader.cmdLinePtr) base s.image) :=
          if_neg hne
        rw [hstored]
        unfold LoadState.withLine
        dsimp only [LoadState.emit]
        rw [hgrant.image, himage]

theorem setupCommandLine_places {env : LoadEnv} {append : Option (List UInt8)}
    {s t : LoadState} (hrun : setupCommandLine env append s = (none, t)) :
    exists line base, PlacesLine (Handoff.ofLine line base) s t := by
  have hfree : forall (u : LoadState) (block : PoolBlock),
      Places u [] [] (u.emit (LoadEvent.freePool block)) :=
    fun u block => Places.quiet rfl rfl rfl
  unfold setupCommandLine at hrun
  dsimp only at hrun
  split at hrun
  · cases hrun
  · split at hrun
    · exact ⟨_, placeCommandLine_places (Places.of_eq rfl rfl) rfl hrun⟩
    · split at hrun
      · exact ⟨_, placeCommandLine_places (hfree s _) rfl hrun⟩
      · split at hrun
        · cases hrun
        · exact ⟨_, placeCommandLine_places ((hfree s _).trans (hfree _ _)) rfl hrun⟩

/-!
# The ramdisk
-/

theorem setupRamdisk_places {env : LoadEnv} {s t : LoadState}
    (hrun : setupRamdisk env s = (none, t)) :
    exists base, Places s
      [{ base := base, count := sizeToPages (aospHeader s.image).ramdiskSize }]
      [LoadEvent.copy ImagePart.ramdisk (aospHeader s.image).ramdiskOffset
        (aospHeader s.image).ramdiskSize base] t ∧
      base < 2 ^ 32 ∧
      t.image = store 4 ((aospHeader s.image).pageSize + SetupHeader.ramdiskImage) base
        s.sized.image ∧
      t.commandLine = s.commandLine := by
  have hsetup := setupRamdisk_setup env s
  rw [hrun] at hsetup
  cases hsetup with
  | @placed base u hgrant hlow =>
      refine ⟨base, ?_, hlow, ?_, hgrant.commandLine⟩
      · have hsized : Places s [] [] s.sized := Places.of_eq rfl rfl
        have hcopy : Places u [] [LoadEvent.copy ImagePart.ramdisk
            (aospHeader s.image).ramdiskOffset (aospHeader s.image).ramdiskSize base]
            (u.emit (LoadEvent.copy ImagePart.ramdisk (aospHeader s.image).ramdiskOffset
              (aospHeader s.image).ramdiskSize base)) := Places.write rfl rfl
        exact ((hsized.trans hgrant.places).trans hcopy).trans (Places.of_eq rfl rfl)
      · show store 4 _ base u.image = _
        rw [hgrant.image]

/-!
# The kernel
-/

theorem hooked_places (watchdogEn : Bool) (hooks : Option BootimgHooks) (s : LoadState) :
    Places s [] [] (s.hooked watchdogEn hooks) :=
  (hooked_after watchdogEn hooks s).places
    (((SameEvents.emitIf _ rfl).trans (SameEvents.emitIf _ rfl)).trans (SameEvents.of_log rfl))

theorem copied_places (env : LoadEnv) (source ksize kernelStart : Nat) (s : LoadState) :
    Places s [] [LoadEvent.copy ImagePart.kernel source ksize (env.arch.uintn kernelStart)]
      (s.copied env source ksize kernelStart) :=
  Places.write rfl rfl

theorem filled_places (buf bootAddr : Nat) (s : LoadState) :
    Places s [] [LoadEvent.bootParams buf bootAddr] (s.emit (LoadEvent.bootParams buf bootAddr)) :=
  Places.write rfl rfl

theorem bootParamsFilled_base {env : LoadEnv} {s t : LoadState} {buf : Nat}
    (hfilled : bootParamsFilled env s buf = some t) :
    exists bootAddr, t.log.getLast? = some (LoadEvent.bootParams buf bootAddr) ∧
      bootAddr + 16384 ≤ 2 ^ 30 := by
  unfold bootParamsFilled at hfilled
  rcases allocatePages_cases env AllocateType.maxAddress (sizeToPages 16384) 0x3fffffff s
    with ⟨status, u, heq, hstatus, -⟩ | ⟨base, u, heq, -, hlow, -⟩
  · rw [heq] at hfilled
    split at hfilled
    · rename_i hsuccess
      exact absurd (congrArg Prod.fst hsuccess) hstatus
    · cases hfilled
  · rw [heq] at hfilled
    cases hfilled
    refine ⟨base, by simp [LoadState.emit], ?_⟩
    have hpages : sizeToPages 16384 = 4 := by rfl
    rw [hpages] at hlow
    dsimp only [AllocateType.Admits] at hlow
    omega

theorem abandonKernel_ne_jumped {kernelStart ksize kernelStart' bootAddr : Nat}
    {step : LoadStep} {status : EfiStatus} {s t : LoadState} :
    abandonKernel kernelStart ksize step status s ≠ (LoadEnd.jumped kernelStart' bootAddr, t) :=
  fun h => nomatch congrArg Prod.fst h

/-- What the end of `handover_kernel` has done when it jumps. -/
structure PlacesParams (buf source ksize kernelStart destination bootAddr tables : Nat)
    (s t : LoadState) : Prop where
  places : Places s
    [{ base := bootAddr, count := sizeToPages 16384 },
      { base := tables, count := sizeToPages gdtLimit }]
    [LoadEvent.copy ImagePart.kernel source ksize destination,
      LoadEvent.bootParams buf bootAddr] t
  image : t.image = s.image
  line : t.commandLine = s.commandLine
  wellPlaced : ¬ Misplaced buf kernelStart s.image
  low : bootAddr + 16384 ≤ 2 ^ 30

def LastMap (env : LoadEnv) (t : LoadState) (map : List MemoryDescriptor) : Prop :=
  exists n, t.mapCalls = n + 1 ∧ memoryMap (env.mapReplies n) = Except.ok map

theorem leaveFirmware_lastMap {env : LoadEnv} {watchdogEn : Bool} {hooks : Option BootimgHooks}
    {kernelStart ksize bootAddr kernelStart' bootAddr' : Nat} {s t : LoadState}
    (hrun : leaveFirmware env watchdogEn hooks kernelStart ksize bootAddr s =
      (LoadEnd.jumped kernelStart' bootAddr', t)) :
    exists map, LastMap env t map := by
  have hquiet : forall (cond : Bool) (event : LoadEvent) (u : LoadState),
      (u.emitIf cond event).mapCalls = u.mapCalls := by
    intro cond event u
    unfold LoadState.emitIf
    split <;> rfl
  unfold leaveFirmware at hrun
  dsimp only at hrun
  split at hrun
  · exact absurd hrun abandonKernel_ne_jumped
  · rename_i map hmap
    split at hrun
    · exact absurd hrun abandonKernel_ne_jumped
    · cases hrun
      refine ⟨map, _, ?_, hmap⟩
      rw [hquiet]

theorem leaveFirmware_jumped {env : LoadEnv} {watchdogEn : Bool} {hooks : Option BootimgHooks}
    {kernelStart ksize kernelStart' bootAddr bootAddr' : Nat} {s t : LoadState}
    (hrun : leaveFirmware env watchdogEn hooks kernelStart ksize bootAddr s =
      (LoadEnd.jumped kernelStart' bootAddr', t)) :
    (kernelStart' = kernelStart ∧ bootAddr' = bootAddr) ∧ Places s [] [] t ∧
      t.image = s.image ∧ t.commandLine = s.commandLine := by
  have hleaving := leaveFirmware_leaving env watchdogEn hooks kernelStart ksize bootAddr s
  rw [hrun] at hleaving
  generalize hending : (LoadEnd.jumped kernelStart' bootAddr', t) = ending at hleaving
  cases hleaving with
  | abandoned => exact absurd hending.symm abandonKernel_ne_jumped
  | jumped =>
      cases hending
      refine ⟨⟨rfl, rfl⟩, (hooked_places watchdogEn hooks s).trans
        ((After.quietIf _ rfl rfl).places (SameEvents.emitIf _ rfl)), ?_, ?_⟩
      · rw [LoadState.emitIf_image, s.hooked_image]
      · rw [LoadState.emitIf_commandLine, s.hooked_commandLine]

theorem loadKernel_jumped {env : LoadEnv} {watchdogEn : Bool} {hooks : Option BootimgHooks}
    {buf source ksize kernelStart kernelStart' bootAddr : Nat} {s t : LoadState}
    (hrun : loadKernel env watchdogEn hooks buf source ksize kernelStart s =
      (LoadEnd.jumped kernelStart' bootAddr, t)) :
    (kernelStart' = kernelStart ∧ exists map, LastMap env t map) ∧ exists tables,
      PlacesParams buf source ksize kernelStart (env.arch.uintn kernelStart) bootAddr tables s t := by
  have hloading := loadKernel_loading env watchdogEn hooks buf source ksize kernelStart s
  rw [hrun] at hloading
  generalize hending : (LoadEnd.jumped kernelStart' bootAddr, t) = ending at hloading
  cases hloading with
  | misplaced => exact absurd hending.symm abandonKernel_ne_jumped
  | noParams => exact absurd hending.symm abandonKernel_ne_jumped
  | noTables => exact absurd hending.symm abandonKernel_ne_jumped
  | @leaves base gdtBase u v hplace hparams hgrant htables hgdt =>
      rcases leaveFirmware_jumped hending.symm with ⟨⟨rfl, rfl⟩, hleft, himage, hline⟩
      have hmap := leaveFirmware_lastMap hending.symm
      have hcopied := copied_places env source ksize kernelStart' s
      have hfilled := (hcopied.trans hgrant.places).trans (filled_places buf bootAddr u)
      refine ⟨⟨rfl, hmap⟩, gdtBase, (hfilled.trans hgdt.places).trans hleft, ?_, ?_, hplace, ?_⟩
      · rw [himage, hgdt.image]
        exact hgrant.image
      · rw [hline, hgdt.commandLine]
        exact hgrant.commandLine
      · rcases bootParamsFilled_base hparams with ⟨base, hlast, hlow⟩
        simp only [LoadState.emit, List.getLast?_concat, Option.some.injEq,
          LoadEvent.bootParams.injEq, true_and] at hlast
        rwa [hlast]

theorem handoverKernel_jumped {env : LoadEnv} {watchdogEn : Bool} {hooks : Option BootimgHooks}
    {s t : LoadState} {kernelStart bootAddr : Nat}
    (hrun : handoverKernel env watchdogEn hooks s = (LoadEnd.jumped kernelStart bootAddr, t)) :
    exists u map tables, LastMap env t map ∧ Places s
        [{ base := kernelStart
           count := sizeToPages
            (le32 s.image ((aospHeader s.image).pageSize + SetupHeader.initSize)) }] [] u ∧
      u.image = (s.screened env).image ∧ u.commandLine = s.commandLine ∧
      PlacesParams (aospHeader s.image).pageSize
        ((aospHeader s.image).pageSize + setupSize s.image (aospHeader s.image).pageSize)
        (kernelCopySize s.image (aospHeader s.image).pageSize) kernelStart
        (env.arch.uintn kernelStart) bootAddr tables u t := by
  have hhandover := handoverKernel_handover env watchdogEn hooks s
  rw [hrun] at hhandover
  generalize hending : (LoadEnd.jumped kernelStart bootAddr, t) = ending at hhandover
  cases hhandover with
  | noPages => cases hending
  | @loads base u hpages hgrant =>
      rcases loadKernel_jumped hending.symm with ⟨⟨rfl, map, hmap⟩, tables, hparams⟩
      have hscreened : Places s [] [] (s.screened env) := Places.of_eq rfl rfl
      exact ⟨u, map, tables, hmap, hscreened.trans hgrant.places, hgrant.image,
        hgrant.commandLine, hparams⟩

/-!
# The setup header
-/

/-- The bytes of the first sectors the loader assigns. -/
def Assigned (buf x : Nat) : Prop :=
  (buf ≤ x ∧ x < buf + 0x40) ∨ x = buf + SetupHeader.typeOfLoader ∨
    (buf + SetupHeader.ramdiskImage ≤ x ∧ x < buf + SetupHeader.ramdiskSize + 4) ∨
    (buf + SetupHeader.cmdLinePtr ≤ x ∧ x < buf + SetupHeader.initrdAddrMax) ∨
    (buf + SetupHeader.cmdlineSize ≤ x ∧ x < buf + SetupHeader.cmdlineSize + 4)

theorem setupScreenInfo_of_not_mem (gop : Option GopMode) (image : Mem) {buf x : Nat}
    (h : x < buf ∨ buf + 0x40 ≤ x) : setupScreenInfo gop buf image x = image x := by
  have hstore : forall {size offset value : Nat} (m : Mem), buf ≤ offset ->
      offset + size ≤ buf + 0x40 -> store size offset value m x = m x :=
    fun m hlow hhigh => store_of_disjoint (by omega)
  unfold setupScreenInfo
  cases gop with
  | none => exact hstore image (Nat.le_refl buf) (Nat.le_refl _)
  | some mode =>
      dsimp only
      rw [hstore _ (by omega) (by omega), hstore _ (by omega) (by omega),
        hstore _ (by omega) (by omega), hstore _ (by omega) (by omega),
        hstore _ (by omega) (by omega), hstore _ (by omega) (by omega),
        hstore _ (by omega) (by omega)]

theorem le32_shift {mem others : Mem} {x y : Nat}
    (h : forall i, i < 4 -> others (y + i) = mem (x + i)) : le32 others y = le32 mem x := by
  have h0 := h 0 (by decide)
  have h1 := h 1 (by decide)
  have h2 := h 2 (by decide)
  have h3 := h 3 (by decide)
  unfold le32 le16
  rw [Nat.add_zero, Nat.add_zero] at h0
  rw [h0, h1, h2, h3]

namespace Handoff

variable (h : Handoff) (gop : Option GopMode) (image : Mem)

section Frames

variable {image} {x : Nat} (hx : ¬ Assigned (aospHeader image).pageSize x)

include hx

theorem lineImage_of_not_assigned : h.lineImage image x = image x := by
  unfold Assigned SetupHeader.cmdLinePtr SetupHeader.initrdAddrMax SetupHeader.cmdlineSize at hx
  unfold lineImage SetupHeader.cmdLinePtr SetupHeader.cmdlineSize
  split
  · rfl
  · rw [store_of_disjoint (by omega), store_of_disjoint (by omega)]

theorem sizedImage_of_not_assigned : h.sizedImage image x = image x := by
  rw [← h.lineImage_of_not_assigned hx]
  unfold Assigned SetupHeader.ramdiskImage SetupHeader.ramdiskSize at hx
  unfold sizedImage SetupHeader.ramdiskSize
  exact store_of_disjoint (by omega)

theorem finalImage_of_not_assigned : h.finalImage gop image x = image x := by
  rw [← h.sizedImage_of_not_assigned hx]
  unfold Assigned SetupHeader.ramdiskImage SetupHeader.ramdiskSize SetupHeader.typeOfLoader at hx
  unfold finalImage ramdiskImage SetupHeader.typeOfLoader SetupHeader.ramdiskImage
  rw [setupScreenInfo_of_not_mem gop _ (by omega), store_of_disjoint (by omega),
    store_of_disjoint (by omega)]

end Frames

theorem sameLayout_lineImage :
    SameLayout (aospHeader image).pageSize image (h.lineImage image) := by
  unfold lineImage
  dsimp only
  split
  · exact SameLayout.refl _ _
  · exact (sameLayout_store image h.lineBase (by decide) (by decide)).trans
      (sameLayout_store _ (h.line.length + 1) (by decide) (by decide))

theorem sameLayout_ramdiskImage :
    SameLayout (aospHeader image).pageSize image (h.ramdiskImage image) :=
  (h.sameLayout_lineImage image).trans
    ((sameLayout_store _ (aospHeader image).ramdiskSize (by decide) (by decide)).trans
      (sameLayout_store _ h.ramdisk (by decide) (by decide)))

theorem misplaced_finalImage (kernelStart : Nat) :
    Misplaced (aospHeader image).pageSize kernelStart (h.finalImage gop image) <->
      Misplaced (aospHeader image).pageSize kernelStart image := by
  have hkept : forall field, 0x23c ≤ field -> le32 (h.finalImage gop image)
      ((aospHeader image).pageSize + field) = le32 image ((aospHeader image).pageSize + field) := by
    intro field hfield
    apply le32_congr
    intro i _
    apply h.finalImage_of_not_assigned gop
    unfold Assigned SetupHeader.typeOfLoader SetupHeader.ramdiskImage SetupHeader.ramdiskSize
      SetupHeader.cmdLinePtr SetupHeader.initrdAddrMax SetupHeader.cmdlineSize
    omega
  have hbyte : byteAt (h.finalImage gop image)
      ((aospHeader image).pageSize + SetupHeader.relocatableKernel) =
      byteAt image ((aospHeader image).pageSize + SetupHeader.relocatableKernel) := by
    unfold byteAt
    rw [h.finalImage_of_not_assigned gop]
    unfold Assigned SetupHeader.typeOfLoader SetupHeader.ramdiskImage SetupHeader.ramdiskSize
      SetupHeader.cmdLinePtr SetupHeader.initrdAddrMax SetupHeader.cmdlineSize
      SetupHeader.relocatableKernel
    omega
  have hlow := hkept SetupHeader.prefAddress (by decide)
  have hhigh := hkept (SetupHeader.prefAddress + 4) (by decide)
  unfold Misplaced le64
  rw [hbyte, hlow, Nat.add_assoc, hhigh]

end Handoff

/-!
# What the setup header says
-/

namespace Handoff

variable (h : Handoff) (gop : Option GopMode) (image : Mem)

theorem le32_finalImage {field : Nat} (hfield : 0x211 ≤ field) :
    le32 (h.finalImage gop image) ((aospHeader image).pageSize + field) =
      le32 (h.ramdiskImage image) ((aospHeader image).pageSize + field) := by
  unfold finalImage
  dsimp only
  rw [le32_setupScreenInfo _ _ (by omega), le32_store_of_disjoint]
  unfold SetupHeader.typeOfLoader
  omega

theorem finalImage_ramdiskImage (hlow : h.ramdisk < 2 ^ 32) :
    le32 (h.finalImage gop image) ((aospHeader image).pageSize + SetupHeader.ramdiskImage) =
      h.ramdisk := by
  rw [h.le32_finalImage gop image (by decide)]
  exact le32_store hlow

theorem finalImage_ramdiskSize :
    le32 (h.finalImage gop image) ((aospHeader image).pageSize + SetupHeader.ramdiskSize) =
      (aospHeader image).ramdiskSize := by
  rw [h.le32_finalImage gop image (by decide)]
  unfold ramdiskImage
  rw [le32_store_of_disjoint]
  · exact le32_store (aospHeader image).ramdiskSize_lt
  · unfold SetupHeader.ramdiskSize SetupHeader.ramdiskImage
    omega

/-- Both fields of the line are above those of the ramdisk. -/
theorem finalImage_line {field : Nat} (hfield : 0x220 ≤ field) :
    le32 (h.finalImage gop image) ((aospHeader image).pageSize + field) =
      le32 (h.lineImage image) ((aospHeader image).pageSize + field) := by
  rw [h.le32_finalImage gop image (by omega)]
  unfold ramdiskImage sizedImage
  dsimp only
  rw [le32_store_of_disjoint, le32_store_of_disjoint]
  · unfold SetupHeader.ramdiskSize
    omega
  · unfold SetupHeader.ramdiskImage
    omega

section Line

variable {h} (hne : h.lineBase ≠ 0)
  (hlow : h.lineBase + 4096 * sizeToPages (h.line.length + 1) ≤ 0xA0000 + 1)

include hne hlow

theorem finalImage_cmdLinePtr :
    le32 (h.finalImage gop image) ((aospHeader image).pageSize + SetupHeader.cmdLinePtr) =
      h.lineBase := by
  rw [h.finalImage_line gop image (by decide)]
  unfold lineImage
  rw [if_neg hne, le32_store_of_disjoint]
  · exact le32_store (by omega)
  · unfold SetupHeader.cmdLinePtr SetupHeader.cmdlineSize
    omega

theorem finalImage_cmdlineSize :
    le32 (h.finalImage gop image) ((aospHeader image).pageSize + SetupHeader.cmdlineSize) =
      h.line.length + 1 := by
  have hle := le_sizeToPages (h.line.length + 1)
  rw [h.finalImage_line gop image (by decide)]
  unfold lineImage
  rw [if_neg hne]
  exact le32_store (by omega)

end Line

theorem le32_bootParams {field : Nat} (hlow : 0x218 ≤ field) (hhigh : field + 4 ≤ 1024)
    (source : Nat) :
    le32 (h.bootParams gop image source) field =
      le32 (h.finalImage gop image) (source + field) := by
  apply le32_shift
  intro i hi
  unfold bootParams SetupHeader.code32Start
  rw [store_of_disjoint (by omega), if_pos (by omega), Nat.add_assoc]

end Handoff

/-!
# The whole start
-/

/-- What a start has done for a hand-off when it jumps. -/
structure Handoff.Taken (h : Handoff) (env : LoadEnv) (image : Mem) (used : Finset Nat)
    (t : LoadState) : Prop where
  granted : Granted used (h.runs env.arch env.gop image)
  used : t.used = takeAll used (h.runs env.arch env.gop image)
  calls : t.calls = (h.runs env.arch env.gop image).map PageCall.allocate
  written : t.log.filter LoadEvent.writes = h.events env.arch image
  loaded : t.image = h.finalImage env.gop image
  line : h.lineBase ≠ 0 ->
    t.commandLine = some (h.lineBase, h.line) ∧
      h.lineBase + 4096 * sizeToPages (h.line.length + 1) ≤ 0xA0000 + 1
  ramdisk : h.ramdisk < 2 ^ 32
  wellPlaced : ¬ Misplaced (aospHeader image).pageSize h.kernelStart image
  params : h.bootAddr + 16384 ≤ 2 ^ 30
  lastMap : LastMap env t h.map

theorem sized_eq (h : Handoff) {image : Mem} {s : LoadState}
    (himage : s.image = h.lineImage image) : s.sized.image = h.sizedImage image := by
  unfold LoadState.sized Handoff.sizedImage
  dsimp only
  rw [himage, (h.sameLayout_lineImage image).header]

theorem screened_eq (h : Handoff) {env : LoadEnv} {image : Mem} {s : LoadState}
    (himage : s.image = h.ramdiskImage image) :
    (s.screened env).image = h.finalImage env.gop image := by
  unfold LoadState.screened Handoff.finalImage
  dsimp only
  rw [himage, (h.sameLayout_ramdiskImage image).header]

theorem startVerified_taken {env : LoadEnv} {append : Option (List UInt8)}
    {hooks : Option BootimgHooks} {buf kernelStart bootAddr : Nat} {s t : LoadState}
    (hcalls : s.calls = []) (hwritten : s.log.filter LoadEvent.writes = [])
    (hrun : startVerified env append hooks buf s = (LoadEnd.jumped kernelStart bootAddr, t)) :
    exists h : Handoff, h.kernelStart = kernelStart ∧ h.bootAddr = bootAddr ∧
      h.Taken env s.image s.used t := by
  have hstarting := startVerified_starting env append hooks buf s
  rw [hrun] at hstarting
  generalize hending : (LoadEnd.jumped kernelStart bootAddr, t) = ending at hstarting
  cases hstarting with
  | noLine => cases hending
  | noRamdisk =>
      have hfst := congrArg Prod.fst hending
      rw [outCmdline_fst] at hfst
      cases hfst
  | noKernel =>
      have hfst := congrArg Prod.fst hending
      rw [outCmdline_fst] at hfst
      cases hfst
  | @leaves ending u v w hline hramdisk hkernel =>
      cases hending
      rcases setupCommandLine_places hline with ⟨line, lineBase, hline⟩
      rcases setupRamdisk_places hramdisk with ⟨ramdisk, hplaced, hlow, himage, hcmd⟩
      rcases handoverKernel_jumped hkernel with
        ⟨x, map, tables, hmap, hpages, hscreened, hcmd', hparams⟩
      let h : Handoff := { line, lineBase, ramdisk, kernelStart, bootAddr, tables, map }
      have hlineImage : u.image = h.lineImage s.image := hline.image
      have hlayout := h.sameLayout_lineImage s.image
      have hramdiskImage : v.image = h.ramdiskImage s.image := by
        rw [himage, sized_eq h hlineImage, hlineImage, hlayout.header]
        rfl
      have hlayout' := h.sameLayout_ramdiskImage s.image
      have hfinal : (v.screened env).image = h.finalImage env.gop s.image :=
        screened_eq h hramdiskImage
      have hkernel := (hpages.trans hparams.places)
      rw [hlineImage, hlayout.header] at hplaced
      rw [hramdiskImage, hlayout'.header, hlayout'.setupSize, hlayout'.kernelCopySize,
        hlayout'.initSize] at hkernel
      have hall := (hline.places.trans hplaced).trans hkernel
      refine ⟨h, rfl, rfl, ?_, ?_, ?_, ?_, ?_, ?_, hlow, ?_, hparams.low, hmap⟩
      · exact hall.granted
      · exact hall.used
      · rw [hall.calls, hcalls]
        rfl
      · rw [hall.written, hwritten]
        exact List.append_assoc _ _ _
      · rw [hparams.image, hscreened, hfinal]
      · intro hne
        rcases hline.line hne with ⟨hcommand, hbelow⟩
        exact ⟨by rw [hparams.line, hcmd', hcmd, hcommand]; rfl, hbelow⟩
      · have hplace := hparams.wellPlaced
        rw [hscreened, hfinal, hramdiskImage, hlayout'.header] at hplace
        exact fun hmisplaced => hplace ((h.misplaced_finalImage env.gop s.image _).mpr hmisplaced)

theorem startBuffer_taken {env : LoadEnv} {append : Option (List UInt8)}
    {hooks : Option BootimgHooks} {s t : LoadState} {kernelStart bootAddr : Nat}
    (hcalls : s.calls = []) (hwritten : s.log.filter LoadEvent.writes = [])
    (hrun : startBuffer env append hooks s = (LoadEnd.jumped kernelStart bootAddr, t)) :
    exists h : Handoff, h.kernelStart = kernelStart ∧ h.bootAddr = bootAddr ∧
      h.Taken env s.image s.used t := by
  have hchecking := startBuffer_checking env append hooks s
  rw [hrun] at hchecking
  generalize hending : (LoadEnd.jumped kernelStart bootAddr, t) = ending at hchecking
  cases hchecking with
  | corrupt => cases hending
  | divided => cases hending
  | refused => cases hending
  | verified =>
      let u := s.emit (aospHeader s.image).signatureCheck
      have hcalls' : u.calls = [] := by
        rw [← hcalls]
        simp [u, LoadState.calls, LoadState.emit, LoadEvent.pageCall, BootImgHdr.signatureCheck]
      have hwritten' : u.log.filter LoadEvent.writes = [] := by
        rw [← hwritten]
        exact SameEvents.emit rfl
      have htaken := startVerified_taken hcalls' hwritten' hending.symm
      exact htaken

theorem startBuffer_line {env : LoadEnv} {append : Option (List UInt8)}
    {hooks : Option BootimgHooks} {s t : LoadState} {kernelStart bootAddr base : Nat}
    {line : List UInt8} (hnone : s.commandLine = none)
    (happend : forall extra, append = some extra -> 0 ∉ extra) (hends : EndsInHeader s.image)
    (hrun : startBuffer env append hooks s = (LoadEnd.jumped kernelStart bootAddr, t))
    (hline : t.commandLine = some (base, line)) : line = expectedLine append s.image := by
  have hchecking := startBuffer_checking env append hooks s
  rw [hrun] at hchecking
  generalize hending : (LoadEnd.jumped kernelStart bootAddr, t) = ending at hchecking
  cases hchecking with
  | corrupt => cases hending
  | divided => cases hending
  | refused => cases hending
  | verified =>
      let u := s.emit (aospHeader s.image).signatureCheck
      have hstarting := startVerified_starting env append hooks (aospHeader s.image).pageSize u
      rw [← hending] at hstarting
      generalize hjump : (LoadEnd.jumped kernelStart bootAddr, t) = ending at hstarting
      cases hstarting with
      | noLine => cases hjump
      | noRamdisk =>
          have hfst := congrArg Prod.fst hjump
          rw [outCmdline_fst] at hfst
          cases hfst
      | noKernel =>
          have hfst := congrArg Prod.fst hjump
          rw [outCmdline_fst] at hfst
          cases hfst
      | @leaves _ v w x hsetup hramdisk hkernel =>
          cases hjump
          rcases setupRamdisk_places hramdisk with ⟨_, _, _, _, hkept⟩
          rcases handoverKernel_jumped hkernel with ⟨_, _, _, _, _, _, hkept', hparams⟩
          rw [hparams.line, hkept', hkept] at hline
          have hstored := storesWholeLine_of_endsInHeader happend hends env u v base line rfl
            hnone hsetup hline
          exact hstored.whole

theorem startBuffer_of_startPartition {env : PartitionEnv} {append : Option (List UInt8)}
    {hooks : Option BootimgHooks} {used : Finset Nat} {t : LoadState}
    {kernelStart bootAddr : Nat}
    (hrun : startPartition env append hooks used = (LoadEnd.jumped kernelStart bootAddr, t)) :
    exists pool, env.imagePool = some pool ∧
      startBuffer env.load append hooks (env.loadedState pool used) =
        (LoadEnd.jumped kernelStart bootAddr, t) := by
  rcases startPartition_jumped hrun with ⟨pool, _, _, hpool, _⟩
  refine ⟨pool, hpool, ?_⟩
  unfold startPartition at hrun
  rw [hpool] at hrun
  dsimp only at hrun
  split_ifs at hrun
  · cases congrArg Prod.fst hrun
  · cases congrArg Prod.fst hrun
  · cases congrArg Prod.fst hrun
  · cases congrArg Prod.fst hrun
  · cases congrArg Prod.fst hrun
  · split at hrun
    · cases congrArg Prod.fst hrun
    · rename_i hstart
      rw [hstart, hrun]

end BootImage
end BootableUefi
