import BootableUefi.BootImage.Steps

/-!
# What each stage of a start does

Every function of the start is described once: the pages it takes, the parts of
the image it uses, and the fields of the setup header it leaves for the next.
-/

namespace BootableUefi
namespace BootImage

open Firmware Foundation

def LoadEvent.pageCall : LoadEvent -> Option PageCall
  | allocatePages run => some (PageCall.allocate run)
  | freePages run => some (PageCall.free run)
  | _ => none

def LoadState.calls (s : LoadState) : List PageCall :=
  s.log.filterMap LoadEvent.pageCall

def LoadEvent.usesImage : LoadEvent -> Bool
  | readImage _ => true
  | checkSignature _ _ _ => true
  | copy _ _ _ _ => true
  | _ => false

def LoadState.uses (s : LoadState) : List LoadEvent :=
  s.log.filter LoadEvent.usesImage

/-- From one state to the other, some pages were taken and some of the image was used. -/
structure After (s : LoadState) (taken : List PageRun) (uses : List LoadEvent)
    (t : LoadState) : Prop where
  granted : Granted s.used taken
  used : t.used = takeAll s.used taken
  calls : t.calls = s.calls ++ taken.map PageCall.allocate
  uses : t.uses = s.uses ++ uses

section After

variable {s t u : LoadState}

theorem SameMemory.after (h : SameMemory s t) : After s [] [] t where
  granted := trivial
  used := h.used
  calls := by simp [LoadState.calls, h.log]
  uses := by simp [LoadState.uses, h.log]

theorem HandsOut.after {run : PageRun} (h : HandsOut s run t) : After s [run] [] t where
  granted := ⟨h.free, trivial⟩
  used := h.used
  calls := by simp [LoadState.calls, h.log, LoadEvent.pageCall]
  uses := by simp [LoadState.uses, h.log, LoadEvent.usesImage]

theorem After.of_eq (hused : t.used = s.used) (hlog : t.log = s.log) : After s [] [] t where
  granted := trivial
  used := hused
  calls := by simp [LoadState.calls, hlog]
  uses := by simp [LoadState.uses, hlog]

theorem After.trans {taken rest : List PageRun} {first next : List LoadEvent}
    (hst : After s taken first t) (htu : After t rest next u) :
    After s (taken ++ rest) (first ++ next) u where
  granted := by
    have hrest := htu.granted
    rw [hst.used] at hrest
    exact granted_append.mpr ⟨hst.granted, hrest⟩
  used := by
    rw [htu.used, hst.used]
    simp [takeAll]
  calls := by simp [htu.calls, hst.calls]
  uses := by simp [htu.uses, hst.uses]

theorem After.use {event : LoadEvent} (h : event.usesImage = true)
    (hcall : event.pageCall = none) : After s [] [event] (s.emit event) where
  granted := trivial
  used := rfl
  calls := by simp [LoadState.calls, LoadState.emit, hcall]
  uses := by simp [LoadState.uses, LoadState.emit, h]

theorem After.quiet {event : LoadEvent} (h : event.usesImage = false)
    (hcall : event.pageCall = none) : After s [] [] (s.emit event) where
  granted := trivial
  used := rfl
  calls := by simp [LoadState.calls, LoadState.emit, hcall]
  uses := by simp [LoadState.uses, LoadState.emit, h]

theorem After.quietIf {event : LoadEvent} (cond : Bool) (h : event.usesImage = false)
    (hcall : event.pageCall = none) : After s [] [] (s.emitIf cond event) := by
  cases cond with
  | false => exact After.of_eq rfl rfl
  | true => exact After.quiet h hcall

end After

/-!
# Events of one kind
-/

def SameEvents (kind : LoadEvent -> Bool) (s t : LoadState) : Prop :=
  t.log.filter kind = s.log.filter kind

section SameEvents

variable {kind : LoadEvent -> Bool} {s t u : LoadState}

theorem SameEvents.of_log (h : t.log = s.log) : SameEvents kind s t := by
  unfold SameEvents
  rw [h]

theorem SameEvents.trans (hst : SameEvents kind s t) (htu : SameEvents kind t u) :
    SameEvents kind s u :=
  Eq.trans htu hst

theorem filter_log_emit (kind : LoadEvent -> Bool) (event : LoadEvent) (s : LoadState) :
    (s.emit event).log.filter kind = s.log.filter kind ++ [event].filter kind :=
  List.filter_append _ _

theorem SameEvents.emit {event : LoadEvent} (h : kind event = false) :
    SameEvents kind s (s.emit event) := by
  simp [SameEvents, filter_log_emit, h]

theorem SameEvents.emitIf {event : LoadEvent} (cond : Bool) (h : kind event = false) :
    SameEvents kind s (s.emitIf cond event) := by
  cases cond with
  | false => exact SameEvents.of_log rfl
  | true => exact SameEvents.emit h

theorem SameMemory.sameEvents (h : SameMemory s t) : SameEvents kind s t :=
  SameEvents.of_log h.log

theorem HandsOut.sameEvents {run : PageRun} (h : HandsOut s run t)
    (hkind : kind (LoadEvent.allocatePages run) = false) : SameEvents kind s t := by
  simp [SameEvents, h.log, hkind]

theorem freePages_sameEvents {memory count : Nat}
    (hkind : kind (LoadEvent.freePages { base := memory, count := count }) = false)
    (s : LoadState) : SameEvents kind s (freePages memory count s) :=
  (SameEvents.emit hkind).trans (SameEvents.of_log rfl)

theorem allocatePages_sameEvents (env : LoadEnv) (type : AllocateType) (count memory : Nat)
    (s : LoadState) (hkind : forall run, kind (LoadEvent.allocatePages run) = false) :
    SameEvents kind s (allocatePages env type count memory s).2.2 := by
  rcases allocatePages_cases env type count memory s with
    ⟨status, t, heq, -, hsame⟩ | ⟨base, t, heq, hgrant, -⟩
  · rw [heq]
    exact hsame.sameEvents
  · rw [heq]
    exact hgrant.sameEvents (hkind _)

theorem emalloc_sameEvents (env : LoadEnv) (size align : Nat) (s : LoadState)
    (hkind : forall run, kind (LoadEvent.allocatePages run) = false) :
    SameEvents kind s (emalloc env size align s).2 := by
  rcases emalloc_cases env size align s with
    ⟨status, t, heq, -, hsame⟩ | ⟨base, t, heq, hgrant, -⟩
  · rw [heq]
    exact hsame.sameEvents
  · rw [heq]
    exact hgrant.sameEvents (hkind _)

end SameEvents

/-!
# The fields a stage leaves alone
-/

/-- The header of the image and the fields of its setup header that fix the layout. -/
structure SameLayout (buf : Nat) (image image' : Mem) : Prop where
  header : aospHeader image' = aospHeader image
  setupSize : setupSize image' buf = setupSize image buf
  initSize : le32 image' (buf + SetupHeader.initSize) = le32 image (buf + SetupHeader.initSize)

theorem SameLayout.refl (buf : Nat) (image : Mem) : SameLayout buf image image where
  header := rfl
  setupSize := rfl
  initSize := rfl

theorem SameLayout.trans {buf : Nat} {a b c : Mem} (hab : SameLayout buf a b)
    (hbc : SameLayout buf b c) : SameLayout buf a c where
  header := hbc.header.trans hab.header
  setupSize := hbc.setupSize.trans hab.setupSize
  initSize := hbc.initSize.trans hab.initSize

theorem SameLayout.kernelCopySize {buf : Nat} {image image' : Mem}
    (h : SameLayout buf image image') :
    kernelCopySize image' buf = kernelCopySize image buf := by
  unfold BootImage.kernelCopySize
  rw [h.header, h.setupSize]

theorem aospHeader_store {image : Mem} {size offset value : Nat} (h : 44 ≤ offset) :
    aospHeader (store size offset value image) = aospHeader image := by
  have hfield : forall x, x + 4 ≤ 44 -> le32 (store size offset value image) x = le32 image x :=
    fun x hx => le32_store_of_disjoint (Or.inl (by omega))
  unfold aospHeader
  simp only [hfield 8 (by decide), hfield 16 (by decide), hfield 24 (by decide),
    hfield 36 (by decide), hfield 40 (by decide)]

theorem sameLayout_store (image : Mem) {buf size field : Nat} (value : Nat)
    (hlow : 0x210 ≤ field) (hhigh : field + size ≤ 0x260) :
    SameLayout buf image (store size (buf + field) value image) where
  header := aospHeader_store (by omega)
  setupSize := by
    unfold BootImage.setupSize byteAt
    rw [store_of_disjoint]
    unfold SetupHeader.setupSects
    omega
  initSize := by
    apply le32_store_of_disjoint
    unfold SetupHeader.initSize
    omega

/-!
# The command line
-/

theorem cString_eq_nil_iff {bytes : List UInt8} :
    cString bytes = [] <-> bytes = [] ∨ bytes.head? = some 0 := by
  cases bytes with
  | nil => simp [cString]
  | cons b bs => by_cases h : b = 0 <;> simp [cString, h]

theorem head?_bytesAt (mem : Mem) (offset : Nat) {size : Nat} (h : 0 < size) :
    (bytesAt mem offset size).head? = some (mem offset) := by
  cases size with
  | zero => cases h
  | succ n => simp [bytesAt, List.range_succ_eq_map]

theorem fullCommandLine_head (image : Mem) (block : List UInt8) :
    (fullCommandLine image block).head? = some (image cmdlineOffset) := by
  have hfirst : (bytesAt image cmdlineOffset (bootArgsSize - 1)).head? =
      some (image cmdlineOffset) := head?_bytesAt image cmdlineOffset (by decide)
  unfold fullCommandLine
  dsimp only
  split
  · simp [hfirst]
  · simp [hfirst]

theorem cString_fullCommandLine_eq_nil_iff (image : Mem) (block : List UInt8) :
    cString (fullCommandLine image block) = [] <-> image cmdlineOffset = 0 := by
  rw [cString_eq_nil_iff, fullCommandLine_head]
  constructor
  · intro hcase
    rcases hcase with h | h
    · have hhead := fullCommandLine_head image block
      rw [h] at hhead
      cases hhead
    · exact Option.some.inj h
  · intro h
    rw [h]
    exact Or.inr rfl

theorem cString_space_ne_nil {full mem : List UInt8} (rest : List UInt8)
    (hhead : cString full ≠ [] -> mem.head? = full.head?) :
    cString (bytesAt (memOf mem) 0 (cString full).length ++ 0x20 :: rest) ≠ [] := by
  intro hempty
  rcases cString_eq_nil_iff.mp hempty with hnil | hzero
  · simp at hnil
  · cases hline : cString full with
    | nil => simp [hline, bytesAt] at hzero
    | cons b bs =>
        have hne : cString full ≠ [] := by simp [hline]
        have hfull : full.head? ≠ some 0 := fun h => hne (cString_eq_nil_iff.mpr (Or.inr h))
        have hnonempty : full ≠ [] := fun h => hne (cString_eq_nil_iff.mpr (Or.inl h))
        rw [hline, List.head?_append, head?_bytesAt _ _ (by simp)] at hzero
        apply hfull
        rw [← hhead hne]
        cases mem with
        | nil =>
            have hnone := hhead hne
            cases full with
            | nil => exact absurd rfl hnonempty
            | cons c cs => cases hnone
        | cons c cs => simpa [memOf] using hzero

/-- The command line has its pages; it is where `cmd_line_ptr` says unless that is page 0. -/
structure LinePlaced (env : LoadEnv) (s : LoadState) (base : Nat) (line : List UInt8)
    (t : LoadState) : Prop where
  after : After s [{ base := base, count := sizeToPages (line.length + 1) }] [] t
  base_eq : base = (env.pageAnswer s.pageCalls).base
  layout : SameLayout (aospHeader s.image).pageSize s.image t.image
  pointer : base ≠ 0 ->
    le32 t.image ((aospHeader s.image).pageSize + SetupHeader.cmdLinePtr) = base ∧
      t.commandLine = some (base, line)

theorem placeCommandLine_cases (env : LoadEnv) (block : PoolBlock) (line : List UInt8)
    (s : LoadState) :
    (exists status t, placeCommandLine env block line s =
        (some (LoadStep.commandLinePages, status), t) ∧ After s [] [] t) ∨
    (exists base t, placeCommandLine env block line s = (none, t) ∧
      LinePlaced env s base line t) := by
  have hquiet : forall {u : LoadState} {event : LoadEvent}, event.usesImage = false ->
      event.pageCall = none -> After u [] [] (u.emit event) := fun h h' => After.quiet h h'
  have hplacing := placeCommandLine_placing env block line s
  generalize placeCommandLine env block line s = result at hplacing ⊢
  cases hplacing with
  | refused hsame => exact Or.inl ⟨_, _, rfl, hsame.after.trans (hquiet rfl rfl)⟩
  | @pageZero t hgrant hbase =>
      refine Or.inr ⟨0, _, rfl, hgrant.after.trans (hquiet rfl rfl), hbase, ?_,
        fun h => absurd rfl h⟩
      show SameLayout _ s.image t.image
      rw [hgrant.image]
      exact SameLayout.refl _ _
  | @stored base t hne hgrant hlow hbase =>
      refine Or.inr ⟨base, _, rfl, ?_, hbase, ?_, fun _ => ⟨?_, rfl⟩⟩
      · exact (hgrant.after.trans ((hquiet rfl rfl).trans (hquiet rfl rfl))).trans
          (After.of_eq rfl rfl)
      · show SameLayout _ s.image (store 4 _ _ (store 4 _ _ t.image))
        rw [hgrant.image]
        exact (sameLayout_store s.image base (by decide) (by decide)).trans
          (sameLayout_store _ (line.length + 1) (by decide) (by decide))
      · show le32 (store 4 _ _ (store 4 _ _ t.image)) _ = base
        rw [le32_store_of_disjoint (Or.inl (by simp [SetupHeader.cmdLinePtr,
          SetupHeader.cmdlineSize, Nat.add_assoc]))]
        exact le32_store (by omega)

theorem LinePlaced.of_quiet {env : LoadEnv} {s s' t : LoadState} {base : Nat}
    {line : List UInt8} (h : LinePlaced env s' base line t) (hquiet : After s [] [] s')
    (himage : s'.image = s.image) (hcalls : s'.pageCalls = s.pageCalls) :
    LinePlaced env s base line t where
  after := hquiet.trans h.after
  base_eq := hcalls ▸ h.base_eq
  layout := himage ▸ h.layout
  pointer := himage ▸ h.pointer

/-- `setup_command_line` fails before it has any pages, or places a line. -/
inductive CommandLineOutcome (env : LoadEnv) (append : Option (List UInt8)) (s : LoadState) :
    Option (LoadStep × EfiStatus) × LoadState -> Prop where
  | failed {step : LoadStep} {status : EfiStatus} {t : LoadState}
      (hstep : step = LoadStep.commandLinePool ∨ step = LoadStep.commandLineGrowth ∨
        step = LoadStep.commandLinePages)
      (hafter : After s [] [] t) : CommandLineOutcome env append s (some (step, status), t)
  | placed {base : Nat} {line : List UInt8} {t : LoadState}
      (hplaced : LinePlaced env s base line t)
      (hline : line = [] <-> append = none ∧ s.image cmdlineOffset = 0) :
      CommandLineOutcome env append s (none, t)

theorem placeCommandLine_outcome {env : LoadEnv} {append : Option (List UInt8)}
    {s s' : LoadState} (block : PoolBlock) {line : List UInt8} (hquiet : After s [] [] s')
    (himage : s'.image = s.image) (hcalls : s'.pageCalls = s.pageCalls)
    (hline : line = [] <-> append = none ∧ s.image cmdlineOffset = 0) :
    CommandLineOutcome env append s (placeCommandLine env block line s') := by
  rcases placeCommandLine_cases env block line s' with
    ⟨status, t, hrun, hafter⟩ | ⟨base, t, hrun, hplaced⟩
  · rw [hrun]
    exact CommandLineOutcome.failed (Or.inr (Or.inr rfl)) (hquiet.trans hafter)
  · rw [hrun]
    exact CommandLineOutcome.placed (hplaced.of_quiet hquiet himage hcalls) hline

theorem setupCommandLine_outcome (env : LoadEnv) (append : Option (List UInt8))
    (s : LoadState) : CommandLineOutcome env append s (setupCommandLine env append s) := by
  unfold setupCommandLine
  dsimp only
  split
  · exact CommandLineOutcome.failed (Or.inl rfl) (After.of_eq rfl rfl)
  · rename_i block _
    have hsome : forall {extra line : List UInt8}, line ≠ [] ->
        (line = [] <-> some extra = none ∧ s.image cmdlineOffset = 0) := by
      intro extra line hne
      constructor
      · exact fun h => absurd h hne
      · intro hcase
        rcases hcase with ⟨h, -⟩
        cases h
    split
    · apply placeCommandLine_outcome _ (After.of_eq rfl rfl) rfl rfl
      rw [cString_fullCommandLine_eq_nil_iff]
      simp
    · split
      · apply placeCommandLine_outcome _ (After.quiet rfl rfl) rfl rfl
        apply hsome
        unfold appended
        rw [List.append_assoc, List.cons_append]
        exact cString_space_ne_nil _ fun _ => rfl
      · split
        · exact CommandLineOutcome.failed (Or.inr (Or.inl rfl)) (After.quiet rfl rfl)
        · apply placeCommandLine_outcome _ ((After.quiet rfl rfl).trans (After.quiet rfl rfl))
            rfl rfl
          apply hsome
          rw [List.append_assoc, List.cons_append]
          apply cString_space_ne_nil
          intro hne
          cases hfull : fullCommandLine s.image block with
          | nil =>
              rw [hfull] at hne
              exact absurd rfl hne
          | cons b bs => rfl

/-!
# The ramdisk
-/

/-- `setup_ramdisk` finds no pages, gives them back as too high, or fills them. -/
inductive RamdiskOutcome (env : LoadEnv) (s : LoadState) (buf rsize : Nat) (sized : Mem) :
    Option (LoadStep × EfiStatus) × LoadState -> Prop where
  | noPages {status : EfiStatus} {t : LoadState} (hafter : After s [] [] t)
      (himage : t.image = sized) (hline : t.commandLine = s.commandLine) :
      RamdiskOutcome env s buf rsize sized (some (LoadStep.ramdiskPages, status), t)
  | tooHigh {base : Nat} {t : LoadState}
      (hafter : After s [{ base := base, count := sizeToPages rsize }] [] t)
      (himage : t.image = sized) (hline : t.commandLine = s.commandLine) :
      RamdiskOutcome env s buf rsize sized
        (some (LoadStep.ramdiskPlacement, EfiStatus.outOfResources), efree base rsize t)
  | placed {base : Nat} {t : LoadState}
      (hafter : After s [{ base := base, count := sizeToPages rsize }]
        [LoadEvent.copy ImagePart.ramdisk (aospHeader s.image).ramdiskOffset rsize base] t)
      (hbase : base < 2 ^ 32)
      (himage : t.image = store 4 (buf + SetupHeader.ramdiskImage) base sized)
      (hline : t.commandLine = s.commandLine) :
      RamdiskOutcome env s buf rsize sized (none, t)

theorem setupRamdisk_outcome (env : LoadEnv) (s : LoadState) :
    RamdiskOutcome env s (aospHeader s.image).pageSize (aospHeader s.image).ramdiskSize
      (store 4 ((aospHeader s.image).pageSize + SetupHeader.ramdiskSize)
        (aospHeader s.image).ramdiskSize s.image) (setupRamdisk env s) := by
  have hstart : After s [] [] s.sized := After.of_eq rfl rfl
  have hsetup := setupRamdisk_setup env s
  generalize setupRamdisk env s = result at hsetup ⊢
  cases hsetup with
  | noPages hsame =>
      exact RamdiskOutcome.noPages (hstart.trans hsame.after) hsame.image hsame.commandLine
  | tooHigh hgrant =>
      exact RamdiskOutcome.tooHigh (hstart.trans hgrant.after) hgrant.image hgrant.commandLine
  | @placed base t hgrant hlow =>
      refine RamdiskOutcome.placed ?_ hlow ?_ hgrant.commandLine
      · exact (hstart.trans hgrant.after).trans
          ((After.use rfl rfl).trans (After.of_eq rfl rfl))
      · show store 4 _ base t.image = _
        rw [hgrant.image]
        rfl

/-- What `setup_ramdisk` leaves of the image, once the size is in the setup header. -/
structure RamdiskFields (buf size : Nat) (image image' : Mem) : Prop where
  layout : SameLayout buf image image'
  cmdLinePtr : le32 image' (buf + SetupHeader.cmdLinePtr) =
    le32 image (buf + SetupHeader.cmdLinePtr)
  ramdiskSize : le32 image' (buf + SetupHeader.ramdiskSize) = size

theorem ramdiskFields_size (image : Mem) (buf : Nat) {size : Nat} (hsize : size < 2 ^ 32) :
    RamdiskFields buf size image (store 4 (buf + SetupHeader.ramdiskSize) size image) where
  layout := sameLayout_store image size (by decide) (by decide)
  cmdLinePtr := by
    apply le32_store_of_disjoint
    unfold SetupHeader.cmdLinePtr SetupHeader.ramdiskSize
    omega
  ramdiskSize := le32_store hsize

theorem RamdiskFields.store_address {buf size : Nat} {image sized : Mem}
    (h : RamdiskFields buf size image sized) (address : Nat) :
    RamdiskFields buf size image
      (store 4 (buf + SetupHeader.ramdiskImage) address sized) where
  layout := h.layout.trans (sameLayout_store sized address (by decide) (by decide))
  cmdLinePtr := by
    rw [← h.cmdLinePtr]
    apply le32_store_of_disjoint
    unfold SetupHeader.cmdLinePtr SetupHeader.ramdiskImage
    omega
  ramdiskSize := by
    rw [← h.ramdiskSize]
    apply le32_store_of_disjoint
    unfold SetupHeader.ramdiskSize SetupHeader.ramdiskImage
    omega

/-!
# The kernel
-/

/-- The steps that can fail once the kernel has its pages, by the pages taken since. -/
def LateStep (step : LoadStep) (rest : List PageRun) : Prop :=
  (rest = [] ∧ (step = LoadStep.notRelocatable ∨ step = LoadStep.bootParams)) ∨
    (rest ≠ [] ∧ (step = LoadStep.descriptorTables ∨ step = LoadStep.memoryMap ∨
      step = LoadStep.exitBootServices))

/-- The assignments of `handover_kernel` are below the fields the other functions use. -/
structure KernelFrame (buf : Nat) (s t : LoadState) : Prop where
  fields : forall field, 0x211 ≤ field ->
    le32 t.image (buf + field) = le32 s.image (buf + field)
  commandLine : t.commandLine = s.commandLine

/-- `handover_kernel` gives up without pages, gives up with pages, or jumps. -/
inductive KernelOutcome (s : LoadState) (buf source ksize initSize : Nat) :
    LoadEnd × LoadState -> Prop where
  | noPages {status : EfiStatus} {t : LoadState} (hafter : After s [] [] t)
      (hframe : KernelFrame buf s t) :
      KernelOutcome s buf source ksize initSize
        (LoadEnd.failed LoadStep.kernelPages status, t)
  | abandoned {step : LoadStep} {status : EfiStatus} {base : Nat} {rest : List PageRun}
      {uses : List LoadEvent} {t : LoadState}
      (hafter : After s ({ base := base, count := sizeToPages initSize } :: rest) uses t)
      (hstep : LateStep step rest) (hframe : KernelFrame buf s t) :
      KernelOutcome s buf source ksize initSize
        (LoadEnd.failed step status, efree base ksize t)
  | jumped {base destination bootAddr : Nat} {taken : List PageRun} {t : LoadState}
      (hafter : After s taken [LoadEvent.copy ImagePart.kernel source ksize destination] t) :
      KernelOutcome s buf source ksize initSize (LoadEnd.jumped base bootAddr, t)

theorem le32_setupScreenInfo (gop : Option GopMode) (image : Mem) {buf x : Nat}
    (h : buf + 0x40 ≤ x) : le32 (setupScreenInfo gop buf image) x = le32 image x := by
  have hstore : forall {size offset value : Nat} (m : Mem), offset + size ≤ buf + 0x40 ->
      le32 (store size offset value m) x = le32 m x :=
    fun m hfield => le32_store_of_disjoint (Or.inr (by omega))
  unfold setupScreenInfo
  cases gop with
  | none => exact hstore image (by omega)
  | some mode =>
      dsimp only
      rw [hstore _ (by omega), hstore _ (by omega), hstore _ (by omega), hstore _ (by omega),
        hstore _ (by omega), hstore _ (by omega), hstore _ (by omega)]

section Kernel

variable {s t : LoadState} {buf source ksize initSize base destination : Nat}
  {rest : List PageRun}

theorem KernelFrame.of_eq {u : LoadState} (h : KernelFrame buf s t) (himage : u.image = t.image)
    (hline : u.commandLine = t.commandLine) : KernelFrame buf s u where
  fields := by
    intro field hfield
    rw [himage]
    exact h.fields field hfield
  commandLine := hline.trans h.commandLine

theorem hooked_after (watchdogEn : Bool) (hooks : Option BootimgHooks) (s : LoadState) :
    After s [] [] (s.hooked watchdogEn hooks) :=
  ((After.quietIf _ rfl rfl).trans (After.quietIf _ rfl rfl)).trans (After.of_eq rfl rfl)

theorem leaveFirmware_outcome (env : LoadEnv) (watchdogEn : Bool) (hooks : Option BootimgHooks)
    (bootAddr : Nat) (hframe : KernelFrame buf s t) (hrest : rest ≠ [])
    (hafter : After s ({ base := base, count := sizeToPages initSize } :: rest)
      [LoadEvent.copy ImagePart.kernel source ksize destination] t) :
    KernelOutcome s buf source ksize initSize
      (leaveFirmware env watchdogEn hooks base ksize bootAddr t) := by
  have hlate := hafter.trans (hooked_after watchdogEn hooks t)
  rw [List.append_nil, List.append_nil] at hlate
  have hleaving := leaveFirmware_leaving env watchdogEn hooks base ksize bootAddr t
  generalize leaveFirmware env watchdogEn hooks base ksize bootAddr t = result at hleaving ⊢
  cases hleaving with
  | abandoned hstep =>
      exact KernelOutcome.abandoned hlate (Or.inr ⟨hrest, Or.inr hstep⟩)
        (hframe.of_eq (t.hooked_image watchdogEn hooks) (t.hooked_commandLine watchdogEn hooks))
  | jumped =>
      have hjump := hlate.trans (After.quietIf (hooks.any fun h => h.beforeJump)
        (by rfl : LoadEvent.beforeJump.usesImage = false) rfl)
      exact KernelOutcome.jumped hjump

theorem loadKernel_outcome (env : LoadEnv) (watchdogEn : Bool) (hooks : Option BootimgHooks)
    (hframe : KernelFrame buf s t)
    (hafter : After s [{ base := base, count := sizeToPages initSize }] [] t) :
    KernelOutcome s buf source ksize initSize
      (loadKernel env watchdogEn hooks buf source ksize base t) := by
  have hcopy := hafter.trans (After.use (by rfl :
    (LoadEvent.copy ImagePart.kernel source ksize (env.arch.uintn base)).usesImage = true) rfl)
  have hcopied : KernelFrame buf s (t.copied env source ksize base) := hframe.of_eq rfl rfl
  have hfill : forall (u : LoadState) (bootAddr : Nat),
      After u [] [] (u.emit (LoadEvent.bootParams buf bootAddr)) :=
    fun u bootAddr => After.quiet rfl rfl
  have hloading := loadKernel_loading env watchdogEn hooks buf source ksize base t
  generalize loadKernel env watchdogEn hooks buf source ksize base t = result at hloading ⊢
  cases hloading with
  | misplaced hplace =>
      exact KernelOutcome.abandoned hafter (Or.inl ⟨rfl, Or.inl rfl⟩) hframe
  | noParams hplace hparams hsame =>
      exact KernelOutcome.abandoned (hcopy.trans hsame.after) (Or.inl ⟨rfl, Or.inr rfl⟩)
        (hcopied.of_eq hsame.image hsame.commandLine)
  | noTables hplace hparams hgrant htables hsame =>
      exact KernelOutcome.abandoned
        ((hcopy.trans (hgrant.after.trans (hfill _ _))).trans hsame.after)
        (Or.inr ⟨by simp, Or.inl rfl⟩)
        (hcopied.of_eq (hsame.image.trans hgrant.image)
          (hsame.commandLine.trans hgrant.commandLine))
  | leaves hplace hparams hgrant htables hgdt =>
      exact leaveFirmware_outcome env watchdogEn hooks _
        (hcopied.of_eq (hgdt.image.trans hgrant.image)
          (hgdt.commandLine.trans hgrant.commandLine))
        (by simp) ((hcopy.trans (hgrant.after.trans (hfill _ _))).trans hgdt.after)

end Kernel

theorem screened_frame (env : LoadEnv) (s : LoadState) :
    KernelFrame (aospHeader s.image).pageSize s (s.screened env) where
  fields := by
    intro field hfield
    unfold LoadState.screened
    dsimp only
    rw [le32_setupScreenInfo _ _ (by omega), le32_store_of_disjoint]
    unfold SetupHeader.typeOfLoader
    omega
  commandLine := rfl

theorem handoverKernel_outcome (env : LoadEnv) (watchdogEn : Bool)
    (hooks : Option BootimgHooks) (s : LoadState) :
    KernelOutcome s (aospHeader s.image).pageSize
      ((aospHeader s.image).pageSize + setupSize s.image (aospHeader s.image).pageSize)
      (kernelCopySize s.image (aospHeader s.image).pageSize)
      (le32 s.image ((aospHeader s.image).pageSize + SetupHeader.initSize))
      (handoverKernel env watchdogEn hooks s) := by
  have hstart : After s [] [] (s.screened env) := After.of_eq rfl rfl
  have hframe := screened_frame env s
  have hhandover := handoverKernel_handover env watchdogEn hooks s
  generalize handoverKernel env watchdogEn hooks s = result at hhandover ⊢
  cases hhandover with
  | noPages hpages hsame =>
      exact KernelOutcome.noPages (hstart.trans hsame.after)
        (hframe.of_eq hsame.image hsame.commandLine)
  | loads hpages hgrant =>
      exact loadKernel_outcome env watchdogEn hooks
        (hframe.of_eq hgrant.image hgrant.commandLine) (hstart.trans hgrant.after)

/-!
# The whole start
-/

/-- The pages taken and given back since a state in which there were none. -/
structure Accounts (used : Finset Nat) (held freed : List PageRun) (t : LoadState) : Prop where
  granted : Granted used held
  used : t.used = freeAll (takeAll used held) freed
  calls : t.calls = held.map PageCall.allocate ++ freed.map PageCall.free

theorem After.accounts {s t : LoadState} {held : List PageRun} {uses : List LoadEvent}
    (h : After s held uses t) (hcalls : s.calls = []) : Accounts s.used held [] t where
  granted := h.granted
  used := h.used
  calls := by simp [h.calls, hcalls]

theorem Accounts.freePages {used : Finset Nat} {held freed : List PageRun} {t : LoadState}
    (h : Accounts used held freed t) (memory count : Nat) :
    Accounts used held (freed ++ [{ base := memory, count := count }])
      (freePages memory count t) where
  granted := h.granted
  used := by
    rw [freeAll_snoc, ← h.used]
    rfl
  calls := by
    have hcalls : (BootImage.freePages memory count t).calls =
        t.calls ++ [PageCall.free { base := memory, count := count }] := by
      simp [LoadState.calls, BootImage.freePages, LoadState.emit, LoadEvent.pageCall]
    rw [hcalls, h.calls, List.map_append, ← List.append_assoc]
    rfl

/-- What is held beside the command line, and freed before it, when a start fails. -/
inductive GivesUp (rsize ksize initSize : Nat) :
    LoadStep -> List PageRun -> List PageRun -> Prop where
  | noRamdisk : GivesUp rsize ksize initSize LoadStep.ramdiskPages [] []
  | ramdiskTooHigh (ramdisk : Nat) :
      GivesUp rsize ksize initSize LoadStep.ramdiskPlacement
        [{ base := ramdisk, count := sizeToPages rsize }]
        [{ base := ramdisk, count := sizeToPages rsize }]
  | noKernel (ramdisk : Nat) :
      GivesUp rsize ksize initSize LoadStep.kernelPages
        [{ base := ramdisk, count := sizeToPages rsize }]
        [{ base := ramdisk, count := sizeToPages rsize }]
  | kernel {step : LoadStep} {rest : List PageRun} (ramdisk kernel : Nat)
      (hstep : LateStep step rest) :
      GivesUp rsize ksize initSize step
        ({ base := ramdisk, count := sizeToPages rsize } ::
          { base := kernel, count := sizeToPages initSize } :: rest)
        [{ base := kernel, count := sizeToPages ksize },
          { base := ramdisk, count := sizeToPages rsize }]

/--
A verified start fails before the command line has pages, gives up with the
pages it holds, or jumps.
-/
inductive StartOutcome (env : LoadEnv) (append : Option (List UInt8)) (s : LoadState)
    (hdr : BootImgHdr) (buf ksize source initSize : Nat) : LoadEnd × LoadState -> Prop where
  | noLine {step : LoadStep} {status : EfiStatus} {t : LoadState}
      (hstep : step = LoadStep.commandLinePool ∨ step = LoadStep.commandLineGrowth ∨
        step = LoadStep.commandLinePages)
      (hafter : After s [] [] t) :
      StartOutcome env append s hdr buf ksize source initSize
        (outBootimage (LoadEnd.failed step status) t)
  | gaveUp {step : LoadStep} {status : EfiStatus} {base : Nat} {line : List UInt8}
      {held freed : List PageRun} {t : LoadState}
      (hshape : GivesUp hdr.ramdiskSize ksize initSize step held freed)
      (hbase : base = (env.pageAnswer s.pageCalls).base)
      (hline : line = [] <-> append = none ∧ s.image cmdlineOffset = 0)
      (haccounts : Accounts s.used
        ({ base := base, count := sizeToPages (line.length + 1) } :: held) freed t)
      (hpointer : base ≠ 0 -> le32 t.image (buf + SetupHeader.cmdLinePtr) = base ∧
        t.commandLine = some (base, line)) :
      StartOutcome env append s hdr buf ksize source initSize
        (outCmdline env buf (LoadEnd.failed step status) t)
  | jumped {ramdisk destination kernelStart bootAddr : Nat} {taken : List PageRun}
      {t : LoadState}
      (hafter : After s taken
        [LoadEvent.copy ImagePart.ramdisk hdr.ramdiskOffset hdr.ramdiskSize ramdisk,
          LoadEvent.copy ImagePart.kernel source ksize destination] t) :
      StartOutcome env append s hdr buf ksize source initSize
        (LoadEnd.jumped kernelStart bootAddr, t)

theorem startVerified_outcome (env : LoadEnv) (append : Option (List UInt8))
    (hooks : Option BootimgHooks) {s : LoadState} {buf : Nat} (hcalls : s.calls = [])
    (hbuf : (aospHeader s.image).pageSize = buf) :
    StartOutcome env append s (aospHeader s.image) buf (kernelCopySize s.image buf)
      (buf + setupSize s.image buf) (le32 s.image (buf + SetupHeader.initSize))
      (startVerified env append hooks buf s) := by
  unfold startVerified
  have hfirst := setupCommandLine_outcome env append s
  generalize setupCommandLine env append s = result at hfirst ⊢
  cases hfirst with
  | failed hstep hafter => exact StartOutcome.noLine hstep hafter
  | @placed base line t hplaced hline =>
      have hpointer_of : forall {v : LoadState},
          le32 v.image (buf + SetupHeader.cmdLinePtr) =
            le32 t.image (buf + SetupHeader.cmdLinePtr) ->
          v.commandLine = t.commandLine -> base ≠ 0 ->
          le32 v.image (buf + SetupHeader.cmdLinePtr) = base ∧
            v.commandLine = some (base, line) := by
        intro v hptr hcmd hne
        rcases hplaced.pointer hne with ⟨hptr', hcmd'⟩
        rw [hbuf] at hptr'
        exact ⟨hptr.trans hptr', hcmd.trans hcmd'⟩
      have hlayout := hplaced.layout
      rw [hbuf] at hlayout
      have hsecond := setupRamdisk_outcome env t
      rw [hlayout.header, hbuf] at hsecond
      dsimp only
      generalize hsizedEq : store 4 (buf + SetupHeader.ramdiskSize)
        (aospHeader s.image).ramdiskSize t.image = sized at hsecond
      have hsized : RamdiskFields buf (aospHeader s.image).ramdiskSize t.image sized := by
        rw [← hsizedEq]
        exact ramdiskFields_size t.image buf (aospHeader s.image).ramdiskSize_lt
      generalize setupRamdisk env t = result at hsecond ⊢
      cases hsecond with
      | noPages hnone himage hcmd =>
          refine StartOutcome.gaveUp GivesUp.noRamdisk hplaced.base_eq hline
            ((hplaced.after.trans hnone).accounts hcalls) (hpointer_of ?_ hcmd)
          rw [himage, hsized.cmdLinePtr]
      | @tooHigh ramdisk u htaken himage hcmd =>
          refine StartOutcome.gaveUp (GivesUp.ramdiskTooHigh ramdisk) hplaced.base_eq hline
            (((hplaced.after.trans htaken).accounts hcalls).freePages ramdisk _)
            (hpointer_of ?_ hcmd)
          show le32 u.image _ = _
          rw [himage, hsized.cmdLinePtr]
      | @placed ramdisk u htaken hlow himage hcmd =>
          have hfields : RamdiskFields buf (aospHeader s.image).ramdiskSize t.image u.image := by
            rw [himage]
            exact hsized.store_address ramdisk
          have hplacedLayout := hlayout.trans hfields.layout
          have hafter := hplaced.after.trans htaken
          have haddress : le32 u.image (buf + SetupHeader.ramdiskImage) = ramdisk := by
            rw [himage]
            exact le32_store hlow
          dsimp only
          have hthird := handoverKernel_outcome env (watchdogEnabled env buf u) hooks u
          rw [hplacedLayout.header, hbuf, hplacedLayout.setupSize,
            hplacedLayout.kernelCopySize, hplacedLayout.initSize] at hthird
          generalize handoverKernel env (watchdogEnabled env buf u) hooks u = result at hthird ⊢
          cases hthird with
          | @noPages status v hnone hframe =>
              have himage' := hframe.fields SetupHeader.ramdiskImage (by decide)
              have hsize' := hframe.fields SetupHeader.ramdiskSize (by decide)
              dsimp only
              rw [himage', hsize', haddress, hfields.ramdiskSize]
              refine StartOutcome.gaveUp (GivesUp.noKernel ramdisk) hplaced.base_eq hline
                (((hafter.trans hnone).accounts hcalls).freePages ramdisk _)
                (hpointer_of ?_ (hframe.commandLine.trans hcmd))
              exact (hframe.fields SetupHeader.cmdLinePtr (by decide)).trans hfields.cmdLinePtr
          | @abandoned step status kernel rest uses v htaken' hstep hframe =>
              have himage' := hframe.fields SetupHeader.ramdiskImage (by decide)
              have hsize' := hframe.fields SetupHeader.ramdiskSize (by decide)
              dsimp only
              rw [show (efree kernel (kernelCopySize s.image buf) v).image = v.image from rfl,
                himage', hsize', haddress, hfields.ramdiskSize]
              refine StartOutcome.gaveUp (GivesUp.kernel ramdisk kernel hstep)
                hplaced.base_eq hline
                ((((hafter.trans htaken').accounts hcalls).freePages kernel _).freePages ramdisk _)
                (hpointer_of ?_ (hframe.commandLine.trans hcmd))
              exact (hframe.fields SetupHeader.cmdLinePtr (by decide)).trans hfields.cmdLinePtr
          | jumped htaken' =>
              have hjump := hafter.trans htaken'
              rw [List.nil_append, List.singleton_append, hlayout.header] at hjump
              exact StartOutcome.jumped hjump

theorem outCmdline_fst (env : LoadEnv) (buf : Nat) (ending : LoadEnd) (s : LoadState) :
    (outCmdline env buf ending s).1 = ending := by
  unfold outCmdline
  dsimp only
  split <;> rfl

/-- An image is rejected, has pages of no size, or is started once it is verified. -/
inductive BufferOutcome (env : LoadEnv) (append : Option (List UInt8))
    (hooks : Option BootimgHooks) (s : LoadState) : LoadEnd × LoadState -> Prop where
  | rejected {step : LoadStep} {status : EfiStatus} {uses : List LoadEvent} {t : LoadState}
      (hstep : step = LoadStep.bootFlag ∨ step = LoadStep.setupVersion ∨
        step = LoadStep.signature)
      (hafter : After s [] uses t) :
      BufferOutcome env append hooks s (outBootimage (LoadEnd.failed step status) t)
  | divided : BufferOutcome env append hooks s (LoadEnd.divideError, s)
  | verified {t : LoadState} (hpage : 0 < (aospHeader s.image).pageSize)
      (hafter : After s [] [LoadEvent.checkSignature (aospHeader s.image).signedSize
        (aospHeader s.image).signedSize (aospHeader s.image).sigSize] t)
      (himage : t.image = s.image) (hpages : t.pageCalls = s.pageCalls) :
      BufferOutcome env append hooks s
        (startVerified env append hooks (aospHeader s.image).pageSize t)

theorem startBuffer_outcome (env : LoadEnv) (append : Option (List UInt8))
    (hooks : Option BootimgHooks) (s : LoadState) :
    BufferOutcome env append hooks s (startBuffer env append hooks s) := by
  have hcheck : After s [] [(aospHeader s.image).signatureCheck]
      (s.emit (aospHeader s.image).signatureCheck) := After.use (by rfl) (by rfl)
  have hchecking := startBuffer_checking env append hooks s
  generalize startBuffer env append hooks s = result at hchecking ⊢
  cases hchecking with
  | corrupt hstep =>
      refine BufferOutcome.rejected ?_ (After.of_eq rfl rfl)
      exact hstep.imp_right Or.inl
  | divided => exact BufferOutcome.divided
  | refused => exact BufferOutcome.rejected (Or.inr (Or.inr rfl)) hcheck
  | verified hformed =>
      exact BufferOutcome.verified (Nat.pos_of_ne_zero hformed.2.2) hcheck rfl rfl

end BootImage
end BootableUefi
