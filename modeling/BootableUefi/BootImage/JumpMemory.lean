import BootableUefi.BootImage.E820
import BootableUefi.BootImage.Handoff

/-!
# Memory at the jump

The writes of a start that jumps, in order, and what the kernel then finds:
`boot_params` leads to the line, the ramdisk and the kernel, and lists the last
memory map of the firmware.  The image is in memory too, and the loader stores in
its setup header while it works.
-/

namespace BootableUefi
namespace BootImage

open Firmware Foundation

namespace BootParams

def efiInfo : Nat := 0x1c0

def e820Entries : Nat := 0x1e8

def e820Map : Nat := 0x2d0

end BootParams

def E820Type.code : E820Type -> Nat
  | ram => 1
  | reserved => 2
  | acpi => 3
  | nvs => 4
  | unusable => 5

def E820Entry.bytes (entry : E820Entry) : Mem :=
  store 4 16 entry.type.code (store 8 8 entry.size (store 8 0 entry.addr fun _ => 0))

/-!
# The stores in the image

Each is given by the address the setup header is at.
-/

def fieldWrite (header size field value : Nat) : ByteWrite where
  offset := header + field
  size := size
  data := byteOf value

def screenStores (gop : Option GopMode) (header : Nat) : List ByteWrite :=
  fieldWrite header 0x40 0 0 ::
    match gop with
    | none => []
    | some mode =>
        [fieldWrite header 1 0x0f 0x70,
          fieldWrite header 4 0x18 mode.frameBufferBase,
          fieldWrite header 4 0x1c mode.frameBufferSize,
          fieldWrite header 2 0x12 mode.horizontalResolution,
          fieldWrite header 2 0x14 mode.verticalResolution,
          fieldWrite header 2 0x24 (mode.pixelsPerScanLine * 4)]

/-- What the loader stores in the image before it writes to pages. -/
def storesBefore (gop : Option GopMode) (image : Mem) (header : Nat) :
    LoadEvent -> List ByteWrite
  | LoadEvent.copy ImagePart.ramdisk _ _ _ =>
      [fieldWrite header 4 SetupHeader.ramdiskSize (aospHeader image).ramdiskSize]
  | LoadEvent.copy ImagePart.kernel _ _ _ =>
      fieldWrite header 1 SetupHeader.typeOfLoader 0xff :: screenStores gop header
  | _ => []

/-!
# The writes of a start
-/

namespace Handoff

variable (h : Handoff)

def entries : List E820Entry :=
  (h.map.foldl addDescriptor []).reverse

def entryWrite (i : Nat) (entry : E820Entry) : ByteWrite where
  offset := h.bootAddr + BootParams.e820Map + 20 * i
  size := 20
  data := entry.bytes

def countWrite : ByteWrite where
  offset := h.bootAddr + BootParams.e820Entries
  size := 1
  data := fun _ => UInt8.ofNat h.entries.length

/-- What `setup_efi_memory_map` writes to `boot_params`; `info` are the bytes of `efi_info`. -/
def mapWrites (info : Mem) : List ByteWrite :=
  [{ offset := h.bootAddr + BootParams.efiInfo, size := 0x20, data := info }, h.countWrite] ++
    h.entries.mapIdx h.entryWrite

/-- What the loader stores in the image once it has written to pages. -/
def storesAfter (header : Nat) : LoadEvent -> List ByteWrite
  | LoadEvent.writeLine _ _ =>
      [fieldWrite header 4 SetupHeader.cmdLinePtr h.lineBase,
        fieldWrite header 4 SetupHeader.cmdlineSize (h.line.length + 1)]
  | LoadEvent.copy ImagePart.ramdisk _ _ _ =>
      [fieldWrite header 4 SetupHeader.ramdiskImage h.ramdisk]
  | _ => []

def stores (gop : Option GopMode) (image : Mem) (header : Nat) (log : List LoadEvent) :
    List ByteWrite :=
  stageWrites (storesBefore gop image header) (fun _ => none) (h.storesAfter header) log

/--
Memory at the jump, by the log of the start.  The image is at `imageBase`; the
tables and the map are written last.
-/
def memory (imageBase : Nat) (gop : Option GopMode) (image : Mem) (log : List LoadEvent)
    (info before : Mem) : Mem :=
  let header := imageBase + (aospHeader image).pageSize
  applyAll (h.mapWrites info)
    (applyAll [{ offset := h.tables, size := gdtLimit, data := gdtBytes }]
      (applyAll (stageWrites (storesBefore gop image header) (h.byteWrite gop image)
        (h.storesAfter header) log) before))

/-- The bytes of `boot_params` that describe the map. -/
def MapCovers (i : Nat) : Prop :=
  (BootParams.efiInfo ≤ i ∧ i < BootParams.efiInfo + 0x20) ∨ i = BootParams.e820Entries ∨
    (BootParams.e820Map ≤ i ∧ i < BootParams.e820Map + 20 * h.entries.length)

/-- The entries end before the pages of `boot_params` do. -/
def MapFits : Prop :=
  BootParams.e820Map + 20 * h.entries.length ≤ 16384

theorem mem_mapWrites {info : Mem} {w : ByteWrite} (hw : w ∈ h.mapWrites info) {x : Nat}
    (hx : w.Covers x) : exists i, x = h.bootAddr + i ∧ h.MapCovers i := by
  rcases hx with ⟨hlow, hhigh⟩
  unfold mapWrites at hw
  unfold MapCovers
  rcases List.mem_append.mp hw with hfixed | hentry
  · simp only [List.mem_cons, List.not_mem_nil, or_false] at hfixed
    rcases hfixed with rfl | rfl
    · refine ⟨x - h.bootAddr, ?_, Or.inl ?_⟩ <;> dsimp only at hlow hhigh <;> omega
    · unfold countWrite at hlow hhigh
      refine ⟨x - h.bootAddr, ?_, Or.inr (Or.inl ?_)⟩ <;> dsimp only at hlow hhigh <;> omega
  · rcases List.mem_mapIdx.mp hentry with ⟨i, hi, rfl⟩
    unfold entryWrite at hlow hhigh
    refine ⟨x - h.bootAddr, ?_, Or.inr (Or.inr ?_)⟩ <;> dsimp only at hlow hhigh <;> omega

theorem mapWrites_apart (info : Mem) : (h.mapWrites info).Pairwise ByteWrite.Apart := by
  unfold mapWrites
  have hentries : forall w, w ∈ h.entries.mapIdx h.entryWrite -> forall x, w.Covers x ->
      h.bootAddr + BootParams.e820Map ≤ x := by
    intro w hw x hx
    rcases List.mem_mapIdx.mp hw with ⟨i, _, rfl⟩
    have hlow : h.bootAddr + BootParams.e820Map + 20 * i ≤ x := hx.1
    omega
  refine List.pairwise_append.mpr ⟨?_, ?_, ?_⟩
  · refine List.pairwise_pair.mpr ?_
    rintro x ⟨hlow, hhigh⟩ ⟨hlow', hhigh'⟩
    unfold countWrite BootParams.e820Entries at hlow'
    unfold BootParams.efiInfo at hhigh
    dsimp only at hlow' hhigh
    omega
  · rw [List.pairwise_iff_getElem]
    rintro i j hi hj hij x ⟨_, hhigh⟩ ⟨hlow, _⟩
    rw [List.getElem_mapIdx] at hhigh hlow
    unfold entryWrite at hhigh hlow
    dsimp only at hhigh hlow
    omega
  · intro v hv w hw x hx hcovers
    have hlow := hentries w hw x hcovers
    have hhigh := hx.2
    simp only [List.mem_cons, List.not_mem_nil, or_false] at hv
    unfold BootParams.e820Map at hlow
    rcases hv with rfl | rfl
    · unfold BootParams.efiInfo at hhigh
      dsimp only at hhigh
      omega
    · unfold countWrite BootParams.e820Entries at hhigh
      dsimp only at hhigh
      omega

end Handoff

/-!
# What the stores come to
-/

theorem fieldWrite_covers {header size field value x : Nat} :
    (fieldWrite header size field value).Covers x <->
      header + field ≤ x ∧ x < header + field + size :=
  Iff.rfl

theorem assigned_of_screenStores {gop : Option GopMode} {header x : Nat} {w : ByteWrite}
    (hw : w ∈ screenStores gop header) (hx : w.Covers x) : Assigned header x := by
  left
  unfold screenStores at hw
  rcases List.mem_cons.mp hw with rfl | hmode
  · rw [fieldWrite_covers] at hx
    omega
  · cases gop with
    | none => cases hmode
    | some mode =>
        simp only [List.mem_cons, List.not_mem_nil, or_false] at hmode
        rcases hmode with rfl | rfl | rfl | rfl | rfl | rfl <;>
          · rw [fieldWrite_covers] at hx
            omega

theorem Handoff.assigned_of_stores {h : Handoff} {gop : Option GopMode} {image : Mem}
    {header x : Nat} {log : List LoadEvent} {w : ByteWrite}
    (hw : w ∈ h.stores gop image header log) (hx : w.Covers x) : Assigned header x := by
  unfold Handoff.stores stageWrites at hw
  rcases List.mem_flatMap.mp hw with ⟨event, -, hevent⟩
  rw [Option.toList_none, List.append_nil] at hevent
  rcases List.mem_append.mp hevent with hbefore | hafter
  · cases event with
    | copy part source size destination =>
        cases part with
        | kernel =>
            rcases List.mem_cons.mp hbefore with rfl | hscreen
            · rw [fieldWrite_covers] at hx
              unfold Assigned
              omega
            · exact assigned_of_screenStores hscreen hx
        | ramdisk =>
            rw [List.mem_singleton.mp hbefore, fieldWrite_covers] at hx
            unfold Assigned SetupHeader.ramdiskImage
            unfold SetupHeader.ramdiskSize at hx ⊢
            omega
    | _ => cases hbefore
  · cases event with
    | copy part source size destination =>
        cases part with
        | kernel => cases hafter
        | ramdisk =>
            rw [List.mem_singleton.mp hafter, fieldWrite_covers] at hx
            unfold Assigned SetupHeader.ramdiskSize
            unfold SetupHeader.ramdiskImage at hx ⊢
            omega
    | writeLine destination size =>
        rcases List.mem_pair.mp hafter with rfl | rfl
        · rw [fieldWrite_covers] at hx
          unfold Assigned SetupHeader.initrdAddrMax
          unfold SetupHeader.cmdLinePtr at hx ⊢
          omega
        · rw [fieldWrite_covers] at hx
          unfold Assigned
          omega
    | _ => cases hafter

theorem flatMap_filter_writes {f : LoadEvent -> List ByteWrite}
    (hquiet : forall event : LoadEvent, event.writes = false -> f event = [])
    (log : List LoadEvent) : (log.filter LoadEvent.writes).flatMap f = log.flatMap f := by
  induction log with
  | nil => rfl
  | cons event log ih =>
      cases hevent : event.writes with
      | true => rw [List.filter_cons_of_pos hevent, List.flatMap_cons, List.flatMap_cons, ih]
      | false =>
          rw [List.filter_cons_of_neg (by simp [hevent]), List.flatMap_cons, hquiet event hevent,
            List.nil_append, ih]

theorem Handoff.stores_filter_writes (h : Handoff) (gop : Option GopMode) (image : Mem)
    (header : Nat) (log : List LoadEvent) :
    h.stores gop image header (log.filter LoadEvent.writes) = h.stores gop image header log := by
  apply flatMap_filter_writes
  intro event hevent
  cases event with
  | copy => cases hevent
  | writeLine => cases hevent
  | bootParams => cases hevent
  | _ => rfl

/-- The stores make the image the one that the kernel is copied from. -/
theorem Handoff.applyAll_stores (h : Handoff) (arch : Arch) (gop : Option GopMode)
    (image : Mem) :
    applyAll (h.stores gop image (aospHeader image).pageSize (h.events arch image)) image =
      h.finalImage gop image := by
  unfold Handoff.events Handoff.lineEvents Handoff.finalImage Handoff.ramdiskImage
    Handoff.sizedImage Handoff.lineImage
  cases gop with
  | none => split <;> rfl
  | some mode => split <;> rfl

theorem Handoff.stores_shift (h : Handoff) (gop : Option GopMode) (image : Mem)
    (imageBase header : Nat) (log : List LoadEvent) :
    h.stores gop image (imageBase + header) log =
      (h.stores gop image header log).map
        fun w => { w with offset := imageBase + w.offset } := by
  have hfield : forall size field value,
      fieldWrite (imageBase + header) size field value =
        { fieldWrite header size field value with
          offset := imageBase + (fieldWrite header size field value).offset } := by
    intro size field value
    unfold fieldWrite
    rw [Nat.add_assoc]
  have hscreen : screenStores gop (imageBase + header) =
      (screenStores gop header).map fun w => { w with offset := imageBase + w.offset } := by
    unfold screenStores
    cases gop with
    | none => exact congrArg (· :: []) (hfield ..)
    | some mode => simp [hfield]
  have hbefore : forall event, storesBefore gop image (imageBase + header) event =
      (storesBefore gop image header event).map
        fun w => { w with offset := imageBase + w.offset } := by
    intro event
    unfold storesBefore
    split <;> simp [hfield, hscreen]
  have hafter : forall event, h.storesAfter (imageBase + header) event =
      (h.storesAfter header event).map fun w => { w with offset := imageBase + w.offset } := by
    intro event
    unfold Handoff.storesAfter
    split <;> simp [hfield]
  unfold Handoff.stores stageWrites
  rw [List.map_flatMap]
  simp only [hbefore, hafter, List.map_append, Option.toList_none, List.map_nil]

/-!
# The writes to pages
-/

theorem filterMap_filter_writes (h : Handoff) (gop : Option GopMode) (image : Mem)
    (log : List LoadEvent) :
    (log.filter LoadEvent.writes).filterMap (h.byteWrite gop image) =
      log.filterMap (h.byteWrite gop image) := by
  have hquiet : forall event : LoadEvent, event.writes = false ->
      h.byteWrite gop image event = none := by
    intro event hevent
    cases event with
    | copy => cases hevent
    | writeLine => cases hevent
    | bootParams => cases hevent
    | _ => rfl
  induction log with
  | nil => rfl
  | cons event log ih =>
      cases hevent : event.writes with
      | true => rw [List.filter_cons_of_pos hevent, List.filterMap_cons, List.filterMap_cons, ih]
      | false =>
          rw [List.filter_cons_of_neg (by simp [hevent]), List.filterMap_cons_none
            (hquiet event hevent), ih]

theorem apply_of_empty {w : ByteWrite} (h : w.size = 0) (device : Mem) :
    w.apply device = device := by
  funext x
  apply ByteWrite.apply_of_not_covers
  unfold ByteWrite.Covers
  omega

theorem Handoff.placedIn_runs {h : Handoff} {arch : Arch} {gop : Option GopMode} {image : Mem}
    {used : Finset Nat} (hgranted : Granted used (h.runs arch gop image))
    (hsize : kernelCopySize image (aospHeader image).pageSize ≤
      4096 * sizeToPages (le32 image ((aospHeader image).pageSize + SetupHeader.initSize)))
    (hreach : h.kernelStart < 2 ^ arch.uintnBits) :
    forall p, p ∈ h.placements arch gop image -> p.2.PlacedIn p.1 := by
  intro p hp
  have hbase : p.1.base % 4096 = 0 := (hgranted.mem (List.mem_map_of_mem hp)).1
  unfold Handoff.placements at hp
  simp only [List.mem_cons, List.not_mem_nil, or_false] at hp
  rcases hp with rfl | rfl | rfl | rfl | rfl
  · apply ByteWrite.placedIn_of_le hbase rfl
    have hle := le_sizeToPages (h.line.length + 1)
    dsimp only
    split <;> omega
  · exact ByteWrite.placedIn_of_le hbase rfl (le_sizeToPages _)
  · exact ByteWrite.placedIn_of_le hbase (uintn_of_lt hreach) hsize
  · exact ByteWrite.placedIn_of_le hbase rfl (le_sizeToPages _)
  · exact ByteWrite.placedIn_of_le hbase rfl (le_sizeToPages _)

/-- The setup header of an image at `imageBase` is in pages in use. -/
def HeaderInUse (imageBase : Nat) (image : Mem) (used : Finset Nat) : Prop :=
  forall x, Assigned (imageBase + (aospHeader image).pageSize) x -> x / 4096 ∈ used

section Written

variable {h : Handoff} {env : LoadEnv} {image : Mem} {used : Finset Nat} {t : LoadState}

theorem Handoff.Taken.pageWrites_eq (htaken : h.Taken env image used t) (device : Mem) :
    applyAll [{ offset := h.tables, size := gdtLimit, data := gdtBytes }]
        (applyAll (t.log.filterMap (h.byteWrite env.gop image)) device) =
      applyAll ((h.placements env.arch env.gop image).map Prod.snd) device := by
  rw [← applyAll_append, ← filterMap_filter_writes, htaken.written]
  unfold Handoff.events Handoff.lineEvents
  by_cases hzero : h.lineBase = 0
  · have hempty : forall w : ByteWrite, w.size = 0 -> forall rest,
        applyAll (w :: rest) device = applyAll rest device :=
      fun w hw rest => congrArg (applyAll rest) (apply_of_empty hw device)
    rw [if_pos hzero]
    exact (hempty _ (if_pos hzero) _).symm
  · rw [if_neg hzero]
    unfold Handoff.placements
    dsimp only [List.map_cons, List.map_nil]
    rw [if_neg hzero]
    rfl

theorem Handoff.Taken.mem_placements (htaken : h.Taken env image used t) {w : ByteWrite}
    (hw : w ∈ t.log.filterMap (h.byteWrite env.gop image)) :
    exists p, p ∈ h.placements env.arch env.gop image ∧ p.2 = w := by
  rw [← filterMap_filter_writes, htaken.written] at hw
  have hsub : List.Sublist ((h.events env.arch image).filterMap (h.byteWrite env.gop image))
      ((h.placements env.arch env.gop image).map Prod.snd) := by
    unfold Handoff.events Handoff.lineEvents Handoff.placements
    dsimp only [List.map_cons, List.map_nil]
    by_cases hzero : h.lineBase = 0
    · rw [if_pos hzero]
      exact ((List.nil_sublist [_]).cons_cons _).cons_cons _ |>.cons_cons _ |>.cons _
    · rw [if_neg hzero, if_neg hzero]
      exact ((List.nil_sublist [_]).cons_cons _).cons_cons _ |>.cons_cons _ |>.cons_cons _
  rcases List.mem_map.mp (hsub.subset hw) with ⟨p, hp, heq⟩
  exact ⟨p, hp, heq⟩

/--
The stores in the image do not touch the pages that are taken.  So memory is as if
they came first; then the pages are written once each, and then the map.
-/
theorem Handoff.Taken.memory_eq (htaken : h.Taken env image used t)
    (hplaced : forall p, p ∈ h.placements env.arch env.gop image -> p.2.PlacedIn p.1)
    {imageBase : Nat} (hheader : HeaderInUse imageBase image used) (info before : Mem) :
    h.memory imageBase env.gop image t.log info before =
      applyAll (h.mapWrites info)
        (applyAll ((h.placements env.arch env.gop image).map Prod.snd)
          (applyAll (h.stores env.gop image (imageBase + (aospHeader image).pageSize) t.log)
            before)) := by
  have hapart : forall v, v ∈ t.log.filterMap (h.byteWrite env.gop image) ->
      forall w, w ∈ h.stores env.gop image (imageBase + (aospHeader image).pageSize) t.log ->
        v.Apart w := by
    intro v hv w hw x hcovers hstored
    rcases htaken.mem_placements hv with ⟨p, hp, rfl⟩
    rcases htaken.granted.mem (List.mem_map_of_mem (f := Prod.fst) hp) with ⟨-, -, hfree⟩
    exact Finset.disjoint_left.mp hfree (hheader x (h.assigned_of_stores hw hstored))
      (hplaced p hp x hcovers)
  unfold Handoff.memory
  dsimp only
  rw [applyAll_stageWrites hapart, ← htaken.pageWrites_eq]
  rfl

end Written

/-- The kernel proper follows the setup sectors. -/
def kernelSource (image : Mem) : Nat :=
  (aospHeader image).pageSize + setupSize image (aospHeader image).pageSize

/--
What the kernel finds in memory, and what it finds unchanged: all of the pages in
use but the assigned bytes of the image, which is the one the kernel is from.
-/
structure Handoff.Boots (h : Handoff) (gop : Option GopMode) (imageBase : Nat) (image : Mem)
    (used : Finset Nat) (before m : Mem) : Prop where
  kernelStart : le32 m (h.bootAddr + SetupHeader.code32Start) = u32 h.kernelStart
  kernel : forall i, i < kernelCopySize image (aospHeader image).pageSize ->
    ¬ Assigned (aospHeader image).pageSize (kernelSource image + i) ->
    m (h.kernelStart + i) = image (kernelSource image + i)
  sectors : forall i, i < 1024 ->
    ¬ (SetupHeader.code32Start ≤ i ∧ i < SetupHeader.code32Start + 4) -> ¬ h.MapCovers i ->
    ¬ Assigned (aospHeader image).pageSize ((aospHeader image).pageSize + i) ->
    m (h.bootAddr + i) = image ((aospHeader image).pageSize + i)
  e820Entries : h.entries.length ≤ 255 ->
    (m (h.bootAddr + BootParams.e820Entries)).toNat = h.entries.length
  e820Map : forall i entry, h.entries[i]? = some entry -> forall j, j < 20 ->
    m (h.bootAddr + BootParams.e820Map + 20 * i + j) = entry.bytes j
  ramdiskPtr : le32 m (h.bootAddr + SetupHeader.ramdiskImage) = h.ramdisk
  ramdiskSize : le32 m (h.bootAddr + SetupHeader.ramdiskSize) = (aospHeader image).ramdiskSize
  ramdisk : forall i, i < (aospHeader image).ramdiskSize ->
    ¬ Assigned (aospHeader image).pageSize ((aospHeader image).ramdiskOffset + i) ->
    m (h.ramdisk + i) = image ((aospHeader image).ramdiskOffset + i)
  linePtr : h.lineBase ≠ 0 -> le32 m (h.bootAddr + SetupHeader.cmdLinePtr) = h.lineBase
  lineSize : h.lineBase ≠ 0 ->
    le32 m (h.bootAddr + SetupHeader.cmdlineSize) = h.line.length + 1
  line : h.lineBase ≠ 0 -> forall i, i ≤ h.line.length ->
    m (h.lineBase + i) = memOf h.line i
  tables : forall i, i < gdtLimit -> m (h.tables + i) = gdtBytes i
  kept : forall x, x / 4096 ∈ used ->
    ¬ Assigned (imageBase + (aospHeader image).pageSize) x -> m x = before x
  image : (forall i, before (imageBase + i) = image i) ->
    forall i, (imageBase + i) / 4096 ∈ used -> m (imageBase + i) = h.finalImage gop image i

def Handoff.paramsWrite (h : Handoff) (gop : Option GopMode) (image : Mem) : ByteWrite where
  offset := h.bootAddr
  size := 16384
  data := h.bootParams gop image (aospHeader image).pageSize

theorem Handoff.mapWrites_inside {h : Handoff} (hfits : h.MapFits) (gop : Option GopMode)
    (image info : Mem) :
    forall w, w ∈ h.mapWrites info -> forall x, w.Covers x ->
      (h.paramsWrite gop image).Covers x := by
  intro w hw x hcovers
  rcases h.mem_mapWrites hw hcovers with ⟨i, rfl, hi⟩
  unfold Handoff.MapFits at hfits
  unfold Handoff.MapCovers BootParams.efiInfo BootParams.e820Entries at hi
  show h.bootAddr ≤ h.bootAddr + i ∧ h.bootAddr + i < h.bootAddr + 16384
  omega

theorem Handoff.mapWrites_within (h : Handoff) (info device : Mem) {i : Nat}
    (hi : ¬ h.MapCovers i) :
    applyAll (h.mapWrites info) device (h.bootAddr + i) = device (h.bootAddr + i) := by
  apply applyAll_of_not_covers
  intro w hw hcovers
  rcases h.mem_mapWrites hw hcovers with ⟨j, heq, hj⟩
  rw [Nat.add_left_cancel heq] at hi
  exact hi hj

/-!
# What is read back

The placements are apart, and the map stays in `boot_params`, the fourth of them.
-/

def Handoff.mapped (h : Handoff) (arch : Arch) (gop : Option GopMode) (image info device : Mem) :
    Mem :=
  applyAll (h.mapWrites info) (applyAll ((h.placements arch gop image).map Prod.snd) device)

section Mapped

variable {h : Handoff} {arch : Arch} {gop : Option GopMode} {image : Mem} {used : Finset Nat}

theorem Handoff.mapped_placed (hgranted : Granted used (h.runs arch gop image))
    (hplaced : forall p, p ∈ h.placements arch gop image -> p.2.PlacedIn p.1) (hfits : h.MapFits)
    (info device : Mem) {j : Nat} {p : PageRun × ByteWrite}
    (hp : (h.placements arch gop image)[j]? = some p) (hne : j ≠ 3) {i : Nat}
    (hi : i < p.2.size) :
    h.mapped arch gop image info device (p.2.offset + i) = p.2.data i :=
  applyAll_placed_under (q := (_, h.paramsWrite gop image)) hgranted hplaced hp rfl hne
    (Handoff.mapWrites_inside hfits gop image info) hi device

theorem Handoff.mapped_mapWrites (h : Handoff) (arch : Arch) (gop : Option GopMode)
    (image info device : Mem) {w : ByteWrite} (hw : w ∈ h.mapWrites info) {i : Nat}
    (hi : i < w.size) : h.mapped arch gop image info device (w.offset + i) = w.data i :=
  applyAll_of_apart (h.mapWrites_apart info) hw hi

theorem Handoff.mapped_bootParams (hgranted : Granted used (h.runs arch gop image))
    (hplaced : forall p, p ∈ h.placements arch gop image -> p.2.PlacedIn p.1)
    (info device : Mem) {i : Nat} (hi : i < 16384) (hmap : ¬ h.MapCovers i) :
    h.mapped arch gop image info device (h.bootAddr + i) =
      h.bootParams gop image (aospHeader image).pageSize i := by
  unfold Handoff.mapped
  rw [h.mapWrites_within info _ hmap]
  exact applyAll_placed (p := (_, h.paramsWrite gop image)) hgranted hplaced
    (List.mem_of_getElem? (i := 3) rfl) hi device

/-- The setup header lies between `e820_entries` and `e820_map`. -/
theorem Handoff.mapped_field (hgranted : Granted used (h.runs arch gop image))
    (hplaced : forall p, p ∈ h.placements arch gop image -> p.2.PlacedIn p.1)
    (info device : Mem) {field : Nat} (hlow : 0x1f1 ≤ field) (hhigh : field + 4 ≤ 0x2d0) :
    le32 (h.mapped arch gop image info device) (h.bootAddr + field) =
      le32 (h.bootParams gop image (aospHeader image).pageSize) field := by
  apply le32_shift
  intro i hi
  rw [Nat.add_assoc]
  have hmap : ¬ h.MapCovers (field + i) := by
    unfold Handoff.MapCovers BootParams.efiInfo BootParams.e820Entries BootParams.e820Map
    omega
  exact Handoff.mapped_bootParams hgranted hplaced info device (by omega) hmap

theorem Handoff.mapped_imageField (hgranted : Granted used (h.runs arch gop image))
    (hplaced : forall p, p ∈ h.placements arch gop image -> p.2.PlacedIn p.1)
    (info device : Mem) {field : Nat} (hlow : 0x218 ≤ field) (hhigh : field + 4 ≤ 0x2d0) :
    le32 (h.mapped arch gop image info device) (h.bootAddr + field) =
      le32 (h.finalImage gop image) ((aospHeader image).pageSize + field) := by
  rw [← h.le32_bootParams gop image hlow (by omega)]
  exact Handoff.mapped_field hgranted hplaced info device (by omega) hhigh

/-- The pages in use are neither those of `boot_params` nor any other that is written. -/
theorem Handoff.mapped_of_used (hgranted : Granted used (h.runs arch gop image))
    (hplaced : forall p, p ∈ h.placements arch gop image -> p.2.PlacedIn p.1) (hfits : h.MapFits)
    (info device : Mem) {x : Nat} (hx : x / 4096 ∈ used) :
    h.mapped arch gop image info device x = device x := by
  refine (applyAll_of_not_covers ?_).trans (applyAll_placed_of_used hgranted hplaced hx device)
  intro w hw hcovers
  let run : PageRun := { base := h.bootAddr, count := sizeToPages 16384 }
  have hmem : (run, h.paramsWrite gop image) ∈ h.placements arch gop image :=
    List.mem_of_getElem? (i := 3) rfl
  rcases hgranted.mem (List.mem_map_of_mem (f := Prod.fst) hmem) with ⟨-, -, hfree⟩
  exact Finset.disjoint_left.mp hfree hx
    (hplaced _ hmem x (Handoff.mapWrites_inside hfits gop image info w hw x hcovers))

end Mapped

theorem Handoff.Taken.boots {h : Handoff} {env : LoadEnv} {image : Mem} {used : Finset Nat}
    {t : LoadState} (htaken : h.Taken env image used t)
    (hsize : kernelCopySize image (aospHeader image).pageSize ≤
      4096 * sizeToPages (le32 image ((aospHeader image).pageSize + SetupHeader.initSize)))
    (hreach : h.kernelStart < 2 ^ env.arch.uintnBits) (hfits : h.MapFits) {imageBase : Nat}
    (hinUse : HeaderInUse imageBase image used) (info before : Mem) :
    h.Boots env.gop imageBase image used before
      (h.memory imageBase env.gop image t.log info before) := by
  have hgranted := htaken.granted
  have hplaced := Handoff.placedIn_runs hgranted hsize hreach
  rw [htaken.memory_eq hplaced hinUse info before]
  let header := imageBase + (aospHeader image).pageSize
  let stored := applyAll (h.stores env.gop image header t.log) before
  show h.Boots env.gop imageBase image used before
    (h.mapped env.arch env.gop image info stored)
  have hread : forall (j : Nat) (p : PageRun × ByteWrite),
      (h.placements env.arch env.gop image)[j]? = some p -> j ≠ 3 -> forall i, i < p.2.size ->
        h.mapped env.arch env.gop image info stored (p.2.offset + i) = p.2.data i :=
    fun j p hp hne i hi => Handoff.mapped_placed hgranted hplaced hfits info stored hp hne hi
  have hline := hread 0 _ rfl (by decide)
  have hramdisk := hread 1 _ rfl (by decide)
  have hkernel := hread 2 _ rfl (by decide)
  have htables := hread 4 _ rfl (by decide)
  dsimp only at hline hramdisk hkernel htables
  rw [uintn_of_lt hreach] at hkernel
  exact {
    kernelStart := by
      have hstart : le32 (h.bootParams env.gop image (aospHeader image).pageSize)
          SetupHeader.code32Start = u32 h.kernelStart := le32_store (u32_lt _)
      rw [← hstart]
      exact Handoff.mapped_field hgranted hplaced info stored (by decide) (by decide)
    kernel := fun i hi hx => by
      rw [← h.finalImage_of_not_assigned env.gop hx]
      exact hkernel i hi
    sectors := fun i hi hstart hmap hx => by
      rw [← h.finalImage_of_not_assigned env.gop hx]
      refine (Handoff.mapped_bootParams hgranted hplaced info stored (by omega) hmap).trans ?_
      unfold Handoff.bootParams
      rw [store_of_disjoint (by omega), if_pos hi]
    e820Entries := fun hcount => by
      have hone : h.mapped env.arch env.gop image info stored
          (h.bootAddr + BootParams.e820Entries) = UInt8.ofNat h.entries.length := by
        refine h.mapped_mapWrites (w := h.countWrite) _ _ _ _ _
          (List.mem_append_left _ ?_) Nat.zero_lt_one
        exact List.mem_cons_of_mem _ List.mem_cons_self
      refine (congrArg UInt8.toNat hone).trans ?_
      rw [UInt8.toNat_ofNat', Nat.mod_eq_of_lt (by omega)]
    e820Map := fun i entry hentry j hj => by
      rcases List.getElem?_eq_some_iff.mp hentry with ⟨hi, rfl⟩
      refine h.mapped_mapWrites (w := h.entryWrite i h.entries[i]) _ _ _ _ _
        (List.mem_append_right _ ?_) hj
      exact List.mem_mapIdx.mpr ⟨i, hi, rfl⟩
    ramdiskPtr := by
      rw [← h.finalImage_ramdiskImage env.gop image htaken.ramdisk]
      exact Handoff.mapped_imageField hgranted hplaced info stored (by decide) (by decide)
    ramdiskSize := by
      rw [← h.finalImage_ramdiskSize env.gop image]
      exact Handoff.mapped_imageField hgranted hplaced info stored (by decide) (by decide)
    ramdisk := fun i hi hx => by
      rw [← h.sizedImage_of_not_assigned hx]
      exact hramdisk i hi
    linePtr := fun hne => by
      rw [← Handoff.finalImage_cmdLinePtr env.gop image hne (htaken.line hne).2]
      exact Handoff.mapped_imageField hgranted hplaced info stored (by decide) (by decide)
    lineSize := fun hne => by
      rw [← Handoff.finalImage_cmdlineSize env.gop image hne (htaken.line hne).2]
      exact Handoff.mapped_imageField hgranted hplaced info stored (by decide) (by decide)
    line := fun hne i hi => by
      rw [if_neg hne] at hline
      exact hline i (by omega)
    tables := htables
    kept := fun x hx hassigned => by
      refine (Handoff.mapped_of_used hgranted hplaced hfits info stored hx).trans ?_
      apply applyAll_of_not_covers
      exact fun w hw hcovers => hassigned (h.assigned_of_stores hw hcovers)
    image := fun himage i hi => by
      have hload : (fun j => before (imageBase + j)) = image := funext himage
      refine (Handoff.mapped_of_used hgranted hplaced hfits info stored hi).trans ?_
      show applyAll (h.stores env.gop image header t.log) before (imageBase + i) = _
      rw [h.stores_shift, applyAll_shift, hload, ← h.stores_filter_writes, htaken.written,
        h.applyAll_stores] }

theorem headerInUse_of_page {imageBase : Nat} {image : Mem} {used : Finset Nat}
    (hpage : (imageBase + (aospHeader image).pageSize) % 4096 + 1024 ≤ 4096)
    (hused : (imageBase + (aospHeader image).pageSize) / 4096 ∈ used) :
    HeaderInUse imageBase image used := by
  intro x hx
  have hplace : x / 4096 = (imageBase + (aospHeader image).pageSize) / 4096 := by
    unfold Assigned SetupHeader.typeOfLoader SetupHeader.ramdiskImage SetupHeader.ramdiskSize
      SetupHeader.cmdLinePtr SetupHeader.initrdAddrMax SetupHeader.cmdlineSize at hx
    omega
  rw [hplace]
  exact hused

/-- A kernel of 4096 bytes with one setup sector, started at 2 MiB; the image is at 64 KiB. -/
def jumpingStart : LoadEnd × LoadState :=
  startBuffer smallEnv none none (LoadState.enter (smallImage 0x1000 0x1000 0) {0x10, 0x11})

theorem Handoff.Taken.mapFits_of_small {h : Handoff} {env : LoadEnv} {image : Mem}
    {used : Finset Nat} {t : LoadState} (htaken : h.Taken env image used t)
    (hreplies : env.mapReplies = smallEnv.mapReplies) : h.MapFits := by
  rcases htaken.lastMap with ⟨n, -, hmap⟩
  rw [hreplies] at hmap
  have hlast : h.map = [{ type := 7
                          physicalStart := if n = 0 then 0x100000 else 0x300000
                          numberOfPages := 0x100 }] :=
    (Except.ok.inj hmap).symm
  unfold Handoff.MapFits Handoff.entries
  rw [hlast]
  split <;> decide

end BootImage
end BootableUefi
