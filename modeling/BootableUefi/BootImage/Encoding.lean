import BootableUefi.BootImage.ImageReads
import BootableUefi.BootImage.JumpMemory
import BootableUefi.Foundation.Layout

/-!
# Boot images from the other side

A boot image is made of a kernel, a ramdisk, a second stage and a signature, each
in whole flash pages behind a page for the header.  When the encoded image is on
the boot partition and a start of the partition jumps, the kernel that runs is the
one the image was made of, and so are the ramdisk and the line it finds.
-/

namespace BootableUefi
namespace BootImage

open Firmware Foundation

/-!
# The format
-/

structure AndroidImage where
  pageSize : Nat
  kernel : List UInt8
  ramdisk : List UInt8
  second : List UInt8
  signature : List UInt8
  line : List UInt8
  /-- The addresses of the kernel, the ramdisk, the second stage and the tags. -/
  addresses : Fin 4 -> Nat
  name : List UInt8
  id : List UInt8
  header_le : bootImgHdrSize ≤ pageSize
  name_length : name.length = 16
  id_length : id.length = 32
  line_clean : 0 ∉ line
  line_lt : line.length < bootArgsSize - 1 + bootExtraArgsSize
  size_lt :
    (1 + blockCount pageSize kernel.length + blockCount pageSize ramdisk.length +
      blockCount pageSize second.length + blockCount pageSize signature.length) * pageSize < 2 ^ 32

namespace AndroidImage

variable (android : AndroidImage)

def pages (bytes : List UInt8) : Nat :=
  blockCount android.pageSize bytes.length

def header : List UInt8 :=
  bootMagic ++ leBytes 4 android.kernel.length ++ leBytes 4 (android.addresses 0) ++
    leBytes 4 android.ramdisk.length ++ leBytes 4 (android.addresses 1) ++
    leBytes 4 android.second.length ++ leBytes 4 (android.addresses 2) ++
    leBytes 4 (android.addresses 3) ++ leBytes 4 android.pageSize ++
    leBytes 4 android.signature.length ++ leBytes 4 0 ++ android.name ++
    padTo bootArgsSize (android.line.take (bootArgsSize - 1)) ++ android.id ++
    padTo bootExtraArgsSize (android.line.drop (bootArgsSize - 1))

def encode : List UInt8 :=
  padTo android.pageSize android.header ++ inBlocks android.pageSize android.kernel ++
    inBlocks android.pageSize android.ramdisk ++ inBlocks android.pageSize android.second ++
    inBlocks android.pageSize android.signature

/-!
# Sizes
-/

theorem pageSize_pos : 0 < android.pageSize :=
  Nat.lt_of_lt_of_le (by decide) android.header_le

theorem length_header : android.header.length = bootImgHdrSize := by
  have hline := android.line_lt
  have hfirst : (android.line.take (bootArgsSize - 1)).length ≤ bootArgsSize := by
    rw [List.length_take]
    omega
  have hrest : (android.line.drop (bootArgsSize - 1)).length ≤ bootExtraArgsSize := by
    rw [List.length_drop]
    omega
  unfold header
  simp only [List.length_append, length_leBytes, length_padTo hfirst, length_padTo hrest,
    android.name_length, android.id_length]
  rfl

theorem length_encode :
    android.encode.length =
      (1 + android.pages android.kernel + android.pages android.ramdisk +
        android.pages android.second + android.pages android.signature) * android.pageSize := by
  have hheader : android.header.length ≤ android.pageSize :=
    android.length_header.trans_le android.header_le
  unfold encode pages
  simp only [List.length_append, length_padTo hheader, length_inBlocks android.pageSize_pos,
    Nat.add_mul, Nat.one_mul]

theorem length_encode_lt : android.encode.length < 2 ^ 32 := by
  rw [length_encode]
  exact android.size_lt

end AndroidImage

/-!
# What the loader reads
-/

section Reads

variable {image : Mem} {android : AndroidImage}

/-- The encoded image is in memory, part by part. -/
structure Encodes (image : Mem) (android : AndroidImage) : Prop where
  header : Shows image 0 android.header
  kernel : Shows image android.pageSize android.kernel
  ramdisk : Shows image ((1 + android.pages android.kernel) * android.pageSize) android.ramdisk

theorem encodes_of_shows (h : Shows image 0 android.encode) : Encodes image android := by
  have hheader : android.header.length ≤ android.pageSize :=
    android.length_header.trans_le android.header_le
  unfold AndroidImage.encode at h
  simp only [shows_append, List.length_append, length_padTo hheader,
    length_inBlocks android.pageSize_pos, Nat.zero_add] at h
  rcases h with ⟨⟨⟨⟨hheader, hkernel⟩, hramdisk⟩, -⟩, -⟩
  refine ⟨hheader.unpadded, hkernel.unpadded, ?_⟩
  rw [Nat.add_mul, Nat.one_mul]
  exact hramdisk.unpadded

structure HeaderOf (hdr : BootImgHdr) (android : AndroidImage) : Prop where
  kernelSize : hdr.kernelSize = android.kernel.length
  ramdiskSize : hdr.ramdiskSize = android.ramdisk.length
  secondSize : hdr.secondSize = android.second.length
  pageSize : hdr.pageSize = android.pageSize
  sigSize : hdr.sigSize = android.signature.length

/-- The header has a page for itself, so no part is as large as the address space. -/
theorem AndroidImage.length_part (android : AndroidImage) (part : List UInt8)
    (h : part = android.kernel ∨ part = android.ramdisk ∨ part = android.second ∨
      part = android.signature) : part.length + android.pageSize < 2 ^ 32 := by
  have hsize := android.size_lt
  simp only [Nat.add_mul, Nat.one_mul] at hsize
  have hpart := fun bytes : List UInt8 => le_blockCount_mul android.pageSize_pos bytes.length
  have hkernel := hpart android.kernel
  have hramdisk := hpart android.ramdisk
  have hsecond := hpart android.second
  have hsignature := hpart android.signature
  rcases h with rfl | rfl | rfl | rfl <;> omega

theorem Encodes.headerOf (h : Encodes image android) : HeaderOf (aospHeader image) android := by
  have hheader := h.header
  unfold AndroidImage.header at hheader
  simp only [shows_append, List.length_append, length_leBytes] at hheader
  rcases hheader with ⟨⟨⟨⟨⟨⟨⟨⟨⟨⟨⟨⟨⟨⟨-, hkernel⟩, -⟩, hramdisk⟩, -⟩, hsecond⟩, -⟩, -⟩, hpage⟩,
    hsignature⟩, -⟩, -⟩, -⟩, -⟩, -⟩
  have hpart := fun (part : List UInt8) h => Nat.lt_of_le_of_lt
    (Nat.le_add_right part.length android.pageSize) (android.length_part part h)
  have hpageLt : android.pageSize < 2 ^ 32 := Nat.lt_of_le_of_lt
    (Nat.le_add_left _ _) (android.length_part android.kernel (Or.inl rfl))
  exact {
    kernelSize := hkernel.le32 (hpart _ (Or.inl rfl))
    ramdiskSize := hramdisk.le32 (hpart _ (Or.inr (Or.inl rfl)))
    secondSize := hsecond.le32 (hpart _ (Or.inr (Or.inr (Or.inl rfl))))
    pageSize := hpage.le32 hpageLt
    sigSize := hsignature.le32 (hpart _ (Or.inr (Or.inr (Or.inr rfl)))) }

theorem pages_eq {hdr : BootImgHdr} {n : Nat} (hpos : 0 < hdr.pageSize)
    (h : n + hdr.pageSize < 2 ^ 32) : hdr.pages n = blockCount hdr.pageSize n := by
  have hsum : n + hdr.pageSize + (2 ^ 32 - 1) = 2 ^ 32 + (n + hdr.pageSize - 1) := by omega
  unfold BootImgHdr.pages blockCount u32
  rw [hsum, Nat.add_mod_left, Nat.mod_eq_of_lt (by omega)]

theorem Encodes.ramdiskOffset (h : Encodes image android) :
    (aospHeader image).ramdiskOffset =
      (1 + android.pages android.kernel) * android.pageSize := by
  have hheader := h.headerOf
  have hpos := android.pageSize_pos
  have hsize := android.size_lt
  have hpart := android.length_part android.kernel (Or.inl rfl)
  simp only [Nat.add_mul, Nat.one_mul] at hsize
  rw [← hheader.pageSize] at hpos hpart
  unfold BootImgHdr.ramdiskOffset
  rw [hheader.kernelSize, pages_eq hpos hpart, hheader.pageSize, u32_of_lt]
  · rfl
  · rw [Nat.add_mul, Nat.one_mul]
    omega

theorem Encodes.signedSize (h : Encodes image android) :
    (aospHeader image).signedSize =
      (1 + android.pages android.kernel + android.pages android.ramdisk +
        android.pages android.second) * android.pageSize := by
  have hheader := h.headerOf
  have hpos := android.pageSize_pos
  have hkernel := android.length_part android.kernel (Or.inl rfl)
  have hramdisk := android.length_part android.ramdisk (Or.inr (Or.inl rfl))
  have hsecond := android.length_part android.second (Or.inr (Or.inr (Or.inl rfl)))
  have hlt := android.length_encode_lt
  rw [android.length_encode, Nat.add_mul _ (android.pages android.signature)] at hlt
  rw [← hheader.pageSize] at hpos hkernel hramdisk hsecond
  unfold BootImgHdr.signedSize
  rw [hheader.kernelSize, hheader.ramdiskSize, hheader.secondSize, pages_eq hpos hkernel,
    pages_eq hpos hramdisk, pages_eq hpos hsecond, hheader.pageSize]
  exact u32_of_lt ((Nat.le_add_right _ _).trans_lt hlt)

theorem Encodes.bootimageSize (h : Encodes image android) (arch : Arch) :
    u32 ((aospHeader image).bootimageSize arch true) = android.encode.length := by
  have hheader := h.headerOf
  have hpos := android.pageSize_pos
  have hsig := android.length_part android.signature (Or.inr (Or.inr (Or.inr rfl)))
  have hlt := android.length_encode_lt
  have hlength := android.length_encode
  rw [Nat.add_mul _ (android.pages android.signature)] at hlength
  rw [← hheader.pageSize] at hpos hsig
  have hsigned : u32 ((aospHeader image).pages (aospHeader image).sigSize *
      (aospHeader image).pageSize) = android.pages android.signature * android.pageSize := by
    rw [hheader.sigSize, pages_eq hpos hsig, hheader.pageSize]
    exact u32_of_lt (by unfold AndroidImage.pages at hlength; omega)
  have hbits : android.encode.length < 2 ^ arch.uintnBits :=
    hlt.trans_le (Nat.pow_le_pow_right (by decide) (by cases arch <;> decide))
  unfold BootImgHdr.bootimageSize
  rw [if_pos rfl, h.signedSize, hsigned, ← hlength, uintn_of_lt hbits, u32_of_lt hlt]

/-!
# The line
-/

theorem Shows.bytesAt {mem : Mem} {offset : Nat} {xs : List UInt8} (h : Shows mem offset xs)
    {n : Nat} (hn : n ≤ xs.length) : bytesAt mem offset n = xs.take n := by
  apply List.ext_getElem
  · simp [BootImage.bytesAt, hn]
  · intro i hi hi'
    rw [length_bytesAt] at hi
    simp [BootImage.bytesAt, h i (hi.trans_le hn)]

theorem Encodes.fields (h : Encodes image android) :
    headerCmdline image =
        (padTo bootArgsSize (android.line.take (bootArgsSize - 1))).take (bootArgsSize - 1) ∧
      headerExtraCmdline image =
        padTo bootExtraArgsSize (android.line.drop (bootArgsSize - 1)) := by
  have hline := android.line_lt
  have hfirst : (padTo bootArgsSize (android.line.take (bootArgsSize - 1))).length =
      bootArgsSize := by
    apply length_padTo
    rw [List.length_take]
    omega
  have hrest : (padTo bootExtraArgsSize (android.line.drop (bootArgsSize - 1))).length =
      bootExtraArgsSize := by
    apply length_padTo
    rw [List.length_drop]
    omega
  have hheader := h.header
  unfold AndroidImage.header at hheader
  simp only [shows_append, List.length_append, length_leBytes, android.name_length,
    android.id_length, hfirst] at hheader
  rcases hheader with ⟨⟨⟨-, hcmdline⟩, -⟩, hextra⟩
  constructor
  · exact Shows.bytesAt hcmdline (by rw [hfirst]; decide)
  · have hbytes := Shows.bytesAt hextra hrest.ge
    rwa [List.take_of_length_le hrest.le] at hbytes

theorem bytesAt_succ (mem : Mem) (offset n : Nat) :
    bytesAt mem offset (n + 1) = bytesAt mem offset n ++ [mem (offset + n)] := by
  unfold bytesAt
  rw [List.range_succ, List.map_append]
  rfl

theorem cString_replicate {xs : List UInt8} (h : 0 ∉ xs) (n : Nat) :
    cString (xs ++ List.replicate n 0) = xs := by
  have hzeros : cString (List.replicate n 0) = [] := by
    cases n <;> simp [cString, List.replicate_succ]
  rw [cString_append_of_not_mem h, hzeros, List.append_nil]

theorem Encodes.short (h : Encodes image android)
    (hshort : android.line.length < bootArgsSize - 1) :
    headerCmdline image =
      android.line ++ List.replicate (bootArgsSize - 1 - android.line.length) 0 := by
  have hle : bootArgsSize - 1 - android.line.length ≤ bootArgsSize - android.line.length :=
    Nat.sub_le_sub_right (Nat.sub_le _ _) _
  rw [h.fields.1, padTo, List.take_of_length_le hshort.le, List.take_append,
    List.take_of_length_le hshort.le, List.take_replicate, Nat.min_eq_left hle]

theorem Encodes.long (h : Encodes image android)
    (hlong : bootArgsSize - 1 ≤ android.line.length) :
    headerCmdline image ++ headerExtraCmdline image =
      android.line ++ List.replicate
        (bootExtraArgsSize - (android.line.length - (bootArgsSize - 1))) 0 := by
  have hlength : (android.line.take (bootArgsSize - 1)).length = bootArgsSize - 1 := by
    rw [List.length_take, Nat.min_eq_left hlong]
  rw [h.fields.1, h.fields.2, padTo, padTo, List.take_append_of_le_length hlength.ge,
    List.take_of_length_le hlength.le, ← List.append_assoc, List.take_append_drop,
    List.length_drop]

theorem Encodes.lastChar (h : Encodes image android) :
    image (cmdlineOffset + bootArgsSize - 2) = 0 <->
      android.line.length < bootArgsSize - 1 := by
  have hlast : headerCmdline image = bytesAt image cmdlineOffset (bootArgsSize - 2) ++
      [image (cmdlineOffset + bootArgsSize - 2)] :=
    bytesAt_succ image cmdlineOffset (bootArgsSize - 2)
  constructor
  · intro hzero
    refine Nat.lt_of_not_le fun hlong => android.line_clean ?_
    have hmem : (0 : UInt8) ∈ headerCmdline image := by
      rw [hlast, hzero]
      simp
    rw [h.fields.1, padTo, List.take_append_of_le_length (by rw [List.length_take]; omega)] at hmem
    exact List.mem_of_mem_take (List.mem_of_mem_take hmem)
  · intro hshort
    have hend : (headerCmdline image).getLast? = some 0 := by
      have hpos : bootArgsSize - 1 - android.line.length ≠ 0 := by omega
      rw [h.short hshort, List.getLast?_append_of_ne_nil _ (by simpa using hpos),
        List.getLast?_replicate, if_neg hpos]
    rw [hlast, List.getLast?_concat] at hend
    exact Option.some.inj hend

theorem Encodes.headerLine_eq (h : Encodes image android) : headerLine image = android.line := by
  unfold headerLine
  split
  · rename_i hzero
    rw [List.append_nil, h.short (h.lastChar.mp hzero)]
    exact cString_replicate android.line_clean _
  · rename_i hfull
    rw [h.long (Nat.le_of_not_lt fun hshort => hfull (h.lastChar.mpr hshort))]
    exact cString_replicate android.line_clean _

theorem Encodes.endsInHeader (h : Encodes image android) : EndsInHeader image := by
  rcases Nat.lt_or_ge android.line.length (bootArgsSize - 1) with hshort | hlong
  · refine Or.inl ?_
    rw [h.short hshort]
    exact List.mem_append_right _ (List.mem_replicate.mpr ⟨by omega, rfl⟩)
  · refine Or.inr ?_
    have hline := android.line_lt
    rw [h.fields.2, padTo, List.length_drop]
    exact List.mem_append_right _ (List.mem_replicate.mpr ⟨by omega, rfl⟩)

/-!
# The kernel
-/

end Reads

namespace AndroidImage

variable (android : AndroidImage)

/-- The length of the boot sector and the setup sectors, by the kernel's own header. -/
def setupLength : Nat :=
  setupSize (memOf android.kernel) 0

/-- What the kernel asks for to be run in. -/
def initSize : Nat :=
  le32 (memOf android.kernel) SetupHeader.initSize

/-- The kernel has setup sectors, and the rest of it fits where it is to be run. -/
structure HasSetup : Prop where
  sectors : 1024 ≤ android.setupLength
  inside : android.setupLength ≤ android.kernel.length
  room : android.kernel.length - android.setupLength ≤ 4096 * sizeToPages android.initSize

end AndroidImage

section Kernel

variable {image : Mem} {android : AndroidImage}

theorem Encodes.setupSize_eq (h : Encodes image android) (hsetup : android.HasSetup) :
    setupSize image (aospHeader image).pageSize = android.setupLength := by
  have hlength := hsetup.sectors.trans hsetup.inside
  unfold AndroidImage.setupLength setupSize byteAt SetupHeader.setupSects
  rw [h.headerOf.pageSize, h.kernel.eq_memOf (by omega), Nat.zero_add]

theorem Encodes.kernelCopySize_eq (h : Encodes image android) (hsetup : android.HasSetup) :
    kernelCopySize image (aospHeader image).pageSize =
      android.kernel.length - android.setupLength := by
  have hinside := hsetup.inside
  have hlt := (aospHeader image).kernelSize_lt
  unfold kernelCopySize
  rw [h.setupSize_eq hsetup, h.headerOf.kernelSize] at *
  unfold u32
  omega

theorem Encodes.initSize_eq (h : Encodes image android) (hsetup : android.HasSetup) :
    le32 image ((aospHeader image).pageSize + SetupHeader.initSize) = android.initSize := by
  have hlength := hsetup.sectors.trans hsetup.inside
  unfold AndroidImage.initSize
  apply le32_shift
  intro i hi
  unfold SetupHeader.initSize
  rw [h.headerOf.pageSize, Nat.add_assoc, h.kernel.eq_memOf (by omega)]

theorem not_assigned_of_le {buf x : Nat} (h : buf + 1024 ≤ x) : ¬ Assigned buf x := by
  unfold Assigned SetupHeader.typeOfLoader SetupHeader.ramdiskImage SetupHeader.ramdiskSize
    SetupHeader.cmdLinePtr SetupHeader.initrdAddrMax SetupHeader.cmdlineSize
  omega

theorem assigned_add (buf i : Nat) : Assigned buf (buf + i) <-> Assigned 0 i := by
  unfold Assigned
  omega

end Kernel

/-!
# What is started
-/

/-- The kernel's own line, and what the boot adds to it. -/
def AndroidImage.fullLine (android : AndroidImage) (append : Option (List UInt8)) :
    List UInt8 :=
  match append with
  | none => android.line
  | some extra => android.line ++ 0x20 :: extra

/-- The image is in memory the way a kernel finds it: in its three parts. -/
structure AndroidImage.StartedIn (android : AndroidImage) (line : List UInt8)
    (kernelStart bootAddr : Nat) (m : Mem) : Prop where
  kernel : Shows m kernelStart (android.kernel.drop android.setupLength)
  setup : forall i, SetupHeader.setupSects ≤ i -> i < BootParams.e820Map -> ¬ Assigned 0 i ->
    ¬ (SetupHeader.code32Start ≤ i ∧ i < SetupHeader.code32Start + 4) ->
    m (bootAddr + i) = memOf android.kernel i
  ramdiskSize : le32 m (bootAddr + SetupHeader.ramdiskSize) = android.ramdisk.length
  ramdisk : Shows m (le32 m (bootAddr + SetupHeader.ramdiskImage)) android.ramdisk
  lineSize : le32 m (bootAddr + SetupHeader.cmdlineSize) = line.length + 1
  line : Shows m (le32 m (bootAddr + SetupHeader.cmdLinePtr)) (line ++ [0])

theorem memOf_concat_zero (xs : List UInt8) : memOf (xs ++ [0]) = memOf xs := by
  funext i
  unfold memOf
  simp only [List.getD_eq_getElem?_getD]
  rcases Nat.lt_trichotomy i xs.length with hlt | rfl | hgt
  · rw [List.getElem?_append_left hlt]
  · simp
  · rw [List.getElem?_eq_none (by rw [List.length_append]; exact hgt),
      List.getElem?_eq_none hgt.le]

section Started

variable {gop : Option GopMode} {imageBase : Nat} {image : Mem} {android : AndroidImage}
  {h : Handoff} {used : Finset Nat} {before m : Mem} {append : Option (List UInt8)}

theorem Encodes.kernelSource_eq (hencodes : Encodes image android) (hsetup : android.HasSetup) :
    kernelSource image = android.pageSize + android.setupLength := by
  unfold kernelSource
  rw [hencodes.setupSize_eq hsetup, hencodes.headerOf.pageSize]

theorem Handoff.Boots.startedIn (hboots : h.Boots gop imageBase image used before m)
    (hencodes : Encodes image android) (hsetup : android.HasSetup) (hbase : h.lineBase ≠ 0)
    (hline : h.line = android.fullLine append) :
    android.StartedIn (android.fullLine append) h.kernelStart h.bootAddr m := by
  have hheader := hencodes.headerOf
  have hlength := hsetup.sectors.trans hsetup.inside
  have hsectors := hsetup.sectors
  have hinside := hsetup.inside
  exact {
    kernel := by
      refine (hencodes.kernel.drop hsetup.inside).of_eq ?_
      intro i hi
      rw [List.length_drop] at hi
      rw [← hencodes.kernelSource_eq hsetup]
      apply hboots.kernel i (by rwa [hencodes.kernelCopySize_eq hsetup])
      rw [hencodes.kernelSource_eq hsetup, hheader.pageSize]
      exact not_assigned_of_le (by omega)
    setup := by
      intro i hlow hhigh hfree hstart
      have hmap : ¬ h.MapCovers i := by
        unfold SetupHeader.setupSects at hlow
        unfold BootParams.e820Map at hhigh
        unfold Handoff.MapCovers BootParams.efiInfo BootParams.e820Entries BootParams.e820Map
        omega
      unfold BootParams.e820Map at hhigh
      rw [hboots.sectors i (by omega) hstart hmap (by rwa [assigned_add]), hheader.pageSize]
      exact hencodes.kernel.eq_memOf (by omega)
    ramdiskSize := by
      rw [hboots.ramdiskSize, hheader.ramdiskSize]
    ramdisk := by
      rw [hboots.ramdiskPtr]
      refine hencodes.ramdisk.of_eq ?_
      intro i hi
      rw [← hencodes.ramdiskOffset]
      apply hboots.ramdisk i (by rwa [hheader.ramdiskSize])
      have hpages : android.kernel.length ≤ android.pages android.kernel * android.pageSize :=
        le_blockCount_mul android.pageSize_pos _
      rw [hencodes.ramdiskOffset, hheader.pageSize, Nat.add_mul, Nat.one_mul]
      exact not_assigned_of_le (by omega)
    lineSize := by
      rw [hboots.lineSize hbase, hline]
    line := by
      rw [hboots.linePtr hbase]
      intro i hi
      rw [List.length_append, List.length_singleton, ← hline] at hi
      rw [hboots.line hbase i (Nat.le_of_lt_succ hi), hline, ← memOf_concat_zero,
        ← shows_memOf _ i (by simpa [hline] using hi), Nat.zero_add] }

theorem Encodes.expectedLine_eq (hencodes : Encodes image android) :
    expectedLine append image = android.fullLine append := by
  cases append with
  | none => exact hencodes.headerLine_eq
  | some extra =>
      unfold expectedLine AndroidImage.fullLine
      rw [hencodes.headerLine_eq]

end Started

/-!
# A start of the partition
-/

section Partition

variable {env : PartitionEnv} {android : AndroidImage} {append : Option (List UInt8)}
  {hooks : Option BootimgHooks} {pool : Mem} {used : Finset Nat} {kernelStart bootAddr : Nat}
  {t : LoadState}

theorem loadedImage_encodes (hdisk : Shows env.disk 0 android.encode) (pool : Mem) :
    Encodes (env.loadedImage pool) android := by
  have hsize : env.imgSize = android.encode.length :=
    (encodes_of_shows hdisk).bootimageSize env.load.arch
  refine encodes_of_shows (hdisk.of_eq ?_)
  intro i hi
  unfold PartitionEnv.loadedImage
  rw [ByteWrite.apply, if_pos (by rw [hsize]; exact ⟨Nat.zero_le _, by simpa using hi⟩)]
  rfl

/-- The start has handed over the image, and holds the pages it is in. -/
def AndroidImage.Started (android : AndroidImage) (env : PartitionEnv) (pool : Mem)
    (append : Option (List UInt8)) (used : Finset Nat) (kernelStart bootAddr : Nat)
    (t : LoadState) : Prop :=
  exists h : Handoff, h.kernelStart = kernelStart ∧ h.bootAddr = bootAddr ∧
    h.Taken env.load (env.loadedImage pool) used t ∧
    (h.lineBase ≠ 0 -> h.MapFits -> forall imageBase,
      HeaderInUse imageBase (env.loadedImage pool) used -> forall info before,
        android.StartedIn (android.fullLine append) kernelStart bootAddr
          (h.memory imageBase env.load.gop (env.loadedImage pool) t.log info before))

theorem Encodes.started (hencodes : Encodes (env.loadedImage pool) android)
    (hsetup : android.HasSetup) (happend : forall extra, append = some extra -> 0 ∉ extra)
    (hreach : kernelStart < 2 ^ env.load.arch.uintnBits)
    (hbuffer : startBuffer env.load append hooks (env.loadedState pool used) =
      (LoadEnd.jumped kernelStart bootAddr, t)) :
    android.Started env pool append used kernelStart bootAddr t := by
  rcases startBuffer_taken (by rfl) (by rfl) hbuffer with ⟨h, rfl, rfl, hheld⟩
  have htaken : h.Taken env.load (env.loadedImage pool) used t := hheld
  refine ⟨h, rfl, rfl, htaken, ?_⟩
  intro hbase hfits imageBase hinUse info before
  have hroom : kernelCopySize (env.loadedImage pool)
      (aospHeader (env.loadedImage pool)).pageSize ≤
        4096 * sizeToPages (le32 (env.loadedImage pool)
          ((aospHeader (env.loadedImage pool)).pageSize + SetupHeader.initSize)) := by
    rw [hencodes.kernelCopySize_eq hsetup, hencodes.initSize_eq hsetup]
    exact hsetup.room
  have hline := startBuffer_line (s := env.loadedState pool used) rfl happend
    hencodes.endsInHeader hbuffer (htaken.line hbase).1
  exact (htaken.boots hroom hreach hfits hinUse info before).startedIn hencodes hsetup hbase
    (hline.trans hencodes.expectedLine_eq)

end Partition

/--
If the encoded image is on the boot partition and a start of the partition jumps,
the kernel that runs is the one of the image, and finds the ramdisk and the line
of the image, followed by what the boot has added to it.
-/
theorem startPartition_starts {env : PartitionEnv} {append : Option (List UInt8)}
    {hooks : Option BootimgHooks} {used : Finset Nat} {kernelStart bootAddr : Nat}
    {t : LoadState} {android : AndroidImage} (hdisk : Shows env.disk 0 android.encode)
    (hsetup : android.HasSetup) (happend : forall extra, append = some extra -> 0 ∉ extra)
    (hreach : kernelStart < 2 ^ env.load.arch.uintnBits)
    (hrun : startPartition env append hooks used = (LoadEnd.jumped kernelStart bootAddr, t)) :
    exists pool, env.imagePool = some pool ∧
      android.Started env pool append used kernelStart bootAddr t := by
  rcases startBuffer_of_startPartition hrun with ⟨pool, hpool, hbuffer⟩
  exact ⟨pool, hpool, (loadedImage_encodes hdisk pool).started hsetup happend hreach hbuffer⟩

def setupKernel : List UInt8 :=
  bytesAt ([(0x1f1, 1, 1), (0x1fe, 2, 0xAA55), (0x202, 4, setupHdr), (0x22c, 4, 0x7fffffff),
    (0x230, 4, 0x1000), (0x234, 1, 1), (0x258, 8, 0x200000), (0x260, 4, 0x1000),
    (0x400, 4, 0xf4f4f4f4)].foldl
      (fun image field => store field.2.1 field.1 field.2.2 image) fun _ => 0) 0 0x404

def quietImage : AndroidImage where
  pageSize := 2048
  kernel := setupKernel
  ramdisk := [1, 2, 3]
  second := []
  signature := []
  line := ascii "quiet"
  addresses := fun _ => 0
  name := List.replicate 16 0
  id := List.replicate 32 0
  header_le := by decide
  name_length := by decide
  id_length := by decide
  line_clean := by decide
  line_lt := by decide
  size_lt := by decide +kernel

/-- A start of a partition with that image, which is read to 64 KiB. -/
def quietStart : LoadEnd × LoadState :=
  startPartition (smallPartition (memOf quietImage.encode)) (some (ascii "ro")) none {0x10}

theorem quietStart_ends :
    quietStart.1 = LoadEnd.jumped 0x200000 0x3000000 ∧
      quietStart.2.calls.head? = some (PageCall.allocate { base := 0x8000, count := 1 }) := by
  decide +kernel

theorem quietStart_jumps :
    startPartition (smallPartition (memOf quietImage.encode)) (some (ascii "ro")) none {0x10} =
      (LoadEnd.jumped 0x200000 0x3000000, quietStart.2) := by
  show quietStart = _
  rw [← quietStart_ends.1]

theorem quietImage_inUse : HeaderInUse 0x10000
    ((smallPartition (memOf quietImage.encode)).loadedImage fun _ => 0) {0x10} := by
  have hencodes : Encodes
      ((smallPartition (memOf quietImage.encode)).loadedImage fun _ => 0) quietImage :=
    loadedImage_encodes (shows_memOf quietImage.encode) fun _ => 0
  have hpage := hencodes.headerOf.pageSize
  apply headerInUse_of_page
  · rw [hpage]
    decide
  · rw [hpage]
    decide

theorem quietStart_startedIn
    (h : quietImage.Started (smallPartition (memOf quietImage.encode)) (fun _ => 0)
      (some (ascii "ro")) {0x10} 0x200000 0x3000000 quietStart.2) :
    exists m, quietImage.StartedIn (ascii "quiet ro") 0x200000 0x3000000 m := by
  rcases h with ⟨h, -, -, htaken, hstarted⟩
  have hfirst := quietStart_ends.2
  rw [htaken.calls] at hfirst
  have hbase : h.lineBase = 0x8000 :=
    congrArg PageRun.base (PageCall.allocate.inj (Option.some.inj hfirst))
  exact ⟨_, hstarted (by rw [hbase]; decide) (htaken.mapFits_of_small rfl) 0x10000
    quietImage_inUse (fun _ => 0) fun _ => 0⟩

theorem quietImage_hasSetup : quietImage.HasSetup :=
  ⟨by decide +kernel, by decide +kernel, by decide +kernel⟩

theorem startPartition_starts_quietImage :
    exists m, quietImage.StartedIn (ascii "quiet ro") 0x200000 0x3000000 m := by
  have happend : forall extra, some (ascii "ro") = some extra -> 0 ∉ extra := by
    rintro _ ⟨⟩
    decide
  rcases startPartition_starts (shows_memOf quietImage.encode) quietImage_hasSetup happend
    (by decide) quietStart_jumps with ⟨pool, hpool, hstarted⟩
  cases hpool
  exact quietStart_startedIn hstarted

end BootImage
end BootableUefi
