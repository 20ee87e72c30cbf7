import Mathlib.Algebra.Order.Group.Nat
import BootableUefi.Firmware.Status
import BootableUefi.Foundation.Pieces

/-!
# The layout of a boot image

`struct boot_img_hdr` and the setup header of the kernel, read from an image in
memory, and the sizes that are computed from them.  Offsets into the image are
not reduced: the address space is taken to be larger than the image.
-/

namespace BootableUefi
namespace BootImage

open Firmware Foundation

/-- The fields of `struct boot_img_hdr` the loader computes with. -/
structure BootImgHdr where
  kernelSize : Nat
  ramdiskSize : Nat
  secondSize : Nat
  pageSize : Nat
  sigSize : Nat
  kernelSize_lt : kernelSize < 2 ^ 32
  ramdiskSize_lt : ramdiskSize < 2 ^ 32
  secondSize_lt : secondSize < 2 ^ 32
  pageSize_lt : pageSize < 2 ^ 32
  sigSize_lt : sigSize < 2 ^ 32

def bootMagic : List UInt8 :=
  [0x41, 0x4e, 0x44, 0x52, 0x4f, 0x49, 0x44, 0x21]

def bytesAt (mem : Mem) (offset size : Nat) : List UInt8 :=
  (List.range size).map fun i => mem (offset + i)

/-- `aosp_header = (struct boot_img_hdr *)bootimage`. -/
def aospHeader (image : Mem) : BootImgHdr where
  kernelSize := le32 image 8
  ramdiskSize := le32 image 16
  secondSize := le32 image 24
  pageSize := le32 image 36
  sigSize := le32 image 40
  kernelSize_lt := le32_lt image 8
  ramdiskSize_lt := le32_lt image 16
  secondSize_lt := le32_lt image 24
  pageSize_lt := le32_lt image 36
  sigSize_lt := le32_lt image 40

def bootArgsSize : Nat :=
  512

def bootExtraArgsSize : Nat :=
  1024

def cmdlineOffset : Nat :=
  64

def extraCmdlineOffset : Nat :=
  608

namespace BootImgHdr

variable (hdr : BootImgHdr)

/-- `pages`; the callers divide by `page_size` only when it is not zero. -/
def pages (blobSize : Nat) : Nat :=
  u32 (blobSize + hdr.pageSize + (2 ^ 32 - 1)) / hdr.pageSize

/-- The size without the signature: `UINT32` arithmetic before the assignment to `size`. -/
def signedSize : Nat :=
  u32 ((1 + hdr.pages hdr.kernelSize + hdr.pages hdr.ramdiskSize + hdr.pages hdr.secondSize) *
    hdr.pageSize)

def bootimageSize (arch : Arch) (includeSig : Bool) : Nat :=
  if includeSig then
    arch.uintn (hdr.signedSize + u32 (hdr.pages hdr.sigSize * hdr.pageSize))
  else
    hdr.signedSize

/-- `roffset` in `setup_ramdisk`. -/
def ramdiskOffset : Nat :=
  u32 ((1 + hdr.pages hdr.kernelSize) * hdr.pageSize)

end BootImgHdr

/-!
# The setup header

The kernel starts one flash page into the image, at the offset the functions
call `buf`, and its first sector holds the setup header; each field is given by
its offset in that sector.
-/

namespace SetupHeader

def setupSects : Nat := 0x1f1
def bootFlag : Nat := 0x1fe
def header : Nat := 0x202
def typeOfLoader : Nat := 0x210
def ramdiskImage : Nat := 0x218
def ramdiskSize : Nat := 0x21c
def cmdLinePtr : Nat := 0x228
def initrdAddrMax : Nat := 0x22c
def kernelAlignment : Nat := 0x230
def relocatableKernel : Nat := 0x234
def cmdlineSize : Nat := 0x238
def prefAddress : Nat := 0x258
def initSize : Nat := 0x260

end SetupHeader

def byteAt (mem : Mem) (offset : Nat) : Nat :=
  (mem offset).toNat

/-- `setup_size`: `setup_sectors` is a `UINT8` and counts the boot sector as well. -/
def setupSize (image : Mem) (buf : Nat) : Nat :=
  u8 (byteAt image (buf + SetupHeader.setupSects) + 1) * 512

/-- `ksize` in `handover_kernel`. -/
def kernelCopySize (image : Mem) (buf : Nat) : Nat :=
  u32 ((aospHeader image).kernelSize + 2 ^ 32 - setupSize image buf)

/-- A store of the low bytes of a word, from an offset on. -/
def store (size offset value : Nat) (image : Mem) : Mem :=
  ByteWrite.apply { offset := offset, size := size, data := byteOf value } image

section Stores

variable {image : Mem} {size offset value : Nat}

theorem store_of_disjoint {x : Nat} (h : x < offset ∨ offset + size ≤ x) :
    store size offset value image x = image x :=
  ByteWrite.apply_of_not_mem h

theorem le32_store_of_disjoint {x : Nat} (h : x + 4 ≤ offset ∨ offset + size ≤ x) :
    le32 (store size offset value image) x = le32 image x := by
  apply le32_congr
  intro i hi
  apply store_of_disjoint
  omega

theorem le32_store (h : value < 2 ^ 32) :
    le32 (store 4 offset value image) offset = value := by
  have hbyte : forall i, i < 4 ->
      (store 4 offset value image (offset + i)).toNat = value / 2 ^ (8 * i) % 256 := by
    intro i hi
    have hbyte : store 4 offset value image (offset + i) = byteOf value i :=
      ByteWrite.apply_of_mem hi
    rw [hbyte]
    simp [byteOf]
  have h0 := hbyte 0 (by decide)
  have h1 := hbyte 1 (by decide)
  have h2 := hbyte 2 (by decide)
  have h3 := hbyte 3 (by decide)
  rw [Nat.add_zero] at h0
  unfold le32 le16
  rw [h0, h1, h2, show offset + 2 + 1 = offset + 3 from rfl, h3]
  omega

end Stores

end BootImage
end BootableUefi
