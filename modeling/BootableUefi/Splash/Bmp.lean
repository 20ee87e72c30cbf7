import BootableUefi.Firmware.Status
import BootableUefi.Foundation.Bytes
import BootableUefi.Foundation.Tiles

/-!
# From a BMP image to pixels

`ConvertBmpToGopBlt` checks the header of an image, obtains a buffer for the
pixels, and goes through the rows of the image, which are stored from the bottom
up.  In a row it takes one byte, or three, at a time, for as many pixels as there
are in it.
-/

namespace BootableUefi
namespace Splash

open Firmware Foundation

structure BmpHeader where
  charB : UInt8
  charM : UInt8
  size : Nat
  imageOffset : Nat
  headerSize : Nat
  pixelWidth : Nat
  pixelHeight : Nat
  bitPerPixel : Nat
  compressionType : Nat
  deriving DecidableEq, Repr

def bmpHeader (bmp : Mem) : BmpHeader where
  charB := bmp 0
  charM := bmp 1
  size := le32 bmp 2
  imageOffset := le32 bmp 10
  headerSize := le32 bmp 14
  pixelWidth := le32 bmp 18
  pixelHeight := le32 bmp 22
  bitPerPixel := le16 bmp 28
  compressionType := le32 bmp 30

/-- `sizeof (BMP_IMAGE_HEADER)`, and `offsetof (BMP_IMAGE_HEADER, HeaderSize)`. -/
def bmpHeaderSize : Nat :=
  54

def headerSizeOffset : Nat :=
  14

/-- An entry of the colour map, or a pixel. -/
def colorSize : Nat :=
  4

/-- The bytes of each line, up to a multiple of 4; the arithmetic is in 32 bits. -/
def BmpHeader.dataSizePerLine (h : BmpHeader) : Nat :=
  u32 (u32 (h.pixelWidth * h.bitPerPixel) + 31) >>> 3 &&& 2 ^ 32 - 2 ^ 2

def colorMapNum (bitPerPixel : Nat) : Nat :=
  match bitPerPixel with
  | 1 => 2
  | 4 => 16
  | 8 => 256
  | _ => 0

/-- The checks before a buffer is obtained: the error, if there is one. -/
def BmpHeader.check (arch : Arch) (bmpImageSize : Nat) (h : BmpHeader) : Option EfiStatus :=
  if h.charB ≠ 0x42 ∨ h.charM ≠ 0x4d then
    some EfiStatus.unsupported
  else if h.compressionType ≠ 0 then
    some EfiStatus.unsupported
  else if h.headerSize ≠ bmpHeaderSize - headerSizeOffset then
    some EfiStatus.unsupported
  else if h.dataSizePerLine * h.pixelHeight > 2 ^ 32 - 1 then
    some EfiStatus.invalidParameter
  else if h.size ≠ bmpImageSize ∨ h.size < h.imageOffset ∨
      h.size - h.imageOffset ≠ u32 (h.pixelHeight * h.dataSizePerLine) then
    some EfiStatus.invalidParameter
  else if h.imageOffset < bmpHeaderSize then
    some EfiStatus.invalidParameter
  else if h.imageOffset > bmpHeaderSize ∧
      h.imageOffset - bmpHeaderSize ≠ colorSize * colorMapNum h.bitPerPixel then
    some EfiStatus.invalidParameter
  else if h.pixelWidth * h.pixelHeight > (2 ^ arch.uintnBits - 1) / colorSize then
    some EfiStatus.unsupported
  else
    none

structure BltPixel where
  blue : UInt8
  green : UInt8
  red : UInt8
  reserved : UInt8
  deriving DecidableEq, Repr

structure Canvas where
  pixels : Nat -> BltPixel
  reads : List Nat
  writes : List Nat

/-- The three colours of a pixel are stored; what is reserved stays. -/
def Canvas.put (place : Nat) (blue green red : UInt8) (reads : List Nat) (c : Canvas) : Canvas where
  pixels := Function.update c.pixels place
    { blue := blue, green := green, red := red, reserved := (c.pixels place).reserved }
  reads := c.reads ++ reads
  writes := c.writes ++ [place]

def colorMapAt (index : Nat) : Nat :=
  bmpHeaderSize + colorSize * index

def Canvas.putMapped (bmp : Mem) (image place index : Nat) (c : Canvas) : Canvas :=
  c.put place (bmp (colorMapAt index)) (bmp (colorMapAt index + 1)) (bmp (colorMapAt index + 2))
    [image, colorMapAt index + 2, colorMapAt index + 1, colorMapAt index]

/-- The pointers `Image` and `Blt`, as an offset and as the number of a pixel. -/
structure ConvertState where
  image : Nat
  blt : Nat
  canvas : Canvas

/-- The loop over the bits of a byte, with so many of them left; gives `Width` too. -/
def convertBits (bmp : Mem) (pixelWidth : Nat) : Nat -> Nat -> ConvertState -> Nat × ConvertState
  | 0, width, s => (width, s)
  | left + 1, width, s =>
      if width < pixelWidth then
        let index := (bmp s.image).toNat >>> left &&& 0x1
        convertBits bmp pixelWidth left (width + 1)
          { s with blt := s.blt + 1, canvas := s.canvas.putMapped bmp s.image s.blt index }
      else
        (width, s)

/-- The `switch` in the loop over a row; `none` for another number of bits. -/
def convertPixels (bmp : Mem) (h : BmpHeader) (width : Nat) (s : ConvertState) :
    Option (Nat × ConvertState) :=
  let byte := (bmp s.image).toNat
  match h.bitPerPixel with
  | 1 =>
      let (width, s) := convertBits bmp h.pixelWidth 8 width s
      some (width - 1, { s with blt := s.blt - 1 })
  | 4 =>
      let s := { s with canvas := s.canvas.putMapped bmp s.image s.blt (byte >>> 4) }
      if width < h.pixelWidth - 1 then
        some (width + 1, { s with
          blt := s.blt + 1
          canvas := s.canvas.putMapped bmp s.image (s.blt + 1) (byte &&& 0x0f) })
      else
        some (width, s)
  | 8 => some (width, { s with canvas := s.canvas.putMapped bmp s.image s.blt byte })
  | 24 =>
      some (width, { s with
        image := s.image + 2
        canvas := s.canvas.put s.blt (bmp s.image) (bmp (s.image + 1)) (bmp (s.image + 2))
          [s.image, s.image + 1, s.image + 2] })
  | _ => none

/-- The loop over a row; `none` when it is still running after so many turns. -/
def convertLine (bmp : Mem) (h : BmpHeader) :
    Nat -> Nat -> ConvertState -> Option (EfiStatus × ConvertState)
  | 0, width, s => if width < h.pixelWidth then none else some (EfiStatus.success, s)
  | turns + 1, width, s =>
      if width < h.pixelWidth then
        match convertPixels bmp h width s with
        | none => some (EfiStatus.unsupported, s)
        | some (width, s) =>
            convertLine bmp h turns (width + 1)
              { s with image := s.image + 1, blt := s.blt + 1 }
      else
        some (EfiStatus.success, s)

def ConvertState.padLine (imageHeader : Nat) (s : ConvertState) : ConvertState :=
  let imageIndex := s.image - imageHeader
  if imageIndex % 4 ≠ 0 then { s with image := s.image + (4 - imageIndex % 4) } else s

def convertRows (arch : Arch) (bmp : Mem) (h : BmpHeader) :
    Nat -> Nat -> ConvertState -> Option (EfiStatus × ConvertState)
  | 0, height, s => if height < h.pixelHeight then none else some (EfiStatus.success, s)
  | turns + 1, height, s =>
      if height < h.pixelHeight then
        let s := { s with
          blt := arch.uintn ((h.pixelHeight - height - 1) * h.pixelWidth) }
        match convertLine bmp h h.pixelWidth 0 s with
        | none => none
        | some (status, s) =>
            if efiError status then
              some (status, s)
            else
              convertRows arch bmp h turns (height + 1) (s.padLine h.imageOffset)
      else
        some (EfiStatus.success, s)

structure BltEnv where
  arch : Arch
  /-- Whether `*GopBlt` is not NULL, and `*GopBltSize`. -/
  gopBlt : Bool
  gopBltSize : Nat
  allocatePool : Bool
  pixels : Nat -> BltPixel

/-- The status, whether there is a buffer, `*GopBltSize`, and what has been done. -/
structure BltEnd where
  status : EfiStatus
  gopBlt : Bool
  gopBltSize : Nat
  canvas : Canvas

def BltEnv.canvas (env : BltEnv) (reads : List Nat) : Canvas where
  pixels := env.pixels
  reads := reads
  writes := []

def BltEnv.obtainBlt (env : BltEnv) (bltBufferSize : Nat) : Option EfiStatus :=
  if env.gopBlt then
    if env.gopBltSize < bltBufferSize then some EfiStatus.bufferTooSmall else none
  else if env.allocatePool then
    none
  else
    some EfiStatus.outOfResources

def BltEnv.sizeAfter (env : BltEnv) (bltBufferSize : Nat) : Nat :=
  if env.gopBlt && bltBufferSize ≤ env.gopBltSize then env.gopBltSize else bltBufferSize

def BltEnv.start (env : BltEnv) (h : BmpHeader) : ConvertState where
  image := h.imageOffset
  blt := 0
  canvas := env.canvas (List.range bmpHeaderSize)

def BltEnv.finish (env : BltEnv) (bltBufferSize : Nat) (status : EfiStatus)
    (s : ConvertState) : BltEnd where
  status := status
  gopBlt := env.gopBlt || !efiError status
  gopBltSize := env.sizeAfter bltBufferSize
  canvas := s.canvas

/-- `ConvertBmpToGopBlt`; what `*PixelHeight` and `*PixelWidth` become stands in the header. -/
def convertBmpToGopBlt (env : BltEnv) (bmp : Mem) (bmpImageSize : Nat) : Option BltEnd :=
  if bmpHeaderSize > bmpImageSize then
    some
      { status := EfiStatus.invalidParameter, gopBlt := env.gopBlt,
        gopBltSize := env.gopBltSize, canvas := env.canvas [] }
  else
    let h := bmpHeader bmp
    let canvas := env.canvas (List.range bmpHeaderSize)
    match h.check env.arch bmpImageSize with
    | some status =>
        some
          { status := status, gopBlt := env.gopBlt, gopBltSize := env.gopBltSize,
            canvas := canvas }
    | none =>
        let bltBufferSize := h.pixelWidth * h.pixelHeight * colorSize
        match env.obtainBlt bltBufferSize with
        | some status =>
            some
              { status := status, gopBlt := env.gopBlt,
                gopBltSize := env.sizeAfter bltBufferSize, canvas := canvas }
        | none =>
            (convertRows env.arch bmp h h.pixelHeight 0 (env.start h)).map fun (status, s) =>
              env.finish bltBufferSize status s

end Splash
end BootableUefi
