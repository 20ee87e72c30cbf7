import BootableUefi.Foundation.Digits
import BootableUefi.Foundation.Layout
import BootableUefi.Splash.Pixels

/-!
# From a picture to the screen

A picture is encoded as a BMP image with the number of bits to a pixel that it
is given in.  `uefi_display_splash` converts an image and shows it in the middle
of an empty screen; what it shows of an encoded picture is the picture.
-/

namespace BootableUefi
namespace Splash

open Firmware Foundation

/-!
# Pictures
-/

/-- A picture by entries of a colour map, or by colours when it has 24 bits to a pixel. -/
structure Picture where
  bits : Nat
  width : Nat
  height : Nat
  colorMap : List Color
  /-- In row `y` from the top, and column `x`. -/
  value : Nat -> Nat -> Nat
  supported : Supported bits
  width_pos : 0 < width
  height_pos : 0 < height
  colorMap_length : colorMap.length = colorMapNum bits
  value_lt : forall x y, value x y < 2 ^ bits
  line_lt : width * bits + 31 < 2 ^ 32
  pixels_lt : width * height * colorSize < 2 ^ 32
  size_lt : bmpHeaderSize + colorSize * colorMapNum bits + height * stride bits width < 2 ^ 32

namespace Picture

variable (p : Picture)

def color (x y : Nat) : Color :=
  if p.bits = 24 then
    (byteOf (p.value x y) 0, byteOf (p.value x y) 1, byteOf (p.value x y) 2)
  else
    p.colorMap.getD (p.value x y) (0, 0, 0)

/-- The pixels that share byte `j` of a row, the leftmost one in the highest bits. -/
def packed (y j : Nat) : Nat :=
  denotes (2 ^ p.bits) ((List.range (8 / p.bits)).map fun k => p.value (j * (8 / p.bits) + k) y)

def line (y : Nat) : List UInt8 :=
  if p.bits = 24 then
    (List.range p.width).flatMap fun x => leBytes 3 (p.value x y)
  else
    (List.range (lineBytes p.bits p.width)).map fun j => UInt8.ofNat (p.packed y j)

def paddedLine (y : Nat) : List UInt8 :=
  p.line y ++ List.replicate (stride p.bits p.width - lineBytes p.bits p.width) 0

def imageOffset : Nat :=
  bmpHeaderSize + colorSize * colorMapNum p.bits

def imageSize : Nat :=
  p.height * stride p.bits p.width

/-- `BMP_IMAGE_HEADER`, one plane and no compression. -/
def header : List UInt8 :=
  leBytes 2 0x4d42 ++ leBytes 4 (p.imageOffset + p.imageSize) ++ leBytes 4 0 ++
    leBytes 4 p.imageOffset ++ leBytes 4 (bmpHeaderSize - headerSizeOffset) ++
    leBytes 4 p.width ++ leBytes 4 p.height ++ leBytes 2 1 ++ leBytes 2 p.bits ++
    leBytes 4 0 ++ leBytes 4 p.imageSize ++ leBytes 16 0

def mapEntry (color : Color) : List UInt8 :=
  [color.1, color.2.1, color.2.2, 0]

/-- The header, the colour map, and the rows from the bottom up. -/
def encode : List UInt8 :=
  p.header ++ (p.colorMap.flatMap mapEntry ++
    (List.range p.height).flatMap fun row => p.paddedLine (p.height - 1 - row))

theorem length_line (y : Nat) : (p.line y).length = lineBytes p.bits p.width := by
  unfold line
  split
  · rename_i hbits
    rw [hbits, length_flatMap_of_width fun _ _ => length_leBytes 3 _, List.length_range]
    unfold lineBytes
    omega
  · simp

theorem length_paddedLine (y : Nat) :
    (p.paddedLine y).length = stride p.bits p.width := by
  have hle := lineBytes_le_stride p.bits p.width
  rw [paddedLine, List.length_append, length_line, List.length_replicate]
  omega

theorem length_header : p.header.length = bmpHeaderSize := by
  simp only [header, List.length_append, length_leBytes, bmpHeaderSize]

theorem length_colorMap :
    (p.colorMap.flatMap mapEntry).length = colorSize * colorMapNum p.bits := by
  have hentry : forall color, color ∈ p.colorMap -> (mapEntry color).length = colorSize :=
    fun _ _ => rfl
  rw [length_flatMap_of_width hentry, p.colorMap_length, Nat.mul_comm]

theorem length_encode : p.encode.length = p.imageOffset + p.imageSize := by
  rw [encode, List.length_append, List.length_append, length_header, length_colorMap,
    length_flatMap_of_width fun _ _ => p.length_paddedLine _, List.length_range, ← Nat.add_assoc]
  rfl

end Picture

/-!
# What is read back
-/

section Reads

variable {p : Picture} {bmp : Mem}

theorem Picture.bits_lt (p : Picture) : p.bits < 2 ^ 16 := by
  rcases p.supported with h | h | h | h <;> omega

theorem Picture.width_lt (p : Picture) : p.width < 2 ^ 32 ∧ p.height < 2 ^ 32 := by
  have hpixels := p.pixels_lt
  have hwidth := Nat.le_mul_of_pos_right p.width p.height_pos
  have hheight := Nat.le_mul_of_pos_left p.height p.width_pos
  unfold colorSize at hpixels
  omega

theorem bmpHeader_of_shows (h : Shows bmp 0 p.header) :
    bmpHeader bmp =
      { charB := 0x42, charM := 0x4d, size := p.imageOffset + p.imageSize,
        imageOffset := p.imageOffset, headerSize := bmpHeaderSize - headerSizeOffset,
        pixelWidth := p.width, pixelHeight := p.height, bitPerPixel := p.bits,
        compressionType := 0 } := by
  have hsize : p.imageOffset + p.imageSize < 2 ^ 32 := p.size_lt
  unfold Picture.header at h
  simp only [shows_append, List.length_append, length_leBytes] at h
  rcases h with ⟨⟨⟨⟨⟨⟨⟨⟨⟨⟨⟨hmagic, hfile⟩, -⟩, hoffset⟩, hheader⟩, hwidth⟩, hheight⟩, -⟩, hbits⟩,
    hcompression⟩, -⟩, -⟩
  have hB : bmp 0 = 0x42 := hmagic 0 (by decide)
  have hM : bmp 1 = 0x4d := hmagic 1 (by decide)
  unfold bmpHeader
  rw [hB, hM, hfile.le32 hsize, hoffset.le32 (by omega), hheader.le32 (by decide),
    hwidth.le32 p.width_lt.1,
    hheight.le32 p.width_lt.2, hbits.le16 p.bits_lt, hcompression.le32 (by decide)]

theorem Picture.supported_cases (p : Picture) (hbits : p.bits ≠ 24) :
    p.bits = 1 ∨ p.bits = 4 ∨ p.bits = 8 := by
  rcases p.supported with h | h | h | h
  · exact Or.inl h
  · exact Or.inr (Or.inl h)
  · exact Or.inr (Or.inr h)
  · exact absurd h hbits

theorem pixelIndex_of_packed {base x y : Nat} (hbits : p.bits ≠ 24)
    (hbyte : bmp (base + x * p.bits / 8) = UInt8.ofNat (p.packed y (x * p.bits / 8))) :
    pixelIndex bmp p.bits base x = p.value x y := by
  let entries := (List.range (8 / p.bits)).map fun k =>
    p.value (x * p.bits / 8 * (8 / p.bits) + k) y
  have hpacked : p.packed y (x * p.bits / 8) = denotes (2 ^ p.bits) entries := rfl
  have hlength : entries.length = 8 / p.bits := by simp [entries]
  have hsmall : forall d, d ∈ entries -> d < 2 ^ p.bits := by
    intro d hd
    rcases List.mem_map.mp hd with ⟨k, -, rfl⟩
    exact p.value_lt _ _
  have hplace : x % (8 / p.bits) < 8 / p.bits ∧
      x * p.bits / 8 * (8 / p.bits) + x % (8 / p.bits) = x ∧
      p.bits * (8 / p.bits) = 8 ∧
      8 - p.bits - x * p.bits % 8 = p.bits * (8 / p.bits - 1 - x % (8 / p.bits)) := by
    rcases p.supported_cases hbits with h | h | h <;> rw [h] <;> omega
  rcases hplace with ⟨hk, hx, hwhole, hshift⟩
  have hbound := denotes_lt hsmall
  rw [hlength, ← Nat.pow_mul, hwhole] at hbound
  have hin : x % (8 / p.bits) < entries.length := by rwa [hlength]
  have hentry : entries[x % (8 / p.bits)] = p.value x y := by simp [entries, hx]
  have hdigit := denotes_digit hsmall hin
  rw [hentry, hlength, ← Nat.pow_mul, ← hshift] at hdigit
  unfold pixelIndex
  rw [hbyte, hpacked, UInt8.toNat_ofNat', Nat.mod_eq_of_lt hbound, hdigit]

theorem columnColor_of_line {base x y : Nat} (hx : x < p.width)
    (hline : Shows bmp base (p.line y))
    (hmap : forall i, i < p.colorMap.length ->
      colorAt bmp (colorMapAt i) = p.colorMap.getD i (0, 0, 0)) :
    columnColor bmp p.bits base x = p.color x y := by
  unfold columnColor Picture.color
  unfold Picture.line at hline
  by_cases hbits : p.bits = 24
  · rw [if_pos hbits] at hline ⊢
    rw [if_pos hbits]
    have hpixel := shows_flatMap (fun _ _ => length_leBytes 3 _) hline
      (by rwa [List.length_range] : x < (List.range p.width).length)
    rw [List.getElem_range, Nat.mul_comm] at hpixel
    have hbyte : forall i, i < 3 -> bmp (base + 3 * x + i) = byteOf (p.value x y) i := by
      intro i hi
      rw [hpixel i (by rwa [length_leBytes])]
      simp [leBytes]
    have hblue := hbyte 0 (by decide)
    have hgreen := hbyte 1 (by decide)
    have hred := hbyte 2 (by decide)
    rw [Nat.add_zero] at hblue
    rw [colorAt, hblue, hgreen, hred]
  · rw [if_neg hbits] at hline ⊢
    rw [if_neg hbits]
    have hin : x * p.bits / 8 < lineBytes p.bits p.width := by
      unfold lineBytes
      rcases p.supported_cases hbits with h | h | h <;> rw [h] <;> omega
    have hbyte := hline (x * p.bits / 8) (by simpa using hin)
    rw [List.getElem_map, List.getElem_range] at hbyte
    have hindex : pixelIndex bmp p.bits base x = p.value x y := pixelIndex_of_packed hbits hbyte
    rw [hindex, hmap]
    rw [p.colorMap_length]
    have hvalue := p.value_lt x y
    rcases p.supported_cases hbits with h | h | h <;> rw [h] at hvalue ⊢ <;> exact hvalue

structure Held (p : Picture) (bmp : Mem) : Prop where
  header : bmpHeader bmp =
    { charB := 0x42, charM := 0x4d, size := p.imageOffset + p.imageSize,
      imageOffset := p.imageOffset, headerSize := bmpHeaderSize - headerSizeOffset,
      pixelWidth := p.width, pixelHeight := p.height, bitPerPixel := p.bits,
      compressionType := 0 }
  colorMap : forall i, i < p.colorMap.length ->
    colorAt bmp (colorMapAt i) = p.colorMap.getD i (0, 0, 0)
  lines : forall y, y < p.height ->
    Shows bmp ((bmpHeader bmp).rowBase (p.height - 1 - y)) (p.line y)

theorem colorAt_of_entry {offset : Nat} {color : Color}
    (h : Shows bmp offset (Picture.mapEntry color)) : colorAt bmp offset = color := by
  rcases color with ⟨blue, green, red⟩
  have hblue : bmp (offset + 0) = blue := h 0 (Nat.zero_lt_succ 3)
  have hgreen : bmp (offset + 1) = green := h 1 (Nat.succ_lt_succ (Nat.zero_lt_succ 2))
  have hred : bmp (offset + 2) = red :=
    h 2 (Nat.succ_lt_succ (Nat.succ_lt_succ (Nat.zero_lt_succ 1)))
  rw [Nat.add_zero] at hblue
  rw [colorAt, hblue, hgreen, hred]

theorem held_of_shows (h : Shows bmp 0 p.encode) : Held p bmp := by
  unfold Picture.encode at h
  rw [shows_append, shows_append, Nat.zero_add, Picture.length_header,
    Picture.length_colorMap] at h
  rcases h with ⟨hheader, hmap, hrows⟩
  have hfields := bmpHeader_of_shows hheader
  refine ⟨hfields, ?_, ?_⟩
  · intro i hi
    have hlength : forall color, color ∈ p.colorMap ->
        (Picture.mapEntry color).length = colorSize := fun _ _ => rfl
    have hentry := shows_flatMap hlength hmap hi
    rw [List.getD_eq_getElem?_getD, List.getElem?_eq_getElem hi, colorMapAt, Nat.mul_comm]
    exact colorAt_of_entry hentry
  · intro y hy
    have hrow := shows_flatMap (fun _ _ => p.length_paddedLine _) hrows
      (by rw [List.length_range]; omega : p.height - 1 - y < (List.range p.height).length)
    rw [List.getElem_range, show p.height - 1 - (p.height - 1 - y) = y by omega] at hrow
    have hline := (shows_append.mp hrow).1
    rw [hfields]
    exact hline

theorem Held.wellFormed (h : Held p bmp) : WellFormedBmp bmp p.encode.length := by
  rw [Picture.length_encode]
  constructor <;> rw [h.header]
  · exact ⟨rfl, rfl⟩
  · exact p.supported
  · rfl
  · exact p.width_pos
  · exact p.height_pos
  · rfl
  · exact p.pixels_lt

theorem convert_of_held {env : BltEnv} (h : Held p bmp)
    (hbuffer : env.obtainBlt (bltBytes bmp) = none) :
    exists e, convertBmpToGopBlt env bmp p.encode.length = some e ∧
      e.status = EfiStatus.success ∧
      forall x y, x < p.width -> y < p.height ->
        (e.canvas.pixels (y * p.width + x)).color = p.color x y := by
  have hwidth : (bmpHeader bmp).pixelWidth = p.width := by rw [h.header]
  have hheight : (bmpHeader bmp).pixelHeight = p.height := by rw [h.header]
  have hbits : (bmpHeader bmp).bitPerPixel = p.bits := by rw [h.header]
  have hfits : (bmpHeader bmp).pixelWidth * (bmpHeader bmp).bitPerPixel + 31 < 2 ^ 32 := by
    rw [hwidth, hbits]
    exact p.line_lt
  rcases (convertBmpToGopBlt_convertsRight_iff h.wellFormed hbuffer).mpr hfits with ⟨e, hright⟩
  refine ⟨e, hright.run, hright.success, ?_⟩
  intro x y hx hy
  have hcolor := hright.colors x y (by rwa [hwidth]) (by rwa [hheight])
  rw [hwidth, hheight, hbits] at hcolor
  rw [hcolor]
  exact columnColor_of_line hx (h.lines y hy) h.colorMap

end Reads

/-!
# On the screen
-/

/-- The pixels of the screen, by column and row. -/
abbrev Screen :=
  Nat -> Nat -> BltPixel

inductive BltOperation where
  | videoFill (pixel : BltPixel) (destX destY width height : Nat)
  | bufferToVideo (buffer : Nat -> BltPixel) (sourceX sourceY destX destY width height delta : Nat)

namespace BltOperation

def Inside (hres vres : Nat) : BltOperation -> Prop
  | videoFill _ destX destY width height
  | bufferToVideo _ _ _ destX destY width height _ =>
      0 < width ∧ 0 < height ∧ destX + width ≤ hres ∧ destY + height ≤ vres

/-- A `delta` of zero stands for rows without a gap. -/
def draw (screen : Screen) : BltOperation -> Screen
  | videoFill pixel destX destY width height => fun x y =>
      if (destX ≤ x ∧ x < destX + width) ∧ destY ≤ y ∧ y < destY + height then pixel
      else screen x y
  | bufferToVideo buffer sourceX sourceY destX destY width height delta => fun x y =>
      if (destX ≤ x ∧ x < destX + width) ∧ destY ≤ y ∧ y < destY + height then
        let row := if delta = 0 then width else delta / colorSize
        buffer ((sourceY + (y - destY)) * row + sourceX + (x - destX))
      else screen x y

end BltOperation

structure GopEnv where
  locateProtocol : EfiStatus
  /-- Whether the pointer that `LibLocateProtocol` leaves is not NULL. -/
  gop : Bool
  horizontalResolution : Nat
  verticalResolution : Nat
  blt : BltOperation -> Screen -> EfiStatus × Screen

/-- The protocol is found, and draws what is asked for if it is on the screen. -/
structure GopEnv.Draws (gop : GopEnv) : Prop where
  located : gop.locateProtocol = EfiStatus.success ∧ gop.gop = true
  resolution : gop.horizontalResolution < 2 ^ 32 ∧ gop.verticalResolution < 2 ^ 32
  drawn : forall (op : BltOperation) (screen : Screen),
    op.Inside gop.horizontalResolution gop.verticalResolution ->
      gop.blt op screen = (EfiStatus.success, op.draw screen)

def uintnSub (arch : Arch) (a b : Nat) : Nat :=
  arch.uintn (a + 2 ^ arch.uintnBits - b)

def blackPixel : BltPixel where
  blue := 0
  green := 0
  red := 0
  reserved := 0

def gopDisplayBlt (arch : Arch) (gop : GopEnv) (blt : Nat -> BltPixel) (height width : Nat)
    (screen : Screen) : EfiStatus × Screen :=
  if efiError gop.locateProtocol || !gop.gop then
    (gop.locateProtocol, screen)
  else
    let hres := gop.horizontalResolution
    let vres := gop.verticalResolution
    let posx := uintnSub arch (hres / 2) (width / 2)
    let posy := uintnSub arch (vres / 2) (height / 2)
    let (status, screen) := gop.blt (BltOperation.videoFill blackPixel 0 0 hres vres) screen
    if efiError status then
      (status, screen)
    else
      gop.blt (BltOperation.bufferToVideo blt 0 0 posx posy width height 0) screen

/-- `uefi_display_splash`; no buffer is passed to the conversion. -/
def uefiDisplaySplash (env : BltEnv) (gop : GopEnv) (bmp : Mem) (size : Nat) (screen : Screen) :
    Option (EfiStatus × Screen) :=
  (convertBmpToGopBlt { env with gopBlt := false } bmp size).map fun e =>
    if efiError e.status then
      (e.status, screen)
    else
      gopDisplayBlt env.arch gop e.canvas.pixels (bmpHeader bmp).pixelHeight
        (bmpHeader bmp).pixelWidth screen

theorem uintnSub_of_le {arch : Arch} {a b : Nat} (h : b ≤ a) (ha : a < 2 ^ 32) :
    uintnSub arch a b = a - b := by
  have hword := two_pow_le_uintn arch
  unfold uintnSub Arch.uintn
  rw [show a + 2 ^ arch.uintnBits - b = a - b + 2 ^ arch.uintnBits by omega,
    Nat.add_mod_right, Nat.mod_eq_of_lt (by omega)]

/-- A picture in the middle of a screen that is black around it. -/
def Picture.centered (p : Picture) (hres vres x y : Nat) : Color :=
  let left := hres / 2 - p.width / 2
  let top := vres / 2 - p.height / 2
  if (left ≤ x ∧ x < left + p.width) ∧ top ≤ y ∧ y < top + p.height then
    p.color (x - left) (y - top)
  else
    (0, 0, 0)

theorem gopDisplayBlt_centered {p : Picture} (arch : Arch) {gop : GopEnv}
    {blt : Nat -> BltPixel} (hdraws : gop.Draws) (hwidth : p.width ≤ gop.horizontalResolution)
    (hheight : p.height ≤ gop.verticalResolution)
    (hblt : forall x y, x < p.width -> y < p.height ->
      (blt (y * p.width + x)).color = p.color x y) (screen : Screen) :
    exists shown, gopDisplayBlt arch gop blt p.height p.width screen =
        (EfiStatus.success, shown) ∧
      forall x y, x < gop.horizontalResolution -> y < gop.verticalResolution ->
        (shown x y).color = p.centered gop.horizontalResolution gop.verticalResolution x y := by
  rcases hdraws with ⟨⟨hlocate, hgop⟩, ⟨hhres, hvres⟩, hdrawn⟩
  have hwidthPos := p.width_pos
  have hheightPos := p.height_pos
  have hposx : uintnSub arch (gop.horizontalResolution / 2) (p.width / 2) =
      gop.horizontalResolution / 2 - p.width / 2 :=
    uintnSub_of_le (Nat.div_le_div_right hwidth) (by omega)
  have hposy : uintnSub arch (gop.verticalResolution / 2) (p.height / 2) =
      gop.verticalResolution / 2 - p.height / 2 :=
    uintnSub_of_le (Nat.div_le_div_right hheight) (by omega)
  let fill := BltOperation.videoFill blackPixel 0 0 gop.horizontalResolution
    gop.verticalResolution
  let copy := BltOperation.bufferToVideo blt 0 0
    (gop.horizontalResolution / 2 - p.width / 2) (gop.verticalResolution / 2 - p.height / 2)
    p.width p.height 0
  have hfill : gop.blt fill screen = (EfiStatus.success, fill.draw screen) :=
    hdrawn fill screen ⟨by omega, by omega, by omega, by omega⟩
  have hcopy : gop.blt copy (fill.draw screen) =
      (EfiStatus.success, copy.draw (fill.draw screen)) :=
    hdrawn copy _ ⟨hwidthPos, hheightPos, by omega, by omega⟩
  have hrun : gopDisplayBlt arch gop blt p.height p.width screen =
      (EfiStatus.success, copy.draw (fill.draw screen)) := by
    unfold gopDisplayBlt
    dsimp only
    rw [hlocate, hgop, hposx, hposy]
    change (if efiError (gop.blt fill screen).1 then gop.blt fill screen
      else gop.blt copy (gop.blt fill screen).2) = _
    rw [hfill]
    exact hcopy
  refine ⟨_, hrun, ?_⟩
  intro x y hx hy
  simp only [copy, fill, BltOperation.draw, Picture.centered]
  split
  · rename_i hin
    rw [if_pos trivial, Nat.zero_add, Nat.add_zero]
    exact hblt _ _ (by omega) (by omega)
  · rw [if_pos ⟨⟨Nat.zero_le x, by omega⟩, Nat.zero_le y, by omega⟩]
    rfl

/--
Whatever number of bits to a pixel a picture is encoded with, `uefi_display_splash`
shows it in the middle of the screen, upright and in its colours, and the rest of
the screen black, whatever was there before.
-/
theorem uefiDisplaySplash_shows (p : Picture) {env : BltEnv} {gop : GopEnv} {bmp : Mem}
    (hbmp : Shows bmp 0 p.encode) (halloc : env.allocatePool = true) (hdraws : gop.Draws)
    (hwidth : p.width ≤ gop.horizontalResolution)
    (hheight : p.height ≤ gop.verticalResolution) (screen : Screen) :
    exists shown, uefiDisplaySplash env gop bmp p.encode.length screen =
        some (EfiStatus.success, shown) ∧
      forall x y, x < gop.horizontalResolution -> y < gop.verticalResolution ->
        (shown x y).color = p.centered gop.horizontalResolution gop.verticalResolution x y := by
  have hheld := held_of_shows hbmp
  have hbuffer : BltEnv.obtainBlt { env with gopBlt := false } (bltBytes bmp) = none := by
    simp [BltEnv.obtainBlt, halloc]
  rcases convert_of_held hheld hbuffer with ⟨e, hrun, hsuccess, hcolors⟩
  rcases gopDisplayBlt_centered env.arch hdraws hwidth hheight hcolors screen with
    ⟨shown, hdisplay, hpixels⟩
  refine ⟨shown, ?_, hpixels⟩
  unfold uefiDisplaySplash
  rw [hrun, Option.map_some, hsuccess, hheld.header]
  simp only [hdisplay]
  rfl

/-- Three pixels by two of one bit each, red and blue. -/
def flag : Picture where
  bits := 1
  width := 3
  height := 2
  colorMap := [(0, 0, 255), (255, 0, 0)]
  value := fun x y => if x = y then 1 else 0
  supported := Or.inl rfl
  width_pos := by decide
  height_pos := by decide
  colorMap_length := rfl
  value_lt := by
    intro x y
    split <;> decide
  line_lt := by decide
  pixels_lt := by decide
  size_lt := by decide

def smallGop : GopEnv where
  locateProtocol := EfiStatus.success
  gop := true
  horizontalResolution := 8
  verticalResolution := 6
  blt := fun op screen => (EfiStatus.success, op.draw screen)

theorem smallGop_draws : smallGop.Draws :=
  ⟨⟨rfl, rfl⟩, ⟨by decide, by decide⟩, fun _ _ _ => rfl⟩

theorem uefiDisplaySplash_shows_flag :
    exists shown, uefiDisplaySplash freshBlt smallGop (memOf flag.encode) flag.encode.length
        (fun _ _ => { blue := 9, green := 9, red := 9, reserved := 0 }) =
          some (EfiStatus.success, shown) ∧
      forall x y, x < 8 -> y < 6 -> (shown x y).color = flag.centered 8 6 x y :=
  uefiDisplaySplash_shows flag (shows_memOf _) rfl smallGop_draws (by decide) (by decide) _

example : (List.range 8).map (fun x => flag.centered 8 6 x 2) =
    [(0, 0, 0), (0, 0, 0), (0, 0, 0), (255, 0, 0), (0, 0, 255), (0, 0, 255), (0, 0, 0),
      (0, 0, 0)] := by
  decide

end Splash
end BootableUefi
