import BootableUefi.Splash.Bounds

/-!
# The colours of the pixels

The rows of an image go to different places, so what has been painted for a row
stays when the others are painted.  A well-formed image is hence converted pixel
by pixel, provided that the bits of a line can be counted in 32 bits; otherwise
the size that its header gives is taken to be wrong.
-/

namespace BootableUefi
namespace Splash

open Firmware Foundation

/-- Blue, green and red, as they are stored. -/
abbrev Color :=
  UInt8 × UInt8 × UInt8

def colorAt (bmp : Mem) (offset : Nat) : Color :=
  (bmp offset, bmp (offset + 1), bmp (offset + 2))

def BltPixel.color (p : BltPixel) : Color :=
  (p.blue, p.green, p.red)

def columnColor (bmp : Mem) (bits base x : Nat) : Color :=
  if bits = 24 then colorAt bmp (base + 3 * x)
  else colorAt bmp (colorMapAt (pixelIndex bmp bits base x))

section Painting

variable (bmp : Mem) (bits base place : Nat) (c : Canvas)

theorem put_color (blue green red : UInt8) (reads : List Nat) :
    ((c.put place blue green red reads).pixels place).color = (blue, green, red) := by
  change (Function.update c.pixels place _ place).color = _
  rw [Function.update_self]
  rfl

theorem paint_color (x : Nat) :
    ((c.paint bmp bits base place x).pixels (place + x)).color = columnColor bmp bits base x := by
  unfold Canvas.paint columnColor
  split
  · exact put_color _ _ _ _ _ _
  · exact put_color _ _ _ _ _ _

theorem paint_pixels_of_ne {p x : Nat} (hp : p ≠ place + x) :
    (c.paint bmp bits base place x).pixels p = c.pixels p := by
  unfold Canvas.paint
  split
  · exact Function.update_of_ne hp _ _
  · exact Function.update_of_ne hp _ _

theorem paintLine_pixels_of_outside {p width : Nat} (hp : p < place ∨ place + width ≤ p) :
    (c.paintLine bmp bits base place width).pixels p = c.pixels p := by
  induction width with
  | zero => rfl
  | succ width ih =>
      rw [Canvas.paintLine, paint_pixels_of_ne _ _ _ _ _ (by omega)]
      exact ih (by omega)

theorem paintLine_color {x width : Nat} (hx : x < width) :
    ((c.paintLine bmp bits base place width).pixels (place + x)).color =
      columnColor bmp bits base x := by
  induction width with
  | zero => exact absurd hx (Nat.not_lt_zero x)
  | succ width ih =>
      rw [Canvas.paintLine]
      rcases Nat.lt_succ_iff_lt_or_eq.mp hx with hbefore | rfl
      · rw [paint_pixels_of_ne _ _ _ _ _ (by omega)]
        exact ih hbefore
      · exact paint_color bmp bits base place _ _

variable (h : BmpHeader)

theorem rowPlace_add_le {row later : Nat} (hlater : row < later) (hin : later < h.pixelHeight) :
    h.rowPlace later + h.pixelWidth ≤ h.rowPlace row := by
  unfold BmpHeader.rowPlace
  rw [← Nat.succ_mul]
  exact Nat.mul_le_mul_right _ (by omega)

theorem paintRows_color {rows row x : Nat} (hrows : rows ≤ h.pixelHeight) (hrow : row < rows)
    (hx : x < h.pixelWidth) :
    ((c.paintRows bmp h rows).pixels (h.rowPlace row + x)).color =
      columnColor bmp h.bitPerPixel (h.rowBase row) x := by
  induction rows with
  | zero => exact absurd hrow (Nat.not_lt_zero row)
  | succ rows ih =>
      rw [Canvas.paintRows]
      rcases Nat.lt_succ_iff_lt_or_eq.mp hrow with hbefore | rfl
      · have hplace := rowPlace_add_le h hbefore hrows
        rw [paintLine_pixels_of_outside _ _ _ _ _ (Or.inr (by omega))]
        exact ih (Nat.le_of_succ_le hrows) hbefore
      · exact paintLine_color bmp h.bitPerPixel _ _ _ hx

end Painting

/-!
# Well-formed images
-/

/-- A BMP image of `bmpImageSize` bytes: the header, the full colour map, and padded rows. -/
structure WellFormedBmp (bmp : Mem) (bmpImageSize : Nat) : Prop where
  signature : (bmpHeader bmp).charB = 0x42 ∧ (bmpHeader bmp).charM = 0x4d
  uncompressed : (bmpHeader bmp).compressionType = 0
  headerSize : (bmpHeader bmp).headerSize = bmpHeaderSize - headerSizeOffset
  packing : Supported (bmpHeader bmp).bitPerPixel
  colorMap : (bmpHeader bmp).imageOffset =
    bmpHeaderSize + colorSize * colorMapNum (bmpHeader bmp).bitPerPixel
  width : 0 < (bmpHeader bmp).pixelWidth
  height : 0 < (bmpHeader bmp).pixelHeight
  size : (bmpHeader bmp).size = bmpImageSize
  rows : (bmpHeader bmp).imageOffset + (bmpHeader bmp).pixelHeight *
    stride (bmpHeader bmp).bitPerPixel (bmpHeader bmp).pixelWidth = bmpImageSize
  pixels : (bmpHeader bmp).pixelWidth * (bmpHeader bmp).pixelHeight * colorSize < 2 ^ 32

structure ConvertsRight (env : BltEnv) (bmp : Mem) (bmpImageSize : Nat) (e : BltEnd) : Prop where
  run : convertBmpToGopBlt env bmp bmpImageSize = some e
  success : e.status = EfiStatus.success
  colors : forall x y, x < (bmpHeader bmp).pixelWidth -> y < (bmpHeader bmp).pixelHeight ->
    (e.canvas.pixels (y * (bmpHeader bmp).pixelWidth + x)).color =
      columnColor bmp (bmpHeader bmp).bitPerPixel
        ((bmpHeader bmp).rowBase ((bmpHeader bmp).pixelHeight - 1 - y)) x

section Images

variable {env : BltEnv} {bmp : Mem} {bmpImageSize : Nat}

theorem WellFormedBmp.check_eq_none (h : WellFormedBmp bmp bmpImageSize) (arch : Arch)
    (hfits : (bmpHeader bmp).pixelWidth * (bmpHeader bmp).bitPerPixel + 31 < 2 ^ 32) :
    (bmpHeader bmp).check arch bmpImageSize = none := by
  have hfile : (bmpHeader bmp).size < 2 ^ 32 := le32_lt bmp 2
  have hsize := h.size
  have hmap := h.colorMap
  have hrows := h.rows
  have hpixels := h.pixels
  have huintn := two_pow_le_uintn arch
  have hline := dataSizePerLine_of_fits hfits
  rw [← hline] at hrows
  have himage : u32 ((bmpHeader bmp).pixelHeight * (bmpHeader bmp).dataSizePerLine) =
      (bmpHeader bmp).pixelHeight * (bmpHeader bmp).dataSizePerLine :=
    u32_of_lt (by omega)
  unfold BmpHeader.check
  simp only [guard_eq_none_iff]
  rw [himage, Nat.mul_comm (bmpHeader bmp).dataSizePerLine]
  refine ⟨?_, ?_, ?_, ?_, ?_, ?_, ?_, ?_, trivial⟩
  · rw [not_or, not_not, not_not]
    exact h.signature
  · exact not_not.mpr h.uncompressed
  · exact not_not.mpr h.headerSize
  · omega
  · omega
  · omega
  · omega
  · unfold colorSize at hpixels ⊢
    omega

/-- With a carry that is lost, the size of the rows is not the one that is expected. -/
theorem WellFormedBmp.check_ne_none (h : WellFormedBmp bmp bmpImageSize) (arch : Arch)
    (hcarry : 2 ^ 32 ≤ (bmpHeader bmp).pixelWidth * (bmpHeader bmp).bitPerPixel + 31) :
    (bmpHeader bmp).check arch bmpImageSize ≠ none := by
  intro hcheck
  have hshort : (bmpHeader bmp).dataSizePerLine <
      stride (bmpHeader bmp).bitPerPixel (bmpHeader bmp).pixelWidth :=
    Nat.lt_of_lt_of_le (dataSizePerLine_lt_of_carry hcarry) (lineBytes_le_stride _ _)
  have hrows := Nat.mul_lt_mul_of_pos_left hshort h.height
  have hexpected := (accepted_of_check hcheck).image
  have htrue := h.rows
  omega

theorem efiError_of_check {arch : Arch} {h : BmpHeader} {status : EfiStatus}
    (hcheck : h.check arch bmpImageSize = some status) : efiError status = true := by
  unfold BmpHeader.check at hcheck
  split_ifs at hcheck
  all_goals
    cases hcheck
    rfl

theorem check_of_success {e : BltEnd} (hrun : convertBmpToGopBlt env bmp bmpImageSize = some e)
    (hsuccess : e.status = EfiStatus.success) :
    (bmpHeader bmp).check env.arch bmpImageSize = none := by
  unfold convertBmpToGopBlt at hrun
  by_cases hheader : bmpHeaderSize > bmpImageSize
  · rw [if_pos hheader] at hrun
    cases hrun
    cases hsuccess
  · rw [if_neg hheader] at hrun
    dsimp only at hrun
    cases hcheck : (bmpHeader bmp).check env.arch bmpImageSize with
    | none => rfl
    | some status =>
        rw [hcheck] at hrun
        cases hrun
        have herror := efiError_of_check hcheck
        rw [show status = EfiStatus.success from hsuccess] at herror
        cases herror

/-- A well-formed image is converted pixel by pixel where the bits of a line can be counted. -/
theorem convertBmpToGopBlt_convertsRight_iff (h : WellFormedBmp bmp bmpImageSize)
    (hbuffer : env.obtainBlt (bltBytes bmp) = none) :
    (exists e, ConvertsRight env bmp bmpImageSize e) <->
      (bmpHeader bmp).pixelWidth * (bmpHeader bmp).bitPerPixel + 31 < 2 ^ 32 := by
  constructor
  · rintro ⟨e, hright⟩
    apply Nat.lt_of_not_le
    intro hcarry
    exact h.check_ne_none env.arch hcarry (check_of_success hright.run hright.success)
  · intro hfits
    have hheader : bmpHeaderSize ≤ bmpImageSize := by
      have hmap := h.colorMap
      have hrows := h.rows
      omega
    have hconverts : Converts env bmp bmpImageSize :=
      ⟨hheader, h.check_eq_none env.arch hfits, hbuffer⟩
    rcases convert_paints hconverts fun _ _ => h.packing with ⟨s, hrun, hcanvas⟩
    refine ⟨_, hrun, rfl, ?_⟩
    intro x y hx hy
    have hcolor := paintRows_color bmp (env.canvas (List.range bmpHeaderSize)) (bmpHeader bmp)
      (Nat.le_refl _) (by omega : (bmpHeader bmp).pixelHeight - 1 - y < (bmpHeader bmp).pixelHeight)
      hx
    have hplace : (bmpHeader bmp).rowPlace ((bmpHeader bmp).pixelHeight - 1 - y) =
        y * (bmpHeader bmp).pixelWidth := by
      unfold BmpHeader.rowPlace
      rw [show (bmpHeader bmp).pixelHeight - ((bmpHeader bmp).pixelHeight - 1 - y) - 1 = y by omega]
    rw [← hcanvas, hplace] at hcolor
    exact hcolor

def twoRows : List UInt8 :=
  [0x42, 0x4d, 70, 0, 0, 0, 0, 0, 0, 0, 62, 0, 0, 0, 40, 0, 0, 0, 9, 0, 0, 0, 2, 0, 0, 0, 1, 0, 1, 0,
    0, 0, 0, 0, 0, 0, 0, 0, 0, 0, 0, 0, 0, 0, 0, 0, 0, 0, 0, 0, 0, 0, 0, 0, 10, 20, 30, 0, 40, 50, 60, 0,
    0xa5, 0x80, 0, 0, 0x5a, 0, 0, 0]

theorem convertBmpToGopBlt_convertsRight_of_twoRows :
    exists e, ConvertsRight freshBlt (memOf twoRows) twoRows.length e :=
  (convertBmpToGopBlt_convertsRight_iff
    ⟨by decide, by decide, by decide, Or.inl rfl, by decide, by decide, by decide, by decide,
      by decide, by decide⟩ (by decide)).mpr (by decide)

def longRow : List UInt8 :=
  [0x42, 0x4d, 0x36, 0x46, 0xc3, 0x23, 0, 0, 0, 0, 54, 0, 0, 0, 40, 0, 0, 0, 0, 0xc2, 0xeb, 0x0b,
    1, 0, 0, 0, 1, 0, 24, 0, 0, 0, 0, 0, 0, 0, 0, 0, 0, 0, 0, 0, 0, 0, 0, 0, 0, 0, 0, 0, 0, 0, 0, 0]

/-- The line, the image and the pixels take less than a gigabyte each, and still it is refused. -/
theorem convertBmpToGopBlt_refuses_longRow :
    WellFormedBmp (memOf longRow) 600000054 ∧
      freshBlt.obtainBlt (bltBytes (memOf longRow)) = none ∧
        ¬ exists e, ConvertsRight freshBlt (memOf longRow) 600000054 e := by
  have hwellFormed : WellFormedBmp (memOf longRow) 600000054 :=
    ⟨by decide, by decide, by decide, Or.inr (Or.inr (Or.inr rfl)), by decide, by decide, by decide,
      by decide, by decide, by decide⟩
  refine ⟨hwellFormed, by decide, ?_⟩
  rintro ⟨e, hright⟩
  exact hwellFormed.check_ne_none freshBlt.arch (by decide)
    (check_of_success hright.run hright.success)

end Images

end Splash
end BootableUefi
