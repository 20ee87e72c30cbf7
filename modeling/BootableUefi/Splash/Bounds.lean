import BootableUefi.Splash.Reads

/-!
# Whether the conversion stays inside its buffers

What is written always lies in the buffer of the pixels.  What is read lies in the
image if the size of a line has not wrapped around, and if an image that has no
colour map has no pixel whose colour would have to be behind its end.
-/

namespace BootableUefi
namespace Splash

open Firmware Foundation

structure StaysInside (env : BltEnv) (bmp : Mem) (bmpImageSize : Nat) (e : BltEnd) : Prop where
  run : convertBmpToGopBlt env bmp bmpImageSize = some e
  reads : forall r, r ∈ e.canvas.reads -> r < bmpImageSize
  writes : forall p, p ∈ e.canvas.writes ->
    p < (bmpHeader bmp).pixelWidth * (bmpHeader bmp).pixelHeight ∧
      colorSize * (p + 1) ≤ e.gopBltSize

/-- The size of a line fits, and so do the colours when they have no map. -/
structure Readable (bmp : Mem) (bmpImageSize : Nat) : Prop where
  line : (bmpHeader bmp).pixelWidth * (bmpHeader bmp).bitPerPixel + 31 < 2 ^ 32
  colors : (bmpHeader bmp).imageOffset = bmpHeaderSize -> (bmpHeader bmp).bitPerPixel ≠ 24 ->
    forall row x, row < (bmpHeader bmp).pixelHeight -> x < (bmpHeader bmp).pixelWidth ->
      colorMapAt (pixelIndex bmp (bmpHeader bmp).bitPerPixel ((bmpHeader bmp).rowBase row) x) + 2 <
        bmpImageSize

def ColumnsInside (bmp : Mem) (bmpImageSize : Nat) : Prop :=
  forall row x, row < (bmpHeader bmp).pixelHeight -> x < (bmpHeader bmp).pixelWidth ->
    forall r, r ∈ columnReads bmp (bmpHeader bmp).bitPerPixel ((bmpHeader bmp).rowBase row) x ->
      r < bmpImageSize

section Bounds

variable {env : BltEnv} {bmp : Mem} {bmpImageSize : Nat}

theorem BltEnv.le_sizeAfter {bltBufferSize : Nat} :
    bltBufferSize ≤ env.sizeAfter bltBufferSize := by
  unfold BltEnv.sizeAfter
  split
  · rename_i h
    rw [Bool.and_eq_true, decide_eq_true_eq] at h
    exact h.2
  · exact Nat.le_refl _

theorem writes_of_place {status : EfiStatus} {s : ConvertState} {p : Nat}
    (hp : p < (bmpHeader bmp).pixelWidth * (bmpHeader bmp).pixelHeight) :
    colorSize * (p + 1) ≤ (env.finish (bltBytes bmp) status s).gopBltSize := by
  have hroom : bltBytes bmp ≤ (env.finish (bltBytes bmp) status s).gopBltSize :=
    BltEnv.le_sizeAfter
  apply Nat.le_trans _ hroom
  rw [bltBytes, Nat.mul_comm]
  exact Nat.mul_le_mul_right _ hp

theorem staysInside_of_not_converts (hnot : ¬ Converts env bmp bmpImageSize) :
    exists e, StaysInside env bmp bmpImageSize e := by
  rcases convert_of_not_converts hnot with ⟨e, hrun, hreads, hwrites⟩
  refine ⟨e, hrun, hreads, ?_⟩
  intro p hp
  rw [hwrites] at hp
  exact absurd hp List.not_mem_nil

theorem staysInside_of_unsupported (h : Converts env bmp bmpImageSize)
    (hbits : ¬ Supported (bmpHeader bmp).bitPerPixel) (hwidth : 0 < (bmpHeader bmp).pixelWidth)
    (hheight : 0 < (bmpHeader bmp).pixelHeight) :
    exists e, StaysInside env bmp bmpImageSize e := by
  rcases convert_unsupported h hbits hwidth hheight with ⟨s, hrun, hcanvas⟩
  refine ⟨_, hrun, ?_, ?_⟩
  · intro r hr
    rw [BltEnv.finish, hcanvas] at hr
    exact Nat.lt_of_lt_of_le (List.mem_range.mp hr) h.header
  · intro p hp
    rw [BltEnv.finish, hcanvas] at hp
    exact absurd hp List.not_mem_nil

/-- Where all rows are painted, only the columns can be read outside the image. -/
theorem staysInside_iff_columns (h : Converts env bmp bmpImageSize)
    (hpaints : 0 < (bmpHeader bmp).pixelWidth -> 0 < (bmpHeader bmp).pixelHeight ->
      Supported (bmpHeader bmp).bitPerPixel) :
    (exists e, StaysInside env bmp bmpImageSize e) <->
      ColumnsInside bmp bmpImageSize := by
  rcases convert_paints h hpaints with ⟨s, hrun, hcanvas⟩
  have hreads : forall r, r ∈ s.canvas.reads <-> r < bmpHeaderSize ∨
      exists row, row < (bmpHeader bmp).pixelHeight ∧
        exists x, x < (bmpHeader bmp).pixelWidth ∧
          r ∈ columnReads bmp (bmpHeader bmp).bitPerPixel ((bmpHeader bmp).rowBase row) x := by
    intro r
    rw [hcanvas, mem_paintRows_reads]
    exact or_congr_left List.mem_range
  have hwrites : forall p, p ∈ s.canvas.writes ->
      p < (bmpHeader bmp).pixelWidth * (bmpHeader bmp).pixelHeight := by
    intro p hp
    rw [hcanvas, mem_paintRows_writes] at hp
    rcases hp with hp | ⟨row, hrow, x, hx, rfl⟩
    · exact absurd hp List.not_mem_nil
    · exact rowPlace_add_lt hrow hx
  constructor
  · rintro ⟨e, hinside⟩ row x hrow hx r hr
    have he := hinside.run
    rw [hrun] at he
    cases he
    exact hinside.reads r ((hreads r).mpr (Or.inr ⟨row, hrow, x, hx, hr⟩))
  · intro hcolumns
    refine ⟨_, hrun, ?_, ?_⟩
    · intro r hr
      rcases (hreads r).mp hr with hheader | ⟨row, hrow, x, hx, hcolumn⟩
      · exact Nat.lt_of_lt_of_le hheader h.header
      · exact hcolumns row x hrow hx r hcolumn
    · intro p hp
      exact ⟨hwrites p hp, writes_of_place (hwrites p hp)⟩

/-- A carry that is lost lets the last row end behind the image. -/
theorem line_fits_of_columns (h : Converts env bmp bmpImageSize)
    (hbits : Supported (bmpHeader bmp).bitPerPixel) (hwidth : 0 < (bmpHeader bmp).pixelWidth)
    (hheight : 0 < (bmpHeader bmp).pixelHeight)
    (hcolumns : ColumnsInside bmp bmpImageSize) :
    (bmpHeader bmp).pixelWidth * (bmpHeader bmp).bitPerPixel + 31 < 2 ^ 32 := by
  apply Nat.lt_of_not_le
  intro hcarry
  have hshort := dataSizePerLine_lt_of_carry hcarry
  have hlong := lineBytes_le_stride (bmpHeader bmp).bitPerPixel (bmpHeader bmp).pixelWidth
  have himage := (accepted_of_check h.check).image
  have hbefore : ((bmpHeader bmp).pixelHeight - 1) * (bmpHeader bmp).dataSizePerLine ≤
      ((bmpHeader bmp).pixelHeight - 1) *
        stride (bmpHeader bmp).bitPerPixel (bmpHeader bmp).pixelWidth :=
    Nat.mul_le_mul_left _ (by omega)
  have hrows : (bmpHeader bmp).pixelHeight * (bmpHeader bmp).dataSizePerLine =
      ((bmpHeader bmp).pixelHeight - 1) * (bmpHeader bmp).dataSizePerLine +
        (bmpHeader bmp).dataSizePerLine := by
    rw [← Nat.succ_mul, Nat.succ_eq_add_one, Nat.sub_add_cancel hheight]
  have hlast := hcolumns _ _ (Nat.sub_lt hheight Nat.one_pos) (Nat.sub_lt hwidth Nat.one_pos) _
    (last_mem_columnReads bmp hbits hwidth _)
  unfold BmpHeader.rowBase at hlast
  omega

theorem columns_iff_readable (h : Converts env bmp bmpImageSize)
    (hbits : Supported (bmpHeader bmp).bitPerPixel)
    (hfits : (bmpHeader bmp).pixelWidth * (bmpHeader bmp).bitPerPixel + 31 < 2 ^ 32) :
    ColumnsInside bmp bmpImageSize <-> Readable bmp bmpImageSize := by
  have haccepted := accepted_of_check h.check
  have himage := haccepted.image
  rw [dataSizePerLine_of_fits hfits] at himage
  have hrow : forall row, row < (bmpHeader bmp).pixelHeight ->
      (bmpHeader bmp).rowBase row +
        lineBytes (bmpHeader bmp).bitPerPixel (bmpHeader bmp).pixelWidth ≤ bmpImageSize := by
    intro row hrow
    have hstride := lineBytes_le_stride (bmpHeader bmp).bitPerPixel (bmpHeader bmp).pixelWidth
    have hend := rowBase_add_le hrow
    omega
  constructor
  · intro hcolumns
    refine ⟨hfits, ?_⟩
    intro _ hmapped row x hlt hx
    exact (columnReads_lt_iff hbits hx (hrow row hlt)).mp (hcolumns row x hlt hx) hmapped
  · intro hreadable row x hlt hx
    apply (columnReads_lt_iff hbits hx (hrow row hlt)).mpr
    intro hmapped
    rcases haccepted.colorMap with hnone | hfull
    · exact hreadable.colors hnone hmapped row x hlt hx
    · have hentry := colorMapAt_lt hbits hmapped bmp ((bmpHeader bmp).rowBase row) x
      omega

/-- Whether nothing is read outside the image, and nothing written outside the pixels. -/
theorem convertBmpToGopBlt_staysInside_iff (env : BltEnv) (bmp : Mem) (bmpImageSize : Nat) :
    (exists e, StaysInside env bmp bmpImageSize e) <->
      (Converts env bmp bmpImageSize -> Supported (bmpHeader bmp).bitPerPixel ->
        0 < (bmpHeader bmp).pixelWidth -> 0 < (bmpHeader bmp).pixelHeight ->
          Readable bmp bmpImageSize) := by
  by_cases h : Converts env bmp bmpImageSize
  · by_cases hpixels : 0 < (bmpHeader bmp).pixelWidth ∧ 0 < (bmpHeader bmp).pixelHeight
    · by_cases hbits : Supported (bmpHeader bmp).bitPerPixel
      · have hcolumns := staysInside_iff_columns h fun _ _ => hbits
        constructor
        · intro hinside _ _ hwidth hheight
          have hinsides := hcolumns.mp hinside
          have hfits := line_fits_of_columns h hbits hwidth hheight hinsides
          exact (columns_iff_readable h hbits hfits).mp hinsides
        · intro hreadable
          have hline := hreadable h hbits hpixels.1 hpixels.2
          exact hcolumns.mpr ((columns_iff_readable h hbits hline.line).mpr hline)
      · constructor
        · exact fun _ _ hsupported => absurd hsupported hbits
        · exact fun _ => staysInside_of_unsupported h hbits hpixels.1 hpixels.2
    · constructor
      · exact fun _ _ _ hwidth hheight => absurd ⟨hwidth, hheight⟩ hpixels
      · intro _
        apply (staysInside_iff_columns h fun hwidth hheight =>
          absurd ⟨hwidth, hheight⟩ hpixels).mpr
        intro row x hrow hx
        exact absurd ⟨by omega, by omega⟩ hpixels
  · exact ⟨fun _ hconverts => absurd hconverts h, fun _ => staysInside_of_not_converts h⟩

/-- One pixel of 8 bits in an image that has no colour map. -/
def mapless : List UInt8 :=
  [0x42, 0x4d, 58, 0, 0, 0, 0, 0, 0, 0, 54, 0, 0, 0, 40, 0, 0, 0, 1, 0, 0, 0, 1, 0, 0, 0, 1, 0, 8, 0,
    0, 0, 0, 0, 0, 0, 0, 0, 0, 0, 0, 0, 0, 0, 0, 0, 0, 0, 0, 0, 0, 0, 0, 0, 255, 0, 0, 0]

/-- A row of 24-bit pixels with eight bits more than `2 ^ 32` in all. -/
def wrapped : List UInt8 :=
  [0x42, 0x4d, 58, 0, 0, 0, 0, 0, 0, 0, 54, 0, 0, 0, 40, 0, 0, 0, 0xab, 0xaa, 0xaa, 0x0a, 1, 0, 0, 0,
    1, 0, 24, 0, 0, 0, 0, 0, 0, 0, 0, 0, 0, 0, 0, 0, 0, 0, 0, 0, 0, 0, 0, 0, 0, 0, 0, 0, 0, 0, 0, 0]

def freshBlt : BltEnv where
  arch := Arch.x64
  gopBlt := false
  gopBltSize := 0
  allocatePool := true
  pixels := fun _ => { blue := 0, green := 0, red := 0, reserved := 0 }

/-- A colour is read a thousand bytes behind the first image, and pixels behind the second. -/
theorem convertBmpToGopBlt_leavesImage :
    (¬ exists e, StaysInside freshBlt (memOf mapless) mapless.length e) ∧
      ¬ exists e, StaysInside freshBlt (memOf wrapped) wrapped.length e := by
  have hmapless : Converts freshBlt (memOf mapless) mapless.length :=
    ⟨by decide, by decide, by decide⟩
  have hwrapped : Converts freshBlt (memOf wrapped) wrapped.length :=
    ⟨by decide, by decide, by decide⟩
  have hmapped : Supported (bmpHeader (memOf mapless)).bitPerPixel :=
    Or.inr (Or.inr (Or.inl rfl))
  have htwentyFour : Supported (bmpHeader (memOf wrapped)).bitPerPixel :=
    Or.inr (Or.inr (Or.inr rfl))
  constructor
  · intro hinside
    have hcolumns := (staysInside_iff_columns hmapless fun _ _ => hmapped).mp hinside
    have hcolor : 54 + 4 * 255 < 58 := hcolumns 0 0 (by decide) (by decide) _ (by decide)
    exact absurd hcolor (by decide)
  · intro hinside
    have hcolumns := (staysInside_iff_columns hwrapped fun _ _ => htwentyFour).mp hinside
    have hline : 178956971 * 24 + 31 < 2 ^ 32 :=
      line_fits_of_columns hwrapped htwentyFour (by decide) (by decide) hcolumns
    exact absurd hline (by decide)

end Bounds

end Splash
end BootableUefi
