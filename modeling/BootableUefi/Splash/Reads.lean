import BootableUefi.Splash.Paint

/-!
# What the conversion reads and writes

The pixels that are written always lie in the buffer.  What is read lies in the
image unless the size of a line has been computed with a carry that was lost, or
an image without a colour map has pixels whose colours would lie behind its end.
-/

namespace BootableUefi
namespace Splash

open Firmware Foundation

/-- What is read for a column of the row that begins at `base`. -/
def columnReads (bmp : Mem) (bits base x : Nat) : List Nat :=
  if bits = 24 then
    [base + 3 * x, base + 3 * x + 1, base + 3 * x + 2]
  else
    [base + x * bits / 8, colorMapAt (pixelIndex bmp bits base x) + 2,
      colorMapAt (pixelIndex bmp bits base x) + 1, colorMapAt (pixelIndex bmp bits base x)]

section Traces

variable (bmp : Mem) (bits base place : Nat) (c : Canvas)

theorem paint_reads (x : Nat) :
    (c.paint bmp bits base place x).reads = c.reads ++ columnReads bmp bits base x := by
  unfold Canvas.paint columnReads
  split
  · rfl
  · rfl

theorem paint_writes (x : Nat) :
    (c.paint bmp bits base place x).writes = c.writes ++ [place + x] := by
  unfold Canvas.paint
  split
  · rfl
  · rfl

theorem mem_paintLine_reads (width r : Nat) :
    r ∈ (c.paintLine bmp bits base place width).reads <->
      r ∈ c.reads ∨ exists x, x < width ∧ r ∈ columnReads bmp bits base x := by
  induction width with
  | zero => simp [Canvas.paintLine]
  | succ width ih =>
      rw [Canvas.paintLine, paint_reads, List.mem_append, ih, or_assoc]
      simp only [Nat.lt_succ_iff_lt_or_eq, or_and_right, exists_or, exists_eq_left]

theorem mem_paintLine_writes (width p : Nat) :
    p ∈ (c.paintLine bmp bits base place width).writes <->
      p ∈ c.writes ∨ exists x, x < width ∧ p = place + x := by
  induction width with
  | zero => simp [Canvas.paintLine]
  | succ width ih =>
      rw [Canvas.paintLine, paint_writes, List.mem_append, ih, or_assoc, List.mem_singleton]
      simp only [Nat.lt_succ_iff_lt_or_eq, or_and_right, exists_or, exists_eq_left]

variable (h : BmpHeader)

theorem mem_paintRows_reads (rows r : Nat) :
    r ∈ (c.paintRows bmp h rows).reads <->
      r ∈ c.reads ∨ exists row, row < rows ∧ exists x, x < h.pixelWidth ∧
        r ∈ columnReads bmp h.bitPerPixel (h.rowBase row) x := by
  induction rows with
  | zero => simp [Canvas.paintRows]
  | succ rows ih =>
      rw [Canvas.paintRows, mem_paintLine_reads, ih, or_assoc]
      simp only [Nat.lt_succ_iff_lt_or_eq, or_and_right, exists_or, exists_eq_left]

theorem mem_paintRows_writes (rows p : Nat) :
    p ∈ (c.paintRows bmp h rows).writes <->
      p ∈ c.writes ∨ exists row, row < rows ∧ exists x, x < h.pixelWidth ∧
        p = h.rowPlace row + x := by
  induction rows with
  | zero => simp [Canvas.paintRows]
  | succ rows ih =>
      rw [Canvas.paintRows, mem_paintLine_writes, ih, or_assoc]
      simp only [Nat.lt_succ_iff_lt_or_eq, or_and_right, exists_or, exists_eq_left]

end Traces

/-!
# Headers that are accepted
-/

theorem guard_eq_none_iff {condition : Prop} [Decidable condition] {status : EfiStatus}
    {rest : Option EfiStatus} :
    (if condition then some status else rest) = none <-> ¬ condition ∧ rest = none := by
  split
  · simp [*]
  · simp [*]

theorem dataSizePerLine_eq (h : BmpHeader) :
    h.dataSizePerLine = (h.pixelWidth * h.bitPerPixel + 31) % 2 ^ 32 / 32 * 4 := by
  unfold BmpHeader.dataSizePerLine u32
  rw [and_mask (by decide), Nat.shiftRight_eq_div_pow]
  omega

theorem stride_eq (bits width : Nat) : stride bits width = (width * bits + 31) / 32 * 4 := by
  unfold stride lineBytes
  rw [← div_mul_eq_alignUp (by decide)]
  omega

theorem dataSizePerLine_of_fits {h : BmpHeader}
    (hfits : h.pixelWidth * h.bitPerPixel + 31 < 2 ^ 32) :
    h.dataSizePerLine = stride h.bitPerPixel h.pixelWidth := by
  rw [dataSizePerLine_eq, stride_eq, Nat.mod_eq_of_lt hfits]

theorem dataSizePerLine_lt_of_carry {h : BmpHeader}
    (hcarry : 2 ^ 32 ≤ h.pixelWidth * h.bitPerPixel + 31) :
    h.dataSizePerLine < lineBytes h.bitPerPixel h.pixelWidth := by
  rw [dataSizePerLine_eq]
  unfold lineBytes
  omega

structure Accepted (arch : Arch) (bmpImageSize : Nat) (h : BmpHeader) : Prop where
  header : bmpHeaderSize ≤ h.imageOffset
  image : h.imageOffset + h.pixelHeight * h.dataSizePerLine = bmpImageSize
  colorMap : h.imageOffset = bmpHeaderSize ∨
    h.imageOffset = bmpHeaderSize + colorSize * colorMapNum h.bitPerPixel
  pixels : h.pixelWidth * h.pixelHeight ≤ (2 ^ arch.uintnBits - 1) / colorSize

theorem accepted_of_check {arch : Arch} {bmpImageSize : Nat} {h : BmpHeader}
    (hcheck : h.check arch bmpImageSize = none) : Accepted arch bmpImageSize h := by
  unfold BmpHeader.check at hcheck
  simp only [guard_eq_none_iff] at hcheck
  rcases hcheck with ⟨-, -, -, hline, hsize, hheader, hmap, hpixels, -⟩
  rw [not_or, not_or, not_not, not_not] at hsize
  rw [Nat.mul_comm] at hline
  have himage : u32 (h.pixelHeight * h.dataSizePerLine) = h.pixelHeight * h.dataSizePerLine :=
    u32_of_lt (by omega)
  constructor
  · exact Nat.le_of_not_lt hheader
  · omega
  · by_cases hnone : h.imageOffset = bmpHeaderSize
    · exact Or.inl hnone
    · right
      have hexact := not_not.mp fun hother => hmap ⟨by omega, hother⟩
      omega
  · exact Nat.le_of_not_lt hpixels

theorem Accepted.lt_uintn {arch : Arch} {bmpImageSize : Nat} {h : BmpHeader}
    (haccepted : Accepted arch bmpImageSize h) :
    h.pixelWidth * h.pixelHeight < 2 ^ arch.uintnBits := by
  have hpos : 0 < 2 ^ arch.uintnBits := Nat.two_pow_pos _
  have hpixels := haccepted.pixels
  unfold colorSize at hpixels
  omega

/-!
# Where the columns are
-/

theorem rowPlace_add_lt {h : BmpHeader} {row x : Nat} (hrow : row < h.pixelHeight)
    (hx : x < h.pixelWidth) : h.rowPlace row + x < h.pixelWidth * h.pixelHeight := by
  have hle : (h.pixelHeight - row - 1 + 1) * h.pixelWidth ≤ h.pixelHeight * h.pixelWidth :=
    Nat.mul_le_mul_right _ (by omega)
  rw [Nat.add_mul, Nat.one_mul] at hle
  unfold BmpHeader.rowPlace
  rw [Nat.mul_comm h.pixelWidth]
  omega

theorem rowBase_add_le {h : BmpHeader} {row : Nat} (hrow : row < h.pixelHeight) :
    h.rowBase row + stride h.bitPerPixel h.pixelWidth ≤
      h.imageOffset + h.pixelHeight * stride h.bitPerPixel h.pixelWidth := by
  have hle : (row + 1) * stride h.bitPerPixel h.pixelWidth ≤
      h.pixelHeight * stride h.bitPerPixel h.pixelWidth :=
    Nat.mul_le_mul_right _ hrow
  rw [Nat.add_mul, Nat.one_mul] at hle
  unfold BmpHeader.rowBase
  omega

theorem lineBytes_le_stride (bits width : Nat) : lineBytes bits width ≤ stride bits width :=
  le_alignUp 4 _

theorem columnData_lt {bits width x : Nat} (hbits : Supported bits) (hx : x < width) :
    (bits = 24 -> 3 * x + 2 < lineBytes bits width) ∧ x * bits / 8 < lineBytes bits width := by
  unfold lineBytes
  rcases hbits with rfl | rfl | rfl | rfl
  · omega
  · omega
  · omega
  · omega

/-- Inside the image are the data of a column, and its entry of the colour map. -/
theorem columnReads_lt_iff {bmp : Mem} {bits width base x stop : Nat} (hbits : Supported bits)
    (hx : x < width) (hbase : base + lineBytes bits width ≤ stop) :
    (forall r, r ∈ columnReads bmp bits base x -> r < stop) <->
      (bits ≠ 24 -> colorMapAt (pixelIndex bmp bits base x) + 2 < stop) := by
  have hdata := columnData_lt hbits hx
  unfold columnReads
  by_cases hcolor : bits = 24
  · have hlast := hdata.1 hcolor
    rw [if_pos hcolor]
    simp only [List.mem_cons, List.not_mem_nil, or_false]
    constructor
    · exact fun _ hnot => absurd hcolor hnot
    · intro _ r hr
      omega
  · rw [if_neg hcolor]
    simp only [List.mem_cons, List.not_mem_nil, or_false]
    constructor
    · intro hall _
      exact hall _ (Or.inr (Or.inl rfl))
    · intro hmap r hr
      have hentry := hmap hcolor
      omega

theorem last_mem_columnReads (bmp : Mem) {bits width : Nat} (hbits : Supported bits)
    (hwidth : 0 < width) (base : Nat) :
    base + lineBytes bits width - 1 ∈ columnReads bmp bits base (width - 1) := by
  unfold columnReads lineBytes
  rcases hbits with rfl | rfl | rfl | rfl
  · rw [if_neg (by decide), show base + (width * 1 + 7) / 8 - 1 = base + (width - 1) * 1 / 8 by omega]
    exact List.mem_cons_self ..
  · rw [if_neg (by decide), show base + (width * 4 + 7) / 8 - 1 = base + (width - 1) * 4 / 8 by omega]
    exact List.mem_cons_self ..
  · rw [if_neg (by decide), show base + (width * 8 + 7) / 8 - 1 = base + (width - 1) * 8 / 8 by omega]
    exact List.mem_cons_self ..
  · rw [if_pos rfl, show base + (width * 24 + 7) / 8 - 1 = base + 3 * (width - 1) + 2 by omega]
    simp

theorem colorMapAt_lt {bits : Nat} (hbits : Supported bits) (hmapped : bits ≠ 24) (bmp : Mem)
    (base x : Nat) :
    colorMapAt (pixelIndex bmp bits base x) + 2 <
      bmpHeaderSize + colorSize * colorMapNum bits := by
  have hlt : pixelIndex bmp bits base x < 2 ^ bits := Nat.mod_lt _ (Nat.two_pow_pos bits)
  unfold colorMapAt colorSize
  rcases hbits with rfl | rfl | rfl | rfl
  · change _ < bmpHeaderSize + 4 * 2
    omega
  · change _ < bmpHeaderSize + 4 * 16
    omega
  · change _ < bmpHeaderSize + 4 * 256
    omega
  · exact absurd rfl hmapped

/-!
# How the conversion ends
-/

section Ends

variable {env : BltEnv} {bmp : Mem} {bmpImageSize : Nat}

/-- The header is accepted, and there is a buffer for the pixels. -/
structure Converts (env : BltEnv) (bmp : Mem) (bmpImageSize : Nat) : Prop where
  header : bmpHeaderSize ≤ bmpImageSize
  check : (bmpHeader bmp).check env.arch bmpImageSize = none
  buffer : env.obtainBlt
    ((bmpHeader bmp).pixelWidth * (bmpHeader bmp).pixelHeight * colorSize) = none

theorem convert_of_not_converts (hnot : ¬ Converts env bmp bmpImageSize) :
    exists e, convertBmpToGopBlt env bmp bmpImageSize = some e ∧
      (forall r, r ∈ e.canvas.reads -> r < bmpImageSize) ∧ e.canvas.writes = [] := by
  unfold convertBmpToGopBlt
  by_cases hheader : bmpHeaderSize ≤ bmpImageSize
  · have hreads : forall r, r ∈ List.range bmpHeaderSize -> r < bmpImageSize :=
      fun r hr => Nat.lt_of_lt_of_le (List.mem_range.mp hr) hheader
    rw [if_neg (Nat.not_lt_of_le hheader)]
    dsimp only
    cases hcheck : (bmpHeader bmp).check env.arch bmpImageSize with
    | some status => exact ⟨_, rfl, hreads, rfl⟩
    | none =>
        dsimp only
        cases hbuffer : env.obtainBlt
            ((bmpHeader bmp).pixelWidth * (bmpHeader bmp).pixelHeight * colorSize) with
        | some status => exact ⟨_, rfl, hreads, rfl⟩
        | none => exact absurd ⟨hheader, hcheck, hbuffer⟩ hnot
  · rw [if_pos (Nat.lt_of_not_le hheader)]
    exact ⟨_, rfl, fun r hr => absurd hr List.not_mem_nil, rfl⟩

def bltBytes (bmp : Mem) : Nat :=
  (bmpHeader bmp).pixelWidth * (bmpHeader bmp).pixelHeight * colorSize

theorem convert_of_converts (h : Converts env bmp bmpImageSize) :
    convertBmpToGopBlt env bmp bmpImageSize =
      (convertRows env.arch bmp (bmpHeader bmp) (bmpHeader bmp).pixelHeight 0
        (env.start (bmpHeader bmp))).map fun (status, s) =>
          env.finish (bltBytes bmp) status s := by
  unfold convertBmpToGopBlt
  rw [if_neg (Nat.not_lt_of_le h.header)]
  dsimp only
  rw [h.check]
  dsimp only
  rw [h.buffer]
  rfl

/-- All rows are painted if the packing is known, or if there is no pixel in them. -/
theorem convert_paints (h : Converts env bmp bmpImageSize)
    (hpaints : 0 < (bmpHeader bmp).pixelWidth -> 0 < (bmpHeader bmp).pixelHeight ->
      Supported (bmpHeader bmp).bitPerPixel) :
    exists s : ConvertState,
      convertBmpToGopBlt env bmp bmpImageSize =
        some (env.finish (bltBytes bmp) EfiStatus.success s) ∧
      s.canvas = (env.canvas (List.range bmpHeaderSize)).paintRows bmp (bmpHeader bmp)
        (bmpHeader bmp).pixelHeight := by
  have hstart : env.start (bmpHeader bmp) =
      { image := (bmpHeader bmp).rowBase 0, blt := 0,
        canvas := (env.canvas (List.range bmpHeaderSize)).paintRows bmp (bmpHeader bmp) 0 } := by
    apply convertState_ext
    · change _ = (bmpHeader bmp).imageOffset + 0 * _
      rw [Nat.zero_mul]
      rfl
    · rfl
    · rfl
  have hfits := (accepted_of_check h.check).lt_uintn
  rcases convertRows_paints hpaints hfits (Nat.zero_add _) with ⟨s, hrun, hcanvas⟩
  rw [convert_of_converts h, hstart, hrun]
  exact ⟨s, rfl, hcanvas⟩

theorem convertPixels_unsupported {h : BmpHeader} (hbits : ¬ Supported h.bitPerPixel)
    (width : Nat) (s : ConvertState) : convertPixels bmp h width s = none := by
  unfold Supported at hbits
  rw [not_or, not_or, not_or] at hbits
  unfold convertPixels
  dsimp only
  split
  · rename_i heq
    exact absurd heq hbits.1
  · rename_i heq
    exact absurd heq hbits.2.1
  · rename_i heq
    exact absurd heq hbits.2.2.1
  · rename_i heq
    exact absurd heq hbits.2.2.2
  · rfl

theorem convert_unsupported (h : Converts env bmp bmpImageSize)
    (hbits : ¬ Supported (bmpHeader bmp).bitPerPixel) (hwidth : 0 < (bmpHeader bmp).pixelWidth)
    (hheight : 0 < (bmpHeader bmp).pixelHeight) :
    exists s : ConvertState,
      convertBmpToGopBlt env bmp bmpImageSize =
        some (env.finish (bltBytes bmp) EfiStatus.unsupported s) ∧
      s.canvas = env.canvas (List.range bmpHeaderSize) := by
  have hline : forall s, convertLine bmp (bmpHeader bmp) (bmpHeader bmp).pixelWidth 0 s =
      some (EfiStatus.unsupported, s) := by
    intro s
    rw [← Nat.sub_add_cancel hwidth, convertLine, if_pos (by omega),
      convertPixels_unsupported hbits]
  have hrows : exists s, convertRows env.arch bmp (bmpHeader bmp) (bmpHeader bmp).pixelHeight 0
      (env.start (bmpHeader bmp)) = some (EfiStatus.unsupported, s) ∧
        s.canvas = env.canvas (List.range bmpHeaderSize) := by
    rw [← Nat.sub_add_cancel hheight, convertRows, if_pos (by omega)]
    dsimp only
    rw [hline]
    exact ⟨_, rfl, rfl⟩
  rcases hrows with ⟨s, hrun, hcanvas⟩
  rw [convert_of_converts h, hrun]
  exact ⟨s, rfl, hcanvas⟩

end Ends

end Splash
end BootableUefi
