import BootableUefi.Splash.Bmp

/-!
# Painting column by column

What an image means does not depend on how many pixels share a byte: a column of
a row has a place in the row, in bits, and is painted from there.  The loops of
the conversion paint the columns of a row, and the rows, one after the other.
-/

namespace BootableUefi
namespace Splash

open Firmware Foundation

def Supported (bits : Nat) : Prop :=
  bits = 1 ∨ bits = 4 ∨ bits = 8 ∨ bits = 24

/-- The bytes that so many pixels take, and a whole row with its padding. -/
def lineBytes (bits width : Nat) : Nat :=
  (width * bits + 7) / 8

def stride (bits width : Nat) : Nat :=
  alignUp 4 (lineBytes bits width)

/-- The bits of column `x` in its byte, the most significant ones first. -/
def pixelIndex (bmp : Mem) (bits base x : Nat) : Nat :=
  (bmp (base + x * bits / 8)).toNat / 2 ^ (8 - bits - x * bits % 8) % 2 ^ bits

def Canvas.paint (bmp : Mem) (bits base place x : Nat) (c : Canvas) : Canvas :=
  if bits = 24 then
    c.put (place + x) (bmp (base + 3 * x)) (bmp (base + 3 * x + 1)) (bmp (base + 3 * x + 2))
      [base + 3 * x, base + 3 * x + 1, base + 3 * x + 2]
  else
    c.putMapped bmp (base + x * bits / 8) (place + x) (pixelIndex bmp bits base x)

def Canvas.paintLine (bmp : Mem) (bits base place : Nat) : Nat -> Canvas -> Canvas
  | 0, c => c
  | width + 1, c => (c.paintLine bmp bits base place width).paint bmp bits base place width

def BmpHeader.rowBase (h : BmpHeader) (row : Nat) : Nat :=
  h.imageOffset + row * stride h.bitPerPixel h.pixelWidth

def BmpHeader.rowPlace (h : BmpHeader) (row : Nat) : Nat :=
  (h.pixelHeight - row - 1) * h.pixelWidth

def Canvas.paintRows (bmp : Mem) (h : BmpHeader) : Nat -> Canvas -> Canvas
  | 0, c => c
  | rows + 1, c =>
      (c.paintRows bmp h rows).paintLine bmp h.bitPerPixel (h.rowBase rows) (h.rowPlace rows)
        h.pixelWidth

/-!
# A turn of the loop over a row
-/

section Line

variable {bmp : Mem} {bits base place : Nat} {c : Canvas}

def lineState (bmp : Mem) (bits base place : Nat) (c : Canvas) (width : Nat) : ConvertState where
  image := base + lineBytes bits width
  blt := place + width
  canvas := c.paintLine bmp bits base place width

theorem pixelIndex_bit (bmp : Mem) (base : Nat) {first x left : Nat} (hfirst : first % 8 = 0) (hx : x + left + 1 = first + 8)
    (hleft : left < 8) :
    (bmp (base + first / 8)).toNat >>> left &&& 0x1 = pixelIndex bmp 1 base x := by
  have hbyte : x * 1 / 8 = first / 8 := by omega
  have hshift : 8 - 1 - x * 1 % 8 = left := by omega
  unfold pixelIndex
  rw [hbyte, hshift, Nat.and_one_is_mod, Nat.shiftRight_eq_div_pow, Nat.pow_one]

theorem convertBits_paints (bmp : Mem) (base place : Nat) (c : Canvas) {first pixelWidth : Nat}
    (hfirst : first % 8 = 0) {left x : Nat} (hx : x + left = first + 8) (hleft : left ≤ 8)
    (hwidth : x ≤ pixelWidth) :
    convertBits bmp pixelWidth left x
        { image := base + first / 8, blt := place + x,
          canvas := c.paintLine bmp 1 base place x } =
      (min pixelWidth (first + 8),
        { image := base + first / 8, blt := place + min pixelWidth (first + 8),
          canvas := c.paintLine bmp 1 base place (min pixelWidth (first + 8)) }) := by
  induction left generalizing x with
  | zero =>
      rw [Nat.add_zero] at hx
      rw [convertBits, ← hx, Nat.min_eq_right hwidth]
  | succ left ih =>
      rw [convertBits]
      dsimp only
      by_cases hmore : x < pixelWidth
      · have hindex := pixelIndex_bit bmp base hfirst (by omega : x + left + 1 = first + 8)
          (by omega)
        have hbyte : x * 1 / 8 = first / 8 := by omega
        have hnext := ih (by omega : x + 1 + left = first + 8) (by omega) (by omega)
        rw [if_pos hmore, hindex, ← hnext, Canvas.paintLine, Canvas.paint,
          if_neg (by decide), hbyte, Nat.add_assoc]
      · rw [if_neg hmore, Nat.min_eq_left (by omega), Nat.le_antisymm hwidth (by omega)]

/-- A turn of the loop goes on behind the columns that it has painted. -/
structure Turn (bmp : Mem) (h : BmpHeader) (base place : Nat) (c : Canvas) (x next : Nat) :
    Prop where
  later : x < next
  inside : next ≤ h.pixelWidth
  whole : next * h.bitPerPixel % 8 = 0 ∨ next = h.pixelWidth
  run : exists s, convertPixels bmp h x (lineState bmp h.bitPerPixel base place c x) =
      some (next - 1, s) ∧
    ({ s with image := s.image + 1, blt := s.blt + 1 } : ConvertState) =
      lineState bmp h.bitPerPixel base place c next

theorem convertState_ext {s t : ConvertState} (himage : s.image = t.image) (hblt : s.blt = t.blt)
    (hcanvas : s.canvas = t.canvas) : s = t := by
  cases s
  cases t
  cases himage
  cases hblt
  cases hcanvas
  rfl

variable {h : BmpHeader} {x : Nat}

theorem turn_one (hbits : h.bitPerPixel = 1) (hx : x < h.pixelWidth) (hwhole : x % 8 = 0) :
    exists next, Turn bmp h base place c x next := by
  have hline : lineState bmp h.bitPerPixel base place c x =
      { image := base + x / 8, blt := place + x, canvas := c.paintLine bmp 1 base place x } := by
    rw [hbits]
    apply convertState_ext
    · change base + lineBytes 1 x = base + x / 8
      unfold lineBytes
      omega
    · rfl
    · rfl
  have hrun := convertBits_paints bmp base place c hwhole (rfl : x + 8 = x + 8) (Nat.le_refl 8)
    (Nat.le_of_lt hx)
  refine ⟨min h.pixelWidth (x + 8), by omega, by omega, ?_, ?_⟩
  · rw [hbits]
    omega
  · rw [hline]
    unfold convertPixels
    rw [hbits]
    dsimp only
    rw [hrun]
    refine ⟨_, rfl, ?_⟩
    apply convertState_ext
    · change base + x / 8 + 1 = base + lineBytes 1 (min h.pixelWidth (x + 8))
      unfold lineBytes
      omega
    · change place + min h.pixelWidth (x + 8) - 1 + 1 = place + min h.pixelWidth (x + 8)
      omega
    · rfl

theorem pixelIndex_high (bmp : Mem) (base : Nat) (hwhole : x * 4 % 8 = 0) :
    (bmp (base + x * 4 / 8)).toNat >>> 4 = pixelIndex bmp 4 base x := by
  have hbyte := (bmp (base + x * 4 / 8)).toNat_lt
  unfold pixelIndex
  rw [hwhole, Nat.shiftRight_eq_div_pow]
  omega

theorem pixelIndex_low (bmp : Mem) (base : Nat) (hwhole : x * 4 % 8 = 0) :
    (bmp (base + x * 4 / 8)).toNat &&& 0x0f = pixelIndex bmp 4 base (x + 1) := by
  have hbyte : (x + 1) * 4 / 8 = x * 4 / 8 := by omega
  have hshift : 8 - 4 - (x + 1) * 4 % 8 = 0 := by omega
  unfold pixelIndex
  rw [hbyte, hshift, Nat.pow_zero, Nat.div_one]
  exact Nat.and_two_pow_sub_one_eq_mod _ 4

theorem turn_four (hbits : h.bitPerPixel = 4) (hx : x < h.pixelWidth)
    (hwhole : x * 4 % 8 = 0) : exists next, Turn bmp h base place c x next := by
  have hline : lineState bmp h.bitPerPixel base place c x =
      { image := base + x * 4 / 8, blt := place + x,
        canvas := c.paintLine bmp 4 base place x } := by
    rw [hbits]
    apply convertState_ext
    · change base + lineBytes 4 x = base + x * 4 / 8
      unfold lineBytes
      omega
    · rfl
    · rfl
  have hfirst : (c.paintLine bmp 4 base place x).putMapped bmp (base + x * 4 / 8) (place + x)
      ((bmp (base + x * 4 / 8)).toNat >>> 4) = c.paintLine bmp 4 base place (x + 1) := by
    rw [pixelIndex_high bmp base hwhole]
    rfl
  by_cases hmore : x < h.pixelWidth - 1
  · refine ⟨x + 2, by omega, by omega, Or.inl (by rw [hbits]; omega), ?_⟩
    rw [hline]
    unfold convertPixels
    rw [hbits]
    dsimp only
    rw [if_pos hmore, hfirst]
    refine ⟨_, rfl, ?_⟩
    apply convertState_ext
    · change base + x * 4 / 8 + 1 = base + lineBytes 4 (x + 2)
      unfold lineBytes
      omega
    · rfl
    · have hbyte : (x + 1) * 4 / 8 = x * 4 / 8 := by omega
      change (c.paintLine bmp 4 base place (x + 1)).putMapped bmp (base + x * 4 / 8)
        (place + x + 1) ((bmp (base + x * 4 / 8)).toNat &&& 0x0f) =
          (c.paintLine bmp 4 base place (x + 1)).putMapped bmp (base + (x + 1) * 4 / 8)
            (place + (x + 1)) (pixelIndex bmp 4 base (x + 1))
      rw [pixelIndex_low bmp base hwhole, hbyte]
      rfl
  · refine ⟨x + 1, by omega, hx, Or.inr (by omega), ?_⟩
    rw [hline]
    unfold convertPixels
    rw [hbits]
    dsimp only
    rw [if_neg hmore, hfirst]
    refine ⟨_, rfl, ?_⟩
    apply convertState_ext
    · change base + x * 4 / 8 + 1 = base + lineBytes 4 (x + 1)
      unfold lineBytes
      omega
    · rfl
    · rfl

theorem pixelIndex_byte (bmp : Mem) (base x : Nat) :
    pixelIndex bmp 8 base x = (bmp (base + x)).toNat := by
  have hbyte : x * 8 / 8 = x := by omega
  have hshift : 8 - 8 - x * 8 % 8 = 0 := by omega
  have hlt := (bmp (base + x)).toNat_lt
  unfold pixelIndex
  rw [hbyte, hshift, Nat.pow_zero, Nat.div_one]
  exact Nat.mod_eq_of_lt hlt

theorem turn_eight (hbits : h.bitPerPixel = 8) (hx : x < h.pixelWidth) :
    exists next, Turn bmp h base place c x next := by
  have hbytes : forall w, lineBytes 8 w = w := by
    intro w
    unfold lineBytes
    omega
  refine ⟨x + 1, Nat.lt_succ_self x, hx, Or.inl (by rw [hbits]; omega), ?_⟩
  unfold convertPixels
  rw [hbits]
  dsimp only
  refine ⟨_, rfl, ?_⟩
  apply convertState_ext
  · change base + lineBytes 8 x + 1 = base + lineBytes 8 (x + 1)
    rw [hbytes, hbytes]
    rfl
  · rfl
  · change (c.paintLine bmp 8 base place x).putMapped bmp (base + lineBytes 8 x) (place + x)
        (bmp (base + lineBytes 8 x)).toNat =
      (c.paintLine bmp 8 base place x).putMapped bmp (base + x * 8 / 8) (place + x)
        (pixelIndex bmp 8 base x)
    rw [hbytes, pixelIndex_byte, Nat.mul_div_cancel _ (by decide)]

theorem turn_twentyFour (hbits : h.bitPerPixel = 24) (hx : x < h.pixelWidth) :
    exists next, Turn bmp h base place c x next := by
  have hbytes : forall w, lineBytes 24 w = 3 * w := by
    intro w
    unfold lineBytes
    omega
  refine ⟨x + 1, Nat.lt_succ_self x, hx, Or.inl (by rw [hbits]; omega), ?_⟩
  unfold convertPixels
  rw [hbits]
  dsimp only
  refine ⟨_, rfl, ?_⟩
  apply convertState_ext
  · change base + lineBytes 24 x + 2 + 1 = base + lineBytes 24 (x + 1)
    rw [hbytes, hbytes]
    rfl
  · rfl
  · unfold lineState
    dsimp only
    rw [hbytes]
    rfl

/-- In each packing a turn paints what is in the byte, or the three bytes. -/
theorem turn_of_supported (hbits : Supported h.bitPerPixel) (hx : x < h.pixelWidth)
    (hwhole : x * h.bitPerPixel % 8 = 0) : exists next, Turn bmp h base place c x next := by
  rcases hbits with hbits | hbits | hbits | hbits
  · rw [hbits, Nat.mul_one] at hwhole
    exact turn_one hbits hx hwhole
  · rw [hbits] at hwhole
    exact turn_four hbits hx hwhole
  · exact turn_eight hbits hx
  · exact turn_twentyFour hbits hx

/-!
# The loops
-/

theorem convertLine_paints (hbits : Supported h.bitPerPixel) {turns : Nat}
    (hturns : h.pixelWidth ≤ x + turns) (hinside : x ≤ h.pixelWidth)
    (hwhole : x * h.bitPerPixel % 8 = 0 ∨ x = h.pixelWidth) :
    convertLine bmp h turns x (lineState bmp h.bitPerPixel base place c x) =
      some (EfiStatus.success, lineState bmp h.bitPerPixel base place c h.pixelWidth) := by
  induction turns generalizing x with
  | zero =>
      have hend : x = h.pixelWidth := by omega
      rw [convertLine, if_neg (by omega), hend]
  | succ turns ih =>
      rw [convertLine]
      by_cases hmore : x < h.pixelWidth
      · have hstart := hwhole.resolve_right (Nat.ne_of_lt hmore)
        have hsome : exists next, Turn bmp h base place c x next :=
          turn_of_supported hbits hmore hstart
        rcases hsome with ⟨next, hturn⟩
        rcases hturn.run with ⟨s, hrun, hnext⟩
        have hlater := hturn.later
        rw [if_pos hmore, hrun]
        dsimp only
        rw [hnext, Nat.sub_add_cancel (by omega)]
        exact ih (by omega) hturn.inside hturn.whole
      · have hend : x = h.pixelWidth := by omega
        rw [if_neg hmore, hend]

end Line

section Rows

variable {arch : Arch} {bmp : Mem} {h : BmpHeader} {c : Canvas}

/-- A row can be painted if its packing is known, or if there is nothing in it. -/
theorem convertLine_row (hpaints : 0 < h.pixelWidth -> Supported h.bitPerPixel)
    (base place : Nat) (c : Canvas) :
    convertLine bmp h h.pixelWidth 0 { image := base, blt := place, canvas := c } =
      some (EfiStatus.success, lineState bmp h.bitPerPixel base place c h.pixelWidth) := by
  have hstart : ({ image := base, blt := place, canvas := c } : ConvertState) =
      lineState bmp h.bitPerPixel base place c 0 := by
    apply convertState_ext
    · change base = base + (0 * h.bitPerPixel + 7) / 8
      rw [Nat.zero_mul]
      rfl
    · rfl
    · rfl
  rw [hstart]
  rcases Nat.eq_zero_or_pos h.pixelWidth with hempty | hwidth
  · rw [hempty]
    unfold convertLine
    rw [if_neg (by omega)]
  · exact convertLine_paints (hpaints hwidth) (by omega) (Nat.zero_le _)
      (Or.inl (by rw [Nat.zero_mul]))

theorem padLine_row (h : BmpHeader) (row : Nat) (s : ConvertState)
    (himage : s.image = h.rowBase row + lineBytes h.bitPerPixel h.pixelWidth) :
    s.padLine h.imageOffset = { s with image := h.rowBase (row + 1) } := by
  have hmod : stride h.bitPerPixel h.pixelWidth % 4 = 0 :=
    Nat.mod_eq_zero_of_dvd (alignUp_dvd (by decide) _)
  have hrow : row * stride h.bitPerPixel h.pixelWidth % 4 = 0 := by
    rw [Nat.mul_mod, hmod]
    rfl
  have hindex : (s.image - h.imageOffset) % 4 = lineBytes h.bitPerPixel h.pixelWidth % 4 := by
    unfold BmpHeader.rowBase at himage
    omega
  have hnext : h.rowBase (row + 1) = h.rowBase row + stride h.bitPerPixel h.pixelWidth := by
    unfold BmpHeader.rowBase
    rw [Nat.add_mul, Nat.one_mul, Nat.add_assoc]
  have hstride : stride h.bitPerPixel h.pixelWidth =
      if lineBytes h.bitPerPixel h.pixelWidth % 4 = 0 then lineBytes h.bitPerPixel h.pixelWidth
      else lineBytes h.bitPerPixel h.pixelWidth +
        (4 - lineBytes h.bitPerPixel h.pixelWidth % 4) := rfl
  unfold ConvertState.padLine
  dsimp only
  rw [hindex, hnext, hstride]
  by_cases hfull : lineBytes h.bitPerPixel h.pixelWidth % 4 = 0
  · rw [if_neg (not_not.mpr hfull), if_pos hfull, ← himage]
  · rw [if_pos hfull, if_neg hfull, himage, Nat.add_assoc]

theorem convertRows_paints
    (hpaints : 0 < h.pixelWidth -> 0 < h.pixelHeight -> Supported h.bitPerPixel)
    (hfits : h.pixelWidth * h.pixelHeight < 2 ^ arch.uintnBits) {turns row blt : Nat}
    (hturns : row + turns = h.pixelHeight) :
    exists s, convertRows arch bmp h turns row
        { image := h.rowBase row, blt := blt, canvas := c.paintRows bmp h row } =
        some (EfiStatus.success, s) ∧ s.canvas = c.paintRows bmp h h.pixelHeight := by
  induction turns generalizing row blt with
  | zero =>
      rw [Nat.add_zero] at hturns
      rw [convertRows, if_neg (by omega), hturns]
      exact ⟨_, rfl, rfl⟩
  | succ turns ih =>
      have hplace : arch.uintn ((h.pixelHeight - row - 1) * h.pixelWidth) = h.rowPlace row := by
        apply uintn_of_lt
        apply Nat.lt_of_le_of_lt _ hfits
        rw [Nat.mul_comm h.pixelWidth]
        exact Nat.mul_le_mul_right _ (by omega)
      rw [convertRows, if_pos (by omega)]
      dsimp only
      rw [hplace, convertLine_row fun hwidth => hpaints hwidth (by omega)]
      dsimp only
      rw [if_neg (by decide), padLine_row h row _ rfl]
      exact ih (by omega)

end Rows

end Splash
end BootableUefi
