import Mathlib.Tactic.IntervalCases
import BootableUefi.Foundation.Pieces

/-!
# Bytes laid out in memory

A list of bytes is in memory from an offset on.  What is in memory as a
concatenation is there part by part, and a little-endian field that is in memory
reads as the number it was made of.
-/

namespace Foundation

def leBytes (width n : Nat) : List UInt8 :=
  (List.range width).map (byteOf n)

@[simp] theorem length_leBytes (width n : Nat) : (leBytes width n).length = width := by
  simp [leBytes]

def Shows (mem : Mem) (offset : Nat) (bytes : List UInt8) : Prop :=
  forall i (h : i < bytes.length), mem (offset + i) = bytes[i]

section Shows

variable {mem : Mem} {offset : Nat} {xs ys : List UInt8}

theorem shows_memOf (bytes : List UInt8) : Shows (memOf bytes) 0 bytes := by
  intro i h
  unfold memOf
  rw [Nat.zero_add, List.getD_eq_getElem?_getD, List.getElem?_eq_getElem h]
  rfl

theorem shows_append :
    Shows mem offset (xs ++ ys) <->
      Shows mem offset xs ∧ Shows mem (offset + xs.length) ys := by
  constructor
  · intro h
    constructor
    · intro i hi
      rw [h i (by rw [List.length_append]; omega), List.getElem_append_left hi]
    · intro i hi
      rw [Nat.add_assoc, h (xs.length + i) (by rw [List.length_append]; omega)]
      simp
  · intro h i hi
    rcases h with ⟨hxs, hys⟩
    rw [List.length_append] at hi
    rcases Nat.lt_or_ge i xs.length with hlt | hge
    · rw [List.getElem_append_left hlt]
      exact hxs i hlt
    · rw [List.getElem_append_right hge, ← hys (i - xs.length) (by omega), Nat.add_assoc,
        Nat.add_sub_cancel' hge]

theorem length_flatMap_of_width {ι : Type _} {f : ι -> List UInt8} {width : Nat}
    {blocks : List ι} (hwidth : forall b, b ∈ blocks -> (f b).length = width) :
    (blocks.flatMap f).length = blocks.length * width := by
  induction blocks with
  | nil => simp
  | cons b blocks ih =>
      rw [List.flatMap_cons, List.length_append, hwidth b (List.mem_cons_self ..),
        ih fun c hc => hwidth c (List.mem_cons_of_mem b hc), List.length_cons, Nat.succ_mul,
        Nat.add_comm]

/-- Blocks of one length in a row are found at its multiples. -/
theorem shows_flatMap {ι : Type _} {f : ι -> List UInt8} {width : Nat} {blocks : List ι}
    (hwidth : forall b, b ∈ blocks -> (f b).length = width)
    (h : Shows mem offset (blocks.flatMap f)) {k : Nat} (hk : k < blocks.length) :
    Shows mem (offset + k * width) (f blocks[k]) := by
  induction blocks generalizing offset k with
  | nil => cases hk
  | cons b blocks ih =>
      rw [List.flatMap_cons, shows_append, hwidth b (List.mem_cons_self ..)] at h
      cases k with
      | zero => simpa using h.1
      | succ k =>
          have hrest := ih (fun c hc => hwidth c (List.mem_cons_of_mem b hc)) h.2
            (Nat.lt_of_succ_lt_succ hk)
          rwa [Nat.succ_mul, Nat.add_comm (k * width), ← Nat.add_assoc]

theorem Shows.eq_memOf (h : Shows mem offset xs) {i : Nat} (hi : i < xs.length) :
    mem (offset + i) = memOf xs i := by
  rw [h i hi, ← shows_memOf xs i hi, Nat.zero_add]

theorem Shows.of_eq {others : Mem} {start : Nat} (h : Shows mem offset xs)
    (heq : forall i, i < xs.length -> others (start + i) = mem (offset + i)) :
    Shows others start xs := by
  intro i hi
  rw [heq i hi, h i hi]

theorem Shows.drop (h : Shows mem offset xs) {n : Nat} (hn : n ≤ xs.length) :
    Shows mem (offset + n) (xs.drop n) := by
  rw [← List.take_append_drop n xs, shows_append, List.length_take, Nat.min_eq_left hn] at h
  exact h.2

theorem Shows.byte {n width : Nat} (h : Shows mem offset (leBytes width n)) {i : Nat}
    (hi : i < width) : (mem (offset + i)).toNat = n / 2 ^ (8 * i) % 256 := by
  rw [h i (by rwa [length_leBytes])]
  simp [leBytes, byteOf]

theorem Shows.le16 {n : Nat} (h : Shows mem offset (leBytes 2 n)) (hn : n < 2 ^ 16) :
    le16 mem offset = n := by
  have h0 := h.byte (i := 0) (by decide)
  have h1 := h.byte (i := 1) (by decide)
  rw [Nat.add_zero] at h0
  unfold Foundation.le16
  rw [h0, h1]
  omega

theorem Shows.le32 {n : Nat} (h : Shows mem offset (leBytes 4 n)) (hn : n < 2 ^ 32) :
    le32 mem offset = n := by
  have h0 := h.byte (i := 0) (by decide)
  have h1 := h.byte (i := 1) (by decide)
  have h2 := h.byte (i := 2) (by decide)
  have h3 := h.byte (i := 3) (by decide)
  rw [Nat.add_zero] at h0
  unfold Foundation.le32 Foundation.le16
  rw [h0, h1, h2, h3]
  omega

theorem le64_lt (mem : Mem) (offset : Nat) : le64 mem offset < 2 ^ 64 := by
  have hlow := le32_lt mem offset
  have hhigh := le32_lt mem (offset + 4)
  unfold Foundation.le64
  omega

theorem Shows.le64 {n : Nat} (h : Shows mem offset (leBytes 8 n)) (hn : n < 2 ^ 64) :
    le64 mem offset = n := by
  have hsplit : leBytes 8 n = leBytes 4 (n % 2 ^ 32) ++ leBytes 4 (n / 2 ^ 32) := by
    apply List.ext_getElem (by simp)
    intro i hi _
    rw [length_leBytes] at hi
    have hbyte : (byteOf n i).toNat = n / 2 ^ (8 * i) % 256 := by
      simp [byteOf]
    rw [List.getElem_append]
    split
    · rename_i hlow
      rw [length_leBytes] at hlow
      simp only [leBytes, List.getElem_map, List.getElem_range]
      rw [← UInt8.toNat_inj, hbyte]
      simp only [byteOf, UInt8.toNat_ofNat']
      interval_cases i <;> omega
    · rename_i hhigh
      rw [length_leBytes] at hhigh
      simp only [leBytes, List.getElem_map, List.getElem_range, List.length_map, List.length_range]
      rw [← UInt8.toNat_inj, hbyte]
      simp only [byteOf, UInt8.toNat_ofNat']
      interval_cases i <;> omega
  rw [hsplit, shows_append, length_leBytes] at h
  unfold Foundation.le64
  rw [h.1.le32 (by omega), h.2.le32 (by omega)]
  omega

/-!
# Padding
-/

def padTo (size : Nat) (bytes : List UInt8) : List UInt8 :=
  bytes ++ List.replicate (size - bytes.length) 0

theorem length_padTo {size : Nat} (h : xs.length ≤ size) : (padTo size xs).length = size := by
  rw [padTo, List.length_append, List.length_replicate, Nat.add_sub_cancel' h]

theorem Shows.unpadded {size : Nat} (h : Shows mem offset (padTo size xs)) :
    Shows mem offset xs :=
  (shows_append.mp h).1

/-- How many blocks of a size hold `n` bytes. -/
def blockCount (size n : Nat) : Nat :=
  (n + size - 1) / size

theorem le_blockCount_mul {size : Nat} (h : 0 < size) (n : Nat) :
    n ≤ blockCount size n * size := by
  unfold blockCount
  have hdiv := Nat.div_add_mod (n + size - 1) size
  have hmod := Nat.mod_lt (n + size - 1) h
  rw [Nat.mul_comm] at hdiv
  omega

def inBlocks (size : Nat) (bytes : List UInt8) : List UInt8 :=
  padTo (blockCount size bytes.length * size) bytes

theorem length_inBlocks {size : Nat} (h : 0 < size) (bytes : List UInt8) :
    (inBlocks size bytes).length = blockCount size bytes.length * size :=
  length_padTo (le_blockCount_mul h bytes.length)

end Shows

/-!
# Writes with the same bytes
-/

/-- Only the bytes inside a write matter. -/
theorem ByteWrite.apply_congr {v w : ByteWrite} (hoffset : v.offset = w.offset)
    (hsize : v.size = w.size) (hdata : forall i, i < w.size -> v.data i = w.data i)
    (device : Mem) : v.apply device = w.apply device := by
  funext x
  unfold ByteWrite.apply
  rw [hoffset, hsize]
  split
  · rename_i hx
    exact hdata _ (by omega)
  · rfl

theorem writesOf_append (start : Nat) (ps qs : List Piece) :
    writesOf start (ps ++ qs) = writesOf start ps ++ writesOf (start + totalLength ps) qs := by
  induction ps generalizing start with
  | nil => rfl
  | cons p ps ih =>
      rw [List.cons_append, writesOf, writesOf, ih, totalLength_cons, List.append_assoc,
        Nat.add_assoc]

theorem pieceStart_cons_succ (start : Nat) (p : Piece) (ps : List Piece) (k : Nat) :
    pieceStart start (p :: ps) (k + 1) = pieceStart (start + p.length) ps k := by
  simp [pieceStart, Nat.add_assoc]

theorem exists_piece {ps : List Piece} {i : Nat} (h : i < totalLength ps) (start : Nat) :
    exists k p j, ps[k]? = some p ∧ j < p.length ∧ pieceStart start ps k + j = start + i := by
  induction ps generalizing i start with
  | nil => cases h
  | cons p ps ih =>
      rw [totalLength_cons] at h
      rcases Nat.lt_or_ge i p.length with hlt | hge
      · exact ⟨0, p, i, rfl, hlt, by simp [pieceStart]⟩
      · rcases ih (i := i - p.length) (by omega) (start + p.length) with ⟨k, q, j, hq, hj, hat⟩
        refine ⟨k + 1, q, j, hq, hj, ?_⟩
        rw [pieceStart_cons_succ, hat]
        omega

theorem pieceStart_eq (start : Nat) (ps : List Piece) (k : Nat) :
    pieceStart start ps k = start + pieceStart 0 ps k := by
  simp [pieceStart]

/-!
# Regions of a device
-/

/-- Pieces, and where they belong. -/
structure Region where
  start : Nat
  pieces : List Piece

namespace Region

def Covers (r : Region) (x : Nat) : Prop :=
  r.start ≤ x ∧ x < r.start + totalLength r.pieces

def Apart (r other : Region) : Prop :=
  forall x, r.Covers x -> ¬ other.Covers x

/-- Each piece is in its place; one without content has left the device alone. -/
def HoldsOn (r : Region) (before device : Mem) : Prop :=
  forall (k : Nat) (p : Piece) (i : Nat), r.pieces[k]? = some p -> i < p.length ->
    device (pieceStart r.start r.pieces k + i) =
      p.result before (pieceStart r.start r.pieces k) i

end Region

/-- The regions have been laid out, and nothing else has changed. -/
structure LaidOut (rs : List Region) (before device : Mem) : Prop where
  inside : forall r, r ∈ rs -> r.HoldsOn before device
  outside : forall x, (forall r, r ∈ rs -> ¬ r.Covers x) -> device x = before x

section LaidOut

variable {r : Region} {rs : List Region} {before mid device : Mem}

theorem Region.covers_of_piece {k : Nat} {p : Piece} (hp : r.pieces[k]? = some p) {i : Nat}
    (hi : i < p.length) : r.Covers (pieceStart r.start r.pieces k + i) := by
  rcases List.getElem?_eq_some_iff.mp hp with ⟨hk, rfl⟩
  have hsum : totalLength r.pieces = totalLength (r.pieces.take k) + (r.pieces[k].length +
      totalLength (r.pieces.drop (k + 1))) := by
    rw [← totalLength_cons, ← List.drop_eq_getElem_cons hk]
    unfold totalLength
    rw [← List.sum_append, ← List.map_append, List.take_append_drop]
  unfold Region.Covers pieceStart
  omega

theorem LaidOut.single (r : Region) (before : Mem) :
    LaidOut [r] before (applyAll (writesOf r.start r.pieces) before) where
  inside := by
    intro other hmem
    rw [List.mem_singleton.mp hmem]
    intro k p i hp hi
    exact applyAll_writesOf_inside hp hi
  outside := by
    intro x hx
    apply applyAll_writesOf_outside
    have hnot := hx r (List.mem_singleton.mpr rfl)
    unfold Region.Covers at hnot
    omega

/-- What is laid out later, apart from it, leaves a region as it is. -/
theorem LaidOut.cons (hfirst : LaidOut [r] before mid) (hrest : LaidOut rs mid device)
    (hapart : forall other, other ∈ rs -> r.Apart other) :
    LaidOut (r :: rs) before device where
  inside := by
    intro other hmem k p i hp hi
    have hcovers := Region.covers_of_piece hp hi
    rcases List.mem_cons.mp hmem with rfl | hmem
    · rw [hrest.outside _ fun later hlater => hapart later hlater _ hcovers]
      exact hfirst.inside other (List.mem_singleton.mpr rfl) k p i hp hi
    · have hkept : mid (pieceStart other.start other.pieces k + i) =
          before (pieceStart other.start other.pieces k + i) := by
        apply hfirst.outside
        intro first hmem'
        rw [List.mem_singleton.mp hmem']
        exact fun hboth => hapart other hmem _ hboth hcovers
      have hheld := hrest.inside other hmem k p i hp hi
      unfold Piece.result at hheld ⊢
      rwa [hkept] at hheld
  outside := by
    intro x hx
    rcases List.forall_mem_cons.mp hx with ⟨hfirst', hrest'⟩
    rw [hrest.outside x hrest']
    exact hfirst.outside x fun first hmem => by rwa [List.mem_singleton.mp hmem]

theorem LaidOut.nil (before : Mem) : LaidOut [] before before where
  inside := nofun
  outside := fun _ _ => rfl

end LaidOut

end Foundation
