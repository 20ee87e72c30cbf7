import Mathlib.Algebra.Order.Ring.Nat
import Mathlib.Algebra.BigOperators.Group.List.Basic
import BootableUefi.Foundation.Bytes

/-!
# Writes and pieces

A device is a function from offsets to bytes, changed by writes of whole
ranges.  An image laid out as consecutive pieces, each with or without content,
is written by one write for each piece with content; what the device holds
afterwards is decided piece by piece.
-/

namespace Foundation

structure ByteWrite where
  offset : Nat
  size : Nat
  data : Mem

def ByteWrite.apply (w : ByteWrite) (device : Mem) : Mem :=
  fun x => if w.offset ≤ x ∧ x < w.offset + w.size then w.data (x - w.offset) else device x

def applyAll (writes : List ByteWrite) (device : Mem) : Mem :=
  writes.foldl (fun current w => w.apply current) device

theorem applyAll_append (xs ys : List ByteWrite) (device : Mem) :
    applyAll (xs ++ ys) device = applyAll ys (applyAll xs device) := by
  simp [applyAll, List.foldl_append]

theorem ByteWrite.apply_of_not_mem {w : ByteWrite} {device : Mem} {x : Nat}
    (h : x < w.offset ∨ w.offset + w.size ≤ x) : w.apply device x = device x := by
  unfold ByteWrite.apply
  rw [if_neg]
  omega

theorem ByteWrite.apply_of_mem {w : ByteWrite} {device : Mem} {i : Nat} (h : i < w.size) :
    w.apply device (w.offset + i) = w.data i := by
  unfold ByteWrite.apply
  rw [if_pos (by omega), Nat.add_sub_cancel_left]

/-!
# Pieces
-/

/-- A piece of an image; without content it leaves the device alone. -/
structure Piece where
  length : Nat
  content : Option Mem

def Piece.writes (start : Nat) (p : Piece) : List ByteWrite :=
  match p.content with
  | some data => [{ offset := start, size := p.length, data := data }]
  | none => []

/-- The writes of the pieces laid out one after the other. -/
def writesOf : Nat -> List Piece -> List ByteWrite
  | _, [] => []
  | start, p :: ps => p.writes start ++ writesOf (start + p.length) ps

def totalLength (ps : List Piece) : Nat :=
  (ps.map Piece.length).sum

@[simp] theorem totalLength_nil : totalLength [] = 0 := rfl

@[simp] theorem totalLength_cons (p : Piece) (ps : List Piece) :
    totalLength (p :: ps) = p.length + totalLength ps := by
  simp [totalLength]

def pieceStart (start : Nat) (ps : List Piece) (k : Nat) : Nat :=
  start + totalLength (ps.take k)

theorem applyAll_writesOf_outside {start : Nat} {ps : List Piece} {device : Mem} {x : Nat}
    (h : x < start ∨ start + totalLength ps ≤ x) :
    applyAll (writesOf start ps) device x = device x := by
  induction ps generalizing start device with
  | nil => rfl
  | cons p ps ih =>
      rw [totalLength_cons] at h
      rw [writesOf, applyAll_append, ih (by omega)]
      cases hcontent : p.content with
      | none => simp [Piece.writes, hcontent, applyAll]
      | some data =>
          have houtside : x < start ∨ start + p.length ≤ x := by omega
          simp only [Piece.writes, hcontent, applyAll, List.foldl_cons, List.foldl_nil]
          exact ByteWrite.apply_of_not_mem houtside

/-- What a piece leaves on the device. -/
def Piece.result (p : Piece) (device : Mem) (start i : Nat) : UInt8 :=
  match p.content with
  | some data => data i
  | none => device (start + i)

/-- Inside its extent a piece decides alone what the device holds. -/
theorem applyAll_writesOf_inside {start : Nat} {ps : List Piece} {device : Mem}
    {k : Nat} {p : Piece} (hp : ps[k]? = some p) {i : Nat} (hi : i < p.length) :
    applyAll (writesOf start ps) device (pieceStart start ps k + i) =
      p.result device (pieceStart start ps k) i := by
  induction ps generalizing start device k with
  | nil => simp at hp
  | cons q qs ih =>
      rw [writesOf, applyAll_append]
      cases k with
      | zero =>
          simp only [List.getElem?_cons_zero, Option.some.injEq] at hp
          subst hp
          have hstart : pieceStart start (q :: qs) 0 = start := by simp [pieceStart]
          rw [hstart, applyAll_writesOf_outside (by omega)]
          cases hcontent : q.content with
          | none => simp [Piece.writes, hcontent, applyAll, Piece.result]
          | some data =>
              simp only [Piece.writes, hcontent, applyAll, List.foldl_cons, List.foldl_nil,
                Piece.result]
              exact ByteWrite.apply_of_mem hi
      | succ k =>
          have hstart : pieceStart start (q :: qs) (k + 1) =
              pieceStart (start + q.length) qs k := by
            simp [pieceStart, Nat.add_assoc]
          rw [hstart, ih hp]
          cases hcontent : p.content with
          | some data => simp [Piece.result, hcontent]
          | none =>
              have hbefore : start + q.length ≤ pieceStart (start + q.length) qs k + i := by
                unfold pieceStart
                omega
              simp only [Piece.result, hcontent]
              cases hfirst : q.content with
              | none => simp [Piece.writes, hfirst, applyAll]
              | some data =>
                  simp only [Piece.writes, hfirst, applyAll, List.foldl_cons, List.foldl_nil]
                  exact ByteWrite.apply_of_not_mem (Or.inr hbefore)

end Foundation
