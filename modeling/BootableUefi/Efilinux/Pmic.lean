import BootableUefi.Firmware.Status
import BootableUefi.Foundation.Bytes
import BootableUefi.Foundation.StringSets

/-!
# The kind of the PMIC

`pmic_get_type_from_smbios` follows the strings behind an SMBIOS record up to the
one whose number stands in the record.  It counts them from 1, and a number of 0
says that there is no string.
-/

namespace BootableUefi
namespace Efilinux

open Firmware Foundation

inductive PmicType where
  | crystalRohm
  | dollarXpower
  | dollarTi
  | unknown
  deriving DecidableEq, Repr

/-- The firmware; `table` is the memory from the record on. -/
structure SmbiosEnv where
  locateProtocol : EfiStatus
  smbios : Bool
  getNext : EfiStatus
  table : Mem

/-- Where `hdr.Length` and `PmicVersion` stand in `SMBIOS_TABLE_TYPE94`. -/
def lengthOffset : Nat :=
  1

def pmicVersionOffset : Nat :=
  16

structure Walk where
  bufferStr : Nat
  bufferPtr : Nat
  i : Nat
  reads : List Nat

def skipString (table : Mem) : Nat -> Nat -> List Nat -> Option (Nat × List Nat)
  | 0, _, _ => none
  | fuel + 1, p, reads =>
      if table p ≠ 0 then
        skipString table fuel (p + 1) (reads ++ [p])
      else
        some (p, reads ++ [p])

def walkStrings (table : Mem) : Nat -> Walk -> Option Walk
  | 0, _ => none
  | fuel + 1, w =>
      let reads := w.reads ++ [pmicVersionOffset]
      if w.i < (table pmicVersionOffset).toNat then
        let reads := reads ++ [w.bufferStr]
        if table w.bufferStr = 0 then
          some { w with reads := reads }
        else
          match skipString table fuel w.bufferPtr reads with
          | none => none
          | some (p, reads) =>
              walkStrings table fuel
                { bufferStr := p + 1, bufferPtr := p + 1, i := w.i + 1, reads := reads }
      else
        some { w with reads := reads }

/-- The comparisons after the loop, at `buffer_str`. -/
def pmicTypeAt (table : Mem) (p : Nat) : PmicType :=
  if table p = 0x31 ∧ table (p + 1) = 0x46 then
    PmicType.crystalRohm
  else if table p = 0x34 ∧ table (p + 1) = 0x31 then
    PmicType.dollarXpower
  else if table p = 0x30 ∧ table (p + 1) = 0x33 then
    PmicType.dollarTi
  else
    PmicType.unknown

/-- What they read: the second character only after a first one that fits. -/
def pmicTypeReads (table : Mem) (p : Nat) : List Nat :=
  if table p = 0x31 ∨ table p = 0x34 ∨ table p = 0x30 then [p, p + 1] else [p]

/-- The type, and the offsets from the record on that have been read. -/
structure PmicRun where
  type : PmicType
  reads : List Nat

def pmicGetTypeFromSmbios (env : SmbiosEnv) (fuel : Nat) : Option PmicRun :=
  if efiError env.locateProtocol || !env.smbios then
    some { type := PmicType.unknown, reads := [] }
  else if efiError env.getNext then
    some { type := PmicType.unknown, reads := [] }
  else
    let length := (env.table lengthOffset).toNat
    let start := { bufferStr := length, bufferPtr := length, i := 1, reads := [lengthOffset] }
    (walkStrings env.table fuel start).map fun w =>
      { type := pmicTypeAt env.table w.bufferStr
        reads := w.reads ++ pmicTypeReads env.table w.bufferStr }

/-!
# The walk
-/

def Within (stop : Nat) (reads : List Nat) : Prop :=
  forall i, i ∈ reads -> i ≤ stop

theorem Within.append {stop : Nat} {reads reads' : List Nat} (h : Within stop reads)
    (h' : Within stop reads') : Within stop (reads ++ reads') :=
  fun i hi => (List.mem_append.mp hi).elim (h i) (h' i)

theorem Within.snoc {stop i : Nat} {reads : List Nat} (h : Within stop reads) (hi : i ≤ stop) :
    Within stop (reads ++ [i]) := by
  apply h.append
  intro j hj
  rw [List.mem_singleton.mp hj]
  exact hi

section Walk

variable {table : Mem} {p stop : Nat} {s : List UInt8} {strings : List (List UInt8)}

theorem skipString_ends (hreads : ReadsAs 0 table p s) (hstop : p + s.length ≤ stop)
    {fuel : Nat} (hfuel : s.length < fuel) {reads : List Nat} (hwithin : Within stop reads) :
    exists after, skipString table fuel p reads = some (p + s.length, after) ∧
      Within stop after := by
  induction fuel generalizing p s reads with
  | zero => exact absurd hfuel (Nat.not_lt_zero _)
  | succ fuel ih =>
      have hhere : Within stop (reads ++ [p]) := hwithin.snoc (by omega)
      rw [skipString]
      cases s with
      | nil =>
          have hend : table p = 0 := hreads
          rw [if_neg (not_not.mpr hend)]
          exact ⟨_, rfl, hhere⟩
      | cons c cs =>
          rcases hreads with ⟨hfirst, hne, hrest⟩
          rw [List.length_cons] at hstop hfuel ⊢
          rw [if_pos (hfirst ▸ hne)]
          rcases ih hrest (by omega) (by omega) hhere with ⟨after, hrun, hafter⟩
          refine ⟨after, ?_, hafter⟩
          rw [hrun, Nat.add_right_comm, Nat.add_assoc]

/-- The walk stands at the string it was to find, or at the end of the set. -/
structure WalkEnds (table : Mem) (stop : Nat) (rest : List (List UInt8)) (after : Walk) :
    Prop where
  holds : HoldsStrings 0 table after.bufferStr rest
  ends : after.bufferStr + setSize rest = stop
  reads : Within stop after.reads

theorem walkStrings_ends {w : Walk} (hholds : HoldsStrings 0 table w.bufferStr strings)
    (hptr : w.bufferPtr = w.bufferStr) (hstop : w.bufferStr + setSize strings = stop)
    (hversion : pmicVersionOffset ≤ stop) (hwithin : Within stop w.reads) {fuel : Nat}
    (hfuel : setSize strings < fuel) :
    exists after, walkStrings table fuel w = some after ∧
      WalkEnds table stop (strings.drop ((table pmicVersionOffset).toNat - w.i)) after := by
  induction fuel generalizing w strings with
  | zero => exact absurd hfuel (Nat.not_lt_zero _)
  | succ fuel ih =>
      have htested : Within stop (w.reads ++ [pmicVersionOffset]) := hwithin.snoc hversion
      rw [walkStrings]
      dsimp only
      by_cases hmore : w.i < (table pmicVersionOffset).toNat
      · have hfirst : Within stop (w.reads ++ [pmicVersionOffset] ++ [w.bufferStr]) :=
          htested.snoc (by omega)
        rw [if_pos hmore]
        cases strings with
        | nil =>
            have hend : table w.bufferStr = 0 := hholds
            rw [if_pos hend, List.drop_nil]
            exact ⟨_, rfl, hend, hstop, hfirst⟩
        | cons s strings =>
            rcases hholds with ⟨hne, hs, hrest⟩
            have hsome : table w.bufferStr ≠ 0 := fun h => hne (hs.eq_nul_iff.mp h)
            have hsize : setSize (s :: strings) = s.length + 1 + setSize strings := rfl
            rcases skipString_ends hs (by omega : w.bufferStr + s.length ≤ stop)
              (by omega : s.length < fuel) hfirst with ⟨reads, hskip, hreads⟩
            rw [if_neg hsome, hptr, hskip]
            dsimp only
            let next : Walk :=
              { bufferStr := w.bufferStr + s.length + 1, bufferPtr := w.bufferStr + s.length + 1,
                i := w.i + 1, reads := reads }
            have hnext : HoldsStrings 0 table next.bufferStr strings := hrest
            have hnextStop : next.bufferStr + setSize strings = stop := by
              change w.bufferStr + s.length + 1 + setSize strings = stop
              omega
            have hleft : (table pmicVersionOffset).toNat - w.i =
                (table pmicVersionOffset).toNat - (w.i + 1) + 1 := by
              omega
            rw [hleft, List.drop_succ_cons]
            exact ih hnext rfl hnextStop hreads (by omega)
      · rw [if_neg hmore, Nat.sub_eq_zero_of_le (Nat.le_of_not_lt hmore)]
        exact ⟨_, rfl, hholds, hstop, htested⟩

end Walk

/-!
# The string that is looked at
-/

def pmicTypeOf (s : List UInt8) : PmicType :=
  if (ascii "1F").isPrefixOf s then
    PmicType.crystalRohm
  else if (ascii "41").isPrefixOf s then
    PmicType.dollarXpower
  else if (ascii "03").isPrefixOf s then
    PmicType.dollarTi
  else
    PmicType.unknown

section String

variable {table : Mem} {p : Nat} {s : List UInt8}

theorem begins_iff_of_readsAs (hreads : ReadsAs 0 table p s) {a b : UInt8} (ha : a ≠ 0)
    (hb : b ≠ 0) : (table p = a ∧ table (p + 1) = b) <-> [a, b].isPrefixOf s = true := by
  have hword : 0 ∉ [a, b] := by simp [ha.symm, hb.symm]
  have hcarries := carries_iff_of_readsAs hreads hword
  rw [carries_from_cons, carries_from_cons] at hcarries
  rw [List.isPrefixOf_iff_prefix, ← hcarries]
  simp [Carries]

theorem pmicTypeAt_eq (hreads : ReadsAs 0 table p s) : pmicTypeAt table p = pmicTypeOf s := by
  unfold pmicTypeAt pmicTypeOf
  simp only [begins_iff_of_readsAs hreads (by decide : (0x31 : UInt8) ≠ 0)
      (by decide : (0x46 : UInt8) ≠ 0),
    begins_iff_of_readsAs hreads (by decide : (0x34 : UInt8) ≠ 0)
      (by decide : (0x31 : UInt8) ≠ 0),
    begins_iff_of_readsAs hreads (by decide : (0x30 : UInt8) ≠ 0)
      (by decide : (0x33 : UInt8) ≠ 0)]
  rfl

theorem pmicTypeReads_within (hreads : ReadsAs 0 table p s) :
    Within (p + s.length) (pmicTypeReads table p) := by
  unfold pmicTypeReads
  split
  · rename_i hknown
    have hsome : s ≠ [] := by
      intro hempty
      rw [hreads.eq_nul_iff.mpr hempty] at hknown
      revert hknown
      decide
    have hlength := List.length_pos_iff.mpr hsome
    intro i hi
    simp only [List.mem_cons, List.not_mem_nil, or_false] at hi
    omega
  · intro i hi
    rw [List.mem_singleton.mp hi]
    exact Nat.le_add_right p _

end String

/-- A record with the fields up to `PmicVersion`, and the strings behind it. -/
structure Type94 where
  table : Mem
  strings : List (List UInt8)
  fields : pmicVersionOffset < (table lengthOffset).toNat
  holds : HoldsStrings 0 table (table lengthOffset).toNat strings

/-- Where the empty string stands that ends the set. -/
def Type94.stop (record : Type94) : Nat :=
  (record.table lengthOffset).toNat + setSize record.strings

def Type94.pmicVersion (record : Type94) : Nat :=
  (record.table pmicVersionOffset).toNat

/-- The type by the number in the record, counted from 1. -/
def Type94.namedType (record : Type94) : PmicType :=
  match record.pmicVersion with
  | 0 => PmicType.unknown
  | n + 1 =>
      match record.strings[n]? with
      | none => PmicType.unknown
      | some s => pmicTypeOf s

def Type94.type (record : Type94) (fuel : Nat) : Option PmicRun :=
  pmicGetTypeFromSmbios
    { locateProtocol := EfiStatus.success, smbios := true, getNext := EfiStatus.success,
      table := record.table } fuel

def Type94.Classified (record : Type94) : Prop :=
  forall fuel, setSize record.strings < fuel ->
    exists run, record.type fuel = some run ∧ run.type = record.namedType ∧
      Within record.stop run.reads

/-- The string the walk comes to decides, even if the number says that there is none. -/
theorem Type94.type_ends (record : Type94) {fuel : Nat}
    (hfuel : setSize record.strings < fuel) :
    exists run, record.type fuel = some run ∧
      run.type = pmicTypeOf ((record.strings.drop (record.pmicVersion - 1)).headD []) ∧
      Within record.stop run.reads := by
  have hfields := record.fields
  have hlow : pmicVersionOffset ≤ record.stop :=
    Nat.le_trans (Nat.le_of_lt hfields) (Nat.le_add_right _ _)
  let length := (record.table lengthOffset).toNat
  let start : Walk :=
    { bufferStr := length, bufferPtr := length, i := 1, reads := [lengthOffset] }
  have hstart : Within record.stop start.reads := by
    intro i hi
    rw [List.mem_singleton.mp hi]
    exact Nat.le_trans (by decide) hlow
  have hholds : HoldsStrings 0 record.table start.bufferStr record.strings := record.holds
  have hplace : start.bufferStr + setSize record.strings = record.stop := rfl
  rcases walkStrings_ends hholds rfl hplace hlow hstart hfuel with ⟨after, hwalk, hends⟩
  have hstring := hends.holds.readsAs
  refine ⟨{ type := pmicTypeAt record.table after.bufferStr,
            reads := after.reads ++ pmicTypeReads record.table after.bufferStr }, ?_, ?_, ?_⟩
  · change (walkStrings record.table fuel start).map _ = _
    rw [hwalk]
    rfl
  · exact pmicTypeAt_eq hstring
  · apply hends.reads.append
    intro i hi
    have hle := pmicTypeReads_within hstring i hi
    have hsize := length_headD_le_setSize
      (record.strings.drop ((record.table pmicVersionOffset).toNat - start.i))
    have hstop : after.bufferStr + setSize
      (record.strings.drop ((record.table pmicVersionOffset).toNat - start.i)) = record.stop :=
      hends.ends
    omega

theorem Type94.namedType_eq (record : Type94) (hnumber : record.pmicVersion ≠ 0) :
    pmicTypeOf ((record.strings.drop (record.pmicVersion - 1)).headD []) =
      record.namedType := by
  unfold Type94.namedType
  cases hversion : record.pmicVersion with
  | zero => exact absurd hversion hnumber
  | succ n =>
      rw [Nat.add_sub_cancel, List.headD_eq_head?_getD, List.head?_drop]
      dsimp only
      cases record.strings[n]? with
      | none => rfl
      | some s => rfl

/-- Only a number of 0 is not understood, where the first string names a type. -/
theorem Type94.classified_iff (record : Type94) :
    record.Classified <->
      record.pmicVersion ≠ 0 ∨ pmicTypeOf (record.strings.headD []) = PmicType.unknown := by
  constructor
  · intro hclassified
    by_contra hwrong
    rw [not_or, not_not] at hwrong
    have hfuel := Nat.lt_succ_self (setSize record.strings)
    rcases hclassified _ hfuel with ⟨run, hrun, htype, -⟩
    rcases record.type_ends hfuel with ⟨run', hrun', hfirst, -⟩
    rw [hrun] at hrun'
    cases hrun'
    rw [htype, hwrong.1, Nat.zero_sub, List.drop_zero] at hfirst
    apply hwrong.2
    rw [← hfirst]
    unfold Type94.namedType
    rw [hwrong.1]
  · intro hnumber fuel hfuel
    rcases record.type_ends hfuel with ⟨run, hrun, htype, hreads⟩
    refine ⟨run, hrun, ?_, hreads⟩
    rw [htype]
    by_cases hzero : record.pmicVersion = 0
    · have hunknown := hnumber.resolve_left (not_not.mpr hzero)
      rw [hzero, Nat.zero_sub, List.drop_zero, hunknown]
      unfold Type94.namedType
      rw [hzero]
    · exact record.namedType_eq hzero

/-- A record of 26 bytes with the number 0, and one string, "03", behind it. -/
def unnumbered : Type94 where
  table := fun x => if x = 0 then 0x94 else if x = 1 then 26 else if x = 26 then 0x30
    else if x = 27 then 0x33 else 0
  strings := [[0x30, 0x33]]
  fields := by decide
  holds := by
    refine ⟨List.cons_ne_nil _ _, ⟨rfl, by decide, rfl, by decide, rfl⟩, rfl⟩

theorem unnumbered_dollarTi :
    (unnumbered.type 5).map PmicRun.type = some PmicType.dollarTi ∧
      unnumbered.namedType = PmicType.unknown ∧ ¬ unnumbered.Classified := by
  refine ⟨rfl, rfl, ?_⟩
  intro hclassified
  rcases hclassified 5 (by decide) with ⟨run, hrun, htype, -⟩
  cases hrun
  cases htype

end Efilinux
end BootableUefi
