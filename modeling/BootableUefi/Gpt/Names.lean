import BootableUefi.Gpt.Labels
import Mathlib.Data.List.Find

/-!
# Names that fill their field

A name may take up all 36 units of its field, and then no terminator follows it
in the entry.  `StrCmp` reads on into whatever is there, so that a lookup depends
on more than the names exactly for labels of 36 units and more.
-/

namespace BootableUefi
namespace Gpt

open Firmware Foundation

/-- The entry is in use, and its name is the label, cut at a NUL or at the end of its field. -/
def GptEntry.matchesName (label : Label) (entry : GptEntry) : Bool :=
  entry.type ≠ nullGuid ∧ entry.part.label = label.units

/--
Names alone decide: an entry in use is taken for a match exactly if its name is
the label, the first match is returned, and `EFI_NOT_FOUND` if there is none.
-/
structure DecidedByName (label : Label) (disks : List GptDisk)
    (result : Except EfiStatus GptPartitionInterface) : Prop where
  decides : forall entry, entry ∈ entriesOf disks -> entry.type ≠ nullGuid ->
    (strCmp label.units entry.name = 0 <-> entry.part.label = label.units)
  found : forall gpart, result = Except.ok gpart <->
    ((entriesOf disks).find? fun entry => entry.matchesName label).map GptEntry.interface =
      some gpart
  notFound : result = Except.error EfiStatus.notFound <->
    forall entry, entry ∈ entriesOf disks -> entry.matchesName label = false

/--
A name that fills its field and is the label has a zero behind it, and no label
that is longer than a name is found from the start of one on.
-/
structure NamesEnd (label : Label) (disks : List GptDisk) : Prop where
  full : label.units.length = nameWidth -> forall entry, entry ∈ entriesOf disks ->
    entry.type ≠ nullGuid -> entry.part.label = label.units -> entry.name nameWidth = 0
  long : nameWidth < label.units.length -> forall entry, entry ∈ entriesOf disks ->
    entry.type ≠ nullGuid ->
      ¬ (Carries entry.name label.units ∧ entry.name label.units.length = 0)

theorem label_eq_iff {label : Label} {entry : GptEntry} :
    entry.part.label = label.units <->
      Carries entry.name label.units ∧ label.units.length ≤ nameWidth ∧
        (label.units.length < nameWidth -> entry.name label.units.length = 0) := by
  have hfield : entry.part.label = fieldString 0 (field entry.name nameWidth) := rfl
  rw [hfield, fieldString_field_iff label.nonzero]

theorem strCmp_decides_iff (label : Label) (disks : List GptDisk) :
    (forall entry, entry ∈ entriesOf disks -> entry.type ≠ nullGuid ->
      (strCmp label.units entry.name = 0 <-> entry.part.label = label.units)) <->
      NamesEnd label disks := by
  rcases Nat.lt_trichotomy label.units.length nameWidth with hshort | hfull | hlong
  · constructor
    · intro _
      exact ⟨fun h => absurd h (Nat.ne_of_lt hshort), fun h => absurd h (Nat.lt_asymm hshort)⟩
    · intro _ entry _ _
      rw [strCmp_eq_zero_iff, label_eq_iff]
      simp [hshort, Nat.le_of_lt hshort]
  · have hsame : forall entry : GptEntry, entry.part.label = label.units <->
        Carries entry.name label.units := by
      intro entry
      rw [label_eq_iff]
      simp [hfull]
    constructor
    · intro h
      refine ⟨?_, fun hlong => absurd hfull (Nat.ne_of_gt hlong)⟩
      intro _ entry hmem hused hname
      have hzero := ((h entry hmem hused).mpr hname)
      rw [strCmp_eq_zero_iff, hfull] at hzero
      exact hzero.2
    · intro h entry hmem hused
      rw [strCmp_eq_zero_iff, hfull]
      constructor
      · intro hcarries
        exact (hsame entry).mpr hcarries.1
      · intro hname
        exact ⟨(hsame entry).mp hname, h.full hfull entry hmem hused hname⟩
  · have hnever : forall entry : GptEntry, ¬ entry.part.label = label.units := by
      intro entry hname
      exact absurd (label_eq_iff.mp hname).2.1 (Nat.not_le.mpr hlong)
    constructor
    · intro h
      refine ⟨fun hfull => absurd hfull (Nat.ne_of_gt hlong), ?_⟩
      intro _ entry hmem hused hcarries
      exact hnever entry ((h entry hmem hused).mp ((strCmp_eq_zero_iff _).mpr hcarries))
    · intro h entry hmem hused
      rw [strCmp_eq_zero_iff]
      exact iff_of_false (h.long hlong entry hmem hused) (hnever entry)

theorem find_hasLabel_eq {label : Label} {disks : List GptDisk}
    (h : forall entry, entry ∈ entriesOf disks -> entry.type ≠ nullGuid ->
      (strCmp label.units entry.name = 0 <-> entry.part.label = label.units)) :
    (entriesOf disks).find? (fun entry => entry.hasLabel label) =
      (entriesOf disks).find? (fun entry => entry.matchesName label) := by
  apply List.find?_congr
  intro entry hmem
  unfold GptEntry.hasLabel GptEntry.matchesName
  by_cases hused : entry.type = nullGuid
  · simp [hused]
  · simp [hused, h entry hmem hused]

/--
With the tables cached, a lookup is decided by the names exactly if no name that
fills its field, or is shorter than the label, goes on into the label behind it.
-/
theorem gptGet_decidedByName_iff {fw : GptFirmware} {disks : Option (List GptDisk)}
    {cached : List GptDisk} (label : Label) (hcache : cachedDisks fw disks = Except.ok cached) :
    DecidedByName label cached (gptGetPartitionByLabel fw disks label).1 <->
      NamesEnd label cached := by
  rw [← strCmp_decides_iff]
  constructor
  · exact fun h => h.decides
  · intro h
    have hfind : findLabel label cached =
        ((entriesOf cached).find? fun entry => entry.matchesName label).map
          GptEntry.interface := by
      rw [findLabel_eq, find_hasLabel_eq h]
    refine ⟨h, ?_, ?_⟩
    · intro gpart
      rw [← hfind]
      unfold gptGetPartitionByLabel
      rw [hcache]
      dsimp only
      cases findLabel label cached <;> simp
    · have hnone : (forall entry, entry ∈ entriesOf cached ->
          entry.matchesName label = false) <-> findLabel label cached = none := by
        rw [hfind, Option.map_eq_none_iff, List.find?_eq_none]
        simp
      rw [hnone]
      unfold gptGetPartitionByLabel
      rw [hcache]
      dsimp only
      cases findLabel label cached <;> simp

/-- A disk with one entry in use, with the name "x", from block 5 to block 9. -/
def namedDisk : GptDisk where
  bio := 1
  dio := 2
  numberOfEntries := 1
  partitions := fun x =>
    if x = 0 then 1 else if x = 32 then 5 else if x = 40 then 9 else if x = 56 then 0x78 else 0

def shortLabel : Label where
  units := [0x78]
  nonzero := by simp

theorem gptGet_decidedByName_iff_of_named :
    (gptGetPartitionByLabel listingFirmware (some [namedDisk]) shortLabel).1 =
        Except.ok (GptEntry.interface { disk := namedDisk, index := 0 }) ∧
      DecidedByName shortLabel [namedDisk]
        (gptGetPartitionByLabel listingFirmware (some [namedDisk]) shortLabel).1 := by
  have hcache : cachedDisks listingFirmware (some [namedDisk]) = Except.ok [namedDisk] :=
    rfl
  refine ⟨rfl, (gptGet_decidedByName_iff shortLabel hcache).mpr ?_⟩
  constructor
  · intro hfull
    cases hfull
  · intro hlong
    exact absurd hlong (by decide)

/-- A disk with one entry in use, whose name is 36 times "A", and memory that goes on behind it. -/
def fullNameDisk : GptDisk where
  bio := 1
  dio := 2
  numberOfEntries := 1
  partitions := fun x =>
    if x = 0 ∨ x = 128 then 1 else if 56 ≤ x ∧ x < 128 ∧ x % 2 = 0 then 0x41 else 0

def fullLabel : Label where
  units := List.replicate 36 0x41
  nonzero := by
    intro c hc
    rw [List.eq_of_mem_replicate hc]
    decide

/-- The partition has the name that is looked up, and is not found. -/
theorem full_name_not_found :
    (GptEntry.part { disk := fullNameDisk, index := 0 }).label = fullLabel.units ∧
      (gptGetPartitionByLabel listingFirmware (some [fullNameDisk]) fullLabel).1 =
        Except.error EfiStatus.notFound ∧
      ¬ DecidedByName fullLabel [fullNameDisk]
        (gptGetPartitionByLabel listingFirmware (some [fullNameDisk]) fullLabel).1 := by
  have hname : (GptEntry.part { disk := fullNameDisk, index := 0 }).label = fullLabel.units := by
    decide +kernel
  have hmissing : findLabel fullLabel [fullNameDisk] = none := by
    decide +kernel
  have hresult : (gptGetPartitionByLabel listingFirmware (some [fullNameDisk]) fullLabel).1 =
      Except.error EfiStatus.notFound := by
    simp [gptGetPartitionByLabel, cachedDisks, hmissing]
  refine ⟨hname, hresult, ?_⟩
  intro h
  have hmem : (GptEntry.mk fullNameDisk 0) ∈ entriesOf [fullNameDisk] := by
    simp [entriesOf, GptDisk.entries, fullNameDisk]
  have hnone := h.notFound.mp hresult _ hmem
  revert hnone
  decide +kernel

end Gpt
end BootableUefi
