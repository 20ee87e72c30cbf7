import BootableUefi.Gpt.Partitions

/-!
# What is found by label and what is listed

A lookup compares the label with the string that starts at the name of an entry,
wherever that ends; the list is read by the names that fit their fields.  The two
agree for labels of 1 to 35 units, and this module says when they agree for the
others.
-/

namespace BootableUefi
namespace Gpt

open Firmware Foundation

def GptPartition.label (part : GptPartition) : List UInt16 :=
  fieldString 0 part.name

def firstNamed (label : Label) (list : List GptPartitionInterface) :
    Option GptPartitionInterface :=
  list.find? fun gpart => gpart.part.label = label.units

/-- A lookup succeeds exactly if the list has the name, and returns the first entry with it. -/
def ReturnsListed (label : Label) (result : Except EfiStatus GptPartitionInterface)
    (list : List GptPartitionInterface) : Prop :=
  forall gpart, result = Except.ok gpart <-> firstNamed label list = some gpart

/-- The entries of all disks, in the order both functions go through them. -/
def entriesOf (disks : List GptDisk) : List GptEntry :=
  disks.flatMap GptDisk.entries

def GptEntry.isNamed (label : Label) (entry : GptEntry) : Bool :=
  entry.type ≠ nullGuid ∧ label.units ≠ [] ∧ entry.part.label = label.units

/--
No entry in use is unnamed, if the label is empty; the first entry with a label
of 36 units is looked up as the first with a zero behind it; and a label longer
than a name is not found behind one.
-/
structure LabelAgrees (label : Label) (disks : List GptDisk) : Prop where
  empty : label.units = [] -> forall entry, entry ∈ entriesOf disks ->
    entry.type ≠ nullGuid -> entry.name 0 ≠ 0
  full : label.units.length = nameWidth -> forall entry,
    (entriesOf disks).find? (fun entry => entry.isNamed label) = some entry ->
      exists ended, (entriesOf disks).find? (fun entry => entry.hasLabel label) = some ended ∧
        ended.interface = entry.interface
  long : nameWidth < label.units.length -> forall entry, entry ∈ entriesOf disks ->
    entry.hasLabel label = false

/-!
# The two loops as searches of one list
-/

theorem strCmp_eq_zero_iff {text : List UInt16} (units : Nat -> UInt16) :
    strCmp text units = 0 <-> Carries units text ∧ units text.length = 0 := by
  induction text generalizing units with
  | nil => simp [strCmp, Carries, ← UInt16.toNat_inj]
  | cons c cs ih =>
      unfold strCmp Carries
      by_cases hfirst : c = units 0
      · rw [if_neg (not_not.mpr hfirst), ih]
        simp [← hfirst]
      · have hdiff : (c.toNat : Int) - (units 0).toNat ≠ 0 := by
          intro hzero
          apply hfirst
          rw [← UInt16.toNat_inj]
          omega
        rw [if_pos hfirst]
        simp [hdiff, Ne.symm hfirst]

theorem findLabel_eq (label : Label) (disks : List GptDisk) :
    findLabel label disks =
      ((entriesOf disks).find? fun entry => entry.hasLabel label).map GptEntry.interface := by
  rw [entriesOf, List.find?_flatMap]
  unfold findLabel
  induction disks with
  | nil => rfl
  | cons disk disks ih =>
      rw [List.findSome?_cons, List.findSome?_cons, ih]
      cases disk.entries.find? fun entry => entry.hasLabel label <;> rfl

theorem label_eq_nil_iff (entry : GptEntry) : entry.part.label = [] <-> entry.name 0 = 0 := by
  have hfield : entry.part.label = fieldString 0 (field entry.name nameWidth) := rfl
  rw [hfield, nameWidth, field_succ]
  by_cases hfirst : entry.name 0 = 0
  · simp [hfirst, fieldString_nul]
  · simp [hfirst, fieldString_cons hfirst]

theorem firstNamed_listEntries (label : Label) (disks : List GptDisk) :
    firstNamed label (listEntries disks) =
      ((entriesOf disks).find? fun entry => entry.isNamed label).map GptEntry.interface := by
  have hlist : listEntries disks =
      ((entriesOf disks).filter fun entry => entry.isListed).map GptEntry.interface := by
    simp [listEntries, entriesOf, List.filter_flatMap, List.map_flatMap]
  rw [firstNamed, hlist, List.find?_map, List.find?_filter]
  congr 2
  funext entry
  have hpart : entry.interface.part.label = entry.part.label := rfl
  have hempty := label_eq_nil_iff entry
  by_cases hlabel : entry.part.label = label.units
  · rw [hlabel] at hempty
    simp [GptEntry.isListed, GptEntry.isNamed, hpart, hlabel, hempty]
  · simp [GptEntry.isNamed, hpart, hlabel]

/-!
# One entry
-/

section Entries

variable {label : Label} {entry : GptEntry}

theorem hasLabel_iff :
    entry.hasLabel label = true <->
      entry.type ≠ nullGuid ∧ Carries entry.name label.units ∧
        entry.name label.units.length = 0 := by
  simp [GptEntry.hasLabel, strCmp_eq_zero_iff]

theorem isNamed_iff :
    entry.isNamed label = true <->
      entry.type ≠ nullGuid ∧ label.units ≠ [] ∧ Carries entry.name label.units ∧
        label.units.length ≤ nameWidth ∧
        (label.units.length < nameWidth -> entry.name label.units.length = 0) := by
  have hfield : entry.part.label = fieldString 0 (field entry.name nameWidth) := rfl
  unfold GptEntry.isNamed
  rw [decide_eq_true_iff, hfield, fieldString_field_iff label.nonzero]

theorem hasLabel_eq_isNamed (hpos : label.units ≠ [])
    (hshort : label.units.length < nameWidth) (entry : GptEntry) :
    entry.hasLabel label = entry.isNamed label := by
  rw [Bool.eq_iff_iff, hasLabel_iff, isNamed_iff]
  simp [hpos, hshort, Nat.le_of_lt hshort]

theorem isNamed_of_hasLabel (hfull : label.units.length = nameWidth)
    (h : entry.hasLabel label = true) : entry.isNamed label = true := by
  rw [hasLabel_iff] at h
  rw [isNamed_iff]
  have hpos : label.units ≠ [] := by
    intro hnil
    rw [hnil] at hfull
    cases hfull
  exact ⟨h.1, hpos, h.2.1, Nat.le_of_eq hfull, fun hlt => absurd hfull (Nat.ne_of_lt hlt)⟩

theorem isNamed_empty (hempty : label.units = []) (entry : GptEntry) :
    entry.isNamed label = false := by
  rw [Bool.eq_false_iff]
  intro h
  exact (isNamed_iff.mp h).2.1 hempty

theorem isNamed_long (hlong : nameWidth < label.units.length) (entry : GptEntry) :
    entry.isNamed label = false := by
  rw [Bool.eq_false_iff]
  intro h
  exact absurd (isNamed_iff.mp h).2.2.2.1 (Nat.not_le.mpr hlong)

theorem hasLabel_empty (hempty : label.units = []) :
    entry.hasLabel label = false <-> (entry.type ≠ nullGuid -> entry.name 0 ≠ 0) := by
  rw [← Bool.not_eq_true, hasLabel_iff]
  simp [hempty, Carries]

end Entries

/-!
# All entries
-/

/-- The two searches end at entries with the same contents, or both at none. -/
def SameFound (label : Label) (disks : List GptDisk) : Prop :=
  ((entriesOf disks).find? fun entry => entry.hasLabel label).map GptEntry.interface =
    ((entriesOf disks).find? fun entry => entry.isNamed label).map GptEntry.interface

theorem sameFound_iff_of_unnamed {label : Label} {disks : List GptDisk}
    (h : forall entry : GptEntry, entry.isNamed label = false) :
    SameFound label disks <-> forall entry, entry ∈ entriesOf disks ->
      entry.hasLabel label = false := by
  have hnone : (entriesOf disks).find? (fun entry => entry.isNamed label) = none := by
    rw [List.find?_eq_none]
    intro entry _
    simp [h entry]
  rw [SameFound, hnone]
  simp

theorem sameFound_of_short {label : Label} (hpos : label.units ≠ [])
    (hshort : label.units.length < nameWidth) (disks : List GptDisk) :
    SameFound label disks := by
  rw [SameFound, funext (hasLabel_eq_isNamed hpos hshort)]

theorem sameFound_iff_of_full {label : Label} (hfull : label.units.length = nameWidth)
    (disks : List GptDisk) :
    SameFound label disks <-> forall entry,
      (entriesOf disks).find? (fun entry => entry.isNamed label) = some entry ->
        exists ended, (entriesOf disks).find? (fun entry => entry.hasLabel label) = some ended ∧
          ended.interface = entry.interface := by
  unfold SameFound
  cases hnamed : (entriesOf disks).find? fun entry => entry.isNamed label with
  | none =>
      have hnone : (entriesOf disks).find? (fun entry => entry.hasLabel label) = none := by
        rw [List.find?_eq_none] at hnamed ⊢
        intro entry hmem hlabel
        exact hnamed entry hmem (isNamed_of_hasLabel hfull hlabel)
      simp [hnone]
  | some entry => simp

theorem sameFound_iff (label : Label) (disks : List GptDisk) :
    SameFound label disks <-> LabelAgrees label disks := by
  rcases Nat.lt_trichotomy label.units.length nameWidth with hshort | hfull | hlong
  · by_cases hempty : label.units = []
    · rw [sameFound_iff_of_unnamed (isNamed_empty hempty)]
      constructor
      · intro h
        refine ⟨fun _ entry hmem => (hasLabel_empty hempty).mp (h entry hmem), ?_, ?_⟩
        · exact fun hfull => absurd hfull (Nat.ne_of_lt hshort)
        · exact fun hlong => absurd hlong (Nat.lt_asymm hshort)
      · intro h entry hmem
        exact (hasLabel_empty hempty).mpr (h.empty hempty entry hmem)
    · constructor
      · intro _
        refine ⟨fun h => absurd h hempty, ?_, ?_⟩
        · exact fun hfull => absurd hfull (Nat.ne_of_lt hshort)
        · exact fun hlong => absurd hlong (Nat.lt_asymm hshort)
      · exact fun _ => sameFound_of_short hempty hshort disks
  · rw [sameFound_iff_of_full hfull]
    constructor
    · intro h
      refine ⟨?_, fun _ => h, ?_⟩
      · intro hempty
        rw [hempty] at hfull
        cases hfull
      · exact fun hlong => absurd hfull (Nat.ne_of_gt hlong)
    · exact fun h => h.full hfull
  · rw [sameFound_iff_of_unnamed (isNamed_long hlong)]
    constructor
    · intro h
      refine ⟨?_, ?_, fun _ => h⟩
      · intro hempty
        rw [hempty] at hlong
        cases hlong
      · exact fun hfull => absurd hfull (Nat.ne_of_gt hlong)
    · exact fun h => h.long hlong

/--
On a cache that has been listed, a label is looked up as it is listed exactly if
it is neither empty, with an unnamed entry in use, nor as long as a name field or
longer, with an entry whose name is not ended by the field.
-/
theorem gptGet_returnsListed_iff {fw : GptFirmware} {disks : Option (List GptDisk)}
    {cached : List GptDisk} {list : List GptPartitionInterface} (label : Label)
    (hlist : gptListPartition fw disks = (Except.ok list, some cached)) :
    ReturnsListed label (gptGetPartitionByLabel fw (some cached) label).1 list <->
      LabelAgrees label cached := by
  have hlisted : list = listEntries cached := by
    unfold gptListPartition at hlist
    cases hcache : cachedDisks fw disks with
    | error status =>
        rw [hcache] at hlist
        cases congrArg Prod.fst hlist
    | ok cached' =>
        rw [hcache] at hlist
        dsimp only at hlist
        split at hlist
        · cases congrArg Prod.fst hlist
        · cases hlist
          rfl
  rw [← sameFound_iff, SameFound, ← findLabel_eq, ← firstNamed_listEntries, ← hlisted]
  unfold ReturnsListed gptGetPartitionByLabel cachedDisks
  dsimp only
  generalize firstNamed label list = named
  cases findLabel label cached with
  | none =>
      constructor
      · intro h
        cases named with
        | none => rfl
        | some gpart => cases (h gpart).mpr rfl
      · intro h gpart
        simp [← h]
  | some found =>
      constructor
      · intro h
        exact ((h found).mp rfl).symm
      · intro h gpart
        simp [← h]

/-- A disk with one entry in use, whose name is empty. -/
def unnamedDisk : GptDisk where
  bio := 1
  dio := 2
  numberOfEntries := 1
  partitions := fun x => if x = 0 then 1 else 0

def emptyLabel : Label where
  units := []
  nonzero := by simp

def listingFirmware : GptFirmware where
  locateSize := EfiStatus.bufferTooSmall
  handlesPool := true
  locateHandles := EfiStatus.success
  handles := []
  disksPool := true
  listPool := true

theorem gptGet_returnsListed_iff_of_unnamed :
    gptListPartition listingFirmware (some [unnamedDisk]) =
        (Except.ok [], some [unnamedDisk]) ∧
      (ReturnsListed emptyLabel
          (gptGetPartitionByLabel listingFirmware (some [unnamedDisk]) emptyLabel).1 [] <->
        LabelAgrees emptyLabel [unnamedDisk]) := by
  have hlist : gptListPartition listingFirmware (some [unnamedDisk]) =
      (Except.ok [], some [unnamedDisk]) := by
    rfl
  exact ⟨hlist, gptGet_returnsListed_iff emptyLabel hlist⟩

/-- The empty label finds the unnamed partition, which is not listed. -/
theorem unnamed_found_not_listed :
    (exists gpart, (gptGetPartitionByLabel listingFirmware (some [unnamedDisk]) emptyLabel).1 =
        Except.ok gpart) ∧
      (gptListPartition listingFirmware (some [unnamedDisk])).1 = Except.ok [] ∧
      ¬ ReturnsListed emptyLabel
        (gptGetPartitionByLabel listingFirmware (some [unnamedDisk]) emptyLabel).1 [] := by
  have hfound : (gptGetPartitionByLabel listingFirmware (some [unnamedDisk]) emptyLabel).1 =
      Except.ok (GptEntry.interface { disk := unnamedDisk, index := 0 }) := by
    rfl
  refine ⟨⟨_, hfound⟩, rfl, ?_⟩
  intro h
  cases (h _).mp hfound

end Gpt
end BootableUefi
