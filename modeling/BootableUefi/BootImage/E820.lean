import Mathlib.Data.List.Chain
import BootableUefi.BootImage.Memory
import BootableUefi.Foundation.Extents

/-!
# The e820 map

`setup_e820_map` turns the firmware's memory map into the kernel's, merging a
descriptor with the entry before it where it can.  The array of entries is taken
to be as long as it needs to be.
-/

namespace BootableUefi
namespace BootImage

open Firmware Foundation

inductive E820Type where
  | ram
  | reserved
  | acpi
  | nvs
  | unusable
  deriving DecidableEq, Repr

structure E820Entry where
  addr : Nat
  size : Nat
  type : E820Type
  deriving DecidableEq, Repr

/-- The `switch` over the EFI memory types. -/
def e820Type (type : UInt32) : Option E820Type :=
  -- Reserved, runtime services code and data, memory-mapped I/O and ports, and PAL code.
  if type ∈ [0, 5, 6, 11, 12, 13] then some E820Type.reserved
  else if type = 8 then some E820Type.unusable
  else if type = 9 then some E820Type.acpi
  -- Loader and boot services code and data, and conventional memory.
  else if type ∈ [1, 2, 3, 4, 7] then some E820Type.ram
  else if type = 10 then some E820Type.nvs
  else none

def memoryDescriptorAt (map : Mem) (offset : Nat) : MemoryDescriptor where
  type := UInt32.ofNat (le32 map offset)
  physicalStart := UInt64.ofNat (le64 map (offset + 8))
  numberOfPages := UInt64.ofNat (le64 map (offset + 24))

/--
The descriptors of a map, `desc_size` bytes apart.  A `desc_size` of 0, by which
the source divides, gives none here; the firmware's is that of a descriptor or more.
-/
def descriptorsOf (map : Mem) (mapSize descSize : Nat) : List MemoryDescriptor :=
  (List.range (mapSize / descSize)).map fun i => memoryDescriptorAt map (i * descSize)

def addDescriptor (entries : List E820Entry) (d : MemoryDescriptor) : List E820Entry :=
  match e820Type d.type with
  | none => entries
  | some type =>
      let start := d.physicalStart.toNat
      let size := u64 (d.numberOfPages.toNat * 4096)
      match entries with
      | [] => [{ addr := start, size := size, type := type }]
      | last :: rest =>
          if last.type = type ∧ u64 (last.addr + last.size) = start then
            { last with size := u64 (last.size + size) } :: rest
          else
            { addr := start, size := size, type := type } :: last :: rest

def setupE820Map (map : Mem) (mapSize descSize : Nat) : List E820Entry :=
  ((descriptorsOf map mapSize descSize).foldl addDescriptor []).reverse

/-!
# What a map describes
-/

def E820Entry.Covers (entry : E820Entry) (x : Nat) : Prop :=
  entry.addr ≤ x ∧ x < entry.addr + entry.size

instance (entry : E820Entry) (x : Nat) : Decidable (entry.Covers x) :=
  inferInstanceAs (Decidable (_ ∧ _))

def MemoryDescriptor.Covers (d : MemoryDescriptor) (x : Nat) : Prop :=
  d.physicalStart.toNat ≤ x ∧ x < d.physicalStart.toNat + 4096 * d.numberOfPages.toNat

instance (d : MemoryDescriptor) (x : Nat) : Decidable (d.Covers x) :=
  inferInstanceAs (Decidable (_ ∧ _))

/-- As many entries as descriptors of each type cover each address. -/
def SameCoverage (entries : List E820Entry) (descs : List MemoryDescriptor) : Prop :=
  forall type x,
    entries.countP (fun entry => entry.type = type ∧ entry.Covers x) =
      descs.countP fun d => e820Type d.type = some type ∧ d.Covers x

/-- No entry starts where the one before it, of the same type, ends. -/
def NoneContinues (entries : List E820Entry) : Prop :=
  entries.IsChain fun first second =>
    ¬ (first.type = second.type ∧ first.addr + first.size = second.addr)

/-!
# The loop merges extents
-/

def E820Entry.extent (entry : E820Entry) : Extent E820Type where
  tag := entry.type
  start := entry.addr
  size := entry.size

def MemoryDescriptor.extent (d : MemoryDescriptor) : Option (Extent E820Type) :=
  (e820Type d.type).map fun type =>
    { tag := type, start := d.physicalStart.toNat, size := 4096 * d.numberOfPages.toNat }

theorem addDescriptor_of_unlisted {d : MemoryDescriptor} (h : e820Type d.type = none)
    (entries : List E820Entry) : addDescriptor entries d = entries := by
  unfold addDescriptor
  rw [h]

theorem u64_eq_mod (n : Nat) : u64 n = n % 2 ^ 64 :=
  rfl

theorem addDescriptor_extents (entries : List E820Entry) {d : MemoryDescriptor}
    {e : Extent E820Type} (hextent : d.extent = some e) :
    (addDescriptor entries d).map E820Entry.extent =
      pushExtent (2 ^ 64) (entries.map E820Entry.extent) e := by
  rcases Option.map_eq_some_iff.mp hextent with ⟨type, htype, rfl⟩
  have hsize : u64 (d.numberOfPages.toNat * 4096) = 4096 * d.numberOfPages.toNat % 2 ^ 64 := by
    rw [Nat.mul_comm, u64_eq_mod]
  unfold addDescriptor
  rw [htype, hsize]
  cases entries with
  | nil => rfl
  | cons last rest =>
      by_cases hfollows : last.extent.Follows (2 ^ 64)
          { tag := type, start := d.physicalStart.toNat, size := 4096 * d.numberOfPages.toNat }
      · rw [List.map_cons, pushExtent_of_follows _ hfollows]
        rcases hfollows with ⟨htype, hstart⟩
        dsimp only
        rw [if_pos ⟨htype, hstart⟩, u64_eq_mod, Nat.add_mod_mod]
        rfl
      · rw [List.map_cons, pushExtent_of_not_follows _ hfollows]
        dsimp only
        rw [if_neg fun h => hfollows ⟨h.1, h.2⟩]
        rfl

theorem foldl_addDescriptor_extents (entries : List E820Entry) (descs : List MemoryDescriptor) :
    (descs.foldl addDescriptor entries).map E820Entry.extent =
      (descs.filterMap MemoryDescriptor.extent).foldl (pushExtent (2 ^ 64))
        (entries.map E820Entry.extent) := by
  induction descs generalizing entries with
  | nil => rfl
  | cons d descs ih =>
      rw [List.foldl_cons, ih]
      cases hextent : d.extent with
      | none =>
          rw [List.filterMap_cons_none hextent,
            addDescriptor_of_unlisted (Option.map_eq_none_iff.mp hextent)]
      | some e =>
          rw [List.filterMap_cons_some hextent, List.foldl_cons,
            addDescriptor_extents entries hextent]

theorem countP_entries (entries : List E820Entry) (type : E820Type) (x : Nat) :
    entries.countP (fun entry => entry.type = type ∧ entry.Covers x) =
      coverage type x (entries.map E820Entry.extent) := by
  rw [coverage, List.countP_map]
  rfl

theorem countP_descriptors (descs : List MemoryDescriptor) (type : E820Type) (x : Nat) :
    descs.countP (fun d => e820Type d.type = some type ∧ d.Covers x) =
      coverage type x (descs.filterMap MemoryDescriptor.extent) := by
  induction descs with
  | nil => rfl
  | cons d descs ih =>
      rw [List.countP_cons, ih]
      cases htype : e820Type d.type with
      | none =>
          have hnone : d.extent = none := Option.map_eq_none_iff.mpr htype
          simp [List.filterMap_cons_none hnone]
      | some found =>
          have hsome : exists e, d.extent = some e ∧ e.tag = found ∧
              (e.Covers x <-> d.Covers x) := by
            unfold MemoryDescriptor.extent
            rw [htype]
            exact ⟨_, rfl, rfl, Iff.rfl⟩
          rcases hsome with ⟨e, hextent, htag, hcovers⟩
          rw [List.filterMap_cons_some hextent, coverage_cons, coverage_singleton]
          simp [htag, hcovers]

/-- `sizeof(EFI_MEMORY_DESCRIPTOR)`. -/
def descriptorSize : Nat :=
  40

/-- A map as the firmware gives it: whole descriptors, and ranges that end by 2 ^ 64. -/
structure ReadableMap (map : Mem) (mapSize descSize : Nat) : Prop where
  size : descriptorSize ≤ descSize
  ranges : forall d, d ∈ descriptorsOf map mapSize descSize ->
    d.physicalStart.toNat + 4096 * d.numberOfPages.toNat ≤ 2 ^ 64

theorem ReadableMap.inside {map : Mem} {mapSize descSize : Nat}
    (h : ReadableMap map mapSize descSize) (e : Extent E820Type)
    (he : e ∈ (descriptorsOf map mapSize descSize).filterMap MemoryDescriptor.extent) :
    e.Inside (2 ^ 64) := by
  rcases List.mem_filterMap.mp he with ⟨d, hd, hextent⟩
  rcases Option.map_eq_some_iff.mp hextent with ⟨type, -, rfl⟩
  exact ⟨d.physicalStart.toNat_lt, h.ranges d hd⟩

theorem sameCoverage_iff (entries : List E820Entry) (descs : List MemoryDescriptor) :
    SameCoverage entries descs <->
      forall type x, coverage type x (entries.map E820Entry.extent) =
        coverage type x (descs.filterMap MemoryDescriptor.extent) := by
  unfold SameCoverage
  simp only [countP_entries, countP_descriptors]

/--
No entry goes on where the one before it ends, and the e820 map covers every
address as often, and with the types, as the memory map does, exactly if no run
of listed ranges of one type, each starting in 64-bit addresses where those
before it end, goes past 2 ^ 64 or is 2 ^ 64 bytes long.
-/
theorem setupE820Map_describes (map : Mem) (mapSize descSize : Nat)
    (hmap : ReadableMap map mapSize descSize) :
    NoneContinues (setupE820Map map mapSize descSize) ∧
      (SameCoverage (setupE820Map map mapSize descSize) (descriptorsOf map mapSize descSize) <->
        RunsFit (2 ^ 64)
          ((descriptorsOf map mapSize descSize).filterMap MemoryDescriptor.extent)) := by
  have hinside := hmap.inside
  unfold setupE820Map
  generalize descriptorsOf map mapSize descSize = descs at hinside ⊢
  have hfold := foldl_addDescriptor_extents [] descs
  generalize descs.foldl addDescriptor [] = entries at hfold ⊢
  constructor
  · have hmerged : Merged (entries.map E820Entry.extent) := by
      rw [hfold]
      exact merged_foldl List.IsChain.nil fun e he => (hinside e he).1
    unfold NoneContinues
    rw [List.isChain_reverse]
    exact (List.isChain_map _).mp hmerged
  · have hreverse : forall type x,
        coverage type x (entries.reverse.map E820Entry.extent) =
          coverage type x (entries.map E820Entry.extent) := by
      intro type x
      rw [coverage, List.map_reverse, List.countP_reverse]
      rfl
    rw [sameCoverage_iff]
    simp only [hreverse, hfold]
    exact coverage_foldl_iff hinside

def ramRange (i start pages : Nat) (map : Mem) : Mem :=
  store 4 (48 * i) 7 (store 8 (48 * i + 8) start (store 8 (48 * i + 24) pages map))

def ramRanges (first second : Nat) : Mem :=
  ramRange 0 first 1 (ramRange 1 second 1 fun _ => 0)

def ramExtent (start : Nat) : Extent E820Type :=
  { tag := E820Type.ram, start := start, size := 0x1000 }

/--
Two pages that follow each other become one entry.  The first page and the last
one of the address space, in this order, stay two.
-/
theorem setupE820Map_describes_of_ascending :
    (setupE820Map (ramRanges 0x1000 0x2000) 96 48 =
        [{ addr := 0x1000, size := 0x2000, type := E820Type.ram }] ∧
      NoneContinues (setupE820Map (ramRanges 0x1000 0x2000) 96 48) ∧
      SameCoverage (setupE820Map (ramRanges 0x1000 0x2000) 96 48)
        (descriptorsOf (ramRanges 0x1000 0x2000) 96 48)) ∧
    SameCoverage (setupE820Map (ramRanges 0 (2 ^ 64 - 0x1000)) 96 48)
      (descriptorsOf (ramRanges 0 (2 ^ 64 - 0x1000)) 96 48) := by
  constructor
  · have hmap : ReadableMap (ramRanges 0x1000 0x2000) 96 48 := ⟨by decide, by decide +kernel⟩
    have hextents : (descriptorsOf (ramRanges 0x1000 0x2000) 96 48).filterMap
        MemoryDescriptor.extent = [ramExtent 0x1000, ramExtent 0x2000] := by
      rfl
    rcases setupE820Map_describes _ 96 48 hmap with ⟨hcontinues, hsame⟩
    rw [hextents] at hsame
    refine ⟨by decide +kernel, hcontinues, hsame.mpr (runsFit_of_end_lt ?_)⟩
    simp [ramExtent]
  · have hmap : ReadableMap (ramRanges 0 (2 ^ 64 - 0x1000)) 96 48 :=
      ⟨by decide, by decide +kernel⟩
    have hextents : (descriptorsOf (ramRanges 0 (2 ^ 64 - 0x1000)) 96 48).filterMap
        MemoryDescriptor.extent = [ramExtent 0, ramExtent (2 ^ 64 - 0x1000)] := by
      rfl
    rcases setupE820Map_describes _ 96 48 hmap with ⟨-, hsame⟩
    rw [hextents] at hsame
    apply hsame.mpr
    apply RunsFit.pair
    · exact ⟨by decide, by decide⟩
    · exact ⟨by decide, by decide⟩
    · exact fun h => absurd h.2 (by decide)

/-- No two entries in a row have the same type and a common border. -/
def NoneTouch (entries : List E820Entry) : Prop :=
  entries.IsChain fun first second =>
    ¬ (first.type = second.type ∧ (first.addr + first.size = second.addr ∨
      second.addr + second.size = first.addr))

/--
Two pages in descending order stay two entries, and a range that ends at 2 ^ 64
takes up the page at 0 that comes after it.
-/
theorem e820_entries_touch :
    (ReadableMap (ramRanges 0x2000 0x1000) 96 48 ∧
      ¬ NoneTouch (setupE820Map (ramRanges 0x2000 0x1000) 96 48)) ∧
    (ReadableMap (ramRanges (2 ^ 64 - 0x1000) 0) 96 48 ∧
      ¬ SameCoverage (setupE820Map (ramRanges (2 ^ 64 - 0x1000) 0) 96 48)
        (descriptorsOf (ramRanges (2 ^ 64 - 0x1000) 0) 96 48)) := by
  have htwo : setupE820Map (ramRanges 0x2000 0x1000) 96 48 =
      [{ addr := 0x2000, size := 0x1000, type := E820Type.ram },
        { addr := 0x1000, size := 0x1000, type := E820Type.ram }] := by
    decide +kernel
  refine ⟨⟨⟨by decide, by decide +kernel⟩, ?_⟩, ⟨by decide, by decide +kernel⟩, ?_⟩
  · rw [htwo]
    unfold NoneTouch
    decide
  · intro hsame
    exact absurd (hsame E820Type.ram 0) (by decide +kernel)

/-!
# How many entries there are

An entry is made for every run of descriptors in which each goes on where the
one before it ends.
-/

/-- The number of entries `struct boot_params` has room for. -/
def e820Max : Nat :=
  128

/-- `e820_entries`, a field of one byte. -/
def e820Entries (map : Mem) (mapSize descSize : Nat) : Nat :=
  u8 (setupE820Map map mapSize descSize).length

/-- `d` goes on, in 64-bit addresses, where `last` ends, with the same type. -/
def MemoryDescriptor.Follows (last d : MemoryDescriptor) : Prop :=
  e820Type last.type = e820Type d.type ∧
    u64 (last.physicalStart.toNat + last.numberOfPages.toNat * 4096) = d.physicalStart.toNat

instance (last d : MemoryDescriptor) : Decidable (last.Follows d) :=
  inferInstanceAs (Decidable (_ ∧ _))

def MemoryDescriptor.listed (d : MemoryDescriptor) : Bool :=
  (e820Type d.type).isSome

def runsAfter : MemoryDescriptor -> List MemoryDescriptor -> Nat
  | _, [] => 0
  | last, d :: descs => (if last.Follows d then 0 else 1) + runsAfter d descs

/-- The runs in which each descriptor follows the one before it. -/
def runs : List MemoryDescriptor -> Nat
  | [] => 0
  | d :: descs => runsAfter d descs + 1

structure EndsWith (entry : E820Entry) (d : MemoryDescriptor) : Prop where
  type : e820Type d.type = some entry.type
  stop : u64 (entry.addr + entry.size) =
    u64 (d.physicalStart.toNat + d.numberOfPages.toNat * 4096)

theorem endsWith_new {d : MemoryDescriptor} {type : E820Type}
    (htype : e820Type d.type = some type) :
    EndsWith { addr := d.physicalStart.toNat, size := u64 (d.numberOfPages.toNat * 4096),
               type := type } d where
  type := htype
  stop := by
    change u64 (d.physicalStart.toNat + u64 (d.numberOfPages.toNat * 4096)) = _
    unfold u64
    omega

/-- A listed descriptor lengthens the last entry or begins one, and is its end then. -/
theorem addDescriptor_cases {entry : E820Entry} {last d : MemoryDescriptor}
    (hend : EndsWith entry last) (hlisted : d.listed = true) (rest : List E820Entry) :
    exists entry', EndsWith entry' d ∧
      addDescriptor (entry :: rest) d =
        if last.Follows d then entry' :: rest else entry' :: entry :: rest := by
  rcases Option.isSome_iff_exists.mp hlisted with ⟨type, htype⟩
  have hfollows : last.Follows d <->
      entry.type = type ∧ u64 (entry.addr + entry.size) = d.physicalStart.toNat := by
    unfold MemoryDescriptor.Follows
    rw [hend.type, htype, hend.stop, Option.some.injEq]
  let size := u64 (d.numberOfPages.toNat * 4096)
  have hadd : addDescriptor (entry :: rest) d =
      if entry.type = type ∧ u64 (entry.addr + entry.size) = d.physicalStart.toNat then
        { entry with size := u64 (entry.size + size) } :: rest
      else
        { addr := d.physicalStart.toNat, size := size, type := type } :: entry :: rest := by
    unfold addDescriptor
    rw [htype]
  by_cases hmerge : last.Follows d
  · rcases hfollows.mp hmerge with ⟨hsame, hstart⟩
    refine ⟨{ entry with size := u64 (entry.size + size) }, ⟨?_, ?_⟩, ?_⟩
    · rw [htype, ← hsame]
    · change u64 (entry.addr + u64 (entry.size + u64 (d.numberOfPages.toNat * 4096))) = _
      unfold u64 at hstart ⊢
      omega
    · rw [hadd, if_pos hmerge, if_pos ⟨hsame, hstart⟩]
  · refine ⟨{ addr := d.physicalStart.toNat, size := size, type := type },
      endsWith_new htype, ?_⟩
    rw [hadd, if_neg hmerge, if_neg fun h => hmerge (hfollows.mpr h)]

theorem addDescriptor_of_not_listed {d : MemoryDescriptor} (h : d.listed = false)
    (entries : List E820Entry) : addDescriptor entries d = entries := by
  have hunlisted : e820Type d.type = none := by
    simpa [MemoryDescriptor.listed] using h
  exact addDescriptor_of_unlisted hunlisted entries

theorem length_foldl_addDescriptor {entry : E820Entry} {last : MemoryDescriptor}
    (hend : EndsWith entry last) (rest : List E820Entry) (descs : List MemoryDescriptor) :
    (descs.foldl addDescriptor (entry :: rest)).length =
      rest.length + 1 + runsAfter last (descs.filter MemoryDescriptor.listed) := by
  induction descs generalizing entry last rest with
  | nil => rfl
  | cons d descs ih =>
      rw [List.foldl_cons]
      cases hlisted : d.listed with
      | false =>
          rw [List.filter_cons_of_neg (by simp [hlisted]), addDescriptor_of_not_listed hlisted]
          exact ih hend rest
      | true =>
          rcases addDescriptor_cases hend hlisted rest with ⟨entry', hend', hadd⟩
          rw [List.filter_cons_of_pos hlisted, hadd, runsAfter]
          split
          · rw [ih hend' rest, Nat.zero_add]
          · rw [ih hend' (entry :: rest), List.length_cons]
            omega

theorem length_setupE820Map (map : Mem) (mapSize descSize : Nat) :
    (setupE820Map map mapSize descSize).length =
      runs ((descriptorsOf map mapSize descSize).filter MemoryDescriptor.listed) := by
  unfold setupE820Map
  rw [List.length_reverse]
  generalize descriptorsOf map mapSize descSize = descs
  induction descs with
  | nil => rfl
  | cons d descs ih =>
      rw [List.foldl_cons]
      cases hlisted : d.listed with
      | false =>
          rw [List.filter_cons_of_neg (by simp [hlisted]), addDescriptor_of_not_listed hlisted]
          exact ih
      | true =>
          rcases Option.isSome_iff_exists.mp hlisted with ⟨type, htype⟩
          have hfirst : addDescriptor [] d =
              [{ addr := d.physicalStart.toNat, size := u64 (d.numberOfPages.toNat * 4096),
                 type := type }] := by
            unfold addDescriptor
            rw [htype]
          rw [List.filter_cons_of_pos hlisted, hfirst,
            length_foldl_addDescriptor (endsWith_new htype), runs]
          exact Nat.add_comm _ _

structure EntriesFit (map : Mem) (mapSize descSize : Nat) : Prop where
  room : (setupE820Map map mapSize descSize).length ≤ e820Max
  count : e820Entries map mapSize descSize = (setupE820Map map mapSize descSize).length

/-- The entries fit exactly if the listed descriptors come in at most 128 runs. -/
theorem setupE820Map_entriesFit_iff (map : Mem) (mapSize descSize : Nat) :
    EntriesFit map mapSize descSize <->
      runs ((descriptorsOf map mapSize descSize).filter MemoryDescriptor.listed) ≤ 128 := by
  rw [← length_setupE820Map]
  constructor
  · exact fun h => h.room
  · intro hroom
    refine ⟨hroom, Nat.mod_eq_of_lt ?_⟩
    omega

def everyOtherPage : Mem := fun x =>
  if x % 48 = 0 then 7
  else if x % 48 = 9 then UInt8.ofNat (32 * (x / 48) + 16)
  else if x % 48 = 10 then UInt8.ofNat ((32 * (x / 48) + 16) / 256)
  else if x % 48 = 24 then 1
  else 0

/-- 129 pages that do not touch. -/
theorem setupE820Map_overflows :
    ¬ EntriesFit everyOtherPage (129 * 48) 48 := by
  intro h
  have hlength : (setupE820Map everyOtherPage (129 * 48) 48).length = 129 := by
    rw [length_setupE820Map]
    decide +kernel
  have hroom := h.room
  rw [hlength] at hroom
  exact absurd hroom (by decide)

end BootImage
end BootableUefi
