import Mathlib.Data.List.TakeWhile
import BootableUefi.BootImage.Stages

/-!
# The command line that is stored

The two fields of the header need not end in a NUL.  They fill all but the last
byte of the pool block between them, so the string in the block ends where they
say unless neither of them has a NUL; then it goes on with what the block held.
-/

namespace BootableUefi
namespace BootImage

open Firmware Foundation

/-- `cmdline[0..511)`. -/
def headerCmdline (image : Mem) : List UInt8 :=
  bytesAt image cmdlineOffset (bootArgsSize - 1)

def headerExtraCmdline (image : Mem) : List UInt8 :=
  bytesAt image extraCmdlineOffset bootExtraArgsSize

/-- What the header says: the first field, and the second if the first is full. -/
def headerLine (image : Mem) : List UInt8 :=
  cString (headerCmdline image ++
    if image (cmdlineOffset + bootArgsSize - 2) = 0 then [] else headerExtraCmdline image)

def expectedLine (append : Option (List UInt8)) (image : Mem) : List UInt8 :=
  match append with
  | none => headerLine image
  | some extra => headerLine image ++ 0x20 :: extra

/-- The line is whole, and the setup header says where it is and how long. -/
structure LineStored (append : Option (List UInt8)) (image : Mem) (t : LoadState)
    (base : Nat) (line : List UInt8) : Prop where
  whole : line = expectedLine append image
  pointer : le32 t.image ((aospHeader image).pageSize + SetupHeader.cmdLinePtr) = base
  size : le32 t.image ((aospHeader image).pageSize + SetupHeader.cmdlineSize) = line.length + 1

/-- So it is whenever `setup_command_line` stores a line, whatever the pool blocks held. -/
def StoresWholeLine (append : Option (List UInt8)) (image : Mem) : Prop :=
  forall env s t base line, s.image = image -> s.commandLine = none ->
    setupCommandLine env append s = (none, t) -> t.commandLine = some (base, line) ->
      LineStored append image t base line

/-!
# Strings in a block
-/

section Strings

variable {xs ys : List UInt8}

theorem zero_not_mem_cString (xs : List UInt8) : 0 ∉ cString xs := by
  intro h
  simpa using List.mem_takeWhile_imp h

theorem cString_append_of_not_mem (h : 0 ∉ xs) : cString (xs ++ ys) = xs ++ cString ys := by
  apply List.takeWhile_append_of_pos
  intro b hb
  have hne : b ≠ 0 := fun hzero => h (hzero ▸ hb)
  simpa using hne

theorem cString_append_of_mem (h : 0 ∈ xs) : cString (xs ++ ys) = cString xs := by
  unfold cString
  rw [List.takeWhile_append, if_neg]
  intro hfull
  have hall : cString xs = xs := (List.takeWhile_prefix _).eq_of_length hfull
  apply zero_not_mem_cString xs
  rwa [hall]

theorem cString_eq_self (h : 0 ∉ xs) : cString xs = xs := by
  have happend : cString (xs ++ []) = xs ++ cString [] := cString_append_of_not_mem h
  simpa [cString] using happend

theorem take_length_cString (xs : List UInt8) : xs.take (cString xs).length = cString xs :=
  (List.prefix_iff_eq_take.mp (List.takeWhile_prefix _)).symm

theorem length_cString_le (xs : List UInt8) : (cString xs).length ≤ xs.length :=
  (List.takeWhile_prefix _).length_le

theorem bytesAt_memOf {n : Nat} (h : n ≤ xs.length) : bytesAt (memOf xs) 0 n = xs.take n := by
  apply List.ext_getElem
  · simp [bytesAt, h]
  · intro i hi hi'
    have hlt : i < xs.length := by
      rw [List.length_take] at hi'
      omega
    simp [bytesAt, memOf, List.getD_eq_getElem?_getD, List.getElem?_eq_getElem hlt]

theorem bytesAt_memOf_of_le {n : Nat} (h : xs.length ≤ n) :
    bytesAt (memOf xs) 0 n = xs ++ List.replicate (n - xs.length) 0 := by
  apply List.ext_getElem
  · simp [bytesAt, h]
  · intro i hi hi'
    rcases Nat.lt_or_ge i xs.length with hlt | hge
    · simp [bytesAt, memOf, List.getD_eq_getElem?_getD, List.getElem?_eq_getElem hlt,
        List.getElem_append_left hlt]
    · simp [bytesAt, memOf, List.getD_eq_getElem?_getD, List.getElem?_eq_none hge,
        List.getElem_append_right hge]

theorem cString_spaced (hx : 0 ∉ xs) (hy : 0 ∉ ys) :
    cString (xs ++ 0x20 :: ys ++ [0]) = xs ++ 0x20 :: ys := by
  have hline : 0 ∉ xs ++ 0x20 :: ys := by
    simp [hx, hy]
  rw [cString_append_of_not_mem hline]
  simp [cString]

end Strings

theorem length_bytesAt (mem : Mem) (offset size : Nat) :
    (bytesAt mem offset size).length = size := by
  simp [bytesAt]

def EndsInHeader (image : Mem) : Prop :=
  0 ∈ headerCmdline image ∨ 0 ∈ headerExtraCmdline image

instance (image : Mem) : Decidable (EndsInHeader image) :=
  inferInstanceAs (Decidable (_ ∨ _))

section Fields

variable {image : Mem} {block : List UInt8}

theorem lastChar_mem (image : Mem) :
    image (cmdlineOffset + bootArgsSize - 2) ∈ headerCmdline image := by
  unfold headerCmdline bytesAt
  rw [List.mem_map]
  exact ⟨bootArgsSize - 2, List.mem_range.mpr (by decide), rfl⟩

theorem headerLine_of_endsInHeader (h : EndsInHeader image) :
    cString (fullCommandLine image block) = headerLine image := by
  have hlast := lastChar_mem image
  unfold fullCommandLine headerLine
  dsimp only
  split
  · rename_i hzero
    rw [hzero] at hlast
    rw [List.append_nil]
    exact cString_append_of_mem hlast
  · exact cString_append_of_mem (List.mem_append.mpr h)

theorem fullCommandLine_of_full (h : ¬ EndsInHeader image) :
    fullCommandLine image block =
      headerCmdline image ++ headerExtraCmdline image ++
        block.drop (bootArgsSize - 1 + bootExtraArgsSize) := by
  unfold fullCommandLine
  dsimp only
  rw [if_neg]
  · rfl
  · intro hzero
    have hlast := lastChar_mem image
    rw [hzero] at hlast
    exact h (Or.inl hlast)

theorem length_headerLine_lt (image : Mem) :
    (headerLine image).length < bootArgsSize + bootExtraArgsSize := by
  unfold headerLine
  refine Nat.lt_of_le_of_lt (length_cString_le _) ?_
  rw [List.length_append, headerCmdline, length_bytesAt]
  split
  · decide
  · rw [headerExtraCmdline, length_bytesAt]
    decide

end Fields

/-!
# A line that ends in the header
-/

theorem placeCommandLine_stores {env : LoadEnv} {block : PoolBlock} {line line' : List UInt8}
    {s t : LoadState} {base : Nat} (hnone : s.commandLine = none)
    (hrun : placeCommandLine env block line s = (none, t))
    (hline : t.commandLine = some (base, line')) :
    line' = line ∧
      le32 t.image ((aospHeader s.image).pageSize + SetupHeader.cmdLinePtr) = base ∧
      le32 t.image ((aospHeader s.image).pageSize + SetupHeader.cmdlineSize) = line.length + 1 := by
  have hsize : line.length + 1 ≤ 4096 * sizeToPages (line.length + 1) := by
    unfold sizeToPages
    split <;> omega
  have hplacing := placeCommandLine_placing env block line s
  rw [hrun] at hplacing
  cases hplacing with
  | @pageZero u hgrant =>
      have hkept : u.commandLine = some (base, line') := hline
      rw [hgrant.commandLine, hnone] at hkept
      cases hkept
  | @stored base' u hne hgrant hlow =>
      cases hline
      refine ⟨rfl, ?_, ?_⟩
      · show le32 (store 4 _ _ (store 4 _ _ u.image)) _ = _
        rw [le32_store_of_disjoint (Or.inl (by simp [SetupHeader.cmdLinePtr,
          SetupHeader.cmdlineSize, Nat.add_assoc]))]
        exact le32_store (by omega)
      · exact le32_store (by omega)

theorem lineStored_of_place {env : LoadEnv} {block : PoolBlock} {append : Option (List UInt8)}
    {image : Mem} {line line' : List UInt8} {s t : LoadState} {base : Nat}
    (himage : s.image = image) (hnone : s.commandLine = none)
    (hrun : placeCommandLine env block line s = (none, t))
    (hline : t.commandLine = some (base, line')) (hwhole : line = expectedLine append image) :
    LineStored append image t base line' := by
  rcases placeCommandLine_stores hnone hrun hline with ⟨rfl, hpointer, hsize⟩
  rw [himage] at hpointer hsize
  exact ⟨hwhole, hpointer, hsize⟩

theorem storesWholeLine_of_endsInHeader {append : Option (List UInt8)} {image : Mem}
    (happend : forall extra, append = some extra -> 0 ∉ extra) (h : EndsInHeader image) :
    StoresWholeLine append image := by
  rintro env s t base line rfl hnone hrun hline
  unfold setupCommandLine at hrun
  dsimp only at hrun
  split at hrun
  · cases congrArg Prod.fst hrun
  · rename_i block _
    have hfull : cString (fullCommandLine s.image block) = headerLine s.image :=
      headerLine_of_endsInHeader h
    have hprefix := take_length_cString (fullCommandLine s.image block)
    have hlength := length_cString_le (fullCommandLine s.image block)
    rw [hfull] at hrun hprefix hlength
    split at hrun
    · exact lineStored_of_place rfl hnone hrun hline rfl
    · rename_i extra
      have hspaced : cString (headerLine s.image ++ 0x20 :: extra ++ [0]) =
          headerLine s.image ++ 0x20 :: extra :=
        cString_spaced (zero_not_mem_cString _) (happend extra rfl)
      split at hrun
      · refine lineStored_of_place (by rfl) (by exact hnone) hrun hline ?_
        unfold appended
        rw [hfull, bytesAt_memOf hlength, hprefix]
        exact hspaced
      · split at hrun
        · cases congrArg Prod.fst hrun
        · rename_i grown _
          have hshort := length_headerLine_lt s.image
          refine lineStored_of_place (by rfl) (by exact hnone) hrun hline ?_
          rw [bytesAt_memOf, List.take_append_of_le_length, List.take_take,
            Nat.min_eq_left hshort.le, hprefix]
          · exact hspaced
          · rw [List.length_take]
            omega
          · rw [List.length_append, List.length_take]
            omega

/-!
# A line that does not
-/

/-- Firmware whose pool block has `count` bytes behind the last one that is written. -/
def dirtyPoolEnv (count : Nat) : LoadEnv :=
  { smallEnv with
    commandLinePool :=
      some (List.replicate (bootArgsSize - 1 + bootExtraArgsSize) 0 ++ List.replicate count 1)
    grownCommandLinePool := some [] }

theorem placeCommandLine_dirtyPool (count : Nat) (block : PoolBlock) {line : List UInt8}
    {s : LoadState} (hline : line.length < 4096) (hused : s.used = ∅) (hcalls : s.pageCalls = 0) :
    exists t, placeCommandLine (dirtyPoolEnv count) block line s = (none, t) ∧
      t.commandLine = some (0x8000, line) := by
  have hpages : sizeToPages (line.length + 1) = 1 := by
    unfold sizeToPages
    split <;> omega
  have hgrant : Grantable ∅ { base := 0x8000, count := 1 } := by decide
  have hadmits : AllocateType.maxAddress.Admits 0xA0000 { base := 0x8000, count := 1 } := by decide
  have hrun : exists u, allocatePages (dirtyPoolEnv count) AllocateType.maxAddress 1 0xA0000 s =
      (EfiStatus.success, 0x8000, u) := by
    have hanswer : (dirtyPoolEnv count).pageAnswer s.pageCalls =
        { status := EfiStatus.success, base := 0x8000 } := by
      rw [hcalls]
      rfl
    unfold allocatePages
    dsimp only
    rw [hanswer, hused, if_neg (by simp), if_pos ⟨hgrant, hadmits⟩]
    exact ⟨_, rfl⟩
  rcases hrun with ⟨u, hrun⟩
  unfold placeCommandLine
  rw [hpages, hrun]
  exact ⟨_, rfl, rfl⟩

section Overrun

variable {image : Mem}

def headerBytes (image : Mem) : List UInt8 :=
  headerCmdline image ++ headerExtraCmdline image

theorem length_headerBytes (image : Mem) :
    (headerBytes image).length = bootArgsSize - 1 + bootExtraArgsSize := by
  rw [headerBytes, List.length_append, headerCmdline, headerExtraCmdline, length_bytesAt,
    length_bytesAt]

theorem zero_not_mem_headerBytes (h : ¬ EndsInHeader image) : 0 ∉ headerBytes image := by
  intro hmem
  exact h (List.mem_append.mp hmem)

theorem headerLine_of_full (h : ¬ EndsInHeader image) : headerLine image = headerBytes image := by
  have hlast := lastChar_mem image
  unfold headerLine
  rw [if_neg]
  · exact cString_eq_self (zero_not_mem_headerBytes h)
  · intro hzero
    rw [hzero] at hlast
    exact h (Or.inl hlast)

theorem cString_dirtyPool (count : Nat) (h : ¬ EndsInHeader image) :
    cString (fullCommandLine image
        (List.replicate (bootArgsSize - 1 + bootExtraArgsSize) 0 ++ List.replicate count 1)) =
      headerBytes image ++ List.replicate count 1 ∧
    fullCommandLine image
        (List.replicate (bootArgsSize - 1 + bootExtraArgsSize) 0 ++ List.replicate count 1) =
      headerBytes image ++ List.replicate count 1 := by
  have hfull : fullCommandLine image
      (List.replicate (bootArgsSize - 1 + bootExtraArgsSize) 0 ++ List.replicate count 1) =
      headerBytes image ++ List.replicate count 1 := by
    rw [fullCommandLine_of_full h, List.drop_left' List.length_replicate]
    rfl
  refine ⟨?_, hfull⟩
  rw [hfull]
  apply cString_eq_self
  rw [List.mem_append]
  rintro (hmem | hmem)
  · exact zero_not_mem_headerBytes h hmem
  · cases List.eq_of_mem_replicate hmem

theorem not_storesWholeLine_none (h : ¬ EndsInHeader image) : ¬ StoresWholeLine none image := by
  intro hwhole
  rcases cString_dirtyPool 1 h with ⟨hline, -⟩
  have hlength := length_headerBytes image
  have hshort : (headerBytes image ++ List.replicate 1 1).length < 4096 := by
    rw [List.length_append, hlength]
    decide
  rcases placeCommandLine_dirtyPool 1 PoolBlock.fullCommandLine (s := LoadState.enter image ∅)
    hshort rfl rfl with ⟨t, hrun, hstored⟩
  rw [← hline] at hrun
  have hbad := (hwhole (dirtyPoolEnv 1) (LoadState.enter image ∅) t _ _ rfl rfl hrun hstored).whole
  have hsame := congrArg List.length hbad
  rw [expectedLine, headerLine_of_full h, List.length_append] at hsame
  simp at hsame

/-- A line that needs a larger block is put together there from what was copied. -/
theorem setupCommandLine_grown {env : LoadEnv} {block grown extra full : List UInt8}
    {s : LoadState} (hpool : env.commandLinePool = some block)
    (hgrown : env.grownCommandLinePool = some grown)
    (hfull : fullCommandLine s.image block = full)
    (hsize : bootArgsSize + bootExtraArgsSize ≤
      env.arch.uintn ((cString full).length + extra.length + 2)) :
    setupCommandLine env (some extra) s =
      placeCommandLine env PoolBlock.grownCommandLine
        (cString (bytesAt (memOf (full.take (bootArgsSize + bootExtraArgsSize) ++
          grown.drop (bootArgsSize + bootExtraArgsSize))) 0 (cString full).length ++
            0x20 :: extra ++ [0]))
        ((s.emit (LoadEvent.freePool PoolBlock.fullCommandLine)).emit
          (LoadEvent.freePool PoolBlock.append)) := by
  unfold setupCommandLine
  rw [hpool]
  dsimp only
  rw [hfull, if_neg (Nat.not_lt.mpr hsize), hgrown]

theorem not_storesWholeLine_some (h : ¬ EndsInHeader image) (extra : List UInt8) :
    ¬ StoresWholeLine (some extra) image := by
  intro hwhole
  -- The size of the longer line does not wrap to less than the block for both numbers.
  have hcount : exists count, 2 ≤ count ∧
      bootArgsSize + bootExtraArgsSize ≤
        Arch.x64.uintn (bootArgsSize - 1 + bootExtraArgsSize + count + extra.length + 2) := by
    unfold bootArgsSize bootExtraArgsSize Arch.uintn Arch.uintnBits
    dsimp only
    by_cases hwrap : 1536 ≤ (1535 + 2 + extra.length + 2) % 2 ^ 64
    · exact ⟨2, by omega, by omega⟩
    · exact ⟨2000, by omega, by omega⟩
  rcases hcount with ⟨count, hcount, hgrown⟩
  rcases cString_dirtyPool count h with ⟨hline, hfull⟩
  have hlength := length_headerBytes image
  have hnul : 0 ∉ headerBytes image ++ [1] := by
    rw [List.mem_append]
    rintro (hmem | hmem)
    · exact zero_not_mem_headerBytes h hmem
    · cases List.mem_singleton.mp hmem
  -- Of the bytes behind the fields, only the last one of the old block is copied.
  have hkept : (headerBytes image ++ List.replicate count 1).take
      (bootArgsSize + bootExtraArgsSize) = headerBytes image ++ [1] := by
    have hone : bootArgsSize + bootExtraArgsSize = (headerBytes image).length + 1 := by
      rw [hlength]
      rfl
    rw [hone, List.take_length_add_append, List.take_replicate, Nat.min_eq_left (by omega)]
    rfl
  have hcut : cString (bytesAt (memOf (headerBytes image ++ [1]))
      0 (headerBytes image ++ List.replicate count 1).length ++ 0x20 :: extra ++ [0]) =
      headerBytes image ++ [1] := by
    have hrest : exists zeros, (headerBytes image ++ List.replicate count 1).length -
        (headerBytes image ++ [1]).length = zeros + 1 := by
      refine ⟨count - 2, ?_⟩
      rw [List.length_append, List.length_append, List.length_replicate, List.length_singleton]
      omega
    rcases hrest with ⟨zeros, hrest⟩
    rw [bytesAt_memOf_of_le (by omega), hrest, List.append_assoc, List.append_assoc,
      cString_append_of_not_mem hnul, List.replicate_succ]
    simp [cString]
  have hshort : (headerBytes image ++ [1]).length < 4096 := by
    rw [List.length_append, hlength]
    decide
  rcases placeCommandLine_dirtyPool count PoolBlock.grownCommandLine
    (s := ((LoadState.enter image ∅).emit (LoadEvent.freePool PoolBlock.fullCommandLine)).emit
      (LoadEvent.freePool PoolBlock.append)) hshort rfl rfl with ⟨t, hplace, hstored⟩
  have hrun : setupCommandLine (dirtyPoolEnv count) (some extra) (LoadState.enter image ∅) =
      (none, t) := by
    rw [hfull] at hline
    rw [setupCommandLine_grown rfl rfl hfull, hline, hkept, List.drop_nil, List.append_nil, hcut]
    · exact hplace
    · rw [hline, List.length_append, List.length_replicate, hlength]
      exact hgrown
  have hbad := (hwhole _ _ t _ _ rfl rfl hrun hstored).whole
  rw [expectedLine, headerLine_of_full h] at hbad
  cases (List.append_right_inj _).mp hbad

end Overrun

/--
Whatever the pool blocks held, the line is the one the header and the append
string say exactly if one of the two fields of the header ends in it.
-/
theorem setupCommandLine_whole_iff {append : Option (List UInt8)} {image : Mem}
    (happend : forall extra, append = some extra -> 0 ∉ extra) :
    StoresWholeLine append image <-> EndsInHeader image := by
  constructor
  · intro hwhole
    by_contra hfull
    cases append with
    | none => exact not_storesWholeLine_none hfull hwhole
    | some extra => exact not_storesWholeLine_some hfull extra hwhole
  · exact storesWholeLine_of_endsInHeader happend

theorem setupCommandLine_whole_iff_of_quiet :
    StoresWholeLine (some (ascii "quiet")) (smallImage 0x1000 0x1000 0) := by
  refine (setupCommandLine_whole_iff ?_).mpr (by decide +kernel)
  intro extra heq
  cases heq
  decide

def fullLineImage : Mem :=
  fun x =>
    if cmdlineOffset ≤ x ∧ x < extraCmdlineOffset + bootExtraArgsSize then 0x61
    else smallImage 0x1000 0x1000 0 x

theorem setupCommandLine_overrun : ¬ StoresWholeLine none fullLineImage :=
  not_storesWholeLine_none (by decide +kernel)

end BootImage
end BootableUefi
