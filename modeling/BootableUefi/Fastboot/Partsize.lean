import BootableUefi.Fastboot.Printing
import BootableUefi.Gpt.Names

/-!
# The variables of the partitions

`publish_partsize` goes over the list `gpt_list_partition` hands out, as far as
it counts.  It does not look at the status, and prints each name as a string that
ends with a NUL.
-/

namespace BootableUefi
namespace Fastboot

open Firmware Foundation Gpt

/-!
# The list in memory
-/

def pointerSize (arch : Arch) : Nat :=
  arch.uintnBits / 8

def pointerAt (mem : Mem) (offset : Nat) : Arch -> Nat
  | Arch.ia32 => le32 mem offset
  | Arch.x64 => le64 mem offset

/-- The address of `gparti[i]`, from `gparti` on. -/
def interfaceOffset (arch : Arch) (i : Nat) : Nat :=
  (128 + 2 * pointerSize arch) * i

def partAt (mem : Mem) (offset : Nat) : GptPartition where
  type := guidAt mem offset
  unique := guidAt mem (offset + 16)
  startingLba := le64 mem (offset + 32)
  endingLba := le64 mem (offset + 40)
  attrs := le64 mem (offset + 48)
  name := field (wideAt mem (offset + 56)) nameWidth

def interfaceAt (arch : Arch) (mem : Mem) (i : Nat) : GptPartitionInterface where
  part := partAt mem (interfaceOffset arch i)
  bio := pointerAt mem (interfaceOffset arch i + 128) arch
  dio := pointerAt mem (interfaceOffset arch i + 128 + pointerSize arch) arch

/-- `gparti[i].part.name` as a pointer; nothing stops a reader at its end. -/
def nameAt (arch : Arch) (mem : Mem) (i : Nat) : Nat -> UInt16 :=
  wideAt mem (interfaceOffset arch i + 56)

/-- What the call of `gpt_list_partition` returns; nothing after an error. -/
def returnedBy (fw : GptFirmware) (disks : Option (List GptDisk)) :
    List GptPartitionInterface :=
  match (gptListPartition fw disks).1 with
  | Except.error _ => []
  | Except.ok entries => entries

/-- The firmware, the cache, the media, and what is in the variables of the function. -/
structure PartsizeEnv where
  arch : Arch
  fw : GptFirmware
  disks : Option (List GptDisk)
  strayCount : Nat
  strayMem : Mem
  /-- Memory from the block with the list on. -/
  listMem : Mem
  list_holds : forall i entry, (returnedBy fw disks)[i]? = some entry ->
    interfaceAt arch listMem i = entry
  blockSize : Nat -> UInt32
  hex : HexPrinter

/-- `part_count` and memory from `gparti` on, after the call. -/
def PartsizeEnv.outputs (env : PartsizeEnv) : Nat × Mem :=
  match cachedDisks env.fw env.disks with
  -- the outputs have not been stored to
  | Except.error _ => (env.strayCount, env.strayMem)
  | Except.ok cached =>
      if !env.fw.listPool then (0, env.strayMem)
      else ((listEntries cached).length, env.listMem)

/-!
# The loop
-/

/-- Which allocations succeed for one entry: three to print, two to publish. -/
structure EntryAnswers where
  sizeName : Bool
  sizeValue : Bool
  sizeVar : Bool
  typeName : Bool
  typeVar : Bool

def EntryAnswers.granted : EntryAnswers :=
  ⟨true, true, true, true, true⟩

def EntryAnswers.refused : EntryAnswers :=
  ⟨false, false, false, false, false⟩

def partitionSize : List UInt8 :=
  ascii "partition-size:"

def partitionType : List UInt8 :=
  ascii "partition-type:"

def guidLinuxData : EfiGuid where
  low := 0x4433b9e5ebd0a0a2
  high := 0xc79926b7b668c087

def partSize (blockSize : UInt32) (part : GptPartition) : UInt64 :=
  blockSize.toUInt64 * (UInt64.ofNat part.endingLba + 1 - UInt64.ofNat part.startingLba)

def typeText (part : GptPartition) : List UInt8 :=
  if part.type = guidLinuxData then ascii "ext4" else ascii "none"

/-- The body of the loop, with the name where it is read. -/
def publishEntry (hex : HexPrinter) (blockSize : UInt32) (a : EntryAnswers) (part : GptPartition)
    (name : Nat -> UInt16) : List Publish :=
  let size := partSize blockSize part
  match snprintf a.sizeName maxVariableLength (wide partitionSize ++ printedString name) with
  | none => []
  | some sizeVar =>
      match snprintf a.sizeValue maxVariableLength (wide (hex.text size)) with
      | none => []
      | some value =>
          { name := sizeVar, value := value, alloc := a.sizeVar } ::
            match snprintf a.typeName maxVariableLength
              (wide partitionType ++ printedString name) with
            | none => []
            | some typeVar =>
                [{ name := typeVar, value := typeText part, alloc := a.typeVar }]

structure PartsizeRun where
  read : List Nat
  calls : List Publish

def publishPartsize (env : PartsizeEnv) (answers : Nat -> EntryAnswers) : PartsizeRun :=
  let (partCount, gparti) := env.outputs
  { read := List.range partCount
    calls := (List.range partCount).flatMap fun i =>
      let entry := interfaceAt env.arch gparti i
      publishEntry env.hex (env.blockSize entry.bio) (answers i) entry.part
        (nameAt env.arch gparti i) }

/-!
# What is to be published
-/

def partitionBytes (blockSize : UInt32) (part : GptPartition) : UInt64 :=
  blockSize.toUInt64 * (UInt64.ofNat part.endingLba - UInt64.ofNat part.startingLba + 1)

def entryVars (hex : HexPrinter) (blockSize : UInt32) (a : EntryAnswers) (part : GptPartition) :
    List FastbootVar :=
  match strToStra part.label with
  | none => []
  | some name =>
      if a.sizeName && a.sizeValue then
        (if a.sizeVar then
          [{ name := partitionSize ++ name
             value := hex.text (partitionBytes blockSize part) }]
        else []) ++
        if a.typeName && a.typeVar then
          [{ name := partitionType ++ name, value := typeText part }]
        else []
      else
        []

def PartsizeEnv.varsAt (env : PartsizeEnv) (a : EntryAnswers) (i : Nat) : List FastbootVar :=
  ((returnedBy env.fw env.disks)[i]?).elim [] fun entry =>
    entryVars env.hex (env.blockSize entry.bio) a entry.part

/-- Only returned entries are read, and their variables are published in order. -/
structure PublishesReturned (env : PartsizeEnv) (answers : Nat -> EntryAnswers) : Prop where
  reads : forall i, i ∈ (publishPartsize env answers).read ->
    i < (returnedBy env.fw env.disks).length
  publishes : forall varlist,
    (publishPartsize env answers).calls.foldl
        (fun varlist call => fastbootPublish call varlist) varlist =
      ((List.range (returnedBy env.fw env.disks).length).flatMap fun i =>
        env.varsAt (answers i) i).reverse ++ varlist

theorem partSize_eq (blockSize : UInt32) (part : GptPartition) :
    partSize blockSize part = partitionBytes blockSize part := by
  have hcomm : forall x y : UInt64, x + 1 - y = x - y + 1 := by
    intro x y
    rw [UInt64.sub_eq_add_neg, UInt64.sub_eq_add_neg, UInt64.add_assoc, UInt64.add_assoc,
      UInt64.add_comm 1]
  unfold partSize partitionBytes
  rw [hcomm]

/-- It is the product of the integers if that is no more than 64 bits long. -/
theorem toNat_partitionBytes {blockSize : UInt32} {part : GptPartition}
    (hlast : part.endingLba < 2 ^ 64) (horder : part.startingLba ≤ part.endingLba + 1)
    (hfits : blockSize.toNat * (part.endingLba + 1 - part.startingLba) < 2 ^ 64) :
    (partitionBytes blockSize part).toNat
      = blockSize.toNat * (part.endingLba + 1 - part.startingLba) := by
  have hblocks : (UInt64.ofNat part.endingLba - UInt64.ofNat part.startingLba + 1).toNat
      = (part.endingLba + 1 - part.startingLba) % 2 ^ 64 := by
    rw [UInt64.toNat_add, UInt64.toNat_sub, UInt64.toNat_ofNat', UInt64.toNat_ofNat',
      UInt64.toNat_one]
    omega
  unfold partitionBytes
  rw [UInt64.toNat_mul, hblocks, UInt32.toNat_toUInt64, Nat.mul_mod_mod, Nat.mod_eq_of_lt hfits]

/-!
# One entry
-/

/-- The name takes up its field, and is ASCII. -/
def FullAscii (part : GptPartition) : Prop :=
  0 ∉ part.name ∧ (part.name.all fun c => c ≤ 0x7f) = true

def publishedVars (calls : List Publish) : List FastbootVar :=
  (calls.filter Publish.accepted).map Publish.var

theorem accepted_entry {name value : List UInt8} (hname : name.length < maxVariableLength)
    (hvalue : value.length < maxVariableLength) (alloc : Bool) :
    publishedVars [{ name := name, value := value, alloc := alloc }] =
      if alloc then [{ name := name, value := value }] else [] := by
  have haccepted : Publish.accepted { name := name, value := value, alloc := alloc } = alloc := by
    unfold Publish.accepted
    rw [decide_eq_true hname, decide_eq_true hvalue]
    rfl
  unfold publishedVars
  rw [List.filter_cons, haccepted]
  split
  · rfl
  · rfl

theorem publishedVars_cons (call : Publish) (calls : List Publish) :
    publishedVars (call :: calls) = publishedVars [call] ++ publishedVars calls := by
  unfold publishedVars
  rw [← List.map_append, ← List.filter_append]
  rfl

theorem length_typeText (part : GptPartition) :
    (typeText part).length < maxVariableLength := by
  unfold typeText
  split
  · decide
  · decide

theorem length_partitionSize : partitionSize.length = 15 :=
  rfl

theorem length_partitionType : partitionType.length = 15 :=
  rfl

theorem snprintf_label {label : List UInt16} (hlength : label.length ≤ nameWidth) (alloc : Bool) :
    snprintf alloc maxVariableLength (wide partitionSize ++ label) =
        (if alloc then (strToStra label).map fun name => partitionSize ++ name else none) ∧
      snprintf alloc maxVariableLength (wide partitionType ++ label) =
        if alloc then (strToStra label).map fun name => partitionType ++ name else none := by
  have hroom : 15 + label.length < maxVariableLength := by
    change label.length ≤ 36 at hlength
    change 15 + label.length < 128
    omega
  have hsize : (partitionSize.all fun c => c ≤ 0x7f) = true := by
    decide
  have htype : (partitionType.all fun c => c ≤ 0x7f) = true := by
    decide
  constructor
  · exact snprintf_wide hsize (by rw [length_partitionSize]; exact hroom) alloc
  · exact snprintf_wide htype (by rw [length_partitionType]; exact hroom) alloc

theorem publishEntry_of_label (hex : HexPrinter) (blockSize : UInt32) (a : EntryAnswers) {part : GptPartition}
    {name : Nat -> UInt16} (hname : printedString name = part.label)
    (hlength : part.label.length ≤ nameWidth) :
    publishedVars (publishEntry hex blockSize a part name) = entryVars hex blockSize a part := by
  unfold publishEntry entryVars
  dsimp only
  rw [hname, (snprintf_label hlength a.sizeName).1, (snprintf_label hlength a.typeName).2,
    hex.snprintf_text, partSize_eq]
  cases htext : strToStra part.label with
  | none => cases a.sizeName <;> rfl
  | some text =>
      have hshort : text.length ≤ nameWidth := (length_of_strToStra htext).trans_le hlength
      have hname15 : 15 + text.length < maxVariableLength := by
        change text.length ≤ 36 at hshort
        change 15 + text.length < 128
        omega
      have hvalue : (hex.text (partitionBytes blockSize part)).length < maxVariableLength :=
        Nat.lt_of_le_of_lt (hex.length_le _) (by decide)
      have hsize : (partitionSize ++ text).length < maxVariableLength := by
        rw [List.length_append]
        exact hname15
      have htype : (partitionType ++ text).length < maxVariableLength := by
        rw [List.length_append]
        exact hname15
      cases a.sizeName with
      | false => rfl
      | true =>
          cases a.sizeValue with
          | false => rfl
          | true =>
              change publishedVars ({ name := partitionSize ++ text, value := _, alloc := _ } :: _)
                = _ ++ _
              rw [publishedVars_cons, accepted_entry hsize hvalue]
              congr 1
              cases a.typeName with
              | false => rfl
              | true => exact accepted_entry htype (length_typeText part) a.typeVar

section Entry

variable {hex : HexPrinter} {blockSize : UInt32} {a : EntryAnswers} {part : GptPartition} {name : Nat -> UInt16}

theorem length_name (hpart : part.name = field name nameWidth) :
    part.name.length = nameWidth := by
  rw [hpart, length_field]

theorem length_label_le (hpart : part.name = field name nameWidth) :
    part.label.length ≤ nameWidth := by
  have hprefix : part.label <+: part.name := List.takeWhile_prefix _
  exact hprefix.length_le.trans_eq (length_name hpart)

theorem publishEntry_of_not_ascii (hex : HexPrinter) (blockSize : UInt32) (a : EntryAnswers)
    (hpart : part.name = field name nameWidth)
    (hfull : 0 ∉ part.name) (hascii : ¬ (part.name.all fun c => c ≤ 0x7f) = true) :
    publishEntry hex blockSize a part name = [] ∧ entryVars hex blockSize a part = [] := by
  have hlabel : part.label = part.name := by
    have hsame := (printedString_of_full name (hpart ▸ hfull)).1
    rw [← hpart] at hsame
    exact hsame
  have hprinted : exists behind, printedString name = part.name ++ behind := by
    rw [hpart]
    exact ⟨_, (printedString_of_full name (hpart ▸ hfull)).2⟩
  have hname : strToStra part.name = none := if_neg hascii
  constructor
  · rcases hprinted with ⟨behind, hprinted⟩
    have hshort : (wide partitionSize ++ part.name).length ≤ maxVariableLength - 1 := by
      unfold wide
      rw [List.length_append, List.length_map, length_name hpart]
      decide
    have hprint : snprintf a.sizeName maxVariableLength (wide partitionSize ++ printedString name)
        = none := by
      unfold snprintf
      rw [hprinted, ← List.append_assoc, List.take_append, List.take_of_length_le hshort,
        strToStra_append_none]
      · exact ite_self none
      · have hsize : (partitionSize.all fun c => c ≤ 0x7f) = true := by
          decide
        rw [strToStra_wide hsize, hname]
        rfl
    unfold publishEntry
    dsimp only
    rw [hprint]
  · unfold entryVars
    rw [hlabel, hname]

theorem printed_of_mem_publishEntry {call : Publish}
    (hcall : call ∈ publishEntry hex blockSize a part name) :
    exists p alloc, p.length = 15 ∧
      snprintf alloc maxVariableLength (wide p ++ printedString name) = some call.name := by
  unfold publishEntry at hcall
  dsimp only at hcall
  split at hcall
  · exact absurd hcall List.not_mem_nil
  · rename_i sizeVar hsize
    split at hcall
    · exact absurd hcall List.not_mem_nil
    · rcases List.mem_cons.mp hcall with rfl | htail
      · exact ⟨partitionSize, _, length_partitionSize, hsize⟩
      · split at htail
        · exact absurd htail List.not_mem_nil
        · rename_i typeVar htype
          rw [List.mem_singleton] at htail
          subst htail
          exact ⟨partitionType, _, length_partitionType, htype⟩

theorem length_of_snprintf {alloc : Bool} {text : List UInt16} {printed : List UInt8}
    (h : snprintf alloc maxVariableLength text = some printed) :
    printed.length = min 127 text.length := by
  unfold snprintf at h
  split at h
  · rw [length_of_strToStra h, List.length_take]
    rfl
  · cases h

theorem publishEntry_of_behind (hpart : part.name = field name nameWidth)
    (hfull : FullAscii part) (hbehind : name nameWidth ≠ 0) :
    publishedVars (publishEntry hex blockSize EntryAnswers.granted part name)
      ≠ entryVars hex blockSize EntryAnswers.granted part := by
  intro heq
  have hnul : 0 ∉ field name nameWidth := hpart ▸ hfull.1
  rcases printedString_of_full name hnul with ⟨hsame, hprinted⟩
  rw [← hpart] at hsame hprinted
  have hlabel : part.label = part.name := hsame
  have htext : strToStra part.label = some (part.name.map UInt16.toUInt8) := by
    rw [hlabel]
    exact if_pos hfull.2
  have hwidth : part.name.length = nameWidth := length_name hpart
  -- the name that is to be published has 51 bytes, and what is printed has more
  let var : FastbootVar :=
    { name := partitionSize ++ part.name.map UInt16.toUInt8
      value := hex.text (partitionBytes blockSize part) }
  have hmem : var ∈ entryVars hex blockSize EntryAnswers.granted part := by
    unfold entryVars
    rw [htext]
    exact List.mem_cons_self ..
  rw [← heq] at hmem
  rcases List.mem_map.mp hmem with ⟨call, hcall, hvar⟩
  rcases printed_of_mem_publishEntry (List.mem_of_mem_filter hcall) with ⟨p, alloc, hp, hprint⟩
  have hlong : 0 < (fieldString 0 (field (fun i => name (nameWidth + i)) 92)).length :=
    List.length_pos_of_ne_nil fun hnil => hbehind ((behind_eq_nil_iff name).mp hnil)
  have hlength := length_of_snprintf hprint
  have hcallName : call.name.length = 15 + nameWidth := by
    have hnames : call.name = partitionSize ++ part.name.map UInt16.toUInt8 :=
      congrArg FastbootVar.name hvar
    rw [hnames, List.length_append, List.length_map, hwidth, length_partitionSize]
  rw [hcallName, hprinted, List.length_append, List.length_append, hwidth] at hlength
  unfold wide at hlength
  rw [List.length_map, hp] at hlength
  change 51 = min 127 (15 + (36 + _)) at hlength
  omega

theorem publishEntry_of_ends (hpart : part.name = field name nameWidth)
    (hends : FullAscii part -> name nameWidth = 0) :
    publishedVars (publishEntry hex blockSize a part name) = entryVars hex blockSize a part := by
  by_cases hnul : 0 ∈ part.name
  · have hprinted : printedString name = part.label := by
      have hfield := printedString_of_nul name (hpart ▸ hnul)
      rw [← hpart] at hfield
      exact hfield
    exact publishEntry_of_label hex blockSize a hprinted (length_label_le hpart)
  · by_cases hascii : (part.name.all fun c => c ≤ 0x7f) = true
    · have hbehind := (behind_eq_nil_iff name).mpr (hends ⟨hnul, hascii⟩)
      have hprinted : printedString name = part.label := by
        rcases printedString_of_full name (hpart ▸ hnul) with ⟨hsame, hfull⟩
        rw [hbehind, List.append_nil, ← hsame, ← hpart] at hfull
        exact hfull
      exact publishEntry_of_label hex blockSize a hprinted (length_label_le hpart)
    · rcases publishEntry_of_not_ascii hex blockSize a hpart hnul hascii with
        ⟨hcalls, hvars⟩
      rw [hcalls, hvars]
      rfl

theorem entryVars_refused : entryVars hex blockSize EntryAnswers.refused part = [] := by
  unfold entryVars
  split
  · rfl
  · rfl

end Entry

/-!
# The whole list
-/

/-- The status does not have to be looked at, and full names end behind their field. -/
structure PartsizeEnv.Bounded (env : PartsizeEnv) : Prop where
  error : forall status, cachedDisks env.fw env.disks = Except.error status -> env.strayCount = 0
  names : forall entry, entry ∈ returnedBy env.fw env.disks -> FullAscii entry.part ->
    entry.bio % 2 ^ 16 = 0

/-- The unit behind the name is the low half word of the pointer that follows it. -/
theorem nameAt_behind_iff (arch : Arch) (mem : Mem) (i : Nat) :
    nameAt arch mem i nameWidth = 0 <-> (interfaceAt arch mem i).bio % 2 ^ 16 = 0 := by
  have hunit : nameAt arch mem i nameWidth
      = UInt16.ofNat (le16 mem (interfaceOffset arch i + 128)) := rfl
  have hbio : (interfaceAt arch mem i).bio % 2 ^ 16
      = le16 mem (interfaceOffset arch i + 128) := by
    have hlow := le16_lt mem (interfaceOffset arch i + 128)
    unfold interfaceAt pointerAt
    cases arch with
    | ia32 =>
        unfold le32
        rw [Nat.add_mul_mod_self_left, Nat.mod_eq_of_lt hlow]
    | x64 =>
        unfold le64 le32
        rw [show 2 ^ 32 = 2 ^ 16 * 2 ^ 16 from rfl, Nat.mul_assoc, Nat.add_mul_mod_self_left,
          Nat.add_mul_mod_self_left, Nat.mod_eq_of_lt hlow]
  rw [hunit, hbio, ← UInt16.toNat_inj, UInt16.toNat_ofNat',
    Nat.mod_eq_of_lt (le16_lt mem _), UInt16.toNat_zero]

theorem outputs_cases (env : PartsizeEnv) :
    (exists status, cachedDisks env.fw env.disks = Except.error status ∧
      returnedBy env.fw env.disks = [] ∧ env.outputs.1 = env.strayCount) ∨
    (returnedBy env.fw env.disks = [] ∧ env.outputs.1 = 0 ∧
      forall status, cachedDisks env.fw env.disks ≠ Except.error status) ∨
    (env.outputs = ((returnedBy env.fw env.disks).length, env.listMem) ∧
      forall status, cachedDisks env.fw env.disks ≠ Except.error status) := by
  unfold returnedBy gptListPartition PartsizeEnv.outputs
  cases hcached : cachedDisks env.fw env.disks with
  | error status => exact Or.inl ⟨status, rfl, rfl, rfl⟩
  | ok cached =>
      right
      cases env.fw.listPool with
      | false => exact Or.inl ⟨rfl, rfl, fun _ h => nomatch h⟩
      | true => exact Or.inr ⟨rfl, fun _ h => nomatch h⟩

def PartsizeEnv.callsAt (env : PartsizeEnv) (a : EntryAnswers) (i : Nat) : List Publish :=
  let entry := interfaceAt env.arch env.outputs.2 i
  publishEntry env.hex (env.blockSize entry.bio) a entry.part (nameAt env.arch env.outputs.2 i)

theorem publishedVars_flatMap (calls : Nat -> List Publish) (indices : List Nat) :
    publishedVars (indices.flatMap calls)
      = indices.flatMap fun i => publishedVars (calls i) := by
  unfold publishedVars
  rw [List.filter_flatMap, List.map_flatMap]

theorem flatMap_range_single {n i : Nat} (hi : i < n) {f : Nat -> List FastbootVar}
    (hothers : forall k, k ≠ i -> f k = []) : (List.range n).flatMap f = f i := by
  induction n with
  | zero => exact absurd hi (Nat.not_lt_zero i)
  | succ n ih =>
      rw [List.range_succ, List.flatMap_append, List.flatMap_singleton]
      rcases Nat.lt_or_eq_of_le (Nat.le_of_lt_succ hi) with hlt | rfl
      · rw [ih hlt, hothers n (Nat.ne_of_gt hlt), List.append_nil]
      · have hnone : (List.range i).flatMap f = [] := by
          rw [List.flatMap_eq_nil_iff]
          intro k hk
          exact hothers k (Nat.ne_of_lt (List.mem_range.mp hk))
        rw [hnone, List.nil_append]

theorem publishesReturned_iff (env : PartsizeEnv) (answers : Nat -> EntryAnswers) :
    PublishesReturned env answers <->
      env.outputs.1 ≤ (returnedBy env.fw env.disks).length ∧
      ((List.range env.outputs.1).flatMap fun i => publishedVars (env.callsAt (answers i) i)) =
        (List.range (returnedBy env.fw env.disks).length).flatMap fun i =>
          env.varsAt (answers i) i := by
  have hcalls : publishedVars (publishPartsize env answers).calls =
      (List.range env.outputs.1).flatMap fun i => publishedVars (env.callsAt (answers i) i) :=
    publishedVars_flatMap _ _
  have hlist : forall varlist, (publishPartsize env answers).calls.foldl
      (fun varlist call => fastbootPublish call varlist) varlist
        = (publishedVars (publishPartsize env answers).calls).reverse ++ varlist :=
    fun varlist => foldl_fastbootPublish _ varlist
  rw [← hcalls]
  constructor
  · intro h
    refine ⟨?_, ?_⟩
    · by_contra hmore
      have hread := h.reads (returnedBy env.fw env.disks).length
        (List.mem_range.mpr (Nat.lt_of_not_le hmore))
      exact Nat.lt_irrefl _ hread
    · have hempty := h.publishes []
      rw [hlist, List.append_nil, List.append_nil] at hempty
      exact List.reverse_injective hempty
  · rintro ⟨hcount, hvars⟩
    constructor
    · intro i hi
      exact Nat.lt_of_lt_of_le (List.mem_range.mp hi) hcount
    · intro varlist
      rw [hlist, hvars]

theorem varsAt_refused (env : PartsizeEnv) (i : Nat) :
    env.varsAt EntryAnswers.refused i = [] := by
  unfold PartsizeEnv.varsAt
  cases (returnedBy env.fw env.disks)[i]? with
  | none => rfl
  | some entry => exact entryVars_refused

def grantOnly (i k : Nat) : EntryAnswers :=
  if k = i then EntryAnswers.granted else EntryAnswers.refused

theorem vars_of_grantOnly {env : PartsizeEnv} {i : Nat}
    (h : PublishesReturned env (grantOnly i)) (hi : i < env.outputs.1)
    (hcount : env.outputs.1 = (returnedBy env.fw env.disks).length) :
    publishedVars (env.callsAt EntryAnswers.granted i) = env.varsAt EntryAnswers.granted i := by
  have hgranted : grantOnly i i = EntryAnswers.granted := if_pos rfl
  have hrefused : forall k, k ≠ i -> grantOnly i k = EntryAnswers.refused := fun k hk => if_neg hk
  have hvars := ((publishesReturned_iff env (grantOnly i)).mp h).2
  rw [← hcount, flatMap_range_single hi, flatMap_range_single hi, hgranted] at hvars
  · exact hvars
  · intro k hk
    rw [hrefused k hk]
    exact varsAt_refused env k
  · intro k hk
    rw [hrefused k hk]
    rfl

theorem returned_at {env : PartsizeEnv}
    (houtputs : env.outputs = ((returnedBy env.fw env.disks).length, env.listMem)) {i : Nat}
    (hi : i < (returnedBy env.fw env.disks).length) :
    exists entry, (returnedBy env.fw env.disks)[i]? = some entry ∧
      interfaceAt env.arch env.listMem i = entry ∧
      (forall a, env.varsAt a i = entryVars env.hex (env.blockSize entry.bio) a entry.part) ∧
      forall a, env.callsAt a i =
        publishEntry env.hex (env.blockSize entry.bio) a entry.part (nameAt env.arch env.listMem i) := by
  have hget : (returnedBy env.fw env.disks)[i]? = some (returnedBy env.fw env.disks)[i] :=
    List.getElem?_eq_getElem hi
  have hentry := env.list_holds i _ hget
  refine ⟨_, hget, hentry, fun a => ?_, fun a => ?_⟩
  · unfold PartsizeEnv.varsAt
    rw [hget]
    rfl
  · unfold PartsizeEnv.callsAt
    rw [houtputs, hentry]

theorem bio_of_publishesReturned {env : PartsizeEnv}
    (hall : forall answers, PublishesReturned env answers)
    {entry : GptPartitionInterface} (hmem : entry ∈ returnedBy env.fw env.disks)
    (hfull : FullAscii entry.part) : entry.bio % 2 ^ 16 = 0 := by
  have hnot : returnedBy env.fw env.disks ≠ [] := List.ne_nil_of_mem hmem
  rcases outputs_cases env with ⟨-, -, hnone, -⟩ | ⟨hnone, -, -⟩ | ⟨houtputs, -⟩
  · exact absurd hnone hnot
  · exact absurd hnone hnot
  · rcases List.getElem?_of_mem hmem with ⟨i, hget⟩
    have hi : i < (returnedBy env.fw env.disks).length :=
      (List.getElem?_eq_some_iff.mp hget).1
    have hcount : env.outputs.1 = (returnedBy env.fw env.disks).length :=
      congrArg Prod.fst houtputs
    rcases returned_at houtputs hi with ⟨entry', hget', hentry, hvars, hcalls⟩
    rw [hget] at hget'
    cases hget'
    have hsame := vars_of_grantOnly (hall (grantOnly i)) (hcount ▸ hi) hcount
    rw [hvars, hcalls] at hsame
    have hpart : entry.part.name = field (nameAt env.arch env.listMem i) nameWidth := by
      rw [← hentry]
      rfl
    rw [← hentry, ← nameAt_behind_iff]
    by_contra hbehind
    exact publishEntry_of_behind hpart hfull hbehind hsame

theorem callsAt_eq_varsAt {env : PartsizeEnv} (hbounded : env.Bounded)
    (houtputs : env.outputs = ((returnedBy env.fw env.disks).length, env.listMem)) {i : Nat}
    (hi : i < (returnedBy env.fw env.disks).length) (a : EntryAnswers) :
    publishedVars (env.callsAt a i) = env.varsAt a i := by
  rcases returned_at houtputs hi with ⟨entry, hget, hentry, hvars, hcalls⟩
  rw [hvars, hcalls]
  apply publishEntry_of_ends
  · rw [← hentry]
    rfl
  · intro hfull
    rw [nameAt_behind_iff, hentry]
    exact hbounded.names entry (List.mem_of_getElem? hget) hfull

/--
Whatever allocations fail, the function publishes what the call returned exactly
if a failed call has left a count of 0, and no name runs on behind its field.
-/
theorem publishPartsize_returned_iff (env : PartsizeEnv) :
    (forall answers, PublishesReturned env answers) <-> env.Bounded := by
  constructor
  · intro hall
    refine ⟨fun status hstatus => ?_, fun entry hmem => bio_of_publishesReturned hall hmem⟩
    rcases outputs_cases env with ⟨-, -, hnone, hcount⟩ | ⟨-, -, hnot⟩ | ⟨-, hnot⟩
    · have hread := ((publishesReturned_iff env fun _ => EntryAnswers.refused).mp (hall _)).1
      rw [hnone, hcount] at hread
      exact Nat.le_zero.mp hread
    · exact absurd hstatus (hnot status)
    · exact absurd hstatus (hnot status)
  · intro hbounded answers
    rw [publishesReturned_iff]
    rcases outputs_cases env with ⟨status, hstatus, hnone, hcount⟩ | ⟨hnone, hcount, -⟩ |
      ⟨houtputs, -⟩
    · rw [hnone, hcount, hbounded.error status hstatus]
      exact ⟨Nat.le_refl 0, rfl⟩
    · rw [hnone, hcount]
      exact ⟨Nat.le_refl 0, rfl⟩
    · have hcount : env.outputs.1 = (returnedBy env.fw env.disks).length :=
        congrArg Prod.fst houtputs
      rw [hcount]
      refine ⟨Nat.le_refl _, List.flatMap_congr fun i hi => ?_⟩
      exact callsAt_eq_varsAt hbounded houtputs (List.mem_range.mp hi) (answers i)

def namedEnv : PartsizeEnv where
  arch := Arch.x64
  fw := listingFirmware
  disks := some [namedDisk]
  strayCount := 1
  strayMem := fun _ => 0
  listMem := fun x =>
    if x < 128 then namedDisk.partitions x else if x = 128 then 1 else if x = 136 then 2 else 0
  list_holds := by
    intro i entry hentry
    cases i with
    | zero =>
        cases hentry
        decide +kernel
    | succ i => nomatch hentry
  blockSize := fun _ => 512
  hex := upperHex

theorem publishPartsize_returned_iff_of_named :
    (publishPartsize namedEnv fun _ => EntryAnswers.granted).calls.map Publish.var =
        [{ name := ascii "partition-size:x", value := ascii "0xA00" },
          { name := ascii "partition-type:x", value := ascii "none" }] ∧
      forall answers, PublishesReturned namedEnv answers := by
  refine ⟨by decide +kernel, (publishPartsize_returned_iff namedEnv).mpr ?_⟩
  refine ⟨nofun, ?_⟩
  intro entry hmem hfull
  cases hmem with
  | head => exact absurd hfull.1 (by decide +kernel)
  | tail _ hrest => cases hrest

/--
The firmware has no block devices to list, and the variables of the function are
1 and an address with a name of one letter.
-/
def strayEnv : PartsizeEnv where
  arch := Arch.x64
  fw := {
    locateSize := EfiStatus.notFound
    handlesPool := true
    locateHandles := EfiStatus.success
    handles := []
    disksPool := true
    listPool := true }
  disks := none
  strayCount := 1
  strayMem := fun offset => if offset = 56 then 0x78 else 0
  listMem := fun _ => 0
  list_holds := fun _ _ h => nomatch h
  blockSize := fun _ => 0
  hex := upperHex

/-- A partition is published that nobody has returned. -/
theorem publishPartsize_stray :
    (gptListPartition strayEnv.fw strayEnv.disks).1 = Except.error EfiStatus.notFound ∧
      (publishPartsize strayEnv fun _ => EntryAnswers.granted).read = [0] ∧
      (publishPartsize strayEnv fun _ => EntryAnswers.granted).calls.map Publish.name =
        [ascii "partition-size:x", ascii "partition-type:x"] ∧
      ¬ PublishesReturned strayEnv fun _ => EntryAnswers.granted := by
  refine ⟨rfl, rfl, by decide, fun h => ?_⟩
  exact absurd (h.reads 0 (List.mem_cons_self ..)) (Nat.not_lt_zero 0)

end Fastboot
end BootableUefi
