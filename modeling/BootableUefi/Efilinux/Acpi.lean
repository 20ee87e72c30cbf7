import BootableUefi.Firmware.Status
import BootableUefi.Foundation.Bytes
import BootableUefi.Foundation.Strings

/-!
# Looking up an ACPI table

`get_acpi_table` goes through the entries of the RSDT until one points to a table
with the signature.  How many entries there are is computed from the length in
the header, in the machine's `size_t`, and kept in an `int`.
-/

namespace BootableUefi
namespace Efilinux

open Firmware Foundation

/-- The memory, and what `LibGetSystemConfigurationTable` says of the ACPI 2.0 table. -/
structure AcpiEnv where
  mem : Mem
  acpi20 : Except EfiStatus Nat

/-- Four characters, none of them NUL. -/
structure AcpiSignature where
  chars : List UInt8
  length_eq : chars.length = 4
  nonzero : forall c, c ∈ chars -> c ≠ 0

def AcpiSignature.rsci : AcpiSignature where
  chars := [0x52, 0x53, 0x43, 0x49]
  length_eq := rfl
  nonzero := by
    intro c hc
    simp only [List.mem_cons, List.not_mem_nil, or_false] at hc
    rcases hc with rfl | rfl | rfl | rfl <;> decide

def rsdpSig : List UInt8 :=
  [0x52, 0x53, 0x44, 0x20, 0x50, 0x54, 0x52, 0x20]

def rsdtSig : List UInt8 :=
  [0x52, 0x53, 0x44, 0x54]

/-- `strncmpa`; the second string is given by its characters before the NUL. -/
def strncmpa : (Nat -> UInt8) -> List UInt8 -> Nat -> Int
  | _, _, 0 => 0
  | s1, [], _ + 1 => (s1 0).toNat
  | s1, c :: cs, len + 1 =>
      if s1 0 ≠ c then (s1 0).toNat - c.toNat
      else strncmpa (fun i => s1 (i + 1)) cs len

def AcpiEnv.from (env : AcpiEnv) (address : Nat) : Nat -> UInt8 :=
  fun i => env.mem (address + i)

def getRsdtTable (env : AcpiEnv) : Except EfiStatus Nat :=
  match env.acpi20 with
  | Except.error status => Except.error status
  | Except.ok rsdp =>
      if strncmpa (env.from rsdp) rsdpSig 8 ≠ 0 then
        Except.error EfiStatus.compromisedData
      else
        let rsdt := le32 env.mem (rsdp + 16)
        if strncmpa (env.from rsdt) rsdtSig 4 ≠ 0 then
          Except.error EfiStatus.compromisedData
        else
          Except.ok rsdt

def toInt (n : Nat) : Int :=
  if n % 2 ^ 32 < 2 ^ 31 then n % 2 ^ 32 else (n % 2 ^ 32 : Int) - 2 ^ 32

def headerSize : Nat :=
  36

/-- `nb_acpi_tables`, from the length in the header of the RSDT. -/
def nbAcpiTables (arch : Arch) (length : Nat) : Int :=
  toInt ((length + 2 ^ arch.uintnBits - headerSize) % 2 ^ arch.uintnBits / 4)

def AcpiEnv.length (env : AcpiEnv) (table : Nat) : Nat :=
  le32 env.mem (table + 4)

def AcpiEnv.entry (env : AcpiEnv) (rsdt i : Nat) : Nat :=
  le32 env.mem (rsdt + headerSize + 4 * i)

/-- What a lookup returns, and the entries it has read. -/
structure Lookup where
  result : Except EfiStatus Nat
  reads : List Nat

/-- The loop, from entry `i` on, with so many entries left. -/
def findEntry (env : AcpiEnv) (rsdt : Nat) (signature : List UInt8) : Nat -> Nat -> Lookup
  | 0, _ => { result := Except.error EfiStatus.notFound, reads := [] }
  | left + 1, i =>
      let header := env.entry rsdt i
      if strncmpa (env.from header) signature signature.length = 0 then
        { result := Except.ok header, reads := [i] }
      else
        let rest := findEntry env rsdt signature left (i + 1)
        { rest with reads := i :: rest.reads }

def getAcpiTable (arch : Arch) (env : AcpiEnv) (signature : List UInt8) : Lookup :=
  match getRsdtTable env with
  | Except.error status => { result := Except.error status, reads := [] }
  | Except.ok rsdt =>
      findEntry env rsdt signature (nbAcpiTables arch (env.length rsdt)).toNat 0

/-!
# What the loop finds
-/

theorem strncmpa_eq_zero_iff (text : List UInt8) (s1 : Nat -> UInt8) :
    strncmpa s1 text text.length = 0 <-> Carries s1 text := by
  induction text generalizing s1 with
  | nil => simp [strncmpa, Carries]
  | cons c cs ih =>
      unfold Carries
      rw [List.length_cons, strncmpa]
      by_cases hfirst : s1 0 = c
      · rw [if_neg (not_not.mpr hfirst), ih]
        simp [hfirst]
      · have hdiff : ((s1 0).toNat : Int) - c.toNat ≠ 0 := by
          intro hzero
          apply hfirst
          rw [← UInt8.toNat_inj]
          omega
        rw [if_pos hfirst]
        simp [hdiff, hfirst]

def AcpiEnv.HasSignature (env : AcpiEnv) (table : Nat) (signature : List UInt8) : Prop :=
  Carries (env.from table) signature

structure FirstWith (env : AcpiEnv) (rsdt : Nat) (signature : List UInt8) (start i : Nat) :
    Prop where
  from_start : start ≤ i
  has : env.HasSignature (env.entry rsdt i) signature
  first : forall j, start ≤ j -> j < i -> ¬ env.HasSignature (env.entry rsdt j) signature

/-- The loop comes to the first entry with the signature, or to the end. -/
structure Finds (env : AcpiEnv) (rsdt : Nat) (signature : List UInt8) (left start : Nat)
    (lookup : Lookup) : Prop where
  reads : forall i, i ∈ lookup.reads -> start ≤ i ∧ i < start + left
  outcome : (exists i, i < start + left ∧ FirstWith env rsdt signature start i ∧
      lookup.result = Except.ok (env.entry rsdt i)) ∨
    ((forall i, start ≤ i -> i < start + left ->
      ¬ env.HasSignature (env.entry rsdt i) signature) ∧
        lookup.result = Except.error EfiStatus.notFound)

theorem findEntry_finds (env : AcpiEnv) (rsdt : Nat) (signature : List UInt8)
    (left start : Nat) :
    Finds env rsdt signature left start (findEntry env rsdt signature left start) := by
  induction left generalizing start with
  | zero =>
      refine ⟨fun i hi => absurd hi List.not_mem_nil, Or.inr ⟨?_, rfl⟩⟩
      intro i hstart hend
      omega
  | succ left ih =>
      rw [findEntry]
      dsimp only
      have hhas := strncmpa_eq_zero_iff signature (env.from (env.entry rsdt start))
      by_cases hfound : strncmpa (env.from (env.entry rsdt start)) signature
          signature.length = 0
      · rw [if_pos hfound]
        constructor
        · intro i hi
          cases List.mem_singleton.mp hi
          exact ⟨Nat.le_refl _, by omega⟩
        · left
          refine ⟨start, by omega, ⟨Nat.le_refl _, hhas.mp hfound, ?_⟩, rfl⟩
          intro j hstart hend
          omega
      · rw [if_neg hfound]
        have hnot : ¬ env.HasSignature (env.entry rsdt start) signature :=
          fun h => hfound (hhas.mpr h)
        have hrest := ih (start + 1)
        constructor
        · intro i hi
          rcases List.mem_cons.mp hi with rfl | hi
          · exact ⟨Nat.le_refl _, by omega⟩
          · have hbounds := hrest.reads i hi
            omega
        · rcases hrest.outcome with ⟨i, hend, hfirst, hresult⟩ | ⟨hnone, hresult⟩
          · left
            refine ⟨i, by omega, ⟨Nat.le_of_succ_le hfirst.from_start, hfirst.has, ?_⟩, hresult⟩
            intro j hstart hlast
            rcases Nat.eq_or_lt_of_le hstart with rfl | hlater
            · exact hnot
            · exact hfirst.first j hlater hlast
          · right
            refine ⟨?_, hresult⟩
            intro i hstart hend
            rcases Nat.eq_or_lt_of_le hstart with rfl | hlater
            · exact hnot
            · exact hnone i hlater (by omega)

/-!
# How many entries it goes through
-/

theorem toInt_of_lt {n : Nat} (h : n < 2 ^ 31) : toInt n = n := by
  unfold toInt
  rw [if_pos (by omega)]
  omega

theorem toInt_neg {n : Nat} (h : 2 ^ 31 ≤ n % 2 ^ 32) : toInt n < 0 := by
  unfold toInt
  rw [if_neg (by omega)]
  omega

theorem nbAcpiTables_ia32 (length : Nat) :
    nbAcpiTables Arch.ia32 length = toInt ((length + 2 ^ 32 - 36) % 2 ^ 32 / 4) := rfl

theorem nbAcpiTables_x64 (length : Nat) :
    nbAcpiTables Arch.x64 length = toInt ((length + 2 ^ 64 - 36) % 2 ^ 64 / 4) := rfl

/-- From the length of the header on there is no difference between the machines. -/
theorem nbAcpiTables_of_header {length : Nat} (hlength : length < 2 ^ 32)
    (hheader : headerSize ≤ length) (arch : Arch) :
    nbAcpiTables arch length = ((length - headerSize) / 4 : Nat) := by
  unfold headerSize at *
  have hsmall : (length - 36) / 4 < 2 ^ 31 := by omega
  cases arch with
  | ia32 =>
      have hdiff : (length + 2 ^ 32 - 36) % 2 ^ 32 = length - 36 := by omega
      rw [nbAcpiTables_ia32, hdiff, toInt_of_lt hsmall]
  | x64 =>
      have hdiff : (length + 2 ^ 64 - 36) % 2 ^ 64 = length - 36 := by omega
      rw [nbAcpiTables_x64, hdiff, toInt_of_lt hsmall]

theorem nbAcpiTables_neg_of_short {length : Nat} (hshort : length < headerSize) :
    nbAcpiTables Arch.x64 length < 0 := by
  unfold headerSize at hshort
  rw [nbAcpiTables_x64]
  apply toInt_neg
  omega

theorem nbAcpiTables_pos_of_short {length : Nat} (hshort : length < headerSize) :
    0 < nbAcpiTables Arch.ia32 length := by
  unfold headerSize at hshort
  have hsmall : (length + 2 ^ 32 - 36) % 2 ^ 32 / 4 < 2 ^ 31 := by omega
  rw [nbAcpiTables_ia32, toInt_of_lt hsmall]
  omega

theorem lt_nbAcpiTables_iff {arch : Arch} {length : Nat} (hlength : length < 2 ^ 32)
    (hheader : arch = Arch.x64 ∨ headerSize ≤ length) (i : Nat) :
    i < (nbAcpiTables arch length).toNat <-> headerSize + 4 * (i + 1) ≤ length := by
  by_cases hlong : headerSize ≤ length
  · rw [nbAcpiTables_of_header hlength hlong]
    omega
  · have hshort : length < headerSize := Nat.lt_of_not_le hlong
    have hneg := nbAcpiTables_neg_of_short hshort
    rw [hheader.resolve_right hlong]
    omega

/-!
# The lookup
-/

def AcpiEnv.InTable (env : AcpiEnv) (rsdt i : Nat) : Prop :=
  headerSize + 4 * (i + 1) ≤ env.length rsdt

/-- Only entries of the RSDT are read, and the first one with the signature is returned. -/
structure LooksUp (arch : Arch) (env : AcpiEnv) (rsdt : Nat) (signature : List UInt8) :
    Prop where
  reads : forall i, i ∈ (getAcpiTable arch env signature).reads -> env.InTable rsdt i
  found : forall i, env.InTable rsdt i -> FirstWith env rsdt signature 0 i ->
    (getAcpiTable arch env signature).result = Except.ok (env.entry rsdt i)
  notFound : (getAcpiTable arch env signature).result = Except.error EfiStatus.notFound <->
    forall i, env.InTable rsdt i -> ¬ env.HasSignature (env.entry rsdt i) signature

theorem getAcpiTable_of_rsdt {env : AcpiEnv} {rsdt : Nat}
    (hrsdt : getRsdtTable env = Except.ok rsdt) (arch : Arch) (signature : List UInt8) :
    getAcpiTable arch env signature =
      findEntry env rsdt signature (nbAcpiTables arch (env.length rsdt)).toNat 0 := by
  unfold getAcpiTable
  rw [hrsdt]

theorem looksUp_of_count {arch : Arch} {env : AcpiEnv} {rsdt : Nat} {signature : List UInt8}
    (hrsdt : getRsdtTable env = Except.ok rsdt)
    (hcount : forall i, i < (nbAcpiTables arch (env.length rsdt)).toNat <->
      env.InTable rsdt i) :
    LooksUp arch env rsdt signature := by
  have hfinds := findEntry_finds env rsdt signature
    (nbAcpiTables arch (env.length rsdt)).toNat 0
  rw [← getAcpiTable_of_rsdt hrsdt] at hfinds
  have hentry : forall i, i < 0 + (nbAcpiTables arch (env.length rsdt)).toNat <->
      env.InTable rsdt i := by
    intro i
    rw [Nat.zero_add]
    exact hcount i
  rcases hfinds.outcome with ⟨i, hend, hfirst, hresult⟩ | ⟨hnone, hresult⟩
  · refine ⟨fun j hj => (hentry j).mp (hfinds.reads j hj).2, ?_, ?_⟩
    · intro j _ hj
      -- There is only one first entry.
      rcases Nat.lt_trichotomy i j with hlt | rfl | hgt
      · exact absurd hfirst.has (hj.first i (Nat.zero_le i) hlt)
      · exact hresult
      · exact absurd hj.has (hfirst.first j (Nat.zero_le j) hgt)
    · constructor
      · intro hmissing
        rw [hresult] at hmissing
        cases hmissing
      · intro hnone
        exact absurd hfirst.has (hnone i ((hentry i).mp hend))
  · refine ⟨fun j hj => (hentry j).mp (hfinds.reads j hj).2, ?_, ?_⟩
    · intro j hin hj
      exact absurd hj.has (hnone j (Nat.zero_le j) ((hentry j).mpr hin))
    · refine ⟨fun _ j hin => hnone j (Nat.zero_le j) ((hentry j).mpr hin), fun _ => hresult⟩

theorem zero_mem_reads {env : AcpiEnv} {rsdt left : Nat} (signature : List UInt8)
    (hleft : 0 < left) : 0 ∈ (findEntry env rsdt signature left 0).reads := by
  cases left with
  | zero => exact absurd hleft (Nat.lt_irrefl 0)
  | succ left =>
      rw [findEntry]
      dsimp only
      split
      · exact List.mem_singleton_self 0
      · exact List.mem_cons_self ..

/--
The lookup is right on a 64-bit machine, and on a 32-bit one if the RSDT is not
shorter than its header.
-/
theorem getAcpiTable_looksUp_iff {env : AcpiEnv} {rsdt : Nat}
    (hrsdt : getRsdtTable env = Except.ok rsdt) (arch : Arch) (signature : AcpiSignature) :
    LooksUp arch env rsdt signature.chars <->
      arch = Arch.x64 ∨ headerSize ≤ env.length rsdt := by
  constructor
  · intro h
    by_contra hshort
    rcases not_or.mp hshort with ⟨harch, hlength⟩
    have hia32 : arch = Arch.ia32 := by
      cases arch with
      | ia32 => rfl
      | x64 => exact absurd rfl harch
    have hread : 0 ∈ (getAcpiTable arch env signature.chars).reads := by
      rw [getAcpiTable_of_rsdt hrsdt, hia32]
      apply zero_mem_reads
      have hpos := nbAcpiTables_pos_of_short (Nat.lt_of_not_le hlength)
      omega
    have hin : headerSize + 4 * (0 + 1) ≤ env.length rsdt := h.reads 0 hread
    omega
  · intro hheader
    exact looksUp_of_count hrsdt (lt_nbAcpiTables_iff (le32_lt _ _) hheader)

/-- The RSDP at 0x100 points to an RSDT at 0x200 of the given length; its entry to 0x300. -/
def smallAcpi (length : Nat) : AcpiEnv where
  mem := fun x =>
    if x < 0x108 then rsdpSig.getD (x - 0x100) 0
    else if x = 0x111 then 2
    else if x < 0x200 then 0
    else if x < 0x204 then rsdtSig.getD (x - 0x200) 0
    else if x = 0x204 then UInt8.ofNat length
    else if x = 0x225 then 3
    else if x < 0x300 then 0
    else AcpiSignature.rsci.chars.getD (x - 0x300) 0
  acpi20 := Except.ok 0x100

theorem getAcpiTable_looksUp_iff_of_small :
    getRsdtTable (smallAcpi 40) = Except.ok 0x200 ∧
      (LooksUp Arch.ia32 (smallAcpi 40) 0x200 AcpiSignature.rsci.chars <->
        Arch.ia32 = Arch.x64 ∨ headerSize ≤ (smallAcpi 40).length 0x200) := by
  have hrsdt : getRsdtTable (smallAcpi 40) = Except.ok 0x200 := by rfl
  exact ⟨hrsdt, getAcpiTable_looksUp_iff hrsdt Arch.ia32 AcpiSignature.rsci⟩

/-- The RSDT says that it is 8 bytes long, and an entry behind it is returned. -/
theorem getAcpiTable_reads_outside :
    getRsdtTable (smallAcpi 8) = Except.ok 0x200 ∧
      (getAcpiTable Arch.ia32 (smallAcpi 8) AcpiSignature.rsci.chars).result =
        Except.ok 0x300 ∧
      ¬ LooksUp Arch.ia32 (smallAcpi 8) 0x200 AcpiSignature.rsci.chars := by
  have hrsdt : getRsdtTable (smallAcpi 8) = Except.ok 0x200 := rfl
  have hlength : (smallAcpi 8).length 0x200 = 8 := by decide
  have hlookup := getAcpiTable_of_rsdt hrsdt Arch.ia32 AcpiSignature.rsci.chars
  rw [hlength, show (nbAcpiTables Arch.ia32 8).toNat = 2 ^ 30 - 8 + 1 by decide +kernel,
    findEntry] at hlookup
  have hfound : strncmpa ((smallAcpi 8).from ((smallAcpi 8).entry 0x200 0))
      AcpiSignature.rsci.chars AcpiSignature.rsci.chars.length = 0 := by
    decide +kernel
  dsimp only at hlookup
  rw [if_pos hfound] at hlookup
  refine ⟨hrsdt, ?_, ?_⟩
  · rw [hlookup]
    exact congrArg Except.ok (by decide)
  · intro h
    have hread : 0 ∈ (getAcpiTable Arch.ia32 (smallAcpi 8) AcpiSignature.rsci.chars).reads := by
      rw [hlookup]
      exact List.mem_singleton_self 0
    have hin : headerSize + 4 * (0 + 1) ≤ (smallAcpi 8).length 0x200 := h.reads 0 hread
    rw [hlength] at hin
    exact absurd hin (by decide)

end Efilinux
end BootableUefi
