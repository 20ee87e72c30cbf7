import BootableUefi.Foundation.Pool
import BootableUefi.Warmdump.Regions

/-!
# Reading a file into a pool block

`uefi_read_file` with the pool blocks it allocates and frees, and with its loop
around `Read`, for any answers of the firmware.
-/

namespace BootableUefi
namespace Warmdump

open Firmware Foundation

structure ReadEnv where
  arch : Arch
  file : List UInt8
  /-- `FileSize` is a `UINT64`. -/
  file_lt : file.length < 2 ^ 64
  openVolume : EfiStatus
  openFile : EfiStatus
  infoPool : Bool
  getInfo : EfiStatus
  dataPool : Nat -> Bool
  /-- What the given `Read` returns, and the size it asks for with `EFI_BUFFER_TOO_SMALL`. -/
  read : Nat -> EfiStatus
  needed : Nat -> Nat

structure ReadState where
  pool : Pool
  data : Option Nat
  size : Nat
  contents : Nat -> List UInt8

/-- Before the call: the caller's `*data` is no block of this call. -/
def ReadState.start (size : Nat) : ReadState where
  pool := Pool.empty
  data := none
  size := size
  contents := fun _ => []

def ReadState.freeData (s : ReadState) : ReadState :=
  { s with pool := s.pool.free s.data }

def ReadState.freeInfo (info : Option Nat) (s : ReadState) : ReadState :=
  { s with pool := s.pool.free info }

/-- `*data = AllocatePool(*size)`. -/
def ReadState.allocateData (found : Bool) (s : ReadState) : ReadState :=
  let allocated := s.pool.allocate found s.size
  { s with data := allocated.1, pool := allocated.2 }

def ReadState.receive (file : List UInt8) (s : ReadState) : ReadState :=
  let bytes := file.take s.size
  { s with
    size := bytes.length
    contents := match s.data with
      | none => s.contents
      | some block => Function.update s.contents block bytes }

/-- The loop at the label `retry`, from the given call of `Read` on. -/
def readLoop (env : ReadEnv) : Nat -> Nat -> ReadState -> Option (EfiStatus × ReadState)
  | 0, _, _ => none
  | fuel + 1, n, s =>
      let ret := env.read n
      if ret = EfiStatus.bufferTooSmall then
        let s := { s with size := env.arch.uintn (env.needed n) }
        readLoop env fuel (n + 1) (s.freeData.allocateData (env.dataPool (n + 1)))
      else if efiError ret then
        some (ret, s.freeData)
      else
        some (ret, s.receive env.file)

def infoSize : Nat :=
  80 + 200

/-- `uefi_read_file`; `none` while `Read` has asked for a larger buffer every time. -/
def readFile (env : ReadEnv) (fuel : Nat) (s : ReadState) : Option (EfiStatus × ReadState) :=
  if efiError env.openVolume then
    some (env.openVolume, s)
  else if efiError env.openFile then
    some (env.openFile, s)
  else
    let info := s.pool.allocate env.infoPool infoSize
    let s := { s with pool := info.2 }
    if info.1.isNone then
      some (env.openFile, s)
    else if efiError env.getInfo then
      some (env.getInfo, s.freeInfo info.1)
    else
      let s := { s with size := env.arch.uintn env.file.length }
      (readLoop env fuel 0 (s.allocateData (env.dataPool 0))).map fun (ret, s) =>
        (ret, s.freeInfo info.1)

/-!
# What a caller can rely on
-/

/-- `*data` is a live block, and begins with the `*size` bytes of the file. -/
structure HasFile (file : List UInt8) (s : ReadState) : Prop where
  size : s.size = file.length
  data : exists block, s.data = some block ∧ s.pool.Live block ∧
    file.length ≤ s.pool.size block ∧ s.contents block = file

/-- The status tells whether the file has been read, or nothing is left of the call. -/
def StatusSuffices (env : ReadEnv) : Prop :=
  forall fuel size ret s, readFile env fuel (ReadState.start size) = some (ret, s) ->
    (efiError ret = false -> HasFile env.file s) ∧ (efiError ret = true -> s.pool.AllFreedOnce)

def ReadEnv.requested (env : ReadEnv) : Nat -> Nat
  | 0 => env.arch.uintn env.file.length
  | n + 1 => env.arch.uintn (env.needed n)

def ReadEnv.Comes (env : ReadEnv) (n : Nat) : Prop :=
  forall k, k < n -> env.read k = EfiStatus.bufferTooSmall

structure ReadEnv.Opens (env : ReadEnv) : Prop where
  volume : env.openVolume = EfiStatus.success
  file : env.openFile = EfiStatus.success

/-- The allocations before a `Read` that succeeds do so too, and it gets all of the file. -/
structure ReadEnv.Provides (env : ReadEnv) : Prop where
  info : env.Opens -> env.infoPool = true
  data : env.Opens -> env.infoPool = true -> env.getInfo = EfiStatus.success ->
    forall n, env.Comes n -> env.read n = EfiStatus.success ->
      env.dataPool n = true ∧ env.file.length ≤ env.requested n

/-!
# The loop
-/

/-- The state in which the given call of `Read` is made; block 0 is the file information. -/
structure AtRead (env : ReadEnv) (n : Nat) (s : ReadState) : Prop where
  size : s.size = env.requested n
  missing : env.dataPool n = false -> s.data = none ∧ s.pool.Holds [0]
  present : env.dataPool n = true -> exists block, s.data = some block ∧ block ≠ 0 ∧
    s.pool.Holds [block, 0] ∧ s.pool.size block = env.requested n

theorem atRead_allocate {env : ReadEnv} {n : Nat} {s : ReadState}
    (hsize : s.size = env.requested n) (hholds : s.pool.Holds [0]) :
    AtRead env n (s.allocateData (env.dataPool n)) where
  size := hsize
  missing := by
    intro hnone
    rw [hnone]
    exact ⟨rfl, hholds⟩
  present := by
    intro hsome
    rw [hsome]
    have hpos : 0 < s.pool.next := hholds.allocated 0 (List.mem_singleton_self 0)
    refine ⟨s.pool.next, rfl, by omega, hholds.allocate s.size, ?_⟩
    rw [← hsize]
    exact Pool.size_allocate s.size s.pool

theorem AtRead.holds_freeData {env : ReadEnv} {n : Nat} {s : ReadState} (h : AtRead env n s) :
    s.freeData.pool.Holds [0] := by
  cases hpool : env.dataPool n with
  | false =>
      rcases h.missing hpool with ⟨hdata, hholds⟩
      unfold ReadState.freeData
      rw [hdata]
      exact hholds
  | true =>
      rcases h.present hpool with ⟨block, hdata, hne, hholds, -⟩
      unfold ReadState.freeData
      rw [hdata]
      exact hholds.free (by simpa using hne)

theorem AtRead.next {env : ReadEnv} {n : Nat} {s : ReadState} (h : AtRead env n s) :
    AtRead env (n + 1)
      (({ s with size := env.arch.uintn (env.needed n) } : ReadState).freeData.allocateData
        (env.dataPool (n + 1))) :=
  atRead_allocate rfl h.holds_freeData

/-- How the loop ends: with the status of a call of `Read` that it comes to. -/
structure LoopEnds (env : ReadEnv) (ret : EfiStatus) (t : ReadState) (n : Nat) (s : ReadState) :
    Prop where
  comes : env.Comes n
  at_read : AtRead env n s
  ret_eq : ret = env.read n
  state : t = if efiError ret then s.freeData else s.receive env.file

theorem comes_zero (env : ReadEnv) : env.Comes 0 :=
  fun k hk => absurd hk (Nat.not_lt_zero k)

theorem readLoop_ends {env : ReadEnv} {fuel n : Nat} {s t : ReadState} {ret : EfiStatus}
    (hcomes : env.Comes n) (hat : AtRead env n s)
    (h : readLoop env fuel n s = some (ret, t)) :
    exists m u, LoopEnds env ret t m u := by
  induction fuel generalizing n s with
  | zero => cases h
  | succ fuel ih =>
      rw [readLoop] at h
      dsimp only at h
      by_cases hsmall : env.read n = EfiStatus.bufferTooSmall
      · rw [if_pos hsmall] at h
        refine ih ?_ hat.next h
        intro k hk
        rcases Nat.lt_or_eq_of_le (Nat.le_of_lt_succ hk) with hlt | rfl
        · exact hcomes k hlt
        · exact hsmall
      · rw [if_neg hsmall] at h
        split at h
        · rename_i herror
          cases h
          exact ⟨n, s, hcomes, hat, rfl, (if_pos herror).symm⟩
        · rename_i herror
          cases h
          exact ⟨n, s, hcomes, hat, rfl, (if_neg herror).symm⟩

theorem readLoop_comes {env : ReadEnv} {n : Nat} (hcomes : env.Comes n) {s : ReadState}
    (hat : AtRead env 0 s) (fuel : Nat) :
    exists t, AtRead env n t ∧ readLoop env (fuel + n) 0 s = readLoop env fuel n t := by
  induction n generalizing fuel with
  | zero => exact ⟨s, hat, rfl⟩
  | succ n ih =>
      rcases ih (fun k hk => hcomes k (Nat.lt_succ_of_lt hk)) (fuel + 1) with ⟨t, ht, hrun⟩
      have hsmall : env.read n = EfiStatus.bufferTooSmall := hcomes n (Nat.lt_succ_self n)
      refine ⟨_, ht.next, ?_⟩
      rw [show fuel + (n + 1) = fuel + 1 + n by omega, hrun, readLoop, if_pos hsmall]

/-!
# From the status to the outcome
-/

theorem ReadEnv.Opens.of_efiError {env : ReadEnv} (hvolume : efiError env.openVolume = false)
    (hfile : efiError env.openFile = false) : env.Opens :=
  ⟨efiError_eq_false_iff.mp hvolume, efiError_eq_false_iff.mp hfile⟩

theorem readFile_opens {env : ReadEnv} (hopens : env.Opens) (fuel size : Nat) :
    readFile env fuel (ReadState.start size) =
      if env.infoPool then
        let s := { ReadState.start size with
          pool := (Pool.allocate true infoSize Pool.empty).2 }
        if efiError env.getInfo then
          some (env.getInfo, s.freeInfo (some 0))
        else
          let s := { s with size := env.arch.uintn env.file.length }
          (readLoop env fuel 0 (s.allocateData (env.dataPool 0))).map fun (ret, s) =>
            (ret, s.freeInfo (some 0))
      else
        some (EfiStatus.success, ReadState.start size) := by
  have hno : efiError EfiStatus.success = false := rfl
  unfold readFile
  rw [hopens.volume, hopens.file, hno]
  cases env.infoPool with
  | false => rfl
  | true => rfl

theorem holds_info : (Pool.allocate true infoSize Pool.empty).2.Holds [0] :=
  Pool.holds_empty.allocate infoSize

theorem atRead_first (env : ReadEnv) (size : Nat) :
    AtRead env 0
      (({ ReadState.start size with
          pool := (Pool.allocate true infoSize Pool.empty).2
          size := env.arch.uintn env.file.length } : ReadState).allocateData (env.dataPool 0)) :=
  atRead_allocate rfl holds_info

theorem LoopEnds.allFreedOnce {env : ReadEnv} {ret : EfiStatus} {n : Nat} {s t : ReadState}
    (h : LoopEnds env ret t n s) (hret : efiError ret = true) :
    (t.freeInfo (some 0)).pool.AllFreedOnce := by
  rw [h.state, if_pos hret]
  exact (h.at_read.holds_freeData.free List.not_mem_nil).allFreedOnce

theorem AtRead.hasFile {env : ReadEnv} {n : Nat} {s : ReadState} (h : AtRead env n s)
    (hpool : env.dataPool n = true) (hroom : env.file.length ≤ env.requested n) :
    HasFile env.file ((s.receive env.file).freeInfo (some 0)) := by
  rcases h.present hpool with ⟨block, hdata, hne, hholds, hblock⟩
  have hall : env.file.take s.size = env.file := by
    rw [h.size]
    exact List.take_of_length_le hroom
  have hholds' : (s.pool.free (some 0)).Holds [block] :=
    hholds.swap.free (by simpa using hne.symm)
  refine ⟨congrArg List.length hall, block, hdata, ?_, ?_, ?_⟩
  · exact hholds'.live (List.mem_singleton_self block)
  · change env.file.length ≤ s.pool.size block
    rw [hblock]
    exact hroom
  · change (match s.data with
      | none => s.contents
      | some block => Function.update s.contents block (env.file.take s.size)) block = env.file
    rw [hdata, hall]
    exact Function.update_self ..

theorem AtRead.of_hasFile {env : ReadEnv} {n : Nat} {s : ReadState} (h : AtRead env n s)
    (hfile : HasFile env.file ((s.receive env.file).freeInfo (some 0))) :
    env.dataPool n = true ∧ env.file.length ≤ env.requested n := by
  constructor
  · cases hpool : env.dataPool n with
    | true => rfl
    | false =>
        rcases hfile.data with ⟨block, hdata, -⟩
        have hnone : s.data = none := (h.missing hpool).1
        have hsome : s.data = some block := hdata
        rw [hnone] at hsome
        cases hsome
  · have hlength : (env.file.take s.size).length = env.file.length := hfile.size
    rw [List.length_take, h.size] at hlength
    omega

theorem readFile_not_opens {env : ReadEnv} (hopens : ¬ env.Opens) (fuel size : Nat) :
    exists ret, efiError ret = true ∧
      readFile env fuel (ReadState.start size) = some (ret, ReadState.start size) := by
  unfold readFile
  cases hvolume : efiError env.openVolume with
  | true => exact ⟨env.openVolume, hvolume, if_pos rfl⟩
  | false =>
      cases hfile : efiError env.openFile with
      | true => exact ⟨env.openFile, hfile, by rw [if_neg Bool.false_ne_true, if_pos rfl]⟩
      | false => exact absurd (ReadEnv.Opens.of_efiError hvolume hfile) hopens

/-- How the function ends: at one of its exits, with the pool as it is there. -/
inductive ReadEnds (env : ReadEnv) (size : Nat) (ret : EfiStatus) (t : ReadState) : Prop where
  | notOpened (hret : efiError ret = true) (ht : t = ReadState.start size)
  /-- Without the file information the status is still that of `Open`. -/
  | noInfo (hopens : env.Opens) (hinfo : env.infoPool = false) (hret : efiError ret = false)
      (ht : t = ReadState.start size)
  | noSize (hret : efiError ret = true) (ht : t.pool.AllFreedOnce)
  | fromLoop {n : Nat} {u v : ReadState} (hopens : env.Opens) (hinfo : env.infoPool = true)
      (hget : env.getInfo = EfiStatus.success) (hends : LoopEnds env ret u n v)
      (ht : t = u.freeInfo (some 0))

theorem readFile_ends {env : ReadEnv} {fuel size : Nat} {ret : EfiStatus} {t : ReadState}
    (hrun : readFile env fuel (ReadState.start size) = some (ret, t)) :
    ReadEnds env size ret t := by
  by_cases hopens : env.Opens
  · rw [readFile_opens hopens] at hrun
    cases hinfo : env.infoPool with
    | false =>
        rw [hinfo, if_neg Bool.false_ne_true] at hrun
        cases hrun
        exact ReadEnds.noInfo hopens hinfo rfl rfl
    | true =>
        rw [hinfo, if_pos rfl] at hrun
        dsimp only at hrun
        cases hget : efiError env.getInfo with
        | true =>
            rw [hget, if_pos rfl] at hrun
            cases hrun
            exact ReadEnds.noSize hget (holds_info.free List.not_mem_nil).allFreedOnce
        | false =>
            rw [hget, if_neg Bool.false_ne_true, Option.map_eq_some_iff] at hrun
            rcases hrun with ⟨⟨ret', u⟩, hloop, heq⟩
            cases heq
            rcases readLoop_ends (comes_zero env) (atRead_first env size) hloop with
              ⟨n, v, hends⟩
            exact ReadEnds.fromLoop hopens hinfo (efiError_eq_false_iff.mp hget) hends rfl
  · rcases readFile_not_opens hopens fuel size with ⟨ret', herror, hsame⟩
    rw [hsame] at hrun
    cases hrun
    exact ReadEnds.notOpened herror rfl

theorem readFile_allFreedOnce {env : ReadEnv} {fuel size : Nat} {ret : EfiStatus}
    {t : ReadState} (hrun : readFile env fuel (ReadState.start size) = some (ret, t))
    (hret : efiError ret = true) : t.pool.AllFreedOnce := by
  cases readFile_ends hrun with
  | notOpened _ ht =>
      rw [ht]
      exact Pool.holds_empty.allFreedOnce
  | noInfo _ _ _ ht =>
      rw [ht]
      exact Pool.holds_empty.allFreedOnce
  | noSize _ ht => exact ht
  | fromLoop _ _ _ hends ht =>
      rw [ht]
      exact hends.allFreedOnce hret

theorem readFile_hasFile {env : ReadEnv} (hprovides : env.Provides) {fuel size : Nat}
    {ret : EfiStatus} {t : ReadState}
    (hrun : readFile env fuel (ReadState.start size) = some (ret, t))
    (hret : efiError ret = false) : HasFile env.file t := by
  cases readFile_ends hrun with
  | notOpened herror _ =>
      rw [hret] at herror
      cases herror
  | noInfo hopens hinfo _ _ =>
      rw [hprovides.info hopens] at hinfo
      cases hinfo
  | noSize herror _ =>
      rw [hret] at herror
      cases herror
  | @fromLoop n u v hopens hinfo hget hends ht =>
      have hread : env.read n = EfiStatus.success := by
        rw [← hends.ret_eq]
        exact efiError_eq_false_iff.mp hret
      rcases hprovides.data hopens hinfo hget n hends.comes hread with ⟨hpool, hroom⟩
      have hstate : u = v.receive env.file := by
        rw [hends.state, if_neg (by rw [hret]; exact Bool.false_ne_true)]
      rw [ht, hstate]
      exact hends.at_read.hasFile hpool hroom

theorem readFile_reads {env : ReadEnv} (hopens : env.Opens) (hinfo : env.infoPool = true)
    (hget : env.getInfo = EfiStatus.success) {n : Nat} (hcomes : env.Comes n)
    (hread : env.read n = EfiStatus.success) :
    exists s, AtRead env n s ∧ readFile env (1 + n) (ReadState.start 0)
      = some (EfiStatus.success, (s.receive env.file).freeInfo (some 0)) := by
  have hno : efiError env.getInfo = false := efiError_eq_false_iff.mpr hget
  rcases readLoop_comes hcomes (atRead_first env 0) 1 with ⟨s, hat, hloop⟩
  have hlast : readLoop env 1 n s = some (EfiStatus.success, s.receive env.file) := by
    rw [readLoop, hread]
    rfl
  refine ⟨s, hat, ?_⟩
  rw [readFile_opens hopens, if_pos hinfo]
  dsimp only
  rw [hno, if_neg Bool.false_ne_true]
  rw [hlast] at hloop
  exact congrArg _ hloop

/-- The status suffices exactly if every pool a file is read into is there. -/
theorem readFile_statusSuffices_iff (env : ReadEnv) : StatusSuffices env <-> env.Provides := by
  constructor
  · intro hsuffices
    constructor
    · intro hopens
      cases hinfo : env.infoPool with
      | true => rfl
      | false =>
          have hrun : readFile env 0 (ReadState.start 0)
              = some (EfiStatus.success, ReadState.start 0) := by
            rw [readFile_opens hopens, hinfo]
            rfl
          rcases ((hsuffices _ _ _ _ hrun).1 rfl).data with ⟨block, hdata, -⟩
          cases hdata
    · intro hopens hinfo hget n hcomes hread
      rcases readFile_reads hopens hinfo hget hcomes hread with ⟨s, hat, hrun⟩
      exact hat.of_hasFile ((hsuffices _ _ _ _ hrun).1 rfl)
  · intro hprovides fuel size ret t hrun
    exact ⟨readFile_hasFile hprovides hrun, readFile_allFreedOnce hrun⟩

/-- A file of three bytes, with no pool left for the file information. -/
def lowPool : ReadEnv where
  arch := Arch.ia32
  file := [1, 2, 3]
  file_lt := by decide
  openVolume := EfiStatus.success
  openFile := EfiStatus.success
  infoPool := false
  getInfo := EfiStatus.success
  dataPool := fun _ => false
  read := fun _ => EfiStatus.success
  needed := fun _ => 3

theorem readFile_lowPool_succeeds :
    readFile lowPool 1 (ReadState.start 0) = some (EfiStatus.success, ReadState.start 0) ∧
      ¬ HasFile lowPool.file (ReadState.start 0) ∧ ¬ StatusSuffices lowPool := by
  have hrun : readFile lowPool 1 (ReadState.start 0)
      = some (EfiStatus.success, ReadState.start 0) := rfl
  have hnone : ¬ HasFile lowPool.file (ReadState.start 0) := by
    intro h
    rcases h.data with ⟨block, hdata, -⟩
    cases hdata
  exact ⟨hrun, hnone, fun h => hnone ((h _ _ _ _ hrun).1 rfl)⟩

/-!
# The function as the callers see it
-/

def ReadEnv.answers (env : ReadEnv) (stray : List UInt8) : ReadAnswers where
  openVolume := env.openVolume
  stray := stray
  openFile := env.openFile
  infoPool := env.infoPool
  getInfo := env.getInfo
  read := env.read 0
  dataPool := env.dataPool 0

theorem readFile_status_eq {env : ReadEnv} (hread : env.read 0 ≠ EfiStatus.bufferTooSmall)
    (fuel : Nat) (s : ReadState) (stray : List UInt8) :
    (readFile env (fuel + 1) s).map Prod.fst
      = some (uefiReadFile (env.answers stray) (some env.file)).status := by
  unfold readFile uefiReadFile ReadEnv.answers
  dsimp only
  cases hvolume : efiError env.openVolume with
  | true => rfl
  | false =>
      cases hfile : efiError env.openFile with
      | true => rfl
      | false =>
          cases hinfo : env.infoPool with
          | false => exact congrArg some (efiError_eq_false_iff.mp hfile)
          | true =>
              cases hget : efiError env.getInfo with
              | true => rfl
              | false =>
                  unfold readLoop
                  dsimp only [Pool.allocate]
                  cases hdone : efiError (env.read 0) with
                  | true => simp [hread]
                  | false =>
                      have hsuccess := efiError_eq_false_iff.mp hdone
                      cases hdata : env.dataPool 0 with
                      | false => simp [hsuccess]
                      | true => simp [hsuccess]

end Warmdump
end BootableUefi
