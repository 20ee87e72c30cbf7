import BootableUefi.BootLogic.ColdReset
import BootableUefi.Foundation.Traces
import BootableUefi.Warmdump.RoundTrip

/-!
# The boot logic and the warm dump together

`boot_watchdog` starts the warm dump before it looks at `WDColdReset`, and the
warm dump looks at it as well.  The boot that a watchdog resets saves the
regions and asks for the cold reset; the boot after that finds the flag, gives
the regions back, and clears it.
-/

namespace BootableUefi
namespace Warmdump

open Firmware Foundation BootLogic
open BootImage (bytesAt)

/-- The state in which `boot_watchdog` calls `call_warmdump`, with its argument. -/
def warmdumpCall (cfg : Config) (inputs : BootInputs) (vars : EfiVariables) :
    Option (ResetSource × BootState) :=
  if inputs.isBatteryOk = true ∧ inputs.wakeSource = WakeSource.notApplicable then
    let (source, s) := getResetSource cfg inputs (selectionState cfg inputs vars)
    let s := s.emit (BootEvent.classified source)
    let (pending, s) := coldResetPending cfg inputs s
    let s := if pending then { s with rsciResetSource := source } else s
    if isWatchdogReset source then some (source, s) else none
  else
    none

/-- What the warm dump finds once the boot logic has come to call it; it can read the flag. -/
def Boot.sees (boot : Boot) (s : BootState) : Boot :=
  { boot with
    resetSource := s.rsciResetSource
    wdColdReset := s.vars.wdColdReset.getD (-1) }

/-- What one boot of the device finds, with what the warm dump finds if it is started. -/
structure LoaderBoot where
  inputs : BootInputs
  starts : Bool
  /-- The reset source and the flag are those the boot logic has left. -/
  dump : Boot

/-- What a boot has done to a region: the bytes saved, and the restores made. -/
structure RegionFact where
  saved : Option (Nat × List UInt8)
  restored : List Restore

structure DumpFact where
  lm : RegionFact
  pstore : RegionFact

structure Loader where
  device : Device
  esp : Esp
  trace : List DumpFact

namespace Loader

def fresh (vars : EfiVariables) : Loader where
  device := Device.fresh vars
  esp := Esp.start none none
  trace := []

variable (cfg : Config) (l : Loader) (b : LoaderBoot)

def warmdump : Option Boot :=
  if b.starts then
    (warmdumpCall cfg b.inputs (osWrites b.inputs l.device.vars)).map fun call =>
      b.dump.sees call.2
  else
    none

def espAfter : Esp :=
  match l.warmdump cfg b with
  | none => l.esp
  | some boot => efiMain boot l.esp

def restoresSince (before after : SavedRegion) : List Restore :=
  after.restores.take (after.restores.length - before.restores.length)

def lmSaved : Option (Nat × List UInt8) :=
  (l.warmdump cfg b).bind fun boot =>
    if boot.ready && needBackup boot && boot.lmSaves then
      some ((lmGetBackupData boot).1,
        bytesAt boot.ram (lmGetBackupData boot).1 (lmGetBackupData boot).2)
    else
      none

def pstoreSaved : Option (Nat × List UInt8) :=
  (l.warmdump cfg b).bind fun boot =>
    if boot.ready && needBackup boot && boot.pstoreSaves then
      (pstoreGetBuffer boot).map fun (addr, size) => (addr, bytesAt boot.ram addr size)
    else
      none

def fact : DumpFact where
  lm :=
    { saved := l.lmSaved cfg b
      restored := restoresSince l.esp.lm (l.espAfter cfg b).lm }
  pstore :=
    { saved := l.pstoreSaved cfg b
      restored := restoresSince l.esp.pstore (l.espAfter cfg b).pstore }

def step : Option Loader :=
  (l.device.step cfg b.inputs).map fun device =>
    { device := device
      esp := l.espAfter cfg b
      trace := l.trace ++ [l.fact cfg b] }

end Loader

/-!
# Saved once, given back once
-/

def lastSaved (region : DumpFact -> RegionFact) (past : List DumpFact) :
    Option (Nat × List UInt8) :=
  past.getLast?.bind fun fact => (region fact).saved

/-- The region has its bytes back, and nothing else has changed. -/
def Restore.Returns (r : Restore) (saved : Nat × List UInt8) : Prop :=
  r.addr = saved.1 ∧ bytesAt r.after saved.1 saved.2.length = saved.2 ∧
    forall x, x < saved.1 ∨ saved.1 + saved.2.length ≤ x -> r.after x = r.before x

/--
What the boot before has saved is given back, by one restore, and not saved
over; and where it has saved nothing, nothing is restored.
-/
def RegionFact.Follows (fact : RegionFact) : Option (Nat × List UInt8) -> Prop
  | none => fact.restored = []
  | some saved => fact.saved = none ∧ exists r, fact.restored = [r] ∧ r.Returns saved

def GivesBackOnce (past : List DumpFact) (fact : DumpFact) : Prop :=
  fact.lm.Follows (lastSaved DumpFact.lm past) ∧
    fact.pstore.Follows (lastSaved DumpFact.pstore past)

/-!
# What a boot has to find
-/

structure FileAnswers.Work (answers : FileAnswers) : Prop where
  write : answers.write.opens = true ∧ answers.write.write = EfiStatus.success
  exist : efiError answers.exist.openVolume = false ∧ efiError answers.exist.openFile = false
  opens : answers.read.opens = true
  pools : answers.read.infoPool = true ∧ answers.read.dataPool = true
  read : efiError answers.read.getInfo = false ∧ efiError answers.read.read = false
  delete : efiError answers.delete.openVolume = false ∧
    efiError answers.delete.openFile = false ∧ answers.delete.deleted = true

/-- The regions are still where the boot before has saved them. -/
structure Boot.SameRegions (boot : Boot) (past : List DumpFact) : Prop where
  lm : forall saved, lastSaved DumpFact.lm past = some saved ->
    lmGetBackupData boot = (saved.1, saved.2.length)
  pstore : forall saved, lastSaved DumpFact.pstore past = some saved ->
    pstoreGetBuffer boot = some (saved.1, saved.2.length)

/--
No access fails; the warm dump is installed and starts, its partition can be used
and its pools are granted; and the boot after a forced cold reset is a plain reset
with a good battery, with its regions where they were.
-/
structure Loader.Admits (l : Loader) (b : LoaderBoot) : Prop where
  accesses : b.inputs.AccessesSucceed
  starts : b.starts = true
  ready : b.dump.ready = true
  lmFile : b.dump.lmFile.Work
  pstoreFile : b.dump.pstoreFile.Work
  resumes : ResumesAsReset l.device b.inputs
  regions : b.dump.SameRegions l.trace

/-!
# One region
-/

section Region

variable {answers : FileAnswers} {s : SavedRegion}

theorem overwrite_nil (data : List UInt8) : overwrite [] data = data := by
  simp [overwrite]

theorem dataWriteToFile_file (h : answers.Work) (ram : Mem) (addr size : Nat)
    (hfile : s.file = none) :
    (dataWriteToFile answers.write ram addr size s).2.file = some (bytesAt ram addr size) := by
  have hcompletes : answers.write.Completes := fun _ => h.write.2
  simp only [dataWriteToFile, uefiWriteFile_of_opens hcompletes h.write.1, hfile,
    Option.getD_none, overwrite_nil]

theorem uefiExistFileRoot_of_work (h : answers.Work) (file : Option (List UInt8)) :
    uefiExistFileRoot answers.exist file = file.isSome := by
  simp [uefiExistFileRoot, h.exist.1, h.exist.2]

theorem uefiReadFile_of_work (h : answers.Work) (contents : List UInt8) :
    uefiReadFile answers.read (some contents) = ⟨EfiStatus.success, contents, []⟩ := by
  have hopens := h.opens
  simp only [ReadAnswers.opens, Bool.and_eq_true, Bool.not_eq_true'] at hopens
  simp [uefiReadFile, hopens.1, hopens.2, h.pools.1, h.pools.2, h.read.1, h.read.2]

def restoreOf (s : SavedRegion) (answers : ReadAnswers) (ram : Mem) (addr size : Nat)
    (contents : List UInt8) : Restore where
  addr := addr
  size := size
  backup := s.backup
  answers := answers
  before := ram
  status := EfiStatus.success
  writes := [storeAt addr contents]

theorem injectAndDelete_of_work (h : answers.Work) (ram : Mem) (addr size : Nat)
    {contents : List UInt8} (hfile : s.file = some contents) :
    (injectAndDelete answers ram addr size s).2 =
      { s with
        file := none
        restores := restoreOf s answers.read ram addr size contents :: s.restores } := by
  have hsuccess : efiError EfiStatus.success = false := rfl
  unfold injectAndDelete injectFileRam
  rw [hfile, uefiReadFile_of_work h]
  simp [hsuccess, uefiDeleteFile, h.delete.1, h.delete.2.1, h.delete.2.2, restoreOf]

theorem restoreOf_returns (s : SavedRegion) (answers : ReadAnswers) (ram : Mem)
    (saved : Nat × List UInt8) (size : Nat) :
    (restoreOf s answers ram saved.1 size saved.2).Returns saved := by
  refine ⟨rfl, ?_, ?_⟩
  · exact bytesAt_storeAt ram saved.1 saved.2
  · intro x hx
    exact apply_storeAt_outside ram hx

theorem restoresSince_same (s t : SavedRegion) (h : t.restores = s.restores) :
    Loader.restoresSince s t = [] := by
  simp [Loader.restoresSince, h]

theorem restoresSince_cons {t : SavedRegion} {r : Restore} (h : t.restores = r :: s.restores) :
    Loader.restoresSince s t = [r] := by
  simp [Loader.restoresSince, h]

end Region

section Regions

variable {boot : Boot} {s : SavedRegion} {last : Option (Nat × List UInt8)}

theorem lmRestore_follows (h : boot.lmFile.Work) (hfile : s.file = last.map Prod.snd)
    (hregion : forall saved, last = some saved ->
      lmGetBackupData boot = (saved.1, saved.2.length)) (ram : Mem) :
    (lmRestore boot ram s).2.file = none ∧
      RegionFact.Follows
        { saved := none
          restored := Loader.restoresSince s (lmRestore boot ram s).2 } last := by
  unfold lmRestore
  rw [uefiExistFileRoot_of_work h, hfile]
  cases last with
  | none => exact ⟨hfile, restoresSince_same s s rfl⟩
  | some saved =>
      have hcontents : s.file = some saved.2 := hfile
      have hinject := injectAndDelete_of_work h ram saved.1 saved.2.length hcontents
      rw [hregion saved rfl]
      simp only [Option.map_some, Option.isSome_some, if_true]
      rw [hinject]
      exact ⟨rfl, rfl, _, restoresSince_cons rfl, restoreOf_returns s _ ram saved _⟩

theorem pstoreRestore_follows (h : boot.pstoreFile.Work) (hfile : s.file = last.map Prod.snd)
    (hregion : forall saved, last = some saved ->
      pstoreGetBuffer boot = some (saved.1, saved.2.length)) (ram : Mem) :
    (pstoreRestore boot ram s).2.file = none ∧
      RegionFact.Follows
        { saved := none
          restored := Loader.restoresSince s (pstoreRestore boot ram s).2 } last := by
  unfold pstoreRestore
  rw [uefiExistFileRoot_of_work h, hfile]
  cases last with
  | none => cases pstoreGetBuffer boot <;> exact ⟨hfile, restoresSince_same s s rfl⟩
  | some saved =>
      have hcontents : s.file = some saved.2 := hfile
      have hinject := injectAndDelete_of_work h ram saved.1 saved.2.length hcontents
      rw [hregion saved rfl]
      simp only [Option.map_some, Option.isSome_some, if_true]
      rw [hinject]
      exact ⟨rfl, rfl, _, restoresSince_cons rfl, restoreOf_returns s _ ram saved _⟩

theorem lmBackup_file (h : boot.lmFile.Work) (hfile : s.file = none) :
    (lmBackup boot s).restores = s.restores ∧
      (lmBackup boot s).file =
        if boot.lmSaves then
          some (bytesAt boot.ram (lmGetBackupData boot).1 (lmGetBackupData boot).2)
        else none := by
  unfold lmBackup Boot.lmSaves
  by_cases hmode : lmGetPdmDfxSetting boot = lmPdmMode
  · by_cases hbuffer : (lmGetBackupData boot).1 ≠ 0 ∧ (lmGetBackupData boot).2 ≠ 0
    · rw [if_pos hmode]
      dsimp only
      rw [if_pos hbuffer, if_pos (decide_eq_true ⟨hmode, hbuffer⟩)]
      exact ⟨rfl, dataWriteToFile_file h boot.ram _ _ hfile⟩
    · rw [if_pos hmode]
      dsimp only
      rw [if_neg hbuffer,
        if_neg fun hboth => hbuffer (of_decide_eq_true hboth).2]
      exact ⟨rfl, hfile⟩
  · rw [if_neg hmode, if_neg fun hboth => hmode (of_decide_eq_true hboth).1]
    exact ⟨rfl, hfile⟩

theorem pstoreBackup_file (h : boot.pstoreFile.Work) (hfile : s.file = none) :
    (pstoreBackup boot s).restores = s.restores ∧
      (pstoreBackup boot s).file =
        if boot.pstoreSaves then
          (pstoreGetBuffer boot).map fun (addr, size) => bytesAt boot.ram addr size
        else none := by
  unfold pstoreBackup Boot.pstoreSaves
  cases pstoreGetBuffer boot with
  | none => exact ⟨rfl, hfile⟩
  | some region =>
      dsimp only
      split
      · exact ⟨rfl, dataWriteToFile_file h boot.ram _ _ hfile⟩
      · exact ⟨rfl, hfile⟩

theorem efiMain_of_ready (h : boot.ready = true) (esp : Esp) :
    efiMain boot esp =
      if needBackup boot then
        { lm := lmBackup boot esp.lm, pstore := pstoreBackup boot esp.pstore }
      else
        { lm := (lmRestore boot boot.ram esp.lm).2
          pstore := (pstoreRestore boot (lmRestore boot boot.ram esp.lm).1 esp.pstore).2 } := by
  unfold Boot.ready at h
  unfold efiMain
  cases hesp : efiError boot.espFs with
  | true => simp [hesp] at h
  | false =>
      cases hdirectory : (!boot.backupDirExists && efiError boot.createDirectory) with
      | true =>
          simp only [Bool.and_eq_true, Bool.not_eq_true'] at hdirectory
          simp [hdirectory.1, hdirectory.2] at h
      | false => simp

end Regions

/-!
# One boot
-/

section Boots

variable {cfg : Config} {inputs : BootInputs} {vars : EfiVariables} {source : ResetSource}
variable {s : BootState}

theorem warmdumpCall_some (h : warmdumpCall cfg inputs vars = some (source, s)) :
    isWatchdogReset source = true ∧ s.vars.wdColdReset = vars.wdColdReset ∧
      targetFromInputs cfg inputs (selectionState cfg inputs vars) =
        targetFromReset cfg inputs source s := by
  unfold warmdumpCall at h
  split at h
  · rename_i hplain
    dsimp only at h
    split at h
    · rename_i hwatchdog
      rcases Prod.mk.inj (Option.some.inj h) with ⟨hsource, hs⟩
      rw [hsource] at hwatchdog
      have hgets : Quiet coldResetFlag (selectionState cfg inputs vars)
          (getResetSource cfg inputs (selectionState cfg inputs vars)).2 :=
        quiet_getResetSource (fun _ => rfl) cfg inputs _
      have hselected : Quiet coldResetFlag (BootState.start inputs vars)
          (selectionState cfg inputs vars) :=
        quiet_selectionState (fun _ _ => rfl) cfg inputs vars
      have hpending := quiet_coldResetPending coldResetFlag cfg inputs
        ((getResetSource cfg inputs (selectionState cfg inputs vars)).2.emit
          (BootEvent.classified
            (getResetSource cfg inputs (selectionState cfg inputs vars)).1))
      have hkeeps := (hpending.wdColdReset.trans hgets.wdColdReset).trans hselected.wdColdReset
      have herror : source ≠ ResetSource.error := by
        intro heq
        rw [heq] at hwatchdog
        cases hwatchdog
      have hna : source ≠ ResetSource.notApplicable := by
        intro heq
        rw [heq] at hwatchdog
        cases hwatchdog
      refine ⟨hwatchdog, ?_, ?_⟩
      · rw [← hs]
        split
        · exact hkeeps
        · exact hkeeps
      · unfold targetFromInputs classifyReset
        rw [hplain.1, hplain.2]
        dsimp only
        rw [hsource, if_neg herror, if_pos hna, ← hs]
        simp [hsource]
    · cases h
  · cases h

theorem warmdumpCall_of_flag (h : inputs.AccessesSucceed) (hcold : cfg.doColdResetAfterWd = true)
    (hbattery : inputs.isBatteryOk = true) (hwake : inputs.wakeSource = WakeSource.notApplicable)
    (hsource : isWatchdogReset source = true) (hflag : vars.wdColdReset = some 1)
    (hsaved : vars.savedResetSource = some source) :
    exists t, warmdumpCall cfg inputs vars = some (source, t) := by
  have hstart : Quiet coldResetFlag (BootState.start inputs vars)
      (selectionState cfg inputs vars) :=
    quiet_selectionState (fun _ _ => rfl) cfg inputs vars
  have hkept : Quiet EfiVariables.savedResetSource (BootState.start inputs vars)
      (selectionState cfg inputs vars) :=
    quiet_selectionState (fun _ _ => rfl) cfg inputs vars
  have hget := getResetSource_of_flag (selectionState cfg inputs vars) h hcold
    (hstart.wdColdReset.trans hflag) (hkept.view.trans hsaved)
    (selectionState_resetSource cfg inputs vars).1
  unfold warmdumpCall
  rw [if_pos ⟨hbattery, hwake⟩]
  dsimp only
  rw [hget, if_pos hsource]
  exact ⟨_, rfl⟩

theorem flag_after_warmdumpCall (h : inputs.AccessesSucceed)
    (hcold : cfg.doColdResetAfterWd = true) (hflag : vars.wdColdReset ≠ some 1)
    (hcall : warmdumpCall cfg inputs vars = some (source, s)) :
    (startBootLogic cfg inputs vars).2.vars.wdColdReset = some 1 := by
  rcases warmdumpCall_some hcall with ⟨hwatchdog, hkept, htarget⟩
  have hclear : s.vars.wdColdReset ≠ some 1 := by
    rw [hkept]
    exact hflag
  have hforced := bootWatchdog_of_no_flag s h hcold hwatchdog hclear
  rw [targetFromReset_of_reset s hforced.1] at htarget
  have hnone : targetFromInputs cfg inputs (selectionState cfg inputs vars) =
      (none, (bootWatchdog cfg inputs source s).2) := by
    rw [htarget]
    exact Prod.ext hforced.1 rfl
  rw [startBootLogic_of_reset hnone]
  exact hforced.2.2.1

end Boots

/-!
# The invariant
-/

/-- The files are what the latest boot has saved, which is nothing if it left no flag. -/
structure Loader.Good (l : Loader) : Prop where
  flag : FlagFromLastBoot l.device
  resumed : ColdResetDiscipline l.device.history
  lm : l.esp.lm.file = (lastSaved DumpFact.lm l.trace).map Prod.snd
  pstore : l.esp.pstore.file = (lastSaved DumpFact.pstore l.trace).map Prod.snd
  clear : l.device.vars.wdColdReset ≠ some 1 ->
    lastSaved DumpFact.lm l.trace = none ∧ lastSaved DumpFact.pstore l.trace = none
  trace : Respects GivesBackOnce [] l.trace

theorem lastSaved_snoc (region : DumpFact -> RegionFact) (past : List DumpFact)
    (fact : DumpFact) : lastSaved region (past ++ [fact]) = (region fact).saved := by
  simp [lastSaved]

/-- What a boot does to the files and to the memory. -/
structure Loader.Dumps (cfg : Config) (l : Loader) (b : LoaderBoot) : Prop where
  lm : (l.espAfter cfg b).lm.file = (l.lmSaved cfg b).map Prod.snd
  pstore : (l.espAfter cfg b).pstore.file = (l.pstoreSaved cfg b).map Prod.snd
  follows : GivesBackOnce l.trace (l.fact cfg b)

section Steps

variable {cfg : Config} {l t : Loader} {b : LoaderBoot}

/-- The flag is found: the warm dump gives back what there is. -/
theorem Loader.Good.dumps_of_flag (h : l.Good) (hb : l.Admits b)
    (hcold : cfg.doColdResetAfterWd = true) (hflag : l.device.vars.wdColdReset = some 1) :
    l.Dumps cfg b ∧ l.lmSaved cfg b = none ∧ l.pstoreSaved cfg b = none := by
  rcases h.flag hflag with ⟨previous, rest, source, -, -, hfinal, hforced⟩
  rcases hb.resumes hflag with ⟨hbattery, hwake⟩
  have hfound : (osWrites b.inputs l.device.vars).wdColdReset = some 1 := by
    rw [osWrites_wdColdReset]
    exact hflag
  have hsaved : (osWrites b.inputs l.device.vars).savedResetSource = some source := by
    rw [osWrites_savedResetSource, ← hfinal]
    exact hforced.saved
  rcases warmdumpCall_of_flag hb.accesses hcold hbattery hwake hforced.watchdog hfound hsaved with
    ⟨s, hcall⟩
  have hset : s.vars.wdColdReset = some 1 := (warmdumpCall_some hcall).2.1.trans hfound
  have hdump : l.warmdump cfg b = some (b.dump.sees s) := by
    unfold Loader.warmdump
    rw [if_pos hb.starts, hcall, Option.map_some]
  have hneed : needBackup (b.dump.sees s) = false := by
    unfold needBackup Boot.sees
    rw [hset]
    rfl
  have hesp : l.espAfter cfg b =
      { lm := (lmRestore (b.dump.sees s) b.dump.ram l.esp.lm).2
        pstore := (pstoreRestore (b.dump.sees s)
          (lmRestore (b.dump.sees s) b.dump.ram l.esp.lm).1 l.esp.pstore).2 } := by
    have hready : (b.dump.sees s).ready = true := hb.ready
    unfold Loader.espAfter
    rw [hdump]
    dsimp only
    rw [efiMain_of_ready hready, hneed]
    rfl
  have hlm : l.lmSaved cfg b = none := by
    simp [Loader.lmSaved, hdump, hneed]
  have hpstore : l.pstoreSaved cfg b = none := by
    simp [Loader.pstoreSaved, hdump, hneed]
  have hlmWork : (b.dump.sees s).lmFile.Work := hb.lmFile
  have hpstoreWork : (b.dump.sees s).pstoreFile.Work := hb.pstoreFile
  have hlmFollows := lmRestore_follows hlmWork h.lm hb.regions.lm b.dump.ram
  have hpstoreFollows := pstoreRestore_follows hpstoreWork h.pstore hb.regions.pstore
    (lmRestore (b.dump.sees s) b.dump.ram l.esp.lm).1
  refine ⟨⟨?_, ?_, ?_⟩, hlm, hpstore⟩
  · rw [hesp, hlm]
    exact hlmFollows.1
  · rw [hesp, hpstore]
    exact hpstoreFollows.1
  · unfold GivesBackOnce Loader.fact
    rw [hesp, hlm, hpstore]
    exact ⟨hlmFollows.2, hpstoreFollows.2⟩

/-- The flag is not found, and the warm dump is not called either. -/
theorem Loader.Good.dumps_of_no_call (h : l.Good) (hdump : l.warmdump cfg b = none)
    (hflag : l.device.vars.wdColdReset ≠ some 1) :
    l.Dumps cfg b ∧ l.lmSaved cfg b = none ∧ l.pstoreSaved cfg b = none := by
  rcases h.clear hflag with ⟨hlm, hpstore⟩
  have hesp : l.espAfter cfg b = l.esp := by
    unfold Loader.espAfter
    rw [hdump]
  have hlmNone : l.lmSaved cfg b = none := by
    simp [Loader.lmSaved, hdump]
  have hpstoreNone : l.pstoreSaved cfg b = none := by
    simp [Loader.pstoreSaved, hdump]
  refine ⟨⟨?_, ?_, ?_⟩, hlmNone, hpstoreNone⟩
  · rw [hesp, hlmNone, h.lm, hlm]
  · rw [hesp, hpstoreNone, h.pstore, hpstore]
  · unfold GivesBackOnce Loader.fact
    rw [hesp, hlm, hpstore]
    exact ⟨restoresSince_same _ _ rfl, restoresSince_same _ _ rfl⟩

/-- Without the flag the warm dump finds no files, and may save. -/
theorem Loader.Good.dumps_of_call (h : l.Good) (hb : l.Admits b)
    (hflag : l.device.vars.wdColdReset ≠ some 1) {boot : Boot} {s : BootState}
    (hdump : l.warmdump cfg b = some (b.dump.sees s)) (hboot : boot = b.dump.sees s) :
    l.Dumps cfg b := by
  rcases h.clear hflag with ⟨hlm, hpstore⟩
  have hlmFile : l.esp.lm.file = none := by
    rw [h.lm, hlm]
    rfl
  have hpstoreFile : l.esp.pstore.file = none := by
    rw [h.pstore, hpstore]
    rfl
  have hready : boot.ready = true := by
    rw [hboot]
    exact hb.ready
  have hlmWork : boot.lmFile.Work := by
    rw [hboot]
    exact hb.lmFile
  have hpstoreWork : boot.pstoreFile.Work := by
    rw [hboot]
    exact hb.pstoreFile
  rw [← hboot] at hdump
  have hesp : l.espAfter cfg b = efiMain boot l.esp := by
    unfold Loader.espAfter
    rw [hdump]
  rw [efiMain_of_ready hready] at hesp
  cases hneed : needBackup boot with
  | true =>
      rw [hneed, if_pos rfl] at hesp
      have hlmBackup := lmBackup_file hlmWork hlmFile
      have hpstoreBackup := pstoreBackup_file hpstoreWork hpstoreFile
      refine ⟨?_, ?_, ?_⟩
      · rw [hesp]
        simp only [Loader.lmSaved, hdump, hready, hneed, Option.bind_some, Bool.true_and,
          hlmBackup.2]
        split <;> rfl
      · rw [hesp]
        simp only [Loader.pstoreSaved, hdump, hready, hneed, Option.bind_some, Bool.true_and,
          hpstoreBackup.2]
        split
        · rw [Option.map_map]
          rfl
        · rfl
      · unfold GivesBackOnce Loader.fact
        rw [hesp, hlm, hpstore]
        exact ⟨restoresSince_same _ _ hlmBackup.1, restoresSince_same _ _ hpstoreBackup.1⟩
  | false =>
      rw [hneed, if_neg Bool.false_ne_true] at hesp
      have hlmNone : l.esp.lm.file = (none : Option (Nat × List UInt8)).map Prod.snd := hlmFile
      have hpstoreNone : l.esp.pstore.file = (none : Option (Nat × List UInt8)).map Prod.snd :=
        hpstoreFile
      have hlmFollows := lmRestore_follows hlmWork hlmNone nofun boot.ram
      have hpstoreFollows := pstoreRestore_follows hpstoreWork hpstoreNone nofun
        (lmRestore boot boot.ram l.esp.lm).1
      refine ⟨?_, ?_, ?_⟩
      · rw [hesp]
        simp only [Loader.lmSaved, hdump, hneed, Option.bind_some]
        simpa using hlmFollows.1
      · rw [hesp]
        simp only [Loader.pstoreSaved, hdump, hneed, Option.bind_some]
        simpa using hpstoreFollows.1
      · unfold GivesBackOnce Loader.fact
        rw [hesp, hlm, hpstore]
        exact ⟨hlmFollows.2, hpstoreFollows.2⟩

theorem Loader.Good.step_clear (h : l.Good) (hb : l.Admits b)
    (hcold : cfg.doColdResetAfterWd = true) (hstep : l.step cfg b = some t)
    (hclear : t.device.vars.wdColdReset ≠ some 1) :
    l.Dumps cfg b ∧ l.lmSaved cfg b = none ∧ l.pstoreSaved cfg b = none := by
  by_cases hflag : l.device.vars.wdColdReset = some 1
  · exact h.dumps_of_flag hb hcold hflag
  · cases hcall : warmdumpCall cfg b.inputs (osWrites b.inputs l.device.vars) with
    | none =>
        have hdump : l.warmdump cfg b = none := by
          simp [Loader.warmdump, hcall]
        exact h.dumps_of_no_call hdump hflag
    | some call =>
        rcases call with ⟨source, s⟩
        rcases Option.map_eq_some_iff.mp hstep with ⟨device, hdevice, rfl⟩
        have hvars := (Device.step_eq_some hdevice).1
        have hstart : (osWrites b.inputs l.device.vars).wdColdReset ≠ some 1 := by
          rw [osWrites_wdColdReset]
          exact hflag
        have hset := flag_after_warmdumpCall hb.accesses hcold hstart hcall
        exact absurd (congrArg EfiVariables.wdColdReset hvars |>.trans hset) hclear

theorem Loader.Good.step_dumps (h : l.Good) (hb : l.Admits b)
    (hcold : cfg.doColdResetAfterWd = true) : l.Dumps cfg b := by
  by_cases hflag : l.device.vars.wdColdReset = some 1
  · exact (h.dumps_of_flag hb hcold hflag).1
  · cases hcall : warmdumpCall cfg b.inputs (osWrites b.inputs l.device.vars) with
    | none =>
        have hdump : l.warmdump cfg b = none := by
          simp [Loader.warmdump, hcall]
        exact (h.dumps_of_no_call hdump hflag).1
    | some call =>
        have hdump : l.warmdump cfg b = some (b.dump.sees call.2) := by
          simp [Loader.warmdump, hcall, hb.starts]
        exact h.dumps_of_call hb hflag hdump rfl

theorem Loader.step_good (h : l.Good) (hb : l.Admits b) (hcold : cfg.doColdResetAfterWd = true)
    (hstep : l.step cfg b = some t) : t.Good := by
  have hdumps := h.step_dumps hb hcold
  have hclear := h.step_clear hb hcold hstep
  rcases Option.map_eq_some_iff.mp hstep with ⟨device, hdevice, rfl⟩
  have hboot := coldReset_step hcold hb.accesses hb.resumes h.flag h.resumed hdevice
  refine ⟨hboot.1, hboot.2, ?_, ?_, ?_, ?_⟩
  · rw [lastSaved_snoc]
    exact hdumps.lm
  · rw [lastSaved_snoc]
    exact hdumps.pstore
  · intro hflag
    rw [lastSaved_snoc, lastSaved_snoc]
    exact (hclear hflag).2
  · exact respects_append.mpr ⟨h.trace, respects_singleton.mpr hdumps.follows⟩

end Steps

/--
From an empty partition, in every run of boots that are admitted, what a boot
saves is given back once, by the boot after it, before anything else is saved;
and nothing else is ever restored.
-/
theorem dumps_given_back_once {cfg : Config} (hcold : cfg.doColdResetAfterWd = true)
    {vars : EfiVariables} (hvars : vars.wdColdReset ≠ some 1) {boots : List LoaderBoot}
    (hadmits : AllSteps Loader.Admits (fun l b => l.step cfg b) (Loader.fresh vars) boots)
    {l : Loader} (hrun : runFrom (fun l b => l.step cfg b) (Loader.fresh vars) boots = some l) :
    Respects GivesBackOnce [] l.trace := by
  have hfresh : (Loader.fresh vars).Good := by
    refine ⟨?_, ?_, rfl, rfl, fun _ => ⟨rfl, rfl⟩, respects_nil⟩
    · intro hset
      exact absurd hset hvars
    · intro newer record older hsplit
      cases newer <;> cases hsplit
  have hend : l.Good :=
    invariant_of_allSteps (fun _ _ _ h hb hstep => Loader.step_good h hb hcold hstep)
      hfresh hadmits hrun
  exact hend.trace

/-- The kernel hangs with a log at 0x1000, and the memory is lost in the cold reset. -/
def hangThenReset : List LoaderBoot :=
  [{ inputs := plainReset ResetSource.kernelWatchdog
     starts := true
     dump := pstoreBoot ResetType.warmReset savedBytes },
    { inputs := plainReset ResetSource.osInitiated
      starts := true
      dump := pstoreBoot ResetType.coldReset (List.replicate 8 0) }]

theorem allSucceed_work : allSucceed.Work :=
  ⟨⟨rfl, rfl⟩, ⟨rfl, rfl⟩, rfl, ⟨rfl, rfl⟩, ⟨rfl, rfl⟩, ⟨rfl, rfl, rfl⟩⟩

theorem dumps_given_back_once_of_hang :
    exists l, runFrom (fun l b => Loader.step ⟨true, false⟩ l b)
        (Loader.fresh (lastEntryOnly "main")) hangThenReset = some l ∧
      l.trace.map (fun fact => (fact.pstore.saved, fact.pstore.restored.length)) =
        [(some (0x1000, savedBytes), 0), (none, 1)] ∧
      Respects GivesBackOnce [] l.trace := by
  have hadmits : AllSteps Loader.Admits (fun l b => Loader.step ⟨true, false⟩ l b)
      (Loader.fresh (lastEntryOnly "main")) hangThenReset := by
    refine ⟨⟨plainReset_accessesSucceed _, rfl, rfl, allSucceed_work, allSucceed_work,
      fun _ => ⟨rfl, rfl⟩, nofun, nofun⟩, ?_⟩
    intro t ht
    cases ht
    refine ⟨⟨plainReset_accessesSucceed _, rfl, rfl, allSucceed_work, allSucceed_work,
      fun _ => ⟨rfl, rfl⟩, ?_, ?_⟩, fun _ _ => trivial⟩
    · intro saved hsaved
      cases hsaved
    · intro saved hsaved
      cases hsaved
      decide
  exact ⟨_, rfl, by decide, dumps_given_back_once rfl (by decide) hadmits rfl⟩

end Warmdump
end BootableUefi
