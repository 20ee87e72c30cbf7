import BootableUefi.Fastboot.HandlerRules

/-!
# The downloaded data

`fastboot_process_rx` keeps the address and the size of the downloaded data in
two statics.  They belong together as long as no download is refused after its
size is stored, no download is cut short, and no `boot` of downloaded data
returns.
-/

namespace BootableUefi
namespace Fastboot

open Firmware Foundation BootImage

/-- No data is held, or all of it lies in one live block. -/
def Download.Consistent (d : Download) : Prop :=
  (d.addr = none ∧ d.size = 0) ∨ exists n, d.block = some n ∧ d.size ≤ n

def BootAnswer.Returns (answer : BootAnswer) : Prop :=
  exists step status, answer.start.1 = LoadEnd.failed step status

instance (answer : BootAnswer) : Decidable answer.Returns :=
  match h : answer.start.1 with
  | LoadEnd.failed step status => isTrue ⟨step, status, h⟩
  | LoadEnd.jumped _ _ => isFalse fun ⟨_, _, hfailed⟩ => by cases h.symm.trans hfailed
  | LoadEnd.divideError => isFalse fun ⟨_, _, hfailed⟩ => by cases h.symm.trans hfailed

/-- The commands that leave the downloaded data as it should be. -/
def CommandKeepsDownload (m : Machine) (a : Answers) : Command × List UInt8 -> Prop
  | (Command.download, arg) =>
      strtoul arg 16 ≤ maxDownloadSize ∧ (a.downloadPool = true ∨ strtoul arg 16 = 0)
  | (Command.boot, _) => m.addr = none ∨ ¬ a.boot.Returns
  | _ => True

instance (m : Machine) (a : Answers) : forall found, Decidable (CommandKeepsDownload m a found)
  | (Command.erase, _) => isTrue trivial
  | (Command.boot, _) => inferInstanceAs (Decidable (_ ∨ _))
  | (Command.download, _) => inferInstanceAs (Decidable (_ ∧ _))
  | (Command.getvar, _) => isTrue trivial
  | (Command.flash, _) => isTrue trivial
  | (Command.reboot, _) => isTrue trivial

def KeepsDownload (m : Machine) : UsbEvent -> Prop
  | UsbEvent.received a data =>
      (m.fastbootState = FastbootStates.download -> data.length = m.downloadSize) ∧
        (m.fastbootState = FastbootStates.complete ->
          forall found, lookup data = some found -> CommandKeepsDownload m a found)
  | _ => True

instance (m : Machine) : forall event, Decidable (KeepsDownload m event)
  | UsbEvent.configured _ => isTrue trivial
  | UsbEvent.received _ _ => inferInstanceAs (Decidable (_ ∧ _))
  | UsbEvent.sent _ => isTrue trivial

/-- Consistent now, and whenever a handler was given the data. -/
structure DownloadsConsistent (m : Machine) : Prop where
  now : m.download.Consistent
  entered : forall consumer d, FastbootEvent.entered consumer d ∈ m.trace -> d.Consistent

/-- The statics and the heap are the same, and no handler was given the data. -/
structure SameDownload (s t : Machine) : Prop where
  download : t.download = s.download
  entered : forall consumer d, FastbootEvent.entered consumer d ∈ t.trace ->
    FastbootEvent.entered consumer d ∈ s.trace

section SameDownload

variable {s t u m : Machine}

theorem SameDownload.of_eq (hdownload : t.download = s.download) (htrace : t.trace = s.trace) :
    SameDownload s t where
  download := hdownload
  entered := by
    intro consumer d h
    rwa [htrace] at h

theorem SameDownload.refl (s : Machine) : SameDownload s s :=
  SameDownload.of_eq rfl rfl

theorem SameDownload.trans (hst : SameDownload s t) (htu : SameDownload t u) :
    SameDownload s u where
  download := htu.download.trans hst.download
  entered := fun consumer d h => hst.entered consumer d (htu.entered consumer d h)

theorem DownloadsConsistent.of_same (h : DownloadsConsistent s) (hsame : SameDownload s t) :
    DownloadsConsistent t where
  now := by
    rw [hsame.download]
    exact h.now
  entered := fun consumer d hd => h.entered consumer d (hsame.entered consumer d hd)

theorem sameDownload_rule : HandlerRule SameDownload where
  refl := SameDownload.refl
  trans := fun _ _ _ => SameDownload.trans
  queued := by
    intro m responses
    refine ⟨rfl, ?_⟩
    intro consumer d hd
    simpa [Machine.withQueued] using hd
  state := fun _ _ _ => SameDownload.of_eq rfl rfl
  cursor := fun _ _ => SameDownload.of_eq rfl rfl
  stops := fun _ => SameDownload.of_eq rfl rfl

theorem sameDownload_usbRead (epRxData : EfiStatus) (buffer : RxBuffer) (len : Nat)
    (m : Machine) : SameDownload m (usbRead epRxData buffer len m).2 := by
  unfold usbRead
  split
  · exact SameDownload.refl m
  · refine ⟨rfl, ?_⟩
    intro consumer d hd
    simpa [Machine.note] using hd

end SameDownload

section Steps

variable {m : Machine}

theorem DownloadsConsistent.enter (h : DownloadsConsistent m) (consumer : Consumer) :
    DownloadsConsistent (m.note (FastbootEvent.entered consumer m.download)) where
  now := h.now
  entered := by
    intro consumer' d hd
    simp only [Machine.note, List.mem_append, List.mem_singleton,
      FastbootEvent.entered.injEq] at hd
    rcases hd with hd | ⟨-, rfl⟩
    · exact h.entered consumer' d hd
    · exact h.now

theorem cmdBoot_downloads (h : DownloadsConsistent m) (a : Answers)
    (hkeeps : m.addr = none ∨ ¬ a.boot.Returns) : DownloadsConsistent (cmdBoot a m) := by
  unfold cmdBoot
  dsimp only
  generalize hentered : m.note (FastbootEvent.entered Consumer.boot m.download) = entered
  have hconsistent : DownloadsConsistent entered := by
    rw [← hentered]
    exact h.enter Consumer.boot
  generalize hleft : (if a.boot.leaves = true then fastbootOkay a.early Reason.empty entered
    else entered) = left
  have hsame : SameDownload entered left := by
    rw [← hleft]
    split
    · exact sameDownload_rule.fastbootOkay _ _ entered
    · exact SameDownload.refl entered
  split
  · rename_i step status hend
    have haddr : left.addr = none := by
      rcases hkeeps with hnone | hnot
      · have heq : left.addr = entered.addr := congrArg Download.addr hsame.download
        rw [heq, ← hentered]
        exact hnone
      · exact absurd ⟨step, status, hend⟩ hnot
    -- There is nothing to free at NULL.
    have hfreed : SameDownload left
        { left with
          heap := if a.boot.frees = true then left.heap.free left.addr else left.heap } := by
      refine SameDownload.of_eq ?_ rfl
      simp [Machine.download, haddr]
    exact (hconsistent.of_same (hsame.trans hfreed)).of_same (sameDownload_rule.fastbootFail _ _ _)
  · exact hconsistent.of_same (hsame.trans (SameDownload.of_eq rfl rfl))

theorem DownloadsConsistent.entered_announced (h : DownloadsConsistent m) {size : Nat}
    {a : Answers} {consumer : Consumer} {d : Download}
    (hd : FastbootEvent.entered consumer d ∈ (m.announced size a).trace) : d.Consistent := by
  have hqueued := sameDownload_rule.queued { m with downloadSize := size }
    (a.early.written (Response.data size))
  exact h.entered consumer d (hqueued.entered consumer d hd)

theorem DownloadsConsistent.withBlock (h : DownloadsConsistent m) (size : Nat) (a : Answers) :
    DownloadsConsistent ((m.announced size a).withBlock size) where
  now := Or.inr ⟨size, BlockHeap.sizeAt_alloc_next _ _, Nat.le_refl size⟩
  entered := fun _ _ hd => h.entered_announced hd

theorem cmdDownload_downloads (h : DownloadsConsistent m) (arg : List UInt8) (a : Answers)
    (hsize : strtoul arg 16 ≤ maxDownloadSize)
    (hpool : a.downloadPool = true ∨ strtoul arg 16 = 0) :
    DownloadsConsistent (cmdDownload arg a m) := by
  rcases cmdDownload_cases arg a m with ⟨hlarge, -⟩ | ⟨-, hnone, heq⟩ | ⟨-, -, -, heq⟩ |
    ⟨-, -, -, heq⟩
  · exact absurd hsize (Nat.not_le_of_lt hlarge)
  · have hzero : strtoul arg 16 = 0 := by
      rw [hnone] at hpool
      exact hpool.resolve_left (by decide)
    have hnothing : DownloadsConsistent { m.announced (strtoul arg 16) a with addr := none } :=
      ⟨Or.inl ⟨rfl, hzero⟩, fun _ _ hd => h.entered_announced hd⟩
    rw [heq]
    exact hnothing.of_same (sameDownload_rule.fastbootFail _ _ _)
  · rw [heq]
    exact (h.withBlock _ a).of_same (sameDownload_rule.fastbootFail _ _ _)
  · rw [heq]
    have hread := (h.withBlock (strtoul arg 16) a).of_same (sameDownload_usbRead a.epRxData
      (RxBuffer.downloadBuffer (some m.heap.next)) (strtoul arg 16) _)
    exact hread.of_same (sameDownload_rule.state _ _ (by decide))

theorem handle_downloads (h : DownloadsConsistent m) (cmd : Command) (arg : List UInt8)
    (a : Answers) (hkeeps : CommandKeepsDownload m a (cmd, arg)) :
    DownloadsConsistent (cmd.handle arg a m) := by
  cases cmd with
  | erase => exact h.of_same (sameDownload_rule.cmdErase a m)
  | boot => exact cmdBoot_downloads h a hkeeps
  | download => exact cmdDownload_downloads h arg a hkeeps.1 hkeeps.2
  | getvar => exact h.of_same (sameDownload_rule.cmdGetvar arg a m)
  | flash =>
      rcases sameDownload_rule.reportStatus a (m.note _) m with hentered | hrefused
      · exact (h.enter Consumer.flash).of_same hentered
      · exact h.of_same hrefused
  | reboot => exact h.of_same (sameDownload_rule.cmdReboot a m)

theorem runCommand_downloads (h : DownloadsConsistent m) (a : Answers) (data : List UInt8)
    (hkeeps : forall found, lookup data = some found -> CommandKeepsDownload m a found) :
    DownloadsConsistent (runCommand a data m) := by
  unfold runCommand
  split
  · rename_i cmd arg hfound
    have hhandled := handle_downloads h cmd arg a (hkeeps _ hfound)
    exact hhandled.of_same (sameDownload_rule.unknownReason a _)
  · exact h.of_same (sameDownload_rule.fastbootFail _ _ m)

theorem fastbootProcessRx_downloads (h : DownloadsConsistent m) (a : Answers)
    (data : List UInt8) (hkeeps : KeepsDownload m (UsbEvent.received a data)) :
    DownloadsConsistent (fastbootProcessRx a data m) := by
  unfold fastbootProcessRx
  split
  · rename_i hstate
    have hlength : data.length = (m.setState FastbootStates.command).downloadSize :=
      hkeeps.1 hstate
    unfold finishDownload
    rw [if_pos hlength]
    have hstate := sameDownload_rule.state m FastbootStates.command (by decide)
    exact (h.of_same hstate).of_same (sameDownload_rule.fastbootOkay _ _ _)
  · rename_i hstate
    have hnoted : SameDownload m
        ((m.note (FastbootEvent.command data)).setState FastbootStates.command) := by
      refine ⟨rfl, ?_⟩
      intro consumer d hd
      simpa [Machine.note, Machine.setState] using hd
    apply runCommand_downloads (h.of_same hnoted)
    intro found hfound
    have hcmd := hkeeps.2 hstate found hfound
    rcases found with ⟨cmd, arg⟩
    cases cmd <;> exact hcmd
  · exact h

theorem fastbootProcessTx_downloads (h : DownloadsConsistent m) (a : Answers) :
    DownloadsConsistent (fastbootProcessTx a m) := by
  unfold fastbootProcessTx
  split
  · exact h.of_same (sameDownload_rule.workerGetvarAll a [] m)
  · exact h.of_same (sameDownload_usbRead _ _ _ m)
  · exact h

theorem step_downloads {t : Machine} {event : UsbEvent} (h : DownloadsConsistent m)
    (hkeeps : KeepsDownload m event) (hstep : step m event = some t) :
    DownloadsConsistent t := by
  rcases step_cases hstep with ⟨a, rfl, rfl⟩ | ⟨a, data, request, rest, rfl, -, -, rfl⟩ |
    ⟨a, response, rest, rfl, -, rfl⟩
  · have hstate := sameDownload_rule.state m FastbootStates.complete (by decide)
    exact (h.of_same hstate).of_same (sameDownload_usbRead _ _ _ _)
  · have hdequeued : DownloadsConsistent { m with rxQueue := rest } :=
      h.of_same (SameDownload.of_eq rfl rfl)
    exact fastbootProcessRx_downloads hdequeued a data hkeeps
  · have hdequeued : DownloadsConsistent { m with txQueue := rest } :=
      h.of_same (SameDownload.of_eq rfl rfl)
    exact fastbootProcessTx_downloads hdequeued a

end Steps

/-!
# Whole runs
-/

def downloadThenFlash : List UsbEvent :=
  [UsbEvent.configured Answers.plain,
    UsbEvent.received Answers.plain (ascii "download:4"), UsbEvent.sent Answers.plain,
    UsbEvent.received Answers.plain [1, 2, 3, 4], UsbEvent.sent Answers.plain,
    UsbEvent.received Answers.plain (ascii "flash:boot")]

end Fastboot
end BootableUefi
