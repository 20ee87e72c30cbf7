import BootableUefi.Fastboot.Commands

/-!
# What every handler may do

The handlers queue responses, change the state, move the cursor of the variable
list and stop the device; three of them also touch the downloaded data.  A
relation that contains these changes and composes contains what the handlers do.
-/

namespace BootableUefi
namespace Fastboot

open Firmware Foundation BootImage

/-- The relation contains the changes that every handler may make. -/
structure HandlerRule (R : Machine -> Machine -> Prop) : Prop where
  refl : forall m, R m m
  trans : forall s t u, R s t -> R t u -> R s u
  queued : forall m responses, R m (m.withQueued responses)
  state : forall m state, state ≠ FastbootStates.error -> R m (m.setState state)
  cursor : forall (m : Machine) cursor, R m { m with cursor := cursor }
  stops : forall m : Machine, R m { m with running := false }

/-- It contains the changes of the downloaded data as well. -/
structure DataRule (R : Machine -> Machine -> Prop) : Prop extends HandlerRule R where
  data : forall (m : Machine) addr size heap,
    R m { m with addr := addr, downloadSize := size, heap := heap }
  entered : forall m consumer d, R m (m.note (FastbootEvent.entered consumer d))
  command : forall m data, R m (m.note (FastbootEvent.command data))

namespace HandlerRule

variable {R : Machine -> Machine -> Prop} (rule : HandlerRule R)

include rule

theorem fastbootFail (answer : AckAnswer) (reason : Reason) (m : Machine) :
    R m (fastbootFail answer reason m) := by
  rw [fastbootFail_eq]
  exact rule.trans _ _ _ (rule.queued m _) (rule.state _ _ (by decide))

theorem fastbootOkay (answer : AckAnswer) (reason : Reason) (m : Machine) :
    R m (fastbootOkay answer reason m) := by
  rw [fastbootOkay_eq]
  exact rule.trans _ _ _ (rule.queued m _) (rule.state _ _ (by decide))

theorem reportStatus (a : Answers) (called m : Machine) :
    R called (reportStatus a called m) ∨ R m (reportStatus a called m) := by
  unfold Fastboot.reportStatus
  split
  · apply Or.inl
    split
    · exact rule.fastbootFail _ _ called
    · exact rule.fastbootOkay _ _ called
  · exact Or.inr (rule.fastbootFail _ _ m)

theorem cmdErase (a : Answers) (m : Machine) : R m (cmdErase a m) :=
  or_self_iff.mp (rule.reportStatus a m m)

theorem workerGetvarAll (a : Answers) (start : List FastbootVar) (m : Machine) :
    R m (workerGetvarAll a start m) := by
  unfold Fastboot.workerGetvarAll
  split
  · exact rule.trans _ _ _ (rule.cursor m []) (rule.fastbootOkay _ _ _)
  · unfold fastbootInfo
    rw [fastbootAck_eq]
    exact rule.trans _ _ _ (rule.cursor m _) (rule.queued _ _)

theorem cmdGetvar (arg : List UInt8) (a : Answers) (m : Machine) :
    R m (cmdGetvar arg a m) := by
  unfold Fastboot.cmdGetvar
  split
  · exact rule.trans _ _ _ (rule.state m _ (by decide)) (rule.workerGetvarAll a _ _)
  · split
    · exact rule.fastbootOkay _ _ m
    · exact rule.fastbootOkay _ _ m

theorem cmdReboot (a : Answers) (m : Machine) : R m (cmdReboot a m) := by
  unfold Fastboot.cmdReboot
  split
  · exact rule.stops m
  · exact rule.refl m

theorem unknownReason (a : Answers) (m : Machine) : R m (unknownReason a m) := by
  unfold Fastboot.unknownReason
  split
  · exact rule.fastbootFail _ _ m
  · exact rule.refl m

end HandlerRule

namespace DataRule

variable {R : Machine -> Machine -> Prop} (rule : DataRule R)

include rule

theorem cmdFlash (a : Answers) (m : Machine) : R m (cmdFlash a m) := by
  rcases rule.reportStatus a (m.note _) m with hentered | hrefused
  · exact rule.trans _ _ _ (rule.entered m _ _) hentered
  · exact hrefused

theorem cmdBoot (a : Answers) (m : Machine) : R m (cmdBoot a m) := by
  unfold Fastboot.cmdBoot
  dsimp only
  generalize hleft : (if a.boot.leaves = true then _ else _ : Machine) = left
  have hreached : R m left := by
    rw [← hleft]
    split
    · exact rule.trans _ _ _ (rule.entered m _ _) (rule.fastbootOkay _ _ _)
    · exact rule.entered m _ _
  split
  · have hfreed := rule.data left left.addr left.downloadSize
      (if a.boot.frees = true then left.heap.free left.addr else left.heap)
    exact rule.trans _ _ _ hreached (rule.trans _ _ _ hfreed (rule.fastbootFail _ _ _))
  · exact rule.trans _ _ _ hreached (rule.stops left)

theorem finishDownload (a : Answers) (data : List UInt8) (m : Machine) :
    R m (finishDownload a data m) := by
  unfold Fastboot.finishDownload
  split
  · exact rule.fastbootOkay _ _ m
  · dsimp only
    exact rule.trans _ _ _ (rule.fastbootFail _ _ m) (rule.data _ _ 0 _)

end DataRule

/-!
# Downloads
-/

/-- The machine once a download of the size has been announced to the host. -/
def Machine.announced (size : Nat) (a : Answers) (m : Machine) : Machine :=
  Machine.withQueued (a.early.written (Response.data size)) { m with downloadSize := size }

def Machine.withBlock (size : Nat) (m : Machine) : Machine :=
  { m with addr := some m.heap.next, heap := m.heap.alloc size }

/-- `cmd_download` refuses the size, or has no block, or cannot read, or reads the data. -/
theorem cmdDownload_cases (arg : List UInt8) (a : Answers) (m : Machine) :
    (maxDownloadSize < strtoul arg 16 ∧
      cmdDownload arg a m = fastbootFail a.last Reason.dataTooLarge
        { m with downloadSize := strtoul arg 16 }) ∨
    (strtoul arg 16 ≤ maxDownloadSize ∧ a.downloadPool = false ∧
      cmdDownload arg a m = fastbootFail a.last Reason.memoryAllocationFailure
        { m.announced (strtoul arg 16) a with addr := none }) ∨
    (strtoul arg 16 ≤ maxDownloadSize ∧ a.downloadPool = true ∧ efiError a.epRxData = true ∧
      cmdDownload arg a m = fastbootFail a.last Reason.usbReceiveFailed
        ((m.announced (strtoul arg 16) a).withBlock (strtoul arg 16))) ∨
    (strtoul arg 16 ≤ maxDownloadSize ∧ a.downloadPool = true ∧ efiError a.epRxData = false ∧
      cmdDownload arg a m =
        (usbRead a.epRxData (RxBuffer.downloadBuffer (some m.heap.next)) (strtoul arg 16)
          ((m.announced (strtoul arg 16) a).withBlock (strtoul arg 16))).2.setState
            FastbootStates.download) := by
  unfold cmdDownload
  dsimp only
  by_cases hlarge : maxDownloadSize < strtoul arg 16
  · rw [if_pos hlarge]
    exact Or.inl ⟨hlarge, rfl⟩
  · rcases usbWrite_eq a.early (Response.data (strtoul arg 16))
      { m with downloadSize := strtoul arg 16 } with ⟨hresult, hqueued⟩
    rw [if_neg hlarge, if_neg (by omega), hqueued]
    right
    cases hpool : a.downloadPool with
    | false => exact Or.inl ⟨by omega, rfl, rfl⟩
    | true =>
        right
        cases hrefused : efiError a.epRxData with
        | true => exact Or.inl ⟨by omega, rfl, rfl, by simp [usbRead, hrefused]; rfl⟩
        | false => exact Or.inr ⟨by omega, rfl, rfl, by simp [usbRead, hrefused]; rfl⟩

end Fastboot
end BootableUefi
