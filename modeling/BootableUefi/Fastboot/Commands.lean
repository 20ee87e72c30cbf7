import BootableUefi.Fastboot.Usb
import BootableUefi.Foundation.Runs

/-!
# The fastboot commands

The command handlers of `fastboot.c` and the three callbacks the USB stack
calls.  The transfers on an endpoint complete in the order in which they were
queued; which endpoint is next is up to the host.
-/

namespace BootableUefi
namespace Fastboot

open Firmware Foundation BootImage

/-- The memory a `boot` command starts an image in. -/
structure BootAnswer where
  load : LoadEnv
  image : Mem
  used : Finset Nat

structure Answers where
  early : AckAnswer
  last : AckAnswer
  /-- `stra_to_str` finds memory for the label. -/
  labelPool : Bool
  /-- What `flash` or `erase_by_label` returns. -/
  status : EfiStatus
  downloadPool : Bool
  epRxData : EfiStatus
  boot : BootAnswer
  resets : Bool

def Answers.plain : Answers where
  early := { reasonBuilt := true, responseBuilt := true, epTxData := EfiStatus.success }
  last := { reasonBuilt := true, responseBuilt := true, epTxData := EfiStatus.success }
  labelPool := true
  status := EfiStatus.success
  downloadPool := true
  epRxData := EfiStatus.success
  boot := { load := smallEnv, image := fun _ => 0, used := ∅ }
  resets := true

inductive Command where
  | erase
  | boot
  | download
  | getvar
  | flash
  | reboot
  deriving DecidableEq, Repr

def Command.name : Command -> List UInt8
  | erase => ascii "erase:"
  | boot => ascii "boot"
  | download => ascii "download:"
  | getvar => ascii "getvar:"
  | flash => ascii "flash:"
  | reboot => ascii "reboot"

/-- `cmdlist`, the last command registered first. -/
def cmdlist : List Command :=
  [Command.erase, Command.boot, Command.download, Command.getvar, Command.flash, Command.reboot]

/-- The first command in the list whose name the data starts with, and the argument. -/
def lookup (data : List UInt8) : Option (Command × List UInt8) :=
  (cmdlist.find? fun cmd => cmd.name.isPrefixOf data).map fun cmd =>
    (cmd, cString (data.drop cmd.name.length))

/-- `to_digit`; `none` is -1. -/
def toDigit (c : UInt8) (base : Nat) : Option Nat :=
  let value :=
    if 0x30 ≤ c ∧ c ≤ 0x39 then some (c.toNat - 0x30)
    else if 0x61 ≤ c ∧ c ≤ 0x7a then some (10 + (c.toNat - 0x61))
    else if 0x41 ≤ c ∧ c ≤ 0x5a then some (10 + (c.toNat - 0x41))
    else none
  value.bind fun v => if v < base then some v else none

/-- The loop of `strtoul`: the bits of the `int` that is accumulated. -/
def strtoulLoop (base : Nat) : List UInt8 -> Nat -> Nat
  | [], value => value
  | c :: cs, value =>
      match toDigit c base with
      | none => value
      | some t => strtoulLoop base cs (u32 (value * base + t))

/-- The low 32 bits of `strtoul`. -/
def strtoul (nptr : List UInt8) (base : Nat) : Nat :=
  if (base = 0 ∨ base = 16) ∧ 2 < nptr.length ∧ nptr.take 2 = ascii "0x" then
    strtoulLoop 16 (nptr.drop 2) 0
  else
    strtoulLoop (if base = 0 then 10 else base) nptr 0

def maxDownloadSize : Nat :=
  500 * 1024 * 1024

/-!
# The handlers
-/

/-- `fastboot_read_command`; whether the request is queued is not looked at. -/
def fastbootReadCommand (a : Answers) (m : Machine) : Machine :=
  (usbRead a.epRxData RxBuffer.commandBuffer 64 m).2

/-- `cmd_flash` and `cmd_erase`: without a label the call is not made. -/
def reportStatus (a : Answers) (called m : Machine) : Machine :=
  if a.labelPool then
    if efiError a.status then fastbootFail a.last (Reason.flashFailure a.status) called
    else fastbootOkay a.last Reason.empty called
  else
    fastbootFail a.last Reason.allocationError m

def cmdFlash (a : Answers) (m : Machine) : Machine :=
  reportStatus a (m.note (FastbootEvent.entered Consumer.flash m.download)) m

def cmdErase (a : Answers) (m : Machine) : Machine :=
  reportStatus a m m

/-- The hooks of `cmd_boot`; `boot_ok` answers OKAY before the firmware is left. -/
def bootHooks : BootimgHooks where
  watchdog := true
  beforeExit := true
  beforeJump := false

def BootAnswer.start (answer : BootAnswer) : LoadEnd × LoadState :=
  startBuffer answer.load none (some bootHooks) (LoadState.enter answer.image answer.used)

def BootAnswer.leaves (answer : BootAnswer) : Bool :=
  LoadEvent.beforeExit ∈ answer.start.2.log

def BootAnswer.frees (answer : BootAnswer) : Bool :=
  LoadEvent.freePool PoolBlock.bootImage ∈ answer.start.2.log

def cmdBoot (a : Answers) (m : Machine) : Machine :=
  let entered := m.note (FastbootEvent.entered Consumer.boot m.download)
  let left := if a.boot.leaves then fastbootOkay a.early Reason.empty entered else entered
  match a.boot.start.1 with
  | LoadEnd.failed _ status =>
      let heap := if a.boot.frees then left.heap.free left.addr else left.heap
      fastbootFail a.last (Reason.bootFailure status) { left with heap := heap }
  | _ => { left with running := false }

/-- `worker_getvar_all`; without a start it goes on where it was. -/
def workerGetvarAll (a : Answers) (start : List FastbootVar) (m : Machine) : Machine :=
  match if start = [] then m.cursor else start with
  | [] => fastbootOkay a.last Reason.empty { m with cursor := [] }
  | var :: rest =>
      fastbootInfo a.last (Reason.variable var) { m with cursor := rest }

def fastbootGetvar (varlist : List FastbootVar) (name : List UInt8) : Option (List UInt8) :=
  (varlist.find? fun var => var.name = name).map fun var => var.value

def cmdGetvar (arg : List UInt8) (a : Answers) (m : Machine) : Machine :=
  if arg = ascii "all" then
    workerGetvarAll a m.varlist (m.setState FastbootStates.getvar)
  else
    match fastbootGetvar m.varlist arg with
    | some value => fastbootOkay a.last (Reason.value value) m
    | none => fastbootOkay a.last Reason.empty m

/-- `cmd_reboot`: it returns only if `ResetSystem` does. -/
def cmdReboot (a : Answers) (m : Machine) : Machine :=
  if a.resets then { m with running := false } else m

def cmdDownload (arg : List UInt8) (a : Answers) (m : Machine) : Machine :=
  let size := strtoul arg 16
  let m := { m with downloadSize := size }
  if maxDownloadSize < size then
    fastbootFail a.last Reason.dataTooLarge m
  else
    let result := usbWrite a.early (Response.data size) m
    if result.1 < 0 then
      result.2.setState FastbootStates.error
    else if a.downloadPool then
      let m := { result.2 with
        addr := some result.2.heap.next
        heap := result.2.heap.alloc size }
      let received := usbRead a.epRxData (RxBuffer.downloadBuffer m.addr) size m
      if received.1 then
        fastbootFail a.last Reason.usbReceiveFailed received.2
      else
        received.2.setState FastbootStates.download
    else
      fastbootFail a.last Reason.memoryAllocationFailure { result.2 with addr := none }

def Command.handle (arg : List UInt8) (a : Answers) (m : Machine) : Command -> Machine
  | erase => cmdErase a m
  | boot => cmdBoot a m
  | download => cmdDownload arg a m
  | getvar => cmdGetvar arg a m
  | flash => cmdFlash a m
  | reboot => cmdReboot a m

/-!
# The callbacks
-/

def fastbootProcessTx (a : Answers) (m : Machine) : Machine :=
  match m.fastbootState with
  | FastbootStates.getvar => workerGetvarAll a [] m
  | FastbootStates.complete => fastbootReadCommand a m
  | _ => m

/-- A command whose handler has left the state alone is answered with FAIL. -/
def unknownReason (a : Answers) (m : Machine) : Machine :=
  if m.fastbootState = FastbootStates.command ∧ m.running then
    fastbootFail a.last Reason.unknownReason m
  else
    m

def finishDownload (a : Answers) (data : List UInt8) (m : Machine) : Machine :=
  if data.length = m.downloadSize then
    fastbootOkay a.last Reason.empty m
  else
    let t := fastbootFail a.last (Reason.received data.length m.downloadSize) m
    { t with downloadSize := 0, heap := t.heap.free t.addr }

def runCommand (a : Answers) (data : List UInt8) (m : Machine) : Machine :=
  match lookup data with
  | some (cmd, arg) => unknownReason a (cmd.handle arg a m)
  | none => fastbootFail a.last Reason.unknownCommand m

def fastbootProcessRx (a : Answers) (data : List UInt8) (m : Machine) : Machine :=
  match m.fastbootState with
  | FastbootStates.download => finishDownload a data (m.setState FastbootStates.command)
  | FastbootStates.complete =>
      runCommand a data
        ((m.note (FastbootEvent.command data)).setState FastbootStates.command)
  | _ => m

def fastbootStartCallback (a : Answers) (m : Machine) : Machine :=
  fastbootReadCommand a (m.setState FastbootStates.complete)

def waitingDevice : Machine :=
  fastbootStartCallback Answers.plain (Machine.fresh [])

inductive UsbEvent where
  | configured (a : Answers)
  /-- The oldest receive request completes with these bytes. -/
  | received (a : Answers) (data : List UInt8)
  | sent (a : Answers)

def step (m : Machine) (event : UsbEvent) : Option Machine :=
  if m.running then
    match event with
    | UsbEvent.configured a => some (fastbootStartCallback a m)
    | UsbEvent.received a data =>
        match m.rxQueue with
        | [] => none
        | request :: rest =>
            if data.length ≤ request.length then
              some (fastbootProcessRx a data { m with rxQueue := rest })
            else
              none
    | UsbEvent.sent a =>
        match m.txQueue with
        | [] => none
        | _ :: rest => some (fastbootProcessTx a { m with txQueue := rest })
  else
    none

theorem running_of_step {m t : Machine} {event : UsbEvent} (h : step m event = some t) :
    m.running = true := by
  unfold step at h
  split at h
  · assumption
  · cases h

theorem step_cases {m t : Machine} {event : UsbEvent} (h : step m event = some t) :
    (exists a, event = UsbEvent.configured a ∧ t = fastbootStartCallback a m) ∨
    (exists a data request rest, event = UsbEvent.received a data ∧
      m.rxQueue = request :: rest ∧ data.length ≤ request.length ∧
      t = fastbootProcessRx a data { m with rxQueue := rest }) ∨
    (exists a response rest, event = UsbEvent.sent a ∧ m.txQueue = response :: rest ∧
      t = fastbootProcessTx a { m with txQueue := rest }) := by
  unfold step at h
  split at h
  · cases event with
    | configured a =>
        cases h
        exact Or.inl ⟨a, rfl, rfl⟩
    | received a data =>
        dsimp only at h
        split at h
        · cases h
        · rename_i request rest hqueue
          split at h
          · rename_i hlength
            cases h
            exact Or.inr (Or.inl ⟨a, data, request, rest, rfl, hqueue, hlength, rfl⟩)
          · cases h
    | sent a =>
        dsimp only at h
        split at h
        · cases h
        · rename_i response rest hqueue
          cases h
          exact Or.inr (Or.inr ⟨a, response, rest, rfl, hqueue, rfl⟩)
  · cases h

end Fastboot
end BootableUefi
