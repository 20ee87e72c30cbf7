import BootableUefi.BootImage.Start
import BootableUefi.Foundation.BlockHeap

/-!
# The fastboot device and its endpoints

The statics of `fastboot.c`, the transfers that wait on the two endpoints, and
the functions that queue transfers.  What the firmware answers while one event
is handled comes with the event.  The command buffer is taken to hold whatever
is received into it.
-/

namespace BootableUefi
namespace Fastboot

open Firmware Foundation BootImage

inductive FastbootStates where
  | offline
  | command
  | complete
  | download
  | getvar
  | error
  deriving DecidableEq, Repr

structure FastbootVar where
  name : List UInt8
  value : List UInt8
  deriving DecidableEq, Repr

/-- What follows the code in a response, by the format it is built from. -/
inductive Reason where
  | empty
  /-- "%a" -/
  | value (value : List UInt8)
  /-- "%a: %a" -/
  | variable (var : FastbootVar)
  | allocationError
  /-- "Flash failure: %r" -/
  | flashFailure (status : EfiStatus)
  /-- "boot failure: %r" -/
  | bootFailure (status : EfiStatus)
  | dataTooLarge
  | memoryAllocationFailure
  | usbReceiveFailed
  /-- "Received 0x%x bytes on 0x%x\n" -/
  | received (length size : Nat)
  | unknownReason
  | unknownCommand
  deriving DecidableEq, Repr

/-- What is sent to the host; `unset` is a buffer that could not be printed to. -/
inductive Response where
  | okay (reason : Reason)
  | fail (reason : Reason)
  | info (reason : Reason)
  | data (size : Nat)
  | unset
  deriving DecidableEq, Repr

def Response.isTerminal : Response -> Bool
  | okay _ => true
  | fail _ => true
  | _ => false

inductive RxBuffer where
  | commandBuffer
  | downloadBuffer (addr : Option Nat)
  deriving DecidableEq, Repr

structure RxRequest where
  buffer : RxBuffer
  length : Nat
  deriving DecidableEq, Repr

/-- `(addr, download_size)`, with the size of the pool block `addr` designates, if any. -/
structure Download where
  addr : Option Nat
  size : Nat
  block : Option Nat
  deriving DecidableEq, Repr

inductive Consumer where
  | flash
  | boot
  deriving DecidableEq, Repr

inductive FastbootEvent where
  | command (data : List UInt8)
  | queued (response : Response)
  | receives (request : RxRequest)
  | entered (consumer : Consumer) (download : Download)
  deriving DecidableEq, Repr

structure Machine where
  fastbootState : FastbootStates
  addr : Option Nat
  downloadSize : Nat
  heap : BlockHeap
  varlist : List FastbootVar
  /-- The static `var` of `worker_getvar_all`, as the list from it on. -/
  cursor : List FastbootVar
  rxQueue : List RxRequest
  txQueue : List Response
  running : Bool
  trace : List FastbootEvent

namespace Machine

def fresh (varlist : List FastbootVar) : Machine where
  fastbootState := FastbootStates.offline
  addr := none
  downloadSize := 0
  heap := BlockHeap.empty
  varlist := varlist
  cursor := []
  rxQueue := []
  txQueue := []
  running := true
  trace := []

def note (event : FastbootEvent) (m : Machine) : Machine :=
  { m with trace := m.trace ++ [event] }

def setState (state : FastbootStates) (m : Machine) : Machine :=
  { m with fastbootState := state }

def download (m : Machine) : Download where
  addr := m.addr
  size := m.downloadSize
  block := m.heap.sizeAt m.addr

end Machine

structure AckAnswer where
  reasonBuilt : Bool
  /-- `snprintf` or `sprintf` succeeds. -/
  responseBuilt : Bool
  epTxData : EfiStatus
  deriving DecidableEq, Repr

/-- `usb_write`: the value of `EFI_ERROR`, which is 0 or 1. -/
def usbWrite (answer : AckAnswer) (response : Response) (m : Machine) : Int × Machine :=
  if efiError answer.epTxData then
    (1, m)
  else
    let sent := if answer.responseBuilt then response else Response.unset
    (0, { m.note (FastbootEvent.queued sent) with txQueue := m.txQueue ++ [sent] })

def roundToPackets (len : Nat) : Nat :=
  if len % 512 ≠ 0 then len / 512 * 512 + 512 else len

def usbRead (epRxData : EfiStatus) (buffer : RxBuffer) (len : Nat) (m : Machine) :
    Bool × Machine :=
  if efiError epRxData then
    (true, m)
  else
    let request : RxRequest := { buffer := buffer, length := roundToPackets len }
    (false,
      { m.note (FastbootEvent.receives request) with rxQueue := m.rxQueue ++ [request] })

def fastbootAck (answer : AckAnswer) (response : Response) (m : Machine) : Machine :=
  if answer.reasonBuilt then
    let result := usbWrite answer response m
    if result.1 < 0 then result.2.setState FastbootStates.error else result.2
  else
    m

def fastbootInfo (answer : AckAnswer) (reason : Reason) (m : Machine) : Machine :=
  fastbootAck answer (Response.info reason) m

def fastbootFail (answer : AckAnswer) (reason : Reason) (m : Machine) : Machine :=
  (fastbootAck answer (Response.fail reason) m).setState FastbootStates.complete

def fastbootOkay (answer : AckAnswer) (reason : Reason) (m : Machine) : Machine :=
  (fastbootAck answer (Response.okay reason) m).setState FastbootStates.complete

/-!
# What is queued
-/

def Machine.withQueued (responses : List Response) (m : Machine) : Machine :=
  { m with
    txQueue := m.txQueue ++ responses
    trace := m.trace ++ responses.map FastbootEvent.queued }

def AckAnswer.written (answer : AckAnswer) (response : Response) : List Response :=
  if efiError answer.epTxData then []
  else if answer.responseBuilt then [response]
  else [Response.unset]

def AckAnswer.queues (answer : AckAnswer) (response : Response) : List Response :=
  if answer.reasonBuilt then answer.written response else []

/-- `EFI_ERROR` is never negative, so a failure to queue goes unnoticed. -/
theorem usbWrite_eq (answer : AckAnswer) (response : Response) (m : Machine) :
    0 ≤ (usbWrite answer response m).1 ∧
      (usbWrite answer response m).2 = m.withQueued (answer.written response) := by
  unfold usbWrite AckAnswer.written Machine.withQueued
  cases hstatus : efiError answer.epTxData with
  | true => simp
  | false =>
      cases answer.responseBuilt <;> simp [Machine.note]

theorem fastbootAck_eq (answer : AckAnswer) (response : Response) (m : Machine) :
    fastbootAck answer response m = m.withQueued (answer.queues response) := by
  rcases usbWrite_eq answer response m with ⟨hresult, hqueued⟩
  unfold fastbootAck AckAnswer.queues
  cases answer.reasonBuilt with
  | true =>
      simp only [if_true]
      rw [if_neg (by omega), hqueued]
  | false => simp [Machine.withQueued]

theorem fastbootFail_eq (answer : AckAnswer) (reason : Reason) (m : Machine) :
    fastbootFail answer reason m =
      (m.withQueued (answer.queues (Response.fail reason))).setState
        FastbootStates.complete := by
  unfold fastbootFail
  rw [fastbootAck_eq]

theorem fastbootOkay_eq (answer : AckAnswer) (reason : Reason) (m : Machine) :
    fastbootOkay answer reason m =
      (m.withQueued (answer.queues (Response.okay reason))).setState
        FastbootStates.complete := by
  unfold fastbootOkay
  rw [fastbootAck_eq]

end Fastboot
end BootableUefi
