import BootableUefi.Fastboot.HandlerRules

/-!
# The length of a receive and the buffer it goes to

The caller of `usb_read` names a buffer and its length, `usb_read` rounds the
length up to whole packets, and `fastboot_process_rx` stores a NUL after what it
got.  The three agree only where no rounding takes place and the command leaves
room for the NUL.
-/

namespace BootableUefi
namespace Fastboot

open Firmware Foundation BootImage

/-- `MAGIC_LENGTH`, the size of `command_buffer`. -/
def commandBufferSize : Nat :=
  64

/-- The number of bytes in a destination; a block that is gone has none. -/
def RxBuffer.capacity (heap : BlockHeap) : RxBuffer -> Nat
  | commandBuffer => commandBufferSize
  | downloadBuffer addr => (heap.sizeAt addr).getD 0

def receivesOf (trace : List FastbootEvent) : List RxRequest :=
  trace.filterMap fun event =>
    match event with
    | FastbootEvent.receives request => some request
    | _ => none

def newReceives (m t : Machine) : List RxRequest :=
  (receivesOf t.trace).drop (receivesOf m.trace).length

/-- `((char *)buf)[len] = 0`: the buffer of the completed request, and `len`. -/
def storedNul (m : Machine) : UsbEvent -> Option (RxBuffer × Nat)
  | UsbEvent.received _ data =>
      if m.fastbootState = FastbootStates.complete then
        m.rxQueue.head?.map fun request => (request.buffer, data.length)
      else
        none
  | _ => none

/-- No receive is longer than its destination, and no NUL is stored after one. -/
structure ReceivesInBounds (m : Machine) (event : UsbEvent) (t : Machine) : Prop where
  requested : forall request, request ∈ newReceives m t ->
    request.length ≤ request.buffer.capacity t.heap
  terminated : forall buffer len, storedNul m event = some (buffer, len) ->
    buffer = RxBuffer.commandBuffer ∧ len < commandBufferSize

/-- A download that has its data read asks for whole packets. -/
def WholePackets (a : Answers) : Command × List UInt8 -> Prop
  | (Command.download, arg) =>
      strtoul arg 16 ≤ maxDownloadSize -> a.downloadPool = true ->
        efiError a.epRxData = false -> strtoul arg 16 % 512 = 0
  | _ => True

/--
No command read is queued, data is read in whole packets, and a command leaves
room for its NUL.
-/
def KeepsBuffers (m : Machine) : UsbEvent -> Prop
  | UsbEvent.configured a => efiError a.epRxData = true
  | UsbEvent.received a data =>
      m.fastbootState = FastbootStates.complete ->
        (forall request rest, m.rxQueue = request :: rest ->
          request.buffer = RxBuffer.commandBuffer) ∧
        data.length < commandBufferSize ∧
        forall found, lookup data = some found -> WholePackets a found
  | UsbEvent.sent a =>
      m.fastbootState = FastbootStates.complete -> efiError a.epRxData = true

/-!
# The requests a step queues
-/

@[simp] theorem receivesOf_append (xs ys : List FastbootEvent) :
    receivesOf (xs ++ ys) = receivesOf xs ++ receivesOf ys := by
  simp [receivesOf]

@[simp] theorem receivesOf_queued (responses : List Response) :
    receivesOf (responses.map FastbootEvent.queued) = [] := by
  simp [receivesOf]

def NoReceive (s t : Machine) : Prop :=
  receivesOf t.trace = receivesOf s.trace

theorem noReceive_rule : DataRule NoReceive where
  refl := fun _ => rfl
  trans := fun _ _ _ hst htu => Eq.trans htu hst
  queued := by
    intro m responses
    simp [NoReceive, Machine.withQueued]
  state := fun _ _ _ => rfl
  cursor := fun _ _ => rfl
  stops := fun _ => rfl
  data := fun _ _ _ _ => rfl
  entered := by
    intro m consumer d
    simp [NoReceive, Machine.note, receivesOf]
  command := by
    intro m data
    simp [NoReceive, Machine.note, receivesOf]

def NoReceiveNoHeap (s t : Machine) : Prop :=
  NoReceive s t ∧ t.heap = s.heap

theorem noReceiveNoHeap_rule : HandlerRule NoReceiveNoHeap where
  refl := fun _ => ⟨rfl, rfl⟩
  trans := fun _ _ _ hst htu => ⟨Eq.trans htu.1 hst.1, htu.2.trans hst.2⟩
  queued := fun m responses => ⟨noReceive_rule.queued m responses, rfl⟩
  state := fun _ _ _ => ⟨rfl, rfl⟩
  cursor := fun _ _ => ⟨rfl, rfl⟩
  stops := fun _ => ⟨rfl, rfl⟩

def readRequest (epRxData : EfiStatus) (buffer : RxBuffer) (len : Nat) : List RxRequest :=
  if efiError epRxData then [] else [{ buffer := buffer, length := roundToPackets len }]

theorem usbRead_receives (epRxData : EfiStatus) (buffer : RxBuffer) (len : Nat)
    (m : Machine) :
    receivesOf (usbRead epRxData buffer len m).2.trace =
        receivesOf m.trace ++ readRequest epRxData buffer len ∧
      (usbRead epRxData buffer len m).2.heap = m.heap := by
  unfold usbRead readRequest
  split
  · simp
  · simp [Machine.note, receivesOf]

def dataRequest (heap : BlockHeap) (arg : List UInt8) (a : Answers) : List RxRequest :=
  if strtoul arg 16 ≤ maxDownloadSize ∧ a.downloadPool = true then
    readRequest a.epRxData (RxBuffer.downloadBuffer (some heap.next)) (strtoul arg 16)
  else
    []

theorem announced_receives (size : Nat) (a : Answers) (m : Machine) :
    NoReceive m (m.announced size a) :=
  noReceive_rule.queued { m with downloadSize := size } _

theorem cmdDownload_receives (arg : List UInt8) (a : Answers) (m : Machine) :
    receivesOf (cmdDownload arg a m).trace =
        receivesOf m.trace ++ dataRequest m.heap arg a ∧
      (dataRequest m.heap arg a ≠ [] ->
        (cmdDownload arg a m).heap = m.heap.alloc (strtoul arg 16)) := by
  have hannounced := announced_receives (strtoul arg 16) a m
  rcases cmdDownload_cases arg a m with ⟨hlarge, heq⟩ | ⟨hsmall, hpool, heq⟩ |
    ⟨hsmall, hpool, hrefused, heq⟩ | ⟨hsmall, hpool, haccepted, heq⟩
  · have hnone : dataRequest m.heap arg a = [] := if_neg (by omega)
    have hfail := noReceive_rule.fastbootFail a.last Reason.dataTooLarge
      { m with downloadSize := strtoul arg 16 }
    rw [heq, hnone, List.append_nil]
    exact ⟨hfail, fun h => absurd rfl h⟩
  · have hnone : dataRequest m.heap arg a = [] := if_neg (by simp [hpool])
    have hfail := noReceive_rule.fastbootFail a.last Reason.memoryAllocationFailure
      { m.announced (strtoul arg 16) a with addr := none }
    rw [heq, hnone, List.append_nil]
    exact ⟨hfail.trans hannounced, fun h => absurd rfl h⟩
  · have hnone : dataRequest m.heap arg a = [] := by
      unfold dataRequest readRequest
      rw [if_pos ⟨hsmall, hpool⟩, if_pos hrefused]
    have hfail := noReceive_rule.fastbootFail a.last Reason.usbReceiveFailed
      ((m.announced (strtoul arg 16) a).withBlock (strtoul arg 16))
    rw [heq, hnone, List.append_nil]
    exact ⟨hfail.trans hannounced, fun h => absurd rfl h⟩
  · have hone : dataRequest m.heap arg a =
        readRequest a.epRxData (RxBuffer.downloadBuffer (some m.heap.next)) (strtoul arg 16) :=
      if_pos ⟨hsmall, hpool⟩
    have hread := usbRead_receives a.epRxData (RxBuffer.downloadBuffer (some m.heap.next))
      (strtoul arg 16) ((m.announced (strtoul arg 16) a).withBlock (strtoul arg 16))
    have hbefore : receivesOf ((m.announced (strtoul arg 16) a).withBlock (strtoul arg 16)).trace =
        receivesOf m.trace := hannounced
    rw [heq, hone, ← hbefore]
    exact ⟨hread.1, fun _ => hread.2⟩

theorem runCommand_receives (a : Answers) (data : List UInt8) (m : Machine) :
    (exists arg, lookup data = some (Command.download, arg) ∧
      receivesOf (runCommand a data m).trace =
        receivesOf m.trace ++ dataRequest m.heap arg a ∧
      (dataRequest m.heap arg a ≠ [] ->
        (runCommand a data m).heap = m.heap.alloc (strtoul arg 16))) ∨
    ((forall arg, lookup data ≠ some (Command.download, arg)) ∧
      NoReceive m (runCommand a data m)) := by
  unfold runCommand
  cases hfound : lookup data with
  | none =>
      refine Or.inr ⟨by simp, ?_⟩
      exact noReceive_rule.fastbootFail _ _ m
  | some found =>
      rcases found with ⟨cmd, arg⟩
      dsimp only
      have hunknown := noReceiveNoHeap_rule.unknownReason a (cmd.handle arg a m)
      cases cmd with
      | download =>
          have hdownload := cmdDownload_receives arg a m
          refine Or.inl ⟨arg, rfl, hunknown.1.trans hdownload.1, ?_⟩
          intro hsome
          exact hunknown.2.trans (hdownload.2 hsome)
      | erase =>
          refine Or.inr ⟨by simp, ?_⟩
          exact noReceive_rule.trans _ _ _ (noReceive_rule.cmdErase a m) hunknown.1
      | boot =>
          refine Or.inr ⟨by simp, ?_⟩
          exact noReceive_rule.trans _ _ _ (noReceive_rule.cmdBoot a m) hunknown.1
      | getvar =>
          refine Or.inr ⟨by simp, ?_⟩
          exact noReceive_rule.trans _ _ _ (noReceive_rule.cmdGetvar arg a m) hunknown.1
      | flash =>
          refine Or.inr ⟨by simp, ?_⟩
          exact noReceive_rule.trans _ _ _ (noReceive_rule.cmdFlash a m) hunknown.1
      | reboot =>
          refine Or.inr ⟨by simp, ?_⟩
          exact noReceive_rule.trans _ _ _ (noReceive_rule.cmdReboot a m) hunknown.1

/-!
# Which receives fit
-/

theorem roundToPackets_le_iff {n : Nat} : roundToPackets n ≤ n <-> n % 512 = 0 := by
  unfold roundToPackets
  split <;> omega

section Steps

variable {m t : Machine}

theorem newReceives_of_append {requests : List RxRequest}
    (h : receivesOf t.trace = receivesOf m.trace ++ requests) :
    newReceives m t = requests := by
  rw [newReceives, h, List.drop_left]

theorem newReceives_of_noReceive (h : NoReceive m t) : newReceives m t = [] :=
  newReceives_of_append (h.trans (List.append_nil _).symm)

theorem commandRead_fits_iff {epRxData : EfiStatus} {heap : BlockHeap} :
    (forall request, request ∈ readRequest epRxData RxBuffer.commandBuffer commandBufferSize ->
      request.length ≤ request.buffer.capacity heap) <-> efiError epRxData = true := by
  unfold readRequest
  cases efiError epRxData with
  | true => simp
  | false => simp [RxBuffer.capacity, roundToPackets, commandBufferSize]

theorem dataRead_fits_iff {heap : BlockHeap} {arg : List UInt8} {a : Answers}
    (hheap : dataRequest heap arg a ≠ [] -> t.heap = heap.alloc (strtoul arg 16)) :
    (forall request, request ∈ dataRequest heap arg a ->
      request.length ≤ request.buffer.capacity t.heap) <->
      WholePackets a (Command.download, arg) := by
  unfold WholePackets
  by_cases hasked : strtoul arg 16 ≤ maxDownloadSize ∧ a.downloadPool = true
  · have hread : dataRequest heap arg a = readRequest a.epRxData
        (RxBuffer.downloadBuffer (some heap.next)) (strtoul arg 16) := if_pos hasked
    rw [hread] at hheap ⊢
    unfold readRequest at hheap ⊢
    cases hrefused : efiError a.epRxData with
    | true => simp
    | false =>
        simp only [hrefused, Bool.false_eq_true, if_false] at hheap ⊢
        rw [hheap (by simp)]
        simp only [List.mem_singleton, forall_eq, RxBuffer.capacity,
          BlockHeap.sizeAt_alloc_next, Option.getD_some, roundToPackets_le_iff]
        exact ⟨fun h _ _ _ => h, fun h => h hasked.1 hasked.2 trivial⟩
  · have hnone : dataRequest heap arg a = [] := if_neg hasked
    rw [hnone]
    simp only [List.not_mem_nil, false_implies, implies_true, true_iff]
    intro hsize hpool
    exact absurd ⟨hsize, hpool⟩ hasked

theorem inBounds_of_no_nul {event : UsbEvent} (h : storedNul m event = none) :
    ReceivesInBounds m event t <-> forall request, request ∈ newReceives m t ->
      request.length ≤ request.buffer.capacity t.heap := by
  constructor
  · exact fun hbounds => hbounds.requested
  · intro hrequested
    refine ⟨hrequested, ?_⟩
    intro buffer len hnul
    rw [h] at hnul
    cases hnul

/-- A step that queues a command read is out of bounds, any other step without a NUL is not. -/
theorem commandRead_inBounds_iff {event : UsbEvent} {epRxData : EfiStatus}
    (hnul : storedNul m event = none)
    (hread : receivesOf t.trace = receivesOf m.trace ++
      readRequest epRxData RxBuffer.commandBuffer commandBufferSize) :
    ReceivesInBounds m event t <-> efiError epRxData = true := by
  rw [inBounds_of_no_nul hnul, newReceives_of_append hread, commandRead_fits_iff]

theorem quiet_inBounds {event : UsbEvent} (hnul : storedNul m event = none)
    (h : NoReceive m t) : ReceivesInBounds m event t := by
  rw [inBounds_of_no_nul hnul, newReceives_of_noReceive h]
  intro request hmem
  cases hmem

theorem command_inBounds_iff {a : Answers} {data : List UInt8} {request : RxRequest}
    {rest : List RxRequest} (hstate : m.fastbootState = FastbootStates.complete)
    (hqueue : m.rxQueue = request :: rest) :
    ReceivesInBounds m (UsbEvent.received a data)
        (fastbootProcessRx a data { m with rxQueue := rest }) <->
      request.buffer = RxBuffer.commandBuffer ∧ data.length < commandBufferSize ∧
        forall found, lookup data = some found -> WholePackets a found := by
  have hnul : storedNul m (UsbEvent.received a data) = some (request.buffer, data.length) := by
    simp [storedNul, hstate, hqueue]
  have hrun : fastbootProcessRx a data { m with rxQueue := rest } =
      runCommand a data ((({ m with rxQueue := rest } : Machine).note
        (FastbootEvent.command data)).setState FastbootStates.command) := by
    simp [fastbootProcessRx, hstate]
  have hentered : NoReceive m ((({ m with rxQueue := rest } : Machine).note
      (FastbootEvent.command data)).setState FastbootStates.command) :=
    noReceive_rule.command { m with rxQueue := rest } data
  rw [hrun]
  generalize hcommand : ((({ m with rxQueue := rest } : Machine).note
    (FastbootEvent.command data)).setState FastbootStates.command) = entered at hentered
  have hheap : entered.heap = m.heap := by
    rw [← hcommand]
    rfl
  -- The two halves of the property, one for the request and one for the NUL.
  have hsplit : ReceivesInBounds m (UsbEvent.received a data) (runCommand a data entered) <->
      (request.buffer = RxBuffer.commandBuffer ∧ data.length < commandBufferSize) ∧
        forall queued, queued ∈ newReceives m (runCommand a data entered) ->
          queued.length ≤ queued.buffer.capacity (runCommand a data entered).heap := by
    constructor
    · intro h
      exact ⟨h.terminated _ _ hnul, h.requested⟩
    · intro h
      refine ⟨h.2, ?_⟩
      intro buffer len hstored
      rw [hnul] at hstored
      cases hstored
      exact h.1
  rw [hsplit, and_assoc]
  apply and_congr_right'
  apply and_congr_right'
  rcases runCommand_receives a data entered with
    ⟨arg, hfound, hreads, halloc⟩ | ⟨hother, hreads⟩
  · rw [newReceives_of_append (hreads.trans (by rw [hentered])), dataRead_fits_iff halloc]
    rw [hfound]
    simp
  · rw [newReceives_of_noReceive (noReceive_rule.trans _ _ _ hentered hreads)]
    simp only [List.not_mem_nil, false_implies, implies_true, true_iff]
    intro found hfound
    rcases found with ⟨cmd, arg⟩
    cases cmd with
    | download => exact absurd hfound (hother arg)
    | _ => trivial

end Steps

/--
Every receive fits its buffer and every NUL falls in the command buffer exactly
when no command read is queued, the data of a download comes in whole packets,
and a command is shorter than the command buffer.
-/
theorem receives_inBounds_iff {m t : Machine} {event : UsbEvent}
    (hstep : step m event = some t) :
    ReceivesInBounds m event t <-> KeepsBuffers m event := by
  rcases step_cases hstep with
    ⟨a, rfl, rfl⟩ | ⟨a, data, request, rest, rfl, hqueue, -, rfl⟩ | ⟨a, response, rest, rfl, -, rfl⟩
  · exact commandRead_inBounds_iff rfl
      (usbRead_receives a.epRxData RxBuffer.commandBuffer commandBufferSize
        (m.setState FastbootStates.complete)).1
  · by_cases hstate : m.fastbootState = FastbootStates.complete
    · rw [command_inBounds_iff hstate hqueue]
      simp [KeepsBuffers, hstate, hqueue]
    · have hnul : storedNul m (UsbEvent.received a data) = none := if_neg hstate
      have hquiet : NoReceive m (fastbootProcessRx a data { m with rxQueue := rest }) := by
        unfold fastbootProcessRx
        dsimp only
        split
        · exact noReceive_rule.finishDownload a data _
        · rename_i hcomplete
          exact absurd hcomplete hstate
        · rfl
      exact ⟨fun _ h => absurd h hstate, fun _ => quiet_inBounds hnul hquiet⟩
  · by_cases hstate : m.fastbootState = FastbootStates.complete
    · have hnul : storedNul m (UsbEvent.sent a) = none := rfl
      have hread := usbRead_receives a.epRxData RxBuffer.commandBuffer commandBufferSize
        { m with txQueue := rest }
      have hrun : fastbootProcessTx a { m with txQueue := rest } =
          fastbootReadCommand a { m with txQueue := rest } := by
        simp [fastbootProcessTx, hstate]
      rw [hrun]
      exact (commandRead_inBounds_iff hnul hread.1).trans ⟨fun h _ => h, fun h => h hstate⟩
    · have hquiet : NoReceive m (fastbootProcessTx a { m with txQueue := rest }) := by
        unfold fastbootProcessTx
        dsimp only
        split
        · exact noReceive_rule.workerGetvarAll a [] _
        · rename_i hcomplete
          exact absurd hcomplete hstate
        · rfl
      exact ⟨fun _ h => absurd h hstate, fun _ => quiet_inBounds rfl hquiet⟩

theorem receives_inBounds_iff_of_one_packet :
    exists t, step waitingDevice (UsbEvent.received Answers.plain (ascii "download:200")) =
        some t ∧
      newReceives waitingDevice t =
        [{ buffer := RxBuffer.downloadBuffer (some 0), length := 512 }] ∧
      ReceivesInBounds waitingDevice
        (UsbEvent.received Answers.plain (ascii "download:200")) t := by
  refine ⟨_, rfl, by decide +kernel, (receives_inBounds_iff rfl).mpr ?_⟩
  intro _
  refine ⟨?_, by decide, ?_⟩
  · intro request rest hqueue
    cases hqueue
    rfl
  · intro found hfound
    cases hfound
    exact fun _ _ _ => by decide +kernel

/--
The first command read asks for 512 bytes, and the NUL after a command of 64
bytes is stored behind the command buffer.
-/
theorem command_read_overruns :
    (step (Machine.fresh []) (UsbEvent.configured Answers.plain) = some waitingDevice ∧
      newReceives (Machine.fresh []) waitingDevice =
        [{ buffer := RxBuffer.commandBuffer, length := 512 }] ∧
      ¬ ReceivesInBounds (Machine.fresh []) (UsbEvent.configured Answers.plain)
        waitingDevice) ∧
    exists t, step waitingDevice (UsbEvent.received Answers.plain (List.replicate 64 0x61)) =
        some t ∧
      ¬ ReceivesInBounds waitingDevice
        (UsbEvent.received Answers.plain (List.replicate 64 0x61)) t := by
  have hlong : newReceives (Machine.fresh []) waitingDevice =
      [{ buffer := RxBuffer.commandBuffer, length := 512 }] := by
    decide
  refine ⟨⟨rfl, hlong, ?_⟩, _, rfl, ?_⟩
  · intro h
    have hfits := h.requested { buffer := RxBuffer.commandBuffer, length := 512 }
    rw [hlong] at hfits
    exact absurd (hfits (List.mem_singleton_self _)) (by decide)
  · intro h
    exact absurd (h.terminated RxBuffer.commandBuffer 64 rfl).2 (by decide)

end Fastboot
end BootableUefi
