import BootableUefi.BootImage.CommandLine
import BootableUefi.Fastboot.Session
import BootableUefi.Flash.Encoding

/-!
# The host's side

A host that flashes images announces each, sends it when it hears DATA, and names
the partition when it hears OKAY.  A device whose firmware grants its requests
answers all of it as the host expects, and holds the images in the end.
-/

namespace BootableUefi
namespace Fastboot

open Firmware Foundation BootImage Flash

/-!
# Announced sizes
-/

def lowerHexDigit (d : Nat) : UInt8 :=
  UInt8.ofNat (if d < 10 then 0x30 + d else 0x57 + d)

/-- What a host prints with "%08x", for a width of 8. -/
def hexFixed : Nat -> Nat -> List UInt8
  | 0, _ => []
  | width + 1, n => hexFixed width (n / 16) ++ [lowerHexDigit (n % 16)]

theorem toDigit_lowerHexDigit {d : Nat} (h : d < 16) :
    toDigit (lowerHexDigit d) 16 = some d :=
  (by decide : forall d, d < 16 -> toDigit (lowerHexDigit d) 16 = some d) d h

@[simp] theorem length_hexFixed (width n : Nat) : (hexFixed width n).length = width := by
  induction width generalizing n with
  | zero => rfl
  | succ width ih => simp [hexFixed, ih]

theorem mem_hexFixed {width n : Nat} {c : UInt8} (h : c ∈ hexFixed width n) :
    (toDigit c 16).isSome = true := by
  induction width generalizing n with
  | zero => cases h
  | succ width ih =>
      rw [hexFixed, List.mem_append, List.mem_singleton] at h
      rcases h with h | rfl
      · exact ih h
      · rw [toDigit_lowerHexDigit (Nat.mod_lt n (by decide))]
        rfl

theorem strtoulLoop_hexFixed (width n : Nat) (rest : List UInt8) {value : Nat}
    (hvalue : value < 2 ^ 32) :
    strtoulLoop 16 (hexFixed width n ++ rest) value =
      strtoulLoop 16 rest (u32 (value * 16 ^ width + n % 16 ^ width)) := by
  induction width generalizing n rest with
  | zero =>
      rw [Nat.pow_zero, Nat.mul_one, Nat.mod_one, Nat.add_zero, u32_of_lt hvalue]
      rfl
  | succ width ih =>
      have hsplit : n % 16 ^ (width + 1) = n % 16 + 16 * (n / 16 % 16 ^ width) := by
        rw [Nat.pow_succ', Nat.mod_mul]
      have hvalues : u32 (u32 (value * 16 ^ width + n / 16 % 16 ^ width) * 16 + n % 16) =
          u32 (value * 16 ^ (width + 1) + n % 16 ^ (width + 1)) := by
        rw [hsplit, Nat.pow_succ, ← Nat.mul_assoc]
        unfold u32
        omega
      rw [hexFixed, List.append_assoc, ih, List.singleton_append]
      simp only [strtoulLoop, toDigit_lowerHexDigit (Nat.mod_lt n (by decide : 0 < 16))]
      rw [hvalues]

/-- The device reads the size the host has printed. -/
theorem strtoul_hexFixed {n : Nat} (h : n < 2 ^ 32) : strtoul (hexFixed 8 n) 16 = n := by
  have hplain : (hexFixed 8 n).take 2 ≠ ascii "0x" := by
    intro heq
    have hx : (0x78 : UInt8) ∈ hexFixed 8 n := by
      apply List.mem_of_mem_take (i := 2)
      rw [heq]
      decide
    have hdigit := mem_hexFixed hx
    exact absurd hdigit (by decide)
  have hloop := strtoulLoop_hexFixed 8 n [] (by decide : 0 < 2 ^ 32)
  have hall : n % 16 ^ 8 = n := Nat.mod_eq_of_lt h
  rw [List.append_nil, Nat.zero_mul, Nat.zero_add, hall, u32_of_lt h] at hloop
  unfold strtoul
  rw [if_neg fun hprefix => hplain hprefix.2.2, if_neg (by decide), hloop]
  rfl

/-!
# A conversation
-/

inductive HostImage where
  | raw (data : List UInt8)
  | sparse (image : SparseImage)

namespace HostImage

def bytes : HostImage -> List UInt8
  | raw data => data
  | sparse image => image.encode

def pieces : HostImage -> List Piece
  | raw data => [{ length := data.length, content := some (memOf data) }]
  | sparse image => image.pieces

end HostImage

/-- An image to flash, and the partition that its label stands for. -/
structure Job where
  label : List UInt8
  image : HostImage
  part : GptPartition
  bio : BlockIo

inductive HostStep where
  | plugs
  | tells (data : List UInt8)
  /-- The host goes on only if it hears this. -/
  | hears (response : Response)

structure Turn where
  answers : Answers
  disk : FlashEnv
  pool : Mem

def Turn.event (turn : Turn) (step : HostStep) : SessionEvent where
  usb :=
    match step with
    | HostStep.plugs => UsbEvent.configured turn.answers
    | HostStep.tells data => UsbEvent.received turn.answers data
    | HostStep.hears _ => UsbEvent.sent turn.answers
  disk := turn.disk
  pool := turn.pool

def HostStep.Expects (s : Session) : HostStep -> Prop
  | hears response => s.machine.txQueue.head? = some response
  | _ => True

instance (s : Session) : forall step, Decidable (HostStep.Expects s step)
  | HostStep.plugs => inferInstanceAs (Decidable True)
  | HostStep.tells _ => inferInstanceAs (Decidable True)
  | HostStep.hears _ => inferInstanceAs (Decidable (_ = _))

/-- Both sides in turn, until the script ends or one of them does not go on. -/
def converse : Session -> List (HostStep × Turn) -> Option Session
  | s, [] => some s
  | s, (step, turn) :: rest =>
      if step.Expects s then
        (s.step (turn.event step)).bind fun t => converse t rest
      else
        none

theorem converse_append (s : Session) (xs ys : List (HostStep × Turn)) :
    converse s (xs ++ ys) = (converse s xs).bind fun t => converse t ys := by
  induction xs generalizing s with
  | nil => rfl
  | cons x xs ih =>
      rcases x with ⟨step, turn⟩
      rw [List.cons_append, converse, converse]
      split
      · cases s.step (turn.event step) with
        | none => rfl
        | some t => exact ih t
      · rfl

namespace Job

variable (job : Job)

def script : List HostStep :=
  [HostStep.tells (Command.download.name ++ hexFixed 8 job.image.bytes.length),
    HostStep.hears (Response.data job.image.bytes.length),
    HostStep.tells job.image.bytes,
    HostStep.hears (Response.okay Reason.empty),
    HostStep.tells (Command.flash.name ++ job.label),
    HostStep.hears (Response.okay Reason.empty)]

def region : Region where
  start := job.part.startingLba.toNat * job.bio.blockSize.toNat
  pieces := job.image.pieces

/-- The image is not taken for another format, and is filled in all it fills. -/
def Plain (arch : Arch) : HostImage -> Prop
  | HostImage.raw data => isSparseImage { mem := memOf data, size := data.length } = false
  | HostImage.sparse image => forall chunk, chunk ∈ image.chunks -> chunk.FilledOn arch

/-- The label is one a command has room for, and so has its partition for the image. -/
structure Fits (disk : FlashEnv) : Prop where
  label : exists wide, straToStr job.label = some wide ∧
    disk.HasPartition wide job.part job.bio (totalLength job.image.pieces)
  terminated : 0 ∉ job.label
  command : (Command.flash.name ++ job.label).length < 64
  size : job.image.bytes.length ≤ maxDownloadSize
  plain : Plain disk.arch job.image

end Job

structure AckAnswer.Sent (answer : AckAnswer) : Prop where
  reasonBuilt : answer.reasonBuilt = true
  responseBuilt : answer.responseBuilt = true
  epTxData : efiError answer.epTxData = false

/-- The firmware grants what the handlers ask for. -/
structure Turn.Grants (turn : Turn) (disk : FlashEnv) : Prop where
  disk : turn.disk = disk
  early : turn.answers.early.Sent
  last : turn.answers.last.Sent
  labelPool : turn.answers.labelPool = true
  downloadPool : turn.answers.downloadPool = true
  epRxData : efiError turn.answers.epRxData = false

/-!
# One turn
-/

theorem AckAnswer.Sent.written {answer : AckAnswer} (h : answer.Sent) (response : Response) :
    answer.written response = [response] := by
  unfold AckAnswer.written
  rw [h.epTxData, if_neg Bool.false_ne_true, if_pos h.responseBuilt]

theorem AckAnswer.Sent.okay {answer : AckAnswer} (h : answer.Sent) (reason : Reason)
    (m : Machine) :
    fastbootOkay answer reason m =
      (m.withQueued [Response.okay reason]).setState FastbootStates.complete := by
  rw [fastbootOkay_eq, AckAnswer.queues, if_pos h.reasonBuilt, h.written]

def commandRequest : RxRequest where
  buffer := RxBuffer.commandBuffer
  length := 512

/-- Where the conversation is. -/
structure Machine.At (m : Machine) (state : FastbootStates) (rx : List RxRequest)
    (tx : List Response) : Prop where
  running : m.running = true
  state : m.fastbootState = state
  rxQueue : m.rxQueue = rx
  txQueue : m.txQueue = tx

def Session.written (s : Session) : List ByteWrite :=
  s.trace.flatMap fun fact =>
    match fact with
    | SessionFact.flashed run => diskWrites run.events
    | _ => []

theorem fastbootReadCommand_eq {a : Answers} (h : efiError a.epRxData = false) (m : Machine) :
    fastbootReadCommand a m =
      { m.note (FastbootEvent.receives commandRequest) with
        rxQueue := m.rxQueue ++ [commandRequest] } := by
  unfold fastbootReadCommand usbRead
  rw [h, if_neg Bool.false_ne_true]
  rfl

/-- When a response has been sent, the next command is read. -/
theorem fastbootProcessTx_of_complete {a : Answers} (h : efiError a.epRxData = false)
    {m : Machine} (hstate : m.fastbootState = FastbootStates.complete) :
    fastbootProcessTx a m =
      { m.note (FastbootEvent.receives commandRequest) with
        rxQueue := m.rxQueue ++ [commandRequest] } := by
  unfold fastbootProcessTx
  rw [hstate]
  exact fastbootReadCommand_eq h m

theorem fastbootProcessTx_of_download (a : Answers) {m : Machine}
    (hstate : m.fastbootState = FastbootStates.download) : fastbootProcessTx a m = m := by
  unfold fastbootProcessTx
  rw [hstate]

section Commands

variable {a : Answers} {m : Machine} {n : Nat}

theorem lookup_download (arg : List UInt8) :
    lookup (Command.download.name ++ arg) = some (Command.download, cString arg) :=
  rfl

theorem lookup_flash (arg : List UInt8) :
    lookup (Command.flash.name ++ arg) = some (Command.flash, cString arg) :=
  rfl

theorem lookup_announced (n : Nat) :
    lookup (Command.download.name ++ hexFixed 8 n) = some (Command.download, hexFixed 8 n) := by
  have hzero : 0 ∉ hexFixed 8 n := by
    intro hmem
    exact absurd (mem_hexFixed hmem) (by decide)
  rw [lookup_download, cString_eq_self hzero]

theorem fastbootProcessRx_announced (hearly : a.early.Sent) (hpool : a.downloadPool = true)
    (hrx : efiError a.epRxData = false) (h : m.At FastbootStates.complete [] [])
    (hn : n ≤ maxDownloadSize) :
    (fastbootProcessRx a (Command.download.name ++ hexFixed 8 n) m).At FastbootStates.download
        [{ buffer := RxBuffer.downloadBuffer
            (fastbootProcessRx a (Command.download.name ++ hexFixed 8 n) m).addr
           length := roundToPackets n }] [Response.data n] ∧
      (fastbootProcessRx a (Command.download.name ++ hexFixed 8 n) m).downloadSize = n := by
  have hsize : strtoul (hexFixed 8 n) 16 = n := strtoul_hexFixed (hn.trans_lt (by decide))
  generalize hdata : Command.download.name ++ hexFixed 8 n = data
  have hlookup : lookup data = some (Command.download, hexFixed 8 n) := by
    rw [← hdata]
    exact lookup_announced n
  unfold fastbootProcessRx
  rw [h.state]
  dsimp only
  unfold runCommand
  rw [hlookup]
  dsimp only
  generalize hentered :
    Machine.setState FastbootStates.command (m.note (FastbootEvent.command data)) = entered
  have hqueues : entered.rxQueue = [] ∧ entered.txQueue = [] ∧ entered.running = true := by
    rw [← hentered]
    exact ⟨h.rxQueue, h.txQueue, h.running⟩
  have hhandled : Command.download.handle (hexFixed 8 n) a entered =
      (usbRead a.epRxData (RxBuffer.downloadBuffer (some entered.heap.next)) n
        ((entered.announced n a).withBlock n)).2.setState FastbootStates.download := by
    show cmdDownload (hexFixed 8 n) a entered = _
    rcases cmdDownload_cases (hexFixed 8 n) a entered with ⟨hlarge, -⟩ | ⟨-, hnone, -⟩ |
      ⟨-, -, hfails, -⟩ | ⟨-, -, -, heq⟩
    · omega
    · rw [hpool] at hnone
      cases hnone
    · rw [hrx] at hfails
      cases hfails
    · rw [heq, hsize]
  have hkept : unknownReason a (Command.download.handle (hexFixed 8 n) a entered) =
      Command.download.handle (hexFixed 8 n) a entered := by
    unfold unknownReason
    rw [hhandled]
    exact if_neg fun hcommand => nomatch hcommand.1
  rw [hkept, hhandled]
  unfold usbRead Machine.announced
  rw [hrx, if_neg Bool.false_ne_true, hearly.written]
  rcases hqueues with ⟨hrxQueue, htxQueue, hrunning⟩
  refine ⟨⟨hrunning, rfl, ?_, ?_⟩, rfl⟩
  · show entered.rxQueue ++ _ = _
    rw [hrxQueue]
    rfl
  · show entered.txQueue ++ _ = _
    rw [htxQueue]
    rfl

theorem fastbootProcessRx_transferred (hlast : a.last.Sent) {data : List UInt8}
    (hstate : m.fastbootState = FastbootStates.download) (hlength : data.length = m.downloadSize) :
    fastbootProcessRx a data m =
      ((m.setState FastbootStates.command).withQueued
        [Response.okay Reason.empty]).setState FastbootStates.complete := by
  unfold fastbootProcessRx
  rw [hstate]
  dsimp only
  unfold finishDownload
  rw [if_pos (show data.length = (m.setState FastbootStates.command).downloadSize from hlength)]
  exact hlast.okay Reason.empty _

theorem fastbootProcessRx_flash (hlast : a.last.Sent) (hpool : a.labelPool = true)
    (hstatus : a.status = EfiStatus.success) (h : m.At FastbootStates.complete [] [])
    {data label : List UInt8} (hlookup : lookup data = some (Command.flash, label)) :
    (fastbootProcessRx a data m).At FastbootStates.complete []
      [Response.okay Reason.empty] := by
  unfold fastbootProcessRx
  rw [h.state]
  dsimp only
  unfold runCommand
  rw [hlookup]
  dsimp only
  generalize hentered :
    Machine.setState FastbootStates.command (m.note (FastbootEvent.command data)) = entered
  have hhandled : Command.flash.handle label a entered =
      ((entered.note (FastbootEvent.entered Consumer.flash entered.download)).withQueued
        [Response.okay Reason.empty]).setState FastbootStates.complete := by
    show reportStatus a _ _ = _
    unfold reportStatus
    rw [if_pos hpool, hstatus, if_neg (by decide)]
    exact hlast.okay Reason.empty _
  have hkept : unknownReason a (Command.flash.handle label a entered) =
      Command.flash.handle label a entered := by
    unfold unknownReason
    rw [hhandled]
    exact if_neg fun hcommand => nomatch hcommand.1
  rw [hkept, hhandled, ← hentered]
  refine ⟨h.running, rfl, h.rxQueue, ?_⟩
  show m.txQueue ++ [Response.okay Reason.empty] = _
  rw [h.txQueue]
  rfl

end Commands

section Turns

variable {s : Session} {turn : Turn} {disk : FlashEnv}

/-- The answers once `flash` and `boot` act on the block. -/
def Session.given (s : Session) (turn : Turn) (data : List UInt8) : Answers :=
  { turn.answers with
    labelPool := turn.answers.labelPool &&
      (lookup data).all fun found => (straToStr found.2).isSome
    status := s.status (turn.event (HostStep.tells data)) turn.answers.status
    boot := { turn.answers.boot with image := s.block } }

theorem Session.step_plugs (hrunning : s.machine.running = true) (turn : Turn) :
    s.step (turn.event HostStep.plugs) =
      some { s with machine := fastbootStartCallback turn.answers s.machine } := by
  unfold Session.step Fastboot.step
  rw [if_pos hrunning]
  rfl

theorem Session.step_hears {state : FastbootStates} {rx : List RxRequest} {response : Response}
    (h : s.machine.At state rx [response]) (turn : Turn) :
    s.step (turn.event (HostStep.hears response)) =
      some { s with machine := fastbootProcessTx turn.answers { s.machine with txQueue := [] } } := by
  unfold Session.step Fastboot.step
  rw [if_pos h.running]
  unfold Session.usb Turn.event
  dsimp only
  rw [h.txQueue]
  rfl

theorem Session.step_tells {state : FastbootStates} {request : RxRequest} {tx : List Response}
    (h : s.machine.At state [request] tx) {data : List UInt8} (hlength : data.length ≤ request.length)
    (turn : Turn) :
    s.step (turn.event (HostStep.tells data)) =
      some (match s.flashLabel (turn.event (HostStep.tells data)) with
        | some label => s.flashed (turn.event (HostStep.tells data)) label
            (fastbootProcessRx (s.given turn data) data { s.machine with rxQueue := [] })
        | none => s.goesOn (turn.event (HostStep.tells data))
            (fastbootProcessRx (s.given turn data) data { s.machine with rxQueue := [] })) := by
  have hstep : Fastboot.step s.machine (s.usb (turn.event (HostStep.tells data))) =
      some (fastbootProcessRx (s.given turn data) data { s.machine with rxQueue := [] }) := by
    unfold Fastboot.step
    rw [if_pos h.running]
    unfold Session.usb Turn.event
    dsimp only
    rw [h.rxQueue]
    exact if_pos hlength
  unfold Session.step
  rw [hstep]
  rfl

theorem Session.plugged (hgrants : turn.Grants disk) (varlist : List FastbootVar)
    (block : Mem) :
    exists t, (Session.fresh varlist block).step (turn.event HostStep.plugs) = some t ∧
      t.machine.At FastbootStates.complete [commandRequest] [] ∧ t.written = [] := by
  refine ⟨_, Session.step_plugs rfl turn, ?_, rfl⟩
  unfold fastbootStartCallback
  rw [fastbootReadCommand_eq hgrants.epRxData]
  exact ⟨rfl, rfl, rfl, rfl⟩

structure Session.SameData (s t : Session) : Prop where
  downloadSize : t.machine.downloadSize = s.machine.downloadSize
  addr : t.machine.addr = s.machine.addr
  block : t.block = s.block
  written : t.written = s.written

theorem Session.heard {response : Response}
    (h : s.machine.At FastbootStates.complete [] [response]) (hgrants : turn.Grants disk) :
    exists t, s.step (turn.event (HostStep.hears response)) = some t ∧
      t.machine.At FastbootStates.complete [commandRequest] [] ∧ s.SameData t := by
  refine ⟨_, Session.step_hears h turn, ?_⟩
  rw [fastbootProcessTx_of_complete (m := { s.machine with txQueue := [] }) hgrants.epRxData h.state]
  refine ⟨⟨h.running, h.state, ?_, rfl⟩, rfl, rfl, rfl, rfl⟩
  show s.machine.rxQueue ++ [commandRequest] = [commandRequest]
  rw [h.rxQueue]
  rfl

theorem Session.heardData {response : Response} {rx : List RxRequest}
    (h : s.machine.At FastbootStates.download rx [response]) (turn : Turn) :
    exists t, s.step (turn.event (HostStep.hears response)) = some t ∧
      t.machine.At FastbootStates.download rx [] ∧ s.SameData t := by
  refine ⟨_, Session.step_hears h turn, ?_⟩
  rw [fastbootProcessTx_of_download (m := { s.machine with txQueue := [] }) turn.answers h.state]
  exact ⟨⟨h.running, h.state, h.rxQueue, rfl⟩, rfl, rfl, rfl, rfl⟩

theorem Session.announced {n : Nat}
    (h : s.machine.At FastbootStates.complete [commandRequest] []) (hgrants : turn.Grants disk)
    (hn : n ≤ maxDownloadSize) :
    exists t, s.step (turn.event (HostStep.tells (Command.download.name ++ hexFixed 8 n))) =
        some t ∧
      t.machine.At FastbootStates.download
        [{ buffer := RxBuffer.downloadBuffer t.machine.addr, length := roundToPackets n }]
        [Response.data n] ∧
      t.machine.downloadSize = n ∧ t.written = s.written := by
  have hlength : (Command.download.name ++ hexFixed 8 n).length ≤ commandRequest.length := by
    rw [List.length_append, length_hexFixed]
    decide
  have hlookup := lookup_announced n
  have hstep := Session.step_tells h hlength turn
  have hwaits : Machine.At { s.machine with rxQueue := [] } FastbootStates.complete [] [] :=
    ⟨h.running, h.state, rfl, h.txQueue⟩
  rcases fastbootProcessRx_announced
      (a := s.given turn (Command.download.name ++ hexFixed 8 n)) hgrants.early
      hgrants.downloadPool hgrants.epRxData hwaits hn with ⟨hat, hsize⟩
  have hnone : s.flashLabel (turn.event
      (HostStep.tells (Command.download.name ++ hexFixed 8 n))) = none := by
    unfold Session.flashLabel Session.command Turn.event
    dsimp only
    rw [if_pos h.state, Option.bind_some]
    dsimp only
    rw [hlookup]
  rw [hnone] at hstep
  dsimp only at hstep
  generalize fastbootProcessRx (s.given turn (Command.download.name ++ hexFixed 8 n))
    (Command.download.name ++ hexFixed 8 n) { s.machine with rxQueue := [] } = m at hstep hat hsize
  refine ⟨_, hstep, ?_⟩
  unfold Session.goesOn Turn.event
  dsimp only
  rw [h.state]
  dsimp only
  rw [hlookup]
  refine ⟨hat, hsize, ?_⟩
  simp [Session.written]

theorem le_roundToPackets (n : Nat) : n ≤ roundToPackets n := by
  unfold roundToPackets
  split <;> omega

theorem Session.transferred {data : List UInt8}
    (h : s.machine.At FastbootStates.download
      [{ buffer := RxBuffer.downloadBuffer s.machine.addr
         length := roundToPackets data.length }] [])
    (hsize : s.machine.downloadSize = data.length) (hgrants : turn.Grants disk) :
    exists t, s.step (turn.event (HostStep.tells data)) = some t ∧
      t.machine.At FastbootStates.complete [] [Response.okay Reason.empty] ∧
      IsImage data t.image ∧ t.written = s.written := by
  have hstep := Session.step_tells h (le_roundToPackets data.length) turn
  have hnone : s.flashLabel (turn.event (HostStep.tells data)) = none := by
    unfold Session.flashLabel Session.command Turn.event
    dsimp only
    rw [h.state]
    rfl
  have hlands : s.Lands := by
    unfold Session.Lands
    rw [h.rxQueue]
    rfl
  have hlast : (s.given turn data).last.Sent := hgrants.last
  have hokay := fastbootProcessRx_transferred (m := { s.machine with rxQueue := [] }) hlast
    h.state hsize.symm
  rw [hnone, hokay] at hstep
  refine ⟨_, hstep, ?_⟩
  unfold Session.goesOn Turn.event
  dsimp only
  rw [h.state]
  dsimp only
  rw [if_pos hlands]
  refine ⟨⟨h.running, rfl, rfl, ?_⟩, ⟨hsize, ?_⟩, ?_⟩
  · show s.machine.txQueue ++ [Response.okay Reason.empty] = _
    rw [h.txQueue]
    rfl
  · intro i hi
    have hstored : (storeAt 0 data).apply s.block (0 + i) = memOf data i :=
      ByteWrite.apply_of_mem (w := storeAt 0 data) hi
    rwa [Nat.zero_add] at hstored
  · simp [Session.written]

theorem Session.installed {label : List UInt8} {wide : List UInt16} {start : Nat}
    {ps : List Piece} (h : s.machine.At FastbootStates.complete [commandRequest] [])
    (hgrants : turn.Grants disk) (hwide : straToStr label = some wide) (hzero : 0 ∉ label)
    (hlength : (Command.flash.name ++ label).length < 64)
    (hinstalls : Installs disk s.image wide s.statics start ps) :
    exists t, s.step (turn.event (HostStep.tells (Command.flash.name ++ label))) = some t ∧
      t.machine.At FastbootStates.complete [] [Response.okay Reason.empty] ∧
      exists ws, t.written = s.written ++ ws ∧
        forall before, applyAll ws before = applyAll (writesOf start ps) before := by
  have hlookup := lookup_flash label
  rw [cString_eq_self hzero] at hlookup
  generalize Command.flash.name ++ label = data at hlookup hlength
  have hroom : data.length ≤ commandRequest.length := hlength.le.trans (by decide)
  have hstep := Session.step_tells h hroom turn
  have hlabel : s.flashLabel (turn.event (HostStep.tells data)) = some wide := by
    unfold Session.flashLabel Session.command Turn.event
    dsimp only
    rw [if_pos h.state, Option.bind_some]
    dsimp only
    rw [hlookup]
    dsimp only
    rw [if_pos hgrants.labelPool, hwide]
  have hflash : s.flashes (turn.event (HostStep.tells data)) wide =
      flash disk s.image wide s.statics := by
    show flash turn.disk s.image wide s.statics = _
    rw [hgrants.disk]
  rcases hinstalls with ⟨hreturned, events, hlog, heffect⟩
  have hlast : (s.given turn data).last.Sent := hgrants.last
  have hpool : (s.given turn data).labelPool = true := by
    unfold Session.given
    dsimp only
    rw [hgrants.labelPool, hlookup]
    simp [hwide]
  have hstatus : (s.given turn data).status = EfiStatus.success := by
    show s.status _ _ = _
    unfold Session.status
    rw [hlabel]
    dsimp only
    rw [hflash, hreturned]
  have hwaits : Machine.At { s.machine with rxQueue := [] } FastbootStates.complete [] [] :=
    ⟨h.running, h.state, rfl, h.txQueue⟩
  have hat := fastbootProcessRx_flash hlast hpool hstatus hwaits hlookup
  rw [hlabel] at hstep
  dsimp only at hstep
  refine ⟨_, hstep, ?_⟩
  unfold Session.flashed
  rw [hflash]
  dsimp only
  rw [hreturned, if_neg (by decide)]
  refine ⟨hat, diskWrites events, ?_, heffect⟩
  rw [hlog, List.drop_left]
  simp [Session.written]

end Turns

/-!
# One job
-/

def Session.Waits (s : Session) : Prop :=
  s.machine.At FastbootStates.complete [commandRequest] []

theorem Job.Fits.installs {job : Job} {disk : FlashEnv} (h : job.Fits disk)
    (hgrants : disk.Grants) {wide : List UInt16}
    (hpartition : disk.HasPartition wide job.part job.bio (totalLength job.image.pieces))
    {image : ImageBuffer} (himage : IsImage job.image.bytes image) (s : FlashState) :
    Installs disk image wide s job.region.start job.region.pieces := by
  have hplain := h.plain
  unfold Job.region
  generalize job.image = source at hpartition himage hplain
  cases source with
  | raw data =>
      have hsize : image.size = data.length := himage.size
      have hraw : isSparseImage image = false := by
        rw [← hplain]
        refine isSparseImage_congr hsize ?_
        intro i hi
        exact himage.bytes i hi
      have hcontent : forall i, i < image.size -> image.mem i = memOf data i := by
        intro i hi
        exact himage.bytes i (hsize ▸ hi)
      have hpartition' : disk.HasPartition wide job.part job.bio image.size := by
        rw [hsize]
        exact hpartition
      have hinstalls := installs_of_raw hgrants hpartition' hraw hcontent s
      rw [hsize] at hinstalls
      exact hinstalls
  | sparse sparse =>
      have hencodes : image.Encodes sparse := by
        refine ⟨himage.size, ?_⟩
        intro i hi
        have hshows := shows_memOf sparse.encode i hi
        rw [Nat.zero_add] at hshows ⊢
        exact (himage.bytes i hi).trans hshows
      exact installs_of_encodes hgrants hpartition hencodes hplain s

/-- Whatever is granted, both sides go through the script and end up there. -/
def Reaches (disk : FlashEnv) (s : Session) (script : List HostStep) (post : Session -> Prop) :
    Prop :=
  forall turns : List Turn, turns.length = script.length ->
    (forall turn, turn ∈ turns -> turn.Grants disk) ->
      exists t, converse s (script.zip turns) = some t ∧ post t

section Reaches

variable {disk : FlashEnv} {s : Session} {step : HostStep} {rest xs ys : List HostStep}
  {post mid : Session -> Prop}

theorem Reaches.nil (h : post s) : Reaches disk s [] post :=
  fun _ _ _ => ⟨s, rfl, h⟩

theorem Reaches.cons (hexpects : step.Expects s)
    (h : forall turn : Turn, turn.Grants disk ->
      exists t, s.step (turn.event step) = some t ∧ Reaches disk t rest post) :
    Reaches disk s (step :: rest) post := by
  intro turns hlength hgrants
  cases turns with
  | nil => cases hlength
  | cons turn turns =>
      rcases List.forall_mem_cons.mp hgrants with ⟨hturn, hturns⟩
      rcases h turn hturn with ⟨t, hstep, hreaches⟩
      rcases hreaches turns (Nat.succ.inj hlength) hturns with ⟨u, hrun, hpost⟩
      refine ⟨u, ?_, hpost⟩
      rw [List.zip_cons_cons, converse, if_pos hexpects, hstep]
      exact hrun

theorem Reaches.tells {data : List UInt8}
    (h : forall turn : Turn, turn.Grants disk ->
      exists t, s.step (turn.event (HostStep.tells data)) = some t ∧ Reaches disk t rest post) :
    Reaches disk s (HostStep.tells data :: rest) post :=
  Reaches.cons trivial h

theorem Reaches.hears {state : FastbootStates} {rx : List RxRequest} {response : Response}
    (hat : s.machine.At state rx [response])
    (h : forall turn : Turn, turn.Grants disk ->
      exists t, s.step (turn.event (HostStep.hears response)) = some t ∧
        Reaches disk t rest post) :
    Reaches disk s (HostStep.hears response :: rest) post := by
  refine Reaches.cons ?_ h
  show s.machine.txQueue.head? = some response
  rw [hat.txQueue]
  rfl

theorem Reaches.append (hxs : Reaches disk s xs mid)
    (hys : forall t, mid t -> Reaches disk t ys post) : Reaches disk s (xs ++ ys) post := by
  intro turns hlength hgrants
  rw [List.length_append] at hlength
  have hfirst : (turns.take xs.length).length = xs.length := by
    rw [List.length_take]
    omega
  have hlast : (turns.drop xs.length).length = ys.length := by
    rw [List.length_drop]
    omega
  rcases hxs _ hfirst fun turn hmem => hgrants turn (List.mem_of_mem_take hmem) with
    ⟨t, hrun, hmid⟩
  rcases hys t hmid _ hlast fun turn hmem => hgrants turn (List.mem_of_mem_drop hmem) with
    ⟨u, hrest, hpost⟩
  refine ⟨u, ?_, hpost⟩
  have hzip : (xs ++ ys).zip turns =
      xs.zip (turns.take xs.length) ++ ys.zip (turns.drop xs.length) := by
    rw [← List.zip_append hfirst.symm, List.take_append_drop]
  rw [hzip, converse_append, hrun]
  exact hrest

end Reaches

/-- What a part of a conversation has put on the disk. -/
def Session.Wrote (s t : Session) (rs : List Region) : Prop :=
  exists ws, t.written = s.written ++ ws ∧ forall before, LaidOut rs before (applyAll ws before)

/-- One image is announced, sent and flashed, as the host expects. -/
theorem reaches_job {job : Job} {disk : FlashEnv} (hgrants : disk.Grants)
    (hfits : job.Fits disk) {s : Session} (h : s.Waits) :
    Reaches disk s job.script fun t => t.Waits ∧ s.Wrote t [job.region] := by
  rcases hfits.label with ⟨wide, hwide, hpartition⟩
  -- The size is announced, and DATA is heard.
  apply Reaches.tells
  intro first hfirst
  rcases Session.announced h hfirst hfits.size with ⟨t₁, hstep₁, hat₁, hsize₁, hwritten₁⟩
  refine ⟨t₁, hstep₁, Reaches.hears hat₁ ?_⟩
  intro second hsecond
  rcases Session.heardData hat₁ second with ⟨t₂, hstep₂, hat₂, hsame₂⟩
  rw [← hsame₂.addr] at hat₂
  -- The image is sent, and OKAY is heard.
  refine ⟨t₂, hstep₂, Reaches.tells ?_⟩
  intro third hthird
  rcases Session.transferred hat₂ (hsame₂.downloadSize.trans hsize₁) hthird with
    ⟨t₃, hstep₃, hat₃, himage, hwritten₃⟩
  refine ⟨t₃, hstep₃, Reaches.hears hat₃ ?_⟩
  intro fourth hfourth
  rcases Session.heard hat₃ hfourth with ⟨t₄, hstep₄, hat₄, hsame₄⟩
  have hheld : IsImage job.image.bytes t₄.image := by
    have hsame : t₄.image = t₃.image := by
      unfold Session.image
      rw [hsame₄.block, hsame₄.downloadSize]
    rwa [hsame]
  -- It is flashed, and OKAY is heard.
  refine ⟨t₄, hstep₄, Reaches.tells ?_⟩
  intro fifth hfifth
  rcases Session.installed hat₄ hfifth hwide hfits.terminated hfits.command
    (hfits.installs hgrants hpartition hheld t₄.statics) with
    ⟨t₅, hstep₅, hat₅, ws, hwritten₅, heffect⟩
  refine ⟨t₅, hstep₅, Reaches.hears hat₅ ?_⟩
  intro last hlast
  rcases Session.heard hat₅ hlast with ⟨t₆, hstep₆, hat₆, hsame₆⟩
  refine ⟨t₆, hstep₆, Reaches.nil ⟨hat₆, ws, ?_, ?_⟩⟩
  · rw [hsame₆.written, hwritten₅, hsame₄.written, hwritten₃, hsame₂.written, hwritten₁]
  · intro before
    rw [heffect]
    exact LaidOut.single job.region before

/-!
# All jobs
-/

theorem Session.Wrote.cons {s t u : Session} {r : Region} {rs : List Region}
    (hfirst : s.Wrote t [r]) (hrest : t.Wrote u rs)
    (hapart : forall other, other ∈ rs -> r.Apart other) : s.Wrote u (r :: rs) := by
  rcases hfirst with ⟨ws, hws, hlaid⟩
  rcases hrest with ⟨more, hmore, hothers⟩
  refine ⟨ws ++ more, by rw [hmore, hws, List.append_assoc], ?_⟩
  intro before
  rw [applyAll_append]
  exact (hlaid before).cons (hothers _) hapart

theorem reaches_jobs {disk : FlashEnv} (hgrants : disk.Grants) {jobs : List Job}
    (hfits : forall job, job ∈ jobs -> job.Fits disk)
    (hapart : (jobs.map Job.region).Pairwise Region.Apart) {s : Session} (h : s.Waits) :
    Reaches disk s (jobs.flatMap Job.script) fun t =>
      t.Waits ∧ s.Wrote t (jobs.map Job.region) := by
  induction jobs generalizing s with
  | nil => exact Reaches.nil ⟨h, [], by simp, fun before => LaidOut.nil before⟩
  | cons job jobs ih =>
      rcases List.forall_mem_cons.mp hfits with ⟨hfirst, hrest⟩
      rw [List.map_cons] at hapart
      rcases List.pairwise_cons.mp hapart with ⟨hfar, hothers⟩
      rw [List.flatMap_cons]
      refine Reaches.append (reaches_job hgrants hfirst h) ?_
      intro t hmid
      rcases hmid with ⟨hwaits, hwrote⟩
      intro turns hlength hturns
      rcases ih hrest hothers hwaits turns hlength hturns with ⟨u, hrun, hend, hmore⟩
      exact ⟨u, hrun, hend, hwrote.cons hmore hfar⟩

/-- A host plugs the device in and flashes the images one after the other. -/
def hostScript (jobs : List Job) : List HostStep :=
  HostStep.plugs :: jobs.flatMap Job.script

theorem reaches_hostScript {disk : FlashEnv} (hgrants : disk.Grants) {jobs : List Job}
    (hfits : forall job, job ∈ jobs -> job.Fits disk)
    (hapart : (jobs.map Job.region).Pairwise Region.Apart) (varlist : List FastbootVar)
    (block : Mem) :
    Reaches disk (Session.fresh varlist block) (hostScript jobs) fun t =>
      forall before, LaidOut (jobs.map Job.region) before (applyAll t.written before) := by
  refine Reaches.cons trivial ?_
  intro turn hturn
  rcases Session.plugged hturn varlist block with ⟨s, hstep, hwaits, hnone⟩
  refine ⟨s, hstep, ?_⟩
  intro turns hlength hturns
  rcases reaches_jobs hgrants hfits hapart hwaits turns hlength hturns with
    ⟨t, hrun, -, ws, hwritten, hlaid⟩
  refine ⟨t, hrun, ?_⟩
  intro before
  rw [hwritten, hnone]
  exact hlaid before

def twoPartitions : FlashEnv :=
  { grantingEnv ⟨1, 1⟩ ⟨0, 512⟩ with
    arch := Arch.ia32
    partitionByLabel := fun label =>
      if label = [0x62, 0x6f, 0x6f, 0x74] then Except.ok (⟨1, 1⟩, ⟨0, 512⟩)
      else if label = [0x64, 0x61, 0x74, 0x61] then Except.ok (⟨2, 2⟩, ⟨0, 512⟩)
      else Except.error EfiStatus.notFound }

def twoJobs : List Job :=
  [{ label := ascii "data", image := HostImage.sparse mixedImage, part := ⟨2, 2⟩
     bio := ⟨0, 512⟩ },
    { label := ascii "boot", image := HostImage.raw [1, 2, 3, 4], part := ⟨1, 1⟩
      bio := ⟨0, 512⟩ }]

def plainTurn : Turn where
  answers := Answers.plain
  disk := twoPartitions
  pool := fun _ => 0

end Fastboot
end BootableUefi
