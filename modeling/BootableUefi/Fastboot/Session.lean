import BootableUefi.Fastboot.Responses
import BootableUefi.Flash.Outcome
import BootableUefi.Foundation.Files
import BootableUefi.Foundation.Traces

/-!
# A session of downloads and flashes

The device together with the disk it flashes and the memory the host downloads
to.  What `flash` returns is no longer a matter of the firmware alone: it is run
on the block that was downloaded.
-/

namespace BootableUefi
namespace Fastboot

open Firmware Foundation BootImage Flash

/-- `stra_to_str`; the pool may have no block for the result. -/
def straToStr (src : List UInt8) : Option (List UInt16) :=
  if src.all fun c => c ≤ 0x7F then some (src.map fun c => c.toUInt16) else none

/-- One call of `flash`, with what it did. -/
structure FlashRun where
  disk : FlashEnv
  image : ImageBuffer
  label : List UInt16
  ending : FlashEnd
  events : List FlashEvent

/-- What a host can know of its session. -/
inductive SessionFact where
  /-- A command was run after which the data in memory may be anything. -/
  | forgotten
  /-- A transfer has ended; one of the wrong length leaves nothing. -/
  | downloaded (data : List UInt8)
  | flashed (run : FlashRun)

structure Session where
  machine : Machine
  statics : FlashState
  /-- Memory from `addr` on. -/
  block : Mem
  trace : List SessionFact

structure SessionEvent where
  usb : UsbEvent
  disk : FlashEnv
  /-- Memory from `addr` on after a block has been allocated or freed. -/
  pool : Mem

namespace Session

variable (s : Session) (e : SessionEvent)

def fresh (varlist : List FastbootVar) (block : Mem) : Session where
  machine := Machine.fresh varlist
  statics := FlashState.fresh
  block := block
  trace := []

def command : Option (Answers × List UInt8) :=
  match e.usb with
  | UsbEvent.received a data =>
      if s.machine.fastbootState = FastbootStates.complete then some (a, data) else none
  | _ => none

/-- The label `flash` is called with, if it is called. -/
def flashLabel : Option (List UInt16) :=
  (s.command e).bind fun (a, data) =>
    match lookup data with
    | some (Command.flash, arg) => if a.labelPool then straToStr arg else none
    | _ => none

def image : ImageBuffer where
  mem := s.block
  size := s.machine.downloadSize

def flashes (label : List UInt16) : FlashEnd × FlashState :=
  flash e.disk s.image label s.statics

def status (other : EfiStatus) : EfiStatus :=
  match s.flashLabel e with
  | none => other
  | some label =>
      match (s.flashes e label).1 with
      | FlashEnd.returned status => status
      | FlashEnd.divideError => other

def usb : UsbEvent :=
  match e.usb with
  | UsbEvent.received a data =>
      UsbEvent.received
        { a with
          labelPool := a.labelPool && (lookup data).all fun found => (straToStr found.2).isSome
          status := s.status e a.status
          boot := { a.boot with image := s.block } } data
  | other => other

/-- The transfer lands in the block that `addr` points to. -/
def Lands : Prop :=
  s.machine.rxQueue.head?.map RxRequest.buffer =
    some (RxBuffer.downloadBuffer s.machine.addr)

instance : Decidable s.Lands :=
  inferInstanceAs (Decidable (_ = _))

/-- The session after an event in which `flash` is not called. -/
def goesOn (m : Machine) : Session :=
  let t := { s with machine := m }
  match e.usb with
  | UsbEvent.received _ data =>
      match s.machine.fastbootState with
      | FastbootStates.download =>
          { t with
            block := if s.Lands then (storeAt 0 data).apply s.block else s.block
            trace := s.trace ++ [SessionFact.downloaded
              (if data.length = s.machine.downloadSize then data else [])] }
      | FastbootStates.complete =>
          match lookup data with
          | some (Command.download, _) =>
              { t with block := e.pool, trace := s.trace ++ [SessionFact.forgotten] }
          | some (Command.boot, _) =>
              { t with block := e.pool, trace := s.trace ++ [SessionFact.forgotten] }
          | _ => t
      | _ => t
  | _ => t

/-- The session after a call of `flash`. -/
def flashed (label : List UInt16) (m : Machine) : Session :=
  let result := s.flashes e label
  { machine := if result.1 = FlashEnd.divideError then { s.machine with running := false } else m
    statics := result.2
    block := s.block
    trace := s.trace ++ [SessionFact.flashed
      { disk := e.disk, image := s.image, label := label, ending := result.1
        events := result.2.log.drop s.statics.log.length }] }

def step : Option Session :=
  (Fastboot.step s.machine (s.usb e)).map fun m =>
    match s.flashLabel e with
    | some label => s.flashed e label m
    | none => s.goesOn e m

end Session

/-!
# What the host has downloaded
-/

/-- The data in memory, as far as the host can know it. -/
def heldAfter (held : Option (List UInt8)) : SessionFact -> Option (List UInt8)
  | SessionFact.forgotten => none
  | SessionFact.downloaded data => some data
  | SessionFact.flashed _ => held

/-- Before the first download there is no data. -/
def heldBy (trace : List SessionFact) : Option (List UInt8) :=
  trace.foldl heldAfter (some [])

structure IsImage (data : List UInt8) (image : ImageBuffer) : Prop where
  size : image.size = data.length
  bytes : forall i, i < data.length -> image.mem i = memOf data i

/-- A flash is given what the host has downloaded, and does to the disk what it is for. -/
def FlashesHeld (past : List SessionFact) : SessionFact -> Prop
  | SessionFact.flashed run =>
      (forall data, heldBy past = some data -> IsImage data run.image) ∧
        FlashDone run.disk run.image run.label run.ending run.events
  | _ => True

/-!
# What an event does to the statics
-/

theorem strtoulLoop_lt (base : Nat) (text : List UInt8) {value : Nat} (h : value < 2 ^ 32) :
    strtoulLoop base text value < 2 ^ 32 := by
  induction text generalizing value with
  | nil => exact h
  | cons c cs ih =>
      unfold strtoulLoop
      split
      · exact h
      · exact ih (u32_lt _)

theorem strtoul_lt (text : List UInt8) (base : Nat) : strtoul text base < 2 ^ 32 := by
  unfold strtoul
  split <;> exact strtoulLoop_lt _ _ (by decide)

def NotReceiving (m : Machine) : Prop :=
  m.fastbootState ≠ FastbootStates.download

section States

variable {m : Machine} (a : Answers)

theorem notReceiving_fail (answer : AckAnswer) (reason : Reason) (m : Machine) :
    NotReceiving (fastbootFail answer reason m) := by
  rw [fastbootFail_eq]
  exact nofun

theorem notReceiving_okay (answer : AckAnswer) (reason : Reason) (m : Machine) :
    NotReceiving (fastbootOkay answer reason m) := by
  rw [fastbootOkay_eq]
  exact nofun

theorem notReceiving_reportStatus (called m : Machine) :
    NotReceiving (reportStatus a called m) := by
  unfold reportStatus
  split
  · split
    · exact notReceiving_fail _ _ called
    · exact notReceiving_okay _ _ called
  · exact notReceiving_fail _ _ m

theorem notReceiving_workerGetvarAll (h : NotReceiving m) (start : List FastbootVar) :
    NotReceiving (workerGetvarAll a start m) := by
  unfold workerGetvarAll
  split
  · exact notReceiving_okay _ _ _
  · unfold fastbootInfo
    rw [fastbootAck_eq]
    exact h

theorem notReceiving_unknownReason (h : NotReceiving m) : NotReceiving (unknownReason a m) := by
  unfold unknownReason
  split
  · exact notReceiving_fail _ _ m
  · exact h

theorem notReceiving_cmdBoot (h : NotReceiving m) : NotReceiving (cmdBoot a m) := by
  unfold cmdBoot
  dsimp only
  generalize hleft : (if a.boot.leaves = true then _ else _ : Machine) = left
  have hleft : NotReceiving left := by
    rw [← hleft]
    split
    · exact notReceiving_okay _ _ _
    · exact h
  split
  · exact notReceiving_fail _ _ _
  · exact hleft

theorem notReceiving_cmdGetvar (arg : List UInt8) (m : Machine) :
    NotReceiving (cmdGetvar arg a m) := by
  unfold cmdGetvar
  split
  · exact notReceiving_workerGetvarAll a (by exact nofun) _
  · split
    · exact notReceiving_okay _ _ m
    · exact notReceiving_okay _ _ m

theorem notReceiving_handle (h : NotReceiving m) (arg : List UInt8) {cmd : Command}
    (hcmd : cmd ≠ Command.download) : NotReceiving (cmd.handle arg a m) := by
  cases cmd with
  | erase => exact notReceiving_reportStatus a m m
  | boot => exact notReceiving_cmdBoot a h
  | download => exact absurd rfl hcmd
  | getvar => exact notReceiving_cmdGetvar a arg m
  | flash => exact notReceiving_reportStatus a _ m
  | reboot =>
      show NotReceiving (cmdReboot a m)
      unfold cmdReboot
      split <;> exact h

theorem sameDownload_handle (m : Machine) (arg : List UInt8) {cmd : Command}
    (hdownload : cmd ≠ Command.download) (hboot : cmd ≠ Command.boot) :
    (cmd.handle arg a m).download = m.download := by
  cases cmd with
  | erase => exact (sameDownload_rule.cmdErase a m).download
  | boot => exact absurd rfl hboot
  | download => exact absurd rfl hdownload
  | getvar => exact (sameDownload_rule.cmdGetvar arg a m).download
  | flash =>
      rcases sameDownload_rule.reportStatus a (m.note _) m with hentered | hrefused
      · exact hentered.download
      · exact hrefused.download
  | reboot => exact (sameDownload_rule.cmdReboot a m).download

end States

section Callbacks

variable {m : Machine} {a : Answers}

theorem processTx_download (m : Machine) (a : Answers) :
    (fastbootProcessTx a m).download = m.download := by
  unfold fastbootProcessTx
  split
  · exact (sameDownload_rule.workerGetvarAll a [] m).download
  · exact (sameDownload_usbRead _ _ _ m).download
  · rfl

theorem usbRead_state (epRxData : EfiStatus) (buffer : RxBuffer) (len : Nat) (m : Machine) :
    (usbRead epRxData buffer len m).2.fastbootState = m.fastbootState := by
  unfold usbRead
  split <;> rfl

theorem processTx_receiving (h : ¬ NotReceiving (fastbootProcessTx a m)) :
    fastbootProcessTx a m = m := by
  unfold fastbootProcessTx at h ⊢
  cases hstate : m.fastbootState with
  | getvar =>
      have hbefore : NotReceiving m := by
        unfold NotReceiving
        rw [hstate]
        exact nofun
      rw [hstate] at h
      exact absurd (notReceiving_workerGetvarAll a hbefore []) h
  | complete =>
      have hafter : NotReceiving (fastbootReadCommand a m) := by
        unfold NotReceiving fastbootReadCommand
        rw [usbRead_state, hstate]
        exact nofun
      rw [hstate] at h
      exact absurd hafter h
  | _ => rfl

theorem finishDownload_eq (a : Answers) (data : List UInt8) (m : Machine) :
    NotReceiving (finishDownload a data m) ∧
      (data.length = m.downloadSize -> (finishDownload a data m).downloadSize = m.downloadSize) ∧
      (data.length ≠ m.downloadSize -> (finishDownload a data m).downloadSize = 0) := by
  unfold finishDownload
  split
  · rename_i hlength
    refine ⟨notReceiving_okay _ _ m, ?_, fun hne => absurd hlength hne⟩
    intro _
    rw [fastbootOkay_eq]
    rfl
  · rename_i hlength
    have hnot := notReceiving_fail a.last (Reason.received data.length m.downloadSize) m
    exact ⟨hnot, fun heq => absurd heq hlength, fun _ => rfl⟩

/-- A download asks for the data where `addr` points, if it asks for it. -/
theorem cmdDownload_receiving (arg : List UInt8) (a : Answers) {m : Machine}
    (hrx : m.rxQueue = []) (h : ¬ NotReceiving (cmdDownload arg a m)) :
    forall request, request ∈ (cmdDownload arg a m).rxQueue ->
      request.buffer = RxBuffer.downloadBuffer (cmdDownload arg a m).addr := by
  rcases cmdDownload_cases arg a m with ⟨-, heq⟩ | ⟨-, -, heq⟩ | ⟨-, -, -, heq⟩ |
    ⟨-, -, hread, heq⟩
  · rw [heq] at h
    exact absurd (notReceiving_fail _ _ _) h
  · rw [heq] at h
    exact absurd (notReceiving_fail _ _ _) h
  · rw [heq] at h
    exact absurd (notReceiving_fail _ _ _) h
  · rw [heq]
    intro request hrequest
    unfold usbRead at hrequest ⊢
    rw [hread] at hrequest ⊢
    have hmem : request ∈ m.rxQueue ++ [({ buffer := RxBuffer.downloadBuffer (some m.heap.next)
                                           length := roundToPackets (strtoul arg 16) } :
                                          RxRequest)] := hrequest
    rw [hrx, List.nil_append, List.mem_singleton] at hmem
    rw [hmem]
    rfl

theorem cmdDownload_size (arg : List UInt8) (a : Answers) (m : Machine) :
    (cmdDownload arg a m).downloadSize = strtoul arg 16 := by
  rcases cmdDownload_cases arg a m with ⟨-, heq⟩ | ⟨-, -, heq⟩ | ⟨-, -, -, heq⟩ |
    ⟨-, -, -, heq⟩
  · rw [heq, fastbootFail_eq]
    rfl
  · rw [heq, fastbootFail_eq]
    rfl
  · rw [heq, fastbootFail_eq]
    rfl
  · rw [heq]
    exact congrArg Download.size (sameDownload_usbRead a.epRxData _ _
      ((m.announced (strtoul arg 16) a).withBlock (strtoul arg 16))).download

theorem unknownReason_same (h : ¬ NotReceiving (unknownReason a m)) : unknownReason a m = m := by
  unfold unknownReason at h ⊢
  split
  · rename_i hcond
    rw [if_pos hcond] at h
    exact absurd (notReceiving_fail _ _ m) h
  · rfl

end Callbacks

/-!
# The invariant of a session
-/

/-- The data in memory is what the host has sent, and the next transfer lands where it should. -/
structure Session.Good (s : Session) : Prop where
  orderly : Orderly s.machine
  size : s.machine.downloadSize < 2 ^ 32
  held : forall data, heldBy s.trace = some data -> IsImage data s.image
  receiving : ¬ NotReceiving s.machine -> forall request, request ∈ s.machine.rxQueue ->
    request.buffer = RxBuffer.downloadBuffer s.machine.addr
  trace : Respects FlashesHeld [] s.trace

section Invariant

variable {s t : Session} {e : SessionEvent} {m : Machine}

theorem Session.Good.of_download (h : s.Good) (horderly : Orderly m)
    (hdownload : m.download = s.machine.download)
    (hreceiving : ¬ NotReceiving m -> forall request, request ∈ m.rxQueue ->
      request.buffer = RxBuffer.downloadBuffer m.addr) :
    Session.Good { s with machine := m } where
  orderly := horderly
  size := by
    have hsize : m.downloadSize = s.machine.downloadSize := congrArg Download.size hdownload
    show m.downloadSize < _
    rw [hsize]
    exact h.size
  held := by
    intro data hdata
    have hsize : m.downloadSize = s.machine.downloadSize := congrArg Download.size hdownload
    have hheld := h.held data hdata
    exact ⟨hsize.trans hheld.size, hheld.bytes⟩
  receiving := hreceiving
  trace := h.trace

theorem heldBy_snoc (trace : List SessionFact) (fact : SessionFact) :
    heldBy (trace ++ [fact]) = heldAfter (heldBy trace) fact := by
  simp [heldBy]

theorem Session.Good.sent {a : Answers} (h : s.Good) (husb : e.usb = UsbEvent.sent a)
    (horderly : Orderly m) {rest : List Response}
    (heq : m = fastbootProcessTx a { s.machine with txQueue := rest }) :
    (s.goesOn e m).Good := by
  have hgoes : s.goesOn e m = { s with machine := m } := by
    unfold Session.goesOn
    rw [husb]
  rw [hgoes]
  apply h.of_download horderly
  · rw [heq, processTx_download]
    rfl
  · intro hreceiving
    rw [heq] at hreceiving ⊢
    have hsame := processTx_receiving hreceiving
    rw [hsame] at hreceiving ⊢
    exact h.receiving hreceiving

theorem Session.Good.transferred {a : Answers} {data : List UInt8} (h : s.Good)
    (husb : e.usb = UsbEvent.received a data)
    (hstate : s.machine.fastbootState = FastbootStates.download) (horderly : Orderly m)
    {request : RxRequest} {rest : List RxRequest} (hqueue : s.machine.rxQueue = request :: rest)
    {b : Answers} (heq : m = finishDownload b data
      (Machine.setState FastbootStates.command { s.machine with rxQueue := rest })) :
    (s.goesOn e m).Good := by
  have hlands : s.Lands := by
    have hbuffer := h.receiving (fun hnot => hnot hstate) request (by simp [hqueue])
    unfold Session.Lands
    rw [hqueue, ← hbuffer]
    rfl
  have hgoes : s.goesOn e m =
      { s with
        machine := m
        block := (storeAt 0 data).apply s.block
        trace := s.trace ++ [SessionFact.downloaded
          (if data.length = s.machine.downloadSize then data else [])] } := by
    unfold Session.goesOn
    rw [husb]
    dsimp only
    rw [hstate]
    dsimp only
    rw [if_pos hlands]
  rcases finishDownload_eq b data
    (Machine.setState FastbootStates.command { s.machine with rxQueue := rest }) with
    ⟨hnot, hwhole, hcut⟩
  rw [← heq] at hnot hwhole hcut
  have htrace := fun fact (hfact : FlashesHeld s.trace fact) =>
    respects_append.mpr ⟨h.trace, respects_singleton.mpr hfact⟩
  rw [hgoes]
  by_cases hlength : data.length = s.machine.downloadSize
  · have hsize : m.downloadSize = s.machine.downloadSize := hwhole hlength
    rw [if_pos hlength]
    refine ⟨horderly, ?_, ?_, fun hreceiving => absurd hnot hreceiving, htrace _ trivial⟩
    · show m.downloadSize < _
      rw [hsize]
      exact h.size
    · intro held hheld
      rw [heldBy_snoc] at hheld
      cases hheld
      refine ⟨hsize.trans hlength.symm, ?_⟩
      intro i hi
      have hbyte : (storeAt 0 data).apply s.block (0 + i) = memOf data i :=
        ByteWrite.apply_of_mem hi
      rwa [Nat.zero_add] at hbyte
  · -- Nothing is left of a transfer of the wrong length.
    have hsize : m.downloadSize = 0 := hcut hlength
    rw [if_neg hlength]
    refine ⟨horderly, ?_, ?_, fun hreceiving => absurd hnot hreceiving, htrace _ trivial⟩
    · show m.downloadSize < _
      rw [hsize]
      decide
    · intro held hheld
      rw [heldBy_snoc] at hheld
      cases hheld
      exact ⟨hsize, fun i hi => absurd hi (Nat.not_lt_zero i)⟩

theorem Session.Good.forget (h : s.Good) (horderly : Orderly m) (block : Mem)
    (hsize : m.downloadSize < 2 ^ 32)
    (hreceiving : ¬ NotReceiving m -> forall request, request ∈ m.rxQueue ->
      request.buffer = RxBuffer.downloadBuffer m.addr) :
    Session.Good { s with
      machine := m
      block := block
      trace := s.trace ++ [SessionFact.forgotten] } where
  orderly := horderly
  size := hsize
  held := by
    intro data hdata
    rw [heldBy_snoc] at hdata
    cases hdata
  receiving := hreceiving
  trace := respects_append.mpr ⟨h.trace, respects_singleton.mpr trivial⟩

theorem cmdBoot_size (a : Answers) (m : Machine) :
    (cmdBoot a m).downloadSize = m.downloadSize := by
  unfold cmdBoot
  dsimp only
  generalize hleft : (if a.boot.leaves = true then _ else _ : Machine) = left
  have hsize : left.downloadSize = m.downloadSize := by
    rw [← hleft]
    split
    · rw [fastbootOkay_eq]
      rfl
    · rfl
  split
  · rw [fastbootFail_eq]
    exact hsize
  · exact hsize

theorem unknownReason_size (a : Answers) (m : Machine) :
    (unknownReason a m).downloadSize = m.downloadSize :=
  congrArg Download.size (sameDownload_rule.unknownReason a m).download

theorem Session.Good.flashed (h : s.Good) (hsound : e.disk.Sound) (label : List UInt16)
    (horderly : Orderly m) (hdownload : m.download = s.machine.download)
    (hnot : NotReceiving m) : (s.flashed e label m).Good := by
  have hsize : s.image.size < 2 ^ 32 := h.size
  rcases flash_done hsound hsize label s.statics with ⟨events, hlog, hdone⟩
  have hevents : (s.flashes e label).2.log.drop s.statics.log.length = events := by
    unfold Session.flashes
    rw [hlog, List.drop_left]
  have hrun : FlashesHeld s.trace (SessionFact.flashed
      { disk := e.disk, image := s.image, label := label, ending := (s.flashes e label).1
        events := (s.flashes e label).2.log.drop s.statics.log.length }) := by
    refine ⟨h.held, ?_⟩
    rw [hevents]
    exact hdone
  have htrace := respects_append.mpr ⟨h.trace, respects_singleton.mpr hrun⟩
  unfold Session.flashed
  dsimp only
  split
  · refine ⟨⟨h.orderly.outstanding, h.orderly.closed, nofun⟩, h.size, ?_, h.receiving, htrace⟩
    intro data hdata
    rw [heldBy_snoc] at hdata
    exact h.held data hdata
  · have hgood := h.of_download horderly hdownload fun hreceiving => absurd hnot hreceiving
    refine ⟨horderly, hgood.size, ?_, hgood.receiving, htrace⟩
    intro data hdata
    rw [heldBy_snoc] at hdata
    exact hgood.held data hdata

theorem runCommand_keeps {a : Answers} {data : List UInt8} (hnot : NotReceiving m)
    (hother : forall cmd arg, lookup data = some (cmd, arg) ->
      cmd ≠ Command.download ∧ cmd ≠ Command.boot) :
    (runCommand a data m).download = m.download ∧ NotReceiving (runCommand a data m) := by
  unfold runCommand
  split
  · rename_i cmd arg hfound
    rcases hother cmd arg hfound with ⟨hdownload, hboot⟩
    constructor
    · rw [(sameDownload_rule.unknownReason a _).download]
      exact sameDownload_handle a m arg hdownload hboot
    · exact notReceiving_unknownReason a (notReceiving_handle a hnot arg hdownload)
  · exact ⟨(sameDownload_rule.fastbootFail _ _ m).download, notReceiving_fail _ _ m⟩

/-- The device when the handler of a command is called. -/
def Machine.entering (data : List UInt8) (rest : List RxRequest) (m : Machine) : Machine :=
  Machine.setState FastbootStates.command
    (Machine.note (FastbootEvent.command data) { m with rxQueue := rest })

theorem notReceiving_entering (data : List UInt8) (rest : List RxRequest) (m : Machine) :
    NotReceiving (m.entering data rest) :=
  nofun

theorem Session.flashLabel_some {label : List UInt16} (h : s.flashLabel e = some label) :
    exists a data arg, e.usb = UsbEvent.received a data ∧
      s.machine.fastbootState = FastbootStates.complete ∧
      lookup data = some (Command.flash, arg) ∧ straToStr arg = some label := by
  rcases Option.bind_eq_some_iff.mp h with ⟨⟨a, data⟩, hcommand, hlabel⟩
  have husb : e.usb = UsbEvent.received a data ∧
      s.machine.fastbootState = FastbootStates.complete := by
    unfold Session.command at hcommand
    split at hcommand
    · split at hcommand
      · rename_i hstate
        cases hcommand
        exact ⟨by assumption, hstate⟩
      · cases hcommand
    · cases hcommand
  dsimp only at hlabel
  split at hlabel
  · rename_i arg hfound
    split at hlabel
    · exact ⟨a, data, arg, husb.1, husb.2, hfound, hlabel⟩
    · cases hlabel
  · cases hlabel

theorem Session.Good.ran {a b : Answers} {data : List UInt8} (h : s.Good)
    (husb : e.usb = UsbEvent.received a data)
    (hstate : s.machine.fastbootState = FastbootStates.complete) (horderly : Orderly m)
    {request : RxRequest} {rest : List RxRequest} (hqueue : s.machine.rxQueue = request :: rest)
    (heq : m = runCommand b data (s.machine.entering data rest)) : (s.goesOn e m).Good := by
  have hrest : rest = [] := by
    have houtstanding := h.orderly.outstanding
    rw [hqueue, List.length_cons] at houtstanding
    exact List.length_eq_zero_iff.mp (by omega)
  have hnot := notReceiving_entering data rest s.machine
  unfold Session.goesOn
  rw [husb]
  dsimp only
  rw [hstate]
  dsimp only
  split
  · -- A download.
    rename_i arg hfound
    have hran : m = unknownReason b (cmdDownload arg b (s.machine.entering data rest)) := by
      rw [heq]
      unfold runCommand
      rw [hfound]
      rfl
    apply h.forget horderly
    · rw [hran, unknownReason_size, cmdDownload_size]
      exact strtoul_lt arg 16
    · intro hreceiving
      rw [hran] at hreceiving ⊢
      have hsame := unknownReason_same hreceiving
      rw [hsame] at hreceiving ⊢
      exact cmdDownload_receiving arg b hrest hreceiving
  · -- An image is started.
    rename_i arg hfound
    have hran : m = unknownReason b (cmdBoot b (s.machine.entering data rest)) := by
      rw [heq]
      unfold runCommand
      rw [hfound]
      rfl
    apply h.forget horderly
    · rw [hran, unknownReason_size, cmdBoot_size]
      exact h.size
    · intro hreceiving
      rw [hran] at hreceiving
      exact absurd (notReceiving_unknownReason b (notReceiving_cmdBoot b hnot)) hreceiving
  · rename_i hdownload hboot
    have hkeeps := runCommand_keeps (a := b) hnot (by
      intro cmd arg hfound
      constructor
      · rintro rfl
        exact hdownload arg hfound
      · rintro rfl
        exact hboot arg hfound)
    rw [← heq] at hkeeps
    exact h.of_download horderly hkeeps.1 fun hreceiving => absurd hkeeps.2 hreceiving

theorem Session.usb_received {b : Answers} {data : List UInt8}
    (h : s.usb e = UsbEvent.received b data) : exists a, e.usb = UsbEvent.received a data := by
  unfold Session.usb at h
  split at h
  · rename_i a data' heq
    cases h
    exact ⟨a, heq⟩
  · exact ⟨b, h⟩

theorem Session.usb_of_not_received (h : forall a data, s.usb e ≠ UsbEvent.received a data) :
    s.usb e = e.usb := by
  unfold Session.usb at h ⊢
  split
  · rename_i heq
    simp [heq] at h
  · rfl

theorem Session.Good.command (h : s.Good) (hsound : e.disk.Sound) {label : List UInt16}
    (hlabel : s.flashLabel e = some label) (hm : Fastboot.step s.machine (s.usb e) = some m)
    (horderly : Orderly m) : (s.flashed e label m).Good := by
  rcases Session.flashLabel_some hlabel with ⟨a, data, arg, husb, hstate, hfound, -⟩
  rcases step_cases hm with ⟨b, heq, -⟩ | ⟨b, data', request, rest, heq, hqueue, -, hran⟩ |
    ⟨b, response, rest, heq, -, -⟩
  · simp [Session.usb, husb] at heq
  · have hdata : data = data' := by
      rcases Session.usb_received heq with ⟨c, hc⟩
      rw [husb] at hc
      cases hc
      rfl
    have hrun : m = runCommand b data (s.machine.entering data rest) := by
      rw [hran, ← hdata]
      unfold fastbootProcessRx
      dsimp only
      rw [hstate]
      rfl
    have hkeeps := runCommand_keeps (a := b) (notReceiving_entering data rest s.machine) (by
      intro cmd arg' hcmd
      rw [hfound] at hcmd
      cases hcmd
      exact ⟨nofun, nofun⟩)
    rw [← hrun] at hkeeps
    exact h.flashed hsound label horderly hkeeps.1 hkeeps.2
  · simp [Session.usb, husb] at heq

theorem Session.Good.received {a b : Answers} {data : List UInt8} (h : s.Good)
    (husb : e.usb = UsbEvent.received a data) (horderly : Orderly m)
    {request : RxRequest} {rest : List RxRequest} (hqueue : s.machine.rxQueue = request :: rest)
    (heq : m = fastbootProcessRx b data { s.machine with rxQueue := rest }) :
    (s.goesOn e m).Good := by
  unfold fastbootProcessRx at heq
  dsimp only at heq
  split at heq
  · rename_i hstate
    exact h.transferred husb hstate horderly hqueue heq
  · rename_i hstate
    exact h.ran husb hstate horderly hqueue heq
  · -- The transfer is ignored.
    rename_i hdownload hcomplete
    have hgoes : s.goesOn e m = { s with machine := m } := by
      unfold Session.goesOn
      rw [husb]
      dsimp only
      split
      · rename_i hstate
        exact absurd hstate hdownload
      · rename_i hstate
        exact absurd hstate hcomplete
      · rfl
    rw [hgoes]
    apply h.of_download horderly
    · rw [heq]
      rfl
    · intro hreceiving
      rw [heq] at hreceiving
      exact absurd hdownload hreceiving

theorem Session.step_good (h : s.Good) (hstarted : forall a, e.usb ≠ UsbEvent.configured a)
    (honce : AnsweredOnce s.machine (s.usb e)) (hsound : e.disk.Sound)
    (hstep : s.step e = some t) : t.Good := by
  rcases Option.map_eq_some_iff.mp hstep with ⟨m, hm, ht⟩
  have hconfigured : forall a, s.usb e ≠ UsbEvent.configured a := by
    intro a heq
    rw [Session.usb_of_not_received (by simp [heq])] at heq
    exact hstarted a heq
  have horderly := step_orderly h.orderly hconfigured honce hm
  rw [← ht]
  cases hlabel : s.flashLabel e with
  | some label => exact h.command hsound hlabel hm horderly
  | none =>
      rcases step_cases hm with ⟨b, heq, -⟩ | ⟨b, data, request, rest, heq, hqueue, -, hran⟩ |
        ⟨b, response, rest, heq, hqueue, hran⟩
      · exact absurd heq (hconfigured b)
      · rcases Session.usb_received heq with ⟨a, husb⟩
        exact h.received husb horderly hqueue hran
      · have husb : e.usb = UsbEvent.sent b := by
          rw [← heq, Session.usb_of_not_received (by simp [heq])]
        exact h.sent husb horderly hran

end Invariant

/-!
# Whole sessions
-/

/-- The events that are answered once, with a disk whose partitions leave room. -/
def Session.Admits (s : Session) (e : SessionEvent) : Prop :=
  AnsweredOnce s.machine (s.usb e) ∧ e.disk.Sound

theorem Session.good_fresh (a : Answers) (varlist : List FastbootVar) (block : Mem) :
    Session.Good { Session.fresh varlist block with
      machine := fastbootStartCallback a (Machine.fresh varlist) } := by
  have hsize : (fastbootStartCallback a (Machine.fresh varlist)).downloadSize = 0 :=
    congrArg Download.size (sameDownload_usbRead a.epRxData RxBuffer.commandBuffer 64
      (Machine.setState FastbootStates.complete (Machine.fresh varlist))).download
  refine ⟨?_, ?_, ?_, ?_, respects_nil⟩
  · exact fastbootReadCommand_orderly a rfl rfl rfl Exchange.closedWith_nil
      (Exchange.noneOpen_nil.openWith 1)
  · show (fastbootStartCallback a (Machine.fresh varlist)).downloadSize < _
    rw [hsize]
    decide
  · intro data hdata
    cases hdata
    exact ⟨hsize, fun i hi => absurd hi (Nat.not_lt_zero i)⟩
  · intro hreceiving
    refine absurd ?_ hreceiving
    show (usbRead _ _ _ _).2.fastbootState ≠ _
    rw [usbRead_state]
    exact nofun

def SessionEvent.onTwoBlocks (usb : UsbEvent) : SessionEvent where
  usb := usb
  disk := twoBlocksEnv
  pool := fun _ => 0

theorem twoBlocksEnv_sound : twoBlocksEnv.Sound where
  error := by
    intro label status herror
    cases herror
  room := by
    intro label part bio hfound
    cases hfound
    decide

end Fastboot
end BootableUefi
