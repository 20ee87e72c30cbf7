import BootableUefi.Fastboot.HandlerRules

/-!
# Refused responses

`usb_write` returns the value of `EFI_ERROR`, and its callers look for a
negative one.  To say what follows, every function gets the list of responses it
hands to `EpTxData`, refused or not; the responses it queues are those that are
accepted.
-/

namespace BootableUefi
namespace Fastboot

open Firmware Foundation BootImage

/-- A call of `EpTxData`, and what it answers. -/
structure Sending where
  answer : AckAnswer
  response : Response

def Sending.refused (sending : Sending) : Bool :=
  efiError sending.answer.epTxData

def accepted (sendings : List Sending) : List Response :=
  sendings.flatMap fun sending => sending.answer.written sending.response

/-!
# The calls of each function
-/

/-- `fastboot_ack`. -/
def AckAnswer.sendings (answer : AckAnswer) (response : Response) : List Sending :=
  if answer.reasonBuilt then [{ answer := answer, response := response }] else []

def reportStatusSendings (a : Answers) : List Sending :=
  if a.labelPool then
    if efiError a.status then a.last.sendings (Response.fail (Reason.flashFailure a.status))
    else a.last.sendings (Response.okay Reason.empty)
  else
    a.last.sendings (Response.fail Reason.allocationError)

def cmdBootSendings (a : Answers) : List Sending :=
  (if a.boot.leaves then a.early.sendings (Response.okay Reason.empty) else []) ++
    match a.boot.start.1 with
    | LoadEnd.failed _ status => a.last.sendings (Response.fail (Reason.bootFailure status))
    | _ => []

def workerGetvarAllSendings (a : Answers) (start : List FastbootVar) (m : Machine) :
    List Sending :=
  match if start = [] then m.cursor else start with
  | [] => a.last.sendings (Response.okay Reason.empty)
  | var :: _ => a.last.sendings (Response.info (Reason.variable var))

def cmdGetvarSendings (arg : List UInt8) (a : Answers) (m : Machine) : List Sending :=
  if arg = ascii "all" then
    workerGetvarAllSendings a m.varlist m
  else
    match fastbootGetvar m.varlist arg with
    | some value => a.last.sendings (Response.okay (Reason.value value))
    | none => a.last.sendings (Response.okay Reason.empty)

def cmdDownloadSendings (arg : List UInt8) (a : Answers) : List Sending :=
  if maxDownloadSize < strtoul arg 16 then
    a.last.sendings (Response.fail Reason.dataTooLarge)
  else
    { answer := a.early, response := Response.data (strtoul arg 16) } ::
      if a.downloadPool then
        if efiError a.epRxData then a.last.sendings (Response.fail Reason.usbReceiveFailed)
        else []
      else
        a.last.sendings (Response.fail Reason.memoryAllocationFailure)

def Command.sendings (arg : List UInt8) (a : Answers) (m : Machine) : Command -> List Sending
  | erase => reportStatusSendings a
  | boot => cmdBootSendings a
  | download => cmdDownloadSendings arg a
  | getvar => cmdGetvarSendings arg a m
  | flash => reportStatusSendings a
  | reboot => []

def unknownReasonSendings (a : Answers) (m : Machine) : List Sending :=
  if m.fastbootState = FastbootStates.command ∧ m.running then
    a.last.sendings (Response.fail Reason.unknownReason)
  else
    []

def runCommandSendings (a : Answers) (data : List UInt8) (m : Machine) : List Sending :=
  match lookup data with
  | some (cmd, arg) => cmd.sendings arg a m ++ unknownReasonSendings a (cmd.handle arg a m)
  | none => a.last.sendings (Response.fail Reason.unknownCommand)

def finishDownloadSendings (a : Answers) (data : List UInt8) (m : Machine) : List Sending :=
  if data.length = m.downloadSize then
    a.last.sendings (Response.okay Reason.empty)
  else
    a.last.sendings (Response.fail (Reason.received data.length m.downloadSize))

def processRxSendings (a : Answers) (data : List UInt8) (m : Machine) : List Sending :=
  match m.fastbootState with
  | FastbootStates.download => finishDownloadSendings a data (m.setState FastbootStates.command)
  | FastbootStates.complete =>
      runCommandSendings a data
        ((m.note (FastbootEvent.command data)).setState FastbootStates.command)
  | _ => []

def processTxSendings (a : Answers) (m : Machine) : List Sending :=
  match m.fastbootState with
  | FastbootStates.getvar => workerGetvarAllSendings a [] m
  | _ => []

def sendings (m : Machine) : UsbEvent -> List Sending
  | UsbEvent.configured _ => []
  | UsbEvent.received a data => processRxSendings a data { m with rxQueue := m.rxQueue.tail }
  | UsbEvent.sent a => processTxSendings a m

/-!
# What is accepted is what is queued
-/

@[simp] theorem accepted_nil : accepted [] = [] := rfl

@[simp] theorem accepted_append (xs ys : List Sending) :
    accepted (xs ++ ys) = accepted xs ++ accepted ys := by
  simp [accepted]

@[simp] theorem accepted_cons (sending : Sending) (rest : List Sending) :
    accepted (sending :: rest) = sending.answer.written sending.response ++ accepted rest := by
  simp [accepted]

@[simp] theorem accepted_sendings (answer : AckAnswer) (response : Response) :
    accepted (answer.sendings response) = answer.queues response := by
  unfold AckAnswer.sendings AckAnswer.queues
  cases answer.reasonBuilt <;> simp

def Queues (calls : List Sending) (s t : Machine) : Prop :=
  t.txQueue = s.txQueue ++ accepted calls

section Queues

variable {s t u m : Machine}

theorem Queues.nil (h : t.txQueue = s.txQueue) : Queues [] s t := by
  rw [Queues, accepted_nil, List.append_nil, h]

theorem Queues.append {first second : List Sending} (hst : Queues first s t)
    (htu : Queues second t u) : Queues (first ++ second) s u := by
  rw [Queues, htu, hst, accepted_append, List.append_assoc]

theorem queues_fastbootFail (answer : AckAnswer) (reason : Reason) (m : Machine) :
    Queues (answer.sendings (Response.fail reason)) m (fastbootFail answer reason m) := by
  rw [fastbootFail_eq, Queues, accepted_sendings]
  rfl

theorem queues_fastbootOkay (answer : AckAnswer) (reason : Reason) (m : Machine) :
    Queues (answer.sendings (Response.okay reason)) m (fastbootOkay answer reason m) := by
  rw [fastbootOkay_eq, Queues, accepted_sendings]
  rfl

theorem queues_reportStatus (a : Answers) {called m : Machine}
    (hcalled : called.txQueue = m.txQueue) :
    Queues (reportStatusSendings a) m (reportStatus a called m) := by
  unfold reportStatus reportStatusSendings
  split
  · have hsame : Queues [] m called := Queues.nil hcalled
    split
    · exact hsame.append (queues_fastbootFail _ _ called)
    · exact hsame.append (queues_fastbootOkay _ _ called)
  · exact queues_fastbootFail _ _ m

theorem queues_workerGetvarAll (a : Answers) (start : List FastbootVar) (m : Machine) :
    Queues (workerGetvarAllSendings a start m) m (workerGetvarAll a start m) := by
  unfold workerGetvarAll workerGetvarAllSendings
  cases (if start = [] then m.cursor else start) with
  | nil => exact queues_fastbootOkay _ _ { m with cursor := [] }
  | cons var rest =>
      unfold fastbootInfo
      dsimp only
      rw [fastbootAck_eq, Queues, accepted_sendings]
      rfl

theorem queues_cmdGetvar (arg : List UInt8) (a : Answers) (m : Machine) :
    Queues (cmdGetvarSendings arg a m) m (cmdGetvar arg a m) := by
  unfold cmdGetvar cmdGetvarSendings
  split
  · exact queues_workerGetvarAll a m.varlist (m.setState FastbootStates.getvar)
  · cases fastbootGetvar m.varlist arg with
    | some value => exact queues_fastbootOkay _ _ m
    | none => exact queues_fastbootOkay _ _ m

theorem queues_cmdBoot (a : Answers) (m : Machine) :
    Queues (cmdBootSendings a) m (cmdBoot a m) := by
  unfold cmdBoot cmdBootSendings
  dsimp only
  generalize hentered : m.note (FastbootEvent.entered Consumer.boot m.download) = entered
  generalize hleft : (if a.boot.leaves = true then fastbootOkay a.early Reason.empty entered
    else entered) = left
  have hfirst : Queues
      (if a.boot.leaves = true then a.early.sendings (Response.okay Reason.empty) else [])
      m left := by
    rw [← hleft, ← hentered]
    split
    · exact queues_fastbootOkay _ _ (m.note _)
    · exact Queues.nil rfl
  apply hfirst.append
  cases a.boot.start.1 with
  | failed step status => exact queues_fastbootFail _ _ { left with heap := _ }
  | divideError => exact Queues.nil rfl
  | jumped kernelStart bootAddr => exact Queues.nil rfl

theorem usbRead_txQueue (epRxData : EfiStatus) (buffer : RxBuffer) (len : Nat) (m : Machine) :
    (usbRead epRxData buffer len m).2.txQueue = m.txQueue := by
  unfold usbRead
  split
  · rfl
  · rfl

theorem queues_announced (size : Nat) (a : Answers) (m : Machine) :
    Queues [{ answer := a.early, response := Response.data size }] m (m.announced size a) := by
  rw [Queues, accepted_cons, accepted_nil, List.append_nil]
  rfl

theorem queues_cmdDownload (arg : List UInt8) (a : Answers) (m : Machine) :
    Queues (cmdDownloadSendings arg a) m (cmdDownload arg a m) := by
  have hdata := queues_announced (strtoul arg 16) a m
  unfold cmdDownloadSendings
  rcases cmdDownload_cases arg a m with ⟨hlarge, h⟩ | ⟨hsize, hpool, h⟩ |
    ⟨hsize, hpool, hread, h⟩ | ⟨hsize, hpool, hread, h⟩
  · rw [if_pos hlarge, h]
    exact queues_fastbootFail _ _ { m with downloadSize := _ }
  · rw [if_neg (Nat.not_lt.mpr hsize), hpool, h]
    exact hdata.append (queues_fastbootFail _ _ { m.announced _ a with addr := none })
  · rw [if_neg (Nat.not_lt.mpr hsize), hpool, hread, h]
    exact hdata.append (queues_fastbootFail _ _ ((m.announced _ a).withBlock _))
  · rw [if_neg (Nat.not_lt.mpr hsize), hpool, hread, h]
    exact hdata.append (Queues.nil (usbRead_txQueue _ _ _ _))

theorem queues_handle (cmd : Command) (arg : List UInt8) (a : Answers) (m : Machine) :
    Queues (cmd.sendings arg a m) m (cmd.handle arg a m) := by
  cases cmd with
  | erase => exact queues_reportStatus a rfl
  | boot => exact queues_cmdBoot a m
  | download => exact queues_cmdDownload arg a m
  | getvar => exact queues_cmdGetvar arg a m
  | flash => exact queues_reportStatus a rfl
  | reboot =>
      apply Queues.nil
      show (cmdReboot a m).txQueue = m.txQueue
      unfold cmdReboot
      split
      · rfl
      · rfl

theorem queues_unknownReason (a : Answers) (m : Machine) :
    Queues (unknownReasonSendings a m) m (unknownReason a m) := by
  unfold unknownReason unknownReasonSendings
  split
  · exact queues_fastbootFail _ _ m
  · exact Queues.nil rfl

theorem queues_runCommand (a : Answers) (data : List UInt8) (m : Machine) :
    Queues (runCommandSendings a data m) m (runCommand a data m) := by
  unfold runCommand runCommandSendings
  cases lookup data with
  | none => exact queues_fastbootFail _ _ m
  | some found =>
      exact (queues_handle found.1 found.2 a m).append (queues_unknownReason a _)

theorem queues_finishDownload (a : Answers) (data : List UInt8) (m : Machine) :
    Queues (finishDownloadSendings a data m) m (finishDownload a data m) := by
  unfold finishDownload finishDownloadSendings
  split
  · exact queues_fastbootOkay _ _ m
  · exact queues_fastbootFail _ _ m

theorem queues_fastbootReadCommand (a : Answers) (m : Machine) :
    Queues [] m (fastbootReadCommand a m) :=
  Queues.nil (usbRead_txQueue _ _ _ m)

theorem queues_fastbootProcessRx (a : Answers) (data : List UInt8) (m : Machine) :
    Queues (processRxSendings a data m) m (fastbootProcessRx a data m) := by
  unfold fastbootProcessRx processRxSendings
  cases m.fastbootState with
  | download => exact queues_finishDownload a data (m.setState FastbootStates.command)
  | complete =>
      exact queues_runCommand a data
        ((m.note (FastbootEvent.command data)).setState FastbootStates.command)
  | offline => exact Queues.nil rfl
  | command => exact Queues.nil rfl
  | getvar => exact Queues.nil rfl
  | error => exact Queues.nil rfl

theorem queues_fastbootProcessTx (a : Answers) (m : Machine) :
    Queues (processTxSendings a m) m (fastbootProcessTx a m) := by
  unfold fastbootProcessTx processTxSendings
  cases m.fastbootState with
  | getvar => exact queues_workerGetvarAll a [] m
  | complete => exact queues_fastbootReadCommand a m
  | offline => exact Queues.nil rfl
  | command => exact Queues.nil rfl
  | download => exact Queues.nil rfl
  | error => exact Queues.nil rfl

end Queues

/-- The transfers that wait on the IN endpoint once the event has taken its own off. -/
def remainingTx (m : Machine) : UsbEvent -> List Response
  | UsbEvent.sent _ => m.txQueue.tail
  | _ => m.txQueue

theorem step_txQueue {m t : Machine} {event : UsbEvent} (hstep : step m event = some t) :
    t.txQueue = remainingTx m event ++ accepted (sendings m event) := by
  rcases step_cases hstep with ⟨a, rfl, rfl⟩ | ⟨a, data, request, rest, rfl, hqueue, -, rfl⟩ |
    ⟨a, response, rest, rfl, hqueue, rfl⟩
  · exact queues_fastbootReadCommand a (m.setState FastbootStates.complete)
  · have hqueued := queues_fastbootProcessRx a data { m with rxQueue := rest }
    unfold sendings
    rw [hqueue]
    exact hqueued
  · have hqueued := queues_fastbootProcessTx a { m with txQueue := rest }
    unfold remainingTx
    rw [hqueue]
    exact hqueued

/-!
# The state after an event
-/

def NoError (s t : Machine) : Prop :=
  s.fastbootState ≠ FastbootStates.error -> t.fastbootState ≠ FastbootStates.error

theorem noError_rule : DataRule NoError where
  refl := fun _ h => h
  trans := fun _ _ _ hst htu h => htu (hst h)
  queued := fun _ _ h => h
  state := fun _ _ hstate _ => hstate
  cursor := fun _ _ h => h
  stops := fun _ h => h
  data := fun _ _ _ _ h => h
  entered := fun _ _ _ h => h
  command := fun _ _ h => h

theorem usbRead_noError (epRxData : EfiStatus) (buffer : RxBuffer) (len : Nat) (m : Machine) :
    NoError m (usbRead epRxData buffer len m).2 := by
  unfold usbRead
  split
  · exact fun h => h
  · exact fun h => h

theorem cmdDownload_noError (arg : List UInt8) (a : Answers) (m : Machine) :
    NoError m (cmdDownload arg a m) := by
  rcases cmdDownload_cases arg a m with ⟨-, h⟩ | ⟨-, -, h⟩ | ⟨-, -, -, h⟩ | ⟨-, -, -, h⟩
  · rw [h]
    exact noError_rule.fastbootFail a.last _ { m with downloadSize := strtoul arg 16 }
  · rw [h]
    exact noError_rule.fastbootFail a.last _
      { m.announced (strtoul arg 16) a with addr := none }
  · rw [h]
    exact noError_rule.fastbootFail a.last _
      ((m.announced (strtoul arg 16) a).withBlock (strtoul arg 16))
  · rw [h]
    exact noError_rule.state _ _ (by decide)

theorem handle_noError (cmd : Command) (arg : List UInt8) (a : Answers) (m : Machine) :
    NoError m (cmd.handle arg a m) := by
  cases cmd with
  | erase => exact noError_rule.cmdErase a m
  | boot => exact noError_rule.cmdBoot a m
  | download => exact cmdDownload_noError arg a m
  | getvar => exact noError_rule.cmdGetvar arg a m
  | flash => exact noError_rule.cmdFlash a m
  | reboot => exact noError_rule.cmdReboot a m

theorem runCommand_noError (a : Answers) (data : List UInt8) (m : Machine) :
    NoError m (runCommand a data m) := by
  unfold runCommand
  cases lookup data with
  | none => exact noError_rule.fastbootFail _ _ m
  | some found =>
      have hhandled := handle_noError found.1 found.2 a m
      exact noError_rule.trans _ _ _ hhandled (noError_rule.unknownReason a _)

theorem fastbootProcessRx_noError (a : Answers) (data : List UInt8) (m : Machine) :
    NoError m (fastbootProcessRx a data m) := by
  have hcommand := noError_rule.command m data
  unfold fastbootProcessRx
  split
  · exact noError_rule.trans _ _ _ (noError_rule.state m _ (by decide))
      (noError_rule.finishDownload a data _)
  · exact noError_rule.trans _ _ _ hcommand
      (noError_rule.trans _ _ _ (noError_rule.state _ _ (by decide)) (runCommand_noError a data _))
  · exact noError_rule.refl m

theorem fastbootProcessTx_noError (a : Answers) (m : Machine) :
    NoError m (fastbootProcessTx a m) := by
  unfold fastbootProcessTx
  split
  · exact noError_rule.workerGetvarAll a [] m
  · exact usbRead_noError _ _ _ m
  · exact noError_rule.refl m

theorem step_noError {m t : Machine} {event : UsbEvent} (hstep : step m event = some t) :
    NoError m t := by
  rcases step_cases hstep with ⟨a, rfl, rfl⟩ | ⟨a, data, request, rest, rfl, -, -, rfl⟩ |
    ⟨a, response, rest, rfl, -, rfl⟩
  · have hstate : NoError m (m.setState FastbootStates.complete) :=
      noError_rule.state m _ (by decide)
    exact noError_rule.trans _ _ _ hstate (usbRead_noError _ _ _ _)
  · exact fastbootProcessRx_noError a data { m with rxQueue := rest }
  · exact fastbootProcessTx_noError a { m with txQueue := rest }

/-- `STATE_ERROR` is never entered, whatever the firmware and the host do. -/
theorem run_noError {s t : Machine} {events : List UsbEvent}
    (hrun : runFrom step s events = some t) : NoError s t := by
  induction events generalizing s with
  | nil =>
      cases hrun
      exact noError_rule.refl _
  | cons event events ih =>
      rcases runFrom_cons_eq_some.mp hrun with ⟨u, hstep, hrest⟩
      exact noError_rule.trans _ _ _ (step_noError hstep) (ih hrest)

theorem sendings_of_error {m : Machine} (h : m.fastbootState = FastbootStates.error)
    (event : UsbEvent) : sendings m event = [] := by
  cases event with
  | configured a => rfl
  | received a data => simp [sendings, processRxSendings, h]
  | sent a => simp [sendings, processTxSendings, h]

/-- A refused response ends in the error state. -/
def ReportsRefusals (m : Machine) (event : UsbEvent) (t : Machine) : Prop :=
  (exists sending, sending ∈ sendings m event ∧ sending.refused = true) ->
    t.fastbootState = FastbootStates.error

def AcceptsAll (m : Machine) (event : UsbEvent) : Prop :=
  forall sending, sending ∈ sendings m event -> sending.refused = false

/--
The handlers report refused responses exactly when none is refused, for every
event whose callback returns.
-/
theorem reportsRefusals_iff {m t : Machine} {event : UsbEvent} (hstep : step m event = some t)
    (_hreturns : t.running = true) :
    ReportsRefusals m event t <-> AcceptsAll m event := by
  constructor
  · intro hreports sending hmem
    have hstate : m.fastbootState ≠ FastbootStates.error := by
      intro herror
      rw [sendings_of_error herror] at hmem
      cases hmem
    by_contra hrefused
    rw [Bool.not_eq_false] at hrefused
    exact step_noError hstep hstate (hreports ⟨sending, hmem, hrefused⟩)
  · intro haccepts hrefusal
    rcases hrefusal with ⟨sending, hmem, hrefused⟩
    rw [haccepts sending hmem] at hrefused
    cases hrefused

def refusedAnswers : Answers :=
  { Answers.plain with
    last := { reasonBuilt := true, responseBuilt := true, epTxData := EfiStatus.deviceError } }

def eraseRefused : UsbEvent :=
  UsbEvent.received refusedAnswers (ascii "erase:data")

theorem reportsRefusals_iff_of_erase :
    exists t, step waitingDevice eraseRefused = some t ∧ t.running = true ∧
      (ReportsRefusals waitingDevice eraseRefused t <-> AcceptsAll waitingDevice eraseRefused) :=
  ⟨_, rfl, rfl, reportsRefusals_iff rfl rfl⟩

/-- The OKAY of an erase command is refused, and the device goes on to the next command. -/
theorem refused_okay_completes :
    exists t, step waitingDevice eraseRefused = some t ∧ t.running = true ∧
      (sendings waitingDevice eraseRefused).map (fun sending => (sending.response, sending.refused)) =
        [(Response.okay Reason.empty, true)] ∧
      t.fastbootState = FastbootStates.complete ∧
      ¬ ReportsRefusals waitingDevice eraseRefused t := by
  have hstate : (fastbootProcessRx refusedAnswers (ascii "erase:data")
      { waitingDevice with rxQueue := [] }).fastbootState = FastbootStates.complete := by
    decide
  refine ⟨_, rfl, rfl, by decide, hstate, ?_⟩
  intro hreports
  have herror := hreports ⟨_, List.mem_singleton_self _, rfl⟩
  rw [hstate] at herror
  cases herror

end Fastboot
end BootableUefi
