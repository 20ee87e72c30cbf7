import BootableUefi.Fastboot.Download
import BootableUefi.Foundation.Exchanges

/-!
# One response for each command

The next command is read when a response has been sent and the state is
complete, whichever response it was.  That keeps one request outstanding, and
gives every command one OKAY or FAIL, as long as no handler answers after DATA
or after OKAY, and the data of a download arrives after DATA has been sent.
-/

namespace BootableUefi
namespace Fastboot

open Firmware Foundation BootImage

/-- From a command to the next read of one, with OKAY and FAIL counted. -/
def commandExchange : Exchange FastbootEvent where
  opens
    | FastbootEvent.command _ => true
    | _ => false
  closes
    | FastbootEvent.receives request => request.buffer = RxBuffer.commandBuffer
    | _ => false
  counts
    | FastbootEvent.queued response => response.isTerminal
    | _ => false

def AckAnswer.sends (answer : AckAnswer) : Bool :=
  answer.reasonBuilt && !efiError answer.epTxData

/-- What is queued is a buffer that could not be printed to. -/
def AckAnswer.sendsBlank (answer : AckAnswer) : Bool :=
  answer.sends && !answer.responseBuilt

/-- What is looked up is answered once. -/
def CommandAnsweredOnce (m : Machine) (a : Answers) : Option (Command × List UInt8) -> Prop
  | some (Command.download, arg) =>
      if maxDownloadSize < strtoul arg 16 then
        a.last.sendsBlank = false
      else
        (a.downloadPool = true ∧ efiError a.epRxData = false) ∨
          (efiError a.early.epTxData = true ∧ a.last.sendsBlank = false)
  | some (Command.boot, _) =>
      a.boot.Returns ->
        ((a.boot.leaves = true -> a.early.sends = false) ∧ a.last.sendsBlank = false) ∨
          (a.boot.leaves = true ∧ a.early.sendsBlank = false ∧ a.last.sends = false)
  | some (Command.getvar, arg) =>
      (arg = ascii "all" ∧ m.varlist ≠ []) ∨ a.last.sendsBlank = false
  | some (Command.reboot, _) => a.resets = true ∨ a.last.sendsBlank = false
  | some (Command.erase, _) => a.last.sendsBlank = false
  | some (Command.flash, _) => a.last.sendsBlank = false
  | none => a.last.sendsBlank = false

/-- The events after which no command is answered twice, or not at all. -/
def AnsweredOnce (m : Machine) : UsbEvent -> Prop
  | UsbEvent.configured _ => True
  | UsbEvent.received a data =>
      (m.fastbootState = FastbootStates.download ->
          m.txQueue = [] ∧ a.last.sendsBlank = false) ∧
        (m.fastbootState = FastbootStates.complete -> CommandAnsweredOnce m a (lookup data))
  | UsbEvent.sent a =>
      m.fastbootState = FastbootStates.getvar -> m.cursor = [] -> a.last.sendsBlank = false

instance (m : Machine) (a : Answers) : forall found, Decidable (CommandAnsweredOnce m a found)
  | some (Command.erase, _) => inferInstanceAs (Decidable (a.last.sendsBlank = false))
  | some (Command.boot, _) =>
      inferInstanceAs (Decidable (a.boot.Returns ->
        ((a.boot.leaves = true -> a.early.sends = false) ∧ a.last.sendsBlank = false) ∨
          (a.boot.leaves = true ∧ a.early.sendsBlank = false ∧ a.last.sends = false)))
  | some (Command.download, arg) =>
      inferInstanceAs (Decidable (if maxDownloadSize < strtoul arg 16 then _ else _ ∨ _))
  | some (Command.getvar, _) => inferInstanceAs (Decidable (_ ∨ _))
  | some (Command.flash, _) => inferInstanceAs (Decidable (a.last.sendsBlank = false))
  | some (Command.reboot, _) => inferInstanceAs (Decidable (_ ∨ _))
  | none => inferInstanceAs (Decidable (a.last.sendsBlank = false))

instance (m : Machine) : forall event, Decidable (AnsweredOnce m event)
  | UsbEvent.configured _ => isTrue trivial
  | UsbEvent.received _ _ => inferInstanceAs (Decidable (_ ∧ _))
  | UsbEvent.sent a =>
      inferInstanceAs (Decidable (m.fastbootState = FastbootStates.getvar -> m.cursor = [] ->
        a.last.sendsBlank = false))

/-!
# The phases of an exchange
-/

/-- Where the device stands between two events. -/
inductive Phase (m : Machine) : Prop where
  | waiting (hstate : m.fastbootState = FastbootStates.complete) (htx : m.txQueue = [])
      (hnone : commandExchange.NoneOpen m.trace)
  | answered (response : Response) (hstate : m.fastbootState = FastbootStates.complete)
      (htx : m.txQueue = [response]) (hrx : m.rxQueue = [])
      (hopen : commandExchange.OpenWith 1 m.trace)
  /-- Nothing is queued, and nothing happens any more. -/
  | silent (hstate : m.fastbootState ≠ FastbootStates.command) (htx : m.txQueue = [])
      (hrx : m.rxQueue = [])
  | listing (hstate : m.fastbootState = FastbootStates.getvar) (htx : m.txQueue.length ≤ 1)
      (hrx : m.rxQueue = []) (hopen : commandExchange.OpenWith 0 m.trace)
  | receiving (hstate : m.fastbootState = FastbootStates.download)
      (htx : m.txQueue.length ≤ 1) (hopen : commandExchange.OpenWith 0 m.trace)

/-- At most one request is outstanding, and every command has been answered once. -/
structure Orderly (m : Machine) : Prop where
  outstanding : m.rxQueue.length ≤ 1
  closed : commandExchange.ClosedWith 1 m.trace
  phase : m.running = true -> Phase m

/-- A command has been received and nothing has been queued since. -/
structure Unanswered (m : Machine) : Prop where
  rxQueue : m.rxQueue = []
  txQueue : m.txQueue = []
  closed : commandExchange.ClosedWith 1 m.trace
  opened : commandExchange.OpenWith 0 m.trace

/-- At most one response has been queued since a command, and it is no answer. -/
structure Announced (m : Machine) : Prop where
  rxQueue : m.rxQueue = []
  txQueue : m.txQueue.length ≤ 1
  closed : commandExchange.ClosedWith 1 m.trace
  opened : commandExchange.OpenWith 0 m.trace

/-!
# What is queued
-/

section Queued

variable {answer : AckAnswer} {response : Response} {m : Machine}

theorem AckAnswer.queues_of_not_sends (h : answer.sends = false) :
    answer.queues response = [] := by
  unfold AckAnswer.sends at h
  unfold AckAnswer.queues AckAnswer.written
  cases hreason : answer.reasonBuilt with
  | false => rfl
  | true =>
      have htx : efiError answer.epTxData = true := by
        simpa [hreason] using h
      simp [htx]

theorem AckAnswer.queues_cases (h : answer.sendsBlank = false) :
    answer.queues response = [] ∨ answer.queues response = [response] := by
  cases hsends : answer.sends with
  | false => exact Or.inl (AckAnswer.queues_of_not_sends hsends)
  | true =>
      right
      have hbuilt : answer.responseBuilt = true := by
        simpa [AckAnswer.sendsBlank, hsends] using h
      have hboth : answer.reasonBuilt = true ∧ efiError answer.epTxData = false := by
        simpa [AckAnswer.sends] using hsends
      simp [AckAnswer.queues, AckAnswer.written, hbuilt, hboth.1, hboth.2]

theorem AckAnswer.written_bounds (answer : AckAnswer) (h : response.isTerminal = false) :
    (answer.written response).length ≤ 1 ∧
      (answer.written response).countP Response.isTerminal = 0 := by
  unfold AckAnswer.written
  split
  · exact ⟨Nat.zero_le 1, rfl⟩
  · split
    · exact ⟨Nat.le_refl 1, by simp [h]⟩
    · exact ⟨Nat.le_refl 1, rfl⟩

theorem AckAnswer.queues_bounds (answer : AckAnswer) (h : response.isTerminal = false) :
    (answer.queues response).length ≤ 1 ∧
      (answer.queues response).countP Response.isTerminal = 0 := by
  unfold AckAnswer.queues
  split
  · exact answer.written_bounds h
  · exact ⟨Nat.zero_le 1, rfl⟩

theorem inside_queued (responses : List Response) :
    forall event, event ∈ responses.map FastbootEvent.queued -> commandExchange.Inside event := by
  intro event hmem
  rcases List.mem_map.mp hmem with ⟨response, -, rfl⟩
  exact ⟨rfl, rfl⟩

theorem countP_queued (responses : List Response) :
    (responses.map FastbootEvent.queued).countP commandExchange.counts =
      responses.countP Response.isTerminal := by
  rw [List.countP_map]
  rfl

theorem openWith_withQueued {n : Nat} (h : commandExchange.OpenWith n m.trace)
    (responses : List Response) :
    commandExchange.OpenWith (n + responses.countP Response.isTerminal)
      (m.withQueued responses).trace := by
  rw [← countP_queued]
  exact h.append (inside_queued responses)

theorem closedWith_withQueued (h : commandExchange.ClosedWith 1 m.trace)
    (responses : List Response) :
    commandExchange.ClosedWith 1 (m.withQueued responses).trace :=
  h.append (inside_queued responses)

end Queued

/-!
# The handlers
-/

section Handlers

variable {s t m : Machine} {a : Answers}

theorem Phase.not_command (h : Phase m) : m.fastbootState ≠ FastbootStates.command := by
  intro hcommand
  cases h with
  | waiting hstate => cases hstate.symm.trans hcommand
  | answered _ hstate => cases hstate.symm.trans hcommand
  | silent hstate => exact hstate hcommand
  | listing hstate => cases hstate.symm.trans hcommand
  | receiving hstate => cases hstate.symm.trans hcommand

theorem Unanswered.of_eq (h : Unanswered s) (hrx : t.rxQueue = s.rxQueue)
    (htx : t.txQueue = s.txQueue) (htrace : t.trace = s.trace) : Unanswered t where
  rxQueue := hrx.trans h.rxQueue
  txQueue := htx.trans h.txQueue
  closed := by
    rw [htrace]
    exact h.closed
  opened := by
    rw [htrace]
    exact h.opened

theorem Unanswered.enter (h : Unanswered m) (consumer : Consumer) (d : Download) :
    Unanswered (m.note (FastbootEvent.entered consumer d)) where
  rxQueue := h.rxQueue
  txQueue := h.txQueue
  closed := h.closed.snoc_of_not_closes rfl
  opened := h.opened.snoc rfl

theorem Unanswered.answer (h : Unanswered m) {answer : AckAnswer} {response : Response}
    (hterminal : response.isTerminal = true) (hprinted : answer.sendsBlank = false) :
    Orderly ((m.withQueued (answer.queues response)).setState FastbootStates.complete) where
  outstanding := by
    show m.rxQueue.length ≤ 1
    rw [h.rxQueue]
    exact Nat.zero_le 1
  closed := closedWith_withQueued h.closed _
  phase := by
    intro _
    have htx : (m.withQueued (answer.queues response)).txQueue = answer.queues response := by
      show m.txQueue ++ _ = _
      rw [h.txQueue, List.nil_append]
    rcases AckAnswer.queues_cases hprinted with hqueues | hqueues
    · exact Phase.silent (fun hstate => nomatch hstate) (htx.trans hqueues) h.rxQueue
    · have hopen := openWith_withQueued h.opened (answer.queues response)
      have hone : (answer.queues response).countP Response.isTerminal = 1 := by
        rw [hqueues, List.countP_singleton, if_pos hterminal]
      rw [hone] at hopen
      exact Phase.answered response rfl (htx.trans hqueues) h.rxQueue hopen

theorem Unanswered.fail (h : Unanswered m) {answer : AckAnswer} (reason : Reason)
    (hprinted : answer.sendsBlank = false) : Orderly (fastbootFail answer reason m) := by
  rw [fastbootFail_eq]
  exact h.answer rfl hprinted

theorem Unanswered.okay (h : Unanswered m) {answer : AckAnswer} (reason : Reason)
    (hprinted : answer.sendsBlank = false) : Orderly (fastbootOkay answer reason m) := by
  rw [fastbootOkay_eq]
  exact h.answer rfl hprinted

theorem Unanswered.announce (h : Unanswered m) {responses : List Response}
    (hlength : responses.length ≤ 1) (hcount : responses.countP Response.isTerminal = 0) :
    Announced (m.withQueued responses) where
  rxQueue := h.rxQueue
  txQueue := by
    show (m.txQueue ++ responses).length ≤ 1
    rw [h.txQueue, List.nil_append]
    exact hlength
  closed := closedWith_withQueued h.closed responses
  opened := by
    have hopen := openWith_withQueued h.opened responses
    rw [hcount] at hopen
    exact hopen

theorem Announced.listing (h : Announced m) (hstate : m.fastbootState = FastbootStates.getvar) :
    Orderly m where
  outstanding := by
    rw [h.rxQueue]
    exact Nat.zero_le 1
  closed := h.closed
  phase := fun _ => Phase.listing hstate h.txQueue h.rxQueue h.opened

theorem Announced.receiving (h : Announced m) (buffer : Option Nat) (length : Nat) :
    Orderly (Machine.setState FastbootStates.download
      { m.note (FastbootEvent.receives ⟨RxBuffer.downloadBuffer buffer, length⟩) with
        rxQueue := m.rxQueue ++ [⟨RxBuffer.downloadBuffer buffer, length⟩] }) where
  outstanding := by
    show (m.rxQueue ++ [_]).length ≤ 1
    rw [h.rxQueue]
    exact Nat.le_refl 1
  closed := h.closed.snoc_of_not_closes rfl
  phase := fun _ => Phase.receiving rfl h.txQueue (h.opened.snoc rfl)

theorem Orderly.unknownReason (h : Orderly m) (a : Answers) :
    Orderly (unknownReason a m) := by
  unfold Fastboot.unknownReason
  split
  · rename_i hcommand
    exact absurd hcommand.1 (h.phase hcommand.2).not_command
  · exact h

theorem Unanswered.reportStatus (h : Unanswered m) {called : Machine}
    (hcalled : Unanswered called) (hprinted : a.last.sendsBlank = false) :
    Orderly (reportStatus a called m) := by
  unfold Fastboot.reportStatus
  split
  · split
    · exact hcalled.fail _ hprinted
    · exact hcalled.okay _ hprinted
  · exact h.fail _ hprinted

theorem Unanswered.workerGetvarAll (h : Unanswered m)
    (hstate : m.fastbootState = FastbootStates.getvar) {start : List FastbootVar}
    (hlast : (if start = [] then m.cursor else start) = [] -> a.last.sendsBlank = false) :
    Orderly (workerGetvarAll a start m) := by
  unfold Fastboot.workerGetvarAll
  split
  · rename_i hend
    have hcursor : Unanswered { m with cursor := [] } := h.of_eq rfl rfl rfl
    exact hcursor.okay _ (hlast hend)
  · rename_i var rest _
    have hmoved : Unanswered { m with cursor := rest } := h.of_eq rfl rfl rfl
    have hbounds := @AckAnswer.queues_bounds (Response.info (Reason.variable var)) a.last rfl
    unfold fastbootInfo
    rw [fastbootAck_eq]
    exact (hmoved.announce hbounds.1 hbounds.2).listing hstate

theorem Unanswered.cmdGetvar (h : Unanswered m) (arg : List UInt8)
    (hlast : (arg = ascii "all" ∧ m.varlist ≠ []) ∨ a.last.sendsBlank = false) :
    Orderly (cmdGetvar arg a m) := by
  unfold Fastboot.cmdGetvar
  split
  · have hlisted : Unanswered (m.setState FastbootStates.getvar) := h.of_eq rfl rfl rfl
    apply hlisted.workerGetvarAll rfl
    intro hend
    rcases hlast with ⟨-, hvars⟩ | hprinted
    · rw [if_neg hvars] at hend
      exact absurd hend hvars
    · exact hprinted
  · rename_i hall
    have hprinted : a.last.sendsBlank = false :=
      hlast.resolve_left fun hboth => hall hboth.1
    split
    · exact h.okay _ hprinted
    · exact h.okay _ hprinted

theorem Unanswered.stopped (h : Unanswered m) (hstopped : m.running ≠ true) : Orderly m where
  outstanding := by
    rw [h.rxQueue]
    exact Nat.zero_le 1
  closed := h.closed
  phase := fun hrunning => absurd hrunning hstopped

theorem Unanswered.cmdReboot (h : Unanswered m)
    (hstate : m.fastbootState = FastbootStates.command)
    (hlast : a.resets = true ∨ a.last.sendsBlank = false) :
    Orderly (unknownReason a (cmdReboot a m)) := by
  unfold Fastboot.cmdReboot
  split
  · have hreset : Unanswered { m with running := false } := h.of_eq rfl rfl rfl
    exact (hreset.stopped Bool.false_ne_true).unknownReason a
  · rename_i hresets
    unfold Fastboot.unknownReason
    split
    · exact h.fail _ (hlast.resolve_left hresets)
    · rename_i hnot
      exact h.stopped fun hrunning => hnot ⟨hstate, hrunning⟩

theorem Unanswered.withQueued_nil (h : Unanswered m) : Unanswered (m.withQueued []) :=
  h.of_eq rfl (List.append_nil _) (List.append_nil _)

theorem Unanswered.write_of_error (h : Unanswered m) {answer : AckAnswer} {response : Response}
    (herror : efiError answer.epTxData = true) :
    Unanswered (m.withQueued (answer.written response)) := by
  unfold AckAnswer.written
  rw [if_pos herror]
  exact h.withQueued_nil

theorem Unanswered.okay_of_not_sends (h : Unanswered m) {answer : AckAnswer} (reason : Reason)
    (hsends : answer.sends = false) : Unanswered (fastbootOkay answer reason m) := by
  rw [fastbootOkay_eq, AckAnswer.queues_of_not_sends hsends]
  exact h.withQueued_nil.of_eq rfl rfl rfl

theorem Orderly.fail_of_not_sends (h : Orderly m) {answer : AckAnswer} (reason : Reason)
    (hstate : m.fastbootState = FastbootStates.complete) (hsends : answer.sends = false) :
    Orderly (fastbootFail answer reason m) := by
  have hsame : fastbootFail answer reason m = m := by
    rw [fastbootFail_eq, AckAnswer.queues_of_not_sends hsends]
    simp [Machine.withQueued, Machine.setState, ← hstate]
  rw [hsame]
  exact h

/-- Whether or not `boot_ok` is called, nothing is read and no exchange is closed. -/
theorem Unanswered.okay_if (h : Unanswered m) (cond : Bool) (answer : AckAnswer)
    (reason : Reason) :
    (if cond = true then fastbootOkay answer reason m else m).rxQueue = [] ∧
      commandExchange.ClosedWith 1
        (if cond = true then fastbootOkay answer reason m else m).trace := by
  cases cond with
  | true =>
      rw [if_pos rfl, fastbootOkay_eq]
      exact ⟨h.rxQueue, closedWith_withQueued h.closed _⟩
  | false => exact ⟨h.rxQueue, h.closed⟩

theorem Unanswered.cmdBoot (h : Unanswered m)
    (honce : a.boot.Returns ->
      ((a.boot.leaves = true -> a.early.sends = false) ∧ a.last.sendsBlank = false) ∨
        (a.boot.leaves = true ∧ a.early.sendsBlank = false ∧ a.last.sends = false)) :
    Orderly (cmdBoot a m) := by
  have hentered := h.enter Consumer.boot m.download
  unfold Fastboot.cmdBoot
  dsimp only
  generalize m.note (FastbootEvent.entered Consumer.boot m.download) = entered at hentered ⊢
  generalize hleft : (if a.boot.leaves = true then fastbootOkay a.early Reason.empty entered
    else entered) = left
  split
  · rename_i step status hend
    generalize (if a.boot.frees = true then left.heap.free left.addr else left.heap) = heap
    rcases honce ⟨step, status, hend⟩ with ⟨hearly, hlast⟩ | ⟨hleaves, hearly, hlast⟩
    · -- The hook is not called, or cannot queue its OKAY.
      have hopen : Unanswered left := by
        rw [← hleft]
        split
        · rename_i hleaves
          exact hentered.okay_of_not_sends _ (hearly hleaves)
        · exact hentered
      have hfreed : Unanswered { left with heap := heap } := hopen.of_eq rfl rfl rfl
      exact hfreed.fail _ hlast
    · -- The OKAY of the hook is the answer.
      rw [if_pos hleaves] at hleft
      have hmoved : Unanswered { entered with heap := heap } := hentered.of_eq rfl rfl rfl
      have hanswered := hmoved.okay Reason.empty hearly
      have hsame : fastbootOkay a.early Reason.empty { entered with heap := heap } =
          { left with heap := heap } := by
        rw [← hleft, fastbootOkay_eq, fastbootOkay_eq]
        rfl
      rw [hsame] at hanswered
      have hstate : left.fastbootState = FastbootStates.complete := by
        rw [← hleft]
        rfl
      exact hanswered.fail_of_not_sends _ hstate hlast
  · -- The firmware is left, or has crashed.
    have hkept := hentered.okay_if a.boot.leaves a.early Reason.empty
    rw [hleft] at hkept
    constructor
    · show left.rxQueue.length ≤ 1
      rw [hkept.1]
      exact Nat.zero_le 1
    · exact hkept.2
    · intro hrunning
      cases hrunning

theorem Unanswered.announced (h : Unanswered m) (size : Nat) (a : Answers) :
    Announced (m.announced size a) := by
  have hsized : Unanswered { m with downloadSize := size } := h.of_eq rfl rfl rfl
  have hbounds := @AckAnswer.written_bounds (Response.data size) a.early rfl
  exact hsized.announce hbounds.1 hbounds.2

theorem Unanswered.announced_of_error (h : Unanswered m) (size : Nat) {a : Answers}
    (herror : efiError a.early.epTxData = true) : Unanswered (m.announced size a) := by
  have hsized : Unanswered { m with downloadSize := size } := h.of_eq rfl rfl rfl
  exact hsized.write_of_error herror

theorem Unanswered.cmdDownload (h : Unanswered m) {arg : List UInt8}
    (honce : if maxDownloadSize < strtoul arg 16 then
        a.last.sendsBlank = false
      else
        (a.downloadPool = true ∧ efiError a.epRxData = false) ∨
          (efiError a.early.epTxData = true ∧ a.last.sendsBlank = false)) :
    Orderly (cmdDownload arg a m) := by
  rcases cmdDownload_cases arg a m with ⟨hlarge, heq⟩ | ⟨hsmall, hpool, heq⟩ |
    ⟨hsmall, hpool, hrefused, heq⟩ | ⟨hsmall, hpool, haccepted, heq⟩
  · rw [if_pos hlarge] at honce
    have hsized : Unanswered { m with downloadSize := strtoul arg 16 } := h.of_eq rfl rfl rfl
    rw [heq]
    exact hsized.fail _ honce
  · rw [if_neg (by omega)] at honce
    rcases honce with ⟨hhas, -⟩ | ⟨herror, hprinted⟩
    · rw [hpool] at hhas
      cases hhas
    · have hopen := h.announced_of_error (strtoul arg 16) herror
      have hcleared : Unanswered { m.announced (strtoul arg 16) a with addr := none } :=
        hopen.of_eq rfl rfl rfl
      rw [heq]
      exact hcleared.fail _ hprinted
  · rw [if_neg (by omega)] at honce
    rcases honce with ⟨-, haccepts⟩ | ⟨herror, hprinted⟩
    · rw [hrefused] at haccepts
      cases haccepts
    · have hopen := h.announced_of_error (strtoul arg 16) herror
      have hheld : Unanswered ((m.announced (strtoul arg 16) a).withBlock (strtoul arg 16)) :=
        hopen.of_eq rfl rfl rfl
      rw [heq]
      exact hheld.fail _ hprinted
  · -- The data is read after DATA.
    have hannounced := h.announced (strtoul arg 16) a
    have hheld : Announced ((m.announced (strtoul arg 16) a).withBlock (strtoul arg 16)) :=
      ⟨hannounced.rxQueue, hannounced.txQueue, hannounced.closed, hannounced.opened⟩
    rw [heq]
    unfold usbRead
    rw [if_neg (by simp [haccepted])]
    exact hheld.receiving _ _

end Handlers

/-!
# The callbacks
-/

section Callbacks

variable {m t : Machine}

theorem Unanswered.runCommand (h : Unanswered m) {a : Answers} {data : List UInt8}
    (hstate : m.fastbootState = FastbootStates.command)
    (honce : CommandAnsweredOnce m a (lookup data)) : Orderly (runCommand a data m) := by
  unfold Fastboot.runCommand
  generalize lookup data = found at honce
  cases found with
  | none => exact h.fail _ honce
  | some found =>
      rcases found with ⟨cmd, arg⟩
      cases cmd with
      | erase => exact (h.reportStatus h honce).unknownReason a
      | boot => exact (h.cmdBoot honce).unknownReason a
      | download => exact (h.cmdDownload honce).unknownReason a
      | getvar => exact (h.cmdGetvar arg honce).unknownReason a
      | flash =>
          have hentered := h.enter Consumer.flash m.download
          exact (h.reportStatus hentered honce).unknownReason a
      | reboot => exact h.cmdReboot hstate honce

theorem Unanswered.finishDownload (h : Unanswered m) {a : Answers} (data : List UInt8)
    (hprinted : a.last.sendsBlank = false) : Orderly (finishDownload a data m) := by
  unfold Fastboot.finishDownload
  split
  · exact h.okay _ hprinted
  · have hreset : Unanswered { m with downloadSize := 0, heap := m.heap.free m.addr } :=
      h.of_eq rfl rfl rfl
    have hfailed := hreset.fail (Reason.received data.length m.downloadSize) hprinted
    rw [fastbootFail_eq] at hfailed ⊢
    exact hfailed

theorem fastbootReadCommand_orderly (a : Answers)
    (hstate : m.fastbootState = FastbootStates.complete) (htx : m.txQueue = [])
    (hrx : m.rxQueue = []) (hclosed : commandExchange.ClosedWith 1 m.trace)
    (hopen : commandExchange.OpenWith 1 m.trace) : Orderly (fastbootReadCommand a m) := by
  unfold fastbootReadCommand usbRead
  split
  · constructor
    · show m.rxQueue.length ≤ 1
      rw [hrx]
      exact Nat.zero_le 1
    · exact hclosed
    · intro _
      apply Phase.silent _ htx hrx
      intro hcommand
      cases hstate.symm.trans hcommand
  · constructor
    · show (m.rxQueue ++ [_]).length ≤ 1
      rw [hrx]
      exact Nat.le_refl 1
    · exact hclosed.snoc hopen
    · intro _
      exact Phase.waiting hstate htx (Exchange.noneOpen_snoc rfl rfl)

theorem fastbootProcessRx_orderly (h : Orderly m) {a : Answers} {data : List UInt8}
    {request : RxRequest} {rest : List RxRequest} (hqueue : m.rxQueue = request :: rest)
    (hrunning : m.running = true) (honce : AnsweredOnce m (UsbEvent.received a data)) :
    Orderly (fastbootProcessRx a data { m with rxQueue := rest }) := by
  have hrest : rest = [] := by
    have houtstanding := h.outstanding
    rw [hqueue, List.length_cons] at houtstanding
    exact List.length_eq_zero_iff.mp (by omega)
  have hnonempty : m.rxQueue ≠ [] := by
    rw [hqueue]
    exact List.cons_ne_nil request rest
  unfold fastbootProcessRx
  cases h.phase hrunning with
  | waiting hstate htx hnone =>
      simp only [hstate]
      have hopen : Unanswered (Machine.setState FastbootStates.command
          (Machine.note (FastbootEvent.command data) { m with rxQueue := rest })) :=
        ⟨hrest, htx, h.closed.snoc_of_not_closes rfl, hnone.start⟩
      exact hopen.runCommand rfl (honce.2 hstate)
  | answered _ _ _ hrx => exact absurd hrx hnonempty
  | silent _ _ hrx => exact absurd hrx hnonempty
  | listing _ _ hrx => exact absurd hrx hnonempty
  | receiving hstate htx hopen =>
      simp only [hstate]
      have hsent := honce.1 hstate
      have hopen : Unanswered (Machine.setState FastbootStates.command
          { m with rxQueue := rest }) :=
        ⟨hrest, hsent.1, h.closed, hopen⟩
      exact hopen.finishDownload data hsent.2

theorem fastbootProcessTx_orderly (h : Orderly m) {a : Answers} {response : Response}
    {rest : List Response} (hqueue : m.txQueue = response :: rest)
    (hrunning : m.running = true) (honce : AnsweredOnce m (UsbEvent.sent a)) :
    Orderly (fastbootProcessTx a { m with txQueue := rest }) := by
  have hlast : m.txQueue.length ≤ 1 -> rest = [] := by
    intro hlength
    rw [hqueue, List.length_cons] at hlength
    exact List.length_eq_zero_iff.mp (by omega)
  have hnonempty : m.txQueue ≠ [] := by
    rw [hqueue]
    exact List.cons_ne_nil response rest
  unfold fastbootProcessTx
  cases h.phase hrunning with
  | waiting _ htx => exact absurd htx hnonempty
  | answered last hstate htx hrx hopen =>
      simp only [hstate]
      have hrest : rest = [] := hlast (Nat.le_of_eq (congrArg List.length htx))
      exact fastbootReadCommand_orderly a rfl hrest hrx h.closed hopen
  | silent _ htx => exact absurd htx hnonempty
  | listing hstate htx hrx hopen =>
      simp only [hstate]
      have hopen : Unanswered { m with
          fastbootState := FastbootStates.getvar
          txQueue := rest } := ⟨hrx, hlast htx, h.closed, hopen⟩
      apply hopen.workerGetvarAll rfl
      intro hend
      exact honce hstate hend
  | receiving hstate htx hopen =>
      simp only [hstate]
      have hrest : rest.length ≤ 1 := by
        rw [hlast htx]
        exact Nat.zero_le 1
      exact ⟨h.outstanding, h.closed, fun _ => Phase.receiving rfl hrest hopen⟩

theorem step_orderly {event : UsbEvent} (h : Orderly m)
    (hstarted : forall a, event ≠ UsbEvent.configured a) (honce : AnsweredOnce m event)
    (hstep : step m event = some t) : Orderly t := by
  have hrunning := running_of_step hstep
  rcases step_cases hstep with ⟨a, rfl, -⟩ | ⟨a, data, request, rest, rfl, hqueue, -, rfl⟩ |
    ⟨a, response, rest, rfl, hqueue, rfl⟩
  · exact absurd rfl (hstarted a)
  · exact fastbootProcessRx_orderly h hqueue hrunning honce
  · exact fastbootProcessTx_orderly h hqueue hrunning honce

end Callbacks

/-!
# Whole runs
-/

/--
After one start, in a run that keeps commands answered once, at most one
request is outstanding, and exactly one OKAY or FAIL is queued from a command
to the next read of one.
-/
theorem command_answered_once_run {varlist : List FastbootVar} {a : Answers}
    {events : List UsbEvent} {m : Machine}
    (hstarted : forall b, UsbEvent.configured b ∉ events)
    (honce : AllSteps AnsweredOnce step (Machine.fresh varlist)
      (UsbEvent.configured a :: events))
    (hrun : runFrom step (Machine.fresh varlist) (UsbEvent.configured a :: events) = some m) :
    m.rxQueue.length ≤ 1 ∧ commandExchange.ClosedWith 1 m.trace := by
  rcases runFrom_cons_eq_some.mp hrun with ⟨first, hfirst, hrest⟩
  have hstart : Orderly first := by
    cases hfirst
    exact fastbootReadCommand_orderly a rfl rfl rfl Exchange.closedWith_nil
      (Exchange.noneOpen_nil.openWith 1)
  have hguard := (honce.2 first hfirst).and_of_forall_mem
    (p := fun event => forall b, event ≠ UsbEvent.configured b) (by
      intro event hmem b heq
      exact hstarted b (heq ▸ hmem))
  have hend : Orderly m :=
    invariant_of_allSteps (fun _ _ _ h hg hstep => step_orderly h hg.2 hg.1 hstep)
      hstart hguard hrest
  exact ⟨hend.outstanding, hend.closed⟩

def listThenDownload : List UsbEvent :=
  [UsbEvent.received Answers.plain (ascii "getvar:all"),
    UsbEvent.sent Answers.plain, UsbEvent.sent Answers.plain,
    UsbEvent.received Answers.plain (ascii "download:2"), UsbEvent.sent Answers.plain,
    UsbEvent.received Answers.plain [1, 2], UsbEvent.sent Answers.plain]

def oneVariable : List FastbootVar :=
  [{ name := ascii "product", value := ascii "x" }]

theorem command_answered_once_run_of_listing :
    exists m, runFrom step (Machine.fresh oneVariable)
        (UsbEvent.configured Answers.plain :: listThenDownload) = some m ∧
      m.trace.countP commandExchange.opens = 2 ∧
      m.rxQueue.length ≤ 1 ∧ commandExchange.ClosedWith 1 m.trace := by
  have hrun : ((runFrom step (Machine.fresh oneVariable)
      (UsbEvent.configured Answers.plain :: listThenDownload)).map fun m =>
        m.trace.countP commandExchange.opens) = some 2 := by
    decide +kernel
  have honce : AllSteps AnsweredOnce step (Machine.fresh oneVariable)
      (UsbEvent.configured Answers.plain :: listThenDownload) := by
    decide +kernel
  have hstarted : forall b, UsbEvent.configured b ∉ listThenDownload := by
    intro b hmem
    simp [listThenDownload] at hmem
  rcases Option.map_eq_some_iff.mp hrun with ⟨m, hm, hcommands⟩
  exact ⟨m, hm, hcommands, command_answered_once_run hstarted honce hm⟩

/-- A download that finds no memory, and then two commands. -/
def downloadRefused : List UsbEvent :=
  [UsbEvent.received { Answers.plain with downloadPool := false } (ascii "download:10"),
    UsbEvent.sent Answers.plain, UsbEvent.sent Answers.plain,
    UsbEvent.received Answers.plain (ascii "erase:a"),
    UsbEvent.received Answers.plain (ascii "erase:b"),
    UsbEvent.sent Answers.plain, UsbEvent.sent Answers.plain]

/-- DATA and FAIL are both sent, and each of them has the next command read. -/
theorem command_read_twice :
    exists events : List UsbEvent, (forall b, UsbEvent.configured b ∉ events) ∧
      exists m, runFrom step (Machine.fresh [])
          (UsbEvent.configured Answers.plain :: events) = some m ∧
        ¬ m.rxQueue.length ≤ 1 ∧ ¬ commandExchange.ClosedWith 1 m.trace := by
  let read : FastbootEvent := FastbootEvent.receives ⟨RxBuffer.commandBuffer, 512⟩
  have hrun : ((runFrom step (Machine.fresh [])
      (UsbEvent.configured Answers.plain :: downloadRefused)).map fun m =>
        (m.rxQueue.length, m.trace.drop 6)) =
        some (2, [FastbootEvent.command (ascii "erase:a"),
          FastbootEvent.queued (Response.okay Reason.empty),
          FastbootEvent.command (ascii "erase:b"),
          FastbootEvent.queued (Response.okay Reason.empty), read, read]) := by
    decide +kernel
  rcases Option.map_eq_some_iff.mp hrun with ⟨m, hm, hboth⟩
  rcases Prod.mk.inj hboth with ⟨hrx, htrace⟩
  refine ⟨downloadRefused, ?_, m, hm, ?_, ?_⟩
  · intro b hmem
    simp [downloadRefused] at hmem
  · rw [hrx]
    decide
  · intro hclosed
    have hsplit : m.trace = m.trace.take 6 ++ m.trace.drop 6 :=
      (List.take_append_drop 6 m.trace).symm
    rw [htrace] at hsplit
    -- Two responses are queued between the first of the commands and the next read.
    have htwo := hclosed (m.trace.take 6) (FastbootEvent.command (ascii "erase:a"))
      [FastbootEvent.queued (Response.okay Reason.empty),
        FastbootEvent.command (ascii "erase:b"),
        FastbootEvent.queued (Response.okay Reason.empty)]
      read [read] hsplit rfl rfl (by decide)
    cases htwo

end Fastboot
end BootableUefi
