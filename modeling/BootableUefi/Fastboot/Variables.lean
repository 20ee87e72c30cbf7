import BootableUefi.Fastboot.HandlerRules

/-!
# The variables and their listing

`fastboot_publish` puts a variable in front of the list, unless it is too long or
there is no memory for it.  The listing of all of them sends one response for each
response that has been sent, and keeps its place in a static variable.
-/

namespace BootableUefi
namespace Fastboot

open Firmware Foundation BootImage

def maxVariableLength : Nat :=
  128

/-- A call of `fastboot_publish`, and whether there is memory for the variable. -/
structure Publish where
  name : List UInt8
  value : List UInt8
  alloc : Bool

def Publish.var (call : Publish) : FastbootVar where
  name := call.name
  value := call.value

def fastbootPublish (call : Publish) (varlist : List FastbootVar) : List FastbootVar :=
  let namelen := call.name.length + 1
  let valuelen := call.value.length + 1
  if maxVariableLength < namelen ∨ maxVariableLength < valuelen then varlist
  else if call.alloc then call.var :: varlist
  else varlist

def published (calls : List Publish) : List FastbootVar :=
  calls.foldl (fun varlist call => fastbootPublish call varlist) []

/-- Neither too long, nor without memory. -/
def Publish.accepted (call : Publish) : Bool :=
  call.name.length < maxVariableLength && call.value.length < maxVariableLength && call.alloc

/-- The value of the last accepted call with the name. -/
def lastAccepted (calls : List Publish) (name : List UInt8) : Option (List UInt8) :=
  ((calls.filter fun call => call.accepted && call.name = name).getLast?).map Publish.value

def acceptedVars (calls : List Publish) : List FastbootVar :=
  ((calls.filter Publish.accepted).map Publish.var).reverse

theorem Publish.accepted_iff (call : Publish) :
    call.accepted = true <-> ¬ (maxVariableLength < call.name.length + 1 ∨
      maxVariableLength < call.value.length + 1) ∧ call.alloc = true := by
  unfold Publish.accepted
  rw [Bool.and_eq_true, Bool.and_eq_true, decide_eq_true_iff, decide_eq_true_iff, not_or,
    Nat.not_lt, Nat.not_lt, Nat.succ_le_iff, Nat.succ_le_iff]

theorem fastbootPublish_eq (call : Publish) (varlist : List FastbootVar) :
    fastbootPublish call varlist = if call.accepted then call.var :: varlist else varlist := by
  unfold fastbootPublish
  dsimp only
  by_cases hlong : maxVariableLength < call.name.length + 1 ∨
      maxVariableLength < call.value.length + 1
  · rw [if_pos hlong, if_neg fun h => (call.accepted_iff.mp h).1 hlong]
  · have halloc : call.alloc = call.accepted :=
      Bool.eq_iff_iff.mpr
        ⟨fun h => call.accepted_iff.mpr ⟨hlong, h⟩, fun h => (call.accepted_iff.mp h).2⟩
    rw [if_neg hlong, halloc]

theorem published_append (calls : List Publish) (call : Publish) :
    published (calls ++ [call]) = fastbootPublish call (published calls) :=
  List.foldl_append

theorem foldl_fastbootPublish (calls : List Publish) (varlist : List FastbootVar) :
    calls.foldl (fun varlist call => fastbootPublish call varlist) varlist
      = acceptedVars calls ++ varlist := by
  induction calls using List.reverseRecOn with
  | nil => rfl
  | append_singleton calls call ih =>
      rw [List.foldl_append, ih]
      change fastbootPublish call (acceptedVars calls ++ varlist) = _
      rw [fastbootPublish_eq]
      unfold acceptedVars
      cases haccepted : call.accepted with
      | false => simp [haccepted]
      | true => simp [haccepted]

theorem published_eq (calls : List Publish) : published calls = acceptedVars calls :=
  (foldl_fastbootPublish calls []).trans (List.append_nil _)

theorem fastbootGetvar_published (calls : List Publish) (name : List UInt8) :
    fastbootGetvar (published calls) name = lastAccepted calls name := by
  induction calls using List.reverseRecOn with
  | nil => rfl
  | append_singleton calls call ih =>
      rw [published_append, fastbootPublish_eq]
      unfold lastAccepted at ih ⊢
      rw [List.filter_append]
      cases haccepted : call.accepted with
      | false =>
          rw [if_neg Bool.false_ne_true, ih]
          simp [haccepted]
      | true =>
          rw [if_pos rfl]
          by_cases hname : call.name = name
          · simp [fastbootGetvar, haccepted, hname, Publish.var]
          · have hskip : fastbootGetvar (call.var :: published calls) name
                = fastbootGetvar (published calls) name := by
              unfold fastbootGetvar
              rw [List.find?_cons_of_neg]
              rw [decide_eq_true_iff]
              exact hname
            rw [hskip, ih]
            simp [haccepted, hname]

/-!
# The static variable stays in the list
-/

/-- The list of variables, and where the listing is in it. -/
def Machine.variables (m : Machine) : List FastbootVar × List FastbootVar :=
  (m.varlist, m.cursor)

section Variables

variable (a : Answers) (m : Machine)

theorem variables_fastbootFail (answer : AckAnswer) (reason : Reason) :
    (fastbootFail answer reason m).variables = m.variables := by
  rw [fastbootFail_eq]
  rfl

theorem variables_fastbootOkay (answer : AckAnswer) (reason : Reason) :
    (fastbootOkay answer reason m).variables = m.variables := by
  rw [fastbootOkay_eq]
  rfl

theorem variables_usbRead (epRxData : EfiStatus) (buffer : RxBuffer) (len : Nat) :
    (usbRead epRxData buffer len m).2.variables = m.variables := by
  unfold usbRead
  split
  · rfl
  · rfl

theorem variables_reportStatus {called : Machine} (hcalled : called.variables = m.variables) :
    (reportStatus a called m).variables = m.variables := by
  unfold reportStatus
  split
  · split
    · exact (variables_fastbootFail called _ _).trans hcalled
    · exact (variables_fastbootOkay called _ _).trans hcalled
  · exact variables_fastbootFail m _ _

theorem variables_cmdBoot : (cmdBoot a m).variables = m.variables := by
  unfold cmdBoot
  dsimp only
  generalize hleft : (if a.boot.leaves = true then _ else _ : Machine) = left
  have hsame : left.variables = m.variables := by
    rw [← hleft]
    split
    · exact variables_fastbootOkay _ _ _
    · rfl
  split
  · rw [variables_fastbootFail]
    exact hsame
  · exact hsame

theorem variables_cmdDownload (arg : List UInt8) :
    (cmdDownload arg a m).variables = m.variables := by
  rcases cmdDownload_cases arg a m with ⟨-, heq⟩ | ⟨-, -, heq⟩ | ⟨-, -, -, heq⟩ |
    ⟨-, -, -, heq⟩
  · rw [heq, variables_fastbootFail]
    rfl
  · rw [heq, variables_fastbootFail]
    rfl
  · rw [heq, variables_fastbootFail]
    rfl
  · rw [heq]
    exact variables_usbRead _ _ _ _

theorem variables_unknownReason : (unknownReason a m).variables = m.variables := by
  unfold unknownReason
  split
  · exact variables_fastbootFail m _ _
  · rfl

theorem variables_finishDownload (data : List UInt8) :
    (finishDownload a data m).variables = m.variables := by
  unfold finishDownload
  split
  · exact variables_fastbootOkay m _ _
  · exact variables_fastbootFail m _ _

end Variables

/-- The listing is at a place in the list that was published. -/
structure ListsFrom (varlist : List FastbootVar) (m : Machine) : Prop where
  list : m.varlist = varlist
  cursor : m.cursor <:+ varlist

section ListsFrom

variable {varlist : List FastbootVar} {m : Machine}

theorem ListsFrom.of_variables (h : ListsFrom varlist m) {t : Machine}
    (ht : t.variables = m.variables) : ListsFrom varlist t where
  list := (congrArg Prod.fst ht).trans h.list
  cursor := by
    have hcursor : t.cursor = m.cursor := congrArg Prod.snd ht
    rw [hcursor]
    exact h.cursor

theorem workerGetvarAll_listsFrom (h : ListsFrom varlist m) (a : Answers)
    {start : List FastbootVar} (hstart : start <:+ varlist) :
    ListsFrom varlist (workerGetvarAll a start m) := by
  have hplace : (if start = [] then m.cursor else start) <:+ varlist := by
    split
    · exact h.cursor
    · exact hstart
  unfold workerGetvarAll
  split
  · rw [fastbootOkay_eq]
    exact ⟨h.list, List.nil_suffix⟩
  · rename_i var rest hrest
    rw [hrest] at hplace
    unfold fastbootInfo
    rw [fastbootAck_eq]
    exact ⟨h.list, (List.suffix_cons var rest).trans hplace⟩

theorem cmdGetvar_listsFrom (h : ListsFrom varlist m) (arg : List UInt8) (a : Answers) :
    ListsFrom varlist (cmdGetvar arg a m) := by
  unfold cmdGetvar
  split
  · have hstate : ListsFrom varlist (m.setState FastbootStates.getvar) := ⟨h.list, h.cursor⟩
    have hlist : m.varlist <:+ varlist := by
      rw [h.list]
    exact workerGetvarAll_listsFrom hstate a hlist
  · split
    · exact h.of_variables (variables_fastbootOkay m _ _)
    · exact h.of_variables (variables_fastbootOkay m _ _)

theorem handle_listsFrom (h : ListsFrom varlist m) (cmd : Command) (arg : List UInt8)
    (a : Answers) : ListsFrom varlist (cmd.handle arg a m) := by
  cases cmd with
  | erase => exact h.of_variables (variables_reportStatus a m rfl)
  | boot => exact h.of_variables (variables_cmdBoot a m)
  | download => exact h.of_variables (variables_cmdDownload a m arg)
  | getvar => exact cmdGetvar_listsFrom h arg a
  | flash => exact h.of_variables (variables_reportStatus a m rfl)
  | reboot =>
      change ListsFrom varlist (cmdReboot a m)
      unfold cmdReboot
      split
      · exact ⟨h.list, h.cursor⟩
      · exact h

theorem step_listsFrom {t : Machine} {event : UsbEvent} (h : ListsFrom varlist m)
    (hstep : step m event = some t) : ListsFrom varlist t := by
  rcases step_cases hstep with ⟨a, rfl, rfl⟩ | ⟨a, data, request, rest, rfl, -, -, rfl⟩ |
    ⟨a, response, rest, rfl, -, rfl⟩
  · exact h.of_variables (variables_usbRead _ _ _ _)
  · have hqueue : ListsFrom varlist { m with rxQueue := rest } := ⟨h.list, h.cursor⟩
    unfold fastbootProcessRx
    split
    · exact hqueue.of_variables (variables_finishDownload a _ data)
    · unfold runCommand
      split
      · rename_i cmd arg _
        have hnoted : ListsFrom varlist ((({ m with rxQueue := rest } : Machine).note
            (FastbootEvent.command data)).setState FastbootStates.command) :=
          ⟨h.list, h.cursor⟩
        exact (handle_listsFrom hnoted cmd arg a).of_variables (variables_unknownReason a _)
      · exact hqueue.of_variables (variables_fastbootFail _ _ _)
    · exact hqueue
  · have hqueue : ListsFrom varlist { m with txQueue := rest } := ⟨h.list, h.cursor⟩
    unfold fastbootProcessTx
    split
    · exact workerGetvarAll_listsFrom hqueue a List.nil_suffix
    · exact hqueue.of_variables (variables_usbRead _ _ _ _)
    · exact hqueue

/-- Whatever the host sends, the variables are the ones that were published. -/
theorem run_listsFrom {events : List UsbEvent}
    (hrun : runFrom step (Machine.fresh varlist) events = some m) : ListsFrom varlist m := by
  have hfresh : ListsFrom varlist (Machine.fresh varlist) := ⟨rfl, List.nil_suffix⟩
  exact invariant_of_run (fun s l t => step_listsFrom) hfresh hrun

end ListsFrom

/-!
# The listing
-/

def listing (vars : List FastbootVar) : List Response :=
  vars.map (fun var => Response.info (Reason.variable var)) ++ [Response.okay Reason.empty]

def AckAnswer.delivers (answer : AckAnswer) : Bool :=
  answer.reasonBuilt && answer.responseBuilt && !efiError answer.epTxData

/-- What is queued if each event answers for one response. -/
def queuedBy : List Answers -> List Response -> List Response
  | a :: acks, response :: responses => a.last.queues response ++ queuedBy acks responses
  | _, _ => []

theorem queues_of_delivers {answer : AckAnswer} (h : answer.delivers = true)
    (response : Response) : answer.queues response = [response] := by
  unfold AckAnswer.delivers at h
  rw [Bool.and_eq_true, Bool.and_eq_true, Bool.not_eq_true'] at h
  unfold AckAnswer.queues AckAnswer.written
  rw [if_pos h.1.1, h.2, if_neg Bool.false_ne_true, if_pos h.1.2]

theorem queues_of_not_delivers {answer : AckAnswer} (h : answer.delivers = false)
    (response : Response) :
    answer.queues response = [] ∨ answer.queues response = [Response.unset] := by
  unfold AckAnswer.queues AckAnswer.written
  cases hreason : answer.reasonBuilt with
  | false => exact Or.inl rfl
  | true =>
      rw [if_pos rfl]
      cases hsent : efiError answer.epTxData with
      | true => exact Or.inl rfl
      | false =>
          have hbuilt : answer.responseBuilt = false := by
            unfold AckAnswer.delivers at h
            rwa [hreason, hsent, Bool.not_false, Bool.and_true, Bool.true_and] at h
          rw [hbuilt]
          exact Or.inr rfl

theorem length_queuedBy (acks : List Answers) (responses : List Response) :
    (queuedBy acks responses).length ≤ responses.length := by
  induction acks generalizing responses with
  | nil => exact Nat.zero_le _
  | cons a acks ih =>
      cases responses with
      | nil => exact Nat.zero_le _
      | cons response responses =>
          have hrest := ih responses
          have hone : (a.last.queues response).length ≤ 1 := by
            cases hdelivers : a.last.delivers with
            | true => rw [queues_of_delivers hdelivers, List.length_singleton]
            | false =>
                rcases queues_of_not_delivers hdelivers response with hnone | hblank
                · rw [hnone]
                  exact Nat.zero_le 1
                · rw [hblank, List.length_singleton]
          change (a.last.queues response ++ queuedBy acks responses).length ≤ _
          rw [List.length_append, List.length_cons]
          omega

theorem queuedBy_eq_iff {acks : List Answers} {responses : List Response}
    (hlength : acks.length = responses.length)
    (hset : forall response, response ∈ responses -> response ≠ Response.unset) :
    queuedBy acks responses = responses <-> forall a, a ∈ acks -> a.last.delivers = true := by
  induction acks generalizing responses with
  | nil =>
      cases responses with
      | nil => exact ⟨fun _ a ha => absurd ha List.not_mem_nil, fun _ => rfl⟩
      | cons response responses => cases hlength
  | cons a acks ih =>
      cases responses with
      | nil => cases hlength
      | cons response responses =>
          have htail := ih (Nat.succ.inj hlength)
            fun r hr => hset r (List.mem_cons_of_mem response hr)
          rw [List.forall_mem_cons, ← htail]
          change a.last.queues response ++ queuedBy acks responses = _ <-> _
          cases hdelivers : a.last.delivers with
          | true =>
              rw [queues_of_delivers hdelivers]
              exact ⟨fun h => ⟨rfl, (List.cons.inj h).2⟩, fun h => congrArg _ h.2⟩
          | false =>
              refine ⟨fun h => ?_, fun h => absurd h.1 Bool.false_ne_true⟩
              rcases queues_of_not_delivers hdelivers response with hnone | hblank
              · rw [hnone] at h
                have hshort := length_queuedBy acks responses
                have hlong := congrArg List.length h
                rw [List.nil_append, List.length_cons] at hlong
                omega
              · rw [hblank] at h
                exact absurd (List.cons.inj h).1.symm (hset response (List.mem_cons_self ..))

theorem listing_set (vars : List FastbootVar) {response : Response}
    (hresponse : response ∈ listing vars) : response ≠ Response.unset := by
  unfold listing at hresponse
  rw [List.mem_append, List.mem_map, List.mem_singleton] at hresponse
  rcases hresponse with ⟨var, -, rfl⟩ | rfl
  · exact Response.noConfusion
  · exact Response.noConfusion

/-- The machine after the first of these variables, or the end of the listing. -/
def Machine.listed (a : Answers) (vars : List FastbootVar) (m : Machine) : Machine :=
  match vars with
  | [] => (({ m with cursor := [] } : Machine).withQueued
      (a.last.queues (Response.okay Reason.empty))).setState FastbootStates.complete
  | var :: rest => ({ m with cursor := rest } : Machine).withQueued
      (a.last.queues (Response.info (Reason.variable var)))

theorem workerGetvarAll_eq (a : Answers) (start : List FastbootVar) (m : Machine) :
    workerGetvarAll a start m = m.listed a (if start = [] then m.cursor else start) := by
  unfold workerGetvarAll Machine.listed
  cases (if start = [] then m.cursor else start) with
  | nil => exact fastbootOkay_eq ..
  | cons var rest => exact fastbootAck_eq ..

structure Listing (vars : List FastbootVar) (m : Machine) : Prop where
  running : m.running = true
  state : m.fastbootState = FastbootStates.getvar
  cursor : m.cursor = vars

section Listing

variable {m t : Machine} {a : Answers} {vars : List FastbootVar}

theorem step_listing (hlist : Listing vars m) {response : Response} {rest : List Response}
    (hqueue : m.txQueue = response :: rest) :
    step m (UsbEvent.sent a) = some (({ m with txQueue := rest } : Machine).listed a vars) := by
  have hprocess : fastbootProcessTx a { m with txQueue := rest }
      = ({ m with txQueue := rest } : Machine).listed a vars := by
    unfold fastbootProcessTx
    dsimp only
    rw [hlist.state]
    dsimp only
    rw [workerGetvarAll_eq, if_pos rfl]
    dsimp only
    rw [hlist.cursor]
  unfold step
  rw [if_pos hlist.running]
  dsimp only
  rw [hqueue]
  exact congrArg some hprocess

theorem step_listing_cases (hlist : Listing vars m) (hstep : step m (UsbEvent.sent a) = some t) :
    exists rest, t = ({ m with txQueue := rest } : Machine).listed a vars := by
  cases hqueue : m.txQueue with
  | nil =>
      unfold step at hstep
      rw [if_pos hlist.running] at hstep
      dsimp only at hstep
      rw [hqueue] at hstep
      cases hstep
  | cons response rest =>
      rw [step_listing hlist hqueue] at hstep
      cases hstep
      exact ⟨rest, rfl⟩

theorem trace_of_listed (m : Machine) (a : Answers) {acks : List Answers} (hrunning : m.running = true)
    (hstate : m.fastbootState = FastbootStates.getvar) (hlength : acks.length = vars.length)
    (hrun : runFrom step (m.listed a vars) (acks.map UsbEvent.sent) = some t) :
    t.fastbootState = FastbootStates.complete ∧
      t.trace = m.trace ++ (queuedBy (a :: acks) (listing vars)).map FastbootEvent.queued := by
  induction vars generalizing m a acks with
  | nil =>
      rcases List.length_eq_zero_iff.mp hlength with rfl
      cases hrun
      refine ⟨rfl, ?_⟩
      change m.trace ++ (a.last.queues (Response.okay Reason.empty)).map FastbootEvent.queued
        = m.trace ++ (a.last.queues (Response.okay Reason.empty) ++ []).map FastbootEvent.queued
      rw [List.append_nil]
  | cons var vars ih =>
      cases acks with
      | nil => cases hlength
      | cons b acks =>
          rcases runFrom_cons_eq_some.mp hrun with ⟨u, hu, hrest⟩
          have hlist : Listing vars (m.listed a (var :: vars)) := ⟨hrunning, hstate, rfl⟩
          rcases step_listing_cases hlist hu with ⟨queue, rfl⟩
          have hnext := ih { m.listed a (var :: vars) with txQueue := queue } b hlist.running
            hlist.state (Nat.succ.inj hlength) hrest
          refine ⟨hnext.1, ?_⟩
          rw [hnext.2]
          change m.trace ++ (a.last.queues (Response.info (Reason.variable var))).map _ ++ _
            = m.trace ++ (a.last.queues (Response.info (Reason.variable var)) ++
              queuedBy (b :: acks) (listing vars)).map _
          rw [List.append_assoc, List.map_append]

/-- While every response is delivered there is always one that can be sent. -/
theorem listed_runs (m : Machine) (a : Answers) {acks : List Answers} (hrunning : m.running = true)
    (hstate : m.fastbootState = FastbootStates.getvar) (hlength : acks.length = vars.length)
    (hdelivers : forall b, b ∈ a :: acks -> b.last.delivers = true) :
    exists t, runFrom step (m.listed a vars) (acks.map UsbEvent.sent) = some t := by
  induction vars generalizing m a acks with
  | nil =>
      rcases List.length_eq_zero_iff.mp hlength with rfl
      exact ⟨_, rfl⟩
  | cons var vars ih =>
      cases acks with
      | nil => cases hlength
      | cons b acks =>
          have hlist : Listing vars (m.listed a (var :: vars)) := ⟨hrunning, hstate, rfl⟩
          have hqueued : (m.listed a (var :: vars)).txQueue
              = m.txQueue ++ [Response.info (Reason.variable var)] :=
            congrArg (m.txQueue ++ ·) (queues_of_delivers (hdelivers a (List.mem_cons_self ..)) _)
          have hqueue : (m.listed a (var :: vars)).txQueue ≠ [] := by
            rw [hqueued]
            exact List.append_ne_nil_of_right_ne_nil _ (List.cons_ne_nil _ _)
          rcases List.exists_cons_of_ne_nil hqueue with ⟨response, rest, hcons⟩
          rcases ih { m.listed a (var :: vars) with txQueue := rest } b hlist.running hlist.state
            (Nat.succ.inj hlength) (fun c hc => hdelivers c (List.mem_cons_of_mem a hc)) with ⟨t, ht⟩
          exact ⟨t, runFrom_cons_eq_some.mpr ⟨_, step_listing hlist hcons, ht⟩⟩

end Listing

/-!
# The command
-/

/-- `getvar:all` is received, after any command has been answered. -/
structure AsksForAll (m : Machine) (data : List UInt8) : Prop where
  running : m.running = true
  state : m.fastbootState = FastbootStates.complete
  request : exists request rest, m.rxQueue = request :: rest ∧ data.length ≤ request.length
  command : lookup data = some (Command.getvar, ascii "all")

/-- The command and the completions after it queue one INFO for each variable, and OKAY. -/
def ListsAll (m : Machine) (data : List UInt8) (vars : List FastbootVar) (a : Answers)
    (acks : List Answers) : Prop :=
  exists t, runFrom step m (UsbEvent.received a data :: acks.map UsbEvent.sent) = some t ∧
    t.fastbootState = FastbootStates.complete ∧
    t.trace = m.trace ++
      (FastbootEvent.command data :: (listing vars).map FastbootEvent.queued)

def Machine.beginsListing (data : List UInt8) (rest : List RxRequest) (m : Machine) : Machine :=
  { m with
    fastbootState := FastbootStates.getvar
    rxQueue := rest
    trace := m.trace ++ [FastbootEvent.command data] }

section AsksForAll

variable {m : Machine} {data : List UInt8} {vars : List FastbootVar}

theorem step_asksForAll (hasks : AsksForAll m data) (hvars : ListsFrom vars m) (a : Answers) :
    exists rest, step m (UsbEvent.received a data)
      = some ((m.beginsListing data rest).listed a vars) := by
  rcases hasks.request with ⟨request, rest, hqueue, hlength⟩
  have hplace : (if m.varlist = [] then m.cursor else m.varlist) = vars := by
    rw [hvars.list]
    split
    · rename_i hnil
      have hcursor := hvars.cursor
      rw [hnil, List.suffix_nil] at hcursor
      rw [hcursor, hnil]
    · rfl
  have hworker : cmdGetvar (ascii "all") a ((({ m with rxQueue := rest } : Machine).note
      (FastbootEvent.command data)).setState FastbootStates.command)
      = (m.beginsListing data rest).listed a vars := by
    unfold cmdGetvar
    rw [if_pos rfl, workerGetvarAll_eq]
    exact congrArg (fun place => (m.beginsListing data rest).listed a place) hplace
  have hanswered : ((m.beginsListing data rest).listed a vars).fastbootState
      ≠ FastbootStates.command := by
    cases vars with
    | nil => exact FastbootStates.noConfusion
    | cons var vars => exact FastbootStates.noConfusion
  refine ⟨rest, ?_⟩
  unfold step
  rw [if_pos hasks.running]
  dsimp only
  rw [hqueue]
  dsimp only
  rw [if_pos hlength]
  unfold fastbootProcessRx
  dsimp only
  rw [hasks.state]
  dsimp only
  unfold runCommand
  rw [hasks.command]
  dsimp only
  change some (unknownReason a (cmdGetvar (ascii "all") a ((({ m with rxQueue := rest } :
    Machine).note (FastbootEvent.command data)).setState FastbootStates.command))) = _
  rw [hworker]
  unfold unknownReason
  rw [if_neg fun h => hanswered h.1]

/-- A listing is complete exactly if every one of its responses is delivered. -/
theorem listsAll_iff (hasks : AsksForAll m data) (hvars : ListsFrom vars m) (a : Answers)
    {acks : List Answers} (hlength : acks.length = vars.length) :
    ListsAll m data vars a acks <-> forall b, b ∈ a :: acks -> b.last.delivers = true := by
  rcases step_asksForAll hasks hvars a with ⟨rest, hstep⟩
  have hresponses : (a :: acks).length = (listing vars).length := by
    unfold listing
    rw [List.length_cons, hlength, List.length_append, List.length_map, List.length_singleton]
  rw [← queuedBy_eq_iff hresponses fun response => listing_set vars]
  unfold ListsAll
  rw [runFrom_cons, hstep, Option.bind_some]
  constructor
  · rintro ⟨t, hrun, -, htrace⟩
    have hlisted := (trace_of_listed (m.beginsListing data rest) a hasks.running rfl hlength
      hrun).2
    rw [htrace, List.append_cons] at hlisted
    have hmap := List.append_cancel_left hlisted
    exact (List.map_injective_iff.mpr (fun _ _ h => FastbootEvent.queued.inj h) hmap).symm
  · intro hqueued
    have hdelivers := (queuedBy_eq_iff hresponses fun response => listing_set vars).mp hqueued
    rcases listed_runs (m.beginsListing data rest) a hasks.running rfl hlength hdelivers with
      ⟨t, hrun⟩
    rcases trace_of_listed (m.beginsListing data rest) a hasks.running rfl hlength hrun with
      ⟨hcomplete, htrace⟩
    refine ⟨t, hrun, hcomplete, ?_⟩
    rw [htrace, hqueued]
    exact List.append_assoc ..

end AsksForAll

theorem published_rejected (calls : List Publish) {call : Publish}
    (hrejected : call.accepted = false) : published (calls ++ [call]) = published calls := by
  rw [published_append, fastbootPublish_eq, hrejected]
  exact if_neg Bool.false_ne_true

def publishedTwice : List Publish :=
  [{ name := ascii "a", value := ascii "1", alloc := true },
    { name := ascii "b", value := ascii "2", alloc := true },
    { name := ascii "b", value := ascii "3", alloc := true },
    { name := ascii "a", value := ascii "4", alloc := false }]

/-- The firmware has no memory left while the response is printed to its buffer. -/
def blankAnswers : Answers :=
  { Answers.plain with
    last := { reasonBuilt := true, responseBuilt := false, epTxData := EfiStatus.success } }

end Fastboot
end BootableUefi
